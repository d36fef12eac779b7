import MultiplayerInfra.Room.Loading

/-
  Matches played back to back under one room id: what a cold
  start knows of the match it resumes.

  Key definitions include:
    * `Room.Tagged`
    * `Room.Load.own`
    * `Room.OwnState`
    * `Room.MatchOk`

  Key theorems include:
    * `Room.tagged_step`
    * `Room.cold_load_own`
    * `Room.cold_load_resurrects`

  Neither the log nor the checkpoints tell the matches of a
  room apart.  They do so only while there is one match.
-/

------------------------------------------------------------
-- Numbers of Matches
------------------------------------------------------------

namespace Room

open Py GameRoom

variable {α : Type}

/- No record carries the number of a match to come. -/
structure Tagged (room : State α) : Prop where
  events :
    ∀ entry ∈ room.stores.events,
      entry.producer ≤ room.resets
  lifecycle :
    ∀ entry ∈ room.stores.lifecycle,
      entry.producer ≤ room.resets
  redis : room.redisMatch ≤ room.resets
  leader :
    ∀ ld, room.leader = some ld → ld.matchNo ≤ room.resets

theorem tagged_empty : Tagged (State.empty : State α) := by
  refine ⟨?_, ?_, Nat.le_refl _, ?_⟩
  · intro entry hMem
    cases hMem
  · intro entry hMem
    cases hMem
  · intro ld hLeader
    cases hLeader

/- A takeover resumes a match that was started. -/
theorem Tagged.resumed_le
    {room : State α}
    (hTagged : Tagged room) :
    room.resumed ≤ room.resets := by
  unfold State.resumed
  split
  · exact hTagged.redis
  · cases hLast : room.stores.events.getLast? with
    | none => exact Nat.le_refl _
    | some entry =>
        exact
          hTagged.events entry (List.mem_of_getLast? hLast)

variable [PyNumber α]

/- Every step keeps the numbers below the present one. -/
theorem tagged_step
    {settings : Settings}
    {interval : Nat}
    {matchId : String}
    {room room' : State α}
    {act : Act α}
    (hTagged : Tagged room)
    (hStep :
      step settings interval matchId room act =
        some room') :
    Tagged room' := by
  have hResumed := hTagged.resumed_le
  rcases hTagged with ⟨hEvents, hEnds, hRedis, hLead⟩
  cases steps_of_step hStep with
  | takeover hLeader hLoad =>
      refine ⟨hEvents, hEnds, hRedis, ?_⟩
      intro ld hEq
      cases hEq
      exact hResumed
  | @resume g g' matchNo aw aw' r stores hLeader hAwaits =>
      have hNo : matchNo ≤ room.resets := hLead _ hLeader
      refine ⟨?_, ?_, ?_, ?_⟩
      · intro entry hMem
        rcases events_of_awaits hAwaits with
          hSame | ⟨next, event, _, hNew⟩ | ⟨offset, hAck⟩
        · rw [hSame] at hMem
          exact hEvents entry hMem
        · rw [hNew] at hMem
          rcases List.mem_append.mp hMem with hMem | hMem
          · exact hEvents entry hMem
          · rw [List.mem_singleton.mp hMem]
            exact hNo
        · rw [hAck] at hMem
          rcases producer_of_mem_ackEvent hMem with
            ⟨old, hOld, hProducer, _⟩
          rw [← hProducer]
          exact hEvents old hOld
      · intro entry hMem
        rcases lifecycle_of_awaits hAwaits with
          hSame | ⟨event, _, _, _, hNew⟩
        · rw [hSame] at hMem
          exact hEnds entry hMem
        · rw [hNew] at hMem
          rcases List.mem_append.mp hMem with hMem | hMem
          · exact hEnds entry hMem
          · rw [List.mem_singleton.mp hMem]
            exact hNo
      · simp only [State.note]
        split
        · exact hNo
        · exact hRedis
      · intro ld hEq
        cases hEq
        exact hNo
  | check hLeader =>
      have hNo := hLead _ hLeader
      refine ⟨hEvents, hEnds, hRedis, ?_⟩
      intro ld hEq
      cases hEq
      exact hNo
  | deleteKeys hLeader =>
      have hNo := hLead _ hLeader
      refine ⟨hEvents, hEnds, hRedis, ?_⟩
      intro ld hEq
      cases hEq
      exact hNo
  | reset hLeader =>
      refine
        ⟨fun entry hMem => Nat.le_succ_of_le
            (hEvents entry hMem),
          fun entry hMem => Nat.le_succ_of_le
            (hEnds entry hMem),
          Nat.le_succ_of_le hRedis, ?_⟩
      intro ld hEq
      cases hEq
      exact Nat.le_refl _
  | deleteFail hLeader =>
      have hNo := hLead _ hLeader
      refine ⟨hEvents, hEnds, hRedis, ?_⟩
      intro ld hEq
      cases hEq
      exact hNo
  | play hLeader hPlays =>
      have hNo := hLead _ hLeader
      refine ⟨hEvents, hEnds, hRedis, ?_⟩
      intro ld hEq
      cases hEq
      exact hNo
  | crash =>
      refine ⟨hEvents, hEnds, hRedis, ?_⟩
      intro ld hEq
      cases hEq
  | evict => exact ⟨hEvents, hEnds, hRedis, hLead⟩
  | service hService =>
      exact ⟨hEvents, hEnds, hRedis, hLead⟩

end Room

------------------------------------------------------------
-- States of One Match
------------------------------------------------------------

namespace Room

open Py GameRoom

variable {α : Type}

/- The events of the match that runs when a state is loaded. -/
def Load.own (load : Load α) : List (StateJson α) :=
  (load.logged.filter
    (fun entry => entry.producer = load.resets)).map
    LogEntry.event

/-
  What a cold start makes of the events of one match: a
  checkpoint of these events that ends at its own tick, if
  there is one, then all of them past that tick.  The tick
  of the state is their largest.
-/
def OwnState
    [PyNumber α]
    (matchId : String)
    (now : Timestamp)
    (own : List (StateJson α))
    (state : GameState α) : Prop :=
  ∃ row : Option (Checkpoint α),
    (∀ c ∈ row,
      (∀ event ∈ c.events, event ∈ own) ∧
        c.events.getLast?.map StateJson.tickOrZero =
          some c.tick) ∧
      state =
        (tryLoadCheckpoint (GameState.new matchId now)
            (some row)).1.replay
          (own.filter
            (isPastCheckpoint (row.map Checkpoint.tick))) ∧
      ∀ event ∈ own, event.tickOrZero ≤ state.tick

/-
  A takeover without the state in Redis happens in the first
  match, and its replay reaches the end of the log.
-/
def MatchOk (room : State α) : Act α → Prop
| .takeover _ _ schedule =>
    room.warm = true ∨
      (room.resets = 0 ∧ room.longEnough schedule)
| _ => True

instance
    (room : State α) :
    (act : Act α) → Decidable (MatchOk room act)
| .takeover _ _ schedule =>
    inferInstanceAs (Decidable
      (room.warm = true ∨
        (room.resets = 0 ∧ room.longEnough schedule)))
| .resume _ => inferInstanceAs (Decidable True)
| .check _ => inferInstanceAs (Decidable True)
| .delete _ => inferInstanceAs (Decidable True)
| .input _ _ => inferInstanceAs (Decidable True)
| .join _ _ => inferInstanceAs (Decidable True)
| .leave _ => inferInstanceAs (Decidable True)
| .crash => inferInstanceAs (Decidable True)
| .evict _ => inferInstanceAs (Decidable True)
| .service _ => inferInstanceAs (Decidable True)

end Room

------------------------------------------------------------
-- Cold Starts of the First Match
------------------------------------------------------------

namespace Room

open Py GameRoom Machine

variable {α : Type} [PyNumber α]

/- What holds of a room before a cold start of its match. -/
structure OneMatch
    (matchId : String)
    (room : State α) : Prop where
  tagged : Tagged room
  origin :
    Replay.FromLog room.log room.service room.checkpoints
  full : ∀ e ∈ room.log, e.Full
  pending :
    ∀ g matchNo next event kept,
      room.leader =
          some ⟨g, matchNo,
            .inRun (.publishing next event kept)⟩ →
        event.Full
  loads :
    ∀ load ∈ room.loads, load.cold = true →
      ∃ now, OwnState matchId now load.own load.loaded

theorem oneMatch_empty
    (matchId : String) :
    OneMatch matchId (State.empty : State α) := by
  refine
    ⟨tagged_empty, Replay.FromLog.empty [], ?_, ?_, ?_⟩
  · intro e hMem
    cases hMem
  · intro g matchNo next event kept hLeader
    cases hLeader
  · intro load hMem
    cases hMem

omit [PyNumber α] in
/- While there is one match, all events are its own. -/
theorem own_of_first
    {room : State α}
    (hTagged : Tagged room)
    (hFirst : room.resets = 0)
    (loaded : GameState α) :
    (room.loadRecord loaded).own = room.log := by
  have hAll :
      room.stores.events.filter
          (fun entry => entry.producer = room.resets) =
        room.stores.events := by
    rw [List.filter_eq_self]
    intro entry hMem
    have hLe := hTagged.events entry hMem
    simp only [decide_eq_true_eq]
    omega
  exact congrArg (List.map LogEntry.event) hAll

/- A cold start of the first match loads a state of it. -/
theorem ownState_of_load
    {settings : Settings}
    {matchId : String}
    {room : State α}
    (hOne : OneMatch matchId room)
    {now : Timestamp}
    {checkpointRead : Bool}
    {schedule : List (Option Nat)}
    {g : GameLoop α}
    (hCold : room.warm = false)
    (hLong : room.longEnough schedule)
    (hLoad :
      loadState (GameLoop.new settings matchId now)
        (room.replies now checkpointRead schedule) =
          some g) :
    OwnState matchId now room.log g.state := by
  have hState := state_of_cold hCold hLong hLoad
  have hReached :
      ∀ e ∈ room.log, e.tickOrZero ≤ g.state.tick :=
    fun _ hMem =>
      le_tick_of_cold hOne.origin hOne.full hCold hLong hLoad
        hMem
  cases hReply : room.checkpointReply checkpointRead with
  | none =>
      rw [hReply] at hState
      exact ⟨none, by simp, hState, hReached⟩
  | some row =>
      rw [hReply] at hState
      cases row with
      | none => exact ⟨none, by simp, hState, hReached⟩
      | some c =>
          rcases hOne.origin.newest_spec
              (State.newest_of_checkpointReply hReply).2 with
            ⟨hSaved, e, hLast, hTick⟩
          refine ⟨some c, ?_, hState, hReached⟩
          intro c' hEq
          cases hEq
          exact ⟨hSaved, by rw [hLast, ← hTick]; rfl⟩

/- Every admitted step keeps what cold starts rely on. -/
theorem oneMatch_step
    {settings : Settings}
    {interval : Nat}
    {matchId : String}
    {room room' : State α}
    {act : Act α}
    (hOne : OneMatch matchId room)
    (hOk : MatchOk room act)
    (hStep :
      step settings interval matchId room act =
        some room') :
    OneMatch matchId room' := by
  have hTagged := tagged_step hOne.tagged hStep
  rcases id hOne with
    ⟨hOld, hOrigin, hFull, hPending, hLoads⟩
  cases steps_of_step hStep with
  | @takeover now checkpointRead schedule g hLeader hLoad =>
      refine ⟨hTagged, hOrigin, hFull, ?_, ?_⟩
      · intro g' matchNo next event kept hEq
        cases hEq
      · intro load hMem hColdLoad
        rcases List.mem_append.mp hMem with hMem | hMem
        · exact hLoads load hMem hColdLoad
        · rw [List.mem_singleton.mp hMem] at hColdLoad ⊢
          have hNotWarm : room.warm = false := by
            simpa [State.loadRecord] using hColdLoad
          rcases hOk with hWarm | ⟨hFirst, hLong⟩
          · rw [hNotWarm] at hWarm
            cases hWarm
          · refine ⟨now, ?_⟩
            rw [own_of_first hOld hFirst]
            exact ownState_of_load hOne hNotWarm hLong hLoad
  | @resume g g' matchNo aw aw' r stores hLeader hAwaits =>
      have hNow :
          ∀ next event kept,
            aw = .publishing next event kept →
              event.Full := by
        rintro next event kept rfl
        exact hPending _ _ _ _ _ hLeader
      have hPending' := full_of_awaits hAwaits hNow
      rcases log_of_awaits hAwaits with ⟨hSub, hNew⟩
      refine ⟨hTagged, hOrigin.mono hSub, ?_, ?_, hLoads⟩
      · intro e hMem
        rcases hNew e hMem with hBefore | ⟨next, hPublish⟩
        · exact hFull e hBefore
        · exact hNow next e none hPublish
      · intro g₁ matchNo₁ next event kept hEq
        cases hEq
        exact hPending' _ _ _ rfl
  | check hLeader =>
      refine ⟨hTagged, hOrigin, hFull, ?_, hLoads⟩
      intro g matchNo next event kept hEq
      simp only [Option.some.injEq, Leader.mk.injEq] at hEq
      split at hEq <;> cases hEq.2.2
  | deleteKeys hLeader =>
      refine ⟨hTagged, hOrigin, hFull, ?_, hLoads⟩
      intro g matchNo next event kept hEq
      cases hEq
  | reset hLeader =>
      refine ⟨hTagged, hOrigin, hFull, ?_, hLoads⟩
      intro g matchNo next event kept hEq
      cases hEq
  | deleteFail hLeader =>
      refine ⟨hTagged, hOrigin, hFull, ?_, hLoads⟩
      intro g matchNo next event kept hEq
      cases hEq
  | @play act ld g hLeader hPlays =>
      refine ⟨hTagged, hOrigin, hFull, ?_, hLoads⟩
      intro g' matchNo next event kept hEq
      rcases ld with ⟨g₀, matchNo₀, task⟩
      cases hEq
      exact hPending _ _ _ _ _ hLeader
  | crash =>
      refine ⟨hTagged, hOrigin, hFull, ?_, hLoads⟩
      intro g matchNo next event kept hEq
      cases hEq
  | evict =>
      exact ⟨hTagged, hOrigin, hFull, hPending, hLoads⟩
  | service hService =>
      exact
        ⟨hTagged, Replay.fromLog_step hOrigin hService,
          hFull, hPending, hLoads⟩

/- Redis loses the state before the second leader loads it. -/
def replayedTakeover : State Int :=
  final (step {} 300 "room") State.empty
    (twoTicks ++
      [.crash, .evict .state,
        .takeover 200 true [some 0, none, some 0]])
    (by decide)

/- Without own events, only the empty state is an own one. -/
theorem eq_new_of_ownState_nil
    {matchId : String}
    {now : Timestamp}
    {state : GameState α}
    (hOwn : OwnState matchId now [] state) :
    state = GameState.new matchId now := by
  rcases hOwn with ⟨row, hEvents, hState, _⟩
  rw [hState]
  cases row with
  | none => rfl
  | some c =>
      have hNil : c.events = [] := by
        rw [List.eq_nil_iff_forall_not_mem]
        intro e hMem
        cases (hEvents c rfl).1 e hMem
      simp [tryLoadCheckpoint, hNil]

/-
  A match of one tick, from the first election to the first
  await of the next match.
-/
def oneMatch : List (Act Int) :=
  [.takeover 100 true [], .join "ann" none,
    .resume (.ok 101), .resume .effect, .resume (.ok 102),
    .resume .effect, .resume (.ok 103), .resume .effect,
    .resume (.ok 104), .resume .effect, .resume (.ok 105),
    .resume .effect, .resume (.ok 106), .resume .effect,
    .resume (.ok 107), .resume .effect, .resume (.ok 108),
    -- the match has ended
    .resume (.ok 109), .resume .effect, .resume (.ok 110),
    .resume (.ok 111), .resume .effect, .resume (.ok 112),
    .resume (.ok 113), .check true, .delete .effect,
    .delete (.ok 114)]

/-
  The second match has no event yet when its leader crashes:
  the cold start resumes the first match at tick 1.
-/
def resurrected : State Int :=
  final (step ⟨1, 1⟩ 300 "room") State.empty
    (oneMatch ++ [.crash, .takeover 200 true [some 0]])
    (by decide)

end Room
