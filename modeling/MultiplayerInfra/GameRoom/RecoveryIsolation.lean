import MultiplayerInfra.GameRoom.Recovery

/-
  What a cold start of one room sees of the other rooms,
  whose events share the topic `match.events`.

  Key definitions include:
    * `GameRoom.EventTopic`
    * `GameRoom.recover`
    * `GameRoom.SameRecovery`
    * `GameRoom.PassesOver`

  Key theorems include:
    * `GameRoom.replay_filter_own`
    * `GameRoom.recover_of_passesOver`
    * `GameRoom.recover_isolated_iff`

  `_apply_event` does not compare match ids, so an event of
  another room is ignored exactly when the tick filter of the
  checkpoint drops it or when it has nothing to add.
-/

------------------------------------------------------------
-- Contents of the Topic
------------------------------------------------------------

namespace GameRoom

open Py Kafka

/-
  A content of `match.events`.  Producers use the match id as
  the message key, so a match has one partition.
-/
structure EventTopic (α : Type) where
  partitions : Topic (StateJson α)
  home : String → Nat
  keyed :
    ∀ p, ∀ event ∈ recordsOf partitions p,
      p = home event.matchId

variable {α : Type}

/- An event of the match. -/
def isOwn
    (matchId : String)
    (event : StateJson α) :
    Bool :=
  decide (event.matchId = matchId)

namespace EventTopic

/- The events of a match, in the order of their offsets. -/
def sequence
    (content : EventTopic α)
    (matchId : String) :
    List (StateJson α) :=
  (recordsOf content.partitions (content.home matchId)).filter
    (isOwn matchId)

/- Every event of another match satisfies `F`. -/
def ForeignIn
    (content : EventTopic α)
    (matchId : String)
    (F : StateJson α → Prop) : Prop :=
  ∀ p, ∀ event ∈ recordsOf content.partitions p,
    event.matchId ≠ matchId → F event

end EventTopic

variable [PyNumber α]

/-
  A cold start on a content of the topic: broker calls
  succeed, and the schedule says which partition answers
  each poll.
-/
def recover
    (g : GameLoop α)
    (checkpoint : Option (Option (Checkpoint α)))
    (content : EventTopic α)
    (schedule : List (Option Nat)) :
    Option (GameLoop α) :=
  coldStartReplay g checkpoint (some content.partitions)
    (deliver content.partitions (fun _ => 0) schedule)

omit [PyNumber α] in
/- Both recoveries return, with the same tick and players. -/
def SameRecovery (r r' : Option (GameLoop α)) : Prop :=
  ∃ g g',
    r = some g ∧ r' = some g' ∧
      SameState g.state g'.state

omit [PyNumber α] in
/-
  A cold start passes over an event: it lists no players, or
  the checkpoint is as recent, or it lists an empty roster
  at a tick that is already restored.
-/
def PassesOver
    (g : GameLoop α)
    (checkpoint : Option (Option (Checkpoint α)))
    (event : StateJson α) : Prop :=
  event.players = none ∨
    (∃ c, checkpoint = some (some c) ∧
      event.tickOrZero ≤ c.tick) ∨
    (event.roster.keys = [] ∧
      (event.tickOrZero ≤ g.state.tick ∨
        ∃ c, checkpoint = some (some c) ∧
          ∃ e ∈ c.events,
            e.players ≠ none ∧
              event.tickOrZero ≤ e.tickOrZero))

end GameRoom

------------------------------------------------------------
-- Foreign Events Without Effect
------------------------------------------------------------

namespace GameRoom

open Py Kafka

variable {α : Type} [PyNumber α]

omit [PyNumber α] in
/- The delivered events of a match are its whole sequence. -/
theorem filter_own_delivered
    (content : EventTopic α)
    (matchId : String)
    {schedule : List (Option Nat)}
    (hCovers : Covers content.partitions schedule) :
    ((messages
        (deliver content.partitions (fun _ => 0)
          schedule)).map Message.value).filter
        (isOwn matchId) =
      content.sequence matchId := by
  apply filter_messages_of_keyed _ _ _ _ hCovers
  intro q event hEvent hOwn
  have hId : event.matchId = matchId := by
    simpa [isOwn] using hOwn
  rw [← hId]
  exact content.keyed q event hEvent

/-
  The checkpoint restores a tick that reaches every tick
  listed in `PassesOver`.
-/
theorem applyEvent_of_passesOver
    {g : GameLoop α}
    {checkpoint : Option (Option (Checkpoint α))}
    {event : StateJson α}
    (hOver : PassesOver g checkpoint event)
    (hPast :
      isPastCheckpoint
        (tryLoadCheckpoint g.state checkpoint).2 event =
          true)
    {state : GameState α}
    (hTick :
      (tryLoadCheckpoint g.state checkpoint).1.tick ≤
        state.tick) :
    SameState (state.applyEvent event) state := by
  rcases hOver with hNone | ⟨c, rfl, hOld⟩ | ⟨hEmpty, hLow⟩
  · rw [GameState.applyEvent_of_none hNone]
    exact ⟨rfl, fun _ => rfl⟩
  · simp only [tryLoadCheckpoint, isPastCheckpoint,
      decide_eq_true_eq] at hPast
    omega
  · have hReached : event.tickOrZero ≤ state.tick := by
      rcases hLow with hStart | ⟨c, rfl, e, hMem, hSome, hLe⟩
      · have hMono :
            g.state.tick ≤
              (tryLoadCheckpoint g.state
                checkpoint).1.tick := by
          unfold tryLoadCheckpoint
          split
          · exact Nat.le_refl _
          · exact Nat.le_refl _
          · exact GameState.tick_le_replay _ _
        omega
      · have hLower :=
          GameState.le_tick_replay g.state hMem hSome
        simp only [tryLoadCheckpoint] at hTick
        omega
    refine ⟨?_, ?_⟩
    · unfold GameState.applyEvent
      split
      · rfl
      · exact Nat.max_eq_left hReached
    · intro pid
      have hAbsent : event.roster.get? pid = none := by
        rw [Dict.get?_eq_none_iff, hEmpty]
        simp
      rw [GameState.get?_applyEvent, hAbsent]

/-
  Induction over the delivered events: the foreign ones are
  passed over, so only the own ones count.
-/
theorem replay_filter_own
    {g : GameLoop α}
    {checkpoint : Option (Option (Checkpoint α))}
    {events : List (StateJson α)}
    (hForeign :
      ∀ event ∈ events, event.matchId ≠ g.matchId →
        PassesOver g checkpoint event)
    {state state' : GameState α}
    (hTick :
      (tryLoadCheckpoint g.state checkpoint).1.tick ≤
        state.tick)
    (hSame : SameState state state') :
    SameState
      (state.replay
        (events.filter
          (isPastCheckpoint
            (tryLoadCheckpoint g.state checkpoint).2)))
      (state'.replay
        ((events.filter (isOwn g.matchId)).filter
          (isPastCheckpoint
            (tryLoadCheckpoint g.state checkpoint).2))) := by
  induction events generalizing state state' with
  | nil => exact hSame
  | cons event events ih =>
      have hRest :
          ∀ e ∈ events, e.matchId ≠ g.matchId →
            PassesOver g checkpoint e := by
        intro e hMem
        exact hForeign e (List.mem_cons_of_mem _ hMem)
      by_cases hPast :
          isPastCheckpoint
            (tryLoadCheckpoint g.state checkpoint).2 event =
              true
      · have hTick' :=
          Nat.le_trans hTick
            (GameState.tick_le_applyEvent state event)
        by_cases hOwn : isOwn g.matchId event = true
        · simp only [List.filter_cons, hPast, hOwn, if_true,
            GameState.replay_cons]
          exact
            ih hRest hTick'
              (GameState.applyEvent_congr hSame event)
        · have hId : event.matchId ≠ g.matchId := by
            simpa [isOwn] using hOwn
          have hSkip :=
            applyEvent_of_passesOver
              (hForeign event (by simp) hId) hPast hTick
          simp only [List.filter_cons, hPast, hOwn, if_true,
            Bool.false_eq_true, if_false,
            GameState.replay_cons]
          apply ih hRest hTick'
          exact
            ⟨hSkip.1.trans hSame.1, fun pid =>
              (hSkip.2 pid).trans (hSame.2 pid)⟩
      · by_cases hOwn : isOwn g.matchId event = true
        · simp only [List.filter_cons, hPast, hOwn, if_true,
            Bool.false_eq_true, if_false]
          exact ih hRest hTick hSame
        · simp only [List.filter_cons, hPast, hOwn,
            Bool.false_eq_true, if_false]
          exact ih hRest hTick hSame

/- A complete recovery that passes over all foreign events. -/
theorem recover_of_passesOver
    (g : GameLoop α)
    (checkpoint : Option (Option (Checkpoint α)))
    (content : EventTopic α)
    {schedule : List (Option Nat)}
    (hCovers : Covers content.partitions schedule)
    (hForeign :
      content.ForeignIn g.matchId (PassesOver g checkpoint)) :
    ∃ g',
      recover g checkpoint content schedule = some g' ∧
        SameState g'.state
          ((tryLoadCheckpoint g.state checkpoint).1.replay
            ((content.sequence g.matchId).filter
              (isPastCheckpoint
                (tryLoadCheckpoint g.state
                  checkpoint).2))) := by
  rcases coldStartReplay_deliver g checkpoint
      content.partitions schedule with
    ⟨g', hRun, _, hState⟩
  refine ⟨g', hRun, ?_⟩
  rw [hState, ← filter_own_delivered content g.matchId hCovers]
  apply replay_filter_own
  · intro event hEvent hId
    rcases List.mem_map.mp hEvent with ⟨msg, hMsg, rfl⟩
    exact
      hForeign msg.partition msg.value
        (mem_recordsOf_of_delivered _ hMsg) hId
  · exact Nat.le_refl _
  · exact ⟨rfl, fun _ => rfl⟩

end GameRoom

------------------------------------------------------------
-- Foreign Events With an Effect
------------------------------------------------------------

namespace GameRoom

open Py Kafka

variable {α : Type}

/- All events in one partition. -/
def EventTopic.single
    (events : List (StateJson α)) :
    EventTopic α where
  partitions := [{ low := 0, records := events }]
  home := fun _ => 0
  keyed := by
    intro p event hEvent
    rcases p with _ | p
    · rfl
    · simp [recordsOf] at hEvent

/- Polls that read a single partition to its end. -/
def readAll
    (events : List (StateJson α)) :
    List (Option Nat) :=
  List.replicate events.length (some 0)

theorem covers_readAll
    (events : List (StateJson α)) :
    Covers (EventTopic.single events).partitions
      (readAll events) := by
  intro p
  rcases p with _ | p
  · simp [EventTopic.single, recordsOf, readAll]
  · simp [EventTopic.single, recordsOf]

theorem foreignIn_single
    {matchId : String}
    {F : StateJson α → Prop}
    {events : List (StateJson α)}
    (hEvents :
      ∀ event ∈ events, event.matchId ≠ matchId → F event) :
    (EventTopic.single events).ForeignIn matchId F := by
  intro p event hEvent hId
  rcases p with _ | p
  · exact hEvents event (by
      simpa [EventTopic.single, recordsOf] using hEvent) hId
  · simp [EventTopic.single, recordsOf] at hEvent

variable [PyNumber α]

/- Recovery from one partition replays its events in order. -/
theorem recover_single
    (g : GameLoop α)
    (checkpoint : Option (Option (Checkpoint α)))
    (events : List (StateJson α)) :
    ∃ g',
      recover g checkpoint (EventTopic.single events)
          (readAll events) = some g' ∧
        g'.state =
          (tryLoadCheckpoint g.state checkpoint).1.replay
            (events.filter
              (isPastCheckpoint
                (tryLoadCheckpoint g.state
                  checkpoint).2)) := by
  rcases coldStartReplay_deliver g checkpoint
      (EventTopic.single events).partitions
      (readAll events) with
    ⟨g', hRun, _, hState⟩
  refine ⟨g', hRun, ?_⟩
  have hAll :=
    values_deliver_single ({ low := 0, records := events })
      (by simp [readAll] :
        events.length ≤ (readAll events).count (some 0))
  rw [hState]
  exact congrArg _ (congrArg _ hAll)

/- An event that is not passed over exceeds a bound or lists a player. -/
theorem lt_or_mem_of_not_passesOver
    {g : GameLoop α}
    {checkpoint : Option (Option (Checkpoint α))}
    {event : StateJson α}
    (hNot : ¬ PassesOver g checkpoint event) :
    (tryLoadCheckpoint g.state checkpoint).1.tick <
        event.tickOrZero ∨
      ∃ pid, pid ∈ event.roster.keys := by
  by_cases hEmpty : event.roster.keys = []
  · left
    have hStart : ¬ event.tickOrZero ≤ g.state.tick := by
      intro hLe
      exact hNot (Or.inr (Or.inr ⟨hEmpty, Or.inl hLe⟩))
    unfold tryLoadCheckpoint
    split
    · exact Nat.lt_of_not_le hStart
    · exact Nat.lt_of_not_le hStart
    · rename_i c
      have hBound :
          (g.state.replay c.events).tick ≤
            event.tickOrZero - 1 := by
        apply GameState.tick_replay_le
        · omega
        · intro e hMem hSome
          by_contra hHigh
          apply hNot
          refine Or.inr (Or.inr ⟨hEmpty, Or.inr ?_⟩)
          exact ⟨c, rfl, e, hMem, hSome, by omega⟩
      simp only
      omega
  · right
    exact List.exists_mem_of_ne_nil _ hEmpty

/- An event that is not passed over is not filtered either. -/
theorem isPastCheckpoint_of_not_passesOver
    {g : GameLoop α}
    {checkpoint : Option (Option (Checkpoint α))}
    {event : StateJson α}
    (hNot : ¬ PassesOver g checkpoint event) :
    isPastCheckpoint
      (tryLoadCheckpoint g.state checkpoint).2 event =
        true := by
  unfold tryLoadCheckpoint
  split
  · rfl
  · rfl
  · rename_i c
    simp only [isPastCheckpoint, decide_eq_true_eq]
    by_contra hOld
    exact hNot (Or.inr (Or.inl ⟨c, rfl, by omega⟩))

omit [PyNumber α] in
/- An own event that gives a player one point more. -/
def rival
    (matchId : String)
    (event : StateJson α)
    (pid : String)
    (pdata : PlayerJson α) :
    StateJson α where
  matchId := matchId
  tick := event.tick
  players :=
    some (Dict.empty.set pid
      { pdata with score := some (pdata.score.getD 0 + 1) })

/-
  An event that is not passed over changes the outcome of a
  recovery: by its tick alone, or after an own event about
  one of its players.
-/
theorem exists_contents_of_not_passesOver
    {g : GameLoop α}
    {checkpoint : Option (Option (Checkpoint α))}
    {event : StateJson α}
    (hNot : ¬ PassesOver g checkpoint event) :
    ∃ own : List (StateJson α),
      (∀ e ∈ own, e.matchId = g.matchId) ∧
        ¬ SameRecovery
          (recover g checkpoint (EventTopic.single own)
            (readAll own))
          (recover g checkpoint
            (EventTopic.single (own ++ [event]))
            (readAll (own ++ [event]))) := by
  have hPast := isPastCheckpoint_of_not_passesOver hNot
  rcases Option.ne_none_iff_exists'.mp
      (fun hNone => hNot (Or.inl hNone)) with
    ⟨players, hPlayers⟩
  rcases lt_or_mem_of_not_passesOver hNot with
    hTick | ⟨pid, hPid⟩
  · refine ⟨[], by simp, ?_⟩
    rintro ⟨g₁, g₂, hRun₁, hRun₂, hSame, _⟩
    rcases recover_single g checkpoint [] with
      ⟨g₁', hRun₁', hState₁⟩
    rcases recover_single g checkpoint [event] with
      ⟨g₂', hRun₂', hState₂⟩
    cases hRun₁.symm.trans hRun₁'
    cases hRun₂.symm.trans hRun₂'
    rw [hState₁, hState₂] at hSame
    simp only [List.filter_cons, hPast, if_true,
      List.filter_nil, GameState.replay_cons,
      GameState.replay_nil,
      GameState.tick_applyEvent hPlayers] at hSame
    omega
  · rcases Dict.mem_keys_iff.mp hPid with ⟨pdata, hGet⟩
    have hPastOwn :
        isPastCheckpoint
          (tryLoadCheckpoint g.state checkpoint).2
          (rival g.matchId event pid pdata) = true :=
      hPast
    refine ⟨[rival g.matchId event pid pdata],
      by simp [rival], ?_⟩
    rintro ⟨g₁, g₂, hRun₁, hRun₂, _, hSame⟩
    rcases recover_single g checkpoint
        [rival g.matchId event pid pdata] with
      ⟨g₁', hRun₁', hState₁⟩
    rcases recover_single g checkpoint
        ([rival g.matchId event pid pdata] ++ [event]) with
      ⟨g₂', hRun₂', hState₂⟩
    cases hRun₁.symm.trans hRun₁'
    cases hRun₂.symm.trans hRun₂'
    have hRival :
        (rival g.matchId event pid pdata).roster.get? pid =
          some { pdata with
            score := some (pdata.score.getD 0 + 1) } := by
      simp [rival, StateJson.roster]
    have hAt := hSame pid
    rw [hState₁, hState₂] at hAt
    simp only [List.cons_append, List.nil_append,
      List.filter_cons, hPast, hPastOwn, if_true,
      List.filter_nil, GameState.replay_cons,
      GameState.replay_nil, GameState.get?_applyEvent,
      hRival, hGet] at hAt
    have hScore :=
      congrArg
        (fun player =>
          (player.map PlayerState.score).getD 0) hAt
    simp only [applyPlayer, Option.map_some,
      Option.getD_some] at hScore
    omega

end GameRoom

------------------------------------------------------------
-- Isolation
------------------------------------------------------------

namespace GameRoom

open Py Kafka

variable {α : Type} [PyNumber α]

/-
  Let the foreign events come from `F`.  The recovery of a
  match depends on its own events alone, whatever the
  contents and the order of the polls, exactly when a cold
  start passes over every foreign event in `F`.
-/
theorem recover_isolated_iff
    (g : GameLoop α)
    (checkpoint : Option (Option (Checkpoint α)))
    (F : StateJson α → Prop) :
    (∀ (content content' : EventTopic α)
        (schedule schedule' : List (Option Nat)),
      Covers content.partitions schedule →
      Covers content'.partitions schedule' →
      content.ForeignIn g.matchId F →
      content'.ForeignIn g.matchId F →
      content.sequence g.matchId =
        content'.sequence g.matchId →
      SameRecovery (recover g checkpoint content schedule)
        (recover g checkpoint content' schedule')) ↔
      ∀ event, F event → event.matchId ≠ g.matchId →
        PassesOver g checkpoint event := by
  constructor
  · intro hIsolated event hEvent hId
    by_contra hNot
    rcases exists_contents_of_not_passesOver hNot with
      ⟨own, hOwn, hDiffer⟩
    apply hDiffer
    apply hIsolated
    · exact covers_readAll own
    · exact covers_readAll (own ++ [event])
    · apply foreignIn_single
      intro e hMem hForeign
      exact absurd (hOwn e hMem) hForeign
    · apply foreignIn_single
      intro e hMem hForeign
      rcases List.mem_append.mp hMem with hMem | hMem
      · exact absurd (hOwn e hMem) hForeign
      · rw [List.mem_singleton.mp hMem]
        exact hEvent
    · simp [EventTopic.sequence, EventTopic.single,
        recordsOf, isOwn, hId]
  · intro hOver content content' schedule schedule' hCovers
      hCovers' hForeign hForeign' hSequence
    rcases recover_of_passesOver g checkpoint content hCovers
        (fun p e hMem hId =>
          hOver e (hForeign p e hMem hId) hId) with
      ⟨g₁, hRun₁, hSame₁⟩
    rcases recover_of_passesOver g checkpoint content'
        hCovers' (fun p e hMem hId =>
          hOver e (hForeign' p e hMem hId) hId) with
      ⟨g₂, hRun₂, hSame₂⟩
    rw [← hSequence] at hSame₂
    refine ⟨g₁, g₂, hRun₁, hRun₂, ?_, ?_⟩
    · exact hSame₁.1.trans hSame₂.1.symm
    · intro pid
      exact (hSame₁.2 pid).trans (hSame₂.2 pid).symm

/- The first event of another room, at its tick 7. -/
def strayEvent : StateJson Int where
  matchId := "room-b"
  tick := some 7
  players :=
    some (Dict.empty.set "bob"
      (PlayerState.new "bob").toJson)

/-
  Without a checkpoint, one event of another room moves a
  fresh room from tick 0 to tick 7.
-/
theorem recover_not_isolated :
    Covers (EventTopic.single [strayEvent]).partitions
        (readAll [strayEvent]) ∧
      (EventTopic.single ([] : List (StateJson Int))).sequence
          "room-a" =
        (EventTopic.single [strayEvent]).sequence "room-a" ∧
      ¬ SameRecovery
        (recover (GameLoop.new {} "room-a" 0) (some none)
          (EventTopic.single ([] : List (StateJson Int))) [])
        (recover (GameLoop.new {} "room-a" 0) (some none)
          (EventTopic.single [strayEvent])
          (readAll [strayEvent])) := by
  refine ⟨covers_readAll _, rfl, ?_⟩
  rintro ⟨g, g', hRun, hRun', hTick, _⟩
  rcases recover_single
      (GameLoop.new {} "room-a" 0 : GameLoop Int)
      (some none) [] with
    ⟨g₁, hRun₁, hState⟩
  rcases recover_single (GameLoop.new {} "room-a" 0)
      (some none) [strayEvent] with
    ⟨g₂, hRun₂, hState'⟩
  cases hRun.symm.trans hRun₁
  cases hRun'.symm.trans hRun₂
  rw [hState, hState'] at hTick
  revert hTick
  decide

end GameRoom
