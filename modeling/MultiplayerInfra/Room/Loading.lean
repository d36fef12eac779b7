import MultiplayerInfra.Room.Machine

/-
  What a takeover of a room loads, in terms of the log, the
  newest checkpoint and the state in Redis.

  Key definitions include:
    * `Room.State.longEnough`
    * `Room.State.checkpointReply`
    * `Room.AtLeast`

  Key theorems include:
    * `Room.state_of_warm`
    * `Room.state_of_cold`
    * `Room.le_tick_of_cold`
    * `Room.atLeast_replay`
-/

------------------------------------------------------------
-- The Two Paths
------------------------------------------------------------

namespace Room

open Py GameRoom Kafka

variable {α : Type}

namespace State

/- The polls before the deadline reach the end of the log. -/
def longEnough
    (room : State α)
    (schedule : List (Option Nat)) : Prop :=
  room.log.length ≤ schedule.count (some 0)

instance
    (room : State α)
    (schedule : List (Option Nat)) :
    Decidable (room.longEnough schedule) :=
  inferInstanceAs (Decidable (_ ≤ _))

/- The reply to `load_latest_checkpoint`. -/
def checkpointReply
    (room : State α)
    (checkpointRead : Bool) :
    Option (Option (Checkpoint α)) :=
  if checkpointRead then
    some (Replay.newest room.checkpoints)
  else none

/- Only a lookup that succeeds finds a checkpoint. -/
theorem newest_of_checkpointReply
    {room : State α}
    {checkpointRead : Bool}
    {c : Checkpoint α}
    (hReply :
      room.checkpointReply checkpointRead = some (some c)) :
    checkpointRead = true ∧
      Replay.newest room.checkpoints = some c := by
  unfold checkpointReply at hReply
  split at hReply
  · exact ⟨‹_›, Option.some.inj hReply⟩
  · cases hReply

end State

/-
  A first tick with all its Redis commands up to the offset,
  and a second tick up to its acknowledgement.
-/
def twoTicks : List (Act Int) :=
  [.takeover 100 true [], .join "ann" none,
    .resume (.ok 101), .resume .effect, .resume (.ok 102),
    .resume .effect, .resume (.ok 103), .resume .effect,
    .resume (.fail 104), .resume (.ok 105), .resume .effect,
    .resume (.ok 106)]

variable [PyNumber α]

/- With both keys present, the state in Redis is loaded. -/
theorem state_of_warm
    {room : State α}
    {now : Timestamp}
    {checkpointRead : Bool}
    {schedule : List (Option Nat)}
    {g₀ g : GameLoop α}
    (hWarm : room.warm = true)
    (hLoad :
      loadState g₀
        (room.replies now checkpointRead schedule) =
          some g) :
    ∃ data,
      room.stores.redis.state = some data ∧
        GameState.fromDict now data = some g.state := by
  simp only [State.warm, Bool.and_eq_true,
    Option.isSome_iff_exists] at hWarm
  rcases hWarm with ⟨⟨data, hData⟩, ⟨offset, hOffset⟩⟩
  simp only [loadState, State.replies, hData, hOffset]
    at hLoad
  rcases Option.map_eq_some_iff.mp hLoad with
    ⟨state, hRead, rfl⟩
  exact ⟨data, hData, hRead⟩

/-
  Without them, the newest checkpoint is restored and the
  logged events past its tick are applied.
-/
theorem state_of_cold
    {room : State α}
    {now : Timestamp}
    {checkpointRead : Bool}
    {schedule : List (Option Nat)}
    {g₀ g : GameLoop α}
    (hCold : room.warm = false)
    (hLong : room.longEnough schedule)
    (hLoad :
      loadState g₀
        (room.replies now checkpointRead schedule) =
          some g) :
    g.state =
      (tryLoadCheckpoint g₀.state
          (room.checkpointReply checkpointRead)).1.replay
        (room.log.filter
          (isPastCheckpoint
            (tryLoadCheckpoint g₀.state
              (room.checkpointReply
                checkpointRead)).2)) := by
  rcases coldStartReplay_deliver g₀
      (room.checkpointReply checkpointRead)
      room.topic schedule with
    ⟨g', hRun, _, hState⟩
  have hSame :
      loadState g₀
          (room.replies now checkpointRead schedule) =
        some g' := by
    rw [← hRun]
    unfold loadState
    split
    · rename_i hRaise
      cases hRaise
    · rename_i hBoth
      cases hState' : room.stores.redis.state with
      | none => simp [State.replies, hState'] at hBoth
      | some data =>
          cases hOffset : room.stores.redis.lastOffset with
          | none => simp [State.replies, hOffset] at hBoth
          | some offset =>
              simp [State.warm, hState', hOffset] at hCold
    · rfl
  rw [hLoad] at hSame
  cases hSame
  have hAll :=
    values_deliver_single
      { low := 0, records := room.log : Partition _ } hLong
  rw [hState]
  exact congrArg _ (congrArg _ hAll)

/- A full replay reaches the tick of every logged event. -/
theorem le_tick_of_cold
    {room : State α}
    {now : Timestamp}
    {checkpointRead : Bool}
    {schedule : List (Option Nat)}
    {g₀ g : GameLoop α}
    (hOrigin :
      Replay.FromLog room.log room.service room.checkpoints)
    (hFull : ∀ e ∈ room.log, e.Full)
    (hCold : room.warm = false)
    (hLong : room.longEnough schedule)
    (hLoad :
      loadState g₀
        (room.replies now checkpointRead schedule) =
          some g)
    {e : StateJson α}
    (hMem : e ∈ room.log) :
    e.tickOrZero ≤ g.state.tick := by
  rw [state_of_cold hCold hLong hLoad]
  by_cases hPast :
      isPastCheckpoint
        (tryLoadCheckpoint g₀.state
          (room.checkpointReply checkpointRead)).2 e = true
  · -- the event is replayed
    rcases hFull e hMem with ⟨players, hPlayers⟩
    exact
      GameState.le_tick_replay _
        (List.mem_filter.mpr ⟨hMem, hPast⟩)
        (by simp [hPlayers])
  · -- the checkpoint has reached it
    cases hReply : room.checkpointReply checkpointRead with
    | none => simp [hReply, tryLoadCheckpoint,
        isPastCheckpoint] at hPast
    | some row =>
        cases row with
        | none => simp [hReply, tryLoadCheckpoint,
            isPastCheckpoint] at hPast
        | some c =>
            have hReached : e.tickOrZero ≤ c.tick := by
              simpa [hReply, tryLoadCheckpoint,
                isPastCheckpoint] using hPast
            have hNewest :=
              (State.newest_of_checkpointReply hReply).2
            rcases hOrigin.newest_spec hNewest with
              ⟨hSaved, last, hLast, hTick⟩
            have hIn := List.mem_of_getLast? hLast
            rcases hFull last (hSaved last hIn) with
              ⟨players, hPlayers⟩
            have hRestored :=
              GameState.le_tick_replay g₀.state hIn
                (by simp [hPlayers])
            have hMono :=
              GameState.tick_le_replay
                (g₀.state.replay c.events)
                (room.log.filter
                  (isPastCheckpoint (some c.tick)))
            simp only [tryLoadCheckpoint]
            omega

end Room

------------------------------------------------------------
-- At Least as Recent as an Event
------------------------------------------------------------

namespace Room

open Py GameRoom

variable {α : Type}

/-
  The state has at least the tick of the event, and at equal
  ticks it shows the event.
-/
def AtLeast
    (state : GameState α)
    (event : StateJson α) : Prop :=
  event.tickOrZero ≤ state.tick ∧
    (state.tick = event.tickOrZero → state.Shows event)

variable [PyNumber α]

/- Nothing is applied when the tick ends at a lower bound. -/
theorem filter_eq_nil_of_tick
    {state : GameState α}
    {events : List (StateJson α)}
    {p : StateJson α → Bool}
    {n : Nat}
    (hTick : (state.replay (events.filter p)).tick = n)
    (hFull : ∀ e ∈ events, e.Full)
    (hPast : ∀ e ∈ events, p e = true → n < e.tickOrZero) :
    events.filter p = [] := by
  rw [List.filter_eq_nil_iff]
  intro e hMem hKeep
  rcases hFull e hMem with ⟨players, hPlayers⟩
  have hLow :=
    GameState.le_tick_replay state
      (List.mem_filter.mpr ⟨hMem, hKeep⟩)
      (by simp [hPlayers])
  have hHigh := hPast e hMem hKeep
  omega

/-
  Recovery from a log in which all events after `event` have
  larger ticks: the checkpoint must end with an event of its
  own tick, and with `event` itself if the ticks are equal.
-/
theorem atLeast_replay
    {fresh : GameState α}
    {reply : Option (Option (Checkpoint α))}
    {before after : List (StateJson α)}
    {event : StateJson α}
    (hFull : ∀ e ∈ before ++ event :: after, e.Full)
    (hAfter : ∀ e ∈ after, event.tickOrZero < e.tickOrZero)
    (hLast :
      ∀ c, reply = some (some c) →
        ∃ e, c.events.getLast? = some e ∧ e.Full ∧
          e.tickOrZero = c.tick)
    (hAgree :
      ∀ c, reply = some (some c) →
        c.tick = event.tickOrZero →
          c.events.getLast? = some event) :
    AtLeast
      ((tryLoadCheckpoint fresh reply).1.replay
        ((before ++ event :: after).filter
          (isPastCheckpoint
            (tryLoadCheckpoint fresh reply).2)))
      event := by
  have hEvent : event.Full := hFull event (by simp)
  have hFullAfter : ∀ e ∈ after, e.Full := by
    intro e hMem
    exact hFull e (by simp [hMem])
  rcases id hEvent with ⟨players, hPlayers⟩
  by_cases hPast :
      isPastCheckpoint (tryLoadCheckpoint fresh reply).2
        event = true
  · -- the event itself is replayed
    rw [List.filter_append, List.filter_cons, if_pos hPast]
    refine ⟨?_, ?_⟩
    · apply GameState.le_tick_replay
      · simp
      · simp [hPlayers]
    · intro hTick
      rw [List.append_cons, GameState.replay_append] at hTick ⊢
      have hNone :=
        filter_eq_nil_of_tick hTick hFullAfter
          (fun e hMem _ => hAfter e hMem)
      rw [hNone]
      exact GameState.shows_replay_concat hEvent _ _
  · -- the checkpoint is at least as recent
    rcases reply with _ | _ | c
    · exact absurd rfl hPast
    · exact absurd rfl hPast
    · have hReached : event.tickOrZero ≤ c.tick := by
        simpa [tryLoadCheckpoint, isPastCheckpoint] using hPast
      rcases hLast c rfl with ⟨last, hGet, hLastFull, hTick⟩
      rcases id hLastFull with ⟨roster, hRoster⟩
      have hRestored :
          c.tick ≤ (fresh.replay c.events).tick := by
        rw [← hTick]
        apply GameState.le_tick_replay
        · exact List.mem_of_getLast? hGet
        · simp [hRoster]
      simp only [tryLoadCheckpoint]
      have hMono :=
        GameState.tick_le_replay (fresh.replay c.events)
          ((before ++ event :: after).filter
            (isPastCheckpoint (some c.tick)))
      refine ⟨by omega, ?_⟩
      intro hEqual
      have hSame : c.tick = event.tickOrZero := by
        omega
      have hNone :=
        filter_eq_nil_of_tick hEqual hFull
          (by
            intro e _ hKeep
            rw [← hSame]
            simpa [isPastCheckpoint] using hKeep)
      rw [hNone]
      rcases List.getLast?_eq_some_iff.mp
          (hAgree c rfl hSame) with
        ⟨init, hEvents⟩
      rw [hEvents]
      exact GameState.shows_replay_concat hEvent fresh init

end Room
