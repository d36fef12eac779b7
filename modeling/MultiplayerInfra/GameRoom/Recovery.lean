import Mathlib.Data.List.MinMax
import MultiplayerInfra.GameRoom.GameLoop
import MultiplayerInfra.Kafka.Topic

/-
  How a new leader rebuilds the match state: from Redis, or
  else from a replay checkpoint and the topic
  `match.events`.

  Key definitions include:
    * `GameRoom.GameState.applyEvent`
    * `GameRoom.GameState.replay`
    * `GameRoom.tryLoadCheckpoint`
    * `GameRoom.coldStartReplay`
    * `GameRoom.loadState`
    * `GameRoom.SameState`

  Key theorems include:
    * `GameRoom.coldStartReplay_deliver`
    * `GameRoom.GameState.applyEvent_congr`
    * `GameRoom.GameState.shows_replay_concat`

  The replies of the stores are arguments; `none` stands for
  a call that raises.
-/

------------------------------------------------------------
-- Applying Events
------------------------------------------------------------

namespace GameRoom

open Py

variable {α : Type} [PyNumber α]

/- One player of an event, over the player it had so far. -/
def applyPlayer
    (pid : String)
    (old : Option (PlayerState α))
    (pdata : PlayerJson α) :
    PlayerState α :=
  { old.getD (PlayerState.new pid) with
    x := pdata.x
    y := pdata.y
    health := pdata.health.getD 100
    score := pdata.score.getD 0
    connected := pdata.connected.getD true }

namespace GameState

/- `_apply_event`; the match of the event is not compared. -/
def applyEvent
    (state : GameState α)
    (event : StateJson α) :
    GameState α :=
  match event.players with
  | none => state
  | some players =>
      { state with
        players := state.players.upsert applyPlayer players
        tick := max state.tick event.tickOrZero }

/- Apply events in order. -/
def replay
    (state : GameState α)
    (events : List (StateJson α)) :
    GameState α :=
  events.foldl applyEvent state

end GameState

end GameRoom

------------------------------------------------------------
-- Loading
------------------------------------------------------------

namespace GameRoom

open Py Kafka

/- A row of `replay_checkpoints` without its snapshot. -/
structure Checkpoint (α : Type) where
  tick : Nat
  events : List (StateJson α)
deriving DecidableEq

variable {α : Type} [PyNumber α]

/-
  `_try_load_checkpoint`: a failed lookup counts as no
  checkpoint.
-/
def tryLoadCheckpoint
    (state : GameState α)
    (reply : Option (Option (Checkpoint α))) :
    GameState α × Option Nat :=
  match reply with
  | none => (state, none)
  | some none => (state, none)
  | some (some checkpoint) =>
      (state.replay checkpoint.events, some checkpoint.tick)

/- `checkpoint_tick is None or event_tick > checkpoint_tick`. -/
def isPastCheckpoint
    (checkpointTick : Option Nat)
    (event : StateJson α) :
    Bool :=
  match checkpointTick with
  | none => true
  | some tick => decide (tick < event.tickOrZero)

/- The loop body of the replay, with the largest offset. -/
def replayMessage
    (checkpointTick : Option Nat)
    (acc : GameState α × Int)
    (msg : Message (StateJson α)) :
    GameState α × Int :=
  (if isPastCheckpoint checkpointTick msg.value then
      acc.1.applyEvent msg.value
    else acc.1,
    max acc.2 msg.offset)

/-
  `_cold_start_replay`.  The topic is `none` when its
  metadata or watermarks cannot be read; the polls end at
  the deadline of 60 s.
-/
def coldStartReplay
    (g : GameLoop α)
    (checkpoint : Option (Option (Checkpoint α)))
    (topic : Option (Topic (StateJson α)))
    (polls : List (Poll (StateJson α))) :
    Option (GameLoop α) :=
  let restored := tryLoadCheckpoint g.state checkpoint
  match topic with
  | none => none
  | some [] => some { g with state := restored.1 }
  | some topic =>
      (readToEnd (replayMessage restored.2)
          (endOffset topic) (unread topic) polls
          (restored.1, -1)).map
        (fun (state, maxOffset) =>
          { g with
            state := state
            lastCommittedKafkaOffset :=
              if 0 ≤ maxOffset then maxOffset
              else g.lastCommittedKafkaOffset })

/- What the stores answer during one `load_state`. -/
structure LoadReplies (α : Type) where
  -- the values of `match:{id}:state` and `:last_offset`
  redis : Option (Option (StateJson α) × Option Int)
  checkpoint : Option (Option (Checkpoint α))
  topic : Option (Topic (StateJson α))
  polls : List (Poll (StateJson α))
  now : Timestamp

/- `load_state`; `none` when it raises. -/
def loadState
    (g : GameLoop α)
    (replies : LoadReplies α) :
    Option (GameLoop α) :=
  match replies.redis with
  | none => none
  | some (some stateData, some offsetData) =>
      (GameState.fromDict replies.now stateData).map
        (fun state =>
          { g with
            state := state
            lastCommittedKafkaOffset := offsetData })
  | some _ =>
      coldStartReplay g replies.checkpoint replies.topic
        replies.polls

end GameRoom

------------------------------------------------------------
-- Equal States
------------------------------------------------------------

namespace GameRoom

open Py

variable {α : Type}

/- The same tick and, as Python compares them, players. -/
def SameState (state state' : GameState α) : Prop :=
  state.tick = state'.tick ∧
    state.players.Same state'.players

variable [PyNumber α]

namespace GameState

@[simp] theorem replay_nil
    (state : GameState α) :
    state.replay [] = state := by
  rfl

@[simp] theorem replay_cons
    (state : GameState α)
    (event : StateJson α)
    (events : List (StateJson α)) :
    state.replay (event :: events) =
      (state.applyEvent event).replay events := by
  rfl

theorem replay_append
    (state : GameState α)
    (events events' : List (StateJson α)) :
    state.replay (events ++ events') =
      (state.replay events).replay events' := by
  simp [replay]

/- An event without players changes nothing. -/
theorem applyEvent_of_none
    {event : StateJson α}
    (hNone : event.players = none)
    (state : GameState α) :
    state.applyEvent event = state := by
  simp [applyEvent, hNone]

/- The tick after an event that lists players. -/
theorem tick_applyEvent
    {event : StateJson α}
    {players : Dict String (PlayerJson α)}
    (hPlayers : event.players = some players)
    (state : GameState α) :
    (state.applyEvent event).tick =
      max state.tick event.tickOrZero := by
  simp [applyEvent, hPlayers]

/- The players after an event. -/
theorem get?_applyEvent
    (state : GameState α)
    (event : StateJson α)
    (pid : String) :
    (state.applyEvent event).players.get? pid =
      match event.roster.get? pid with
      | none => state.players.get? pid
      | some pdata =>
          some
            (applyPlayer pid (state.players.get? pid)
              pdata) := by
  unfold applyEvent StateJson.roster
  cases hPlayers : event.players with
  | none => simp
  | some players =>
      simp only [Option.getD_some]
      rw [Dict.get?_upsert]
      cases players.get? pid <;> rfl

/- The tick never decreases. -/
theorem tick_le_applyEvent
    (state : GameState α)
    (event : StateJson α) :
    state.tick ≤ (state.applyEvent event).tick := by
  unfold applyEvent
  split
  · exact Nat.le_refl _
  · exact Nat.le_max_left _ _

theorem tick_le_replay
    (state : GameState α)
    (events : List (StateJson α)) :
    state.tick ≤ (state.replay events).tick := by
  induction events generalizing state with
  | nil => exact Nat.le_refl _
  | cons event events ih =>
      exact
        Nat.le_trans (tick_le_applyEvent state event) (ih _)

/- The tick of an applied event bounds the result below. -/
theorem le_tick_replay
    (state : GameState α)
    {events : List (StateJson α)}
    {event : StateJson α}
    (hEvent : event ∈ events)
    (hPlayers : event.players ≠ none) :
    event.tickOrZero ≤ (state.replay events).tick := by
  induction events generalizing state with
  | nil => cases hEvent
  | cons head events ih =>
      rcases List.mem_cons.mp hEvent with hHead | hRest
      · subst hHead
        rcases Option.ne_none_iff_exists'.mp hPlayers with
          ⟨players, hSome⟩
        have hTick := tick_applyEvent hSome state
        have hMono :=
          tick_le_replay (state.applyEvent event) events
        rw [replay_cons]
        omega
      · exact ih (state.applyEvent head) hRest

/- A bound on the ticks of the events bounds the result. -/
theorem tick_replay_le
    {state : GameState α}
    {events : List (StateJson α)}
    {n : Nat}
    (hState : state.tick ≤ n)
    (hEvents :
      ∀ event ∈ events,
        event.players ≠ none → event.tickOrZero ≤ n) :
    (state.replay events).tick ≤ n := by
  induction events generalizing state with
  | nil => exact hState
  | cons event events ih =>
      apply ih
      · cases hPlayers : event.players with
        | none =>
            rw [applyEvent_of_none hPlayers]
            exact hState
        | some players =>
            rw [tick_applyEvent hPlayers]
            have hHead :=
              hEvents event (by simp) (by simp [hPlayers])
            omega
      · intro event' hMem
        exact hEvents event' (List.mem_cons_of_mem _ hMem)

end GameState

end GameRoom

------------------------------------------------------------
-- Replay Laws
------------------------------------------------------------

namespace GameRoom

open Py

variable {α : Type} [PyNumber α]

namespace GameState

/- Applying an event respects equality of states. -/
theorem applyEvent_congr
    {state state' : GameState α}
    (hSame : SameState state state')
    (event : StateJson α) :
    SameState (state.applyEvent event)
      (state'.applyEvent event) := by
  rcases hSame with ⟨hTick, hPlayers⟩
  refine ⟨?_, ?_⟩
  · unfold applyEvent
    cases event.players with
    | none => exact hTick
    | some players => simp [hTick]
  · intro pid
    rw [get?_applyEvent, get?_applyEvent, hPlayers pid]

/- The fields that a full event writes are the ones shown. -/
theorem toJson_applyPlayer
    (pid : String)
    (old : Option (PlayerState α))
    (player : PlayerState α) :
    (applyPlayer pid old player.toJson).toJson =
      player.toJson := by
  rfl

/- A full event is shown right after it was applied. -/
theorem shows_applyEvent
    {event : StateJson α}
    (hFull : event.Full)
    (state : GameState α) :
    (state.applyEvent event).Shows event := by
  rcases hFull with ⟨players, hPlayers⟩
  intro pid pdata hGet
  rw [get?_applyEvent, hGet]
  have hRoster : event.roster = playersJson players := by
    simp [StateJson.roster, hPlayers]
  rw [hRoster, get?_playersJson] at hGet
  rcases Option.map_eq_some_iff.mp hGet with
    ⟨player, _, rfl⟩
  rw [Option.map_some, toJson_applyPlayer]

/- Replaying shows the last of the events. -/
theorem shows_replay_concat
    {event : StateJson α}
    (hFull : event.Full)
    (state : GameState α)
    (events : List (StateJson α)) :
    (state.replay (events ++ [event])).Shows event := by
  rw [replay_append]
  exact shows_applyEvent hFull (state.replay events)

/- The players after a replay are the old and the listed ones. -/
theorem mem_keys_replay
    (state : GameState α)
    (events : List (StateJson α))
    (pid : String) :
    pid ∈ (state.replay events).players.keys ↔
      pid ∈ state.players.keys ∨
        ∃ event ∈ events, pid ∈ event.roster.keys := by
  induction events generalizing state with
  | nil => simp
  | cons event events ih =>
      have hHead :
          pid ∈ (state.applyEvent event).players.keys ↔
            pid ∈ state.players.keys ∨
              pid ∈ event.roster.keys := by
        rw [Dict.mem_keys_iff, get?_applyEvent,
          Dict.mem_keys_iff, Dict.mem_keys_iff]
        cases event.roster.get? pid with
        | none => simp
        | some pdata => simp
      rw [replay_cons, ih, hHead]
      simp only [List.mem_cons, exists_eq_or_imp]
      tauto

end GameState

end GameRoom

------------------------------------------------------------
-- What a Cold Start Applies
------------------------------------------------------------

namespace GameRoom

open Py Kafka

variable {α : Type} [PyNumber α]

/- The replay folds the events past the checkpoint. -/
theorem fst_foldl_replayMessage
    (checkpointTick : Option Nat)
    (acc : GameState α × Int)
    (msgs : List (Message (StateJson α))) :
    (msgs.foldl (replayMessage checkpointTick) acc).1 =
      acc.1.replay
        ((msgs.map Message.value).filter
          (isPastCheckpoint checkpointTick)) := by
  induction msgs generalizing acc with
  | nil => rfl
  | cons msg msgs ih =>
      rw [List.foldl_cons, ih]
      by_cases hPast :
          isPastCheckpoint checkpointTick msg.value = true
      · simp [replayMessage, hPast]
      · simp [replayMessage, hPast]

/-
  The state after a replay in which no poll fails: the
  checkpoint, then every delivered event past it.
-/
theorem coldStartReplay_deliver
    (g : GameLoop α)
    (checkpoint : Option (Option (Checkpoint α)))
    (topic : Topic (StateJson α))
    (schedule : List (Option Nat)) :
    ∃ g' : GameLoop α,
      coldStartReplay g checkpoint (some topic)
          (deliver topic (fun _ => 0) schedule) = some g' ∧
        g'.matchId = g.matchId ∧
        g'.state =
          (tryLoadCheckpoint g.state checkpoint).1.replay
            (((messages
                (deliver topic (fun _ => 0)
                  schedule)).map Message.value).filter
              (isPastCheckpoint
                (tryLoadCheckpoint g.state
                  checkpoint).2)) := by
  cases topic with
  | nil =>
      refine ⟨{ g with
        state := (tryLoadCheckpoint g.state checkpoint).1 },
        rfl, rfl, ?_⟩
      rw [messages_deliver_of_exhausted []
        (by simp [recordsOf])]
      rfl
  | cons partition topic =>
      have hRead :=
        readToEnd_deliver (partition :: topic)
          (replayMessage
            (tryLoadCheckpoint g.state checkpoint).2)
          schedule
          ((tryLoadCheckpoint g.state checkpoint).1, -1)
      simp only [coldStartReplay, hRead, Option.map_some]
      refine ⟨_, rfl, rfl, ?_⟩
      exact fst_foldl_replayMessage _ _ _

/- Loading changes the state and the offset of a loop. -/
theorem loadState_eq
    {g g' : GameLoop α}
    {replies : LoadReplies α}
    (hLoad : loadState g replies = some g') :
    ∃ state offset,
      g' = { g with
        state := state
        lastCommittedKafkaOffset := offset } := by
  unfold loadState at hLoad
  split at hLoad
  · cases hLoad
  · rcases Option.map_eq_some_iff.mp hLoad with
      ⟨state, _, rfl⟩
    exact ⟨state, _, rfl⟩
  · unfold coldStartReplay at hLoad
    simp only at hLoad
    split at hLoad
    · cases hLoad
    · cases hLoad
      exact ⟨_, g.lastCommittedKafkaOffset, rfl⟩
    · rcases Option.map_eq_some_iff.mp hLoad with
        ⟨result, _, rfl⟩
      exact ⟨result.1, _, rfl⟩

theorem matchId_loadState
    {g g' : GameLoop α}
    {replies : LoadReplies α}
    (hLoad : loadState g replies = some g') :
    g'.matchId = g.matchId := by
  rcases loadState_eq hLoad with ⟨state, offset, rfl⟩
  rfl

/- `load_state` does not start a loop anew. -/
theorem matchEnded_loadState
    {g g' : GameLoop α}
    {replies : LoadReplies α}
    (hLoad : loadState g replies = some g') :
    g'.matchEnded = g.matchEnded := by
  rcases loadState_eq hLoad with ⟨state, offset, rfl⟩
  rfl

end GameRoom
