import MultiplayerInfra.GameRoom.SpectatorBuffer
import MultiplayerInfra.GameRoom.Tick

/-
  The state of a `GameLoop` object and the parts of its
  methods that run without suspending.

  Key definitions include:
    * `GameRoom.GameLoop`
    * `GameRoom.GameLoop.beginTick`
    * `GameRoom.GameLoop.commitTick`
    * `GameRoom.GameLoop.addPlayer`
    * `GameRoom.GameLoop.removePlayer`
    * `GameRoom.GameLoop.beginEndMatch`
    * `GameRoom.GameLoop.lifecycleEvent`

  Key theorems include:
    * `GameRoom.GameLoop.beginTick_spec`
    * `GameRoom.GameLoop.tick_commitTick`

  Where a method awaits, it is cut: the awaits and what
  happens around them are the transitions of
  `GameRoom.awaitStep`.
-/

------------------------------------------------------------
-- The Object
------------------------------------------------------------

namespace GameRoom

open Py

structure GameLoop (α : Type) where
  matchId : String
  state : GameState α
  tickRate : Nat
  running : Bool
  inputQueue : List (String × Json α)
  lastCommittedKafkaOffset : Int
  spectatorBuffer : SpectatorRingBuffer (StateJson α)
  matchDurationTicks : Nat
  matchEnded : Bool
  pendingTelemetry : List (Telemetry α)
  -- the publish tasks started so far, with the stamped tick
  telemetryTasks : List (Nat × Telemetry α)

namespace GameLoop

variable {α : Type}

/- `GameLoop(match_id, ...)`, created at clock reading `now`. -/
def new
    (settings : Settings)
    (matchId : String)
    (now : Timestamp) :
    GameLoop α where
  matchId := matchId
  state := GameState.new matchId now
  tickRate := settings.tickRate
  running := false
  inputQueue := []
  lastCommittedKafkaOffset := -1
  spectatorBuffer :=
    SpectatorRingBuffer.empty (settings.tickRate * 30)
      (settings.tickRate * 10)
  matchDurationTicks :=
    settings.tickRate * settings.matchDurationSeconds
  matchEnded := false
  pendingTelemetry := []
  telemetryTasks := []

/- Replace the live players. -/
def setPlayers
    (g : GameLoop α)
    (players : Players α) :
    GameLoop α :=
  { g with state := { g.state with players := players } }

def enqueueInput
    (g : GameLoop α)
    (playerId : String)
    (inputData : Json α) :
    GameLoop α :=
  { g with
    inputQueue := g.inputQueue ++ [(playerId, inputData)] }

/- `stop()`; the flush of the producer is not modelled. -/
def stop (g : GameLoop α) : GameLoop α :=
  { g with running := false, matchEnded := true }

end GameLoop

end GameRoom

------------------------------------------------------------
-- Ticks
------------------------------------------------------------

namespace GameRoom

open Py

namespace GameLoop

variable {α : Type}

/-
  `_process_tick` up to its publish: the loop after the
  inputs were taken, and the next players with their event,
  or `none` when an input raised.
-/
def beginTick
    [PyNumber α]
    (g : GameLoop α) :
    GameLoop α × Option (Players α × StateJson α) :=
  let drained :=
    drainInputs g.inputQueue g.pendingTelemetry
      (copyPlayers g.state.players)
  let g' :=
    { g with
      inputQueue := drained.inputQueue
      pendingTelemetry := drained.pendingTelemetry }
  (g', drained.players.map (fun players =>
    let next := respawn players
    (next, {
      matchId := g.matchId
      tick := some (g.state.tick + 1)
      players := some (playersJson next) })))

/- Hand the pending telemetry of a tick to publish tasks. -/
def scheduleTelemetry
    (g : GameLoop α)
    (snapshot : StateJson α) :
    GameLoop α :=
  let moves :=
    snapshot.roster.entries.map (fun e =>
      Telemetry.move e.1 e.2)
  { g with
    pendingTelemetry := []
    telemetryTasks :=
      g.telemetryTasks ++
        (g.pendingTelemetry ++ moves).map (fun telem =>
          (snapshot.tickOrZero, telem)) }

/-
  `_process_tick` from the acknowledgement at `offset` to the
  first Redis call.
-/
def commitTick
    (g : GameLoop α)
    (next : Players α)
    (event : StateJson α)
    (offset : Int) :
    GameLoop α :=
  let committed :=
    { g with
      lastCommittedKafkaOffset := offset
      state := { g.state with
        tick := event.tickOrZero
        players := commitPlayers g.state.players next } }
  let scheduled := committed.scheduleTelemetry event
  { scheduled with
    spectatorBuffer :=
      scheduled.spectatorBuffer.append
        event.tickOrZero event }

end GameLoop

end GameRoom

------------------------------------------------------------
-- Joining and Leaving
------------------------------------------------------------

namespace GameRoom

open Py

namespace GameLoop

variable {α : Type}

/-
  `add_player`, from the reply of the hold lookup: `hold` is
  `none` when there is no hold slot or it does not decode.
-/
def addPlayer
    [PyNumber α]
    (g : GameLoop α)
    (playerId : String)
    (hold : Option (HoldJson α)) :
    GameLoop α :=
  match hold with
  | some saved =>
      g.setPlayers (g.state.players.set playerId {
        playerId := playerId
        x := saved.x.getD (PyNumber.ofInt 0)
        y := saved.y.getD (PyNumber.ofInt 0)
        health := saved.health.getD 100
        score := saved.score.getD 0
        connected := true })
  | none =>
      match g.state.players.get? playerId with
      | some player =>
          g.setPlayers (g.state.players.set playerId
            { player with connected := true })
      | none =>
          { g.setPlayers (g.state.players.set playerId
              (PlayerState.new playerId)) with
            pendingTelemetry :=
              g.pendingTelemetry ++
                [.sessionStart playerId] }

/-
  `remove_player`, with the hold slot that it stores in
  Redis.
-/
def removePlayer
    (g : GameLoop α)
    (playerId : String) :
    GameLoop α × Option (HoldJson α) :=
  match g.state.players.get? playerId with
  | none => (g, none)
  | some player =>
      ({ g.setPlayers (g.state.players.set playerId
          { player with connected := false }) with
        pendingTelemetry :=
          g.pendingTelemetry ++ [.sessionEnd playerId] },
        some {
          x := some player.x
          y := some player.y
          health := some player.health
          score := some player.score })

end GameLoop

end GameRoom

------------------------------------------------------------
-- End of a Match
------------------------------------------------------------

namespace GameRoom

open Py

structure Outcome where
  winner : Option String
  scores : Dict String Int
deriving DecidableEq

/- The `match.end` event of `match.lifecycle`. -/
structure MatchEnd where
  matchId : String
  tick : Nat
  outcome : Outcome
  players : List String
  startedAt : Timestamp
  durationSeconds : Int
deriving DecidableEq

/- A row of the table `matches`. -/
structure MatchRecord where
  matchId : String
  startedAt : Timestamp
  endedAt : Timestamp
  durationSeconds : Int
  players : List String
  outcome : Outcome
deriving DecidableEq

namespace GameLoop

variable {α : Type}

/- `end_match` up to the first farewell to a socket. -/
def beginEndMatch (g : GameLoop α) : GameLoop α :=
  { g.setPlayers
      (g.state.players.mapVals (fun _ player =>
        { player with connected := false })) with
    matchEnded := true
    running := false }

/-
  `max(players, key=score)`: among equal scores the player
  who joined first.
-/
def winner (g : GameLoop α) : Option String :=
  (g.state.players.entries.foldl
    (fun best e =>
      match best with
      | none => some e
      | some leader =>
          if leader.2.score < e.2.score then some e
          else best)
    none).map Prod.fst

def outcome (g : GameLoop α) : Outcome where
  winner := g.winner
  scores := g.state.players.mapVals (fun _ p => p.score)

/- The lifecycle event that `end_match` publishes. -/
def lifecycleEvent
    (g : GameLoop α)
    (now : Timestamp) :
    MatchEnd where
  matchId := g.matchId
  tick := g.state.tick
  outcome := g.outcome
  players := g.state.players.keys
  startedAt := g.state.startedAt
  durationSeconds := now - g.state.startedAt

/- The row that `_write_match_record` saves. -/
def matchRecord
    (g : GameLoop α)
    (outcome : Outcome)
    (endedAt : Timestamp) :
    MatchRecord where
  matchId := g.matchId
  startedAt := g.state.startedAt
  endedAt := endedAt
  durationSeconds := endedAt - g.state.startedAt
  players := g.state.players.keys
  outcome := outcome

end GameLoop

end GameRoom

------------------------------------------------------------
-- What the Parts of a Tick Do
------------------------------------------------------------

namespace GameRoom

open Py

namespace GameLoop

variable {α : Type}

@[simp] theorem tick_commitTick
    (g : GameLoop α)
    (next : Players α)
    (event : StateJson α)
    (offset : Int) :
    (g.commitTick next event offset).state.tick =
      event.tickOrZero := by
  rfl

@[simp] theorem players_commitTick
    (g : GameLoop α)
    (next : Players α)
    (event : StateJson α)
    (offset : Int) :
    (g.commitTick next event offset).state.players =
      commitPlayers g.state.players next := by
  rfl

variable [PyNumber α]

/-
  The event of a tick names the match and the next tick, and
  lists the next players, among them all present ones.
-/
theorem beginTick_spec
    {g g' : GameLoop α}
    {next : Players α}
    {event : StateJson α}
    (hBegin : g.beginTick = (g', some (next, event))) :
    event.matchId = g.matchId ∧
      event.tick = some (g.state.tick + 1) ∧
        event.players = some (playersJson next) ∧
          g.state.players.keys ⊆ next.keys := by
  have hPair := congrArg Prod.snd hBegin
  rcases Option.map_eq_some_iff.mp hPair with
    ⟨players, hDrain, hEq⟩
  cases hEq
  refine ⟨rfl, rfl, rfl, ?_⟩
  have hKeys := drainInputs_keys hDrain
  simpa using hKeys

/- A tick takes inputs out of the queue. -/
theorem subset_inputQueue_beginTick
    {g g' : GameLoop α}
    {result : Option (Players α × StateJson α)}
    (hBegin : g.beginTick = (g', result)) :
    g'.inputQueue ⊆ g.inputQueue := by
  cases hBegin
  exact subset_inputQueue_drainInputs _ _ _

/- A tick on inputs of present players connects nobody. -/
theorem connection_beginTick
    {g g' : GameLoop α}
    {next : Players α}
    {event : StateJson α}
    (hPresent :
      ∀ e ∈ g.inputQueue, e.1 ∈ g.state.players.keys)
    (hBegin : g.beginTick = (g', some (next, event)))
    (pid : String) :
    connection next pid =
      connection g.state.players pid := by
  have hPair := congrArg Prod.snd hBegin
  rcases Option.map_eq_some_iff.mp hPair with
    ⟨players, hDrain, hEq⟩
  cases hEq
  have hCopied :
      ∀ e ∈ g.inputQueue,
        e.1 ∈ (copyPlayers g.state.players).keys := by
    rw [keys_copyPlayers]
    exact hPresent
  calc
    connection (respawn players) pid =
        connection players pid :=
      connection_respawn players pid
    _ = connection (copyPlayers g.state.players) pid :=
      connection_drainInputs hCopied hDrain pid
    _ = connection g.state.players pid :=
      connection_copyPlayers g.state.players pid

/- A join keeps the tick and the match. -/
@[simp] theorem tick_addPlayer
    (g : GameLoop α)
    (playerId : String)
    (hold : Option (HoldJson α)) :
    (g.addPlayer playerId hold).state.tick =
      g.state.tick := by
  unfold addPlayer
  split
  · rfl
  · split <;> rfl

@[simp] theorem matchId_addPlayer
    (g : GameLoop α)
    (playerId : String)
    (hold : Option (HoldJson α)) :
    (g.addPlayer playerId hold).matchId = g.matchId := by
  unfold addPlayer
  split
  · rfl
  · split <;> rfl

@[simp] theorem inputQueue_addPlayer
    (g : GameLoop α)
    (playerId : String)
    (hold : Option (HoldJson α)) :
    (g.addPlayer playerId hold).inputQueue =
      g.inputQueue := by
  unfold addPlayer
  split
  · rfl
  · split <;> rfl

/- A join connects the player, and nobody else. -/
theorem connection_addPlayer
    (g : GameLoop α)
    (playerId : String)
    (hold : Option (HoldJson α))
    (pid : String) :
    connection (g.addPlayer playerId hold).state.players pid =
      if pid = playerId then some true
      else connection g.state.players pid := by
  unfold addPlayer
  split
  · exact connection_set _ _ _ _
  · split <;> exact connection_set _ _ _ _

theorem mem_keys_addPlayer
    (g : GameLoop α)
    (playerId : String)
    (hold : Option (HoldJson α)) :
    playerId ∈
      (g.addPlayer playerId hold).state.players.keys := by
  unfold addPlayer
  split
  · exact (Dict.mem_keys_set _ _ _ _).mpr (Or.inl rfl)
  · split <;>
      exact (Dict.mem_keys_set _ _ _ _).mpr (Or.inl rfl)

/- A join never removes a player. -/
theorem subset_keys_addPlayer
    (g : GameLoop α)
    (playerId : String)
    (hold : Option (HoldJson α)) :
    g.state.players.keys ⊆
      (g.addPlayer playerId hold).state.players.keys := by
  intro pid hPid
  unfold addPlayer
  split
  · exact (Dict.mem_keys_set _ _ _ _).mpr (Or.inr hPid)
  · split
    · exact (Dict.mem_keys_set _ _ _ _).mpr (Or.inr hPid)
    · exact (Dict.mem_keys_set _ _ _ _).mpr (Or.inr hPid)

omit [PyNumber α] in
@[simp] theorem tick_removePlayer
    (g : GameLoop α)
    (playerId : String) :
    (g.removePlayer playerId).1.state.tick =
      g.state.tick := by
  unfold removePlayer
  split <;> rfl

omit [PyNumber α] in
@[simp] theorem matchId_removePlayer
    (g : GameLoop α)
    (playerId : String) :
    (g.removePlayer playerId).1.matchId = g.matchId := by
  unfold removePlayer
  split <;> rfl

omit [PyNumber α] in
@[simp] theorem inputQueue_removePlayer
    (g : GameLoop α)
    (playerId : String) :
    (g.removePlayer playerId).1.inputQueue =
      g.inputQueue := by
  unfold removePlayer
  split <;> rfl

omit [PyNumber α] in
/- A departure disconnects a player who is there. -/
theorem connection_removePlayer
    {g : GameLoop α}
    {playerId : String}
    (hPresent : playerId ∈ g.state.players.keys)
    (pid : String) :
    connection (g.removePlayer playerId).1.state.players pid =
      if pid = playerId then some false
      else connection g.state.players pid := by
  rcases Dict.mem_keys_iff.mp hPresent with ⟨player, hGet⟩
  unfold removePlayer
  rw [hGet]
  exact connection_set _ _ _ _

omit [PyNumber α] in
/- A departure never removes a player. -/
theorem subset_keys_removePlayer
    (g : GameLoop α)
    (playerId : String) :
    g.state.players.keys ⊆
      (g.removePlayer playerId).1.state.players.keys := by
  intro pid hPid
  unfold removePlayer
  split
  · exact hPid
  · exact (Dict.mem_keys_set _ _ _ _).mpr (Or.inr hPid)

end GameLoop

end GameRoom
