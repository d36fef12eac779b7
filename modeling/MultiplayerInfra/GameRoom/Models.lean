import MultiplayerInfra.Py.Dict
import MultiplayerInfra.Py.Json

/-
  The data model of a game room: the players and the match
  state in memory, and the JSON objects in which they travel
  through Kafka and Redis.

  Key definitions include:
    * `GameRoom.Settings`
    * `GameRoom.PlayerState`
    * `GameRoom.GameState`
    * `GameRoom.PlayerJson`
    * `GameRoom.StateJson`
    * `GameRoom.GameState.toDict`
    * `GameRoom.GameState.fromDict`

  Key theorems include:
    * `GameRoom.GameState.fromDict_toDict`

  An event of `match.events` and the value of the Redis key
  `match:{id}:state` have the same fields, so both are a
  `StateJson`.
-/

------------------------------------------------------------
-- Players and Match State
------------------------------------------------------------

namespace GameRoom

open Py

/- Clock readings of `time.time()`. -/
abbrev Timestamp := Int

/- The game settings of `config.py`. -/
structure Settings where
  tickRate : Nat := 20
  matchDurationSeconds : Nat := 300
deriving DecidableEq

structure PlayerState (α : Type) where
  playerId : String
  x : α
  y : α
  health : Int
  score : Int
  connected : Bool
deriving DecidableEq

/- The players of a match, in the order in which they joined. -/
abbrev Players (α : Type) :=
  Dict String (PlayerState α)

structure GameState (α : Type) where
  matchId : String
  players : Players α
  tick : Nat
  startedAt : Timestamp
deriving DecidableEq

variable {α : Type}

/- `PlayerState(player_id=pid)`: every other field defaults. -/
def PlayerState.new
    [PyNumber α]
    (playerId : String) :
    PlayerState α where
  playerId := playerId
  x := PyNumber.ofInt 0
  y := PyNumber.ofInt 0
  health := 100
  score := 0
  connected := true

/- `GameState(match_id=m)`, created when the clock reads `now`. -/
def GameState.new
    (matchId : String)
    (now : Timestamp) :
    GameState α where
  matchId := matchId
  players := Dict.empty
  tick := 0
  startedAt := now

end GameRoom

------------------------------------------------------------
-- JSON Objects
------------------------------------------------------------

namespace GameRoom

open Py

/-
  A player inside a state or event object.  Readers supply
  defaults for the optional fields; writers always set them.
-/
structure PlayerJson (α : Type) where
  x : α
  y : α
  health : Option Int
  score : Option Int
  connected : Option Bool
deriving DecidableEq

/- `{"match_id": ..., "tick": ..., "players": {...}}`. -/
structure StateJson (α : Type) where
  matchId : String
  tick : Option Nat
  players : Option (Dict String (PlayerJson α))
deriving DecidableEq

/- The value of `hold:{match_id}:{player_id}`. -/
structure HoldJson (α : Type) where
  x : Option α
  y : Option α
  health : Option Int
  score : Option Int
deriving DecidableEq

variable {α : Type}

namespace StateJson

/- `data.get("tick", 0)`. -/
def tickOrZero (data : StateJson α) : Nat :=
  data.tick.getD 0

/- `data.get("players", {})`. -/
def roster
    (data : StateJson α) :
    Dict String (PlayerJson α) :=
  data.players.getD Dict.empty

end StateJson

/- The JSON object of one player. -/
def PlayerState.toJson
    (player : PlayerState α) :
    PlayerJson α where
  x := player.x
  y := player.y
  health := some player.health
  score := some player.score
  connected := some player.connected

/-
  The player that `from_dict` builds; a missing health or
  score raises `KeyError`.
-/
def PlayerJson.toPlayer
    (pid : String)
    (pdata : PlayerJson α) :
    Option (PlayerState α) := do
  let health ← pdata.health
  let score ← pdata.score
  return {
    playerId := pid
    x := pdata.x
    y := pdata.y
    health := health
    score := score
    connected := pdata.connected.getD true }

namespace GameState

def toDict (state : GameState α) : StateJson α where
  matchId := state.matchId
  tick := some state.tick
  players :=
    some (state.players.mapVals (fun _ p => p.toJson))

/-
  The start time is not in the object: the rebuilt state
  takes the clock reading at the time of the call.
-/
def fromDict
    (now : Timestamp)
    (data : StateJson α) :
    Option (GameState α) :=
  (Dict.empty.insertAll? PlayerJson.toPlayer
      data.roster).map
    (fun players => {
      matchId := data.matchId
      players := players
      tick := data.tickOrZero
      startedAt := now })

end GameState

end GameRoom

------------------------------------------------------------
-- Round Trip
------------------------------------------------------------

namespace GameRoom

open Py

variable {α : Type}

/- A written player is read back under its key. -/
@[simp] theorem PlayerState.toPlayer_toJson
    (pid : String)
    (player : PlayerState α) :
    player.toJson.toPlayer pid =
      some { player with playerId := pid } := by
  rfl

/- The name of a player is not part of its JSON object. -/
@[simp] theorem PlayerState.toJson_withId
    (pid : String)
    (player : PlayerState α) :
    PlayerState.toJson { player with playerId := pid } =
      player.toJson := by
  rfl

/- A state shows an event: its players have these fields. -/
def GameState.Shows
    (state : GameState α)
    (event : StateJson α) : Prop :=
  ∀ pid pdata,
    event.roster.get? pid = some pdata →
      (state.players.get? pid).map PlayerState.toJson =
        some pdata

/- Looking up a player in a written state. -/
theorem GameState.get?_roster_toDict
    (state : GameState α)
    (pid : String) :
    state.toDict.roster.get? pid =
      (state.players.get? pid).map PlayerState.toJson :=
  Dict.get?_mapVals (fun _ p => PlayerState.toJson p)
    state.players pid

/- Reading a state object takes over its tick and players. -/
theorem GameState.fromDict_spec
    {now : Timestamp}
    {data : StateJson α}
    {state : GameState α}
    (hRead : GameState.fromDict now data = some state) :
    state.matchId = data.matchId ∧
      state.tick = data.tickOrZero ∧
        state.startedAt = now ∧
          ∀ pid,
            state.players.get? pid =
              (data.roster.get? pid).bind
                (PlayerJson.toPlayer pid) := by
  rcases Option.map_eq_some_iff.mp hRead with
    ⟨players, hPlayers, rfl⟩
  refine ⟨rfl, rfl, rfl, ?_⟩
  intro pid
  have hGet :=
    Dict.get?_insertAll? PlayerJson.toPlayer hPlayers pid
  rw [Dict.get?_empty] at hGet
  rw [hGet]
  cases data.roster.get? pid <;> rfl

/-
  A written state is read back with the same tick and the
  same players; only the start time is lost.
-/
theorem GameState.fromDict_toDict
    (now : Timestamp)
    (state : GameState α) :
    ∃ state' : GameState α,
      GameState.fromDict now state.toDict = some state' ∧
        state'.matchId = state.matchId ∧
          state'.tick = state.tick ∧
            state'.startedAt = now ∧
              ∀ pid,
                (state'.players.get? pid).map
                    PlayerState.toJson =
                  (state.players.get? pid).map
                    PlayerState.toJson := by
  have hTotal :
      ((Dict.empty : Players α).insertAll?
        PlayerJson.toPlayer state.toDict.roster).isSome := by
    apply Dict.insertAll?_isSome
    intro e hEntry
    rcases List.mem_map.mp hEntry with ⟨e', _, rfl⟩
    simp
  rcases Option.isSome_iff_exists.mp hTotal with
    ⟨players, hPlayers⟩
  have hRead :
      GameState.fromDict now state.toDict =
        some {
          matchId := state.toDict.matchId
          players := players
          tick := state.toDict.tickOrZero
          startedAt := now } := by
    rw [GameState.fromDict, hPlayers]
    rfl
  rcases GameState.fromDict_spec hRead with
    ⟨hId, hTick, hStart, hGet⟩
  refine ⟨_, hRead, hId, hTick, hStart, ?_⟩
  intro pid
  rw [hGet, GameState.get?_roster_toDict]
  cases state.players.get? pid <;> simp

end GameRoom
