import MultiplayerInfra.Room.Machine

/-
  The handlers of the player sockets beside the task that
  runs the matches.

  Key definitions include:
    * `Sockets.greet`
    * `Sockets.admitPlayer`
    * `Sockets.Point`
    * `Sockets.State`
    * `Sockets.Act`
    * `Sockets.step`

  A handler keeps the `GameLoop` that was the global one when
  its socket connected; the loops are numbered by the resets
  of `run_matches`.  Between two awaits a handler runs on its
  own, and the environment decides who goes on next.
-/

------------------------------------------------------------
-- Handshakes
------------------------------------------------------------

namespace Sockets

/- The code and the reason of `websocket.close`. -/
structure Close where
  code : Nat
  reason : String
deriving DecidableEq

/- The first message of a client. -/
structure Hello where
  token : Option String
  mode : Option String
deriving DecidableEq

/- What `receive_json` comes to within its timeout. -/
inductive Received where
  | timeout
  | failed
  | hello (hello : Hello)
deriving DecidableEq

/- After the first message: the mode, or the close. -/
def greet : Received → Except Close String
| .timeout => .error ⟨4001, "Auth timeout"⟩
| .failed => .error ⟨4001, "Auth failed"⟩
| .hello hello =>
    if hello.token.getD "" = "" then
      .error ⟨4001, "Missing token"⟩
    else .ok (hello.mode.getD "player")

/-
  After `validate_token`: the player, or the close.  A room
  whose `game_loop` is `None` is not modelled.
-/
def admitPlayer
    (playerId : Option String)
    (isLeader : Bool) : Except Close String :=
  if playerId.getD "" = "" then
    .error ⟨4001, "Invalid token"⟩
  else if isLeader then .ok (playerId.getD "")
  else .error ⟨4000, "Not the leader"⟩

end Sockets

------------------------------------------------------------
-- The State
------------------------------------------------------------

namespace Sockets

open Py GameRoom

variable {α : Type}

/- A hold slot, and the match whose loop recorded it. -/
structure Slot (α : Type) where
  value : HoldJson α
  matchNo : Nat
deriving DecidableEq

/-
  Where a handler is.  A Redis call without a reply has not
  taken effect.
-/
inductive Point (α : Type) where
  | accepting
  | awaitingToken
  | validating (mode : String)
  | spectating
  -- `add_player`: the lookup and the delete of the hold slot
  | lookingUp
      (playerId : String)
      (reply : Option (Option (Slot α)))
  | clearing (playerId : String) (applied : Bool)
  -- `websocket.receive_text()`
  | receiving (playerId : String)
  -- `remove_player`: the hold slot is stored
  | holding
      (playerId : String)
      (value : HoldJson α)
      (applied : Bool)
  | returned (close : Option Close)
deriving DecidableEq

structure Handler (α : Type) where
  -- the loop that `ws_endpoint` passed on
  loop : Nat
  -- the server has closed the socket
  closed : Bool
  point : Point α

/- A commit: the loop when its tick began, and the result. -/
structure Commit (α : Type) where
  matchNo : Nat
  began : GameLoop α
  next : Players α

/- A hold slot that `add_player` restored. -/
structure Restore where
  playerId : String
  matchNo : Nat
  recorded : Nat

structure State (α : Type) where
  stores : Stores α
  holds : String → Option (Slot α)
  loops : Nat → GameLoop α
  -- the global `game_loop`, and `current` of `run_matches`
  current : Nat
  task : Room.MatchTask α
  connectedPlayers : Dict String Nat
  -- the sockets, in the order in which they connected
  handlers : Nat → Handler α
  sockets : Nat
  -- the sockets that `end_match` has not closed yet
  farewells : List Nat
  -- records, which no step reads
  accepted : List Nat
  received : List (Nat × String × Json α)
  began : GameLoop α
  commits : List (Commit α)
  restores : List Restore

namespace State

/- A room whose first loop is at the entry of its `run`. -/
def start
    (g : GameLoop α)
    (stores : Stores α)
    (holds : String → Option (HoldJson α)) :
    State α where
  stores := stores
  holds := fun playerId =>
    (holds playerId).map (fun value => ⟨value, 0⟩)
  loops := fun _ => (beginRun g).1
  current := 0
  task := .inRun (beginRun g).2
  connectedPlayers := Dict.empty
  handlers := fun _ => ⟨0, true, .returned none⟩
  sockets := 0
  farewells := []
  accepted := []
  received := []
  began := g
  commits := []
  restores := []

/- The loop that `run_matches` is running. -/
def loop (s : State α) : GameLoop α :=
  s.loops s.current

def setHandler
    (s : State α)
    (k : Nat)
    (h : Handler α) : State α :=
  { s with handlers := Function.update s.handlers k h }

def setPoint
    (s : State α)
    (k : Nat)
    (point : Point α) : State α :=
  s.setHandler k { s.handlers k with point := point }

def setLoop
    (s : State α)
    (n : Nat)
    (g : GameLoop α) : State α :=
  { s with loops := Function.update s.loops n g }

def setHold
    (s : State α)
    (playerId : String)
    (slot : Option (Slot α)) : State α :=
  { s with holds := Function.update s.holds playerId slot }

/- `connected_players.pop(player_id, None)`. -/
def pop (s : State α) (playerId : String) : State α :=
  { s with
    connectedPlayers := s.connectedPlayers.pop playerId }

end State

end Sockets

------------------------------------------------------------
-- Steps of a Handler
------------------------------------------------------------

namespace Sockets

open Py GameRoom

variable {α : Type}

namespace State

/- `ws_endpoint` captures the global loop. -/
def connect (s : State α) : State α :=
  { s.setHandler s.sockets ⟨s.current, false, .accepting⟩ with
    sockets := s.sockets + 1 }

/- A player is registered, and `add_player` looks it up. -/
def register
    (s : State α)
    (k : Nat)
    (playerId : String) : State α :=
  { s.setPoint k (.lookingUp playerId none) with
    connectedPlayers := s.connectedPlayers.set playerId k
    accepted := s.accepted ++ [k] }

/- From the reply of the validation to the next await. -/
def enter
    (s : State α)
    (k : Nat)
    (mode : String)
    (playerId : String) : State α :=
  if mode = "spectator" then s.setPoint k .spectating
  else s.register k playerId

/- `add_player` on the loop of the handler. -/
def addPlayer
    [PyNumber α]
    (s : State α)
    (k : Nat)
    (playerId : String)
    (hold : Option (HoldJson α)) : State α :=
  let n := (s.handlers k).loop
  s.setLoop n ((s.loops n).addPlayer playerId hold)

/- `add_player` restores a hold slot and deletes it. -/
def restore
    [PyNumber α]
    (s : State α)
    (k : Nat)
    (playerId : String)
    (slot : Slot α) : State α :=
  { (s.addPlayer k playerId (some slot.value)).setPoint k
      (.clearing playerId false) with
    restores :=
      s.restores ++
        [⟨playerId, (s.handlers k).loop, slot.matchNo⟩] }

/-
  `except WebSocketDisconnect`: the player is removed, and a
  player of the loop gets a hold slot.
-/
def leave
    (s : State α)
    (k : Nat)
    (playerId : String) : State α :=
  let n := (s.handlers k).loop
  let removed := (s.loops n).removePlayer playerId
  ((s.pop playerId).setLoop n removed.1).setPoint k
    (match removed.2 with
    | some value => .holding playerId value false
    | none => .returned none)

def enqueue
    (s : State α)
    (k : Nat)
    (playerId : String)
    (inputData : Json α) : State α :=
  let n := (s.handlers k).loop
  { s.setLoop n
      ((s.loops n).enqueueInput playerId inputData) with
    received := s.received ++ [(n, playerId, inputData)] }

/- The Redis call that a handler waits for. -/
def redis
    [PyNumber α]
    (s : State α)
    (k : Nat) :
    Point α → Reply → Option (State α)
| .lookingUp playerId none, .effect =>
    some (s.setPoint k
      (.lookingUp playerId (some (s.holds playerId))))
| .lookingUp playerId (some none), .ok _ =>
    some ((s.addPlayer k playerId none).setPoint k
      (.receiving playerId))
| .lookingUp playerId (some (some slot)), .ok _ =>
    some (s.restore k playerId slot)
-- the exception leaves `websocket_endpoint`
| .lookingUp _ _, .fail _ =>
    some (s.setPoint k (.returned none))
| .clearing playerId false, .effect =>
    some ((s.setHold playerId none).setPoint k
      (.clearing playerId true))
| .clearing playerId true, .ok _ =>
    some (s.setPoint k (.receiving playerId))
-- `except Exception: pass`, and on behind the restore
| .clearing playerId _, .fail _ =>
    some ((s.addPlayer k playerId none).setPoint k
      (.receiving playerId))
| .holding playerId value false, .effect =>
    some ((s.setHold playerId
      (some ⟨value, (s.handlers k).loop⟩)).setPoint k
        (.holding playerId value true))
| .holding _ _ true, .ok _ =>
    some (s.setPoint k (.returned none))
| .holding _ _ _, .fail _ =>
    some (s.setPoint k (.returned none))
| _, _ => none

end State

end Sockets

------------------------------------------------------------
-- Steps of the Match Task
------------------------------------------------------------

namespace Sockets

open Py GameRoom

variable {α : Type}

/- The await at which `end_match` closes the sockets. -/
def closing : Await α → Bool
| .closingSockets => true
| _ => false

/- The awaits behind which the head of `run` begins a tick. -/
def atHead : Await α → Bool
| .starting => true
| .sleeping => true
| _ => false

/- The players that a reply commits. -/
def committing : Await α → Reply → Option (Players α)
| .publishing next _ (some _), .ok _ => some next
| _, _ => none

namespace State

/-
  What `end_match` does to the tables: it lists the sockets
  to close, and it clears the tables behind the last one.
-/
def tables
    (s : State α)
    (aw aw' : Await α) : State α :=
  { s with
    farewells :=
      if closing aw' then
        s.connectedPlayers.entries.map Prod.snd
      else s.farewells
    connectedPlayers :=
      if closing aw then Dict.empty
      else s.connectedPlayers }

/- The records of a step of the run task. -/
def note
    (s : State α)
    (aw : Await α)
    (r : Reply) : State α :=
  { s with
    began := if atHead aw then s.loop else s.began
    commits :=
      s.commits ++
        ((committing aw r).map (fun next =>
          ⟨s.current, s.began, next⟩)).toList }

/- The stores, the loop and the await that follow a reply. -/
def ran
    (s : State α)
    (aw : Await α)
    (r : Reply)
    (stores : Stores α)
    (g : GameLoop α)
    (aw' : Await α) : State α :=
  { ((s.note aw r).tables aw aw').setLoop s.current g with
    stores := stores
    task := .inRun aw' }

/- The run task goes on. -/
def resume
    [PyNumber α]
    (s : State α)
    (aw : Await α)
    (r : Reply) : Option (State α) :=
  if closing aw && !s.farewells.isEmpty then none
  else
    (awaitStep s.current s.stores s.loop aw r).map
      (fun (stores, g, aw') => s.ran aw r stores g aw')

/- `end_match` sends to the next socket and closes it. -/
def farewell
    (s : State α)
    (k : Nat)
    (farewells : List Nat)
    (sent : Bool) : State α :=
  { s.setHandler k
      { s.handlers k with
        closed := sent || (s.handlers k).closed } with
    farewells := farewells }

/- `run_matches` makes the loop of the next match. -/
def restart
    (settings : Settings)
    (matchId : String)
    (s : State α)
    (now : Timestamp) : State α :=
  let g := GameLoop.new settings matchId now
  { s.setLoop (s.current + 1) (beginRun g).1 with
    current := s.current + 1
    task := .inRun (beginRun g).2 }

/- The redis call of `run_matches`, and the next match. -/
def delete
    (settings : Settings)
    (matchId : String)
    (s : State α)
    (applied : Bool) : Reply → Option (State α)
| .effect =>
    if applied then none
    else
      some { s with
        stores := s.stores.deleteRoomKeys
        task := .deleting true }
| .ok now =>
    if applied then some (s.restart settings matchId now)
    else none
| .fail _ => some { s with task := .gone }

end State

end Sockets

------------------------------------------------------------
-- The Machine
------------------------------------------------------------

namespace Sockets

open Py GameRoom

variable {α : Type}

inductive Act (α : Type) where
  | connect
  | accepted (k : Nat)
  | token (k : Nat) (received : Received)
  | validated
      (k : Nat)
      (playerId : Option String)
      (isLeader : Bool)
  | redis (k : Nat) (r : Reply)
  | frame (k : Nat) (inputData : Json α)
  | disconnect (k : Nat)
  -- a frame that is not JSON, or the receive raises
  | error (k : Nat)
  -- a send of `broadcast_to_players` has raised
  | sendFails (playerId : String)
  -- a hold slot has lived for its time
  | expire (playerId : String)
  | resume (r : Reply)
  | farewell (sent : Bool)
  -- `run` has returned; the value of `election.is_leader`
  | check (isLeader : Bool)
  | delete (r : Reply)

variable [PyNumber α]

def step
    (settings : Settings)
    (matchId : String)
    (s : State α) : Act α → Option (State α)
| .connect => some s.connect
| .accepted k =>
    match (s.handlers k).point with
    | .accepting => some (s.setPoint k .awaitingToken)
    | _ => none
| .token k received =>
    match (s.handlers k).point with
    | .awaitingToken =>
        match greet received with
        | .ok mode => some (s.setPoint k (.validating mode))
        | .error close =>
            some (s.setPoint k (.returned (some close)))
    | _ => none
| .validated k playerId isLeader =>
    match (s.handlers k).point with
    | .validating mode =>
        match admitPlayer playerId isLeader with
        | .ok player => some (s.enter k mode player)
        | .error close =>
            some (s.setPoint k (.returned (some close)))
    | _ => none
| .redis k r => s.redis k (s.handlers k).point r
| .frame k inputData =>
    match (s.handlers k).point with
    | .receiving playerId =>
        if (s.handlers k).closed then none
        else some (s.enqueue k playerId inputData)
    | _ => none
| .disconnect k =>
    match (s.handlers k).point with
    | .receiving playerId => some (s.leave k playerId)
    | .spectating => some (s.setPoint k (.returned none))
    | _ => none
| .error k =>
    match (s.handlers k).point with
    | .receiving playerId =>
        some ((s.pop playerId).setPoint k (.returned none))
    | _ => none
| .sendFails playerId =>
    (s.connectedPlayers.get? playerId).map
      (fun _ => s.pop playerId)
| .expire playerId => some (s.setHold playerId none)
| .resume r =>
    match s.task with
    | .inRun aw => s.resume aw r
    | _ => none
| .farewell sent =>
    match s.task, s.farewells with
    | .inRun .closingSockets, k :: farewells =>
        some (s.farewell k farewells sent)
    | _, _ => none
| .check isLeader =>
    match s.task with
    | .inRun .returned =>
        some { s with
          task := if isLeader then .deleting false else .gone }
    | _ => none
| .delete r =>
    match s.task with
    | .deleting applied => s.delete settings matchId applied r
    | _ => none

end Sockets
