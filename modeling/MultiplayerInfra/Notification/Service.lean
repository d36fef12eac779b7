import MultiplayerInfra.Py.Dict
import MultiplayerInfra.Machine.History
import MultiplayerInfra.Machine.Run
import Mathlib.Logic.Function.Basic

/-
  The notification service: the handlers of its sockets, and
  the consumer that dispatches events to subscribed players.

  Key definitions include:
    * `Notification.State`
    * `Notification.State.sendNext`
    * `Notification.step`
    * `Notification.newest`

  The registry has one socket for a player.  What removes an
  entry names the player, not the socket.
-/

------------------------------------------------------------
-- The State
------------------------------------------------------------

namespace Notification

open Py

/- The body of a message of the queue. -/
structure Body where
  event : Option String
  playerIds : Option (List String)
  roomId : Option String
deriving DecidableEq

/- What is sent; its type is "notification". -/
structure Message where
  event : String
  payload : Body
deriving DecidableEq

/- Where the handler of a socket is suspended. -/
inductive Handler where
  -- the socket does not exist yet
  | absent
  -- `receive_json`, for the token
  | awaitingToken
  -- the request to `/auth/validate`
  | validating
  -- `receive_text`, subscribed for this player
  | receiving (playerId : String)
  | returned
deriving DecidableEq

/- Where `dispatch` is suspended. -/
inductive Dispatch where
  -- `send_text` on the socket that it found for a player
  | sending
      (message : Message)
      (playerIds : List String)
      (playerId : String)
      (socket : Nat)
      (rest : List String)
  -- `publish` for the first of the players
  | publishing
      (message : Message)
      (rest : List String)
deriving DecidableEq

/- Sockets are numbered. -/
structure State where
  -- `client_connections`
  clientConnections : Dict String Nat
  handlers : Nat → Handler
  isOpen : Nat → Bool
  -- the consumer handles one message at a time
  dispatch : Option Dispatch
  -- `notification_expired_events_total`
  expiredCount : Nat
  -- the subscriptions, in their order
  subscribed : List (String × Nat)
  -- the sends so far
  sent : List (Nat × Message)

def State.empty : State where
  clientConnections := Dict.empty
  handlers := fun _ => .absent
  isOpen := fun _ => false
  dispatch := none
  expiredCount := 0
  subscribed := []
  sent := []

/- The socket that the player subscribed last. -/
def newest
    (s : State)
    (playerId : String) : Option Nat :=
  History.holder
    (fun e : String × Nat =>
      if e.1 = playerId then some e.2 else none)
    s.subscribed

end Notification

------------------------------------------------------------
-- Dispatching
------------------------------------------------------------

namespace Notification

open Py

namespace State

/- The loop of `dispatch` over the publishes. -/
def publishNext
    (s : State)
    (message : Message) : List String → State
| [] => { s with dispatch := none }
| playerId :: rest =>
    { s with
      dispatch :=
        some (.publishing message (playerId :: rest)) }

/-
  The loop of `dispatch` over the sockets, to the next send.
  A player without an entry is skipped.
-/
def sendNext
    (s : State)
    (message : Message)
    (playerIds : List String) : List String → State
| [] => s.publishNext message playerIds
| playerId :: rest =>
    match s.clientConnections.get? playerId with
    | none => sendNext s message playerIds rest
    | some socket =>
        { s with
          dispatch :=
            some
              (.sending message playerIds playerId socket
                rest)
          sent := s.sent ++ [(socket, message)] }

/- `expired_count.inc()`. -/
def noteExpired
    (s : State)
    (eventType : String) : State :=
  if eventType = "match.expired" then
    { s with expiredCount := s.expiredCount + 1 }
  else s

/- One message of the queue, up to the first await. -/
def consume
    (s : State)
    (body : Body) : State :=
  let eventType := body.event.getD "unknown"
  let playerIds := body.playerIds.getD []
  (s.noteExpired eventType).sendNext
    { event := eventType, payload := body } playerIds
    playerIds

/- `client_connections.pop(player_id, None)`. -/
def pop
    (s : State)
    (playerId : String) : State :=
  { s with
    clientConnections := s.clientConnections.pop playerId }

/- A send raises, after which the socket may be closed. -/
def failSend
    (s : State)
    (playerId : String)
    (socket : Nat)
    (closed : Bool) : State :=
  { s.pop playerId with
    isOpen :=
      if closed then Function.update s.isOpen socket false
      else s.isOpen }

/- The handler of a socket ends, which closes the socket. -/
def endHandler
    (s : State)
    (k : Nat) : State :=
  { s with
    handlers := Function.update s.handlers k .returned
    isOpen := Function.update s.isOpen k false }

/- `client_connections[player_id] = websocket`. -/
def subscribe
    (s : State)
    (k : Nat)
    (playerId : String) : State :=
  { s with
    clientConnections := s.clientConnections.set playerId k
    handlers :=
      Function.update s.handlers k (.receiving playerId)
    subscribed := s.subscribed ++ [(playerId, k)] }

end State

end Notification

------------------------------------------------------------
-- Steps
------------------------------------------------------------

namespace Notification

open Py

/- How `receive_json` ends. -/
inductive TokenReply where
  | token
  -- no token, the timeout, or an exception
  | refused
deriving DecidableEq

/- How the validation of the token ends. -/
inductive AuthReply where
  | valid (playerId : String)
  -- another status, or an exception
  | refused
deriving DecidableEq

/- How `receive_text` ends. -/
inductive TextReply where
  | text
  | disconnected
  -- another exception, which closes the socket
  | raised
deriving DecidableEq

/- How `send_text` ends. -/
inductive SendReply where
  | sent
  -- it raises; whether the socket is closed then
  | failed (closed : Bool)
deriving DecidableEq

inductive Act where
  | connect (k : Nat)
  | token (k : Nat) (reply : TokenReply)
  | validated (k : Nat) (reply : AuthReply)
  -- the client closes the socket, or the network does
  | drop (k : Nat)
  | received (k : Nat) (reply : TextReply)
  | consume (body : Body)
  | send (reply : SendReply)
  -- a publish to Redis; an exception ends `dispatch`
  | publish (raises : Bool)
deriving DecidableEq

def step
    (s : State) : Act → Option State
| .connect k =>
    if s.handlers k = .absent then
      some { s with
        handlers :=
          Function.update s.handlers k .awaitingToken
        isOpen := Function.update s.isOpen k true }
    else none
| .token k reply =>
    if s.handlers k = .awaitingToken then
      match reply with
      | .token =>
          some { s with
            handlers :=
              Function.update s.handlers k .validating }
      | .refused => some (s.endHandler k)
    else none
| .validated k reply =>
    if s.handlers k = .validating then
      match reply with
      | .valid playerId => some (s.subscribe k playerId)
      | .refused => some (s.endHandler k)
    else none
| .drop k =>
    some { s with
      isOpen := Function.update s.isOpen k false }
| .received k reply =>
    match s.handlers k, reply with
    | .receiving _, .text => some s
    | .receiving playerId, .disconnected =>
        some ((s.endHandler k).pop playerId)
    | .receiving _, .raised => some (s.endHandler k)
    | _, _ => none
| .consume body =>
    if s.dispatch = none then some (s.consume body)
    else none
| .send reply =>
    match s.dispatch, reply with
    | some (.sending message playerIds _ _ rest), .sent =>
        some (s.sendNext message playerIds rest)
    | some (.sending message playerIds playerId socket rest),
        .failed closed =>
        some
          ((s.failSend playerId socket closed).sendNext
            message playerIds rest)
    | _, _ => none
| .publish raises =>
    match s.dispatch with
    | some (.publishing message (_ :: rest)) =>
        if raises then some { s with dispatch := none }
        else some (s.publishNext message rest)
    | _ => none

end Notification
