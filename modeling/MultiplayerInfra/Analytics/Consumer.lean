import MultiplayerInfra.Py.Dict
import Mathlib.Data.Rat.Defs

/-
  The analytics service: what its consumer makes of the
  messages of the telemetry topic.

  Key definitions include:
    * `Analytics.Message`
    * `Analytics.Consumer`
    * `Analytics.handle`
    * `Analytics.consumeTelemetry`

  The messages of a room have its match id for their key.
  The consumer reads their values only.
-/

------------------------------------------------------------
-- The Consumer
------------------------------------------------------------

namespace Analytics

open Py

/- The value of a message; `event.get("player_id")`. -/
inductive Event where
  | move
  | kill
  | matchStart
  | matchEnd
  | sessionStart (playerId : Option String)
  | sessionEnd (playerId : Option String)
  -- any other type, or a value whose handling raises
  | other
deriving DecidableEq

structure Message where
  -- the key, which is the match id of the room
  room : String
  event : Event
  -- `time.time()` when the message is handled
  time : Rat
deriving DecidableEq

/- The metrics, and the sessions that have started. -/
structure Consumer where
  -- the gauge `analytics_active_matches`
  activeMatches : Int
  totalPlayers : Nat
  movementEvents : Nat
  killEvents : Nat
  -- what `analytics_session_duration_seconds` observed
  sessionDuration : List Rat
  -- `active_sessions`
  activeSessions : Dict (Option String) Rat

def Consumer.start : Consumer where
  activeMatches := 0
  totalPlayers := 0
  movementEvents := 0
  killEvents := 0
  sessionDuration := []
  activeSessions := Dict.empty

/- One turn of the loop in `consume_telemetry`. -/
def handle
    (c : Consumer)
    (msg : Message) : Consumer :=
  match msg.event with
  | .move =>
      { c with movementEvents := c.movementEvents + 1 }
  | .kill => { c with killEvents := c.killEvents + 1 }
  | .matchStart =>
      { c with activeMatches := c.activeMatches + 1 }
  | .matchEnd => { c with activeMatches := 0 }
  | .sessionStart pid =>
      { c with
        activeSessions := c.activeSessions.set pid msg.time
        totalPlayers := c.totalPlayers + 1 }
  | .sessionEnd pid =>
      match c.activeSessions.get? pid with
      | none => c
      | some started =>
          { c with
            activeSessions := c.activeSessions.pop pid
            sessionDuration :=
              c.sessionDuration ++ [msg.time - started] }
  | .other => c

def consumeTelemetry (msgs : List Message) : Consumer :=
  msgs.foldl handle Consumer.start

theorem consumeTelemetry_concat
    (msgs : List Message)
    (msg : Message) :
    consumeTelemetry (msgs ++ [msg]) =
      handle (consumeTelemetry msgs) msg := by
  rw [consumeTelemetry, List.foldl_append]
  rfl

/- What a message does to the gauge. -/
theorem handle_activeMatches
    (c : Consumer)
    (msg : Message) :
    (handle c msg).activeMatches =
      if msg.event = .matchStart then c.activeMatches + 1
      else if msg.event = .matchEnd then 0
      else c.activeMatches := by
  unfold handle
  cases hEvent : msg.event with
  | sessionEnd pid =>
      simp only
      split <;> simp
  | _ => simp

end Analytics
