import MultiplayerInfra.GameRoom.RunTask
import MultiplayerInfra.Machine.Run

/-
  One game loop with the task that runs it, while players
  send inputs, join and leave.

  Key definitions include:
    * `GameRoom.Play`
    * `GameRoom.PlayAct`
    * `GameRoom.Play.step`
    * `GameRoom.PlaySteps`

  Key theorems include:
    * `GameRoom.playSteps_of_step`

  Whatever suspends the task, players go on: their acts come
  in any order between any two of its steps.
-/

------------------------------------------------------------
-- The Machine
------------------------------------------------------------

namespace GameRoom

open Py

structure Play (α : Type) where
  stores : Stores α
  loop : GameLoop α
  aw : Await α

inductive PlayAct (α : Type) where
  | input (playerId : String) (inputData : Json α)
  | join (playerId : String) (hold : Option (HoldJson α))
  | leave (playerId : String)
  | reply (r : Reply)

variable {α : Type}

namespace Play

/- The task enters `run` of a loop. -/
def start
    (stores : Stores α)
    (g : GameLoop α) : Play α where
  stores := stores
  loop := (beginRun g).1
  aw := (beginRun g).2

/- The loop is changed while the task stays suspended. -/
def setLoop
    (s : Play α)
    (g : GameLoop α) : Play α :=
  { s with loop := g }

variable [PyNumber α]

def step
    (producer : Nat)
    (s : Play α) : PlayAct α → Option (Play α)
| .input playerId inputData =>
    some (s.setLoop (s.loop.enqueueInput playerId inputData))
| .join playerId hold =>
    some (s.setLoop (s.loop.addPlayer playerId hold))
| .leave playerId =>
    some (s.setLoop (s.loop.removePlayer playerId).1)
| .reply r =>
    (awaitStep producer s.stores s.loop s.aw r).map
      (fun (stores, g, aw) =>
        { stores := stores, loop := g, aw := aw })

end Play

variable [PyNumber α]

/- The transitions of `step`, one for each kind. -/
inductive PlaySteps
    (producer : Nat)
    (s : Play α) :
    PlayAct α → Play α → Prop where
  | input {playerId : String} {inputData : Json α} :
      PlaySteps producer s (.input playerId inputData)
        (s.setLoop (s.loop.enqueueInput playerId inputData))
  | join
      {playerId : String} {hold : Option (HoldJson α)} :
      PlaySteps producer s (.join playerId hold)
        (s.setLoop (s.loop.addPlayer playerId hold))
  | leave {playerId : String} :
      PlaySteps producer s (.leave playerId)
        (s.setLoop (s.loop.removePlayer playerId).1)
  | reply
      {r : Reply} {stores : Stores α} {g : GameLoop α}
      {aw : Await α}
      (hAwaits :
        Awaits producer s.stores s.loop s.aw r stores g aw) :
      PlaySteps producer s (.reply r) ⟨stores, g, aw⟩

/- Every step of the function is one of the transitions. -/
theorem playSteps_of_step
    {producer : Nat}
    {s t : Play α}
    {act : PlayAct α}
    (hStep : s.step producer act = some t) :
    PlaySteps producer s act t := by
  cases act with
  | input playerId inputData =>
      cases hStep
      exact .input
  | join playerId hold =>
      cases hStep
      exact .join
  | leave playerId =>
      cases hStep
      exact .leave
  | reply r =>
      rcases Option.map_eq_some_iff.mp hStep with
        ⟨⟨stores, g, aw⟩, hAwait, rfl⟩
      exact .reply (awaits_of_awaitStep hAwait)

end GameRoom
