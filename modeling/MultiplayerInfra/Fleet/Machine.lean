import MultiplayerInfra.Fleet.Moves
import MultiplayerInfra.Machine.Run

/-
  The replicas of a room: any number of processes that win
  and lose the leader key, over shared stores.

  Key definitions include:
    * `Fleet.State`
    * `Fleet.Act`
    * `Fleet.step`
    * `Fleet.Steps`

  Key theorems include:
    * `Fleet.steps_of_step`

  The key can vanish at any time, as a lease that expires or
  is revoked; no process is told.  Nothing orders the steps
  of different processes.
-/

------------------------------------------------------------
-- The Machine
------------------------------------------------------------

namespace Fleet

open Py GameRoom

structure State (ι α : Type) where
  -- the owner of the leader key
  key : Option ι
  procs : ι → Process α
  stores : Stores α
  service : Replay.Service α
  checkpoints : Replay.Checkpoints α
  -- what the processes did, in order
  history : List (ι × Note)

inductive Act (ι α : Type) where
  | process (i : ι) (act : ProcessAct α)
  | expire
  | evict (key : RoomKey)
  | service (act : Replay.Act)

variable {ι α : Type}

namespace State

def empty : State ι α where
  key := none
  procs := fun _ => Process.new
  stores := Stores.empty
  service := Replay.Service.empty
  checkpoints := Dict.empty
  history := []

/- What a process can read. -/
def view (s : State ι α) : Room.State α :=
  { Room.State.empty with
    stores := s.stores
    service := s.service
    checkpoints := s.checkpoints }

/- The events of the room. -/
def log (s : State ι α) : List (StateJson α) :=
  s.stores.events.map LogEntry.event

variable [DecidableEq ι]

/- A process has made a step. -/
def record
    (s : State ι α)
    (i : ι)
    (out : Outcome α) : State ι α :=
  { s with
    procs := Function.update s.procs i out.process
    stores := out.stores
    history :=
      s.history ++
        (out.note.map (fun note => (i, note))).toList }

end State

/- The key that an act of a process needs and leaves. -/
def takeKey
    {ι α : Type}
    (key : Option ι)
    (i : ι) :
    ProcessAct α → Option (Option ι)
| .win => if key.isNone then some (some i) else none
| _ => some key

variable [DecidableEq ι] [PyNumber α]

def step
    (settings : Settings)
    (interval : Nat)
    (matchId : String)
    (s : State ι α) :
    Act ι α → Option (State ι α)
| .process i act => do
    let key ← takeKey s.key i act
    let out ←
      (s.procs i).step settings matchId s.view act
    return { s.record i out with key := key }
| .expire => some { s with key := none }
| .evict key =>
    some { s with stores := s.stores.evict key }
| .service act =>
    (Replay.step interval s.log s.stores.lifecycle.length
      s.service s.checkpoints act).map
      (fun (service, checkpoints) =>
        { s with
          service := service
          checkpoints := checkpoints })

end Fleet

------------------------------------------------------------
-- The Kinds of Steps
------------------------------------------------------------

namespace Fleet

open Py GameRoom

variable {ι α : Type} [DecidableEq ι] [PyNumber α]

/- The transitions of `step`, one for each kind. -/
inductive Steps
    (settings : Settings)
    (interval : Nat)
    (matchId : String)
    (s : State ι α) :
    Act ι α → State ι α → Prop where
  | process
      {i : ι} {act : ProcessAct α} {out : Outcome α}
      {key : Option ι}
      (hMoves :
        Moves settings matchId s.view (s.procs i) act out) :
      Steps settings interval matchId s (.process i act)
        { s.record i out with key := key }
  | expire :
      Steps settings interval matchId s .expire
        { s with key := none }
  | evict {key : RoomKey} :
      Steps settings interval matchId s (.evict key)
        { s with stores := s.stores.evict key }
  | service
      {act : Replay.Act} {service : Replay.Service α}
      {checkpoints : Replay.Checkpoints α}
      (hService :
        Replay.step interval s.log s.stores.lifecycle.length
          s.service s.checkpoints act =
            some (service, checkpoints)) :
      Steps settings interval matchId s (.service act)
        { s with
          service := service
          checkpoints := checkpoints }

/- Every step of the function is one of the transitions. -/
theorem steps_of_step
    {settings : Settings}
    {interval : Nat}
    {matchId : String}
    {s t : State ι α}
    {act : Act ι α}
    (hStep :
      step settings interval matchId s act = some t) :
    Steps settings interval matchId s act t := by
  cases act with
  | process i act =>
      simp only [step, Option.bind_eq_bind,
        Option.bind_eq_some_iff] at hStep
      rcases hStep with ⟨key, _, out, hOut, hEq⟩
      cases hEq
      exact .process (moves_of_step hOut)
  | expire =>
      cases hStep
      exact .expire
  | evict key =>
      cases hStep
      exact .evict
  | service act =>
      rcases Option.map_eq_some_iff.mp hStep with
        ⟨⟨service, checkpoints⟩, hService, rfl⟩
      exact .service hService

end Fleet
