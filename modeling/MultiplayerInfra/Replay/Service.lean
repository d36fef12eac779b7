import MultiplayerInfra.GameRoom.Recovery

/-
  The replay service: it collects the events of a match,
  saves checkpoints of them and archives them at the end.

  Key definitions include:
    * `Replay.Service`
    * `Replay.Act`
    * `Replay.consumeEvent`
    * `Replay.step`
    * `Replay.newest`
    * `Replay.FromLog`

  Key theorems include:
    * `Replay.fromLog_step`

  The service is modelled for one match id.  Its consumers
  commit automatically, at any time, and resume from the
  committed offsets after a restart.
-/

------------------------------------------------------------
-- The Service
------------------------------------------------------------

namespace Replay

open Py GameRoom

/- The rows of `replay_checkpoints`, keyed by their tick. -/
abbrev Checkpoints (α : Type) :=
  Dict Nat (List (StateJson α))

structure Service (α : Type) where
  -- `match_events[mid]`, absent until the first event
  matchEvents : Option (List (StateJson α))
  -- the next offsets of the two consumers
  position : Nat
  lifecyclePosition : Nat
  -- the committed offsets of their groups
  committed : Nat
  lifecycleCommitted : Nat
  -- the stored objects `{mid}/replay.json`, newest last
  archives : List (List (StateJson α))

inductive Act where
  -- a poll of `match.events`; whether the calls succeed that
  -- load and save a checkpoint
  | poll (loads saves : Bool)
  -- a poll of `match.lifecycle`; whether the upload succeeds
  | pollLifecycle (stores : Bool)
  | commit (offset : Nat)
  | commitLifecycle (offset : Nat)
  | restart
deriving DecidableEq

variable {α : Type}

def Service.empty : Service α where
  matchEvents := none
  position := 0
  lifecyclePosition := 0
  committed := 0
  lifecycleCommitted := 0
  archives := []

/- `SELECT ... ORDER BY tick DESC LIMIT 1`. -/
def newest (rows : Checkpoints α) : Option (Checkpoint α) :=
  (rows.entries.argmax Prod.fst).map
    (fun row => { tick := row.1, events := row.2 })

/- The list to which the next event is appended. -/
def collected
    (svc : Service α)
    (rows : Checkpoints α)
    (loads : Bool) :
    List (StateJson α) :=
  match svc.matchEvents with
  | some events => events
  | none =>
      if loads then
        ((newest rows).map Checkpoint.events).getD []
      else []

/-
  The handling of one event in `consume_events`.  An interval
  of 0 is outside the model: the first tick past 0 raises
  `ZeroDivisionError` and ends the thread of the consumer,
  where the model goes on without checkpoints.
-/
def consumeEvent
    (interval : Nat)
    (svc : Service α)
    (rows : Checkpoints α)
    (loads saves : Bool)
    (event : StateJson α) :
    Service α × Checkpoints α :=
  let events := collected svc rows loads ++ [event]
  let tick := event.tickOrZero
  ({ svc with
      matchEvents := some events
      position := svc.position + 1 },
    if 0 < tick ∧ tick % interval = 0 ∧ saves = true then
      rows.set tick events
    else rows)

/- `finalize_replay` and the removal of the events. -/
def finalizeReplay
    (svc : Service α)
    (stores : Bool) :
    Service α :=
  { svc with
    matchEvents := none
    archives :=
      match svc.matchEvents with
      | some (event :: events) =>
          if stores then svc.archives ++ [event :: events]
          else svc.archives
      | _ => svc.archives }

/- One step of the service over the two topics. -/
def step
    (interval : Nat)
    (log : List (StateJson α))
    (ends : Nat)
    (svc : Service α)
    (rows : Checkpoints α) :
    Act → Option (Service α × Checkpoints α)
| .poll loads saves =>
    (log[svc.position]?).map
      (consumeEvent interval svc rows loads saves)
| .pollLifecycle stores =>
    if svc.lifecyclePosition < ends then
      some ({ finalizeReplay svc stores with
        lifecyclePosition := svc.lifecyclePosition + 1 },
        rows)
    else none
| .commit offset =>
    if svc.committed ≤ offset ∧ offset ≤ svc.position then
      some ({ svc with committed := offset }, rows)
    else none
| .commitLifecycle offset =>
    if svc.lifecycleCommitted ≤ offset ∧
        offset ≤ svc.lifecyclePosition then
      some ({ svc with lifecycleCommitted := offset }, rows)
    else none
| .restart =>
    some ({ svc with
      matchEvents := none
      position := svc.committed
      lifecyclePosition := svc.lifecycleCommitted }, rows)

end Replay

------------------------------------------------------------
-- Where Checkpoints Come From
------------------------------------------------------------

namespace Replay

open Py GameRoom

variable {α : Type}

/-
  Everything the service holds was logged, and every
  checkpoint ends with an event of its tick.
-/
structure FromLog
    (log : List (StateJson α))
    (svc : Service α)
    (rows : Checkpoints α) : Prop where
  memory :
    ∀ events, svc.matchEvents = some events →
      ∀ event ∈ events, event ∈ log
  saved :
    ∀ tick events, rows.get? tick = some events →
      ∀ event ∈ events, event ∈ log
  last :
    ∀ tick events, rows.get? tick = some events →
      ∃ event, events.getLast? = some event ∧
        event.tickOrZero = tick

namespace FromLog

theorem empty
    (log : List (StateJson α)) :
    FromLog log Service.empty Dict.empty := by
  constructor
  · intro events hEvents
    cases hEvents
  · intro tick events hRow
    cases hRow
  · intro tick events hRow
    cases hRow

/- The log may grow. -/
theorem mono
    {log log' : List (StateJson α)}
    {svc : Service α}
    {rows : Checkpoints α}
    (hFrom : FromLog log svc rows)
    (hSub : log ⊆ log') :
    FromLog log' svc rows := by
  refine ⟨?_, ?_, hFrom.last⟩
  · intro events hEvents event hMem
    exact hSub (hFrom.memory events hEvents event hMem)
  · intro tick events hRow event hMem
    exact hSub (hFrom.saved tick events hRow event hMem)

/- The newest checkpoint is a row. -/
theorem get?_newest
    {rows : Checkpoints α}
    {c : Checkpoint α}
    (hNewest : newest rows = some c) :
    rows.get? c.tick = some c.events := by
  rcases Option.map_eq_some_iff.mp hNewest with
    ⟨row, hMax, rfl⟩
  exact Dict.get?_of_mem rows (List.argmax_mem hMax)

/- It was logged and ends with an event of its tick. -/
theorem newest_spec
    {log : List (StateJson α)}
    {svc : Service α}
    {rows : Checkpoints α}
    {c : Checkpoint α}
    (hFrom : FromLog log svc rows)
    (hNewest : newest rows = some c) :
    (∀ event ∈ c.events, event ∈ log) ∧
      ∃ event, c.events.getLast? = some event ∧
        event.tickOrZero = c.tick := by
  have hRow := get?_newest hNewest
  exact ⟨hFrom.saved _ _ hRow, hFrom.last _ _ hRow⟩

/- The list that is extended was logged. -/
theorem collected_sub
    {log : List (StateJson α)}
    {svc : Service α}
    {rows : Checkpoints α}
    (hFrom : FromLog log svc rows)
    (loads : Bool) :
    ∀ event ∈ collected svc rows loads, event ∈ log := by
  intro event hMem
  unfold collected at hMem
  split at hMem
  · exact hFrom.memory _ ‹_› event hMem
  · split at hMem
    · cases hNewest : newest rows with
      | none => simp [hNewest] at hMem
      | some c =>
          rw [hNewest] at hMem
          exact
            hFrom.saved c.tick c.events (get?_newest hNewest)
              event hMem
    · cases hMem

end FromLog

/- One step keeps the origin of everything held. -/
theorem fromLog_step
    {interval ends : Nat}
    {log : List (StateJson α)}
    {svc svc' : Service α}
    {rows rows' : Checkpoints α}
    {act : Act}
    (hFrom : FromLog log svc rows)
    (hStep :
      step interval log ends svc rows act =
        some (svc', rows')) :
    FromLog log svc' rows' := by
  cases act with
  | poll loads saves =>
      rcases Option.map_eq_some_iff.mp hStep with
        ⟨event, hNext, hEq⟩
      have hLogged : event ∈ log :=
        List.mem_of_getElem? hNext
      have hAll :
          ∀ e ∈ collected svc rows loads ++ [event],
            e ∈ log := by
        intro e hMem
        rcases List.mem_append.mp hMem with hOld | hNew
        · exact hFrom.collected_sub loads e hOld
        · rw [List.mem_singleton.mp hNew]
          exact hLogged
      cases hEq
      refine ⟨?_, ?_, ?_⟩
      · intro events hEvents
        cases hEvents
        exact hAll
      · intro tick events hRow
        split at hRow
        · rw [Dict.get?_set] at hRow
          split at hRow
          · cases hRow
            exact hAll
          · exact hFrom.saved tick events hRow
        · exact hFrom.saved tick events hRow
      · intro tick events hRow
        split at hRow
        · rw [Dict.get?_set] at hRow
          split at hRow
          · rename_i hTick
            cases hRow
            exact ⟨event, by simp, hTick.symm⟩
          · exact hFrom.last tick events hRow
        · exact hFrom.last tick events hRow
  | pollLifecycle stores =>
      simp only [step] at hStep
      split at hStep
      · cases hStep
        refine ⟨?_, hFrom.saved, hFrom.last⟩
        intro events hEvents
        cases hEvents
      · cases hStep
  | commit offset =>
      simp only [step] at hStep
      split at hStep
      · cases hStep
        exact ⟨hFrom.memory, hFrom.saved, hFrom.last⟩
      · cases hStep
  | commitLifecycle offset =>
      simp only [step] at hStep
      split at hStep
      · cases hStep
        exact ⟨hFrom.memory, hFrom.saved, hFrom.last⟩
      · cases hStep
  | restart =>
      cases hStep
      refine ⟨?_, hFrom.saved, hFrom.last⟩
      intro events hEvents
      cases hEvents

end Replay
