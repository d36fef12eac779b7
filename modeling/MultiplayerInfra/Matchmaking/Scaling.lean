import MultiplayerInfra.Machine.Run
import Mathlib.Data.Int.Order.Basic

/-
  `ensure_game_rooms` over one StatefulSet, whose replicas
  the autoscaler and operators change as well.

  Key definitions include:
    * `Matchmaking.Scaling.ensureGameRooms`
    * `Matchmaking.Scaling.State`
    * `Matchmaking.Scaling.step`
    * `Matchmaking.Scaling.AllHonoured`
    * `Matchmaking.Scaling.Harmless`

  Key theorems include:
    * `Matchmaking.Scaling.honoured_step`
    * `Matchmaking.Scaling.honoured_iff`

  The last target is remembered for the life of the process
  and compared with the new one whatever the replicas are.
-/

------------------------------------------------------------
-- One Call
------------------------------------------------------------

namespace Matchmaking

namespace Scaling

/- `_MAX_REPLICAS`. -/
def maxReplicas : Int := 10

/- What a call does with the replicas that it has read. -/
inductive Decision where
  | returnCurrent
  | patch (newReplicas : Int)
deriving DecidableEq

/- `ensure_game_rooms` between its two requests. -/
def ensureGameRooms
    (currentTargetReplicas : Option Int)
    (desiredCount current : Int) : Decision :=
  if desiredCount ≤ current then .returnCurrent
  else
    let newReplicas := min desiredCount maxReplicas
    if currentTargetReplicas = some newReplicas then
      -- "Scale to … already in-flight, skipping"
      .returnCurrent
    else .patch newReplicas

/- A call that has read `current` and is about to patch. -/
structure Call where
  desiredCount : Int
  current : Int
  newReplicas : Int
deriving DecidableEq

structure State where
  -- `spec.replicas` of the StatefulSet
  replicas : Int
  -- `_current_target_replicas`
  currentTargetReplicas : Option Int
  call : Option Call
deriving DecidableEq

/- The process starts without a target. -/
def State.start (replicas : Int) : State where
  replicas := replicas
  currentTargetReplicas := none
  call := none

/- The end of the patch request. -/
inductive Patched where
  | done
  -- it raised, possibly after it had taken effect
  | raised (applied : Bool)
deriving DecidableEq

inductive Act where
  -- the autoscaler or an operator sets `spec.replicas`
  | setReplicas (replicas : Int)
  -- a call starts and reads the replicas, unless it raises
  | read (desiredCount : Int) (readable : Bool)
  | patch (patched : Patched)
deriving DecidableEq

/-
  One step.  The matchmaker loop is the only caller and it
  awaits the call, so calls do not overlap.
-/
def step
    (s : State) : Act → Option State
| .setReplicas replicas =>
    some { s with replicas := replicas }
| .read desiredCount readable =>
    if s.call ≠ none then none
    else if readable = false then some s
    else
      match
        ensureGameRooms s.currentTargetReplicas desiredCount
          s.replicas
      with
      | .returnCurrent => some s
      | .patch newReplicas =>
          some { s with
            call :=
              some ⟨desiredCount, s.replicas, newReplicas⟩ }
| .patch patched =>
    match s.call with
    | none => none
    | some call =>
        match patched with
        | .done =>
            some
              { replicas := call.newReplicas
                currentTargetReplicas :=
                  some call.newReplicas
                call := none }
        | .raised applied =>
            some { s with
              replicas :=
                if applied then call.newReplicas
                else s.replicas
              call := none }

end Scaling

end Matchmaking

------------------------------------------------------------
-- Calls That Return a Number
------------------------------------------------------------

namespace Matchmaking

namespace Scaling

/- `spec.replicas` around a call that returned a number. -/
structure Returned where
  desiredCount : Int
  -- when the call started
  before : Int
  -- before its last request
  replaced : Int
  -- when it returned
  after : Int
deriving DecidableEq

/- The call that returns a number in a step. -/
def returns
    (s : State)
    (act : Act)
    (t : State) : Option Returned :=
  match act, s.call with
  | .read desiredCount true, none =>
      if t.call = none then
        some ⟨desiredCount, s.replicas, s.replicas, t.replicas⟩
      else none
  | .patch .done, some call =>
      some
        ⟨call.desiredCount, call.current, s.replicas,
          t.replicas⟩
  | _, _ => none

/- The calls that returned a number so far. -/
def record
    (s : State)
    (act : Act)
    (t : State)
    (history : List Returned) : List Returned :=
  history ++ (returns s act t).toList

/- The machine with its record. -/
abbrev stepRecorded :
    State × List Returned → Act →
      Option (State × List Returned) :=
  Machine.observe step record

/-
  The call lowered the replicas neither since it started nor
  by its patch, and they are as many as were asked for.
-/
def Returned.Honoured (c : Returned) : Prop :=
  c.before ≤ c.after ∧ c.replaced ≤ c.after ∧
    min c.desiredCount maxReplicas ≤ c.after

instance (c : Returned) : Decidable c.Honoured :=
  inferInstanceAs (Decidable
    (c.before ≤ c.after ∧ c.replaced ≤ c.after ∧
      min c.desiredCount maxReplicas ≤ c.after))

/- Every call that returned a number was honoured. -/
def AllHonoured (history : List Returned) : Prop :=
  ∀ c ∈ history, c.Honoured

instance (history : List Returned) :
    Decidable (AllHonoured history) :=
  inferInstanceAs (Decidable (∀ c ∈ history, c.Honoured))

/-
  The remembered target equals the new one only where the
  replicas have reached it; and a patch replaces no more
  replicas than it sets, nor more than the maximum.
-/
def Harmless
    (s : State) : Act → Prop
| .read desiredCount true =>
    s.replicas < desiredCount →
      s.currentTargetReplicas =
          some (min desiredCount maxReplicas) →
        maxReplicas ≤ s.replicas
| .patch .done =>
    ∀ call ∈ s.call,
      call.current ≤ maxReplicas ∧
        s.replicas ≤ min call.desiredCount maxReplicas
| _ => True

instance decidableHarmless
    (s : State) :
    (act : Act) → Decidable (Harmless s act)
| .setReplicas _ => inferInstanceAs (Decidable True)
| .read _ false => inferInstanceAs (Decidable True)
| .read desiredCount true =>
    inferInstanceAs (Decidable
      (s.replicas < desiredCount →
        s.currentTargetReplicas =
            some (min desiredCount maxReplicas) →
          maxReplicas ≤ s.replicas))
| .patch .done =>
    inferInstanceAs (Decidable
      (∀ call ∈ s.call,
        call.current ≤ maxReplicas ∧
          s.replicas ≤ min call.desiredCount maxReplicas))
| .patch (.raised _) => inferInstanceAs (Decidable True)

end Scaling

end Matchmaking

------------------------------------------------------------
-- Steps
------------------------------------------------------------

namespace Matchmaking

namespace Scaling

/- A call patches when it asks for more than it has read. -/
def Asks (s : State) : Prop :=
  ∀ call ∈ s.call,
    call.newReplicas = min call.desiredCount maxReplicas ∧
      call.current < call.desiredCount

variable {s t : State}
variable {act : Act}

theorem asks_of_idle
    (hIdle : s.call = none) :
    Asks s := by
  intro call hCall
  rw [hIdle] at hCall
  cases hCall

/- When a call returns at once, and what it patches if not. -/
theorem ensureGameRooms_cases
    (target : Option Int)
    (desiredCount current : Int) :
    (ensureGameRooms target desiredCount current =
        .returnCurrent ∧
      (current < desiredCount →
        target = some (min desiredCount maxReplicas))) ∨
    (ensureGameRooms target desiredCount current =
        .patch (min desiredCount maxReplicas) ∧
      current < desiredCount ∧
      target ≠ some (min desiredCount maxReplicas)) := by
  unfold ensureGameRooms
  split
  · rename_i hEnough
    exact .inl ⟨rfl, fun hLess => by omega⟩
  · rename_i hLess
    have hLess := Int.not_le.mp hLess
    simp only
    split
    · rename_i hSame
      exact .inl ⟨rfl, fun _ => hSame⟩
    · rename_i hOther
      exact .inr ⟨rfl, hLess, hOther⟩

/- A call that returns what it has read. -/
theorem honoured_of_read
    {target : Option Int}
    {desiredCount replicas : Int}
    (hReturns :
      replicas < desiredCount →
        target = some (min desiredCount maxReplicas)) :
    Returned.Honoured
        ⟨desiredCount, replicas, replicas, replicas⟩ ↔
      (replicas < desiredCount →
        target = some (min desiredCount maxReplicas) →
          maxReplicas ≤ replicas) := by
  unfold Returned.Honoured
  simp only [le_refl, true_and]
  constructor
  · intro hAtLeast hLess _
    omega
  · intro hHarmless
    rcases lt_or_ge replicas desiredCount with
      hLess | hEnough
    · have hMost := hHarmless hLess (hReturns hLess)
      omega
    · omega

/- A call that patches. -/
theorem honoured_of_patch
    {desiredCount current replicas : Int}
    (hLess : current < desiredCount) :
    Returned.Honoured
        ⟨desiredCount, current, replicas,
          min desiredCount maxReplicas⟩ ↔
      current ≤ maxReplicas ∧
        replicas ≤ min desiredCount maxReplicas := by
  unfold Returned.Honoured
  simp only [le_refl, and_true]
  constructor
  · rintro ⟨hBefore, hReplaced⟩
    exact ⟨by omega, hReplaced⟩
  · rintro ⟨hMost, hReplaced⟩
    exact ⟨by omega, hReplaced⟩

/- A call reads the replicas, and returns them or patches. -/
theorem honoured_startCall
    {desiredCount : Int}
    (hAsks : Asks s)
    (hIdle : s.call = none)
    (hStep : step s (.read desiredCount true) = some t) :
    Asks t ∧
      (AllHonoured
          (returns s (.read desiredCount true) t).toList ↔
        Harmless s (.read desiredCount true)) := by
  rw [step, if_neg (not_not.mpr hIdle), if_neg (by decide)]
    at hStep
  rcases
      ensureGameRooms_cases s.currentTargetReplicas
        desiredCount s.replicas with
    ⟨hDecision, hReturns⟩ | ⟨hDecision, hLess, hOther⟩
  · rw [hDecision] at hStep
    cases hStep
    refine ⟨hAsks, ?_⟩
    simpa [AllHonoured, returns, hIdle, Harmless] using
      honoured_of_read hReturns
  · rw [hDecision] at hStep
    cases hStep
    refine ⟨?_, ?_⟩
    · intro call hCall
      cases hCall
      exact ⟨rfl, hLess⟩
    · simp [AllHonoured, returns, hIdle, Harmless, hOther]

/- The patch of a call ends. -/
theorem honoured_endCall
    {patched : Patched}
    {call : Call}
    (hAsks : Asks s)
    (hCall : s.call = some call)
    (hStep : step s (.patch patched) = some t) :
    Asks t ∧
      (AllHonoured (returns s (.patch patched) t).toList ↔
        Harmless s (.patch patched)) := by
  rcases hAsks call hCall with ⟨hNew, hLess⟩
  simp only [step, hCall] at hStep
  cases patched with
  | done =>
      cases hStep
      refine ⟨asks_of_idle rfl, ?_⟩
      rw [hNew]
      simpa [AllHonoured, returns, hCall, Harmless] using
        honoured_of_patch hLess
  | raised applied =>
      cases hStep
      refine ⟨asks_of_idle rfl, ?_⟩
      simp [AllHonoured, returns, Harmless]

/-
  A step keeps the pending call, and the call that returns
  in it is honoured exactly when the step is harmless.
-/
theorem honoured_step
    (hAsks : Asks s)
    (hStep : step s act = some t) :
    Asks t ∧
      (AllHonoured (returns s act t).toList ↔
        Harmless s act) := by
  cases act with
  | setReplicas replicas =>
      cases hStep
      exact ⟨hAsks, by simp [AllHonoured, returns, Harmless]⟩
  | read desiredCount readable =>
      cases hIdle : s.call with
      | some call => simp [step, hIdle] at hStep
      | none =>
          cases readable with
          | true => exact honoured_startCall hAsks hIdle hStep
          | false =>
              simp only [step, hIdle] at hStep
              cases hStep
              exact
                ⟨hAsks,
                  by simp [AllHonoured, returns, Harmless]⟩
  | patch patched =>
      cases hCall : s.call with
      | none => simp [step, hCall] at hStep
      | some call => exact honoured_endCall hAsks hCall hStep

end Scaling

end Matchmaking

------------------------------------------------------------
-- Runs
------------------------------------------------------------

namespace Matchmaking

namespace Scaling

theorem allHonoured_append
    (history more : List Returned) :
    AllHonoured (history ++ more) ↔
      AllHonoured history ∧ AllHonoured more :=
  List.forall_mem_append

/-
  In every run from any replicas, each call that returned a
  number was honoured exactly when all steps were harmless.
-/
theorem honoured_iff
    (replicas : Int)
    (acts : List Act)
    (t : State)
    (history : List Returned)
    (hRun :
      Machine.run stepRecorded (State.start replicas, [])
        acts = some (t, history)) :
    AllHonoured history ↔
      Machine.AllSteps stepRecorded
        (fun s act => Harmless s.1 act)
        (State.start replicas, []) acts := by
  have hAll :
      AllHonoured history ↔
        AllHonoured [] ∧
          Machine.AllSteps stepRecorded
            (fun s act => Harmless s.1 act)
            (State.start replicas, []) acts :=
    Machine.iff_allSteps_of_run
      (I := fun s => Asks s.1)
      (Q := fun s => AllHonoured s.2)
      hRun (asks_of_idle rfl) (by
        intro s t act hAsks hStep
        rcases Machine.observe_eq_some_iff.mp hStep with
          ⟨hMove, hNote⟩
        rcases honoured_step hAsks hMove with
          ⟨hNext, hReturns⟩
        refine ⟨hNext, ?_⟩
        rw [hNote, record, allHonoured_append]
        exact and_congr_right (fun _ => hReturns))
  have hNone : AllHonoured [] := by
    intro c hMem
    cases hMem
  simpa [hNone] using hAll

/- The replicas are raised from three to four. -/
theorem honoured_iff_raise :
    AllHonoured
      (Machine.final stepRecorded (State.start 3, [])
        [.read 4 true, .patch .done] rfl).2 :=
  (honoured_iff 3 [.read 4 true, .patch .done] _ _
    (Machine.run_eq_final rfl)).mpr (by decide)

/-
  The target of four is remembered, so after the autoscaler
  went back to three the next call asks for nothing.
-/
def staleTarget : List Act :=
  [.read 4 true, .patch .done, .setReplicas 3,
    .read 4 true]

/- An operator set twelve; the cap sets ten. -/
def overCap : List Act :=
  [.setReplicas 12, .read 15 true, .patch .done]

theorem scaling_not_honoured :
    ¬ AllHonoured
        (Machine.final stepRecorded (State.start 3, [])
          staleTarget rfl).2 ∧
      ¬ AllHonoured
        (Machine.final stepRecorded (State.start 3, [])
          overCap rfl).2 := by
  decide

end Scaling

end Matchmaking
