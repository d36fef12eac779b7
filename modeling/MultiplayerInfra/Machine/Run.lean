import Mathlib.Logic.Function.Basic

/-
  Runs of a machine given by a partial step function: a
  label carries every choice the environment makes, and
  `none` means that the label is not enabled.

  Key definitions include:
    * `Machine.run`
    * `Machine.Reaches`
    * `Machine.Reachable`
    * `Machine.AllSteps`
    * `Machine.final`
    * `Machine.observe`
    * `Machine.each`

  Key theorems include:
    * `Machine.Reaches.invariant`
    * `Machine.Reaches.invariant_of_reaches`
    * `Machine.reaches_of_run`
    * `Machine.reachable_of_run`
    * `Machine.length_le_of_run`
    * `Machine.iff_allSteps_of_run`
    * `Machine.always_iff_allSteps`
    * `Machine.observe_eq_some_iff`
    * `Machine.each_eq_some_iff`
    * `Machine.forall_of_each`

  A condition `ok` on steps restricts the runs that are
  considered; `fun _ _ => True` admits every run.
-/

------------------------------------------------------------
-- Runs
------------------------------------------------------------

namespace Machine

variable {S L : Type}

/- Execute a list of labels, failing at a disabled one. -/
def run
    (step : S → L → Option S) :
    S → List L → Option S
| s, [] => some s
| s, l :: ls =>
    (step s l).bind (fun t => run step t ls)

/-
  `t` is reached from `s` by steps that all meet `ok`.  The
  condition reads the state before the step.
-/
inductive Reaches
    (step : S → L → Option S)
    (ok : S → L → Prop)
    (s : S) : S → Prop
  | refl : Reaches step ok s s
  | tail {t u : S} {l : L}
      (hRun : Reaches step ok s t)
      (hOk : ok t l)
      (hStep : step t l = some u) :
      Reaches step ok s u

/- Reachability by unrestricted steps. -/
abbrev Reachable
    (step : S → L → Option S)
    (s : S) : S → Prop :=
  Reaches step (fun _ _ => True) s

/- Every step of an executed list meets `ok`. -/
def AllSteps
    (step : S → L → Option S)
    (ok : S → L → Prop) :
    S → List L → Prop
| _, [] => True
| s, l :: ls =>
    ok s l ∧
      match step s l with
      | none => True
      | some t => AllSteps step ok t ls

instance decidableAllSteps
    (step : S → L → Option S)
    (ok : S → L → Prop)
    [∀ s l, Decidable (ok s l)] :
    (s : S) → (ls : List L) →
      Decidable (AllSteps step ok s ls)
| _, [] => inferInstanceAs (Decidable True)
| s, l :: ls =>
    match h : step s l with
    | none =>
        decidable_of_iff (ok s l) (by
          simp [AllSteps, h])
    | some t =>
        have := decidableAllSteps step ok t ls
        decidable_of_iff
          (ok s l ∧ AllSteps step ok t ls) (by
            simp [AllSteps, h])

end Machine

------------------------------------------------------------
-- Invariants
------------------------------------------------------------

namespace Machine

namespace Reaches

variable {S L : Type}
variable {step : S → L → Option S}
variable {ok ok' : S → L → Prop}
variable {s t u : S}

/-
  A property of the start that every admitted step preserves
  holds in every state reached.
-/
theorem invariant
    {I : S → Prop}
    (hRun : Reaches step ok s t)
    (hInit : I s)
    (hPres :
      ∀ {t u : S} {l : L},
        I t → ok t l → step t l = some u → I u) :
    I t := by
  induction hRun with
  | refl => exact hInit
  | tail _ hOk hStep ih => exact hPres ih hOk hStep

/-
  The invariant rule in which the preservation proof may
  also use that the state before the step is reached.
-/
theorem invariant_of_reaches
    {I : S → Prop}
    (hRun : Reaches step ok s t)
    (hInit : I s)
    (hPres :
      ∀ {t u : S} {l : L},
        Reaches step ok s t → I t → ok t l →
          step t l = some u → I u) :
    I t := by
  induction hRun with
  | refl => exact hInit
  | tail hPrior hOk hStep ih =>
      exact hPres hPrior ih hOk hStep

/- Runs compose. -/
theorem trans
    (hFirst : Reaches step ok s t)
    (hSecond : Reaches step ok t u) :
    Reaches step ok s u := by
  induction hSecond with
  | refl => exact hFirst
  | tail _ hOk hStep ih => exact ih.tail hOk hStep

/- A stronger condition admits fewer runs. -/
theorem mono
    (hRun : Reaches step ok s t)
    (hImp : ∀ {t : S} {l : L}, ok t l → ok' t l) :
    Reaches step ok' s t := by
  induction hRun with
  | refl => exact .refl
  | tail _ hOk hStep ih => exact ih.tail (hImp hOk) hStep

end Reaches

variable {S L : Type}
variable {step : S → L → Option S}
variable {ok : S → L → Prop}

/- Executing one list after another. -/
theorem run_append
    (s : S)
    (ls ms : List L) :
    run step s (ls ++ ms) =
      (run step s ls).bind (fun t => run step t ms) := by
  induction ls generalizing s with
  | nil => rfl
  | cons l ls ih =>
      rw [List.cons_append, run, run, Option.bind_assoc]
      exact Option.bind_congr (fun t _ => ih t)

theorem run_cons_of_step
    {s t : S}
    {l : L}
    {o : Option S}
    {ls : List L}
    (hStep : step s l = some t)
    (hRun : run step t ls = o) :
    run step s (l :: ls) = o := by
  rw [run, hStep, Option.bind_some, hRun]

theorem run_append_of_run
    {s t : S}
    {o : Option S}
    {ls ms : List L}
    (hFirst : run step s ls = some t)
    (hSecond : run step t ms = o) :
    run step s (ls ++ ms) = o := by
  rw [run_append, hFirst, Option.bind_some, hSecond]

theorem allSteps_and
    {ok' : S → L → Prop}
    {s : S}
    {ls : List L}
    (hOk : AllSteps step ok s ls)
    (hOk' : AllSteps step ok' s ls) :
    AllSteps step (fun s l => ok s l ∧ ok' s l) s ls := by
  induction ls generalizing s with
  | nil => trivial
  | cons l ls ih =>
      refine ⟨⟨hOk.1, hOk'.1⟩, ?_⟩
      have hTail := hOk.2
      have hTail' := hOk'.2
      cases hStep : step s l with
      | none => trivial
      | some t =>
          rw [hStep] at hTail hTail'
          exact ih hTail hTail'

/- An executed list whose steps meet `ok` is a run. -/
theorem reaches_of_run
    {s t : S}
    {ls : List L}
    (hRun : run step s ls = some t)
    (hOk : AllSteps step ok s ls) :
    Reaches step ok s t := by
  induction ls generalizing s with
  | nil =>
      cases hRun
      exact .refl
  | cons l ls ih =>
      rcases Option.bind_eq_some_iff.mp hRun with
        ⟨m, hStep, hRest⟩
      rcases hOk with ⟨hHead, hTail⟩
      rw [hStep] at hTail
      exact
        (Reaches.refl.tail hHead hStep).trans
          (ih hRest hTail)

/- An executed list is an unrestricted run. -/
theorem reachable_of_run
    {s t : S}
    {ls : List L}
    (hRun : run step s ls = some t) :
    Reachable step s t := by
  induction ls generalizing s with
  | nil =>
      cases hRun
      exact .refl
  | cons l ls ih =>
      rcases Option.bind_eq_some_iff.mp hRun with
        ⟨m, hStep, hRest⟩
      exact
        (Reaches.refl.tail trivial hStep).trans
          (ih hRest)

/-
  Where every admitted step lowers a measure, a run is as
  long as the measure allows.
-/
theorem length_le_of_run
    {measure : S → Nat}
    (hLowers :
      ∀ {s t : S} {l : L}, ok s l → step s l = some t →
        measure t + 1 ≤ measure s)
    {s t : S}
    {ls : List L}
    (hRun : run step s ls = some t)
    (hOk : AllSteps step ok s ls) :
    ls.length + measure t ≤ measure s := by
  induction ls generalizing s with
  | nil =>
      cases hRun
      simp
  | cons l ls ih =>
      rcases Option.bind_eq_some_iff.mp hRun with
        ⟨m, hStep, hRest⟩
      rcases hOk with ⟨hHead, hTail⟩
      rw [hStep] at hTail
      have hThis := hLowers hHead hStep
      have hThose := ih hRest hTail
      rw [List.length_cons]
      omega

/-
  Where each step keeps `Q` exactly when it meets `ok`, and
  none repairs it, a run keeps `Q` exactly when all of its
  steps meet `ok`.
-/
theorem iff_allSteps_of_run
    {I Q : S → Prop}
    {s t : S}
    {ls : List L}
    (hRun : run step s ls = some t)
    (hInit : I s)
    (hKeeps :
      ∀ {s t : S} {l : L}, I s → step s l = some t →
        I t ∧ (Q t ↔ Q s ∧ ok s l)) :
    Q t ↔ Q s ∧ AllSteps step ok s ls := by
  induction ls generalizing s with
  | nil =>
      cases hRun
      simp [AllSteps]
  | cons l ls ih =>
      rcases Option.bind_eq_some_iff.mp hRun with
        ⟨m, hStep, hRest⟩
      rcases hKeeps hInit hStep with ⟨hNext, hIff⟩
      rw [ih hRest hNext, hIff, AllSteps, hStep, and_assoc]

/-
  Where a step from a state with `P` keeps `P` exactly when
  it meets `ok`, all states of a run have `P` exactly when
  all of its steps meet `ok`.
-/
theorem always_iff_allSteps
    {I P : S → Prop}
    {s t : S}
    {ls : List L}
    (hRun : run step s ls = some t)
    (hInit : I s)
    (hFirst : P s)
    (hKeeps :
      ∀ {s t : S} {l : L}, I s → P s → step s l = some t →
        I t ∧ (P t ↔ ok s l)) :
    AllSteps step
        (fun s l => ∀ t, step s l = some t → P t) s ls ↔
      AllSteps step ok s ls := by
  induction ls generalizing s with
  | nil => exact Iff.rfl
  | cons l ls ih =>
      rcases Option.bind_eq_some_iff.mp hRun with
        ⟨m, hStep, hRest⟩
      rcases hKeeps hInit hFirst hStep with ⟨hNext, hIff⟩
      have hHead :
          (∀ t, some m = some t → P t) ↔ ok s l := by
        rw [← hIff]
        constructor
        · exact fun hAll => hAll m rfl
        · rintro hP t hEq
          cases hEq
          exact hP
      simp only [AllSteps, hStep]
      constructor
      · rintro ⟨hNow, hLater⟩
        have hOk := hHead.mp hNow
        exact
          ⟨hOk, (ih hRest hNext (hIff.mpr hOk)).mp hLater⟩
      · rintro ⟨hOk, hLater⟩
        exact
          ⟨hHead.mpr hOk,
            (ih hRest hNext (hIff.mpr hOk)).mpr hLater⟩

/- The state in which an executed list ends. -/
def final
    (step : S → L → Option S)
    (s : S)
    (ls : List L)
    (hRuns : (run step s ls).isSome = true) : S :=
  (run step s ls).get hRuns

theorem run_eq_final
    {s : S}
    {ls : List L}
    (hRuns : (run step s ls).isSome = true) :
    run step s ls = some (final step s ls hRuns) :=
  (Option.some_get hRuns).symm

end Machine

------------------------------------------------------------
-- Records Beside a Machine
------------------------------------------------------------

namespace Machine

variable {S L G : Type}

/-
  The machine with a record beside it.  No step reads the
  record; `note` has the states before and after the step.
-/
def observe
    (step : S → L → Option S)
    (note : S → L → S → G → G)
    (s : S × G)
    (l : L) : Option (S × G) :=
  (step s.1 l).map (fun t => (t, note s.1 l t s.2))

variable {step : S → L → Option S}
variable {note : S → L → S → G → G}

theorem observe_eq_some_iff
    {s t : S × G}
    {l : L} :
    observe step note s l = some t ↔
      step s.1 l = some t.1 ∧ t.2 = note s.1 l t.1 s.2 := by
  unfold observe
  rw [Option.map_eq_some_iff]
  constructor
  · rintro ⟨t', hStep, rfl⟩
    exact ⟨hStep, rfl⟩
  · rintro ⟨hStep, hNote⟩
    exact ⟨t.1, hStep, Prod.ext rfl hNote.symm⟩

end Machine

------------------------------------------------------------
-- Machines Side by Side
------------------------------------------------------------

namespace Machine

variable {ι S L : Type} [DecidableEq ι]

/- A family of machines, of which one at a time makes a step. -/
def each
    (step : ι → S → L → Option S)
    (s : ι → S)
    (l : ι × L) : Option (ι → S) :=
  (step l.1 (s l.1) l.2).map (Function.update s l.1)

theorem each_eq_some_iff
    {step : ι → S → L → Option S}
    {s t : ι → S}
    {l : ι × L} :
    each step s l = some t ↔
      ∃ u,
        step l.1 (s l.1) l.2 = some u ∧
          Function.update s l.1 u = t :=
  Option.map_eq_some_iff

/- What a machine keeps in its own steps, all of them keep. -/
theorem forall_of_each
    {step : ι → S → L → Option S}
    {s t : ι → S}
    {l : ι × L}
    {P : ι → S → Prop}
    (hAll : ∀ i, P i (s i))
    (hKeeps :
      ∀ {u}, step l.1 (s l.1) l.2 = some u → P l.1 u)
    (hStep : each step s l = some t) :
    ∀ i, P i (t i) := by
  rcases each_eq_some_iff.mp hStep with ⟨u, hThis, rfl⟩
  rw [Function.forall_update_iff s P]
  exact ⟨hKeeps hThis, fun i _ => hAll i⟩

end Machine
