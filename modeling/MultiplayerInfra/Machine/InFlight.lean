import Mathlib.Data.List.Basic

/-
  Jobs that are started one after another and end in any
  order: when the effect of the newest one stands.

  Key definitions include:
    * `InFlight.staleAfter`
    * `InFlight.Settles`

  Key theorems include:
    * `InFlight.Settles.push`
    * `InFlight.Settles.erase`

  The jobs in progress are listed in the order of their
  start.  A job is stale if one that started later has taken
  effect, so the stale ones come first.
-/

------------------------------------------------------------
-- Jobs in Progress
------------------------------------------------------------

namespace InFlight

variable {ι : Type}

/- The number of stale jobs once the `i`-th one has ended. -/
def staleAfter (stale i : Nat) (lands : Bool) : Nat :=
  if i < stale then stale - 1
  else if lands then i
  else stale

/-
  Either the newest effect stands, or the newest job in
  progress is a good one and will take effect over it.
-/
structure Settles
    (good : ι → Prop)
    (stands : Prop)
    (jobs : List ι)
    (stale : Nat) : Prop where
  le : stale ≤ jobs.length
  stands : stale = jobs.length → stands
  newest :
    stale < jobs.length →
      ∀ job, jobs.getLast? = some job → good job

variable {good : ι → Prop}
variable {stands stands' : Prop}
variable {jobs : List ι}
variable {stale i : Nat}
variable {job : ι}

/- With nothing in progress the newest effect stands. -/
theorem Settles.of_nil
    (hSettles : Settles good stands [] stale) :
    stands :=
  hSettles.stands (Nat.le_zero.mp hSettles.le)

theorem settles_nil
    (good : ι → Prop)
    (hStands : stands) :
    Settles good stands [] 0 where
  le := Nat.zero_le _
  stands := fun _ => hStands
  newest := nofun

/- A new job is the newest one. -/
theorem Settles.push
    (hLe : stale ≤ jobs.length)
    (hGood : good job) :
    Settles good stands (jobs ++ [job]) stale where
  le := by
    rw [List.length_append]
    exact Nat.le_trans hLe (Nat.le_add_right _ _)
  stands := by
    intro hAll
    rw [List.length_append, List.length_singleton] at hAll
    omega
  newest := by
    intro _ job' hLast
    rw [List.getLast?_concat] at hLast
    cases hLast
    exact hGood

/- Nothing is asked of any job. -/
theorem Settles.of_all
    (hLe : stale ≤ jobs.length)
    (hStands : stands)
    (hGood : ∀ job, good job) :
    Settles good stands jobs stale where
  le := hLe
  stands := fun _ => hStands
  newest := fun _ job _ => hGood job

theorem staleAfter_le
    (hLe : stale ≤ jobs.length)
    (hAt : i < jobs.length)
    (lands : Bool) :
    staleAfter stale i lands ≤ (jobs.eraseIdx i).length := by
  rw [List.length_eraseIdx_of_lt hAt]
  unfold staleAfter
  split
  · omega
  · split <;> omega

/- Unless it ends itself, the newest job stays the newest. -/
theorem getLast?_eraseIdx
    (hNot : i + 1 < jobs.length) :
    (jobs.eraseIdx i).getLast? = jobs.getLast? := by
  rw [List.getLast?_eq_getElem?, List.getLast?_eq_getElem?,
    List.length_eraseIdx_of_lt (by omega),
    List.getElem?_eraseIdx_of_ge (by omega)]
  congr 1
  omega

/-
  A job ends.  If it is stale and takes effect when no other
  will do so later, what stood has to stand still; if it is
  the newest one and fails, nothing may be asked any more.
-/
theorem Settles.erase
    (hSettles : Settles good stands jobs stale)
    (hAt : jobs[i]? = some job)
    {lands : Bool}
    (hKeeps :
      i < stale → stale = jobs.length → stands → stands')
    (hLands : lands = true → good job → stands')
    (hFails :
      lands = false →
        i < stale ∨ i + 1 < jobs.length ∨
          stands' ∧ ∀ job, good job) :
    Settles good stands' (jobs.eraseIdx i)
      (staleAfter stale i lands) := by
  rcases List.getElem?_eq_some_iff.mp hAt with ⟨hLt, hJob⟩
  have hLe := staleAfter_le hSettles.le hLt lands
  have hLength := List.length_eraseIdx_of_lt hLt
  by_cases hStale : i < stale
  · have hAfter : staleAfter stale i lands = stale - 1 :=
      if_pos hStale
    rw [hAfter] at hLe ⊢
    refine ⟨hLe, ?_, ?_⟩
    · intro hAll
      have hWas : stale = jobs.length := by omega
      exact hKeeps hStale hWas (hSettles.stands hWas)
    · intro hSome job' hLast
      rw [getLast?_eraseIdx (by omega)] at hLast
      exact hSettles.newest (by omega) job' hLast
  · cases lands with
    | true =>
        have hAfter : staleAfter stale i true = i := by
          simp [staleAfter, hStale]
        rw [hAfter] at hLe ⊢
        refine ⟨hLe, ?_, ?_⟩
        · intro hAll
          -- the newest job takes effect
          have hNewest : jobs.getLast? = some job := by
            rw [List.getLast?_eq_getElem?, ← hAt]
            congr 1
            omega
          exact
            hLands rfl
              (hSettles.newest (by omega) job hNewest)
        · intro hSome job' hLast
          rw [getLast?_eraseIdx (by omega)] at hLast
          exact hSettles.newest (by omega) job' hLast
    | false =>
        have hAfter : staleAfter stale i false = stale := by
          simp [staleAfter, hStale]
        rw [hAfter] at hLe ⊢
        rcases hFails rfl with hNot | hMore | ⟨hDone, hAny⟩
        · exact absurd hNot hStale
        · refine ⟨hLe, fun hAll => absurd hAll (by omega), ?_⟩
          intro hSome job' hLast
          rw [getLast?_eraseIdx hMore] at hLast
          exact hSettles.newest (by omega) job' hLast
        · exact Settles.of_all hLe hDone hAny

end InFlight
