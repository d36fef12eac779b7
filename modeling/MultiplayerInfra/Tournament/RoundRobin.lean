import Mathlib.Algebra.BigOperators.Group.List.Basic
import Mathlib.Algebra.BigOperators.Group.Multiset.Basic
import Mathlib.Algebra.Order.BigOperators.Group.List
import Mathlib.Analysis.Calculus.Deriv.MeanValue
import Mathlib.Analysis.SpecialFunctions.Sigmoid

/-
  Everybody plays everybody: what the results of all duels
  add up to, and how steep a logistic expectation is.

  Key definitions include:
    * `Tournament.margin`

  Key theorems include:
    * `Tournament.sum_margin_eq_zero`
    * `Tournament.abs_margin_le`
    * `Tournament.margin_le_margin`
    * `Tournament.margin_sub_margin_le`
    * `Tournament.sigmoid_sub_le`
-/

------------------------------------------------------------
-- Margins
------------------------------------------------------------

namespace Tournament

variable {ι : Type}

/-
  The results of one player against all players of the list,
  herself included.
-/
def margin
    (duel : ι → ι → ℝ)
    (players : List ι)
    (i : ι) : ℝ :=
  (players.map (duel i)).sum

/- What one player wins the other loses. -/
theorem sum_margin_eq_zero
    {duel : ι → ι → ℝ}
    (hAnti : ∀ i j, duel i j = -duel j i)
    (players : List ι) :
    (players.map (margin duel players)).sum = 0 := by
  have hSwap :
      (players.map (fun i =>
          (players.map (fun j => duel i j)).sum)).sum =
        (players.map (fun j =>
          (players.map (fun i => duel i j)).sum)).sum := by
    have hMultiset :=
      Multiset.sum_map_sum_map (players : Multiset ι)
        (players : Multiset ι) (f := duel)
    simpa using hMultiset
  have hNeg :
      (players.map (fun j =>
          (players.map (fun i => duel i j)).sum)).sum =
        -(players.map (margin duel players)).sum := by
    rw [List.sum_neg, List.map_map]
    congr 1
    apply List.map_congr_left
    intro j _
    rw [Function.comp_apply, margin, List.sum_neg,
      List.map_map]
    congr 1
    exact List.map_congr_left (fun i _ => hAnti i j)
  have hBoth :
      (players.map (margin duel players)).sum =
        -(players.map (margin duel players)).sum :=
    hSwap.trans hNeg
  linarith

/- Whoever does better in every duel does better. -/
theorem margin_le_margin
    {duel duel' : ι → ι → ℝ}
    {players : List ι}
    {i j : ι}
    (hDuels : ∀ k ∈ players, duel i k ≤ duel' j k) :
    margin duel players i ≤ margin duel' players j :=
  List.sum_le_sum hDuels

/- A player has one opponent less than there are players. -/
theorem abs_margin_le
    {duel : ι → ι → ℝ}
    {players : List ι}
    {i : ι}
    (hMem : i ∈ players)
    (hSelf : duel i i = 0)
    (hBound : ∀ j, |duel i j| ≤ 1) :
    |margin duel players i| ≤ players.length - 1 := by
  rcases List.append_of_mem hMem with
    ⟨before, after, rfl⟩
  have hPart :
      ∀ l : List ι, |(l.map (duel i)).sum| ≤ l.length := by
    intro l
    induction l with
    | nil => simp
    | cons j l ih =>
        rw [List.map_cons, List.sum_cons, List.length_cons]
        push_cast
        have hHead := hBound j
        calc
          |duel i j + (l.map (duel i)).sum|
              ≤ |duel i j| + |(l.map (duel i)).sum| :=
            abs_add_le _ _
          _ ≤ l.length + 1 := by linarith
  have hBefore := hPart before
  have hAfter := hPart after
  rw [margin, List.map_append, List.sum_append,
    List.map_cons, List.sum_cons, hSelf, zero_add]
  calc
    |(before.map (duel i)).sum + (after.map (duel i)).sum|
        ≤ |(before.map (duel i)).sum| +
          |(after.map (duel i)).sum| := abs_add_le _ _
    _ ≤ ((before ++ i :: after).length : ℝ) - 1 := by
      rw [List.length_append, List.length_cons]
      push_cast
      linarith

/- A lead in every duel adds up over all players. -/
theorem margin_sub_margin_le
    {duel : ι → ι → ℝ}
    {players : List ι}
    {i j : ι}
    {lead : ℝ}
    (hDuels : ∀ k ∈ players, duel i k - duel j k ≤ lead) :
    margin duel players i - margin duel players j ≤
      players.length * lead := by
  induction players with
  | nil => simp [margin]
  | cons k players ih =>
      have hHead := hDuels k List.mem_cons_self
      have hRest :=
        ih (fun k' hMem =>
          hDuels k' (List.mem_cons_of_mem _ hMem))
      simp only [margin, List.map_cons, List.sum_cons,
        List.length_cons] at hRest ⊢
      push_cast
      linarith

end Tournament

------------------------------------------------------------
-- Logistic Expectations
------------------------------------------------------------

namespace Tournament

/- The logistic curve is nowhere steeper than 1/4. -/
theorem sigmoid_sub_le
    {u v : ℝ}
    (hLe : v ≤ u) :
    Real.sigmoid u - Real.sigmoid v ≤ 1 / 4 * (u - v) := by
  apply image_sub_le_mul_sub_of_deriv_le
    differentiable_sigmoid
  · intro x
    rw [Real.deriv_sigmoid]
    have hSquare :=
      sq_nonneg (Real.sigmoid x - 1 / 2)
    nlinarith only [hSquare]
  · exact hLe

end Tournament
