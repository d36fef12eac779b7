import Mathlib.Algebra.Order.Floor.Ring
import Mathlib.Algebra.Order.Ring.Abs
import Mathlib.Tactic.Linarith
import Mathlib.Tactic.NormNum
import Mathlib.Tactic.Push

/-
  Rounding to the nearest integer, ties to even, in an
  ordered field.

  Key definitions include:
    * `Rounding.halfEven`

  Key theorems include:
    * `Rounding.abs_halfEven_sub_le`
    * `Rounding.halfEven_mono`
    * `Rounding.abs_halfEven_sub_intCast_le`
-/

------------------------------------------------------------
-- Rounding
------------------------------------------------------------

namespace Rounding

variable {K : Type} [Field K] [LinearOrder K]
variable [IsStrictOrderedRing K] [FloorRing K]

/- The nearest integer; of two, the even one. -/
def halfEven (x : K) : ℤ :=
  if x - ⌊x⌋ < 1 / 2 then ⌊x⌋
  else if 1 / 2 < x - ⌊x⌋ then ⌊x⌋ + 1
  else if ⌊x⌋ % 2 = 0 then ⌊x⌋
  else ⌊x⌋ + 1

omit [IsStrictOrderedRing K] in
/- One of the two integers around the number. -/
theorem halfEven_eq_floor_or
    (x : K) :
    halfEven x = ⌊x⌋ ∧ x - ⌊x⌋ ≤ 1 / 2 ∨
      halfEven x = ⌊x⌋ + 1 ∧ 1 / 2 ≤ x - ⌊x⌋ := by
  unfold halfEven
  by_cases hLow : x - ⌊x⌋ < 1 / 2
  · rw [if_pos hLow]
    exact .inl ⟨rfl, hLow.le⟩
  · rw [if_neg hLow]
    by_cases hHigh : 1 / 2 < x - ⌊x⌋
    · rw [if_pos hHigh]
      exact .inr ⟨rfl, hHigh.le⟩
    · rw [if_neg hHigh]
      by_cases hEven : ⌊x⌋ % 2 = 0
      · rw [if_pos hEven]
        exact .inl ⟨rfl, not_lt.mp hHigh⟩
      · rw [if_neg hEven]
        exact .inr ⟨rfl, not_lt.mp hLow⟩

/- Rounding moves a number by a half at most. -/
theorem abs_halfEven_sub_le
    (x : K) :
    |(halfEven x : K) - x| ≤ 1 / 2 := by
  have hFloor := Int.floor_le x
  have hNext := Int.lt_floor_add_one x
  rw [abs_le]
  rcases halfEven_eq_floor_or x with ⟨hDown, hNear⟩ |
    ⟨hUp, hNear⟩
  · rw [hDown]
    constructor <;> linarith
  · rw [hUp]
    push_cast
    constructor <;> linarith

@[simp] theorem halfEven_intCast
    (n : ℤ) :
    halfEven (n : K) = n := by
  have hHalf : (0 : K) < 1 / 2 := by norm_num
  rw [halfEven, Int.floor_intCast, sub_self, if_pos hHalf]

/- Rounding keeps the order. -/
theorem halfEven_mono
    {x y : K}
    (hLe : x ≤ y) :
    halfEven x ≤ halfEven y := by
  have hFloor : ⌊x⌋ ≤ ⌊y⌋ := Int.floor_le_floor hLe
  rcases lt_or_eq_of_le hFloor with hLess | hSame
  · -- the integers around `x` are at most those around `y`
    rcases halfEven_eq_floor_or x with ⟨hX, _⟩ | ⟨hX, _⟩ <;>
    rcases halfEven_eq_floor_or y with ⟨hY, _⟩ | ⟨hY, _⟩ <;>
    omega
  · have hRest : x - ⌊x⌋ ≤ y - ⌊x⌋ :=
      sub_le_sub_right hLe _
    unfold halfEven
    rw [← hSame]
    by_cases hLow : x - ⌊x⌋ < 1 / 2
    · rw [if_pos hLow]
      split
      · exact le_refl _
      · split
        · omega
        · split <;> omega
    · have hNotLow : ¬ y - ⌊x⌋ < 1 / 2 :=
        fun hY => hLow (hRest.trans_lt hY)
      rw [if_neg hLow, if_neg hNotLow]
      by_cases hHigh : 1 / 2 < x - ⌊x⌋
      · rw [if_pos hHigh, if_pos (hHigh.trans_le hRest)]
      · rw [if_neg hHigh]
        by_cases hAbove : 1 / 2 < y - ⌊x⌋
        · rw [if_pos hAbove]
          split <;> omega
        · rw [if_neg hAbove]

/-
  Rounding does not take a number farther from an integer
  than another integer.
-/
theorem abs_halfEven_sub_intCast_le
    {x : K}
    {m n : ℤ}
    (hNear : |x - m| ≤ n) :
    |halfEven x - m| ≤ n := by
  rw [abs_le] at hNear ⊢
  rcases hNear with ⟨hLow, hHigh⟩
  have hFrom : ((m - n : ℤ) : K) ≤ x := by
    push_cast
    linarith
  have hTo : x ≤ ((m + n : ℤ) : K) := by
    push_cast
    linarith
  have hLower := halfEven_mono hFrom
  have hUpper := halfEven_mono hTo
  rw [halfEven_intCast] at hLower hUpper
  omega

end Rounding
