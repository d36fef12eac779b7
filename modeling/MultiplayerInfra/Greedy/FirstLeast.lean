import Mathlib.Data.List.MinMax
import Mathlib.Order.OrderDual

/-
  The element that a scan for the least one ends with: among
  equals it is the first.

  Key definitions include:
    * `Greedy.FirstLeast`
    * `Greedy.keepLess`

  Key theorems include:
    * `Greedy.firstLeast_iff`
    * `Greedy.firstLeast_of_argmax`
    * `Greedy.exists_first_greatest`
    * `Greedy.foldl_keepLess`

  A scan that passes over some elements is the search for
  the least one among the others.
-/

------------------------------------------------------------
-- First Least Elements
------------------------------------------------------------

namespace Greedy

variable {α β : Type} [LinearOrder β]

/- The first of the least elements of a list. -/
def FirstLeast
    (f : α → β)
    (l : List α)
    (m : α) : Prop :=
  ∃ before after,
    l = before ++ m :: after ∧
      (∀ a ∈ before, f m < f a) ∧
      ∀ a ∈ after, f m ≤ f a

theorem FirstLeast.mem
    {f : α → β}
    {l : List α}
    {m : α}
    (hFirst : FirstLeast f l m) :
    m ∈ l := by
  rcases hFirst with ⟨before, after, rfl, _, _⟩
  exact List.mem_append_right _ List.mem_cons_self

theorem FirstLeast.le
    {f : α → β}
    {l : List α}
    {m a : α}
    (hFirst : FirstLeast f l m)
    (hMem : a ∈ l) :
    f m ≤ f a := by
  rcases hFirst with ⟨before, after, rfl, hBefore, hAfter⟩
  rcases List.mem_append.mp hMem with hEarly | hLate
  · exact (hBefore a hEarly).le
  · rcases List.mem_cons.mp hLate with rfl | hLater
    · exact le_refl _
    · exact hAfter a hLater

/- A new head takes the place of a least element or not. -/
theorem firstLeast_cons
    {f : α → β}
    {l : List α}
    {a m : α} :
    FirstLeast f (a :: l) m ↔
      (a = m ∧ ∀ b ∈ l, f a ≤ f b) ∨
        FirstLeast f l m ∧ f m < f a := by
  constructor
  · rintro ⟨before, after, hSplit, hBefore, hAfter⟩
    cases before with
    | nil =>
        cases hSplit
        exact .inl ⟨rfl, hAfter⟩
    | cons b before =>
        cases hSplit
        refine .inr ⟨⟨before, after, rfl, ?_, hAfter⟩, ?_⟩
        · intro c hMem
          exact hBefore c (List.mem_cons_of_mem _ hMem)
        · exact hBefore a List.mem_cons_self
  · rintro (⟨rfl, hLeast⟩ | ⟨hFirst, hLess⟩)
    · exact ⟨[], l, rfl, by simp, hLeast⟩
    · rcases hFirst with
        ⟨before, after, rfl, hBefore, hAfter⟩
      refine ⟨a :: before, after, rfl, ?_, hAfter⟩
      intro c hMem
      rcases List.mem_cons.mp hMem with rfl | hLater
      · exact hLess
      · exact hBefore c hLater

/- The search of the library finds the first least element. -/
theorem firstLeast_iff
    {f : α → β}
    {l : List α}
    {m : α} :
    l.argmin f = some m ↔ FirstLeast f l m := by
  induction l generalizing m with
  | nil => simp [FirstLeast]
  | cons a l ih =>
      rw [List.argmin_cons, firstLeast_cons]
      cases hRest : l.argmin f with
      | none =>
          rw [List.argmin_eq_none] at hRest
          subst hRest
          simp [FirstLeast]
      | some c =>
          have hFirst : FirstLeast f l c := ih.mp hRest
          have hOnly :
              FirstLeast f l m ↔ c = m := by
            rw [← ih, hRest, Option.some.injEq]
          by_cases hLess : f c < f a
          · simp only [if_pos hLess, Option.some.injEq,
              hOnly]
            constructor
            · rintro rfl
              exact .inr ⟨rfl, hLess⟩
            · rintro (⟨rfl, hLeast⟩ | ⟨rfl, _⟩)
              · exact
                  absurd hLess
                    (not_lt_of_ge (hLeast c hFirst.mem))
              · rfl
          · simp only [if_neg hLess, Option.some.injEq,
              hOnly]
            constructor
            · rintro rfl
              left
              refine ⟨rfl, fun b hMem => ?_⟩
              exact (not_lt.mp hLess).trans (hFirst.le hMem)
            · rintro (⟨rfl, _⟩ | ⟨rfl, hContra⟩)
              · rfl
              · exact absurd hContra hLess

/- The same for a greatest element, in the reverse order. -/
theorem firstLeast_of_argmax
    {f : α → β}
    {l : List α}
    {m : α} :
    l.argmax f = some m ↔
      FirstLeast (fun a => OrderDual.toDual (f a)) l m :=
  firstLeast_iff
    (f := fun a => OrderDual.toDual (f a))

/- A list that is not empty has such a greatest element. -/
theorem exists_first_greatest
    (f : α → β)
    {l : List α}
    (hNonempty : l ≠ []) :
    ∃ before m after,
      l = before ++ m :: after ∧
        (∀ a ∈ before, f a < f m) ∧
        ∀ a ∈ after, f a ≤ f m := by
  cases hGreatest : l.argmax f with
  | none =>
      rw [List.argmax_eq_none] at hGreatest
      exact absurd hGreatest hNonempty
  | some m =>
      rcases firstLeast_of_argmax.mp hGreatest with
        ⟨before, after, hParts⟩
      exact ⟨before, m, after, hParts⟩

end Greedy

------------------------------------------------------------
-- Scans
------------------------------------------------------------

namespace Greedy

variable {α β : Type} [LinearOrder β]

/-
  One turn of a scan over the wanted elements: the best so
  far stays unless the next one is less.
-/
def keepLess
    (wanted : α → Bool)
    (f : α → β)
    (best : Option α)
    (a : α) : Option α :=
  if wanted a then
    match best with
    | none => some a
    | some b => if f a < f b then some a else some b
  else best

/- Passing over elements is filtering them out first. -/
theorem foldl_keepLess
    (wanted : α → Bool)
    (f : α → β)
    (l : List α) :
    l.foldl (keepLess wanted f) none =
      (l.filter wanted).argmin f := by
  have hGeneral :
      ∀ best, l.foldl (keepLess wanted f) best =
        (l.filter wanted).foldl
          (List.argAux (fun b c => f b < f c)) best := by
    induction l with
    | nil => exact fun _ => rfl
    | cons a l ih =>
        intro best
        rw [List.foldl_cons, ih]
        cases hWanted : wanted a with
        | true =>
            rw [List.filter_cons_of_pos hWanted,
              List.foldl_cons]
            simp only [keepLess, hWanted, if_true]
            cases best <;> rfl
        | false =>
            have hSkip : ¬ wanted a = true := by
              simp [hWanted]
            rw [List.filter_cons_of_neg hSkip]
            simp [keepLess, hWanted]
  exact hGeneral none

end Greedy
