import Mathlib.Data.List.Sort

/-
  Ordered results that are cut off after a number of rows,
  and ranks in which equals share a place.

  Key definitions include:
    * `Ranking.rank`
    * `Ranking.IsPage`

  Key theorems include:
    * `Ranking.isPage_take_insertionSort`
    * `Ranking.IsPage.unique`
    * `Ranking.IsPage.full_of_missing`
    * `Ranking.IsPage.rank_eq`
    * `Ranking.IsPage.rank_le`

  A rank counts better elements of the whole list.  For an
  element on a page it is enough to count those on the page.
-/

------------------------------------------------------------
-- Pages
------------------------------------------------------------

namespace Ranking

variable {ι : Type} {before : ι → ι → Prop}
variable {n : Nat} {xs page : List ι}

/-
  The page is what `ORDER BY ... LIMIT n` may return: a
  beginning of the elements in some order that is right.
-/
def IsPage
    (before : ι → ι → Prop)
    (n : Nat)
    (xs page : List ι) : Prop :=
  ∃ rest,
    (page ++ rest).Perm xs ∧
      (page ++ rest).Pairwise before ∧
        page.length = min n xs.length

/- Sorting and cutting off is one way to get a page. -/
theorem isPage_take_insertionSort
    [DecidableRel before]
    [Std.Total before]
    [IsTrans ι before]
    (n : Nat)
    (xs : List ι) :
    IsPage before n xs ((xs.insertionSort before).take n) := by
  refine ⟨(xs.insertionSort before).drop n, ?_, ?_, ?_⟩
  · rw [List.take_append_drop]
    exact List.perm_insertionSort before xs
  · rw [List.take_append_drop]
    exact List.pairwise_insertionSort before xs
  · rw [List.length_take, List.length_insertionSort]

namespace IsPage

/- The elements of a page are in order. -/
theorem pairwise
    (hPage : IsPage before n xs page) :
    page.Pairwise before := by
  rcases hPage with ⟨rest, _, hSorted, _⟩
  exact (List.pairwise_append.mp hSorted).1

theorem subset
    (hPage : IsPage before n xs page) :
    page ⊆ xs := by
  rcases hPage with ⟨rest, hPerm, _, _⟩
  intro x hMem
  exact hPerm.subset (List.mem_append_left rest hMem)

/- Where no two elements may be exchanged, pages agree. -/
theorem unique
    {page' : List ι}
    (hAntisymm :
      ∀ a ∈ xs, ∀ b ∈ xs, before a b → before b a → a = b)
    (hPage : IsPage before n xs page)
    (hPage' : IsPage before n xs page') :
    page = page' := by
  rcases hPage with ⟨rest, hPerm, hSorted, hLength⟩
  rcases hPage' with ⟨rest', hPerm', hSorted', hLength'⟩
  have hSame : page ++ rest = page' ++ rest' := by
    refine
      (hPerm.trans hPerm'.symm).eq_of_pairwise ?_ hSorted
        hSorted'
    intro a b hA hB hAB hBA
    exact
      hAntisymm a (hPerm.subset hA) b (hPerm'.subset hB) hAB
        hBA
  exact
    (List.append_inj hSame (hLength.trans hLength'.symm)).1

/- What is not on the page comes after a full page. -/
theorem full_of_missing
    (hPage : IsPage before n xs page)
    {x : ι}
    (hMem : x ∈ xs)
    (hMissing : x ∉ page) :
    page.length = n ∧ ∀ y ∈ page, before y x := by
  rcases hPage with ⟨rest, hPerm, hSorted, hLength⟩
  have hRest : x ∈ rest := by
    rcases List.mem_append.mp (hPerm.mem_iff.mpr hMem) with
      hOn | hOff
    · exact absurd hOn hMissing
    · exact hOff
  constructor
  · have hMore : page.length < xs.length := by
      rw [← hPerm.length_eq, List.length_append]
      have := List.length_pos_of_mem hRest
      omega
    omega
  · intro y hOn
    exact (List.pairwise_append.mp hSorted).2.2 y hOn x hRest

end IsPage

end Ranking

------------------------------------------------------------
-- Ranks
------------------------------------------------------------

namespace Ranking

variable {ι κ : Type} [LinearOrder κ]

/- One more than the number of better elements. -/
def rank
    (score : ι → κ)
    (xs : List ι)
    (x : ι) : Nat :=
  xs.countP (fun y => score x < score y) + 1

variable {score : ι → κ}
variable {before : ι → ι → Prop}
variable {n : Nat} {xs page : List ι}

/- A better element has no worse rank. -/
theorem rank_le_rank
    (xs : List ι)
    {x y : ι}
    (hScore : score y ≤ score x) :
    rank score xs x ≤ rank score xs y := by
  apply Nat.succ_le_succ
  apply List.countP_mono_left
  intro z _ hBetter
  rw [decide_eq_true_eq] at hBetter ⊢
  exact hScore.trans_lt hBetter

/- Ranks do not depend on the order of the elements. -/
theorem rank_perm
    {ys : List ι}
    (hPerm : xs.Perm ys)
    (x : ι) :
    rank score xs x = rank score ys x := by
  rw [rank, rank, hPerm.countP_eq]

namespace IsPage

/- Nobody outside the page is better than those on it. -/
theorem rank_eq
    (hScore : ∀ a b, before a b → score b ≤ score a)
    (hPage : IsPage before n xs page)
    {x : ι}
    (hMem : x ∈ page) :
    rank score xs x = rank score page x := by
  rcases hPage with ⟨rest, hPerm, hSorted, _⟩
  have hAfter := (List.pairwise_append.mp hSorted).2.2
  have hRest :
      rest.countP (fun y => score x < score y) = 0 := by
    rw [List.countP_eq_zero]
    intro y hOff hBetter
    rw [decide_eq_true_eq] at hBetter
    exact
      absurd hBetter (hScore _ _ (hAfter x hMem y hOff)).not_gt
  rw [← rank_perm hPerm, rank, rank, List.countP_append, hRest,
    Nat.add_zero]

/- The rank of an element is at most its place. -/
theorem rank_le
    (hScore : ∀ a b, before a b → score b ≤ score a)
    (hPage : IsPage before n xs page)
    {i : Nat}
    {x : ι}
    (hAt : page[i]? = some x) :
    rank score xs x ≤ i + 1 := by
  rw [hPage.rank_eq hScore (List.mem_of_getElem? hAt), rank]
  apply Nat.succ_le_succ
  have hSorted := hPage.pairwise
  rcases List.getElem?_eq_some_iff.mp hAt with ⟨hBound, hGet⟩
  rw [← List.take_append_drop i page] at hSorted ⊢
  rw [List.countP_append]
  have hRest :
      (page.drop i).countP (fun y => score x < score y) =
        0 := by
    rw [List.countP_eq_zero]
    intro y hOff hBetter
    rw [decide_eq_true_eq] at hBetter
    rw [List.drop_eq_getElem_cons hBound, hGet] at hSorted hOff
    rcases List.mem_cons.mp hOff with rfl | hLater
    · exact lt_irrefl _ hBetter
    · have hTail := (List.pairwise_append.mp hSorted).2.1
      have hBefore := (List.pairwise_cons.mp hTail).1 y hLater
      exact absurd hBetter (hScore _ _ hBefore).not_gt
  rw [hRest, Nat.add_zero]
  calc
    (page.take i).countP (fun y => score x < score y)
        ≤ (page.take i).length := List.countP_le_length
    _ ≤ i := List.length_take_le i page

end IsPage

end Ranking
