import Mathlib.Data.List.Basic
import Mathlib.Data.List.TakeDrop
import Mathlib.Data.List.Pairwise

/-
  Reading a list page by page, where the cursor of the next
  page is one more than the key of the last item returned.

  Key definitions include:
    * `Paging.Page`
    * `Paging.page`
    * `Paging.collect`
    * `Paging.NoSplit`

  Key theorems include:
    * `Paging.collect_spec`
    * `Paging.collects_iff`

  A page ends after a number of items, wherever that is in a
  group of items with one key.
-/

------------------------------------------------------------
-- Pages
------------------------------------------------------------

namespace Paging

variable {α : Type}

structure Page (α : Type) where
  items : List α
  -- the number of items behind the page
  remaining : Nat

/- The items whose key is at least `n`. -/
def since
    (key : α → Nat)
    (items : List α)
    (n : Nat) : List α :=
  items.filter (fun a => n ≤ key a)

def page
    (size : Nat)
    (key : α → Nat)
    (items : List α)
    (n : Nat) : Page α where
  items := (since key items n).take size
  remaining := (since key items n).length - size

/-
  What a reader collects that asks for the page behind the
  last item while there is one; `none` without fuel, or when
  no page is returned.
-/
def collect
    (key : α → Nat)
    (fetch : Nat → Option (Page α)) :
    Nat → Nat → Option (List α)
| 0, _ => none
| fuel + 1, n =>
    match fetch n with
    | none => none
    | some p =>
        if p.remaining = 0 then some p.items
        else
          match p.items.getLast? with
          | none => none
          | some last =>
              (collect key fetch fuel (key last + 1)).map
                (fun rest => p.items ++ rest)

/- No page ends between two items with one key. -/
def NoSplit
    (size : Nat)
    (key : α → Nat)
    (items : List α) : Prop :=
  ∀ i a b,
    items[size * (i + 1) - 1]? = some a →
      items[size * (i + 1)]? = some b →
        key a < key b

variable {size : Nat}
variable {key : α → Nat}
variable {items : List α}

/- More fuel does not change what is collected. -/
theorem collect_mono
    {fetch : Nat → Option (Page α)}
    {fuel fuel' n : Nat}
    {all : List α}
    (hAll : collect key fetch fuel n = some all)
    (hFuel : fuel ≤ fuel') :
    collect key fetch fuel' n = some all := by
  induction fuel generalizing fuel' n all with
  | zero => cases hAll
  | succ fuel ih =>
      rcases Nat.exists_eq_add_of_lt hFuel with ⟨m, rfl⟩
      rw [collect] at hAll ⊢
      cases hFetch : fetch n with
      | none =>
          rw [hFetch] at hAll
          cases hAll
      | some p =>
          simp only [hFetch] at hAll ⊢
          split
          · rename_i hNone
            rw [if_pos hNone] at hAll
            exact hAll
          · rename_i hMore
            rw [if_neg hMore] at hAll
            cases hLast : p.items.getLast? with
            | none =>
                rw [hLast] at hAll
                cases hAll
            | some last =>
                simp only [hLast] at hAll ⊢
                rcases Option.map_eq_some_iff.mp hAll with
                  ⟨rest, hRest, hEq⟩
                rw [ih hRest (Nat.le_add_right fuel m),
                  Option.map_some, hEq]

theorem collect_unique
    {fetch : Nat → Option (Page α)}
    {fuel fuel' n : Nat}
    {all all' : List α}
    (hAll : collect key fetch fuel n = some all)
    (hAll' : collect key fetch fuel' n = some all') :
    all = all' := by
  have hMax := collect_mono hAll (Nat.le_max_left fuel fuel')
  rw [collect_mono hAll' (Nat.le_max_right fuel fuel')] at hMax
  exact (Option.some.inj hMax).symm

end Paging

------------------------------------------------------------
-- Behind One Page
------------------------------------------------------------

namespace Paging

variable {α : Type}
variable {size : Nat}
variable {key : α → Nat}
variable {items : List α}

/- A later cursor selects from what an earlier one does. -/
theorem since_since
    {n m : Nat}
    (hLe : n ≤ m) :
    since key (since key items n) m = since key items m := by
  unfold since
  rw [List.filter_filter]
  apply List.filter_congr
  intro a _
  rw [← Bool.decide_and]
  exact decide_eq_decide.mpr
    ⟨fun h => h.1, fun h => ⟨h, Nat.le_trans hLe h⟩⟩

theorem pairwise_since
    (hSorted : items.Pairwise (fun a b => key a ≤ key b))
    (n : Nat) :
    (since key items n).Pairwise
      (fun a b => key a ≤ key b) :=
  hSorted.sublist List.filter_sublist

/- A nonempty full page ends with a last item. -/
theorem getLast?_take
    (hSize : 0 < size)
    (hMore : size < items.length) :
    (items.take size).getLast? = items[size - 1]? := by
  rw [List.getLast?_eq_getElem?, List.length_take,
    Nat.min_eq_left (Nat.le_of_lt hMore),
    List.getElem?_take_of_lt (Nat.sub_one_lt_of_lt hSize)]

/-
  Of sorted items, those behind the last one of a page are
  all behind the page.
-/
theorem since_succ_last
    {last : α}
    (hSorted : items.Pairwise (fun a b => key a ≤ key b))
    (hLast : (items.take size).getLast? = some last) :
    since key items (key last + 1) =
      since key (items.drop size) (key last + 1) := by
  have hBefore :
      ∀ a ∈ items.take size, key a ≤ key last := by
    rcases List.getLast?_eq_some_iff.mp hLast with
      ⟨front, hFront⟩
    have hPage := hSorted.sublist (List.take_sublist size _)
    rw [hFront] at hPage ⊢
    intro a hMem
    rcases List.mem_append.mp hMem with hIn | hIn
    · exact
        (List.pairwise_append.mp hPage).2.2 a hIn last
          (List.mem_singleton_self last)
    · exact
        Nat.le_of_eq (congrArg key (List.mem_singleton.mp hIn))
  have hNone :
      since key (items.take size) (key last + 1) = [] := by
    apply List.filter_eq_nil_iff.mpr
    intro a hMem
    have hLe := hBefore a hMem
    simp only [decide_eq_true_eq]
    omega
  calc
    since key items (key last + 1)
      = since key (items.take size ++ items.drop size)
          (key last + 1) := by
        rw [List.take_append_drop]
    _ = since key (items.drop size) (key last + 1) := by
        unfold since at hNone ⊢
        rw [List.filter_append, hNone, List.nil_append]

/- Sorted items are all from `n` on when the first is. -/
theorem since_eq_self_iff
    (hSorted : items.Pairwise (fun a b => key a ≤ key b))
    (n : Nat) :
    since key items n = items ↔
      ∀ b, items[0]? = some b → n ≤ key b := by
  unfold since
  rw [List.filter_eq_self]
  cases items with
  | nil => simp
  | cons c rest =>
      have hRest := (List.pairwise_cons.mp hSorted).1
      constructor
      · intro hAll b hHead
        cases hHead
        simpa using hAll c List.mem_cons_self
      · intro hHead a hMem
        have hFirst := hHead c rfl
        rcases List.mem_cons.mp hMem with rfl | hIn
        · simpa using hFirst
        · simpa using Nat.le_trans hFirst (hRest a hIn)

/- The first boundary, and those of the items behind it. -/
theorem noSplit_iff_drop
    (hSize : 0 < size) :
    NoSplit size key items ↔
      (∀ a b, items[size - 1]? = some a →
        items[size]? = some b → key a < key b) ∧
      NoSplit size key (items.drop size) := by
  have hShift (i : Nat) :
      size + (size * (i + 1) - 1) =
          size * (i + 1 + 1) - 1 ∧
        size + size * (i + 1) = size * (i + 1 + 1) := by
    have hPos : 0 < size * (i + 1) :=
      Nat.mul_pos hSize (Nat.succ_pos i)
    have hEq : size * (i + 1 + 1) = size * (i + 1) + size :=
      Nat.mul_succ size (i + 1)
    omega
  constructor
  · intro hNone
    refine ⟨fun a b hA hB => hNone 0 a b ?_ ?_, ?_⟩
    · simpa using hA
    · simpa using hB
    · intro i a b hA hB
      rw [List.getElem?_drop] at hA hB
      rw [(hShift i).1] at hA
      rw [(hShift i).2] at hB
      exact hNone (i + 1) a b hA hB
  · rintro ⟨hFirst, hRest⟩ i a b hA hB
    cases i with
    | zero =>
        exact hFirst a b (by simpa using hA)
          (by simpa using hB)
    | succ i =>
        apply hRest i a b
        · rw [List.getElem?_drop, (hShift i).1]
          exact hA
        · rw [List.getElem?_drop, (hShift i).2]
          exact hB

end Paging

------------------------------------------------------------
-- All Pages
------------------------------------------------------------

namespace Paging

variable {α : Type}
variable {size : Nat}
variable {key : α → Nat}
variable {items : List α}

/- The pages of a list that does not change. -/
def pages
    (size : Nat)
    (key : α → Nat)
    (items : List α)
    (n : Nat) : Option (Page α) :=
  some (page size key items n)

/- A page with nothing behind it is all that is collected. -/
theorem collect_of_short
    {n : Nat}
    (fuel : Nat)
    (hShort : (since key items n).length ≤ size) :
    collect key (pages size key items) (fuel + 1) n =
      some (since key items n) := by
  simp only [collect, pages, page,
    Nat.sub_eq_zero_of_le hShort, if_true,
    List.take_of_length_le hShort]

/- A page with more behind it comes before the next ones. -/
theorem collect_of_long
    {n : Nat}
    {last : α}
    (fuel : Nat)
    (hMore : size < (since key items n).length)
    (hLast :
      ((since key items n).take size).getLast? = some last) :
    collect key (pages size key items) (fuel + 1) n =
      (collect key (pages size key items) fuel
        (key last + 1)).map
          (fun rest =>
            (since key items n).take size ++ rest) := by
  simp only [collect, pages, page, hLast,
    Nat.sub_ne_zero_of_lt hMore, if_false]

/- A list that ends by its first page has no boundary. -/
theorem noSplit_of_short
    (hShort : items.length ≤ size) :
    NoSplit size key items := by
  intro i a b _ hB
  rcases List.getElem?_eq_some_iff.mp hB with ⟨hLt, _⟩
  have hLe : size ≤ size * (i + 1) :=
    Nat.le_mul_of_pos_right size (Nat.succ_pos i)
  omega

/- No two items have one key. -/
theorem noSplit_of_strict
    (hSize : 0 < size)
    (hStrict : items.Pairwise (fun a b => key a < key b)) :
    NoSplit size key items := by
  intro i a b hA hB
  rcases List.getElem?_eq_some_iff.mp hA with ⟨hLtA, rfl⟩
  rcases List.getElem?_eq_some_iff.mp hB with ⟨hLtB, rfl⟩
  have hPos : 0 < size * (i + 1) :=
    Nat.mul_pos hSize (Nat.succ_pos i)
  exact
    List.pairwise_iff_getElem.mp hStrict _ _ hLtA hLtB
      (Nat.sub_one_lt_of_lt hPos)

/-
  A first page and what is read behind it are all items
  exactly when neither its end nor a later one splits.
-/
theorem take_append_eq_iff
    {last : α}
    {rest : List α}
    (hSize : 0 < size)
    (hSorted : items.Pairwise (fun a b => key a ≤ key b))
    (hLast : items[size - 1]? = some last)
    (hSub :
      rest.Sublist
        (since key (items.drop size) (key last + 1)))
    (hRest :
      rest = since key (items.drop size) (key last + 1) ↔
        NoSplit size key
          (since key (items.drop size) (key last + 1))) :
    items.take size ++ rest = items ↔
      NoSplit size key items := by
  have hBehind :
      (since key (items.drop size) (key last + 1)).Sublist
        (items.drop size) :=
    List.filter_sublist
  have hFirst :=
    since_eq_self_iff
      (hSorted.sublist (List.drop_sublist size _))
      (key last + 1)
  rw [List.getElem?_drop, Nat.add_zero] at hFirst
  have hHead :
      since key (items.drop size) (key last + 1) =
          items.drop size ↔
        ∀ a b, items[size - 1]? = some a →
          items[size]? = some b → key a < key b := by
    rw [hFirst, hLast]
    constructor
    · rintro hAbove a b hA hB
      cases hA
      exact hAbove b hB
    · intro hAbove b hB
      exact hAbove last b rfl hB
  have hAll :
      items.take size ++ rest = items ↔
        rest = items.drop size := by
    nth_rewrite 2 [← List.take_append_drop size items]
    exact List.append_right_inj _
  rw [hAll, noSplit_iff_drop hSize, ← hHead]
  constructor
  · rintro rfl
    have hSame := hBehind.antisymm hSub
    rw [hSame] at hRest
    exact ⟨hSame, hRest.mp rfl⟩
  · rintro ⟨hSame, hNone⟩
    rw [hSame] at hRest
    exact hRest.mpr hNone

/-
  Reading sorted items terminates.  What is collected are
  items from `n` on in their order, and all of them exactly
  when no page splits a group.  The induction is on the
  number of the items from the cursor on.
-/
theorem collect_spec
    (hSize : 0 < size)
    (hSorted : items.Pairwise (fun a b => key a ≤ key b))
    (n : Nat) :
    ∃ fuel all,
      collect key (pages size key items) fuel n = some all ∧
        all.Sublist (since key items n) ∧
        (all = since key items n ↔
          NoSplit size key (since key items n)) := by
  induction hLength : (since key items n).length using
      Nat.strongRecOn generalizing n with
  | _ len ih =>
      rcases Nat.lt_or_ge size (since key items n).length with
        hMore | hShort
      · have hFound := pairwise_since hSorted n
        have hPage := getLast?_take hSize hMore
        have hIn : size - 1 < (since key items n).length := by
          omega
        obtain ⟨last, hLast⟩ :
            ∃ last,
              (since key items n)[size - 1]? = some last :=
          ⟨_, List.getElem?_eq_getElem hIn⟩
        rw [hLast] at hPage
        have hLe : n ≤ key last := by
          have hMem := List.mem_of_getElem? hLast
          exact of_decide_eq_true (List.mem_filter.mp hMem).2
        have hNext :
            since key items (key last + 1) =
              since key ((since key items n).drop size)
                (key last + 1) := by
          rw [← since_succ_last hFound hPage,
            since_since (Nat.le_succ_of_le hLe)]
        have hBehind :
            (since key items (key last + 1)).Sublist
              ((since key items n).drop size) := by
          rw [hNext]
          exact List.filter_sublist
        have hFewer := hBehind.length_le
        rw [List.length_drop] at hFewer
        rcases ih _ (by omega) (key last + 1) rfl with
          ⟨fuel, rest, hRest, hSub, hIff⟩
        refine
          ⟨fuel + 1, (since key items n).take size ++ rest,
            ?_, ?_, ?_⟩
        · rw [collect_of_long fuel hMore hPage, hRest,
            Option.map_some]
        · have hBoth :=
            (List.Sublist.refl
              ((since key items n).take size)).append
                (hSub.trans hBehind)
          rw [List.take_append_drop] at hBoth
          exact hBoth
        · rw [hNext] at hSub hIff
          exact
            take_append_eq_iff hSize hFound hLast hSub hIff
      · exact
          ⟨1, since key items n, collect_of_short 0 hShort,
            List.Sublist.refl _,
            iff_of_true rfl (noSplit_of_short hShort)⟩

/- Exactly the items from `n` on are read, each once. -/
theorem collects_iff
    (hSize : 0 < size)
    (hSorted : items.Pairwise (fun a b => key a ≤ key b))
    (n : Nat) :
    (∃ fuel,
      collect key (pages size key items) fuel n =
        some (since key items n)) ↔
      NoSplit size key (since key items n) := by
  rcases collect_spec hSize hSorted n with
    ⟨fuel, all, hAll, _, hIff⟩
  rw [← hIff]
  constructor
  · rintro ⟨fuel', hExact⟩
    exact collect_unique hAll hExact
  · rintro rfl
    exact ⟨fuel, hAll⟩

end Paging
