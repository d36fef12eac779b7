import Mathlib.Data.List.Sort
import Mathlib.Data.List.Infix
import Mathlib.Data.List.Perm.Basic

/-
  Greedy groups over a list: an element founds a group with
  those that follow it within its reach.

  Key definitions include:
    * `Greedy.joiners`
    * `Greedy.groups`
    * `Greedy.formed`
    * `Greedy.passedOver`
    * `Greedy.Convex`

  Key theorems include:
    * `Greedy.formed_append_passedOver`
    * `Greedy.passedOver_sublist`
    * `Greedy.Convex.pairwise_passedOver`

  A group that is large enough is formed, and the sweep goes
  on behind it.  Otherwise its founder is passed over, and
  the sweep goes on with the element after the founder.
-/

------------------------------------------------------------
-- Groups
------------------------------------------------------------

namespace Greedy

variable {α : Type}

/- At least one, and no more than the group has room for. -/
def joiners
    (reaches : α → α → Bool)
    (most : Nat)
    (founder : α)
    (rest : List α) : List α :=
  (rest.takeWhile (reaches founder)).take (max 1 (most - 1))

/-
  The groups that the sweep considers, from the place where
  the next `skip` elements belong to the last one formed.
-/
def groups
    (reaches : α → α → Bool)
    (least most : Nat) :
    Nat → List α → List (List α)
| _, [] => []
| skip + 1, _ :: rest =>
    groups reaches least most skip rest
| 0, founder :: rest =>
    let joined := joiners reaches most founder rest
    (founder :: joined) ::
      groups reaches least most
        (if least ≤ joined.length + 1 then joined.length
          else 0)
        rest

/- The groups that are large enough. -/
def formed
    (least : Nat)
    (considered : List (List α)) : List (List α) :=
  considered.filter (fun group => least ≤ group.length)

/- The founders of the others. -/
def passedOver
    (least : Nat)
    (considered : List (List α)) : List α :=
  (considered.filter (fun group => group.length < least)).filterMap
    List.head?

end Greedy

------------------------------------------------------------
-- One Group After the Other
------------------------------------------------------------

namespace Greedy

variable {α : Type}
variable {reaches : α → α → Bool}
variable {least most skip : Nat}
variable {founder : α}
variable {rest : List α}

theorem isPrefix_joiners
    (reaches : α → α → Bool)
    (most : Nat)
    (founder : α)
    (rest : List α) :
    (joiners reaches most founder rest).IsPrefix rest :=
  (List.take_prefix _ _).trans (List.takeWhile_prefix _)

/- What is behind the joiners. -/
theorem joiners_append_drop
    (reaches : α → α → Bool)
    (most : Nat)
    (founder : α)
    (rest : List α) :
    joiners reaches most founder rest ++
        rest.drop
          (joiners reaches most founder rest).length =
      rest :=
  List.prefix_append_drop
    (isPrefix_joiners reaches most founder rest) |>.symm

@[simp] theorem groups_nil :
    groups reaches least most skip [] = [] := by
  cases skip <;> rfl

theorem groups_zero_cons :
    groups reaches least most 0 (founder :: rest) =
      (founder :: joiners reaches most founder rest) ::
        groups reaches least most
          (if least ≤
              (joiners reaches most founder rest).length + 1
            then
              (joiners reaches most founder rest).length
            else 0)
          rest :=
  rfl

@[simp] theorem formed_cons_of_le
    {group : List α}
    (considered : List (List α))
    (hLarge : least ≤ group.length) :
    formed least (group :: considered) =
      group :: formed least considered := by
  simp [formed, hLarge]

@[simp] theorem formed_cons_of_lt
    {group : List α}
    (considered : List (List α))
    (hSmall : group.length < least) :
    formed least (group :: considered) =
      formed least considered := by
  simp [formed, Nat.not_le.mpr hSmall]

@[simp] theorem passedOver_cons_of_le
    {group : List α}
    (considered : List (List α))
    (hLarge : least ≤ group.length) :
    passedOver least (group :: considered) =
      passedOver least considered := by
  simp [passedOver, Nat.not_lt.mpr hLarge]

@[simp] theorem passedOver_cons_of_lt
    {a : α}
    {joined : List α}
    (considered : List (List α))
    (hSmall : joined.length + 1 < least) :
    passedOver least ((a :: joined) :: considered) =
      a :: passedOver least considered := by
  simp [passedOver, hSmall]

end Greedy

------------------------------------------------------------
-- The Sweep Splits the List
------------------------------------------------------------

namespace Greedy

variable {α : Type}
variable {reaches : α → α → Bool}
variable {least most : Nat}

/-
  Every element is in one formed group, or it is passed
  over.
-/
theorem formed_append_passedOver
    (reaches : α → α → Bool)
    (least most skip : Nat)
    (l : List α) :
    ((formed least
          (groups reaches least most skip l)).flatten ++
        passedOver least
          (groups reaches least most skip l)).Perm
      (l.drop skip) := by
  induction l generalizing skip with
  | nil => simp [formed, passedOver]
  | cons a rest ih =>
      cases skip with
      | succ skip => exact ih skip
      | zero =>
          rw [groups_zero_cons, List.drop_zero]
          by_cases hLarge :
              least ≤
                (joiners reaches most a rest).length + 1
          · rw [if_pos hLarge,
              formed_cons_of_le _ (by simpa using hLarge),
              passedOver_cons_of_le _
                (by simpa using hLarge),
              List.flatten_cons, List.append_assoc,
              List.cons_append]
            refine List.Perm.cons a ?_
            have hRest :=
              (ih
                (joiners reaches most a rest).length).append_left
                (joiners reaches most a rest)
            rwa [joiners_append_drop] at hRest
          · rw [Nat.not_le] at hLarge
            rw [if_neg (Nat.not_le.mpr hLarge),
              formed_cons_of_lt _ (by simpa using hLarge),
              passedOver_cons_of_lt _ hLarge]
            exact
              List.perm_middle.trans (List.Perm.cons a (ih 0))

/- Those passed over keep their order. -/
theorem passedOver_sublist
    (reaches : α → α → Bool)
    (least most skip : Nat)
    (l : List α) :
    (passedOver least
        (groups reaches least most skip l)).Sublist
      (l.drop skip) := by
  induction l generalizing skip with
  | nil => simp [passedOver]
  | cons a rest ih =>
      cases skip with
      | succ skip => exact ih skip
      | zero =>
          rw [groups_zero_cons, List.drop_zero]
          by_cases hLarge :
              least ≤
                (joiners reaches most a rest).length + 1
          · rw [if_pos hLarge,
              passedOver_cons_of_le _
                (by simpa using hLarge)]
            exact
              ((ih _).trans (List.drop_sublist _ _)).cons a
          · rw [Nat.not_le] at hLarge
            rw [if_neg (Nat.not_le.mpr hLarge),
              passedOver_cons_of_lt _ hLarge]
            exact (ih 0).cons_cons a

end Greedy

------------------------------------------------------------
-- Reaching in a Sorted List
------------------------------------------------------------

namespace Greedy

variable {α : Type}
variable {reaches : α → α → Bool}
variable {least most : Nat}

variable {le : α → α → Prop}

/-
  What lies between an element and one that it reaches is
  reached as well.
-/
def Convex
    (le : α → α → Prop)
    (reaches : α → α → Bool) : Prop :=
  ∀ a b c,
    le a b → le b c → reaches a c = true →
      reaches a b = true

/- Behind an element that is not reached nothing is. -/
theorem Convex.not_reaches
    (hConvex : Convex le reaches)
    {a b : α}
    {rest : List α}
    (hSorted : (a :: b :: rest).Pairwise le)
    (hFar : reaches a b = false) :
    ∀ c ∈ rest, reaches a c = false := by
  intro c hMem
  rw [List.pairwise_cons, List.pairwise_cons] at hSorted
  rcases hSorted with ⟨hFirst, hSecond, _⟩
  rw [Bool.eq_false_iff]
  intro hReach
  have hNear : reaches a b = true :=
    hConvex a b c (hFirst b List.mem_cons_self)
      (hSecond c hMem) hReach
  rw [hFar] at hNear
  cases hNear

/- Those that an element reaches come first. -/
theorem Convex.filter_eq_takeWhile
    (hConvex : Convex le reaches)
    {a : α}
    {rest : List α}
    (hSorted : (a :: rest).Pairwise le) :
    rest.filter (reaches a) =
      rest.takeWhile (reaches a) := by
  induction rest with
  | nil => rfl
  | cons b rest ih =>
      cases hReach : reaches a b with
      | true =>
          have hRest : (a :: rest).Pairwise le :=
            hSorted.sublist
              ((List.sublist_cons_self b rest).cons_cons a)
          rw [List.filter_cons_of_pos hReach,
            List.takeWhile_cons_of_pos hReach, ih hRest]
      | false =>
          have hNone : rest.filter (reaches a) = [] := by
            rw [List.filter_eq_nil_iff]
            intro c hMem
            rw [hConvex.not_reaches hSorted hReach c hMem]
            exact Bool.false_ne_true
          rw [List.filter_cons_of_neg (by simp [hReach]),
            List.takeWhile_cons_of_neg (by simp [hReach]),
            hNone]

/- Who founds a group alone reaches nobody behind. -/
theorem Convex.not_reaches_of_joiners
    (hConvex : Convex le reaches)
    {a : α}
    {rest : List α}
    (hSorted : (a :: rest).Pairwise le)
    (hAlone : joiners reaches most a rest = []) :
    ∀ c ∈ rest, reaches a c = false := by
  cases rest with
  | nil =>
      intro c hMem
      cases hMem
  | cons b rest =>
      have hFar : reaches a b = false := by
        by_contra hNear
        rw [Bool.not_eq_false] at hNear
        unfold joiners at hAlone
        rw [List.takeWhile_cons, if_pos hNear,
          List.take_eq_nil_iff] at hAlone
        rcases hAlone with hNone | hNil
        · omega
        · cases hNil
      intro c hMem
      rcases List.mem_cons.mp hMem with rfl | hRest
      · exact hFar
      · exact hConvex.not_reaches hSorted hFar c hRest

/-
  Where two are enough for a group, nobody who is passed
  over reaches another one.
-/
theorem Convex.pairwise_passedOver
    (hConvex : Convex le reaches)
    (hLeast : least ≤ 2)
    (most skip : Nat)
    {l : List α}
    (hSorted : l.Pairwise le) :
    (passedOver least
      (groups reaches least most skip l)).Pairwise
      (fun a b => reaches a b = false) := by
  induction l generalizing skip with
  | nil => simp [passedOver]
  | cons a rest ih =>
      have hRest := (List.pairwise_cons.mp hSorted).2
      cases skip with
      | succ skip => exact ih skip hRest
      | zero =>
          rw [groups_zero_cons]
          by_cases hLarge :
              least ≤
                (joiners reaches most a rest).length + 1
          · rw [if_pos hLarge,
              passedOver_cons_of_le _
                (by simpa using hLarge)]
            exact ih _ hRest
          · have hAlone :
                joiners reaches most a rest = [] :=
              List.eq_nil_of_length_eq_zero (by omega)
            rw [if_neg hLarge,
              passedOver_cons_of_lt _
                (Nat.not_le.mp hLarge),
              List.pairwise_cons]
            refine ⟨?_, ih 0 hRest⟩
            intro c hMem
            have hIn : c ∈ rest :=
              (passedOver_sublist _ _ _ _ rest).subset hMem
            exact
              hConvex.not_reaches_of_joiners hSorted hAlone
                c hIn

/- What a filter lets through first is in a first part. -/
theorem exists_take_filter
    (p : α → Bool)
    (l : List α)
    (n : Nat) :
    ∃ k, (l.filter p).take n = (l.take k).filter p := by
  induction l generalizing n with
  | nil => exact ⟨0, by simp⟩
  | cons a l ih =>
      by_cases hPasses : p a = true
      · cases n with
        | zero => exact ⟨0, by simp⟩
        | succ n =>
            rcases ih n with ⟨k, hEq⟩
            exact ⟨k + 1, by simp [hPasses, hEq]⟩
      · rcases ih n with ⟨k, hEq⟩
        exact ⟨k + 1, by simp [hPasses, hEq]⟩

end Greedy
