import Mathlib.Logic.Function.Basic

/-
  Items that owners take and give up: the item that an owner
  took last, among those that it still has.

  Key definitions include:
    * `Latest.latest`

  Key theorems include:
    * `Latest.latest_take`
    * `Latest.latest_giveUp`

  An owner that gives up its only item has none.  With more
  items than one the item before it would be the latest.
-/

------------------------------------------------------------
-- Latest Items
------------------------------------------------------------

namespace Latest

variable {ι κ : Type} [DecidableEq κ]

/- `taken` lists the items in the order they were taken. -/
def latest
    (owner : ι → Option κ)
    (taken : List ι)
    (k : κ) : Option ι :=
  (taken.filter (fun i => owner i = some k)).getLast?

variable {owner owner' : ι → Option κ}
variable {taken : List ι}
variable {i : ι}
variable {k : κ}

/- Only the items of the owner matter. -/
theorem latest_congr
    (hSame : ∀ i, owner' i = some k ↔ owner i = some k) :
    latest owner' taken k = latest owner taken k := by
  unfold latest
  congr 1
  apply List.filter_congr
  intro i _
  simp only [hSame i]

theorem latest_eq_none
    (hNone : ∀ i, owner i ≠ some k) :
    latest owner taken k = none := by
  have hEmpty :
      taken.filter (fun i => owner i = some k) = [] := by
    apply List.filter_eq_nil_iff.mpr
    intro i _
    simpa using hNone i
  rw [latest, hEmpty]
  rfl

variable [DecidableEq ι]

/- An item without an owner is taken. -/
theorem latest_take
    (hFree : owner i = none)
    (k' : κ) :
    latest (Function.update owner i (some k))
        (taken ++ [i]) k' =
      if k' = k then some i else latest owner taken k' := by
  by_cases hSame : k' = k
  · subst hSame
    rw [if_pos rfl, latest, List.filter_append,
      List.filter_cons_of_pos (by simp), List.filter_nil,
      List.getLast?_concat]
  · rw [if_neg hSame, latest, List.filter_append,
      List.filter_cons_of_neg (by simpa using Ne.symm hSame),
      List.filter_nil, List.append_nil]
    apply latest_congr
    intro j
    by_cases hItem : j = i
    · subst hItem
      rw [Function.update_self, hFree]
      simpa using Ne.symm hSame
    · rw [Function.update_of_ne hItem]

/- An owner gives up its only item. -/
theorem latest_giveUp
    (hOwns : owner i = some k)
    (hOnly : ∀ j, j ≠ i → owner j ≠ some k)
    (k' : κ) :
    latest (Function.update owner i none) taken k' =
      if k' = k then none else latest owner taken k' := by
  by_cases hSame : k' = k
  · subst hSame
    rw [if_pos rfl]
    apply latest_eq_none
    intro j
    by_cases hItem : j = i
    · rw [hItem, Function.update_self]
      exact nofun
    · rw [Function.update_of_ne hItem]
      exact hOnly j hItem
  · rw [if_neg hSame]
    apply latest_congr
    intro j
    by_cases hItem : j = i
    · subst hItem
      rw [Function.update_self, hOwns]
      simpa using Ne.symm hSame
    · rw [Function.update_of_ne hItem]

end Latest
