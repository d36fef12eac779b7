import MultiplayerInfra.Py.Dict

/-
  Iterators over the items of a dictionary that may be
  changed between two items.

  Key definitions include:
    * `Py.Dict.Iter`
    * `Py.Dict.Iter.notice`
    * `Py.Dict.Iter.next`
    * `Py.Dict.Iter.At`
    * `Py.Dict.popAll`

  Key theorems include:
    * `Py.Dict.Iter.At.notice`
    * `Py.Dict.Iter.At.of_next_entry`
    * `Py.Dict.Iter.At.of_next_stop`
    * `Py.Dict.get?_popAll`

  The iterator compares the size of the dictionary with the
  one it began with.  Where keys were inserted and removed
  and the size is the same again, what comes next depends on
  the table behind the dictionary, and it is a choice here.
-/

------------------------------------------------------------
-- Iterators
------------------------------------------------------------

namespace Py

namespace Dict

/- `iter(d.items())`, between two items. -/
structure Iter where
  -- the size of the dictionary when the iteration began
  size : Nat
  -- how many items were handed out
  position : Nat
  -- a key was inserted or removed since it began
  changed : Bool
deriving DecidableEq

/- What `next` comes to. -/
inductive Next (ε : Type) where
  -- "dictionary changed size during iteration"
  | raise
  | stop
  | entry (e : ε)
deriving DecidableEq

/- The outcome over other keys of the same number. -/
inductive Choice where
  | raise
  | stop
  | entry (n : Nat)
deriving DecidableEq

namespace Iter

variable {κ ν : Type}

def start (d : Dict κ ν) : Iter where
  size := d.entries.length
  position := 0
  changed := false

/- The dictionary changes from `d` to `d'`. -/
def notice
    [DecidableEq κ]
    (it : Iter)
    (d d' : Dict κ ν) : Iter :=
  { it with
    changed := it.changed || decide (d'.keys ≠ d.keys) }

def advance (it : Iter) : Iter :=
  { it with position := it.position + 1 }

/- The entry of this number, or the end. -/
def entryAt
    (d : Dict κ ν)
    (n : Nat) : Next (κ × ν) :=
  match d.entries[n]? with
  | some e => .entry e
  | none => .stop

def next
    (it : Iter)
    (d : Dict κ ν)
    (choice : Choice) : Next (κ × ν) :=
  if d.entries.length ≠ it.size then .raise
  else if it.changed then
    match choice with
    | .raise => .raise
    | .stop => .stop
    | .entry n => entryAt d n
  else entryAt d it.position

end Iter

end Dict

end Py

------------------------------------------------------------
-- Undisturbed Iterations
------------------------------------------------------------

namespace Py

namespace Dict

variable {κ ν : Type}

/- The entry of a number has the key of that number. -/
theorem getElem?_keys
    (d : Dict κ ν)
    (n : Nat) :
    d.keys[n]? = (d.entries[n]?).map Prod.fst :=
  List.getElem?_map

@[simp] theorem length_keys (d : Dict κ ν) :
    d.keys.length = d.entries.length :=
  List.length_map _

namespace Iter

/- Undisturbed so far, with these keys handed out. -/
structure At
    (it : Iter)
    (d : Dict κ ν)
    (seen : List κ) : Prop where
  unchanged : it.changed = false
  size : it.size = d.entries.length
  seen : seen = d.keys.take it.position

theorem at_start (d : Dict κ ν) : (start d).At d [] where
  unchanged := rfl
  size := rfl
  seen := rfl

variable {it : Iter}
variable {d d' : Dict κ ν}
variable {seen : List κ}

theorem unchanged_of_notice
    [DecidableEq κ]
    (hUnchanged : (it.notice d d').changed = false) :
    it.changed = false ∧ d'.keys = d.keys := by
  simpa [notice] using hUnchanged

/- A change of values alone does not disturb. -/
theorem At.notice
    [DecidableEq κ]
    (hAt : it.At d seen)
    (hUnchanged : (it.notice d d').changed = false) :
    (it.notice d d').At d' seen := by
  rcases unchanged_of_notice hUnchanged with ⟨_, hKeys⟩
  refine ⟨hUnchanged, ?_, ?_⟩
  · rw [← length_keys, hKeys, length_keys]
    exact hAt.size
  · rw [hKeys]
    exact hAt.seen

/- Undisturbed, the choice is not asked for. -/
theorem At.next_eq
    (hAt : it.At d seen)
    (choice : Choice) :
    it.next d choice = entryAt d it.position := by
  simp [next, hAt.size, hAt.unchanged]

theorem At.next_ne_raise
    (hAt : it.At d seen)
    (choice : Choice) :
    it.next d choice ≠ .raise := by
  rw [hAt.next_eq, entryAt]
  split <;> simp

/- The next key is handed out with its value. -/
theorem At.of_next_entry
    {choice : Choice}
    {e : κ × ν}
    (hAt : it.At d seen)
    (hNext : it.next d choice = .entry e) :
    it.advance.At d (seen ++ [e.1]) ∧ e ∈ d.entries := by
  rw [hAt.next_eq, entryAt] at hNext
  split at hNext
  · rename_i e' hEntry
    cases hNext
    have hKey : d.keys[it.position]? = some e.1 := by
      rw [getElem?_keys, hEntry]
      rfl
    refine
      ⟨⟨hAt.unchanged, hAt.size, ?_⟩,
        List.mem_of_getElem? hEntry⟩
    rw [hAt.seen, advance, List.take_add_one, hKey]
    rfl
  · cases hNext

/- At the end every key was handed out. -/
theorem At.of_next_stop
    {choice : Choice}
    (hAt : it.At d seen)
    (hNext : it.next d choice = .stop) :
    seen = d.keys := by
  rw [hAt.next_eq, entryAt] at hNext
  split at hNext
  · cases hNext
  · rename_i hNone
    rw [List.getElem?_eq_none_iff] at hNone
    rw [hAt.seen]
    apply List.take_of_length_le
    rw [length_keys]
    exact hNone

/- No more keys are handed out than there were. -/
theorem At.length_le
    (hAt : it.At d seen) :
    seen.length ≤ it.size := by
  rw [hAt.seen, hAt.size, ← length_keys]
  exact List.length_take_le' _ _

end Iter

end Dict

end Py

------------------------------------------------------------
-- Lone Entries
------------------------------------------------------------

namespace Py

variable {κ ν : Type} [DecidableEq κ]

/- Every entry of a list without repeated keys is alone. -/
theorem filter_key_eq_singleton
    {es : List (κ × ν)}
    (hNodup : (es.map Prod.fst).Nodup)
    {e : κ × ν}
    (hEntry : e ∈ es) :
    es.filter (fun e' => e'.1 = e.1) = [e] := by
  induction es with
  | nil => cases hEntry
  | cons e' es ih =>
      rw [List.map_cons, List.nodup_cons] at hNodup
      rcases hNodup with ⟨hFresh, hRest⟩
      rcases List.mem_cons.mp hEntry with rfl | hTail
      · have hNone : es.filter (fun e' => e'.1 = e.1) = [] := by
          rw [List.filter_eq_nil_iff]
          intro e' hMem hKey
          apply hFresh
          rw [← of_decide_eq_true hKey]
          exact List.mem_map_of_mem hMem
        rw [List.filter_cons_of_pos (by simp), hNone]
      · have hNe : e'.1 ≠ e.1 := by
          intro hEq
          apply hFresh
          rw [hEq]
          exact List.mem_map_of_mem hTail
        rw [List.filter_cons_of_neg (by simpa using hNe)]
        exact ih hRest hTail

end Py

------------------------------------------------------------
-- Removals
------------------------------------------------------------

namespace Py

namespace Dict

variable {κ ν : Type} [DecidableEq κ]

/- `for k in ks: d.pop(k, None)`. -/
def popAll
    (d : Dict κ ν)
    (ks : List κ) : Dict κ ν :=
  ks.foldl pop d

theorem entries_popAll_subset
    (d : Dict κ ν)
    (ks : List κ) :
    (d.popAll ks).entries ⊆ d.entries := by
  induction ks generalizing d with
  | nil => exact List.Subset.refl _
  | cons k ks ih =>
      have hTail : (d.popAll (k :: ks)).entries ⊆
          (d.pop k).entries :=
        ih (d.pop k)
      intro e hEntry
      exact List.mem_of_mem_filter (hTail hEntry)

/- Only the given keys are removed. -/
theorem get?_popAll
    (d : Dict κ ν)
    {ks : List κ}
    {k : κ}
    (hOther : k ∉ ks) :
    (d.popAll ks).get? k = d.get? k := by
  induction ks generalizing d with
  | nil => rfl
  | cons k' ks ih =>
      rw [List.mem_cons, not_or] at hOther
      have hTail : (d.popAll (k' :: ks)).get? k =
          (d.pop k').get? k :=
        ih (d.pop k') hOther.2
      rw [hTail, get?_pop, if_neg hOther.1]

/- What is left of a dictionary has its values. -/
theorem get?_of_entries_subset
    {d d' : Dict κ ν}
    {k : κ}
    (hSubset : d'.entries ⊆ d.entries)
    (hKey : k ∈ d'.keys) :
    d'.get? k = d.get? k := by
  rcases mem_keys_iff.mp hKey with ⟨v, hValue⟩
  rw [hValue]
  exact
    (d.get?_of_mem (hSubset (mem_of_get? hValue))).symm

end Dict

end Py
