import Mathlib.Data.List.Nodup

/-
  Python dictionaries: finite maps that remember the order
  in which their keys were first inserted.

  Key definitions include:
    * `Py.Dict`
    * `Py.Dict.get?`
    * `Py.Dict.set`
    * `Py.Dict.pop`
    * `Py.Dict.mapVals`
    * `Py.Dict.upsert`
    * `Py.Dict.Same`

  Key theorems include:
    * `Py.Dict.get?_set`
    * `Py.Dict.get?_mapVals`
    * `Py.Dict.get?_upsert`

  Assigning to a present key keeps its position; assigning
  to an absent key appends it.  Python's `==` on
  dictionaries ignores the order, which is `Same`.
-/

------------------------------------------------------------
-- Entry Lists
------------------------------------------------------------

namespace Py

variable {κ ν μ : Type} [DecidableEq κ]

/- Assign to a key of an entry list. -/
def assign
    (k : κ)
    (v : ν) :
    List (κ × ν) → List (κ × ν)
| [] => [(k, v)]
| (k', v') :: es =>
    if k' = k then (k, v) :: es
    else (k', v') :: assign k v es

/- The keys after an assignment. -/
theorem mem_keys_assign
    (k k' : κ)
    (v : ν)
    (es : List (κ × ν)) :
    k' ∈ (assign k v es).map Prod.fst ↔
      k' = k ∨ k' ∈ es.map Prod.fst := by
  induction es with
  | nil => simp [assign]
  | cons e es ih =>
      rcases e with ⟨k₀, v₀⟩
      by_cases hKey : k₀ = k
      · subst hKey
        simp [assign]
      · simp only [assign, hKey, if_false,
          List.map_cons, List.mem_cons, ih]
        tauto

/- Assignment never repeats a key. -/
theorem nodup_assign
    (k : κ)
    (v : ν)
    {es : List (κ × ν)}
    (hNodup : (es.map Prod.fst).Nodup) :
    ((assign k v es).map Prod.fst).Nodup := by
  induction es with
  | nil => simp [assign]
  | cons e es ih =>
      rcases e with ⟨k₀, v₀⟩
      rw [List.map_cons, List.nodup_cons] at hNodup
      rcases hNodup with ⟨hFresh, hRest⟩
      by_cases hKey : k₀ = k
      · subst hKey
        simpa [assign] using And.intro hFresh hRest
      · simp only [assign, hKey, if_false, List.map_cons,
          List.nodup_cons]
        refine ⟨?_, ih hRest⟩
        rw [mem_keys_assign]
        rintro (hEq | hMem)
        · exact hKey hEq
        · exact hFresh hMem

/- Lookup in a nonempty entry list, by equality of keys. -/
theorem lookup_cons_eq_ite
    (k k' : κ)
    (v : ν)
    (es : List (κ × ν)) :
    ((k, v) :: es).lookup k' =
      if k' = k then some v else es.lookup k' := by
  by_cases hEq : k' = k
  · subst hEq
    simp
  · have hBeq : (k' == k) = false := by
      simpa using hEq
    simp [List.lookup_cons, hBeq, hEq]

/- Lookup of a key that no entry has. -/
theorem lookup_eq_none_of_fresh
    {k : κ}
    {es : List (κ × ν)}
    (hFresh : k ∉ es.map Prod.fst) :
    es.lookup k = none := by
  rw [List.lookup_eq_none_iff]
  intro e hEntry
  have hNe : k ≠ e.1 := by
    intro hEq
    apply hFresh
    rw [hEq]
    exact List.mem_map_of_mem hEntry
  simpa using hNe

/- Lookup after an assignment. -/
theorem lookup_assign
    (k k' : κ)
    (v : ν)
    (es : List (κ × ν)) :
    (assign k v es).lookup k' =
      if k' = k then some v else es.lookup k' := by
  induction es with
  | nil => exact lookup_cons_eq_ite k k' v []
  | cons e es ih =>
      rcases e with ⟨k₀, v₀⟩
      by_cases hKey : k₀ = k
      · subst hKey
        simp only [assign, if_true, lookup_cons_eq_ite]
        by_cases hEq : k' = k₀ <;> simp [hEq]
      · simp only [assign, hKey, if_false,
          lookup_cons_eq_ite, ih]
        by_cases hEq : k' = k₀
        · subst hEq
          simp [hKey]
        · simp [hEq]

end Py

------------------------------------------------------------
-- Dictionaries
------------------------------------------------------------

namespace Py

/- An insertion-ordered dictionary: no key occurs twice. -/
structure Dict (κ ν : Type) where
  entries : List (κ × ν)
  nodup : (entries.map Prod.fst).Nodup
deriving DecidableEq

namespace Dict

variable {κ ν μ : Type}

/- The empty dictionary `{}`. -/
def empty : Dict κ ν :=
  ⟨[], List.nodup_nil⟩

instance : Inhabited (Dict κ ν) :=
  ⟨empty⟩

/- `d.keys()`, in insertion order. -/
def keys (d : Dict κ ν) : List κ :=
  d.entries.map Prod.fst

/- `{k: f(k, v) for k, v in d.items()}`. -/
def mapVals
    (f : κ → ν → μ)
    (d : Dict κ ν) :
    Dict κ μ :=
  ⟨d.entries.map (fun e => (e.1, f e.1 e.2)), by
    simpa [List.map_map, Function.comp_def] using d.nodup⟩

variable [DecidableEq κ]

/- `d.get(k)`. -/
def get? (d : Dict κ ν) (k : κ) : Option ν :=
  d.entries.lookup k

/- `d[k] = v`. -/
def set (d : Dict κ ν) (k : κ) (v : ν) : Dict κ ν :=
  ⟨assign k v d.entries, nodup_assign k v d.nodup⟩

/- `d.pop(k, None)`. -/
def pop (d : Dict κ ν) (k : κ) : Dict κ ν :=
  ⟨d.entries.filter (fun e => e.1 ≠ k),
    d.nodup.sublist (List.filter_sublist.map Prod.fst)⟩

/-
  `for k, e in es.items(): d[k] = f(k, d.get(k), e)`.
-/
def upsert
    (f : κ → Option ν → μ → ν)
    (d : Dict κ ν)
    (es : Dict κ μ) :
    Dict κ ν :=
  es.entries.foldl
    (fun acc e => acc.set e.1 (f e.1 (acc.get? e.1) e.2)) d

/-
  `for k, e in es.items(): d[k] = f(k, e)`, where `f` may
  raise.
-/
def insertAll?
    (f : κ → μ → Option ν)
    (d : Dict κ ν)
    (es : Dict κ μ) :
    Option (Dict κ ν) :=
  es.entries.foldlM
    (fun acc e => (f e.1 e.2).map (acc.set e.1)) d

/- Python equality of dictionaries. -/
def Same (d d' : Dict κ ν) : Prop :=
  ∀ k, d.get? k = d'.get? k

end Dict

end Py

------------------------------------------------------------
-- Lookup Laws
------------------------------------------------------------

namespace Py

namespace Dict

variable {κ ν μ : Type} [DecidableEq κ]

@[simp] theorem get?_empty
    (k : κ) :
    (empty : Dict κ ν).get? k = none := by
  rfl

omit [DecidableEq κ] in
@[simp] theorem keys_empty :
    (empty : Dict κ ν).keys = [] := by
  rfl

omit [DecidableEq κ] in
@[simp] theorem keys_mapVals
    (f : κ → ν → μ)
    (d : Dict κ ν) :
    (d.mapVals f).keys = d.keys := by
  simp [keys, mapVals, List.map_map, Function.comp_def]

theorem get?_set
    (d : Dict κ ν)
    (k k' : κ)
    (v : ν) :
    (d.set k v).get? k' =
      if k' = k then some v else d.get? k' :=
  lookup_assign k k' v d.entries

@[simp] theorem get?_set_self
    (d : Dict κ ν)
    (k : κ)
    (v : ν) :
    (d.set k v).get? k = some v := by
  simp [get?_set]

theorem mem_keys_set
    (d : Dict κ ν)
    (k k' : κ)
    (v : ν) :
    k' ∈ (d.set k v).keys ↔ k' = k ∨ k' ∈ d.keys :=
  mem_keys_assign k k' v d.entries

theorem get?_pop
    (d : Dict κ ν)
    (k k' : κ) :
    (d.pop k).get? k' =
      if k' = k then none else d.get? k' := by
  rcases d with ⟨es, hNodup⟩
  simp only [get?, pop]
  clear hNodup
  induction es with
  | nil => simp
  | cons e es ih =>
      rcases e with ⟨k₀, v₀⟩
      by_cases hDrop : k₀ = k
      · subst hDrop
        rw [List.filter_cons_of_neg (by simp), ih,
          lookup_cons_eq_ite]
        split <;> rfl
      · rw [List.filter_cons_of_pos (by simpa using hDrop),
          lookup_cons_eq_ite, lookup_cons_eq_ite, ih]
        by_cases hSame : k' = k₀
        · subst hSame
          rw [if_pos rfl, if_neg hDrop, if_pos rfl]
        · rw [if_neg hSame, if_neg hSame]

/- A key is absent exactly when its lookup fails. -/
theorem get?_eq_none_iff
    {d : Dict κ ν}
    {k : κ} :
    d.get? k = none ↔ k ∉ d.keys := by
  constructor
  · intro hNone hMem
    rcases List.mem_map.mp hMem with ⟨e, hEntry, rfl⟩
    simpa using
      List.lookup_eq_none_iff.mp hNone e hEntry
  · intro hFresh
    exact lookup_eq_none_of_fresh hFresh

/- A key is present exactly when its lookup succeeds. -/
theorem mem_keys_iff
    {d : Dict κ ν}
    {k : κ} :
    k ∈ d.keys ↔ ∃ v, d.get? k = some v := by
  rw [← Option.ne_none_iff_exists', ne_eq,
    get?_eq_none_iff, not_not]

/- Every entry is found under its key. -/
theorem get?_of_mem
    (d : Dict κ ν)
    {e : κ × ν}
    (hEntry : e ∈ d.entries) :
    d.get? e.1 = some e.2 := by
  rcases d with ⟨es, hNodup⟩
  simp only [get?]
  simp only at hEntry
  induction es with
  | nil => cases hEntry
  | cons e' es ih =>
      rcases e' with ⟨k₀, v₀⟩
      rw [List.map_cons, List.nodup_cons] at hNodup
      rcases hNodup with ⟨hFresh, hRest⟩
      rw [lookup_cons_eq_ite]
      rcases List.mem_cons.mp hEntry with hHead | hTail
      · subst hHead
        simp
      · have hKey : e.1 ∈ es.map Prod.fst :=
          List.mem_map_of_mem hTail
        have hNe : e.1 ≠ k₀ := by
          intro hEq
          rw [hEq] at hKey
          exact hFresh hKey
        rw [if_neg hNe]
        exact ih hRest hTail

/- Only the keys of the two dictionaries need comparing. -/
theorem same_iff
    {d d' : Dict κ ν} :
    d.Same d' ↔
      ∀ k ∈ d.keys ++ d'.keys, d.get? k = d'.get? k := by
  constructor
  · intro hSame k _
    exact hSame k
  · intro hKeys k
    by_cases hMem : k ∈ d.keys ++ d'.keys
    · exact hKeys k hMem
    · rw [List.mem_append, not_or] at hMem
      rw [get?_eq_none_iff.mpr hMem.1,
        get?_eq_none_iff.mpr hMem.2]

instance
    [DecidableEq ν]
    (d d' : Dict κ ν) :
    Decidable (d.Same d') :=
  decidable_of_iff _ same_iff.symm

/- What is found is an entry. -/
theorem mem_of_get?
    {d : Dict κ ν}
    {k : κ}
    {v : ν}
    (hGet : d.get? k = some v) :
    (k, v) ∈ d.entries := by
  rcases List.lookup_eq_some_iff.mp hGet with
    ⟨before, after, hEntries, _⟩
  rw [hEntries]
  exact List.mem_append_right _ List.mem_cons_self

/- Lookups do not depend on the order of the entries. -/
theorem get?_of_perm
    {d d' : Dict κ ν}
    (hPerm : d.entries.Perm d'.entries)
    (k : κ) :
    d.get? k = d'.get? k := by
  cases hGet : d'.get? k with
  | some v =>
      exact d.get?_of_mem
        (hPerm.mem_iff.mpr (mem_of_get? hGet))
  | none =>
      rw [get?_eq_none_iff] at hGet ⊢
      intro hMem
      exact hGet ((hPerm.map Prod.fst).mem_iff.mp hMem)

/- Mapping the values maps every lookup. -/
theorem get?_mapVals
    (f : κ → ν → μ)
    (d : Dict κ ν)
    (k : κ) :
    (d.mapVals f).get? k = (d.get? k).map (f k) := by
  rcases d with ⟨es, hNodup⟩
  simp only [get?, mapVals]
  clear hNodup
  induction es with
  | nil => rfl
  | cons e es ih =>
      rcases e with ⟨k₀, v₀⟩
      simp only [List.map_cons, lookup_cons_eq_ite, ih]
      by_cases hEq : k = k₀ <;> simp [hEq]

/- Bulk update over an entry list without repeated keys. -/
theorem get?_foldl_set
    (f : κ → Option ν → μ → ν)
    (d : Dict κ ν)
    {es : List (κ × μ)}
    (hNodup : (es.map Prod.fst).Nodup)
    (k : κ) :
    (es.foldl
        (fun acc e =>
          acc.set e.1 (f e.1 (acc.get? e.1) e.2))
        d).get? k =
      match es.lookup k with
      | none => d.get? k
      | some e => some (f k (d.get? k) e) := by
  induction es generalizing d with
  | nil => rfl
  | cons e es ih =>
      rcases e with ⟨k₀, e₀⟩
      rw [List.map_cons, List.nodup_cons] at hNodup
      rcases hNodup with ⟨hFresh, hRest⟩
      rw [List.foldl_cons, ih _ hRest, lookup_cons_eq_ite]
      by_cases hEq : k = k₀
      · subst hEq
        simp [lookup_eq_none_of_fresh hFresh]
      · simp only [hEq, if_false, get?_set]

/-
  A bulk update changes exactly the keys of the second
  dictionary, each by `f` on its old value.
-/
theorem get?_upsert
    (f : κ → Option ν → μ → ν)
    (d : Dict κ ν)
    (es : Dict κ μ)
    (k : κ) :
    (d.upsert f es).get? k =
      match es.get? k with
      | none => d.get? k
      | some e => some (f k (d.get? k) e) :=
  get?_foldl_set f d es.nodup k

/- The keys after a bulk update. -/
theorem mem_keys_upsert
    (f : κ → Option ν → μ → ν)
    (d : Dict κ ν)
    (es : Dict κ μ)
    (k : κ) :
    k ∈ (d.upsert f es).keys ↔
      k ∈ d.keys ∨ k ∈ es.keys := by
  rw [mem_keys_iff, get?_upsert, mem_keys_iff,
    mem_keys_iff]
  cases es.get? k with
  | none => simp
  | some e => simp

/- Insertion over an entry list without repeated keys. -/
theorem get?_foldlM_set
    (f : κ → μ → Option ν)
    {d d' : Dict κ ν}
    {es : List (κ × μ)}
    (hNodup : (es.map Prod.fst).Nodup)
    (hRun :
      es.foldlM
        (fun acc e => (f e.1 e.2).map (acc.set e.1)) d =
          some d')
    (k : κ) :
    d'.get? k =
      match es.lookup k with
      | none => d.get? k
      | some e => f k e := by
  induction es generalizing d with
  | nil =>
      cases hRun
      rfl
  | cons e es ih =>
      rcases e with ⟨k₀, e₀⟩
      rw [List.map_cons, List.nodup_cons] at hNodup
      rcases hNodup with ⟨hFresh, hRest⟩
      rw [List.foldlM_cons] at hRun
      rcases Option.bind_eq_some_iff.mp hRun with
        ⟨d₁, hHead, hTail⟩
      rcases Option.map_eq_some_iff.mp hHead with
        ⟨v, hValue, rfl⟩
      rw [ih hRest hTail, lookup_cons_eq_ite]
      by_cases hEq : k = k₀
      · subst hEq
        simp [lookup_eq_none_of_fresh hFresh, hValue]
      · simp only [hEq, if_false, get?_set]

/-
  A completed insertion holds, at each inserted key, the
  value that `f` gave.
-/
theorem get?_insertAll?
    (f : κ → μ → Option ν)
    {d d' : Dict κ ν}
    {es : Dict κ μ}
    (hRun : d.insertAll? f es = some d')
    (k : κ) :
    d'.get? k =
      match es.get? k with
      | none => d.get? k
      | some e => f k e :=
  get?_foldlM_set f es.nodup hRun k

/- Insertion completes when `f` never raises. -/
theorem insertAll?_isSome
    (f : κ → μ → Option ν)
    (d : Dict κ ν)
    (es : Dict κ μ)
    (hTotal : ∀ e ∈ es.entries, (f e.1 e.2).isSome) :
    (d.insertAll? f es).isSome := by
  unfold insertAll?
  generalize es.entries = items at hTotal
  induction items generalizing d with
  | nil => rfl
  | cons e items ih =>
      rcases Option.isSome_iff_exists.mp
          (hTotal e (by simp)) with
        ⟨v, hValue⟩
      rw [List.foldlM_cons, hValue]
      exact ih (d.set e.1 v)
        (fun e' hEntry => hTotal e' (by simp [hEntry]))

end Dict

end Py
