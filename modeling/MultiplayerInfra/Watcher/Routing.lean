import MultiplayerInfra.Watcher.Config

/-
  When the generated configuration routes every match to its
  own leader.

  Key definitions include:
    * `Watcher.Routed`
    * `Watcher.EndsWith`
    * `Watcher.Unambiguous`

  Key theorems include:
    * `Watcher.serverFor_eq`
    * `Watcher.routed_iff`

  The patterns of the map are anchored only at the end, and
  names are made of sanitized ids.
-/

------------------------------------------------------------
-- Definitions
------------------------------------------------------------

namespace Watcher

open Py

/-
  The upstream blocks have names of their own, and every
  match is routed to its address.
-/
structure Routed
    (conf : Nginx.Conf)
    (upstreams : Upstreams) : Prop where
  distinct : (conf.upstreams.map Nginx.Upstream.name).Nodup
  -- the upstream that `nginx.conf` declares
  notDefault :
    "game_room_default" ∉
      conf.upstreams.map Nginx.Upstream.name
  routed :
    ∀ m address, upstreams.get? m = some address →
      conf.serverFor m = some address

/- `m` ends with `m'`, or with `m'` and a final newline. -/
def EndsWith (m m' : String) : Prop :=
  m'.toList <:+ m.toList ∨
    m'.toList ++ ['\n'] <:+ m.toList

instance (m m' : String) : Decidable (EndsWith m m') :=
  inferInstanceAs (Decidable
    (m'.toList <:+ m.toList ∨
      m'.toList ++ ['\n'] <:+ m.toList))

/-
  No two ids share a name, none is `default`, and the first
  id in sorted order with which an id ends has its address.
-/
structure Unambiguous
    (upstreams : Upstreams) : Prop where
  names :
    ∀ m ∈ upstreams.keys, ∀ m' ∈ upstreams.keys,
      SameName m m' → m = m'
  notDefault : "default" ∉ upstreams.keys
  first :
    ∀ m ∈ upstreams.keys, ∀ m',
      (sortedIds upstreams).find?
          (fun i => decide (EndsWith m i)) =
        some m' →
      upstreams.get? m' = upstreams.get? m

end Watcher

------------------------------------------------------------
-- Evaluation of the Map
------------------------------------------------------------

namespace Watcher

open Py

variable {defaultUpstream : String}
variable {upstreams : Upstreams}

theorem map_fst_sortedItems :
    (sortedItems upstreams).map Prod.fst =
      sortedIds upstreams :=
  List.map_insertionSort _ _ _ _ (fun _ _ _ _ => Iff.rfl)

theorem mem_sortedItems
    {e : String × String} :
    e ∈ sortedItems upstreams ↔
      upstreams.get? e.1 = some e.2 := by
  rw [sortedItems, List.mem_insertionSort]
  constructor
  · intro hMem
    exact Dict.get?_of_mem upstreams hMem
  · intro hGet
    exact Dict.mem_of_get? hGet

theorem names_upstreamConf :
    (upstreamConf defaultUpstream upstreams).upstreams.map
        Nginx.Upstream.name =
      (sortedIds upstreams).map safeName := by
  rw [← map_fst_sortedItems]
  simp [upstreamConf, Function.comp_def]

/- Every pattern is read as an id, anchored at its end. -/
theorem compiled_upstreamConf :
    (upstreamConf defaultUpstream upstreams).map.compiled =
      some ((sortedIds upstreams).map (fun m =>
        (Nginx.Regex.suffix m.toList, safeName m))) := by
  rw [← map_fst_sortedItems]
  unfold Nginx.MapBlock.compiled upstreamConf
  generalize sortedItems upstreams = items
  induction items with
  | nil => rfl
  | cons e items ih =>
      simp only [List.map_cons, List.mapM_cons,
        parse_escape] at ih ⊢
      rw [ih]
      rfl

/- The first id in sorted order that captures `m`. -/
theorem exists_captor
    {m : String}
    (hMem : m ∈ upstreams.keys) :
    ∃ m', (sortedIds upstreams).find?
        (fun i => decide (EndsWith m i)) = some m' := by
  cases hFind :
      (sortedIds upstreams).find?
        (fun i => decide (EndsWith m i)) with
  | some m' => exact ⟨m', rfl⟩
  | none =>
      have hSorted : m ∈ sortedIds upstreams :=
        (List.mem_insertionSort _).mpr hMem
      have hNone := List.find?_eq_none.mp hFind m hSorted
      exact absurd
        (decide_eq_true (Or.inl (List.suffix_refl m.toList)))
        hNone

theorem eval_upstreamConf
    {m m' : String}
    (hFirst :
      (sortedIds upstreams).find?
          (fun i => decide (EndsWith m i)) =
        some m') :
    (upstreamConf defaultUpstream upstreams).map.eval m =
      some (safeName m') := by
  refine
    Nginx.MapBlock.eval_eq_some compiled_upstreamConf
      (e := (Nginx.Regex.suffix m'.toList, safeName m')) ?_
  rw [List.find?_map]
  have hSame :
      ((fun e : Nginx.Regex × String =>
            e.1.search m.toList) ∘
          fun i : String =>
            (Nginx.Regex.suffix i.toList, safeName i)) =
        fun i => decide (EndsWith m i) := by
    funext i
    rw [Bool.eq_iff_iff, decide_eq_true_iff]
    exact Nginx.Regex.search_suffix i.toList m.toList
  rw [hSame, hFirst]
  rfl

/- The server selected for `m` is that of its captor. -/
theorem serverFor_eq
    {m m' : String}
    (hDistinct : ((sortedIds upstreams).map safeName).Nodup)
    (hFirst :
      (sortedIds upstreams).find?
          (fun i => decide (EndsWith m i)) =
        some m') :
    (upstreamConf defaultUpstream upstreams).serverFor m =
      upstreams.get? m' := by
  have hKey : m' ∈ upstreams.keys :=
    (List.mem_insertionSort _).mp
      (List.mem_of_find?_eq_some hFirst)
  rcases Dict.mem_keys_iff.mp hKey with ⟨address, hGet⟩
  rw [Nginx.Conf.serverFor, eval_upstreamConf hFirst,
    Option.bind_some, hGet]
  refine
    Nginx.Conf.serverOf_eq_some
      (u := { name := safeName m', server := address }) ?_ ?_
  · rw [names_upstreamConf]
    exact hDistinct
  · exact List.mem_map.mpr
      ⟨(m', address), mem_sortedItems.mpr hGet, rfl⟩

end Watcher

------------------------------------------------------------
-- Routing
------------------------------------------------------------

namespace Watcher

open Py

theorem nodup_names_iff
    (upstreams : Upstreams) :
    ((sortedIds upstreams).map safeName).Nodup ↔
      ∀ m ∈ upstreams.keys, ∀ m' ∈ upstreams.keys,
        SameName m m' → m = m' := by
  have hKeys : (sortedIds upstreams).Nodup :=
    (List.perm_insertionSort _ _).nodup_iff.mpr
      upstreams.nodup
  rw [List.nodup_map_iff_inj_on hKeys]
  simp only [sortedIds, List.mem_insertionSort,
    safeName_eq_iff]

/- A name of letters and digits comes from one id only. -/
theorem eq_of_sameInName
    {cs ds : List Char}
    (hSame : List.Forall₂ SameInName cs ds)
    (hPlain : ∀ d ∈ ds, d.isAlphanum = true) :
    cs = ds := by
  induction hSame with
  | nil => rfl
  | cons hHead _ ih =>
      rw [ih (fun d hMem =>
        hPlain d (List.mem_cons_of_mem _ hMem))]
      rcases hHead with rfl | ⟨_, hNot⟩
      · rfl
      · have hYes := hPlain _ List.mem_cons_self
        rw [hNot] at hYes
        cases hYes

theorem isAlphanum_default :
    ∀ d ∈ "default".toList, d.isAlphanum = true := by
  intro d hMem
  have hAll :
      "default".toList.all (fun c => c.isAlphanum) = true :=
    rfl
  exact List.all_eq_true.mp hAll d hMem

theorem safeName_eq_default_iff
    (m : String) :
    safeName m = "game_room_default" ↔ m = "default" := by
  have hDefault :
      "game_room_default" = safeName "default" := by
    decide
  rw [hDefault, safeName_eq_iff]
  constructor
  · intro hSame
    rw [← String.toList_inj]
    exact eq_of_sameInName hSame isAlphanum_default
  · rintro rfl
    exact List.forall₂_same.mpr (fun _ _ => .inl rfl)

/-
  Every match is routed to its own leader exactly when the
  ids of the matches are unambiguous.
-/
theorem routed_iff
    (defaultUpstream : String)
    (upstreams : Upstreams) :
    Routed (upstreamConf defaultUpstream upstreams)
        upstreams ↔
      Unambiguous upstreams := by
  constructor
  · intro hRouted
    have hDistinct := hRouted.distinct
    have hDefault := hRouted.notDefault
    rw [names_upstreamConf] at hDistinct hDefault
    refine ⟨(nodup_names_iff upstreams).mp hDistinct, ?_, ?_⟩
    · intro hMem
      apply hDefault
      exact List.mem_map.mpr
        ⟨"default", (List.mem_insertionSort _).mpr hMem,
          (safeName_eq_default_iff _).mpr rfl⟩
    · intro m hMem m' hFirst
      rcases Dict.mem_keys_iff.mp hMem with ⟨address, hGet⟩
      rw [← serverFor_eq hDistinct hFirst,
        hRouted.routed m address hGet, hGet]
  · intro hClear
    have hDistinct :=
      (nodup_names_iff upstreams).mpr hClear.names
    refine ⟨?_, ?_, ?_⟩
    · rw [names_upstreamConf]
      exact hDistinct
    · rw [names_upstreamConf]
      intro hMem
      rcases List.mem_map.mp hMem with ⟨m, hSorted, hName⟩
      rw [(safeName_eq_default_iff m).mp hName] at hSorted
      exact hClear.notDefault
        ((List.mem_insertionSort _).mp hSorted)
    · intro m address hGet
      have hMem : m ∈ upstreams.keys :=
        Dict.mem_keys_iff.mpr ⟨address, hGet⟩
      rcases exists_captor hMem with ⟨m', hFirst⟩
      rw [serverFor_eq hDistinct hFirst,
        hClear.first m hMem m' hFirst, hGet]

/- The pattern of one id also matches a longer one. -/
theorem routed_to_another :
    ¬ Routed
        (upstreamConf "game_room_default"
          ((Dict.empty.set "arena" "room-1:8000").set
            "big-arena" "room-2:8000"))
        ((Dict.empty.set "arena" "room-1:8000").set
          "big-arena" "room-2:8000") := by
  intro hRouted
  have hOwn := hRouted.routed "big-arena" "room-2:8000" rfl
  exact absurd hOwn (by decide)

end Watcher
