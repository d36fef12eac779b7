import Mathlib.Data.List.Sort
import Mathlib.Data.List.Nodup
import Mathlib.Data.List.Infix
import Mathlib.Data.Rat.Defs

/-
  The matcher: pending requests, their expiry and the
  grouping of requests with close ratings into lobbies.

  Key definitions include:
    * `Matchmaking.Settings`
    * `Matchmaking.MatchRequest`
    * `Matchmaking.expireRequests`
    * `Matchmaking.extendLobby`
    * `Matchmaking.formLobbies`
    * `Matchmaking.matchTick`
    * `Matchmaking.Forms`

  Key theorems include:
    * `Matchmaking.expireRequests_perm`
    * `Matchmaking.extendLobby_spec`
    * `Matchmaking.formLobbies_spec`
    * `Matchmaking.matchTick_perm`

  Clock readings are exact; `timestamp` is a rational number
  of seconds.
-/

------------------------------------------------------------
-- Requests
------------------------------------------------------------

namespace Matchmaking

/- The settings of `config.py` that the matcher reads. -/
structure Settings where
  matchTimeoutSeconds : Int := 30
  lobbySizeMin : Nat := 2
  lobbySizeMax : Nat := 8
  eloRangeInitial : Int := 200
  eloRangeExpandPerTick : Int := 50
deriving DecidableEq

structure MatchRequest where
  -- `id(request)`, which `==` does not compare
  objectId : Nat
  playerId : String
  elo : Int
  timestamp : Rat
deriving DecidableEq

/- `==` of the dataclass. -/
def MatchRequest.SameFields
    (r r' : MatchRequest) : Prop :=
  r.playerId = r'.playerId ∧ r.elo = r'.elo ∧
    r.timestamp = r'.timestamp

instance
    (r r' : MatchRequest) :
    Decidable (r.SameFields r') :=
  inferInstanceAs (Decidable
    (r.playerId = r'.playerId ∧ r.elo = r'.elo ∧
      r.timestamp = r'.timestamp))

/-
  `expire_requests`: the expired requests, and the others in
  their order.
-/
def expireRequests
    (maxAgeSeconds now : Rat)
    (pending : List MatchRequest) :
    List MatchRequest × List MatchRequest :=
  let expired :=
    pending.filter (fun r => maxAgeSeconds < now - r.timestamp)
  let expiredIds := expired.map MatchRequest.objectId
  (expired,
    pending.filter (fun r => r.objectId ∉ expiredIds))

end Matchmaking

------------------------------------------------------------
-- Lobbies
------------------------------------------------------------

namespace Matchmaking

/- `range_allowed`, which grows with the age of the request. -/
def rangeAllowed
    (settings : Settings)
    (now : Rat)
    (req : MatchRequest) : Int :=
  let age := now - req.timestamp
  let timeWindows :=
    (age / (settings.matchTimeoutSeconds : Rat)).floor
  settings.eloRangeInitial +
    timeWindows * settings.eloRangeExpandPerTick

/-
  The inner loop: the later requests that join the lobby of
  `req`, and the indices used so far.
-/
def extendLobby
    (settings : Settings)
    (now : Rat)
    (req : MatchRequest) :
    List (Nat × MatchRequest) → List MatchRequest →
      List Nat → List MatchRequest × List Nat
| [], lobby, used => (lobby, used)
| (j, other) :: rest, lobby, used =>
    if j ∈ used then
      extendLobby settings now req rest lobby used
    else if ((req.elo - other.elo).natAbs : Int) ≤
        rangeAllowed settings now req then
      if settings.lobbySizeMax ≤ lobby.length + 1 then
        (lobby ++ [other], j :: used)
      else
        extendLobby settings now req rest (lobby ++ [other])
          (j :: used)
    else extendLobby settings now req rest lobby used

/- `pending.index(request)`: the first equal request. -/
def indexOf
    (pending : List MatchRequest)
    (req : MatchRequest) : Nat :=
  pending.findIdx (fun r => r.SameFields req)

/- `used.discard(i)` for several indices. -/
def discard
    (used : List Nat)
    (indices : List Nat) : List Nat :=
  used.filter (fun i => i ∉ indices)

/-
  The outer loop.  The members of a lobby that stays too
  small are looked up by their fields to be discarded.
-/
def formLobbies
    (settings : Settings)
    (now : Rat)
    (pending : List MatchRequest) :
    List (Nat × MatchRequest) →
      List (List MatchRequest) → List Nat →
      List (List MatchRequest) × List Nat
| [], lobbies, used => (lobbies, used)
| (i, req) :: rest, lobbies, used =>
    if i ∈ used then
      formLobbies settings now pending rest lobbies used
    else
      let (lobby, used') :=
        extendLobby settings now req rest [req] (i :: used)
      if settings.lobbySizeMin ≤ lobby.length then
        formLobbies settings now pending rest
          (lobbies ++ [lobby]) used'
      else
        formLobbies settings now pending rest lobbies
          (discard used'
            (i :: lobby.tail.map (indexOf pending)))

/- `self.pending.sort(key=lambda r: r.elo)`. -/
def sortByElo
    (pending : List MatchRequest) :
    List MatchRequest :=
  pending.insertionSort (fun r r' => r.elo ≤ r'.elo)

/- `enumerate(pending)`. -/
def enumerate
    (pending : List MatchRequest) :
    List (Nat × MatchRequest) :=
  pending.zipIdx.map Prod.swap

/-
  `match_tick`: the lobbies, and the requests that stay
  pending.  Python raises where this divides by zero: see
  `matchTickRaises`.
-/
def matchTick
    (settings : Settings)
    (now : Rat)
    (pending : List MatchRequest) :
    List (List MatchRequest) × List MatchRequest :=
  let sorted := sortByElo pending
  let (lobbies, used) :=
    formLobbies settings now sorted (enumerate sorted) [] []
  (lobbies,
    ((enumerate sorted).filter
      (fun e => e.1 ∉ used)).map Prod.snd)

/- `age // 0` is evaluated for the first pair of requests. -/
def matchTickRaises
    (settings : Settings)
    (pending : List MatchRequest) : Prop :=
  settings.matchTimeoutSeconds = 0 ∧ 2 ≤ pending.length

instance
    (settings : Settings)
    (pending : List MatchRequest) :
    Decidable (matchTickRaises settings pending) :=
  inferInstanceAs (Decidable
    (settings.matchTimeoutSeconds = 0 ∧
      2 ≤ pending.length))

end Matchmaking

------------------------------------------------------------
-- Expiry
------------------------------------------------------------

namespace Matchmaking

/- Requests are told apart by their identity. -/
abbrev Distinct (requests : List MatchRequest) : Prop :=
  (requests.map MatchRequest.objectId).Nodup

/- Expiry splits the pending requests. -/
theorem expireRequests_perm
    (maxAgeSeconds now : Rat)
    {pending : List MatchRequest}
    (hDistinct : Distinct pending) :
    ((expireRequests maxAgeSeconds now pending).1 ++
        (expireRequests maxAgeSeconds now pending).2).Perm
      pending := by
  have hKept :
      (expireRequests maxAgeSeconds now pending).2 =
        pending.filter (fun r =>
          !decide (maxAgeSeconds < now - r.timestamp)) := by
    apply List.filter_congr
    intro r hMem
    rw [Bool.eq_iff_iff]
    simp only [decide_eq_true_eq, Bool.not_eq_true',
      decide_eq_false_iff_not, List.mem_map,
      List.mem_filter, not_exists, not_and]
    constructor
    · intro hNone hOld
      exact hNone r ⟨hMem, hOld⟩ rfl
    · rintro hYoung r' ⟨hMem', hOld⟩ hId
      have hSame : r' = r :=
        List.inj_on_of_nodup_map hDistinct hMem' hMem hId
      exact hYoung (hSame ▸ hOld)
  rw [hKept]
  exact List.filter_append_perm _ pending

end Matchmaking

------------------------------------------------------------
-- Lobbies Partition the Pending Requests
------------------------------------------------------------

namespace Matchmaking

variable {settings : Settings}
variable {now : Rat}

/-
  The inner loop takes some later requests whose indices are
  unused, and marks them used.
-/
theorem extendLobby_spec
    (settings : Settings)
    (now : Rat)
    (req : MatchRequest)
    (rest : List (Nat × MatchRequest))
    (lobby : List MatchRequest)
    (used : List Nat)
    (hRest : (rest.map Prod.fst).Nodup) :
    ∃ joined : List (Nat × MatchRequest),
      joined.Sublist rest ∧
      (∀ e ∈ joined, e.1 ∉ used) ∧
      extendLobby settings now req rest lobby used =
        (lobby ++ joined.map Prod.snd,
          (joined.map Prod.fst).reverse ++ used) := by
  induction rest generalizing lobby used with
  | nil =>
      exact ⟨[], List.Sublist.refl _, by simp, by
        simp [extendLobby]⟩
  | cons e rest ih =>
      rcases e with ⟨j, other⟩
      rw [List.map_cons, List.nodup_cons] at hRest
      rcases hRest with ⟨hFresh, hRest⟩
      have hSkip :
          ∃ joined : List (Nat × MatchRequest),
            joined.Sublist ((j, other) :: rest) ∧
            (∀ e ∈ joined, e.1 ∉ used) ∧
            extendLobby settings now req rest lobby used =
              (lobby ++ joined.map Prod.snd,
                (joined.map Prod.fst).reverse ++ used) := by
        rcases ih lobby used hRest with
          ⟨joined, hSub, hUnused, hEq⟩
        exact ⟨joined, hSub.cons _, hUnused, hEq⟩
      rw [extendLobby]
      split
      · exact hSkip
      · rename_i hUnused
        split
        · split
          · refine ⟨[(j, other)], ?_, ?_, ?_⟩
            · exact List.singleton_sublist.mpr
                List.mem_cons_self
            · intro e hMem
              rw [List.mem_singleton.mp hMem]
              exact hUnused
            · simp
          · rcases
                ih (lobby ++ [other]) (j :: used) hRest with
              ⟨joined, hSub, hJoined, hEq⟩
            refine
              ⟨(j, other) :: joined, hSub.cons_cons _, ?_, ?_⟩
            · intro e hMem
              rcases List.mem_cons.mp hMem with rfl | hTail
              · exact hUnused
              · intro hUsed
                exact hJoined e hTail
                  (List.mem_cons_of_mem _ hUsed)
            · rw [hEq]
              simp
        · exact hSkip

/-
  Every index that a too small lobby gives back is its own:
  the lobby has one member, or no two requests are equal.
-/
def LooksUpOwn
    (settings : Settings)
    (pending : List MatchRequest) : Prop :=
  settings.lobbySizeMin ≤ 2 ∨
    pending.Pairwise (fun r r' => ¬ r.SameFields r')

instance
    (settings : Settings)
    (pending : List MatchRequest) :
    Decidable (LooksUpOwn settings pending) :=
  inferInstanceAs (Decidable
    (settings.lobbySizeMin ≤ 2 ∨
      pending.Pairwise (fun r r' => ¬ r.SameFields r')))

theorem indexOf_eq
    {pending : List MatchRequest}
    (hDifferent :
      pending.Pairwise (fun r r' => ¬ r.SameFields r'))
    {j : Nat}
    {r : MatchRequest}
    (hAt : pending[j]? = some r) :
    indexOf pending r = j := by
  rcases List.getElem?_eq_some_iff.mp hAt with ⟨hLt, rfl⟩
  unfold indexOf
  rw [List.findIdx_eq hLt]
  constructor
  · exact decide_eq_true ⟨rfl, rfl, rfl⟩
  · intro i hLess
    rw [decide_eq_false_iff_not]
    exact
      List.pairwise_iff_getElem.mp hDifferent i j
        (hLess.trans hLt) hLt hLess

/- Giving back what was just marked. -/
theorem discard_append
    (marked used : List Nat)
    (hFresh : ∀ i ∈ marked, i ∉ used) :
    discard (marked.reverse ++ used) marked = used := by
  unfold discard
  rw [List.filter_append]
  have hMarked :
      marked.reverse.filter (fun i => i ∉ marked) = [] := by
    rw [List.filter_eq_nil_iff]
    intro i hMem
    simpa using hMem
  have hUsed :
      used.filter (fun i => i ∉ marked) = used := by
    rw [List.filter_eq_self]
    intro i hMem
    simp only [decide_eq_true_eq]
    intro hMarked
    exact hFresh i hMarked hMem
  rw [hMarked, hUsed, List.nil_append]

/- A too small lobby gives back the indices it marked. -/
theorem map_indexOf_joined
    {pending : List MatchRequest}
    {joined : List (Nat × MatchRequest)}
    (hOwn : LooksUpOwn settings pending)
    (hSmall : joined.length + 1 < settings.lobbySizeMin)
    (hAt : ∀ e ∈ joined, pending[e.1]? = some e.2) :
    (joined.map Prod.snd).map (indexOf pending) =
      joined.map Prod.fst := by
  rcases hOwn with hMin | hDifferent
  · have hNil : joined = [] :=
      List.eq_nil_of_length_eq_zero (by omega)
    rw [hNil]
    rfl
  · rw [List.map_map]
    apply List.map_congr_left
    intro e hMem
    exact indexOf_eq hDifferent (hAt e hMem)

/-
  What the outer loop makes of the entries it has left: the
  members of the new lobbies had unused indices, and these
  are the indices it marks.
-/
structure Forms
    (rest : List (Nat × MatchRequest))
    (lobbies : List (List MatchRequest))
    (used : List Nat)
    (out : List (List MatchRequest) × List Nat)
    (formed : List (List MatchRequest))
    (members : List (Nat × MatchRequest)) : Prop where
  adds : out.1 = lobbies ++ formed
  flat : formed.flatten = members.map Prod.snd
  marks : out.2.Perm (members.map Prod.fst ++ used)
  sub : members ⊆ rest
  nodup : (members.map Prod.fst).Nodup
  unused : ∀ e ∈ members, e.1 ∉ used

variable {rest joined members : List (Nat × MatchRequest)}
variable {lobbies formed : List (List MatchRequest)}
variable {used : List Nat}
variable {out : List (List MatchRequest) × List Nat}
variable {i : Nat}
variable {req : MatchRequest}

/- An entry that founds no lobby. -/
theorem Forms.skip
    (hForms : Forms rest lobbies used out formed members)
    (e : Nat × MatchRequest) :
    Forms (e :: rest) lobbies used out formed members where
  adds := hForms.adds
  flat := hForms.flat
  marks := hForms.marks
  sub := List.subset_cons_of_subset _ hForms.sub
  nodup := hForms.nodup
  unused := hForms.unused

/- An entry that founds a lobby with those that joined. -/
theorem Forms.found
    (hForms :
      Forms rest (lobbies ++ [[req] ++ joined.map Prod.snd])
        ((joined.map Prod.fst).reverse ++ i :: used)
        out formed members)
    (hFresh : i ∉ rest.map Prod.fst)
    (hRest : (rest.map Prod.fst).Nodup)
    (hJoined : joined.Sublist rest)
    (hFree : ∀ e ∈ joined, e.1 ∉ i :: used)
    (hNew : i ∉ used) :
    Forms ((i, req) :: rest) lobbies used out
      (([req] ++ joined.map Prod.snd) :: formed)
      ((i, req) :: (joined ++ members)) := by
  have hIndices : i ∉ joined.map Prod.fst :=
    fun hMem => hFresh ((hJoined.map _).subset hMem)
  have hLater :
      ∀ e ∈ members,
        e.1 ∉ joined.map Prod.fst ∧ e.1 ≠ i ∧
          e.1 ∉ used := by
    intro e hMem
    simpa [not_or] using hForms.unused e hMem
  refine ⟨?_, ?_, ?_, ?_, ?_, ?_⟩
  · rw [hForms.adds]
    simp
  · simp [hForms.flat]
  · refine hForms.marks.trans ?_
    rw [List.perm_iff_count]
    intro a
    simp only [List.count_append, List.count_reverse,
      List.count_cons, List.map_cons, List.map_append,
      List.cons_append]
    omega
  · intro e hMem
    rcases List.mem_cons.mp hMem with rfl | hTail
    · exact List.mem_cons_self
    · apply List.mem_cons_of_mem
      rcases List.mem_append.mp hTail with hIn | hIn
      · exact hJoined.subset hIn
      · exact hForms.sub hIn
  · rw [List.map_cons, List.nodup_cons, List.map_append,
      List.nodup_append']
    refine
      ⟨?_, hRest.sublist (hJoined.map _), hForms.nodup, ?_⟩
    · rw [List.mem_append, not_or]
      refine ⟨hIndices, ?_⟩
      intro hMem
      rcases List.mem_map.mp hMem with ⟨e, hIn, hEqual⟩
      exact (hLater e hIn).2.1 hEqual
    · intro a hIn hMem
      rcases List.mem_map.mp hMem with ⟨e, hLate, rfl⟩
      exact (hLater e hLate).1 hIn
  · intro e hMem
    rcases List.mem_cons.mp hMem with rfl | hTail
    · exact hNew
    · rcases List.mem_append.mp hTail with hIn | hIn
      · intro hUsed
        exact hFree e hIn (List.mem_cons_of_mem _ hUsed)
      · exact (hLater e hIn).2.2

/- A founder and those that joined give their indices back. -/
theorem discard_joined
    (hFree : ∀ e ∈ joined, e.1 ∉ i :: used)
    (hNew : i ∉ used) :
    discard ((joined.map Prod.fst).reverse ++ i :: used)
        (i :: joined.map Prod.fst) =
      used := by
  have hUnmarked :
      ∀ a ∈ i :: joined.map Prod.fst, a ∉ used := by
    intro a hMem
    rcases List.mem_cons.mp hMem with rfl | hTail
    · exact hNew
    · rcases List.mem_map.mp hTail with ⟨e, hIn, rfl⟩
      intro hUsed
      exact hFree e hIn (List.mem_cons_of_mem _ hUsed)
  simpa using discard_append _ used hUnmarked

/- The outer loop, by induction on the entries it has left. -/
theorem formLobbies_spec
    (now : Rat)
    {pending : List MatchRequest}
    (hOwn : LooksUpOwn settings pending)
    (rest : List (Nat × MatchRequest))
    (lobbies : List (List MatchRequest))
    (used : List Nat)
    (hRest : (rest.map Prod.fst).Nodup)
    (hAt : ∀ e ∈ rest, pending[e.1]? = some e.2) :
    ∃ formed members,
      Forms rest lobbies used
        (formLobbies settings now pending rest lobbies used)
        formed members := by
  induction rest generalizing lobbies used with
  | nil =>
      refine ⟨[], [], ?_, rfl, ?_, ?_, ?_, ?_⟩
      · simp [formLobbies]
      · simp [formLobbies]
      · exact List.Subset.refl _
      · exact List.nodup_nil
      · intro e hMem
        cases hMem
  | cons e rest ih =>
      rcases e with ⟨i, req⟩
      rw [List.map_cons, List.nodup_cons] at hRest
      rcases hRest with ⟨hFresh, hRest⟩
      have hAtRest : ∀ e ∈ rest, pending[e.1]? = some e.2 :=
        fun e hMem => hAt e (List.mem_cons_of_mem _ hMem)
      have hSkip :
          ∃ formed members,
            Forms ((i, req) :: rest) lobbies used
              (formLobbies settings now pending rest lobbies
                used)
              formed members := by
        rcases ih lobbies used hRest hAtRest with
          ⟨formed, members, hForms⟩
        exact ⟨formed, members, hForms.skip _⟩
      rw [formLobbies]
      split
      · exact hSkip
      · rename_i hNew
        rcases
            extendLobby_spec settings now req rest [req]
              (i :: used) hRest with
          ⟨joined, hJoined, hFree, hEq⟩
        rw [hEq]
        simp only
        split
        · rcases
              ih (lobbies ++ [[req] ++ joined.map Prod.snd])
                ((joined.map Prod.fst).reverse ++ i :: used)
                hRest hAtRest with
            ⟨formed, members, hForms⟩
          exact
            ⟨_, _,
              hForms.found hFresh hRest hJoined hFree hNew⟩
        · rename_i hSmall
          have hGiven :
              (joined.map Prod.snd).map (indexOf pending) =
                joined.map Prod.fst :=
            map_indexOf_joined hOwn (by simpa using hSmall)
              (fun e hMem =>
                hAtRest e (hJoined.subset hMem))
          simp only [List.cons_append, List.nil_append,
            List.tail_cons]
          rw [hGiven, discard_joined hFree hNew]
          exact hSkip

theorem map_fst_enumerate
    (pending : List MatchRequest) :
    (enumerate pending).map Prod.fst =
      List.range pending.length := by
  unfold enumerate
  rw [List.map_map]
  rw [List.range_eq_range']
  exact List.zipIdx_map_snd 0 pending

theorem map_snd_enumerate
    (pending : List MatchRequest) :
    (enumerate pending).map Prod.snd = pending := by
  unfold enumerate
  rw [List.map_map]
  exact List.zipIdx_map_fst 0 pending

theorem getElem?_of_mem_enumerate
    {pending : List MatchRequest}
    {e : Nat × MatchRequest}
    (hMem : e ∈ enumerate pending) :
    pending[e.1]? = some e.2 := by
  rcases List.mem_map.mp hMem with ⟨⟨r, i⟩, hIn, rfl⟩
  exact List.mem_zipIdx_iff_getElem?.mp hIn

/- Sorting moves requests, but keeps them all. -/
theorem LooksUpOwn.sortByElo
    {pending : List MatchRequest}
    (hOwn : LooksUpOwn settings pending) :
    LooksUpOwn settings (sortByElo pending) := by
  refine hOwn.imp_right (fun hDifferent => ?_)
  refine
    hDifferent.perm (List.perm_insertionSort _ pending).symm
      ?_
  intro r r' hNot hSame
  exact hNot ⟨hSame.1.symm, hSame.2.1.symm, hSame.2.2.symm⟩

/- The members and the unused entries are all entries. -/
theorem members_append_unused
    {items members : List (Nat × MatchRequest)}
    {used : List Nat}
    (hItems : (items.map Prod.fst).Nodup)
    (hSub : members ⊆ items)
    (hMembers : (members.map Prod.fst).Nodup)
    (hUsed : used.Perm (members.map Prod.fst)) :
    (members ++ items.filter (fun e => e.1 ∉ used)).Perm
      items := by
  have hMark :
      ∀ e ∈ members, e.1 ∈ used := fun e hMem =>
    hUsed.mem_iff.mpr (List.mem_map_of_mem hMem)
  refine (List.perm_ext_iff_of_nodup ?_
    (List.Nodup.of_map _ hItems)).mpr ?_
  · refine List.nodup_append'.mpr
      ⟨List.Nodup.of_map _ hMembers,
        (List.Nodup.of_map _ hItems).filter _, ?_⟩
    intro e hMem hLeft
    have hUnused := (List.mem_filter.mp hLeft).2
    exact of_decide_eq_true hUnused (hMark e hMem)
  · intro e
    rw [List.mem_append, List.mem_filter, decide_eq_true_eq]
    constructor
    · rintro (hMem | ⟨hMem, _⟩)
      · exact hSub hMem
      · exact hMem
    · intro hMem
      by_cases hIn : e.1 ∈ used
      · left
        rcases List.mem_map.mp (hUsed.mem_iff.mp hIn) with
          ⟨e', hMem', hIndex⟩
        have hSame : e' = e :=
          List.inj_on_of_nodup_map hItems (hSub hMem') hMem
            hIndex
        exact hSame ▸ hMem'
      · exact .inr ⟨hMem, hIn⟩

/-
  The lobbies and the requests left pending are the requests
  that were pending before.
-/
theorem matchTick_perm
    (now : Rat)
    {pending : List MatchRequest}
    (hPending : LooksUpOwn settings pending) :
    ((matchTick settings now pending).1.flatten ++
        (matchTick settings now pending).2).Perm
      pending := by
  have hOwn := hPending.sortByElo
  have hIndices :
      ((enumerate (sortByElo pending)).map
        Prod.fst).Nodup := by
    rw [map_fst_enumerate]
    exact List.nodup_range
  rcases
      formLobbies_spec now hOwn
        (enumerate (sortByElo pending)) [] [] hIndices
        (fun e hMem => getElem?_of_mem_enumerate hMem) with
    ⟨formed, members, hForms⟩
  have hUsed := hForms.marks
  rw [List.append_nil] at hUsed
  have hRequests :=
    (members_append_unused hIndices hForms.sub hForms.nodup
      hUsed).map Prod.snd
  rw [List.map_append, map_snd_enumerate] at hRequests
  unfold matchTick
  simp only
  rw [hForms.adds, List.nil_append, hForms.flat]
  exact
    hRequests.trans (List.perm_insertionSort _ pending)

end Matchmaking
