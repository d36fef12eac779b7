import MultiplayerInfra.Greedy.Sweep
import MultiplayerInfra.Matchmaking.Matcher

/-
  The loops of the matcher as a greedy sweep over the sorted
  requests.

  Key definitions include:
    * `Matchmaking.reaches`
    * `Matchmaking.considered`
    * `Matchmaking.Gone`
    * `Matchmaking.ReleasesOwn`

  Key theorems include:
    * `Matchmaking.extendLobby_eq`
    * `Matchmaking.forms_considered`
    * `Matchmaking.formLobbies_loses`
    * `Matchmaking.formLobbies_draws`

  The loops are the sweep as long as every too small lobby
  gives back the indices of its own members.
-/

------------------------------------------------------------
-- The Inner Loop
------------------------------------------------------------

namespace Matchmaking

/- `abs(req.elo - other.elo) <= range_allowed`. -/
def reaches
    (settings : Settings)
    (now : Rat)
    (req other : Nat × MatchRequest) : Bool :=
  decide (((req.2.elo - other.2.elo).natAbs : Int) ≤
    rangeAllowed settings now req.2)

/- Indexed requests in the order of the sort. -/
def EloLe (e e' : Nat × MatchRequest) : Prop :=
  e.2.elo ≤ e'.2.elo

variable {settings : Settings}
variable {now : Rat}
variable {pending : List MatchRequest}
variable {rest : List (Nat × MatchRequest)}
variable {used : List Nat}

theorem convex_reaches
    (settings : Settings)
    (now : Rat) :
    Greedy.Convex EloLe (reaches settings now) := by
  intro a b c hFirst hSecond hReach
  simp only [EloLe, reaches, decide_eq_true_eq] at *
  omega

/- The entries that may join a lobby. -/
def candidates
    (settings : Settings)
    (now : Rat)
    (founder : Nat × MatchRequest)
    (used : List Nat)
    (rest : List (Nat × MatchRequest)) :
    List (Nat × MatchRequest) :=
  rest.filter (fun e =>
    e.1 ∉ used && reaches settings now founder e)

/- Marking an entry does not change the candidates behind. -/
theorem candidates_marked
    {founder : Nat × MatchRequest}
    {j : Nat}
    (hFresh : j ∉ rest.map Prod.fst) :
    candidates settings now founder (j :: used) rest =
      candidates settings now founder used rest := by
  unfold candidates
  apply List.filter_congr
  intro e hMem
  have hOther : e.1 ≠ j := by
    rintro rfl
    exact hFresh (List.mem_map_of_mem hMem)
  simp [hOther]

/-
  The inner loop takes the first candidates, as many as the
  lobby has room for, and at least one.
-/
theorem extendLobby_eq
    (settings : Settings)
    (now : Rat)
    (founder : Nat × MatchRequest)
    (rest : List (Nat × MatchRequest))
    (lobby : List MatchRequest)
    (used : List Nat)
    (hRest : (rest.map Prod.fst).Nodup) :
    extendLobby settings now founder.2 rest lobby used =
      let joined :=
        (candidates settings now founder used rest).take
          (max 1 (settings.lobbySizeMax - lobby.length))
      (lobby ++ joined.map Prod.snd,
        (joined.map Prod.fst).reverse ++ used) := by
  induction rest generalizing lobby used with
  | nil => simp [extendLobby, candidates]
  | cons e rest ih =>
      rcases e with ⟨j, other⟩
      rw [List.map_cons, List.nodup_cons] at hRest
      rcases hRest with ⟨hFresh, hRest⟩
      rw [extendLobby]
      by_cases hUsed : j ∈ used
      · rw [if_pos hUsed, ih lobby used hRest]
        simp [candidates, hUsed]
      · rw [if_neg hUsed]
        by_cases hReach :
            ((founder.2.elo - other.elo).natAbs : Int) ≤
              rangeAllowed settings now founder.2
        · have hPasses :
              reaches settings now founder (j, other) = true :=
            decide_eq_true hReach
          have hHead :
              candidates settings now founder used
                  ((j, other) :: rest) =
                (j, other) ::
                  candidates settings now founder used
                    rest := by
            simp [candidates, hUsed, hPasses]
          rw [if_pos hReach, hHead]
          by_cases hFull :
              settings.lobbySizeMax ≤ lobby.length + 1
          · have hRoom :
                max 1 (settings.lobbySizeMax - lobby.length) =
                  1 := by
              omega
            rw [if_pos hFull, hRoom]
            simp
          · have hRoom :
                max 1 (settings.lobbySizeMax - lobby.length) =
                  max 1 (settings.lobbySizeMax -
                    (lobby ++ [other]).length) + 1 := by
              rw [List.length_append, List.length_singleton]
              omega
            rw [if_neg hFull, ih _ _ hRest,
              candidates_marked hFresh, hRoom]
            simp
        · have hMisses :
              reaches settings now founder (j, other) = false :=
            decide_eq_false hReach
          rw [if_neg hReach, ih lobby used hRest]
          simp [candidates, hMisses]

end Matchmaking

------------------------------------------------------------
-- The Sweep
------------------------------------------------------------

namespace Matchmaking

/- The groups of the sweep over the sorted requests. -/
def considered
    (settings : Settings)
    (now : Rat)
    (pending : List MatchRequest) :
    List (List (Nat × MatchRequest)) :=
  Greedy.groups (reaches settings now) settings.lobbySizeMin
    settings.lobbySizeMax 0 (enumerate (sortByElo pending))

/-
  No too small group has, behind its founder, a request that
  equals one before it in the sorted list.
-/
def ReleasesOwn
    (settings : Settings)
    (now : Rat)
    (pending : List MatchRequest) : Prop :=
  ∀ group ∈ considered settings now pending,
    group.length < settings.lobbySizeMin →
      ∀ e ∈ group.tail,
        indexOf (sortByElo pending) e.2 = e.1

instance
    (settings : Settings)
    (now : Rat)
    (pending : List MatchRequest) :
    Decidable (ReleasesOwn settings now pending) :=
  inferInstanceAs (Decidable
    (∀ group ∈ considered settings now pending,
      group.length < settings.lobbySizeMin →
        ∀ e ∈ group.tail,
          indexOf (sortByElo pending) e.2 = e.1))

variable {settings : Settings}
variable {now : Rat}
variable {pending : List MatchRequest}
variable {e founder : Nat × MatchRequest}
variable {rest : List (Nat × MatchRequest)}
variable {used : List Nat}
variable {skip : Nat}

/- The first `skip` entries are used, and no others. -/
def UsedUpTo
    (skip : Nat)
    (used : List Nat)
    (rest : List (Nat × MatchRequest)) : Prop :=
  (∀ e ∈ rest.take skip, e.1 ∈ used) ∧
    ∀ e ∈ rest.drop skip, e.1 ∉ used

/- An entry that is already in a lobby. -/
theorem UsedUpTo.tail
    (hUsed : UsedUpTo (skip + 1) used (e :: rest)) :
    e.1 ∈ used ∧ UsedUpTo skip used rest := by
  rcases hUsed with ⟨hTake, hDrop⟩
  rw [List.take_succ_cons] at hTake
  exact
    ⟨hTake e List.mem_cons_self,
      fun e' hMem => hTake e' (List.mem_cons_of_mem _ hMem),
      hDrop⟩

theorem UsedUpTo.head
    (hUsed : UsedUpTo 0 used (e :: rest)) :
    e.1 ∉ used ∧ UsedUpTo 0 used rest := by
  rcases hUsed with ⟨_, hDrop⟩
  rw [List.drop_zero] at hDrop
  refine ⟨hDrop e List.mem_cons_self, ?_, ?_⟩
  · intro e' hMem
    cases hMem
  · intro e' hMem
    exact hDrop e' (List.mem_cons_of_mem _ hMem)

theorem ne_of_fresh
    (hFresh : founder.1 ∉ rest.map Prod.fst) :
    ∀ e ∈ rest, founder.1 ≠ e.1 := by
  intro e hMem hEqual
  exact hFresh (hEqual ▸ List.mem_map_of_mem hMem)

/- Those that join are not found behind themselves. -/
theorem ne_of_behind
    (hRest : (rest.map Prod.fst).Nodup)
    {joined : List (Nat × MatchRequest)}
    (hJoined : joined.IsPrefix rest)
    {e' : Nat × MatchRequest}
    (hJoin : e' ∈ joined)
    (hBehind : e ∈ rest.drop joined.length) :
    e'.1 ≠ e.1 := by
  intro hEqual
  rcases hJoined with ⟨behind, rfl⟩
  rw [List.drop_left] at hBehind
  rw [List.map_append, List.nodup_append'] at hRest
  exact
    hRest.2.2 (List.mem_map_of_mem hJoin)
      (hEqual ▸ List.mem_map_of_mem hBehind)

/- A founder is joined by those that it reaches. -/
theorem extendLobby_founder
    (settings : Settings)
    (now : Rat)
    (hSorted : (founder :: rest).Pairwise EloLe)
    (hFresh : founder.1 ∉ rest.map Prod.fst)
    (hRest : (rest.map Prod.fst).Nodup)
    (hUsed : UsedUpTo 0 used (founder :: rest)) :
    extendLobby settings now founder.2 rest [founder.2]
        (founder.1 :: used) =
      let joined :=
        Greedy.joiners (reaches settings now)
          settings.lobbySizeMax founder rest
      ([founder.2] ++ joined.map Prod.snd,
        (joined.map Prod.fst).reverse ++
          founder.1 :: used) := by
  have hFree := hUsed.head.2.2
  rw [List.drop_zero] at hFree
  have hAll :
      candidates settings now founder (founder.1 :: used)
          rest =
        rest.filter (reaches settings now founder) := by
    rw [candidates_marked hFresh]
    unfold candidates
    apply List.filter_congr
    intro e hMem
    simp [hFree e hMem]
  rw [extendLobby_eq settings now founder rest _ _ hRest,
    hAll,
    (convex_reaches settings now).filter_eq_takeWhile
      hSorted]
  rfl

/- The entries behind a lobby that was just formed. -/
theorem UsedUpTo.formed
    (hUsed : UsedUpTo 0 used (founder :: rest))
    (hFresh : founder.1 ∉ rest.map Prod.fst)
    (hRest : (rest.map Prod.fst).Nodup)
    {joined : List (Nat × MatchRequest)}
    (hJoined : joined.IsPrefix rest) :
    UsedUpTo joined.length
      ((joined.map Prod.fst).reverse ++ founder.1 :: used)
      rest := by
  have hFree := hUsed.head.2.2
  rw [List.drop_zero] at hFree
  constructor
  · rw [← List.prefix_iff_eq_take.mp hJoined]
    intro e hMem
    simp only [List.mem_append, List.mem_reverse]
    exact Or.inl (List.mem_map_of_mem hMem)
  · intro e hBehind hIn
    have hMem := List.mem_of_mem_drop hBehind
    simp only [List.mem_append, List.mem_reverse,
      List.mem_cons] at hIn
    rcases hIn with hJoin | hFounder | hOld
    · rcases List.mem_map.mp hJoin with ⟨e', hIn, hEqual⟩
      exact ne_of_behind hRest hJoined hIn hBehind hEqual
    · exact ne_of_fresh hFresh e hMem hFounder.symm
    · exact hFree e hMem hOld

end Matchmaking

------------------------------------------------------------
-- The Outer Loop While Releases Are Right
------------------------------------------------------------

namespace Matchmaking

variable {settings : Settings}
variable {now : Rat}
variable {pending : List MatchRequest}
variable {founder : Nat × MatchRequest}
variable {rest : List (Nat × MatchRequest)}
variable {lobbies : List (List MatchRequest)}
variable {used : List Nat}
variable {skip : Nat}

/- The groups of the sweep over the entries that are left. -/
abbrev groupsOf
    (settings : Settings)
    (now : Rat)
    (skip : Nat)
    (rest : List (Nat × MatchRequest)) :
    List (List (Nat × MatchRequest)) :=
  Greedy.groups (reaches settings now) settings.lobbySizeMin
    settings.lobbySizeMax skip rest

/- An entry whose index is used is skipped. -/
theorem formLobbies_used
    (hUsed : founder.1 ∈ used) :
    formLobbies settings now pending (founder :: rest)
        lobbies used =
      formLobbies settings now pending rest lobbies used := by
  rcases founder with ⟨i, req⟩
  rw [formLobbies, if_pos hUsed]

/- A founder forms a lobby or releases those that joined. -/
theorem formLobbies_founder
    (hSorted : (founder :: rest).Pairwise EloLe)
    (hFresh : founder.1 ∉ rest.map Prod.fst)
    (hRest : (rest.map Prod.fst).Nodup)
    (hUsed : UsedUpTo 0 used (founder :: rest)) :
    formLobbies settings now pending (founder :: rest)
        lobbies used =
      let joined :=
        Greedy.joiners (reaches settings now)
          settings.lobbySizeMax founder rest
      let used' :=
        (joined.map Prod.fst).reverse ++ founder.1 :: used
      if settings.lobbySizeMin ≤ joined.length + 1 then
        formLobbies settings now pending rest
          (lobbies ++ [[founder.2] ++ joined.map Prod.snd])
          used'
      else
        formLobbies settings now pending rest lobbies
          (discard used'
            (founder.1 ::
              (joined.map Prod.snd).map
                (indexOf pending))) := by
  have hLobby :=
    extendLobby_founder settings now hSorted hFresh hRest
      hUsed
  rcases founder with ⟨i, req⟩
  rw [formLobbies, if_neg hUsed.head.1]
  simp only at hLobby ⊢
  rw [hLobby]
  simp

/- Nobody who joins a founder was marked before. -/
theorem unmarked_joiners
    (hFresh : founder.1 ∉ rest.map Prod.fst)
    (hUsed : UsedUpTo 0 used (founder :: rest))
    {joined : List (Nat × MatchRequest)}
    (hJoined : joined.Sublist rest) :
    ∀ e ∈ joined, e.1 ∉ founder.1 :: used := by
  intro e hMem hIn
  have hRest := hJoined.subset hMem
  rcases List.mem_cons.mp hIn with hFounder | hOld
  · exact ne_of_fresh hFresh e hRest hFounder.symm
  · exact hUsed.head.2.2 e (by simpa using hRest) hOld

/-
  A founder and joiners that are found under their own
  indices give back what they have marked.
-/
theorem discard_own
    (hFresh : founder.1 ∉ rest.map Prod.fst)
    (hUsed : UsedUpTo 0 used (founder :: rest))
    {joined : List (Nat × MatchRequest)}
    (hJoined : joined.Sublist rest)
    (hOwn : ∀ e ∈ joined, indexOf pending e.2 = e.1) :
    discard
        ((joined.map Prod.fst).reverse ++ founder.1 :: used)
        (founder.1 ::
          (joined.map Prod.snd).map (indexOf pending)) =
      used := by
  have hReleased :
      (joined.map Prod.snd).map (indexOf pending) =
        joined.map Prod.fst := by
    rw [List.map_map]
    exact List.map_congr_left hOwn
  rw [hReleased]
  exact
    discard_joined (unmarked_joiners hFresh hUsed hJoined)
      hUsed.head.1

/-
  The loop forms the groups of the sweep that are large
  enough, by induction on the entries it has left.
-/
theorem forms_considered
    (rest : List (Nat × MatchRequest))
    (lobbies : List (List MatchRequest))
    (used : List Nat)
    (skip : Nat)
    (hSorted : rest.Pairwise EloLe)
    (hRest : (rest.map Prod.fst).Nodup)
    (hUsed : UsedUpTo skip used rest)
    (hOwn :
      ∀ group ∈ groupsOf settings now skip rest,
        group.length < settings.lobbySizeMin →
          ∀ e ∈ group.tail, indexOf pending e.2 = e.1) :
    Forms rest lobbies used
      (formLobbies settings now pending rest lobbies used)
      ((Greedy.formed settings.lobbySizeMin
        (groupsOf settings now skip rest)).map
          (List.map Prod.snd))
      (Greedy.formed settings.lobbySizeMin
        (groupsOf settings now skip rest)).flatten := by
  induction rest generalizing lobbies used skip with
  | nil =>
      refine ⟨?_, ?_, ?_, ?_, ?_, ?_⟩ <;>
        simp [formLobbies, Greedy.formed]
  | cons founder rest ih =>
      rw [List.map_cons, List.nodup_cons] at hRest
      rcases hRest with ⟨hFresh, hRest⟩
      have hSortedRest := (List.pairwise_cons.mp hSorted).2
      cases skip with
      | succ skip =>
          rw [formLobbies_used hUsed.tail.1]
          exact
            (ih lobbies used skip hSortedRest hRest
              hUsed.tail.2 hOwn).skip founder
      | zero =>
          rw [formLobbies_founder hSorted hFresh hRest hUsed]
          simp only [groupsOf, Greedy.groups_zero_cons]
            at hOwn ⊢
          have hPrefix :=
            Greedy.isPrefix_joiners (reaches settings now)
              settings.lobbySizeMax founder rest
          generalize
            Greedy.joiners (reaches settings now)
              settings.lobbySizeMax founder rest = joined
            at hOwn hPrefix ⊢
          by_cases hLarge :
              settings.lobbySizeMin ≤ joined.length + 1
          · rw [if_pos hLarge] at hOwn ⊢
            rw [Greedy.formed_cons_of_le _
              (by simpa using hLarge)]
            rw [if_pos hLarge]
            exact
              (ih _ _ _ hSortedRest hRest
                (hUsed.formed hFresh hRest hPrefix)
                (List.forall_mem_cons.mp hOwn).2).found
                hFresh hRest hPrefix.sublist
                (unmarked_joiners hFresh hUsed
                  hPrefix.sublist)
                hUsed.head.1
          · rw [if_neg hLarge] at hOwn ⊢
            rw [Greedy.formed_cons_of_lt _
              (by simpa using hLarge)]
            rw [if_neg hLarge]
            rw [discard_own hFresh hUsed hPrefix.sublist
              ((List.forall_mem_cons.mp hOwn).1
                (by simpa using hLarge))]
            exact
              (ih lobbies used 0 hSortedRest hRest
                hUsed.head.2
                (List.forall_mem_cons.mp hOwn).2).skip founder

end Matchmaking

------------------------------------------------------------
-- Requests That Are Not Given Back
------------------------------------------------------------

namespace Matchmaking

/- No request is looked up under the index. -/
def Gone (pending : List MatchRequest) (j : Nat) : Prop :=
  ∀ r, indexOf pending r ≠ j

variable {settings : Settings}
variable {now : Rat}
variable {pending : List MatchRequest}
variable {e founder : Nat × MatchRequest}
variable {rest : List (Nat × MatchRequest)}
variable {lobbies : List (List MatchRequest)}
variable {used : List Nat}
variable {skip : Nat}

/- A request that is not found first is never found. -/
theorem gone_of_indexOf_ne
    (hAt : pending[e.1]? = some e.2)
    (hOther : indexOf pending e.2 ≠ e.1) :
    Gone pending e.1 := by
  intro r hFound
  rcases List.getElem?_eq_some_iff.mp hAt with ⟨hLt, hGet⟩
  have hIndex :
      pending.findIdx (fun r' => r'.SameFields r) = e.1 :=
    hFound
  have hSame : e.2.SameFields r := by
    have hHere :=
      List.findIdx_getElem
        (w := (hIndex.symm ▸ hLt :
          pending.findIdx (fun r' => r'.SameFields r) <
            pending.length))
    simp only [decide_eq_true_eq, hIndex, hGet] at hHere
    exact hHere
  apply hOther
  rw [← hFound]
  unfold indexOf
  congr 1
  funext r'
  rw [decide_eq_decide]
  unfold MatchRequest.SameFields at *
  rcases hSame with ⟨hPlayer, hElo, hTime⟩
  rw [hPlayer, hElo, hTime]

/- An index that nobody looks up is not given back. -/
theorem mem_discard_of_gone
    {i j : Nat}
    {requests : List MatchRequest}
    (hGone : Gone pending j)
    (hOther : j ≠ i)
    (hUsed : j ∈ used) :
    j ∈ discard used (i :: requests.map (indexOf pending)) := by
  unfold discard
  rw [List.mem_filter]
  refine ⟨hUsed, ?_⟩
  simp only [List.mem_cons, List.mem_map, not_or,
    decide_eq_true_eq, not_exists, not_and]
  exact ⟨hOther, fun r _ => hGone r⟩

/-
  An index stays marked, and the entry at the index is in
  none of the lobbies that the loop adds.
-/
structure Loses
    (rest : List (Nat × MatchRequest))
    (lobbies : List (List MatchRequest))
    (out : List (List MatchRequest) × List Nat)
    (j : Nat) : Prop where
  marked : j ∈ out.2
  absent :
    ∀ r ∈ out.1.flatten,
      r ∈ lobbies.flatten ∨
        ∃ e ∈ rest, e.2 = r ∧ e.1 ≠ j

theorem Loses.cons
    {out : List (List MatchRequest) × List Nat}
    {j : Nat}
    (hLoses : Loses rest lobbies out j)
    (e : Nat × MatchRequest) :
    Loses (e :: rest) lobbies out j where
  marked := hLoses.marked
  absent := by
    intro r hMem
    refine (hLoses.absent r hMem).imp_right ?_
    rintro ⟨e', hIn, hEntry⟩
    exact ⟨e', List.mem_cons_of_mem _ hIn, hEntry⟩

/- Another entry founds a lobby that others join. -/
theorem Loses.found
    (founder : Nat × MatchRequest)
    {out : List (List MatchRequest) × List Nat}
    {j : Nat}
    {joined : List (Nat × MatchRequest)}
    (hLoses :
      Loses rest
        (lobbies ++ [[founder.2] ++ joined.map Prod.snd])
        out j)
    (hJoined : joined ⊆ rest)
    (hFounder : founder.1 ≠ j)
    (hOthers : ∀ e ∈ joined, e.1 ≠ j) :
    Loses (founder :: rest) lobbies out j where
  marked := hLoses.marked
  absent := by
    intro r hMem
    rcases hLoses.absent r hMem with hOld | hNew
    · simp only [List.flatten_append, List.mem_append,
        List.flatten_cons, List.flatten_nil,
        List.append_nil, List.cons_append,
        List.nil_append, List.mem_cons] at hOld
      rcases hOld with hOld | rfl | hJoin
      · exact Or.inl hOld
      · exact
          Or.inr
            ⟨founder, List.mem_cons_self, rfl, hFounder⟩
      · rcases List.mem_map.mp hJoin with ⟨e, hIn, rfl⟩
        exact
          Or.inr
            ⟨e, List.mem_cons_of_mem _ (hJoined hIn), rfl,
              hOthers e hIn⟩
    · rcases hNew with ⟨e, hIn, hEntry⟩
      exact
        Or.inr ⟨e, List.mem_cons_of_mem _ hIn, hEntry⟩

/- A marked index that nobody looks up stays marked. -/
theorem formLobbies_keeps
    {j : Nat}
    (hGone : Gone pending j)
    (rest : List (Nat × MatchRequest))
    (lobbies : List (List MatchRequest))
    (used : List Nat)
    (hRest : (rest.map Prod.fst).Nodup)
    (hUsed : j ∈ used) :
    Loses rest lobbies
      (formLobbies settings now pending rest lobbies used)
      j := by
  induction rest generalizing lobbies used with
  | nil =>
      refine ⟨hUsed, ?_⟩
      intro r hMem
      exact Or.inl hMem
  | cons founder rest ih =>
      rw [List.map_cons, List.nodup_cons] at hRest
      rcases hRest with ⟨hFresh, hRest⟩
      by_cases hSkip : founder.1 ∈ used
      · rw [formLobbies_used hSkip]
        exact (ih lobbies used hRest hUsed).cons founder
      · rcases
            extendLobby_spec settings now founder.2 rest
              [founder.2] (founder.1 :: used) hRest with
          ⟨joined, hJoined, hFree, hEq⟩
        have hMarked :
            j ∈ (joined.map Prod.fst).reverse ++
              founder.1 :: used := by
          simp [hUsed]
        have hOther : founder.1 ≠ j := by
          rintro rfl
          exact hSkip hUsed
        rcases founder with ⟨i, req⟩
        rw [formLobbies, if_neg hSkip, hEq]
        simp only
        split
        · refine
            (ih _ _ hRest hMarked).found (i, req)
              hJoined.subset hOther ?_
          rintro e hMem rfl
          exact
            hFree e hMem (List.mem_cons_of_mem _ hUsed)
        · exact
            (ih _ _ hRest
              (mem_discard_of_gone hGone hOther.symm
                hMarked)).cons _

/- The first request that is not given back is lost. -/
theorem loses_of_not_own
    (hFresh : founder.1 ∉ rest.map Prod.fst)
    (hRest : (rest.map Prod.fst).Nodup)
    (hAt : ∀ e ∈ rest, pending[e.1]? = some e.2)
    {joined : List (Nat × MatchRequest)}
    (hJoined : joined ⊆ rest)
    (hNot : ¬ ∀ e ∈ joined, indexOf pending e.2 = e.1) :
    ∃ e ∈ rest,
      Loses rest lobbies
        (formLobbies settings now pending rest lobbies
          (discard
            ((joined.map Prod.fst).reverse ++
              founder.1 :: used)
            (founder.1 ::
              (joined.map Prod.snd).map (indexOf pending))))
        e.1 := by
  simp only [not_forall] at hNot
  rcases hNot with ⟨e, hJoin, hNotOwn⟩
  have hIn := hJoined hJoin
  have hGone : Gone pending e.1 :=
    gone_of_indexOf_ne (hAt e hIn) hNotOwn
  refine
    ⟨e, hIn,
      formLobbies_keeps hGone rest lobbies _ hRest ?_⟩
  apply
    mem_discard_of_gone hGone (ne_of_fresh hFresh e hIn).symm
  rw [List.mem_append, List.mem_reverse]
  exact Or.inl (List.mem_map_of_mem hJoin)

/-
  Up to the first group that does not give back its own
  indices the loop is the sweep; there it loses a request.
-/
theorem formLobbies_loses
    (rest : List (Nat × MatchRequest))
    (lobbies : List (List MatchRequest))
    (used : List Nat)
    (skip : Nat)
    (hSorted : rest.Pairwise EloLe)
    (hRest : (rest.map Prod.fst).Nodup)
    (hAt : ∀ e ∈ rest, pending[e.1]? = some e.2)
    (hUsed : UsedUpTo skip used rest)
    (hNot :
      ∃ group ∈ groupsOf settings now skip rest,
        group.length < settings.lobbySizeMin ∧
          ∃ e ∈ group.tail, indexOf pending e.2 ≠ e.1) :
    ∃ e ∈ rest.drop skip,
      Loses rest lobbies
        (formLobbies settings now pending rest lobbies used)
        e.1 := by
  induction rest generalizing lobbies used skip with
  | nil => simp at hNot
  | cons founder rest ih =>
      rw [List.map_cons, List.nodup_cons] at hRest
      rcases hRest with ⟨hFresh, hRest⟩
      have hSortedRest := (List.pairwise_cons.mp hSorted).2
      have hAtRest :
          ∀ e ∈ rest, pending[e.1]? = some e.2 :=
        fun e hMem => hAt e (List.mem_cons_of_mem _ hMem)
      cases skip with
      | succ skip =>
          rw [formLobbies_used hUsed.tail.1]
          rcases
              ih lobbies used skip hSortedRest hRest hAtRest
                hUsed.tail.2 hNot with
            ⟨e, hMem, hLoses⟩
          exact ⟨e, hMem, hLoses.cons founder⟩
      | zero =>
          rw [formLobbies_founder hSorted hFresh hRest hUsed]
          simp only [groupsOf, Greedy.groups_zero_cons]
            at hNot
          have hPrefix :=
            Greedy.isPrefix_joiners (reaches settings now)
              settings.lobbySizeMax founder rest
          generalize
            Greedy.joiners (reaches settings now)
              settings.lobbySizeMax founder rest = joined
            at hNot hPrefix ⊢
          rcases hNot with ⟨group, hMem, hSmall, hLost⟩
          by_cases hLarge :
              settings.lobbySizeMin ≤ joined.length + 1
          · rw [if_pos hLarge] at hMem ⊢
            have hLater : group ≠ founder :: joined := by
              rintro rfl
              exact
                Nat.not_le.mpr hSmall (by simpa using hLarge)
            rcases
                ih _ _ _ hSortedRest hRest hAtRest
                  (hUsed.formed hFresh hRest hPrefix)
                  ⟨group,
                    (List.mem_cons.mp hMem).resolve_left
                      hLater,
                    hSmall, hLost⟩ with
              ⟨e, hBehind, hLoses⟩
            have hIn := List.mem_of_mem_drop hBehind
            exact
              ⟨e, List.mem_cons_of_mem _ hIn,
                hLoses.found _ hPrefix.subset
                  (ne_of_fresh hFresh e hIn)
                  (fun e' hJoin =>
                    ne_of_behind hRest hPrefix hJoin
                      hBehind)⟩
          · rw [if_neg hLarge] at hMem ⊢
            by_cases hOwn :
                ∀ e ∈ joined, indexOf pending e.2 = e.1
            · rw [discard_own hFresh hUsed hPrefix.sublist
                hOwn]
              have hLater : group ≠ founder :: joined := by
                rintro rfl
                rcases hLost with ⟨e, hJoin, hNotOwn⟩
                exact hNotOwn (hOwn e hJoin)
              rcases
                  ih lobbies used 0 hSortedRest hRest hAtRest
                    hUsed.head.2
                    ⟨group,
                      (List.mem_cons.mp hMem).resolve_left
                        hLater,
                      hSmall, hLost⟩ with
                ⟨e, hIn, hLoses⟩
              exact
                ⟨e, List.mem_cons_of_mem _ hIn,
                  hLoses.cons founder⟩
            · rcases
                  loses_of_not_own hFresh hRest hAtRest
                    hPrefix.subset hOwn with
                ⟨e, hIn, hLoses⟩
              exact
                ⟨e, List.mem_cons_of_mem _ hIn,
                  hLoses.cons founder⟩

end Matchmaking

------------------------------------------------------------
-- Members of Lobbies Are Different Entries
------------------------------------------------------------

namespace Matchmaking

variable {settings : Settings}
variable {now : Rat}
variable {pending : List MatchRequest}
variable {founder : Nat × MatchRequest}
variable {rest : List (Nat × MatchRequest)}
variable {lobbies : List (List MatchRequest)}
variable {used : List Nat}
variable {skip : Nat}

/-
  The first `skip` entries are used; behind them only
  entries that are not given back any more.
-/
def UsedOrGone
    (pending : List MatchRequest)
    (skip : Nat)
    (used : List Nat)
    (rest : List (Nat × MatchRequest)) : Prop :=
  (∀ e ∈ rest.take skip, e.1 ∈ used) ∧
    ∀ e ∈ rest.drop skip, e.1 ∈ used → Gone pending e.1

theorem UsedOrGone.tail
    (hUsed : UsedOrGone pending skip used (founder :: rest)) :
    UsedOrGone pending (skip - 1) used rest := by
  rcases hUsed with ⟨hTake, hDrop⟩
  cases skip with
  | zero =>
      refine ⟨?_, ?_⟩
      · intro e hMem
        simp at hMem
      · intro e hMem
        exact hDrop e (List.mem_cons_of_mem _ hMem)
  | succ skip =>
      rw [List.take_succ_cons] at hTake
      exact
        ⟨fun e hMem =>
            hTake e (List.mem_cons_of_mem _ hMem),
          hDrop⟩

/- The first founder whose index is unused. -/
theorem UsedOrGone.gone
    (hUsed : UsedOrGone pending skip used (founder :: rest))
    (hNew : founder.1 ∉ used) :
    ∀ e ∈ rest, e.1 ∈ used → Gone pending e.1 := by
  rcases hUsed with ⟨hTake, hDrop⟩
  cases skip with
  | zero =>
      intro e hMem
      exact hDrop e (List.mem_cons_of_mem _ hMem)
  | succ skip =>
      rw [List.take_succ_cons] at hTake
      exact absurd (hTake founder List.mem_cons_self) hNew

/-
  In the sorted list the joiners of a founder are all unused
  entries up to the last of them.
-/
theorem joined_eq_filter
    (settings : Settings)
    (now : Rat)
    (used : List Nat)
    (hSorted : (founder :: rest).Pairwise EloLe)
    (n : Nat) :
    ∃ k,
      (candidates settings now founder used rest).take n =
        (rest.take k).filter (fun e => e.1 ∉ used) := by
  have hSplit :
      candidates settings now founder used rest =
        (rest.filter (fun e => e.1 ∉ used)).filter
          (reaches settings now founder) := by
    rw [List.filter_filter]
    unfold candidates
    apply List.filter_congr
    intro e _
    rw [Bool.and_comm, decide_not]
  have hPrefix :
      ((candidates settings now founder used rest).take
          n).IsPrefix
        (rest.filter (fun e => e.1 ∉ used)) := by
    rw [hSplit,
      (convex_reaches settings now).filter_eq_takeWhile
        (hSorted.sublist
          (List.filter_sublist.cons_cons founder))]
    exact
      (List.take_prefix _ _).trans (List.takeWhile_prefix _)
  rw [List.prefix_iff_eq_take.mp hPrefix]
  exact Greedy.exists_take_filter _ rest _

/- The joiners of a founder, whatever is marked. -/
theorem extendLobby_filter
    (settings : Settings)
    (now : Rat)
    (used : List Nat)
    (hSorted : (founder :: rest).Pairwise EloLe)
    (hRest : (rest.map Prod.fst).Nodup) :
    ∃ k joined,
      (rest.take k).filter (fun e => e.1 ∉ used) = joined ∧
        extendLobby settings now founder.2 rest [founder.2]
            used =
          ([founder.2] ++ joined.map Prod.snd,
            (joined.map Prod.fst).reverse ++ used) := by
  rcases
      joined_eq_filter settings now used hSorted
        (max 1
          (settings.lobbySizeMax - [founder.2].length)) with
    ⟨k, hJoined⟩
  refine ⟨k, _, rfl, ?_⟩
  rw [extendLobby_eq settings now founder rest _ used hRest,
    hJoined]

/-
  What the outer loop adds, whatever it gives back: lobbies
  of different entries with unused indices.
-/
structure Draws
    (rest : List (Nat × MatchRequest))
    (lobbies : List (List MatchRequest))
    (used : List Nat)
    (out : List (List MatchRequest) × List Nat)
    (drawn : List (List MatchRequest))
    (members : List (Nat × MatchRequest)) : Prop where
  adds : out.1 = lobbies ++ drawn
  flat : drawn.flatten = members.map Prod.snd
  sub : members ⊆ rest
  nodup : (members.map Prod.fst).Nodup
  unused : ∀ e ∈ members, e.1 ∉ used

variable {out : List (List MatchRequest) × List Nat}
variable {drawn : List (List MatchRequest)}
variable {members joined : List (Nat × MatchRequest)}

theorem Draws.cons
    {used' : List Nat}
    (hDraws : Draws rest lobbies used' out drawn members)
    (hUnused : ∀ e ∈ members, e.1 ∉ used)
    (e : Nat × MatchRequest) :
    Draws (e :: rest) lobbies used out drawn members where
  adds := hDraws.adds
  flat := hDraws.flat
  sub := List.subset_cons_of_subset _ hDraws.sub
  nodup := hDraws.nodup
  unused := hUnused

/- A founder with those that joined. -/
theorem Draws.found
    (founder : Nat × MatchRequest)
    (hDraws :
      Draws rest
        (lobbies ++ [[founder.2] ++ joined.map Prod.snd])
        ((joined.map Prod.fst).reverse ++
          founder.1 :: used)
        out drawn members)
    (hFresh : founder.1 ∉ rest.map Prod.fst)
    (hRest : (rest.map Prod.fst).Nodup)
    (hJoined : joined.Sublist rest)
    (hFree : ∀ e ∈ joined, e.1 ∉ founder.1 :: used)
    (hNew : founder.1 ∉ used) :
    Draws (founder :: rest) lobbies used out
      (([founder.2] ++ joined.map Prod.snd) :: drawn)
      (founder :: (joined ++ members)) := by
  have hForms :
      Forms rest
        (lobbies ++ [[founder.2] ++ joined.map Prod.snd])
        ((joined.map Prod.fst).reverse ++
          founder.1 :: used)
        (out.1,
          members.map Prod.fst ++
            ((joined.map Prod.fst).reverse ++
              founder.1 :: used))
        drawn members :=
    ⟨hDraws.adds, hDraws.flat, List.Perm.refl _, hDraws.sub,
      hDraws.nodup, hDraws.unused⟩
  rcases founder with ⟨i, req⟩
  rcases hForms.found hFresh hRest hJoined hFree hNew with
    ⟨hAdds, hFlat, _, hSub, hNodup, hUnused⟩
  exact ⟨hAdds, hFlat, hSub, hNodup, hUnused⟩

/- The entries behind a lobby that was just formed. -/
theorem usedOrGone_formed
    (hGone : ∀ e ∈ rest, e.1 ∈ used → Gone pending e.1)
    (hFresh : founder.1 ∉ rest.map Prod.fst)
    (hRest : (rest.map Prod.fst).Nodup)
    {joined : List (Nat × MatchRequest)}
    {k : Nat}
    (hJoined :
      (rest.take k).filter
        (fun e => e.1 ∉ founder.1 :: used) = joined) :
    UsedOrGone pending k
      ((joined.map Prod.fst).reverse ++ founder.1 :: used)
      rest := by
  constructor
  · intro e hMem
    rw [List.mem_append, List.mem_reverse]
    by_cases hOld : e.1 ∈ founder.1 :: used
    · exact Or.inr hOld
    · left
      apply List.mem_map_of_mem
      rw [← hJoined, List.mem_filter]
      exact ⟨hMem, decide_eq_true hOld⟩
  · intro e hMem hIn
    have hInRest := List.mem_of_mem_drop hMem
    rw [List.mem_append, List.mem_reverse, List.mem_cons]
      at hIn
    rcases hIn with hJoin | hFounder | hOld
    · exfalso
      rcases List.mem_map.mp hJoin with ⟨e', hIn, hEqual⟩
      rw [← hJoined] at hIn
      have hTake := (List.mem_filter.mp hIn).1
      rw [← List.take_append_drop k rest, List.map_append,
        List.nodup_append'] at hRest
      exact
        hRest.2.2 (List.mem_map_of_mem hTake)
          (hEqual ▸ List.mem_map_of_mem hMem)
    · exact absurd hFounder.symm (ne_of_fresh hFresh e hInRest)
    · exact hGone e hInRest hOld

/- The entries behind a founder that stays alone. -/
theorem usedOrGone_released
    (founder : Nat × MatchRequest)
    (hGone : ∀ e ∈ rest, e.1 ∈ used → Gone pending e.1)
    (hRest : (rest.map Prod.fst).Nodup)
    (hAt : ∀ e ∈ rest, pending[e.1]? = some e.2)
    {joined : List (Nat × MatchRequest)}
    (hJoined : joined ⊆ rest) :
    UsedOrGone pending 0
      (discard
        ((joined.map Prod.fst).reverse ++ founder.1 :: used)
        (founder.1 ::
          (joined.map Prod.snd).map (indexOf pending)))
      rest := by
  constructor
  · intro e hMem
    simp at hMem
  · intro e hMem hIn
    unfold discard at hIn
    rw [List.drop_zero] at hMem
    rw [List.mem_filter, decide_eq_true_eq, List.mem_append,
      List.mem_reverse, List.mem_cons, List.mem_cons,
      not_or, List.map_map] at hIn
    rcases hIn with
      ⟨hJoin | hFounder | hOld, hOther, hNotFound⟩
    · rcases List.mem_map.mp hJoin with ⟨e', hIn, hEqual⟩
      have hSame : e' = e :=
        List.inj_on_of_nodup_map hRest (hJoined hIn) hMem
          hEqual
      rw [hSame] at hIn
      apply gone_of_indexOf_ne (hAt e hMem)
      intro hOwn
      exact
        hNotFound (List.mem_map.mpr ⟨e, hIn, hOwn⟩)
    · exact absurd hFounder hOther
    · exact hGone e hMem hOld

/- The outer loop, by induction on the entries it has left. -/
theorem formLobbies_draws
    (settings : Settings)
    (now : Rat)
    (rest : List (Nat × MatchRequest))
    (lobbies : List (List MatchRequest))
    (used : List Nat)
    (skip : Nat)
    (hSorted : rest.Pairwise EloLe)
    (hRest : (rest.map Prod.fst).Nodup)
    (hAt : ∀ e ∈ rest, pending[e.1]? = some e.2)
    (hUsed : UsedOrGone pending skip used rest) :
    ∃ drawn members,
      Draws rest lobbies used
        (formLobbies settings now pending rest lobbies used)
        drawn members := by
  induction rest generalizing lobbies used skip with
  | nil =>
      refine ⟨[], [], ?_, rfl, List.Subset.refl _,
        List.nodup_nil, ?_⟩
      · simp [formLobbies]
      · intro e hMem
        cases hMem
  | cons founder rest ih =>
      rw [List.map_cons, List.nodup_cons] at hRest
      rcases hRest with ⟨hFresh, hRest⟩
      have hSortedRest := (List.pairwise_cons.mp hSorted).2
      have hAtRest :
          ∀ e ∈ rest, pending[e.1]? = some e.2 :=
        fun e hMem => hAt e (List.mem_cons_of_mem _ hMem)
      by_cases hSkip : founder.1 ∈ used
      · rw [formLobbies_used hSkip]
        rcases
            ih lobbies used (skip - 1) hSortedRest hRest
              hAtRest hUsed.tail with
          ⟨drawn, members, hDraws⟩
        exact
          ⟨drawn, members, hDraws.cons hDraws.unused founder⟩
      · have hGone := hUsed.gone hSkip
        rcases
            extendLobby_filter settings now
              (founder.1 :: used) hSorted hRest with
          ⟨k, joined, hDef, hEq⟩
        have hSub : joined.Sublist rest := by
          rw [← hDef]
          exact
            List.filter_sublist.trans
              (List.take_sublist _ _)
        have hFree :
            ∀ e ∈ joined, e.1 ∉ founder.1 :: used := by
          intro e hMem
          rw [← hDef, List.mem_filter] at hMem
          exact of_decide_eq_true hMem.2
        have hOther := ne_of_fresh hFresh
        rcases founder with ⟨i, req⟩
        rw [formLobbies, if_neg hSkip, hEq]
        simp only
        split
        · rcases
              ih _ _ k hSortedRest hRest hAtRest
                (usedOrGone_formed hGone hFresh hRest
                  hDef) with
            ⟨drawn, members, hDraws⟩
          exact
            ⟨_, _,
              hDraws.found (i, req) hFresh hRest hSub hFree
                hSkip⟩
        · rcases
              ih lobbies _ 0 hSortedRest hRest hAtRest
                (usedOrGone_released (i, req) hGone hRest
                  hAtRest hSub.subset) with
            ⟨drawn, members, hDraws⟩
          refine ⟨drawn, members, hDraws.cons ?_ (i, req)⟩
          intro e hMem hUsedOld
          have hIn := hDraws.sub hMem
          apply hDraws.unused e hMem
          apply
            mem_discard_of_gone (hGone e hIn hUsedOld)
              (hOther e hIn).symm
          rw [List.mem_append, List.mem_reverse]
          exact Or.inr (List.mem_cons_of_mem _ hUsedOld)

end Matchmaking
