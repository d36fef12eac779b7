import MultiplayerInfra.Matchmaking.Grouping

/-
  The lobbies of one tick of the matcher, and the requests
  that it leaves pending.

  Key definitions include:
    * `Matchmaking.tickOrRaise`
    * `Matchmaking.WellFormed`
    * `Matchmaking.Compatible`
    * `Matchmaking.passed`
    * `Matchmaking.OnlyHigherReaches`

  Key theorems include:
    * `Matchmaking.lobbies_wellFormed`
    * `Matchmaking.nobody_left_iff`
    * `Matchmaking.requests_kept_iff`
-/

------------------------------------------------------------
-- One Tick
------------------------------------------------------------

namespace Matchmaking

/-
  `match_tick` as its caller sees it: where the division by
  zero raises there are no lobbies, and the requests stay,
  sorted.
-/
def tickOrRaise
    (settings : Settings)
    (now : Rat)
    (pending : List MatchRequest) :
    List (List MatchRequest) × List MatchRequest :=
  if matchTickRaises settings pending then
    ([], sortByElo pending)
  else matchTick settings now pending

variable {settings : Settings}
variable {now : Rat}
variable {pending : List MatchRequest}

theorem tickOrRaise_of_returns
    (hReturns : ¬ matchTickRaises settings pending)
    (now : Rat) :
    tickOrRaise settings now pending =
      matchTick settings now pending :=
  if_neg hReturns

/- The entries of the sweep are in the order of the ratings. -/
theorem pairwise_entries
    (pending : List MatchRequest) :
    (enumerate (sortByElo pending)).Pairwise EloLe := by
  have hSorted :
      ((enumerate (sortByElo pending)).map
        Prod.snd).Pairwise (fun r r' => r.elo ≤ r'.elo) := by
    rw [map_snd_enumerate]
    exact List.pairwise_insertionSort _ pending
  rw [List.pairwise_map] at hSorted
  exact hSorted

theorem nodup_entries
    (pending : List MatchRequest) :
    ((enumerate pending).map Prod.fst).Nodup := by
  rw [map_fst_enumerate]
  exact List.nodup_range

/- A tick starts with no index used. -/
theorem usedUpTo_start
    (entries : List (Nat × MatchRequest)) :
    UsedUpTo 0 [] entries := by
  constructor
  · intro e hMem
    simp at hMem
  · intro e _ hUsed
    cases hUsed

end Matchmaking

------------------------------------------------------------
-- Well Formed Lobbies
------------------------------------------------------------

namespace Matchmaking

/- What a lobby of the matcher looks like. -/
structure WellFormed
    (settings : Settings)
    (now : Rat)
    (lobby : List MatchRequest) : Prop where
  least : settings.lobbySizeMin ≤ lobby.length
  most : lobby.length ≤ settings.lobbySizeMax
  lowest :
    ∀ first ∈ lobby.head?, ∀ r ∈ lobby,
      first.elo ≤ r.elo
  sorted : lobby.Pairwise (fun r r' => r.elo ≤ r'.elo)
  near :
    ∀ first ∈ lobby.head?, ∀ r ∈ lobby,
      r.elo - first.elo ≤ rangeAllowed settings now first

variable {settings : Settings}
variable {now : Rat}
variable {pending : List MatchRequest}
variable {founder : Nat × MatchRequest}
variable {rest joined : List (Nat × MatchRequest)}
variable {used : List Nat}

/- A founder with enough requests that it reaches. -/
theorem wellFormed_founder
    (founder : Nat × MatchRequest)
    (hMin : 2 ≤ settings.lobbySizeMin)
    (hSorted : (founder :: rest).Pairwise EloLe)
    (hJoined : joined.Sublist rest)
    (hReach :
      ∀ e ∈ joined, reaches settings now founder e = true)
    (hLeast : settings.lobbySizeMin ≤ joined.length + 1)
    (hMost : joined.length + 1 ≤ settings.lobbySizeMax) :
    WellFormed settings now
      ([founder.2] ++ joined.map Prod.snd) := by
  have hLobby :
      ((founder :: joined).map Prod.snd).Pairwise
        (fun r r' => r.elo ≤ r'.elo) :=
    List.pairwise_map.mpr
      (hSorted.sublist (hJoined.cons_cons founder))
  rw [List.map_cons] at hLobby
  have hFirst := (List.pairwise_cons.mp hLobby).1
  have hNear :
      ∀ r ∈ joined.map Prod.snd,
        r.elo - founder.2.elo ≤
          rangeAllowed settings now founder.2 := by
    intro r hMem
    rcases List.mem_map.mp hMem with ⟨e, hIn, rfl⟩
    have hRange := hReach e hIn
    simp only [reaches, decide_eq_true_eq] at hRange
    omega
  refine ⟨?_, ?_, ?_, hLobby, ?_⟩
  · simpa using hLeast
  · simpa using hMost
  · rintro first hHead r hMem
    cases hHead
    rcases List.mem_cons.mp hMem with rfl | hJoin
    · exact le_refl _
    · exact hFirst r hJoin
  · rintro first hHead r hMem
    cases hHead
    rcases List.mem_cons.mp hMem with rfl | hJoin
    · -- somebody joined, so the range is not negative
      have hSome : joined ≠ [] := by
        rintro rfl
        simp only [List.length_nil] at hLeast
        omega
      rcases List.exists_mem_of_ne_nil joined hSome with
        ⟨e, hIn⟩
      have hRange := hReach e hIn
      simp only [reaches, decide_eq_true_eq] at hRange
      omega
    · exact hNear r hJoin

/- Every lobby that the outer loop adds is well formed. -/
theorem wellFormed_formLobbies
    (hMin : 2 ≤ settings.lobbySizeMin)
    (hMax : settings.lobbySizeMin ≤ settings.lobbySizeMax)
    (rest : List (Nat × MatchRequest))
    (lobbies : List (List MatchRequest))
    (used : List Nat)
    (hSorted : rest.Pairwise EloLe)
    (hRest : (rest.map Prod.fst).Nodup)
    (hLobbies :
      ∀ lobby ∈ lobbies, WellFormed settings now lobby) :
    ∀ lobby ∈
        (formLobbies settings now pending rest lobbies
          used).1,
      WellFormed settings now lobby := by
  induction rest generalizing lobbies used with
  | nil => exact hLobbies
  | cons founder rest ih =>
      rw [List.map_cons, List.nodup_cons] at hRest
      rcases hRest with ⟨_, hRest⟩
      have hSortedRest := (List.pairwise_cons.mp hSorted).2
      have hEq :=
        extendLobby_eq settings now founder rest
          [founder.2] (founder.1 :: used) hRest
      simp only [List.length_singleton] at hEq
      generalize hDef :
          (candidates settings now founder (founder.1 :: used)
            rest).take (max 1 (settings.lobbySizeMax - 1)) =
          joined
        at hEq
      have hJoined :
          joined.Sublist
            (candidates settings now founder
              (founder.1 :: used) rest) := by
        rw [← hDef]
        exact List.take_sublist _ _
      have hRoom :
          joined.length + 1 ≤ settings.lobbySizeMax := by
        rw [← hDef, List.length_take]
        omega
      have hReach :
          ∀ e ∈ joined,
            reaches settings now founder e = true := by
        intro e hMem
        have hPasses :=
          (List.mem_filter.mp (hJoined.subset hMem)).2
        exact (Bool.and_eq_true_iff.mp hPasses).2
      rcases founder with ⟨i, req⟩
      rw [formLobbies]
      split
      · exact ih lobbies used hSortedRest hRest hLobbies
      · rw [hEq]
        simp only
        split
        · rename_i hLarge
          apply ih _ _ hSortedRest hRest
          intro lobby hMem
          rcases List.mem_append.mp hMem with hOld | hNew
          · exact hLobbies lobby hOld
          · rw [List.mem_singleton.mp hNew]
            exact
              wellFormed_founder (i, req) hMin hSorted
                (hJoined.trans List.filter_sublist) hReach
                (by simpa [Nat.add_comm] using hLarge)
                hRoom
        · exact ih lobbies _ hSortedRest hRest hLobbies

/- Every lobby that `match_tick` returns is well formed. -/
theorem lobbies_wellFormed
    (settings : Settings)
    (now : Rat)
    (pending : List MatchRequest)
    (hMin : 2 ≤ settings.lobbySizeMin)
    (hMax : settings.lobbySizeMin ≤ settings.lobbySizeMax) :
    ∀ lobby ∈ (tickOrRaise settings now pending).1,
      WellFormed settings now lobby := by
  unfold tickOrRaise
  split
  · intro lobby hMem
    cases hMem
  · refine
      wellFormed_formLobbies hMin hMax _ [] []
        (pairwise_entries pending) (nodup_entries _) ?_
    intro lobby hMem
    cases hMem

/- Three requests, one of which is out of reach. -/
theorem lobbies_wellFormed_three :
    (tickOrRaise {} 0
        [⟨0, "ann", 1100, 0⟩, ⟨1, "bob", 1000, 0⟩,
          ⟨2, "cat", 1500, 0⟩]).1 =
        [[⟨1, "bob", 1000, 0⟩, ⟨0, "ann", 1100, 0⟩]] ∧
      ∀ lobby ∈
          (tickOrRaise {} 0
            [⟨0, "ann", 1100, 0⟩, ⟨1, "bob", 1000, 0⟩,
              ⟨2, "cat", 1500, 0⟩]).1,
        WellFormed {} 0 lobby :=
  ⟨by decide +kernel,
    lobbies_wellFormed {} 0 _ (by decide) (by decide)⟩

end Matchmaking

------------------------------------------------------------
-- Requests Left Pending
------------------------------------------------------------

namespace Matchmaking

/- The requests that the sweep passes over, in its order. -/
def passed
    (settings : Settings)
    (now : Rat)
    (pending : List MatchRequest) : List MatchRequest :=
  (Greedy.passedOver settings.lobbySizeMin
    (considered settings now pending)).map Prod.snd

/- The ratings differ by at most the larger of the ranges. -/
def Compatible
    (settings : Settings)
    (now : Rat)
    (r r' : MatchRequest) : Prop :=
  ((r.elo - r'.elo).natAbs : Int) ≤
    max (rangeAllowed settings now r)
      (rangeAllowed settings now r')

instance
    (settings : Settings)
    (now : Rat)
    (r r' : MatchRequest) :
    Decidable (Compatible settings now r r') :=
  inferInstanceAs (Decidable
    (((r.elo - r'.elo).natAbs : Int) ≤
      max (rangeAllowed settings now r)
        (rangeAllowed settings now r')))

/-
  The difference is within the range of the second request,
  but not within that of the first.
-/
def OnlyHigherReaches
    (settings : Settings)
    (now : Rat)
    (r r' : MatchRequest) : Prop :=
  rangeAllowed settings now r <
      ((r.elo - r'.elo).natAbs : Int) ∧
    ((r.elo - r'.elo).natAbs : Int) ≤
      rangeAllowed settings now r'

instance
    (settings : Settings)
    (now : Rat)
    (r r' : MatchRequest) :
    Decidable (OnlyHigherReaches settings now r r') :=
  inferInstanceAs (Decidable
    (rangeAllowed settings now r <
        ((r.elo - r'.elo).natAbs : Int) ∧
      ((r.elo - r'.elo).natAbs : Int) ≤
        rangeAllowed settings now r'))

variable {settings : Settings}
variable {now : Rat}
variable {pending : List MatchRequest}

theorem Compatible.symm
    {r r' : MatchRequest}
    (hCompatible : Compatible settings now r r') :
    Compatible settings now r' r := by
  unfold Compatible at *
  omega

/-
  While every release is right the lobbies are the groups of
  the sweep, and those that it passes over stay pending.
-/
theorem matchTick_of_releasesOwn
    (hOwn : ReleasesOwn settings now pending) :
    (matchTick settings now pending).1 =
        (Greedy.formed settings.lobbySizeMin
          (considered settings now pending)).map
            (List.map Prod.snd) ∧
      (matchTick settings now pending).2.Perm
        (passed settings now pending) := by
  have hForms :=
    forms_considered (enumerate (sortByElo pending)) [] []
      0 (pairwise_entries pending) (nodup_entries _)
      (usedUpTo_start _) hOwn
  have hLobbies := hForms.adds
  rw [List.nil_append] at hLobbies
  refine ⟨hLobbies, ?_⟩
  have hUsed := hForms.marks
  rw [List.append_nil] at hUsed
  have hLeft :=
    members_append_unused (nodup_entries (sortByElo pending))
      hForms.sub hForms.nodup hUsed
  have hSweep :=
    Greedy.formed_append_passedOver (reaches settings now)
      settings.lobbySizeMin settings.lobbySizeMax 0
      (enumerate (sortByElo pending))
  rw [List.drop_zero] at hSweep
  exact
    ((List.perm_append_left_iff _).mp
      (hLeft.trans hSweep.symm)).map Prod.snd

/- A group of fewer than two has no member to give back. -/
theorem releasesOwn_of_two
    (hMin : settings.lobbySizeMin ≤ 2)
    (now : Rat)
    (pending : List MatchRequest) :
    ReleasesOwn settings now pending := by
  intro group _ hSmall e hMem
  have hLength := List.length_pos_of_mem hMem
  rw [List.length_tail] at hLength
  omega

/- Nobody who is passed over reaches one rated higher. -/
theorem pairwise_passed
    (hMin : settings.lobbySizeMin ≤ 2)
    (now : Rat)
    (pending : List MatchRequest) :
    (passed settings now pending).Pairwise (fun r r' =>
      rangeAllowed settings now r <
        ((r.elo - r'.elo).natAbs : Int)) := by
  have hFar :=
    (convex_reaches settings now).pairwise_passedOver hMin
      settings.lobbySizeMax 0 (pairwise_entries pending)
  unfold passed considered
  rw [List.pairwise_map]
  refine hFar.imp ?_
  intro e e' hNot
  simpa [reaches] using hNot

/-
  With a minimum of two, no two compatible requests are left
  exactly when no request that is passed over is within the
  range of one rated higher alone.
-/
theorem nobody_left_iff
    (settings : Settings)
    (now : Rat)
    (pending : List MatchRequest)
    (hMin : settings.lobbySizeMin = 2)
    (hReturns : ¬ matchTickRaises settings pending) :
    (tickOrRaise settings now pending).2.Pairwise
        (fun r r' => ¬ Compatible settings now r r') ↔
      (passed settings now pending).Pairwise
        (fun r r' =>
          ¬ OnlyHigherReaches settings now r r') := by
  have hLeast : settings.lobbySizeMin ≤ 2 := hMin.le
  have hLeft :=
    (matchTick_of_releasesOwn
      (releasesOwn_of_two hLeast now pending)).2
  have hSymm :
      ∀ {r r' : MatchRequest},
        ¬ Compatible settings now r r' →
          ¬ Compatible settings now r' r := by
    intro r r' hNot hCompatible
    exact hNot hCompatible.symm
  rw [tickOrRaise_of_returns hReturns,
    hLeft.pairwise_iff hSymm]
  constructor
  · intro hNone
    refine hNone.imp ?_
    rintro r r' hNot ⟨_, hReach⟩
    exact hNot (le_trans hReach (le_max_right _ _))
  · intro hNone
    have hBoth :=
      hNone.and (pairwise_passed hLeast now pending)
    refine hBoth.imp ?_
    rintro r r' ⟨hNot, hFar⟩ hCompatible
    refine hNot ⟨hFar, ?_⟩
    unfold Compatible at hCompatible
    omega

/- Old requests that reach nobody who is rated lower. -/
theorem nobody_left_apart :
    (tickOrRaise {} 31
        [⟨0, "ann", 1500, 0⟩, ⟨1, "bob", 1000, 31⟩]).2.Pairwise
      (fun r r' => ¬ Compatible {} 31 r r') :=
  (nobody_left_iff {} 31 _ (by decide) (by decide)).mpr
    (by decide +kernel)

/-
  The one who waited for 31 seconds may be matched within
  250 points, but the lower rated one founds the lobby.
-/
theorem compatible_left_waiting :
    ¬ (tickOrRaise {} 31
        [⟨0, "ann", 1240, 0⟩, ⟨1, "bob", 1000, 31⟩]).2.Pairwise
      (fun r r' => ¬ Compatible {} 31 r r') := by
  decide +kernel

end Matchmaking

------------------------------------------------------------
-- Requests Lost and Kept
------------------------------------------------------------

namespace Matchmaking

variable {settings : Settings}
variable {now : Rat}
variable {pending : List MatchRequest}

/- A wrong release takes a request out of both results. -/
theorem request_lost
    (hDistinct : Distinct pending)
    (hNot : ¬ ReleasesOwn settings now pending) :
    ∃ r ∈ pending,
      r ∉ (matchTick settings now pending).1.flatten ++
        (matchTick settings now pending).2 := by
  have hSame :
      (sortByElo pending).Perm pending :=
    List.perm_insertionSort _ pending
  have hSorted : Distinct (sortByElo pending) :=
    (hSame.map MatchRequest.objectId).nodup_iff.mpr
      hDistinct
  have hEntries :
      ∀ e ∈ enumerate (sortByElo pending),
        ∀ e' ∈ enumerate (sortByElo pending),
          e.2 = e'.2 → e = e' := by
    intro e hMem e' hMem' hRequest
    have hNodup :
        ((enumerate (sortByElo pending)).map
          Prod.snd).Nodup := by
      rw [map_snd_enumerate]
      exact List.Nodup.of_map _ hSorted
    exact List.inj_on_of_nodup_map hNodup hMem hMem' hRequest
  unfold ReleasesOwn at hNot
  simp only [not_forall] at hNot
  rcases hNot with ⟨group, hMem, hSmall, e, hTail, hOther⟩
  rcases
      formLobbies_loses (enumerate (sortByElo pending)) []
        [] 0 (pairwise_entries pending) (nodup_entries _)
        (fun e hMem => getElem?_of_mem_enumerate hMem)
        (usedUpTo_start _)
        ⟨group, hMem, hSmall, e, hTail, hOther⟩ with
    ⟨lost, hLost, hLoses⟩
  rw [List.drop_zero] at hLost
  refine ⟨lost.2, ?_, ?_⟩
  · have hIn :
        lost.2 ∈
          (enumerate (sortByElo pending)).map Prod.snd :=
      List.mem_map_of_mem hLost
    rw [map_snd_enumerate] at hIn
    exact hSame.subset hIn
  · rw [List.mem_append, not_or]
    constructor
    · intro hLobby
      rcases hLoses.absent lost.2 hLobby with
        hNone | ⟨e', hIn, hRequest, hIndex⟩
      · simp at hNone
      · exact
          hIndex
            (congrArg Prod.fst
              (hEntries e' hIn lost hLost hRequest))
    · intro hLeft
      rcases List.mem_map.mp hLeft with
        ⟨e', hIn, hRequest⟩
      rw [List.mem_filter, decide_eq_true_eq] at hIn
      rw [hEntries e' hIn.1 lost hLost hRequest] at hIn
      exact hIn.2 hLoses.marked

/- Right releases lose nobody. -/
theorem matchTick_perm_of_releasesOwn
    (hOwn : ReleasesOwn settings now pending) :
    ((matchTick settings now pending).1.flatten ++
      (matchTick settings now pending).2).Perm pending := by
  rcases matchTick_of_releasesOwn hOwn with
    ⟨hLobbies, hLeft⟩
  have hSweep :=
    (Greedy.formed_append_passedOver
      (reaches settings now) settings.lobbySizeMin
      settings.lobbySizeMax 0
      (enumerate (sortByElo pending))).map Prod.snd
  rw [List.drop_zero, map_snd_enumerate, List.map_append,
    List.map_flatten] at hSweep
  rw [hLobbies]
  exact
    (hLeft.append_left _).trans
      (hSweep.trans (List.perm_insertionSort _ pending))

/-
  The lobbies and the requests left pending are those that
  were pending, each once, exactly when the tick raises or
  every release is right.
-/
theorem requests_kept_iff
    (settings : Settings)
    (now : Rat)
    (pending : List MatchRequest)
    (hDistinct : Distinct pending) :
    ((tickOrRaise settings now pending).1.flatten ++
        (tickOrRaise settings now pending).2).Perm
        pending ↔
      matchTickRaises settings pending ∨
        ReleasesOwn settings now pending := by
  unfold tickOrRaise
  split
  · rename_i hRaises
    simp only [hRaises, true_or, iff_true]
    exact List.perm_insertionSort _ pending
  · rename_i hReturns
    simp only [hReturns, false_or]
    constructor
    · intro hPerm
      by_contra hNot
      rcases request_lost hDistinct hNot with
        ⟨r, hMem, hAbsent⟩
      exact hAbsent (hPerm.mem_iff.mpr hMem)
    · exact fun hOwn => matchTick_perm_of_releasesOwn hOwn

/- Two players wait for a third. -/
theorem requests_kept_two :
    ((tickOrRaise { lobbySizeMin := 3 } 0
          [⟨0, "ann", 1000, 0⟩, ⟨1, "bob", 1000, 0⟩]).1.flatten ++
        (tickOrRaise { lobbySizeMin := 3 } 0
          [⟨0, "ann", 1000, 0⟩, ⟨1, "bob", 1000, 0⟩]).2).Perm
      [⟨0, "ann", 1000, 0⟩, ⟨1, "bob", 1000, 0⟩] :=
  (requests_kept_iff { lobbySizeMin := 3 } 0 _
    (by decide)).mpr (by decide +kernel)

/- Of two equal requests that wait, one is forgotten. -/
theorem equal_request_lost :
    ¬ ((tickOrRaise { lobbySizeMin := 3 } 0
          [⟨0, "ann", 1000, 0⟩, ⟨1, "ann", 1000, 0⟩]).1.flatten ++
        (tickOrRaise { lobbySizeMin := 3 } 0
          [⟨0, "ann", 1000, 0⟩, ⟨1, "ann", 1000, 0⟩]).2).Perm
      [⟨0, "ann", 1000, 0⟩, ⟨1, "ann", 1000, 0⟩] := by
  decide +kernel

end Matchmaking
