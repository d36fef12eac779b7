import MultiplayerInfra.Machine.Run
import MultiplayerInfra.Matchmaking.Lobbies

/-
  A matcher over all of its calls: of which requests, and of
  which players, the lobbies of one tick consist.

  Key definitions include:
    * `Matchmaking.Matcher`
    * `Matchmaking.Call`
    * `Matchmaking.Matcher.step`

  Key theorems include:
    * `Matchmaking.lobbies_subperm`
    * `Matchmaking.players_of_lobbies`

  Every accepted message of the queue adds one request; no
  call looks for another request of the same player.
-/

------------------------------------------------------------
-- The Matcher
------------------------------------------------------------

namespace Matchmaking

structure Matcher where
  pending : List MatchRequest
  -- the number of request objects made so far
  created : Nat
deriving DecidableEq

/- `Matcher()`. -/
def Matcher.empty : Matcher where
  pending := []
  created := 0

inductive Call where
  | addRequest
      (playerId : String) (elo : Int) (timestamp : Rat)
  | expireRequests (maxAgeSeconds now : Rat)
  | matchTick (settings : Settings) (now : Rat)
deriving DecidableEq

/- What a call leaves pending. -/
def Matcher.step (m : Matcher) : Call → Option Matcher
| .addRequest playerId elo timestamp =>
    let req : MatchRequest :=
      { objectId := m.created
        playerId := playerId
        elo := elo
        timestamp := timestamp }
    some {
      pending := m.pending ++ [req]
      created := m.created + 1 }
| .expireRequests maxAgeSeconds now =>
    some { m with
      pending :=
        (Matchmaking.expireRequests maxAgeSeconds now
          m.pending).2 }
| .matchTick settings now =>
    some { m with
      pending := (tickOrRaise settings now m.pending).2 }

end Matchmaking

------------------------------------------------------------
-- Lobbies Consist of Pending Requests
------------------------------------------------------------

namespace Matchmaking

/- Different places of a list show different values. -/
theorem map_subperm
    {α β : Type}
    (f : α → β)
    {l l' : List α}
    (hSub : l.Subperm l') :
    (l.map f).Subperm (l'.map f) := by
  rcases hSub with ⟨l₁, hPerm, hSublist⟩
  exact ⟨l₁.map f, hPerm.map f, hSublist.map f⟩

theorem nodup_of_subperm
    {α : Type}
    {l l' : List α}
    (hSub : l.Subperm l')
    (hNodup : l'.Nodup) :
    l.Nodup := by
  rcases hSub with ⟨l₁, hPerm, hSublist⟩
  exact hPerm.nodup_iff.mp (hNodup.sublist hSublist)

/-
  The members of all lobbies of a tick are different places
  of the list of pending requests, whatever is released.
-/
theorem lobbies_subperm
    (settings : Settings)
    (now : Rat)
    (pending : List MatchRequest) :
    (tickOrRaise settings now pending).1.flatten.Subperm
      pending := by
  unfold tickOrRaise
  split
  · exact List.nil_subperm
  · rcases
        formLobbies_draws settings now
          (enumerate (sortByElo pending)) [] [] 0
          (pairwise_entries pending) (nodup_entries _)
          (fun e hMem => getElem?_of_mem_enumerate hMem)
          ⟨fun e hMem => by simp at hMem,
            fun e _ hUsed => by cases hUsed⟩ with
      ⟨drawn, members, hDraws⟩
    have hFlat :
        (matchTick settings now pending).1.flatten =
          members.map Prod.snd := by
      have hAdds := hDraws.adds
      rw [List.nil_append] at hAdds
      rw [← hDraws.flat, ← hAdds]
      rfl
    have hMembers :
        members.Subperm (enumerate (sortByElo pending)) :=
      List.subperm_of_subset
        (List.Nodup.of_map _ hDraws.nodup) hDraws.sub
    have hRequests := map_subperm Prod.snd hMembers
    rw [map_snd_enumerate] at hRequests
    rw [hFlat]
    exact
      hRequests.trans
        (List.perm_insertionSort _ pending).subperm

/- A tick leaves some of the requests pending. -/
theorem left_subperm
    (settings : Settings)
    (now : Rat)
    (pending : List MatchRequest) :
    (tickOrRaise settings now pending).2.Subperm pending := by
  have hSorted :
      (sortByElo pending).Subperm pending :=
    (List.perm_insertionSort _ pending).subperm
  unfold tickOrRaise
  split
  · exact hSorted
  · refine List.Subperm.trans ?_ hSorted
    have hLeft :
        (((enumerate (sortByElo pending)).filter
            (fun e => e.1 ∉
              (formLobbies settings now (sortByElo pending)
                (enumerate (sortByElo pending)) []
                  []).2)).map Prod.snd).Sublist
          ((enumerate (sortByElo pending)).map Prod.snd) :=
      List.filter_sublist.map _
    rw [map_snd_enumerate] at hLeft
    exact hLeft.subperm

/-
  The requests that are pending are different objects, made
  by the calls so far.
-/
structure Numbered (m : Matcher) : Prop where
  distinct : Distinct m.pending
  made : ∀ r ∈ m.pending, r.objectId < m.created

/- Dropping requests keeps the others different. -/
theorem Numbered.subperm
    {m : Matcher}
    {pending : List MatchRequest}
    (hNumbered : Numbered m)
    (hSub : pending.Subperm m.pending) :
    Numbered { m with pending := pending } := by
  constructor
  · exact nodup_of_subperm (map_subperm _ hSub) hNumbered.distinct
  · intro r hMem
    exact hNumbered.made r (hSub.subset hMem)

theorem numbered_step
    {m m' : Matcher}
    {call : Call}
    (hNumbered : Numbered m)
    (hStep : m.step call = some m') :
    Numbered m' := by
  cases call with
  | addRequest playerId elo timestamp =>
      cases hStep
      refine ⟨?_, ?_⟩
      · simp only [Distinct, List.map_append,
          List.map_cons, List.map_nil]
        rw [List.nodup_append']
        refine
          ⟨hNumbered.distinct, List.nodup_singleton _, ?_⟩
        intro i hOld hNew
        rw [List.mem_singleton] at hNew
        rcases List.mem_map.mp hOld with ⟨r, hMem, rfl⟩
        have hMade := hNumbered.made r hMem
        omega
      · intro r hMem
        rcases List.mem_append.mp hMem with hOld | hNew
        · exact
            Nat.lt_succ_of_lt (hNumbered.made r hOld)
        · rw [List.mem_singleton.mp hNew]
          exact Nat.lt_succ_self _
  | expireRequests maxAgeSeconds now =>
      cases hStep
      exact hNumbered.subperm List.filter_sublist.subperm
  | matchTick settings now =>
      cases hStep
      exact hNumbered.subperm (left_subperm settings now _)

/-
  After any calls, the lobbies of a tick consist of different
  requests that were pending; a player is in them at most as
  often as she has requests pending.
-/
theorem players_of_lobbies
    {m : Matcher}
    (hReach : Machine.Reachable Matcher.step .empty m)
    (settings : Settings)
    (now : Rat) :
    (tickOrRaise settings now m.pending).1.flatten ⊆
        m.pending ∧
      Distinct
        (tickOrRaise settings now m.pending).1.flatten ∧
      (∀ playerId,
        ((tickOrRaise settings now m.pending).1.flatten.map
            MatchRequest.playerId).count playerId ≤
          (m.pending.map
            MatchRequest.playerId).count playerId) ∧
      ((m.pending.map MatchRequest.playerId).Nodup →
        (∀ lobby ∈ (tickOrRaise settings now m.pending).1,
          (lobby.map MatchRequest.playerId).Nodup) ∧
        (tickOrRaise settings now m.pending).1.Pairwise
          (fun lobby lobby' =>
            (lobby.map MatchRequest.playerId).Disjoint
              (lobby'.map MatchRequest.playerId))) := by
  have hNumbered : Numbered m :=
    hReach.invariant
      ⟨List.nodup_nil, fun r hMem => by cases hMem⟩
      (fun hNumbered _ hStep => numbered_step hNumbered hStep)
  have hSub := lobbies_subperm settings now m.pending
  have hPlayers := map_subperm MatchRequest.playerId hSub
  refine
    ⟨hSub.subset,
      nodup_of_subperm (map_subperm _ hSub) hNumbered.distinct,
      fun playerId => hPlayers.count_le playerId, ?_⟩
  intro hOnce
  have hNodup := nodup_of_subperm hPlayers hOnce
  rw [List.map_flatten, List.nodup_flatten] at hNodup
  refine ⟨?_, List.pairwise_map.mp hNodup.2⟩
  intro lobby hMem
  exact hNodup.1 _ (List.mem_map_of_mem hMem)

/- Two players with one request each. -/
theorem players_of_lobbies_pair :
    (tickOrRaise {} 1
        (Machine.final Matcher.step .empty
          [.addRequest "ann" 1200 0,
            .addRequest "bob" 1200 1]
          (by decide)).pending).1 =
        [[⟨0, "ann", 1200, 0⟩, ⟨1, "bob", 1200, 1⟩]] ∧
      (∀ lobby ∈
          (tickOrRaise {} 1
            (Machine.final Matcher.step .empty
              [.addRequest "ann" 1200 0,
                .addRequest "bob" 1200 1]
              (by decide)).pending).1,
        (lobby.map MatchRequest.playerId).Nodup) :=
  ⟨by decide +kernel,
    ((players_of_lobbies
      (Machine.reachable_of_run
        (Machine.run_eq_final (by decide)))
      {} 1).2.2.2 (by decide)).1⟩

/- A player who joins twice is matched with herself. -/
theorem player_meets_herself :
    ∃ m,
      Machine.Reachable Matcher.step .empty m ∧
        ∃ lobby ∈ (tickOrRaise {} 1 m.pending).1,
          lobby.map MatchRequest.playerId =
            ["ann", "ann"] :=
  ⟨Machine.final Matcher.step .empty
      [.addRequest "ann" 1200 0, .addRequest "ann" 1200 1]
      (by decide),
    Machine.reachable_of_run
      (Machine.run_eq_final (by decide)),
    [⟨0, "ann", 1200, 0⟩, ⟨1, "ann", 1200, 1⟩],
    by decide +kernel, rfl⟩

end Matchmaking
