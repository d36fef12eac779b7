import MultiplayerInfra.Matchmaking.Accounting
import MultiplayerInfra.Matchmaking.Players
import MultiplayerInfra.Matchmaking.Waiting

/-
  The notifications that an iteration of the matchmaker
  publishes, and the requests they are about.

  Key definitions include:
    * `Matchmaking.Notice`
    * `Matchmaking.foundNotices`
    * `Matchmaking.State.notices`
    * `Matchmaking.Owned`

  Key theorems include:
    * `Matchmaking.resolved_iterate`
    * `Matchmaking.owned_iterate`
    * `Matchmaking.notices_requests`

  A notice is about requests that were added: a lobby is
  made of pending requests, whatever indices it gives back.
-/

------------------------------------------------------------
-- Published Notices
------------------------------------------------------------

namespace Matchmaking

/- What is published to `notifications.exchange`. -/
inductive Notice where
  | expired (request : MatchRequest)
  | found (lobby : Lobby) (room : String)
deriving DecidableEq

/- The requests whose players are listed. -/
def Notice.requests : Notice → List MatchRequest
| .expired request => [request]
| .found lobby _ => lobby.members

/- The published `match.found`, until a claim raises. -/
def foundNotices : List (Lobby × Attempt) → List Notice
| [] => []
| (lobby, a) :: rest =>
    if a.Raises then []
    else
      (if a.publishes then
        (a.room.map (Notice.found lobby)).toList
      else []) ++ foundNotices rest

/- The published `match.expired`. -/
def State.expiredNotices
    (s : State)
    (settings : Settings)
    (t : Tick) : List Notice :=
  ((s.expired settings t).zipIdx.filter (fun e =>
    t.expirePublishes e.2)).map (fun e => .expired e.1)

/- The lobbies of the retry pass with their attempts. -/
def retried
    (tries : List ((Lobby × Nat) × Attempt)) :
    List (Lobby × Attempt) :=
  tries.map (fun e => (e.1.1, e.2))

/- The notices of the lobbies that `match_tick` forms. -/
def State.newNotices
    (s : State)
    (settings : Settings)
    (t : Tick) : List Notice :=
  if matchTickRaises settings s.pending then []
  else
    foundNotices
      (withAttempts t.attempts
        (s.matchTick settings t.matchNow).2)

/- The notices of one turn of `matchmaker_loop`. -/
def State.notices
    (s : State)
    (settings : Settings)
    (t : Tick) : List Notice :=
  let expired := s.expire settings t
  let tries := withAttempts t.retries s.pendingLobbies
  s.expiredNotices settings t ++
    (foundNotices (retried tries) ++
      match expired.retryPass [] tries with
      | (_, none) => []
      | (s', some stillPending) =>
          State.newNotices
            (t.arrivals.foldl State.addRequest
              { s' with pendingLobbies := stillPending })
            settings t)

/- The requests of several notices. -/
def requestsOf (notices : List Notice) : List MatchRequest :=
  notices.flatMap Notice.requests

end Matchmaking

------------------------------------------------------------
-- Notices and Resolved Requests
------------------------------------------------------------

namespace Matchmaking

theorem requestsOf_append
    (notices notices' : List Notice) :
    requestsOf (notices ++ notices') =
      requestsOf notices ++ requestsOf notices' :=
  List.flatMap_append

/- An assignment resolves what its notice is about. -/
theorem assignLobby_resolved_notice
    (s : State)
    (lobby : Lobby)
    (room : String)
    (a : Attempt) :
    (s.assignLobby lobby room a).resolved =
      requestsOf
          (if a.publishes then [.found lobby room] else []) ++
        s.resolved := by
  rw [State.assignLobby_resolved]
  split
  · rw [requestsOf, List.flatMap_singleton]
    rfl
  · rfl

/- A lobby without a room is not notified. -/
theorem foundNotices_of_none
    {lobby : Lobby}
    {a : Attempt}
    {rest : List (Lobby × Attempt)}
    (hClaims : ¬ a.Raises)
    (hRoom : a.room = none) :
    foundNotices ((lobby, a) :: rest) = foundNotices rest := by
  rw [foundNotices, if_neg hClaims, hRoom]
  simp

theorem foundNotices_of_some
    {lobby : Lobby}
    {room : String}
    {a : Attempt}
    {rest : List (Lobby × Attempt)}
    (hClaims : ¬ a.Raises)
    (hRoom : a.room = some room) :
    foundNotices ((lobby, a) :: rest) =
      (if a.publishes then [.found lobby room] else []) ++
        foundNotices rest := by
  rw [foundNotices, if_neg hClaims, hRoom]
  rfl

/- One more lobby is notified before the others. -/
theorem perm_requestsOf_assignLobby
    {out : List MatchRequest}
    {s : State}
    {lobby : Lobby}
    {room : String}
    {a : Attempt}
    {rest : List (Lobby × Attempt)}
    (hClaims : ¬ a.Raises)
    (hRoom : a.room = some room)
    (hPerm :
      out.Perm
        (requestsOf (foundNotices rest) ++
          (s.assignLobby lobby room a).resolved)) :
    out.Perm
      (requestsOf (foundNotices ((lobby, a) :: rest)) ++
        s.resolved) := by
  rw [foundNotices_of_some hClaims hRoom, requestsOf_append,
    List.append_assoc]
  rw [assignLobby_resolved_notice] at hPerm
  exact hPerm.trans (List.perm_append_comm_assoc _ _ _)

/- The retry pass resolves what its notices are about. -/
theorem retryPass_resolved
    (s : State)
    (stillPending : List (Lobby × Nat))
    (tries : List ((Lobby × Nat) × Attempt)) :
    (s.retryPass stillPending tries).1.resolved.Perm
      (requestsOf (foundNotices (retried tries)) ++
        s.resolved) := by
  induction tries generalizing s stillPending with
  | nil => exact .refl _
  | cons e rest ih =>
      rcases e with ⟨⟨lobby, retry⟩, a⟩
      rw [State.retryPass, retried, List.map_cons, ← retried]
      split
      · rename_i hRaises
        rw [foundNotices, if_pos hRaises]
        exact .refl _
      · rename_i hClaims
        split
        · rename_i room hRoom
          exact
            perm_requestsOf_assignLobby (s := s.take lobby a)
              hClaims hRoom
              (ih
                ((s.take lobby a).assignLobby lobby room
                  a).lowerDeficit
                stillPending)
        · rename_i hRoom
          rw [foundNotices_of_none hClaims hRoom]
          split
          · exact ih (s.take lobby a) _
          · exact ih (s.take lobby a).lowerDeficit _

/- The loop over new lobbies does so, too. -/
theorem assignPass_resolved
    (s : State)
    (tries : List (Lobby × Attempt)) :
    (s.assignPass tries).resolved.Perm
      (requestsOf (foundNotices tries) ++ s.resolved) := by
  induction tries generalizing s with
  | nil => exact .refl _
  | cons e rest ih =>
      rcases e with ⟨lobby, a⟩
      rw [State.assignPass]
      split
      · rename_i hRaises
        rw [foundNotices, if_pos hRaises]
        exact .refl _
      · rename_i hClaims
        split
        · rename_i room hRoom
          exact
            perm_requestsOf_assignLobby (s := s.take lobby a)
              hClaims hRoom
              (ih ((s.take lobby a).assignLobby lobby room a))
        · rename_i hRoom
          rw [foundNotices_of_none hClaims hRoom]
          exact ih _

theorem matchNew_resolved
    (s : State)
    (settings : Settings)
    (t : Tick) :
    (s.matchNew settings t).resolved.Perm
      (requestsOf (s.newNotices settings t) ++
        s.resolved) := by
  by_cases hRaises : matchTickRaises settings s.pending
  · rw [State.matchNew, State.newNotices, if_pos hRaises,
      if_pos hRaises]
    exact .refl _
  · rw [matchNew_of_returns t hRaises, State.newNotices,
      if_neg hRaises]
    exact assignPass_resolved _ _

theorem expire_resolved
    (s : State)
    (settings : Settings)
    (t : Tick) :
    (s.expire settings t).resolved =
      requestsOf (s.expiredNotices settings t) ++
        s.resolved := by
  rw [requestsOf, State.expiredNotices, List.flatMap_map]
  exact congrArg (· ++ s.resolved) List.map_eq_flatMap

theorem resolved_addRequests
    (arrivals : List Arrival)
    (s : State) :
    (arrivals.foldl State.addRequest s).resolved =
      s.resolved := by
  induction arrivals generalizing s with
  | nil => rfl
  | cons arrival arrivals ih => exact ih (s.addRequest arrival)

/- What an iteration resolves is what it notifies of. -/
theorem resolved_iterate
    (s : State)
    (settings : Settings)
    (t : Tick) :
    (s.iterate settings t).resolved.Perm
      (requestsOf (s.notices settings t) ++ s.resolved) := by
  have hRetry :=
    retryPass_resolved (s.expire settings t) []
      (withAttempts t.retries s.pendingLobbies)
  rw [expire_resolved] at hRetry
  rw [iterate_eq, State.notices, requestsOf_append,
    requestsOf_append]
  rcases hPass :
      (s.expire settings t).retryPass []
        (withAttempts t.retries s.pendingLobbies) with
    ⟨s', kept⟩
  rw [hPass] at hRetry
  cases kept with
  | none =>
      rw [List.perm_iff_count]
      intro r
      have hCount := hRetry.count_eq r
      simp only [List.count_append, requestsOf,
        List.flatMap_nil, List.count_nil] at hCount ⊢
      omega
  | some stillPending =>
      have hNew :=
        matchNew_resolved
          (t.arrivals.foldl State.addRequest
            { s' with pendingLobbies := stillPending })
          settings t
      rw [resolved_addRequests] at hNew
      rw [List.perm_iff_count]
      intro r
      have hCount := hRetry.count_eq r
      have hMore := hNew.count_eq r
      simp only [List.count_append] at hCount hMore ⊢
      omega

end Matchmaking

------------------------------------------------------------
-- Requests That Were Added
------------------------------------------------------------

namespace Matchmaking

variable {settings : Settings} {s t : State}

/- Every request that is anywhere was added. -/
structure Owned (s : State) : Prop where
  pending : s.pending ⊆ s.added
  lobbies :
    ∀ e ∈ s.pendingLobbies, e.1.members ⊆ s.added
  resolved : s.resolved ⊆ s.added

theorem owned_empty : Owned State.empty where
  pending := List.Subset.refl _
  lobbies := nofun
  resolved := List.Subset.refl _

theorem owned_addRequest
    (hOwned : Owned s)
    (arrival : Arrival) :
    Owned (s.addRequest arrival) where
  pending :=
    List.append_subset.mpr
      ⟨List.subset_append_of_subset_left _ hOwned.pending,
        List.subset_append_right _ _⟩
  lobbies := fun e hMem =>
    List.subset_append_of_subset_left _
      (hOwned.lobbies e hMem)
  resolved :=
    List.subset_append_of_subset_left _ hOwned.resolved

theorem owned_addRequests
    (hOwned : Owned s)
    (arrivals : List Arrival) :
    Owned (arrivals.foldl State.addRequest s) := by
  induction arrivals generalizing s with
  | nil => exact hOwned
  | cons arrival arrivals ih =>
      exact ih (owned_addRequest hOwned arrival)

/- The members of the lobbies that are notified. -/
theorem requestsOf_foundNotices_subset
    {tries : List (Lobby × Attempt)}
    {requests : List MatchRequest}
    (hTries :
      ∀ e ∈ tries, e.1.members ⊆ requests) :
    requestsOf (foundNotices tries) ⊆ requests := by
  induction tries with
  | nil => exact List.nil_subset _
  | cons e rest ih =>
      rcases e with ⟨lobby, a⟩
      have hRest :=
        ih (fun e hMem => hTries e (List.mem_cons_of_mem _ hMem))
      rw [foundNotices]
      split
      · exact List.nil_subset _
      · rw [requestsOf_append]
        refine List.append_subset.mpr ⟨?_, hRest⟩
        split
        · cases a.room with
          | none => exact List.nil_subset _
          | some room =>
              have hFirst := hTries _ List.mem_cons_self
              simpa [requestsOf, Notice.requests] using hFirst
        · exact List.nil_subset _

theorem expiredNotices_subset
    (s : State)
    (settings : Settings)
    (t : Tick) :
    requestsOf (s.expiredNotices settings t) ⊆ s.pending := by
  intro r hMem
  rcases List.mem_flatMap.mp hMem with
    ⟨notice, hNotice, hListed⟩
  rcases List.mem_map.mp hNotice with ⟨⟨r', k⟩, hIn, rfl⟩
  rw [List.mem_singleton.mp hListed]
  have hOld :=
    List.fst_mem_of_mem_zipIdx (List.mem_of_mem_filter hIn)
  exact List.mem_of_mem_filter hOld

theorem owned_expire
    (hOwned : Owned s)
    (tick : Tick) :
    Owned (s.expire settings tick) where
  pending := fun _ hMem =>
    hOwned.pending (List.mem_of_mem_filter hMem)
  lobbies := hOwned.lobbies
  resolved := by
    rw [expire_resolved]
    exact
      List.append_subset.mpr
        ⟨fun _ hMem =>
          hOwned.pending (expiredNotices_subset _ _ _ hMem),
          hOwned.resolved⟩

/- The lobbies that are retried were waiting. -/
theorem retried_members
    {attempts : Nat → Attempt}
    (hOwned : Owned s) :
    ∀ e ∈ retried (withAttempts attempts s.pendingLobbies),
      e.1.members ⊆ s.added := by
  intro e hMem
  rcases List.mem_map.mp hMem with ⟨⟨f, a⟩, hIn, rfl⟩
  have hWaits :=
    List.mem_map_of_mem (f := Prod.fst) hIn
  rw [map_fst_withAttempts] at hWaits
  exact hOwned.lobbies f hWaits

/- The retry pass, whether or not it completes. -/
theorem owned_retryPass
    (hOwned : Owned s)
    (attempts : Nat → Attempt) :
    let pass :=
      s.retryPass [] (withAttempts attempts s.pendingLobbies)
    Owned pass.1 ∧
      ∀ kept, pass.2 = some kept →
        Owned { pass.1 with pendingLobbies := kept } := by
  intro pass
  rcases
      retryPass_frame s []
        (withAttempts attempts s.pendingLobbies) with
    ⟨hPending, hLobbies, hAdded, _⟩
  have hResolved : pass.1.resolved ⊆ s.added := by
    refine
      List.Subset.trans (retryPass_resolved _ _ _).subset ?_
    exact
      List.append_subset.mpr
        ⟨requestsOf_foundNotices_subset
          (retried_members hOwned), hOwned.resolved⟩
  have hQueue : pass.1.pending ⊆ pass.1.added := by
    rw [hPending, hAdded]
    exact hOwned.pending
  refine ⟨⟨hQueue, ?_, ?_⟩, ?_⟩
  · rw [hLobbies, hAdded]
    exact hOwned.lobbies
  · rw [hAdded]
    exact hResolved
  · intro kept hKept
    refine ⟨hQueue, ?_, hAdded ▸ hResolved⟩
    intro e hMem
    change e.1.members ⊆ pass.1.added
    rw [hAdded]
    rcases mem_retryPass hKept hMem with
      hNever | ⟨lobby, retry, hWaits, _, rfl⟩
    · cases hNever
    · rw [map_fst_withAttempts] at hWaits
      exact hOwned.lobbies (lobby, retry) hWaits

/- New lobbies are formed of pending requests. -/
theorem newLobbies_members
    {now : Rat}
    {attempts : Nat → Attempt}
    (hReturns : ¬ matchTickRaises settings s.pending) :
    ∀ e ∈ withAttempts attempts (s.matchTick settings now).2,
      e.1.members ⊆ s.pending := by
  intro e hMem r hIn
  have hFormed :=
    List.mem_map_of_mem (f := Prod.fst) hMem
  rw [map_fst_withAttempts] at hFormed
  have hFlat :
      r ∈ (matchTick settings now s.pending).1.flatten := by
    rw [← flatMap_members_matchTick]
    exact List.mem_flatMap.mpr ⟨e.1, hFormed, hIn⟩
  rw [← tickOrRaise_of_returns hReturns] at hFlat
  exact (lobbies_subperm settings now s.pending).subset hFlat

theorem owned_matchNew
    (hOwned : Owned s)
    (tick : Tick) :
    Owned (s.matchNew settings tick) := by
  by_cases hRaises : matchTickRaises settings s.pending
  · rw [State.matchNew, if_pos hRaises]
    refine ⟨?_, hOwned.lobbies, hOwned.resolved⟩
    exact
      List.Subset.trans
        (List.perm_insertionSort _ s.pending).subset
        hOwned.pending
  · have hMembers :
        ∀ e ∈ withAttempts tick.attempts
            (s.matchTick settings tick.matchNow).2,
          e.1.members ⊆ s.added := fun e hMem =>
      List.Subset.trans (newLobbies_members hRaises e hMem)
        hOwned.pending
    rcases
        assignPass_frame
          (s.matchTick settings tick.matchNow).1
          (withAttempts tick.attempts
            (s.matchTick settings tick.matchNow).2) with
      ⟨hPending, hAdded, _⟩
    rw [matchNew_of_returns tick hRaises]
    refine ⟨?_, ?_, ?_⟩
    · rw [hPending, hAdded]
      have hLeft :=
        left_subperm settings tick.matchNow s.pending
      rw [tickOrRaise_of_returns hRaises] at hLeft
      exact List.Subset.trans hLeft.subset hOwned.pending
    · rw [hAdded]
      intro e hMem
      rcases mem_assignPass hMem with hOld | ⟨_, hNew⟩
      · exact hOwned.lobbies e hOld
      · rcases List.mem_map.mp hNew with ⟨f, hIn, hEq⟩
        rw [← hEq]
        exact hMembers f hIn
    · rw [hAdded]
      refine
        List.Subset.trans (assignPass_resolved _ _).subset ?_
      exact
        List.append_subset.mpr
          ⟨requestsOf_foundNotices_subset hMembers,
            hOwned.resolved⟩

theorem owned_iterate
    (hOwned : Owned s)
    (tick : Tick) :
    Owned (s.iterate settings tick) := by
  have hPass :=
    owned_retryPass
      (owned_expire hOwned tick : Owned
        (s.expire settings tick))
      tick.retries
  rw [iterate_eq]
  split
  · rename_i s' hRaised
    rw [expire_pendingLobbies, hRaised] at hPass
    exact hPass.1
  · rename_i s' stillPending hCompleted
    rw [expire_pendingLobbies, hCompleted] at hPass
    exact
      owned_matchNew
        (owned_addRequests (hPass.2 stillPending rfl) _) tick

/- The requests of the arrivals. -/
theorem mem_added_addRequests
    {arrivals : List Arrival}
    {r : MatchRequest}
    (hMem : r ∈ (arrivals.foldl State.addRequest s).added) :
    r ∈ s.added ∨
      ∃ arrival ∈ arrivals, arrival.playerId = r.playerId := by
  induction arrivals generalizing s with
  | nil => exact .inl hMem
  | cons arrival arrivals ih =>
      rcases ih hMem with hBefore | ⟨later, hIn, hPlayer⟩
      · rcases List.mem_append.mp hBefore with hOld | hNew
        · exact .inl hOld
        · rw [List.mem_singleton.mp hNew]
          exact .inr ⟨arrival, List.mem_cons_self, rfl⟩
      · exact
          .inr ⟨later, List.mem_cons_of_mem _ hIn, hPlayer⟩

theorem matchNew_added
    (s : State)
    (settings : Settings)
    (tick : Tick) :
    (s.matchNew settings tick).added = s.added := by
  by_cases hRaises : matchTickRaises settings s.pending
  · rw [State.matchNew, if_pos hRaises]
  · rw [matchNew_of_returns tick hRaises]
    exact (assignPass_frame _ _).2.1

theorem mem_added_iterate
    {tick : Tick}
    {r : MatchRequest}
    (hMem : r ∈ (s.iterate settings tick).added) :
    r ∈ s.added ∨
      ∃ arrival ∈ tick.arrivals,
        arrival.playerId = r.playerId := by
  have hFrame :=
    (retryPass_frame (s.expire settings tick) []
      (withAttempts tick.retries s.pendingLobbies)).2.2.1
  rw [iterate_eq] at hMem
  split at hMem
  · rename_i s' hRaised
    rw [hRaised] at hFrame
    left
    rw [hFrame] at hMem
    exact hMem
  · rename_i s' stillPending hCompleted
    rw [hCompleted] at hFrame
    rw [matchNew_added] at hMem
    refine (mem_added_addRequests hMem).imp_left ?_
    intro hOld
    change r ∈ s'.added at hOld
    rw [hFrame] at hOld
    exact hOld

/- A notice is about requests that were added. -/
theorem notices_requests
    (hOwned : Owned s)
    (tick : Tick) :
    requestsOf (s.notices settings tick) ⊆
      (s.iterate settings tick).added := by
  have hAfter : Owned (s.iterate settings tick) :=
    owned_iterate hOwned tick
  intro r hMem
  apply hAfter.resolved
  rw [(resolved_iterate s settings tick).mem_iff]
  exact List.mem_append_left _ hMem

end Matchmaking
