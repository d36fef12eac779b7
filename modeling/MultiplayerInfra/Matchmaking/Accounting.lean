import MultiplayerInfra.Matchmaking.Loop
import MultiplayerInfra.Machine.Run

/-
  Where a matchmaking request can be: in the queue, in a
  lobby that waits for a room, or notified.

  Key definitions include:
    * `Matchmaking.Accounted`
    * `Matchmaking.KeepsLobby`
    * `Matchmaking.NobodyDropped`
    * `Matchmaking.Kept`

  Key theorems include:
    * `Matchmaking.kept_iterate`
    * `Matchmaking.nobody_lost`

  A lobby leaves the loop for other reasons than a published
  notification; the condition excludes them.
-/

------------------------------------------------------------
-- The Condition
------------------------------------------------------------

namespace Matchmaking

/- The requests of the lobbies that wait for a room. -/
def State.inLobbies
    (s : State) : List MatchRequest :=
  s.pendingLobbies.flatMap (fun e => e.1.members)

/- Every request is in exactly one place. -/
def Accounted (s : State) : Prop :=
  ∀ r ∈ s.added,
    s.pending.count r + s.inLobbies.count r +
      s.resolved.count r = 1

instance (s : State) : Decidable (Accounted s) :=
  inferInstanceAs (Decidable
    (∀ r ∈ s.added,
      s.pending.count r + s.inLobbies.count r +
        s.resolved.count r = 1))

/- A room is claimed and the lobby is notified of it. -/
def Attempt.Assigns (a : Attempt) : Prop :=
  a.room ≠ none ∧ a.publishes = true

instance (a : Attempt) : Decidable a.Assigns :=
  inferInstanceAs (Decidable
    (a.room ≠ none ∧ a.publishes = true))

/-
  The lobby is notified of its room, or it has none and may
  be retried once more.
-/
def KeepsLobby (e : (Lobby × Nat) × Attempt) : Prop :=
  (e.2.room ≠ none → e.2.publishes = true) ∧
    (e.2.room = none → e.1.2 < maxScaleRetries)

instance
    (e : (Lobby × Nat) × Attempt) :
    Decidable (KeepsLobby e) :=
  inferInstanceAs (Decidable
    ((e.2.room ≠ none → e.2.publishes = true) ∧
      (e.2.room = none → e.1.2 < maxScaleRetries)))

/-
  No new lobby is dropped: no claim for one raises, and each
  that gets a room is notified of it.
-/
def NewLobbiesKept
    (settings : Settings)
    (s : State)
    (t : Tick) : Prop :=
  matchTickRaises settings s.pending ∨
    LooksUpOwn settings s.pending ∧
      ∀ k < (matchTick settings t.matchNow
          s.pending).1.length,
        ¬ (t.attempts k).Raises ∧
          ((t.attempts k).room ≠ none →
            (t.attempts k).publishes = true)

instance
    (settings : Settings)
    (s : State)
    (t : Tick) :
    Decidable (NewLobbiesKept settings s t) :=
  inferInstanceAs (Decidable
    (matchTickRaises settings s.pending ∨
      LooksUpOwn settings s.pending ∧
        ∀ k < (matchTick settings t.matchNow
            s.pending).1.length,
          ¬ (t.attempts k).Raises ∧
            ((t.attempts k).room ≠ none →
              (t.attempts k).publishes = true)))

/- The requests that expire in an iteration. -/
def State.expired
    (s : State)
    (settings : Settings)
    (t : Tick) : List MatchRequest :=
  (expireRequests (settings.matchTimeoutSeconds * 2 : Int)
    t.expireNow s.pending).1

/- The queue in which `match_tick` finds its requests. -/
def State.queued
    (s : State)
    (settings : Settings)
    (t : Tick) : State :=
  t.arrivals.foldl State.addRequest (s.expire settings t)

/-
  The condition on an iteration.  If a claim of the retry
  pass raises, no lobby may have been notified before in the
  pass, since the list is kept as it was.
-/
def NobodyDropped
    (settings : Settings)
    (s : State) : Act → Prop
| .addRequest _ => True
| .iterate t =>
    (∀ k < (s.expired settings t).length,
      t.expirePublishes k = true) ∧
    if ∃ e ∈ withAttempts t.retries s.pendingLobbies,
        e.2.Raises then
      ∀ e ∈
          (withAttempts t.retries
            s.pendingLobbies).takeWhile
              (fun e => ¬ e.2.Raises),
        ¬ e.2.Assigns
    else
      (∀ e ∈ withAttempts t.retries s.pendingLobbies,
        KeepsLobby e) ∧
      NewLobbiesKept settings (s.queued settings t) t

instance decidableNobodyDropped
    (settings : Settings)
    (s : State) :
    (act : Act) → Decidable (NobodyDropped settings s act)
| .addRequest _ => inferInstanceAs (Decidable True)
| .iterate t =>
    inferInstanceAs (Decidable
      ((∀ k < (s.expired settings t).length,
        t.expirePublishes k = true) ∧
        if ∃ e ∈ withAttempts t.retries s.pendingLobbies,
            e.2.Raises then
          ∀ e ∈
              (withAttempts t.retries
                s.pendingLobbies).takeWhile
                  (fun e => ¬ e.2.Raises),
            ¬ e.2.Assigns
        else
          (∀ e ∈ withAttempts t.retries s.pendingLobbies,
            KeepsLobby e) ∧
          NewLobbiesKept settings (s.queued settings t) t))

end Matchmaking

------------------------------------------------------------
-- Queue and Expiry
------------------------------------------------------------

namespace Matchmaking

/-
  The three places hold exactly the requests ever added, and
  these are distinct objects.
-/
structure Kept (s : State) : Prop where
  distinct : Distinct s.added
  numbered :
    ∀ r ∈ s.added, r.objectId < s.added.length
  perm :
    (s.pending ++ (s.inLobbies ++ s.resolved)).Perm s.added

variable {settings : Settings}
variable {s : State}

theorem Kept.accounted
    (hKept : Kept s) :
    Accounted s := by
  intro r hMem
  have hNodup : s.added.Nodup :=
    List.Nodup.of_map _ hKept.distinct
  have hCount := hKept.perm.count_eq r
  rw [List.count_append, List.count_append,
    List.count_eq_one_of_mem hNodup hMem] at hCount
  omega

theorem kept_empty : Kept State.empty where
  distinct := List.nodup_nil
  numbered := by
    intro r hMem
    cases hMem
  perm := List.Perm.refl _

theorem kept_addRequest
    (hKept : Kept s)
    (arrival : Arrival) :
    Kept (s.addRequest arrival) := by
  refine ⟨?_, ?_, ?_⟩
  · simp only [State.addRequest, Distinct, List.map_append,
      List.map_cons, List.map_nil]
    refine List.nodup_append'.mpr
      ⟨hKept.distinct, List.nodup_singleton _, ?_⟩
    intro n hOld hNew
    rcases List.mem_map.mp hOld with ⟨r, hMem, rfl⟩
    have hLt := hKept.numbered r hMem
    rw [List.mem_singleton.mp hNew] at hLt
    exact absurd hLt (lt_irrefl _)
  · intro r hMem
    simp only [State.addRequest, List.length_append,
      List.length_singleton] at hMem ⊢
    rcases List.mem_append.mp hMem with hOld | hNew
    · exact Nat.lt_succ_of_lt (hKept.numbered r hOld)
    · rw [List.mem_singleton.mp hNew]
      exact Nat.lt_succ_self _
  · have hPerm := hKept.perm
    rw [List.perm_iff_count] at hPerm ⊢
    intro r
    have hCount := hPerm r
    simp only [State.addRequest, State.inLobbies,
      List.count_append] at hCount ⊢
    omega

theorem kept_addRequests
    (hKept : Kept s)
    (arrivals : List Arrival) :
    Kept (arrivals.foldl State.addRequest s) := by
  induction arrivals generalizing s with
  | nil => exact hKept
  | cons arrival arrivals ih =>
      exact ih (kept_addRequest hKept arrival)

/- The pending requests are distinct objects. -/
theorem Kept.distinct_pending
    (hKept : Kept s) :
    Distinct s.pending := by
  have hAll :
      Distinct
        (s.pending ++ (s.inLobbies ++ s.resolved)) :=
    (hKept.perm.map _).nodup_iff.mpr hKept.distinct
  unfold Distinct at hAll
  rw [List.map_append] at hAll
  exact (List.nodup_append'.mp hAll).1

/- Every expired request is notified. -/
theorem kept_expire
    {t : Tick}
    (hKept : Kept s)
    (hPublished :
      ∀ k < (s.expired settings t).length,
        t.expirePublishes k = true) :
    Kept (s.expire settings t) := by
  refine ⟨hKept.distinct, hKept.numbered, ?_⟩
  have hSplit :=
    expireRequests_perm
      (settings.matchTimeoutSeconds * 2 : Int) t.expireNow
      hKept.distinct_pending
  have hAll :
      ((s.expired settings t).zipIdx.filter (fun e =>
          t.expirePublishes e.2)).map Prod.fst =
        s.expired settings t := by
    have hEvery :
        (s.expired settings t).zipIdx.filter (fun e =>
            t.expirePublishes e.2) =
          (s.expired settings t).zipIdx := by
      rw [List.filter_eq_self]
      intro e hMem
      exact hPublished e.2 (by
        have hLt := List.snd_lt_of_mem_zipIdx hMem
        simpa using hLt)
    rw [hEvery]
    exact List.zipIdx_map_fst 0 _
  have hPerm := hKept.perm
  rw [List.perm_iff_count] at hSplit hPerm ⊢
  intro r
  have hBefore := hPerm r
  have hPending := hSplit r
  have hNotified :
      (s.expire settings t).resolved =
        s.expired settings t ++ s.resolved := by
    rw [← hAll]
    rfl
  rw [hNotified]
  simp only [State.expire, State.inLobbies, State.expired,
    List.count_append] at hBefore hPending ⊢
  omega

end Matchmaking

------------------------------------------------------------
-- The Retry Pass
------------------------------------------------------------

namespace Matchmaking

variable {settings : Settings}
variable {s : State}

/- The requests of the lobbies in a list. -/
def membersOf
    (lobbies : List (Lobby × Nat)) :
    List MatchRequest :=
  lobbies.flatMap (fun e => e.1.members)

/- A raised pass that has notified nobody changes nothing. -/
theorem retryPass_resolved_of_raised
    (s : State)
    (stillPending : List (Lobby × Nat))
    (tries : List ((Lobby × Nat) × Attempt))
    (hRaises : ∃ e ∈ tries, e.2.Raises)
    (hNobody :
      ∀ e ∈ tries.takeWhile (fun e => ¬ e.2.Raises),
        ¬ e.2.Assigns) :
    (s.retryPass stillPending tries).1.resolved =
      s.resolved := by
  induction tries generalizing s stillPending with
  | nil =>
      rcases hRaises with ⟨e, hMem, _⟩
      cases hMem
  | cons e rest ih =>
      rcases e with ⟨⟨lobby, retry⟩, a⟩
      rw [State.retryPass]
      split
      · rfl
      · rename_i hClaims
        rw [List.takeWhile_cons_of_pos (by
          simpa using hClaims)] at hNobody
        have hRest : ∃ e ∈ rest, e.2.Raises :=
          ((List.exists_mem_cons_iff _ _ _).mp
            hRaises).resolve_left hClaims
        have hLater :
            ∀ e ∈ rest.takeWhile (fun e => ¬ e.2.Raises),
              ¬ e.2.Assigns :=
          fun e hMem =>
            hNobody e (List.mem_cons_of_mem _ hMem)
        split
        · rename_i room hRoom
          have hUnpublished : ¬ a.publishes = true := by
            intro hPublishes
            exact hNobody ((lobby, retry), a)
              List.mem_cons_self
              ⟨by simp [hRoom], hPublishes⟩
          rw [ih _ _ hRest hLater]
          simp [State.assignLobby_resolved, hUnpublished]
        · split
          · rw [ih _ _ hRest hLater]
            rfl
          · rw [ih _ _ hRest hLater]
            rfl

/-
  A completed pass that keeps every lobby: its requests are
  notified or still in a lobby.
-/
theorem retryPass_perm
    (s : State)
    (stillPending : List (Lobby × Nat))
    (tries : List ((Lobby × Nat) × Attempt))
    (hClaims : ∀ e ∈ tries, ¬ e.2.Raises)
    (hKeeps : ∀ e ∈ tries, KeepsLobby e) :
    ∃ kept,
      (s.retryPass stillPending tries).2 = some kept ∧
      (membersOf kept ++
          (s.retryPass stillPending
            tries).1.resolved).Perm
        (membersOf stillPending ++
          (membersOf (tries.map Prod.fst) ++
            s.resolved)) := by
  induction tries generalizing s stillPending with
  | nil =>
      exact ⟨stillPending, rfl, by
        simp [State.retryPass, membersOf]⟩
  | cons e rest ih =>
      rcases e with ⟨⟨lobby, retry⟩, a⟩
      have hHead := hKeeps _ List.mem_cons_self
      have hClaimsRest : ∀ e ∈ rest, ¬ e.2.Raises :=
        fun e hMem =>
          hClaims e (List.mem_cons_of_mem _ hMem)
      have hKeepsRest : ∀ e ∈ rest, KeepsLobby e :=
        fun e hMem =>
          hKeeps e (List.mem_cons_of_mem _ hMem)
      rw [State.retryPass,
        if_neg (hClaims _ List.mem_cons_self)]
      split
      · rename_i room hRoom
        have hPublishes : a.publishes = true :=
          hHead.1 (by simp [hRoom])
        rcases
            ih
              ((s.take lobby a).assignLobby lobby room
                a).lowerDeficit
              stillPending hClaimsRest hKeepsRest with
          ⟨kept, hKept, hPerm⟩
        refine ⟨kept, hKept, hPerm.trans ?_⟩
        rw [List.perm_iff_count]
        intro r
        simp only [membersOf, State.lowerDeficit_resolved,
          State.assignLobby_resolved, State.take_resolved,
          hPublishes, if_true, List.map_cons,
          List.flatMap_cons, List.count_append]
        omega
      · rename_i hRoom
        rw [if_pos (hHead.2 hRoom)]
        rcases
            ih (s.take lobby a)
              (stillPending ++ [(lobby, retry + 1)])
              hClaimsRest hKeepsRest with
          ⟨kept, hKept, hPerm⟩
        refine ⟨kept, hKept, hPerm.trans ?_⟩
        rw [List.perm_iff_count]
        intro r
        simp only [membersOf, State.take_resolved,
          List.map_cons, List.flatMap_cons,
          List.flatMap_append, List.flatMap_nil,
          List.count_append, List.append_nil]
        omega

end Matchmaking

------------------------------------------------------------
-- New Lobbies
------------------------------------------------------------

namespace Matchmaking

variable {settings : Settings}
variable {s : State}

/- The loop over new lobbies leaves the queue alone. -/
theorem assignPass_frame
    (s : State)
    (tries : List (Lobby × Attempt)) :
    (s.assignPass tries).pending = s.pending ∧
      (s.assignPass tries).added = s.added ∧
      (s.assignPass tries).formed = s.formed := by
  induction tries generalizing s with
  | nil => exact ⟨rfl, rfl, rfl⟩
  | cons e rest ih =>
      rcases e with ⟨lobby, a⟩
      rw [State.assignPass]
      split
      · exact ⟨rfl, rfl, rfl⟩
      · split
        · rename_i room _
          simpa using
            ih ((s.take lobby a).assignLobby lobby room a)
        · simpa using
            ih
              { s.take lobby a with
                scaleUpDeficit := s.scaleUpDeficit + 1
                pendingLobbies :=
                  s.pendingLobbies ++ [(lobby, 0)] }

/- Each new lobby is notified, or waits for a room. -/
theorem assignPass_perm
    (s : State)
    (tries : List (Lobby × Attempt))
    (hKeeps :
      ∀ e ∈ tries, ¬ e.2.Raises ∧
        (e.2.room ≠ none → e.2.publishes = true)) :
    ((s.assignPass tries).inLobbies ++
        (s.assignPass tries).resolved).Perm
      (s.inLobbies ++
        ((tries.map Prod.fst).flatMap Lobby.members ++
          s.resolved)) := by
  induction tries generalizing s with
  | nil => simp [State.assignPass]
  | cons e rest ih =>
      rcases e with ⟨lobby, a⟩
      have hHead := hKeeps _ List.mem_cons_self
      have hRest :
          ∀ e ∈ rest, ¬ e.2.Raises ∧
            (e.2.room ≠ none → e.2.publishes = true) :=
        fun e hMem =>
          hKeeps e (List.mem_cons_of_mem _ hMem)
      rw [State.assignPass, if_neg hHead.1]
      split
      · rename_i room hRoom
        have hPublishes : a.publishes = true :=
          hHead.2 (by simp [hRoom])
        refine (ih _ hRest).trans ?_
        rw [List.perm_iff_count]
        intro r
        simp only [State.inLobbies,
          State.assignLobby_pendingLobbies,
          State.take_pendingLobbies,
          State.assignLobby_resolved, State.take_resolved,
          hPublishes, if_true, List.map_cons,
          List.flatMap_cons, List.count_append]
        omega
      · refine (ih _ hRest).trans ?_
        rw [List.perm_iff_count]
        intro r
        simp only [State.inLobbies, State.take_resolved,
          List.map_cons, List.flatMap_cons,
          List.flatMap_append, List.flatMap_nil,
          List.count_append, List.append_nil]
        omega

/- The numbered lobbies have the members that were formed. -/
theorem flatMap_members_matchTick
    (s : State)
    (settings : Settings)
    (now : Rat) :
    (s.matchTick settings now).2.flatMap Lobby.members =
      (matchTick settings now s.pending).1.flatten := by
  simp only [State.matchTick, List.flatMap_map]
  rw [List.flatMap_def]
  exact congrArg List.flatten (List.zipIdx_map_fst 0 _)

theorem kept_matchNew
    {t : Tick}
    (hKept : Kept s)
    (hNew : NewLobbiesKept settings s t) :
    Kept (s.matchNew settings t) := by
  unfold State.matchNew
  split
  · refine ⟨hKept.distinct, hKept.numbered, ?_⟩
    exact
      ((List.perm_insertionSort _ s.pending).append_right
        _).trans hKept.perm
  · rename_i hReturns
    rcases hNew.resolve_left hReturns with ⟨hOwn, hAttempts⟩
    have hTries :
        ∀ e ∈ withAttempts t.attempts
            (s.matchTick settings t.matchNow).2,
          ¬ e.2.Raises ∧
            (e.2.room ≠ none → e.2.publishes = true) :=
      forall_attempts_matchTick
        (P := fun a =>
          ¬ a.Raises ∧ (a.room ≠ none → a.publishes = true))
        hAttempts
    have hFrame :=
      assignPass_frame
        (s.matchTick settings t.matchNow).1
        (withAttempts t.attempts
          (s.matchTick settings t.matchNow).2)
    change
      Kept
        ((s.matchTick settings t.matchNow).1.assignPass
          (withAttempts t.attempts
            (s.matchTick settings t.matchNow).2))
    refine ⟨?_, ?_, ?_⟩
    · rw [hFrame.2.1]
      exact hKept.distinct
    · rw [hFrame.2.1]
      exact hKept.numbered
    · have hSplit := matchTick_perm t.matchNow hOwn
      have hAssigned :=
        assignPass_perm
          (s.matchTick settings t.matchNow).1 _ hTries
      have hPerm := hKept.perm
      have hQueue :
          (s.matchTick settings t.matchNow).1.pending =
            (matchTick settings t.matchNow s.pending).2 :=
        rfl
      have hLobbies :
          (s.matchTick settings t.matchNow).1.inLobbies =
            s.inLobbies :=
        rfl
      have hResolved :
          (s.matchTick settings t.matchNow).1.resolved =
            s.resolved :=
        rfl
      have hAdded :
          (s.matchTick settings t.matchNow).1.added =
            s.added :=
        rfl
      rw [map_fst_withAttempts, flatMap_members_matchTick,
        hLobbies, hResolved] at hAssigned
      rw [hFrame.1, hFrame.2.1, hQueue, hAdded]
      rw [List.perm_iff_count] at hSplit hAssigned hPerm ⊢
      intro r
      have hOld := hSplit r
      have hNew := hAssigned r
      have hCount := hPerm r
      simp only [List.count_append] at hOld hNew hCount ⊢
      omega

end Matchmaking

------------------------------------------------------------
-- Runs
------------------------------------------------------------

namespace Matchmaking

variable {settings : Settings}
variable {s : State}

/- A state that differs only in fields that do not count. -/
theorem Kept.of_eq
    {s' : State}
    (hKept : Kept s)
    (hPending : s'.pending = s.pending)
    (hLobbies : s'.pendingLobbies = s.pendingLobbies)
    (hAdded : s'.added = s.added)
    (hResolved : s'.resolved = s.resolved) :
    Kept s' := by
  refine ⟨?_, ?_, ?_⟩
  · rw [hAdded]
    exact hKept.distinct
  · rw [hAdded]
    exact hKept.numbered
  · unfold State.inLobbies
    rw [hPending, hLobbies, hAdded, hResolved]
    exact hKept.perm

theorem pending_addRequests
    (s s' : State)
    (arrivals : List Arrival)
    (hPending : s'.pending = s.pending)
    (hAdded : s'.added = s.added) :
    (arrivals.foldl State.addRequest s').pending =
      (arrivals.foldl State.addRequest s).pending := by
  induction arrivals generalizing s s' with
  | nil => exact hPending
  | cons arrival arrivals ih =>
      apply ih
      · simp [State.addRequest, hPending, hAdded]
      · simp [State.addRequest, hAdded]

/- The retry pass leaves the queue of the matcher alone. -/
theorem pending_queued
    (s : State)
    (settings : Settings)
    (t : Tick)
    (kept : List (Lobby × Nat)) :
    (t.arrivals.foldl State.addRequest
        { ((s.expire settings t).retryPass []
            (withAttempts t.retries s.pendingLobbies)).1 with
          pendingLobbies := kept }).pending =
      (s.queued settings t).pending := by
  have hFrame :=
    retryPass_frame (s.expire settings t) []
      (withAttempts t.retries s.pendingLobbies)
  exact
    pending_addRequests (s.expire settings t) _ t.arrivals
      hFrame.1 hFrame.2.2.1

theorem kept_iterate
    {t : Tick}
    (hKept : Kept s)
    (hDropped : NobodyDropped settings s (.iterate t)) :
    Kept (s.iterate settings t) := by
  rcases hDropped with ⟨hExpired, hRest⟩
  have hKept' := kept_expire hKept hExpired
  have hFrame :=
    retryPass_frame (s.expire settings t) []
      (withAttempts t.retries s.pendingLobbies)
  split at hRest
  · -- a claim raised: the list is kept as it was
    rename_i hRaises
    have hResolved :=
      retryPass_resolved_of_raised (s.expire settings t) []
        _ hRaises hRest
    rw [iterate_of_raised
      ((retryPass_eq_none_iff _ _ _).mpr hRaises)]
    exact
      hKept'.of_eq hFrame.1 hFrame.2.1 hFrame.2.2.1 hResolved
  · rename_i hClaims
    have hClaims' :
        ∀ e ∈ withAttempts t.retries s.pendingLobbies,
          ¬ e.2.Raises :=
      fun e hMem hRaises => hClaims ⟨e, hMem, hRaises⟩
    rcases
        retryPass_perm (s.expire settings t) [] _ hClaims'
          hRest.1 with
      ⟨kept, hSome, hPerm⟩
    rw [iterate_of_completed hSome]
    have hAfter :
        Kept
          { ((s.expire settings t).retryPass []
              (withAttempts t.retries
                s.pendingLobbies)).1 with
            pendingLobbies := kept } := by
      refine ⟨?_, ?_, ?_⟩
      · rw [hFrame.2.2.1]
        exact hKept'.distinct
      · rw [hFrame.2.2.1]
        exact hKept'.numbered
      · have hBefore := hKept'.perm
        rw [map_fst_withAttempts] at hPerm
        rw [hFrame.1, hFrame.2.2.1]
        exact (hPerm.append_left _).trans hBefore
    refine
      kept_matchNew (kept_addRequests hAfter t.arrivals) ?_
    unfold NewLobbiesKept
    rw [pending_queued]
    exact hRest.2

theorem kept_step
    {s' : State}
    {act : Act}
    (hKept : Kept s)
    (hDropped : NobodyDropped settings s act)
    (hStep : step settings s act = some s') :
    Kept s' := by
  cases act with
  | addRequest arrival =>
      cases hStep
      exact kept_addRequest hKept arrival
  | iterate t =>
      cases hStep
      exact kept_iterate hKept hDropped

/-
  Every run of the loop whose iterations drop nobody keeps
  every request in exactly one place.
-/
theorem nobody_lost
    (settings : Settings)
    (s : State)
    (hRun :
      Machine.Reaches (step settings)
        (NobodyDropped settings) State.empty s) :
    Accounted s :=
  (hRun.invariant kept_empty kept_step).accounted

end Matchmaking

------------------------------------------------------------
-- Two Players
------------------------------------------------------------

namespace Matchmaking

/- One room is listed and claimed. -/
def claimedRoom
    (room : String)
    (publishes : Bool) : Attempt where
  listing :=
    some
      [{ room := room
         value := "available"
         txn := .done true }]
  publishes := publishes
  releases := true

/- No room is listed. -/
def noRoom : Attempt where
  listing := some []
  publishes := true
  releases := true

/- An iteration in which every lobby gets this attempt. -/
def tickWith (a : Attempt) : Tick where
  expireNow := 2
  expirePublishes := fun _ => true
  retries := fun _ => a
  arrivals := []
  matchNow := 2
  attempts := fun _ => a

/- Ann and Bob queue, and an iteration gives them a room. -/
def twoPlayers (publishes : Bool) : List Act :=
  [.addRequest
      { playerId := "ann", elo := 1200, timestamp := 0 },
    .addRequest
      { playerId := "bob", elo := 1250, timestamp := 1 },
    .iterate (tickWith (claimedRoom "arena" publishes))]

theorem nobody_lost_twoPlayers :
    Accounted
      (Machine.final (step {}) State.empty (twoPlayers true)
        rfl) :=
  nobody_lost {} _
    (Machine.reaches_of_run (Machine.run_eq_final rfl)
      (by decide +kernel))

/- The broker does not take the notification. -/
theorem lobby_lost :
    Machine.Reachable (step {}) State.empty
        (Machine.final (step {}) State.empty
          (twoPlayers false) rfl) ∧
      ¬ Accounted
        (Machine.final (step {}) State.empty
          (twoPlayers false) rfl) :=
  ⟨Machine.reachable_of_run (Machine.run_eq_final rfl),
    by decide +kernel⟩

end Matchmaking
