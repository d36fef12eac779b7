import MultiplayerInfra.Matchmaking.Accounting
import MultiplayerInfra.Matchmaking.Lobbies

/-
  The gauge of the queue depth against the requests that
  wait, in the queue or in a lobby without a room.

  Key definitions include:
    * `Matchmaking.DepthRight`
    * `Matchmaking.NoException`
    * `Matchmaking.ExitsCounted`

  Key theorems include:
    * `Matchmaking.retryPass_depth`
    * `Matchmaking.assignPass_depth`
    * `Matchmaking.counted_iterate`
    * `Matchmaking.depth_right`

  Only an expiry and a notified lobby lower the gauge, while
  requests leave the loop in other ways as well.
-/

------------------------------------------------------------
-- The Condition
------------------------------------------------------------

namespace Matchmaking

/- The gauge is the number of requests that wait. -/
def DepthRight (s : State) : Prop :=
  s.queueDepth =
    ((s.pending.length + s.inLobbies.length : Nat) : Int)

instance (s : State) : Decidable (DepthRight s) :=
  inferInstanceAs (Decidable
    (s.queueDepth =
      ((s.pending.length + s.inLobbies.length : Nat) : Int)))

/- The number of lobbies that `match_tick` forms. -/
def State.newLobbies
    (s : State)
    (settings : Settings)
    (t : Tick) : Nat :=
  (Matchmaking.matchTick settings t.matchNow
    (s.queued settings t).pending).1.length

/- No exception reaches the outer handler of the loop. -/
def NoException
    (settings : Settings)
    (s : State) : Act → Prop
| .addRequest _ => True
| .iterate t =>
    (∀ e ∈ withAttempts t.retries s.pendingLobbies,
      ¬ e.2.Raises) ∧
    ¬ matchTickRaises settings (s.queued settings t).pending ∧
    ∀ k < s.newLobbies settings t, ¬ (t.attempts k).Raises

/-
  Every lobby that gets a room is notified of it, none runs
  out of retries, and the matcher releases the members of
  too small groups.
-/
def ExitsCounted
    (settings : Settings)
    (s : State) : Act → Prop
| .addRequest _ => True
| .iterate t =>
    (∀ e ∈ withAttempts t.retries s.pendingLobbies,
      KeepsLobby e) ∧
    ReleasesOwn settings t.matchNow
      (s.queued settings t).pending ∧
    ∀ k < s.newLobbies settings t,
      (t.attempts k).room ≠ none →
        (t.attempts k).publishes = true

instance decidableNoException
    (settings : Settings)
    (s : State) :
    (act : Act) → Decidable (NoException settings s act)
| .addRequest _ => inferInstanceAs (Decidable True)
| .iterate t =>
    inferInstanceAs (Decidable
      ((∀ e ∈ withAttempts t.retries s.pendingLobbies,
        ¬ e.2.Raises) ∧
      ¬ matchTickRaises settings
        (s.queued settings t).pending ∧
      ∀ k < s.newLobbies settings t,
        ¬ (t.attempts k).Raises))

instance decidableExitsCounted
    (settings : Settings)
    (s : State) :
    (act : Act) → Decidable (ExitsCounted settings s act)
| .addRequest _ => inferInstanceAs (Decidable True)
| .iterate t =>
    inferInstanceAs (Decidable
      ((∀ e ∈ withAttempts t.retries s.pendingLobbies,
        KeepsLobby e) ∧
      ReleasesOwn settings t.matchNow
        (s.queued settings t).pending ∧
      ∀ k < s.newLobbies settings t,
        (t.attempts k).room ≠ none →
          (t.attempts k).publishes = true))

end Matchmaking

------------------------------------------------------------
-- The Queue
------------------------------------------------------------

namespace Matchmaking

/- The pending requests are distinct, and all are counted. -/
structure Counted (s : State) : Prop where
  distinct : Distinct s.pending
  numbered : ∀ r ∈ s.pending, r.objectId < s.added.length
  depth : DepthRight s

variable {settings : Settings}
variable {s : State}

theorem counted_empty : Counted State.empty where
  distinct := List.nodup_nil
  numbered := by
    intro r hMem
    cases hMem
  depth := rfl

theorem counted_addRequest
    (hCounted : Counted s)
    (arrival : Arrival) :
    Counted (s.addRequest arrival) := by
  refine ⟨?_, ?_, ?_⟩
  · simp only [State.addRequest, Distinct, List.map_append,
      List.map_cons, List.map_nil]
    refine List.nodup_append'.mpr
      ⟨hCounted.distinct, List.nodup_singleton _, ?_⟩
    intro n hOld hNew
    rcases List.mem_map.mp hOld with ⟨r, hMem, rfl⟩
    have hLt := hCounted.numbered r hMem
    rw [List.mem_singleton.mp hNew] at hLt
    exact absurd hLt (lt_irrefl _)
  · intro r hMem
    simp only [State.addRequest, List.length_append,
      List.length_singleton] at hMem ⊢
    rcases List.mem_append.mp hMem with hOld | hNew
    · exact Nat.lt_succ_of_lt (hCounted.numbered r hOld)
    · rw [List.mem_singleton.mp hNew]
      exact Nat.lt_succ_self _
  · have hDepth := hCounted.depth
    simp only [DepthRight, State.addRequest, State.inLobbies,
      List.length_append, List.length_singleton] at hDepth ⊢
    omega

theorem counted_addRequests
    (hCounted : Counted s)
    (arrivals : List Arrival) :
    Counted (arrivals.foldl State.addRequest s) := by
  induction arrivals generalizing s with
  | nil => exact hCounted
  | cons arrival arrivals ih =>
      exact ih (counted_addRequest hCounted arrival)

/- A part of the pending requests. -/
theorem distinct_of_perm
    {gone kept pending : List MatchRequest}
    (hPerm : (gone ++ kept).Perm pending)
    (hDistinct : Distinct pending) :
    Distinct kept := by
  have hAll : Distinct (gone ++ kept) :=
    (hPerm.map MatchRequest.objectId).nodup_iff.mpr hDistinct
  unfold Distinct at hAll
  rw [List.map_append] at hAll
  exact (List.nodup_append'.mp hAll).2.1

/- Expired requests are counted whether or not notified. -/
theorem counted_expire
    (hCounted : Counted s)
    (t : Tick) :
    Counted (s.expire settings t) := by
  have hSplit :=
    expireRequests_perm
      (settings.matchTimeoutSeconds * 2 : Int) t.expireNow
      hCounted.distinct
  refine ⟨distinct_of_perm hSplit hCounted.distinct, ?_, ?_⟩
  · intro r hMem
    exact
      hCounted.numbered r
        (hSplit.subset (List.mem_append_right _ hMem))
  · have hDepth := hCounted.depth
    have hLength := hSplit.length_eq
    rw [List.length_append] at hLength
    simp only [DepthRight, State.expire, State.inLobbies]
      at hDepth ⊢
    omega

end Matchmaking

------------------------------------------------------------
-- The Passes
------------------------------------------------------------

namespace Matchmaking

variable {settings : Settings}
variable {s : State}

theorem queueDepth_assignLobby
    (s : State)
    (lobby : Lobby)
    (room : String)
    {a : Attempt}
    (hPublishes : a.publishes = true) :
    (s.assignLobby lobby room a).queueDepth =
      s.queueDepth - lobby.members.length := by
  rw [State.assignLobby, if_pos hPublishes]

/-
  A completed pass that keeps every lobby lowers the gauge
  by the members of the lobbies that it does not keep.
-/
theorem retryPass_depth
    (s : State)
    (stillPending : List (Lobby × Nat))
    (tries : List ((Lobby × Nat) × Attempt))
    (hClaims : ∀ e ∈ tries, ¬ e.2.Raises)
    (hKeeps : ∀ e ∈ tries, KeepsLobby e) :
    ∃ kept,
      (s.retryPass stillPending tries).2 = some kept ∧
      (s.retryPass stillPending tries).1.queueDepth +
          (membersOf stillPending).length +
          (membersOf (tries.map Prod.fst)).length =
        s.queueDepth + (membersOf kept).length := by
  induction tries generalizing s stillPending with
  | nil =>
      refine ⟨stillPending, rfl, ?_⟩
      simp [State.retryPass, membersOf]
  | cons e rest ih =>
      rcases e with ⟨⟨lobby, retry⟩, a⟩
      have hHead := hKeeps _ List.mem_cons_self
      have hClaimsRest : ∀ e ∈ rest, ¬ e.2.Raises :=
        fun e hMem =>
          hClaims e (List.mem_cons_of_mem _ hMem)
      have hKeepsRest : ∀ e ∈ rest, KeepsLobby e :=
        fun e hMem =>
          hKeeps e (List.mem_cons_of_mem _ hMem)
      have hMembers :
          (membersOf
            ((((lobby, retry), a) :: rest).map
              Prod.fst)).length =
            lobby.members.length +
              (membersOf (rest.map Prod.fst)).length := by
        simp [membersOf]
      rw [State.retryPass,
        if_neg (hClaims _ List.mem_cons_self), hMembers]
      split
      · rename_i room hRoom
        have hPublishes : a.publishes = true :=
          hHead.1 (by simp [hRoom])
        rcases
            ih
              ((s.take lobby a).assignLobby lobby room
                a).lowerDeficit
              stillPending hClaimsRest hKeepsRest with
          ⟨kept, hKept, hDepth⟩
        refine ⟨kept, hKept, ?_⟩
        rw [State.lowerDeficit_queueDepth,
          queueDepth_assignLobby _ lobby room hPublishes,
          State.take_queueDepth] at hDepth
        omega
      · rename_i hRoom
        rw [if_pos (hHead.2 hRoom)]
        rcases
            ih (s.take lobby a)
              (stillPending ++ [(lobby, retry + 1)])
              hClaimsRest hKeepsRest with
          ⟨kept, hKept, hDepth⟩
        refine ⟨kept, hKept, ?_⟩
        have hMore :
            (membersOf
              (stillPending ++ [(lobby, retry + 1)])).length =
              (membersOf stillPending).length +
                lobby.members.length := by
          simp [membersOf]
        rw [hMore, State.take_queueDepth] at hDepth
        omega

/- Each new lobby lowers the gauge, or waits for a room. -/
theorem assignPass_depth
    (s : State)
    (tries : List (Lobby × Attempt))
    (hKeeps :
      ∀ e ∈ tries, ¬ e.2.Raises ∧
        (e.2.room ≠ none → e.2.publishes = true)) :
    (s.assignPass tries).queueDepth +
        s.inLobbies.length +
        ((tries.map Prod.fst).flatMap Lobby.members).length =
      s.queueDepth + (s.assignPass tries).inLobbies.length := by
  induction tries generalizing s with
  | nil => simp [State.assignPass]
  | cons e rest ih =>
      rcases e with ⟨lobby, a⟩
      have hHead := hKeeps _ List.mem_cons_self
      have hRest :
          ∀ e ∈ rest, ¬ e.2.Raises ∧
            (e.2.room ≠ none → e.2.publishes = true) :=
        fun e hMem =>
          hKeeps e (List.mem_cons_of_mem _ hMem)
      rw [State.assignPass, if_neg hHead.1, List.map_cons,
        List.flatMap_cons, List.length_append]
      split
      · rename_i room hRoom
        have hPublishes : a.publishes = true :=
          hHead.2 (by simp [hRoom])
        have hDepth :=
          ih ((s.take lobby a).assignLobby lobby room a) hRest
        rw [queueDepth_assignLobby _ lobby room hPublishes,
          State.take_queueDepth] at hDepth
        simp only [State.inLobbies,
          State.assignLobby_pendingLobbies,
          State.take_pendingLobbies] at hDepth ⊢
        omega
      · have hDepth :=
          ih
            { s.take lobby a with
              scaleUpDeficit := s.scaleUpDeficit + 1
              pendingLobbies :=
                s.pendingLobbies ++ [(lobby, 0)] }
            hRest
        simp only [State.inLobbies, State.take_queueDepth,
          List.flatMap_append, List.flatMap_cons,
          List.flatMap_nil, List.append_nil,
          List.length_append] at hDepth ⊢
        omega

end Matchmaking

------------------------------------------------------------
-- Iterations
------------------------------------------------------------

namespace Matchmaking

variable {settings : Settings}
variable {s : State}

/- The new lobbies and what is left were all pending. -/
theorem counted_matchNew
    {t : Tick}
    (hCounted : Counted s)
    (hReturns : ¬ matchTickRaises settings s.pending)
    (hOwn : ReleasesOwn settings t.matchNow s.pending)
    (hAttempts :
      ∀ k < (matchTick settings t.matchNow
          s.pending).1.length,
        ¬ (t.attempts k).Raises ∧
          ((t.attempts k).room ≠ none →
            (t.attempts k).publishes = true)) :
    Counted (s.matchNew settings t) := by
  have hTries :
      ∀ e ∈ withAttempts t.attempts
          (s.matchTick settings t.matchNow).2,
        ¬ e.2.Raises ∧
          (e.2.room ≠ none → e.2.publishes = true) :=
    forall_attempts_matchTick
      (P := fun a =>
        ¬ a.Raises ∧ (a.room ≠ none → a.publishes = true))
      hAttempts
  have hSplit := matchTick_perm_of_releasesOwn hOwn
  have hFrame :=
    assignPass_frame (s.matchTick settings t.matchNow).1
      (withAttempts t.attempts
        (s.matchTick settings t.matchNow).2)
  have hAssigned :=
    assignPass_depth (s.matchTick settings t.matchNow).1 _
      hTries
  rw [map_fst_withAttempts, flatMap_members_matchTick]
    at hAssigned
  have hQueue :
      (s.matchTick settings t.matchNow).1.pending =
        (matchTick settings t.matchNow s.pending).2 :=
    rfl
  have hAdded :
      (s.matchTick settings t.matchNow).1.added = s.added :=
    rfl
  have hLobbies :
      (s.matchTick settings t.matchNow).1.inLobbies =
        s.inLobbies :=
    rfl
  have hGauge :
      (s.matchTick settings t.matchNow).1.queueDepth =
        s.queueDepth :=
    rfl
  rw [matchNew_of_returns t hReturns]
  refine ⟨?_, ?_, ?_⟩
  · rw [hFrame.1, hQueue]
    exact distinct_of_perm hSplit hCounted.distinct
  · rw [hFrame.1, hFrame.2.1, hQueue, hAdded]
    intro r hMem
    exact
      hCounted.numbered r
        (hSplit.subset (List.mem_append_right _ hMem))
  · have hDepth := hCounted.depth
    have hLength := hSplit.length_eq
    rw [List.length_append] at hLength
    rw [hLobbies, hGauge] at hAssigned
    unfold DepthRight at hDepth ⊢
    rw [hFrame.1, hQueue]
    omega

/- An iteration without exception, whose exits all count. -/
theorem counted_iterate
    {t : Tick}
    (hCounted : Counted s)
    (hRuns : NoException settings s (.iterate t))
    (hExits : ExitsCounted settings s (.iterate t)) :
    Counted (s.iterate settings t) := by
  rcases hRuns with ⟨hClaims, hReturns, hAttempts⟩
  rcases hExits with ⟨hKeeps, hOwn, hPublished⟩
  have hExpired : Counted (s.expire settings t) :=
    counted_expire hCounted t
  have hFrame :=
    retryPass_frame (s.expire settings t) []
      (withAttempts t.retries s.pendingLobbies)
  rcases
      retryPass_depth (s.expire settings t) [] _ hClaims
        hKeeps with
    ⟨kept, hSome, hDepth⟩
  rw [map_fst_withAttempts] at hDepth
  simp only [membersOf, List.flatMap_nil, List.length_nil]
    at hDepth
  rw [iterate_of_completed hSome]
  have hAfter :
      Counted
        { ((s.expire settings t).retryPass []
            (withAttempts t.retries s.pendingLobbies)).1 with
          pendingLobbies := kept } := by
    refine ⟨?_, ?_, ?_⟩
    · rw [hFrame.1]
      exact hExpired.distinct
    · rw [hFrame.1, hFrame.2.2.1]
      exact hExpired.numbered
    · have hBefore := hExpired.depth
      simp only [DepthRight, State.inLobbies,
        expire_pendingLobbies] at hBefore ⊢
      rw [hFrame.1]
      omega
  refine
    counted_matchNew (counted_addRequests hAfter t.arrivals)
      ?_ ?_ ?_
  · rw [pending_queued]
    exact hReturns
  · rw [pending_queued]
    exact hOwn
  · rw [pending_queued]
    intro k hLt
    exact ⟨hAttempts k hLt, hPublished k hLt⟩

theorem counted_step
    {s' : State}
    {act : Act}
    (hCounted : Counted s)
    (hRuns : NoException settings s act)
    (hExits : ExitsCounted settings s act)
    (hStep : step settings s act = some s') :
    Counted s' := by
  cases act with
  | addRequest arrival =>
      cases hStep
      exact counted_addRequest hCounted arrival
  | iterate t =>
      cases hStep
      exact counted_iterate hCounted hRuns hExits

/-
  In every run without exceptions whose iterations count all
  exits, the gauge is right at every iteration boundary.
-/
theorem depth_right
    (settings : Settings)
    (s : State)
    (hRun :
      Machine.Reaches (step settings)
        (fun s act =>
          NoException settings s act ∧
            ExitsCounted settings s act)
        State.empty s) :
    DepthRight s :=
  (hRun.invariant counted_empty
    (fun hCounted hOk hStep =>
      counted_step hCounted hOk.1 hOk.2 hStep)).depth

/- Two players get a room and are notified of it. -/
theorem depth_right_twoPlayers :
    DepthRight
      (Machine.final (step {}) State.empty (twoPlayers true)
        rfl) :=
  depth_right {} _
    (Machine.reaches_of_run (Machine.run_eq_final rfl)
      (by decide +kernel))

/- Two players for whom no room is found. -/
def withoutRoom : List Act :=
  (twoPlayers true).take 2 ++
    List.replicate 17 (.iterate (tickWith noRoom))

/-
  Nobody waits any more, and the gauge is at two: the
  notification failed, or the retries ran out.
-/
theorem depth_wrong :
    Machine.Reaches (step {}) (NoException {}) State.empty
        (Machine.final (step {}) State.empty
          (twoPlayers false) rfl) ∧
      ¬ DepthRight
        (Machine.final (step {}) State.empty
          (twoPlayers false) rfl) ∧
      Machine.Reaches (step {}) (NoException {}) State.empty
        (Machine.final (step {}) State.empty withoutRoom
          rfl) ∧
      ¬ DepthRight
        (Machine.final (step {}) State.empty withoutRoom
          rfl) :=
  ⟨Machine.reaches_of_run (Machine.run_eq_final rfl)
      (by decide +kernel),
    by decide +kernel,
    Machine.reaches_of_run (Machine.run_eq_final rfl)
      (by decide +kernel),
    by decide +kernel⟩

end Matchmaking
