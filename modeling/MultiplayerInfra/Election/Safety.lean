import MultiplayerInfra.Election.Claims

/-
  Election safety: a leader on a lease that is alive holds
  the leader key.

  Key definitions include:
    * `Election.Leads`
    * `Election.Safe`

  Key theorems include:
    * `Election.ending_of_touches`
    * `Election.safe_step`
    * `Election.election_safety`

  A claim begins when the transaction of a campaign succeeds
  and not when its reply arrives: from then on the key can
  only go with the lease.
-/

------------------------------------------------------------
-- Safety
------------------------------------------------------------

namespace Election

open Etcd Machine

variable {ι : Type}

/- Replica `i` leads on a lease that is alive. -/
def Leads (s : State ι) (i : ι) (lease : Nat) : Prop :=
  (s.elections i).isLeader = true ∧
    (s.elections i).lease = some lease ∧
      lease ∈ s.etcd.leases

/-
  A claim on a lease that is alive holds the leader key, and
  no request on its way deletes the key of a claim.
-/
structure Safe
    (group : Replicas ι)
    (s : State ι) : Prop where
  placed : ∀ i, (s.elections i).Placed
  known :
    ∀ i lease,
      (s.elections i).Knows lease → lease < s.etcd.nextLease
  held :
    ∀ i lease,
      (s.elections i).Claims lease → lease ∈ s.etcd.leases →
        s.etcd.keys (group.config i).key =
          some ⟨group.instanceId i, some lease⟩
  late :
    ∀ request ∈ s.inFlight, ∀ i,
      request.Touches (group.config i).key
          (group.instanceId i) →
        (s.elections i).Ending

theorem safe_start
    (group : Replicas ι)
    (etcd : Server String String) :
    Safe group (State.start etcd) := by
  constructor
  · intro i
    exact LeaderElection.placed_of_not_leader rfl (by
      simp [State.start, LeaderElection.new])
  · rintro i lease (hLease | hGranted)
    · cases hLease
    · cases hGranted
  · rintro i lease ⟨hLease, _⟩
    cases hLease
  · intro request hMem
    cases hMem

/-
  Only the conditional delete of `_cleanup` touches the
  leader key, and only for the replica that ends.
-/
theorem ending_of_touches
    {group : Replicas ι}
    {i j : ι}
    {r : LeaderElection}
    {c : Call}
    {reply : Option Reply}
    (hPlaced : r.Placed)
    (hPoint : r.point = .calling c reply)
    (hTouches :
      (c.request (group.config i)).Touches
        (group.config j).key (group.instanceId j)) :
    i = j ∧ r.Ending := by
  have hAddress :
      (group.config i).addressKey ≠ (group.config j).key :=
    Config.addressKey_ne_key _ _ rfl
  cases c with
  | cleanupDelete =>
      refine ⟨group.distinct hTouches.2, ?_, ?_⟩
      · by_contra hLeader
        have hLeading := hPlaced.leading (by simpa using hLeader)
        rw [LeaderElection.Leading, hPoint] at hLeading
        exact hLeading
      · rw [hPoint]
        trivial
  | campaignPut lease => exact absurd hTouches hAddress
  | loseDeleteAddress => exact absurd hTouches.1 hAddress
  | cleanupDeleteAddress => exact absurd hTouches.1 hAddress
  | campaignRevoke lease => cases hTouches
  | campaignLease => cases hTouches
  | campaignTxn lease => cases hTouches
  | serveGet => cases hTouches
  | serveRefresh lease => cases hTouches
  | loseRevoke lease => cases hTouches
  | waitGet => cases hTouches
  | cleanupRevoke lease => cases hTouches

/- Claims survive every request of a thread that ends. -/
theorem held_serve
    {group : Replicas ι}
    {s : State ι}
    (hSafe : Safe group s)
    {request : Request String String}
    (hTouches :
      ∀ i,
        request.Touches (group.config i).key
            (group.instanceId i) →
          (s.elections i).Ending)
    {i : ι}
    {lease : Nat}
    (hClaims : (s.elections i).Claims lease)
    (hLive : lease ∈ (s.etcd.serve request).1.leases) :
    (s.etcd.serve request).1.keys (group.config i).key =
      some ⟨group.instanceId i, some lease⟩ := by
  have hKnown := hSafe.known i lease (.inl hClaims.1)
  have hOld : lease ∈ s.etcd.leases := by
    rcases Server.leases_serve hLive with hOld | ⟨_, hNew⟩
    · exact hOld
    · omega
  apply Server.keys_serve_of_not_touches
    (hSafe.held i lease hClaims hOld) _ hLive
  intro hTouch
  exact (hTouches i hTouch).not_claims lease hClaims

variable [DecidableEq ι]

/-
  A thread moves and may leave a request behind, whose
  touching a key means that its replica ends.
-/
theorem safe_set
    {group : Replicas ι}
    {s : State ι}
    (hSafe : Safe group s)
    {i : ι}
    {r : LeaderElection}
    (hMoves : (s.elections i).Moves r)
    (hEnding : (s.elections i).Ending → r.Ending)
    {queue : List (Request String String)}
    (hQueue :
      ∀ request ∈ queue, request ∈ s.inFlight ∨
        ∀ j,
          request.Touches (group.config j).key
              (group.instanceId j) →
            i = j ∧ (s.elections i).Ending) :
    Safe group { s.set i r with inFlight := queue } := by
  have hCases :
      ∀ j,
        (Function.update s.elections i r j =
            s.elections j) ∨
          j = i ∧ Function.update s.elections i r j = r := by
    intro j
    by_cases hSame : j = i
    · exact .inr ⟨hSame, by rw [hSame, Function.update_self]⟩
    · exact .inl (Function.update_of_ne hSame _ _)
  constructor
  · intro j
    show (Function.update s.elections i r j).Placed
    rcases hCases j with hOther | ⟨_, hThis⟩
    · rw [hOther]
      exact hSafe.placed j
    · rw [hThis]
      exact hMoves.placed
  · intro j lease hKnows
    change (Function.update s.elections i r j).Knows lease
      at hKnows
    rcases hCases j with hOther | ⟨rfl, hThis⟩
    · rw [hOther] at hKnows
      exact hSafe.known j lease hKnows
    · rw [hThis] at hKnows
      exact hSafe.known j lease (hMoves.knows lease hKnows)
  · intro j lease hClaims hLive
    change (Function.update s.elections i r j).Claims lease
      at hClaims
    rcases hCases j with hOther | ⟨rfl, hThis⟩
    · rw [hOther] at hClaims
      exact hSafe.held j lease hClaims hLive
    · rw [hThis] at hClaims
      exact hSafe.held j lease (hMoves.claims lease hClaims) hLive
  · intro request hMem j hTouches
    show (Function.update s.elections i r j).Ending
    have hEnds : (s.elections j).Ending := by
      rcases hQueue request hMem with hOld | hNew
      · exact hSafe.late request hOld j hTouches
      · rcases hNew j hTouches with ⟨rfl, hEnds⟩
        exact hEnds
    rcases hCases j with hOther | ⟨rfl, hThis⟩
    · rw [hOther]
      exact hEnds
    · rw [hThis]
      exact hEnding hEnds

omit [DecidableEq ι] in
/- The requests that a thread leaves behind. -/
theorem ending_of_unserved
    {group : Replicas ι}
    {s : State ι}
    (hSafe : Safe group s)
    {i : ι} :
    ∀ request ∈
      s.inFlight ++
        (s.elections i).unserved (group.config i),
      request ∈ s.inFlight ∨
        ∀ j,
          request.Touches (group.config j).key
              (group.instanceId j) →
            i = j ∧ (s.elections i).Ending := by
  intro request hMem
  rcases List.mem_append.mp hMem with hOld | hNew
  · exact .inl hOld
  · right
    intro j hTouches
    unfold LeaderElection.unserved at hNew
    split at hNew
    · rename_i c hPoint
      rw [List.mem_singleton.mp hNew] at hTouches
      exact ending_of_touches (hSafe.placed i) hPoint hTouches
    · cases hNew

/- The server executes the call of a thread. -/
theorem safe_effect
    {group : Replicas ι}
    {s : State ι}
    (hSafe : Safe group s)
    {i : ι}
    {c : Call}
    (hPoint : (s.elections i).point = .calling c none) :
    Safe group
      { s.set i
          ((s.elections i).reply c
            (s.etcd.serve (c.request (group.config i))).2) with
        etcd :=
          (s.etcd.serve (c.request (group.config i))).1 } := by
  have hTouches :
      ∀ j,
        (c.request (group.config i)).Touches
            (group.config j).key (group.instanceId j) →
          (s.elections j).Ending := by
    intro j hTouch
    rcases ending_of_touches (hSafe.placed i) hPoint hTouch with
      ⟨rfl, hEnds⟩
    exact hEnds
  constructor
  · intro j
    show
      (Function.update s.elections i
        ((s.elections i).reply c _) j).Placed
    by_cases hSame : j = i
    · rw [hSame, Function.update_self]
      exact LeaderElection.placed_reply (hSafe.placed i) hPoint
    · rw [Function.update_of_ne hSame]
      exact hSafe.placed j
  · intro j lease hKnows
    change
      (Function.update s.elections i
        ((s.elections i).reply c _) j).Knows lease at hKnows
    have hOld :
        ∀ j, (s.elections j).Knows lease →
          lease <
            (s.etcd.serve
              (c.request (group.config i))).1.nextLease :=
      fun j hKnown =>
        Nat.lt_of_lt_of_le (hSafe.known j lease hKnown)
          (Server.nextLease_le_serve _ _)
    by_cases hSame : j = i
    · rw [hSame, Function.update_self] at hKnows
      rcases LeaderElection.knows_reply hKnows with
        hKnown | ⟨rfl, hGranted⟩
      · exact hOld i hKnown
      · cases hGranted
        exact Nat.lt_succ_self _
    · rw [Function.update_of_ne hSame] at hKnows
      exact hOld j hKnows
  · intro j lease hClaims hLive
    change
      (Function.update s.elections i
        ((s.elections i).reply c _) j).Claims lease at hClaims
    by_cases hSame : j = i
    · subst hSame
      rw [Function.update_self] at hClaims
      rcases LeaderElection.claims_reply hClaims with
        hOld | ⟨rfl, hWon⟩
      · exact held_serve hSafe hTouches hOld hLive
      · exact Server.keys_serve_create hWon
    · rw [Function.update_of_ne hSame] at hClaims
      exact held_serve hSafe hTouches hClaims hLive
  · intro request hMem j hTouch
    show
      (Function.update s.elections i
        ((s.elections i).reply c _) j).Ending
    have hEnds := hSafe.late request hMem j hTouch
    by_cases hSame : j = i
    · subst hSame
      rw [Function.update_self]
      rcases hEnds with ⟨hFalse, hPlace⟩
      rw [hPoint] at hPlace
      exact ⟨hFalse, hPlace⟩
    · rw [Function.update_of_ne hSame]
      exact hEnds

omit [DecidableEq ι] in
/- A request that was left behind takes effect. -/
theorem safe_late
    {group : Replicas ι}
    {s : State ι}
    (hSafe : Safe group s)
    {n : Nat}
    {request : Request String String}
    (hMem : s.inFlight[n]? = some request) :
    Safe group
      { s with
        etcd := (s.etcd.serve request).1
        inFlight := s.inFlight.eraseIdx n } := by
  have hTouches :=
    hSafe.late request (List.mem_of_getElem? hMem)
  refine ⟨hSafe.placed, ?_, ?_, ?_⟩
  · intro i lease hKnows
    exact
      Nat.lt_of_lt_of_le (hSafe.known i lease hKnows)
        (Server.nextLease_le_serve s.etcd request)
  · intro i lease hClaims hLive
    exact held_serve hSafe hTouches hClaims hLive
  · intro request' hMem'
    exact hSafe.late request' (List.mem_of_mem_eraseIdx hMem')

omit [DecidableEq ι] in
/- A lease ends. -/
theorem safe_expire
    {group : Replicas ι}
    {s : State ι}
    (hSafe : Safe group s)
    (lease : Nat) :
    Safe group { s with etcd := s.etcd.endLease lease } := by
  refine ⟨hSafe.placed, hSafe.known, ?_, hSafe.late⟩
  intro i l hClaims hLive
  rcases Server.mem_leases_endLease.mp hLive with ⟨hOld, hNe⟩
  exact Server.keys_endLease (hSafe.held i l hClaims hOld) hNe

/- Every step keeps the replicas safe. -/
theorem safe_step
    {group : Replicas ι}
    {s s' : State ι}
    {act : Act ι}
    (hSafe : Safe group s)
    (hStep : step group s act = some s') :
    Safe group s' := by
  cases steps_of_step hStep with
  | @proceed i r hProceed =>
      exact
        safe_set hSafe
          (LeaderElection.moves_proceed (hSafe.placed i) hProceed)
          (LeaderElection.ending_proceed hProceed)
          (fun _ => .inl)
  | effect hPoint => exact safe_effect hSafe hPoint
  | @answer i c reply hPoint =>
      exact
        safe_set hSafe
          (LeaderElection.moves_returned (hSafe.placed i)
            hPoint (.inr rfl))
          (LeaderElection.ending_returned hPoint)
          (fun _ => .inl)
  | @raise i c reply hPoint =>
      exact
        safe_set hSafe
          (LeaderElection.moves_returned (hSafe.placed i)
            hPoint (.inl rfl))
          (LeaderElection.ending_returned hPoint)
          (ending_of_unserved hSafe)
  | late hMem => exact safe_late hSafe hMem
  | expire _ => exact safe_expire hSafe _
  | @stepDown i =>
      exact
        safe_set hSafe
          (LeaderElection.moves_stepDown (hSafe.placed i))
          id (fun _ => .inl)
  | crash =>
      exact
        safe_set hSafe
          (LeaderElection.moves_crash _)
          (fun hEnds => ⟨hEnds.1, trivial⟩)
          (ending_of_unserved hSafe)

/-
  Election safety: a leader on a lease that is alive holds
  the leader key under that lease, so there is only one.
-/
theorem election_safety
    {group : Replicas ι}
    {etcd : Server String String}
    {s : State ι}
    (hRun : Reachable (step group) (State.start etcd) s) :
    (∀ i lease,
        Leads s i lease →
          s.etcd.keys (group.config i).key =
            some ⟨group.instanceId i, some lease⟩) ∧
      ∀ i j lease lease',
        Leads s i lease → Leads s j lease' → i = j := by
  have hSafe : Safe group s :=
    hRun.invariant (safe_start group etcd)
      (fun hSafe _ hStep => safe_step hSafe hStep)
  have hHeld :
      ∀ i lease,
        Leads s i lease →
          s.etcd.keys (group.config i).key =
            some ⟨group.instanceId i, some lease⟩ := by
    rintro i lease ⟨hLeader, hLease, hLive⟩
    exact hSafe.held i lease ⟨hLease, .inl hLeader⟩ hLive
  refine ⟨hHeld, ?_⟩
  intro i j lease lease' hLeads hLeads'
  have hKey := hHeld i lease hLeads
  have hKey' := hHeld j lease' hLeads'
  -- all replicas of a match compete for one key
  have hSame :
      (some ⟨group.instanceId i, some lease⟩ :
          Option (Entry String)) =
        some ⟨group.instanceId j, some lease'⟩ :=
    hKey.symm.trans hKey'
  injection hSame with hEntry
  injection hEntry with hId _
  exact group.distinct hId

/- Two replicas of one match. -/
def twoReplicas : Replicas Bool where
  matchId := "m1"
  instanceId := fun i => if i then "room-1" else "room-2"
  roomAddress := fun _ => ""
  distinct := by
    show ∀ i j : Bool, _ = _ → i = j
    decide

/-
  The first replica wins, its lease expires, and the second
  one wins while `is_leader` of the first is still set.
-/
def contested : State Bool :=
  final (step twoReplicas) (State.start .empty)
    [.proceed true, .effect true, .answer true, .effect true,
      .answer true, .effect true, .answer true,
      .proceed false, .effect false, .answer false,
      .effect false, .answer false, .expire 0,
      .proceed false, .effect false, .answer false,
      .proceed false, .effect false, .answer false,
      .effect false, .answer false, .effect false,
      .answer false]
    (by decide)

theorem election_safety_contested :
    (contested.elections true).isLeader = true ∧
      Leads contested false 2 ∧
        contested.etcd.keys "/match/m1/leader" =
            some ⟨"room-2", some 2⟩ ∧
          ∀ i lease, Leads contested i lease → false = i := by
  have hSafe :=
    election_safety
      (reachable_of_run
        (run_eq_final (by decide)) :
        Reachable (step twoReplicas) (State.start .empty)
          contested)
  have hLeads : Leads contested false 2 := by
    refine ⟨?_, ?_, ?_⟩ <;> decide
  refine ⟨by decide, hLeads, hSafe.1 false 2 hLeads, ?_⟩
  intro i lease hOther
  exact hSafe.2 false i 2 lease hLeads hOther

end Election
