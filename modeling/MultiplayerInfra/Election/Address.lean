import Mathlib.Data.Fintype.Basic
import MultiplayerInfra.Election.Safety

/-
  The address of the leader: a second key, written after the
  election is won and deleted where leadership is lost.

  Key definitions include:
    * `Election.LeaderElection.Published`
    * `Election.Counted`
    * `Election.Serves`
    * `Election.Delivers`
    * `Election.Addressed`

  Key theorems include:
    * `Election.addressed_effect`
    * `Election.addressed_step`
    * `Election.leader_reachable`

  The put of the address is not part of the transaction that
  wins the key, and no iteration of `_serve_as_leader` reads
  or repeats it.
-/

------------------------------------------------------------
-- Places of the Address
------------------------------------------------------------

namespace Election

open Etcd

/- The calls of `_serve_as_leader`, with what it calls. -/
def Call.inServe : Call → Bool
| .serveGet => true
| .serveRefresh _ => true
| .loseRevoke _ => true
| .loseDeleteAddress => true
| _ => false

/- The calls at which the fields of a thread matter. -/
def Point.asksPut : Point → Bool
| .calling (.campaignPut _) _ => true
| _ => false

def Point.asksDelete : Point → Bool
| .calling .loseDeleteAddress _ => true
| _ => false

namespace LeaderElection

/- Inside `_serve_as_leader`. -/
def inServe (r : LeaderElection) : Bool :=
  match r.point with
  | .serving => true
  | .calling c _ => c.inServe
  | _ => false

/- The put has taken effect, or `_campaign` is past it. -/
def pastPut (r : LeaderElection) : Bool :=
  match r.point with
  | .calling (.campaignPut _) reply => reply.isSome
  | _ => r.inServe

/- The lease of a put that has not taken effect. -/
def pendingPut (r : LeaderElection) : Option Nat :=
  match r.point with
  | .calling (.campaignPut lease) none => some lease
  | _ => none

/- The lease that the address should be attached to. -/
def Published (r : LeaderElection) (lease : Nat) : Prop :=
  r.lease = some lease ∧ r.pastPut = true

/- The fields at the put, and at the delete of a loss. -/
structure Seated (r : LeaderElection) : Prop where
  put :
    ∀ lease reply,
      r.point = .calling (.campaignPut lease) reply →
        r.isLeader = true ∧ r.lease = some lease
  released :
    ∀ reply,
      r.point = .calling .loseDeleteAddress reply →
        r.lease = none

theorem pastPut_of_inServe
    {r : LeaderElection}
    (hInside : r.inServe = true) :
    r.pastPut = true := by
  unfold pastPut
  split
  · rename_i hPoint
    rw [inServe, hPoint] at hInside
    cases hInside
  · exact hInside

/- A thread that ends is past the service. -/
theorem Ending.not_published
    {r : LeaderElection}
    (hEnding : r.Ending)
    (lease : Nat) :
    ¬ r.Published lease := by
  rintro ⟨_, hPast⟩
  have hPlace := hEnding.2
  cases hPoint : r.point with
  | calling c reply =>
      simp only [hPoint] at hPlace
      simp only [pastPut, inServe, hPoint] at hPast
      cases c <;> first | exact hPlace | cases hPast
  | run => simp only [hPoint] at hPlace
  | serving => simp only [hPoint] at hPlace
  | waiting => simp only [hPoint] at hPlace
  | finished => simp [pastPut, inServe, hPoint] at hPast
  | crashed => simp [pastPut, inServe, hPoint] at hPast

/- Where a thread is at neither of the two calls. -/
theorem seated_of_point
    {r : LeaderElection}
    (hPut : r.point.asksPut = false)
    (hDelete : r.point.asksDelete = false) :
    r.Seated where
  put := by
    intro lease reply hAt
    rw [hAt] at hPut
    cases hPut
  released := by
    intro reply hAt
    rw [hAt] at hDelete
    cases hDelete

end LeaderElection

end Election

------------------------------------------------------------
-- Steps of a Thread
------------------------------------------------------------

namespace Election

open Etcd

namespace LeaderElection

/-
  What the code between two calls can do: a thread past the
  put on a lease was past it before.
-/
structure Stays (r r' : LeaderElection) : Prop where
  seated : r'.Seated
  published : ∀ lease, r'.Published lease → r.Published lease

/- A place that is not past the put. -/
theorem stays_outside
    {r r' : LeaderElection}
    (hSeated : r'.Seated)
    (hOutside : r'.pastPut = false) :
    r.Stays r' := by
  refine ⟨hSeated, ?_⟩
  rintro lease ⟨_, hPast⟩
  rw [hOutside] at hPast
  cases hPast

/- A place after the put, from another one. -/
theorem stays_inside
    {r r' : LeaderElection}
    (hSeated : r'.Seated)
    (hLease : r'.lease = r.lease)
    (hPast : r.pastPut = true) :
    r.Stays r' := by
  refine ⟨hSeated, ?_⟩
  rintro lease ⟨hSome, _⟩
  exact ⟨hLease.symm.trans hSome, hPast⟩

/- A thread without a lease has published nothing. -/
theorem stays_released
    {r r' : LeaderElection}
    (hPut : r'.point.asksPut = false)
    (hLease : r'.lease = none) :
    r.Stays r' := by
  refine ⟨⟨?_, fun _ _ => hLease⟩, ?_⟩
  · intro lease reply hAt
    rw [hAt] at hPut
    cases hPut
  · rintro lease ⟨hSome, _⟩
    rw [hLease] at hSome
    cases hSome

theorem stays_loseLeadership
    {r : LeaderElection}
    (hPast : r.pastPut = true) :
    r.Stays r.loseLeadership := by
  unfold loseLeadership
  split
  · unfold revokeLease
    split
    · exact
        stays_inside (seated_of_point rfl rfl) rfl hPast
    · rename_i hLease
      exact stays_released rfl hLease
  · exact stays_outside (seated_of_point rfl rfl) rfl

/- A loop head. -/
theorem stays_proceed
    {r r' : LeaderElection}
    (hStep : r.proceed = some r') :
    r.Stays r' := by
  unfold proceed at hStep
  split at hStep
  · cases hStep
    split
    · unfold cleanup revokeLease
      split <;>
        exact
          stays_outside (seated_of_point rfl rfl) rfl
    · unfold campaign revokeLease
      split <;>
        exact
          stays_outside (seated_of_point rfl rfl) rfl
  · rename_i hPoint
    have hPast : r.pastPut = true := by
      rw [pastPut, inServe, hPoint]
    cases hStep
    split
    · exact
        stays_inside (seated_of_point rfl rfl) rfl hPast
    · exact stays_outside (seated_of_point rfl rfl) rfl
  · cases hStep
    split <;>
      exact stays_outside (seated_of_point rfl rfl) rfl
  · cases hStep
  · cases hStep
  · cases hStep

/-
  The return of a call, other than of the put before it has
  taken effect.
-/
theorem stays_returned
    {config : Config}
    {r : LeaderElection}
    {c : Call}
    {reply answer : Option Reply}
    (hPlaced : r.Placed)
    (hPoint : r.point = .calling c reply)
    (hPut : ∀ lease, c = .campaignPut lease → reply ≠ none) :
    r.Stays (r.returned config answer c) := by
  have hIn : c.inServe = true → r.pastPut = true := by
    intro hInside
    apply pastPut_of_inServe
    rw [inServe, hPoint]
    exact hInside
  cases c with
  | campaignRevoke lease =>
      exact stays_outside (seated_of_point rfl rfl) rfl
  | campaignLease =>
      simp only [returned]
      split <;>
        exact stays_outside (seated_of_point rfl rfl) rfl
  | campaignTxn lease =>
      simp only [returned]
      split
      · refine stays_outside ⟨?_, ?_⟩ rfl
        · intro l reply' hAt
          cases hAt
          exact ⟨rfl, hPlaced.txn lease reply hPoint⟩
        · intro reply' hAt
          cases hAt
      · exact stays_outside (seated_of_point rfl rfl) rfl
      · exact stays_outside (seated_of_point rfl rfl) rfl
  | campaignPut lease =>
      have hPast : r.pastPut = true := by
        rw [pastPut, hPoint]
        exact Option.isSome_iff_ne_none.mpr (hPut lease rfl)
      exact
        stays_inside (seated_of_point rfl rfl) rfl hPast
  | serveGet =>
      have hPast := hIn rfl
      simp only [returned]
      split
      · split
        · split
          · exact
              stays_inside (seated_of_point rfl rfl) rfl
                hPast
          · exact stays_loseLeadership hPast
        · exact stays_loseLeadership hPast
      · exact stays_loseLeadership hPast
  | serveRefresh lease =>
      have hPast := hIn rfl
      simp only [returned]
      split
      · exact
          stays_inside (seated_of_point rfl rfl) rfl hPast
      · exact stays_loseLeadership hPast
  | loseRevoke lease => exact stays_released rfl rfl
  | loseDeleteAddress =>
      exact stays_outside (seated_of_point rfl rfl) rfl
  | waitGet =>
      simp only [returned]
      split <;>
        exact stays_outside (seated_of_point rfl rfl) rfl
  | cleanupRevoke lease =>
      exact stays_outside (seated_of_point rfl rfl) rfl
  | cleanupDelete =>
      exact stays_outside (seated_of_point rfl rfl) rfl
  | cleanupDeleteAddress =>
      exact stays_outside (seated_of_point rfl rfl) rfl

theorem point_of_pendingPut
    {r : LeaderElection}
    {lease : Nat}
    (hPending : r.pendingPut = some lease) :
    r.point = .calling (.campaignPut lease) none := by
  unfold pendingPut at hPending
  split at hPending
  · rename_i hPoint
    cases hPending
    exact hPoint
  · cases hPending

/- A put that a thread leaves behind is the pending one. -/
theorem pendingPut_of_unserved
    {config : Config}
    {r : LeaderElection}
    {key value : String}
    {lease : Nat}
    (hMem : .put key value lease ∈ r.unserved config) :
    r.pendingPut = some lease := by
  unfold unserved at hMem
  split at hMem
  · rename_i c hPoint
    have hEq := List.mem_singleton.mp hMem
    cases c with
    | campaignPut l =>
        cases hEq
        rw [pendingPut, hPoint]
    | _ => cases hEq
  · cases hMem

/-
  The put raises before it takes effect: the lease is the
  only one that the address can be missing for.
-/
theorem stays_returned_put
    {config : Config}
    {r : LeaderElection}
    {lease : Nat}
    (hSeated : r.Seated)
    (hPoint : r.point = .calling (.campaignPut lease) none) :
    (r.returned config none (.campaignPut lease)).Seated ∧
      ∀ l,
        (r.returned config none
            (.campaignPut lease)).Published l →
          l = lease := by
  refine ⟨seated_of_point rfl rfl, ?_⟩
  rintro l ⟨hLease, _⟩
  have hSame : r.lease = some l := hLease
  rw [(hSeated.put lease none hPoint).2] at hSame
  exact (Option.some.inj hSame).symm

theorem stays_stepDown
    {r : LeaderElection}
    (hSeated : r.Seated) :
    r.Stays { r with stop := true } :=
  ⟨⟨hSeated.put, hSeated.released⟩, fun _ => id⟩

theorem stays_crash (r : LeaderElection) :
    r.Stays { r with point := .crashed } :=
  stays_outside (seated_of_point rfl rfl) rfl

theorem seated_reply
    {r : LeaderElection}
    {c : Call}
    {answer : Reply}
    (hSeated : r.Seated)
    (hPoint : r.point = .calling c none) :
    (r.reply c answer).Seated := by
  constructor
  · intro lease reply hAt
    injection hAt with hC _
    exact hSeated.put lease none (hC ▸ hPoint)
  · intro reply hAt
    injection hAt with hC _
    exact hSeated.released none (hC ▸ hPoint)

/- Only the reply to the put takes a thread past it. -/
theorem published_reply
    {r : LeaderElection}
    {c : Call}
    {answer : Reply}
    {lease : Nat}
    (hSeated : r.Seated)
    (hPoint : r.point = .calling c none)
    (hPublished : (r.reply c answer).Published lease) :
    r.Published lease ∨ c = .campaignPut lease := by
  rcases hPublished with ⟨hLease, hPast⟩
  have hSame : r.lease = some lease := hLease
  cases c with
  | campaignPut l =>
      right
      rw [(hSeated.put l none hPoint).2] at hSame
      rw [Option.some.inj hSame]
  | _ =>
      left
      refine ⟨hSame, ?_⟩
      rw [← hPast, pastPut, pastPut, inServe, inServe, hPoint]
      rfl

end LeaderElection

end Election

------------------------------------------------------------
-- Rounds of a Leader
------------------------------------------------------------

namespace Election

open Etcd Machine

variable {ι : Type}

/-
  The machine with the iterations that each replica has
  completed in its present call of `_serve_as_leader`.
-/
structure Counted (ι : Type) where
  state : State ι
  rounds : ι → Nat

def Counted.start (etcd : Server String String) :
    Counted ι where
  state := .start etcd
  rounds := fun _ => 0

/- A put that has returned begins the service anew. -/
def roundsAfter (r r' : LeaderElection) (n : Nat) : Nat :=
  match r.point, r'.point with
  | .calling (.campaignPut _) _, .serving => 0
  | .calling (.serveRefresh _) _, .serving => n + 1
  | _, _ => n

def count
    [DecidableEq ι]
    (group : Replicas ι)
    (c : Counted ι)
    (act : Act ι) : Option (Counted ι) :=
  (step group c.state act).map (fun s => {
    state := s
    rounds := fun i =>
      roundsAfter (c.state.elections i) (s.elections i)
        (c.rounds i) })

/-
  Replica `i` serves on a lease that is alive, after at least
  one successful iteration.
-/
structure Serves
    (c : Counted ι)
    (i : ι)
    (l : Nat) : Prop where
  inside : (c.state.elections i).inServe = true
  round : 0 < c.rounds i
  lease : (c.state.elections i).lease = some l
  alive : l ∈ c.state.etcd.leases

/-
  The put of the address raises without effect only under a
  lease that is over, and no delete that was given up takes
  effect on the address of a leader.
-/
def Delivers
    (group : Replicas ι)
    (s : State ι) : Act ι → Prop
| .raise i =>
    ∀ lease ∈ (s.elections i).pendingPut,
      lease ∉ s.etcd.leases
| .late n =>
    ∀ i, (s.elections i).pastPut = true →
      ∀ lease ∈ (s.elections i).lease,
        lease ∈ s.etcd.leases →
          s.inFlight[n]? ≠
            some
              (.deleteIf (group.config i).addressKey
                (group.config i).leaderAddress)
| _ => True

instance
    [Fintype ι]
    (group : Replicas ι)
    (s : State ι)
    (act : Act ι) : Decidable (Delivers group s act) := by
  cases act <;> unfold Delivers <;> infer_instance

------------------------------------------------------------
-- The Address Under a Lease
------------------------------------------------------------

/- Replica `i` holds the leader key and its address. -/
structure HoldsKeys
    (group : Replicas ι)
    (etcd : Server String String)
    (i : ι)
    (lease : Nat) : Prop where
  key :
    etcd.keys (group.config i).key =
      some ⟨group.instanceId i, some lease⟩
  address :
    etcd.keys (group.config i).addressKey =
      some ⟨(group.config i).leaderAddress, some lease⟩

/-
  A thread past the put, on a lease that is alive, holds both
  keys.  A put that was given up is under a lease that is
  over, or its replica has crashed as the leader.
-/
structure Addressed
    (group : Replicas ι)
    (s : State ι) : Prop where
  safe : Safe group s
  seated : ∀ i, (s.elections i).Seated
  held :
    ∀ i lease,
      (s.elections i).Published lease →
        lease ∈ s.etcd.leases →
          HoldsKeys group s.etcd i lease
  puts :
    ∀ key value lease,
      .put key value lease ∈ s.inFlight →
        lease < s.etcd.nextLease ∧
          (lease ∈ s.etcd.leases →
            ∃ j, (s.elections j).Claims lease ∧
              (s.elections j).point = .crashed)

theorem addressed_start
    (group : Replicas ι)
    (etcd : Server String String) :
    Addressed group (State.start etcd) where
  safe := safe_start group etcd
  seated := fun i =>
    LeaderElection.seated_of_point rfl rfl
  held := by
    rintro i lease ⟨hLease, _⟩
    cases hLease
  puts := nofun

/-
  A request that touches neither key, or a put under a lease
  that is over.
-/
def Spares
    (group : Replicas ι)
    (etcd : Server String String)
    (i : ι)
    (request : Request String String) : Prop :=
  ¬ request.Touches (group.config i).key
      (group.instanceId i) ∧
    (request.Touches (group.config i).addressKey
        (group.config i).leaderAddress →
      ∃ key value lease,
        request = .put key value lease ∧
          lease ∉ etcd.leases)

/- The two keys survive such a request. -/
theorem held_serve_of_spares
    {group : Replicas ι}
    {s : State ι}
    (hAddressed : Addressed group s)
    {request : Request String String}
    {i : ι}
    {lease : Nat}
    (hSpares : Spares group s.etcd i request)
    (hPublished : (s.elections i).Published lease)
    (hLive : lease ∈ (s.etcd.serve request).1.leases) :
    HoldsKeys group (s.etcd.serve request).1 i lease := by
  have hKnown :=
    hAddressed.safe.known i lease (.inl hPublished.1)
  have hOld : lease ∈ s.etcd.leases := by
    rcases Server.leases_serve hLive with hOld | ⟨_, hNew⟩
    · exact hOld
    · omega
  rcases hAddressed.held i lease hPublished hOld with
    ⟨hKey, hAddress⟩
  refine
    ⟨Server.keys_serve_of_not_touches hKey hSpares.1 hLive, ?_⟩
  by_cases hTouches :
      request.Touches (group.config i).addressKey
        (group.config i).leaderAddress
  · rcases hSpares.2 hTouches with
      ⟨key, value, l, rfl, hOver⟩
    rw [Server.serve, dif_neg hOver]
    exact hAddress
  · exact
      Server.keys_serve_of_not_touches hAddress hTouches hLive

/- Whoever claims a live lease holds the leader key alone. -/
theorem eq_of_published_of_claims
    {group : Replicas ι}
    {s : State ι}
    (hAddressed : Addressed group s)
    {i j : ι}
    {lease lease' : Nat}
    (hPublished : (s.elections i).Published lease)
    (hLive : lease ∈ s.etcd.leases)
    (hClaims : (s.elections j).Claims lease')
    (hLive' : lease' ∈ s.etcd.leases) :
    i = j := by
  have hKey := (hAddressed.held i lease hPublished hLive).key
  have hKey' := hAddressed.safe.held j lease' hClaims hLive'
  have hSame :
      (some ⟨group.instanceId i, some lease⟩ :
          Option (Entry String)) =
        some ⟨group.instanceId j, some lease'⟩ :=
    hKey.symm.trans hKey'
  injection hSame with hEntry
  injection hEntry with hId _
  exact group.distinct hId

/- The pending call of a thread spares the other leaders. -/
theorem spares_of_calling
    {group : Replicas ι}
    {s : State ι}
    (hDistinct :
      Function.Injective fun i =>
        (group.config i).leaderAddress)
    (hAddressed : Addressed group s)
    {i j : ι}
    {c : Call}
    {lease : Nat}
    (hPoint : (s.elections j).point = .calling c none)
    (hPublished : (s.elections i).Published lease)
    (hLive : lease ∈ s.etcd.leases) :
    Spares group s.etcd i (c.request (group.config j)) := by
  constructor
  · intro hTouches
    rcases ending_of_touches (hAddressed.safe.placed j) hPoint
        hTouches with ⟨rfl, hEnding⟩
    exact hEnding.not_published lease hPublished
  · intro hTouches
    have hOwn :
        (group.config j).leaderAddress =
            (group.config i).leaderAddress →
          (s.elections i).point = .calling c none := by
      intro hSame
      cases hDistinct hSame
      exact hPoint
    cases c with
    | campaignPut l =>
        refine ⟨_, _, l, rfl, ?_⟩
        intro hLive'
        rcases (hAddressed.seated j).put l none hPoint with
          ⟨hLeader, hLease⟩
        cases
          eq_of_published_of_claims hAddressed hPublished
            hLive ⟨hLease, .inl hLeader⟩ hLive'
        have hPast := hPublished.2
        rw [LeaderElection.pastPut, hPoint] at hPast
        cases hPast
    | loseDeleteAddress =>
        have hLease :=
          (hAddressed.seated i).released none
            (hOwn hTouches.2)
        rw [hPublished.1] at hLease
        cases hLease
    | cleanupDeleteAddress =>
        have hPast := hPublished.2
        rw [LeaderElection.pastPut, LeaderElection.inServe,
          hOwn hTouches.2] at hPast
        cases hPast
    | cleanupDelete =>
        exact
          absurd hTouches.1.symm
            (Config.addressKey_ne_key _ _ rfl)
    | campaignRevoke l => cases hTouches
    | campaignLease => cases hTouches
    | campaignTxn l => cases hTouches
    | serveGet => cases hTouches
    | serveRefresh l => cases hTouches
    | loseRevoke l => cases hTouches
    | waitGet => cases hTouches
    | cleanupRevoke l => cases hTouches

------------------------------------------------------------
-- Every Step
------------------------------------------------------------

variable [DecidableEq ι]

/- A thread moves and may leave a request behind. -/
theorem addressed_set
    {group : Replicas ι}
    {s : State ι}
    (hAddressed : Addressed group s)
    {i : ι}
    {r : LeaderElection}
    {queue : List (Request String String)}
    (hSafe : Safe group { s.set i r with inFlight := queue })
    (hSeated : r.Seated)
    (hPublished :
      ∀ lease,
        r.Published lease →
          lease ∈ s.etcd.leases →
            (s.elections i).Published lease)
    (hCrashed :
      (s.elections i).point = .crashed →
        r.point = .crashed ∧
          ∀ lease, (s.elections i).Claims lease → r.Claims lease)
    (hQueue :
      ∀ key value lease,
        .put key value lease ∈ queue →
          .put key value lease ∈ s.inFlight ∨
            lease < s.etcd.nextLease ∧
              (lease ∈ s.etcd.leases →
                r.Claims lease ∧ r.point = .crashed)) :
    Addressed group { s.set i r with inFlight := queue } := by
  refine ⟨hSafe, ?_, ?_, ?_⟩
  · intro j
    show (Function.update s.elections i r j).Seated
    by_cases hSame : j = i
    · rw [hSame, Function.update_self]
      exact hSeated
    · rw [Function.update_of_ne hSame]
      exact hAddressed.seated j
  · intro j lease hPast hLive
    change (Function.update s.elections i r j).Published lease
      at hPast
    by_cases hSame : j = i
    · subst hSame
      rw [Function.update_self] at hPast
      exact
        hAddressed.held j lease (hPublished lease hPast hLive)
          hLive
    · rw [Function.update_of_ne hSame] at hPast
      exact hAddressed.held j lease hPast hLive
  · intro key value lease hMem
    rcases hQueue key value lease hMem with
      hOld | ⟨hKnown, hNew⟩
    · rcases hAddressed.puts key value lease hOld with
        ⟨hKnown, hLate⟩
      refine ⟨hKnown, ?_⟩
      intro hLive
      rcases hLate hLive with ⟨j, hClaims, hPoint⟩
      refine ⟨j, ?_⟩
      show
        (Function.update s.elections i r j).Claims lease ∧
          (Function.update s.elections i r j).point = .crashed
      by_cases hSame : j = i
      · subst hSame
        rw [Function.update_self]
        exact ⟨(hCrashed hPoint).2 lease hClaims,
          (hCrashed hPoint).1⟩
      · rw [Function.update_of_ne hSame]
        exact ⟨hClaims, hPoint⟩
    · refine ⟨hKnown, ?_⟩
      intro hLive
      refine ⟨i, ?_⟩
      show
        (Function.update s.elections i r i).Claims lease ∧
          (Function.update s.elections i r i).point = .crashed
      rw [Function.update_self]
      exact hNew hLive

omit [DecidableEq ι] in
/- The puts on their way survive what etcd does. -/
theorem puts_of_leases
    {group : Replicas ι}
    {s : State ι}
    (hAddressed : Addressed group s)
    {etcd : Server String String}
    {elections : ι → LeaderElection}
    {queue : List (Request String String)}
    (hQueue : ∀ request ∈ queue, request ∈ s.inFlight)
    (hNext : s.etcd.nextLease ≤ etcd.nextLease)
    (hLeases :
      ∀ lease ∈ etcd.leases, lease < s.etcd.nextLease →
        lease ∈ s.etcd.leases)
    (hElections :
      ∀ j, (s.elections j).point = .crashed →
        elections j = s.elections j)
    (key value : String)
    (lease : Nat)
    (hMem : .put key value lease ∈ queue) :
    lease < etcd.nextLease ∧
      (lease ∈ etcd.leases →
        ∃ j, (elections j).Claims lease ∧
          (elections j).point = .crashed) := by
  rcases hAddressed.puts key value lease (hQueue _ hMem) with
    ⟨hKnown, hLate⟩
  refine ⟨Nat.lt_of_lt_of_le hKnown hNext, ?_⟩
  intro hLive
  rcases hLate (hLeases lease hLive hKnown) with
    ⟨j, hClaims, hPoint⟩
  refine ⟨j, ?_⟩
  rw [hElections j hPoint]
  exact ⟨hClaims, hPoint⟩

omit [DecidableEq ι] in
/- No lease below the counter comes back to life. -/
theorem mem_leases_of_serve
    {s : State ι}
    {request : Request String String} :
    ∀ lease ∈ (s.etcd.serve request).1.leases,
      lease < s.etcd.nextLease → lease ∈ s.etcd.leases := by
  intro lease hLive hKnown
  rcases Server.leases_serve hLive with hOld | ⟨_, hNew⟩
  · exact hOld
  · omega

omit [DecidableEq ι] in
/- The put takes effect under a lease that is alive. -/
theorem held_serve_put
    {group : Replicas ι}
    {s : State ι}
    (hAddressed : Addressed group s)
    {i : ι}
    {lease : Nat}
    (hPoint :
      (s.elections i).point =
        .calling (.campaignPut lease) none)
    {served : Server String String}
    (hServed :
      served =
        (s.etcd.serve
          (.put (group.config i).addressKey
            (group.config i).leaderAddress lease)).1)
    (hLive : lease ∈ served.leases) :
    HoldsKeys group served i lease := by
  rcases (hAddressed.seated i).put lease none hPoint with
    ⟨hLeader, hLease⟩
  have hKnown := hAddressed.safe.known i lease (.inl hLease)
  have hOld : lease ∈ s.etcd.leases := by
    rw [hServed] at hLive
    exact mem_leases_of_serve lease hLive hKnown
  have hKey :=
    hAddressed.safe.held i lease ⟨hLease, .inl hLeader⟩ hOld
  have hNe :
      (group.config i).key ≠ (group.config i).addressKey :=
    (Config.addressKey_ne_key _ _ rfl).symm
  rw [hServed, Server.serve, dif_pos hOld]
  exact
    ⟨(Function.update_of_ne hNe _ _).trans hKey,
      Function.update_self _ _ _⟩

/- The server executes the call of a thread. -/
theorem addressed_effect
    {group : Replicas ι}
    {s : State ι}
    (hDistinct :
      Function.Injective fun i =>
        (group.config i).leaderAddress)
    (hAddressed : Addressed group s)
    {j : ι}
    {c : Call}
    (hPoint : (s.elections j).point = .calling c none) :
    Addressed group
      { s.set j
          ((s.elections j).reply c
            (s.etcd.serve (c.request (group.config j))).2) with
        etcd :=
          (s.etcd.serve (c.request (group.config j))).1 } := by
  have hKeeps :
      ∀ i lease,
        (s.elections i).Published lease →
          lease ∈
              (s.etcd.serve
                (c.request (group.config j))).1.leases →
            HoldsKeys group
              (s.etcd.serve
                (c.request (group.config j))).1 i lease := by
    intro i lease hPublished hLive
    have hKnown :=
      hAddressed.safe.known i lease (.inl hPublished.1)
    exact
      held_serve_of_spares hAddressed
        (spares_of_calling hDistinct hAddressed hPoint
          hPublished (mem_leases_of_serve lease hLive hKnown))
        hPublished hLive
  refine ⟨safe_effect hAddressed.safe hPoint, ?_, ?_, ?_⟩
  · intro i
    show
      (Function.update s.elections j
        ((s.elections j).reply c _) i).Seated
    by_cases hSame : i = j
    · rw [hSame, Function.update_self]
      exact
        LeaderElection.seated_reply (hAddressed.seated j) hPoint
    · rw [Function.update_of_ne hSame]
      exact hAddressed.seated i
  · intro i lease hPublished hLive
    change
      (Function.update s.elections j
        ((s.elections j).reply c _) i).Published lease
      at hPublished
    by_cases hSame : i = j
    · subst hSame
      rw [Function.update_self] at hPublished
      rcases
        LeaderElection.published_reply (hAddressed.seated i)
          hPoint hPublished with hOld | rfl
      · exact hKeeps i lease hOld hLive
      · exact held_serve_put hAddressed hPoint rfl hLive
    · rw [Function.update_of_ne hSame] at hPublished
      exact hKeeps i lease hPublished hLive
  · apply puts_of_leases hAddressed (fun _ => id)
      (Server.nextLease_le_serve _ _) mem_leases_of_serve
    intro i hCrashed
    apply Function.update_of_ne
    rintro rfl
    rw [hPoint] at hCrashed
    cases hCrashed

theorem addressed_answer
    {group : Replicas ι}
    {s : State ι}
    (hAddressed : Addressed group s)
    {i : ι}
    {c : Call}
    {reply : Reply}
    (hPoint : (s.elections i).point = .calling c (some reply))
    (hSafe :
      Safe group
        (s.set i
          ((s.elections i).returned (group.config i)
            (some reply) c))) :
    Addressed group
      (s.set i
        ((s.elections i).returned (group.config i)
          (some reply) c)) := by
  have hStays :
      (s.elections i).Stays
        ((s.elections i).returned (group.config i)
          (some reply) c) :=
    LeaderElection.stays_returned (hAddressed.safe.placed i)
      hPoint (fun _ _ => Option.some_ne_none _)
  refine
    addressed_set hAddressed hSafe hStays.seated
      (fun l hPast _ => hStays.published l hPast) ?_
      (fun _ _ _ => .inl)
  intro hCrashed
  rw [hPoint] at hCrashed
  cases hCrashed

omit [DecidableEq ι] in
/- A put that is left behind, under a lease of its replica. -/
theorem put_of_unserved
    {group : Replicas ι}
    {s : State ι}
    (hAddressed : Addressed group s)
    {i : ι}
    {key value : String}
    {lease : Nat}
    (hMem :
      .put key value lease ∈
        s.inFlight ++
          (s.elections i).unserved (group.config i)) :
    .put key value lease ∈ s.inFlight ∨
      (s.elections i).pendingPut = some lease ∧
        lease < s.etcd.nextLease ∧
          (s.elections i).lease = some lease ∧
            (s.elections i).isLeader = true := by
  rcases List.mem_append.mp hMem with hOld | hNew
  · exact .inl hOld
  · have hPending :=
      LeaderElection.pendingPut_of_unserved hNew
    rcases (hAddressed.seated i).put lease none
        (LeaderElection.point_of_pendingPut hPending) with
      ⟨hLeader, hLease⟩
    exact
      .inr
        ⟨hPending,
          hAddressed.safe.known i lease (.inl hLease),
          hLease, hLeader⟩

/- A call raises. -/
theorem addressed_raise
    {group : Replicas ι}
    {s : State ι}
    (hAddressed : Addressed group s)
    {i : ι}
    {c : Call}
    {reply : Option Reply}
    (hPoint : (s.elections i).point = .calling c reply)
    (hDelivers : Delivers group s (.raise i))
    {r : LeaderElection}
    (hReturned :
      r = (s.elections i).returned (group.config i) none c)
    {queue : List (Request String String)}
    (hLeft :
      queue =
        s.inFlight ++
          (s.elections i).unserved (group.config i))
    (hSafe : Safe group { s.set i r with inFlight := queue }) :
    Addressed group { s.set i r with inFlight := queue } := by
  have hQueue :
      ∀ key value lease,
        .put key value lease ∈ queue →
          .put key value lease ∈ s.inFlight ∨
            lease < s.etcd.nextLease ∧
              (lease ∈ s.etcd.leases →
                r.Claims lease ∧ r.point = .crashed) := by
    intro key value lease hMem
    rw [hLeft] at hMem
    rcases put_of_unserved hAddressed hMem with
      hOld | ⟨hPending, hKnown, _, _⟩
    · exact .inl hOld
    · right
      refine ⟨hKnown, ?_⟩
      intro hLive
      exact absurd hLive (hDelivers lease hPending)
  have hCrashed :
      (s.elections i).point = .crashed →
        r.point = .crashed ∧
          ∀ lease,
            (s.elections i).Claims lease → r.Claims lease := by
    intro hAt
    rw [hPoint] at hAt
    cases hAt
  cases hPending : (s.elections i).pendingPut with
  | none =>
      have hPut :
          ∀ lease, c = .campaignPut lease → reply ≠ none := by
        rintro lease rfl rfl
        rw [LeaderElection.pendingPut, hPoint] at hPending
        cases hPending
      have hStays : (s.elections i).Stays r := by
        rw [hReturned]
        exact
          LeaderElection.stays_returned
            (hAddressed.safe.placed i) hPoint hPut
      exact
        addressed_set hAddressed hSafe hStays.seated
          (fun l hPast _ => hStays.published l hPast)
          hCrashed hQueue
  | some lease =>
      have hAt := LeaderElection.point_of_pendingPut hPending
      rw [hPoint] at hAt
      cases hAt
      have hOver := hDelivers lease hPending
      rcases
        LeaderElection.stays_returned_put
          (hAddressed.seated i) hPoint with
        ⟨hSeated, hPublished⟩
      rw [← hReturned] at hSeated hPublished
      refine
        addressed_set hAddressed hSafe hSeated ?_ hCrashed
          hQueue
      intro l hPast hLive
      cases hPublished l hPast
      exact absurd hLive hOver

/- A replica crashes. -/
theorem addressed_crash
    {group : Replicas ι}
    {s : State ι}
    (hAddressed : Addressed group s)
    {i : ι}
    {queue : List (Request String String)}
    (hLeft :
      queue =
        s.inFlight ++
          (s.elections i).unserved (group.config i))
    (hSafe :
      Safe group
        { s.set i { s.elections i with point := .crashed } with
          inFlight := queue }) :
    Addressed group
      { s.set i { s.elections i with point := .crashed } with
        inFlight := queue } := by
  have hStays := (s.elections i).stays_crash
  refine
    addressed_set hAddressed hSafe hStays.seated
      (fun l hPast _ => hStays.published l hPast) ?_ ?_
  · intro hPoint
    refine ⟨rfl, ?_⟩
    rintro lease ⟨hLease, hLeader | hWon⟩
    · exact ⟨hLease, .inl hLeader⟩
    · rw [hPoint] at hWon
      cases hWon
  · intro key value lease hMem
    rw [hLeft] at hMem
    rcases put_of_unserved hAddressed hMem with
      hOld | ⟨_, hKnown, hLease, hLeader⟩
    · exact .inl hOld
    · exact
        .inr ⟨hKnown, fun _ => ⟨⟨hLease, .inl hLeader⟩, rfl⟩⟩

omit [DecidableEq ι] in
/- A request that was left behind takes effect. -/
theorem addressed_late
    {group : Replicas ι}
    {s : State ι}
    (hAddressed : Addressed group s)
    {n : Nat}
    {request : Request String String}
    (hMem : s.inFlight[n]? = some request)
    (hDelivers : Delivers group s (.late n)) :
    Addressed group
      { s with
        etcd := (s.etcd.serve request).1
        inFlight := s.inFlight.eraseIdx n } := by
  have hIn : request ∈ s.inFlight := List.mem_of_getElem? hMem
  refine
    ⟨safe_late hAddressed.safe hMem, hAddressed.seated, ?_, ?_⟩
  · intro i lease hPublished hLive
    have hKnown :=
      hAddressed.safe.known i lease (.inl hPublished.1)
    have hOld := mem_leases_of_serve lease hLive hKnown
    refine
      held_serve_of_spares hAddressed ⟨?_, ?_⟩ hPublished hLive
    · intro hTouches
      exact
        (hAddressed.safe.late request hIn i
          hTouches).not_published lease hPublished
    · intro hTouches
      cases request with
      | put key value l =>
          refine ⟨key, value, l, rfl, ?_⟩
          intro hLive'
          rcases (hAddressed.puts key value l hIn).2 hLive' with
            ⟨j, hClaims, hPoint⟩
          cases
            eq_of_published_of_claims hAddressed hPublished
              hOld hClaims hLive'
          have hPast := hPublished.2
          rw [LeaderElection.pastPut, LeaderElection.inServe,
            hPoint] at hPast
          cases hPast
      | deleteIf key value =>
          rcases hTouches with ⟨rfl, rfl⟩
          exact
            absurd hMem
              (hDelivers i hPublished.2 lease hPublished.1 hOld)
      | grant => cases hTouches
      | revoke l => cases hTouches
      | refresh l => cases hTouches
      | get key => cases hTouches
      | create key value l => cases hTouches
  · exact
      puts_of_leases hAddressed
        (fun _ => List.mem_of_mem_eraseIdx)
        (Server.nextLease_le_serve _ _) mem_leases_of_serve
        (fun _ _ => rfl)

omit [DecidableEq ι] in
/- A lease ends. -/
theorem addressed_expire
    {group : Replicas ι}
    {s : State ι}
    (hAddressed : Addressed group s)
    (lease : Nat) :
    Addressed group
      { s with etcd := s.etcd.endLease lease } := by
  refine
    ⟨safe_expire hAddressed.safe lease, hAddressed.seated,
      ?_, ?_⟩
  · intro i l hPublished hLive
    rcases Server.mem_leases_endLease.mp hLive with ⟨hOld, hNe⟩
    have hHeld := hAddressed.held i l hPublished hOld
    exact
      ⟨Server.keys_endLease hHeld.key hNe,
        Server.keys_endLease hHeld.address hNe⟩
  · refine
      puts_of_leases hAddressed (fun _ => id)
        (Nat.le_refl _) ?_ (fun _ _ => rfl)
    intro l hLive _
    exact (Server.mem_leases_endLease.mp hLive).1

/- Every step that delivers keeps the address of a leader. -/
theorem addressed_step
    {group : Replicas ι}
    {s s' : State ι}
    {act : Act ι}
    (hDistinct :
      Function.Injective fun i =>
        (group.config i).leaderAddress)
    (hAddressed : Addressed group s)
    (hDelivers : Delivers group s act)
    (hStep : step group s act = some s') :
    Addressed group s' := by
  have hSafe := safe_step hAddressed.safe hStep
  cases steps_of_step hStep with
  | @proceed i r hProceed =>
      have hStays := LeaderElection.stays_proceed hProceed
      refine
        addressed_set hAddressed hSafe hStays.seated
          (fun l hPast _ => hStays.published l hPast) ?_
          (fun _ _ _ => .inl)
      intro hPoint
      rw [LeaderElection.proceed, hPoint] at hProceed
      cases hProceed
  | effect hPoint =>
      exact addressed_effect hDistinct hAddressed hPoint
  | answer hPoint =>
      exact addressed_answer hAddressed hPoint hSafe
  | raise hPoint =>
      exact
        addressed_raise hAddressed hPoint hDelivers rfl rfl
          hSafe
  | late hMem =>
      exact addressed_late hAddressed hMem hDelivers
  | expire _ => exact addressed_expire hAddressed _
  | @stepDown i =>
      have hStays :=
        LeaderElection.stays_stepDown (hAddressed.seated i)
      exact
        addressed_set hAddressed hSafe hStays.seated
          (fun l hPast _ => hStays.published l hPast)
          (fun hPoint => ⟨hPoint, fun _ => id⟩)
          (fun _ _ _ => .inl)
  | crash => exact addressed_crash hAddressed rfl hSafe

/-
  A serving leader is reachable, in every run in which the
  put of an address raises without effect only under a lease
  that is over and no delete that was given up hits a leader.
-/
theorem leader_reachable
    {group : Replicas ι}
    (hDistinct :
      Function.Injective fun i =>
        (group.config i).leaderAddress)
    {etcd : Server String String}
    {c : Counted ι}
    (hRun :
      Reaches (count group)
        (fun c act => Delivers group c.state act)
        (.start etcd) c) :
    ∀ i lease,
      Serves c i lease →
        c.state.etcd.keys (group.config i).addressKey =
          some ⟨(group.config i).leaderAddress, some lease⟩ := by
  have hAddressed : Addressed group c.state := by
    apply hRun.invariant (addressed_start group etcd)
    intro c c' act hPrior hDelivers hStep
    rcases Option.map_eq_some_iff.mp hStep with
      ⟨s, hTaken, rfl⟩
    exact addressed_step hDistinct hPrior hDelivers hTaken
  intro i lease hServes
  have hPast :=
    LeaderElection.pastPut_of_inServe hServes.inside
  exact
    (hAddressed.held i lease ⟨hServes.lease, hPast⟩
      hServes.alive).address

theorem twoReplicas_addresses :
    Function.Injective fun i =>
      (twoReplicas.config i).leaderAddress := by
  show ∀ i j : Bool, _ = _ → i = j
  decide

/-
  The lease of the first leader ends while it serves.  The
  second one wins, and publishes its address over nothing.
-/
def succeeded : Counted Bool :=
  final (count twoReplicas) (.start .empty)
    [.proceed true, .effect true, .answer true, .effect true,
      .answer true, .effect true, .answer true,
      .proceed true, .expire 0,
      .proceed false, .effect false, .answer false,
      .effect false, .answer false, .effect false,
      .raise false, .proceed false, .effect false,
      .answer false, .effect false, .answer false,
      .effect true, .answer true, .effect true, .raise true,
      .effect true]
    (by decide)

theorem leader_reachable_succeeded :
    Serves succeeded false 1 ∧
      succeeded.state.etcd.keys "/match/m1/leader-address" =
        some ⟨"room-2:8000", some 1⟩ := by
  have hServes : Serves succeeded false 1 := by
    constructor <;> decide
  have hReachable :=
    leader_reachable twoReplicas_addresses
      (reaches_of_run (run_eq_final (by decide)) (by decide) :
        Reaches (count twoReplicas)
          (fun c act => Delivers twoReplicas c.state act)
          (.start .empty) succeeded)
  exact ⟨hServes, hReachable false 1 hServes⟩

/-
  The put of the address raises without effect; the leader
  serves on, and no later iteration repeats the put.
-/
def unpublished : Counted Bool :=
  final (count twoReplicas) (.start .empty)
    [.proceed true, .effect true, .answer true, .effect true,
      .answer true, .raise true, .proceed true, .effect true,
      .answer true, .effect true, .answer true]
    (by decide)

theorem address_never_published :
    (Function.Injective fun i =>
        (twoReplicas.config i).leaderAddress) ∧
      Reachable (count twoReplicas) (.start .empty)
          unpublished ∧
        Serves unpublished true 0 ∧
          unpublished.state.etcd.keys
              (twoReplicas.config true).addressKey =
            none := by
  refine
    ⟨twoReplicas_addresses,
      reachable_of_run (run_eq_final (by decide)), ?_,
      by decide⟩
  constructor <;> decide

end Election
