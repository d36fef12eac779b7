import MultiplayerInfra.Etcd.Server
import MultiplayerInfra.Machine.Run

/-
  The election threads of the replicas of a match, over one
  etcd server.

  Key definitions include:
    * `Election.Call`
    * `Election.LeaderElection`
    * `Election.LeaderElection.proceed`
    * `Election.LeaderElection.returned`
    * `Election.Replicas`
    * `Election.step`

  Key theorems include:
    * `Election.steps_of_step`

  A thread stands at the head of one of its loops or waits
  for an etcd call.  A call takes effect at most once: before
  it returns, before it raises, or some time after it raised.
-/

------------------------------------------------------------
-- Election Threads
------------------------------------------------------------

namespace Election

open Etcd

abbrev Reply := Response String

/- The etcd calls, each by the place that makes it. -/
inductive Call where
  -- `_campaign`
  | campaignRevoke (lease : Nat)
  | campaignLease
  | campaignTxn (lease : Nat)
  | campaignPut (lease : Nat)
  -- `_serve_as_leader`
  | serveGet
  | serveRefresh (lease : Nat)
  -- `_lose_leadership`
  | loseRevoke (lease : Nat)
  | loseDeleteAddress
  -- `_wait_for_key_release`
  | waitGet
  -- `_cleanup`
  | cleanupRevoke (lease : Nat)
  | cleanupDelete
  | cleanupDeleteAddress
deriving DecidableEq

/-
  Where a thread is.  A call without a reply has not taken
  effect; its reply is kept until the call returns or raises.
-/
inductive Point where
  | run
  | serving
  | waiting
  | calling (call : Call) (reply : Option Reply)
  | finished
  | crashed
deriving DecidableEq

inductive Callback where
  | elected
  | lost
deriving DecidableEq

/- The callback that follows another one. -/
def Callback.next : Callback → Callback
| .elected => .lost
| .lost => .elected

/- The callbacks alternate, beginning with `elected`. -/
def callback : Nat → Callback
| 0 => .elected
| n + 1 => (callback n).next

/- The fields that `run` reads and writes. -/
structure LeaderElection where
  lease : Option Nat
  isLeader : Bool
  stop : Bool
  point : Point
  -- the callbacks passed to `_dispatch`, in order
  dispatched : List Callback

/- What `__init__` is given for one replica. -/
structure Config where
  matchId : String
  instanceId : String
  roomAddress : String

namespace Config

def key (config : Config) : String :=
  "/match/" ++ config.matchId ++ "/leader"

def addressKey (config : Config) : String :=
  "/match/" ++ config.matchId ++ "/leader-address"

def leaderAddress (config : Config) : String :=
  if config.roomAddress = "" then
    config.instanceId ++ ":8000"
  else config.roomAddress

/- The two keys of a match differ. -/
theorem addressKey_ne_key (config config' : Config)
    (hMatch : config.matchId = config'.matchId) :
    config.addressKey ≠ config'.key := by
  intro hEq
  have hLength := congrArg String.length hEq
  simp only [addressKey, key, String.length_append, hMatch]
    at hLength
  have hLeader : "/leader".length = 7 := by decide
  have hAddress : "/leader-address".length = 15 := by decide
  omega

end Config

/- The request that a call sends. -/
def Call.request
    (config : Config) :
    Call → Request String String
| .campaignRevoke lease => .revoke lease
| .campaignLease => .grant
| .campaignTxn lease =>
    .create config.key config.instanceId lease
| .campaignPut lease =>
    .put config.addressKey config.leaderAddress lease
| .serveGet => .get config.key
| .serveRefresh lease => .refresh lease
| .loseRevoke lease => .revoke lease
| .loseDeleteAddress =>
    .deleteIf config.addressKey config.leaderAddress
| .waitGet => .get config.key
| .cleanupRevoke lease => .revoke lease
| .cleanupDelete => .deleteIf config.key config.instanceId
| .cleanupDeleteAddress =>
    .deleteIf config.addressKey config.leaderAddress

end Election

------------------------------------------------------------
-- Between the Calls
------------------------------------------------------------

namespace Election

open Etcd

namespace LeaderElection

/- A thread that was started and has made no call. -/
def new : LeaderElection where
  lease := none
  isLeader := false
  stop := false
  point := .run
  dispatched := []

def call (r : LeaderElection) (c : Call) : LeaderElection :=
  { r with point := .calling c none }

def dispatch
    (r : LeaderElection)
    (callback : Callback) : LeaderElection :=
  { r with dispatched := r.dispatched ++ [callback] }

/-
  `_revoke_lease`: without a lease there is no call, and the
  code after it makes the call `next`.
-/
def revokeLease
    (r : LeaderElection)
    (revoke : Nat → Call)
    (next : Call) : LeaderElection :=
  match r.lease with
  | some lease => r.call (revoke lease)
  | none => r.call next

def campaign (r : LeaderElection) : LeaderElection :=
  r.revokeLease .campaignRevoke .campaignLease

def loseLeadership (r : LeaderElection) : LeaderElection :=
  if r.isLeader then
    { r with isLeader := false }.revokeLease
      .loseRevoke .loseDeleteAddress
  else { r with point := .run }

def cleanup (r : LeaderElection) : LeaderElection :=
  { r with isLeader := false }.revokeLease
    .cleanupRevoke .cleanupDelete

/- The heads of the three loops. -/
def proceed (r : LeaderElection) : Option LeaderElection :=
  match r.point with
  | .run => some (if r.stop then r.cleanup else r.campaign)
  | .serving =>
      some
        (if !r.stop && r.isLeader then r.call .serveGet
        else { r with point := .run })
  | .waiting =>
      some
        (if r.stop then { r with point := .run }
        else r.call .waitGet)
  | .calling _ _ => none
  | .finished => none
  | .crashed => none

/-
  After a call: `none` for one that raised.  A rejected
  request raises in the client as well, so both take the
  branch that remains.
-/
def returned
    (config : Config)
    (r : LeaderElection)
    (answer : Option Reply) : Call → LeaderElection
| .campaignRevoke _ =>
    { r with lease := none }.call .campaignLease
| .campaignLease =>
    match answer with
    | some (.granted lease) =>
        { r with lease := some lease }.call
          (.campaignTxn lease)
    | _ => { r with lease := none, point := .waiting }
| .campaignTxn lease =>
    match answer with
    | some (.txn true) =>
        { r with isLeader := true }.call (.campaignPut lease)
    | some (.txn false) => { r with point := .waiting }
    | _ => { r with lease := none, point := .waiting }
| .campaignPut _ =>
    { r with point := .serving }.dispatch .elected
| .serveGet =>
    match answer with
    | some (.value found) =>
        if found = some config.instanceId then
          match r.lease with
          | some lease => r.call (.serveRefresh lease)
          | none => r.loseLeadership
        else r.loseLeadership
    | _ => r.loseLeadership
| .serveRefresh _ =>
    match answer with
    | some .done => { r with point := .serving }
    | _ => r.loseLeadership
| .loseRevoke _ =>
    { r with lease := none }.call .loseDeleteAddress
| .loseDeleteAddress =>
    { r with point := .run }.dispatch .lost
| .waitGet =>
    match answer with
    | some (.value none) => { r with point := .run }
    | _ => { r with point := .waiting }
| .cleanupRevoke _ =>
    { r with lease := none }.call .cleanupDelete
| .cleanupDelete => r.call .cleanupDeleteAddress
| .cleanupDeleteAddress => { r with point := .finished }

/- The request of a call that has not taken effect. -/
def unserved
    (config : Config)
    (r : LeaderElection) : List (Request String String) :=
  match r.point with
  | .calling c none => [c.request config]
  | _ => []

end LeaderElection

end Election

------------------------------------------------------------
-- The Machine
------------------------------------------------------------

namespace Election

open Etcd

/- The replicas of one match, with distinct identifiers. -/
structure Replicas (ι : Type) where
  matchId : String
  instanceId : ι → String
  roomAddress : ι → String
  distinct : Function.Injective instanceId

def Replicas.config
    {ι : Type}
    (group : Replicas ι)
    (i : ι) : Config where
  matchId := group.matchId
  instanceId := group.instanceId i
  roomAddress := group.roomAddress i

structure State (ι : Type) where
  etcd : Server String String
  elections : ι → LeaderElection
  -- requests of calls that raised without taking effect
  inFlight : List (Request String String)

inductive Act (ι : Type) where
  | proceed (i : ι)
  -- the server executes the call, and its reply arrives
  | effect (i : ι)
  | answer (i : ι)
  -- the call raises, whether or not it took effect
  | raise (i : ι)
  -- a request takes effect after its call raised
  | late (n : Nat)
  | expire (lease : Nat)
  | stepDown (i : ι)
  | crash (i : ι)

namespace State

variable {ι : Type}

/- No thread has made a call; etcd may hold anything. -/
def start (etcd : Server String String) : State ι where
  etcd := etcd
  elections := fun _ => .new
  inFlight := []

variable [DecidableEq ι]

def set
    (s : State ι)
    (i : ι)
    (r : LeaderElection) : State ι :=
  { s with elections := Function.update s.elections i r }

end State

variable {ι : Type} [DecidableEq ι]

/- One step of a thread, of etcd or of the environment. -/
def step
    (group : Replicas ι)
    (s : State ι) : Act ι → Option (State ι)
| .proceed i =>
    (s.elections i).proceed.map (fun r => s.set i r)
| .effect i =>
    match (s.elections i).point with
    | .calling c none =>
        let served := s.etcd.serve (c.request (group.config i))
        some
          { s.set i
              { s.elections i with
                point := .calling c (some served.2) } with
            etcd := served.1 }
    | _ => none
| .answer i =>
    match (s.elections i).point with
    | .calling c (some reply) =>
        some
          (s.set i
            ((s.elections i).returned (group.config i)
              (some reply) c))
    | _ => none
| .raise i =>
    match (s.elections i).point with
    | .calling c _ =>
        some
          { s.set i
              ((s.elections i).returned (group.config i)
                none c) with
            inFlight :=
              s.inFlight ++
                (s.elections i).unserved (group.config i) }
    | _ => none
| .late n =>
    match s.inFlight[n]? with
    | some request =>
        some
          { s with
            etcd := (s.etcd.serve request).1
            inFlight := s.inFlight.eraseIdx n }
    | none => none
| .expire lease =>
    if lease ∈ s.etcd.leases then
      some { s with etcd := s.etcd.endLease lease }
    else none
| .stepDown i =>
    some (s.set i { s.elections i with stop := true })
| .crash i =>
    some
      { s.set i { s.elections i with point := .crashed } with
        inFlight :=
          s.inFlight ++
            (s.elections i).unserved (group.config i) }

/- The transitions of `step`, one for each kind. -/
inductive Steps
    (group : Replicas ι)
    (s : State ι) : Act ι → State ι → Prop where
  | proceed
      {i : ι} {r : LeaderElection}
      (hProceed : (s.elections i).proceed = some r) :
      Steps group s (.proceed i) (s.set i r)
  | effect
      {i : ι} {c : Call}
      (hPoint : (s.elections i).point = .calling c none) :
      Steps group s (.effect i)
        { s.set i
            { s.elections i with
              point :=
                .calling c
                  (some
                    (s.etcd.serve
                      (c.request (group.config i))).2) } with
          etcd :=
            (s.etcd.serve (c.request (group.config i))).1 }
  | answer
      {i : ι} {c : Call} {reply : Reply}
      (hPoint :
        (s.elections i).point = .calling c (some reply)) :
      Steps group s (.answer i)
        (s.set i
          ((s.elections i).returned (group.config i)
            (some reply) c))
  | raise
      {i : ι} {c : Call} {reply : Option Reply}
      (hPoint : (s.elections i).point = .calling c reply) :
      Steps group s (.raise i)
        { s.set i
            ((s.elections i).returned (group.config i)
              none c) with
          inFlight :=
            s.inFlight ++
              (s.elections i).unserved (group.config i) }
  | late
      {n : Nat} {request : Request String String}
      (hMem : s.inFlight[n]? = some request) :
      Steps group s (.late n)
        { s with
          etcd := (s.etcd.serve request).1
          inFlight := s.inFlight.eraseIdx n }
  | expire
      {lease : Nat}
      (hAlive : lease ∈ s.etcd.leases) :
      Steps group s (.expire lease)
        { s with etcd := s.etcd.endLease lease }
  | stepDown {i : ι} :
      Steps group s (.stepDown i)
        (s.set i { s.elections i with stop := true })
  | crash {i : ι} :
      Steps group s (.crash i)
        { s.set i
            { s.elections i with point := .crashed } with
          inFlight :=
            s.inFlight ++
              (s.elections i).unserved (group.config i) }

/- Every step of the function is one of the transitions. -/
theorem steps_of_step
    {group : Replicas ι}
    {s s' : State ι}
    {act : Act ι}
    (hStep : step group s act = some s') :
    Steps group s act s' := by
  cases act with
  | proceed i =>
      rcases Option.map_eq_some_iff.mp hStep with
        ⟨r, hProceed, rfl⟩
      exact .proceed hProceed
  | effect i =>
      simp only [step] at hStep
      split at hStep <;> cases hStep
      exact .effect ‹_›
  | answer i =>
      simp only [step] at hStep
      split at hStep <;> cases hStep
      exact .answer ‹_›
  | raise i =>
      simp only [step] at hStep
      split at hStep <;> cases hStep
      exact .raise ‹_›
  | late n =>
      simp only [step] at hStep
      split at hStep <;> cases hStep
      exact .late ‹_›
  | expire lease =>
      simp only [step] at hStep
      split at hStep <;> cases hStep
      exact .expire ‹_›
  | stepDown i =>
      cases hStep
      exact .stepDown
  | crash i =>
      cases hStep
      exact .crash

end Election
