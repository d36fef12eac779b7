import MultiplayerInfra.Election.Address

/-
  The election threads of the replicas of any number of
  matches, over one etcd server.

  Key definitions include:
    * `Election.Deployment`
    * `Election.Shared`
    * `Election.sharedStep`
    * `Election.Sound`

  Key theorems include:
    * `Election.etcd_of_step`
    * `Election.addressed_of_others`
    * `Election.sound_sharedStep`

  The keys of two matches differ, so that no request of one
  match touches what a leader of another one holds.
-/

------------------------------------------------------------
-- The Machine
------------------------------------------------------------

namespace Election

open Etcd

/- The replicas of each match; no two matches have one id. -/
structure Deployment (μ ι : Type) where
  replicas : μ → Replicas ι
  distinct :
    Function.Injective fun m => (replicas m).matchId

namespace Deployment

variable {μ ι : Type}

def matchId (d : Deployment μ ι) (m : μ) : String :=
  (d.replicas m).matchId

def config (d : Deployment μ ι) (m : μ) (i : ι) : Config :=
  (d.replicas m).config i

/- The keys of a match, the same for all of its replicas. -/
def key (d : Deployment μ ι) (m : μ) : String :=
  "/match/" ++ d.matchId m ++ "/leader"

def addressKey (d : Deployment μ ι) (m : μ) : String :=
  "/match/" ++ d.matchId m ++ "/leader-address"

end Deployment

/- The threads and their requests on the way, by match. -/
structure Shared (μ ι : Type) where
  etcd : Server String String
  elections : μ → ι → LeaderElection
  inFlight : μ → List (Request String String)

namespace Shared

variable {μ ι : Type}

def start (etcd : Server String String) : Shared μ ι where
  etcd := etcd
  elections := fun _ _ => .new
  inFlight := fun _ => []

/- What the replicas of one match have. -/
def view (s : Shared μ ι) (m : μ) : State ι where
  etcd := s.etcd
  elections := s.elections m
  inFlight := s.inFlight m

variable [DecidableEq μ]

def put
    (s : Shared μ ι)
    (m : μ)
    (t : State ι) : Shared μ ι where
  etcd := t.etcd
  elections := Function.update s.elections m t.elections
  inFlight := Function.update s.inFlight m t.inFlight

theorem view_put_self
    (s : Shared μ ι)
    (m : μ)
    (t : State ι) :
    (s.put m t).view m = t := by
  simp [view, put]

/- Another match has what it had, over the new etcd. -/
theorem view_put_of_ne
    (s : Shared μ ι)
    {m m' : μ}
    (t : State ι)
    (hNe : m' ≠ m) :
    (s.put m t).view m' =
      { s.view m' with etcd := t.etcd } := by
  simp [view, put, hNe]

end Shared

variable {μ ι : Type} [DecidableEq μ] [DecidableEq ι]

/- A step of one match. -/
def sharedStep
    (d : Deployment μ ι)
    (s : Shared μ ι)
    (act : μ × Act ι) : Option (Shared μ ι) :=
  (step (d.replicas act.1) (s.view act.1) act.2).map
    (s.put act.1)

end Election

------------------------------------------------------------
-- Keys of Matches
------------------------------------------------------------

namespace Election

open Etcd

namespace Config

/- An address key is no leader key of any match. -/
theorem addressKey_ne_leaderKey
    (config config' : Config) :
    config.addressKey ≠ config'.key := by
  intro hSame
  have hLists := congrArg String.toList hSame
  simp only [addressKey, key, String.toList_append]
    at hLists
  have hLast := congrArg List.getLast? hLists
  have hAddress :
      "/leader-address".toList.getLast? = some 's' := by
    decide
  have hLeader : "/leader".toList.getLast? = some 'r' := by
    decide
  simp only [List.getLast?_append, hAddress, hLeader,
    Option.some_or] at hLast
  cases hLast

theorem matchId_of_key
    {config config' : Config}
    (hSame : config.key = config'.key) :
    config.matchId = config'.matchId := by
  have hLists := congrArg String.toList hSame
  simp only [key, String.toList_append] at hLists
  have hFront := List.append_cancel_right hLists
  exact String.toList_inj.mp (List.append_cancel_left hFront)

theorem matchId_of_addressKey
    {config config' : Config}
    (hSame : config.addressKey = config'.addressKey) :
    config.matchId = config'.matchId := by
  have hLists := congrArg String.toList hSame
  simp only [addressKey, String.toList_append] at hLists
  have hFront := List.append_cancel_right hLists
  exact String.toList_inj.mp (List.append_cancel_left hFront)

end Config

/- A request of a match touches the keys of no other one. -/
theorem Call.not_touches
    {config config' : Config}
    (hOther : config.matchId ≠ config'.matchId)
    (c : Call)
    (value : String) :
    ¬ (c.request config).Touches config'.key value ∧
      ¬ (c.request config).Touches config'.addressKey
        value := by
  have hKey : config.key ≠ config'.key :=
    fun hSame => hOther (Config.matchId_of_key hSame)
  have hAddress : config.addressKey ≠ config'.addressKey :=
    fun hSame => hOther (Config.matchId_of_addressKey hSame)
  have hMixed :=
    Config.addressKey_ne_leaderKey config config'
  have hMixed' :=
    Config.addressKey_ne_leaderKey config' config
  cases c <;>
    simp [Call.request, Request.Touches, hKey, hAddress,
      hMixed, hMixed'.symm]

/- A match writes its two keys only. -/
theorem Call.keys_of_writes
    {config : Config}
    {c : Call}
    {key value : String}
    (hWrites : (c.request config).Writes key value) :
    key = config.key ∨
      key = config.addressKey ∧
        value = config.leaderAddress ∧
          ∃ lease, c = .campaignPut lease := by
  cases c with
  | campaignTxn lease => exact .inl hWrites.1.symm
  | campaignPut lease =>
      exact
        .inr ⟨hWrites.1.symm, hWrites.2.symm, lease, rfl⟩
  | campaignRevoke lease => cases hWrites
  | campaignLease => cases hWrites
  | serveGet => cases hWrites
  | serveRefresh lease => cases hWrites
  | loseRevoke lease => cases hWrites
  | loseDeleteAddress => cases hWrites
  | waitGet => cases hWrites
  | cleanupRevoke lease => cases hWrites
  | cleanupDelete => cases hWrites
  | cleanupDeleteAddress => cases hWrites

end Election

------------------------------------------------------------
-- Steps Seen by Other Matches
------------------------------------------------------------

namespace Election

open Etcd

variable {ι : Type}

/- A request that a thread of the group makes. -/
def Replicas.Makes
    (group : Replicas ι)
    (request : Request String String) : Prop :=
  ∃ i c, request = Call.request (group.config i) c

variable {group : Replicas ι}

theorem makes_of_unserved
    {r : LeaderElection}
    {i : ι}
    {request : Request String String}
    (hMem : request ∈ r.unserved (group.config i)) :
    group.Makes request := by
  unfold LeaderElection.unserved at hMem
  split at hMem
  · rename_i c _
    exact ⟨i, c, List.mem_singleton.mp hMem⟩
  · cases hMem

variable [DecidableEq ι]

/-
  A step leaves etcd as it is, has it serve a request of the
  group, or ends a lease; and only such requests are left.
-/
theorem etcd_of_step
    {s t : State ι}
    {act : Act ι}
    (hStep : step group s act = some t)
    (hOwn : ∀ request ∈ s.inFlight, group.Makes request) :
    (t.etcd = s.etcd ∨
        (∃ request, group.Makes request ∧
          t.etcd = (s.etcd.serve request).1) ∨
        ∃ lease, t.etcd = s.etcd.endLease lease) ∧
      ∀ request ∈ t.inFlight, group.Makes request := by
  have hLeft :
      ∀ i, ∀ request ∈
        s.inFlight ++
          (s.elections i).unserved (group.config i),
        group.Makes request := by
    intro i request hMem
    rcases List.mem_append.mp hMem with hOld | hNew
    · exact hOwn request hOld
    · exact makes_of_unserved hNew
  cases steps_of_step hStep with
  | proceed _ => exact ⟨.inl rfl, hOwn⟩
  | @effect i c _ =>
      exact ⟨.inr (.inl ⟨_, ⟨i, c, rfl⟩, rfl⟩), hOwn⟩
  | answer _ => exact ⟨.inl rfl, hOwn⟩
  | @raise i _ _ _ => exact ⟨.inl rfl, hLeft i⟩
  | late hMem =>
      refine
        ⟨.inr (.inl ⟨_, hOwn _ (List.mem_of_getElem? hMem),
          rfl⟩), ?_⟩
      intro request hRest
      exact hOwn request (List.mem_of_mem_eraseIdx hRest)
  | expire _ => exact ⟨.inr (.inr ⟨_, rfl⟩), hOwn⟩
  | stepDown => exact ⟨.inl rfl, hOwn⟩
  | @crash i => exact ⟨.inl rfl, hLeft i⟩

omit [DecidableEq ι] in
/- Etcd serves a request that touches none of the keys. -/
theorem safe_of_others
    {s : State ι}
    (hSafe : Safe group s)
    {request : Request String String}
    (hNot :
      ∀ i value,
        ¬ request.Touches (group.config i).key value) :
    Safe group
      { s with etcd := (s.etcd.serve request).1 } := by
  refine ⟨hSafe.placed, ?_, ?_, hSafe.late⟩
  · intro i lease hKnows
    exact
      Nat.lt_of_lt_of_le (hSafe.known i lease hKnows)
        (Server.nextLease_le_serve _ _)
  · intro i lease hClaims hLive
    refine held_serve hSafe ?_ hClaims hLive
    intro j hTouches
    exact absurd hTouches (hNot j _)

omit [DecidableEq ι] in
theorem addressed_of_others
    {s : State ι}
    (hAddressed : Addressed group s)
    {request : Request String String}
    (hNot :
      ∀ i value,
        ¬ request.Touches (group.config i).key value ∧
          ¬ request.Touches (group.config i).addressKey
            value) :
    Addressed group
      { s with etcd := (s.etcd.serve request).1 } := by
  refine
    ⟨safe_of_others hAddressed.safe
        (fun i value => (hNot i value).1),
      hAddressed.seated, ?_, ?_⟩
  · intro i lease hPublished hLive
    refine
      held_serve_of_spares hAddressed ⟨(hNot i _).1, ?_⟩
        hPublished hLive
    intro hTouches
    exact absurd hTouches (hNot i _).2
  · exact
      puts_of_leases hAddressed (fun _ hMem => hMem)
        (Server.nextLease_le_serve _ _) mem_leases_of_serve
        (fun _ _ => rfl)

end Election

------------------------------------------------------------
-- All Matches
------------------------------------------------------------

namespace Election

open Etcd

variable {μ ι : Type}

/- The requests on the way are those of their matches. -/
def Owned (d : Deployment μ ι) (s : Shared μ ι) : Prop :=
  ∀ m, ∀ request ∈ s.inFlight m,
    (d.replicas m).Makes request

structure Sound
    (d : Deployment μ ι)
    (s : Shared μ ι) : Prop where
  addressed : ∀ m, Addressed (d.replicas m) (s.view m)
  owned : Owned d s

theorem sound_start
    (d : Deployment μ ι)
    (etcd : Server String String) :
    Sound d (Shared.start etcd) where
  addressed := fun m => addressed_start (d.replicas m) etcd
  owned := nofun

theorem not_touches_of_makes
    {d : Deployment μ ι}
    {m m' : μ}
    (hNe : m' ≠ m)
    {request : Request String String}
    (hMakes : (d.replicas m).Makes request)
    (i : ι)
    (value : String) :
    ¬ request.Touches ((d.replicas m').config i).key value ∧
      ¬ request.Touches ((d.replicas m').config i).addressKey
        value := by
  rcases hMakes with ⟨j, c, rfl⟩
  refine Call.not_touches ?_ c value
  intro hSame
  exact hNe (d.distinct hSame).symm

variable [DecidableEq μ] [DecidableEq ι]

/- What a step of a match does, whatever it is. -/
theorem owned_sharedStep
    {d : Deployment μ ι}
    {s t : Shared μ ι}
    {act : μ × Act ι}
    (hOwned : Owned d s)
    (hStep : sharedStep d s act = some t) :
    (t.etcd = s.etcd ∨
        (∃ request, (d.replicas act.1).Makes request ∧
          t.etcd = (s.etcd.serve request).1) ∨
        ∃ lease, t.etcd = s.etcd.endLease lease) ∧
      Owned d t := by
  rcases Option.map_eq_some_iff.mp hStep with
    ⟨u, hTaken, rfl⟩
  rcases etcd_of_step hTaken (hOwned act.1) with
    ⟨hEtcd, hLeft⟩
  refine ⟨hEtcd, ?_⟩
  intro m request hMem
  by_cases hSame : m = act.1
  · subst hSame
    refine hLeft request ?_
    simpa [Shared.put] using hMem
  · refine hOwned m request ?_
    simpa [Shared.put, hSame] using hMem

/-
  A step that delivers keeps the addresses of the leaders of
  all matches.
-/
theorem sound_sharedStep
    {d : Deployment μ ι}
    (hAddresses :
      ∀ m,
        Function.Injective fun i =>
          (d.config m i).leaderAddress)
    {s t : Shared μ ι}
    {m : μ}
    {act : Act ι}
    (hSound : Sound d s)
    (hDelivers : Delivers (d.replicas m) (s.view m) act)
    (hStep : sharedStep d s (m, act) = some t) :
    Sound d t := by
  rcases owned_sharedStep hSound.owned hStep with
    ⟨hEtcd, hOwned⟩
  rcases Option.map_eq_some_iff.mp hStep with
    ⟨u, hTaken, rfl⟩
  refine ⟨?_, hOwned⟩
  intro m'
  by_cases hSame : m' = m
  · subst hSame
    rw [Shared.view_put_self]
    exact
      addressed_step (hAddresses m') (hSound.addressed m')
        hDelivers hTaken
  · rw [Shared.view_put_of_ne s u hSame]
    have hThis := hSound.addressed m'
    rcases hEtcd with hKept | ⟨request, hMakes, hServed⟩ |
        ⟨lease, hEnded⟩
    · rw [show u.etcd = s.etcd from hKept]
      exact hThis
    · rw [show u.etcd = _ from hServed]
      exact
        addressed_of_others hThis
          (not_touches_of_makes hSame hMakes)
    · rw [show u.etcd = _ from hEnded]
      exact addressed_expire hThis lease

omit [DecidableEq μ] [DecidableEq ι] in
/- The address of a leader whose put has taken effect. -/
theorem Sound.address
    {d : Deployment μ ι}
    {s : Shared μ ι}
    (hSound : Sound d s)
    {m : μ}
    {i : ι}
    {lease : Nat}
    (hPublished : (s.elections m i).Published lease)
    (hLive : lease ∈ s.etcd.leases) :
    s.etcd.get (d.config m i).addressKey =
      some (d.config m i).leaderAddress := by
  have hHeld :=
    (hSound.addressed m).held i lease hPublished hLive
  exact congrArg (Option.map Entry.value) hHeld.address

end Election
