import MultiplayerInfra.Discovery.Routes

/-
  Whatever fails, a websocket reaches the static server or a
  replica that was elected.

  Key definitions include:
    * `Election.LeaderElection.Elected`
    * `Discovery.noteElected`
    * `Discovery.AddressOf`
    * `Discovery.Known`

  Key theorems include:
    * `Election.elected_of_step`
    * `Election.get_of_step`
    * `Discovery.known_step`
    * `Discovery.websocket_to_elected`

  An address is put by a thread that has won, read by the
  watcher, and loaded; nothing on the way makes one up.
-/

------------------------------------------------------------
-- Who Puts an Address
------------------------------------------------------------

namespace Election

open Etcd

namespace LeaderElection

/- The thread leads, or is about to put its address. -/
def Elected (r : LeaderElection) : Prop :=
  r.isLeader = true ∨ r.point.asksPut = true

/- A thread that leads no more than `r`, elsewhere. -/
theorem elected_of_point
    {r r' : LeaderElection}
    (hElected : r'.Elected)
    (hLeader : r'.isLeader = r.isLeader)
    (hPoint : r'.point.asksPut = false) :
    r.Elected := by
  rcases hElected with hLeads | hPut
  · exact .inl (hLeader.symm.trans hLeads)
  · rw [hPoint] at hPut
    cases hPut

theorem elected_revokeLease
    {r : LeaderElection}
    {revoke : Nat → Call}
    {next : Call}
    (hRevoke :
      ∀ l, (Point.calling (revoke l) none).asksPut = false)
    (hNext : (Point.calling next none).asksPut = false)
    (hElected : (r.revokeLease revoke next).Elected) :
    r.isLeader = true := by
  unfold revokeLease at hElected
  split at hElected
  · rename_i l _
    rcases hElected with hLeads | hPut
    · exact hLeads
    · have hNot := (hRevoke l).symm.trans hPut
      cases hNot
  · rcases hElected with hLeads | hPut
    · exact hLeads
    · have hNot := hNext.symm.trans hPut
      cases hNot

theorem elected_loseLeadership
    {r : LeaderElection}
    (hElected : r.loseLeadership.Elected) :
    r.Elected := by
  unfold loseLeadership at hElected
  split at hElected
  · exact .inl ‹_›
  · exact elected_of_point hElected rfl rfl

theorem elected_proceed
    {r r' : LeaderElection}
    (hProceed : r.proceed = some r')
    (hElected : r'.Elected) :
    r.Elected := by
  unfold proceed at hProceed
  split at hProceed <;> cases hProceed
  · split at hElected
    · have hNot :=
        elected_revokeLease (fun _ => rfl) rfl hElected
      cases hNot
    · exact
        .inl (elected_revokeLease (fun _ => rfl) rfl hElected)
  · split at hElected
    · exact elected_of_point hElected rfl rfl
    · exact elected_of_point hElected rfl rfl
  · split at hElected
    · exact elected_of_point hElected rfl rfl
    · exact elected_of_point hElected rfl rfl

/- Only the answer to a transaction makes a leader. -/
theorem elected_returned
    {config : Config}
    {r : LeaderElection}
    {answer : Option Reply}
    {c : Call}
    (hElected : (r.returned config answer c).Elected) :
    r.Elected ∨
      answer ≠ none ∧
        (r.returned config answer c).isLeader = true := by
  cases c with
  | campaignLease =>
      left
      simp only [returned] at hElected
      split at hElected
      · exact elected_of_point hElected rfl rfl
      · exact elected_of_point hElected rfl rfl
  | campaignTxn l =>
      revert hElected
      simp only [returned]
      split
      · intro _
        exact .inr ⟨Option.some_ne_none _, rfl⟩
      · exact fun hThis => .inl (elected_of_point hThis rfl rfl)
      · exact fun hThis => .inl (elected_of_point hThis rfl rfl)
  | serveGet =>
      left
      simp only [returned] at hElected
      split at hElected
      · split at hElected
        · split at hElected
          · exact elected_of_point hElected rfl rfl
          · exact elected_loseLeadership hElected
        · exact elected_loseLeadership hElected
      · exact elected_loseLeadership hElected
  | serveRefresh l =>
      left
      simp only [returned] at hElected
      split at hElected
      · exact elected_of_point hElected rfl rfl
      · exact elected_loseLeadership hElected
  | waitGet =>
      left
      simp only [returned] at hElected
      split at hElected
      · exact elected_of_point hElected rfl rfl
      · exact elected_of_point hElected rfl rfl
  | campaignRevoke l =>
      exact .inl (elected_of_point hElected rfl rfl)
  | campaignPut l =>
      exact .inl (elected_of_point hElected rfl rfl)
  | loseRevoke l =>
      exact .inl (elected_of_point hElected rfl rfl)
  | loseDeleteAddress =>
      exact .inl (elected_of_point hElected rfl rfl)
  | cleanupRevoke l =>
      exact .inl (elected_of_point hElected rfl rfl)
  | cleanupDelete =>
      exact .inl (elected_of_point hElected rfl rfl)
  | cleanupDeleteAddress =>
      exact .inl (elected_of_point hElected rfl rfl)

end LeaderElection

end Election

------------------------------------------------------------
-- Steps of a Match
------------------------------------------------------------

namespace Election

open Etcd

variable {ι : Type}

/- One call only puts a key. -/
theorem Call.eq_of_request_put
    {config : Config}
    {c : Call}
    {key value : String}
    {lease : Nat}
    (hRequest : c.request config = .put key value lease) :
    c = .campaignPut lease ∧
      key = config.addressKey ∧
        value = config.leaderAddress := by
  cases c with
  | campaignPut l =>
      cases hRequest
      exact ⟨rfl, rfl, rfl⟩
  | campaignRevoke l => cases hRequest
  | campaignLease => cases hRequest
  | campaignTxn l => cases hRequest
  | serveGet => cases hRequest
  | serveRefresh l => cases hRequest
  | loseRevoke l => cases hRequest
  | loseDeleteAddress => cases hRequest
  | waitGet => cases hRequest
  | cleanupRevoke l => cases hRequest
  | cleanupDelete => cases hRequest
  | cleanupDeleteAddress => cases hRequest

/- A call that raised, and the put among its requests. -/
theorem put_of_unserved_call
    {r : LeaderElection}
    {config : Config}
    {key value : String}
    {lease : Nat}
    (hMem : .put key value lease ∈ r.unserved config) :
    r.Elected ∧
      key = config.addressKey ∧
        value = config.leaderAddress := by
  unfold LeaderElection.unserved at hMem
  split at hMem
  · rename_i c hPoint
    have hRequest := List.mem_singleton.mp hMem
    rcases Call.eq_of_request_put hRequest.symm with
      ⟨rfl, hPut⟩
    exact ⟨.inr (by rw [hPoint]; rfl), hPut⟩
  · cases hMem

variable [DecidableEq ι]
variable {group : Replicas ι}
variable {s t : State ι}
variable {act : Act ι}

theorem elected_set
    {i j : ι}
    {r : LeaderElection}
    (hElected : ((s.set i r).elections j).Elected) :
    (s.elections j).Elected ∨ j = i ∧ r.Elected := by
  change (Function.update s.elections i r j).Elected
    at hElected
  by_cases hSame : j = i
  · subst hSame
    rw [Function.update_self] at hElected
    exact .inr ⟨rfl, hElected⟩
  · rw [Function.update_of_ne hSame] at hElected
    exact .inl hElected

/- Only an answer to a thread makes a leader of it. -/
theorem elected_of_step
    (hStep : step group s act = some t)
    {j : ι}
    (hElected : (t.elections j).Elected) :
    (s.elections j).Elected ∨
      act = .answer j ∧
        (t.elections j).isLeader = true := by
  cases steps_of_step hStep with
  | proceed hProceed =>
      left
      rcases elected_set hElected with hOld | ⟨rfl, hNew⟩
      · exact hOld
      · exact LeaderElection.elected_proceed hProceed hNew
  | @effect i c hPoint =>
      left
      rcases elected_set hElected with
        hOld | ⟨rfl, hLeads | hPut⟩
      · exact hOld
      · exact .inl hLeads
      · right
        rw [hPoint]
        cases c <;> first | rfl | cases hPut
  | @answer i c reply hPoint =>
      rcases elected_set hElected with hOld | ⟨rfl, hNew⟩
      · exact .inl hOld
      · rcases LeaderElection.elected_returned hNew with
          hOld | ⟨_, hLeads⟩
        · exact .inl hOld
        · right
          refine ⟨rfl, ?_⟩
          show (Function.update s.elections _ _ _).isLeader = _
          rw [Function.update_self]
          exact hLeads
  | raise _ =>
      left
      rcases elected_set hElected with hOld | ⟨rfl, hNew⟩
      · exact hOld
      · rcases LeaderElection.elected_returned hNew with
          hOld | ⟨hAnswered, _⟩
        · exact hOld
        · exact absurd rfl hAnswered
  | late _ => exact .inl hElected
  | expire _ => exact .inl hElected
  | stepDown =>
      left
      rcases elected_set hElected with hOld | ⟨rfl, hNew⟩
      · exact hOld
      · exact hNew
  | crash =>
      left
      rcases elected_set hElected with hOld | ⟨rfl, hNew⟩
      · exact hOld
      · exact LeaderElection.elected_of_point hNew rfl rfl

/- A put is left behind by an elected thread. -/
theorem put_of_step
    (hStep : step group s act = some t)
    {key value : String}
    {lease : Nat}
    (hMem : .put key value lease ∈ t.inFlight) :
    .put key value lease ∈ s.inFlight ∨
      ∃ i,
        (s.elections i).Elected ∧
          key = (group.config i).addressKey ∧
            value = (group.config i).leaderAddress := by
  have hLeft :
      ∀ i,
        .put key value lease ∈
            s.inFlight ++
              (s.elections i).unserved (group.config i) →
          .put key value lease ∈ s.inFlight ∨
            ∃ i,
              (s.elections i).Elected ∧
                key = (group.config i).addressKey ∧
                  value = (group.config i).leaderAddress := by
    intro i hThis
    rcases List.mem_append.mp hThis with hOld | hNew
    · exact .inl hOld
    · exact .inr ⟨i, put_of_unserved_call hNew⟩
  cases steps_of_step hStep with
  | proceed _ => exact .inl hMem
  | effect _ => exact .inl hMem
  | answer _ => exact .inl hMem
  | @raise i _ _ _ => exact hLeft i hMem
  | late _ => exact .inl (List.mem_of_mem_eraseIdx hMem)
  | expire _ => exact .inl hMem
  | stepDown => exact .inl hMem
  | @crash i => exact hLeft i hMem

/- A value of a key other than the leader key was put. -/
theorem get_of_step
    (hOwn : ∀ request ∈ s.inFlight, group.Makes request)
    (hStep : step group s act = some t)
    {key value : String}
    (hKey : ∀ config : Config, key ≠ config.key)
    (hGet : t.etcd.get key = some value) :
    s.etcd.get key = some value ∨
      (∃ i,
        (s.elections i).Elected ∧
          key = (group.config i).addressKey ∧
            value = (group.config i).leaderAddress) ∨
      ∃ lease, .put key value lease ∈ s.inFlight := by
  cases steps_of_step hStep with
  | proceed _ => exact .inl hGet
  | @effect i c hPoint =>
      rcases Server.get_of_serve hGet with hOld | hWrites
      · exact .inl hOld
      · right
        left
        rcases Call.keys_of_writes hWrites with
          hLeader | ⟨hAddress, hValue, lease, rfl⟩
        · exact absurd hLeader (hKey _)
        · refine ⟨i, ?_, hAddress, hValue⟩
          exact .inr (by rw [hPoint]; rfl)
  | answer _ => exact .inl hGet
  | raise _ => exact .inl hGet
  | late hMem =>
      have hIn := List.mem_of_getElem? hMem
      rcases Server.get_of_serve hGet with hOld | hWrites
      · exact .inl hOld
      · right
        right
        rcases hOwn _ hIn with ⟨i, c, rfl⟩
        rcases Call.keys_of_writes hWrites with
          hLeader | ⟨rfl, rfl, lease, rfl⟩
        · exact absurd hLeader (hKey _)
        · exact ⟨lease, hIn⟩
  | expire _ => exact .inl (Server.get_of_endLease hGet)
  | stepDown => exact .inl hGet
  | crash => exact .inl hGet

end Election

------------------------------------------------------------
-- What Was Elected
------------------------------------------------------------

namespace Discovery

open Py Etcd Election Watcher Gateway Machine

variable {μ ι : Type} [DecidableEq μ] [DecidableEq ι]

/- The replicas that have learned that they were elected. -/
def noteElected
    (_ : System μ ι)
    (act : Act μ ι)
    (t : System μ ι)
    (elected : List (μ × ι)) : List (μ × ι) :=
  match act with
  | .room m (.answer i) =>
      if (t.rooms.elections m i).isLeader then
        (m, i) :: elected
      else elected
  | _ => elected

/- The address is that of an elected replica of the match. -/
def AddressOf
    (d : Deployment μ ι)
    (elected : List (μ × ι))
    (id address : String) : Prop :=
  ∃ m i,
    (m, i) ∈ elected ∧
      id = d.matchId m ∧
        address = (d.config m i).leaderAddress

/- The addresses that are put are those of the elected. -/
structure Puts
    (d : Deployment μ ι)
    (s : Shared μ ι)
    (elected : List (μ × ι)) : Prop where
  owned : Owned d s
  threads :
    ∀ m i, (s.elections m i).Elected → (m, i) ∈ elected
  puts :
    ∀ m value lease,
      .put (d.addressKey m) value lease ∈ s.inFlight m →
        AddressOf d elected (d.matchId m) value
  etcd :
    ∀ m value,
      s.etcd.get (d.addressKey m) = some value →
        AddressOf d elected (d.matchId m) value

/- Nothing has an address of a replica not yet elected. -/
structure Known
    (d : Deployment μ ι)
    (names : List String)
    (s : System μ ι × List (μ × ι)) : Prop where
  puts : Puts d s.1.rooms s.2
  contents :
    s.1.watcher.state.etcd =
      getPrefix names s.1.rooms.etcd
  sourced :
    Sourced (AddressOf d s.2) s.1.watcher.state
  loaded : SetOf (AddressOf d s.2) s.1.proxy.loaded

variable {d : Deployment μ ι}

omit [DecidableEq μ] [DecidableEq ι] in
theorem AddressOf.mono
    {elected elected' : List (μ × ι)}
    (hSub : elected ⊆ elected')
    {id address : String}
    (hAddress : AddressOf d elected id address) :
    AddressOf d elected' id address := by
  rcases hAddress with ⟨m, i, hMem, hRest⟩
  exact ⟨m, i, hSub hMem, hRest⟩

omit [DecidableEq μ] [DecidableEq ι] in
theorem subset_noteElected
    (s : System μ ι)
    (act : Act μ ι)
    (t : System μ ι)
    (elected : List (μ × ι)) :
    elected ⊆ noteElected s act t elected := by
  unfold noteElected
  split
  · split
    · exact List.subset_cons_self _ _
    · exact List.Subset.refl _
  · exact List.Subset.refl _

omit [DecidableEq μ] [DecidableEq ι] in
/- A key of an address is that of one match. -/
theorem eq_of_addressKey
    {m m' : μ}
    {i : ι}
    (hKey :
      d.addressKey m' =
        ((d.replicas m).config i).addressKey) :
    m' = m := by
  have hSame :
      (Config.mk (d.matchId m') "" "").addressKey =
        ((d.replicas m).config i).addressKey :=
    hKey
  exact d.distinct (Config.matchId_of_addressKey hSame)

omit [DecidableEq μ] [DecidableEq ι] in
/- The key of a put tells the match. -/
theorem eq_of_makes_put
    {m m' : μ}
    {value : String}
    {lease : Nat}
    (hMakes :
      (d.replicas m).Makes
        (.put (d.addressKey m') value lease)) :
    m' = m := by
  rcases hMakes with ⟨i, c, hRequest⟩
  rcases Call.eq_of_request_put hRequest.symm with
    ⟨_, hKey, _⟩
  exact eq_of_addressKey hKey

/- A step of a match, with those it makes leaders noted. -/
theorem puts_sharedStep
    {s t : Shared μ ι}
    {m : μ}
    {act : Election.Act ι}
    {elected elected' : List (μ × ι)}
    (hPuts : Puts d s elected)
    (hStep : sharedStep d s (m, act) = some t)
    (hSub : elected ⊆ elected')
    (hNoted :
      ∀ i, act = .answer i →
        (t.elections m i).isLeader = true →
          (m, i) ∈ elected') :
    Puts d t elected' := by
  have hOwned := (owned_sharedStep hPuts.owned hStep).2
  rcases Option.map_eq_some_iff.mp hStep with
    ⟨u, hTaken, rfl⟩
  have hThreads :
      ∀ i, ((s.view m).elections i).Elected →
        AddressOf d elected' (d.matchId m)
          ((d.replicas m).config i).leaderAddress :=
    fun i hElected =>
      ⟨m, i, hSub (hPuts.threads m i hElected), rfl, rfl⟩
  refine ⟨hOwned, ?_, ?_, ?_⟩
  · intro m' i hElected
    by_cases hSame : m' = m
    · subst hSame
      have hView :
          (s.put m' u).elections m' = u.elections :=
        Function.update_self _ _ _
      rw [hView] at hElected
      rcases elected_of_step hTaken hElected with
        hOld | ⟨hAct, hLeads⟩
      · exact hSub (hPuts.threads m' i hOld)
      · refine hNoted i hAct ?_
        rw [hView]
        exact hLeads
    · refine hSub (hPuts.threads m' i ?_)
      simpa [Shared.put, hSame] using hElected
  · intro m' value lease hMem
    by_cases hSame : m' = m
    · subst hSame
      have hView :
          (s.put m' u).inFlight m' = u.inFlight :=
        Function.update_self _ _ _
      rw [hView] at hMem
      rcases put_of_step hTaken hMem with
        hOld | ⟨i, hElected, _, rfl⟩
      · exact (hPuts.puts m' value lease hOld).mono hSub
      · exact hThreads i hElected
    · refine (hPuts.puts m' value lease ?_).mono hSub
      simpa [Shared.put, hSame] using hMem
  · intro m' value hGet
    have hKey :
        ∀ config : Config, d.addressKey m' ≠ config.key :=
      Config.addressKey_ne_leaderKey
        (Config.mk (d.matchId m') "" "")
    rcases get_of_step (hPuts.owned m) hTaken hKey hGet with
      hOld | ⟨i, hElected, hSame, rfl⟩ | ⟨lease, hMem⟩
    · exact (hPuts.etcd m' value hOld).mono hSub
    · rw [eq_of_addressKey hSame]
      exact hThreads i hElected
    · have hSame := eq_of_makes_put (hPuts.owned m _ hMem)
      subst hSame
      exact (hPuts.puts _ value lease hMem).mono hSub

omit [DecidableEq μ] [DecidableEq ι] in
/- What a read may take from etcd. -/
theorem contentsOf_getPrefix
    (hNamed : WellNamed d)
    (directory : Directory d)
    {s : Shared μ ι}
    {elected : List (μ × ι)}
    (hPuts : Puts d s elected) :
    ContentsOf (AddressOf d elected)
      (getPrefix directory.names s.etcd) := by
  rintro ⟨key, value⟩ hMem id hTakes
  rcases mem_getPrefix.mp hMem with ⟨hKey, hGet⟩
  rcases (takes_iff hNamed directory hKey).mp hTakes with
    ⟨_, m, rfl, rfl⟩
  exact hPuts.etcd m value hGet

theorem known_step
    (hNamed : WellNamed d)
    (directory : Directory d)
    {s t : System μ ι × List (μ × ι)}
    {act : Act μ ι}
    (hKnown : Known d directory.names s)
    (hStep :
      observe (step d directory.names) noteElected s act =
        some t) :
    Known d directory.names t := by
  rcases observe_eq_some_iff.mp hStep with ⟨hTaken, hNote⟩
  rcases t with ⟨t, elected⟩
  change elected = noteElected s.1 act t s.2 at hNote
  change step d directory.names s.1 act = some t at hTaken
  cases steps_of_step hTaken with
  | @room m act rooms watcher hRooms hWatcher =>
      have hSub : s.2 ⊆ elected := by
        rw [hNote]
        exact subset_noteElected _ _ _ _
      have hPuts : Puts d rooms elected := by
        refine
          puts_sharedStep hKnown.puts hRooms hSub ?_
        rintro i rfl hLeads
        rw [hNote]
        show
          (m, i) ∈
            if (rooms.elections m i).isLeader = true then
              (m, i) :: s.2
            else s.2
        rw [if_pos hLeads]
        exact List.mem_cons_self
      have hImp :
          ∀ id address,
            AddressOf d s.2 id address →
              AddressOf d elected id address :=
        fun _ _ hAddress => hAddress.mono hSub
      rcases Option.map_eq_some_iff.mp hWatcher with
        ⟨state, hState, rfl⟩
      refine
        ⟨hPuts, ?_, ?_, hKnown.loaded.mono hImp⟩
      · cases hState
        rfl
      · refine
          sourced_step (hKnown.sourced.mono hImp) ?_ hState
        rintro contents hEtcd
        cases hEtcd
        exact contentsOf_getPrefix hNamed directory hPuts
  | @watch act time watcher hOwn hWatcher =>
      cases hNote
      rcases Option.map_eq_some_iff.mp hWatcher with
        ⟨state, hState, hTracked⟩
      refine ⟨hKnown.puts, ?_, ?_, hKnown.loaded⟩
      · exact
          (etcd_of_trackedStep hOwn hWatcher).trans
            hKnown.contents
      · rw [← hTracked]
        exact
          sourced_step hKnown.sourced
            (fun contents hEtcd =>
              absurd hEtcd (hOwn contents))
            hState
  | poll =>
      cases hNote
      unfold System.poll
      split
      · exact hKnown
      · exact
          ⟨hKnown.puts, hKnown.contents, hKnown.sourced,
            hKnown.loaded⟩
  | @reload accepted _ =>
      cases hNote
      refine
        ⟨hKnown.puts, hKnown.contents, hKnown.sourced, ?_⟩
      cases accepted with
      | false => exact hKnown.loaded
      | true =>
          show
            SetOf _
              ((listed s.1.watcher.state.file).getD
                s.1.proxy.loaded)
          cases hFile : s.1.watcher.state.file with
          | none => exact setOf_empty
          | some text =>
              cases text with
              | whole upstreams =>
                  exact hKnown.sourced.file upstreams hFile
              | empty => exact hKnown.loaded
              | part => exact hKnown.loaded

end Discovery

------------------------------------------------------------
-- Websockets
------------------------------------------------------------

namespace Discovery

open Py Etcd Election Watcher Gateway Machine

variable {μ ι : Type} [DecidableEq μ] [DecidableEq ι]
variable {d : Deployment μ ι}

omit [DecidableEq μ] [DecidableEq ι] in
theorem setOf_file
    {elected : List (μ × ι)}
    {file : Option Upstreams}
    (hFile : (file.getD Dict.empty).Same Dict.empty) :
    SetOf (AddressOf d elected) (file.getD Dict.empty) := by
  intro id address hGet
  rw [hFile id, Dict.get?_empty] at hGet
  cases hGet

omit [DecidableEq μ] [DecidableEq ι] in
theorem known_start
    (hNamed : WellNamed d)
    (directory : Directory d)
    {etcd : Server String String}
    (hEtcd : ∀ m, etcd.get (d.addressKey m) = none)
    {file : Option Upstreams}
    (hFile : (file.getD Dict.empty).Same Dict.empty)
    (text : String) :
    Known d directory.names
      (.start directory.names etcd file text, []) := by
  have hPuts : Puts d (.start etcd) [] := by
    refine ⟨nofun, ?_, nofun, ?_⟩
    · rintro m i (hLeads | hPut)
      · cases hLeads
      · cases hPut
    · intro m value hGet
      change etcd.get (d.addressKey m) = some value at hGet
      rw [hEtcd m] at hGet
      cases hGet
  refine ⟨hPuts, rfl, ?_, setOf_file hFile⟩
  refine
    ⟨contentsOf_getPrefix hNamed directory hPuts, nofun,
      setOf_empty, nofun, nofun, ?_⟩
  intro upstreams hWhole
  rcases Option.map_eq_some_iff.mp hWhole with
    ⟨inFile, rfl, hSame⟩
  cases hSame
  exact setOf_file hFile

/-
  In every run, whatever raises, fails or comes out of order,
  the gateway takes a websocket to the static server, while it
  has loaded no address, or to a replica that was elected
  before; and where it has an address of the match that the
  websocket names, to a replica of that match.
-/
theorem websocket_to_elected
    (hNamed : WellNamed d)
    (directory : Directory d)
    {etcd : Server String String}
    (hEtcd : ∀ m, etcd.get (d.addressKey m) = none)
    {file : Option Upstreams}
    (hFile : (file.getD Dict.empty).Same Dict.empty)
    {text : String}
    {s : System μ ι × List (μ × ι)}
    (hRun :
      Reachable
        (observe (step d directory.names) noteElected)
        (.start directory.names etcd file text, []) s)
    {r : Request}
    (hPath : r.path = "/ws".toList)
    (hOptions : r.options = false) :
    ∃ server,
      composeServer s.1.proxy.loaded r = some server ∧
        (s.1.proxy.loaded.keys = [] ∧
            server = "game-room:8000" ∨
          ∃ m i,
            (m, i) ∈ s.2 ∧
              server = (d.config m i).leaderAddress ∧
                ∀ m',
                  matchIdOfArgs r.args = d.matchId m' →
                    d.matchId m' ∈ s.1.proxy.loaded.keys →
                      m' = m) := by
  have hKnown : Known d directory.names s :=
    hRun.invariant
      (known_start hNamed directory hEtcd hFile text)
      (fun hKnown _ hStep =>
        known_step hNamed directory hKnown hStep)
  have hLoaded := hKnown.loaded
  have hMatches : OfMatches d s.1.proxy.loaded := by
    apply ofMatches_of_get
    intro id address hGet
    rcases hLoaded id address hGet with ⟨m, _, _, hId, _⟩
    exact ⟨m, hId⟩
  rw [composeServer_ws (loads_of_matches hNamed hMatches)
    hPath hOptions]
  refine ⟨_, rfl, ?_⟩
  rcases target_cases s.1.proxy.loaded
      (matchIdOfArgs r.args) with
    ⟨hNone, hTarget⟩ | ⟨id, address, hGet, hTarget, hCaptor⟩
  · rw [hTarget]
    exact .inl ⟨hNone, rfl⟩
  · rcases hLoaded id address hGet with
      ⟨m, i, hElected, hId, hAddress⟩
    right
    refine ⟨m, i, hElected, ?_, ?_⟩
    · rw [hTarget]
      exact hAddress
    · intro m' hArg hMem
      rw [hArg] at hCaptor
      have hSame :=
        hCaptor _ (captor_matchId hNamed hMatches hMem)
      exact d.distinct (hSame.trans hId)

/-
  The first leader is gone and another one elected, but the
  watcher's next read raises before it has any address.
-/
def leaderGone : System Bool Bool × List (Bool × Bool) :=
  final (observe (step twoMatches twoNames.names) noteElected)
    (.start twoNames.names .empty none "", [])
    (wins true true ++ wins false true ++
      catchUp "Mon Nov  3 10:00:00 2025" ++
        [.room true (.expire 0)] ++ wins true false ++
          [.watch (.read (some 0)) "", .watch (.compare 0) ""])
    (by decide)

theorem websocket_to_elected_leaderGone :
    ∃ server,
      composeServer leaderGone.1.proxy.loaded
            ⟨false, false, "/ws".toList,
              some "match_id=m1".toList⟩ =
          some server ∧
        (leaderGone.1.proxy.loaded.keys = [] ∧
            server = "game-room:8000" ∨
          ∃ m i,
            (m, i) ∈ leaderGone.2 ∧
              server =
                  (twoMatches.config m i).leaderAddress ∧
                ∀ m',
                  matchIdOfArgs (some "match_id=m1".toList) =
                      twoMatches.matchId m' →
                    twoMatches.matchId m' ∈
                        leaderGone.1.proxy.loaded.keys →
                      m' = m) :=
  websocket_to_elected wellNamed_twoMatches twoNames
    (by decide) (fun _ => rfl)
    (reachable_of_run (run_eq_final (by decide)) :
      Reachable
        (observe (step twoMatches twoNames.names) noteElected)
        (.start twoNames.names .empty none "", [])
        leaderGone)
    rfl rfl

end Discovery
