import MultiplayerInfra.Discovery.System
import MultiplayerInfra.Watcher.Collected

/-
  Once nothing is in progress, a websocket that names a match
  reaches the leader of that match.

  Key definitions include:
    * `Discovery.WellNamed`
    * `Discovery.Undisturbed`
    * `Discovery.Settled`
    * `Discovery.Linked`

  Key theorems include:
    * `Discovery.get?_leaders`
    * `Discovery.linked_step`
    * `Discovery.websocket_to_leader`

  The leader holds its address in etcd, the newest read saw
  it, the file has what was read, and NGINX the file.
-/

------------------------------------------------------------
-- Names
------------------------------------------------------------

namespace Discovery

open Py Etcd Election Watcher Gateway

variable {μ ι : Type}

/-
  The ids of matches can be told apart in keys, in names of
  upstreams and by the end of an argument, and so can the
  addresses of the replicas of a match.
-/
structure WellNamed (d : Deployment μ ι) : Prop where
  slashFree : ∀ m, '/' ∉ (d.matchId m).toList
  nonempty : ∀ m, d.matchId m ≠ ""
  names :
    ∀ m m', SameName (d.matchId m) (d.matchId m') → m = m'
  notDefault : ∀ m, d.matchId m ≠ "default"
  apart :
    ∀ m m', EndsWith (d.matchId m) (d.matchId m') → m = m'
  addresses :
    ∀ m,
      Function.Injective fun i => (d.config m i).leaderAddress

variable {d : Deployment μ ι}

theorem leaderAddress_ne_empty
    (config : Config) :
    config.leaderAddress ≠ "" := by
  unfold Config.leaderAddress
  split
  · intro hEmpty
    have hLength := congrArg String.length hEmpty
    rw [String.length_append] at hLength
    have hPort : ":8000".length = 5 := by decide
    have hNone : "".length = 0 := by decide
    omega
  · assumption

/- The entries that a read takes are those of addresses. -/
theorem takes_iff
    (hNamed : WellNamed d)
    (directory : Directory d)
    {key value : String}
    (hKey : key ∈ directory.names)
    {id : String} :
    Takes id (key, value) ↔
      value ≠ "" ∧
        ∃ m, id = d.matchId m ∧ key = d.addressKey m := by
  have hAddress :
      ∀ m,
        "/leader-address".toList <:+
            (d.addressKey m).toList ∧
          matchIdOf (d.addressKey m) = d.matchId m := by
    intro m
    constructor
    · rw [Deployment.addressKey, String.toList_append]
      exact List.suffix_append _ _
    · exact matchIdOf_addressKey (hNamed.slashFree m)
  constructor
  · rintro ⟨hSuffix, hValue, hId⟩
    refine ⟨hValue, ?_⟩
    rcases (directory.keys key).mp hKey with
      ⟨m, rfl | rfl⟩
    · exfalso
      have hLeader :
          "/leader".toList <:+ (d.key m).toList := by
        rw [Deployment.key, String.toList_append]
        exact List.suffix_append _ _
      have hNested :=
        List.suffix_of_suffix_length_le hLeader hSuffix
          (by decide)
      revert hNested
      decide
    · exact ⟨m, hId.symm.trans (hAddress m).2, rfl⟩
  · rintro ⟨hValue, m, rfl, rfl⟩
    exact ⟨(hAddress m).1, hValue, (hAddress m).2⟩

/- What a complete read has for an id. -/
theorem get?_leaders
    (hNamed : WellNamed d)
    (directory : Directory d)
    {etcd : Server String String}
    {id address : String} :
    (leaderAddresses
          (getPrefix directory.names etcd)).get? id =
        some address ↔
      address ≠ "" ∧
        ∃ m,
          id = d.matchId m ∧
            etcd.get (d.addressKey m) = some address := by
  constructor
  · intro hGet
    rcases mem_of_get?_leaderAddresses hGet with
      ⟨key, hMem, hTakes⟩
    rcases mem_getPrefix.mp hMem with ⟨hKey, hValue⟩
    rcases (takes_iff hNamed directory hKey).mp hTakes with
      ⟨hNe, m, hId, rfl⟩
    exact ⟨hNe, m, hId, hValue⟩
  · rintro ⟨hNe, m, rfl, hValue⟩
    have hKey : d.addressKey m ∈ directory.names :=
      (directory.keys _).mpr ⟨m, .inr rfl⟩
    apply get?_foldl_of_mem
    · rintro ⟨key, value⟩ hMem hTakes
      rcases mem_getPrefix.mp hMem with ⟨hOther, hGet⟩
      rcases (takes_iff hNamed directory hOther).mp hTakes with
        ⟨_, m', hId, rfl⟩
      rw [d.distinct hId] at hValue
      rw [hValue] at hGet
      exact (Option.some.inj hGet).symm
    · right
      refine ⟨(d.addressKey m, address), ?_, ?_⟩
      · exact mem_getPrefix.mpr ⟨hKey, hValue⟩
      · exact
          (takes_iff hNamed directory hKey).mpr
            ⟨hNe, m, rfl, rfl⟩

/- All ids of a set are those of matches. -/
def OfMatches
    (d : Deployment μ ι)
    (upstreams : Upstreams) : Prop :=
  ∀ id ∈ upstreams.keys, ∃ m, id = d.matchId m

theorem ofMatches_of_get
    {upstreams : Upstreams}
    (hIds :
      ∀ id address,
        upstreams.get? id = some address →
          ∃ m, id = d.matchId m) :
    OfMatches d upstreams := by
  intro id hMem
  rcases Dict.mem_keys_iff.mp hMem with ⟨address, hGet⟩
  exact hIds id address hGet

/- NGINX accepts such a set. -/
theorem loads_of_matches
    (hNamed : WellNamed d)
    {upstreams : Upstreams}
    (hMatches : OfMatches d upstreams) :
    Loads upstreams := by
  constructor
  · intro id hMem id' hMem' hSame
    rcases hMatches id hMem with ⟨m, rfl⟩
    rcases hMatches id' hMem' with ⟨m', rfl⟩
    rw [hNamed.names m m' hSame]
  · intro hMem
    rcases hMatches _ hMem with ⟨m, hDefault⟩
    exact hNamed.notDefault m hDefault.symm

/- The id of a match is taken by its own pattern. -/
theorem captor_matchId
    (hNamed : WellNamed d)
    {upstreams : Upstreams}
    (hMatches : OfMatches d upstreams)
    {m : μ}
    (hMem : d.matchId m ∈ upstreams.keys) :
    captor upstreams (d.matchId m) = some (d.matchId m) := by
  rw [captor, if_neg (hNamed.nonempty m)]
  rcases exists_captor hMem with ⟨id, hFind⟩
  have hEnds : EndsWith (d.matchId m) id := by
    simpa using List.find?_some hFind
  have hListed : id ∈ upstreams.keys :=
    (List.mem_insertionSort _).mp
      (List.mem_of_find?_eq_some hFind)
  rcases hMatches id hListed with ⟨m', rfl⟩
  rw [hFind, hNamed.apart m m' hEnds]

theorem composeServer_matchId
    (hNamed : WellNamed d)
    {upstreams : Upstreams}
    (hMatches : OfMatches d upstreams)
    {m : μ}
    {address : String}
    (hGet : upstreams.get? (d.matchId m) = some address)
    {r : Request}
    (hPath : r.path = "/ws".toList)
    (hOptions : r.options = false)
    (hArg : matchIdOfArgs r.args = d.matchId m) :
    composeServer upstreams r = some address := by
  have hMem : d.matchId m ∈ upstreams.keys :=
    Dict.mem_keys_iff.mpr ⟨address, hGet⟩
  rw [composeServer_ws (loads_of_matches hNamed hMatches)
      hPath hOptions, hArg, target,
    captor_matchId hNamed hMatches hMem]
  simp only [hGet, Option.getD_some]

end Discovery

------------------------------------------------------------
-- Runs
------------------------------------------------------------

namespace Discovery

open Py Etcd Election Watcher Gateway

variable {μ ι : Type}

/- A write does not bring back the text of the checksum. -/
def BringsNews
    (s : System μ ι)
    (time : String)
    (act : Watcher.Act) : Prop :=
  ∀ text ∈ s.brings time act,
    ∀ hash ∈ s.proxy.lastHash, hash.1 ≠ text

instance
    (s : System μ ι)
    (time : String)
    (act : Watcher.Act) :
    Decidable (BringsNews s time act) :=
  inferInstanceAs (Decidable
    (∀ text ∈ s.brings time act,
      ∀ hash ∈ s.proxy.lastHash, hash.1 ≠ text))

/-
  Addresses are delivered, reads and writes of the watcher
  stay in order, the loop reaches NGINX, and NGINX accepts.
-/
def Undisturbed
    (d : Deployment μ ι)
    (s : System μ ι) : Act μ ι → Prop
| .room m act =>
    Delivers (d.replicas m) (s.rooms.view m) act
| .watch act time =>
    InOrder s.watcher act ∧ BringsNews s time act
| .poll _ sent => sent = true
| .reload accepted => accepted = true

instance decidableUndisturbed
    [Fintype ι]
    (d : Deployment μ ι)
    (s : System μ ι) :
    (act : Act μ ι) → Decidable (Undisturbed d s act)
| .room m act =>
    inferInstanceAs (Decidable
      (Delivers (d.replicas m) (s.rooms.view m) act))
| .watch act time =>
    inferInstanceAs (Decidable
      (InOrder s.watcher act ∧ BringsNews s time act))
| .poll _ sent => inferInstanceAs (Decidable (sent = true))
| .reload accepted =>
    inferInstanceAs (Decidable (accepted = true))

/-
  No resync, write or reload is in progress, the newest read
  was complete and saw what etcd has, and the last checksum
  is that of the file.
-/
structure Settled (s : System μ ι) : Prop where
  quiet : s.watcher.Quiet
  latest :
    s.watcher.latest =
      some (leaderAddresses s.watcher.state.etcd)
  hash : ∃ hash ∈ s.proxy.lastHash, hash.1 = s.text
  loaded : s.proxy.signalled = false

/- What each part has of the one before it. -/
structure Linked
    (d : Deployment μ ι)
    (names : List String)
    (s : System μ ι) : Prop where
  sound : Sound d s.rooms
  contents :
    s.watcher.state.etcd = getPrefix names s.rooms.etcd
  converges : Converges s.watcher
  loaded :
    ∀ hash ∈ s.proxy.lastHash,
      hash.1 = s.text → s.proxy.signalled = false →
        ∀ inFile ∈ listed s.watcher.state.file,
          s.proxy.loaded = inFile

theorem linked_start
    (d : Deployment μ ι)
    (names : List String)
    (etcd : Server String String)
    {file : Option Upstreams}
    (hFile : (file.getD Dict.empty).Same Dict.empty)
    (text : String) :
    Linked d names (.start names etcd file text) where
  sound := sound_start d etcd
  contents := rfl
  converges := converges_start _ hFile
  loaded := nofun

/- The file changes with its text. -/
theorem file_of_trackedStep
    {s : System μ ι}
    {watcher : Tracked}
    {act : Watcher.Act}
    {time : String}
    (hStep : trackedStep s.watcher act = some watcher)
    (hNone : s.brings time act = none) :
    watcher.state.file = s.watcher.state.file := by
  rcases Option.map_eq_some_iff.mp hStep with
    ⟨state, hState, rfl⟩
  show state.file = s.watcher.state.file
  cases Watcher.steps_of_step hState with
  | etcd => rfl
  | read => rfl
  | compare _ =>
      unfold State.compare
      split <;> rfl
  | fire _ => rfl
  | openTemp _ => rfl
  | @save _ _ place _ hWriting =>
      refine file_put s.watcher.state _ ?_
      rintro rfl
      simp [System.brings, System.puts, hWriting] at hNone
  | @fail _ _ phase hWriting _ =>
      cases phase with
      | opened place =>
          refine file_put s.watcher.state .part ?_
          rintro rfl
          simp [System.brings, System.puts, hWriting] at hNone
      | _ => rfl
  | @rename i raises _ _ =>
      rw [file_rename]
      cases raises with
      | true => rfl
      | false =>
          by_cases hTemp : s.watcher.state.temp = none
          · rw [if_pos (.inr hTemp)]
          · simp [System.brings, hTemp] at hNone

variable {d : Deployment μ ι}
variable {names : List String}
variable {s t : System μ ι}

theorem linked_watch
    (hLinked : Linked d names s)
    {act : Watcher.Act}
    {time : String}
    {watcher : Tracked}
    (hOwn : ∀ contents, act ≠ .etcd contents)
    (hWatcher : trackedStep s.watcher act = some watcher)
    (hOrder : InOrder s.watcher act)
    (hNews : BringsNews s time act) :
    Linked d names
      { s with
        watcher := watcher
        text := s.textAfter time act
        temp := s.tempAfter time act } := by
  refine
    ⟨hLinked.sound,
      (etcd_of_trackedStep hOwn hWatcher).trans
        hLinked.contents,
      converges_step hLinked.converges hOrder hWatcher, ?_⟩
  intro hash hHash hText hLoaded
  cases hBrings : s.brings time act with
  | none =>
      rw [System.textAfter, hBrings] at hText
      rw [file_of_trackedStep hWatcher hBrings]
      exact hLinked.loaded hash hHash hText hLoaded
  | some new =>
      rw [System.textAfter, hBrings] at hText
      exact absurd hText (hNews new hBrings hash hHash)

variable [DecidableEq μ] [DecidableEq ι]

/- Every step without a disturbance keeps the links. -/
theorem linked_step
    (hNamed : WellNamed d)
    {act : Act μ ι}
    (hLinked : Linked d names s)
    (hOk : Undisturbed d s act)
    (hStep : step d names s act = some t) :
    Linked d names t := by
  cases steps_of_step hStep with
  | @room m act rooms _ hRooms hWatcher =>
      have hOrder :
          InOrder s.watcher
            (.etcd (getPrefix names rooms.etcd)) :=
        trivial
      have hConverges :=
        converges_step hLinked.converges hOrder hWatcher
      cases hWatcher
      exact
        ⟨sound_sharedStep hNamed.addresses hLinked.sound hOk
            hRooms,
          rfl, hConverges, hLinked.loaded⟩
  | watch hOwn hWatcher =>
      exact linked_watch hLinked hOwn hWatcher hOk.1 hOk.2
  | poll =>
      unfold System.poll
      split
      · exact hLinked
      · refine
          ⟨hLinked.sound, hLinked.contents,
            hLinked.converges, ?_⟩
        intro hash _ _ hLoaded
        rw [show _ = true from hOk, Bool.or_true] at hLoaded
        cases hLoaded
  | reload _ =>
      refine
        ⟨hLinked.sound, hLinked.contents,
          hLinked.converges, ?_⟩
      intro _ _ _ _ inFile hListed
      cases hOk
      change listed s.watcher.state.file = some inFile
        at hListed
      show (listed s.watcher.state.file).getD _ = inFile
      rw [hListed]
      rfl

end Discovery

------------------------------------------------------------
-- Routes
------------------------------------------------------------

namespace Discovery

open Py Etcd Election Watcher Gateway
open Machine (Reaches reaches_of_run run_eq_final final)

variable {μ ι : Type} [DecidableEq μ] [DecidableEq ι]
variable {d : Deployment μ ι}
variable {names : List String}
variable {s : System μ ι}

omit [DecidableEq μ] [DecidableEq ι] in
/- NGINX has the addresses that etcd has. -/
theorem same_of_settled
    (hLinked : Linked d names s)
    (hSettled : Settled s) :
    s.proxy.loaded.Same
      (leaderAddresses (getPrefix names s.rooms.etcd)) := by
  rcases hSettled.hash with ⟨hash, hMem, hText⟩
  have hConverged :=
    hLinked.converges.converged hSettled.quiet
  rcases hConverged.file with ⟨inFile, hListed, hSame⟩
  intro id
  rw [hLinked.loaded hash hMem hText hSettled.loaded inFile
      hListed,
    ← hSame id, hConverged.latest _ hSettled.latest id,
    hLinked.contents]

omit [DecidableEq μ] [DecidableEq ι] in
/-
  The gateway has the servers that etcd has addresses of, and
  for a match the leader that has put its own.
-/
theorem routes_of_settled
    (hNamed : WellNamed d)
    (directory : Directory d)
    (hLinked : Linked d directory.names s)
    (hSettled : Settled s)
    {r : Request}
    (hPath : r.path = "/ws".toList)
    (hOptions : r.options = false) :
    composeServer s.proxy.loaded r =
        composeServer
          (leaderAddresses s.watcher.state.etcd) r ∧
      ∀ m i lease,
        matchIdOfArgs r.args = d.matchId m →
          (s.rooms.elections m i).Published lease →
            lease ∈ s.rooms.etcd.leases →
              composeServer s.proxy.loaded r =
                some (d.config m i).leaderAddress := by
  have hSame := same_of_settled hLinked hSettled
  have hIds :
      ∀ id address,
        (leaderAddresses
              (getPrefix directory.names s.rooms.etcd)).get?
            id =
          some address →
            ∃ m, id = d.matchId m := by
    intro id address hGet
    rcases (get?_leaders hNamed directory).mp hGet with
      ⟨_, m, hId, _⟩
    exact ⟨m, hId⟩
  have hLeaders := ofMatches_of_get hIds
  have hLoaded : OfMatches d s.proxy.loaded := by
    apply ofMatches_of_get
    intro id address hGet
    rw [hSame id] at hGet
    exact hIds id address hGet
  constructor
  · rw [hLinked.contents,
      composeServer_ws (loads_of_matches hNamed hLoaded) hPath
        hOptions,
      composeServer_ws (loads_of_matches hNamed hLeaders)
        hPath hOptions,
      target_of_same hSame]
  · intro m i lease hArg hPublished hLive
    refine
      composeServer_matchId hNamed hLoaded ?_ hPath hOptions
        hArg
    rw [hSame, get?_leaders hNamed directory]
    exact
      ⟨leaderAddress_ne_empty _, m, rfl,
        hLinked.sound.address hPublished hLive⟩

theorem linked_of_reaches
    (hNamed : WellNamed d)
    {etcd : Server String String}
    {file : Option Upstreams}
    (hFile : (file.getD Dict.empty).Same Dict.empty)
    {text : String}
    (hRun :
      Reaches (step d names) (Undisturbed d)
        (.start names etcd file text) s) :
    Linked d names s :=
  hRun.invariant (linked_start d names etcd hFile text)
    (fun hLinked hOk hStep =>
      linked_step hNamed hLinked hOk hStep)

/-
  In every run without a disturbance that has settled, the
  gateway has the servers that etcd has addresses of at that
  moment; and a websocket for a match whose leader has put
  its address, on a lease that is alive, reaches the leader.
-/
theorem websocket_to_leader
    (hNamed : WellNamed d)
    (directory : Directory d)
    {etcd : Server String String}
    {file : Option Upstreams}
    (hFile : (file.getD Dict.empty).Same Dict.empty)
    {text : String}
    (hRun :
      Reaches (step d directory.names) (Undisturbed d)
        (.start directory.names etcd file text) s)
    (hSettled : Settled s)
    {r : Request}
    (hPath : r.path = "/ws".toList)
    (hOptions : r.options = false) :
    composeServer s.proxy.loaded r =
        composeServer
          (leaderAddresses s.watcher.state.etcd) r ∧
      ∀ m i lease,
        matchIdOfArgs r.args = d.matchId m →
          (s.rooms.elections m i).Published lease →
            lease ∈ s.rooms.etcd.leases →
              composeServer s.proxy.loaded r =
                some (d.config m i).leaderAddress :=
  routes_of_settled hNamed directory
    (linked_of_reaches hNamed hFile hRun) hSettled hPath
    hOptions

/- Replicas of another match. -/
def otherReplicas : Replicas Bool where
  matchId := "m2"
  instanceId := fun i => if i then "room-3" else "room-4"
  roomAddress := fun _ => ""
  distinct := by
    show ∀ i j : Bool, _ = _ → i = j
    decide

def twoMatches : Deployment Bool Bool where
  replicas := fun m => if m then twoReplicas else otherReplicas
  distinct := by
    show ∀ m m' : Bool, _ = _ → m = m'
    decide

theorem wellNamed_twoMatches : WellNamed twoMatches where
  slashFree := by decide
  nonempty := by decide
  names := by
    intro m m'
    rw [← safeName_eq_iff]
    revert m m'
    decide
  notDefault := by decide
  apart := by decide
  addresses := by
    intro m
    show ∀ i j : Bool, _ = _ → i = j
    revert m
    decide

def twoNames : Directory twoMatches where
  names :=
    ["/match/m1/leader", "/match/m1/leader-address",
      "/match/m2/leader", "/match/m2/leader-address"]
  sorted := by decide
  keys := by
    intro name
    have hTrue :
        twoMatches.key true = "/match/m1/leader" ∧
          twoMatches.addressKey true =
            "/match/m1/leader-address" := by
      decide
    have hFalse :
        twoMatches.key false = "/match/m2/leader" ∧
          twoMatches.addressKey false =
            "/match/m2/leader-address" := by
      decide
    simp only [List.mem_cons, List.not_mem_nil, or_false,
      Bool.exists_bool, hTrue, hFalse]
    tauto

/- The acts in which a replica wins and puts its address. -/
def wins (m i : Bool) : List (Act Bool Bool) :=
  ([.proceed i, .effect i, .answer i, .effect i, .answer i,
    .effect i, .answer i] : List (Election.Act Bool)).map
      (.room m)

/- A resync, its write, and the reload after it. -/
def catchUp (time : String) : List (Act Bool Bool) :=
  [.watch (.read none) time, .watch (.compare 0) time,
    .watch .fire time, .watch (.openTemp 0) "",
    .watch (.save 0 false) time,
    .watch (.rename 0 false) time, .poll "" true, .reload true]

/-
  Both matches have leaders that the gateway knows; then the
  first one fails over.
-/
def failedOver : System Bool Bool :=
  final (step twoMatches twoNames.names)
    (.start twoNames.names .empty none "")
    (wins true true ++ wins false true ++
      catchUp "Mon Nov  3 10:00:00 2025" ++
        [.room true (.expire 0)] ++ wins true false ++
          catchUp "Mon Nov  3 10:00:05 2025")
    (by decide)

theorem websocket_to_leader_failedOver :
    Settled failedOver ∧
      composeServer failedOver.proxy.loaded
          ⟨false, false, "/ws".toList,
            some "match_id=m1".toList⟩ =
        some "room-2:8000" := by
  have hSettled : Settled failedOver := by
    refine ⟨⟨?_, ?_, ?_⟩, ?_, ?_, ?_⟩
    · decide
    · decide
    · decide
    · decide
    · decide +kernel
    · decide
  have hRoutes :=
    websocket_to_leader wellNamed_twoMatches twoNames
      (fun _ => rfl)
      (reaches_of_run (run_eq_final (by decide)) (by decide +kernel) :
        Reaches (step twoMatches twoNames.names)
          (Undisturbed twoMatches)
          (.start twoNames.names .empty none "") failedOver)
      hSettled
      (rfl :
        Request.path
            ⟨false, false, "/ws".toList,
              some "match_id=m1".toList⟩ =
          "/ws".toList)
      rfl
  exact
    ⟨hSettled,
      hRoutes.2 true false 2 (by decide)
        ⟨by decide, by decide⟩ (by decide)⟩

end Discovery
