import MultiplayerInfra.Election.Matches
import MultiplayerInfra.Watcher.Convergence
import MultiplayerInfra.Gateway.Upstreams

/-
  From the election of a leader to the websockets that reach
  it: the replicas of all matches, the etcd watcher, and the
  gateway that loads its file again when it has changed.

  Key definitions include:
    * `Discovery.Directory`
    * `Discovery.getPrefix`
    * `Discovery.Proxy`
    * `Discovery.System`
    * `Discovery.step`

  Key theorems include:
    * `Discovery.steps_of_step`
    * `Discovery.reads_step`
    * `Discovery.getPrefix_complete`

  The watcher reads what the election threads have written,
  and the gateway what the watcher has.
-/

------------------------------------------------------------
-- The Directory
------------------------------------------------------------

namespace Discovery

open Py Etcd Election Watcher

variable {μ ι : Type}

/- The keys of the matches in the order of `get_prefix`. -/
structure Directory (d : Deployment μ ι) where
  names : List String
  sorted : names.Pairwise (· < ·)
  keys :
    ∀ name,
      name ∈ names ↔
        ∃ m, name = d.key m ∨ name = d.addressKey m

/- `client.get_prefix("/match/")`. -/
def getPrefix
    (names : List String)
    (etcd : Server String String) : Contents :=
  names.filterMap (fun name =>
    (etcd.get name).map (fun value => (name, value)))

theorem mem_getPrefix
    {names : List String}
    {etcd : Server String String}
    {key value : String} :
    (key, value) ∈ getPrefix names etcd ↔
      key ∈ names ∧ etcd.get key = some value := by
  rw [getPrefix, List.mem_filterMap]
  constructor
  · rintro ⟨name, hMem, hGet⟩
    rcases Option.map_eq_some_iff.mp hGet with
      ⟨found, hFound, hPair⟩
    cases hPair
    exact ⟨hMem, hFound⟩
  · rintro ⟨hMem, hGet⟩
    exact ⟨key, hMem, by rw [hGet]; rfl⟩

/- There is no key under `/match/` but those of matches. -/
def Covers
    (names : List String)
    (etcd : Server String String) : Prop :=
  ∀ key value,
    "/match/".toList <+: key.toList →
      etcd.get key = some value → key ∈ names

end Discovery

------------------------------------------------------------
-- The Machine
------------------------------------------------------------

namespace Discovery

open Py Etcd Election Watcher

/-
  NGINX and the loop beside it that runs `nginx -s reload`
  once the files of `conf.d` have another checksum.
-/
structure Proxy where
  -- the file of the watcher, and what else was in `conf.d`,
  -- at the last checksum
  lastHash : Option (String × String)
  -- NGINX is told to load its configuration again
  signalled : Bool
  -- the upstreams of the configuration in use
  loaded : Upstreams

structure System (μ ι : Type) where
  rooms : Shared μ ι
  watcher : Tracked
  -- the text of the file that the watcher writes, and of
  -- the temporary file before it
  text : String
  temp : String
  proxy : Proxy

inductive Act (μ ι : Type) where
  | room (m : μ) (act : Election.Act ι)
  -- with the time in the header, where a text is written,
  -- and with what is left of it, where that fails or another
  -- text shows behind it
  | watch (act : Watcher.Act) (time : String)
  -- with the other files, and whether the signal is sent
  | poll (others : String) (sent : Bool)
  -- NGINX keeps what it has if it refuses the files
  | reload (accepted : Bool)

variable {μ ι : Type}

namespace System

/- No thread has made a call and no checksum was taken. -/
def start
    (names : List String)
    (etcd : Server String String)
    (file : Option Upstreams)
    (text : String) : System μ ι where
  rooms := .start etcd
  watcher := .start (getPrefix names etcd) file
  text := text
  temp := ""
  proxy :=
    { lastHash := none
      signalled := false
      loaded := file.getD Dict.empty }

/- The text that a write of a set leaves. -/
def written (time : String) (upstreams : Upstreams) : String :=
  generateUpstreamConfig time "game_room_default" upstreams

/- The text that a write puts in the file it has opened. -/
def puts
    (s : System μ ι)
    (time : String) : Watcher.Act → Option (Place × String)
| .save i mixed =>
    match s.watcher.state.writing[i]? with
    | some ⟨upstreams, .opened place⟩ =>
        some
          (place, if mixed then time else written time upstreams)
    | _ => none
| .fail i =>
    match s.watcher.state.writing[i]? with
    | some ⟨_, .opened place⟩ => some (place, time)
    | _ => none
| _ => none

/- The text that the file has then, if an act changes it. -/
def brings
    (s : System μ ι)
    (time : String)
    (act : Watcher.Act) : Option String :=
  match act with
  | .rename _ false =>
      if s.watcher.state.temp = none then none
      else some s.temp
  | _ =>
      match s.puts time act with
      | some (.file, text) => some text
      | _ => none

def textAfter
    (s : System μ ι)
    (time : String)
    (act : Watcher.Act) : String :=
  (s.brings time act).getD s.text

def tempAfter
    (s : System μ ι)
    (time : String)
    (act : Watcher.Act) : String :=
  match act with
  | .openTemp _ => ""
  | _ =>
      match s.puts time act with
      | some (.temp, text) => text
      | _ => s.temp

/- One turn of the loop. -/
def poll
    (s : System μ ι)
    (others : String)
    (sent : Bool) : System μ ι :=
  if s.proxy.lastHash = some (s.text, others) then s
  else
    { s with
      proxy :=
        { s.proxy with
          lastHash := some (s.text, others)
          signalled := s.proxy.signalled || sent } }

/- Of a part of a configuration NGINX takes nothing. -/
def reload
    (s : System μ ι)
    (accepted : Bool) : System μ ι :=
  { s with
    proxy :=
      { s.proxy with
        signalled := false
        loaded :=
          if accepted then
            (listed s.watcher.state.file).getD s.proxy.loaded
          else s.proxy.loaded } }

end System

variable [DecidableEq μ] [DecidableEq ι]

def step
    (d : Deployment μ ι)
    (names : List String)
    (s : System μ ι) : Act μ ι → Option (System μ ι)
| .room m act =>
    (sharedStep d s.rooms (m, act)).bind (fun rooms =>
      (trackedStep s.watcher
        (.etcd (getPrefix names rooms.etcd))).map
          (fun watcher =>
            { s with rooms := rooms, watcher := watcher }))
| .watch (.etcd _) _ => none
| .watch act time =>
    (trackedStep s.watcher act).map (fun watcher =>
      { s with
        watcher := watcher
        text := s.textAfter time act
        temp := s.tempAfter time act })
| .poll others sent => some (s.poll others sent)
| .reload accepted =>
    if s.proxy.signalled then some (s.reload accepted)
    else none

end Discovery

------------------------------------------------------------
-- Steps
------------------------------------------------------------

namespace Discovery

open Py Etcd Election Watcher

variable {μ ι : Type} [DecidableEq μ] [DecidableEq ι]

/- The transitions of `step`, one for each kind. -/
inductive Steps
    (d : Deployment μ ι)
    (names : List String)
    (s : System μ ι) : Act μ ι → System μ ι → Prop where
  | room
      {m : μ} {act : Election.Act ι}
      {rooms : Shared μ ι} {watcher : Tracked}
      (hRooms : sharedStep d s.rooms (m, act) = some rooms)
      (hWatcher :
        trackedStep s.watcher
            (.etcd (getPrefix names rooms.etcd)) =
          some watcher) :
      Steps d names s (.room m act)
        { s with rooms := rooms, watcher := watcher }
  | watch
      {act : Watcher.Act} {time : String} {watcher : Tracked}
      (hOwn : ∀ contents, act ≠ .etcd contents)
      (hWatcher : trackedStep s.watcher act = some watcher) :
      Steps d names s (.watch act time)
        { s with
          watcher := watcher
          text := s.textAfter time act
          temp := s.tempAfter time act }
  | poll {others : String} {sent : Bool} :
      Steps d names s (.poll others sent)
        (s.poll others sent)
  | reload
      {accepted : Bool}
      (hSignalled : s.proxy.signalled = true) :
      Steps d names s (.reload accepted) (s.reload accepted)

theorem steps_of_step
    {d : Deployment μ ι}
    {names : List String}
    {s t : System μ ι}
    {act : Act μ ι}
    (hStep : step d names s act = some t) :
    Steps d names s act t := by
  cases act with
  | room m act =>
      rcases Option.bind_eq_some_iff.mp hStep with
        ⟨rooms, hRooms, hRest⟩
      rcases Option.map_eq_some_iff.mp hRest with
        ⟨watcher, hWatcher, rfl⟩
      exact .room hRooms hWatcher
  | watch act time =>
      have hWatch :
          (∀ contents, act ≠ .etcd contents) →
            (trackedStep s.watcher act).map (fun watcher =>
                { s with
                  watcher := watcher
                  text := s.textAfter time act
                  temp := s.tempAfter time act }) =
              some t →
            Steps d names s (.watch act time) t := by
        intro hOwn hTaken
        rcases Option.map_eq_some_iff.mp hTaken with
          ⟨watcher, hWatcher, rfl⟩
        exact .watch hOwn hWatcher
      cases act with
      | etcd contents => cases hStep
      | read raisesAt =>
          exact hWatch (fun _ => Watcher.Act.noConfusion) hStep
      | compare i =>
          exact hWatch (fun _ => Watcher.Act.noConfusion) hStep
      | fire =>
          exact hWatch (fun _ => Watcher.Act.noConfusion) hStep
      | openTemp i =>
          exact hWatch (fun _ => Watcher.Act.noConfusion) hStep
      | save i mixed =>
          exact hWatch (fun _ => Watcher.Act.noConfusion) hStep
      | fail i =>
          exact hWatch (fun _ => Watcher.Act.noConfusion) hStep
      | rename i raises =>
          exact hWatch (fun _ => Watcher.Act.noConfusion) hStep
  | poll others sent =>
      cases hStep
      exact .poll
  | reload accepted =>
      simp only [step] at hStep
      split at hStep
      · cases hStep
        exact .reload ‹_›
      · cases hStep

end Discovery

------------------------------------------------------------
-- What the Watcher Reads
------------------------------------------------------------

namespace Discovery

open Py Etcd Election Watcher Machine

variable {μ ι : Type} [DecidableEq μ] [DecidableEq ι]
variable {d : Deployment μ ι}

/- The election threads write the keys of matches only. -/
theorem covers_sharedStep
    (directory : Directory d)
    {s t : Shared μ ι}
    {act : μ × Election.Act ι}
    (hOwned : Owned d s)
    (hCovers : Covers directory.names s.etcd)
    (hStep : sharedStep d s act = some t) :
    Covers directory.names t.etcd := by
  intro key value hPrefix hGet
  rcases (owned_sharedStep hOwned hStep).1 with
    hKept | ⟨request, ⟨i, c, rfl⟩, hServed⟩ |
      ⟨lease, hEnded⟩
  · rw [hKept] at hGet
    exact hCovers key value hPrefix hGet
  · rw [hServed] at hGet
    rcases Server.get_of_serve hGet with hOld | hWrites
    · exact hCovers key value hPrefix hOld
    · rw [directory.keys]
      rcases Call.keys_of_writes hWrites with
        hKey | ⟨hKey, _⟩
      · exact ⟨act.1, .inl hKey⟩
      · exact ⟨act.1, .inr hKey⟩
  · rw [hEnded] at hGet
    exact
      hCovers key value hPrefix (Server.get_of_endLease hGet)

/- Of the steps of a watcher, only that of etcd changes it. -/
theorem etcd_of_trackedStep
    {s t : Tracked}
    {act : Watcher.Act}
    (hOwn : ∀ contents, act ≠ .etcd contents)
    (hStep : trackedStep s act = some t) :
    t.state.etcd = s.state.etcd := by
  rcases Option.map_eq_some_iff.mp hStep with
    ⟨state, hState, rfl⟩
  show state.etcd = s.state.etcd
  cases Watcher.steps_of_step hState with
  | @etcd contents => exact absurd rfl (hOwn contents)
  | read => rfl
  | compare _ =>
      unfold State.compare
      split <;> rfl
  | fire _ => rfl
  | openTemp _ => rfl
  | @save _ _ place _ _ => cases place <;> rfl
  | @fail _ _ phase _ _ =>
      cases phase with
      | opened place => cases place <;> rfl
      | _ => rfl
  | rename _ =>
      unfold State.rename
      split <;> rfl

/- The watcher reads what etcd has under the names. -/
structure Reads
    (d : Deployment μ ι)
    (names : List String)
    (s : System μ ι) : Prop where
  owned : Owned d s.rooms
  covers : Covers names s.rooms.etcd
  contents :
    s.watcher.state.etcd = getPrefix names s.rooms.etcd

theorem reads_step
    (directory : Directory d)
    {s t : System μ ι}
    {act : Act μ ι}
    (hReads : Reads d directory.names s)
    (hStep : step d directory.names s act = some t) :
    Reads d directory.names t := by
  cases steps_of_step hStep with
  | room hRooms hWatcher =>
      cases hWatcher
      exact
        ⟨(owned_sharedStep hReads.owned hRooms).2,
          covers_sharedStep directory hReads.owned
            hReads.covers hRooms,
          rfl⟩
  | watch hOwn hWatcher =>
      refine ⟨hReads.owned, hReads.covers, ?_⟩
      exact
        (etcd_of_trackedStep hOwn hWatcher).trans
          hReads.contents
  | poll =>
      unfold System.poll
      split
      · exact hReads
      · exact ⟨hReads.owned, hReads.covers, hReads.contents⟩
  | reload _ =>
      exact ⟨hReads.owned, hReads.covers, hReads.contents⟩

theorem reads_of_reachable
    (directory : Directory d)
    {etcd : Server String String}
    (hCovers : Covers directory.names etcd)
    {file : Option Upstreams}
    {text : String}
    {s : System μ ι}
    (hRun :
      Reachable (step d directory.names)
        (.start directory.names etcd file text) s) :
    Reads d directory.names s :=
  hRun.invariant ⟨nofun, hCovers, rfl⟩
    (fun hReads _ hStep => reads_step directory hReads hStep)

/-
  In every run the watcher sees exactly the keys under
  `/match/`.
-/
theorem getPrefix_complete
    (directory : Directory d)
    {etcd : Server String String}
    (hCovers : Covers directory.names etcd)
    {file : Option Upstreams}
    {text : String}
    {s : System μ ι}
    (hRun :
      Reachable (step d directory.names)
        (.start directory.names etcd file text) s)
    (key value : String) :
    (key, value) ∈ s.watcher.state.etcd ↔
      "/match/".toList <+: key.toList ∧
        s.rooms.etcd.get key = some value := by
  have hReads := reads_of_reachable directory hCovers hRun
  rw [hReads.contents, mem_getPrefix]
  constructor
  · rintro ⟨hMem, hGet⟩
    refine ⟨?_, hGet⟩
    rcases (directory.keys key).mp hMem with
      ⟨m, rfl | rfl⟩ <;>
      simp [Deployment.key, Deployment.addressKey]
  · rintro ⟨hPrefix, hGet⟩
    exact ⟨hReads.covers key value hPrefix hGet, hGet⟩

end Discovery
