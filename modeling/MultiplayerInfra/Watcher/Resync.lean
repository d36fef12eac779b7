import MultiplayerInfra.Watcher.Routing
import MultiplayerInfra.Machine.Run

/-
  The resyncs of the etcd watcher: the leader addresses are
  read, compared with the last set and written out when a
  timer fires.

  Key definitions include:
    * `Watcher.loadCurrentUpstreams`
    * `Watcher.State`
    * `Watcher.Act`
    * `Watcher.step`
    * `Watcher.Harmless`

  Key theorems include:
    * `Watcher.complete_step`
    * `Watcher.routes_kept`

  Callback and periodic resyncs run in different threads:
  any number of reads may be waiting to be compared.
-/

------------------------------------------------------------
-- Reading etcd
------------------------------------------------------------

namespace Watcher

open Py

/- The keys under `/match/` and their values. -/
abbrev Contents := List (String × String)

/- `key.split("/")[2]`; the keys have three parts or more. -/
def matchIdOf (key : String) : String :=
  String.ofList ((key.toList.splitOn '/').getD 2 [])

/- One turn of the loop in `load_current_upstreams`. -/
def addEntry
    (upstreams : Upstreams)
    (entry : String × String) : Upstreams :=
  if "/leader-address".toList <:+ entry.1.toList ∧
      entry.2 ≠ "" then
    upstreams.set (matchIdOf entry.1) entry.2
  else upstreams

/- The complete set of `/match/*/leader-address` entries. -/
def leaderAddresses (contents : Contents) : Upstreams :=
  contents.foldl addEntry Dict.empty

/- These entries, with the whole key. -/
def leaderEntries (contents : Contents) : Contents :=
  contents.filter (fun entry =>
    decide
      ("/leader-address".toList <:+ entry.1.toList ∧
        entry.2 ≠ ""))

/- A read of the prefix, which may raise at some entry. -/
structure Read where
  contents : Contents
  raisesAt : Option Nat
deriving DecidableEq

/-
  `load_current_upstreams`: an exception is logged and what
  was collected before it is returned.
-/
def loadCurrentUpstreams (read : Read) : Upstreams :=
  match read.raisesAt with
  | none => leaderAddresses read.contents
  | some n => leaderAddresses (read.contents.take n)

end Watcher

------------------------------------------------------------
-- The Machine
------------------------------------------------------------

namespace Watcher

open Py

/-
  Where the file is that a write has opened as the temporary
  one: another write may have renamed it since.
-/
inductive Place where
  | temp
  | file
  -- replaced by another file that was renamed
  | gone
deriving DecidableEq

/- How far a call of `write_upstream_config` has come. -/
inductive Phase where
  | taken
  | opened (place : Place)
  | saved
deriving DecidableEq

structure Write where
  upstreams : Upstreams
  phase : Phase

/-
  What a file has: nothing since it was opened, the text of a
  set, or what an exception or two writes have left.
-/
inductive Text where
  | empty
  | whole (upstreams : Upstreams)
  | part
deriving DecidableEq

def Place.renamed : Place → Place
| .temp => .file
| .file => .gone
| .gone => .gone

/- A write, once another one has renamed. -/
def Write.renamed (write : Write) : Write :=
  match write.phase with
  | .opened place =>
      { write with phase := .opened place.renamed }
  | _ => write

structure State where
  etcd : Contents
  lastUpstreams : Upstreams
  -- reads whose result is not yet compared
  reads : List Read
  pending : Upstreams
  timer : Bool
  -- sets taken by `_do_write`, in that order
  writing : List Write
  -- `conf_path + ".tmp"`, which all writes share
  temp : Option Text
  file : Option Text
  -- all contents of etcd so far, all sets passed to
  -- `_schedule_debounced_write` and `write_upstream_config`
  moments : List Contents
  scheduled : List Upstreams
  generated : List Upstreams

inductive Act where
  | etcd (contents : Contents)
  | read (raisesAt : Option Nat)
  | compare (i : Nat)
  | fire
  | openTemp (i : Nat)
  -- the text is written and the file is closed; a longer text
  -- that another write has put there shows behind it
  | save (i : Nat) (mixed : Bool)
  -- an exception, when the file is opened or written
  | fail (i : Nat)
  | rename (i : Nat) (raises : Bool)
deriving DecidableEq

def State.start (contents : Contents) : State where
  etcd := contents
  lastUpstreams := Dict.empty
  reads := []
  pending := Dict.empty
  timer := false
  writing := []
  temp := none
  file := none
  moments := [contents]
  scheduled := []
  generated := []

/- `_schedule_debounced_write`. -/
def State.scheduleDebouncedWrite
    (s : State)
    (upstreams : Upstreams) : State :=
  { s with
    pending := upstreams
    timer := true
    scheduled := upstreams :: s.scheduled }

/- The locked part of `resync`. -/
def State.compare
    (s : State)
    (upstreams : Upstreams) : State :=
  if upstreams.Same s.lastUpstreams then s
  else
    { s.scheduleDebouncedWrite upstreams with
      lastUpstreams := upstreams }

/- The locked part of `_do_write`. -/
def State.fire (s : State) : State :=
  { s with
    writing := s.writing ++ [⟨s.pending, .taken⟩]
    pending := Dict.empty
    timer := false }

/- The text in the file that a write has opened. -/
def State.textAt (s : State) : Place → Option Text
| .temp => s.temp
| .file => s.file
| .gone => none

def State.put (s : State) (text : Text) : Place → State
| .temp => { s with temp := some text }
| .file => { s with file := some text }
| .gone => s

/- `open(tmp_path, "w")`, which empties the file. -/
def State.openTemp
    (s : State)
    (i : Nat)
    (upstreams : Upstreams) : State :=
  { s with
    writing := s.writing.set i ⟨upstreams, .opened .temp⟩
    temp := some .empty
    generated := upstreams :: s.generated }

/- `f.write(content)`, into the file that was opened. -/
def State.save
    (s : State)
    (i : Nat)
    (upstreams : Upstreams)
    (place : Place)
    (mixed : Bool) : State :=
  { s.put (if mixed then .part else .whole upstreams) place with
    writing := s.writing.set i ⟨upstreams, .saved⟩ }

/- The exception is logged; the text stays as it is then. -/
def State.fail
    (s : State)
    (i : Nat)
    (upstreams : Upstreams) : Phase → State
| .opened place =>
    { s.put .part place with
      writing := s.writing.eraseIdx i }
| _ =>
    { s with
      writing := s.writing.eraseIdx i
      generated := upstreams :: s.generated }

/-
  `os.rename(tmp_path, conf_path)`, of whatever the temporary
  file holds; it raises if another write has renamed it.
-/
def State.rename
    (s : State)
    (i : Nat)
    (raises : Bool) : State :=
  if raises = true ∨ s.temp = none then
    { s with writing := s.writing.eraseIdx i }
  else
    { s with
      writing := (s.writing.eraseIdx i).map Write.renamed
      temp := none
      file := s.temp }

def step (s : State) : Act → Option State
| .etcd contents =>
    some
      { s with
        etcd := contents
        moments := contents :: s.moments }
| .read raisesAt =>
    some
      { s with
        reads :=
          s.reads ++
            [{ contents := s.etcd, raisesAt := raisesAt }] }
| .compare i =>
    (s.reads[i]?).map (fun read =>
      State.compare { s with reads := s.reads.eraseIdx i }
        (loadCurrentUpstreams read))
| .fire => if s.timer then some s.fire else none
| .openTemp i =>
    match s.writing[i]? with
    | some ⟨upstreams, .taken⟩ => some (s.openTemp i upstreams)
    | _ => none
| .save i mixed =>
    match s.writing[i]? with
    | some ⟨upstreams, .opened place⟩ =>
        if mixed = true ∧ s.textAt place = some .empty then none
        else some (s.save i upstreams place mixed)
    | _ => none
| .fail i =>
    match s.writing[i]? with
    | some ⟨_, .saved⟩ => none
    | some ⟨upstreams, phase⟩ =>
        some (s.fail i upstreams phase)
    | none => none
| .rename i raises =>
    match s.writing[i]? with
    | some ⟨_, .saved⟩ => some (s.rename i raises)
    | _ => none

/- The set was the complete set at some moment. -/
def State.Held
    (s : State)
    (upstreams : Upstreams) : Prop :=
  ∃ contents ∈ s.moments,
    upstreams.Same (leaderAddresses contents)

/-
  A read that raises has seen the entries of all leaders that
  etcd held at some moment; or no entry of a leader, while
  nothing was scheduled so far.
-/
def Harmless (s : State) : Act → Prop
| .compare i =>
    ∀ read ∈ s.reads[i]?, ∀ n ∈ read.raisesAt,
      (∃ contents ∈ s.moments,
        leaderEntries (read.contents.take n) =
          leaderEntries contents) ∨
        leaderEntries (read.contents.take n) = [] ∧
          s.scheduled = []
| _ => True

instance
    (s : State)
    (upstreams : Upstreams) :
    Decidable (s.Held upstreams) :=
  inferInstanceAs (Decidable
    (∃ contents ∈ s.moments,
      upstreams.Same (leaderAddresses contents)))

instance decidableHarmless
    (s : State) :
    (act : Act) → Decidable (Harmless s act)
| .compare i =>
    inferInstanceAs (Decidable
      (∀ read ∈ s.reads[i]?, ∀ n ∈ read.raisesAt,
        (∃ contents ∈ s.moments,
          leaderEntries (read.contents.take n) =
            leaderEntries contents) ∨
          leaderEntries (read.contents.take n) = [] ∧
            s.scheduled = []))
| .etcd _ => inferInstanceAs (Decidable True)
| .read _ => inferInstanceAs (Decidable True)
| .fire => inferInstanceAs (Decidable True)
| .openTemp _ => inferInstanceAs (Decidable True)
| .save _ _ => inferInstanceAs (Decidable True)
| .fail _ => inferInstanceAs (Decidable True)
| .rename _ _ => inferInstanceAs (Decidable True)

end Watcher

------------------------------------------------------------
-- Steps
------------------------------------------------------------

namespace Watcher

open Py

/- The transitions of `step`, one for each kind. -/
inductive Steps (s : State) : Act → State → Prop where
  | etcd {contents : Contents} :
      Steps s (.etcd contents)
        { s with
          etcd := contents
          moments := contents :: s.moments }
  | read {raisesAt : Option Nat} :
      Steps s (.read raisesAt)
        { s with
          reads :=
            s.reads ++
              [{ contents := s.etcd, raisesAt := raisesAt }] }
  | compare
      {i : Nat} {read : Read}
      (hRead : s.reads[i]? = some read) :
      Steps s (.compare i)
        (State.compare { s with reads := s.reads.eraseIdx i }
          (loadCurrentUpstreams read))
  | fire (hTimer : s.timer = true) : Steps s .fire s.fire
  | openTemp
      {i : Nat} {upstreams : Upstreams}
      (hWriting : s.writing[i]? = some ⟨upstreams, .taken⟩) :
      Steps s (.openTemp i) (s.openTemp i upstreams)
  | save
      {i : Nat} {upstreams : Upstreams}
      {place : Place} {mixed : Bool}
      (hWriting :
        s.writing[i]? = some ⟨upstreams, .opened place⟩) :
      Steps s (.save i mixed) (s.save i upstreams place mixed)
  | fail
      {i : Nat} {upstreams : Upstreams} {phase : Phase}
      (hWriting : s.writing[i]? = some ⟨upstreams, phase⟩)
      (hPhase : phase ≠ .saved) :
      Steps s (.fail i) (s.fail i upstreams phase)
  | rename
      {i : Nat} {raises : Bool} {upstreams : Upstreams}
      (hWriting : s.writing[i]? = some ⟨upstreams, .saved⟩) :
      Steps s (.rename i raises) (s.rename i raises)

theorem steps_of_step
    {s t : State}
    {act : Act}
    (hStep : step s act = some t) :
    Steps s act t := by
  cases act with
  | etcd contents =>
      cases hStep
      exact .etcd
  | read raisesAt =>
      cases hStep
      exact .read
  | compare i =>
      rcases Option.map_eq_some_iff.mp hStep with
        ⟨read, hRead, rfl⟩
      exact .compare hRead
  | fire =>
      simp only [step] at hStep
      split at hStep
      · cases hStep
        exact .fire ‹_›
      · cases hStep
  | openTemp i =>
      simp only [step] at hStep
      split at hStep
      · cases hStep
        exact .openTemp ‹_›
      · cases hStep
  | save i mixed =>
      simp only [step] at hStep
      split at hStep
      · split at hStep
        · cases hStep
        · cases hStep
          exact .save ‹_›
      · cases hStep
  | fail i =>
      simp only [step] at hStep
      split at hStep
      · cases hStep
      · rename_i hSaved hWriting
        cases hStep
        exact .fail hWriting hSaved
      · cases hStep
  | rename i raises =>
      simp only [step] at hStep
      split at hStep
      · cases hStep
        exact .rename ‹_›
      · cases hStep

end Watcher

------------------------------------------------------------
-- Entries of Leaders
------------------------------------------------------------

namespace Watcher

open Py

/- The other entries do not count. -/
theorem leaderAddresses_leaderEntries
    (contents : Contents) :
    leaderAddresses (leaderEntries contents) =
      leaderAddresses contents := by
  unfold leaderAddresses leaderEntries
  rw [List.foldl_filter]
  congr 1
  funext upstreams entry
  simp only [decide_eq_true_eq]
  split
  · rfl
  · rename_i hNot
    exact (if_neg hNot).symm

/- Reads of the same entries collect the same. -/
theorem leaderAddresses_congr
    {contents contents' : Contents}
    (hSame :
      leaderEntries contents = leaderEntries contents') :
    leaderAddresses contents = leaderAddresses contents' := by
  rw [← leaderAddresses_leaderEntries contents, hSame,
    leaderAddresses_leaderEntries]

end Watcher

------------------------------------------------------------
-- Invariant
------------------------------------------------------------

namespace Watcher

open Py

/- Whatever is scheduled or written was complete. -/
structure Complete (s : State) : Prop where
  reads : ∀ read ∈ s.reads, read.contents ∈ s.moments
  current : s.etcd ∈ s.moments
  scheduled : ∀ upstreams ∈ s.scheduled, s.Held upstreams
  unscheduled : s.scheduled = [] → s.lastUpstreams = Dict.empty
  pending : s.timer = true → s.pending ∈ s.scheduled
  writing : s.writing.map Write.upstreams ⊆ s.scheduled
  generated : s.generated ⊆ s.scheduled

theorem complete_start
    (contents : Contents) :
    Complete (State.start contents) := by
  constructor <;> simp [State.start]

variable {s t : State}

/- A write that goes on has the same set as before. -/
theorem map_upstreams_set
    {writing : List Write}
    {i : Nat}
    {write : Write}
    (hWriting : writing[i]? = some write)
    (phase : Phase) :
    (writing.set i ⟨write.upstreams, phase⟩).map
        Write.upstreams =
      writing.map Write.upstreams := by
  have hHere :
      (writing.map Write.upstreams)[i]? =
        some write.upstreams := by
    rw [List.getElem?_map, hWriting]
    rfl
  rcases List.getElem?_eq_some_iff.mp hHere with ⟨hLt, hEq⟩
  rw [List.map_set, ← hEq, List.set_getElem_self]

theorem Write.upstreams_renamed (write : Write) :
    write.renamed.upstreams = write.upstreams := by
  unfold Write.renamed
  split <;> rfl

/- It is as far as before. -/
theorem Write.phase_renamed_iff
    {write : Write}
    {phase : Phase}
    (hNot : ∀ place, phase ≠ .opened place) :
    write.renamed.phase = phase ↔ write.phase = phase := by
  unfold Write.renamed
  split
  · rename_i place hOpened
    rw [hOpened]
    exact
      ⟨fun hIs => absurd hIs.symm (hNot _),
        fun hIs => absurd hIs.symm (hNot _)⟩
  · rfl

theorem map_upstreams_renamed (writing : List Write) :
    (writing.map Write.renamed).map Write.upstreams =
      writing.map Write.upstreams := by
  rw [List.map_map]
  exact
    List.map_congr_left (fun write _ =>
      write.upstreams_renamed)

/- The writes in progress, once one of them has ended. -/
theorem Complete.writing_eraseIdx
    (hComplete : Complete s)
    (i : Nat) :
    (s.writing.eraseIdx i).map Write.upstreams ⊆
      s.scheduled := by
  intro set hMem
  rcases List.mem_map.mp hMem with ⟨write, hWrite, rfl⟩
  exact
    hComplete.writing
      (List.mem_map_of_mem (List.mem_of_mem_eraseIdx hWrite))

/- The set of a write in progress is given out as text. -/
theorem Complete.generated_cons
    (hComplete : Complete s)
    {i : Nat}
    {write : Write}
    (hWriting : s.writing[i]? = some write) :
    write.upstreams :: s.generated ⊆ s.scheduled := by
  intro set hMem
  rcases List.mem_cons.mp hMem with rfl | hOld
  · exact
      hComplete.writing
        (List.mem_map_of_mem (List.mem_of_getElem? hWriting))
  · exact hComplete.generated hOld

theorem complete_compare
    {upstreams : Upstreams}
    (hComplete : Complete s)
    (hHeld :
      upstreams.Same s.lastUpstreams ∨ s.Held upstreams) :
    Complete (s.compare upstreams) := by
  unfold State.compare
  split
  · exact hComplete
  · rename_i hNew
    refine
      ⟨hComplete.reads, hComplete.current, ?_, ?_, ?_, ?_,
        ?_⟩
    · intro set hMem
      rcases List.mem_cons.mp hMem with rfl | hOld
      · exact hHeld.resolve_left hNew
      · exact hComplete.scheduled set hOld
    · intro hNone
      cases hNone
    · intro _
      exact List.mem_cons_self
    · exact
        List.subset_cons_of_subset _ hComplete.writing
    · exact
        List.subset_cons_of_subset _ hComplete.generated

theorem complete_step
    {act : Act}
    (hComplete : Complete s)
    (hHarmless : Harmless s act)
    (hStep : step s act = some t) :
    Complete t := by
  cases steps_of_step hStep with
  | etcd =>
      refine ⟨?_, ?_, ?_, hComplete.unscheduled,
        hComplete.pending, hComplete.writing,
        hComplete.generated⟩
      · intro read hMem
        exact
          List.mem_cons_of_mem _ (hComplete.reads read hMem)
      · exact List.mem_cons_self
      · intro set hMem
        rcases hComplete.scheduled set hMem with
          ⟨moment, hMoment, hSame⟩
        exact
          ⟨moment, List.mem_cons_of_mem _ hMoment, hSame⟩
  | read =>
      refine ⟨?_, hComplete.current, hComplete.scheduled,
        hComplete.unscheduled, hComplete.pending,
        hComplete.writing, hComplete.generated⟩
      intro read hMem
      rcases List.mem_append.mp hMem with hOld | hNew
      · exact hComplete.reads read hOld
      · rw [List.mem_singleton.mp hNew]
        exact hComplete.current
  | @compare i read hRead =>
      apply complete_compare
      · refine ⟨?_, hComplete.current,
          hComplete.scheduled, hComplete.unscheduled,
          hComplete.pending, hComplete.writing,
          hComplete.generated⟩
        intro other hMem
        exact
          hComplete.reads other (List.mem_of_mem_eraseIdx hMem)
      · cases hRaises : read.raisesAt with
        | some n =>
            simp only [loadCurrentUpstreams, hRaises]
            rcases hHarmless read hRead n hRaises with
              ⟨moment, hMoment, hSame⟩ | ⟨hNone, hFirst⟩
            · right
              refine ⟨moment, hMoment, ?_⟩
              rw [leaderAddresses_congr hSame]
              intro m
              rfl
            · left
              rw [hComplete.unscheduled hFirst,
                ← leaderAddresses_leaderEntries, hNone]
              intro m
              rfl
        | none =>
            right
            refine ⟨read.contents,
              hComplete.reads read
                (List.mem_of_getElem? hRead), ?_⟩
            simp only [loadCurrentUpstreams, hRaises]
            intro m
            rfl
  | fire hTimer =>
      refine ⟨hComplete.reads, hComplete.current,
        hComplete.scheduled, hComplete.unscheduled, ?_, ?_,
        hComplete.generated⟩
      · intro hArmed
        cases hArmed
      · intro set hMem
        simp only [State.fire, List.map_append,
          List.map_singleton] at hMem
        rcases List.mem_append.mp hMem with hOld | hNew
        · exact hComplete.writing hOld
        · rw [List.mem_singleton.mp hNew]
          exact hComplete.pending hTimer
  | openTemp hWriting =>
      refine ⟨hComplete.reads, hComplete.current,
        hComplete.scheduled, hComplete.unscheduled,
        hComplete.pending, ?_,
        hComplete.generated_cons hWriting⟩
      simp only [State.openTemp, map_upstreams_set hWriting]
      exact hComplete.writing
  | @save i upstreams place mixed hWriting =>
      have hSame : (s.writing.set i ⟨upstreams, .saved⟩).map
          Write.upstreams ⊆ s.scheduled := by
        rw [map_upstreams_set hWriting]
        exact hComplete.writing
      cases place <;>
        exact
          ⟨hComplete.reads, hComplete.current,
            hComplete.scheduled, hComplete.unscheduled,
            hComplete.pending, hSame, hComplete.generated⟩
  | @fail i upstreams phase hWriting _ =>
      have hRest := hComplete.writing_eraseIdx i
      have hGenerated := hComplete.generated_cons hWriting
      cases phase with
      | opened place =>
          cases place <;>
            exact
              ⟨hComplete.reads, hComplete.current,
                hComplete.scheduled, hComplete.unscheduled,
                hComplete.pending, hRest,
                hComplete.generated⟩
      | _ =>
          exact
            ⟨hComplete.reads, hComplete.current,
              hComplete.scheduled, hComplete.unscheduled,
              hComplete.pending, hRest, hGenerated⟩
  | @rename i raises _ hWriting =>
      have hRest := hComplete.writing_eraseIdx i
      unfold State.rename
      split
      · exact
          ⟨hComplete.reads, hComplete.current,
            hComplete.scheduled, hComplete.unscheduled,
            hComplete.pending, hRest, hComplete.generated⟩
      · refine
          ⟨hComplete.reads, hComplete.current,
            hComplete.scheduled, hComplete.unscheduled,
            hComplete.pending, ?_, hComplete.generated⟩
        rw [map_upstreams_renamed]
        exact hRest

end Watcher

------------------------------------------------------------
-- Routes
------------------------------------------------------------

namespace Watcher

open Py

/- The configuration has the upstream and the entry of `m`. -/
structure HasRoute
    (conf : Nginx.Conf)
    (m address : String) : Prop where
  upstream :
    { name := safeName m, server := address } ∈
      conf.upstreams
  entry : (escape m ++ "$", safeName m) ∈ conf.map.regexes

theorem hasRoute_upstreamConf
    (defaultUpstream : String)
    {upstreams : Upstreams}
    {m address : String}
    (hGet : upstreams.get? m = some address) :
    HasRoute (upstreamConf defaultUpstream upstreams) m
      address where
  upstream :=
    List.mem_map.mpr
      ⟨(m, address), mem_sortedItems.mpr hGet, rfl⟩
  entry :=
    List.mem_map.mpr
      ⟨(m, address), mem_sortedItems.mpr hGet, rfl⟩

/-
  Every scheduled set is a complete set of some moment, and
  a route that is always present is in every configuration.
-/
theorem routes_kept
    (defaultUpstream : String)
    (contents : Contents)
    (s : State)
    (hRun :
      Machine.Reaches step Harmless (State.start contents)
        s) :
    (∀ upstreams ∈ s.scheduled, s.Held upstreams) ∧
      ∀ m address,
        (∀ moment ∈ s.moments,
          (leaderAddresses moment).get? m = some address) →
        ∀ upstreams ∈ s.generated,
          HasRoute (upstreamConf defaultUpstream upstreams) m
            address := by
  have hComplete : Complete s :=
    hRun.invariant (complete_start contents) complete_step
  refine ⟨hComplete.scheduled, ?_⟩
  intro m address hAlways upstreams hGenerated
  rcases
      hComplete.scheduled upstreams
        (hComplete.generated hGenerated) with
    ⟨moment, hMoment, hSame⟩
  apply hasRoute_upstreamConf
  rw [hSame m]
  exact hAlways moment hMoment

end Watcher

------------------------------------------------------------
-- A Failed Read
------------------------------------------------------------

namespace Watcher

open Py

/- One match has a leader. -/
def oneLeader : Contents :=
  [("/match/arena/leader", "room-1"),
    ("/match/arena/leader-address", "room-1:8000")]

/- Its route is written from a good read. -/
def goodResync : List Act :=
  [.read none, .compare 0, .fire, .openTemp 0, .save 0 false,
    .rename 0 false]

/- The next read raises after the last entry of a leader. -/
def lateFailure : List Act :=
  goodResync ++ [.read (some 2), .compare 0]

/- The next read raises before the first entry. -/
def failedResync : List Act :=
  goodResync ++
    [.read (some 0), .compare 0, .fire, .openTemp 0,
      .save 0 false, .rename 0 false]

theorem routes_kept_lateFailure :
    (Machine.final step (State.start oneLeader) lateFailure
        rfl).generated.map (fun u => u.get? "arena") =
      [some "room-1:8000"] ∧
    ∀ upstreams ∈
        (Machine.final step (State.start oneLeader)
          lateFailure rfl).generated,
      HasRoute
        (upstreamConf "game_room_default" upstreams)
        "arena" "room-1:8000" := by
  refine ⟨by decide, ?_⟩
  exact
    (routes_kept "game_room_default" oneLeader _
      (Machine.reaches_of_run (Machine.run_eq_final rfl)
        (by decide))).2
      "arena" "room-1:8000" (by decide)

theorem route_withdrawn :
    Machine.Reachable step (State.start oneLeader)
        (Machine.final step (State.start oneLeader)
          failedResync rfl) ∧
      ¬ ∀ upstreams ∈
          (Machine.final step (State.start oneLeader)
            failedResync rfl).scheduled,
        (Machine.final step (State.start oneLeader)
          failedResync rfl).Held upstreams :=
  ⟨Machine.reachable_of_run (Machine.run_eq_final rfl),
    by decide⟩

end Watcher
