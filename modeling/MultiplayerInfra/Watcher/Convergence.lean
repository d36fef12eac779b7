import Mathlib.Data.List.InsertIdx
import MultiplayerInfra.Machine.InFlight
import MultiplayerInfra.Watcher.Resync

/-
  Once nothing is in progress, the file has the last set and
  that is the result of the newest read.

  Key definitions include:
    * `Watcher.Tracked`
    * `Watcher.trackedStep`
    * `Watcher.InOrder`
    * `Watcher.Converged`

  Key theorems include:
    * `Watcher.converges_step`
    * `Watcher.routes_converge`

  Reads are compared, and sets are written, in whatever order
  their threads get to it.  All writes go through one
  temporary file, which a write may find in the state in
  which another one has left it, or lose to another one's
  rename while it is open.
-/

------------------------------------------------------------
-- Order
------------------------------------------------------------

namespace Watcher

open Py InFlight

/- A watcher, with what is known of the order of its work. -/
structure Tracked where
  state : State
  -- the result of the read that started last
  latest : Option Upstreams
  -- the reads in progress that started before one that was
  -- compared, and the writes taken before one in the file
  staleReads : Nat
  staleWrites : Nat

def Tracked.start
    (contents : Contents)
    (file : Option Upstreams) : Tracked where
  state :=
    { State.start contents with file := file.map .whole }
  latest := none
  staleReads := 0
  staleWrites := 0

/-
  The upstreams in a file, none without a file; a text that
  is not whole lists no set.
-/
def listed : Option Text → Option Upstreams
| none => some Dict.empty
| some (.whole upstreams) => some upstreams
| some .empty => none
| some .part => none

def Lists
    (file : Option Text)
    (upstreams : Upstreams) : Prop :=
  ∃ inFile ∈ listed file, upstreams.Same inFile

instance
    (file : Option Text)
    (upstreams : Upstreams) :
    Decidable (Lists file upstreams) :=
  inferInstanceAs (Decidable
    (∃ inFile ∈ listed file, upstreams.Same inFile))

/- The write that an act ends. -/
def ends : Act → Option Nat
| .fail i => some i
| .rename i _ => some i
| _ => none

namespace Tracked

/- The result of the read that starts in a step. -/
def latestAfter
    (s : Tracked) : Act → Option Upstreams
| .read raisesAt =>
    some (loadCurrentUpstreams ⟨s.state.etcd, raisesAt⟩)
| _ => s.latest

def staleReadsAfter (s : Tracked) : Act → Nat
| .compare i => staleAfter s.staleReads i true
| _ => s.staleReads

/- A write takes effect if its set is then in the file. -/
def staleWritesAfter
    (s : Tracked)
    (after : State)
    (act : Act) : Nat :=
  match ends act with
  | none => s.staleWrites
  | some i =>
      staleAfter s.staleWrites i
        (((s.state.writing[i]?).map (fun write =>
          decide (Lists after.file write.upstreams))).getD false)

/- No resync, timer or write is in progress. -/
structure Quiet (s : Tracked) : Prop where
  reads : s.state.reads = []
  timer : s.state.timer = false
  writing : s.state.writing = []

end Tracked

def trackedStep (s : Tracked) (act : Act) : Option Tracked :=
  (step s.state act).map (fun state =>
    { state := state
      latest := s.latestAfter act
      staleReads := s.staleReadsAfter act
      staleWrites := s.staleWritesAfter state act })

/-
  A stale read is compared only if its result is the last
  set, or a newer read is in progress.

  Unless a newer set is pending or being written, a stale
  write changes the file only to a text that lists what the
  file lists: by a rename, or because the file it has opened
  was renamed to the configuration since.  Any other write
  finds the text of its own set when it renames, or, if it
  raises, its set in the file.
-/
def InOrder (s : Tracked) : Act → Prop
| .compare i =>
    i < s.staleReads →
      s.staleReads < s.state.reads.length ∨
        ∀ read ∈ s.state.reads[i]?,
          (loadCurrentUpstreams read).Same
            s.state.lastUpstreams
| .save i mixed =>
    s.state.timer = true ∨
      s.staleWrites < s.state.writing.length ∨
        ∀ write ∈ s.state.writing[i]?,
          write.phase = .opened .file →
            mixed = false ∧
              Lists s.state.file write.upstreams
| .fail i =>
    s.state.timer = true ∨
      if i < s.staleWrites then
        s.staleWrites < s.state.writing.length ∨
          ∀ write ∈ s.state.writing[i]?,
            write.phase ≠ .opened .file
      else
        i + 1 < s.state.writing.length ∨
          ∀ write ∈ s.state.writing[i]?,
            write.phase ≠ .opened .file ∧
              Lists s.state.file write.upstreams
| .rename i raises =>
    s.state.timer = true ∨
      if i < s.staleWrites then
        s.staleWrites < s.state.writing.length ∨
          raises = true ∨ s.state.temp = none ∨
            ∃ saved ∈ listed s.state.temp,
              Lists s.state.file saved
      else
        i + 1 < s.state.writing.length ∨
          ∀ write ∈ s.state.writing[i]?,
            if raises = true ∨ s.state.temp = none then
              Lists s.state.file write.upstreams
            else Lists s.state.temp write.upstreams
| _ => True

instance decidableInOrder
    (s : Tracked) :
    (act : Act) → Decidable (InOrder s act)
| .compare i =>
    inferInstanceAs (Decidable
      (i < s.staleReads →
        s.staleReads < s.state.reads.length ∨
          ∀ read ∈ s.state.reads[i]?,
            (loadCurrentUpstreams read).Same
              s.state.lastUpstreams))
| .save i mixed =>
    inferInstanceAs (Decidable
      (s.state.timer = true ∨
        s.staleWrites < s.state.writing.length ∨
          ∀ write ∈ s.state.writing[i]?,
            write.phase = .opened .file →
              mixed = false ∧
                Lists s.state.file write.upstreams))
| .fail i =>
    inferInstanceAs (Decidable
      (s.state.timer = true ∨
        if i < s.staleWrites then
          s.staleWrites < s.state.writing.length ∨
            ∀ write ∈ s.state.writing[i]?,
              write.phase ≠ .opened .file
        else
          i + 1 < s.state.writing.length ∨
            ∀ write ∈ s.state.writing[i]?,
              write.phase ≠ .opened .file ∧
                Lists s.state.file write.upstreams))
| .rename i raises =>
    inferInstanceAs (Decidable
      (s.state.timer = true ∨
        if i < s.staleWrites then
          s.staleWrites < s.state.writing.length ∨
            raises = true ∨ s.state.temp = none ∨
              ∃ saved ∈ listed s.state.temp,
                Lists s.state.file saved
        else
          i + 1 < s.state.writing.length ∨
            ∀ write ∈ s.state.writing[i]?,
              if raises = true ∨ s.state.temp = none then
                Lists s.state.file write.upstreams
              else Lists s.state.temp write.upstreams))
| .etcd _ => inferInstanceAs (Decidable True)
| .read _ => inferInstanceAs (Decidable True)
| .fire => inferInstanceAs (Decidable True)
| .openTemp _ => inferInstanceAs (Decidable True)

/- The file, the last set and the newest read agree. -/
structure Converged (s : Tracked) : Prop where
  file : Lists s.state.file s.state.lastUpstreams
  latest :
    ∀ upstreams, s.latest = some upstreams →
      s.state.lastUpstreams.Same upstreams

end Watcher

------------------------------------------------------------
-- Invariant
------------------------------------------------------------

namespace Watcher

open Py InFlight

/- Until the timer fires, nothing is asked of the writes. -/
structure Converges (s : Tracked) : Prop where
  reads :
    Settles
      (fun read =>
        s.latest = some (loadCurrentUpstreams read))
      (∀ upstreams, s.latest = some upstreams →
        s.state.lastUpstreams.Same upstreams)
      s.state.reads s.staleReads
  pending :
    s.state.timer = true →
      s.state.pending = s.state.lastUpstreams
  writes :
    Settles
      (fun upstreams =>
        s.state.timer = false →
          upstreams.Same s.state.lastUpstreams)
      (s.state.timer = false →
        Lists s.state.file s.state.lastUpstreams)
      (s.state.writing.map Write.upstreams) s.staleWrites

theorem converges_start
    (contents : Contents)
    {file : Option Upstreams}
    (hFile : (file.getD Dict.empty).Same Dict.empty) :
    Converges (Tracked.start contents file) where
  reads := settles_nil _ nofun
  pending := nofun
  writes := by
    apply settles_nil
    intro _
    cases file with
    | none => exact ⟨_, rfl, fun _ => rfl⟩
    | some inFile =>
        exact ⟨inFile, rfl, fun m => (hFile m).symm⟩

/- With nothing in progress, all agree. -/
theorem Converges.converged
    {s : Tracked}
    (hConverges : Converges s)
    (hQuiet : s.Quiet) :
    Converged s := by
  have hReads := hConverges.reads
  have hWrites := hConverges.writes
  rw [hQuiet.reads] at hReads
  rw [hQuiet.writing] at hWrites
  exact ⟨hWrites.of_nil hQuiet.timer, hReads.of_nil⟩

variable {s t : Tracked}

/- A comparison, of a new set or of the last one. -/
theorem converges_compare
    (hConverges : Converges s)
    {i : Nat}
    {read : Read}
    (hRead : s.state.reads[i]? = some read)
    (hOrder : InOrder s (.compare i)) :
    Converges
      { state :=
          State.compare
            { s.state with reads := s.state.reads.eraseIdx i }
            (loadCurrentUpstreams read)
        latest := s.latest
        staleReads := staleAfter s.staleReads i true
        staleWrites := s.staleWrites } := by
  by_cases hSame :
      (loadCurrentUpstreams read).Same s.state.lastUpstreams
  · have hCompare :
        State.compare
            { s.state with reads := s.state.reads.eraseIdx i }
            (loadCurrentUpstreams read) =
          { s.state with
            reads := s.state.reads.eraseIdx i } :=
      if_pos hSame
    rw [hCompare]
    refine ⟨?_, hConverges.pending, hConverges.writes⟩
    refine
      hConverges.reads.erase hRead (fun _ _ hStands => hStands)
        ?_ nofun
    intro _ hLatest upstreams hIs
    rw [hLatest] at hIs
    cases hIs
    intro m
    exact (hSame m).symm
  · have hCompare :
        State.compare
            { s.state with reads := s.state.reads.eraseIdx i }
            (loadCurrentUpstreams read) =
          { State.scheduleDebouncedWrite
              { s.state with
                reads := s.state.reads.eraseIdx i }
              (loadCurrentUpstreams read) with
            lastUpstreams := loadCurrentUpstreams read } :=
      if_neg hSame
    rw [hCompare]
    refine ⟨?_, fun _ => rfl, ?_⟩
    · refine hConverges.reads.erase hRead ?_ ?_ nofun
      · -- a stale result that differs is not the last one
        intro hStale hAll _
        rcases hOrder hStale with hMore | hOld
        · omega
        · exact absurd (hOld read hRead) hSame
      · intro _ hLatest upstreams hIs m
        rw [hLatest] at hIs
        cases hIs
        rfl
    · exact Settles.of_all hConverges.writes.le nofun nofun

theorem Lists.congr
    {file : Option Text}
    {upstreams upstreams' : Upstreams}
    (hLists : Lists file upstreams)
    (hSame : upstreams.Same upstreams') :
    Lists file upstreams' := by
  rcases hLists with ⟨inFile, hListed, hIs⟩
  exact
    ⟨inFile, hListed, fun m => (hSame m).symm.trans (hIs m)⟩

/-
  A write ends.  A stale one has to leave what the file lists
  as it is, and any other one its set in the file, unless a
  newer set is pending or being written.
-/
theorem Converges.writes_ends
    (hConverges : Converges s)
    {i : Nat}
    {write : Write}
    (hWriting : s.state.writing[i]? = some write)
    (file : Option Text)
    (hStale :
      i < s.staleWrites →
        s.state.timer = true ∨
          s.staleWrites < s.state.writing.length ∨
            ∀ upstreams,
              Lists s.state.file upstreams →
                Lists file upstreams)
    (hFresh :
      s.state.timer = true ∨ i < s.staleWrites ∨
        i + 1 < s.state.writing.length ∨
          Lists file write.upstreams) :
    Settles
      (fun upstreams =>
        s.state.timer = false →
          upstreams.Same s.state.lastUpstreams)
      (s.state.timer = false →
        Lists file s.state.lastUpstreams)
      ((s.state.writing.eraseIdx i).map Write.upstreams)
      (staleAfter s.staleWrites i
        (decide (Lists file write.upstreams))) := by
  have hLength :
      (s.state.writing.map Write.upstreams).length =
        s.state.writing.length :=
    List.length_map _
  have hNot :
      s.state.timer = true →
        ∀ P : Prop, s.state.timer = false → P := by
    intro hArmed P hTimer
    rw [hArmed] at hTimer
    cases hTimer
  have hHere :
      (s.state.writing.map Write.upstreams)[i]? =
        some write.upstreams := by
    rw [List.getElem?_map, hWriting]
    rfl
  rw [← List.eraseIdx_map]
  refine hConverges.writes.erase hHere ?_ ?_ ?_
  · intro hOld hAll hStands hTimer
    rcases hStale hOld with hArmed | hMore | hKept
    · exact hNot hArmed _ hTimer
    · omega
    · exact hKept _ (hStands hTimer)
  · intro hLands hGood hTimer
    exact (of_decide_eq_true hLands).congr (hGood hTimer)
  · intro hFails
    rcases hFresh with hArmed | hOld | hMore | hHas
    · exact
        .inr (.inr
          ⟨hNot hArmed _, fun _ => hNot hArmed _⟩)
    · exact .inl hOld
    · exact .inr (.inl (by omega))
    · exact absurd hHas (of_decide_eq_false hFails)

/- Both texts list the same set. -/
theorem Lists.trans
    {file text : Option Text}
    {saved upstreams : Upstreams}
    (hText : saved ∈ listed text)
    (hFile : Lists file saved)
    (hLists : Lists file upstreams) :
    Lists text upstreams := by
  rcases hFile with ⟨inFile, hListed, hSame⟩
  rcases hLists with ⟨inFile', hListed', hSame'⟩
  rw [hListed] at hListed'
  cases hListed'
  exact
    ⟨saved, hText, fun m => (hSame' m).trans (hSame m).symm⟩

/- Only a file that was renamed since is the configuration. -/
theorem file_put
    (state : State)
    (text : Text)
    {place : Place}
    (hPlace : place ≠ .file) :
    (state.put text place).file = state.file := by
  cases place with
  | temp => rfl
  | file => exact absurd rfl hPlace
  | gone => rfl

theorem converges_save
    (hConverges : Converges s)
    {i : Nat}
    {place : Place}
    {mixed : Bool}
    {upstreams : Upstreams}
    (hWriting :
      s.state.writing[i]? = some ⟨upstreams, .opened place⟩)
    (hOrder : InOrder s (.save i mixed)) :
    Converges
      { s with state := s.state.save i upstreams place mixed } := by
  have hSame :
      (s.state.writing.set i ⟨upstreams, .saved⟩).map
          Write.upstreams =
        s.state.writing.map Write.upstreams :=
    map_upstreams_set hWriting .saved
  have hStands :
      s.staleWrites = s.state.writing.length →
        (s.state.timer = false →
          Lists s.state.file s.state.lastUpstreams) →
        s.state.timer = false →
          Lists (s.state.save i upstreams place mixed).file
            s.state.lastUpstreams := by
    intro hAll hBefore hTimer
    rcases hOrder with hArmed | hMore | hKept
    · rw [hArmed] at hTimer
      cases hTimer
    · omega
    · by_cases hPlace : place = .file
      · subst hPlace
        rcases hKept _ hWriting rfl with ⟨rfl, hLists⟩
        exact Lists.trans rfl hLists (hBefore hTimer)
      · rw [State.save]
        show Lists (State.put _ _ _).file _
        rw [file_put _ _ hPlace]
        exact hBefore hTimer
  have hBefore := hConverges.writes
  have hWrites :
      Settles
        (fun upstreams =>
          s.state.timer = false →
            upstreams.Same s.state.lastUpstreams)
        (s.state.timer = false →
          Lists (s.state.save i upstreams place mixed).file
            s.state.lastUpstreams)
        (s.state.writing.map Write.upstreams) s.staleWrites :=
    ⟨hBefore.le,
      fun hAll =>
        hStands (by simpa using hAll) (hBefore.stands hAll),
      hBefore.newest⟩
  rw [← hSame] at hWrites
  cases place <;>
    exact ⟨hConverges.reads, hConverges.pending, hWrites⟩

theorem converges_fail
    (hConverges : Converges s)
    {i : Nat}
    {phase : Phase}
    {upstreams : Upstreams}
    (hWriting :
      s.state.writing[i]? = some ⟨upstreams, phase⟩)
    (hOrder : InOrder s (.fail i)) :
    Converges
      { state := s.state.fail i upstreams phase
        latest := s.latest
        staleReads := s.staleReads
        staleWrites :=
          staleAfter s.staleWrites i
            (decide
              (Lists (s.state.fail i upstreams phase).file
                upstreams)) } := by
  have hFile :
      phase ≠ .opened .file →
        (s.state.fail i upstreams phase).file =
          s.state.file := by
    intro hPhase
    cases phase with
    | opened place =>
        refine file_put s.state .part ?_
        rintro rfl
        exact hPhase rfl
    | _ => rfl
  have hEnds :=
    hConverges.writes_ends hWriting
      (s.state.fail i upstreams phase).file ?_ ?_
  · cases phase with
    | opened place =>
        cases place <;>
          exact ⟨hConverges.reads, hConverges.pending, hEnds⟩
    | _ => exact ⟨hConverges.reads, hConverges.pending, hEnds⟩
  · intro hOld
    rcases hOrder with hArmed | hOrder
    · exact .inl hArmed
    · rw [if_pos hOld] at hOrder
      rcases hOrder with hMore | hPhase
      · exact .inr (.inl hMore)
      · rw [hFile (hPhase _ hWriting)]
        exact .inr (.inr (fun _ hLists => hLists))
  · rcases hOrder with hArmed | hOrder
    · exact .inl hArmed
    · by_cases hOld : i < s.staleWrites
      · exact .inr (.inl hOld)
      · rw [if_neg hOld] at hOrder
        rcases hOrder with hMore | hHas
        · exact .inr (.inr (.inl hMore))
        · rcases hHas _ hWriting with ⟨hPhase, hLists⟩
          rw [hFile hPhase]
          exact .inr (.inr (.inr hLists))

/- The file after a rename, or after one that raised. -/
theorem file_rename
    (state : State)
    (i : Nat)
    (raises : Bool) :
    (state.rename i raises).file =
      if raises = true ∨ state.temp = none then state.file
      else state.temp := by
  unfold State.rename
  split <;> rfl

theorem converges_rename
    (hConverges : Converges s)
    {i : Nat}
    {raises : Bool}
    {upstreams : Upstreams}
    (hWriting :
      s.state.writing[i]? = some ⟨upstreams, .saved⟩)
    (hOrder : InOrder s (.rename i raises)) :
    Converges
      { state := s.state.rename i raises
        latest := s.latest
        staleReads := s.staleReads
        staleWrites :=
          staleAfter s.staleWrites i
            (decide
              (Lists (s.state.rename i raises).file
                upstreams)) } := by
  have hEnds :=
    hConverges.writes_ends hWriting
      (s.state.rename i raises).file ?_ ?_
  · unfold State.rename at hEnds ⊢
    split
    · rename_i hNone
      simp only [if_pos hNone] at hEnds ⊢
      exact ⟨hConverges.reads, hConverges.pending, hEnds⟩
    · rename_i hSome
      simp only [if_neg hSome] at hEnds ⊢
      refine ⟨hConverges.reads, hConverges.pending, ?_⟩
      rw [map_upstreams_renamed]
      exact hEnds
  · intro hOld
    rcases hOrder with hArmed | hOrder
    · exact .inl hArmed
    · rw [if_pos hOld] at hOrder
      rcases hOrder with hMore | hRaises
      · exact .inr (.inl hMore)
      · refine .inr (.inr ?_)
        intro other hLists
        rw [file_rename]
        split
        · exact hLists
        · rename_i hRenames
          rcases hRaises with hRaises | hNone | hSaved
          · exact absurd (.inl hRaises) hRenames
          · exact absurd (.inr hNone) hRenames
          · rcases hSaved with ⟨saved, hTemp, hFile⟩
            exact Lists.trans hTemp hFile hLists
  · rcases hOrder with hArmed | hOrder
    · exact .inl hArmed
    · by_cases hOld : i < s.staleWrites
      · exact .inr (.inl hOld)
      · rw [if_neg hOld] at hOrder
        rcases hOrder with hMore | hHas
        · exact .inr (.inr (.inl hMore))
        · refine .inr (.inr (.inr ?_))
          have hThere := hHas _ hWriting
          rw [file_rename]
          split
          · rename_i hNone
            rw [if_pos hNone] at hThere
            exact hThere
          · rename_i hSome
            rw [if_neg hSome] at hThere
            exact hThere

theorem converges_step
    {act : Act}
    (hConverges : Converges s)
    (hOrder : InOrder s act)
    (hStep : trackedStep s act = some t) :
    Converges t := by
  rcases Option.map_eq_some_iff.mp hStep with
    ⟨state, hState, rfl⟩
  cases steps_of_step hState with
  | etcd =>
      exact
        ⟨hConverges.reads, hConverges.pending,
          hConverges.writes⟩
  | read =>
      exact
        ⟨Settles.push hConverges.reads.le rfl,
          hConverges.pending, hConverges.writes⟩
  | compare hRead =>
      exact converges_compare hConverges hRead hOrder
  | fire hTimer =>
      refine ⟨hConverges.reads, ?_, ?_⟩
      · intro hPending
        cases hPending
      · simp only [State.fire, List.map_append,
          List.map_singleton]
        apply Settles.push hConverges.writes.le
        intro _ m
        rw [hConverges.pending hTimer]
  | openTemp hWriting =>
      refine ⟨hConverges.reads, hConverges.pending, ?_⟩
      simp only [State.openTemp, map_upstreams_set hWriting]
      exact hConverges.writes
  | save hWriting =>
      exact converges_save hConverges hWriting hOrder
  | fail hWriting _ =>
      have hNext :=
        converges_fail hConverges hWriting hOrder
      simp only [Tracked.staleWritesAfter, ends, hWriting,
        Option.map_some, Option.getD_some]
      exact hNext
  | rename hWriting =>
      have hNext :=
        converges_rename hConverges hWriting hOrder
      simp only [Tracked.staleWritesAfter, ends, hWriting,
        Option.map_some, Option.getD_some]
      exact hNext

end Watcher

------------------------------------------------------------
-- Convergence
------------------------------------------------------------

namespace Watcher

open Py
open Machine (Reaches Reachable reachable_of_run)
open Machine (reaches_of_run run_eq_final final)

/-
  From a file without upstreams, if nothing stale is taken
  for the newest and the last write renames its own text, the
  route map converges.
-/
theorem routes_converge
    (contents : Contents)
    (file : Option Upstreams)
    (hFile : (file.getD Dict.empty).Same Dict.empty)
    (s : Tracked)
    (hRun :
      Reaches trackedStep InOrder
        (Tracked.start contents file) s)
    (hQuiet : s.Quiet) :
    Converged s := by
  have hConverges : Converges s :=
    hRun.invariant (converges_start contents hFile)
      converges_step
  exact hConverges.converged hQuiet

/-
  Two reads are compared in the order of their start, and the
  write of the first set ends after that of the second one
  has begun.
-/
def inOrder : Tracked :=
  final trackedStep (Tracked.start oneLeader none)
    [.read none, .etcd [], .read none, .compare 0, .fire,
      .compare 0, .openTemp 0, .save 0 false, .fire,
      .rename 0 false, .openTemp 0, .save 0 false,
      .rename 0 false]
    (by decide)

/- The first of them is compared last. -/
def staleRead : Tracked :=
  final trackedStep (Tracked.start oneLeader none)
    [.read none, .etcd [], .read none, .compare 1,
      .compare 0, .fire, .openTemp 0, .save 0 false,
      .rename 0 false]
    (by decide)

/- The rename of the only set fails. -/
def failedWrite : Tracked :=
  final trackedStep (Tracked.start oneLeader none)
    [.read none, .compare 0, .fire, .openTemp 0,
      .save 0 false, .rename 0 true]
    (by decide)

/- The newer write renames the text of the older one. -/
def sharedFile : Tracked :=
  final trackedStep (Tracked.start oneLeader none)
    [.read none, .compare 0, .fire, .etcd [], .read none,
      .compare 0, .fire, .openTemp 1, .save 1 false,
      .openTemp 0, .save 0 false, .rename 1 false,
      .rename 0 false]
    (by decide)

/- The newer write renames what the older one has open. -/
def openFile : Tracked :=
  final trackedStep (Tracked.start oneLeader none)
    [.read none, .compare 0, .fire, .etcd [], .read none,
      .compare 0, .fire, .openTemp 0, .openTemp 1,
      .save 1 false, .rename 1 false, .save 0 false,
      .rename 0 false]
    (by decide)

theorem routes_converge_inOrder :
    Lists inOrder.state.file Dict.empty ∧
      Converged inOrder :=
  ⟨by decide,
    routes_converge oneLeader none (fun _ => rfl) inOrder
      (reaches_of_run (run_eq_final (by decide)) (by decide))
      ⟨rfl, rfl, rfl⟩⟩

/-
  The route of a match without a leader, a lost route, and,
  twice, a route that comes back.
-/
theorem routes_diverge :
    (Reachable trackedStep (Tracked.start oneLeader none)
        staleRead ∧
      staleRead.Quiet ∧ ¬ Converged staleRead) ∧
    (Reachable trackedStep (Tracked.start oneLeader none)
        failedWrite ∧
      failedWrite.Quiet ∧ ¬ Converged failedWrite) ∧
    (Reachable trackedStep (Tracked.start oneLeader none)
        sharedFile ∧
      sharedFile.Quiet ∧ ¬ Converged sharedFile) ∧
    Reachable trackedStep (Tracked.start oneLeader none)
        openFile ∧
      openFile.Quiet ∧ ¬ Converged openFile := by
  refine
    ⟨⟨reachable_of_run (run_eq_final (by decide)),
        ⟨rfl, rfl, rfl⟩, ?_⟩,
      ⟨reachable_of_run (run_eq_final (by decide)),
        ⟨rfl, rfl, rfl⟩, ?_⟩,
      ⟨reachable_of_run (run_eq_final (by decide)),
        ⟨rfl, rfl, rfl⟩, ?_⟩,
      reachable_of_run (run_eq_final (by decide)),
      ⟨rfl, rfl, rfl⟩, ?_⟩
  · intro hConverged
    have hLatest :=
      hConverged.latest Dict.empty rfl "arena"
    revert hLatest
    decide
  · intro hConverged
    have hFile := hConverged.file
    revert hFile
    decide
  · intro hConverged
    have hFile := hConverged.file
    revert hFile
    decide
  · intro hConverged
    have hFile := hConverged.file
    revert hFile
    decide

end Watcher
