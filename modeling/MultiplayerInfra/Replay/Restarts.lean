import MultiplayerInfra.Replay.Archive
import Mathlib.Data.List.Infix

/-
  The archive of one match when the replay service crashes
  and restarts while it collects the events.

  Key definitions include:
    * `Replay.EventsFirst`
    * `Replay.Seamless`
    * `Replay.Prefixes`

  Key theorems include:
    * `Replay.prefixes_next`
    * `Replay.archive_gapless`

  Offsets, memory and checkpoints advance independently; the
  condition says when they agree at a restart.
-/

------------------------------------------------------------
-- The Condition
------------------------------------------------------------

namespace Replay

open Py GameRoom

variable {α : Type}

/- All events are polled before `match.end`. -/
def EventsFirst
    (log : List (StateJson α))
    (s : Service α × Checkpoints α) :
    Act → Prop
| .pollLifecycle _ => s.1.position = log.length
| _ => True

/-
  The first poll after a restart finds as many events in the
  newest checkpoint as lie before the resumed offset, and
  `match.end` finds a list unless it was archived before.
-/
def Seamless
    (log : List (StateJson α))
    (s : Service α × Checkpoints α) :
    Act → Prop
| .poll loads _ =>
    s.1.matchEvents = none →
      (collected s.1 s.2 loads).length = s.1.position
| .pollLifecycle _ =>
    s.1.matchEvents = none →
      log = [] ∨ s.1.archives ≠ []
| _ => True

instance decidableEventsFirst
    (log : List (StateJson α)) :
    (s : Service α × Checkpoints α) → (act : Act) →
      Decidable (EventsFirst log s act)
| s, .pollLifecycle _ =>
    inferInstanceAs
      (Decidable (s.1.position = log.length))
| _, .poll _ _ => inferInstanceAs (Decidable True)
| _, .commit _ => inferInstanceAs (Decidable True)
| _, .commitLifecycle _ => inferInstanceAs (Decidable True)
| _, .restart => inferInstanceAs (Decidable True)

instance decidableSeamless
    (log : List (StateJson α)) :
    (s : Service α × Checkpoints α) → (act : Act) →
      Decidable (Seamless log s act)
| s, .pollLifecycle _ =>
    have : Decidable (log = []) :=
      decidable_of_iff _ List.isEmpty_iff
    have : Decidable (s.1.archives ≠ []) :=
      decidable_of_iff _ List.isEmpty_eq_false_iff
    inferInstanceAs (Decidable
      (s.1.matchEvents = none →
        log = [] ∨ s.1.archives ≠ []))
| s, .poll loads _ =>
    inferInstanceAs (Decidable
      (s.1.matchEvents = none →
        (collected s.1 s.2 loads).length = s.1.position))
| _, .commit _ => inferInstanceAs (Decidable True)
| _, .commitLifecycle _ => inferInstanceAs (Decidable True)
| _, .restart => inferInstanceAs (Decidable True)

end Replay

------------------------------------------------------------
-- The Invariant
------------------------------------------------------------

namespace Replay

open Py GameRoom

variable {α : Type}

/- Every list that the service holds or saved is a prefix. -/
structure Prefixes
    (log : List (StateJson α))
    (s : Service α × Checkpoints α) : Prop where
  memory :
    ∀ events, s.1.matchEvents = some events →
      events = log.take s.1.position
  saved :
    ∀ tick events, s.2.get? tick = some events →
      events <+: log
  committed : s.1.committed ≤ s.1.position
  archives : ∀ object ∈ s.1.archives, object = log

theorem prefixes_fresh
    (log : List (StateJson α)) :
    Prefixes log fresh := by
  refine ⟨?_, ?_, le_refl _, ?_⟩
  · intro events hEvents
    cases hEvents
  · intro tick events hRow
    cases hRow
  · intro object hMem
    cases hMem

section Gapless

variable {interval ends : Nat}
variable {log : List (StateJson α)}
variable {s t : Service α × Checkpoints α}

/- What a restarted service loads is a prefix. -/
theorem Prefixes.collected_prefix
    (hPrefixes : Prefixes log s)
    (hNone : s.1.matchEvents = none)
    (loads : Bool) :
    collected s.1 s.2 loads <+: log := by
  unfold collected
  rw [hNone]
  cases loads with
  | false => exact List.nil_prefix
  | true =>
      cases hNewest : newest s.2 with
      | none => exact List.nil_prefix
      | some c =>
          exact
            hPrefixes.saved _ _
              (FromLog.get?_newest hNewest)

/- The list to which an event is appended ends before it. -/
theorem Prefixes.collected_eq
    {loads saves : Bool}
    (hPrefixes : Prefixes log s)
    (hSeamless : Seamless log s (.poll loads saves)) :
    collected s.1 s.2 loads = log.take s.1.position := by
  cases hEvents : s.1.matchEvents with
  | some events =>
      rw [← hPrefixes.memory events hEvents]
      unfold collected
      rw [hEvents]
  | none =>
      have hPrefix :=
        hPrefixes.collected_prefix hEvents loads
      rw [List.prefix_iff_eq_take.mp hPrefix,
        hSeamless hEvents]

/- The list that `match.end` finds is the whole log. -/
theorem Prefixes.memory_eq_log
    {stores : Bool}
    {events : List (StateJson α)}
    (hPrefixes : Prefixes log s)
    (hFirst : EventsFirst log s (.pollLifecycle stores))
    (hEvents : s.1.matchEvents = some events) :
    events = log := by
  rw [hPrefixes.memory events hEvents, hFirst,
    List.take_length]

theorem prefixes_next
    {act : Act}
    (hPrefixes : Prefixes log s)
    (hFirst : EventsFirst log s act)
    (hSeamless : Seamless log s act)
    (hStep : next interval log ends s act = some t) :
    Prefixes log t := by
  cases act with
  | poll loads saves =>
      rcases next_poll hStep with ⟨event, hNext, rfl⟩
      have hTake :
          collected s.1 s.2 loads ++ [event] =
            log.take (s.1.position + 1) := by
        rw [hPrefixes.collected_eq hSeamless,
          List.take_add_one, hNext]
        rfl
      refine ⟨?_, ?_, ?_, hPrefixes.archives⟩
      · intro events hEvents
        cases hEvents
        exact hTake
      · intro tick events hRow
        simp only [consumeEvent] at hRow
        split at hRow
        · rw [Dict.get?_set] at hRow
          split at hRow
          · cases hRow
            rw [hTake]
            exact List.take_prefix _ _
          · exact hPrefixes.saved tick events hRow
        · exact hPrefixes.saved tick events hRow
      · exact Nat.le_succ_of_le hPrefixes.committed
  | pollLifecycle stores =>
      rcases next_pollLifecycle hStep with ⟨_, rfl⟩
      refine ⟨?_, hPrefixes.saved, hPrefixes.committed, ?_⟩
      · intro events hEvents
        cases hEvents
      · intro object hMem
        change
          object ∈ (finalizeReplay s.1 stores).archives
          at hMem
        rw [finalizeReplay_archives] at hMem
        split at hMem
        · rename_i hStored
          rcases List.mem_append.mp hMem with hOld | hNew
          · exact hPrefixes.archives object hOld
          · rw [List.mem_singleton.mp hNew]
            cases hEvents : s.1.matchEvents with
            | none => simp [hEvents] at hStored
            | some events =>
                exact
                  hPrefixes.memory_eq_log hFirst hEvents
        · exact hPrefixes.archives object hMem
  | commit offset =>
      rcases next_commit hStep with ⟨_, hLe, rfl⟩
      exact ⟨hPrefixes.memory, hPrefixes.saved, hLe,
        hPrefixes.archives⟩
  | commitLifecycle offset =>
      rw [next_commitLifecycle hStep]
      exact ⟨hPrefixes.memory, hPrefixes.saved,
        hPrefixes.committed, hPrefixes.archives⟩
  | restart =>
      cases hStep
      refine ⟨?_, hPrefixes.saved, le_refl _,
        hPrefixes.archives⟩
      intro events hEvents
      cases hEvents

/- No archive is deleted. -/
theorem archives_next
    {act : Act}
    (hStep : next interval log ends s act = some t) :
    s.1.archives ⊆ t.1.archives := by
  cases act with
  | poll loads saves =>
      rcases next_poll hStep with ⟨event, _, rfl⟩
      exact List.Subset.refl _
  | pollLifecycle stores =>
      rcases next_pollLifecycle hStep with ⟨_, rfl⟩
      change
        s.1.archives ⊆ (finalizeReplay s.1 stores).archives
      rw [finalizeReplay_archives]
      split
      · exact List.subset_append_left _ _
      · exact List.Subset.refl _
  | commit offset =>
      rcases next_commit hStep with ⟨_, _, rfl⟩
      exact List.Subset.refl _
  | commitLifecycle offset =>
      rw [next_commitLifecycle hStep]
      exact List.Subset.refl _
  | restart =>
      cases hStep
      exact List.Subset.refl _

/- A successful upload leaves the whole log archived. -/
theorem mem_archives_pollLifecycle
    (hPrefixes : Prefixes log s)
    (hFirst : EventsFirst log s (.pollLifecycle true))
    (hSeamless : Seamless log s (.pollLifecycle true))
    (hStep :
      next interval log ends s (.pollLifecycle true) =
        some t)
    (hLog : log ≠ []) :
    log ∈ t.1.archives := by
  cases hEvents : s.1.matchEvents with
  | some events =>
      rcases next_pollLifecycle hStep with ⟨_, rfl⟩
      have hEq :=
        hPrefixes.memory_eq_log hFirst hEvents
      change log ∈ (finalizeReplay s.1 true).archives
      rw [finalizeReplay_archives, hEvents, hEq,
        if_pos ⟨rfl, hLog⟩]
      simp
  | none =>
      rcases hSeamless hEvents with hNil | hArchived
      · exact absurd hNil hLog
      · rcases List.exists_mem_of_ne_nil _ hArchived with
          ⟨object, hMem⟩
        rw [← hPrefixes.archives object hMem]
        exact archives_next hStep hMem

end Gapless

end Replay

------------------------------------------------------------
-- Runs
------------------------------------------------------------

namespace Replay

open Py GameRoom

variable {α : Type}

/-
  Every sequence of polls, commits, crashes and restarts:
  each archive is the whole log, and a successful upload
  leaves one.  The induction is on the schedule.
-/
theorem archive_gapless_from
    {interval : Nat}
    {log : List (StateJson α)}
    {acts : List Act}
    {s t : Service α × Checkpoints α}
    (hPrefixes : Prefixes log s)
    (hRun :
      Machine.run (next interval log 1) s acts = some t)
    (hFirst :
      Machine.AllSteps (next interval log 1)
        (EventsFirst log) s acts)
    (hSeamless :
      Machine.AllSteps (next interval log 1)
        (Seamless log) s acts)
    (hLog : log ≠ [])
    (hUploaded :
      log ∈ s.1.archives ∨ Act.pollLifecycle true ∈ acts) :
    log ∈ t.1.archives := by
  induction acts generalizing s with
  | nil =>
      cases hRun
      rcases hUploaded with hMem | hNever
      · exact hMem
      · cases hNever
  | cons act acts ih =>
      rcases Option.bind_eq_some_iff.mp hRun with
        ⟨m, hStep, hRest⟩
      simp only [Machine.AllSteps, hStep] at hFirst hSeamless
      refine
        ih
          (prefixes_next hPrefixes hFirst.1 hSeamless.1
            hStep)
          hRest hFirst.2 hSeamless.2 ?_
      rcases hUploaded with hMem | hAct
      · exact .inl (archives_next hStep hMem)
      · rcases List.mem_cons.mp hAct with rfl | hLater
        · left
          exact
            mem_archives_pollLifecycle hPrefixes hFirst.1
              hSeamless.1 hStep hLog
        · exact .inr hLater

theorem prefixes_of_run
    {interval : Nat}
    {log : List (StateJson α)}
    {acts : List Act}
    {t : Service α × Checkpoints α}
    (hRun :
      Machine.run (next interval log 1) fresh acts = some t)
    (hFirst :
      Machine.AllSteps (next interval log 1)
        (EventsFirst log) fresh acts)
    (hSeamless :
      Machine.AllSteps (next interval log 1)
        (Seamless log) fresh acts) :
    Prefixes log t := by
  have hReach :=
    Machine.reaches_of_run hRun
      (Machine.allSteps_and hFirst hSeamless)
  refine hReach.invariant (prefixes_fresh log) ?_
  intro s u act hPrefixes hOk hStep
  exact prefixes_next hPrefixes hOk.1 hOk.2 hStep

theorem archive_gapless
    (interval : Nat)
    (log : List (StateJson α))
    (acts : List Act)
    (svc : Service α)
    (rows : Checkpoints α)
    (hRun :
      Machine.run (next interval log 1) fresh acts =
        some (svc, rows))
    (hFirst :
      Machine.AllSteps (next interval log 1)
        (EventsFirst log) fresh acts)
    (hSeamless :
      Machine.AllSteps (next interval log 1)
        (Seamless log) fresh acts) :
    (∀ object ∈ svc.archives, object = log) ∧
      (Act.pollLifecycle true ∈ acts → log ≠ [] →
        log ∈ svc.archives) := by
  constructor
  · exact (prefixes_of_run hRun hFirst hSeamless).archives
  · intro hUploaded hLog
    exact
      archive_gapless_from (prefixes_fresh log) hRun hFirst
        hSeamless hLog (.inr hUploaded)

end Replay

------------------------------------------------------------
-- A Crash
------------------------------------------------------------

namespace Replay

open Py GameRoom

/-
  The service crashes at an offset where it has saved a
  checkpoint, and resumes there.
-/
def crashAtCheckpoint : List Act :=
  [pollOk, .poll true true, .commit 2, .restart, pollOk,
    .pollLifecycle true]

theorem archive_gapless_crashAtCheckpoint :
    ∃ svc rows,
      Machine.run (next 2 (quietLog 3) 1) fresh
          crashAtCheckpoint =
        some (svc, rows) ∧
      (∀ object ∈ svc.archives, object = quietLog 3) ∧
      (Act.pollLifecycle true ∈ crashAtCheckpoint →
        quietLog 3 ≠ [] → quietLog 3 ∈ svc.archives) := by
  refine ⟨_, _, rfl, ?_⟩
  exact
    archive_gapless 2 (quietLog 3) crashAtCheckpoint _ _ rfl
      (by decide) (by decide)

/- It resumes past events that no checkpoint holds. -/
def crashPastCheckpoint : List Act :=
  [pollOk, pollOk, .commit 2, .restart, pollOk,
    .pollLifecycle true]

theorem archive_gap :
    Machine.AllSteps (next 300 (quietLog 3) 1)
        (EventsFirst (quietLog 3)) fresh
        crashPastCheckpoint ∧
      ¬ ∀ object ∈
          (Machine.final (next 300 (quietLog 3) 1) fresh
            crashPastCheckpoint rfl).1.archives,
        object = quietLog 3 := by
  decide

end Replay
