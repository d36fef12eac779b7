import MultiplayerInfra.Replay.Service
import MultiplayerInfra.Machine.Run

/-
  What the archive of a match holds when the replay service
  does not crash.

  Key definitions include:
    * `Replay.next`
    * `Replay.Complete`
    * `Replay.OnTime`

  Key theorems include:
    * `Replay.settled_next`
    * `Replay.archive_complete_iff`
-/

------------------------------------------------------------
-- Steps
------------------------------------------------------------

namespace Replay

open Py GameRoom

variable {α : Type}

/- `step` on the pair of the service and its checkpoints. -/
def next
    (interval : Nat)
    (log : List (StateJson α))
    (ends : Nat)
    (s : Service α × Checkpoints α)
    (act : Act) :
    Option (Service α × Checkpoints α) :=
  step interval log ends s.1 s.2 act

/- The service of a fresh room. -/
def fresh : Service α × Checkpoints α :=
  (Service.empty, Dict.empty)

@[simp] theorem newest_empty :
    newest (Dict.empty : Checkpoints α) = none :=
  rfl

section Steps

variable {interval ends : Nat}
variable {log : List (StateJson α)}
variable {s t : Service α × Checkpoints α}

/- A poll of `match.events` takes the next logged event. -/
theorem next_poll
    {loads saves : Bool}
    (hStep :
      next interval log ends s (.poll loads saves) =
        some t) :
    ∃ event, log[s.1.position]? = some event ∧
      t =
        consumeEvent interval s.1 s.2 loads saves event := by
  rcases Option.map_eq_some_iff.mp hStep with
    ⟨event, hNext, hEq⟩
  exact ⟨event, hNext, hEq.symm⟩

theorem next_pollLifecycle
    {stores : Bool}
    (hStep :
      next interval log ends s (.pollLifecycle stores) =
        some t) :
    s.1.lifecyclePosition < ends ∧
      t =
        ({ finalizeReplay s.1 stores with
          lifecyclePosition := s.1.lifecyclePosition + 1 },
          s.2) := by
  simp only [next, step] at hStep
  split at hStep
  · rename_i hLt
    cases hStep
    exact ⟨hLt, rfl⟩
  · cases hStep

theorem next_commit
    {offset : Nat}
    (hStep :
      next interval log ends s (.commit offset) = some t) :
    s.1.committed ≤ offset ∧ offset ≤ s.1.position ∧
      t = ({ s.1 with committed := offset }, s.2) := by
  simp only [next, step] at hStep
  split at hStep
  · rename_i hRange
    cases hStep
    exact ⟨hRange.1, hRange.2, rfl⟩
  · cases hStep

theorem next_commitLifecycle
    {offset : Nat}
    (hStep :
      next interval log ends s (.commitLifecycle offset) =
        some t) :
    t = ({ s.1 with lifecycleCommitted := offset },
      s.2) := by
  simp only [next, step] at hStep
  split at hStep
  · cases hStep
    rfl
  · cases hStep

end Steps

/- What an archived list was, if anything was archived. -/
theorem finalizeReplay_archives
    (svc : Service α)
    (stores : Bool) :
    (finalizeReplay svc stores).archives =
      if stores = true ∧ svc.matchEvents.getD [] ≠ [] then
        svc.archives ++ [svc.matchEvents.getD []]
      else svc.archives := by
  unfold finalizeReplay
  rcases svc.matchEvents with _ | (_ | ⟨event, events⟩)
  · simp
  · simp
  · cases stores <;> simp

end Replay

------------------------------------------------------------
-- Completeness of the Archive
------------------------------------------------------------

namespace Replay

open Py GameRoom

variable {α : Type}

/-
  The archive holds every logged event up to the tick of
  `match.end`, and none of them is left in `match_events`.
  Nothing can be archived when the upload fails.
-/
structure Complete
    (finalTick : Nat)
    (log : List (StateJson α))
    (stores : Bool)
    (svc : Service α) : Prop where
  archived :
    stores = true →
      ∀ event ∈ log, event.tickOrZero ≤ finalTick →
        ∃ object, svc.archives.getLast? = some object ∧
          event ∈ object
  noneLeft :
    ∀ events, svc.matchEvents = some events →
      ∀ event ∈ events, finalTick < event.tickOrZero

/-
  `match.end` finds every event up to its tick polled, and a
  later straggler brings none of them back with a checkpoint.
-/
def OnTime
    (finalTick : Nat)
    (log : List (StateJson α))
    (s : Service α × Checkpoints α) :
    Act → Prop
| .pollLifecycle _ =>
    ∀ event ∈ log.drop s.1.position,
      finalTick < event.tickOrZero
| .poll loads _ =>
    0 < s.1.lifecyclePosition →
      s.1.matchEvents = none →
        loads = true →
          ∀ c, newest s.2 = some c →
            ∀ event ∈ c.events, finalTick < event.tickOrZero
| _ => True

/- Before `match.end`, the list is what has been polled. -/
structure Collecting
    (log : List (StateJson α))
    (s : Service α × Checkpoints α) : Prop where
  archives : s.1.archives = []
  events : s.1.matchEvents.getD [] = log.take s.1.position
  unsaved :
    s.1.matchEvents = none →
      s.1.position = 0 ∧ s.2 = Dict.empty

/- After it, the property holds and no event is still to come. -/
structure Settled
    (finalTick : Nat)
    (log : List (StateJson α))
    (stores : Bool)
    (svc : Service α) : Prop
    extends Complete finalTick log stores svc where
  unpolled :
    ∀ event ∈ log.drop svc.position,
      finalTick < event.tickOrZero

section Completeness

variable {interval finalTick : Nat}
variable {log : List (StateJson α)}
variable {s t : Service α × Checkpoints α}
variable {stores : Bool}

/- The list that a poll extends before `match.end`. -/
theorem Collecting.collected
    (hCollect : Collecting log s)
    (loads : Bool) :
    collected s.1 s.2 loads = log.take s.1.position := by
  rw [← hCollect.events]
  unfold Replay.collected
  cases hEvents : s.1.matchEvents with
  | some events => rfl
  | none =>
      rw [(hCollect.unsaved hEvents).2]
      cases loads <;> rfl

theorem collecting_next
    {act : Act}
    (hAct : act ≠ .restart)
    (hStep : next interval log 1 s act = some t)
    (hBefore : t.1.lifecyclePosition = 0)
    (hCollect : Collecting log s) :
    Collecting log t := by
  cases act with
  | poll loads saves =>
      rcases next_poll hStep with ⟨event, hNext, rfl⟩
      refine ⟨hCollect.archives, ?_, ?_⟩
      · change collected s.1 s.2 loads ++ [event] = _
        rw [hCollect.collected]
        exact (List.take_add_one.trans (by
          rw [hNext]
          rfl)).symm
      · intro hNone
        cases hNone
  | pollLifecycle b =>
      rcases next_pollLifecycle hStep with ⟨_, rfl⟩
      cases hBefore
  | commit offset =>
      rcases next_commit hStep with ⟨_, _, rfl⟩
      exact ⟨hCollect.archives, hCollect.events,
        hCollect.unsaved⟩
  | commitLifecycle offset =>
      rw [next_commitLifecycle hStep]
      exact ⟨hCollect.archives, hCollect.events,
        hCollect.unsaved⟩
  | restart => exact absurd rfl hAct

theorem settled_congr
    {svc svc' : Service α}
    (hEvents : svc'.matchEvents = svc.matchEvents)
    (hPosition : svc'.position = svc.position)
    (hArchives : svc'.archives = svc.archives) :
    Settled finalTick log stores svc' ↔
      Settled finalTick log stores svc := by
  constructor
  · intro hSettled
    refine ⟨⟨?_, ?_⟩, ?_⟩
    · rw [← hArchives]
      exact hSettled.archived
    · rw [← hEvents]
      exact hSettled.noneLeft
    · rw [← hPosition]
      exact hSettled.unpolled
  · intro hSettled
    refine ⟨⟨?_, ?_⟩, ?_⟩
    · rw [hArchives]
      exact hSettled.archived
    · rw [hEvents]
      exact hSettled.noneLeft
    · rw [hPosition]
      exact hSettled.unpolled

/- `match.end` settles the match exactly when it is on time. -/
theorem settled_pollLifecycle
    (hCollect : Collecting log s)
    (hStep :
      next interval log 1 s (.pollLifecycle stores) =
        some t) :
    Settled finalTick log stores t.1 ↔
      OnTime finalTick log s (.pollLifecycle stores) := by
  rcases next_pollLifecycle hStep with ⟨_, rfl⟩
  constructor
  · intro hSettled
    exact hSettled.unpolled
  · intro hOnTime
    refine ⟨⟨?_, ?_⟩, hOnTime⟩
    · intro hStores event hMem hTick
      have hPolled : event ∈ log.take s.1.position := by
        rw [← List.take_append_drop s.1.position log]
          at hMem
        rcases List.mem_append.mp hMem with hTake | hDrop
        · exact hTake
        · exact absurd (hOnTime event hDrop)
            (Nat.not_lt.mpr hTick)
      refine ⟨log.take s.1.position, ?_, hPolled⟩
      change
        (finalizeReplay s.1 stores).archives.getLast? = _
      rw [finalizeReplay_archives, hCollect.events,
        if_pos ⟨hStores, List.ne_nil_of_mem hPolled⟩,
        List.getLast?_append]
      rfl
    · intro events hEvents
      cases hEvents

/- A later poll keeps the match settled exactly when on time. -/
theorem settled_poll
    {loads saves : Bool}
    (hAfter : 0 < s.1.lifecyclePosition)
    (hStep :
      next interval log 1 s (.poll loads saves) = some t) :
    Settled finalTick log stores t.1 ↔
      Settled finalTick log stores s.1 ∧
        OnTime finalTick log s (.poll loads saves) := by
  rcases next_poll hStep with ⟨event, hNext, rfl⟩
  have hDrop :
      log.drop s.1.position =
        event :: log.drop (s.1.position + 1) := by
    rcases List.getElem?_eq_some_iff.mp hNext with
      ⟨hLt, rfl⟩
    exact List.drop_eq_getElem_cons hLt
  constructor
  · intro hSettled
    have hLeft := hSettled.noneLeft _ rfl
    have hOld :
        ∀ e ∈ collected s.1 s.2 loads,
          finalTick < e.tickOrZero := by
      intro e hMem
      exact hLeft e (List.mem_append_left _ hMem)
    refine ⟨⟨⟨hSettled.archived, ?_⟩, ?_⟩, ?_⟩
    · intro events hEvents e hMem
      apply hOld
      unfold collected
      rw [hEvents]
      exact hMem
    · intro e hMem
      rw [hDrop] at hMem
      rcases List.mem_cons.mp hMem with rfl | hRest
      · exact hLeft e (by simp)
      · exact hSettled.unpolled e hRest
    · intro _ hNone hLoads c hNewest e hMem
      apply hOld
      simp only [collected, hNone, hLoads, hNewest]
      exact hMem
  · rintro ⟨hSettled, hOnTime⟩
    refine ⟨⟨hSettled.archived, ?_⟩, ?_⟩
    · intro events hEvents e hMem
      cases hEvents
      rcases List.mem_append.mp hMem with hOld | hNew
      · unfold collected at hOld
        split at hOld
        · exact hSettled.noneLeft _ ‹_› e hOld
        · rename_i hNone
          split at hOld
          · rename_i hLoads
            cases hNewest : newest s.2 with
            | none => simp [hNewest] at hOld
            | some c =>
                rw [hNewest] at hOld
                exact
                  hOnTime hAfter hNone hLoads c hNewest e
                    hOld
          · cases hOld
      · rw [List.mem_singleton.mp hNew]
        exact hSettled.unpolled event (by simp [hDrop])
    · intro e hMem
      apply hSettled.unpolled
      rw [hDrop]
      exact List.mem_cons_of_mem _ hMem

theorem lifecyclePosition_mono
    {act : Act}
    (hAct : act ≠ .restart)
    (hStep : next interval log 1 s act = some t) :
    s.1.lifecyclePosition ≤ t.1.lifecyclePosition := by
  cases act with
  | poll loads saves =>
      rcases next_poll hStep with ⟨event, _, rfl⟩
      exact le_refl _
  | pollLifecycle b =>
      rcases next_pollLifecycle hStep with ⟨_, rfl⟩
      exact Nat.le_succ _
  | commit offset =>
      rcases next_commit hStep with ⟨_, _, rfl⟩
      exact le_refl _
  | commitLifecycle offset =>
      rw [next_commitLifecycle hStep]
  | restart => exact absurd rfl hAct

/-
  One step without a crash: the match is settled after it
  exactly when it was before and the step is on time.
-/
theorem settled_next
    (finalTick : Nat)
    {act : Act}
    (hAct : act ≠ .restart)
    (hStores : ∀ b, act = .pollLifecycle b → b = stores)
    (hStep : next interval log 1 s act = some t)
    (hCollect :
      s.1.lifecyclePosition = 0 → Collecting log s) :
    (0 < t.1.lifecyclePosition →
        Settled finalTick log stores t.1) ↔
      (0 < s.1.lifecyclePosition →
        Settled finalTick log stores s.1) ∧
      OnTime finalTick log s act := by
  cases act with
  | poll loads saves =>
      have hSame :
          t.1.lifecyclePosition =
            s.1.lifecyclePosition := by
        rcases next_poll hStep with ⟨event, _, rfl⟩
        rfl
      rw [hSame]
      rcases Nat.eq_zero_or_pos s.1.lifecyclePosition with
        hZero | hPos
      · rw [hZero]
        constructor
        · intro _
          refine ⟨fun hLt => absurd hLt (lt_irrefl 0), ?_⟩
          intro hLt
          rw [hZero] at hLt
          exact absurd hLt (lt_irrefl 0)
        · intro _ hLt
          exact absurd hLt (lt_irrefl 0)
      · simp only [hPos, forall_const]
        exact settled_poll hPos hStep
  | pollLifecycle b =>
      cases hStores b rfl
      have hZero : s.1.lifecyclePosition = 0 := by
        have hLt := (next_pollLifecycle hStep).1
        omega
      have hPos : 0 < t.1.lifecyclePosition := by
        rcases next_pollLifecycle hStep with ⟨_, rfl⟩
        exact Nat.succ_pos _
      simp only [hPos, hZero, lt_irrefl, forall_const,
        false_imp_iff, true_and]
      exact settled_pollLifecycle (hCollect hZero) hStep
  | commit offset =>
      rcases next_commit hStep with ⟨_, _, rfl⟩
      simp only [OnTime, and_true]
      exact imp_congr_right
        (fun _ => settled_congr rfl rfl rfl)
  | commitLifecycle offset =>
      rw [next_commitLifecycle hStep]
      simp only [OnTime, and_true]
      exact imp_congr_right
        (fun _ => settled_congr rfl rfl rfl)
  | restart => exact absurd rfl hAct

/-
  A run without a crash.  The induction is on the schedule;
  the list collected before `match.end` is carried along.
-/
theorem settled_run
    (finalTick : Nat)
    {acts : List Act}
    (hActs : Act.restart ∉ acts)
    (hStores : ∀ b, Act.pollLifecycle b ∈ acts → b = stores)
    (hRun :
      Machine.run (next interval log 1) s acts = some t)
    (hCollect :
      s.1.lifecyclePosition = 0 → Collecting log s) :
    (0 < t.1.lifecyclePosition →
        Settled finalTick log stores t.1) ↔
      (0 < s.1.lifecyclePosition →
        Settled finalTick log stores s.1) ∧
      Machine.AllSteps (next interval log 1)
        (OnTime finalTick log) s acts := by
  induction acts generalizing s with
  | nil =>
      cases hRun
      simp [Machine.AllSteps]
  | cons act acts ih =>
      rcases Option.bind_eq_some_iff.mp hRun with
        ⟨m, hStep, hRest⟩
      have hAct : act ≠ .restart := by
        rintro rfl
        exact hActs (by simp)
      have hNext :=
        settled_next finalTick hAct
          (fun b hEq => hStores b (by simp [hEq])) hStep
          hCollect
      have hTail :=
        ih (fun hMem => hActs (List.mem_cons_of_mem _ hMem))
          (fun b hMem =>
            hStores b (List.mem_cons_of_mem _ hMem))
          hRest
          (fun hZero =>
            collecting_next hAct hStep hZero
              (hCollect (by
                have hMono :=
                  lifecyclePosition_mono hAct hStep
                omega)))
      rw [hTail, hNext]
      simp only [Machine.AllSteps, hStep]
      tauto

theorem collecting_fresh :
    Collecting log fresh where
  archives := rfl
  events := rfl
  unsaved := fun _ => ⟨rfl, rfl⟩

/-
  Every interleaving of the polls of the two topics, from
  the fresh room until both are drained.
-/
theorem archive_complete_iff
    (interval finalTick : Nat)
    (log : List (StateJson α))
    (stores : Bool)
    (acts : List Act)
    (svc : Service α)
    (rows : Checkpoints α)
    (hCrashFree : Act.restart ∉ acts)
    (hStores : ∀ b, Act.pollLifecycle b ∈ acts → b = stores)
    (hRun :
      Machine.run (next interval log 1) fresh acts =
        some (svc, rows))
    (hPolled : svc.position = log.length)
    (hEnded : svc.lifecyclePosition = 1) :
    Complete finalTick log stores svc ↔
      Machine.AllSteps (next interval log 1)
        (OnTime finalTick log) fresh acts := by
  have hSettled :=
    settled_run finalTick hCrashFree hStores hRun
      (fun _ => collecting_fresh)
  rw [hEnded] at hSettled
  simp only [Nat.one_pos, forall_const] at hSettled
  constructor
  · intro hComplete
    refine (hSettled.mp ⟨hComplete, ?_⟩).2
    rw [hPolled, List.drop_length]
    simp
  · intro hOnTime
    exact
      (hSettled.mpr
        ⟨fun hPos => absurd hPos (lt_irrefl 0), hOnTime⟩
      ).toComplete

end Completeness

end Replay

------------------------------------------------------------
-- A Backlog
------------------------------------------------------------

namespace Replay

open Py GameRoom

/- The event of a tick of a room without players. -/
def quietTick
    (tick : Nat) :
    StateJson Int where
  matchId := "room-a"
  tick := some tick
  players := some Dict.empty

/- The events of the first `n` ticks. -/
def quietLog
    (n : Nat) :
    List (StateJson Int) :=
  (List.range n).map (fun i => quietTick (i + 1))

/- A poll whose database calls succeed. -/
def pollOk : Act :=
  .poll true true

/- `match.end` is polled before the second and last event. -/
def earlyEnd : List Act :=
  [pollOk, .pollLifecycle true, pollOk]

theorem archive_incomplete :
    ¬ Complete 2 (quietLog 2) true
      (Machine.final (next 300 (quietLog 2) 1) fresh
        earlyEnd rfl).1 := by
  intro hComplete
  have hLeft := hComplete.noneLeft _ rfl (quietTick 2)
  exact absurd (hLeft (by decide)) (by decide)

theorem archive_complete_iff_earlyEnd :
    ∃ svc rows,
      Machine.run (next 300 (quietLog 2) 1) fresh earlyEnd =
        some (svc, rows) ∧
      (Complete 2 (quietLog 2) true svc ↔
        Machine.AllSteps (next 300 (quietLog 2) 1)
          (OnTime 2 (quietLog 2)) fresh earlyEnd) := by
  refine ⟨_, _, rfl, ?_⟩
  exact
    archive_complete_iff 300 2 (quietLog 2) true earlyEnd
      _ _ (by decide) (by decide) rfl rfl rfl

end Replay
