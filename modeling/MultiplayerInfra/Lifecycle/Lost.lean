import MultiplayerInfra.Lifecycle.Process

/-
  Losing leadership: when a process that has lost it can no
  longer tick.

  Key definitions include:
    * `Lifecycle.LostCompleted`
    * `Lifecycle.Dormant`
    * `Lifecycle.LostOk`
    * `Lifecycle.Confined`

  Key theorems include:
    * `Lifecycle.confined_step`
    * `Lifecycle.no_loop_outlives`
    * `Lifecycle.loop_outlives`
    * `Lifecycle.outlives_of_deleting`

  `run_matches` checks the global `game_loop` before the
  keys of the old match are deleted, and not after.
-/

------------------------------------------------------------
-- Lost Leadership
------------------------------------------------------------

namespace Lifecycle

open Election Machine

/- The last started callback is a lost that has completed. -/
def LostCompleted (s : State) : Prop :=
  ∃ k,
    s.handlers.length = k + 1 ∧ callback k = .lost ∧
      s.handlers[k]? = some .completed

/-
  No loop ticks, and no suspended task starts one: whatever
  the tasks do before the next callback starts.
-/
def Dormant (s : State) : Prop :=
  ∀ s',
    Reaches step (fun _ act => act ≠ .start) s s' →
      ∀ b, ¬ (s'.loops b).Live

/-
  `handle_leadership_lost` does not start while a task awaits
  the deletion of the keys of its match, and such a deletion
  returns to the loop that the task has checked.
-/
def LostOk (s : State) : Act → Prop
| .start =>
    callback s.handlers.length = .lost →
      ∀ task ∈ s.tasks, task.deletes = none
| .deleted t =>
    ∀ task ∈ s.tasks[t]?, ∀ b ∈ task.deletes,
      s.gameLoop = some b
| _ => True

instance (s : State) : (act : Act) → Decidable (LostOk s act)
| .start =>
    inferInstanceAs (Decidable
      (callback s.handlers.length = .lost →
        ∀ task ∈ s.tasks, task.deletes = none))
| .deleted t =>
    inferInstanceAs (Decidable
      (∀ task ∈ s.tasks[t]?, ∀ b ∈ task.deletes,
        s.gameLoop = some b))
| .win => inferInstanceAs (Decidable True)
| .lose => inferInstanceAs (Decidable True)
| .dispatch => inferInstanceAs (Decidable True)
| .loaded _ => inferInstanceAs (Decidable True)
| .loadFailed _ => inferInstanceAs (Decidable True)
| .closed _ => inferInstanceAs (Decidable True)
| .enter _ => inferInstanceAs (Decidable True)
| .endMatch _ => inferInstanceAs (Decidable True)
| .leave _ => inferInstanceAs (Decidable True)
| .deleteFailed _ => inferInstanceAs (Decidable True)

/-
  Every open loop is the global one.  After a lost there is
  none, and no task is about to create one.
-/
structure Confined (s : State) : Prop where
  grounded : Grounded s
  opened :
    ∀ b, b < s.nextLoop →
      (s.loops b).matchEnded = false → s.gameLoop = some b
  lost :
    callback s.handlers.length = .elected →
      s.gameLoop = none ∧ ∀ b, .deleting b ∉ s.tasks

theorem confined_start : Confined State.start := by
  refine ⟨grounded_start, ?_, ?_⟩
  · intro b hBelow
    cases hBelow
  · intro _
    refine ⟨rfl, ?_⟩
    intro b hMem
    cases hMem

/- In a confined process only the global loop ticks. -/
theorem Confined.global_of_live
    {s : State}
    (hConfined : Confined s)
    {b : Nat}
    (hLive : (s.loops b).Live) :
    s.gameLoop = some b := by
  refine hConfined.opened b ?_ hLive.2
  exact hConfined.grounded.lt_of_begun (.inl hLive.1)

/- A task that moves on is not between two matches. -/
theorem deleting_of_mem_set
    {tasks : List MatchTask}
    {t b : Nat}
    {new : MatchTask}
    (hNew : new ≠ .deleting b)
    (hMem : .deleting b ∈ tasks.set t new) :
    .deleting b ∈ tasks := by
  rcases List.mem_or_eq_of_mem_set hMem with hOld | hSame
  · exact hOld
  · exact absurd hSame.symm hNew

/- A step that opens no loop and keeps the global one. -/
theorem Confined.keep
    {s s' : State}
    (hConfined : Confined s)
    (hGrounded : Grounded s')
    (hGlobal : s'.gameLoop = s.gameLoop)
    (hNext : s'.nextLoop = s.nextLoop)
    (hLoops :
      ∀ b, (s'.loops b).matchEnded = false →
        (s.loops b).matchEnded = false)
    (hDeleting :
      ∀ b, .deleting b ∈ s'.tasks → .deleting b ∈ s.tasks)
    (hHandlers :
      s'.handlers.length = s.handlers.length) :
    Confined s' := by
  refine ⟨hGrounded, ?_, ?_⟩
  · intro b hBelow hOpen
    rw [hGlobal]
    exact hConfined.opened b (hNext ▸ hBelow) (hLoops b hOpen)
  · rw [hGlobal, hHandlers]
    intro hLost
    rcases hConfined.lost hLost with ⟨hNone, hNot⟩
    exact ⟨hNone, fun b hMem => hNot b (hDeleting b hMem)⟩

/- A start of `handle_leadership_lost` meets no deletion. -/
theorem not_deleting_of_lostOk
    {s : State}
    (hOk : LostOk s .start)
    (hNext : callback s.handlers.length = .lost)
    (b : Nat) :
    .deleting b ∉ s.tasks := by
  intro hMem
  cases hOk hNext _ hMem

theorem confined_step
    {s s' : State}
    {act : Act}
    (hConfined : Confined s)
    (hOk : LostOk s act)
    (hStep : step s act = some s') :
    Confined s' := by
  have hGrounded := grounded_step hConfined.grounded hStep
  cases steps_of_step hStep with
  | win _ _ =>
      exact
        hConfined.keep hGrounded rfl rfl (fun _ => id)
          (fun _ => id) rfl
  | lose _ _ =>
      exact
        hConfined.keep hGrounded rfl rfl (fun _ => id)
          (fun _ => id) rfl
  | dispatch _ =>
      exact
        hConfined.keep hGrounded rfl rfl (fun _ => id)
          (fun _ => id) rfl
  | keepRunning _ hNext hRunning =>
      rw [State.gameLoopRunning, (hConfined.lost hNext).1]
        at hRunning
      cases hRunning
  | gained _ hNext _ =>
      rcases hConfined.lost hNext with ⟨hNone, _⟩
      refine ⟨hGrounded, ?_, ?_⟩
      · intro b hBelow hOpen
        rcases open_of_create hBelow hOpen with
          rfl | ⟨hOld, hStill⟩
        · rfl
        · rw [hConfined.opened b hOld hStill] at hNone
          cases hNone
      · intro hLost
        rw [callback_append, hNext] at hLost
        cases hLost
  | lostNone _ hNext hGlobal =>
      have hNot := not_deleting_of_lostOk hOk hNext
      exact
        ⟨hGrounded, hConfined.opened, fun _ => ⟨hGlobal, hNot⟩⟩
  | @lost b _ hNext hGlobal =>
      have hNot := not_deleting_of_lostOk hOk hNext
      refine ⟨hGrounded, ?_, fun _ => ⟨rfl, hNot⟩⟩
      intro b' hBelow hOpen
      rcases open_of_ended hOpen with ⟨hNe, hStill⟩
      have hOther := hConfined.opened b' hBelow hStill
      rw [hGlobal] at hOther
      cases hOther
      exact absurd rfl hNe
  | loaded _ =>
      refine
        hConfined.keep hGrounded rfl rfl (fun _ => id) ?_
          List.length_set
      intro b hMem
      rcases List.mem_append.mp hMem with hOld | hNew
      · exact hOld
      · cases List.mem_singleton.mp hNew
  | loadFailed _ =>
      exact
        hConfined.keep hGrounded rfl rfl (fun _ => id)
          (fun _ => id) List.length_set
  | closed _ =>
      exact
        hConfined.keep hGrounded rfl rfl (fun _ => id)
          (fun _ => id) List.length_set
  | enter _ =>
      exact
        hConfined.keep hGrounded rfl rfl
          (fun _ => open_of_running)
          (fun _ => deleting_of_mem_set (by simp)) rfl
  | enterNone _ =>
      exact
        hConfined.keep hGrounded rfl rfl (fun _ => id)
          (fun _ => deleting_of_mem_set (by simp)) rfl
  | endMatch _ _ =>
      exact
        hConfined.keep hGrounded rfl rfl
          (fun _ hOpen => (open_of_ended hOpen).2)
          (fun _ => id) rfl
  | reset _ _ hGlobal _ =>
      refine ⟨hGrounded, hConfined.opened, ?_⟩
      intro hLost
      rw [(hConfined.lost hLost).1] at hGlobal
      cases hGlobal
  | leave _ _ _ =>
      exact
        hConfined.keep hGrounded rfl rfl (fun _ => id)
          (fun _ => deleting_of_mem_set (by simp)) rfl
  | @deleted t b hTask =>
      have hMem := List.mem_of_getElem? hTask
      have hGlobal : s.gameLoop = some b := hOk _ hTask b rfl
      refine ⟨hGrounded, ?_, ?_⟩
      · intro b' hBelow hOpen
        rcases open_of_create hBelow hOpen with
          rfl | ⟨hOld, hStill⟩
        · rfl
        · -- the old loop was the only open one, and it ended
          have hOther := hConfined.opened b' hOld hStill
          rw [hGlobal] at hOther
          cases hOther
          have hEnded : (s.loops b).matchEnded = true :=
            hConfined.grounded.tasks _ hMem
          rw [hEnded] at hStill
          cases hStill
      · intro hLost
        exact absurd hMem ((hConfined.lost hLost).2 b)
  | deleteFailed _ =>
      exact
        hConfined.keep hGrounded rfl rfl (fun _ => id)
          (fun _ => deleting_of_mem_set (by simp)) rfl

/- After a lost no loop of a confined process is open. -/
theorem Confined.not_live
    {s : State}
    (hConfined : Confined s)
    (hLost : callback s.handlers.length = .elected)
    (b : Nat) :
    ¬ (s.loops b).Live := by
  intro hLive
  have hGlobal := hConfined.global_of_live hLive
  rw [(hConfined.lost hLost).1] at hGlobal
  cases hGlobal

/- Only a start changes which callback is the last one. -/
theorem length_handlers_step
    {s s' : State}
    {act : Act}
    (hAct : act ≠ .start)
    (hStep : step s act = some s') :
    s'.handlers.length = s.handlers.length := by
  cases steps_of_step hStep with
  | keepRunning _ _ _ => exact absurd rfl hAct
  | gained _ _ _ => exact absurd rfl hAct
  | lostNone _ _ _ => exact absurd rfl hAct
  | lost _ _ _ => exact absurd rfl hAct
  | loaded _ => exact List.length_set
  | loadFailed _ => exact List.length_set
  | closed _ => exact List.length_set
  | win _ _ => rfl
  | lose _ _ => rfl
  | dispatch _ => rfl
  | enter _ => rfl
  | enterNone _ => rfl
  | endMatch _ _ => rfl
  | reset _ _ _ _ => rfl
  | leave _ _ _ => rfl
  | deleted _ => rfl
  | deleteFailed _ => rfl

/-
  In every run whose steps meet the condition, a process that
  has lost its leadership is dormant.
-/
theorem no_loop_outlives
    {s : State}
    (hRun : Reaches step LostOk State.start s)
    (hLost : LostCompleted s) :
    Dormant s := by
  have hConfined : Confined s :=
    hRun.invariant confined_start confined_step
  have hNext : callback s.handlers.length = .elected := by
    rcases hLost with ⟨k, hLength, hCallback, _⟩
    rw [hLength, callback, hCallback]
    rfl
  intro s' hRest b
  have hStays :
      Confined s' ∧
        callback s'.handlers.length = .elected := by
    apply hRest.invariant ⟨hConfined, hNext⟩
    rintro t u act ⟨hInv, hElected⟩ hAct hStep
    refine ⟨confined_step hInv ?_ hStep, ?_⟩
    · cases act with
      | start => exact absurd rfl hAct
      | deleted t' =>
          intro task hTask b' hDeletes
          have hMem := List.mem_of_getElem? hTask
          cases task with
          | deleting _ =>
              exact absurd hMem ((hInv.lost hElected).2 _)
          | _ => cases hDeletes
      | _ => trivial
    · rw [length_handlers_step hAct hStep]
      exact hElected
  exact hStays.1.not_live hStays.2 b

/- Leadership is lost in the middle of a match. -/
def retired : State :=
  final step State.start
    [.win, .dispatch, .start, .loaded 0, .enter 0, .lose,
      .dispatch, .start, .closed 1]
    (by decide)

theorem no_loop_outlives_retired :
    LostCompleted retired ∧ Dormant retired := by
  have hLost : LostCompleted retired := ⟨1, by decide⟩
  refine ⟨hLost, ?_⟩
  exact
    no_loop_outlives
      (reaches_of_run (run_eq_final (by decide)) (by decide))
      hLost

end Lifecycle

------------------------------------------------------------
-- A Loop That Outlives
------------------------------------------------------------

namespace Lifecycle

open Election Machine

/-
  Whenever a lost is about to start while a task deletes the
  keys of its match, the process may be left with a loop.
-/
theorem outlives_of_deleting
    {s : State}
    {t b : Nat}
    (hWaits : s.handlers.length < s.dispatched)
    (hNext : callback s.handlers.length = .lost)
    (hTask : s.tasks[t]? = some (.deleting b)) :
    ∃ s',
      Reachable step s s' ∧ LostCompleted s' ∧
        ¬ Dormant s' := by
  have hStart :
      step s .start = some (handleLeadershipLost s) := by
    simp [step, hWaits, hNext]
  have hHandlers :
      (handleLeadershipLost s).handlers =
        s.handlers ++ [.closing] := by
    unfold handleLeadershipLost
    split <;> rfl
  have hTasks : (handleLeadershipLost s).tasks = s.tasks := by
    unfold handleLeadershipLost
    split <;> rfl
  let s₁ := handleLeadershipLost s
  let s₂ : State :=
    { s₁ with
      handlers := s₁.handlers.set s.handlers.length .completed }
  have hClosed :
      step s₁ (.closed s.handlers.length) = some s₂ := by
    simp [step, s₁, s₂, hHandlers]
  have hDeleted :
      step s₂ (.deleted t) = some (nextMatch s₂ t) := by
    simp [step, s₂, s₁, hTasks, hTask]
  refine ⟨s₂, ?_, ?_, ?_⟩
  · exact
      (Reaches.refl.tail trivial hStart).tail trivial hClosed
  · refine ⟨s.handlers.length, ?_, hNext, ?_⟩
    · simp [s₂, s₁, hHandlers]
    · simp [s₂, s₁, hHandlers]
  · intro hDormant
    refine
      hDormant _ (Reaches.refl.tail (by simp) hDeleted)
        s₂.nextLoop ?_
    rw [nextMatch_eq]
    simp [Loop.Live]

/- Leadership is lost while the keys are deleted. -/
def outlived : State :=
  final step State.start
    [.win, .dispatch, .start, .loaded 0, .enter 0,
      .endMatch 0, .leave 0, .lose, .dispatch, .start,
      .closed 1, .deleted 0]
    (by decide)

theorem loop_outlives :
    Reachable step State.start outlived ∧
      LostCompleted outlived ∧ ¬ Dormant outlived := by
  refine
    ⟨reachable_of_run (run_eq_final (by decide)),
      ⟨1, by decide⟩, ?_⟩
  intro hDormant
  exact hDormant outlived .refl 1 (by decide)

end Lifecycle
