import MultiplayerInfra.Lifecycle.Process

/-
  A leader has a match: whether a task works on the global
  loop of a process whose election was won last.

  Key definitions include:
    * `Lifecycle.Quiescent`
    * `Lifecycle.Served`
    * `Lifecycle.RecoverOk`
    * `Lifecycle.Kept`

  Key theorems include:
    * `Lifecycle.kept_step`
    * `Lifecycle.leader_served`
    * `Lifecycle.leader_not_served`

  A handler or task that raises is only logged; the election
  goes on refreshing the lease.
-/

------------------------------------------------------------
-- Serving a Leader
------------------------------------------------------------

namespace Lifecycle

open Election Machine

def Handler.Pending : Handler → Prop
| .loading _ => True
| .closing => True
| .completed => False
| .raised => False

instance : (handler : Handler) → Decidable handler.Pending
| .loading _ => inferInstanceAs (Decidable True)
| .closing => inferInstanceAs (Decidable True)
| .completed => inferInstanceAs (Decidable False)
| .raised => inferInstanceAs (Decidable False)

/- The loop that a task of `run_matches` works on. -/
def MatchTask.activeOn : MatchTask → Option Nat
| .created current => current
| .inRun b => some b
| .deleting b => some b
| .returned => none
| .raised => none

/- The loop whose `run` a task is in. -/
def MatchTask.runs : MatchTask → Option Nat
| .inRun b => some b
| _ => none

/- Every callback was started, and its task is over. -/
def Quiescent (s : State) : Prop :=
  s.handlers.length = s.dispatched ∧
    ∀ handler ∈ s.handlers, ¬ handler.Pending

/- The callback that was dispatched last is `on_elected`. -/
def LastElected (s : State) : Prop :=
  ∃ k, s.dispatched = k + 1 ∧ callback k = .elected

/- A task works on the global loop. -/
def Served (s : State) : Prop :=
  ∃ b, s.gameLoop = some b ∧
    ∃ task ∈ s.tasks, task.activeOn = some b

/- The last callback is `on_elected`, and it was started. -/
def Settled (s : State) : Prop :=
  s.handlers.length = s.dispatched ∧
    callback s.dispatched = .lost

instance (s : State) : Decidable (Quiescent s) :=
  inferInstanceAs (Decidable (_ ∧ _))

instance (s : State) : Decidable (Settled s) :=
  inferInstanceAs (Decidable (_ ∧ _))

/-
  `load_state` fails only in a handler that another callback
  follows.  In a settled process no deletion fails for the
  global loop, and a task leaves it only while `is_leader` is
  set.  `handle_leadership_gained` finds no loop that is
  marked as running after its match has ended.
-/
def RecoverOk (s : State) : Act → Prop
| .loadFailed k => k + 1 < s.dispatched
| .deleteFailed t =>
    Settled s →
      ∀ task ∈ s.tasks[t]?, ∀ b ∈ task.deletes,
        s.gameLoop ≠ some b
| .leave t =>
    Settled s →
      ∀ task ∈ s.tasks[t]?, ∀ b ∈ task.runs,
        s.gameLoop = some b → s.isLeader = true
| .start =>
    callback s.handlers.length = .elected →
      ∀ b ∈ s.gameLoop,
        (s.loops b).running = true →
          (s.loops b).matchEnded = false
| _ => True

instance (s : State) :
    (act : Act) → Decidable (RecoverOk s act)
| .loadFailed k =>
    inferInstanceAs (Decidable (k + 1 < s.dispatched))
| .deleteFailed t =>
    inferInstanceAs (Decidable
      (Settled s →
        ∀ task ∈ s.tasks[t]?, ∀ b ∈ task.deletes,
          s.gameLoop ≠ some b))
| .leave t =>
    inferInstanceAs (Decidable
      (Settled s →
        ∀ task ∈ s.tasks[t]?, ∀ b ∈ task.runs,
          s.gameLoop = some b → s.isLeader = true))
| .start =>
    inferInstanceAs (Decidable
      (callback s.handlers.length = .elected →
        ∀ b ∈ s.gameLoop,
          (s.loops b).running = true →
            (s.loops b).matchEnded = false))
| .win => inferInstanceAs (Decidable True)
| .lose => inferInstanceAs (Decidable True)
| .dispatch => inferInstanceAs (Decidable True)
| .loaded _ => inferInstanceAs (Decidable True)
| .closed _ => inferInstanceAs (Decidable True)
| .enter _ => inferInstanceAs (Decidable True)
| .endMatch _ => inferInstanceAs (Decidable True)
| .deleted _ => inferInstanceAs (Decidable True)

end Lifecycle

------------------------------------------------------------
-- Keeping the Match
------------------------------------------------------------

namespace Lifecycle

open Election Machine

/- The handler of the last callback is still in `load_state`. -/
def Recovering (s : State) : Prop :=
  ∃ k b,
    s.dispatched = k + 1 ∧
      s.handlers[k]? = some (.loading b)

/-
  A loop that ticks has a task in its `run`.  In a settled
  process the last handler will start a task, or there is one.
-/
structure Kept (s : State) : Prop where
  length : s.handlers.length ≤ s.dispatched
  runs : ∀ b, (s.loops b).Live → .inRun b ∈ s.tasks
  global :
    callback s.handlers.length = .lost → s.gameLoop ≠ none
  settled : Settled s → Recovering s ∨ Served s

theorem kept_start : Kept State.start := by
  refine ⟨Nat.le_refl _, ?_, ?_, ?_⟩
  · intro b hLive
    cases hLive.1
  · intro hLost
    cases hLost
  · intro hSettled
    cases hSettled.2

/- A kept process serves its leader when it is quiescent. -/
theorem Kept.served
    {s : State}
    (hKept : Kept s)
    (hQuiet : Quiescent s)
    (hLast : LastElected s) :
    Served s := by
  rcases hLast with ⟨k, hDispatched, hElected⟩
  have hSettled : Settled s := by
    refine ⟨hQuiet.1, ?_⟩
    rw [hDispatched, callback, hElected]
    rfl
  rcases hKept.settled hSettled with ⟨k', b, _, hLoading⟩ | hServed
  · exact
      absurd trivial
        (hQuiet.2 _ (List.mem_of_getElem? hLoading))
  · exact hServed

/- A task other than the replaced one stays. -/
theorem mem_set_of_ne
    {tasks : List MatchTask}
    {t : Nat}
    {old new task : MatchTask}
    (hTask : tasks[t]? = some old)
    (hMem : task ∈ tasks)
    (hNe : task ≠ old) :
    task ∈ tasks.set t new := by
  rcases List.mem_iff_getElem?.mp hMem with ⟨i, hGet⟩
  have hOther : t ≠ i := by
    rintro rfl
    rw [hTask] at hGet
    exact hNe (Option.some.inj hGet).symm
  apply List.mem_of_getElem? (i := i)
  rw [List.getElem?_set_ne hOther]
  exact hGet

theorem mem_set_self
    {tasks : List MatchTask}
    {t : Nat}
    {old new : MatchTask}
    (hTask : tasks[t]? = some old) :
    new ∈ tasks.set t new := by
  rcases List.getElem?_eq_some_iff.mp hTask with ⟨hLt, _⟩
  exact List.mem_set hLt new

/- A task that moves on still serves, if it does so itself. -/
theorem Served.set
    {s s' : State}
    {t : Nat}
    {old new : MatchTask}
    (hServed : Served s)
    (hTask : s.tasks[t]? = some old)
    (hGlobal : s'.gameLoop = s.gameLoop)
    (hTasks : s'.tasks = s.tasks.set t new)
    (hActive :
      ∀ b, s.gameLoop = some b → old.activeOn = some b →
        new.activeOn = some b) :
    Served s' := by
  rcases hServed with ⟨b, hLoop, task, hMem, hOn⟩
  refine ⟨b, hGlobal.trans hLoop, ?_⟩
  rw [hTasks]
  by_cases hSame : task = old
  · subst hSame
    exact ⟨new, mem_set_self hTask, hActive b hLoop hOn⟩
  · exact ⟨task, mem_set_of_ne hTask hMem hSame, hOn⟩

/- The last handler goes on, if another one moves. -/
theorem Recovering.set
    {s s' : State}
    {k : Nat}
    {new : Handler}
    (hRecovering : Recovering s)
    (hOther :
      s.dispatched = k + 1 →
        ∀ b, s.handlers[k]? ≠ some (.loading b))
    (hDispatched : s'.dispatched = s.dispatched)
    (hHandlers : s'.handlers = s.handlers.set k new) :
    Recovering s' := by
  rcases hRecovering with ⟨k', b, hLast, hLoading⟩
  refine ⟨k', b, hDispatched.trans hLast, ?_⟩
  have hNe : k ≠ k' := by
    rintro rfl
    exact hOther hLast b hLoading
  rw [hHandlers, List.getElem?_set_ne hNe]
  exact hLoading

/- A task that moves on keeps the process, if it may. -/
theorem Kept.moveTask
    {s : State}
    {t : Nat}
    {old new : MatchTask}
    (hKept : Kept s)
    (hTask : s.tasks[t]? = some old)
    (hRuns : ∀ b, (s.loops b).Live → old ≠ .inRun b)
    (hActive :
      Settled s →
        ∀ b, s.gameLoop = some b → old.activeOn = some b →
          new.activeOn = some b) :
    Kept { s with tasks := s.tasks.set t new } := by
  refine ⟨hKept.length, ?_, hKept.global, ?_⟩
  · intro b hLive
    exact
      mem_set_of_ne hTask (hKept.runs b hLive)
        (hRuns b hLive).symm
  · intro hSettled
    rcases hKept.settled hSettled with hRecovering | hServed
    · exact .inl hRecovering
    · exact
        .inr (hServed.set hTask rfl rfl (hActive hSettled))

/- A handler other than the last one moves on. -/
theorem Kept.moveHandler
    {s : State}
    {k : Nat}
    {new : Handler}
    (hKept : Kept s)
    (hOther :
      s.dispatched = k + 1 →
        ∀ b, s.handlers[k]? ≠ some (.loading b)) :
    Kept { s with handlers := s.handlers.set k new } := by
  have hLength : (s.handlers.set k new).length =
      s.handlers.length :=
    List.length_set
  refine ⟨?_, hKept.runs, ?_, ?_⟩
  · exact Nat.le_trans (Nat.le_of_eq hLength) hKept.length
  · intro hLost
    exact hKept.global (hLength ▸ hLost)
  · rintro ⟨hAll, hLost⟩
    rcases hKept.settled ⟨hLength.symm.trans hAll, hLost⟩ with
      hRecovering | hServed
    · exact .inl (hRecovering.set hOther rfl rfl)
    · exact .inr hServed

/- A callback that waits can be added to the started ones. -/
theorem length_append_le
    {s : State}
    {new : Handler}
    (hWaits : s.handlers.length < s.dispatched) :
    (s.handlers ++ [new]).length ≤ s.dispatched := by
  rw [List.length_append, List.length_singleton]
  exact hWaits

/- A start of `lost` leaves nothing to serve. -/
theorem Kept.startLost
    {s s' : State}
    (hKept : Kept s)
    (hWaits : s.handlers.length < s.dispatched)
    (hNext : callback s.handlers.length = .lost)
    (hHandlers : s'.handlers = s.handlers ++ [.closing])
    (hDispatched : s'.dispatched = s.dispatched)
    (hTasks : s'.tasks = s.tasks)
    (hLoops :
      ∀ b, (s'.loops b).Live → (s.loops b).Live) :
    Kept s' := by
  have hNot : callback s'.handlers.length ≠ .lost := by
    rw [hHandlers, callback_append, hNext]
    simp [Callback.next]
  refine ⟨?_, ?_, fun hLost => absurd hLost hNot, ?_⟩
  · rw [hHandlers, hDispatched]
    exact length_append_le hWaits
  · intro b hLive
    rw [hTasks]
    exact hKept.runs b (hLoops b hLive)
  · rintro ⟨hAll, hLost⟩
    rw [← hAll] at hLost
    exact absurd hLost hNot

/- A task that enters `run` of a loop makes it tick. -/
theorem Kept.runs_enter
    {s : State}
    {t b b' : Nat}
    {old : MatchTask}
    {loop : Loop}
    (hKept : Kept s)
    (hTask : s.tasks[t]? = some old)
    (hOld : ∀ b, old ≠ .inRun b)
    (hLive : (Function.update s.loops b loop b').Live) :
    .inRun b' ∈ s.tasks.set t (.inRun b) := by
  rcases live_of_entered hLive with rfl | hStill
  · exact mem_set_self hTask
  · exact
      mem_set_of_ne hTask (hKept.runs b' hStill)
        (hOld b').symm

/- The task of the last handler works on the global loop. -/
theorem Kept.served_loaded
    {s s' : State}
    (hKept : Kept s)
    (hSettled : Settled s)
    (hGlobal : s'.gameLoop = s.gameLoop)
    (hTasks : s'.tasks = s.tasks ++ [.created s.gameLoop]) :
    Served s' := by
  have hSome : s.gameLoop ≠ none := by
    apply hKept.global
    rw [hSettled.1]
    exact hSettled.2
  rcases Option.ne_none_iff_exists'.mp hSome with ⟨b, hLoop⟩
  refine
    ⟨b, hGlobal.trans hLoop, .created s.gameLoop, ?_, hLoop⟩
  rw [hTasks]
  exact List.mem_append_right _ (List.mem_singleton_self _)

/- The handler keeps a loop that is marked as running. -/
theorem Kept.keepRunning
    {s : State}
    (hKept : Kept s)
    (hOpen :
      ∀ b ∈ s.gameLoop,
        (s.loops b).running = true →
          (s.loops b).matchEnded = false)
    (hWaits : s.handlers.length < s.dispatched)
    (hRunning : s.gameLoopRunning = true) :
    Kept { s with handlers := s.handlers ++ [.completed] } := by
  have hSome : s.gameLoop ≠ none := by
    intro hNone
    rw [State.gameLoopRunning, hNone] at hRunning
    cases hRunning
  rcases Option.ne_none_iff_exists'.mp hSome with ⟨b, hGlobal⟩
  rw [State.gameLoopRunning_eq hGlobal] at hRunning
  have hLive : (s.loops b).Live :=
    ⟨hRunning, hOpen b hGlobal hRunning⟩
  refine ⟨length_append_le hWaits, hKept.runs, ?_, ?_⟩
  · intro _ hNone
    cases hGlobal.symm.trans hNone
  · intro _
    exact .inr ⟨b, hGlobal, .inRun b, hKept.runs b hLive, rfl⟩

/- The last handler of a settled process recovers it. -/
theorem Kept.gained
    {s : State}
    (hKept : Kept s)
    (hWaits : s.handlers.length < s.dispatched) :
    Kept
      { s with
        gameLoop := some s.nextLoop
        loops := Function.update s.loops s.nextLoop .new
        nextLoop := s.nextLoop + 1
        handlers := s.handlers ++ [.loading s.nextLoop] } := by
  refine ⟨length_append_le hWaits, ?_, by simp, ?_⟩
  · intro b hLive
    exact
      hKept.runs b
        (live_of_shut (by simp [Loop.Live, Loop.new]) hLive).2
  · rintro ⟨hAll, _⟩
    left
    refine ⟨s.handlers.length, s.nextLoop, ?_, ?_⟩
    · simpa using hAll.symm
    · simp

/- The task of a handler works on the global loop. -/
theorem Kept.loaded
    {s : State}
    {k : Nat}
    (hKept : Kept s) :
    Kept
      { s with
        handlers := s.handlers.set k .completed
        tasks := s.tasks ++ [.created s.gameLoop] } := by
  have hLength : (s.handlers.set k .completed).length =
      s.handlers.length :=
    List.length_set
  refine ⟨?_, ?_, ?_, ?_⟩
  · exact Nat.le_trans (Nat.le_of_eq hLength) hKept.length
  · intro b' hLive
    exact List.mem_append_left _ (hKept.runs b' hLive)
  · intro hLost
    exact hKept.global (hLength ▸ hLost)
  · rintro ⟨hAll, hLost⟩
    have hSettled : Settled s :=
      ⟨hLength.symm.trans hAll, hLost⟩
    exact .inr (hKept.served_loaded hSettled rfl rfl)

/- A task that leaves the loop it ran leaves no live one. -/
theorem Kept.leave
    {s : State}
    {t b : Nat}
    (hKept : Kept s)
    (hLeader :
      Settled s → s.gameLoop = some b → s.isLeader = true)
    (hTask : s.tasks[t]? = some (.inRun b))
    (hDone : ¬ (s.loops b).Live)
    (hNot : ¬ (s.gameLoop = some b ∧ s.isLeader = true)) :
    Kept { s with tasks := s.tasks.set t .returned } := by
  refine hKept.moveTask hTask ?_ ?_
  · rintro b' hLive hSame
    cases hSame
    exact hDone hLive
  · intro hSettled b' hGlobal hOn
    cases hOn
    exact absurd ⟨hGlobal, hLeader hSettled hGlobal⟩ hNot

theorem kept_step
    {s s' : State}
    {act : Act}
    (hKept : Kept s)
    (hOk : RecoverOk s act)
    (hStep : step s act = some s') :
    Kept s' := by
  cases steps_of_step hStep with
  | win _ _ =>
      exact
        ⟨hKept.length, hKept.runs, hKept.global, hKept.settled⟩
  | lose _ _ =>
      exact
        ⟨hKept.length, hKept.runs, hKept.global, hKept.settled⟩
  | dispatch _ =>
      have hLess := hKept.length
      refine
        ⟨Nat.le_succ_of_le hLess, hKept.runs, hKept.global, ?_⟩
      rintro ⟨hAll, _⟩
      have hEq : s.handlers.length = s.dispatched + 1 := hAll
      omega
  | keepRunning hWaits hNext hRunning =>
      exact hKept.keepRunning (hOk hNext) hWaits hRunning
  | gained hWaits _ _ => exact hKept.gained hWaits
  | lostNone hWaits hNext _ =>
      exact
        hKept.startLost hWaits hNext rfl rfl rfl (fun _ => id)
  | lost hWaits hNext _ =>
      refine hKept.startLost hWaits hNext rfl rfl rfl ?_
      intro b hLive
      exact
        (live_of_shut (by simp [Loop.Live, Loop.ended])
          hLive).2
  | loaded _ => exact hKept.loaded
  | @loadFailed k b hHandler =>
      apply hKept.moveHandler
      intro hLast
      have hLess : k + 1 < s.dispatched := hOk
      omega
  | closed hHandler =>
      apply hKept.moveHandler
      intro _ b hLoading
      rw [hHandler] at hLoading
      cases hLoading
  | @enter t b hTask =>
      refine
        ⟨hKept.length,
          fun _ => hKept.runs_enter hTask (by simp),
          hKept.global, ?_⟩
      intro hSettled
      rcases hKept.settled hSettled with hRecovering | hServed
      · exact .inl hRecovering
      · exact
          .inr (hServed.set hTask rfl rfl (fun _ _ => id))
  | enterNone hTask =>
      refine hKept.moveTask hTask (by simp) ?_
      intro _ b _ hOn
      cases hOn
  | endMatch hTask hOpen =>
      refine
        ⟨hKept.length, ?_, hKept.global, hKept.settled⟩
      intro b hLive
      exact
        hKept.runs b
          (live_of_shut (by simp [Loop.Live, Loop.ended])
            hLive).2
  | @reset t b hTask hDone _ _ =>
      refine hKept.moveTask hTask ?_ (fun _ _ _ => id)
      rintro b' hLive hSame
      cases hSame
      exact hDone hLive
  | @leave t b hTask hDone hNot =>
      exact
        hKept.leave
          (fun hSettled => hOk hSettled _ hTask b rfl)
          hTask hDone hNot
  | @deleted t b hTask =>
      refine
        ⟨hKept.length,
          fun _ => hKept.runs_enter hTask (by simp),
          by simp, ?_⟩
      intro _
      exact
        .inr
          ⟨s.nextLoop, rfl, .inRun s.nextLoop,
            mem_set_self hTask, rfl⟩
  | @deleteFailed t b hTask =>
      refine hKept.moveTask hTask (by simp) ?_
      intro hSettled b' hGlobal hOn
      cases hOn
      exact absurd hGlobal (hOk hSettled _ hTask b rfl)

/-
  In every run whose steps meet the condition, a quiescent
  leader has a task on its global loop.
-/
theorem leader_served
    {s : State}
    (hRun : Reaches step RecoverOk State.start s)
    (hQuiet : Quiescent s)
    (hLast : LastElected s) :
    Served s := by
  have hKept : Kept s := hRun.invariant kept_start kept_step
  exact hKept.served hQuiet hLast

/- A load fails after the loss of the leadership is known. -/
def reelected : State :=
  final step State.start
    [.win, .dispatch, .start, .lose, .dispatch,
      .loadFailed 0, .start, .closed 1, .win, .dispatch,
      .start, .loaded 2, .enter 0]
    (by decide)

theorem leader_served_reelected : Served reelected := by
  have hRun : Reaches step RecoverOk State.start reelected :=
    reaches_of_run (run_eq_final (by decide)) (by decide)
  exact leader_served hRun (by decide) ⟨2, by decide⟩

/- The state cannot be loaded after the election was won. -/
def unloaded : State :=
  final step State.start
    [.win, .dispatch, .start, .loadFailed 0] (by decide)

theorem leader_not_served :
    Reachable step State.start unloaded ∧
      Quiescent unloaded ∧ LastElected unloaded ∧
        ¬ Served unloaded := by
  refine
    ⟨reachable_of_run (run_eq_final (by decide)), by decide,
      ⟨0, by decide⟩, ?_⟩
  rintro ⟨b, _, task, hMem, _⟩
  have hNone : unloaded.tasks = [] := by decide
  rw [hNone] at hMem
  cases hMem

end Lifecycle
