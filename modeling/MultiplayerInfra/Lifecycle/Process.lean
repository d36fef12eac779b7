import Mathlib.Logic.Function.Basic
import MultiplayerInfra.Election.LeaderElection
import MultiplayerInfra.Machine.Run

/-
  The coroutines of a game-room process that share the
  global `game_loop`.

  Key definitions include:
    * `Lifecycle.State`
    * `Lifecycle.handleLeadershipGained`
    * `Lifecycle.handleLeadershipLost`
    * `Lifecycle.step`
    * `Lifecycle.Grounded`

  Key theorems include:
    * `Lifecycle.steps_of_step`
    * `Lifecycle.grounded_step`

  A step runs a coroutine from one await to the next.  The
  election thread sets `is_leader` and dispatches its
  callback in two steps; the event loop starts the callbacks
  in the order of their dispatch.
-/

------------------------------------------------------------
-- Processes
------------------------------------------------------------

namespace Lifecycle

open Election

/- The flags of a `GameLoop` that decide whether it ticks. -/
structure Loop where
  running : Bool
  matchEnded : Bool
deriving DecidableEq

namespace Loop

def new : Loop := ⟨false, false⟩

/- `stop()`, and the first lines of `end_match`. -/
def ended : Loop := ⟨false, true⟩

/- The condition of the loop in `run`. -/
def Live (loop : Loop) : Prop :=
  loop.running = true ∧ loop.matchEnded = false

instance (loop : Loop) : Decidable loop.Live :=
  inferInstanceAs (Decidable (_ ∧ _))

end Loop

/- The task of a lifecycle callback. -/
inductive Handler where
  -- `handle_leadership_gained`, in `load_state` of a loop
  | loading (loop : Nat)
  -- `handle_leadership_lost`, telling the sockets
  | closing
  | completed
  | raised
deriving DecidableEq

/- A task of `run_matches`. -/
inductive MatchTask where
  | created (current : Option Nat)
  | inRun (current : Nat)
  -- in `redis_client.delete`
  | deleting (current : Nat)
  | returned
  | raised
deriving DecidableEq

/- The loop that a handler has loaded its state for. -/
def Handler.loads : Handler → Option Nat
| .loading b => some b
| _ => none

/- The loop of the match whose keys a task deletes. -/
def MatchTask.deletes : MatchTask → Option Nat
| .deleting b => some b
| _ => none

structure State where
  isLeader : Bool
  -- how many callbacks the election has dispatched
  dispatched : Nat
  -- the callbacks that were started, in order
  handlers : List Handler
  gameLoop : Option Nat
  loops : Nat → Loop
  nextLoop : Nat
  tasks : List MatchTask
  -- which task entered the `run` of which loop
  entered : List (Nat × Nat)

inductive Act where
  -- the election thread
  | win
  | lose
  | dispatch
  -- the task of the next callback starts
  | start
  | loaded (k : Nat)
  | loadFailed (k : Nat)
  | closed (k : Nat)
  -- a task enters `run`, ends the match and leaves `run`
  | enter (t : Nat)
  | endMatch (t : Nat)
  | leave (t : Nat)
  | deleted (t : Nat)
  | deleteFailed (t : Nat)
deriving DecidableEq

end Lifecycle

------------------------------------------------------------
-- The Machine
------------------------------------------------------------

namespace Lifecycle

open Election

/- The process before its first election. -/
def State.start : State where
  isLeader := false
  dispatched := 0
  handlers := []
  gameLoop := none
  loops := fun _ => .new
  nextLoop := 0
  tasks := []
  entered := []

/- `game_loop and game_loop.running`. -/
def State.gameLoopRunning (s : State) : Bool :=
  match s.gameLoop with
  | none => false
  | some b => (s.loops b).running

theorem State.gameLoopRunning_eq
    {s : State}
    {b : Nat}
    (hGlobal : s.gameLoop = some b) :
    s.gameLoopRunning = (s.loops b).running := by
  rw [gameLoopRunning, hGlobal]

/- To the first await: `load_state`, or the early return. -/
def handleLeadershipGained (s : State) : State :=
  if s.gameLoopRunning then
    { s with handlers := s.handlers ++ [.completed] }
  else
    { s with
      gameLoop := some s.nextLoop
      loops := Function.update s.loops s.nextLoop .new
      nextLoop := s.nextLoop + 1
      handlers := s.handlers ++ [.loading s.nextLoop] }

/- To the first await: `stop()` has none. -/
def handleLeadershipLost (s : State) : State :=
  match s.gameLoop with
  | none => { s with handlers := s.handlers ++ [.closing] }
  | some b =>
      { s with
        gameLoop := none
        loops := Function.update s.loops b .ended
        handlers := s.handlers ++ [.closing] }

/- A task enters `run` of a loop. -/
def enterRun (s : State) (t b : Nat) : State :=
  { s with
    loops :=
      Function.update s.loops b
        { s.loops b with running := true }
    tasks := s.tasks.set t (.inRun b)
    entered := s.entered ++ [(t, b)] }

/- After `run` has returned, to the next await. -/
def afterRun (s : State) (t b : Nat) : State :=
  if s.gameLoop = some b ∧ s.isLeader = true then
    { s with tasks := s.tasks.set t (.deleting b) }
  else { s with tasks := s.tasks.set t .returned }

/- A fresh loop as the global one, and its `run`. -/
def nextMatch (s : State) (t : Nat) : State :=
  enterRun
    { s with
      gameLoop := some s.nextLoop
      loops := Function.update s.loops s.nextLoop .new
      nextLoop := s.nextLoop + 1 }
    t s.nextLoop

def step (s : State) : Act → Option State
| .win =>
    if s.isLeader = false ∧ callback s.dispatched = .elected then
      some { s with isLeader := true }
    else none
| .lose =>
    if s.isLeader = true ∧ callback s.dispatched = .lost then
      some { s with isLeader := false }
    else none
| .dispatch =>
    if s.isLeader = true ↔
        callback s.dispatched = .elected then
      some { s with dispatched := s.dispatched + 1 }
    else none
| .start =>
    if s.handlers.length < s.dispatched then
      match callback s.handlers.length with
      | .elected => some (handleLeadershipGained s)
      | .lost => some (handleLeadershipLost s)
    else none
| .loaded k =>
    match s.handlers[k]? with
    | some (.loading _) =>
        -- the global is read again, after the await
        some
          { s with
            handlers := s.handlers.set k .completed
            tasks := s.tasks ++ [.created s.gameLoop] }
    | _ => none
| .loadFailed k =>
    match s.handlers[k]? with
    | some (.loading _) =>
        some { s with handlers := s.handlers.set k .raised }
    | _ => none
| .closed k =>
    match s.handlers[k]? with
    | some .closing =>
        some { s with handlers := s.handlers.set k .completed }
    | _ => none
| .enter t =>
    match s.tasks[t]? with
    | some (.created (some b)) => some (enterRun s t b)
    | some (.created none) =>
        -- `None` has no `run`
        some { s with tasks := s.tasks.set t .raised }
    | _ => none
| .endMatch t =>
    match s.tasks[t]? with
    | some (.inRun b) =>
        if (s.loops b).matchEnded then none
        else
          some
            { s with
              loops := Function.update s.loops b .ended }
    | _ => none
| .leave t =>
    match s.tasks[t]? with
    | some (.inRun b) =>
        if (s.loops b).Live then none
        else some (afterRun s t b)
    | _ => none
| .deleted t =>
    match s.tasks[t]? with
    | some (.deleting _) => some (nextMatch s t)
    | _ => none
| .deleteFailed t =>
    match s.tasks[t]? with
    | some (.deleting _) =>
        some { s with tasks := s.tasks.set t .raised }
    | _ => none

end Lifecycle

------------------------------------------------------------
-- The Transitions
------------------------------------------------------------

namespace Lifecycle

open Election

/- A start changes which callback is the next one. -/
theorem callback_append
    {handlers : List Handler}
    {new : Handler} :
    callback (handlers ++ [new]).length =
      (callback handlers.length).next := by
  rw [List.length_append, List.length_singleton, callback]

/- The transitions of the machine, one for each branch. -/
inductive Steps (s : State) : Act → State → Prop where
  | win
      (hLeader : s.isLeader = false)
      (hNext : callback s.dispatched = .elected) :
      Steps s .win { s with isLeader := true }
  | lose
      (hLeader : s.isLeader = true)
      (hNext : callback s.dispatched = .lost) :
      Steps s .lose { s with isLeader := false }
  | dispatch
      (hFlag :
        s.isLeader = true ↔ callback s.dispatched = .elected) :
      Steps s .dispatch { s with dispatched := s.dispatched + 1 }
  | keepRunning
      (hWaits : s.handlers.length < s.dispatched)
      (hNext : callback s.handlers.length = .elected)
      (hRunning : s.gameLoopRunning = true) :
      Steps s .start
        { s with handlers := s.handlers ++ [.completed] }
  | gained
      (hWaits : s.handlers.length < s.dispatched)
      (hNext : callback s.handlers.length = .elected)
      (hIdle : s.gameLoopRunning = false) :
      Steps s .start
        { s with
          gameLoop := some s.nextLoop
          loops := Function.update s.loops s.nextLoop .new
          nextLoop := s.nextLoop + 1
          handlers := s.handlers ++ [.loading s.nextLoop] }
  | lostNone
      (hWaits : s.handlers.length < s.dispatched)
      (hNext : callback s.handlers.length = .lost)
      (hGlobal : s.gameLoop = none) :
      Steps s .start
        { s with handlers := s.handlers ++ [.closing] }
  | lost
      {b : Nat}
      (hWaits : s.handlers.length < s.dispatched)
      (hNext : callback s.handlers.length = .lost)
      (hGlobal : s.gameLoop = some b) :
      Steps s .start
        { s with
          gameLoop := none
          loops := Function.update s.loops b .ended
          handlers := s.handlers ++ [.closing] }
  | loaded
      {k b : Nat}
      (hHandler : s.handlers[k]? = some (.loading b)) :
      Steps s (.loaded k)
        { s with
          handlers := s.handlers.set k .completed
          tasks := s.tasks ++ [.created s.gameLoop] }
  | loadFailed
      {k b : Nat}
      (hHandler : s.handlers[k]? = some (.loading b)) :
      Steps s (.loadFailed k)
        { s with handlers := s.handlers.set k .raised }
  | closed
      {k : Nat}
      (hHandler : s.handlers[k]? = some .closing) :
      Steps s (.closed k)
        { s with handlers := s.handlers.set k .completed }
  | enter
      {t b : Nat}
      (hTask : s.tasks[t]? = some (.created (some b))) :
      Steps s (.enter t)
        { s with
          loops :=
            Function.update s.loops b
              { s.loops b with running := true }
          tasks := s.tasks.set t (.inRun b)
          entered := s.entered ++ [(t, b)] }
  | enterNone
      {t : Nat}
      (hTask : s.tasks[t]? = some (.created none)) :
      Steps s (.enter t)
        { s with tasks := s.tasks.set t .raised }
  | endMatch
      {t b : Nat}
      (hTask : s.tasks[t]? = some (.inRun b))
      (hOpen : (s.loops b).matchEnded = false) :
      Steps s (.endMatch t)
        { s with loops := Function.update s.loops b .ended }
  | reset
      {t b : Nat}
      (hTask : s.tasks[t]? = some (.inRun b))
      (hDone : ¬ (s.loops b).Live)
      (hGlobal : s.gameLoop = some b)
      (hLeader : s.isLeader = true) :
      Steps s (.leave t)
        { s with tasks := s.tasks.set t (.deleting b) }
  | leave
      {t b : Nat}
      (hTask : s.tasks[t]? = some (.inRun b))
      (hDone : ¬ (s.loops b).Live)
      (hNot : ¬ (s.gameLoop = some b ∧ s.isLeader = true)) :
      Steps s (.leave t)
        { s with tasks := s.tasks.set t .returned }
  | deleted
      {t b : Nat}
      (hTask : s.tasks[t]? = some (.deleting b)) :
      Steps s (.deleted t)
        { s with
          gameLoop := some s.nextLoop
          loops :=
            Function.update s.loops s.nextLoop ⟨true, false⟩
          nextLoop := s.nextLoop + 1
          tasks := s.tasks.set t (.inRun s.nextLoop)
          entered := s.entered ++ [(t, s.nextLoop)] }
  | deleteFailed
      {t b : Nat}
      (hTask : s.tasks[t]? = some (.deleting b)) :
      Steps s (.deleteFailed t)
        { s with tasks := s.tasks.set t .raised }

/- The new loop is created and running in one step. -/
theorem nextMatch_eq (s : State) (t : Nat) :
    nextMatch s t =
      { s with
        gameLoop := some s.nextLoop
        loops :=
          Function.update s.loops s.nextLoop ⟨true, false⟩
        nextLoop := s.nextLoop + 1
        tasks := s.tasks.set t (.inRun s.nextLoop)
        entered := s.entered ++ [(t, s.nextLoop)] } := by
  simp [nextMatch, enterRun, Loop.new]

/- Every step of the function is one of the transitions. -/
theorem steps_of_step
    {s s' : State}
    {act : Act}
    (hStep : step s act = some s') :
    Steps s act s' := by
  cases act with
  | win =>
      simp only [step] at hStep
      split at hStep
      · rename_i hCond
        cases hStep
        exact .win hCond.1 hCond.2
      · cases hStep
  | lose =>
      simp only [step] at hStep
      split at hStep
      · rename_i hCond
        cases hStep
        exact .lose hCond.1 hCond.2
      · cases hStep
  | dispatch =>
      simp only [step] at hStep
      split at hStep
      · rename_i hFlag
        cases hStep
        exact .dispatch hFlag
      · cases hStep
  | start =>
      simp only [step] at hStep
      split at hStep
      · rename_i hWaits
        split at hStep
        · rename_i hNext
          cases hStep
          unfold handleLeadershipGained
          split
          · exact .keepRunning hWaits hNext ‹_›
          · rename_i hIdle
            exact .gained hWaits hNext (by simpa using hIdle)
        · rename_i hNext
          cases hStep
          unfold handleLeadershipLost
          split
          · exact .lostNone hWaits hNext ‹_›
          · exact .lost hWaits hNext ‹_›
      · cases hStep
  | loaded k =>
      simp only [step] at hStep
      split at hStep
      · cases hStep
        exact .loaded ‹_›
      · cases hStep
  | loadFailed k =>
      simp only [step] at hStep
      split at hStep
      · cases hStep
        exact .loadFailed ‹_›
      · cases hStep
  | closed k =>
      simp only [step] at hStep
      split at hStep
      · cases hStep
        exact .closed ‹_›
      · cases hStep
  | enter t =>
      simp only [step] at hStep
      split at hStep
      · cases hStep
        exact .enter ‹_›
      · cases hStep
        exact .enterNone ‹_›
      · cases hStep
  | endMatch t =>
      simp only [step] at hStep
      split at hStep
      · split at hStep
        · cases hStep
        · rename_i hTask hOpen
          cases hStep
          exact .endMatch hTask (by simpa using hOpen)
      · cases hStep
  | leave t =>
      simp only [step] at hStep
      split at hStep
      · split at hStep
        · cases hStep
        · rename_i hTask hDone
          cases hStep
          unfold afterRun
          split
          · rename_i hStays
            exact .reset hTask hDone hStays.1 hStays.2
          · exact .leave hTask hDone ‹_›
      · cases hStep
  | deleted t =>
      simp only [step, nextMatch_eq] at hStep
      split at hStep
      · cases hStep
        exact .deleted ‹_›
      · cases hStep
  | deleteFailed t =>
      simp only [step] at hStep
      split at hStep
      · cases hStep
        exact .deleteFailed ‹_›
      · cases hStep

end Lifecycle

------------------------------------------------------------
-- Grounded Processes
------------------------------------------------------------

namespace Lifecycle

open Election

/- The loop of a handler exists. -/
def Handler.Grounded (s : State) : Handler → Prop
| .loading b => b < s.nextLoop
| .closing => True
| .completed => True
| .raised => True

/-
  The loop of a task exists.  One whose `run` was entered is
  running or ended, and it ended before its keys are deleted.
-/
def MatchTask.Grounded (s : State) : MatchTask → Prop
| .created current => ∀ b ∈ current, b < s.nextLoop
| .inRun b =>
    (s.loops b).running = true ∨ (s.loops b).matchEnded = true
| .deleting b => (s.loops b).matchEnded = true
| .returned => True
| .raised => True

structure Grounded (s : State) : Prop where
  fresh : ∀ b, s.nextLoop ≤ b → s.loops b = .new
  global : ∀ b, s.gameLoop = some b → b < s.nextLoop
  handlers : ∀ handler ∈ s.handlers, handler.Grounded s
  tasks : ∀ task ∈ s.tasks, task.Grounded s

/- No loop is removed, reopened or started over. -/
structure Extends (s s' : State) : Prop where
  nextLoop : s.nextLoop ≤ s'.nextLoop
  ended :
    ∀ b, (s.loops b).matchEnded = true →
      (s'.loops b).matchEnded = true
  begun :
    ∀ b,
      (s.loops b).running = true ∨
          (s.loops b).matchEnded = true →
        (s'.loops b).running = true ∨
          (s'.loops b).matchEnded = true

theorem Handler.Grounded.extend
    {s s' : State}
    {handler : Handler}
    (hGrounded : handler.Grounded s)
    (hExtends : Extends s s') :
    handler.Grounded s' := by
  cases handler with
  | loading b =>
      exact Nat.lt_of_lt_of_le hGrounded hExtends.nextLoop
  | closing => trivial
  | completed => trivial
  | raised => trivial

theorem MatchTask.Grounded.extend
    {s s' : State}
    {task : MatchTask}
    (hGrounded : task.Grounded s)
    (hExtends : Extends s s') :
    task.Grounded s' := by
  cases task with
  | created current =>
      intro b hCurrent
      exact
        Nat.lt_of_lt_of_le (hGrounded b hCurrent)
          hExtends.nextLoop
  | inRun b => exact hExtends.begun b hGrounded
  | deleting b => exact hExtends.ended b hGrounded
  | returned => trivial
  | raised => trivial

/- What a step has to show for the loops and tasks it adds. -/
theorem Grounded.next
    {s s' : State}
    (hGrounded : Grounded s)
    (hExtends : Extends s s')
    (hFresh : ∀ b, s'.nextLoop ≤ b → s'.loops b = .new)
    (hGlobal : ∀ b, s'.gameLoop = some b → b < s'.nextLoop)
    (hHandlers :
      ∀ handler ∈ s'.handlers,
        handler ∈ s.handlers ∨ handler.Grounded s')
    (hTasks :
      ∀ task ∈ s'.tasks, task ∈ s.tasks ∨ task.Grounded s') :
    Grounded s' := by
  refine ⟨hFresh, hGlobal, ?_, ?_⟩
  · intro handler hMem
    rcases hHandlers handler hMem with hOld | hNew
    · exact (hGrounded.handlers handler hOld).extend hExtends
    · exact hNew
  · intro task hMem
    rcases hTasks task hMem with hOld | hNew
    · exact (hGrounded.tasks task hOld).extend hExtends
    · exact hNew

theorem Extends.of_loops
    {s s' : State}
    (hLoops : s'.loops = s.loops)
    (hNext : s'.nextLoop = s.nextLoop) :
    Extends s s' := by
  refine ⟨Nat.le_of_eq hNext.symm, ?_, ?_⟩ <;> rw [hLoops] <;>
    exact fun _ => id

/- One loop is run, or ends. -/
theorem Extends.of_update
    {s s' : State}
    {b : Nat}
    {loop : Loop}
    (hNext : s'.nextLoop = s.nextLoop)
    (hLoops : s'.loops = Function.update s.loops b loop)
    (hLoop :
      loop.matchEnded = true ∨
        (loop.running = true ∧
          loop.matchEnded = (s.loops b).matchEnded)) :
    Extends s s' := by
  refine ⟨Nat.le_of_eq hNext.symm, ?_, ?_⟩
  · intro b' hEnded
    rw [hLoops]
    by_cases hSame : b' = b
    · subst hSame
      rw [Function.update_self]
      rcases hLoop with hLoop | ⟨_, hLoop⟩
      · exact hLoop
      · rw [hLoop]
        exact hEnded
    · rw [Function.update_of_ne hSame]
      exact hEnded
  · intro b' hBegun
    rw [hLoops]
    by_cases hSame : b' = b
    · subst hSame
      rw [Function.update_self]
      rcases hLoop with hLoop | ⟨hLoop, _⟩
      · exact .inr hLoop
      · exact .inl hLoop
    · rw [Function.update_of_ne hSame]
      exact hBegun

/- A loop is created where there was none. -/
theorem Extends.of_create
    {s s' : State}
    {loop : Loop}
    (hFresh : s.loops s.nextLoop = .new)
    (hNext : s'.nextLoop = s.nextLoop + 1)
    (hLoops :
      s'.loops = Function.update s.loops s.nextLoop loop) :
    Extends s s' := by
  have hOld : ∀ b, b ≠ s.nextLoop → s'.loops b = s.loops b := by
    intro b hNe
    rw [hLoops, Function.update_of_ne hNe]
  refine ⟨hNext ▸ Nat.le_succ _, ?_, ?_⟩
  · intro b hEnded
    by_cases hSame : b = s.nextLoop
    · rw [hSame, hFresh] at hEnded
      cases hEnded
    · rw [hOld b hSame]
      exact hEnded
  · intro b hBegun
    by_cases hSame : b = s.nextLoop
    · rw [hSame, hFresh] at hBegun
      rcases hBegun with hBegun | hBegun <;> cases hBegun
    · rw [hOld b hSame]
      exact hBegun

/- A fresh loop is updated only where it exists. -/
theorem Grounded.fresh_update
    {s : State}
    (hGrounded : Grounded s)
    {b : Nat}
    (hBelow : b < s.nextLoop)
    (loop : Loop) :
    ∀ b', s.nextLoop ≤ b' →
      Function.update s.loops b loop b' = .new := by
  intro b' hAbove
  rw [Function.update_of_ne (by omega)]
  exact hGrounded.fresh b' hAbove

theorem Grounded.fresh_create
    {s : State}
    (hGrounded : Grounded s)
    (loop : Loop) :
    ∀ b', s.nextLoop + 1 ≤ b' →
      Function.update s.loops s.nextLoop loop b' = .new := by
  intro b' hAbove
  rw [Function.update_of_ne (by omega)]
  exact hGrounded.fresh b' (by omega)

/- A loop whose `run` was entered exists. -/
theorem Grounded.lt_of_begun
    {s : State}
    (hGrounded : Grounded s)
    {b : Nat}
    (hBegun :
      (s.loops b).running = true ∨
        (s.loops b).matchEnded = true) :
    b < s.nextLoop := by
  by_contra hNot
  rw [hGrounded.fresh b (by omega)] at hBegun
  rcases hBegun with hBegun | hBegun <;> cases hBegun

theorem grounded_start : Grounded State.start := by
  refine ⟨fun _ _ => rfl, ?_, ?_, ?_⟩
  · intro b hGlobal
    cases hGlobal
  · intro handler hMem
    cases hMem
  · intro task hMem
    cases hMem

/- A list that gains an element, or has one replaced. -/
theorem mem_append_or
    {α : Type}
    {P : α → Prop}
    {l : List α}
    {new : α}
    (hNew : P new) :
    ∀ x ∈ l ++ [new], x ∈ l ∨ P x := by
  intro x hMem
  rcases List.mem_append.mp hMem with hOld | hLast
  · exact .inl hOld
  · rw [List.mem_singleton.mp hLast]
    exact .inr hNew

theorem mem_set_or
    {α : Type}
    {P : α → Prop}
    {l : List α}
    {i : Nat}
    {new : α}
    (hNew : P new) :
    ∀ x ∈ l.set i new, x ∈ l ∨ P x := by
  intro x hMem
  rcases List.mem_or_eq_of_mem_set hMem with hOld | hSame
  · exact .inl hOld
  · rw [hSame]
    exact .inr hNew

/- A step that leaves the loops and the global alone. -/
theorem Grounded.keep
    {s s' : State}
    (hGrounded : Grounded s)
    (hGlobal : s'.gameLoop = s.gameLoop)
    (hLoops : s'.loops = s.loops)
    (hNext : s'.nextLoop = s.nextLoop)
    (hHandlers :
      ∀ handler ∈ s'.handlers,
        handler ∈ s.handlers ∨ handler.Grounded s')
    (hTasks :
      ∀ task ∈ s'.tasks, task ∈ s.tasks ∨ task.Grounded s') :
    Grounded s' := by
  refine
    hGrounded.next (.of_loops hLoops hNext) ?_ ?_
      hHandlers hTasks
  · rw [hLoops, hNext]
    exact hGrounded.fresh
  · rw [hGlobal, hNext]
    exact hGrounded.global

theorem grounded_step
    {s s' : State}
    {act : Act}
    (hGrounded : Grounded s)
    (hStep : step s act = some s') :
    Grounded s' := by
  have hSame : ∀ {α : Type} {l : List α} {P : α → Prop},
      ∀ x ∈ l, x ∈ l ∨ P x :=
    fun x hMem => .inl hMem
  cases steps_of_step hStep with
  | win _ _ => exact hGrounded.keep rfl rfl rfl hSame hSame
  | lose _ _ => exact hGrounded.keep rfl rfl rfl hSame hSame
  | dispatch _ => exact hGrounded.keep rfl rfl rfl hSame hSame
  | keepRunning _ _ _ =>
      exact
        hGrounded.keep rfl rfl rfl (mem_append_or trivial) hSame
  | gained _ _ _ =>
      refine
        hGrounded.next
          (.of_create (hGrounded.fresh _ (Nat.le_refl _)) rfl
            rfl)
          (hGrounded.fresh_create .new) ?_
          (mem_append_or (Nat.lt_succ_self _)) hSame
      intro b hGlobal
      cases hGlobal
      exact Nat.lt_succ_self _
  | lostNone _ _ _ =>
      exact
        hGrounded.keep rfl rfl rfl (mem_append_or trivial) hSame
  | lost _ _ hGlobal =>
      refine
        hGrounded.next (.of_update rfl rfl (.inl rfl))
          (hGrounded.fresh_update
            (hGrounded.global _ hGlobal) .ended)
          ?_ (mem_append_or trivial) hSame
      intro b hNone
      cases hNone
  | loaded hHandler =>
      exact
        hGrounded.keep rfl rfl rfl (mem_set_or trivial)
          (mem_append_or hGrounded.global)
  | loadFailed hHandler =>
      exact hGrounded.keep rfl rfl rfl (mem_set_or trivial) hSame
  | closed hHandler =>
      exact hGrounded.keep rfl rfl rfl (mem_set_or trivial) hSame
  | @enter t b hTask =>
      have hBelow : b < s.nextLoop :=
        hGrounded.tasks _ (List.mem_of_getElem? hTask) b rfl
      refine
        hGrounded.next (.of_update rfl rfl (.inr ⟨rfl, rfl⟩))
          (hGrounded.fresh_update hBelow _) hGrounded.global
          hSame (mem_set_or ?_)
      left
      simp
  | enterNone hTask =>
      exact hGrounded.keep rfl rfl rfl hSame (mem_set_or trivial)
  | endMatch hTask hOpen =>
      have hBegun :=
        hGrounded.tasks _ (List.mem_of_getElem? hTask)
      exact
        hGrounded.next (.of_update rfl rfl (.inl rfl))
          (hGrounded.fresh_update
            (hGrounded.lt_of_begun hBegun) _)
          hGrounded.global hSame hSame
  | @reset t b hTask hDone _ _ =>
      have hBegun :=
        hGrounded.tasks _ (List.mem_of_getElem? hTask)
      have hEnded : (s.loops b).matchEnded = true := by
        rcases hBegun with hRunning | hEnded
        · by_contra hOpen
          exact hDone ⟨hRunning, by simpa using hOpen⟩
        · exact hEnded
      exact hGrounded.keep rfl rfl rfl hSame (mem_set_or hEnded)
  | leave hTask _ _ =>
      exact hGrounded.keep rfl rfl rfl hSame (mem_set_or trivial)
  | deleted hTask =>
      refine
        hGrounded.next
          (.of_create (hGrounded.fresh _ (Nat.le_refl _)) rfl
            rfl)
          (hGrounded.fresh_create _) ?_ hSame (mem_set_or ?_)
      · intro b hGlobal
        cases hGlobal
        exact Nat.lt_succ_self _
      · left
        simp
  | deleteFailed hTask =>
      exact hGrounded.keep rfl rfl rfl hSame (mem_set_or trivial)

end Lifecycle

------------------------------------------------------------
-- Open Loops
------------------------------------------------------------

namespace Lifecycle

variable {loops : Nat → Loop} {b b' : Nat}

/- A loop that is open after another one has ended. -/
theorem open_of_ended
    (hOpen :
      (Function.update loops b .ended b').matchEnded =
        false) :
    b' ≠ b ∧ (loops b').matchEnded = false := by
  by_cases hSame : b' = b
  · rw [hSame, Function.update_self] at hOpen
    cases hOpen
  · rw [Function.update_of_ne hSame] at hOpen
    exact ⟨hSame, hOpen⟩

/- A loop that ticks after another one was shut. -/
theorem live_of_shut
    {loop : Loop}
    (hShut : ¬ loop.Live)
    (hLive : (Function.update loops b loop b').Live) :
    b' ≠ b ∧ (loops b').Live := by
  by_cases hSame : b' = b
  · rw [hSame, Function.update_self] at hLive
    exact absurd hLive hShut
  · rw [Function.update_of_ne hSame] at hLive
    exact ⟨hSame, hLive⟩

/- A loop that ticks after a task entered one. -/
theorem live_of_entered
    {loop : Loop}
    (hLive : (Function.update loops b loop b').Live) :
    b' = b ∨ (loops b').Live := by
  by_cases hSame : b' = b
  · exact .inl hSame
  · rw [Function.update_of_ne hSame] at hLive
    exact .inr hLive

/- Entering `run` does not reopen a loop. -/
theorem open_of_running
    (hOpen :
      (Function.update loops b
          { loops b with running := true } b').matchEnded =
        false) :
    (loops b').matchEnded = false := by
  by_cases hSame : b' = b
  · subst hSame
    rw [Function.update_self] at hOpen
    exact hOpen
  · rw [Function.update_of_ne hSame] at hOpen
    exact hOpen

/- A loop that is open after a creation is new, or old. -/
theorem open_of_create
    {loop : Loop}
    (hBelow : b' < b + 1)
    (hOpen :
      (Function.update loops b loop b').matchEnded = false) :
    b' = b ∨ (b' < b ∧ (loops b').matchEnded = false) := by
  by_cases hSame : b' = b
  · exact .inl hSame
  · rw [Function.update_of_ne hSame] at hOpen
    exact .inr ⟨by omega, hOpen⟩

end Lifecycle
