import MultiplayerInfra.Lifecycle.Process

/-
  One run per process: how many tasks run a game loop.

  Key definitions include:
    * `Lifecycle.OneRun`
    * `Lifecycle.HeldOk`
    * `Lifecycle.Holds`
    * `Lifecycle.Single`

  Key theorems include:
    * `Lifecycle.single_step`
    * `Lifecycle.one_run`
    * `Lifecycle.two_runs`

  `handle_leadership_gained` starts the loop that is global
  after its `load_state`, whichever handler created it.
-/

------------------------------------------------------------
-- Runs of a Loop
------------------------------------------------------------

namespace Lifecycle

open Election Machine

/- A task is between the entry and the return of a live run. -/
def Activation (s : State) (t b : Nat) : Prop :=
  s.tasks[t]? = some (.inRun b) ∧ (s.loops b).Live

/- One live run at most, and one task for every loop. -/
structure OneRun (s : State) : Prop where
  active :
    ∀ t t' b b',
      Activation s t b → Activation s t' b' → t = t'
  owner :
    ∀ t t' b,
      (t, b) ∈ s.entered → (t', b) ∈ s.entered → t = t'

/-
  After its await a coroutine finds the global `game_loop` as
  it left it, or finds none.
-/
def HeldOk (s : State) : Act → Prop
| .loaded k =>
    ∀ handler ∈ s.handlers[k]?, ∀ b ∈ handler.loads,
      s.gameLoop = none ∨ s.gameLoop = some b
| .deleted t =>
    ∀ task ∈ s.tasks[t]?, ∀ b ∈ task.deletes,
      s.gameLoop = none ∨ s.gameLoop = some b
| _ => True

instance (s : State) : (act : Act) → Decidable (HeldOk s act)
| .loaded k =>
    inferInstanceAs (Decidable
      (∀ handler ∈ s.handlers[k]?, ∀ b ∈ handler.loads,
        s.gameLoop = none ∨ s.gameLoop = some b))
| .deleted t =>
    inferInstanceAs (Decidable
      (∀ task ∈ s.tasks[t]?, ∀ b ∈ task.deletes,
        s.gameLoop = none ∨ s.gameLoop = some b))
| .start => inferInstanceAs (Decidable True)
| .win => inferInstanceAs (Decidable True)
| .lose => inferInstanceAs (Decidable True)
| .dispatch => inferInstanceAs (Decidable True)
| .loadFailed _ => inferInstanceAs (Decidable True)
| .closed _ => inferInstanceAs (Decidable True)
| .enter _ => inferInstanceAs (Decidable True)
| .endMatch _ => inferInstanceAs (Decidable True)
| .leave _ => inferInstanceAs (Decidable True)
| .deleteFailed _ => inferInstanceAs (Decidable True)

end Lifecycle

------------------------------------------------------------
-- Holders of a Loop
------------------------------------------------------------

namespace Lifecycle

open Election

/- A coroutine that may start a loop, or has started it. -/
inductive Holder where
  | handler (k : Nat)
  | task (t : Nat)

def Holds (s : State) : Holder → Nat → Prop
| .handler k, b => s.handlers[k]? = some (.loading b)
| .task t, b =>
    s.tasks[t]? = some (.created (some b)) ∨
      (t, b) ∈ s.entered

/- No loop is held twice. -/
def Unique (s : State) : Prop :=
  ∀ o o' b, Holds s o b → Holds s o' b → o = o'

theorem Unique.of_imp
    {s s' : State}
    (hUnique : Unique s)
    (hHolds : ∀ o b, Holds s' o b → Holds s o b) :
    Unique s' := by
  intro o o' b hFirst hSecond
  exact hUnique o o' b (hHolds o b hFirst) (hHolds o' b hSecond)

/- Only one loop gets a new holder. -/
theorem Unique.of_new
    {s s' : State}
    (hUnique : Unique s)
    (o₁ : Holder)
    (b₁ : Nat)
    (hOld : ∀ o b, Holds s' o b → b ≠ b₁ → Holds s o b)
    (hNew : ∀ o, Holds s' o b₁ → o = o₁) :
    Unique s' := by
  intro o o' b hFirst hSecond
  by_cases hSame : b = b₁
  · subst hSame
    rw [hNew o hFirst, hNew o' hSecond]
  · exact
      hUnique o o' b (hOld o b hFirst hSame)
        (hOld o' b hSecond hSame)

/- An entry of a list with one element replaced. -/
theorem getElem?_set_cases
    {α : Type}
    {l : List α}
    {i j : Nat}
    {x y : α}
    (hGet : (l.set i x)[j]? = some y) :
    (j = i ∧ y = x) ∨ (j ≠ i ∧ l[j]? = some y) := by
  by_cases hSame : i = j
  · subst hSame
    rcases List.getElem?_eq_some_iff.mp hGet with ⟨_, hEq⟩
    rw [List.getElem_set_self] at hEq
    exact .inl ⟨rfl, hEq.symm⟩
  · rw [List.getElem?_set_ne hSame] at hGet
    exact .inr ⟨Ne.symm hSame, hGet⟩

/- An entry of a list with one element added. -/
theorem getElem?_append_cases
    {α : Type}
    {l : List α}
    {j : Nat}
    {x y : α}
    (hGet : (l ++ [x])[j]? = some y) :
    (j = l.length ∧ y = x) ∨ l[j]? = some y := by
  by_cases hOld : j < l.length
  · rw [List.getElem?_append_left hOld] at hGet
    exact .inr hGet
  · rcases List.getElem?_eq_some_iff.mp hGet with ⟨hLt, hEq⟩
    have hLast : j = l.length := by
      rw [List.length_append, List.length_singleton] at hLt
      omega
    subst hLast
    rw [List.getElem_append_right (Nat.le_refl _)] at hEq
    simp at hEq
    exact .inl ⟨rfl, hEq.symm⟩

/- Another element of the list was there before. -/
theorem getElem?_of_set
    {α : Type}
    {l : List α}
    {i j : Nat}
    {x y : α}
    (hNe : y ≠ x)
    (hGet : (l.set i x)[j]? = some y) :
    l[j]? = some y := by
  rcases getElem?_set_cases hGet with ⟨_, hEq⟩ | ⟨_, hOld⟩
  · exact absurd hEq hNe
  · exact hOld

theorem getElem?_of_append
    {α : Type}
    {l : List α}
    {j : Nat}
    {x y : α}
    (hNe : y ≠ x)
    (hGet : (l ++ [x])[j]? = some y) :
    l[j]? = some y := by
  rcases getElem?_append_cases hGet with ⟨_, hEq⟩ | hOld
  · exact absurd hEq hNe
  · exact hOld

/- A step that gives no loop to a coroutine. -/
theorem holds_of_lists
    {s s' : State}
    (hHandlers :
      ∀ k b : Nat, s'.handlers[k]? = some (.loading b) →
        s.handlers[k]? = some (.loading b))
    (hTasks :
      ∀ t b : Nat, s'.tasks[t]? = some (.created (some b)) →
        s.tasks[t]? = some (.created (some b)))
    (hEntered : s'.entered = s.entered)
    (o : Holder)
    (b : Nat)
    (hHolds : Holds s' o b) :
    Holds s o b := by
  cases o with
  | handler k => exact hHandlers k b hHolds
  | task t =>
      rcases hHolds with hCreated | hMem
      · exact .inl (hTasks t b hCreated)
      · exact .inr (hEntered ▸ hMem)

end Lifecycle

------------------------------------------------------------
-- One Run per Process
------------------------------------------------------------

namespace Lifecycle

open Election Machine

/-
  Every open loop is the global one, and after a lost it is
  running.  A task in `run` has entered it.
-/
structure Single (s : State) : Prop where
  grounded : Grounded s
  opened :
    ∀ b, b < s.nextLoop →
      (s.loops b).matchEnded = false → s.gameLoop = some b
  idle :
    callback s.handlers.length = .elected →
      ∀ b, b < s.nextLoop →
        (s.loops b).matchEnded = false →
          (s.loops b).running = true
  inRun :
    ∀ t b, s.tasks[t]? = some (.inRun b) → (t, b) ∈ s.entered
  below : ∀ t b, (t, b) ∈ s.entered → b < s.nextLoop
  unique : Unique s

theorem single_start : Single State.start := by
  refine ⟨grounded_start, ?_, ?_, ?_, ?_, ?_⟩
  · intro b hBelow
    cases hBelow
  · intro _ b hBelow
    cases hBelow
  · intro t b hTask
    cases hTask
  · intro t b hMem
    cases hMem
  · rintro (k | t) o' b hFirst
    · cases hFirst
    · rcases hFirst with hCreated | hEntered
      · cases hCreated
      · cases hEntered

/- A loop with a holder exists. -/
theorem Single.lt_of_holds
    {s : State}
    (hSingle : Single s)
    {o : Holder}
    {b : Nat}
    (hHolds : Holds s o b) :
    b < s.nextLoop := by
  cases o with
  | handler k =>
      exact
        hSingle.grounded.handlers _
          (List.mem_of_getElem? hHolds)
  | task t =>
      rcases hHolds with hCreated | hEntered
      · exact
          hSingle.grounded.tasks _
            (List.mem_of_getElem? hCreated) b rfl
      · exact hSingle.below t b hEntered

/- With one holder for a loop there is one live run. -/
theorem Single.oneRun
    {s : State}
    (hSingle : Single s) :
    OneRun s := by
  have hTask :
      ∀ t t' b, (t, b) ∈ s.entered → (t', b) ∈ s.entered →
        t = t' := by
    intro t t' b hFirst hSecond
    have hSame :=
      hSingle.unique (.task t) (.task t') b (.inr hFirst)
        (.inr hSecond)
    cases hSame
    rfl
  have hGlobal :
      ∀ t b, Activation s t b → s.gameLoop = some b := by
    rintro t b ⟨_, hLive⟩
    refine hSingle.opened b ?_ hLive.2
    exact hSingle.grounded.lt_of_begun (.inl hLive.1)
  refine ⟨?_, hTask⟩
  intro t t' b b' hFirst hSecond
  have hLoop := hGlobal t b hFirst
  rw [hGlobal t' b' hSecond] at hLoop
  cases hLoop
  exact
    hTask t t' b (hSingle.inRun t b hFirst.1)
      (hSingle.inRun t' b hSecond.1)

/- A step that opens and runs no loop. -/
theorem Single.keep
    {s s' : State}
    (hSingle : Single s)
    (hGrounded : Grounded s')
    (hGlobal : s'.gameLoop = s.gameLoop)
    (hNext : s'.nextLoop = s.nextLoop)
    (hLoops :
      ∀ b, (s'.loops b).matchEnded = false →
        (s.loops b).matchEnded = false ∧
          (s'.loops b).running = (s.loops b).running)
    (hEntered : s'.entered = s.entered)
    (hInRun :
      ∀ t b : Nat, s'.tasks[t]? = some (.inRun b) →
        s.tasks[t]? = some (.inRun b))
    (hHandlers :
      callback s'.handlers.length = .elected →
        callback s.handlers.length = .elected)
    (hUnique : Unique s') :
    Single s' := by
  refine ⟨hGrounded, ?_, ?_, ?_, ?_, hUnique⟩
  · intro b hBelow hOpen
    rw [hGlobal]
    exact
      hSingle.opened b (hNext ▸ hBelow) (hLoops b hOpen).1
  · intro hElected b hBelow hOpen
    rw [(hLoops b hOpen).2]
    exact
      hSingle.idle (hHandlers hElected) b (hNext ▸ hBelow)
        (hLoops b hOpen).1
  · intro t b hTask
    rw [hEntered]
    exact hSingle.inRun t b (hInRun t b hTask)
  · intro t b hMem
    rw [hNext]
    exact hSingle.below t b (hEntered ▸ hMem)

/- Entering `run`, the task keeps the loop it was given. -/
theorem unique_enter
    {s s' : State}
    {t b : Nat}
    (hUnique : Unique s)
    (hTask : s.tasks[t]? = some (.created (some b)))
    (hHandlers : s'.handlers = s.handlers)
    (hTasks : s'.tasks = s.tasks.set t (.inRun b))
    (hEntered : s'.entered = s.entered ++ [(t, b)]) :
    Unique s' := by
  apply hUnique.of_imp
  rintro (k | t') b' hHolds
  · rw [Holds, hHandlers] at hHolds
    exact hHolds
  · rw [Holds, hTasks, hEntered] at hHolds
    rcases hHolds with hCreated | hMem
    · exact .inl (getElem?_of_set (by simp) hCreated)
    · rcases List.mem_append.mp hMem with hOld | hNew
      · exact .inr hOld
      · cases List.mem_singleton.mp hNew
        exact .inl hTask

/- The loop that a handler loaded goes to its task. -/
theorem unique_loaded
    {s s' : State}
    {k b : Nat}
    (hUnique : Unique s)
    (hHandler : s.handlers[k]? = some (.loading b))
    (hHandlers : s'.handlers = s.handlers.set k .completed)
    (hTasks : s'.tasks = s.tasks ++ [.created (some b)])
    (hEntered : s'.entered = s.entered) :
    Unique s' := by
  -- every other holder of this loop was the handler
  have hOther :
      ∀ o, Holds s o b → o = .handler k :=
    fun o hHolds => hUnique o (.handler k) b hHolds hHandler
  refine hUnique.of_new (.task s.tasks.length) b ?_ ?_
  · rintro (k' | t') b' hHolds hNe
    · rw [Holds, hHandlers] at hHolds
      exact getElem?_of_set (by simp) hHolds
    · rw [Holds, hTasks, hEntered] at hHolds
      rcases hHolds with hCreated | hMem
      · exact .inl (getElem?_of_append (by simp [hNe]) hCreated)
      · exact .inr hMem
  · rintro (k' | t') hHolds
    · rw [Holds, hHandlers] at hHolds
      rcases getElem?_set_cases hHolds with
        ⟨_, hEq⟩ | ⟨hNe, hOld⟩
      · cases hEq
      · cases hOther (.handler k') hOld
        exact absurd rfl hNe
    · rw [Holds, hTasks, hEntered] at hHolds
      rcases hHolds with hCreated | hMem
      · rcases getElem?_append_cases hCreated with
          ⟨hLast, _⟩ | hOld
        · rw [hLast]
        · cases hOther (.task t') (.inl hOld)
      · cases hOther (.task t') (.inr hMem)

/- A loop that did not exist gets its only holder. -/
theorem Single.unique_create
    {s s' : State}
    (hSingle : Single s)
    {o₁ : Holder}
    (hHolds :
      ∀ o b, Holds s' o b →
        Holds s o b ∨ (o = o₁ ∧ b = s.nextLoop)) :
    Unique s' := by
  refine hSingle.unique.of_new o₁ s.nextLoop ?_ ?_
  · intro o b hNew hNe
    rcases hHolds o b hNew with hOld | ⟨_, hSame⟩
    · exact hOld
    · exact absurd hSame hNe
  · intro o hNew
    rcases hHolds o _ hNew with hOld | ⟨hSame, _⟩
    · have hBelow := hSingle.lt_of_holds hOld
      omega
    · exact hSame

/- A task in `run` has entered it, also the one that enters. -/
theorem Single.inRun_enter
    {s : State}
    (hSingle : Single s)
    {t b t' b' : Nat}
    (hTask :
      (s.tasks.set t (.inRun b))[t']? = some (.inRun b')) :
    (t', b') ∈ s.entered ++ [(t, b)] := by
  rcases getElem?_set_cases hTask with
    ⟨rfl, hSame⟩ | ⟨_, hOld⟩
  · cases hSame
    exact List.mem_append_right _ (List.mem_singleton_self _)
  · exact List.mem_append_left _ (hSingle.inRun t' b' hOld)

/- A loop is created when no other one is open. -/
theorem Single.create
    {s s' : State}
    {loop : Loop}
    (hSingle : Single s)
    (o₁ : Holder)
    (hGrounded : Grounded s')
    (hShut :
      ∀ b, b < s.nextLoop → (s.loops b).matchEnded ≠ false)
    (hGlobal : s'.gameLoop = some s.nextLoop)
    (hNext : s'.nextLoop = s.nextLoop + 1)
    (hLoops :
      s'.loops = Function.update s.loops s.nextLoop loop)
    (hIdle :
      callback s'.handlers.length = .elected →
        loop.running = true)
    (hInRun :
      ∀ t b : Nat, s'.tasks[t]? = some (.inRun b) →
        (t, b) ∈ s'.entered)
    (hEntered :
      ∀ t b, (t, b) ∈ s'.entered →
        (t, b) ∈ s.entered ∨ b = s.nextLoop)
    (hHolds :
      ∀ o b, Holds s' o b →
        Holds s o b ∨ (o = o₁ ∧ b = s.nextLoop)) :
    Single s' := by
  have hOnly :
      ∀ b, b < s'.nextLoop →
        (s'.loops b).matchEnded = false → b = s.nextLoop := by
    intro b hBelow hOpen
    rw [hNext] at hBelow
    rw [hLoops] at hOpen
    rcases open_of_create hBelow hOpen with
      hSame | ⟨hOld, hStill⟩
    · exact hSame
    · exact absurd hStill (hShut b hOld)
  refine
    ⟨hGrounded, ?_, ?_, hInRun, ?_,
      hSingle.unique_create hHolds⟩
  · intro b hBelow hOpen
    rw [hGlobal, hOnly b hBelow hOpen]
  · intro hElected b hBelow hOpen
    rw [hOnly b hBelow hOpen, hLoops, Function.update_self]
    exact hIdle hElected
  · intro t b hMem
    rw [hNext]
    rcases hEntered t b hMem with hOld | rfl
    · exact Nat.lt_succ_of_lt (hSingle.below t b hOld)
    · exact Nat.lt_succ_self _

/- A task enters the `run` of the loop it was given. -/
theorem Single.enter
    {s : State}
    {t b : Nat}
    (hSingle : Single s)
    (hGrounded : Grounded (enterRun s t b))
    (hTask : s.tasks[t]? = some (.created (some b))) :
    Single (enterRun s t b) := by
  have hBelow : b < s.nextLoop :=
    hSingle.grounded.tasks _ (List.mem_of_getElem? hTask) b rfl
  refine
    ⟨hGrounded, ?_, ?_, fun _ _ => hSingle.inRun_enter, ?_,
      unique_enter hSingle.unique hTask rfl rfl rfl⟩
  · intro b' hLess hOpen
    exact hSingle.opened b' hLess (open_of_running hOpen)
  · intro hElected b' hLess hOpen
    have hOld :=
      hSingle.idle hElected b' hLess (open_of_running hOpen)
    show (Function.update s.loops b _ b').running = true
    by_cases hSame : b' = b
    · rw [hSame, Function.update_self]
    · rw [Function.update_of_ne hSame]
      exact hOld
  · intro t' b' hMem
    rcases List.mem_append.mp hMem with hOld | hNew
    · exact hSingle.below t' b' hOld
    · cases List.mem_singleton.mp hNew
      exact hBelow

/- The tasks and handlers that a quiet step leaves alone. -/
theorem Single.quiet
    {s s' : State}
    (hSingle : Single s)
    (hGrounded : Grounded s')
    (hGlobal : s'.gameLoop = s.gameLoop)
    (hLoops : s'.loops = s.loops)
    (hNext : s'.nextLoop = s.nextLoop)
    (hEntered : s'.entered = s.entered)
    (hTasks :
      ∀ (t b : Nat) (task : MatchTask),
        task = .inRun b ∨ task = .created (some b) →
          s'.tasks[t]? = some task → s.tasks[t]? = some task)
    (hHandlers :
      ∀ k b : Nat, s'.handlers[k]? = some (.loading b) →
        s.handlers[k]? = some (.loading b))
    (hNextCallback :
      callback s'.handlers.length = .elected →
        callback s.handlers.length = .elected) :
    Single s' := by
  refine
    hSingle.keep hGrounded hGlobal hNext ?_ hEntered
      (fun t b => hTasks t b _ (.inl rfl)) hNextCallback
      (hSingle.unique.of_imp
        (holds_of_lists hHandlers
          (fun t b => hTasks t b _ (.inr rfl)) hEntered))
  intro b hOpen
  rw [hLoops] at hOpen ⊢
  exact ⟨hOpen, rfl⟩

/- A task moves on without a loop to enter. -/
theorem Single.moveTask
    {s : State}
    {t : Nat}
    {new : MatchTask}
    (hSingle : Single s)
    (hGrounded : Grounded { s with tasks := s.tasks.set t new })
    (hNew : ∀ b, new ≠ .inRun b ∧ new ≠ .created (some b)) :
    Single { s with tasks := s.tasks.set t new } := by
  refine
    hSingle.quiet hGrounded rfl rfl rfl rfl ?_
      (fun _ _ => id) id
  rintro t' b task (rfl | rfl) hGet
  · exact getElem?_of_set (hNew b).1.symm hGet
  · exact getElem?_of_set (hNew b).2.symm hGet

/- A step after which no loop is open. -/
theorem Single.shut
    {s s' : State}
    (hSingle : Single s)
    (hGrounded : Grounded s')
    (hShut :
      ∀ b, b < s'.nextLoop →
        (s'.loops b).matchEnded ≠ false)
    (hNext : s'.nextLoop = s.nextLoop)
    (hEntered : s'.entered = s.entered)
    (hTasks : s'.tasks = s.tasks)
    (hHandlers :
      ∀ k b : Nat, s'.handlers[k]? = some (.loading b) →
        s.handlers[k]? = some (.loading b)) :
    Single s' := by
  refine ⟨hGrounded, ?_, ?_, ?_, ?_, ?_⟩
  · intro b hBelow hOpen
    exact absurd hOpen (hShut b hBelow)
  · intro _ b hBelow hOpen
    exact absurd hOpen (hShut b hBelow)
  · rw [hTasks, hEntered]
    exact hSingle.inRun
  · rw [hNext, hEntered]
    exact hSingle.below
  · refine
      hSingle.unique.of_imp
        (holds_of_lists hHandlers ?_ hEntered)
    intro t b hCreated
    rw [← hTasks]
    exact hCreated

/- A handler creates a loop: no open loop was running. -/
theorem Single.gained
    {s s' : State}
    (hSingle : Single s)
    (hNext : callback s.handlers.length = .elected)
    (hIdle : s.gameLoopRunning = false)
    (hNew :
      s' =
        { s with
          gameLoop := some s.nextLoop
          loops := Function.update s.loops s.nextLoop .new
          nextLoop := s.nextLoop + 1
          handlers := s.handlers ++ [.loading s.nextLoop] })
    (hGrounded : Grounded s') :
    Single s' := by
  subst hNew
  have hNone :
      ∀ b, b < s.nextLoop →
        (s.loops b).matchEnded ≠ false := by
    intro b hBelow hOpen
    have hRunning := hSingle.idle hNext b hBelow hOpen
    have hGlobal := hSingle.opened b hBelow hOpen
    rw [State.gameLoopRunning_eq hGlobal, hRunning] at hIdle
    cases hIdle
  refine
    hSingle.create (.handler s.handlers.length) hGrounded
      hNone rfl rfl rfl ?_ hSingle.inRun (fun _ _ => .inl) ?_
  · intro hElected
    rw [callback_append, hNext] at hElected
    cases hElected
  · rintro (k | t) b hHolds
    · rcases getElem?_append_cases hHolds with
        ⟨hLast, hSame⟩ | hOld
      · cases hSame
        exact .inr ⟨congrArg Holder.handler hLast, rfl⟩
      · exact .inl hOld
    · exact .inl hHolds

/- A handler starts the task of its own loop, or of none. -/
theorem Single.loaded
    {s s' : State}
    {k b : Nat}
    (hSingle : Single s)
    (hHandler : s.handlers[k]? = some (.loading b))
    (hHeld : s.gameLoop = none ∨ s.gameLoop = some b)
    (hNew :
      s' =
        { s with
          handlers := s.handlers.set k .completed
          tasks := s.tasks ++ [.created s.gameLoop] })
    (hGrounded : Grounded s') :
    Single s' := by
  subst hNew
  have hTasks :
      ∀ t b : Nat,
        (s.tasks ++ [.created s.gameLoop])[t]? =
            some (.inRun b) →
          s.tasks[t]? = some (.inRun b) :=
    fun _ _ => getElem?_of_append (by simp)
  refine
    hSingle.keep hGrounded rfl rfl (fun _ h => ⟨h, rfl⟩) rfl
      hTasks (by simp) ?_
  rcases hHeld with hNone | hGlobal
  · -- a task for no loop
    refine hSingle.unique.of_imp (holds_of_lists ?_ ?_ rfl)
    · exact fun _ _ => getElem?_of_set (by simp)
    · intro t b' hCreated
      exact getElem?_of_append (by simp [hNone]) hCreated
  · exact
      unique_loaded hSingle.unique hHandler rfl
        (by rw [hGlobal]) rfl

/- A task goes on to a loop of its own. -/
theorem Single.deleted
    {s s' : State}
    {t b : Nat}
    (hSingle : Single s)
    (hTask : s.tasks[t]? = some (.deleting b))
    (hHeld : s.gameLoop = none ∨ s.gameLoop = some b)
    (hNew :
      s' =
        { s with
          gameLoop := some s.nextLoop
          loops :=
            Function.update s.loops s.nextLoop ⟨true, false⟩
          nextLoop := s.nextLoop + 1
          tasks := s.tasks.set t (.inRun s.nextLoop)
          entered := s.entered ++ [(t, s.nextLoop)] })
    (hGrounded : Grounded s') :
    Single s' := by
  subst hNew
  have hEnded : (s.loops b).matchEnded = true :=
    hSingle.grounded.tasks _ (List.mem_of_getElem? hTask)
  -- the old loop was the only one that could be open
  have hShut :
      ∀ b', b' < s.nextLoop →
        (s.loops b').matchEnded ≠ false := by
    intro b' hBelow hOpen
    have hGlobal := hSingle.opened b' hBelow hOpen
    rcases hHeld with hNone | hOwn
    · rw [hNone] at hGlobal
      cases hGlobal
    · rw [hOwn] at hGlobal
      cases hGlobal
      rw [hEnded] at hOpen
      cases hOpen
  refine
    hSingle.create (.task t) hGrounded hShut rfl rfl rfl
      (fun _ => rfl) (fun _ _ => hSingle.inRun_enter) ?_ ?_
  · intro t' b' hMem
    rcases List.mem_append.mp hMem with hOld | hNew
    · exact .inl hOld
    · cases List.mem_singleton.mp hNew
      exact .inr rfl
  · rintro (k | t') b' hHolds
    · exact .inl hHolds
    · rcases hHolds with hCreated | hMem
      · exact .inl (.inl (getElem?_of_set (by simp) hCreated))
      · rcases List.mem_append.mp hMem with hOld | hNew
        · exact .inl (.inr hOld)
        · cases List.mem_singleton.mp hNew
          exact .inr ⟨rfl, rfl⟩

theorem single_step
    {s s' : State}
    {act : Act}
    (hSingle : Single s)
    (hOk : HeldOk s act)
    (hStep : step s act = some s') :
    Single s' := by
  have hGrounded := grounded_step hSingle.grounded hStep
  cases steps_of_step hStep with
  | win _ _ =>
      exact
        hSingle.quiet hGrounded rfl rfl rfl rfl
          (fun _ _ _ _ => id) (fun _ _ => id) id
  | lose _ _ =>
      exact
        hSingle.quiet hGrounded rfl rfl rfl rfl
          (fun _ _ _ _ => id) (fun _ _ => id) id
  | dispatch _ =>
      exact
        hSingle.quiet hGrounded rfl rfl rfl rfl
          (fun _ _ _ _ => id) (fun _ _ => id) id
  | keepRunning _ hNext _ =>
      exact
        hSingle.quiet hGrounded rfl rfl rfl rfl
          (fun _ _ _ _ => id)
          (fun _ _ => getElem?_of_append (by simp))
          (fun _ => hNext)
  | gained _ hNext hIdle =>
      exact hSingle.gained hNext hIdle rfl hGrounded
  | lostNone _ _ hGlobal =>
      refine
        hSingle.shut hGrounded ?_ rfl rfl rfl
          (fun _ _ => getElem?_of_append (by simp))
      intro b hBelow hOpen
      rw [hSingle.opened b hBelow hOpen] at hGlobal
      cases hGlobal
  | lost _ _ hGlobal =>
      refine
        hSingle.shut hGrounded ?_ rfl rfl rfl
          (fun _ _ => getElem?_of_append (by simp))
      intro b hBelow hOpen
      rcases open_of_ended hOpen with ⟨hNe, hStill⟩
      rw [hSingle.opened b hBelow hStill] at hGlobal
      cases hGlobal
      exact hNe rfl
  | loaded hHandler =>
      exact
        hSingle.loaded hHandler (hOk _ hHandler _ rfl) rfl
          hGrounded
  | loadFailed hHandler =>
      exact
        hSingle.quiet hGrounded rfl rfl rfl rfl
          (fun _ _ _ _ => id)
          (fun _ _ => getElem?_of_set (by simp))
          (by simp)
  | closed hHandler =>
      exact
        hSingle.quiet hGrounded rfl rfl rfl rfl
          (fun _ _ _ _ => id)
          (fun _ _ => getElem?_of_set (by simp))
          (by simp)
  | enter hTask => exact hSingle.enter hGrounded hTask
  | enterNone hTask =>
      exact hSingle.moveTask hGrounded (by simp)
  | @endMatch t b hTask hOpen =>
      refine
        hSingle.keep hGrounded rfl rfl ?_ rfl (fun _ _ => id)
          id (hSingle.unique.of_imp (fun _ _ => id))
      intro b' hStill
      rcases open_of_ended hStill with ⟨hNe, hOld⟩
      refine ⟨hOld, ?_⟩
      show (Function.update s.loops b _ b').running = _
      rw [Function.update_of_ne hNe]
  | reset hTask _ _ _ =>
      exact hSingle.moveTask hGrounded (by simp)
  | leave hTask _ _ =>
      exact hSingle.moveTask hGrounded (by simp)
  | deleted hTask =>
      exact
        hSingle.deleted hTask (hOk _ hTask _ rfl) rfl
          hGrounded
  | deleteFailed hTask =>
      exact hSingle.moveTask hGrounded (by simp)

/-
  In every run whose steps meet the condition, there is one
  live run at most, and no loop is run by two tasks.
-/
theorem one_run
    {s : State}
    (hRun : Reaches step HeldOk State.start s) :
    OneRun s := by
  have hSingle : Single s :=
    hRun.invariant single_start single_step
  exact hSingle.oneRun

/- A second match of the process, in its own loop. -/
def secondMatch : State :=
  final step State.start
    [.win, .dispatch, .start, .loaded 0, .enter 0,
      .endMatch 0, .leave 0, .deleted 0]
    (by decide)

theorem one_run_secondMatch :
    Activation secondMatch 0 1 ∧ OneRun secondMatch := by
  refine ⟨⟨by decide, by decide⟩, ?_⟩
  exact
    one_run
      (reaches_of_run (run_eq_final (by decide)) (by decide))

/-
  Leadership is lost and won again while the state is loaded:
  both handlers start the loop of the second one.
-/
def twiceElected : State :=
  final step State.start
    [.win, .dispatch, .start, .lose, .dispatch, .start,
      .win, .dispatch, .start, .loaded 0, .loaded 2,
      .enter 0, .enter 1]
    (by decide)

theorem two_runs :
    Reachable step State.start twiceElected ∧
      ¬ OneRun twiceElected := by
  refine ⟨reachable_of_run (run_eq_final (by decide)), ?_⟩
  intro hOne
  have hSame :=
    hOne.active 0 1 1 1 ⟨by decide, by decide⟩
      ⟨by decide, by decide⟩
  cases hSame

end Lifecycle
