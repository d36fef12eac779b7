import Mathlib.Data.List.Count
import MultiplayerInfra.Fleet.Moves

/-
  The work of a leadership: what can still lead to a tick.

  Key definitions include:
    * `Fleet.inTick`
    * `Fleet.Process.Stopped`
    * `Fleet.Process.Active`
    * `Fleet.Process.work`

  Key theorems include:
    * `Fleet.rests_of_awaits`
    * `Fleet.running_le_of_moves`
    * `Fleet.work_le_of_moves`

  Each election brings one item of work, and no step of a
  process makes two of one.
-/

------------------------------------------------------------
-- Items of Work
------------------------------------------------------------

namespace Fleet

open GameRoom

variable {α : Type}

/- The task awaits the publish or the Redis write of a tick. -/
def inTick : Await α → Bool
| .publishing _ _ _ => true
| .updatingRedis _ _ _ => true
| _ => false

namespace Process

/- The loop has ended, and the process has dropped it. -/
def Stopped (p : Process α) (b : Nat) : Prop :=
  p.gameLoop ≠ some b ∧
    (p.loops[b]?).any GameLoop.matchEnded = true

instance (p : Process α) (b : Nat) : Decidable (p.Stopped b) :=
  inferInstanceAs (Decidable (_ ∧ _))

/- The task is in a tick, or can come to one. -/
def Active (p : Process α) : MatchTask α → Prop
| .created _ => True
| .inRun b aw => inTick aw = true ∨ ¬ p.Stopped b
| .deleting _ _ => True
| .gone => False

instance
    (p : Process α) :
    (task : MatchTask α) → Decidable (p.Active task)
| .created _ => inferInstanceAs (Decidable True)
| .inRun b aw =>
    inferInstanceAs
      (Decidable (inTick aw = true ∨ ¬ p.Stopped b))
| .deleting _ _ => inferInstanceAs (Decidable True)
| .gone => inferInstanceAs (Decidable False)

/- The tasks that are active. -/
def running (p : Process α) : Nat :=
  p.tasks.countP (fun task => p.Active task)

/-
  The elections that are not answered, the loads under way
  and the active tasks.
-/
def work (p : Process α) : Nat :=
  p.elections + p.loading.length + p.running

end Process

theorem work_new :
    (Process.new : Process α).work = 0 := by
  rfl

end Fleet

------------------------------------------------------------
-- Counting in a List
------------------------------------------------------------

namespace Fleet

variable {τ : Type}
variable {p q : τ → Prop}
variable [DecidablePred p] [DecidablePred q]
variable {l : List τ}
variable {t : Nat}
variable {old new : τ}

theorem countP_set_le
    (hImp : ∀ x ∈ l, q x → p x)
    (hOld : l[t]? = some old)
    (hNew : q new → p old) :
    (l.set t new).countP (fun x => q x) ≤
      l.countP (fun x => p x) := by
  induction l generalizing t with
  | nil => cases hOld
  | cons head l ih =>
      have hTail : ∀ x ∈ l, q x → p x :=
        fun x hMem => hImp x (List.mem_cons_of_mem _ hMem)
      cases t with
      | zero =>
          cases hOld
          have hRest :
              l.countP (fun x => q x) ≤
                l.countP (fun x => p x) :=
            List.countP_mono_left (by simpa using hTail)
          rw [List.set_cons_zero, List.countP_cons,
            List.countP_cons]
          by_cases hq : q new
          · simp only [hq, hNew hq, decide_true, if_true]
            omega
          · simp only [hq, decide_false, Bool.false_eq_true,
              if_false]
            omega
      | succ t =>
          have hRest := ih hTail hOld
          rw [List.set_cons_succ, List.countP_cons,
            List.countP_cons]
          by_cases hq : q head
          · have hp := hImp head List.mem_cons_self hq
            simp only [hq, hp, decide_true, if_true]
            omega
          · simp only [hq, decide_false, Bool.false_eq_true,
              if_false]
            omega

omit [DecidablePred q] in
/- Besides the only one that counts, none is left. -/
theorem eq_of_mem_set
    (hImp : ∀ x ∈ l, q x → p x)
    (hOne : l.countP (fun x => p x) ≤ 1)
    (hOld : l[t]? = some old)
    (hCounts : p old)
    {x : τ}
    (hMem : x ∈ l.set t new)
    (hHolds : q x) :
    x = new := by
  induction l generalizing t with
  | nil => cases hOld
  | cons head l ih =>
      rw [List.countP_cons] at hOne
      cases t with
      | zero =>
          cases hOld
          rw [List.set_cons_zero] at hMem
          rcases List.mem_cons.mp hMem with hHead | hTail
          · exact hHead
          · have hp :=
              hImp x (List.mem_cons_of_mem _ hTail) hHolds
            have hPos : 0 < l.countP (fun x => p x) :=
              List.countP_pos_iff.mpr
                ⟨x, hTail, by simpa using hp⟩
            simp only [hCounts, decide_true, if_true] at hOne
            omega
      | succ t =>
          have hPos : 0 < l.countP (fun x => p x) :=
            List.countP_pos_iff.mpr
              ⟨old, List.mem_of_getElem? hOld,
                by simpa using hCounts⟩
          rw [List.set_cons_succ] at hMem
          rcases List.mem_cons.mp hMem with rfl | hTail
          · have hp := hImp x List.mem_cons_self hHolds
            simp only [hp, decide_true, if_true] at hOne
            omega
          · refine
              ih
                (fun y hIn =>
                  hImp y (List.mem_cons_of_mem _ hIn))
                (by omega) hOld hTail

end Fleet

------------------------------------------------------------
-- A Stopped Loop Rests
------------------------------------------------------------

namespace Fleet

open Py GameRoom

variable {α : Type}

/- What is stopped stays stopped. -/
def Calms (p q : Process α) : Prop :=
  ∀ b, p.Stopped b → q.Stopped b

theorem Calms.active
    {p q : Process α}
    (hCalms : Calms p q)
    {task : MatchTask α}
    (hActive : q.Active task) :
    p.Active task := by
  cases task with
  | created current => trivial
  | inRun b aw =>
      rcases hActive with hTick | hRuns
      · exact .inl hTick
      · exact .inr (fun hStopped => hRuns (hCalms b hStopped))
  | deleting b applied => trivial
  | gone => exact hActive

theorem lt_length_of_any
    {loops : List (GameLoop α)}
    {b : Nat}
    (hEnded :
      (loops[b]?).any GameLoop.matchEnded = true) :
    b < loops.length := by
  by_contra hBeyond
  rw [List.getElem?_eq_none (by omega)] at hEnded
  cases hEnded

theorem calms_of_keeps
    {p q : Process α}
    (hKeeps : Keeps p q) :
    Calms p q := by
  intro b hStopped
  refine ⟨?_, hKeeps.loops.any_matchEnded hStopped.2⟩
  rcases hKeeps.global with hSame | hNone
  · rw [hSame]
    exact hStopped.1
  · rw [hNone]
    intro hEq
    cases hEq

/- A loop is created as the global one. -/
theorem calms_of_create
    {p q : Process α}
    {g : GameLoop α}
    (hLoops : q.loops = p.loops ++ [g])
    (hGlobal : q.gameLoop = some p.loops.length) :
    Calms p q := by
  intro b hStopped
  have hBelow := lt_length_of_any hStopped.2
  refine ⟨?_, ?_⟩
  · rw [hGlobal]
    intro hEq
    cases hEq
    exact Nat.lt_irrefl _ hBelow
  · rw [hLoops, List.getElem?_append_left hBelow]
    exact hStopped.2

/- A loop is replaced by one that has ended if it had. -/
theorem calms_of_set
    {p q : Process α}
    {b : Nat}
    {g g' : GameLoop α}
    (hLoop : p.loops[b]? = some g)
    (hEnds : g.matchEnded = true → g'.matchEnded = true)
    (hLoops : q.loops = p.loops.set b g')
    (hGlobal : q.gameLoop = p.gameLoop) :
    Calms p q := by
  intro b' hStopped
  refine ⟨by rw [hGlobal]; exact hStopped.1, ?_⟩
  rw [hLoops]
  by_cases hSame : b = b'
  · subst hSame
    have hEnded := hStopped.2
    rw [hLoop] at hEnded
    have hBelow := (List.getElem?_eq_some_iff.mp hLoop).1
    rw [List.getElem?_set_self hBelow]
    exact hEnds hEnded
  · rw [List.getElem?_set_ne hSame]
    exact hStopped.2

variable [PyNumber α]

/- The loop head leaves an ended loop alone. -/
theorem loopHead_of_ended
    {g : GameLoop α}
    (hEnded : g.matchEnded = true) :
    loopHead g = (g, .returned) := by
  simp [loopHead, hEnded]

/- What a run task does to a loop that has ended. -/
structure Rests
    (st : Stores α)
    (g : GameLoop α)
    (aw : Await α)
    (r : Reply)
    (st' : Stores α)
    (g' : GameLoop α)
    (aw' : Await α) : Prop where
  tick : g'.state.tick = g.state.tick
  events : st'.events = st.events
  redis : st'.redis = st.redis
  note : noteOf aw r = none
  outside : inTick aw' = false

/- Outside a tick, an ended loop publishes nothing more. -/
theorem rests_of_awaits
    {producer : Nat}
    {st st' : Stores α}
    {g g' : GameLoop α}
    {aw aw' : Await α}
    {r : Reply}
    (hStep : Awaits producer st g aw r st' g' aw')
    (hEnded : g.matchEnded = true)
    (hOutside : inTick aw = false) :
    Rests st g aw r st' g' aw' := by
  cases hStep with
  | head hResumes =>
      rw [loopHead_of_ended hEnded]
      refine ⟨rfl, rfl, rfl, ?_, rfl⟩
      cases hResumes <;> rfl
  | appendEvent => cases hOutside
  | commit => cases hOutside
  | dropTick => cases hOutside
  | redisEffect => cases hOutside
  | redisNext _ => cases hOutside
  | redisDone _ => cases hOutside
  | redisFail => cases hOutside
  | farewell => exact ⟨rfl, rfl, rfl, rfl, rfl⟩
  | appendEnd => exact ⟨rfl, rfl, rfl, rfl, rfl⟩
  | endPublished => exact ⟨rfl, rfl, rfl, rfl, rfl⟩
  | endTelemetry =>
      refine ⟨rfl, rfl, rfl, rfl, ?_⟩
      unfold writeMatchRecord
      split <;> rfl
  | saveEffect =>
      exact
        ⟨rfl, Stores.events_saveMatch _ _,
          Stores.redis_saveMatch _ _, rfl, rfl⟩
  | saved => exact ⟨rfl, rfl, rfl, rfl, rfl⟩
  | saveFailed => exact ⟨rfl, rfl, rfl, rfl, rfl⟩
  | retry =>
      refine ⟨rfl, rfl, rfl, rfl, ?_⟩
      unfold retrySave
      split <;> rfl

/- A run task never starts an ended loop anew. -/
theorem ended_of_awaits
    {producer : Nat}
    {st st' : Stores α}
    {g g' : GameLoop α}
    {aw aw' : Await α}
    {r : Reply}
    (hStep : Awaits producer st g aw r st' g' aw')
    (hEnded : g.matchEnded = true) :
    g'.matchEnded = true := by
  cases hStep with
  | head _ =>
      rw [loopHead_of_ended hEnded]
      exact hEnded
  | redisDone _ =>
      unfold finishTick
      split
      · rfl
      · exact hEnded
  | _ => exact hEnded

end Fleet

------------------------------------------------------------
-- Steps Make No Work
------------------------------------------------------------

namespace Fleet

open Py GameRoom
open Election (Callback)

variable {α : Type}

/- The work of a process whose tasks stay what they are. -/
theorem running_le
    {p q : Process α}
    (hCalms : Calms p q)
    (hTasks : q.tasks = p.tasks) :
    q.running ≤ p.running := by
  unfold Process.running
  rw [hTasks]
  apply List.countP_mono_left
  intro task _ hActive
  simpa using hCalms.active (by simpa using hActive)

theorem running_set_le
    {p q : Process α}
    {t : Nat}
    {old new : MatchTask α}
    (hCalms : Calms p q)
    (hTasks : q.tasks = p.tasks.set t new)
    (hTask : p.tasks[t]? = some old)
    (hNew : q.Active new → p.Active old) :
    q.running ≤ p.running := by
  unfold Process.running
  rw [hTasks]
  exact
    countP_set_le (fun _ _ hActive => hCalms.active hActive)
      hTask hNew

/- A task is added. -/
theorem running_append_le
    {p q : Process α}
    {task : MatchTask α}
    (hCalms : Calms p q)
    (hTasks : q.tasks = p.tasks ++ [task]) :
    q.running ≤ p.running + 1 := by
  have hOld :
      p.tasks.countP (fun x => q.Active x) ≤
        p.tasks.countP (fun x => p.Active x) :=
    List.countP_mono_left (by
      intro x _ hActive
      simpa using hCalms.active (by simpa using hActive))
  have hLast :
      [task].countP (fun x => q.Active x) ≤ 1 :=
    List.countP_le_length
  unfold Process.running
  rw [hTasks, List.countP_append]
  omega

/- A task that is dropped, if there is one. -/
theorem running_drop_le
    (p : Process α)
    (t : Nat) :
    (p.setTask t .gone).running ≤ p.running := by
  cases hTask : p.tasks[t]? with
  | none =>
      have hSame : p.setTask t .gone = p := by
        rw [Process.setTask,
          List.set_eq_of_length_le
            (List.getElem?_eq_none_iff.mp hTask)]
      rw [hSame]
  | some old =>
      exact
        running_set_le (fun _ hStopped => hStopped) rfl hTask
          (fun hActive => absurd hActive id)

variable [PyNumber α]
variable {settings : Settings}
variable {matchId : String}
variable {room : Room.State α}
variable {p : Process α}
variable {act : ProcessAct α}
variable {out : Outcome α}

/- A run task that is not active does nothing to the tick. -/
theorem rests_of_not_active
    {b : Nat}
    {aw aw' : Await α}
    {r : Reply}
    {g g' : GameLoop α}
    {stores : Stores α}
    (hLoop : p.loops[b]? = some g)
    (hAwaits : Awaits b room.stores g aw r stores g' aw')
    (hRest : ¬ p.Active (.inRun b aw)) :
    Rests room.stores g aw r stores g' aw' := by
  simp only [Process.Active, not_or, Bool.not_eq_true,
    not_not] at hRest
  have hEnded := hRest.2.2
  rw [hLoop] at hEnded
  exact rests_of_awaits hAwaits hEnded hRest.1

/- A task whose loop comes to rest is not active. -/
theorem active_of_awaits
    {b : Nat}
    {aw aw' : Await α}
    {r : Reply}
    {g g' : GameLoop α}
    {stores : Stores α}
    {q : Process α}
    (hLoop : p.loops[b]? = some g)
    (hAwaits : Awaits b room.stores g aw r stores g' aw')
    (hCalms : Calms p q)
    (hActive : q.Active (.inRun b aw')) :
    p.Active (.inRun b aw) := by
  by_contra hRest
  have hRests := rests_of_not_active hLoop hAwaits hRest
  rcases hActive with hTick | hRuns
  · rw [hRests.outside] at hTick
    cases hTick
  · exact
      hRest (.inr (fun hStopped => hRuns (hCalms b hStopped)))

/- Nothing is started anew, unless the process is gone. -/
theorem calms_of_moves
    (hMoves : Moves settings matchId room p act out) :
    Calms p out.process ∨ out.process = Process.new := by
  cases hMoves with
  | win _ => exact .inl (fun _ hStopped => hStopped)
  | keep hKeeps => exact .inl (calms_of_keeps hKeeps)
  | gained _ => exact .inl (calms_of_create rfl rfl)
  | load _ hLoop hLoad =>
      have hEnds := matchEnded_loadState hLoad
      refine .inl (calms_of_set hLoop ?_ rfl rfl)
      rw [hEnds]
      exact id
  | drop => exact .inl (fun _ hStopped => hStopped)
  | enter _ hLoop =>
      exact
        .inl
          (calms_of_set hLoop (keptLoop_beginRun _).ended rfl
            rfl)
  | resume _ hLoop hAwaits =>
      exact
        .inl
          (calms_of_set hLoop (ended_of_awaits hAwaits) rfl
            rfl)
  | reset _ _ => exact .inl (fun _ hStopped => hStopped)
  | deleteKeys _ => exact .inl (fun _ hStopped => hStopped)
  | next _ => exact .inl (calms_of_create rfl rfl)
  | crash => exact .inr rfl

omit [PyNumber α] in
theorem work_le
    {q : Process α}
    (hElections : q.elections ≤ p.elections)
    (hLoading : q.loading.length ≤ p.loading.length)
    (hRunning : q.running ≤ p.running) :
    q.work ≤ p.work :=
  Nat.add_le_add (Nat.add_le_add hElections hLoading) hRunning

omit [PyNumber α] in
/- A callback that starts turns an election into a load. -/
theorem work_gained_le
    {q : Process α}
    {b : Nat}
    {pending : List Callback}
    (hPending : p.pending = .elected :: pending)
    (hElections :
      q.elections =
        (p.announced.toList ++ pending).count .elected)
    (hLoading : q.loading = p.loading ++ [b])
    (hRunning : q.running ≤ p.running) :
    q.work ≤ p.work := by
  have hOne :
      p.elections =
        (p.announced.toList ++ pending).count .elected +
          1 := by
    simp only [Process.elections, hPending,
      List.count_append, List.count_cons_self]
    omega
  have hMore : q.loading.length = p.loading.length + 1 := by
    rw [hLoading, List.length_append, List.length_singleton]
  unfold Process.work
  omega

omit [PyNumber α] in
/- A load that returns becomes a task. -/
theorem work_load_le
    {q : Process α}
    {k b : Nat}
    {task : MatchTask α}
    (hCalms : Calms p q)
    (hLoad : p.loading[k]? = some b)
    (hElections : q.elections = p.elections)
    (hLoading : q.loading = p.loading.eraseIdx k)
    (hTasks : q.tasks = p.tasks ++ [task]) :
    q.work ≤ p.work := by
  have hBelow := (List.getElem?_eq_some_iff.mp hLoad).1
  have hLess :
      q.loading.length = p.loading.length - 1 := by
    rw [hLoading, List.length_eraseIdx_of_lt hBelow]
  have hRunning := running_append_le hCalms hTasks
  unfold Process.work
  omega

omit [PyNumber α] in
/- A run task records no load. -/
theorem ne_loaded_of_noteOf
    (aw : Await α)
    (r : Reply)
    (complete : Bool) :
    noteOf aw r ≠ some (.loaded complete) := by
  intro hNote
  simp only [noteOf] at hNote
  split at hNote <;> cases hNote

/- Only a load that returns brings an active task. -/
theorem running_le_of_moves
    (hMoves : Moves settings matchId room p act out)
    (hLoad :
      ∀ complete, out.note ≠ some (.loaded complete)) :
    out.process.running ≤ p.running := by
  rcases calms_of_moves hMoves with hCalms | hNew
  · cases hMoves with
    | win _ => exact running_le hCalms rfl
    | keep hKeeps => exact running_le hCalms hKeeps.tasks
    | gained _ => exact running_le hCalms rfl
    | load _ _ _ => exact absurd rfl (hLoad _)
    | drop => exact running_drop_le p _
    | enter hTask _ =>
        exact running_set_le hCalms rfl hTask (fun _ => trivial)
    | resume hTask hLoop hAwaits =>
        exact
          running_set_le hCalms rfl hTask
            (active_of_awaits hLoop hAwaits hCalms)
    | reset hTask hGlobal =>
        refine running_set_le hCalms rfl hTask ?_
        intro _
        exact .inr (fun hStopped => hStopped.1 hGlobal)
    | deleteKeys hTask =>
        exact running_set_le hCalms rfl hTask (fun _ => trivial)
    | next hTask =>
        exact running_set_le hCalms rfl hTask (fun _ => trivial)
    | crash => exact Nat.zero_le _
  · rw [hNew]
    exact Nat.zero_le _

/- A load is recorded by its return, with one task more. -/
theorem act_of_loaded
    {complete : Bool}
    (hMoves : Moves settings matchId room p act out)
    (hNote : out.note = some (.loaded complete)) :
    (∃ k now checkpointRead schedule,
        act = .load k now checkpointRead schedule) ∧
      out.process.running ≤ p.running + 1 := by
  have hCalms := calms_of_moves hMoves
  cases hMoves with
  | load _ _ _ =>
      refine ⟨⟨_, _, _, _, rfl⟩, ?_⟩
      rcases hCalms with hCalms | hNew
      · exact running_append_le hCalms rfl
      · rw [hNew]
        exact Nat.zero_le _
  | @resume t b aw aw' r g g' stores _ _ _ =>
      exact absurd hNote (ne_loaded_of_noteOf aw r complete)
  | _ => cases hNote

/- Only an election brings work. -/
theorem work_le_of_moves
    (hMoves : Moves settings matchId room p act out)
    (hNote : out.note ≠ some .won) :
    out.process.work ≤ p.work := by
  rcases calms_of_moves hMoves with hCalms | hNew
  · have hRunning := running_le_of_moves hMoves
    cases hMoves with
    | win _ => exact absurd rfl hNote
    | keep hKeeps =>
        exact
          work_le hKeeps.elections hKeeps.loading.length_le
            (hRunning (fun _ hNote => by cases hNote))
    | gained hPending =>
        exact
          work_gained_le hPending rfl rfl
            (hRunning (fun _ hNote => by cases hNote))
    | load hLoading _ _ =>
        exact work_load_le hCalms hLoading rfl rfl rfl
    | @resume t b aw aw' r g g' stores _ _ _ =>
        refine
          work_le (Nat.le_refl _) (Nat.le_refl _)
            (hRunning ?_)
        exact ne_loaded_of_noteOf aw r
    | crash => exact Nat.zero_le _
    | _ =>
        exact
          work_le (Nat.le_refl _) (Nat.le_refl _)
            (hRunning (fun _ hNote => by cases hNote))
  · rw [hNew, work_new]
    exact Nat.zero_le _

end Fleet
