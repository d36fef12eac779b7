import MultiplayerInfra.Fleet.Work

/-
  The ticks that a process stores, when no other one has an
  active task.

  Key definitions include:
    * `Fleet.levelAfter`
    * `Fleet.StoresPaced`
    * `Fleet.AwaitPaced`
    * `Fleet.TaskPaced`
    * `Fleet.Paced`

  Key theorems include:
    * `Fleet.paced_awaits`
    * `Fleet.le_tick_of_load`
    * `Fleet.paced_moves`

  The level is the highest tick stored since the keys of the
  room were deleted last.
-/

------------------------------------------------------------
-- Levels
------------------------------------------------------------

namespace Fleet

open Py GameRoom

/- The level after a step. -/
def levelAfter (n : Nat) : Option Note → Nat
| some (.wrote (some m)) => max n m
| some .cleared => 0
| _ => n

/- The tick that a step stores. -/
def storedTick : Option Note → Option Nat
| some (.wrote m) => m
| _ => none

variable {α : Type}

/-
  The state in Redis has reached the level, and so has an
  event of the log.
-/
structure StoresPaced (st : Stores α) (n : Nat) : Prop where
  redis :
    ∀ data, st.redis.state = some data →
      n ≤ data.tickOrZero
  logged :
    n = 0 ∨
      ∃ e ∈ st.events.map LogEntry.event, n ≤ e.tickOrZero
  full : ∀ e ∈ st.events.map LogEntry.event, e.Full

/- What a run task is about to publish or to write. -/
def AwaitPaced
    (st : Stores α)
    (g : GameLoop α) : Await α → Prop
| .publishing _ event kept =>
    event.Full ∧ event.tickOrZero = g.state.tick + 1 ∧
      (kept.isSome = true →
        event ∈ st.events.map LogEntry.event)
| .updatingRedis _ (.setState data) _ =>
    data.tickOrZero = g.state.tick ∧
      ∃ e ∈ st.events.map LogEntry.event,
        data.tickOrZero ≤ e.tickOrZero
| _ => True

/- The loop of an active task has reached the level. -/
def TaskPaced
    (st : Stores α)
    (n : Nat)
    (p : Process α) : MatchTask α → Prop
| .created none => True
| .created (some b) =>
    ∃ g, p.loops[b]? = some g ∧ n ≤ g.state.tick
| .inRun b aw =>
    ∃ g, p.loops[b]? = some g ∧ n ≤ g.state.tick ∧
      AwaitPaced st g aw
| .deleting _ applied => applied = true → n = 0
| .gone => True

/-
  A load that returns finds no active task in its process,
  its own loop as the global one, unless that was dropped,
  and the state in Redis or the log up to its end.
-/
def Process.LoadsAlone
    (room : Room.State α)
    (p : Process α) : ProcessAct α → Prop
| .load k _ _ schedule =>
    p.running = 0 ∧
      (∀ b ∈ p.loading[k]?,
        p.gameLoop = some b ∨ p.gameLoop = none) ∧
        completeLoad room schedule = true
| _ => True

/- The active tasks of a process have. -/
def Paced
    (st : Stores α)
    (n : Nat)
    (p : Process α) : Prop :=
  ∀ task ∈ p.tasks, p.Active task → TaskPaced st n p task

end Fleet

------------------------------------------------------------
-- Idle and Busy Processes
------------------------------------------------------------

namespace Fleet

open GameRoom

variable {α : Type}
variable {p : Process α}

theorem not_active_of_running
    (hNone : p.running = 0) :
    ∀ task ∈ p.tasks, ¬ p.Active task := by
  intro task hMem hActive
  exact
    List.countP_eq_zero.mp hNone task hMem
      (by simpa using hActive)

theorem running_le_work : p.running ≤ p.work :=
  Nat.le_add_left _ _

/- A process without active tasks is paced by any level. -/
theorem paced_of_idle
    (st : Stores α)
    (n : Nat)
    (hIdle : p.running = 0) :
    Paced st n p := by
  intro task hMem hActive
  exact
    absurd hActive (not_active_of_running hIdle task hMem)

/- Only one task is active. -/
theorem paced_of_one
    {st : Stores α}
    {n : Nat}
    {q : Process α}
    {new : MatchTask α}
    (hTasks : ∀ x ∈ q.tasks, q.Active x → x = new)
    (hNew : q.Active new → TaskPaced st n q new) :
    Paced st n q := by
  intro task hMem hActive
  have hEq := hTasks task hMem hActive
  rw [hEq] at hActive ⊢
  exact hNew hActive

/- After a step of the only active task there is no other. -/
theorem eq_of_active
    {t : Nat}
    {q : Process α}
    {old new : MatchTask α}
    (hOne : p.running ≤ 1)
    (hTask : p.tasks[t]? = some old)
    (hActive : p.Active old)
    (hCalms : Calms p q)
    (hTasks : q.tasks = p.tasks.set t new) :
    ∀ x ∈ q.tasks, q.Active x → x = new := by
  intro x hMem hHolds
  rw [hTasks] at hMem
  exact
    eq_of_mem_set (fun _ _ hActive => hCalms.active hActive)
      hOne hTask hActive hMem hHolds

/- The loop has the tick of a loop that was paced. -/
theorem AwaitPaced.of_tick
    {st st' : Stores α}
    {g g' : GameLoop α}
    {aw : Await α}
    (hPaced : AwaitPaced st g aw)
    (hTick : g'.state.tick = g.state.tick)
    (hLog :
      st.events.map LogEntry.event ⊆
        st'.events.map LogEntry.event) :
    AwaitPaced st' g' aw := by
  cases aw with
  | publishing next event kept =>
      rcases hPaced with ⟨hFull, hNext, hKept⟩
      refine ⟨hFull, by rw [hTick]; exact hNext, ?_⟩
      intro hSome
      exact hLog (hKept hSome)
  | updatingRedis tick cmd applied =>
      cases cmd with
      | setState data =>
          rcases hPaced with ⟨hSame, e, hMem, hLe⟩
          exact ⟨by rw [hTick]; exact hSame, e, hLog hMem, hLe⟩
      | _ => trivial
  | _ => trivial

/- Every loop is still there, with its tick. -/
def SameTicks (p q : Process α) : Prop :=
  ∀ (b : Nat) (g : GameLoop α),
    p.loops[b]? = some g →
      ∃ g',
        q.loops[b]? = some g' ∧ g'.state.tick = g.state.tick

theorem sameTicks_of_kept
    {q : Process α}
    (hLoops : Kept p.loops q.loops) :
    SameTicks p q := by
  intro b g hLoop
  rcases hLoops.getElem? hLoop with ⟨g', hNow, hKept⟩
  exact ⟨g', hNow, hKept.tick⟩

theorem sameTicks_of_create
    {q : Process α}
    {new : GameLoop α}
    (hLoops : q.loops = p.loops ++ [new]) :
    SameTicks p q := by
  intro b g hLoop
  have hBelow := (List.getElem?_eq_some_iff.mp hLoop).1
  refine ⟨g, ?_, rfl⟩
  rw [hLoops, List.getElem?_append_left hBelow]
  exact hLoop

theorem TaskPaced.of_sameTicks
    {st st' : Stores α}
    {n : Nat}
    {q : Process α}
    {task : MatchTask α}
    (hPaced : TaskPaced st n p task)
    (hTicks : SameTicks p q)
    (hLog :
      st.events.map LogEntry.event ⊆
        st'.events.map LogEntry.event) :
    TaskPaced st' n q task := by
  cases task with
  | created current =>
      cases current with
      | none => trivial
      | some b =>
          rcases hPaced with ⟨g, hOld, hLevel⟩
          rcases hTicks b g hOld with ⟨g', hLoop, hTick⟩
          exact ⟨g', hLoop, by rw [hTick]; exact hLevel⟩
  | inRun b aw =>
      rcases hPaced with ⟨g, hOld, hLevel, hAwait⟩
      rcases hTicks b g hOld with ⟨g', hLoop, hTick⟩
      exact
        ⟨g', hLoop, by rw [hTick]; exact hLevel,
          hAwait.of_tick hTick hLog⟩
  | deleting b applied => exact hPaced
  | gone => trivial

/- A process whose tasks and loops stay as they are. -/
theorem paced_of_sameTicks
    {st st' : Stores α}
    {n : Nat}
    {q : Process α}
    (hPaced : Paced st n p)
    (hCalms : Calms p q)
    (hTicks : SameTicks p q)
    (hTasks : q.tasks = p.tasks)
    (hLog :
      st.events.map LogEntry.event ⊆
        st'.events.map LogEntry.event) :
    Paced st' n q := by
  intro task hMem hActive
  rw [hTasks] at hMem
  exact
    (hPaced task hMem (hCalms.active hActive)).of_sameTicks
      hTicks hLog

end Fleet

------------------------------------------------------------
-- One Step of the Run Task
------------------------------------------------------------

namespace Fleet

open Py GameRoom

variable {α : Type} [PyNumber α]

/- What a step of an active run task preserves. -/
structure RunPaced
    (st : Stores α)
    (n : Nat)
    (g : GameLoop α)
    (aw : Await α) : Prop where
  stores : StoresPaced st n
  level : n ≤ g.state.tick
  await : AwaitPaced st g aw

omit [PyNumber α] in
/- Neither the log nor the state in Redis changes. -/
theorem StoresPaced.of_same
    {st st' : Stores α}
    {n : Nat}
    (hStores : StoresPaced st n)
    (hRedis : st'.redis.state = st.redis.state)
    (hLog :
      st'.events.map LogEntry.event =
        st.events.map LogEntry.event) :
    StoresPaced st' n := by
  refine ⟨?_, ?_, ?_⟩
  · rw [hRedis]
    exact hStores.redis
  · rw [hLog]
    exact hStores.logged
  · rw [hLog]
    exact hStores.full

theorem awaitPaced_loopHead
    (st : Stores α)
    (g : GameLoop α) :
    (loopHead g).1.state.tick = g.state.tick ∧
      AwaitPaced st (loopHead g).1 (loopHead g).2 := by
  rcases hHead : loopHead g with ⟨g', aw⟩
  cases heads_loopHead hHead with
  | publish _ hBegin =>
      have hNext := isTick_of_beginTick hBegin
      rcases frame_beginTick hBegin with ⟨hState, _⟩
      refine ⟨by rw [hState], ⟨_, hNext.players⟩, ?_, ?_⟩
      · rw [hNext.tickOrZero, hState]
      · intro hKept
        cases hKept
  | pause _ hBegin =>
      rcases frame_beginTick hBegin with ⟨hState, _⟩
      exact ⟨by rw [hState], trivial⟩
  | finish _ => exact ⟨rfl, trivial⟩

omit [PyNumber α] in
/- The later Redis commands carry no state. -/
theorem awaitPaced_nextRedisCmd
    (st : Stores α)
    (g : GameLoop α)
    {cmd cmd' : RedisCmd α}
    (hNext : nextRedisCmd g cmd = some cmd')
    (tick : Nat)
    (applied : Bool) :
    AwaitPaced st g (.updatingRedis tick cmd' applied) := by
  cases cmd' with
  | setState data =>
      exact absurd rfl (ne_setState_of_nextRedisCmd hNext data)
  | _ => trivial

omit [PyNumber α] in
/- A step that is not recorded and stores nothing. -/
theorem RunPaced.quiet
    {n : Nat}
    {st st' : Stores α}
    {g g' : GameLoop α}
    {aw aw' : Await α}
    {note : Option Note}
    (hRun : RunPaced st n g aw)
    (hNote : note = none)
    (hRedis : st'.redis.state = st.redis.state)
    (hLog :
      st'.events.map LogEntry.event =
        st.events.map LogEntry.event)
    (hTick : g'.state.tick = g.state.tick)
    (hAwait : AwaitPaced st' g' aw') :
    RunPaced st' (levelAfter n note) g' aw' ∧
      ∀ m, storedTick note = some m → n ≤ m := by
  subst hNote
  refine
    ⟨⟨hRun.stores.of_same hRedis hLog, ?_, hAwait⟩, ?_⟩
  · rw [hTick]
    exact hRun.level
  · intro m hStored
    cases hStored

omit [PyNumber α] in
/- A command of `_update_redis` raises the level to its tick. -/
theorem paced_redisEffect
    {n tick : Nat}
    {st : Stores α}
    {g : GameLoop α}
    {cmd : RedisCmd α}
    (hRun : RunPaced st n g (.updatingRedis tick cmd false)) :
    RunPaced (st.runRedis cmd)
        (levelAfter n (some (.wrote (tickOf cmd)))) g
        (.updatingRedis tick cmd true) ∧
      ∀ m, tickOf cmd = some m → n ≤ m := by
  have hLevel := hRun.level
  cases cmd with
  | setState data =>
      rcases hRun.await with ⟨hSame, e, hMem, hLe⟩
      have hAfter :
          levelAfter n
              (some (.wrote (tickOf (.setState data)))) =
            data.tickOrZero := by
        change max n data.tickOrZero = data.tickOrZero
        omega
      rw [hAfter]
      refine ⟨⟨⟨?_, ?_, hRun.stores.full⟩, ?_, ?_⟩, ?_⟩
      · intro data' hData
        cases hData
        exact Nat.le_refl _
      · exact .inr ⟨e, hMem, hLe⟩
      · exact Nat.le_of_eq hSame
      · exact ⟨hSame, e, hMem, hLe⟩
      · intro m hStored
        cases hStored
        omega
  | setOffset value =>
      exact
        ⟨⟨hRun.stores.of_same rfl rfl, hLevel, trivial⟩,
          fun _ hStored => by cases hStored⟩
  | saddPlayers members =>
      exact
        ⟨⟨hRun.stores.of_same rfl rfl, hLevel, trivial⟩,
          fun _ hStored => by cases hStored⟩
  | expire key =>
      exact
        ⟨⟨hRun.stores.of_same rfl rfl, hLevel, trivial⟩,
          fun _ hStored => by cases hStored⟩

omit [PyNumber α] in
/- The broker keeps the event of a tick. -/
theorem paced_appendEvent
    {n : Nat}
    {producer : Nat}
    {st : Stores α}
    {g : GameLoop α}
    {next : Players α}
    {event : StateJson α}
    (hRun : RunPaced st n g (.publishing next event none)) :
    RunPaced (st.appendEvent producer event) n g
      (.publishing next event (some st.events.length)) := by
  rcases hRun.await with ⟨hFull, hNext, _⟩
  have hLog :
      (st.appendEvent producer event).events.map
          LogEntry.event =
        st.events.map LogEntry.event ++ [event] := by
    simp
  refine ⟨⟨hRun.stores.redis, ?_, ?_⟩, hRun.level, hFull,
    hNext, ?_⟩
  · rw [hLog]
    rcases hRun.stores.logged with hZero | ⟨e, hMem, hLe⟩
    · exact .inl hZero
    · exact .inr ⟨e, List.mem_append_left _ hMem, hLe⟩
  · rw [hLog]
    intro e hMem
    rcases List.mem_append.mp hMem with hOld | hNew
    · exact hRun.stores.full e hOld
    · rw [List.mem_singleton.mp hNew]
      exact hFull
  · intro _
    rw [hLog]
    exact
      List.mem_append_right _ (List.mem_singleton_self event)

omit [PyNumber α] in
/- The acknowledged tick is the one that is written next. -/
theorem paced_commit
    {n offset : Nat}
    {st : Stores α}
    {g : GameLoop α}
    {next : Players α}
    {event : StateJson α}
    (hRun :
      RunPaced st n g
        (.publishing next event (some offset))) :
    RunPaced (st.ackEvent offset) n
      (g.commitTick next event offset)
      (.updatingRedis event.tickOrZero
        (.setState
          (g.commitTick next event offset).state.toDict)
        false) := by
  rcases hRun.await with ⟨_, hNext, hKept⟩
  have hLog := st.map_event_ackEvent offset
  have hLevel := hRun.level
  refine
    ⟨hRun.stores.of_same rfl hLog, ?_, rfl, event, ?_, ?_⟩
  · rw [GameLoop.tick_commitTick]
    omega
  · rw [hLog]
    exact hKept rfl
  · exact Nat.le_refl _

/-
  A tick is published past the level, and its Redis write
  raises the level to it.
-/
theorem paced_awaits
    {producer n : Nat}
    {st st' : Stores α}
    {g g' : GameLoop α}
    {aw aw' : Await α}
    {r : Reply}
    (hStep : Awaits producer st g aw r st' g' aw')
    (hRun : RunPaced st n g aw) :
    RunPaced st' (levelAfter n (noteOf aw r)) g' aw' ∧
      ∀ m, storedTick (noteOf aw r) = some m → n ≤ m := by
  cases hStep with
  | head hResumes =>
      rcases awaitPaced_loopHead st g with ⟨hTick, hAwait⟩
      refine hRun.quiet ?_ rfl rfl hTick hAwait
      cases hResumes <;> rfl
  | appendEvent =>
      exact
        ⟨paced_appendEvent hRun,
          fun _ hStored => by cases hStored⟩
  | commit =>
      exact
        ⟨paced_commit hRun, fun _ hStored => by cases hStored⟩
  | @dropTick next event kept now =>
      refine hRun.quiet ?_ rfl rfl rfl trivial
      cases kept <;> rfl
  | redisEffect => exact paced_redisEffect hRun
  | @redisNext tick cmd cmd' now hNext =>
      exact
        hRun.quiet rfl rfl rfl rfl
          (awaitPaced_nextRedisCmd st g hNext tick false)
  | redisDone _ =>
      refine hRun.quiet rfl rfl rfl ?_ ?_
      · unfold finishTick
        split <;> rfl
      · unfold finishTick
        split <;> trivial
  | @redisFail tick cmd applied now =>
      refine hRun.quiet ?_ rfl rfl rfl trivial
      cases applied <;> rfl
  | farewell => exact hRun.quiet rfl rfl rfl rfl trivial
  | appendEnd => exact hRun.quiet rfl rfl rfl rfl trivial
  | @endPublished event kept r =>
      refine hRun.quiet ?_ rfl rfl rfl trivial
      cases r <;> rfl
  | @endTelemetry outcome r now =>
      refine hRun.quiet ?_ rfl rfl rfl ?_
      · cases r <;> rfl
      · unfold writeMatchRecord
        split <;> trivial
  | saveEffect =>
      refine hRun.quiet rfl ?_ ?_ rfl trivial
      · rw [Stores.redis_saveMatch]
      · rw [Stores.events_saveMatch]
  | saved => exact hRun.quiet rfl rfl rfl rfl trivial
  | saveFailed => exact hRun.quiet rfl rfl rfl rfl trivial
  | retry =>
      refine hRun.quiet rfl rfl rfl rfl ?_
      unfold retrySave
      split <;> trivial

end Fleet

------------------------------------------------------------
-- One Step of a Process
------------------------------------------------------------

namespace Fleet

open Py GameRoom
open Election (Callback)

variable {α : Type} [PyNumber α]
variable {settings : Settings}
variable {matchId : String}
variable {room : Room.State α}
variable {n : Nat}
variable {p : Process α}
variable {act : ProcessAct α}
variable {out : Outcome α}

/- What is loaded has reached the level. -/
theorem le_tick_of_load
    {now : Timestamp}
    {checkpointRead : Bool}
    {schedule : List (Option Nat)}
    {g g' : GameLoop α}
    (hStores : StoresPaced room.stores n)
    (hOrigin :
      Replay.FromLog room.log room.service room.checkpoints)
    (hComplete : completeLoad room schedule = true)
    (hLoad :
      loadState g
        (room.replies now checkpointRead schedule) =
          some g') :
    n ≤ g'.state.tick := by
  by_cases hWarm : room.warm = true
  · rcases Room.state_of_warm hWarm hLoad with
      ⟨data, hData, hRead⟩
    rw [(GameState.fromDict_spec hRead).2.1]
    exact hStores.redis data hData
  · have hCold : room.warm = false := by
      simpa using hWarm
    have hLong : room.longEnough schedule := by
      simpa [completeLoad, hCold] using hComplete
    rcases hStores.logged with hZero | ⟨e, hMem, hLe⟩
    · rw [hZero]
      exact Nat.zero_le _
    · have hReached :=
        Room.le_tick_of_cold hOrigin hStores.full hCold hLong
          hLoad hMem
      omega

/- A process, and the stores after one of its steps. -/
structure StepPaced
    (n : Nat)
    (out : Outcome α) : Prop where
  process :
    Paced out.stores (levelAfter n out.note) out.process
  stores : StoresPaced out.stores (levelAfter n out.note)
  above : ∀ m, storedTick out.note = some m → n ≤ m

omit [PyNumber α] in
/- A step that leaves the stores and the level alone. -/
theorem stepPaced_alone
    {st : Stores α}
    {q : Process α}
    {note : Option Note}
    (hStores : StoresPaced st n)
    (hPaced : Paced st n q)
    (hLevel : levelAfter n note = n)
    (hNone : storedTick note = none) :
    StepPaced n ⟨q, st, note⟩ := by
  refine ⟨?_, ?_, ?_⟩
  · rw [hLevel]
    exact hPaced
  · rw [hLevel]
    exact hStores
  · intro m hStored
    rw [hNone] at hStored
    cases hStored

omit [PyNumber α] in
/- A load that returns leaves its task as the only one. -/
theorem paced_load
    {k b : Nat}
    {g' : GameLoop α}
    (hNone : p.running = 0)
    (hGlobal : p.gameLoop = some b ∨ p.gameLoop = none)
    (hBelow : b < p.loops.length)
    (hLevel : n ≤ g'.state.tick)
    (hCalms :
      Calms p
        { p with
          loading := p.loading.eraseIdx k
          loops := p.loops.set b g'
          tasks := p.tasks ++ [.created p.gameLoop] }) :
    Paced room.stores n
      { p with
        loading := p.loading.eraseIdx k
        loops := p.loops.set b g'
        tasks := p.tasks ++ [.created p.gameLoop] } := by
  have hTasks :
      ∀ x ∈ p.tasks ++ [.created p.gameLoop],
        Process.Active
            { p with
              loading := p.loading.eraseIdx k
              loops := p.loops.set b g'
              tasks := p.tasks ++ [.created p.gameLoop] } x →
          x = .created p.gameLoop := by
    intro x hMem hActive
    rcases List.mem_append.mp hMem with hOld | hNew
    · exact
        absurd (hCalms.active hActive)
          (not_active_of_running hNone x hOld)
    · exact List.mem_singleton.mp hNew
  refine paced_of_one hTasks ?_
  intro _
  rcases hGlobal with hOwn | hDropped
  · rw [hOwn]
    exact ⟨g', List.getElem?_set_self hBelow, hLevel⟩
  · rw [hDropped]
    trivial

/- A run task that rests leaves everything as it was. -/
theorem paced_rest
    {t b : Nat}
    {aw aw' : Await α}
    {r : Reply}
    {g g' : GameLoop α}
    {stores : Stores α}
    (hStores : StoresPaced room.stores n)
    (hPaced : Paced room.stores n p)
    (hLoop : p.loops[b]? = some g)
    (hAwaits : Awaits b room.stores g aw r stores g' aw')
    (hRest : ¬ p.Active (.inRun b aw)) :
    StepPaced n
      ⟨{ p.setTask t (.inRun b aw') with
          loops := p.loops.set b g' },
        stores, noteOf aw r⟩ := by
  have hEnds := ended_of_awaits hAwaits
  have hCalms :
      Calms p
        { p.setTask t (.inRun b aw') with
          loops := p.loops.set b g' } :=
    calms_of_set hLoop hEnds rfl rfl
  have hNew :=
    mt (active_of_awaits hLoop hAwaits hCalms) hRest
  have hRests := rests_of_not_active hLoop hAwaits hRest
  have hLog :
      stores.events.map LogEntry.event =
        room.stores.events.map LogEntry.event := by
    rw [hRests.events]
  rw [hRests.note]
  refine
    stepPaced_alone
      (hStores.of_same (by rw [hRests.redis]) hLog) ?_ rfl rfl
  intro task hMem hActive
  rcases List.mem_or_eq_of_mem_set hMem with hOld | hSame
  · have hTicks :
        SameTicks p
          { p.setTask t (.inRun b aw') with
            loops := p.loops.set b g' } :=
      sameTicks_of_kept
        (kept_set hLoop ⟨hRests.tick, hEnds⟩)
    refine
      (hPaced task hOld (hCalms.active hActive)).of_sameTicks
        hTicks ?_
    rw [hLog]
    exact List.Subset.refl _
  · rw [hSame] at hActive
    exact absurd hActive hNew

/- A run task that is the only active one of the process. -/
theorem paced_resume
    {t b : Nat}
    {aw aw' : Await α}
    {r : Reply}
    {g g' : GameLoop α}
    {stores : Stores α}
    (hOne : p.running ≤ 1)
    (hStores : StoresPaced room.stores n)
    (hPaced : Paced room.stores n p)
    (hTask : p.tasks[t]? = some (.inRun b aw))
    (hLoop : p.loops[b]? = some g)
    (hAwaits : Awaits b room.stores g aw r stores g' aw')
    (hActive : p.Active (.inRun b aw)) :
    StepPaced n
      ⟨{ p.setTask t (.inRun b aw') with
          loops := p.loops.set b g' },
        stores, noteOf aw r⟩ := by
  have hBelow := (List.getElem?_eq_some_iff.mp hLoop).1
  rcases
      hPaced _ (List.mem_of_getElem? hTask) hActive with
    ⟨g₀, hSame, hLevel, hAwait⟩
  rw [hLoop] at hSame
  cases hSame
  rcases paced_awaits hAwaits ⟨hStores, hLevel, hAwait⟩ with
    ⟨hRun, hAbove⟩
  refine ⟨?_, hRun.stores, hAbove⟩
  refine
    paced_of_one
      (eq_of_active hOne hTask hActive
        (calms_of_set hLoop (ended_of_awaits hAwaits) rfl rfl)
        rfl)
      ?_
  intro _
  exact
    ⟨g', List.getElem?_set_self hBelow, hRun.level, hRun.await⟩

omit [PyNumber α] in
/- The task enters `run` with the tick of its loop. -/
theorem paced_enter
    {t b : Nat}
    {g : GameLoop α}
    (hOne : p.running ≤ 1)
    (hPaced : Paced room.stores n p)
    (hTask : p.tasks[t]? = some (.created (some b)))
    (hLoop : p.loops[b]? = some g) :
    Paced room.stores n
      { p.setTask t (.inRun b .starting) with
        loops := p.loops.set b (beginRun g).1 } := by
  have hBelow := (List.getElem?_eq_some_iff.mp hLoop).1
  rcases hPaced _ (List.mem_of_getElem? hTask) trivial with
    ⟨g₀, hSame, hLevel⟩
  rw [hLoop] at hSame
  cases hSame
  refine
    paced_of_one
      (eq_of_active hOne hTask trivial
        (calms_of_set hLoop (keptLoop_beginRun _).ended rfl rfl)
        rfl)
      ?_
  intro _
  exact ⟨_, List.getElem?_set_self hBelow, hLevel, trivial⟩

omit [PyNumber α] in
/- The task enters the next loop at the level of no state. -/
theorem paced_next
    {t b : Nat}
    {now : Timestamp}
    (hOne : p.running ≤ 1)
    (hPaced : Paced room.stores n p)
    (hTask : p.tasks[t]? = some (.deleting b true)) :
    Paced room.stores n
      { p.setTask t (.inRun p.loops.length .starting) with
        loops :=
          p.loops ++
            [(beginRun (GameLoop.new settings matchId now)).1]
        gameLoop := some p.loops.length } := by
  have hZero : n = 0 :=
    hPaced _ (List.mem_of_getElem? hTask) trivial rfl
  refine
    paced_of_one
      (eq_of_active hOne hTask trivial
        (calms_of_create rfl rfl) rfl)
      ?_
  intro _
  refine ⟨_, List.getElem?_concat_length, ?_, trivial⟩
  rw [hZero]
  exact Nat.zero_le _

/-
  Every step of the only process with an active task keeps
  the ticks that it is about to store at or above the level.
-/
theorem paced_moves
    (hMoves : Moves settings matchId room p act out)
    (hOne : p.running ≤ 1)
    (hPaced : Paced room.stores n p)
    (hStores : StoresPaced room.stores n)
    (hOrigin :
      Replay.FromLog room.log room.service room.checkpoints)
    (hLoads : p.LoadsAlone room act) :
    StepPaced n out := by
  have hSame :
      room.stores.events.map LogEntry.event ⊆
        room.stores.events.map LogEntry.event :=
    List.Subset.refl _
  cases hMoves with
  | win _ =>
      exact
        stepPaced_alone hStores
          (paced_of_sameTicks hPaced
            (fun _ hStopped => hStopped)
            (sameTicks_of_kept (kept_refl _)) rfl hSame)
          rfl rfl
  | keep hKeeps =>
      exact
        stepPaced_alone hStores
          (paced_of_sameTicks hPaced (calms_of_keeps hKeeps)
            (sameTicks_of_kept hKeeps.loops) hKeeps.tasks
            hSame)
          rfl rfl
  | gained _ =>
      exact
        stepPaced_alone hStores
          (paced_of_sameTicks hPaced (calms_of_create rfl rfl)
            (sameTicks_of_create rfl) rfl hSame)
          rfl rfl
  | @load k b now checkpointRead schedule g g'
        hLoading hLoop hLoad =>
      rcases hLoads with ⟨hNone, hGlobal, hComplete⟩
      have hEnds := matchEnded_loadState hLoad
      refine stepPaced_alone hStores ?_ rfl rfl
      refine
        paced_load hNone (hGlobal b hLoading)
          (List.getElem?_eq_some_iff.mp hLoop).1
          (le_tick_of_load hStores hOrigin hComplete hLoad)
          (calms_of_set hLoop ?_ rfl rfl)
      rw [hEnds]
      exact id
  | drop =>
      refine stepPaced_alone hStores ?_ rfl rfl
      intro task hMem hActive
      rcases List.mem_or_eq_of_mem_set hMem with hOld | hGone
      · exact
          (hPaced task hOld hActive).of_sameTicks
            (sameTicks_of_kept (kept_refl _)) hSame
      · rw [hGone] at hActive
        exact absurd hActive id
  | @enter t b g hTask hLoop =>
      exact
        stepPaced_alone hStores
          (paced_enter hOne hPaced hTask hLoop) rfl rfl
  | @resume t b aw aw' r g g' stores hTask hLoop hAwaits =>
      by_cases hActive : p.Active (.inRun b aw)
      · exact
          paced_resume hOne hStores hPaced hTask hLoop hAwaits
            hActive
      · exact
          paced_rest hStores hPaced hLoop hAwaits hActive
  | @reset t b hTask hGlobal =>
      have hActive : p.Active (.inRun b .returned) :=
        .inr (fun hStopped => hStopped.1 hGlobal)
      refine stepPaced_alone hStores ?_ rfl rfl
      refine
        paced_of_one
          (eq_of_active hOne hTask hActive
            (fun _ hStopped => hStopped) rfl)
          ?_
      intro _ hApplied
      cases hApplied
  | @deleteKeys t b hTask =>
      refine ⟨?_, ⟨?_, .inl rfl, hStores.full⟩, ?_⟩
      · exact
          paced_of_one
            (eq_of_active hOne hTask trivial
              (fun _ hStopped => hStopped) rfl)
            (fun _ _ => rfl)
      · intro data hData
        cases hData
      · intro m hStored
        cases hStored
  | @next t b now hTask =>
      exact
        stepPaced_alone hStores (paced_next hOne hPaced hTask)
          rfl rfl
  | crash =>
      exact
        stepPaced_alone hStores (paced_of_idle _ _ rfl) rfl rfl

end Fleet
