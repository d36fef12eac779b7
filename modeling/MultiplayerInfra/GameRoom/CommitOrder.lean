import MultiplayerInfra.GameRoom.Cluster

/-
  Commit order: what a room writes to Redis was acknowledged
  in `match.events` before.

  Key definitions include:
    * `GameRoom.Backed`
    * `GameRoom.Owed`
    * `GameRoom.CommitOrder`

  Key theorems include:
    * `GameRoom.owed_of_awaits`
    * `GameRoom.commitOrder_step`
    * `GameRoom.redis_backed_by_log`

  The invariant says of every suspended task what its pending
  publish or Redis command has to do with the log; joins,
  departures and other tasks cannot disturb that.
-/

------------------------------------------------------------
-- The Invariant
------------------------------------------------------------

namespace GameRoom

open Py

variable {α : Type}

/-
  A state object has a backing: an acknowledged event of the
  match with its tick, whose players it shows.
-/
def Backed
    (matchId : String)
    (log : List (LogEntry α))
    (data : StateJson α) : Prop :=
  ∃ entry ∈ log,
    entry.acked = true ∧
      entry.event.matchId = matchId ∧
      entry.event.tick = data.tick ∧
      ∀ pid pdata,
        entry.event.roster.get? pid = some pdata →
          data.roster.get? pid = some pdata

/- What a suspended task owes to the commit order. -/
def Owed
    (matchId : String)
    (log : List (LogEntry α)) :
    Await α → Prop
| .publishing next event kept =>
    event.matchId = matchId ∧
      event.tick = some event.tickOrZero ∧
      event.players = some (playersJson next) ∧
      ∀ offset, kept = some offset →
        ∃ entry, log[offset]? = some entry ∧
          entry.event = event
| .updatingRedis _ (.setState data) _ =>
    Backed matchId log data
| _ => True

structure CommitOrder
    (matchId : String)
    (c : Cluster α) : Prop where
  loops : ∀ i g, c.loops i = some g → g.matchId = matchId
  tasks :
    ∀ t i aw, c.tasks t = some (i, aw) →
      Owed matchId c.stores.events aw
  redis :
    ∀ data, c.stores.redis.state = some data →
      Backed matchId c.stores.events data

/- The log only grows, so a backing is never lost. -/
theorem Backed.mono
    {matchId : String}
    {log log' : List (LogEntry α)}
    {data : StateJson α}
    (hExtends : LogExtends log log')
    (hBacked : Backed matchId log data) :
    Backed matchId log' data := by
  rcases hBacked with ⟨entry, hEntry, hAcked, hRest⟩
  exact
    ⟨entry, hExtends.mem_of_acked hEntry hAcked, hAcked,
      hRest⟩

/- Neither is what a task owes. -/
theorem Owed.mono
    {matchId : String}
    {log log' : List (LogEntry α)}
    {aw : Await α}
    (hExtends : LogExtends log log')
    (hOwed : Owed matchId log aw) :
    Owed matchId log' aw := by
  cases aw with
  | publishing next event kept =>
      rcases hOwed with ⟨hId, hTick, hPlayers, hKept⟩
      refine ⟨hId, hTick, hPlayers, ?_⟩
      intro offset hOffset
      rcases hKept offset hOffset with ⟨entry, hAt, hEvent⟩
      rcases hExtends offset entry hAt with ⟨acked, hAt', _⟩
      exact ⟨{ entry with acked := acked }, hAt', hEvent⟩
  | updatingRedis tick cmd applied =>
      cases cmd with
      | setState data => exact Backed.mono hExtends hOwed
      | setOffset value => trivial
      | saddPlayers members => trivial
      | expire key => trivial
  | _ => trivial

end GameRoom

------------------------------------------------------------
-- One Step of a Task
------------------------------------------------------------

namespace GameRoom

open Py

variable {α : Type} [PyNumber α]

/- What a task owes when it comes back to its loop head. -/
theorem owed_loopHead
    {matchId : String}
    (log : List (LogEntry α))
    {g : GameLoop α}
    (hId : g.matchId = matchId) :
    (loopHead g).1.matchId = matchId ∧
      Owed matchId log (loopHead g).2 := by
  rcases hHead : loopHead g with ⟨g', aw⟩
  cases heads_loopHead hHead with
  | publish _ hBegin =>
      have hTick := isTick_of_beginTick hBegin
      rcases frame_beginTick hBegin with ⟨_, hId', _⟩
      refine ⟨hId'.trans hId, hTick.matchId.trans hId, ?_,
        hTick.players, ?_⟩
      · rw [hTick.tickOrZero]
        exact hTick.tick
      · intro offset hKept
        cases hKept
  | pause _ hBegin =>
      rcases frame_beginTick hBegin with ⟨_, hId', _⟩
      exact ⟨hId'.trans hId, trivial⟩
  | finish _ => exact ⟨hId, trivial⟩

omit [PyNumber α] in
/-
  The commit of an appended event: the state written to
  Redis is backed by that event.
-/
theorem backed_commitTick
    {matchId : String}
    {st : Stores α}
    {next : Players α}
    {event : StateJson α}
    {offset : Nat}
    (hOwed :
      Owed matchId st.events
        (.publishing next event (some offset)))
    (g : GameLoop α) :
    Backed matchId (st.ackEvent offset).events
      (g.commitTick next event offset).state.toDict := by
  rcases hOwed with ⟨hId, hTick, hPlayers, hKept⟩
  rcases hKept offset rfl with ⟨entry, hAt, rfl⟩
  refine
    ⟨_, st.mem_ackEvent hAt, rfl, hId, hTick, ?_⟩
  intro pid pdata hGet
  have hRoster :
      entry.event.roster = playersJson next := by
    simp [StateJson.roster, hPlayers]
  rw [GameState.get?_roster_toDict]
  exact shows_commitTick hRoster offset pid pdata hGet

omit [PyNumber α] in
/- The later Redis commands of a tick owe nothing. -/
theorem owed_nextRedisCmd
    (matchId : String)
    (log : List (LogEntry α))
    {g : GameLoop α}
    {cmd cmd' : RedisCmd α}
    (hNext : nextRedisCmd g cmd = some cmd')
    (tick : Nat)
    (applied : Bool) :
    Owed matchId log (.updatingRedis tick cmd' applied) := by
  cases cmd' with
  | setState data =>
      exact absurd rfl (ne_setState_of_nextRedisCmd hNext data)
  | _ => trivial

/-
  One step of a task keeps the commit order: the log grows,
  the task owes what its new await demands, and Redis stays
  backed.
-/
theorem owed_of_awaits
    {matchId : String}
    {producer : Nat}
    {st st' : Stores α}
    {g g' : GameLoop α}
    {aw aw' : Await α}
    {r : Reply}
    (hStep : Awaits producer st g aw r st' g' aw')
    (hId : g.matchId = matchId)
    (hOwed : Owed matchId st.events aw)
    (hRedis :
      ∀ data, st.redis.state = some data →
        Backed matchId st.events data) :
    LogExtends st.events st'.events ∧
      g'.matchId = matchId ∧
      Owed matchId st'.events aw' ∧
      ∀ data, st'.redis.state = some data →
        Backed matchId st'.events data := by
  have hRefl := LogExtends.refl st.events
  cases hStep with
  | head _ =>
      rcases owed_loopHead st.events hId with ⟨hId', hNew⟩
      exact ⟨hRefl, hId', hNew, hRedis⟩
  | appendEvent =>
      have hGrow := st.logExtends_appendEvent producer
      rcases hOwed with ⟨hEvent, hTick, hPlayers, _⟩
      refine ⟨hGrow _, hId,
        ⟨hEvent, hTick, hPlayers, ?_⟩, ?_⟩
      · intro offset hKept
        cases hKept
        exact ⟨_, st.getElem?_appendEvent producer _, rfl⟩
      · intro data hData
        exact (hRedis data hData).mono (hGrow _)
  | commit =>
      have hGrow := st.logExtends_ackEvent
      refine ⟨hGrow _, hId, backed_commitTick hOwed g, ?_⟩
      intro data hData
      exact (hRedis data hData).mono (hGrow _)
  | dropTick => exact ⟨hRefl, hId, trivial, hRedis⟩
  | @redisEffect tick cmd =>
      cases cmd with
      | setState data =>
          refine ⟨hRefl, hId, hOwed, ?_⟩
          intro data' hData
          cases hData
          exact hOwed
      | setOffset value =>
          exact ⟨hRefl, hId, trivial, hRedis⟩
      | saddPlayers members =>
          exact ⟨hRefl, hId, trivial, hRedis⟩
      | expire key => exact ⟨hRefl, hId, trivial, hRedis⟩
  | redisNext hNext =>
      exact
        ⟨hRefl, hId, owed_nextRedisCmd _ _ hNext _ _, hRedis⟩
  | redisDone _ =>
      unfold finishTick
      split
      · exact ⟨hRefl, hId, trivial, hRedis⟩
      · exact ⟨hRefl, hId, trivial, hRedis⟩
  | redisFail => exact ⟨hRefl, hId, trivial, hRedis⟩
  | farewell => exact ⟨hRefl, hId, trivial, hRedis⟩
  | appendEnd => exact ⟨hRefl, hId, trivial, hRedis⟩
  | endPublished => exact ⟨hRefl, hId, trivial, hRedis⟩
  | endTelemetry =>
      unfold writeMatchRecord
      split
      · exact ⟨hRefl, hId, trivial, hRedis⟩
      · exact ⟨hRefl, hId, trivial, hRedis⟩
  | saveEffect =>
      refine ⟨?_, hId, trivial, ?_⟩
      · rw [Stores.events_saveMatch]
        exact hRefl
      · rw [Stores.events_saveMatch, Stores.redis_saveMatch]
        exact hRedis
  | saved => exact ⟨hRefl, hId, trivial, hRedis⟩
  | saveFailed => exact ⟨hRefl, hId, trivial, hRedis⟩
  | retry =>
      unfold retrySave
      split
      · exact ⟨hRefl, hId, trivial, hRedis⟩
      · exact ⟨hRefl, hId, trivial, hRedis⟩

end GameRoom

------------------------------------------------------------
-- Every Action
------------------------------------------------------------

namespace GameRoom

open Py Machine

variable {α : Type}

namespace CommitOrder

theorem empty
    (matchId : String) :
    CommitOrder matchId (Cluster.empty : Cluster α) := by
  constructor
  · intro i g hLoop
    cases hLoop
  · intro t i aw hTask
    cases hTask
  · intro data hData
    cases hData

/- What happens to a loop object alone is no concern. -/
theorem setLoop
    {matchId : String}
    {c : Cluster α}
    (hOrder : CommitOrder matchId c)
    (i : Nat)
    {g : GameLoop α}
    (hId : g.matchId = matchId) :
    CommitOrder matchId (c.setLoop i g) := by
  refine ⟨?_, hOrder.tasks, hOrder.redis⟩
  intro j g' hLoop
  simp only [Cluster.setLoop, Function.update_apply] at hLoop
  split at hLoop
  · cases hLoop
    exact hId
  · exact hOrder.loops j g' hLoop

/- A task is added or moves on. -/
theorem setTask
    {matchId : String}
    {c : Cluster α}
    (hOrder : CommitOrder matchId c)
    (t i : Nat)
    {aw : Await α}
    (hOwed : Owed matchId c.stores.events aw) :
    CommitOrder matchId { c with
      tasks := Function.update c.tasks t (some (i, aw)) } := by
  refine ⟨hOrder.loops, ?_, hOrder.redis⟩
  intro t' j aw' hTask
  simp only [Function.update_apply] at hTask
  split at hTask
  · cases hTask
    exact hOwed
  · exact hOrder.tasks t' j aw' hTask

/- The log grows and Redis stays backed. -/
theorem setStores
    {matchId : String}
    {c : Cluster α}
    (hOrder : CommitOrder matchId c)
    {st : Stores α}
    (hExtends : LogExtends c.stores.events st.events)
    (hRedis :
      ∀ data, st.redis.state = some data →
        Backed matchId st.events data) :
    CommitOrder matchId { c with stores := st } := by
  refine ⟨hOrder.loops, ?_, hRedis⟩
  intro t i aw hTask
  exact (hOrder.tasks t i aw hTask).mono hExtends

theorem crash
    {matchId : String}
    {c : Cluster α}
    (hOrder : CommitOrder matchId c)
    (dead : Finset Nat) :
    CommitOrder matchId { c with
      loops := fun i => if i ∈ dead then none else c.loops i
      tasks := fun t =>
        (c.tasks t).filter (fun task => task.1 ∉ dead) } := by
  refine ⟨?_, ?_, hOrder.redis⟩
  · intro i g hLoop
    simp only at hLoop
    split at hLoop
    · cases hLoop
    · exact hOrder.loops i g hLoop
  · intro t i aw hTask
    rcases Option.filter_eq_some_iff.mp hTask with
      ⟨hOld, _⟩
    exact hOrder.tasks t i aw hOld

end CommitOrder

variable [PyNumber α]

/- Every action of the cluster keeps the commit order. -/
theorem commitOrder_step
    {settings : Settings}
    {matchId : String}
    {c c' : Cluster α}
    {act : ClusterAct α}
    (hOrder : CommitOrder matchId c)
    (hStep : Cluster.step settings matchId c act = some c') :
    CommitOrder matchId c' := by
  cases clusterSteps_of_step hStep with
  | create => exact hOrder.setLoop _ rfl
  | load hLoop hLoad =>
      apply hOrder.setLoop
      exact
        (matchId_loadState hLoad).trans
          (hOrder.loops _ _ hLoop)
  | @spawn t i g hLoop =>
      have hRun :=
        hOrder.setLoop (g := (beginRun g).1) i
          (hOrder.loops i g hLoop)
      exact hRun.setTask t i trivial
  | @resume t i _ _ _ _ _ _ hTask hLoop hAwaits =>
      rcases owed_of_awaits hAwaits (hOrder.loops i _ hLoop)
          (hOrder.tasks t i _ hTask) hOrder.redis with
        ⟨hExtends, hId, hOwed, hRedis⟩
      have hStores := hOrder.setStores hExtends hRedis
      exact (hStores.setLoop i hId).setTask t i hOwed
  | input hLoop =>
      have hId := hOrder.loops _ _ hLoop
      exact hOrder.setLoop _ hId
  | join hLoop =>
      apply hOrder.setLoop
      rw [GameLoop.matchId_addPlayer]
      exact hOrder.loops _ _ hLoop
  | leave hLoop =>
      apply hOrder.setLoop
      rw [GameLoop.matchId_removePlayer]
      exact hOrder.loops _ _ hLoop
  | stop hLoop =>
      have hId := hOrder.loops _ _ hLoop
      exact hOrder.setLoop _ hId
  | crash => exact hOrder.crash _
  | deleteKeys =>
      apply hOrder.setStores
      · exact LogExtends.refl _
      · intro data hData
        cases hData
  | evict =>
      apply hOrder.setStores
      · exact LogExtends.refl _
      · intro data hData
        exact hOrder.redis data (Stores.state_evict _ hData)

/-
  In every reachable state the state object in Redis has an
  acknowledged event of the match with its tick, and shows
  every player of that event as the event has it.
-/
theorem redis_backed_by_log
    {settings : Settings}
    {matchId : String}
    {c : Cluster α}
    (hRun :
      Reachable (Cluster.step settings matchId)
        Cluster.empty c)
    {data : StateJson α}
    (hData : c.stores.redis.state = some data) :
    ∃ entry ∈ c.stores.events,
      entry.acked = true ∧
        entry.event.matchId = matchId ∧
        entry.event.tick = data.tick ∧
        ∀ pid pdata,
          entry.event.roster.get? pid = some pdata →
            data.roster.get? pid = some pdata := by
  have hOrder : CommitOrder matchId c :=
    hRun.invariant (CommitOrder.empty matchId)
      (fun hOrder _ hStep => commitOrder_step hOrder hStep)
  exact hOrder.redis data hData

/- One player joins and the first tick reaches Redis. -/
def firstCommit : Cluster Int :=
  final (Cluster.step {} "room") Cluster.empty
    [.create 0 100, .join 0 "ann" none, .spawn 0 0,
      .resume 0 (.ok 101), .resume 0 .effect,
      .resume 0 (.ok 102), .resume 0 .effect]
    (by decide)

theorem redis_backed_firstCommit :
    ∃ entry ∈ firstCommit.stores.events,
      entry.acked = true ∧
        entry.event.matchId = "room" ∧
        entry.event.tick = some 1 ∧
        ∀ pid pdata,
          entry.event.roster.get? pid = some pdata →
            (Dict.empty.set "ann"
              (PlayerState.new "ann").toJson).get? pid =
                some (pdata : PlayerJson Int) := by
  have hData :
      firstCommit.stores.redis.state = some {
        matchId := "room"
        tick := some 1
        players := some (Dict.empty.set "ann"
          (PlayerState.new "ann").toJson) } := by
    decide
  exact
    redis_backed_by_log
      (reachable_of_run (run_eq_final (by decide))) hData

end GameRoom
