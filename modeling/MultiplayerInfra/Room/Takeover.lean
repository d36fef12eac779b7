import MultiplayerInfra.Room.Loading

/-
  Takeovers of a match: when the loaded state is at least as
  recent as the last acknowledged event.

  Key definitions include:
    * `Room.TakeoverOk`
    * `Room.Tracked`

  Key theorems include:
    * `Room.tracked_awaits`
    * `Room.tracked_step`
    * `Room.takeover_atLeast`
    * `Room.takeover_loses_tick`

  `load_state` reads Redis without applying the events that
  were logged after the state was written.  The condition on
  a takeover says that the last acknowledged state had been
  written, or that the log itself is replayed.
-/

------------------------------------------------------------
-- The Condition
------------------------------------------------------------

namespace Room

open Py GameRoom

variable {α : Type}

/-
  The newest checkpoint does not stand for the tick of the
  last acknowledged event while ending in another event.
-/
def State.checkpointAgrees (room : State α) : Prop :=
  ∀ c ∈ Replay.newest room.checkpoints,
    ∀ event ∈ room.lastAcked,
      c.tick = event.tickOrZero →
        c.events.getLast? = some event

instance
    [DecidableEq α]
    (room : State α) :
    Decidable room.checkpointAgrees :=
  inferInstanceAs (Decidable
    (∀ c ∈ Replay.newest room.checkpoints,
      ∀ event ∈ room.lastAcked,
        c.tick = event.tickOrZero →
          c.events.getLast? = some event))

/-
  A takeover by Redis finds the last acknowledged state
  written; one by replay reaches the end of the log and
  meets no disagreeing checkpoint.  No second match starts.
-/
def TakeoverOk (room : State α) : Act α → Prop
| .takeover _ checkpointRead schedule =>
    if room.warm then room.saved = true
    else
      room.longEnough schedule ∧
        (checkpointRead = true → room.checkpointAgrees)
| .check isLeader => isLeader = false
| _ => True

instance
    [DecidableEq α]
    (room : State α) :
    (act : Act α) → Decidable (TakeoverOk room act)
| .takeover _ checkpointRead schedule =>
    inferInstanceAs (Decidable
      (if room.warm then room.saved = true
      else
        room.longEnough schedule ∧
          (checkpointRead = true → room.checkpointAgrees)))
| .check isLeader =>
    inferInstanceAs (Decidable (isLeader = false))
| .resume _ => inferInstanceAs (Decidable True)
| .delete _ => inferInstanceAs (Decidable True)
| .input _ _ => inferInstanceAs (Decidable True)
| .join _ _ => inferInstanceAs (Decidable True)
| .leave _ => inferInstanceAs (Decidable True)
| .crash => inferInstanceAs (Decidable True)
| .evict _ => inferInstanceAs (Decidable True)
| .service _ => inferInstanceAs (Decidable True)

end Room

------------------------------------------------------------
-- The Invariant
------------------------------------------------------------

namespace Room

open Py GameRoom

variable {α : Type}

/-
  The last acknowledged event is in the log, and what was
  logged after it has larger ticks.
-/
structure LogTracked
    (log : List (StateJson α))
    (lastAcked : Option (StateJson α)) : Prop where
  full : ∀ e ∈ log, e.Full
  acked :
    ∀ event, lastAcked = some event →
      ∃ before after,
        log = before ++ event :: after ∧
          ∀ e ∈ after, event.tickOrZero < e.tickOrZero

/- A state object has the tick and the players of an event. -/
def Carries (data event : StateJson α) : Prop :=
  data.tickOrZero = event.tickOrZero ∧
    ∀ pid pdata,
      event.roster.get? pid = some pdata →
        data.roster.get? pid = some pdata

/- Once written, the acknowledged state is what Redis has. -/
def RedisTracked
    (redis : RoomRedis α)
    (lastAcked : Option (StateJson α))
    (saved : Bool) : Prop :=
  saved = true →
    ∀ data, redis.state = some data →
      ∃ event, lastAcked = some event ∧ Carries data event

/- What the task of a leader is about to publish or write. -/
def TaskTracked
    (log : List (StateJson α))
    (lastAcked : Option (StateJson α))
    (g : GameLoop α) :
    MatchTask α → Prop
| .inRun (.publishing next event kept) =>
    event.tickOrZero = g.state.tick + 1 ∧
      event.players = some (playersJson next) ∧
      (kept.isSome = true → ∃ before, log = before ++ [event])
| .inRun (.updatingRedis _ (.setState data) _) =>
    ∃ event, lastAcked = some event ∧ Carries data event
| .inRun _ => True
| .deleting _ => False
| .gone => True

structure LeaderTracked
    (log : List (StateJson α))
    (lastAcked : Option (StateJson α))
    (g : GameLoop α)
    (task : MatchTask α) : Prop where
  tick :
    ∀ event, lastAcked = some event →
      event.tickOrZero ≤ g.state.tick
  task : TaskTracked log lastAcked g task

structure Tracked (room : State α) : Prop where
  log : LogTracked room.log room.lastAcked
  redis :
    RedisTracked room.stores.redis room.lastAcked room.saved
  leader :
    ∀ ld, room.leader = some ld →
      LeaderTracked room.log room.lastAcked ld.loop ld.task
  origin :
    Replay.FromLog room.log room.service room.checkpoints
  loads :
    ∀ load ∈ room.loads, ∀ event,
      load.lastAcked = some event →
        AtLeast load.loaded event

namespace LogTracked

variable {log : List (StateJson α)}
variable {lastAcked : Option (StateJson α)}
variable {event : StateJson α}

/- A newer event may be appended. -/
theorem concat
    (hLog : LogTracked log lastAcked)
    (hFull : event.Full)
    (hTick :
      ∀ e, lastAcked = some e →
        e.tickOrZero < event.tickOrZero) :
    LogTracked (log ++ [event]) lastAcked := by
  constructor
  · intro e hMem
    rcases List.mem_append.mp hMem with hOld | hNew
    · exact hLog.full e hOld
    · rw [List.mem_singleton.mp hNew]
      exact hFull
  · intro acked hAcked
    rcases hLog.acked acked hAcked with
      ⟨before, after, hEq, hAfter⟩
    refine ⟨before, after ++ [event], by simp [hEq], ?_⟩
    intro e hMem
    rcases List.mem_append.mp hMem with hOld | hNew
    · exact hAfter e hOld
    · rw [List.mem_singleton.mp hNew]
      exact hTick acked hAcked

/- The last event of the log may be acknowledged. -/
theorem ack
    {before : List (StateJson α)}
    (hLog : LogTracked log lastAcked)
    (hEq : log = before ++ [event]) :
    LogTracked log (some event) := by
  refine ⟨hLog.full, ?_⟩
  intro acked hAcked
  cases hAcked
  refine ⟨before, [], hEq, ?_⟩
  intro e hMem
  cases hMem

end LogTracked

/- A committed state carries the event of its tick. -/
theorem carries_commitTick
    {next : Players α}
    {event : StateJson α}
    (hPlayers : event.players = some (playersJson next))
    (g : GameLoop α)
    (offset : Int) :
    Carries
      (g.commitTick next event offset).state.toDict event := by
  refine ⟨rfl, ?_⟩
  intro pid pdata hGet
  have hRoster : event.roster = playersJson next := by
    simp [StateJson.roster, hPlayers]
  rw [GameState.get?_roster_toDict]
  exact shows_commitTick hRoster offset pid pdata hGet

/- A state read from Redis is as recent as what it carries. -/
theorem atLeast_of_carries
    {now : Timestamp}
    {data event : StateJson α}
    {state : GameState α}
    (hRead : GameState.fromDict now data = some state)
    (hCarries : Carries data event)
    (hFull : event.Full) :
    AtLeast state event := by
  rcases GameState.fromDict_spec hRead with
    ⟨_, hTick, _, hGet⟩
  refine ⟨by rw [hTick, hCarries.1], ?_⟩
  intro _ pid pdata hEvent
  rcases hFull with ⟨players, hPlayers⟩
  rw [hGet, hCarries.2 pid pdata hEvent]
  have hRoster : event.roster = playersJson players := by
    simp [StateJson.roster, hPlayers]
  rw [hRoster, get?_playersJson] at hEvent
  rcases Option.map_eq_some_iff.mp hEvent with
    ⟨player, _, rfl⟩
  rfl

end Room

------------------------------------------------------------
-- One Step of the Run Task
------------------------------------------------------------

namespace Room

open Py GameRoom

variable {α : Type} [PyNumber α]

/- Players leave the tick and thus the tracking alone. -/
theorem LeaderTracked.of_plays
    {log : List (StateJson α)}
    {lastAcked : Option (StateJson α)}
    {g g' : GameLoop α}
    {task : MatchTask α}
    (hLeader : LeaderTracked log lastAcked g task)
    (hPlays : Plays g g') :
    LeaderTracked log lastAcked g' task := by
  rcases hPlays.frame with ⟨hTick, _⟩
  refine ⟨?_, ?_⟩
  · intro event hAcked
    rw [hTick]
    exact hLeader.tick event hAcked
  · rcases hLeader with ⟨_, hTask⟩
    cases task with
    | inRun aw =>
        cases aw with
        | publishing next event kept =>
            rcases hTask with ⟨hNext, hRest⟩
            exact ⟨by rw [hNext, hTick], hRest⟩
        | updatingRedis tick cmd applied =>
            cases cmd with
            | setState data => exact hTask
            | _ => trivial
        | _ => trivial
    | deleting applied => exact hTask
    | gone => trivial

/- The loop head starts the tick after the present one. -/
theorem leaderTracked_loopHead
    (log : List (StateJson α))
    {lastAcked : Option (StateJson α)}
    {g : GameLoop α}
    (hTick :
      ∀ event, lastAcked = some event →
        event.tickOrZero ≤ g.state.tick) :
    LeaderTracked log lastAcked (loopHead g).1
      (.inRun (loopHead g).2) := by
  rcases hHead : loopHead g with ⟨g', aw⟩
  cases heads_loopHead hHead with
  | publish _ hBegin =>
      have hNext := isTick_of_beginTick hBegin
      rcases frame_beginTick hBegin with ⟨hState, _⟩
      refine ⟨by rw [hState]; exact hTick, ?_,
        hNext.players, ?_⟩
      · rw [hNext.tickOrZero, hState]
      · intro hKept
        cases hKept
  | pause _ hBegin =>
      rcases frame_beginTick hBegin with ⟨hState, _⟩
      exact ⟨by rw [hState]; exact hTick, trivial⟩
  | finish _ => exact ⟨hTick, trivial⟩

omit [PyNumber α] in
/- The later Redis commands carry no state. -/
theorem taskTracked_nextRedisCmd
    (log : List (StateJson α))
    (lastAcked : Option (StateJson α))
    {g : GameLoop α}
    {cmd cmd' : RedisCmd α}
    (hNext : nextRedisCmd g cmd = some cmd')
    (tick : Nat)
    (applied : Bool) :
    TaskTracked log lastAcked g
      (.inRun (.updatingRedis tick cmd' applied)) := by
  cases cmd' with
  | setState data =>
      exact absurd rfl (ne_setState_of_nextRedisCmd hNext data)
  | _ => trivial

/-
  The log, Redis and the task of a leader, tracked against
  the last acknowledged event.
-/
structure RunTracked
    (st : Stores α)
    (lastAcked : Option (StateJson α))
    (saved : Bool)
    (g : GameLoop α)
    (task : MatchTask α) : Prop where
  log : LogTracked (st.events.map LogEntry.event) lastAcked
  redis : RedisTracked st.redis lastAcked saved
  leader :
    LeaderTracked (st.events.map LogEntry.event) lastAcked g
      task

omit [PyNumber α] in
/- A step that neither logs nor acknowledges nor saves. -/
theorem RunTracked.quiet
    {st st' : Stores α}
    {lastAcked : Option (StateJson α)}
    {saved : Bool}
    {g g' : GameLoop α}
    {task : MatchTask α}
    {aw aw' : Await α}
    {r : Reply}
    (hRun : RunTracked st lastAcked saved g task)
    (hEvents : st'.events = st.events)
    (hRedis : st'.redis.state = st.redis.state)
    (hAck : ackedBy aw r = none)
    (hSave : savesState aw r = false)
    (hLeader :
      LeaderTracked (st.events.map LogEntry.event) lastAcked
        g' (.inRun aw')) :
    RunTracked st' ((ackedBy aw r).or lastAcked)
        (savesState aw r ||
          (saved && (ackedBy aw r).isNone)) g'
        (.inRun aw') ∧
      st.events.map LogEntry.event ⊆
        st'.events.map LogEntry.event := by
  rw [hAck, hSave]
  refine ⟨⟨?_, ?_, ?_⟩, by rw [hEvents]; simp⟩
  · rw [hEvents]
    exact hRun.log
  · intro hSaved data hData
    rw [hRedis] at hData
    exact hRun.redis (by simpa using hSaved) data hData
  · rw [hEvents]
    exact hLeader

/-
  One step of the run task keeps everything tracked, under
  the records that go with the step.
-/
theorem tracked_awaits
    {matchNo : Nat}
    {st st' : Stores α}
    {g g' : GameLoop α}
    {aw aw' : Await α}
    {r : Reply}
    {lastAcked : Option (StateJson α)}
    {saved : Bool}
    (hStep : Awaits matchNo st g aw r st' g' aw')
    (hRun : RunTracked st lastAcked saved g (.inRun aw)) :
    RunTracked st' ((ackedBy aw r).or lastAcked)
        (savesState aw r ||
          (saved && (ackedBy aw r).isNone)) g'
        (.inRun aw') ∧
      st.events.map LogEntry.event ⊆
        st'.events.map LogEntry.event := by
  have hTick := hRun.leader.tick
  have hTask := hRun.leader.task
  cases hStep with
  | head hResumes =>
      have hHead :=
        leaderTracked_loopHead
          (st.events.map LogEntry.event) hTick
      cases hResumes with
      | starting => exact hRun.quiet rfl rfl rfl rfl hHead
      | sleeping => exact hRun.quiet rfl rfl rfl rfl hHead
  | @appendEvent next event =>
      rcases hTask with ⟨hNext, hPlayers, _⟩
      have hNewer :
          ∀ e, lastAcked = some e →
            e.tickOrZero < event.tickOrZero := by
        intro e hAcked
        have hLe := hTick e hAcked
        omega
      have hLog := hRun.log.concat ⟨next, hPlayers⟩ hNewer
      rw [Stores.events_appendEvent, List.map_append,
        List.map_singleton]
      refine ⟨⟨?_, ?_, hTick, hNext, hPlayers, ?_⟩, by simp⟩
      · simpa [ackedBy] using hLog
      · simpa [savesState, ackedBy] using hRun.redis
      · intro _
        exact ⟨st.events.map LogEntry.event, by simp⟩
  | @commit next event offset now =>
      rcases hTask with ⟨_, hPlayers, hKept⟩
      rcases hKept rfl with ⟨before, hEq⟩
      refine ⟨⟨?_, ?_, ?_, ?_⟩, ?_⟩
      · rw [Stores.map_event_ackEvent]
        exact hRun.log.ack hEq
      · intro hSaved
        simp [savesState, ackedBy] at hSaved
      · intro acked hAcked
        cases hAcked
        exact Nat.le_refl _
      · exact
          ⟨event, rfl, carries_commitTick hPlayers g offset⟩
      · rw [Stores.map_event_ackEvent]
        exact List.Subset.refl _
  | @dropTick next event kept now =>
      have hAck :
          ackedBy (.publishing next event kept) (.fail now) =
            none := by
        cases kept <;> rfl
      exact hRun.quiet rfl rfl hAck rfl ⟨hTick, trivial⟩
  | @redisEffect tick cmd =>
      cases cmd with
      | setState data =>
          refine ⟨⟨hRun.log, ?_, hTick, hTask⟩, by simp⟩
          intro _ data' hData
          cases hData
          exact hTask
      | setOffset value =>
          exact hRun.quiet rfl rfl rfl rfl ⟨hTick, trivial⟩
      | saddPlayers members =>
          exact hRun.quiet rfl rfl rfl rfl ⟨hTick, trivial⟩
      | expire key =>
          exact hRun.quiet rfl rfl rfl rfl ⟨hTick, trivial⟩
  | @redisNext tick cmd cmd' now hNext =>
      exact
        hRun.quiet rfl rfl rfl (by cases cmd <;> rfl)
          ⟨hTick, taskTracked_nextRedisCmd _ _ hNext _ _⟩
  | @redisDone tick cmd now _ =>
      refine
        hRun.quiet rfl rfl rfl (by cases cmd <;> rfl) ?_
      unfold finishTick
      split
      · exact ⟨hTick, trivial⟩
      · exact ⟨hTick, trivial⟩
  | @redisFail tick cmd applied now =>
      have hSave :
          savesState (.updatingRedis tick cmd applied)
            (.fail now) = false := by
        cases cmd <;> cases applied <;> rfl
      exact hRun.quiet rfl rfl rfl hSave ⟨hTick, trivial⟩
  | farewell =>
      exact hRun.quiet rfl rfl rfl rfl ⟨hTick, trivial⟩
  | appendEnd =>
      exact hRun.quiet rfl rfl rfl rfl ⟨hTick, trivial⟩
  | endPublished =>
      exact hRun.quiet rfl rfl rfl rfl ⟨hTick, trivial⟩
  | endTelemetry =>
      refine hRun.quiet rfl rfl rfl rfl ⟨hTick, ?_⟩
      unfold writeMatchRecord
      split <;> trivial
  | saveEffect =>
      exact
        hRun.quiet (by simp) (by simp) rfl rfl
          ⟨hTick, trivial⟩
  | saved =>
      exact hRun.quiet rfl rfl rfl rfl ⟨hTick, trivial⟩
  | saveFailed =>
      exact hRun.quiet rfl rfl rfl rfl ⟨hTick, trivial⟩
  | retry =>
      refine hRun.quiet rfl rfl rfl rfl ⟨hTick, ?_⟩
      unfold retrySave
      split <;> trivial

end Room

------------------------------------------------------------
-- Every Step
------------------------------------------------------------

namespace Room

open Py GameRoom Machine

variable {α : Type} [PyNumber α]

omit [PyNumber α] in
theorem tracked_empty : Tracked (State.empty : State α) := by
  refine ⟨⟨?_, ?_⟩, ?_, ?_, Replay.FromLog.empty [], ?_⟩
  · intro e hMem
    cases hMem
  · intro event hAcked
    cases hAcked
  · intro hSaved
    cases hSaved
  · intro ld hLeader
    cases hLeader
  · intro load hMem
    cases hMem

/- An admitted takeover loads a state that is recent enough. -/
theorem atLeast_of_load
    {settings : Settings}
    {matchId : String}
    {room : State α}
    (hTracked : Tracked room)
    {now : Timestamp}
    {checkpointRead : Bool}
    {schedule : List (Option Nat)}
    (hOk :
      TakeoverOk room
        (.takeover now checkpointRead schedule))
    {g : GameLoop α}
    (hLoad :
      loadState (GameLoop.new settings matchId now)
        (room.replies now checkpointRead schedule) =
          some g)
    {event : StateJson α}
    (hAcked : room.lastAcked = some event) :
    AtLeast g.state event := by
  rcases hTracked with ⟨hLog, hRedis, _, hOrigin, _⟩
  rcases hLog.acked event hAcked with
    ⟨before, after, hEq, hAfter⟩
  by_cases hWarm : room.warm = true
  · simp only [TakeoverOk, hWarm, if_true] at hOk
    rcases state_of_warm hWarm hLoad with
      ⟨data, hData, hRead⟩
    rcases hRedis hOk data hData with
      ⟨event', hAcked', hCarries⟩
    rw [hAcked] at hAcked'
    cases hAcked'
    apply atLeast_of_carries hRead hCarries
    apply hLog.full
    simp [hEq]
  · have hCold : room.warm = false := by
      simpa using hWarm
    simp only [TakeoverOk, hCold, Bool.false_eq_true,
      if_false] at hOk
    rcases hOk with ⟨hLong, hAgrees⟩
    rw [state_of_cold hCold hLong hLoad, hEq]
    apply atLeast_replay
    · rw [← hEq]
      exact hLog.full
    · exact hAfter
    · intro c hReply
      rcases hOrigin.newest_spec
          (State.newest_of_checkpointReply hReply).2 with
        ⟨hSaved, e, hLast, hTick⟩
      refine ⟨e, hLast, ?_, hTick⟩
      exact
        hLog.full e (hSaved e (List.mem_of_getLast? hLast))
    · intro c hReply hTick
      rcases State.newest_of_checkpointReply hReply with
        ⟨hRead, hNewest⟩
      exact hAgrees hRead c hNewest event hAcked hTick

/- Every admitted step keeps the match tracked. -/
theorem tracked_step
    {settings : Settings}
    {interval : Nat}
    {matchId : String}
    {room room' : State α}
    {act : Act α}
    (hTracked : Tracked room)
    (hOk : TakeoverOk room act)
    (hStep :
      step settings interval matchId room act =
        some room') :
    Tracked room' := by
  rcases id hTracked with
    ⟨hLog, hRedis, hLeads, hOrigin, hLoads⟩
  cases steps_of_step hStep with
  | @takeover now checkpointRead schedule g hLeader hLoad =>
      have hLoaded :
          ∀ event, room.lastAcked = some event →
            AtLeast g.state event :=
        fun event hAcked =>
          atLeast_of_load hTracked hOk hLoad hAcked
      refine ⟨hLog, hRedis, ?_, hOrigin, ?_⟩
      · intro ld hEq
        cases hEq
        refine ⟨?_, trivial⟩
        intro event hAcked
        exact (hLoaded event hAcked).1
      · intro load hMem event hAcked
        rcases List.mem_append.mp hMem with hOld | hNew
        · exact hLoads load hOld event hAcked
        · rw [List.mem_singleton.mp hNew] at hAcked ⊢
          exact hLoaded event hAcked
  | resume hLeader hAwaits =>
      have hLead := hLeads _ hLeader
      rcases tracked_awaits hAwaits ⟨hLog, hRedis, hLead⟩ with
        ⟨⟨hLog', hRedis', hLead'⟩, hSub⟩
      refine
        ⟨hLog', hRedis', ?_, hOrigin.mono hSub, hLoads⟩
      intro ld hEq
      cases hEq
      exact hLead'
  | check hLeader =>
      have hLead := hLeads _ hLeader
      cases hOk
      refine ⟨hLog, hRedis, ?_, hOrigin, hLoads⟩
      intro ld hEq
      cases hEq
      exact ⟨hLead.tick, trivial⟩
  | deleteKeys hLeader => exact (hLeads _ hLeader).task.elim
  | reset hLeader => exact (hLeads _ hLeader).task.elim
  | deleteFail hLeader => exact (hLeads _ hLeader).task.elim
  | play hLeader hPlays =>
      have hLead := hLeads _ hLeader
      refine ⟨hLog, hRedis, ?_, hOrigin, hLoads⟩
      intro ld hEq
      cases hEq
      exact hLead.of_plays hPlays
  | crash =>
      refine ⟨hLog, hRedis, ?_, hOrigin, hLoads⟩
      intro ld hEq
      cases hEq
  | evict =>
      refine ⟨hLog, ?_, hLeads, hOrigin, hLoads⟩
      intro hSaved data hData
      exact
        hRedis hSaved data (room.stores.state_evict hData)
  | service hService =>
      exact
        ⟨hLog, hRedis, hLeads,
          Replay.fromLog_step hOrigin hService, hLoads⟩

end Room

------------------------------------------------------------
-- Takeovers
------------------------------------------------------------

namespace Room

open Py GameRoom Machine

variable {α : Type} [PyNumber α]

/-
  In every run of a match whose takeovers meet the condition,
  every state that was loaded is at least as recent as the
  event that was acknowledged last.
-/
theorem takeover_atLeast
    {settings : Settings}
    {interval : Nat}
    {matchId : String}
    {room : State α}
    (hRun :
      Reaches (step settings interval matchId) TakeoverOk
        State.empty room)
    {load : Load α}
    (hLoad : load ∈ room.loads)
    {event : StateJson α}
    (hAcked : load.lastAcked = some event) :
    event.tickOrZero ≤ load.loaded.tick ∧
      (load.loaded.tick = event.tickOrZero →
        load.loaded.Shows event) := by
  have hTracked : Tracked room :=
    hRun.invariant tracked_empty
      (fun hTracked hOk hStep =>
        tracked_step hTracked hOk hStep)
  exact hTracked.loads load hLoad event hAcked

/- The leader crashes after writing the state of tick 2. -/
def savedTakeover : State Int :=
  final (step {} 300 "room") State.empty
    (twoTicks ++
      [.resume .effect, .crash, .takeover 200 true []])
    (by decide)

theorem takeover_atLeast_savedTakeover :
    ∃ load ∈ savedTakeover.loads, ∃ event,
      load.lastAcked = some event ∧
        event.tickOrZero = 2 ∧
          event.tickOrZero ≤ load.loaded.tick ∧
            (load.loaded.tick = event.tickOrZero →
              load.loaded.Shows event) := by
  have hRun :
      Reaches (step {} 300 "room") TakeoverOk State.empty
        savedTakeover :=
    reaches_of_run (run_eq_final (by decide)) (by decide)
  have hSecond :
      ∃ load ∈ savedTakeover.loads,
        load.lastAcked.map StateJson.tickOrZero =
          some 2 := by
    decide
  rcases hSecond with ⟨load, hMem, hSome⟩
  rcases Option.map_eq_some_iff.mp hSome with
    ⟨event, hAcked, hTwo⟩
  exact
    ⟨load, hMem, event, hAcked, hTwo,
      takeover_atLeast hRun hMem hAcked⟩

/-
  The leader crashes between the acknowledgement of tick 2
  and its write to Redis: the next one continues from tick 1.
-/
def lostTick : State Int :=
  final (step {} 300 "room") State.empty
    (twoTicks ++ [.crash, .takeover 200 true []])
    (by decide)

theorem takeover_loses_tick :
    Reachable (step {} 300 "room") State.empty lostTick ∧
      ¬ ∀ load ∈ lostTick.loads, ∀ event,
          load.lastAcked = some event →
            event.tickOrZero ≤ load.loaded.tick ∧
              (load.loaded.tick = event.tickOrZero →
                load.loaded.Shows event) := by
  refine ⟨reachable_of_run (run_eq_final (by decide)), ?_⟩
  intro hAll
  have hBehind :
      ∃ load ∈ lostTick.loads,
        load.lastAcked.map StateJson.tickOrZero = some 2 ∧
          load.loaded.tick = 1 := by
    decide
  rcases hBehind with ⟨load, hMem, hAcked, hTick⟩
  rcases Option.map_eq_some_iff.mp hAcked with
    ⟨event, hEvent, hTwo⟩
  have hLe := (hAll load hMem event hEvent).1
  omega

end Room
