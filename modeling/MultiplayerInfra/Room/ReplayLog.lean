import MultiplayerInfra.Room.Loading

/-
  The event log of a match that one leader plays from its
  empty state: replaying it rebuilds the last committed
  state, with or without a checkpoint.

  Key definitions include:
    * `Room.SoloOk`
    * `Room.Snapshots`
    * `Room.Solo`
    * `Room.Rebuilds`

  Key theorems include:
    * `Room.solo_step`
    * `Room.Snapshots.rebuilds_replay`
    * `Room.Snapshots.filter_past`
    * `Room.replay_rebuilds`

  The events of such a log are numbered from 1 without a gap,
  and each lists all players that were listed before.
-/

------------------------------------------------------------
-- Logs of Snapshots
------------------------------------------------------------

namespace Room

open Py GameRoom

variable {α : Type}

/-
  A log of full snapshots with consecutive ticks, in which
  no player disappears.
-/
def Snapshots (log : List (StateJson α)) : Prop :=
  ∀ before event after,
    log = before ++ event :: after →
      event.tick = some (before.length + 1) ∧
        event.Full ∧
          ∀ e ∈ before, e.roster.keys ⊆ event.roster.keys

/- The state has the tick and the player map of the event. -/
def Rebuilds
    (event : StateJson α)
    (state : GameState α) : Prop :=
  state.tick = event.tickOrZero ∧
    ∀ pid,
      (state.players.get? pid).map PlayerState.toJson =
        event.roster.get? pid

namespace Snapshots

theorem nil : Snapshots ([] : List (StateJson α)) := by
  intro before event after hEq
  simp at hEq

/- The next snapshot may be appended. -/
theorem concat
    {log : List (StateJson α)}
    {event : StateJson α}
    (hLog : Snapshots log)
    (hTick : event.tick = some (log.length + 1))
    (hFull : event.Full)
    (hKeys : ∀ e ∈ log, e.roster.keys ⊆ event.roster.keys) :
    Snapshots (log ++ [event]) := by
  intro before e after hEq
  rcases List.eq_nil_or_concat after with
    rfl | ⟨rest, last, rfl⟩
  · rcases List.append_inj' hEq rfl with ⟨rfl, hLast⟩
    cases hLast
    exact ⟨hTick, hFull, hKeys⟩
  · have hInit : log = before ++ e :: rest := by
      have hSplit :
          log ++ [event] = (before ++ e :: rest) ++ [last] := by
        simpa using hEq
      exact (List.append_inj' hSplit rfl).1
    exact hLog before e rest hInit

/- Ticks count the events up to them. -/
theorem tick_le_length
    {log : List (StateJson α)}
    (hLog : Snapshots log)
    {event : StateJson α}
    (hEvent : event ∈ log) :
    1 ≤ event.tickOrZero ∧
      event.tickOrZero ≤ log.length := by
  rcases List.append_of_mem hEvent with
    ⟨before, after, hEq⟩
  rcases hLog before event after hEq with ⟨hTick, _, _⟩
  subst hEq
  simp only [StateJson.tickOrZero, hTick, Option.getD_some,
    List.length_append, List.length_cons]
  omega

/- What precedes a snapshot is a log of snapshots. -/
theorem of_append
    {before after : List (StateJson α)}
    (hLog : Snapshots (before ++ after)) :
    Snapshots before := by
  intro first event rest hEq
  apply hLog first event (rest ++ after)
  rw [hEq]
  simp

/-
  The tick filter of a checkpoint keeps what follows the
  event with that tick.
-/
theorem filter_past
    {before after : List (StateJson α)}
    {event : StateJson α}
    (hLog : Snapshots (before ++ event :: after)) :
    (before ++ event :: after).filter
        (isPastCheckpoint (some event.tickOrZero)) =
      after := by
  have hTick : event.tickOrZero = before.length + 1 := by
    rcases hLog before event after rfl with ⟨hSome, _, _⟩
    simp [StateJson.tickOrZero, hSome]
  have hSplit :
      before ++ event :: after = (before ++ [event]) ++ after := by
    simp
  rw [hSplit] at hLog ⊢
  have hHead : Snapshots (before ++ [event]) := hLog.of_append
  have hBefore :
      (before ++ [event]).filter
        (isPastCheckpoint (some event.tickOrZero)) = [] := by
    rw [List.filter_eq_nil_iff]
    intro e hMem
    have hLe := (hHead.tick_le_length hMem).2
    simp only [List.length_append, List.length_singleton]
      at hLe
    simp only [isPastCheckpoint, decide_eq_true_eq]
    omega
  have hAfter :
      after.filter
        (isPastCheckpoint (some event.tickOrZero)) =
          after := by
    rw [List.filter_eq_self]
    intro e hMem
    rcases List.append_of_mem hMem with ⟨mid, rest, hEq⟩
    subst hEq
    rcases hLog (before ++ [event] ++ mid) e rest
        (by simp) with ⟨hSome, _, _⟩
    simp only [isPastCheckpoint, decide_eq_true_eq,
      StateJson.tickOrZero, hSome, Option.getD_some,
      List.length_append, List.length_singleton] at hTick ⊢
    omega
  rw [List.filter_append, hBefore, hAfter]
  rfl

variable [PyNumber α]

/- Replaying snapshots rebuilds the last one. -/
theorem rebuilds_replay
    {before : List (StateJson α)}
    {last : StateJson α}
    (hLog : Snapshots (before ++ [last]))
    (matchId : String)
    (now : Timestamp) :
    Rebuilds last
      ((GameState.new matchId now).replay
        (before ++ [last])) := by
  rcases hLog before last [] rfl with ⟨hSome, hFull, hKeys⟩
  have hTick : last.tickOrZero = before.length + 1 := by
    simp [StateJson.tickOrZero, hSome]
  rcases id hFull with ⟨players, hPlayers⟩
  refine ⟨Nat.le_antisymm ?_ ?_, ?_⟩
  · apply GameState.tick_replay_le
    · exact Nat.zero_le _
    · intro event hMem _
      have hLe := (hLog.tick_le_length hMem).2
      simp only [List.length_append, List.length_singleton]
        at hLe
      omega
  · apply GameState.le_tick_replay
    · simp
    · simp [hPlayers]
  · intro pid
    cases hGet : last.roster.get? pid with
    | some pdata =>
        exact
          GameState.shows_replay_concat hFull _ before pid
            pdata hGet
    | none =>
        have hAbsent := Dict.get?_eq_none_iff.mp hGet
        have hNone :
            ((GameState.new matchId now).replay
              (before ++ [last])).players.get? pid =
                none := by
          rw [Dict.get?_eq_none_iff,
            GameState.mem_keys_replay]
          rintro (hOld | ⟨event, hMem, hPid⟩)
          · simp [GameState.new] at hOld
          · rcases List.mem_append.mp hMem with hMem | hMem
            · exact hAbsent (hKeys event hMem hPid)
            · rw [List.mem_singleton.mp hMem] at hPid
              exact hAbsent hPid
        rw [hNone]
        rfl

end Snapshots

end Room

------------------------------------------------------------
-- One Leader
------------------------------------------------------------

namespace Room

open Py GameRoom

variable {α : Type}

/- A publish waits whose event has reached the log. -/
def State.keptPending (room : State α) : Bool :=
  match room.leader with
  | some ⟨_, _, .inRun (.publishing _ _ (some _))⟩ => true
  | _ => false

/-
  The steps of a match that one leader plays: a single
  takeover, no second match, and no event that reached the
  log although its publish failed.
-/
def SoloOk (room : State α) : Act α → Prop
| .takeover _ _ _ => room.loads.isEmpty = true
| .check isLeader => isLeader = false
| .resume (.fail _) => room.keptPending = false
| _ => True

instance
    (room : State α) :
    (act : Act α) → Decidable (SoloOk room act)
| .takeover _ _ _ =>
    inferInstanceAs (Decidable (room.loads.isEmpty = true))
| .check isLeader =>
    inferInstanceAs (Decidable (isLeader = false))
| .resume (.fail _) =>
    inferInstanceAs (Decidable (room.keptPending = false))
| .resume .effect => inferInstanceAs (Decidable True)
| .resume (.ok _) => inferInstanceAs (Decidable True)
| .delete _ => inferInstanceAs (Decidable True)
| .input _ _ => inferInstanceAs (Decidable True)
| .join _ _ => inferInstanceAs (Decidable True)
| .leave _ => inferInstanceAs (Decidable True)
| .crash => inferInstanceAs (Decidable True)
| .evict _ => inferInstanceAs (Decidable True)
| .service _ => inferInstanceAs (Decidable True)

/- The loop has committed the whole log. -/
def Level
    (log : List (StateJson α))
    (g : GameLoop α) : Prop :=
  g.state.tick = log.length ∧
    ∀ e ∈ log, e.roster.keys ⊆ g.state.players.keys

/- How the log stands while the task is suspended. -/
def SoloTask
    (log : List (StateJson α))
    (g : GameLoop α) :
    MatchTask α → Prop
| .inRun (.publishing next event none) =>
    Level log g ∧
      event.tick = some (log.length + 1) ∧
      event.players = some (playersJson next) ∧
      ∀ e ∈ log, e.roster.keys ⊆ next.keys
| .inRun (.publishing next event (some _)) =>
    event.tick = some log.length ∧
      event.players = some (playersJson next) ∧
      ∀ e ∈ log, e.roster.keys ⊆ next.keys
| .inRun _ => Level log g
| .deleting _ => False
| .gone => True

structure Solo (room : State α) : Prop where
  snapshots : Snapshots room.log
  leader :
    ∀ ld, room.leader = some ld →
      room.loads ≠ [] ∧ SoloTask room.log ld.loop ld.task
  origin :
    Replay.FromLog room.log room.service room.checkpoints
  fresh :
    room.loads = [] →
      room.leader = none ∧ room.log = [] ∧
        room.stores.redis.state = none

/- A level log is left alone by what keeps tick and players. -/
theorem Level.of_keys
    {log : List (StateJson α)}
    {g g' : GameLoop α}
    (hLevel : Level log g)
    (hTick : g'.state.tick = g.state.tick)
    (hKeys :
      g.state.players.keys ⊆ g'.state.players.keys) :
    Level log g' := by
  refine ⟨hTick.trans hLevel.1, ?_⟩
  intro e hMem pid hPid
  exact hKeys (hLevel.2 e hMem hPid)

variable [PyNumber α]

theorem SoloTask.of_plays
    {log : List (StateJson α)}
    {g g' : GameLoop α}
    {task : MatchTask α}
    (hTask : SoloTask log g task)
    (hPlays : Plays g g') :
    SoloTask log g' task := by
  rcases hPlays.frame with ⟨hTick, hKeys⟩
  have hKeep : Level log g → Level log g' := fun hLevel =>
    hLevel.of_keys hTick hKeys
  cases task with
  | inRun aw =>
      cases aw with
      | publishing next event kept =>
          cases kept with
          | none => exact ⟨hKeep hTask.1, hTask.2⟩
          | some offset => exact hTask
      | _ => exact hKeep hTask
  | deleting applied => exact hTask
  | gone => exact hTask

/- The task comes back to its loop head. -/
theorem soloTask_loopHead
    {log : List (StateJson α)}
    {g : GameLoop α}
    (hLevel : Level log g) :
    SoloTask log (loopHead g).1 (.inRun (loopHead g).2) := by
  rcases hHead : loopHead g with ⟨g', aw⟩
  cases heads_loopHead hHead with
  | publish _ hBegin =>
      have hTick := isTick_of_beginTick hBegin
      rcases frame_beginTick hBegin with ⟨hState, _⟩
      refine ⟨?_, ?_, hTick.players, ?_⟩
      · exact hLevel.of_keys (by rw [hState])
          (by rw [hState]; exact List.Subset.refl _)
      · rw [hTick.tick, hLevel.1]
      · intro e hMem pid hPid
        exact hTick.keys (hLevel.2 e hMem hPid)
  | pause _ hBegin =>
      rcases frame_beginTick hBegin with ⟨hState, _⟩
      exact hLevel.of_keys (by rw [hState])
        (by rw [hState]; exact List.Subset.refl _)
  | finish _ => exact hLevel

omit [PyNumber α] in
/- The commit of an appended event makes the log level. -/
theorem level_commitTick
    {log : List (StateJson α)}
    {next : Players α}
    {event : StateJson α}
    (hTick : event.tick = some log.length)
    (hKeys : ∀ e ∈ log, e.roster.keys ⊆ next.keys)
    (g : GameLoop α)
    (offset : Int) :
    Level log (g.commitTick next event offset) := by
  refine ⟨?_, ?_⟩
  · simp [StateJson.tickOrZero, hTick]
  · intro e hMem pid hPid
    rw [GameLoop.players_commitTick, mem_keys_commitPlayers]
    exact Or.inr (hKeys e hMem hPid)

omit [PyNumber α] in
/- The end of a match changes no tick and no player's key. -/
theorem level_finishTick
    {log : List (StateJson α)}
    {g : GameLoop α}
    (hLevel : Level log g)
    (tick : Nat) :
    SoloTask log (finishTick g tick).1
      (.inRun (finishTick g tick).2) := by
  unfold finishTick
  split
  · have hEnded : Level log g.beginEndMatch := by
      refine hLevel.of_keys rfl ?_
      intro pid hPid
      simpa [GameLoop.beginEndMatch, GameLoop.setPlayers]
        using hPid
    exact hEnded
  · exact hLevel

/-
  One step of the run task: the log stays a log of
  snapshots, and the task stands to it as its await demands.
-/
theorem solo_awaits
    {matchNo : Nat}
    {st st' : Stores α}
    {g g' : GameLoop α}
    {aw aw' : Await α}
    {r : Reply}
    (hStep : Awaits matchNo st g aw r st' g' aw')
    (hKept :
      ∀ now next event kept,
        r = .fail now → aw = .publishing next event kept →
          kept = none)
    (hLog : Snapshots (st.events.map LogEntry.event))
    (hTask :
      SoloTask (st.events.map LogEntry.event) g
        (.inRun aw)) :
    Snapshots (st'.events.map LogEntry.event) ∧
      SoloTask (st'.events.map LogEntry.event) g'
        (.inRun aw') ∧
      st.events.map LogEntry.event ⊆
        st'.events.map LogEntry.event := by
  have hRefl :=
    List.Subset.refl (st.events.map LogEntry.event)
  cases hStep with
  | head hResumes =>
      have hLevel :
          Level (st.events.map LogEntry.event) g := by
        cases hResumes with
        | starting => exact hTask
        | sleeping => exact hTask
      exact ⟨hLog, soloTask_loopHead hLevel, hRefl⟩
  | @appendEvent next event =>
      rcases hTask with ⟨hLevel, hTick, hPlayers, hKeys⟩
      have hRoster : event.roster.keys = next.keys := by
        simp [StateJson.roster, hPlayers]
      rw [Stores.events_appendEvent, List.map_append,
        List.map_singleton]
      refine ⟨?_, ⟨?_, hPlayers, ?_⟩,
        List.subset_append_left _ _⟩
      · apply hLog.concat hTick ⟨next, hPlayers⟩
        rw [hRoster]
        exact hKeys
      · simpa using hTick
      · intro e hMem
        rcases List.mem_append.mp hMem with hOld | hNew
        · exact hKeys e hOld
        · rw [List.mem_singleton.mp hNew, hRoster]
          exact List.Subset.refl _
  | commit =>
      rcases hTask with ⟨hTick, _, hKeys⟩
      rw [Stores.map_event_ackEvent]
      exact ⟨hLog, level_commitTick hTick hKeys g _, hRefl⟩
  | @dropTick next event kept now =>
      cases hKept now next event kept rfl rfl
      exact ⟨hLog, hTask.1, hRefl⟩
  | redisEffect => exact ⟨hLog, hTask, hRefl⟩
  | redisNext _ => exact ⟨hLog, hTask, hRefl⟩
  | redisDone _ =>
      exact ⟨hLog, level_finishTick hTask _, hRefl⟩
  | redisFail => exact ⟨hLog, hTask, hRefl⟩
  | farewell => exact ⟨hLog, hTask, hRefl⟩
  | appendEnd => exact ⟨hLog, hTask, hRefl⟩
  | endPublished => exact ⟨hLog, hTask, hRefl⟩
  | endTelemetry =>
      unfold writeMatchRecord
      split
      · exact ⟨hLog, hTask, hRefl⟩
      · exact ⟨hLog, hTask, hRefl⟩
  | saveEffect =>
      rw [Stores.events_saveMatch]
      exact ⟨hLog, hTask, hRefl⟩
  | saved => exact ⟨hLog, hTask, hRefl⟩
  | saveFailed => exact ⟨hLog, hTask, hRefl⟩
  | retry =>
      unfold retrySave
      split
      · exact ⟨hLog, hTask, hRefl⟩
      · exact ⟨hLog, hTask, hRefl⟩

end Room

------------------------------------------------------------
-- The Whole Run
------------------------------------------------------------

namespace Room

open Py GameRoom Machine

variable {α : Type} [PyNumber α]

omit [PyNumber α] in
theorem solo_empty : Solo (State.empty : State α) := by
  refine ⟨Snapshots.nil, ?_, Replay.FromLog.empty [], ?_⟩
  · intro ld hLeader
    cases hLeader
  · intro _
    exact ⟨rfl, rfl, rfl⟩

/- Nothing is loaded in a room without a log. -/
theorem load_of_fresh
    {settings : Settings}
    {matchId : String}
    {room : State α}
    (hOrigin :
      Replay.FromLog room.log room.service room.checkpoints)
    (hLog : room.log = [])
    (hRedis : room.stores.redis.state = none)
    {now : Timestamp}
    {checkpointRead : Bool}
    {schedule : List (Option Nat)}
    {g : GameLoop α}
    (hLoad :
      loadState (GameLoop.new settings matchId now)
        (room.replies now checkpointRead schedule) =
          some g) :
    g.state = GameState.new matchId now := by
  have hNoRow : Replay.newest room.checkpoints = none := by
    cases hNewest : Replay.newest room.checkpoints with
    | none => rfl
    | some c =>
        rcases hOrigin.newest_spec hNewest with
          ⟨hSaved, e, hLast, _⟩
        have hMem := hSaved e (List.mem_of_getLast? hLast)
        rw [hLog] at hMem
        cases hMem
  have hCold : room.warm = false := by
    simp [State.warm, hRedis]
  have hLong : room.longEnough schedule := by
    simp [State.longEnough, hLog]
  rw [state_of_cold hCold hLong hLoad, hLog]
  simp only [State.checkpointReply, hNoRow]
  cases checkpointRead <;> rfl

/- Every admitted step of a solo match keeps its log. -/
theorem solo_step
    {settings : Settings}
    {interval : Nat}
    {matchId : String}
    {room room' : State α}
    {act : Act α}
    (hSolo : Solo room)
    (hOk : SoloOk room act)
    (hStep :
      step settings interval matchId room act =
        some room') :
    Solo room' := by
  rcases hSolo with ⟨hLog, hLeads, hOrigin, hFresh⟩
  cases steps_of_step hStep with
  | takeover hLeader hLoad =>
      rcases hFresh (List.isEmpty_iff.mp hOk) with
        ⟨_, hEmpty, hRedis⟩
      have hState :=
        load_of_fresh hOrigin hEmpty hRedis hLoad
      refine ⟨hLog, ?_, hOrigin, ?_⟩
      · intro ld hEq
        cases hEq
        refine ⟨by simp, ?_⟩
        have hLevel : Level room.log _ :=
          ⟨by rw [hState, hEmpty]; rfl, by
            rw [hEmpty]
            intro e hMem
            cases hMem⟩
        exact hLevel
      · intro hNone
        simp at hNone
  | resume hLeader hAwaits =>
      rcases hLeads _ hLeader with ⟨hLoaded, hTask⟩
      rcases solo_awaits hAwaits
          (by
            rintro now next event kept rfl rfl
            cases kept with
            | none => rfl
            | some offset =>
                simp [SoloOk, State.keptPending, hLeader]
                  at hOk)
          hLog hTask with
        ⟨hLog', hTask', hSub⟩
      refine ⟨hLog', ?_, hOrigin.mono hSub, ?_⟩
      · intro ld hEq
        cases hEq
        exact ⟨hLoaded, hTask'⟩
      · intro hNone
        exact absurd hNone hLoaded
  | check hLeader =>
      rcases hLeads _ hLeader with ⟨hLoaded, _⟩
      cases hOk
      refine ⟨hLog, ?_, hOrigin, ?_⟩
      · intro ld hEq
        cases hEq
        exact ⟨hLoaded, trivial⟩
      · intro hNone
        exact absurd hNone hLoaded
  | deleteKeys hLeader => exact (hLeads _ hLeader).2.elim
  | reset hLeader => exact (hLeads _ hLeader).2.elim
  | deleteFail hLeader => exact (hLeads _ hLeader).2.elim
  | play hLeader hPlays =>
      rcases hLeads _ hLeader with ⟨hLoaded, hTask⟩
      refine ⟨hLog, ?_, hOrigin, ?_⟩
      · intro ld hEq
        cases hEq
        exact ⟨hLoaded, hTask.of_plays hPlays⟩
      · intro hNone
        exact absurd hNone hLoaded
  | crash =>
      refine ⟨hLog, ?_, hOrigin, ?_⟩
      · intro ld hEq
        cases hEq
      · intro hNone
        exact ⟨rfl, (hFresh hNone).2⟩
  | evict =>
      refine ⟨hLog, hLeads, hOrigin, ?_⟩
      intro hNone
      rcases hFresh hNone with ⟨hLeader, hEmpty, hRedis⟩
      refine ⟨hLeader, hEmpty, ?_⟩
      exact Option.eq_none_iff_forall_not_mem.mpr
        (fun value hValue => by
          have hOld := room.stores.state_evict hValue
          rw [hRedis] at hOld
          cases hOld)
  | service hService =>
      exact
        ⟨hLog, hLeads,
          Replay.fromLog_step hOrigin hService, hFresh⟩

/-
  In every run of a match that one leader plays from the
  empty state, replaying the log rebuilds the last logged
  event; and so does replaying any prefix as a checkpoint
  and then the events past its tick.
-/
theorem replay_rebuilds
    {settings : Settings}
    {interval : Nat}
    {matchId : String}
    {room : State α}
    (hRun :
      Reaches (step settings interval matchId) SoloOk
        State.empty room)
    (now : Timestamp) :
    (∀ last, room.log.getLast? = some last →
      Rebuilds last
        ((GameState.new matchId now).replay room.log)) ∧
      ∀ before event after,
        room.log = before ++ event :: after →
          ((GameState.new matchId now).replay
              (before ++ [event])).replay
              (room.log.filter
                (isPastCheckpoint
                  (some event.tickOrZero))) =
            (GameState.new matchId now).replay room.log := by
  have hSolo : Solo room :=
    hRun.invariant solo_empty
      (fun hSolo hOk hStep => solo_step hSolo hOk hStep)
  constructor
  · intro last hLast
    have hLog := hSolo.snapshots
    rcases List.getLast?_eq_some_iff.mp hLast with
      ⟨before, hEq⟩
    rw [hEq] at hLog ⊢
    exact hLog.rebuilds_replay matchId now
  · intro before event after hEq
    have hLog := hSolo.snapshots
    rw [hEq] at hLog ⊢
    rw [hLog.filter_past, ← GameState.replay_append]
    simp

/- Two ticks, between which a second player joins. -/
def soloMatch : State Int :=
  final (step {} 1 "room") State.empty
    [.takeover 100 true [], .join "ann" none,
      .resume (.ok 101), .resume .effect, .resume (.ok 102),
      .join "bob" none, .resume (.fail 103),
      .resume (.ok 104), .resume .effect, .resume (.ok 105)]
    (by decide)

theorem replay_rebuilds_soloMatch :
    soloMatch.log.length = 2 ∧
      ∀ last, soloMatch.log.getLast? = some last →
        Rebuilds last
          ((GameState.new "room" 0).replay
            soloMatch.log) :=
  ⟨by decide,
    (replay_rebuilds
      (reaches_of_run (run_eq_final (by decide)) (by decide))
      0).1⟩

end Room
