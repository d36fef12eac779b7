import MultiplayerInfra.GameRoom.Stores

/-
  The task that executes `GameLoop.run`, from await to
  await.

  Key definitions include:
    * `GameRoom.Await`
    * `GameRoom.Reply`
    * `GameRoom.beginRun`
    * `GameRoom.loopHead`
    * `GameRoom.awaitStep`
    * `GameRoom.Awaits`

  Key theorems include:
    * `GameRoom.awaits_of_awaitStep`
    * `GameRoom.heads_loopHead`
    * `GameRoom.shows_commitTick`

  A suspended task waits for a call to a store, for a socket
  or for a timer.  The environment answers with a `Reply`:
  first the call may take effect, then it returns or raises.
  A call that raises may have taken effect before.  A crash
  removes the task between any two of these steps.
-/

------------------------------------------------------------
-- Suspension Points
------------------------------------------------------------

namespace GameRoom

open Py

/- Where the run task is suspended, with its local variables. -/
inductive Await (α : Type) where
  -- `_publish_event` of the telemetry event `match_start`
  | starting
  -- `asyncio.sleep` at the end of an iteration
  | sleeping
  -- `_publish_event` of a tick; the offset, once appended
  | publishing
      (next : Players α)
      (event : StateJson α)
      (kept : Option Nat)
  -- a command of `_update_redis` after the commit of a tick
  | updatingRedis
      (tick : Nat)
      (cmd : RedisCmd α)
      (applied : Bool)
  -- `send_json` and `close` on the sockets in `end_match`
  | closingSockets
  -- `_publish_event` of `match.end`
  | publishingEnd
      (event : MatchEnd)
      (kept : Bool)
  -- `_publish_event` of the telemetry event `match_end`
  | publishingEndTelemetry (outcome : Outcome)
  -- `db.save_match` in a thread
  | savingMatch
      (attempt : Nat)
      (row : MatchRecord)
      (applied : Bool)
  -- `asyncio.sleep` after a failed save
  | retryingSave
      (attempt : Nat)
      (row : MatchRecord)
  -- `run` has returned
  | returned

/-
  What happens to the call a task waits for.  The clock
  reading is the one the task sees when it resumes.
-/
inductive Reply where
  | effect
  | ok (now : Timestamp)
  | fail (now : Timestamp)
deriving DecidableEq

variable {α : Type}

/- The entry of `run`, which waits for `match_start`. -/
def beginRun
    (g : GameLoop α) :
    GameLoop α × Await α :=
  ({ g with running := true }, .starting)

/- The head of the `while` loop of `run`, to the next await. -/
def loopHead
    [PyNumber α]
    (g : GameLoop α) :
    GameLoop α × Await α :=
  if g.running = true ∧ g.matchEnded = false then
    match g.beginTick with
    | (g', none) => (g', .sleeping)
    | (g', some (next, event)) =>
        (g', .publishing next event none)
  else
    (g, .returned)

/-
  The command after a completed one in `_update_redis`.  Its
  arguments are read from the loop at that moment.
-/
def nextRedisCmd
    (g : GameLoop α) :
    RedisCmd α → Option (RedisCmd α)
| .setState _ =>
    some (.setOffset g.lastCommittedKafkaOffset)
| .setOffset _ =>
    if g.state.players.keys = [] then
      some (.expire .state)
    else some (.saddPlayers g.state.players.keys)
| .saddPlayers _ => some (.expire .state)
| .expire .state => some (.expire .lastOffset)
| .expire .lastOffset => some (.expire .players)
| .expire .players => none

/- Only the first command carries a state. -/
theorem ne_setState_of_nextRedisCmd
    {g : GameLoop α}
    {cmd cmd' : RedisCmd α}
    (hNext : nextRedisCmd g cmd = some cmd')
    (data : StateJson α) :
    cmd' ≠ .setState data := by
  rintro rfl
  unfold nextRedisCmd at hNext
  split at hNext
  · cases hNext
  · split at hNext <;> cases hNext
  · cases hNext
  · cases hNext
  · cases hNext
  · cases hNext

/- The end of `_process_tick`, after `_update_redis`. -/
def finishTick
    (g : GameLoop α)
    (tick : Nat) :
    GameLoop α × Await α :=
  if g.matchDurationTicks ≤ tick ∧ g.matchEnded = false then
    (g.beginEndMatch, .closingSockets)
  else
    (g, .sleeping)

/- The end of `end_match`, from `_write_match_record`. -/
def writeMatchRecord
    (g : GameLoop α)
    (outcome : Outcome)
    (now : Timestamp) :
    Await α :=
  if g.state.players.keys = [] then .sleeping
  else .savingMatch 1 (g.matchRecord outcome now) false

/- After a failed save and its pause: three attempts. -/
def retrySave
    (g : GameLoop α)
    (attempt : Nat)
    (row : MatchRecord) :
    Await α :=
  if attempt < 3 then
    .savingMatch (attempt + 1)
      (g.matchRecord row.outcome row.endedAt) false
  else .sleeping

end GameRoom

------------------------------------------------------------
-- Steps
------------------------------------------------------------

namespace GameRoom

open Py

variable {α : Type} [PyNumber α]

/-
  One step of the call a run task waits for, or of the task
  once the call has returned.  `producer` marks the records
  that it appends.
-/
def awaitStep
    (producer : Nat)
    (st : Stores α)
    (g : GameLoop α) :
    Await α → Reply →
      Option (Stores α × GameLoop α × Await α)
| .starting, .ok _ =>
    some (st, loopHead g)
| .starting, .fail _ =>
    some (st, loopHead g)
| .sleeping, .ok _ =>
    some (st, loopHead g)
| .publishing next event none, .effect =>
    some (st.appendEvent producer event, g,
      .publishing next event (some st.events.length))
| .publishing next event (some offset), .ok _ =>
    let g' := g.commitTick next event offset
    some (st.ackEvent offset, g',
      .updatingRedis event.tickOrZero
        (.setState g'.state.toDict) false)
| .publishing _ _ _, .fail _ =>
    some (st, g, .sleeping)
| .updatingRedis tick cmd false, .effect =>
    some (st.runRedis cmd, g,
      .updatingRedis tick cmd true)
| .updatingRedis tick cmd true, .ok _ =>
    match nextRedisCmd g cmd with
    | some cmd' =>
        some (st, g, .updatingRedis tick cmd' false)
    | none => some (st, finishTick g tick)
| .updatingRedis _ _ _, .fail _ =>
    some (st, g, .sleeping)
| .closingSockets, .ok now =>
    some (st, g,
      .publishingEnd (g.lifecycleEvent now) false)
| .publishingEnd event false, .effect =>
    some (st.appendLifecycle producer event, g,
      .publishingEnd event true)
| .publishingEnd event true, .ok _ =>
    some (st, g, .publishingEndTelemetry event.outcome)
| .publishingEnd event _, .fail _ =>
    some (st, g, .publishingEndTelemetry event.outcome)
| .publishingEndTelemetry outcome, .ok now =>
    some (st, g, writeMatchRecord g outcome now)
| .publishingEndTelemetry outcome, .fail now =>
    some (st, g, writeMatchRecord g outcome now)
| .savingMatch attempt row false, .effect =>
    some (st.saveMatch row, g,
      .savingMatch attempt row true)
| .savingMatch _ _ true, .ok _ =>
    some (st, g, .sleeping)
| .savingMatch attempt row _, .fail _ =>
    some (st, g, .retryingSave attempt row)
| .retryingSave attempt row, .ok _ =>
    some (st, g, retrySave g attempt row)
| _, _ => none

/- The awaits after which `run` is back at its loop head. -/
inductive Resumes : Await α → Prop where
  | starting : Resumes .starting
  | sleeping : Resumes .sleeping

/-
  The transitions of `awaitStep`, one constructor for each
  kind of step.
-/
inductive Awaits
    (producer : Nat)
    (st : Stores α)
    (g : GameLoop α) :
    Await α → Reply →
      Stores α → GameLoop α → Await α → Prop where
  | head {aw : Await α} {r : Reply}
      (hResumes : Resumes aw) :
      Awaits producer st g aw r
        st (loopHead g).1 (loopHead g).2
  | appendEvent
      {next : Players α} {event : StateJson α} :
      Awaits producer st g
        (.publishing next event none) .effect
        (st.appendEvent producer event) g
        (.publishing next event (some st.events.length))
  | commit
      {next : Players α} {event : StateJson α}
      {offset : Nat} {now : Timestamp} :
      Awaits producer st g
        (.publishing next event (some offset)) (.ok now)
        (st.ackEvent offset)
        (g.commitTick next event offset)
        (.updatingRedis event.tickOrZero
          (.setState
            (g.commitTick next event offset).state.toDict)
          false)
  | dropTick
      {next : Players α} {event : StateJson α}
      {kept : Option Nat} {now : Timestamp} :
      Awaits producer st g
        (.publishing next event kept) (.fail now)
        st g .sleeping
  | redisEffect {tick : Nat} {cmd : RedisCmd α} :
      Awaits producer st g
        (.updatingRedis tick cmd false) .effect
        (st.runRedis cmd) g (.updatingRedis tick cmd true)
  | redisNext
      {tick : Nat} {cmd cmd' : RedisCmd α}
      {now : Timestamp}
      (hNext : nextRedisCmd g cmd = some cmd') :
      Awaits producer st g
        (.updatingRedis tick cmd true) (.ok now)
        st g (.updatingRedis tick cmd' false)
  | redisDone
      {tick : Nat} {cmd : RedisCmd α} {now : Timestamp}
      (hNext : nextRedisCmd g cmd = none) :
      Awaits producer st g
        (.updatingRedis tick cmd true) (.ok now)
        st (finishTick g tick).1 (finishTick g tick).2
  | redisFail
      {tick : Nat} {cmd : RedisCmd α}
      {applied : Bool} {now : Timestamp} :
      Awaits producer st g
        (.updatingRedis tick cmd applied) (.fail now)
        st g .sleeping
  | farewell {now : Timestamp} :
      Awaits producer st g .closingSockets (.ok now)
        st g (.publishingEnd (g.lifecycleEvent now) false)
  | appendEnd {event : MatchEnd} :
      Awaits producer st g
        (.publishingEnd event false) .effect
        (st.appendLifecycle producer event) g
        (.publishingEnd event true)
  | endPublished
      {event : MatchEnd} {kept : Bool} {r : Reply} :
      Awaits producer st g (.publishingEnd event kept) r
        st g (.publishingEndTelemetry event.outcome)
  | endTelemetry
      {outcome : Outcome} {r : Reply} {now : Timestamp} :
      Awaits producer st g
        (.publishingEndTelemetry outcome) r
        st g (writeMatchRecord g outcome now)
  | saveEffect {attempt : Nat} {row : MatchRecord} :
      Awaits producer st g
        (.savingMatch attempt row false) .effect
        (st.saveMatch row) g
        (.savingMatch attempt row true)
  | saved
      {attempt : Nat} {row : MatchRecord}
      {now : Timestamp} :
      Awaits producer st g
        (.savingMatch attempt row true) (.ok now)
        st g .sleeping
  | saveFailed
      {attempt : Nat} {row : MatchRecord}
      {applied : Bool} {now : Timestamp} :
      Awaits producer st g
        (.savingMatch attempt row applied) (.fail now)
        st g (.retryingSave attempt row)
  | retry
      {attempt : Nat} {row : MatchRecord}
      {now : Timestamp} :
      Awaits producer st g
        (.retryingSave attempt row) (.ok now)
        st g (retrySave g attempt row)

/- A transition whose loop and await are given as a pair. -/
private theorem awaits_of_pair
    {producer : Nat}
    {st st₁ st' : Stores α}
    {g g' : GameLoop α}
    {aw aw' : Await α}
    {r : Reply}
    {next : GameLoop α × Await α}
    (hAwaits : Awaits producer st g aw r st₁ next.1 next.2)
    (hEq : some (st₁, next) = some (st', g', aw')) :
    Awaits producer st g aw r st' g' aw' := by
  rcases next with ⟨g₁, aw₁⟩
  cases hEq
  exact hAwaits

/- Every step of the function is one of the transitions. -/
theorem awaits_of_awaitStep
    {producer : Nat}
    {st st' : Stores α}
    {g g' : GameLoop α}
    {aw aw' : Await α}
    {r : Reply}
    (hStep :
      awaitStep producer st g aw r = some (st', g', aw')) :
    Awaits producer st g aw r st' g' aw' := by
  unfold awaitStep at hStep
  split at hStep
  · exact awaits_of_pair (.head .starting) hStep
  · exact awaits_of_pair (.head .starting) hStep
  · exact awaits_of_pair (.head .sleeping) hStep
  · cases hStep
    exact .appendEvent
  · cases hStep
    exact .commit
  · cases hStep
    exact .dropTick
  · cases hStep
    exact .redisEffect
  · split at hStep
    · cases hStep
      exact .redisNext ‹_›
    · exact awaits_of_pair (.redisDone ‹_›) hStep
  · cases hStep
    exact .redisFail
  · cases hStep
    exact .farewell
  · cases hStep
    exact .appendEnd
  · cases hStep
    exact .endPublished
  · cases hStep
    exact .endPublished
  · cases hStep
    exact .endTelemetry
  · cases hStep
    exact .endTelemetry
  · cases hStep
    exact .saveEffect
  · cases hStep
    exact .saved
  · cases hStep
    exact .saveFailed
  · cases hStep
    exact .retry
  · cases hStep

end GameRoom

------------------------------------------------------------
-- What the Task Does Between Awaits
------------------------------------------------------------

namespace GameRoom

open Py

variable {α : Type} [PyNumber α]

/- What is published for the next tick of a loop. -/
structure IsTick
    (g : GameLoop α)
    (next : Players α)
    (event : StateJson α) : Prop where
  matchId : event.matchId = g.matchId
  tick : event.tick = some (g.state.tick + 1)
  players : event.players = some (playersJson next)
  keys : g.state.players.keys ⊆ next.keys

/- The loop head starts a tick, pauses or returns. -/
inductive Heads
    (g : GameLoop α) :
    GameLoop α → Await α → Prop where
  | publish
      {g' : GameLoop α} {next : Players α}
      {event : StateJson α}
      (hRunning : g.running = true ∧ g.matchEnded = false)
      (hBegin : g.beginTick = (g', some (next, event))) :
      Heads g g' (.publishing next event none)
  | pause
      {g' : GameLoop α}
      (hRunning : g.running = true ∧ g.matchEnded = false)
      (hBegin : g.beginTick = (g', none)) :
      Heads g g' .sleeping
  | finish
      (hDone : ¬ (g.running = true ∧ g.matchEnded = false)) :
      Heads g g .returned

theorem heads_loopHead
    {g g' : GameLoop α}
    {aw : Await α}
    (hHead : loopHead g = (g', aw)) :
    Heads g g' aw := by
  unfold loopHead at hHead
  by_cases hRunning :
      g.running = true ∧ g.matchEnded = false
  · rw [if_pos hRunning] at hHead
    split at hHead
    · cases hHead
      exact .pause hRunning ‹_›
    · cases hHead
      exact .publish hRunning ‹_›
  · rw [if_neg hRunning] at hHead
    cases hHead
    exact .finish hRunning

theorem isTick_of_beginTick
    {g g' : GameLoop α}
    {next : Players α}
    {event : StateJson α}
    (hBegin : g.beginTick = (g', some (next, event))) :
    IsTick g next event := by
  rcases GameLoop.beginTick_spec hBegin with
    ⟨hId, hTick, hPlayers, hKeys⟩
  exact ⟨hId, hTick, hPlayers, hKeys⟩

namespace IsTick

variable {g : GameLoop α} {next : Players α}
variable {event : StateJson α}

omit [PyNumber α] in
theorem tickOrZero
    (hTick : IsTick g next event) :
    event.tickOrZero = g.state.tick + 1 := by
  simp [StateJson.tickOrZero, hTick.tick]

omit [PyNumber α] in
theorem roster
    (hTick : IsTick g next event) :
    event.roster = playersJson next := by
  simp [StateJson.roster, hTick.players]

end IsTick

/- The fields of a loop that taking the inputs leaves alone. -/
theorem frame_beginTick
    {g g' : GameLoop α}
    {result : Option (Players α × StateJson α)}
    (hBegin : g.beginTick = (g', result)) :
    g'.state = g.state ∧ g'.matchId = g.matchId ∧
      g'.running = g.running ∧
        g'.matchEnded = g.matchEnded ∧
          g'.matchDurationTicks = g.matchDurationTicks := by
  cases hBegin
  exact ⟨rfl, rfl, rfl, rfl, rfl⟩

omit [PyNumber α] in
/- A committed loop shows the event of the tick. -/
theorem shows_commitTick
    {g : GameLoop α}
    {next : Players α}
    {event : StateJson α}
    (hRoster : event.roster = playersJson next)
    (offset : Int) :
    (g.commitTick next event offset).state.Shows event := by
  intro pid pdata hGet
  rw [hRoster, get?_playersJson] at hGet
  rcases Option.map_eq_some_iff.mp hGet with
    ⟨player, hPlayer, rfl⟩
  rw [GameLoop.players_commitTick, get?_commitPlayers,
    hPlayer]
  simp

end GameRoom

------------------------------------------------------------
-- What the Task Does to the Topics
------------------------------------------------------------

namespace GameRoom

open Py

variable {α : Type} [PyNumber α]
variable {producer : Nat}
variable {st st' : Stores α}
variable {g g' : GameLoop α}
variable {aw aw' : Await α}
variable {r : Reply}

/- A step keeps the event log, appends to it or marks it. -/
theorem events_of_awaits
    (hStep : Awaits producer st g aw r st' g' aw') :
    st'.events = st.events ∨
      (∃ next event,
        aw = .publishing next event none ∧
          st'.events =
            st.events ++ [⟨event, false, producer⟩]) ∨
      ∃ offset,
        st'.events = (st.ackEvent offset).events := by
  cases hStep with
  | appendEvent => exact Or.inr (Or.inl ⟨_, _, rfl, rfl⟩)
  | commit => exact Or.inr (Or.inr ⟨_, rfl⟩)
  | saveEffect => exact Or.inl (Stores.events_saveMatch _ _)
  | _ => exact Or.inl rfl

/- The log keeps its events and gains a published one. -/
theorem log_of_awaits
    (hStep : Awaits producer st g aw r st' g' aw') :
    st.events.map LogEntry.event ⊆
        st'.events.map LogEntry.event ∧
      ∀ event ∈ st'.events.map LogEntry.event,
        event ∈ st.events.map LogEntry.event ∨
          ∃ next, aw = .publishing next event none := by
  rcases events_of_awaits hStep with
    hSame | ⟨next, event, hAwait, hNew⟩ | ⟨offset, hAck⟩
  · rw [hSame]
    exact ⟨List.Subset.refl _, fun event hMem => Or.inl hMem⟩
  · rw [hNew, List.map_append, List.map_singleton]
    refine ⟨List.subset_append_left _ _, ?_⟩
    intro e hMem
    rcases List.mem_append.mp hMem with hOld | hLast
    · exact Or.inl hOld
    · rw [List.mem_singleton.mp hLast]
      exact Or.inr ⟨next, hAwait⟩
  · rw [hAck, Stores.map_event_ackEvent]
    exact ⟨List.Subset.refl _, fun event hMem => Or.inl hMem⟩

/- An event that is about to be published lists all fields. -/
theorem full_of_awaits
    (hStep : Awaits producer st g aw r st' g' aw')
    (hOld :
      ∀ next event kept,
        aw = .publishing next event kept → event.Full) :
    ∀ next event kept,
      aw' = .publishing next event kept → event.Full := by
  intro next event kept hEq
  cases hStep with
  | head _ =>
      rcases hHead : loopHead g with ⟨g₁, aw₁⟩
      rw [hHead] at hEq
      cases heads_loopHead hHead with
      | publish _ hBegin =>
          cases hEq
          exact ⟨_, (isTick_of_beginTick hBegin).players⟩
      | pause _ _ => cases hEq
      | finish _ => cases hEq
  | appendEvent =>
      cases hEq
      exact hOld _ _ _ rfl
  | redisDone _ =>
      unfold finishTick at hEq
      split at hEq <;> cases hEq
  | endTelemetry =>
      unfold writeMatchRecord at hEq
      split at hEq <;> cases hEq
  | retry =>
      unfold retrySave at hEq
      split at hEq <;> cases hEq
  | _ => cases hEq

/- The run task drops no player from its loop. -/
theorem subset_keys_of_awaits
    (hAwaits : Awaits producer st g aw r st' g' aw') :
    g.state.players.keys ⊆ g'.state.players.keys := by
  cases hAwaits with
  | head _ =>
      rcases hHead : loopHead g with ⟨g₁, aw₁⟩
      cases heads_loopHead hHead with
      | publish _ hBegin =>
          rw [(frame_beginTick hBegin).1]
          exact List.Subset.refl _
      | pause _ hBegin =>
          rw [(frame_beginTick hBegin).1]
          exact List.Subset.refl _
      | finish _ => exact List.Subset.refl _
  | commit =>
      intro p hMem
      rw [GameLoop.players_commitTick]
      exact (mem_keys_commitPlayers _ _ _).mpr (.inl hMem)
  | redisDone _ =>
      unfold finishTick
      split
      · intro p hMem
        simpa [GameLoop.beginEndMatch, GameLoop.setPlayers]
          using hMem
      · exact List.Subset.refl _
  | _ => exact List.Subset.refl _

/- Only the publish of `match.end` adds a lifecycle message. -/
theorem lifecycle_of_awaits
    (hStep : Awaits producer st g aw r st' g' aw') :
    st'.lifecycle = st.lifecycle ∨
      ∃ event,
        aw = .publishingEnd event false ∧
          aw' = .publishingEnd event true ∧
          g' = g ∧
          st'.lifecycle =
            st.lifecycle ++ [⟨event, producer⟩] := by
  cases hStep with
  | appendEnd => exact Or.inr ⟨_, rfl, rfl, rfl, rfl⟩
  | saveEffect =>
      exact Or.inl (Stores.lifecycle_saveMatch _ _)
  | _ => exact Or.inl rfl

omit [PyNumber α] in
/- An acknowledgement does not change who logged what. -/
theorem producer_of_mem_ackEvent
    {offset : Nat}
    {entry : LogEntry α}
    (hEntry : entry ∈ (st.ackEvent offset).events) :
    ∃ old ∈ st.events,
      old.producer = entry.producer ∧
        old.event = entry.event := by
  rcases List.mem_iff_getElem?.mp hEntry with ⟨i, hAt⟩
  simp only [Stores.ackEvent, List.getElem?_modify,
    Option.map_eq_map, Option.map_eq_some_iff] at hAt
  rcases hAt with ⟨old, hOld, rfl⟩
  refine ⟨old, List.mem_of_getElem? hOld, ?_⟩
  by_cases hEq : offset = i <;> simp [hEq]

end GameRoom
