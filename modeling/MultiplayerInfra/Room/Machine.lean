import MultiplayerInfra.GameRoom.RunTask
import MultiplayerInfra.Machine.Run
import MultiplayerInfra.Replay.Service

/-
  A room led by one replica at a time: matches back to back,
  crashes at any await, and takeovers by `load_state`.

  Key definitions include:
    * `Room.Leader`
    * `Room.State`
    * `Room.Act`
    * `Room.step`
    * `Room.Steps`

  Key theorems include:
    * `Room.steps_of_step`

  A replica that loses its lease is a crashed one: its task
  is gone.  Matches are numbered by the resets of
  `run_matches`, and the number of the match that a loaded
  state comes from is recorded with the leader.  The fields
  below `leader` are such records, which no step reads.
-/

------------------------------------------------------------
-- The State
------------------------------------------------------------

namespace Room

open Py GameRoom Kafka

variable {α : Type}

/- Where the task of `run_matches` is. -/
inductive MatchTask (α : Type) where
  -- in `current.run()`
  | inRun (aw : Await α)
  -- in `redis_client.delete(...)`
  | deleting (applied : Bool)
  -- returned, or ended by an exception
  | gone

structure Leader (α : Type) where
  loop : GameLoop α
  matchNo : Nat
  task : MatchTask α

/- The outcome of a `load_state`, with what it should match. -/
structure Load (α : Type) where
  cold : Bool
  resets : Nat
  logged : List (LogEntry α)
  lastAcked : Option (StateJson α)
  loaded : GameState α

structure State (α : Type) where
  stores : Stores α
  service : Replay.Service α
  checkpoints : Replay.Checkpoints α
  leader : Option (Leader α)
  -- the matches that `run_matches` started after the first
  resets : Nat
  -- the match whose state was written to Redis last
  redisMatch : Nat
  -- the last event whose acknowledgement was received
  lastAcked : Option (StateJson α)
  -- the state of that event was written to Redis
  saved : Bool
  loads : List (Load α)

def State.empty : State α where
  stores := Stores.empty
  service := Replay.Service.empty
  checkpoints := Dict.empty
  leader := none
  resets := 0
  redisMatch := 0
  lastAcked := none
  saved := false
  loads := []

inductive Act (α : Type) where
  -- a replica is elected and loads the state
  | takeover
      (now : Timestamp)
      (checkpointRead : Bool)
      (schedule : List (Option Nat))
  | resume (r : Reply)
  -- `run` has returned; the value of `election.is_leader`
  | check (isLeader : Bool)
  | delete (r : Reply)
  | input (playerId : String) (inputData : Json α)
  | join (playerId : String) (hold : Option (HoldJson α))
  | leave (playerId : String)
  | crash
  | evict (key : RoomKey)
  | service (act : Replay.Act)

end Room

------------------------------------------------------------
-- Taking Over
------------------------------------------------------------

namespace Room

open Py GameRoom Kafka

variable {α : Type}

namespace State

/- The events of the room, without their records. -/
def log (room : State α) : List (StateJson α) :=
  room.stores.events.map LogEntry.event

/- All events of a room are in one partition. -/
def topic (room : State α) : Topic (StateJson α) :=
  [{ low := 0, records := room.log }]

/- Both keys are present, so `load_state` reads Redis. -/
def warm (room : State α) : Bool :=
  room.stores.redis.state.isSome &&
    room.stores.redis.lastOffset.isSome

/- What the stores answer to a `load_state`. -/
def replies
    (room : State α)
    (now : Timestamp)
    (checkpointRead : Bool)
    (schedule : List (Option Nat)) :
    LoadReplies α where
  redis :=
    some (room.stores.redis.state,
      room.stores.redis.lastOffset)
  checkpoint :=
    if checkpointRead then
      some (Replay.newest room.checkpoints)
    else none
  topic := some room.topic
  polls := deliver room.topic (fun _ => 0) schedule
  now := now

/-
  The match that a takeover resumes: the one that wrote the
  state in Redis, or else the one of the last event.  In the
  second case the loaded state may hold the players and the
  tick of earlier matches too, whose events are replayed
  with it.
-/
def resumed (room : State α) : Nat :=
  if room.warm then room.redisMatch
  else
    (room.stores.events.getLast?.map
      LogEntry.producer).getD room.resets

end State

/- The acknowledged event, when a reply acknowledges one. -/
def ackedBy : Await α → Reply → Option (StateJson α)
| .publishing _ event (some _), .ok _ => some event
| _, _ => none

/- The reply is the effect of writing the state to Redis. -/
def savesState : Await α → Reply → Bool
| .updatingRedis _ (.setState _) false, .effect => true
| _, _ => false

/- The records that go with a step of the run task. -/
def State.note
    (room : State α)
    (matchNo : Nat)
    (aw : Await α)
    (r : Reply) :
    State α :=
  { room with
    redisMatch :=
      if savesState aw r then matchNo else room.redisMatch
    lastAcked :=
      (ackedBy aw r).or room.lastAcked
    saved :=
      savesState aw r ||
        (room.saved && (ackedBy aw r).isNone) }

end Room

------------------------------------------------------------
-- Steps
------------------------------------------------------------

namespace Room

open Py GameRoom Kafka

variable {α : Type} [PyNumber α]

/- The task of `run_matches` at the entry of a loop's `run`. -/
def Leader.begin
    (g : GameLoop α)
    (matchNo : Nat) :
    Leader α where
  loop := (beginRun g).1
  matchNo := matchNo
  task := .inRun (beginRun g).2

/- The record of a takeover. -/
def State.loadRecord
    (room : State α)
    (loaded : GameState α) :
    Load α where
  cold := !room.warm
  resets := room.resets
  logged := room.stores.events
  lastAcked := room.lastAcked
  loaded := loaded

/- One step of the run task of the leader. -/
def resume
    (room : State α)
    (r : Reply) :
    Option (State α) :=
  match room.leader with
  | some ⟨g, matchNo, .inRun aw⟩ =>
      (awaitStep matchNo room.stores g aw r).map
        (fun (stores, g', aw') =>
          { room.note matchNo aw r with
            stores := stores
            leader := some ⟨g', matchNo, .inRun aw'⟩ })
  | _ => none

def step
    (settings : Settings)
    (interval : Nat)
    (matchId : String)
    (room : State α) :
    Act α → Option (State α)
| .takeover now checkpointRead schedule =>
    match room.leader with
    | some _ => none
    | none =>
        (loadState (GameLoop.new settings matchId now)
          (room.replies now checkpointRead schedule)).map
          (fun g =>
            { room with
              leader := some (Leader.begin g room.resumed)
              loads :=
                room.loads ++ [room.loadRecord g.state] })
| .resume r => resume room r
| .check isLeader =>
    match room.leader with
    | some ⟨g, matchNo, .inRun .returned⟩ =>
        some { room with
          leader := some ⟨g, matchNo,
            if isLeader then .deleting false else .gone⟩ }
    | _ => none
| .delete r =>
    match room.leader, r with
    | some ⟨g, matchNo, .deleting false⟩, .effect =>
        some { room with
          stores := room.stores.deleteRoomKeys
          leader := some ⟨g, matchNo, .deleting true⟩ }
    | some ⟨_, _, .deleting true⟩, .ok now =>
        some { room with
          resets := room.resets + 1
          leader := some (Leader.begin
            (GameLoop.new settings matchId now)
            (room.resets + 1)) }
    | some ⟨g, matchNo, .deleting _⟩, .fail _ =>
        some { room with leader := some ⟨g, matchNo, .gone⟩ }
    | _, _ => none
| .input playerId inputData =>
    room.leader.map (fun ld =>
      { room with
        leader := some { ld with
          loop := ld.loop.enqueueInput playerId inputData } })
| .join playerId hold =>
    room.leader.map (fun ld =>
      { room with
        leader := some { ld with
          loop := ld.loop.addPlayer playerId hold } })
| .leave playerId =>
    room.leader.map (fun ld =>
      { room with
        leader := some { ld with
          loop := (ld.loop.removePlayer playerId).1 } })
| .crash =>
    room.leader.map (fun _ => { room with leader := none })
| .evict key =>
    some { room with stores := room.stores.evict key }
| .service act =>
    (Replay.step interval room.log
      room.stores.lifecycle.length room.service
      room.checkpoints act).map
      (fun (service, checkpoints) =>
        { room with
          service := service
          checkpoints := checkpoints })

end Room

------------------------------------------------------------
-- The Kinds of Steps
------------------------------------------------------------

namespace Room

open Py GameRoom Kafka

variable {α : Type} [PyNumber α]

/- What players do to the loop of a leader. -/
inductive Plays (g : GameLoop α) : GameLoop α → Prop where
  | input (playerId : String) (inputData : Json α) :
      Plays g (g.enqueueInput playerId inputData)
  | join (playerId : String) (hold : Option (HoldJson α)) :
      Plays g (g.addPlayer playerId hold)
  | leave (playerId : String) :
      Plays g (g.removePlayer playerId).1

/- Players neither change the tick nor remove anybody. -/
theorem Plays.frame
    {g g' : GameLoop α}
    (hPlays : Plays g g') :
    g'.state.tick = g.state.tick ∧
      g.state.players.keys ⊆ g'.state.players.keys := by
  cases hPlays with
  | input playerId inputData =>
      exact ⟨rfl, List.Subset.refl _⟩
  | join playerId hold =>
      exact
        ⟨g.tick_addPlayer playerId hold,
          g.subset_keys_addPlayer playerId hold⟩
  | leave playerId =>
      exact
        ⟨g.tick_removePlayer playerId,
          g.subset_keys_removePlayer playerId⟩

/- The transitions of `step`, one for each kind. -/
inductive Steps
    (settings : Settings)
    (interval : Nat)
    (matchId : String)
    (room : State α) :
    Act α → State α → Prop where
  | takeover
      {now : Timestamp} {checkpointRead : Bool}
      {schedule : List (Option Nat)} {g : GameLoop α}
      (hLeader : room.leader = none)
      (hLoad :
        loadState (GameLoop.new settings matchId now)
          (room.replies now checkpointRead schedule) =
            some g) :
      Steps settings interval matchId room
        (.takeover now checkpointRead schedule)
        { room with
          leader := some (Leader.begin g room.resumed)
          loads := room.loads ++ [room.loadRecord g.state] }
  | resume
      {g g' : GameLoop α} {matchNo : Nat}
      {aw aw' : Await α} {r : Reply} {stores : Stores α}
      (hLeader : room.leader = some ⟨g, matchNo, .inRun aw⟩)
      (hAwaits :
        Awaits matchNo room.stores g aw r stores g' aw') :
      Steps settings interval matchId room (.resume r)
        { room.note matchNo aw r with
          stores := stores
          leader := some ⟨g', matchNo, .inRun aw'⟩ }
  | check
      {g : GameLoop α} {matchNo : Nat} {isLeader : Bool}
      (hLeader :
        room.leader = some ⟨g, matchNo, .inRun .returned⟩) :
      Steps settings interval matchId room (.check isLeader)
        { room with
          leader := some ⟨g, matchNo,
            if isLeader then .deleting false else .gone⟩ }
  | deleteKeys
      {g : GameLoop α} {matchNo : Nat}
      (hLeader :
        room.leader = some ⟨g, matchNo, .deleting false⟩) :
      Steps settings interval matchId room (.delete .effect)
        { room with
          stores := room.stores.deleteRoomKeys
          leader := some ⟨g, matchNo, .deleting true⟩ }
  | reset
      {g : GameLoop α} {matchNo : Nat} {now : Timestamp}
      (hLeader :
        room.leader = some ⟨g, matchNo, .deleting true⟩) :
      Steps settings interval matchId room (.delete (.ok now))
        { room with
          resets := room.resets + 1
          leader := some (Leader.begin
            (GameLoop.new settings matchId now)
            (room.resets + 1)) }
  | deleteFail
      {g : GameLoop α} {matchNo : Nat} {applied : Bool}
      {now : Timestamp}
      (hLeader :
        room.leader = some ⟨g, matchNo, .deleting applied⟩) :
      Steps settings interval matchId room
        (.delete (.fail now))
        { room with leader := some ⟨g, matchNo, .gone⟩ }
  | play
      {act : Act α} {ld : Leader α} {g : GameLoop α}
      (hLeader : room.leader = some ld)
      (hPlays : Plays ld.loop g) :
      Steps settings interval matchId room act
        { room with leader := some { ld with loop := g } }
  | crash :
      Steps settings interval matchId room .crash
        { room with leader := none }
  | evict {key : RoomKey} :
      Steps settings interval matchId room (.evict key)
        { room with stores := room.stores.evict key }
  | service
      {act : Replay.Act} {service : Replay.Service α}
      {checkpoints : Replay.Checkpoints α}
      (hService :
        Replay.step interval room.log
          room.stores.lifecycle.length room.service
          room.checkpoints act =
            some (service, checkpoints)) :
      Steps settings interval matchId room (.service act)
        { room with
          service := service
          checkpoints := checkpoints }

/- Every step of the function is one of the transitions. -/
theorem steps_of_step
    {settings : Settings}
    {interval : Nat}
    {matchId : String}
    {room room' : State α}
    {act : Act α}
    (hStep :
      step settings interval matchId room act = some room') :
    Steps settings interval matchId room act room' := by
  cases act with
  | takeover now checkpointRead schedule =>
      simp only [step] at hStep
      split at hStep
      · cases hStep
      · rename_i hLeader
        rcases Option.map_eq_some_iff.mp hStep with
          ⟨g, hLoad, rfl⟩
        exact .takeover hLeader hLoad
  | resume r =>
      simp only [step, resume] at hStep
      split at hStep
      · rename_i hLeader
        rcases Option.map_eq_some_iff.mp hStep with
          ⟨⟨stores, g', aw'⟩, hAwait, rfl⟩
        exact .resume hLeader (awaits_of_awaitStep hAwait)
      · cases hStep
  | check isLeader =>
      simp only [step] at hStep
      split at hStep
      · rename_i hLeader
        cases hStep
        exact .check hLeader
      · cases hStep
  | delete r =>
      simp only [step] at hStep
      split at hStep
      · rename_i hLeader
        cases hStep
        exact .deleteKeys hLeader
      · rename_i hLeader
        cases hStep
        exact .reset hLeader
      · rename_i hLeader
        cases hStep
        exact .deleteFail hLeader
      · cases hStep
  | input playerId inputData =>
      rcases Option.map_eq_some_iff.mp hStep with
        ⟨ld, hLeader, rfl⟩
      exact .play hLeader (.input playerId inputData)
  | join playerId hold =>
      rcases Option.map_eq_some_iff.mp hStep with
        ⟨ld, hLeader, rfl⟩
      exact .play hLeader (.join playerId hold)
  | leave playerId =>
      rcases Option.map_eq_some_iff.mp hStep with
        ⟨ld, hLeader, rfl⟩
      exact .play hLeader (.leave playerId)
  | crash =>
      rcases Option.map_eq_some_iff.mp hStep with
        ⟨ld, _, rfl⟩
      exact .crash
  | evict key =>
      cases hStep
      exact .evict
  | service act =>
      rcases Option.map_eq_some_iff.mp hStep with
        ⟨⟨service, checkpoints⟩, hService, rfl⟩
      exact .service hService

end Room
