import Mathlib.Data.List.Count
import MultiplayerInfra.Election.LeaderElection
import MultiplayerInfra.Room.Loading

/-
  A game-room process with its game loops, as it meets the
  stores that all replicas of a room share.

  Key definitions include:
    * `Fleet.Process`
    * `Fleet.handleLeadershipGained`
    * `Fleet.handleLeadershipLost`
    * `Fleet.ProcessAct`
    * `Fleet.Note`
    * `Fleet.Process.step`

  The election thread sets `is_leader` and dispatches its
  callback in two steps.  A `load_state` reads the stores at
  one moment.  A call to a store that raises took effect
  before it raised, or never does.
-/

------------------------------------------------------------
-- Processes
------------------------------------------------------------

namespace Fleet

open Py GameRoom
open Election (Callback)

/- A task of `run_matches`. -/
inductive MatchTask (α : Type) where
  | created (current : Option Nat)
  | inRun (current : Nat) (aw : Await α)
  -- in `redis_client.delete`
  | deleting (current : Nat) (applied : Bool)
  -- returned, or ended by an exception
  | gone

/- The globals and the tasks of a process. -/
structure Process (α : Type) where
  isLeader : Bool
  -- the callback that the election thread has to dispatch
  announced : Option Callback
  -- dispatched callbacks whose tasks have not started
  pending : List Callback
  -- the loops in `load_state`, one for each handler
  loading : List Nat
  gameLoop : Option Nat
  -- every loop of the process, in the order of creation
  loops : List (GameLoop α)
  tasks : List (MatchTask α)

variable {α : Type}

namespace Process

def new : Process α where
  isLeader := false
  announced := none
  pending := []
  loading := []
  gameLoop := none
  loops := []
  tasks := []

/- `game_loop and game_loop.running`. -/
def gameLoopRunning (p : Process α) : Bool :=
  match p.gameLoop with
  | none => false
  | some b => (p.loops[b]?).any GameLoop.running

def onLoop
    (p : Process α)
    (b : Nat)
    (f : GameLoop α → GameLoop α) : Process α :=
  { p with loops := p.loops.modify b f }

def setTask
    (p : Process α)
    (t : Nat)
    (task : MatchTask α) : Process α :=
  { p with tasks := p.tasks.set t task }

end Process

/- To the first await: `load_state`, or the early return. -/
def handleLeadershipGained
    (settings : Settings)
    (matchId : String)
    (now : Timestamp)
    (p : Process α) : Process α :=
  if p.gameLoopRunning then p
  else
    { p with
      loops := p.loops ++ [GameLoop.new settings matchId now]
      gameLoop := some p.loops.length
      loading := p.loading ++ [p.loops.length] }

/- To the first await, after which only sockets are told. -/
def handleLeadershipLost (p : Process α) : Process α :=
  match p.gameLoop with
  | none => p
  | some b =>
      { p.onLoop b GameLoop.stop with gameLoop := none }

/- `game_loop.stop()` in `shutdown`. -/
def stopLoop (p : Process α) : Process α :=
  match p.gameLoop with
  | none => p
  | some b => p.onLoop b GameLoop.stop

/- The entry of `run` of a fresh loop, after a match. -/
def nextMatch
    (settings : Settings)
    (matchId : String)
    (now : Timestamp)
    (p : Process α)
    (t : Nat) : Process α :=
  let run := beginRun (GameLoop.new settings matchId now)
  { p.setTask t (.inRun p.loops.length run.2) with
    loops := p.loops ++ [run.1]
    gameLoop := some p.loops.length }

end Fleet

------------------------------------------------------------
-- Steps
------------------------------------------------------------

namespace Fleet

open Py GameRoom
open Election (Callback)

inductive ProcessAct (α : Type) where
  -- the election thread
  | win
  | lose
  | dispatch
  | cleanup
  -- the task of the next callback starts
  | start (now : Timestamp)
  -- the `load_state` of a handler
  | load
      (k : Nat)
      (now : Timestamp)
      (checkpointRead : Bool)
      (schedule : List (Option Nat))
  | loadFail (k : Nat)
  -- the tasks of `run_matches`
  | enter (t : Nat)
  | resume (t : Nat) (r : Reply)
  | check (t : Nat)
  | delete (t : Nat) (r : Reply)
  -- a player sends, joins or leaves
  | input (b : Nat) (playerId : String) (inputData : Json α)
  | join
      (b : Nat)
      (playerId : String)
      (hold : Option (HoldJson α))
  | leave (b : Nat) (playerId : String)
  -- `shutdown`
  | stop
  -- the process exits or is killed
  | crash

/- What is recorded of a step. -/
inductive Note where
  -- the leader key was won
  | won
  -- whether a `load_state` missed no event of the log
  | loaded (complete : Bool)
  -- a state event was appended or acknowledged
  | appended
  | acked
  -- a command of `_update_redis` took effect
  | wrote (tick : Option Nat)
  -- the keys of the room were deleted after a match
  | cleared
deriving DecidableEq

structure Outcome (α : Type) where
  process : Process α
  stores : Stores α
  note : Option Note

/- The tick that a command stores. -/
def tickOf {α : Type} : RedisCmd α → Option Nat
| .setState value => some value.tickOrZero
| _ => none

/- The record of a step of a run task. -/
def noteOf {α : Type} : Await α → Reply → Option Note
| .publishing _ _ none, .effect => some .appended
| .publishing _ _ (some _), .ok _ => some .acked
| .updatingRedis _ cmd false, .effect =>
    some (.wrote (tickOf cmd))
| _, _ => none

/- Redis is read, or the log is replayed to its end. -/
def completeLoad
    {α : Type}
    (room : Room.State α)
    (schedule : List (Option Nat)) : Bool :=
  room.warm || decide (room.longEnough schedule)

variable {α : Type} [PyNumber α]

namespace Process

/- A handler returns from `load_state`. -/
def finishLoad
    (room : Room.State α)
    (p : Process α)
    (k : Nat)
    (now : Timestamp)
    (checkpointRead : Bool)
    (schedule : List (Option Nat)) :
    Option (Outcome α) := do
  let b ← p.loading[k]?
  let g ← p.loops[b]?
  let g' ←
    loadState g (room.replies now checkpointRead schedule)
  -- the global is read again, after the await
  return {
    process := { p with
      loading := p.loading.eraseIdx k
      loops := p.loops.set b g'
      tasks := p.tasks ++ [.created p.gameLoop] }
    stores := room.stores
    note := some (.loaded (completeLoad room schedule)) }

/- One step of a run task. -/
def resumeRun
    (room : Room.State α)
    (p : Process α)
    (t : Nat)
    (r : Reply) : Option (Outcome α) :=
  match p.tasks[t]? with
  | some (.inRun b aw) => do
      let g ← p.loops[b]?
      let (stores, g', aw') ← awaitStep b room.stores g aw r
      return {
        process :=
          { p.setTask t (.inRun b aw') with
            loops := p.loops.set b g' }
        stores := stores
        note := noteOf aw r }
  | _ => none

/- A step that leaves the stores alone. -/
def alone
    (room : Room.State α)
    (p : Process α) : Outcome α where
  process := p
  stores := room.stores
  note := none

/-
  One step of a process.  Of `room`, the stores and the
  replay service are read.
-/
def step
    (settings : Settings)
    (matchId : String)
    (room : Room.State α)
    (p : Process α) :
    ProcessAct α → Option (Outcome α)
| .win =>
    if p.isLeader = false ∧ p.announced = none then
      some { alone room { p with
          isLeader := true
          announced := some .elected } with
        note := some .won }
    else none
| .lose =>
    if p.isLeader = true ∧ p.announced = none then
      some (alone room { p with
        isLeader := false
        announced := some .lost })
    else none
| .dispatch =>
    p.announced.map (fun callback =>
      alone room { p with
        announced := none
        pending := p.pending ++ [callback] })
| .cleanup => some (alone room { p with isLeader := false })
| .start now =>
    match p.pending with
    | [] => none
    | .elected :: pending =>
        some (alone room
          (handleLeadershipGained settings matchId now
            { p with pending := pending }))
    | .lost :: pending =>
        some (alone room
          (handleLeadershipLost
            { p with pending := pending }))
| .load k now checkpointRead schedule =>
    p.finishLoad room k now checkpointRead schedule
| .loadFail k =>
    (p.loading[k]?).map (fun _ =>
      alone room { p with loading := p.loading.eraseIdx k })
| .enter t =>
    match p.tasks[t]? with
    | some (.created (some b)) =>
        (p.loops[b]?).map (fun g =>
          alone room
            { p.setTask t (.inRun b (beginRun g).2) with
              loops := p.loops.set b (beginRun g).1 })
    | some (.created none) =>
        -- `None` has no `run`
        some (alone room (p.setTask t .gone))
    | _ => none
| .resume t r => p.resumeRun room t r
| .check t =>
    match p.tasks[t]? with
    | some (.inRun b .returned) =>
        some (alone room (p.setTask t
          (if p.gameLoop = some b ∧ p.isLeader = true then
            .deleting b false
          else .gone)))
    | _ => none
| .delete t r =>
    match p.tasks[t]?, r with
    | some (.deleting b false), .effect =>
        some {
          process := p.setTask t (.deleting b true)
          stores := room.stores.deleteRoomKeys
          note := some .cleared }
    | some (.deleting _ true), .ok now =>
        some (alone room (nextMatch settings matchId now p t))
    | some (.deleting _ _), .fail _ =>
        some (alone room (p.setTask t .gone))
    | _, _ => none
| .input b playerId inputData =>
    some (alone room (p.onLoop b (fun g =>
      g.enqueueInput playerId inputData)))
| .join b playerId hold =>
    some (alone room (p.onLoop b (fun g =>
      g.addPlayer playerId hold)))
| .leave b playerId =>
    some (alone room (p.onLoop b (fun g =>
      (g.removePlayer playerId).1)))
| .stop => some (alone room (stopLoop p))
| .crash => some (alone room Process.new)

end Process

end Fleet
