import Mathlib.Data.Finset.Basic
import MultiplayerInfra.GameRoom.Recovery
import MultiplayerInfra.GameRoom.RunTask
import MultiplayerInfra.Machine.Run

/-
  The game loops of all replicas of a room and the tasks that
  run them, over shared stores.

  Key definitions include:
    * `GameRoom.Cluster`
    * `GameRoom.ClusterAct`
    * `GameRoom.Cluster.step`
    * `GameRoom.ClusterSteps`

  Key theorems include:
    * `GameRoom.clusterSteps_of_step`

  Nothing orders the actions: replicas may lead one after
  another or at the same time, and a loop may have several
  tasks.  The replies of a `load_state` and the hold slot of
  a join are arbitrary, whatever the stores contain.
-/

------------------------------------------------------------
-- The Machine
------------------------------------------------------------

namespace GameRoom

open Py

structure Cluster (α : Type) where
  stores : Stores α
  loops : Nat → Option (GameLoop α)
  -- each run task with its loop
  tasks : Nat → Option (Nat × Await α)

inductive ClusterAct (α : Type) where
  -- `GameLoop(...)` and its `load_state`
  | create (i : Nat) (now : Timestamp)
  | load (i : Nat) (replies : LoadReplies α)
  -- a task enters `run`
  | spawn (t i : Nat)
  | resume (t : Nat) (r : Reply)
  -- a player sends, joins or leaves
  | input (i : Nat) (playerId : String) (inputData : Json α)
  | join
      (i : Nat)
      (playerId : String)
      (hold : Option (HoldJson α))
  | leave (i : Nat) (playerId : String)
  | stop (i : Nat)
  -- the process of these loops dies
  | crash (dead : Finset Nat)
  -- `redis.delete` between two matches, and lost keys
  | deleteKeys
  | evict (key : RoomKey)

namespace Cluster

variable {α : Type}

def empty : Cluster α where
  stores := Stores.empty
  loops := fun _ => none
  tasks := fun _ => none

/- Replace one loop object. -/
def setLoop
    (c : Cluster α)
    (i : Nat)
    (g : GameLoop α) :
    Cluster α :=
  { c with loops := Function.update c.loops i (some g) }

variable [PyNumber α]

/- One action in the cluster of the room `matchId`. -/
def step
    (settings : Settings)
    (matchId : String)
    (c : Cluster α) :
    ClusterAct α → Option (Cluster α)
| .create i now =>
    match c.loops i with
    | none =>
        some (c.setLoop i
          (GameLoop.new settings matchId now))
    | some _ => none
| .load i replies => do
    let g ← c.loops i
    let g' ← loadState g replies
    return c.setLoop i g'
| .spawn t i =>
    match c.tasks t, c.loops i with
    | none, some g =>
        some { c.setLoop i (beginRun g).1 with
          tasks :=
            Function.update c.tasks t
              (some (i, (beginRun g).2)) }
    | _, _ => none
| .resume t r => do
    let (i, aw) ← c.tasks t
    let g ← c.loops i
    let (st', g', aw') ← awaitStep i c.stores g aw r
    return {
      stores := st'
      loops := Function.update c.loops i (some g')
      tasks := Function.update c.tasks t (some (i, aw')) }
| .input i playerId inputData => do
    let g ← c.loops i
    return c.setLoop i (g.enqueueInput playerId inputData)
| .join i playerId hold => do
    let g ← c.loops i
    return c.setLoop i (g.addPlayer playerId hold)
| .leave i playerId => do
    let g ← c.loops i
    return c.setLoop i (g.removePlayer playerId).1
| .stop i => do
    let g ← c.loops i
    return c.setLoop i g.stop
| .crash dead =>
    some { c with
      loops := fun i => if i ∈ dead then none else c.loops i
      tasks := fun t =>
        (c.tasks t).filter (fun task => task.1 ∉ dead) }
| .deleteKeys =>
    some { c with stores := c.stores.deleteRoomKeys }
| .evict key =>
    some { c with stores := c.stores.evict key }

end Cluster

end GameRoom

------------------------------------------------------------
-- The Kinds of Steps
------------------------------------------------------------

namespace GameRoom

open Py

variable {α : Type} [PyNumber α]

/- The transitions of `step`, one for each kind. -/
inductive ClusterSteps
    (settings : Settings)
    (matchId : String)
    (c : Cluster α) :
    ClusterAct α → Cluster α → Prop where
  | create {i : Nat} {now : Timestamp} :
      ClusterSteps settings matchId c (.create i now)
        (c.setLoop i (GameLoop.new settings matchId now))
  | load
      {i : Nat} {replies : LoadReplies α} {g g' : GameLoop α}
      (hLoop : c.loops i = some g)
      (hLoad : loadState g replies = some g') :
      ClusterSteps settings matchId c (.load i replies)
        (c.setLoop i g')
  | spawn
      {t i : Nat} {g : GameLoop α}
      (hLoop : c.loops i = some g) :
      ClusterSteps settings matchId c (.spawn t i)
        { c.setLoop i (beginRun g).1 with
          tasks :=
            Function.update c.tasks t
              (some (i, (beginRun g).2)) }
  | resume
      {t i : Nat} {r : Reply} {aw aw' : Await α}
      {g g' : GameLoop α} {st' : Stores α}
      (hTask : c.tasks t = some (i, aw))
      (hLoop : c.loops i = some g)
      (hAwaits : Awaits i c.stores g aw r st' g' aw') :
      ClusterSteps settings matchId c (.resume t r)
        { stores := st'
          loops := Function.update c.loops i (some g')
          tasks :=
            Function.update c.tasks t (some (i, aw')) }
  | input
      {i : Nat} {playerId : String} {inputData : Json α}
      {g : GameLoop α}
      (hLoop : c.loops i = some g) :
      ClusterSteps settings matchId c
        (.input i playerId inputData)
        (c.setLoop i (g.enqueueInput playerId inputData))
  | join
      {i : Nat} {playerId : String}
      {hold : Option (HoldJson α)} {g : GameLoop α}
      (hLoop : c.loops i = some g) :
      ClusterSteps settings matchId c (.join i playerId hold)
        (c.setLoop i (g.addPlayer playerId hold))
  | leave
      {i : Nat} {playerId : String} {g : GameLoop α}
      (hLoop : c.loops i = some g) :
      ClusterSteps settings matchId c (.leave i playerId)
        (c.setLoop i (g.removePlayer playerId).1)
  | stop
      {i : Nat} {g : GameLoop α}
      (hLoop : c.loops i = some g) :
      ClusterSteps settings matchId c (.stop i)
        (c.setLoop i g.stop)
  | crash {dead : Finset Nat} :
      ClusterSteps settings matchId c (.crash dead)
        { c with
          loops := fun i =>
            if i ∈ dead then none else c.loops i
          tasks := fun t =>
            (c.tasks t).filter
              (fun task => task.1 ∉ dead) }
  | deleteKeys :
      ClusterSteps settings matchId c .deleteKeys
        { c with stores := c.stores.deleteRoomKeys }
  | evict {key : RoomKey} :
      ClusterSteps settings matchId c (.evict key)
        { c with stores := c.stores.evict key }

/- Every step of the function is one of the transitions. -/
theorem clusterSteps_of_step
    {settings : Settings}
    {matchId : String}
    {c c' : Cluster α}
    {act : ClusterAct α}
    (hStep : Cluster.step settings matchId c act = some c') :
    ClusterSteps settings matchId c act c' := by
  cases act with
  | create i now =>
      simp only [Cluster.step] at hStep
      split at hStep
      · cases hStep
        exact .create
      · cases hStep
  | load i replies =>
      rcases Option.bind_eq_some_iff.mp hStep with
        ⟨g, hLoop, hRest⟩
      rcases Option.bind_eq_some_iff.mp hRest with
        ⟨g', hLoad, hEq⟩
      cases hEq
      exact .load hLoop hLoad
  | spawn t i =>
      simp only [Cluster.step] at hStep
      split at hStep
      · cases hStep
        exact .spawn ‹_›
      · cases hStep
  | resume t r =>
      rcases Option.bind_eq_some_iff.mp hStep with
        ⟨⟨i, aw⟩, hTask, hRest⟩
      rcases Option.bind_eq_some_iff.mp hRest with
        ⟨g, hLoop, hRest'⟩
      rcases Option.bind_eq_some_iff.mp hRest' with
        ⟨⟨st', g', aw'⟩, hAwait, hEq⟩
      cases hEq
      exact .resume hTask hLoop (awaits_of_awaitStep hAwait)
  | input i playerId inputData =>
      rcases Option.bind_eq_some_iff.mp hStep with
        ⟨g, hLoop, hEq⟩
      cases hEq
      exact .input hLoop
  | join i playerId hold =>
      rcases Option.bind_eq_some_iff.mp hStep with
        ⟨g, hLoop, hEq⟩
      cases hEq
      exact .join hLoop
  | leave i playerId =>
      rcases Option.bind_eq_some_iff.mp hStep with
        ⟨g, hLoop, hEq⟩
      cases hEq
      exact .leave hLoop
  | stop i =>
      rcases Option.bind_eq_some_iff.mp hStep with
        ⟨g, hLoop, hEq⟩
      cases hEq
      exact .stop hLoop
  | crash dead =>
      cases hStep
      exact .crash
  | deleteKeys =>
      cases hStep
      exact .deleteKeys
  | evict key =>
      cases hStep
      exact .evict

end GameRoom
