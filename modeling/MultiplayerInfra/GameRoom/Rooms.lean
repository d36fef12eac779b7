import MultiplayerInfra.GameRoom.Arena
import MultiplayerInfra.GameRoom.Cluster

/-
  All rooms with all their game loops, and what they have
  written so far.

  Key definitions include:
    * `GameRoom.Rooms.step`
    * `GameRoom.Written`
    * `GameRoom.ReadsWritten`
    * `GameRoom.Await.InArena`
    * `GameRoom.RoomsInArena`

  Key theorems include:
    * `GameRoom.inArena_of_awaits`
    * `GameRoom.stores_written`
    * `GameRoom.player_in_arena`

  A loop may load what any room has written, in any order and
  from any time: the topic is shared, keys and checkpoints
  are older than the log.
-/

------------------------------------------------------------
-- The Machine
------------------------------------------------------------

namespace GameRoom

open Py Machine

/- The loops and stores of each room. -/
abbrev Rooms (α : Type) :=
  String → Cluster α

/- What the rooms have handed to the stores. -/
structure Written (α : Type) where
  -- events of ticks, and states for Redis
  data : List (StateJson α)
  -- hold slots, with their room and player
  slots : List (String × String × HoldJson α)

variable {α : Type}

def Rooms.empty : Rooms α :=
  fun _ => Cluster.empty

def Written.none : Written α where
  data := []
  slots := []

/- The data of the call that a task is about to make. -/
def Await.writes : Await α → List (StateJson α)
| .publishing _ event none => [event]
| .updatingRedis _ (.setState data) false => [data]
| _ => []

/- The slot that a departure stores. -/
def slotOf
    (c : Cluster α)
    (i : Nat)
    (playerId : String) : Option (HoldJson α) :=
  (c.loops i).bind (fun g => (g.removePlayer playerId).2)

/- The record of an action of a room. -/
def noteWritten
    (s : Rooms α)
    (act : String × ClusterAct α)
    (_ : Rooms α)
    (w : Written α) : Written α :=
  match act.2 with
  | .resume t .effect =>
      { w with
        data :=
          w.data ++
            (((s act.1).tasks t).map
              (fun task => task.2.writes)).getD [] }
  | .leave i playerId =>
      { w with
        slots :=
          w.slots ++
            ((slotOf (s act.1) i playerId).map (fun value =>
              (act.1, playerId, value))).toList }
  | _ => w

/-
  A load is answered with written data, and a hold slot was
  stored for this player in this room.
-/
def ReadsWritten
    (s : Rooms α × Written α) :
    String × ClusterAct α → Prop
| (_, .load _ replies) =>
    ∀ data ∈ replies.data, data ∈ s.2.data
| (matchId, .join _ playerId hold) =>
    ∀ value ∈ hold, (matchId, playerId, value) ∈ s.2.slots
| _ => True

instance
    [DecidableEq α]
    (s : Rooms α × Written α) :
    (act : String × ClusterAct α) →
      Decidable (ReadsWritten s act)
| (_, .load _ replies) =>
    inferInstanceAs (Decidable
      (∀ data ∈ replies.data, data ∈ s.2.data))
| (matchId, .join _ playerId hold) =>
    inferInstanceAs (Decidable
      (∀ value ∈ hold,
        (matchId, playerId, value) ∈ s.2.slots))
| (_, .create _ _) => isTrue trivial
| (_, .spawn _ _) => isTrue trivial
| (_, .resume _ _) => isTrue trivial
| (_, .input _ _ _) => isTrue trivial
| (_, .leave _ _) => isTrue trivial
| (_, .stop _) => isTrue trivial
| (_, .crash _) => isTrue trivial
| (_, .deleteKeys) => isTrue trivial
| (_, .evict _) => isTrue trivial

/- One action in one of the rooms. -/
def Rooms.step
    [PyNumber α]
    (settings : Settings) :
    Rooms α → String × ClusterAct α → Option (Rooms α) :=
  each (Cluster.step settings)

end GameRoom

------------------------------------------------------------
-- One Step of a Task
------------------------------------------------------------

namespace GameRoom

open Py

variable {α : Type} [PyNumber α]

/- What a task will commit or store is in the arena. -/
def Await.InArena : Await α → Prop
| .publishing next event _ => AllInArena next ∧ event.InArena
| .updatingRedis _ (.setState data) _ => data.InArena
| _ => True

/- What a task is about to write is in the arena. -/
theorem inArena_of_writes
    {aw : Await α}
    (hAwait : aw.InArena)
    {data : StateJson α}
    (hWrites : data ∈ aw.writes) :
    data.InArena := by
  unfold Await.writes at hWrites
  split at hWrites
  · rw [List.mem_singleton.mp hWrites]
    exact hAwait.2
  · rw [List.mem_singleton.mp hWrites]
    exact hAwait
  · cases hWrites

variable [LawfulPyNumber α]

theorem inArena_loopHead
    {g : GameLoop α}
    (hAll : AllInArena g.state.players) :
    AllInArena (loopHead g).1.state.players ∧
      (loopHead g).2.InArena := by
  rcases hHead : loopHead g with ⟨g', aw⟩
  cases heads_loopHead hHead with
  | publish _ hBegin =>
      have hNext := allInArena_beginTick hAll hBegin
      have hRoster := (isTick_of_beginTick hBegin).roster
      simp only
      rw [(frame_beginTick hBegin).1]
      exact ⟨hAll, hNext, inArena_of_roster hRoster hNext⟩
  | pause _ hBegin =>
      simp only
      rw [(frame_beginTick hBegin).1]
      exact ⟨hAll, trivial⟩
  | finish _ => exact ⟨hAll, trivial⟩

/- One step of a run task stays in the arena. -/
theorem inArena_of_awaits
    {producer : Nat}
    {st st' : Stores α}
    {g g' : GameLoop α}
    {aw aw' : Await α}
    {r : Reply}
    (hAll : AllInArena g.state.players)
    (hAwait : aw.InArena)
    (hAwaits : Awaits producer st g aw r st' g' aw') :
    AllInArena g'.state.players ∧ aw'.InArena := by
  cases hAwaits with
  | head _ => exact inArena_loopHead hAll
  | appendEvent => exact ⟨hAll, hAwait⟩
  | commit =>
      have hCommitted :=
        allInArena_commitPlayers hAll hAwait.1
      exact ⟨hCommitted, inArena_toDict hCommitted⟩
  | @redisEffect tick cmd =>
      cases cmd with
      | setState data => exact ⟨hAll, hAwait⟩
      | _ => exact ⟨hAll, trivial⟩
  | @redisNext tick cmd cmd' now hNext =>
      cases cmd' with
      | setState data =>
          exact
            absurd rfl
              (ne_setState_of_nextRedisCmd hNext data)
      | _ => exact ⟨hAll, trivial⟩
  | redisDone _ =>
      unfold finishTick
      split
      · exact ⟨allInArena_beginEndMatch hAll, trivial⟩
      · exact ⟨hAll, trivial⟩
  | endTelemetry =>
      unfold writeMatchRecord
      split <;> exact ⟨hAll, trivial⟩
  | retry =>
      unfold retrySave
      split <;> exact ⟨hAll, trivial⟩
  | _ => exact ⟨hAll, trivial⟩

end GameRoom

------------------------------------------------------------
-- Every Action
------------------------------------------------------------

namespace GameRoom

open Py Machine

variable {α : Type} [PyNumber α]

structure ClusterInArena (c : Cluster α) : Prop where
  loops :
    ∀ i g, c.loops i = some g → AllInArena g.state.players
  tasks :
    ∀ t i aw, c.tasks t = some (i, aw) → aw.InArena

theorem ClusterInArena.setLoop
    {c : Cluster α}
    (hIn : ClusterInArena c)
    (i : Nat)
    {g : GameLoop α}
    (hAll : AllInArena g.state.players) :
    ClusterInArena (c.setLoop i g) := by
  refine ⟨?_, hIn.tasks⟩
  intro j g' hLoop
  simp only [Cluster.setLoop, Function.update_apply] at hLoop
  split at hLoop
  · cases hLoop
    exact hAll
  · exact hIn.loops j g' hLoop

/- A task is added or moves on. -/
theorem ClusterInArena.setTask
    {c : Cluster α}
    (hIn : ClusterInArena c)
    (t i : Nat)
    {aw : Await α}
    (hAwait : aw.InArena) :
    ClusterInArena { c with
      tasks := Function.update c.tasks t (some (i, aw)) } := by
  refine ⟨hIn.loops, ?_⟩
  intro t' j aw' hTask
  simp only [Function.update_apply] at hTask
  split at hTask
  · cases hTask
    exact hAwait
  · exact hIn.tasks t' j aw' hTask

theorem ClusterInArena.crash
    {c : Cluster α}
    (hIn : ClusterInArena c)
    (dead : Finset Nat) :
    ClusterInArena { c with
      loops := fun i => if i ∈ dead then none else c.loops i
      tasks := fun t =>
        (c.tasks t).filter (fun task => task.1 ∉ dead) } := by
  constructor
  · intro i g hLoop
    simp only at hLoop
    split at hLoop
    · cases hLoop
    · exact hIn.loops i g hLoop
  · intro t i aw hTask
    rcases Option.filter_eq_some_iff.mp hTask with
      ⟨hOld, _⟩
    exact hIn.tasks t i aw hOld

/- The slots and the data of a room in the arena. -/
theorem inArena_of_slotOf
    {c : Cluster α}
    (hIn : ClusterInArena c)
    {i : Nat}
    {playerId : String}
    {value : HoldJson α}
    (hSlot : slotOf c i playerId = some value) :
    value.standing.InArena := by
  rcases Option.bind_eq_some_iff.mp hSlot with
    ⟨g, hLoop, hValue⟩
  exact inArena_of_removePlayer (hIn.loops i g hLoop) hValue

variable [LawfulPyNumber α]

/- Every action of a room stays in the arena. -/
theorem clusterInArena_steps
    {settings : Settings}
    {matchId : String}
    {c c' : Cluster α}
    {act : ClusterAct α}
    (hIn : ClusterInArena c)
    (hLoads :
      ∀ i replies,
        act = .load i replies →
          ∀ data ∈ replies.data, data.InArena)
    (hJoins :
      ∀ i playerId hold,
        act = .join i playerId hold →
          ∀ value ∈ hold, value.standing.InArena)
    (hSteps : ClusterSteps settings matchId c act c') :
    ClusterInArena c' := by
  cases hSteps with
  | create => exact hIn.setLoop _ allInArena_empty
  | load hLoop hLoad =>
      exact
        hIn.setLoop _
          (allInArena_loadState (hIn.loops _ _ hLoop)
            (hLoads _ _ rfl) hLoad)
  | spawn hLoop =>
      have hAll := hIn.loops _ _ hLoop
      exact
        (hIn.setLoop (g := (beginRun _).1) _ hAll).setTask _ _
          trivial
  | @resume t i _ _ _ _ g' _ hTask hLoop hAwaits =>
      rcases inArena_of_awaits (hIn.loops _ _ hLoop)
          (hIn.tasks _ _ _ hTask) hAwaits with
        ⟨hAll, hAwait⟩
      have hMoved := (hIn.setLoop i hAll).setTask t i hAwait
      exact ⟨hMoved.loops, hMoved.tasks⟩
  | input hLoop =>
      have hAll := hIn.loops _ _ hLoop
      exact hIn.setLoop _ hAll
  | join hLoop =>
      exact
        hIn.setLoop _
          (allInArena_addPlayer (hIn.loops _ _ hLoop) _
            (hJoins _ _ _ rfl))
  | leave hLoop =>
      exact
        hIn.setLoop _
          (allInArena_removePlayer (hIn.loops _ _ hLoop) _)
  | stop hLoop =>
      have hAll := hIn.loops _ _ hLoop
      exact hIn.setLoop _ hAll
  | crash => exact hIn.crash _
  | deleteKeys => exact ⟨hIn.loops, hIn.tasks⟩
  | evict => exact ⟨hIn.loops, hIn.tasks⟩

/- All players, and all that was written of them. -/
structure RoomsInArena (s : Rooms α × Written α) :
    Prop where
  rooms : ∀ matchId, ClusterInArena (s.1 matchId)
  data : ∀ data ∈ s.2.data, data.InArena
  slots : ∀ slot ∈ s.2.slots, slot.2.2.standing.InArena

omit [LawfulPyNumber α] in
theorem roomsInArena_empty :
    RoomsInArena ((Rooms.empty, Written.none) :
      Rooms α × Written α) where
  rooms := by
    intro matchId
    constructor
    · intro i g hLoop
      cases hLoop
    · intro t i aw hTask
      cases hTask
  data := by
    intro data hMem
    cases hMem
  slots := by
    intro slot hMem
    cases hMem

omit [LawfulPyNumber α] in
/- What an action writes comes from the arena. -/
theorem written_noteWritten
    {s t : Rooms α}
    {w : Written α}
    (hIn : RoomsInArena (s, w))
    (act : String × ClusterAct α) :
    (∀ data ∈ (noteWritten s act t w).data, data.InArena) ∧
      ∀ slot ∈ (noteWritten s act t w).slots,
        slot.2.2.standing.InArena := by
  unfold noteWritten
  split
  · rename_i task hAct
    refine ⟨?_, hIn.slots⟩
    intro data hMem
    rcases List.mem_append.mp hMem with hOld | hNew
    · exact hIn.data data hOld
    · cases hTask : (s act.1).tasks task with
      | none =>
          rw [hTask] at hNew
          cases hNew
      | some entry =>
          rw [hTask] at hNew
          exact
            inArena_of_writes
              ((hIn.rooms act.1).tasks _ _ _ hTask) hNew
  · refine ⟨hIn.data, ?_⟩
    intro slot hMem
    rcases List.mem_append.mp hMem with hOld | hNew
    · exact hIn.slots slot hOld
    · rcases Option.map_eq_some_iff.mp
          (Option.mem_toList.mp hNew) with ⟨value, hSlot, rfl⟩
      exact inArena_of_slotOf (hIn.rooms act.1) hSlot
  · exact ⟨hIn.data, hIn.slots⟩

/- Every action on written data stays in the arena. -/
theorem roomsInArena_step
    {settings : Settings}
    {s t : Rooms α × Written α}
    {act : String × ClusterAct α}
    (hIn : RoomsInArena s)
    (hReads : ReadsWritten s act)
    (hStep :
      observe (Rooms.step settings) noteWritten s act =
        some t) :
    RoomsInArena t := by
  rcases observe_eq_some_iff.mp hStep with ⟨hRooms, hNote⟩
  have hWritten := written_noteWritten (t := t.1) hIn act
  rw [← hNote] at hWritten
  refine ⟨?_, hWritten.1, hWritten.2⟩
  apply forall_of_each hIn.rooms ?_ hRooms
  intro c hCluster
  refine
    clusterInArena_steps (hIn.rooms act.1) ?_ ?_
      (clusterSteps_of_step hCluster)
  · rintro i replies hAct data hMem
    rcases act with ⟨matchId, _⟩
    subst hAct
    exact hIn.data data (hReads data hMem)
  · rintro i playerId hold hAct value hMem
    rcases act with ⟨matchId, _⟩
    subst hAct
    exact hIn.slots _ (hReads value hMem)

/-
  In every run of the rooms in which loads are answered with
  data that the rooms have written, every player of every
  loop is in the arena.
-/
theorem player_in_arena
    {settings : Settings}
    {s : Rooms α × Written α}
    (hRun :
      Reaches (observe (Rooms.step settings) noteWritten)
        ReadsWritten (Rooms.empty, Written.none) s)
    {matchId : String}
    {i : Nat}
    {g : GameLoop α}
    (hLoop : (s.1 matchId).loops i = some g)
    {pid : String}
    {player : PlayerState α}
    (hPlayer : g.state.players.get? pid = some player) :
    InRange player.x ∧ InRange player.y ∧
      (10 ∣ player.health ∧ 10 ≤ player.health ∧
        player.health ≤ 100) ∧
      (10 ∣ player.score ∧ 0 ≤ player.score) := by
  have hIn : RoomsInArena s :=
    hRun.invariant roomsInArena_empty
      (fun hIn hReads hStep =>
        roomsInArena_step hIn hReads hStep)
  have hArena : player.standing.InArena := by
    apply (hIn.rooms matchId).loops i g hLoop pid
    rw [standingOf, hPlayer]
    rfl
  exact
    ⟨hArena.x, hArena.y,
      ⟨hArena.wounds, hArena.alive, hArena.unhurt⟩,
      hArena.hits, hArena.earned⟩

/- What the first leader stored in Redis. -/
def storedState : StateJson Int where
  matchId := "m1"
  tick := some 1
  players :=
    some ((Dict.empty.set "ann"
      ⟨0, 0, some 100, some 10, some true⟩).set "bob"
        ⟨500, 0, some 90, some 0, some true⟩)

/-
  One player shoots, the other runs far away and leaves; the
  leader dies, the next one loads the state, and the player
  comes back from the hold slot.
-/
def takenOver : Rooms Int × Written Int :=
  final (observe (Rooms.step {}) noteWritten)
    (Rooms.empty, Written.none)
    ([.create 0 0, .join 0 "ann" none, .join 0 "bob" none,
      .input 0 "ann" (.obj [("shoot", .bool true)]),
      .input 0 "bob" (.obj [("dx", .num 7000)]), .spawn 0 0,
      .resume 0 (.ok 0), .resume 0 .effect,
      .resume 0 (.ok 0), .resume 0 .effect, .leave 0 "bob",
      .crash {0}, .create 1 0,
      .load 1 ⟨some (some storedState, some 0), none, none,
        [], 0⟩,
      .join 1 "bob"
        (some ⟨some 500, some 0, some 90, some 0⟩)].map
      (fun act => ("m1", act)))
    (by decide +kernel)

theorem player_in_arena_takenOver :
    ∃ g player,
      (takenOver.1 "m1").loops 1 = some g ∧
        g.state.players.get? "bob" = some player ∧
          player.health = 90 ∧
            InRange player.x ∧ InRange player.y ∧
              (10 ∣ player.health ∧ 10 ≤ player.health ∧
                player.health ≤ 100) ∧
              (10 ∣ player.score ∧ 0 ≤ player.score) := by
  have hBob :
      ((takenOver.1 "m1").loops 1).bind
          (fun g => g.state.players.get? "bob") =
        some ⟨"bob", 500, 0, 90, 0, true⟩ := by
    decide +kernel
  rcases Option.bind_eq_some_iff.mp hBob with
    ⟨g, hLoop, hPlayer⟩
  refine ⟨g, _, hLoop, hPlayer, rfl, ?_⟩
  exact
    player_in_arena
      (reaches_of_run (run_eq_final (by decide +kernel))
        (by decide +kernel)) hLoop hPlayer

end GameRoom

------------------------------------------------------------
-- What the Stores Hold
------------------------------------------------------------

namespace GameRoom

open Py Machine

variable {α : Type} [PyNumber α]

/- What a step of a task puts into the stores it writes. -/
theorem stored_of_awaits
    {producer : Nat}
    {st st' : Stores α}
    {g g' : GameLoop α}
    {aw aw' : Await α}
    {r : Reply}
    (hAwaits : Awaits producer st g aw r st' g' aw') :
    (∀ event ∈ st'.events.map LogEntry.event,
        event ∈ st.events.map LogEntry.event ∨
          (r = .effect ∧ event ∈ aw.writes)) ∧
      ∀ data,
        st'.redis.state = some data →
          st.redis.state = some data ∨
            (r = .effect ∧ data ∈ aw.writes) := by
  cases hAwaits with
  | appendEvent =>
      refine ⟨?_, fun data hData => Or.inl hData⟩
      intro event hMem
      rw [Stores.events_appendEvent, List.map_append]
        at hMem
      rcases List.mem_append.mp hMem with hOld | hNew
      · exact Or.inl hOld
      · exact Or.inr ⟨rfl, hNew⟩
  | commit =>
      refine ⟨?_, fun data hData => Or.inl hData⟩
      intro event hMem
      rw [Stores.map_event_ackEvent] at hMem
      exact Or.inl hMem
  | @redisEffect tick cmd =>
      refine ⟨fun event hMem => Or.inl hMem, ?_⟩
      intro data hData
      cases cmd with
      | setState value =>
          cases hData
          exact Or.inr ⟨rfl, List.mem_singleton_self _⟩
      | _ => exact Or.inl hData
  | saveEffect =>
      rw [Stores.events_saveMatch, Stores.redis_saveMatch]
      exact
        ⟨fun event hMem => Or.inl hMem,
          fun data hData => Or.inl hData⟩
  | _ =>
      exact
        ⟨fun event hMem => Or.inl hMem,
          fun data hData => Or.inl hData⟩

/- All that the stores of a room hold was written. -/
structure Holds
    (c : Cluster α)
    (w : Written α) : Prop where
  events :
    ∀ event ∈ c.stores.events.map LogEntry.event,
      event ∈ w.data
  redis :
    ∀ data, c.stores.redis.state = some data → data ∈ w.data

omit [PyNumber α] in
/- The record only grows. -/
theorem data_subset_noteWritten
    (s t : Rooms α)
    (w : Written α)
    (act : String × ClusterAct α) :
    w.data ⊆ (noteWritten s act t w).data := by
  unfold noteWritten
  split
  · exact List.subset_append_left _ _
  · exact List.Subset.refl _
  · exact List.Subset.refl _

omit [PyNumber α] in
theorem Holds.mono
    {c : Cluster α}
    {w w' : Written α}
    (hHolds : Holds c w)
    (hMore : w.data ⊆ w'.data) :
    Holds c w' where
  events := fun event hMem => hMore (hHolds.events event hMem)
  redis := fun data hData => hMore (hHolds.redis data hData)

/- The call of a task is recorded when it takes effect. -/
theorem holds_noteWritten
    {settings : Settings}
    {s t : Rooms α}
    {w : Written α}
    {act : String × ClusterAct α}
    {c : Cluster α}
    (hHolds : Holds (s act.1) w)
    (hSteps :
      ClusterSteps settings act.1 (s act.1) act.2 c) :
    Holds c (noteWritten s act t w) := by
  have hSame :
      Holds (s act.1) (noteWritten s act t w) :=
    hHolds.mono (data_subset_noteWritten s t w act)
  rcases act with ⟨matchId, act⟩
  cases hSteps with
  | @resume task i r aw aw' _ _ st' hTask hLoop hAwaits =>
      rcases stored_of_awaits hAwaits with ⟨hEvents, hRedis⟩
      have hNew :
          ∀ {data},
            r = .effect ∧ data ∈ aw.writes →
              data ∈
                (noteWritten s (matchId, .resume task r) t
                  w).data := by
        rintro data ⟨rfl, hWrites⟩
        have hRecord :
            (noteWritten s (matchId, .resume task .effect) t
                w).data =
              w.data ++ aw.writes := by
          simp [noteWritten, hTask]
        rw [hRecord]
        exact List.mem_append_right _ hWrites
      constructor
      · intro event hMem
        rcases hEvents event hMem with hOld | hStored
        · exact hSame.events event hOld
        · exact hNew hStored
      · intro data hData
        rcases hRedis data hData with hOld | hStored
        · exact hSame.redis data hOld
        · exact hNew hStored
  | deleteKeys =>
      refine ⟨hSame.events, ?_⟩
      intro data hData
      cases hData
  | evict =>
      refine ⟨hSame.events, ?_⟩
      intro data hData
      exact hSame.redis data (Stores.state_evict _ hData)
  | _ => exact ⟨hSame.events, hSame.redis⟩

/- In every reached state the stores hold written data. -/
theorem stores_written
    {settings : Settings}
    {ok : Rooms α × Written α → String × ClusterAct α → Prop}
    {s : Rooms α × Written α}
    (hRun :
      Reaches (observe (Rooms.step settings) noteWritten) ok
        (Rooms.empty, Written.none) s)
    (matchId : String) :
    Holds (s.1 matchId) s.2 := by
  refine
    hRun.invariant
      (I := fun s => ∀ matchId, Holds (s.1 matchId) s.2)
      ?_ ?_ matchId
  · intro matchId
    refine ⟨fun event hMem => ?_, fun data hData => ?_⟩
    · cases hMem
    · cases hData
  · rintro ⟨s, w⟩ ⟨t, w'⟩ act hHolds _ hStep
    rcases observe_eq_some_iff.mp hStep with ⟨hRooms, hNote⟩
    simp only at hNote
    subst hNote
    refine
      forall_of_each (P := fun _ c => Holds c _)
        (fun matchId =>
          (hHolds matchId).mono
            (data_subset_noteWritten s t w act))
        ?_ hRooms
    intro c hCluster
    exact
      holds_noteWritten (t := t) (hHolds act.1)
        (clusterSteps_of_step hCluster)

end GameRoom
