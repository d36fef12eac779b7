import MultiplayerInfra.GameRoom.Rooms

/-
  Who is in a room: no operation of a game loop makes up a
  player.  The names in its state, in its input queue and in
  what its tasks write are names that were handed to it.

  Key definitions include:
    * `GameRoom.Names`
    * `GameRoom.GameLoop.Admits`
    * `GameRoom.Await.Admits`
    * `GameRoom.Provenance`
    * `GameRoom.Provenance.Knows`
    * `GameRoom.RoomsKnown`

  Key theorems include:
    * `GameRoom.admits_loadState`
    * `GameRoom.admits_of_awaits`
    * `GameRoom.roomsKnown_step`

  The names are those that satisfy a predicate, about which
  nothing is assumed.
-/

------------------------------------------------------------
-- Names in Players and Objects
------------------------------------------------------------

namespace GameRoom

open Py Kafka

variable {α : Type}

/- Every player has an admitted name. -/
def Names
    (admitted : String → Prop)
    (keys : List String) : Prop :=
  ∀ pid ∈ keys, admitted pid

variable {admitted : String → Prop}

theorem Names.mono
    {admitted' : String → Prop}
    {keys : List String}
    (hNames : Names admitted keys)
    (hImp : ∀ pid, admitted pid → admitted' pid) :
    Names admitted' keys :=
  fun pid hMem => hImp pid (hNames pid hMem)

theorem names_set
    {ν : Type}
    {d : Dict String ν}
    {pid : String}
    {v : ν}
    (hNames : Names admitted d.keys)
    (hNew : admitted pid) :
    Names admitted (d.set pid v).keys := by
  intro pid' hMem
  rcases (Dict.mem_keys_set _ _ _ _).mp hMem with rfl | hOld
  · exact hNew
  · exact hNames pid' hOld

theorem names_commitPlayers
    {players next : Players α}
    (hNames : Names admitted players.keys)
    (hNext : Names admitted next.keys) :
    Names admitted (commitPlayers players next).keys := by
  intro pid hMem
  rcases (mem_keys_commitPlayers _ _ _).mp hMem with
    hOld | hTicked
  · exact hNames pid hOld
  · exact hNext pid hTicked

variable [PyNumber α]

theorem names_ensurePlayer
    {playerId : String}
    {players : Players α}
    (hNames : Names admitted players.keys)
    (hNew : admitted playerId) :
    Names admitted (ensurePlayer playerId players).keys := by
  unfold ensurePlayer
  split
  · exact hNames
  · exact names_set hNames hNew

/- A shot hits somebody who is there. -/
theorem names_shoot
    {playerId : String}
    {players : Players α}
    (hNames : Names admitted players.keys)
    (hShooter : admitted playerId) :
    Names admitted (shoot playerId players).1.keys := by
  unfold shoot
  split
  · exact hNames
  · rename_i pid hFind
    split
    · rename_i nearest player hNearest hPlayer
      exact
        names_set
          (names_set hNames
            (hNames pid (Dict.mem_keys_iff.mpr ⟨_, hNearest⟩)))
          hShooter
    · exact hNames

/- An input adds nobody but its sender. -/
theorem names_applyInputTo
    {playerId : String}
    {inputData : Json α}
    {players players' : Players α}
    {kills : List (Telemetry α)}
    (hNames : Names admitted players.keys)
    (hSender : admitted playerId)
    (hApply :
      applyInputTo playerId inputData players =
        some (players', kills)) :
    Names admitted players'.keys := by
  simp only [applyInputTo, Option.bind_eq_bind,
    Option.bind_eq_some_iff, Option.pure_def,
    Option.some.injEq] at hApply
  rcases hApply with
    ⟨player, _, dx, _, dy, _, speed, _, x, _, y, _,
      wantsShot, _, hResult⟩
  have hMoved :
      Names admitted
        ((ensurePlayer playerId players).set playerId
          { player with x := clamp x, y := clamp y }).keys :=
    names_set (names_ensurePlayer hNames hSender) hSender
  by_cases hShot : wantsShot.truthy = true
  · rw [if_pos hShot] at hResult
    have hAfter := names_shoot hMoved hSender
    rw [hResult] at hAfter
    exact hAfter
  · rw [if_neg hShot] at hResult
    cases hResult
    exact hMoved

/- The players after the input loop are old ones or senders. -/
theorem names_drainInputs
    {queue : List (String × Json α)}
    {pending : List (Telemetry α)}
    {players players' : Players α}
    (hNames : Names admitted players.keys)
    (hQueue : ∀ e ∈ queue, admitted e.1)
    (hDrain :
      (drainInputs queue pending players).players =
        some players') :
    Names admitted players'.keys := by
  induction queue generalizing pending players with
  | nil =>
      cases hDrain
      exact hNames
  | cons e queue ih =>
      rcases e with ⟨playerId, inputData⟩
      cases hApply :
          applyInputTo playerId inputData players with
      | none => simp [drainInputs, hApply] at hDrain
      | some result =>
          rcases result with ⟨players₁, kills⟩
          simp only [drainInputs, hApply] at hDrain
          have hSender := hQueue _ List.mem_cons_self
          refine
            ih (names_applyInputTo hNames hSender hApply) ?_
              hDrain
          intro e' hMem
          exact hQueue e' (List.mem_cons_of_mem _ hMem)

end GameRoom

------------------------------------------------------------
-- Names in a Loop
------------------------------------------------------------

namespace GameRoom

open Py Kafka

variable {α : Type} [PyNumber α]
variable {admitted : String → Prop}

omit [PyNumber α] in
/- The players of a loop and the senders of its inputs. -/
structure GameLoop.Admits
    (admitted : String → Prop)
    (g : GameLoop α) : Prop where
  players : Names admitted g.state.players.keys
  queue : ∀ e ∈ g.inputQueue, admitted e.1

variable {g g' : GameLoop α}

omit [PyNumber α] in
theorem GameLoop.Admits.mono
    {admitted' : String → Prop}
    (hAdmits : g.Admits admitted)
    (hImp : ∀ pid, admitted pid → admitted' pid) :
    g.Admits admitted' where
  players := hAdmits.players.mono hImp
  queue := fun e hMem => hImp e.1 (hAdmits.queue e hMem)

omit [PyNumber α] in
theorem admits_new
    (settings : Settings)
    (matchId : String)
    (now : Timestamp) :
    (GameLoop.new settings matchId now :
      GameLoop α).Admits admitted where
  players := nofun
  queue := nofun

omit [PyNumber α] in
theorem GameLoop.Admits.enqueueInput
    (hAdmits : g.Admits admitted)
    {playerId : String}
    (hNew : admitted playerId)
    (inputData : Json α) :
    (g.enqueueInput playerId inputData).Admits admitted where
  players := hAdmits.players
  queue := by
    intro e hMem
    rcases List.mem_append.mp hMem with hOld | hLast
    · exact hAdmits.queue e hOld
    · rw [List.mem_singleton.mp hLast]
      exact hNew

theorem GameLoop.Admits.addPlayer
    (hAdmits : g.Admits admitted)
    {playerId : String}
    (hNew : admitted playerId)
    (hold : Option (HoldJson α)) :
    (g.addPlayer playerId hold).Admits admitted := by
  unfold GameLoop.addPlayer
  split
  · exact ⟨names_set hAdmits.players hNew, hAdmits.queue⟩
  · split
    · exact ⟨names_set hAdmits.players hNew, hAdmits.queue⟩
    · exact ⟨names_set hAdmits.players hNew, hAdmits.queue⟩

omit [PyNumber α] in
/- Only a player who is there leaves, and a slot is stored. -/
theorem GameLoop.Admits.removePlayer
    (hAdmits : g.Admits admitted)
    (playerId : String) :
    (g.removePlayer playerId).1.Admits admitted := by
  unfold GameLoop.removePlayer
  split
  · exact hAdmits
  · rename_i player hPlayer
    exact
      ⟨names_set hAdmits.players
        (hAdmits.players playerId
          (Dict.mem_keys_iff.mpr ⟨_, hPlayer⟩)),
        hAdmits.queue⟩

omit [PyNumber α] in
theorem GameLoop.Admits.of_slot
    (hAdmits : g.Admits admitted)
    {playerId : String}
    {value : HoldJson α}
    (hSlot : (g.removePlayer playerId).2 = some value) :
    admitted playerId := by
  unfold GameLoop.removePlayer at hSlot
  split at hSlot
  · cases hSlot
  · rename_i player hPlayer
    exact
      hAdmits.players playerId
        (Dict.mem_keys_iff.mpr ⟨_, hPlayer⟩)

/- A tick begins with the players and the senders. -/
theorem GameLoop.Admits.beginTick
    (hAdmits : g.Admits admitted) :
    g.beginTick.1.Admits admitted ∧
      ∀ next event,
        g.beginTick.2 = some (next, event) →
          Names admitted next.keys := by
  constructor
  · refine ⟨hAdmits.players, ?_⟩
    intro e hMem
    exact
      hAdmits.queue e
        (subset_inputQueue_drainInputs _ _ _ hMem)
  · intro next event hEvent
    rcases Option.map_eq_some_iff.mp hEvent with
      ⟨players, hDrain, hEq⟩
    cases hEq
    rw [keys_respawn]
    refine names_drainInputs ?_ hAdmits.queue hDrain
    rw [keys_copyPlayers]
    exact hAdmits.players

/- All names in what the stores answered are admitted. -/
theorem admits_replay
    {state : GameState α}
    {events : List (StateJson α)}
    (hState : Names admitted state.players.keys)
    (hEvents :
      ∀ event ∈ events, Names admitted event.roster.keys) :
    Names admitted (state.replay events).players.keys := by
  intro pid hMem
  rcases (GameState.mem_keys_replay _ _ _).mp hMem with
    hOld | ⟨event, hEvent, hListed⟩
  · exact hState pid hOld
  · exact hEvents event hEvent pid hListed

/- A loaded loop has its own players and the answered ones. -/
theorem admits_loadState
    {replies : LoadReplies α}
    (hAdmits : g.Admits admitted)
    (hReplies :
      ∀ data ∈ replies.data, Names admitted data.roster.keys)
    (hLoad : loadState g replies = some g') :
    g'.Admits admitted := by
  have hRestored :
      Names admitted
        (tryLoadCheckpoint g.state
          replies.checkpoint).1.players.keys := by
    unfold tryLoadCheckpoint
    split
    · exact hAdmits.players
    · exact hAdmits.players
    · rename_i c hCheckpoint
      apply admits_replay hAdmits.players
      intro event hMem
      apply hReplies
      simp [LoadReplies.data, hCheckpoint, hMem]
  unfold loadState at hLoad
  split at hLoad
  · cases hLoad
  · rename_i data offset hRedis
    rcases Option.map_eq_some_iff.mp hLoad with
      ⟨state, hRead, rfl⟩
    refine ⟨?_, hAdmits.queue⟩
    rcases GameState.fromDict_spec hRead with
      ⟨_, _, _, hGet⟩
    intro pid hMem
    rcases Dict.mem_keys_iff.mp hMem with ⟨player, hPlayer⟩
    rw [hGet] at hPlayer
    rcases Option.bind_eq_some_iff.mp hPlayer with
      ⟨pdata, hListed, _⟩
    refine
      hReplies data ?_ pid (Dict.mem_keys_iff.mpr ⟨_, hListed⟩)
    simp [LoadReplies.data, hRedis]
  · unfold coldStartReplay at hLoad
    simp only at hLoad
    split at hLoad
    · cases hLoad
    · cases hLoad
      exact ⟨hRestored, hAdmits.queue⟩
    · rcases Option.map_eq_some_iff.mp hLoad with
        ⟨⟨state, maxOffset⟩, hRead, rfl⟩
      refine ⟨?_, hAdmits.queue⟩
      refine
        readToEnd_invariant
          (I := fun acc => Names admitted acc.1.players.keys)
          hRead hRestored ?_
      intro msg hMem acc hAcc
      simp only [replayMessage]
      split
      · have hListed :
            ∀ event ∈ [msg.value],
              Names admitted event.roster.keys := by
          intro event hEvent
          rw [List.mem_singleton.mp hEvent]
          apply hReplies
          simp only [LoadReplies.data, List.mem_append]
          exact .inr (List.mem_map_of_mem hMem)
        exact admits_replay hAcc hListed
      · exact hAcc

end GameRoom

------------------------------------------------------------
-- Names in a Task
------------------------------------------------------------

namespace GameRoom

open Py

variable {α : Type}
variable {admitted : String → Prop}

/- The names in what a task will commit or store. -/
def Await.Admits
    (admitted : String → Prop) : Await α → Prop
| .publishing next event _ =>
    Names admitted next.keys ∧
      Names admitted event.roster.keys
| .updatingRedis _ (.setState data) _ =>
    Names admitted data.roster.keys
| .updatingRedis _ (.saddPlayers members) _ =>
    Names admitted members
| _ => True

theorem Await.Admits.mono
    {admitted' : String → Prop}
    {aw : Await α}
    (hAdmits : aw.Admits admitted)
    (hImp : ∀ pid, admitted pid → admitted' pid) :
    aw.Admits admitted' := by
  cases aw with
  | publishing next event kept =>
      exact ⟨hAdmits.1.mono hImp, hAdmits.2.mono hImp⟩
  | updatingRedis tick cmd applied =>
      cases cmd with
      | setState data => exact Names.mono hAdmits hImp
      | saddPlayers members => exact Names.mono hAdmits hImp
      | setOffset value => trivial
      | expire key => trivial
  | _ => trivial

theorem names_of_writes
    {aw : Await α}
    (hAdmits : aw.Admits admitted)
    {data : StateJson α}
    (hWrites : data ∈ aw.writes) :
    Names admitted data.roster.keys := by
  unfold Await.writes at hWrites
  split at hWrites
  · rw [List.mem_singleton.mp hWrites]
    exact hAdmits.2
  · rw [List.mem_singleton.mp hWrites]
    exact hAdmits
  · cases hWrites

/- The players of a state object. -/
theorem names_toDict
    {state : GameState α}
    (hNames : Names admitted state.players.keys) :
    Names admitted state.toDict.roster.keys := by
  simpa [GameState.toDict, StateJson.roster] using hNames

variable [PyNumber α]
variable {g g' : GameLoop α}

theorem admits_loopHead
    (hAdmits : g.Admits admitted) :
    (loopHead g).1.Admits admitted ∧
      (loopHead g).2.Admits admitted := by
  rcases hHead : loopHead g with ⟨g₁, aw₁⟩
  rcases hAdmits.beginTick with ⟨hBegun, hNext⟩
  cases heads_loopHead hHead with
  | publish _ hBegin =>
      rw [hBegin] at hBegun hNext
      have hNames := hNext _ _ rfl
      refine ⟨hBegun, hNames, ?_⟩
      rw [(isTick_of_beginTick hBegin).roster,
        keys_playersJson]
      exact hNames
  | pause _ hBegin =>
      rw [hBegin] at hBegun
      exact ⟨hBegun, trivial⟩
  | finish _ => exact ⟨hAdmits, trivial⟩

omit [PyNumber α] in
/- The commands of `_update_redis` after the first one. -/
theorem admits_nextRedisCmd
    {tick : Nat}
    {cmd cmd' : RedisCmd α}
    {applied : Bool}
    (hAdmits : g.Admits admitted)
    (hNext : nextRedisCmd g cmd = some cmd') :
    Await.Admits admitted (.updatingRedis tick cmd' applied) := by
  cases cmd' with
  | setState data =>
      exact absurd rfl (ne_setState_of_nextRedisCmd hNext data)
  | saddPlayers members =>
      cases cmd with
      | setOffset value =>
          simp only [nextRedisCmd] at hNext
          split at hNext
          · cases hNext
          · cases hNext
            exact hAdmits.players
      | expire key => cases key <;> cases hNext
      | setState data => cases hNext
      | saddPlayers members => cases hNext
  | setOffset value => trivial
  | expire key => trivial

/- A step of a run task makes up no name. -/
theorem admits_of_awaits
    {producer : Nat}
    {st st' : Stores α}
    {aw aw' : Await α}
    {r : Reply}
    (hAdmits : g.Admits admitted)
    (hAwait : aw.Admits admitted)
    (hAwaits : Awaits producer st g aw r st' g' aw') :
    g'.Admits admitted ∧ aw'.Admits admitted := by
  cases hAwaits with
  | head _ => exact admits_loopHead hAdmits
  | appendEvent => exact ⟨hAdmits, hAwait⟩
  | commit =>
      have hCommitted :=
        names_commitPlayers hAdmits.players hAwait.1
      exact
        ⟨⟨hCommitted, hAdmits.queue⟩, names_toDict hCommitted⟩
  | @redisEffect tick cmd =>
      refine ⟨hAdmits, ?_⟩
      cases cmd <;> exact hAwait
  | redisNext hNext =>
      exact ⟨hAdmits, admits_nextRedisCmd hAdmits hNext⟩
  | redisDone _ =>
      unfold finishTick
      split
      · refine ⟨⟨?_, hAdmits.queue⟩, trivial⟩
        simpa [GameLoop.beginEndMatch, GameLoop.setPlayers]
          using hAdmits.players
      · exact ⟨hAdmits, trivial⟩
  | endTelemetry =>
      unfold writeMatchRecord
      split <;> exact ⟨hAdmits, trivial⟩
  | retry =>
      unfold retrySave
      split <;> exact ⟨hAdmits, trivial⟩
  | _ => exact ⟨hAdmits, trivial⟩

omit [PyNumber α] in
/- The names in the state object and in the member set. -/
structure RoomRedis.Admits
    (admitted : String → Prop)
    (redis : RoomRedis α) : Prop where
  players : Names admitted redis.players
  state :
    ∀ data,
      redis.state = some data →
        Names admitted data.roster.keys

/- The effect of a reply adds no other name to Redis. -/
theorem admits_redis_of_awaits
    {producer : Nat}
    {st st' : Stores α}
    {aw aw' : Await α}
    {r : Reply}
    (hAwait : aw.Admits admitted)
    (hRedis : st.redis.Admits admitted)
    (hAwaits : Awaits producer st g aw r st' g' aw') :
    st'.redis.Admits admitted := by
  cases hAwaits with
  | @redisEffect tick cmd =>
      cases cmd with
      | saddPlayers members =>
          refine ⟨?_, hRedis.state⟩
          intro pid hMem
          have hBoth :
              pid ∈ st.redis.players ++ members :=
            List.mem_dedup.mp hMem
          rcases List.mem_append.mp hBoth with hOld | hNew
          · exact hRedis.players pid hOld
          · exact hAwait pid hNew
      | setState data =>
          refine ⟨hRedis.players, ?_⟩
          intro data' hData
          cases hData
          exact hAwait
      | setOffset value =>
          exact ⟨hRedis.players, hRedis.state⟩
      | expire key => exact ⟨hRedis.players, hRedis.state⟩
  | saveEffect =>
      rw [Stores.redis_saveMatch]
      exact hRedis
  | _ => exact hRedis

end GameRoom

------------------------------------------------------------
-- Names in a Room
------------------------------------------------------------

namespace GameRoom

open Py

variable {α : Type}
variable {admitted : String → Prop}

/- The names in the loops, the tasks and Redis. -/
structure Cluster.Admits
    (admitted : String → Prop)
    (c : Cluster α) : Prop where
  loops : ∀ i g, c.loops i = some g → g.Admits admitted
  tasks :
    ∀ t i aw, c.tasks t = some (i, aw) → aw.Admits admitted
  redis : c.stores.redis.Admits admitted

variable {c c' : Cluster α}

theorem Cluster.Admits.mono
    {admitted' : String → Prop}
    (hAdmits : c.Admits admitted)
    (hImp : ∀ pid, admitted pid → admitted' pid) :
    c.Admits admitted' where
  loops := fun i g hLoop => (hAdmits.loops i g hLoop).mono hImp
  tasks := fun t i aw hTask =>
    (hAdmits.tasks t i aw hTask).mono hImp
  redis :=
    ⟨hAdmits.redis.players.mono hImp,
      fun data hData =>
        (hAdmits.redis.state data hData).mono hImp⟩

theorem admits_empty :
    (Cluster.empty : Cluster α).Admits admitted where
  loops := nofun
  tasks := nofun
  redis := ⟨nofun, nofun⟩

theorem Cluster.Admits.setLoop
    (hAdmits : c.Admits admitted)
    (i : Nat)
    {g : GameLoop α}
    (hLoop : g.Admits admitted) :
    (c.setLoop i g).Admits admitted := by
  refine ⟨?_, hAdmits.tasks, hAdmits.redis⟩
  intro j g' hAt
  simp only [Cluster.setLoop, Function.update_apply] at hAt
  split at hAt
  · cases hAt
    exact hLoop
  · exact hAdmits.loops j g' hAt

/- A task is added or moves on. -/
theorem Cluster.Admits.setTask
    (hAdmits : c.Admits admitted)
    (t i : Nat)
    {aw : Await α}
    (hAwait : aw.Admits admitted) :
    Cluster.Admits admitted { c with
      tasks := Function.update c.tasks t (some (i, aw)) } := by
  refine ⟨hAdmits.loops, ?_, hAdmits.redis⟩
  intro t' j aw' hTask
  simp only [Function.update_apply] at hTask
  split at hTask
  · cases hTask
    exact hAwait
  · exact hAdmits.tasks t' j aw' hTask

theorem Cluster.Admits.setStores
    (hAdmits : c.Admits admitted)
    {st : Stores α}
    (hRedis : st.redis.Admits admitted) :
    Cluster.Admits admitted { c with stores := st } where
  loops := hAdmits.loops
  tasks := hAdmits.tasks
  redis := hRedis

theorem Cluster.Admits.crash
    (hAdmits : c.Admits admitted)
    (dead : Finset Nat) :
    Cluster.Admits admitted { c with
      loops := fun i => if i ∈ dead then none else c.loops i
      tasks := fun t =>
        (c.tasks t).filter (fun task => task.1 ∉ dead) } := by
  refine ⟨?_, ?_, hAdmits.redis⟩
  · intro i g hLoop
    simp only at hLoop
    split at hLoop
    · cases hLoop
    · exact hAdmits.loops i g hLoop
  · intro t i aw hTask
    rcases Option.filter_eq_some_iff.mp hTask with ⟨hOld, _⟩
    exact hAdmits.tasks t i aw hOld

/- A key that vanishes takes names away. -/
theorem RoomRedis.Admits.evict
    {redis : RoomRedis α}
    (hAdmits : redis.Admits admitted)
    (key : RoomKey) :
    (redis.evict key).Admits admitted := by
  cases key with
  | state => exact ⟨hAdmits.players, nofun⟩
  | lastOffset => exact ⟨hAdmits.players, hAdmits.state⟩
  | players => exact ⟨nofun, hAdmits.state⟩

/- The names that an action of a room brings in. -/
def ClusterAct.Brings
    (admitted : String → Prop) : ClusterAct α → Prop
| .load _ replies =>
    ∀ data ∈ replies.data, Names admitted data.roster.keys
| .join _ playerId _ => admitted playerId
| .input _ playerId _ => admitted playerId
| _ => True

variable [PyNumber α]

theorem admits_clusterSteps
    {settings : Settings}
    {matchId : String}
    {act : ClusterAct α}
    (hAdmits : c.Admits admitted)
    (hBrings : act.Brings admitted)
    (hSteps : ClusterSteps settings matchId c act c') :
    c'.Admits admitted := by
  cases hSteps with
  | create => exact hAdmits.setLoop _ (admits_new _ _ _)
  | load hLoop hLoad =>
      exact
        hAdmits.setLoop _
          (admits_loadState (hAdmits.loops _ _ hLoop) hBrings
            hLoad)
  | @spawn t i g hLoop =>
      have hOld := hAdmits.loops i g hLoop
      have hRun :=
        hAdmits.setLoop (g := (beginRun g).1) i
          ⟨hOld.players, hOld.queue⟩
      exact hRun.setTask t i trivial
  | @resume t i r aw aw' g g' st' hTask hLoop hAwaits =>
      have hAwait := hAdmits.tasks t i aw hTask
      rcases
          admits_of_awaits (hAdmits.loops i g hLoop) hAwait
            hAwaits with
        ⟨hLoop', hAwait'⟩
      have hRedis :=
        admits_redis_of_awaits hAwait hAdmits.redis hAwaits
      exact
        ((hAdmits.setStores hRedis).setLoop i hLoop').setTask
          t i hAwait'
  | input hLoop =>
      exact
        hAdmits.setLoop _
          ((hAdmits.loops _ _ hLoop).enqueueInput hBrings _)
  | join hLoop =>
      exact
        hAdmits.setLoop _
          ((hAdmits.loops _ _ hLoop).addPlayer hBrings _)
  | leave hLoop =>
      exact
        hAdmits.setLoop _
          ((hAdmits.loops _ _ hLoop).removePlayer _)
  | stop hLoop =>
      have hOld := hAdmits.loops _ _ hLoop
      exact hAdmits.setLoop _ ⟨hOld.players, hOld.queue⟩
  | crash => exact hAdmits.crash _
  | deleteKeys => exact hAdmits.setStores ⟨nofun, nofun⟩
  | evict =>
      exact hAdmits.setStores (hAdmits.redis.evict _)

end GameRoom

------------------------------------------------------------
-- Where Names Come From
------------------------------------------------------------

namespace GameRoom

open Py Machine

/- What happened in the rooms, as far as names go. -/
structure Provenance (α : Type) where
  -- a player joined a room or sent an input to it
  joined : List (String × String)
  -- what a room handed to the stores
  data : List (String × StateJson α)
  -- hold slots, with their room and player
  slots : List (String × String × HoldJson α)
  -- a room wrote what another one loaded
  fed : List (String × String)

variable {α : Type}

def Provenance.none : Provenance α where
  joined := []
  data := []
  slots := []
  fed := []

/-
  The player joined the room, or a room whose data reached
  it through loads.
-/
def Provenance.Knows
    (w : Provenance α)
    (room playerId : String) : Prop :=
  ∃ source,
    Relation.ReflTransGen (fun a b => (a, b) ∈ w.fed)
        source room ∧
      (source, playerId) ∈ w.joined

/- The record of an action of a room. -/
def noteProvenance
    [DecidableEq α]
    (s : Rooms α)
    (act : String × ClusterAct α)
    (_ : Rooms α)
    (w : Provenance α) : Provenance α :=
  match act.2 with
  | .resume t .effect =>
      { w with
        data :=
          w.data ++
            ((((s act.1).tasks t).map (fun task =>
              task.2.writes)).getD []).map
                (Prod.mk act.1) }
  | .leave i playerId =>
      { w with
        slots :=
          w.slots ++
            ((slotOf (s act.1) i playerId).map (fun value =>
              (act.1, playerId, value))).toList }
  | .join _ playerId _ =>
      { w with joined := w.joined ++ [(act.1, playerId)] }
  | .input _ playerId _ =>
      { w with joined := w.joined ++ [(act.1, playerId)] }
  | .load _ replies =>
      { w with
        fed :=
          w.fed ++
            (w.data.filter (fun e =>
              e.2 ∈ replies.data)).map (fun e =>
                (e.1, act.1)) }
  | _ => w

/- A load is answered with what some room has written. -/
def LoadsWritten
    (s : Rooms α × Provenance α) :
    String × ClusterAct α → Prop
| (_, .load _ replies) =>
    ∀ data ∈ replies.data, data ∈ s.2.data.map Prod.snd
| _ => True

/- Every name in the rooms has been handed to one of them. -/
structure RoomsKnown (s : Rooms α × Provenance α) : Prop where
  rooms : ∀ room, (s.1 room).Admits (s.2.Knows room)
  data :
    ∀ e ∈ s.2.data, Names (s.2.Knows e.1) e.2.roster.keys
  slots :
    ∀ room playerId value,
      (room, playerId, value) ∈ s.2.slots →
        s.2.Knows room playerId

theorem roomsKnown_empty :
    RoomsKnown ((Rooms.empty : Rooms α), Provenance.none) where
  rooms := fun _ => admits_empty
  data := nofun
  slots := nofun

variable {w w' : Provenance α}

/- Nothing that is known is forgotten. -/
theorem Provenance.Knows.mono
    {room playerId : String}
    (hKnows : w.Knows room playerId)
    (hJoined : w.joined ⊆ w'.joined)
    (hFed : w.fed ⊆ w'.fed) :
    w'.Knows room playerId := by
  rcases hKnows with ⟨source, hPath, hMem⟩
  exact
    ⟨source,
      Relation.ReflTransGen.mono (fun _ _ hEdge => hFed hEdge)
        _ _ hPath,
      hJoined hMem⟩

theorem knows_of_joined
    {room playerId : String}
    (hJoined : (room, playerId) ∈ w.joined) :
    w.Knows room playerId :=
  ⟨room, .refl, hJoined⟩

theorem Provenance.Knows.fed
    {source room playerId : String}
    (hKnows : w.Knows source playerId)
    (hFed : (source, room) ∈ w.fed) :
    w.Knows room playerId := by
  rcases hKnows with ⟨first, hPath, hMem⟩
  exact ⟨first, hPath.tail hFed, hMem⟩

variable [DecidableEq α]
variable {s t : Rooms α}
variable {act : String × ClusterAct α}

/- The record only grows. -/
theorem joined_subset_note :
    w.joined ⊆ (noteProvenance s act t w).joined := by
  unfold noteProvenance
  split
  · exact List.Subset.refl _
  · exact List.Subset.refl _
  · exact List.subset_append_left _ _
  · exact List.subset_append_left _ _
  · exact List.Subset.refl _
  · exact List.Subset.refl _

theorem fed_subset_note :
    w.fed ⊆ (noteProvenance s act t w).fed := by
  unfold noteProvenance
  split
  · exact List.Subset.refl _
  · exact List.Subset.refl _
  · exact List.Subset.refl _
  · exact List.Subset.refl _
  · exact List.subset_append_left _ _
  · exact List.Subset.refl _

theorem slots_subset_note :
    w.slots ⊆ (noteProvenance s act t w).slots := by
  unfold noteProvenance
  split
  · exact List.Subset.refl _
  · exact List.subset_append_left _ _
  · exact List.Subset.refl _
  · exact List.Subset.refl _
  · exact List.Subset.refl _
  · exact List.Subset.refl _

theorem knows_note
    {room playerId : String}
    (hKnows : w.Knows room playerId) :
    (noteProvenance s act t w).Knows room playerId :=
  hKnows.mono joined_subset_note fed_subset_note

/- What an action brings in is known after it. -/
theorem brings_note
    (hOk : LoadsWritten (s, w) act)
    (hData :
      ∀ e ∈ w.data, Names (w.Knows e.1) e.2.roster.keys) :
    act.2.Brings
      ((noteProvenance s act t w).Knows act.1) := by
  rcases act with ⟨room, act⟩
  cases act with
  | load i replies =>
      intro data hReply pid hListed
      rcases List.mem_map.mp (hOk data hReply) with
        ⟨e, hWritten, rfl⟩
      refine
        (knows_note
          (hData e hWritten pid hListed)).fed ?_
      refine List.mem_append_right _ (List.mem_map.mpr ?_)
      exact
        ⟨e,
          List.mem_filter.mpr
            ⟨hWritten, decide_eq_true hReply⟩,
          rfl⟩
  | join i playerId hold =>
      exact
        knows_of_joined
          (List.mem_append_right _ (List.mem_singleton_self _))
  | input i playerId inputData =>
      exact
        knows_of_joined
          (List.mem_append_right _ (List.mem_singleton_self _))
  | _ => trivial

/- Data and slots are recorded with names that are known. -/
theorem mem_data_note
    {e : String × StateJson α}
    (hMem : e ∈ (noteProvenance s act t w).data) :
    e ∈ w.data ∨
      e.1 = act.1 ∧
        ∃ k i aw, (s act.1).tasks k = some (i, aw) ∧
          e.2 ∈ aw.writes := by
  unfold noteProvenance at hMem
  split at hMem
  · rename_i k hAct
    rcases List.mem_append.mp hMem with hOld | hNew
    · exact .inl hOld
    · rcases List.mem_map.mp hNew with ⟨data, hWrites, rfl⟩
      right
      refine ⟨rfl, ?_⟩
      cases hTask : (s act.1).tasks k with
      | none =>
          rw [hTask] at hWrites
          cases hWrites
      | some task =>
          rw [hTask] at hWrites
          exact ⟨k, task.1, task.2, hTask, hWrites⟩
  all_goals exact .inl hMem

theorem mem_slots_note
    {room playerId : String}
    {value : HoldJson α}
    (hMem :
      (room, playerId, value) ∈
        (noteProvenance s act t w).slots) :
    (room, playerId, value) ∈ w.slots ∨
      ∃ i, slotOf (s room) i playerId = some value := by
  unfold noteProvenance at hMem
  split at hMem
  · exact .inl hMem
  · rename_i i left hAct
    rcases List.mem_append.mp hMem with hOld | hNew
    · exact .inl hOld
    · rcases Option.map_eq_some_iff.mp
          (Option.mem_toList.mp hNew) with
        ⟨value', hSlot, hEq⟩
      cases hEq
      exact .inr ⟨i, hSlot⟩
  all_goals exact .inl hMem

variable [PyNumber α]

/- Every action leaves only known names in the rooms. -/
theorem roomsKnown_step
    {settings : Settings}
    {s t : Rooms α × Provenance α}
    (hKnown : RoomsKnown s)
    (hOk : LoadsWritten s act)
    (hStep :
      observe (Rooms.step settings) noteProvenance s act =
        some t) :
    RoomsKnown t := by
  rcases observe_eq_some_iff.mp hStep with ⟨hRooms, hNote⟩
  rcases each_eq_some_iff.mp hRooms with ⟨c, hThis, hRest⟩
  rcases s with ⟨s, w⟩
  rcases t with ⟨t, w'⟩
  simp only at hRooms hNote hThis hRest
  subst hNote
  have hMono :
      ∀ room pid, w.Knows room pid →
        (noteProvenance s act t w).Knows room pid :=
    fun _ _ => knows_note
  refine ⟨?_, ?_, ?_⟩
  · intro room
    rw [← hRest]
    by_cases hSame : room = act.1
    · subst hSame
      simp only [Function.update_self]
      exact
        admits_clusterSteps
          ((hKnown.rooms act.1).mono (hMono act.1))
          (brings_note hOk hKnown.data)
          (clusterSteps_of_step hThis)
    · simp only [Function.update_of_ne hSame]
      exact (hKnown.rooms room).mono (hMono room)
  · intro e hMem
    rcases mem_data_note (t := t) hMem with
      hOld | ⟨hRoom, k, i, aw, hTask, hWrites⟩
    · exact (hKnown.data e hOld).mono (hMono e.1)
    · rw [hRoom]
      refine Names.mono ?_ (hMono act.1)
      exact
        names_of_writes
          ((hKnown.rooms act.1).tasks k i aw hTask) hWrites
  · intro room playerId value hMem
    apply hMono
    rcases mem_slots_note (t := t) hMem with hOld | ⟨i, hSlot⟩
    · exact hKnown.slots room playerId value hOld
    · rcases Option.bind_eq_some_iff.mp hSlot with
        ⟨g, hLoop, hValue⟩
      exact
        ((hKnown.rooms room).loops i g hLoop).of_slot hValue

end GameRoom
