import MultiplayerInfra.GameRoom.Recovery
import MultiplayerInfra.GameRoom.Shots
import MultiplayerInfra.GameRoom.Visits

/-
  The values that a player can have, and that every writer of
  a player keeps to.

  Key definitions include:
    * `GameRoom.InRange`
    * `GameRoom.Standing.InArena`
    * `GameRoom.AllInArena`
    * `GameRoom.PlayerState.UnderFire`

  Key theorems include:
    * `GameRoom.inRange_clamp`
    * `GameRoom.allUnderFire_applyInputTo`
    * `GameRoom.allInArena_beginTick`
    * `GameRoom.allInArena_loadState`

  Inside a tick health may fall to any multiple of 10 below
  100, but only that of a connected player, who is respawned
  at the end of the tick.
-/

------------------------------------------------------------
-- The Arena
------------------------------------------------------------

namespace GameRoom

open Py

variable {α : Type} [PyNumber α]

/- `-500 <= v <= 500`. -/
structure InRange (v : α) : Prop where
  low : PyNumber.AtMost (PyNumber.ofInt (-500)) v
  high : PyNumber.AtMost v (PyNumber.ofInt 500)

structure Standing.InArena (standing : Standing α) :
    Prop where
  x : InRange standing.x
  y : InRange standing.y
  wounds : 10 ∣ standing.health
  alive : 10 ≤ standing.health
  unhurt : standing.health ≤ 100
  hits : 10 ∣ standing.score
  earned : 0 ≤ standing.score

def AllInArena (players : Players α) : Prop :=
  ∀ pid standing,
    standingOf players pid = some standing →
      standing.InArena

variable [LawfulPyNumber α]

theorem inRange_ofInt
    {n : Int}
    (hLow : -500 ≤ n)
    (hHigh : n ≤ 500) :
    InRange (PyNumber.ofInt n : α) := by
  constructor
  · by_cases hEdge : n = -500
    · exact Or.inr (by rw [hEdge])
    · left
      rw [LawfulPyNumber.lt_ofInt, decide_eq_true_eq]
      omega
  · by_cases hEdge : n = 500
    · exact Or.inr (by rw [hEdge])
    · left
      rw [LawfulPyNumber.lt_ofInt, decide_eq_true_eq]
      omega

/- Whatever is clamped, a number that is none included. -/
theorem inRange_clamp (v : α) : InRange (clamp v) := by
  unfold clamp PyNumber.max
  split
  · rename_i hLow
    refine ⟨Or.inl hLow, ?_⟩
    unfold PyNumber.min
    split
    · rename_i hHigh
      exact Or.inl hHigh
    · exact Or.inr rfl
  · exact inRange_ofInt (by omega) (by omega)

/- Where everybody starts, and is respawned. -/
theorem inArena_origin
    {score : Int}
    (hHits : 10 ∣ score)
    (hEarned : 0 ≤ score) :
    (⟨PyNumber.ofInt 0, PyNumber.ofInt 0, 100, score⟩ :
      Standing α).InArena where
  x := inRange_ofInt (by omega) (by omega)
  y := inRange_ofInt (by omega) (by omega)
  wounds := (by decide : (10 : Int) ∣ 100)
  alive := (by decide : (10 : Int) ≤ 100)
  unhurt := Int.le_refl 100
  hits := hHits
  earned := hEarned

/- The default player. -/
theorem inArena_new (playerId : String) :
    (PlayerState.new playerId :
      PlayerState α).standing.InArena :=
  inArena_origin (Int.dvd_zero 10) (Int.le_refl 0)

omit [LawfulPyNumber α] in
theorem allInArena_empty :
    AllInArena (Dict.empty : Players α) := by
  intro pid standing hStanding
  cases hStanding

omit [LawfulPyNumber α] in
/- A commit mixes players who are all in the arena. -/
theorem allInArena_commitPlayers
    {players next : Players α}
    (hPlayers : AllInArena players)
    (hNext : AllInArena next) :
    AllInArena (commitPlayers players next) := by
  intro pid standing hStanding
  rw [standingOf_commitPlayers,
    Option.or_eq_some_iff] at hStanding
  rcases hStanding with hNew | ⟨_, hOld⟩
  · exact hNext pid standing hNew
  · exact hPlayers pid standing hOld

omit [LawfulPyNumber α] in
theorem allInArena_removePlayer
    {g : GameLoop α}
    (hAll : AllInArena g.state.players)
    (playerId : String) :
    AllInArena (g.removePlayer playerId).1.state.players := by
  intro pid standing hStanding
  rw [standingOf_removePlayer] at hStanding
  exact hAll pid standing hStanding

omit [LawfulPyNumber α] in
theorem allInArena_beginEndMatch
    {g : GameLoop α}
    (hAll : AllInArena g.state.players) :
    AllInArena g.beginEndMatch.state.players := by
  intro pid standing hStanding
  rw [standingOf_beginEndMatch] at hStanding
  exact hAll pid standing hStanding

omit [LawfulPyNumber α] in
/- The slot of a departure is of a player in the arena. -/
theorem inArena_of_removePlayer
    {g : GameLoop α}
    (hAll : AllInArena g.state.players)
    {playerId : String}
    {value : HoldJson α}
    (hSlot : (g.removePlayer playerId).2 = some value) :
    value.standing.InArena := by
  unfold GameLoop.removePlayer at hSlot
  split at hSlot
  · cases hSlot
  · rename_i player hGet
    cases hSlot
    apply hAll playerId
    rw [standingOf, hGet]
    rfl

/- A join, from a slot in the arena if there is one. -/
theorem allInArena_addPlayer
    {g : GameLoop α}
    (hAll : AllInArena g.state.players)
    (playerId : String)
    {hold : Option (HoldJson α)}
    (hHold : ∀ value ∈ hold, value.standing.InArena) :
    AllInArena
      (g.addPlayer playerId hold).state.players := by
  intro pid standing hStanding
  rw [standingOf_addPlayer] at hStanding
  split at hStanding
  · rw [Option.or_eq_some_iff, Option.or_eq_some_iff]
      at hStanding
    rcases hStanding with hSlot | ⟨_, hOld | ⟨_, hNew⟩⟩
    · rcases Option.map_eq_some_iff.mp hSlot with
        ⟨value, hValue, rfl⟩
      exact hHold value hValue
    · exact hAll pid standing hOld
    · cases hNew
      exact inArena_new playerId
  · exact hAll pid standing hStanding

end GameRoom

------------------------------------------------------------
-- Inside a Tick
------------------------------------------------------------

namespace GameRoom

open Py

variable {α : Type} [PyNumber α]

/- A player while the inputs of a tick are applied. -/
structure PlayerState.UnderFire
    (player : PlayerState α) : Prop where
  x : InRange player.x
  y : InRange player.y
  wounds : 10 ∣ player.health
  unhurt : player.health ≤ 100
  -- nobody hits those who are not connected
  away : player.connected = false → 10 ≤ player.health
  hits : 10 ∣ player.score
  earned : 0 ≤ player.score

def AllUnderFire (players : Players α) : Prop :=
  ∀ pid player,
    players.get? pid = some player → player.UnderFire

theorem allUnderFire_set
    {players : Players α}
    (hAll : AllUnderFire players)
    (pid : String)
    {player : PlayerState α}
    (hPlayer : player.UnderFire) :
    AllUnderFire (players.set pid player) := by
  intro pid' player' hGet
  rw [Dict.get?_set] at hGet
  split at hGet
  · cases hGet
    exact hPlayer
  · exact hAll pid' player' hGet

/- A tick begins with players in the arena. -/
theorem allUnderFire_copyPlayers
    {players : Players α}
    (hAll : AllInArena players) :
    AllUnderFire (copyPlayers players) := by
  intro pid player hGet
  rw [copyPlayers, Dict.get?_mapVals] at hGet
  rcases Option.map_eq_some_iff.mp hGet with
    ⟨old, hOld, rfl⟩
  have hIn : old.standing.InArena := by
    apply hAll pid
    rw [standingOf, hOld]
    rfl
  exact
    ⟨hIn.x, hIn.y, hIn.wounds, hIn.unhurt,
      fun _ => hIn.alive, hIn.hits, hIn.earned⟩

/- A shot hits a connected player, and is counted. -/
theorem allUnderFire_shoot
    {players : Players α}
    (hAll : AllUnderFire players)
    (playerId : String) :
    AllUnderFire (shoot playerId players).1 := by
  unfold shoot
  split
  · exact hAll
  · rename_i pid hFind
    split
    · rename_i nearest player hNearest hPlayer
      rcases mem_of_findNearestEnemyIn hFind with
        ⟨_, enemy, hEnemy, hConnected⟩
      rw [hNearest] at hEnemy
      cases hEnemy
      have hVictim := hAll pid nearest hNearest
      have hShooter := hAll playerId player hPlayer
      have hWounds := hVictim.wounds
      have hUnhurt := hVictim.unhurt
      have hHits := hShooter.hits
      have hEarned := hShooter.earned
      refine
        allUnderFire_set (allUnderFire_set hAll pid ?_)
          playerId ?_
      · refine
          ⟨hVictim.x, hVictim.y, ?_, ?_, ?_, hVictim.hits,
            hVictim.earned⟩
        · simp only
          omega
        · simp only
          omega
        · intro hAway
          rw [hConnected] at hAway
          cases hAway
      · refine
          ⟨hShooter.x, hShooter.y, hShooter.wounds,
            hShooter.unhurt, hShooter.away, ?_, ?_⟩
        · simp only
          omega
        · simp only
          omega
    · exact hAll

variable [LawfulPyNumber α]

theorem underFire_new (playerId : String) :
    (PlayerState.new playerId : PlayerState α).UnderFire := by
  have hIn := inArena_new (α := α) playerId
  exact
    ⟨hIn.x, hIn.y, hIn.wounds, hIn.unhurt, fun _ => hIn.alive,
      hIn.hits, hIn.earned⟩

/- Whatever an input moves by, the result is clamped. -/
theorem allUnderFire_moveInput
    {playerId : String}
    {inputData : Json α}
    {players moved : Players α}
    {shoots : Bool}
    (hAll : AllUnderFire players)
    (hMove :
      moveInput playerId inputData players =
        some (moved, shoots)) :
    AllUnderFire moved := by
  rcases moved_of_moveInput hMove with
    ⟨player, x, y, hGet, rfl⟩
  have hPresent :
      AllUnderFire (ensurePlayer playerId players) := by
    unfold ensurePlayer
    split
    · exact hAll
    · exact
        allUnderFire_set hAll playerId
          (underFire_new playerId)
  have hPlayer := hPresent playerId player hGet
  exact
    allUnderFire_set hPresent playerId
      ⟨inRange_clamp x, inRange_clamp y, hPlayer.wounds,
        hPlayer.unhurt, hPlayer.away, hPlayer.hits,
        hPlayer.earned⟩

theorem allUnderFire_applyInputTo
    {playerId : String}
    {inputData : Json α}
    {players players' : Players α}
    {kills : List (Telemetry α)}
    (hAll : AllUnderFire players)
    (hApply :
      applyInputTo playerId inputData players =
        some (players', kills)) :
    AllUnderFire players' := by
  rw [applyInputTo_eq] at hApply
  rcases Option.map_eq_some_iff.mp hApply with
    ⟨⟨moved, shoots⟩, hMove, hResult⟩
  have hMoved := allUnderFire_moveInput hAll hMove
  cases shoots with
  | false =>
      cases hResult
      exact hMoved
  | true =>
      have hShot := allUnderFire_shoot hMoved playerId
      simp only [if_true] at hResult
      rw [hResult] at hShot
      exact hShot

theorem allUnderFire_drainInputs
    {queue : List (String × Json α)}
    {pending : List (Telemetry α)}
    {players players' : Players α}
    (hAll : AllUnderFire players)
    (hDrain :
      (drainInputs queue pending players).players =
        some players') :
    AllUnderFire players' := by
  induction queue generalizing pending players with
  | nil =>
      cases hDrain
      exact hAll
  | cons e queue ih =>
      rcases e with ⟨playerId, inputData⟩
      cases hApply :
          applyInputTo playerId inputData players with
      | none => simp [drainInputs, hApply] at hDrain
      | some result =>
          rcases result with ⟨players₁, kills⟩
          simp only [drainInputs, hApply] at hDrain
          exact
            ih (allUnderFire_applyInputTo hAll hApply) hDrain

/- The respawn brings everybody back into the arena. -/
theorem allInArena_respawn
    {players : Players α}
    (hAll : AllUnderFire players) :
    AllInArena (respawn players) := by
  intro pid standing hStanding
  rcases Option.map_eq_some_iff.mp hStanding with
    ⟨player, hGet, rfl⟩
  rw [respawn, Dict.get?_mapVals] at hGet
  rcases Option.map_eq_some_iff.mp hGet with
    ⟨old, hOld, rfl⟩
  have hFire := hAll pid old hOld
  split
  · exact inArena_origin hFire.hits hFire.earned
  · rename_i hStays
    refine
      ⟨hFire.x, hFire.y, hFire.wounds, ?_, hFire.unhurt,
        hFire.hits, hFire.earned⟩
    have hWounds := hFire.wounds
    simp only [PlayerState.standing]
    cases hConnected : old.connected with
    | false => exact hFire.away hConnected
    | true =>
        have hAlive : ¬ old.health ≤ 0 :=
          fun hDown => hStays ⟨hConnected, hDown⟩
        omega

/- The values of a tick that begins in the arena. -/
theorem allInArena_beginTick
    {g g' : GameLoop α}
    {next : Players α}
    {event : StateJson α}
    (hAll : AllInArena g.state.players)
    (hBegin : g.beginTick = (g', some (next, event))) :
    AllInArena next := by
  have hPair := congrArg Prod.snd hBegin
  rcases Option.map_eq_some_iff.mp hPair with
    ⟨players, hDrain, hEq⟩
  cases hEq
  exact
    allInArena_respawn
      (allUnderFire_drainInputs
        (allUnderFire_copyPlayers hAll) hDrain)

end GameRoom

------------------------------------------------------------
-- Written and Read Back
------------------------------------------------------------

namespace GameRoom

open Py Kafka

variable {α : Type} [PyNumber α]

omit [PyNumber α] in
/- What `_apply_event` makes of a player of an event. -/
def PlayerJson.standing
    (pdata : PlayerJson α) : Standing α where
  x := pdata.x
  y := pdata.y
  health := pdata.health.getD 100
  score := pdata.score.getD 0

/- Everybody in the object is in the arena. -/
def StateJson.InArena (data : StateJson α) : Prop :=
  ∀ pid pdata,
    data.roster.get? pid = some pdata →
      pdata.standing.InArena

/- The event of a tick, and a state that is stored. -/
theorem inArena_of_roster
    {data : StateJson α}
    {players : Players α}
    (hRoster : data.roster = playersJson players)
    (hAll : AllInArena players) :
    data.InArena := by
  intro pid pdata hGet
  rw [hRoster, get?_playersJson] at hGet
  rcases Option.map_eq_some_iff.mp hGet with
    ⟨player, hPlayer, rfl⟩
  apply hAll pid
  rw [standingOf, hPlayer]
  rfl

theorem inArena_toDict
    {state : GameState α}
    (hAll : AllInArena state.players) :
    state.toDict.InArena :=
  inArena_of_roster (by rfl) hAll

theorem allInArena_fromDict
    {now : Timestamp}
    {data : StateJson α}
    {state : GameState α}
    (hData : data.InArena)
    (hRead : GameState.fromDict now data = some state) :
    AllInArena state.players := by
  intro pid standing hStanding
  rcases GameState.fromDict_spec hRead with ⟨_, _, _, hGet⟩
  rw [standingOf, hGet] at hStanding
  rcases Option.map_eq_some_iff.mp hStanding with
    ⟨player, hPlayer, rfl⟩
  rcases Option.bind_eq_some_iff.mp hPlayer with
    ⟨pdata, hListed, hBuilt⟩
  have hIn := hData pid pdata hListed
  simp only [PlayerJson.toPlayer, Option.bind_eq_bind,
    Option.bind_eq_some_iff, Option.pure_def,
    Option.some.injEq] at hBuilt
  rcases hBuilt with ⟨health, hHealth, score, hScore, rfl⟩
  simp only [PlayerJson.standing, hHealth, hScore,
    Option.getD_some] at hIn
  exact hIn

theorem allInArena_applyEvent
    {state : GameState α}
    {event : StateJson α}
    (hAll : AllInArena state.players)
    (hEvent : event.InArena) :
    AllInArena (state.applyEvent event).players := by
  intro pid standing hStanding
  rw [standingOf, GameState.get?_applyEvent] at hStanding
  split at hStanding
  · exact hAll pid standing hStanding
  · rename_i pdata hListed
    cases hStanding
    exact hEvent pid pdata hListed

theorem allInArena_replay
    {state : GameState α}
    {events : List (StateJson α)}
    (hAll : AllInArena state.players)
    (hEvents : ∀ event ∈ events, event.InArena) :
    AllInArena (state.replay events).players := by
  induction events generalizing state with
  | nil => exact hAll
  | cons event events ih =>
      rw [GameState.replay_cons]
      refine ih ?_ ?_
      · exact
          allInArena_applyEvent hAll
            (hEvents event List.mem_cons_self)
      · intro event' hMem
        exact hEvents event' (List.mem_cons_of_mem _ hMem)

/- All events and states in what the stores answer. -/
def LoadReplies.data
    (replies : LoadReplies α) : List (StateJson α) :=
  (replies.redis.bind Prod.fst).toList ++
    ((replies.checkpoint.bind id).map
      Checkpoint.events).getD [] ++
      (messages replies.polls).map Message.value

variable {g g' : GameLoop α}
variable {replies : LoadReplies α}
theorem allInArena_tryLoadCheckpoint
    {state : GameState α}
    (hAll : AllInArena state.players)
    (hReplies : ∀ data ∈ replies.data, data.InArena) :
    AllInArena
      (tryLoadCheckpoint state
        replies.checkpoint).1.players := by
  unfold tryLoadCheckpoint
  split
  · exact hAll
  · exact hAll
  · rename_i c hCheckpoint
    apply allInArena_replay hAll
    intro event hMem
    apply hReplies
    simp [LoadReplies.data, hCheckpoint, hMem]

/- Whichever way the state is loaded, it is in the arena. -/
theorem allInArena_loadState
    (hAll : AllInArena g.state.players)
    (hReplies : ∀ data ∈ replies.data, data.InArena)
    (hLoad : loadState g replies = some g') :
    AllInArena g'.state.players := by
  have hRestored :=
    allInArena_tryLoadCheckpoint hAll hReplies
  unfold loadState at hLoad
  split at hLoad
  · cases hLoad
  · rename_i data offset hRedis
    rcases Option.map_eq_some_iff.mp hLoad with
      ⟨state, hRead, rfl⟩
    refine allInArena_fromDict ?_ hRead
    apply hReplies
    simp [LoadReplies.data, hRedis]
  · unfold coldStartReplay at hLoad
    simp only at hLoad
    split at hLoad
    · cases hLoad
    · cases hLoad
      exact hRestored
    · rcases Option.map_eq_some_iff.mp hLoad with
        ⟨⟨state, maxOffset⟩, hRead, rfl⟩
      refine
        readToEnd_invariant
          (I := fun acc => AllInArena acc.1.players) hRead
          hRestored ?_
      intro msg hMem acc hAcc
      simp only [replayMessage]
      split
      · apply allInArena_applyEvent hAcc
        apply hReplies
        simp only [LoadReplies.data, List.mem_append]
        exact Or.inr (List.mem_map_of_mem hMem)
      · exact hAcc

end GameRoom
