import MultiplayerInfra.GameRoom.Models

/-
  One tick of the game: the effect of the queued inputs on a
  copy of the players.

  Key definitions include:
    * `GameRoom.findNearestEnemyIn`
    * `GameRoom.applyInputTo`
    * `GameRoom.drainInputs`
    * `GameRoom.respawn`
    * `GameRoom.commitPlayers`

  Key theorems include:
    * `GameRoom.applyInputTo_keys`
    * `GameRoom.drainInputs_keys`
    * `GameRoom.get?_commitPlayers`

  A raised exception is `none`: it abandons the copy.
-/

------------------------------------------------------------
-- Inputs
------------------------------------------------------------

namespace GameRoom

open Py

/-
  Telemetry events, without the `match_id`, `tick` and
  `timestamp` with which they are stamped when published.
-/
inductive Telemetry (α : Type) where
  | sessionStart (playerId : String)
  | sessionEnd (playerId : String)
  | kill (killer victim : String)
  | move (playerId : String) (pdata : PlayerJson α)

variable {α : Type} [PyNumber α]

/- `max(-500, min(500, v))`. -/
def clamp (v : α) : α :=
  PyNumber.max (PyNumber.ofInt (-500))
    (PyNumber.min (PyNumber.ofInt 500) v)

/- `v += d * speed` on decoded inputs. -/
def move
    (v : α)
    (d speed : Json α) :
    Option α := do
  PyNumber.addMul v (← d.number?) (← speed.number?)

/- One turn of the search for the nearest enemy. -/
def nearer
    (playerId : String)
    (player : PlayerState α)
    (nearest : Option (String × α))
    (e : String × PlayerState α) :
    Option (String × α) :=
  if e.1 = playerId ∨ e.2.connected = false then
    nearest
  else
    let dist :=
      PyNumber.dist e.2.x e.2.y player.x player.y
    match nearest with
    -- `float("inf")` exceeds every distance in the arena
    | none => some (e.1, dist)
    | some (_, best) =>
        if PyNumber.lt dist best then some (e.1, dist)
        else nearest

/- The key of the nearest connected enemy within reach. -/
def findNearestEnemyIn
    (playerId : String)
    (players : Players α) :
    Option String := do
  let player ← players.get? playerId
  let (pid, dist) ←
    players.entries.foldl (nearer playerId player) none
  if PyNumber.lt dist (PyNumber.ofInt 200) then some pid
  else none

/-
  The shot of a player: the victim loses 10 health, the
  shooter gains 10 points, and a kill is reported.
-/
def shoot
    (playerId : String)
    (players : Players α) :
    Players α × List (Telemetry α) :=
  match findNearestEnemyIn playerId players with
  | none => (players, [])
  | some pid =>
      match players.get? pid, players.get? playerId with
      | some nearest, some player =>
          let hit :=
            { nearest with health := nearest.health - 10 }
          let shooter :=
            { player with score := player.score + 10 }
          ((players.set pid hit).set playerId shooter,
            if hit.health ≤ 0 then
              [.kill playerId hit.playerId]
            else [])
      | _, _ => (players, [])

/- Add a player that is not in the dictionary yet. -/
def ensurePlayer
    (playerId : String)
    (players : Players α) :
    Players α :=
  if playerId ∈ players.keys then players
  else players.set playerId (PlayerState.new playerId)

/- `_apply_input_to`: move, clamp, and shoot if asked to. -/
def applyInputTo
    (playerId : String)
    (inputData : Json α)
    (players : Players α) :
    Option (Players α × List (Telemetry α)) := do
  let present := ensurePlayer playerId players
  let player ← present.get? playerId
  let dx ←
    inputData.get "dx" (.num (PyNumber.ofInt 0))
  let dy ←
    inputData.get "dy" (.num (PyNumber.ofInt 0))
  let speed ←
    inputData.get "speed" (.num (PyNumber.ofInt 5))
  let x ← move player.x dx speed
  let y ← move player.y dy speed
  let wantsShot ← inputData.get "shoot" .null
  let moved :=
    present.set playerId
      { player with x := clamp x, y := clamp y }
  return (
    if wantsShot.truthy then shoot playerId moved
    else (moved, []))

/- What the input loop of `_process_tick` leaves behind. -/
structure Drained (α : Type) where
  inputQueue : List (String × Json α)
  pendingTelemetry : List (Telemetry α)
  players : Option (Players α)

/-
  The input loop.  An input that raises has been taken from
  the queue; those behind it stay for the next tick.
-/
def drainInputs :
    List (String × Json α) →
      List (Telemetry α) → Players α → Drained α
| [], pending, players =>
    { inputQueue := []
      pendingTelemetry := pending
      players := some players }
| (playerId, inputData) :: queue, pending, players =>
    match applyInputTo playerId inputData players with
    | none =>
        { inputQueue := queue
          pendingTelemetry := pending
          players := none }
    | some (players', kills) =>
        drainInputs queue (pending ++ kills) players'

/- Connected players without health start over. -/
def respawn (players : Players α) : Players α :=
  players.mapVals (fun _ player =>
    if player.connected = true ∧ player.health ≤ 0 then
      { player with
        health := 100
        x := PyNumber.ofInt 0
        y := PyNumber.ofInt 0 }
    else player)

end GameRoom

------------------------------------------------------------
-- Copies and Commit
------------------------------------------------------------

namespace GameRoom

open Py

variable {α : Type}

/- The working copy with which a tick starts. -/
def copyPlayers (players : Players α) : Players α :=
  players.mapVals (fun pid player =>
    { player with playerId := pid })

/- Write the fields of a ticked player over an old one. -/
def overwrite
    (_pid : String)
    (old : Option (PlayerState α))
    (p : PlayerState α) :
    PlayerState α :=
  match old with
  | none => p
  | some player =>
      { player with
        x := p.x
        y := p.y
        health := p.health
        score := p.score
        connected := p.connected }

/- The commit of a tick into the live players. -/
def commitPlayers
    (players next : Players α) :
    Players α :=
  players.upsert overwrite next

/- The `players` object of the event of a tick. -/
def playersJson
    (players : Players α) :
    Dict String (PlayerJson α) :=
  players.mapVals (fun _ p => p.toJson)

/- Every player of an event has all of its fields. -/
def StateJson.Full (event : StateJson α) : Prop :=
  ∃ players : Players α,
    event.players = some (playersJson players)

end GameRoom

------------------------------------------------------------
-- Players Are Never Dropped
------------------------------------------------------------

namespace GameRoom

open Py

variable {α : Type}

/- Overwriting leaves exactly the fields that were written. -/
@[simp] theorem toJson_overwrite
    (pid : String)
    (old : Option (PlayerState α))
    (p : PlayerState α) :
    (overwrite pid old p).toJson = p.toJson := by
  cases old <;> rfl

/-
  After a commit every ticked player has the ticked fields,
  and the others are untouched.
-/
theorem get?_commitPlayers
    (players next : Players α)
    (pid : String) :
    (commitPlayers players next).get? pid =
      match next.get? pid with
      | none => players.get? pid
      | some p =>
          some (overwrite pid (players.get? pid) p) := by
  rw [commitPlayers, Dict.get?_upsert]
  cases next.get? pid <;> rfl

theorem mem_keys_commitPlayers
    (players next : Players α)
    (pid : String) :
    pid ∈ (commitPlayers players next).keys ↔
      pid ∈ players.keys ∨ pid ∈ next.keys :=
  Dict.mem_keys_upsert overwrite players next pid

/- Looking up a player in the event of a tick. -/
theorem get?_playersJson
    (players : Players α)
    (pid : String) :
    (playersJson players).get? pid =
      (players.get? pid).map PlayerState.toJson :=
  Dict.get?_mapVals (fun _ p => PlayerState.toJson p)
    players pid

@[simp] theorem keys_playersJson
    (players : Players α) :
    (playersJson players).keys = players.keys := by
  simp [playersJson]

@[simp] theorem keys_copyPlayers
    (players : Players α) :
    (copyPlayers players).keys = players.keys := by
  simp [copyPlayers]

variable [PyNumber α]

@[simp] theorem keys_respawn
    (players : Players α) :
    (respawn players).keys = players.keys := by
  simp [respawn]

theorem subset_keys_ensurePlayer
    (playerId : String)
    (players : Players α) :
    players.keys ⊆ (ensurePlayer playerId players).keys := by
  intro pid hPid
  unfold ensurePlayer
  split
  · exact hPid
  · exact (Dict.mem_keys_set _ _ _ _).mpr (Or.inr hPid)

theorem subset_keys_shoot
    (playerId : String)
    (players : Players α) :
    players.keys ⊆ (shoot playerId players).1.keys := by
  intro pid hPid
  unfold shoot
  split
  · exact hPid
  · split
    · simp only [Dict.mem_keys_set]
      exact Or.inr (Or.inr hPid)
    · exact hPid

/- An input never removes a player. -/
theorem applyInputTo_keys
    {playerId : String}
    {inputData : Json α}
    {players players' : Players α}
    {kills : List (Telemetry α)}
    (hApply :
      applyInputTo playerId inputData players =
        some (players', kills)) :
    players.keys ⊆ players'.keys := by
  simp only [applyInputTo, Option.bind_eq_bind,
    Option.bind_eq_some_iff, Option.pure_def,
    Option.some.injEq] at hApply
  rcases hApply with
    ⟨player, _, dx, _, dy, _, speed, _, x, _, y, _,
      wantsShot, _, hResult⟩
  intro pid hPid
  have hMoved :
      pid ∈
        ((ensurePlayer playerId players).set playerId
          { player with
            x := clamp x, y := clamp y }).keys :=
    (Dict.mem_keys_set _ _ _ _).mpr
      (Or.inr (subset_keys_ensurePlayer _ _ hPid))
  by_cases hShot : wantsShot.truthy = true
  · rw [if_pos hShot] at hResult
    have hKeys := subset_keys_shoot playerId _ hMoved
    rw [hResult] at hKeys
    exact hKeys
  · rw [if_neg hShot] at hResult
    cases hResult
    exact hMoved

/- A completed input loop never removes a player. -/
theorem drainInputs_keys
    {queue : List (String × Json α)}
    {pending : List (Telemetry α)}
    {players players' : Players α}
    (hDrain :
      (drainInputs queue pending players).players =
        some players') :
    players.keys ⊆ players'.keys := by
  induction queue generalizing pending players with
  | nil =>
      cases hDrain
      exact List.Subset.refl _
  | cons e queue ih =>
      rcases e with ⟨playerId, inputData⟩
      cases hApply :
          applyInputTo playerId inputData players with
      | none =>
          simp [drainInputs, hApply] at hDrain
      | some result =>
          rcases result with ⟨players₁, kills⟩
          simp only [drainInputs, hApply] at hDrain
          exact
            List.Subset.trans (applyInputTo_keys hApply)
              (ih hDrain)

end GameRoom

------------------------------------------------------------
-- Inputs and Connections During a Tick
------------------------------------------------------------

namespace GameRoom

open Py

variable {α : Type}

/- Whether a player is there, and connected. -/
def connection
    (players : Players α)
    (pid : String) : Option Bool :=
  (players.get? pid).map PlayerState.connected

theorem connection_set
    (players : Players α)
    (pid pid' : String)
    (player : PlayerState α) :
    connection (players.set pid player) pid' =
      if pid' = pid then some player.connected
      else connection players pid' := by
  rw [connection, Dict.get?_set]
  split <;> rfl

/- Other fields of a player may change. -/
theorem connection_set_of_get?
    {players : Players α}
    {pid : String}
    {player player' : PlayerState α}
    (hGet : players.get? pid = some player)
    (hConnected : player'.connected = player.connected)
    (pid' : String) :
    connection (players.set pid player') pid' =
      connection players pid' := by
  rw [connection_set]
  split
  · rename_i hSame
    rw [hSame, connection, hGet, hConnected]
    rfl
  · rfl

theorem connection_mapVals
    {f : String → PlayerState α → PlayerState α}
    (hKeeps :
      ∀ pid player, (f pid player).connected = player.connected)
    (players : Players α)
    (pid : String) :
    connection (players.mapVals f) pid =
      connection players pid := by
  rw [connection, Dict.get?_mapVals, connection,
    Option.map_map]
  congr 1
  funext player
  exact hKeeps pid player

theorem connection_copyPlayers
    (players : Players α)
    (pid : String) :
    connection (copyPlayers players) pid =
      connection players pid := by
  unfold copyPlayers
  apply connection_mapVals
  intro pid player
  rfl

/- A commit takes over the connections of its players. -/
theorem connection_commitPlayers
    {players next : Players α}
    (hSame :
      ∀ pid ∈ next.keys,
        connection next pid = connection players pid)
    (pid : String) :
    connection (commitPlayers players next) pid =
      connection players pid := by
  rw [connection, get?_commitPlayers]
  split
  · rfl
  · rename_i player hGet
    rw [← hSame pid (Dict.mem_keys_iff.mpr ⟨player, hGet⟩),
      connection, hGet]
    cases players.get? pid <;> rfl

variable [PyNumber α]

theorem connection_respawn
    (players : Players α)
    (pid : String) :
    connection (respawn players) pid =
      connection players pid := by
  unfold respawn
  apply connection_mapVals
  intro pid player
  split <;> rfl

theorem connection_shoot
    (playerId : String)
    (players : Players α)
    (pid : String) :
    connection (shoot playerId players).1 pid =
      connection players pid := by
  unfold shoot
  split
  · rfl
  · rename_i enemy _
    split
    · rename_i nearest player hNearest hPlayer
      have hHit :
          connection
              (players.set enemy
                { nearest with health := nearest.health - 10 })
              pid =
            connection players pid :=
        connection_set_of_get? hNearest (by rfl) pid
      rw [connection_set]
      split
      · rename_i hSame
        rw [hSame, connection, hPlayer]
        rfl
      · exact hHit
    · rfl

/- A tick takes inputs out of the queue. -/
theorem subset_inputQueue_drainInputs
    (queue : List (String × Json α))
    (pending : List (Telemetry α))
    (players : Players α) :
    (drainInputs queue pending players).inputQueue ⊆ queue := by
  induction queue generalizing pending players with
  | nil => exact List.Subset.refl _
  | cons input queue ih =>
      simp only [drainInputs]
      split
      · exact List.subset_cons_self _ _
      · exact
          List.Subset.trans (ih _ _)
            (List.subset_cons_self _ _)

/- An input of a present player connects nobody. -/
theorem connection_applyInputTo
    {playerId : String}
    {inputData : Json α}
    {players players' : Players α}
    {kills : List (Telemetry α)}
    (hPresent : playerId ∈ players.keys)
    (hApply :
      applyInputTo playerId inputData players =
        some (players', kills))
    (pid : String) :
    connection players' pid = connection players pid := by
  simp only [applyInputTo, Option.bind_eq_bind,
    Option.bind_eq_some_iff, Option.pure_def,
    Option.some.injEq] at hApply
  rcases hApply with
    ⟨player, hGet, dx, _, dy, _, speed, _, x, _, y, _,
      wantsShot, _, hResult⟩
  rw [ensurePlayer, if_pos hPresent] at hGet hResult
  have hMoved :
      connection
          (players.set playerId
            { player with x := clamp x, y := clamp y }) pid =
        connection players pid :=
    connection_set_of_get? hGet (by rfl) pid
  by_cases hShot : wantsShot.truthy = true
  · rw [if_pos hShot] at hResult
    have hShoot :=
      connection_shoot playerId
        (players.set playerId
          { player with x := clamp x, y := clamp y }) pid
    rw [hResult] at hShoot
    exact hShoot.trans hMoved
  · rw [if_neg hShot] at hResult
    cases hResult
    exact hMoved

/- Inputs of present players connect nobody. -/
theorem connection_drainInputs
    {queue : List (String × Json α)}
    {pending : List (Telemetry α)}
    {players players' : Players α}
    (hPresent : ∀ e ∈ queue, e.1 ∈ players.keys)
    (hDrain :
      (drainInputs queue pending players).players =
        some players')
    (pid : String) :
    connection players' pid = connection players pid := by
  induction queue generalizing pending players with
  | nil =>
      cases hDrain
      rfl
  | cons e queue ih =>
      rcases e with ⟨playerId, inputData⟩
      have hHead := hPresent _ List.mem_cons_self
      cases hApply :
          applyInputTo playerId inputData players with
      | none => simp [drainInputs, hApply] at hDrain
      | some result =>
          rcases result with ⟨players₁, kills⟩
          simp only [drainInputs, hApply] at hDrain
          have hRest :
              ∀ e ∈ queue, e.1 ∈ players₁.keys := by
            intro e hMem
            exact
              applyInputTo_keys hApply
                (hPresent e (List.mem_cons_of_mem _ hMem))
          rw [ih hRest hDrain]
          exact connection_applyInputTo hHead hApply pid

end GameRoom
