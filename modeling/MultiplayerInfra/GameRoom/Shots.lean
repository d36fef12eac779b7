import MultiplayerInfra.GameRoom.Tick

/-
  What one input does to the players: who is hit by its
  shot, and what a hit changes.

  Key definitions include:
    * `GameRoom.moveInput`
    * `GameRoom.hit`
    * `GameRoom.healthOf`
    * `GameRoom.Keyed`

  Key theorems include:
    * `GameRoom.applyInputTo_eq`
    * `GameRoom.mem_of_findNearestEnemyIn`
    * `GameRoom.applied_of_applyInputTo`
-/

------------------------------------------------------------
-- The Two Halves of an Input
------------------------------------------------------------

namespace GameRoom

open Py

variable {α : Type} [PyNumber α]

/-
  `_apply_input_to` up to its shot: the players after the
  move, and whether the input asks for a shot.
-/
def moveInput
    (playerId : String)
    (inputData : Json α)
    (players : Players α) :
    Option (Players α × Bool) := do
  let present := ensurePlayer playerId players
  let player ← present.get? playerId
  let dx ←
    inputData.get "dx" (.num (PyNumber.ofInt 0))
  let dy ←
    inputData.get "dy" (.num (PyNumber.ofInt 0))
  let speed ←
    inputData.get "speed" (.num (PyNumber.ofInt 5))
  let x ← move player.x dx speed
  let y ← move player.y dy speed
  let wantsShot ← inputData.get "shoot" .null
  return (present.set playerId
    { player with x := clamp x, y := clamp y },
    wantsShot.truthy)

/- The enemy that an input hits, as she was before. -/
def hit
    (playerId : String)
    (inputData : Json α)
    (players : Players α) :
    Option (String × PlayerState α) := do
  let (moved, shoots) ←
    moveInput playerId inputData players
  if shoots then
    let pid ← findNearestEnemyIn playerId moved
    let nearest ← moved.get? pid
    return (pid, nearest)
  else none

/- Moving, and then shooting if asked to. -/
theorem applyInputTo_eq
    (playerId : String)
    (inputData : Json α)
    (players : Players α) :
    applyInputTo playerId inputData players =
      (moveInput playerId inputData players).map
        (fun e =>
          if e.2 then shoot playerId e.1 else (e.1, [])) := by
  simp only [applyInputTo, moveInput, Option.bind_eq_bind,
    Option.map_bind, Option.pure_def, Function.comp_def,
    Option.map_some]

/- What the move of an input leaves. -/
theorem moved_of_moveInput
    {playerId : String}
    {inputData : Json α}
    {players moved : Players α}
    {shoots : Bool}
    (hMove :
      moveInput playerId inputData players =
        some (moved, shoots)) :
    ∃ player x y,
      (ensurePlayer playerId players).get? playerId =
          some player ∧
        moved =
          (ensurePlayer playerId players).set playerId
            { player with x := clamp x, y := clamp y } := by
  simp only [moveInput, Option.bind_eq_bind,
    Option.bind_eq_some_iff, Option.pure_def,
    Option.some.injEq, Prod.mk.injEq] at hMove
  rcases hMove with
    ⟨player, hGet, dx, _, dy, _, speed, _, x, _, y, _,
      wantsShot, _, hMoved, _⟩
  exact ⟨player, x, y, hGet, hMoved.symm⟩

end GameRoom

------------------------------------------------------------
-- The Nearest Enemy
------------------------------------------------------------

namespace GameRoom

open Py

variable {α : Type} [PyNumber α]

/- The search only ever holds a connected enemy. -/
theorem foldl_nearer
    {playerId pid : String}
    {player : PlayerState α}
    {entries : List (String × PlayerState α)}
    {nearest : Option (String × α)}
    {dist : α}
    (hFold :
      entries.foldl (nearer playerId player) nearest =
        some (pid, dist)) :
    (∃ best, nearest = some (pid, best)) ∨
      ∃ enemy,
        (pid, enemy) ∈ entries ∧ pid ≠ playerId ∧
          enemy.connected = true := by
  induction entries generalizing nearest with
  | nil => exact Or.inl ⟨dist, hFold⟩
  | cons e entries ih =>
      rcases ih hFold with ⟨best, hNext⟩ | hLater
      · unfold nearer at hNext
        split at hNext
        · exact Or.inl ⟨best, hNext⟩
        · rename_i hEnemy
          rw [not_or, Bool.not_eq_false] at hEnemy
          have hHere :
              e.1 = pid →
                ∃ enemy,
                  (pid, enemy) ∈ e :: entries ∧
                    pid ≠ playerId ∧
                      enemy.connected = true := by
            rintro rfl
            exact
              ⟨e.2, List.mem_cons_self, hEnemy.1, hEnemy.2⟩
          split at hNext
          · cases hNext
            exact Or.inr (hHere rfl)
          · simp only at hNext
            split at hNext
            · cases hNext
              exact Or.inr (hHere rfl)
            · exact Or.inl ⟨_, hNext⟩
      · rcases hLater with ⟨enemy, hMem, hEnemy⟩
        exact
          Or.inr
            ⟨enemy, List.mem_cons_of_mem _ hMem, hEnemy⟩

/- The nearest enemy is another player, and connected. -/
theorem mem_of_findNearestEnemyIn
    {playerId pid : String}
    {players : Players α}
    (hFind :
      findNearestEnemyIn playerId players = some pid) :
    pid ≠ playerId ∧
      ∃ enemy,
        players.get? pid = some enemy ∧
          enemy.connected = true := by
  simp only [findNearestEnemyIn, Option.bind_eq_bind,
    Option.bind_eq_some_iff] at hFind
  rcases hFind with
    ⟨player, _, ⟨found, dist⟩, hFold, hReach⟩
  simp only at hReach
  split at hReach
  · cases hReach
    rcases foldl_nearer hFold with
      ⟨best, hNone⟩ | ⟨enemy, hMem, hOther, hConnected⟩
    · cases hNone
    · exact
        ⟨hOther, enemy, players.get?_of_mem hMem,
          hConnected⟩
  · cases hReach

end GameRoom

------------------------------------------------------------
-- Hits
------------------------------------------------------------

namespace GameRoom

open Py

variable {α : Type}

def healthOf
    (players : Players α)
    (pid : String) : Option Int :=
  (players.get? pid).map PlayerState.health

/- Every player carries the name under which it is stored. -/
def Keyed (players : Players α) : Prop :=
  ∀ pid player,
    players.get? pid = some player → player.playerId = pid

theorem keyed_copyPlayers
    (players : Players α) :
    Keyed (copyPlayers players) := by
  intro pid player hGet
  rw [copyPlayers, Dict.get?_mapVals] at hGet
  rcases Option.map_eq_some_iff.mp hGet with ⟨old, _, rfl⟩
  rfl

theorem keyed_set
    {players : Players α}
    {pid : String}
    {player : PlayerState α}
    (hKeyed : Keyed players)
    (hName : player.playerId = pid) :
    Keyed (players.set pid player) := by
  intro pid' player' hGet
  rw [Dict.get?_set] at hGet
  split at hGet
  · rename_i hSame
    cases hGet
    rw [hName, hSame]
  · exact hKeyed pid' player' hGet

variable [PyNumber α]

/- The players with the shooter, who may be new. -/
theorem get?_ensurePlayer
    (playerId : String)
    (players : Players α)
    (pid : String) :
    (ensurePlayer playerId players).get? pid =
      if pid = playerId ∧ playerId ∉ players.keys then
        some (PlayerState.new playerId)
      else players.get? pid := by
  unfold ensurePlayer
  by_cases hThere : playerId ∈ players.keys
  · rw [if_pos hThere, if_neg (fun h => h.2 hThere)]
  · rw [if_neg hThere, Dict.get?_set]
    by_cases hSame : pid = playerId
    · rw [if_pos hSame, if_pos ⟨hSame, hThere⟩]
    · rw [if_neg hSame, if_neg (fun h => hSame h.1)]

theorem keyed_ensurePlayer
    (playerId : String)
    {players : Players α}
    (hKeyed : Keyed players) :
    Keyed (ensurePlayer playerId players) := by
  unfold ensurePlayer
  split
  · exact hKeyed
  · exact keyed_set hKeyed rfl

/- A move leaves the other players alone. -/
theorem get?_of_moveInput
    {playerId : String}
    {inputData : Json α}
    {players moved : Players α}
    {shoots : Bool}
    (hMove :
      moveInput playerId inputData players =
        some (moved, shoots))
    {pid : String}
    (hOther : pid ≠ playerId) :
    moved.get? pid = players.get? pid := by
  rcases moved_of_moveInput hMove with
    ⟨player, x, y, _, rfl⟩
  rw [Dict.get?_set, if_neg hOther, get?_ensurePlayer,
    if_neg (fun h => hOther h.1)]

/- A move changes neither health nor score. -/
theorem healthOf_of_moveInput
    {playerId : String}
    {inputData : Json α}
    {players moved : Players α}
    {shoots : Bool}
    (hMove :
      moveInput playerId inputData players =
        some (moved, shoots))
    {pid : String}
    (hThere : pid ∈ players.keys) :
    healthOf moved pid = healthOf players pid := by
  by_cases hSame : pid = playerId
  · subst hSame
    rcases moved_of_moveInput hMove with
      ⟨player, x, y, hGet, rfl⟩
    rw [get?_ensurePlayer, if_neg (fun h => h.2 hThere)]
      at hGet
    rw [healthOf, Dict.get?_set_self, healthOf, hGet]
    rfl
  · rw [healthOf, get?_of_moveInput hMove hSame, healthOf]

/-
  What an applied input does to the health of the players
  who were there: nothing, or it hits one connected enemy.
-/
inductive Applied
    (playerId : String)
    (inputData : Json α)
    (players players' : Players α) :
    List (Telemetry α) → Prop where
  | miss
      (hMiss : hit playerId inputData players = none)
      (hSame :
        ∀ pid ∈ players.keys,
          healthOf players' pid = healthOf players pid) :
      Applied playerId inputData players players' []
  | hit
      {pid : String} {enemy : PlayerState α}
      (hHit :
        hit playerId inputData players = some (pid, enemy))
      (hEnemy : players.get? pid = some enemy)
      (hConnected : enemy.connected = true)
      (hOther : pid ≠ playerId)
      (hHealth :
        healthOf players' pid = some (enemy.health - 10))
      (hSame :
        ∀ pid' ∈ players.keys,
          pid' ≠ pid →
            healthOf players' pid' = healthOf players pid') :
      Applied playerId inputData players players'
        (if enemy.health - 10 ≤ 0 then
          [.kill playerId enemy.playerId] else [])

theorem applied_of_applyInputTo
    {playerId : String}
    {inputData : Json α}
    {players players' : Players α}
    {kills : List (Telemetry α)}
    (hApply :
      applyInputTo playerId inputData players =
        some (players', kills)) :
    Applied playerId inputData players players' kills := by
  rw [applyInputTo_eq] at hApply
  rcases Option.map_eq_some_iff.mp hApply with
    ⟨⟨moved, shoots⟩, hMove, hResult⟩
  have hMoved :
      ∀ pid ∈ players.keys,
        healthOf moved pid = healthOf players pid :=
    fun pid hThere => healthOf_of_moveInput hMove hThere
  cases shoots with
  | false =>
      cases hResult
      exact .miss (by simp [hit, hMove]) hMoved
  | true =>
      simp only [if_true, shoot] at hResult
      cases hFind : findNearestEnemyIn playerId moved with
      | none =>
          rw [hFind] at hResult
          cases hResult
          exact .miss (by simp [hit, hMove, hFind]) hMoved
      | some pid =>
          rcases mem_of_findNearestEnemyIn hFind with
            ⟨hOther, enemy, hEnemy, hConnected⟩
          rcases moved_of_moveInput hMove with
            ⟨player, x, y, _, hDef⟩
          have hShooter :
              moved.get? playerId =
                some { player with
                  x := clamp x, y := clamp y } := by
            rw [hDef, Dict.get?_set_self]
          rw [hFind] at hResult
          simp only [hEnemy, hShooter] at hResult
          cases hResult
          have hHit :
              hit playerId inputData players =
                some (pid, enemy) := by
            simp [hit, hMove, hFind, hEnemy]
          refine .hit hHit ?_ hConnected hOther ?_ ?_
          · rw [← get?_of_moveInput hMove hOther]
            exact hEnemy
          · rw [healthOf, Dict.get?_set, if_neg hOther,
              Dict.get?_set_self]
            rfl
          · intro pid' hThere hNot
            rw [← hMoved pid' hThere, healthOf,
              Dict.get?_set, healthOf]
            split
            · rename_i hSame
              rw [hSame, hShooter]
              rfl
            · rw [Dict.get?_set, if_neg hNot]

end GameRoom
