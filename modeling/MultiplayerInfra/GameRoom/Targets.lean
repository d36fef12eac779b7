import Mathlib.Algebra.BigOperators.Group.Finset.Basic
import Mathlib.Algebra.Order.BigOperators.Group.Finset
import Mathlib.Analysis.Real.Sqrt
import Mathlib.Data.List.ReduceOption
import MultiplayerInfra.GameRoom.Malformed
import MultiplayerInfra.GameRoom.Shots
import MultiplayerInfra.Greedy.FirstLeast

/-
  Whom a shot hits when distances are exact, and what a
  sequence of shots does to the points and the health of all
  players together.

  Key definitions include:
    * `GameRoom.enemies`
    * `GameRoom.Fired`
    * `GameRoom.Volley`
    * `GameRoom.scoreGained`
    * `GameRoom.healthLost`

  Key theorems include:
    * `GameRoom.findNearestEnemyIn_eq_some_iff`
    * `GameRoom.fired_of_applyInputTo`
    * `GameRoom.Volley.balance`
    * `GameRoom.shots_conserve_points`
-/

------------------------------------------------------------
-- Exact Numbers
------------------------------------------------------------

namespace Py

/- Exact arithmetic: no rounding, and no largest number. -/
noncomputable instance : PyNumber ℝ where
  ofInt n := n
  addMul x d s := some (x + d * s)
  lt x y := decide (x < y)
  isZero x := decide (x = 0)
  dist x₁ y₁ x₂ y₂ :=
    Real.sqrt ((x₁ - x₂) ^ 2 + (y₁ - y₂) ^ 2)

instance : LawfulPyNumber ℝ where
  lt_ofInt m n := by
    simp [PyNumber.lt, PyNumber.ofInt]

end Py

------------------------------------------------------------
-- The Nearest of the Others
------------------------------------------------------------

namespace GameRoom

open Py Greedy

/- How far a player is from another. -/
noncomputable def distance
    (p q : PlayerState ℝ) : ℝ :=
  Real.sqrt ((p.x - q.x) ^ 2 + (p.y - q.y) ^ 2)

/- An entry that the search does not pass over. -/
def isEnemy
    {α : Type}
    (playerId : String)
    (e : String × PlayerState α) : Bool :=
  !(e.1 = playerId || e.2.connected = false)

/- The connected others, in map order. -/
def enemies
    {α : Type}
    (playerId : String)
    (players : Players α) :
    List (String × PlayerState α) :=
  players.entries.filter (isEnemy playerId)

theorem isEnemy_eq_true_iff
    {α : Type}
    {playerId : String}
    {e : String × PlayerState α} :
    isEnemy playerId e = true ↔
      ¬ (e.1 = playerId ∨ e.2.connected = false) := by
  simp [isEnemy, not_or]

theorem mem_enemies
    {α : Type}
    {playerId pid : String}
    {players : Players α}
    {enemy : PlayerState α} :
    (pid, enemy) ∈ enemies playerId players ↔
      players.get? pid = some enemy ∧ pid ≠ playerId ∧
        enemy.connected = true := by
  rw [enemies, List.mem_filter, isEnemy_eq_true_iff, not_or,
    Bool.not_eq_false]
  constructor
  · rintro ⟨hMem, hWanted⟩
    exact ⟨players.get?_of_mem hMem, hWanted⟩
  · rintro ⟨hGet, hWanted⟩
    exact ⟨Dict.mem_of_get? hGet, hWanted⟩

/- One turn of the search keeps the less distant enemy. -/
theorem nearer_eq
    (playerId : String)
    (player : PlayerState ℝ)
    (best : Option (String × PlayerState ℝ))
    (e : String × PlayerState ℝ) :
    nearer playerId player
        (best.map (fun b => (b.1, distance b.2 player))) e =
      (keepLess (isEnemy playerId)
        (fun e => distance e.2 player) best e).map
        (fun b => (b.1, distance b.2 player)) := by
  have hDist :
      PyNumber.dist e.2.x e.2.y player.x player.y =
        distance e.2 player := rfl
  unfold nearer keepLess
  by_cases hSkip : e.1 = playerId ∨ e.2.connected = false
  · have hNot : ¬ isEnemy playerId e = true := by
      rw [isEnemy_eq_true_iff, not_not]
      exact hSkip
    rw [if_pos hSkip, if_neg hNot]
  · rw [if_neg hSkip, if_pos (isEnemy_eq_true_iff.mpr hSkip),
      hDist]
    cases best with
    | none => rfl
    | some b =>
        simp only [Option.map_some, PyNumber.lt,
          decide_eq_true_eq]
        split <;> rfl

/- The loop over the players, as a search among enemies. -/
theorem foldl_nearer_eq
    (playerId : String)
    (player : PlayerState ℝ)
    (players : Players ℝ) :
    players.entries.foldl (nearer playerId player) none =
      ((enemies playerId players).argmin (fun e =>
        distance e.2 player)).map (fun e =>
          (e.1, distance e.2 player)) := by
  rw [enemies, ← foldl_keepLess]
  have hNone :
      (none : Option (String × ℝ)) =
        (none : Option (String × PlayerState ℝ)).map
          (fun b => (b.1, distance b.2 player)) := rfl
  rw [hNone]
  exact List.foldl_hom _ (nearer_eq playerId player)

/-
  A shot finds the first of the nearest enemies, if that one
  is within reach.
-/
theorem findNearestEnemyIn_eq_some_iff
    {playerId pid : String}
    {players : Players ℝ}
    {shooter : PlayerState ℝ}
    (hShooter : players.get? playerId = some shooter) :
    findNearestEnemyIn playerId players = some pid ↔
      ∃ enemy,
        FirstLeast (fun e => distance e.2 shooter)
          (enemies playerId players) (pid, enemy) ∧
          distance enemy shooter < 200 := by
  simp only [findNearestEnemyIn, hShooter,
    foldl_nearer_eq, Option.bind_eq_bind, Option.bind_some]
  constructor
  · intro hFind
    rcases Option.bind_eq_some_iff.mp hFind with
      ⟨_, hNearest, hReach⟩
    rcases Option.map_eq_some_iff.mp hNearest with
      ⟨⟨found, enemy⟩, hLeast, rfl⟩
    simp only [PyNumber.lt, PyNumber.ofInt,
      decide_eq_true_eq] at hReach
    split at hReach
    · rename_i hNear
      cases hReach
      refine ⟨enemy, firstLeast_iff.mp hLeast, ?_⟩
      exact_mod_cast hNear
    · cases hReach
  · rintro ⟨enemy, hFirst, hNear⟩
    have hReach :
        PyNumber.lt (distance enemy shooter)
          (PyNumber.ofInt 200) = true := by
      simp only [PyNumber.lt, PyNumber.ofInt,
        decide_eq_true_eq]
      exact_mod_cast hNear
    rw [firstLeast_iff.mpr hFirst]
    simp only [Option.map_some, Option.bind_some, hReach,
      if_true]

/- Without a target, every enemy is out of reach. -/
theorem le_distance_of_findNearestEnemyIn
    {playerId : String}
    {players : Players ℝ}
    {shooter : PlayerState ℝ}
    (hShooter : players.get? playerId = some shooter)
    (hFind : findNearestEnemyIn playerId players = none)
    {e : String × PlayerState ℝ}
    (hEnemy : e ∈ enemies playerId players) :
    200 ≤ distance e.2 shooter := by
  cases hLeast :
      (enemies playerId players).argmin (fun e =>
        distance e.2 shooter) with
  | none =>
      rw [List.argmin_eq_none] at hLeast
      rw [hLeast] at hEnemy
      cases hEnemy
  | some nearest =>
      have hFirst := firstLeast_iff.mp hLeast
      by_contra hNear
      rw [not_le] at hNear
      have hSome :=
        (findNearestEnemyIn_eq_some_iff hShooter).mpr
          ⟨nearest.2, hFirst,
            (hFirst.le hEnemy).trans_lt hNear⟩
      rw [hFind] at hSome
      cases hSome

end GameRoom

------------------------------------------------------------
-- One Shot
------------------------------------------------------------

namespace GameRoom

open Py Greedy

/-
  What an input did to the players, and whom it hit: after
  her own move the shooter gains 10 points, and the first of
  the nearest others loses 10 health.
-/
inductive Fired
    (playerId : String)
    (inputData : Json ℝ)
    (players players' : Players ℝ) :
    Option String → Prop where
  | untargeted
      {shooter : PlayerState ℝ} {shoots : Bool}
      (hMove :
        moveInput playerId inputData players =
          some (players', shoots))
      (hShooter : players'.get? playerId = some shooter)
      (hReach :
        shoots = true →
          ∀ e ∈ enemies playerId players',
            200 ≤ distance e.2 shooter)
      (hOthers :
        ∀ other, other ≠ playerId →
          players'.get? other = players.get? other) :
      Fired playerId inputData players players' none
  | targeted
      {moved : Players ℝ} {pid : String}
      {shooter enemy : PlayerState ℝ}
      (hMove :
        moveInput playerId inputData players =
          some (moved, true))
      (hShooter : moved.get? playerId = some shooter)
      (hNearest :
        FirstLeast (fun e => distance e.2 shooter)
          (enemies playerId moved) (pid, enemy))
      (hReach : distance enemy shooter < 200)
      (hOther : pid ≠ playerId)
      (hConnected : enemy.connected = true)
      (hEnemy : players.get? pid = some enemy)
      (hHit :
        players'.get? pid =
          some { enemy with health := enemy.health - 10 })
      (hScore :
        players'.get? playerId =
          some { shooter with score := shooter.score + 10 })
      (hOthers :
        ∀ other, other ≠ playerId → other ≠ pid →
          players'.get? other = players.get? other) :
      Fired playerId inputData players players' (some pid)

/- Every applied input is one of the two. -/
theorem fired_of_applyInputTo
    {playerId : String}
    {inputData : Json ℝ}
    {players players' : Players ℝ}
    {kills : List (Telemetry ℝ)}
    (hApply :
      applyInputTo playerId inputData players =
        some (players', kills)) :
    ∃ target,
      Fired playerId inputData players players' target := by
  rw [applyInputTo_eq] at hApply
  rcases Option.map_eq_some_iff.mp hApply with
    ⟨⟨moved, shoots⟩, hMove, hResult⟩
  rcases moved_of_moveInput hMove with
    ⟨player, x, y, _, hMoved⟩
  have hShooter :
      moved.get? playerId =
        some { player with x := clamp x, y := clamp y } := by
    rw [hMoved, Dict.get?_set_self]
  have hLeft :
      ∀ other, other ≠ playerId →
        moved.get? other = players.get? other :=
    fun other hOther => get?_of_moveInput hMove hOther
  cases shoots with
  | false =>
      cases hResult
      exact
        ⟨none, .untargeted hMove hShooter
          (fun hShoots => Bool.noConfusion hShoots) hLeft⟩
  | true =>
      simp only [if_true, shoot] at hResult
      cases hFind : findNearestEnemyIn playerId moved with
      | none =>
          rw [hFind] at hResult
          cases hResult
          exact
            ⟨none, .untargeted hMove hShooter
              (fun _ e hEnemy =>
                le_distance_of_findNearestEnemyIn hShooter
                  hFind hEnemy) hLeft⟩
      | some pid =>
          rcases (findNearestEnemyIn_eq_some_iff
              hShooter).mp hFind with
            ⟨enemy, hNearest, hReach⟩
          rcases mem_enemies.mp hNearest.mem with
            ⟨hEnemy, hOther, hConnected⟩
          rw [hFind] at hResult
          simp only [hEnemy, hShooter] at hResult
          cases hResult
          refine
            ⟨some pid, .targeted hMove hShooter hNearest
              hReach hOther hConnected ?_ ?_ ?_ ?_⟩
          · rw [← hLeft pid hOther]
            exact hEnemy
          · rw [Dict.get?_set, if_neg hOther,
              Dict.get?_set_self]
          · rw [Dict.get?_set_self]
          · intro other hNotShooter hNotHit
            rw [Dict.get?_set, if_neg hNotShooter,
              Dict.get?_set, if_neg hNotHit]
            exact hLeft other hNotShooter

end GameRoom

------------------------------------------------------------
-- Totals
------------------------------------------------------------

namespace GameRoom

open Py

variable {α : Type} [PyNumber α]

/-
  By how much a number kept for every player has changed in
  total; players who are new since had that of a new player.
-/
def change
    (measure : PlayerState α → Int)
    (players players' : Players α) : Int :=
  (players'.entries.map (fun e =>
    measure e.2 - measure (mover e.1 players))).sum

/- The points that all players together have gained. -/
def scoreGained
    (players players' : Players α) : Int :=
  change PlayerState.score players players'

/- The health that all players together have lost. -/
def healthLost
    (players players' : Players α) : Int :=
  -change PlayerState.health players players'

/- The change of one player, present or not. -/
def changeOf
    (measure : PlayerState α → Int)
    (players players' : Players α)
    (pid : String) : Int :=
  measure (mover pid players') - measure (mover pid players)

/- Players who are not there yet do not count. -/
theorem change_eq_sum
    (measure : PlayerState α → Int)
    {players players' : Players α}
    {pids : Finset String}
    (hKeys : players.keys ⊆ players'.keys)
    (hCover : players'.keys.toFinset ⊆ pids) :
    change measure players players' =
      ∑ pid ∈ pids, changeOf measure players players' pid := by
  have hEntries :
      players'.entries.map (fun e =>
          measure e.2 - measure (mover e.1 players)) =
        players'.keys.map
          (changeOf measure players players') := by
    rw [Dict.keys, List.map_map]
    apply List.map_congr_left
    intro e hMem
    have hGet := players'.get?_of_mem hMem
    simp only [Function.comp_apply, changeOf]
    rw [mover, mover, hGet]
    rfl
  have hNodup : players'.keys.Nodup := players'.nodup
  rw [change, hEntries,
    ← List.sum_toFinset _ hNodup]
  apply Finset.sum_subset hCover
  intro pid _ hAbsent
  rw [List.mem_toFinset] at hAbsent
  have hNew := Dict.get?_eq_none_iff.mpr hAbsent
  have hOld :=
    Dict.get?_eq_none_iff.mpr (fun hMem =>
      hAbsent (hKeys hMem))
  rw [changeOf, mover, mover, hNew, hOld, sub_self]

/- Changes add up along a sequence. -/
theorem change_trans
    (measure : PlayerState α → Int)
    {players players₁ players₂ : Players α}
    (hFirst : players.keys ⊆ players₁.keys)
    (hSecond : players₁.keys ⊆ players₂.keys) :
    change measure players players₂ =
      change measure players players₁ +
        change measure players₁ players₂ := by
  have hCover :
      players₁.keys.toFinset ⊆ players₂.keys.toFinset := by
    intro pid hMem
    rw [List.mem_toFinset] at hMem ⊢
    exact hSecond hMem
  rw [change_eq_sum measure (List.Subset.trans hFirst hSecond)
      (Finset.Subset.refl _),
    change_eq_sum measure hFirst hCover,
    change_eq_sum measure hSecond (Finset.Subset.refl _),
    ← Finset.sum_add_distrib]
  apply Finset.sum_congr rfl
  intro pid _
  simp only [changeOf]
  ring

/- A change of one player only. -/
theorem change_eq_of_single
    (measure : PlayerState α → Int)
    {players players' : Players α}
    {pid : String}
    {n : Int}
    (hKeys : players.keys ⊆ players'.keys)
    (hMem : pid ∈ players'.keys)
    (hHere : changeOf measure players players' pid = n)
    (hElse :
      ∀ other, other ≠ pid →
        changeOf measure players players' other = 0) :
    change measure players players' = n := by
  rw [change_eq_sum measure hKeys (Finset.Subset.refl _),
    Finset.sum_eq_single pid
      (fun other _ hOther => hElse other hOther)
      (fun hAbsent =>
        absurd (List.mem_toFinset.mpr hMem) hAbsent),
    hHere]

/- No change of any player. -/
theorem change_eq_zero
    (measure : PlayerState α → Int)
    {players players' : Players α}
    (hKeys : players.keys ⊆ players'.keys)
    (hSame :
      ∀ pid, changeOf measure players players' pid = 0) :
    change measure players players' = 0 := by
  rw [change_eq_sum measure hKeys (Finset.Subset.refl _)]
  exact Finset.sum_eq_zero (fun pid _ => hSame pid)

end GameRoom

------------------------------------------------------------
-- Sequences of Shots
------------------------------------------------------------

namespace GameRoom

open Py Greedy

/-
  Inputs applied one after the other, with the player whom
  each of them hit.
-/
inductive Volley :
    List (String × Json ℝ) → Players ℝ →
      List (Option String) → Players ℝ → Prop where
  | nil {players : Players ℝ} :
      Volley [] players [] players
  | cons
      {playerId : String} {inputData : Json ℝ}
      {inputs : List (String × Json ℝ)}
      {players players₁ players' : Players ℝ}
      {kills : List (Telemetry ℝ)}
      {target : Option String}
      {targets : List (Option String)}
      (hApply :
        applyInputTo playerId inputData players =
          some (players₁, kills))
      (hFired :
        Fired playerId inputData players players₁ target)
      (hRest : Volley inputs players₁ targets players') :
      Volley ((playerId, inputData) :: inputs) players
        (target :: targets) players'

section Changes

variable {α : Type} [PyNumber α]
variable {measure : PlayerState α → Int}
variable {players players' : Players α}

theorem changeOf_eq_zero
    {pid : String}
    (hSame : players'.get? pid = players.get? pid) :
    changeOf measure players players' pid = 0 := by
  rw [changeOf, mover, mover, hSame, sub_self]

theorem changeOf_of_get?
    {pid : String}
    {player : PlayerState α}
    (hGet : players'.get? pid = some player) :
    changeOf measure players players' pid =
      measure player - measure (mover pid players) := by
  rw [changeOf, mover, hGet]
  rfl

/- The move of a player shows in her position only. -/
theorem mover_of_moveInput
    {playerId : String}
    {inputData : Json α}
    {moved : Players α}
    {shoots : Bool}
    {shooter : PlayerState α}
    (hMove :
      moveInput playerId inputData players =
        some (moved, shoots))
    (hShooter : moved.get? playerId = some shooter) :
    shooter.health = (mover playerId players).health ∧
      shooter.score = (mover playerId players).score := by
  rcases moved_of_moveInput hMove with
    ⟨player, x, y, hGet, rfl⟩
  rw [get?_ensurePlayer_self] at hGet
  cases hGet
  rw [Dict.get?_set_self] at hShooter
  cases hShooter
  exact ⟨rfl, rfl⟩

end Changes

/- A shot that hits moves 10 from one total to the other. -/
theorem Fired.balance
    {playerId : String}
    {inputData : Json ℝ}
    {players players' : Players ℝ}
    {target : Option String}
    (hFired :
      Fired playerId inputData players players' target)
    (hKeys : players.keys ⊆ players'.keys) :
    scoreGained players players' =
        10 * (target.toList.length : Int) ∧
      healthLost players players' =
        10 * (target.toList.length : Int) := by
  cases hFired with
  | untargeted hMove hShooter _ hOthers =>
      rcases mover_of_moveInput hMove hShooter with
        ⟨hHealth, hScore⟩
      have hNone :
          ∀ measure : PlayerState ℝ → Int,
            changeOf measure players players' playerId = 0 →
              change measure players players' = 0 := by
        intro measure hShooterSame
        refine change_eq_zero measure hKeys (fun pid => ?_)
        by_cases hPid : pid = playerId
        · rw [hPid, hShooterSame]
        · exact changeOf_eq_zero (hOthers pid hPid)
      constructor
      · rw [scoreGained, hNone]
        · simp
        · rw [changeOf_of_get? hShooter, hScore, sub_self]
      · rw [healthLost, hNone]
        · simp
        · rw [changeOf_of_get? hShooter, hHealth, sub_self]
  | targeted hMove hShooter hNearest hReach hOther
      hConnected hEnemy hHit hShot hOthers =>
      rename_i moved pid shooter enemy
      rcases mover_of_moveInput hMove hShooter with
        ⟨hHealth, hScore⟩
      have hVictim : mover pid players = enemy := by
        rw [mover, hEnemy]
        rfl
      constructor
      · rw [scoreGained,
          change_eq_of_single PlayerState.score (n := 10)
            hKeys
            (Dict.mem_keys_iff.mpr ⟨_, hShot⟩) ?_ ?_]
        · simp
        · rw [changeOf_of_get? hShot, ← hScore]
          exact add_sub_cancel_left _ _
        · intro other hNotShooter
          by_cases hVictimToo : other = pid
          · subst hVictimToo
            rw [changeOf_of_get? hHit, hVictim, sub_self]
          · exact
              changeOf_eq_zero
                (hOthers other hNotShooter hVictimToo)
      · rw [healthLost,
          change_eq_of_single PlayerState.health (n := -10)
            hKeys
            (Dict.mem_keys_iff.mpr ⟨_, hHit⟩) ?_ ?_]
        · simp
        · rw [changeOf_of_get? hHit, hVictim]
          exact sub_sub_cancel_left _ _
        · intro other hNotVictim
          by_cases hShooterToo : other = playerId
          · subst hShooterToo
            rw [changeOf_of_get? hShot, ← hHealth, sub_self]
          · exact
              changeOf_eq_zero
                (hOthers other hShooterToo hNotVictim)

theorem Volley.keys
    {inputs : List (String × Json ℝ)}
    {players players' : Players ℝ}
    {targets : List (Option String)}
    (hVolley : Volley inputs players targets players') :
    players.keys ⊆ players'.keys := by
  induction hVolley with
  | nil => exact List.Subset.refl _
  | cons hApply _ _ ih =>
      exact List.Subset.trans (applyInputTo_keys hApply) ih

/- Points and health add up over the sequence. -/
theorem Volley.balance
    {inputs : List (String × Json ℝ)}
    {players players' : Players ℝ}
    {targets : List (Option String)}
    (hVolley : Volley inputs players targets players') :
    scoreGained players players' =
        10 * (targets.reduceOption.length : Int) ∧
      healthLost players players' =
        10 * (targets.reduceOption.length : Int) := by
  induction hVolley with
  | nil =>
      rename_i players
      have hSame :
          ∀ measure : PlayerState ℝ → Int,
            change measure players players = 0 := by
        intro measure
        exact
          change_eq_zero measure (List.Subset.refl _)
            (fun _ => changeOf_eq_zero rfl)
      simp [scoreGained, healthLost, hSame,
        List.reduceOption_nil]
  | cons hApply hFired hRest ih =>
      rename_i target targets
      have hKeys := applyInputTo_keys hApply
      rcases hFired.balance hKeys with ⟨hScore, hHealth⟩
      rcases ih with ⟨hScores, hHealths⟩
      have hCount :
          ((target :: targets).reduceOption.length : Int) =
            target.toList.length +
              targets.reduceOption.length := by
        cases target with
        | none => simp [List.reduceOption_cons_of_none]
        | some pid =>
            simp [List.reduceOption_cons_of_some]
            omega
      rw [hCount, scoreGained, healthLost,
        change_trans PlayerState.score hKeys hRest.keys,
        change_trans PlayerState.health hKeys hRest.keys]
      rw [scoreGained] at hScore hScores
      rw [healthLost] at hHealth hHealths
      constructor
      · rw [hScore, hScores]
        ring
      · rw [neg_add, hHealth, hHealths]
        ring

/- Well-formed inputs are all applied. -/
theorem volley_of_drainInputs
    {inputs : List (String × Json ℝ)}
    (hWell : ∀ e ∈ inputs, malformed e.2 = false)
    (pending : List (Telemetry ℝ))
    (players : Players ℝ) :
    ∃ targets players',
      (drainInputs inputs pending players).players =
          some players' ∧
        Volley inputs players targets players' := by
  induction inputs generalizing pending players with
  | nil => exact ⟨[], players, rfl, .nil⟩
  | cons input inputs ih =>
      rcases input with ⟨playerId, inputData⟩
      have hHead :
          malformed inputData = false :=
        hWell _ List.mem_cons_self
      cases hApply :
          applyInputTo playerId inputData players with
      | none =>
          rcases (applyInputTo_eq_none_iff _ _ _).mp hApply
            with hBad | hOver
          · rw [hHead] at hBad
            cases hBad
          · rw [overflows_eq_false_of_total
              (fun x d s => Option.some_ne_none _)] at hOver
            cases hOver
      | some result =>
          rcases result with ⟨players₁, kills⟩
          rcases fired_of_applyInputTo hApply with
            ⟨target, hFired⟩
          rcases ih
              (fun e hMem =>
                hWell e (List.mem_cons_of_mem _ hMem))
              (pending ++ kills) players₁ with
            ⟨targets, players', hDrain, hVolley⟩
          refine
            ⟨target :: targets, players', ?_,
              .cons hApply hFired hVolley⟩
          simp only [drainInputs, hApply]
          exact hDrain

/-
  Every input of the sequence hits nobody, or the first of
  the nearest others within reach, and all together the
  points gained are the health lost.
-/
theorem shots_conserve_points
    (inputs : List (String × Json ℝ))
    (hWell : ∀ e ∈ inputs, malformed e.2 = false)
    (pending : List (Telemetry ℝ))
    (players : Players ℝ) :
    ∃ targets players',
      (drainInputs inputs pending players).players =
          some players' ∧
        Volley inputs players targets players' ∧
        scoreGained players players' =
          healthLost players players' ∧
        healthLost players players' =
          10 * (targets.reduceOption.length : Int) := by
  rcases volley_of_drainInputs hWell pending players with
    ⟨targets, players', hDrain, hVolley⟩
  rcases hVolley.balance with ⟨hScore, hHealth⟩
  exact
    ⟨targets, players', hDrain, hVolley,
      hScore.trans hHealth.symm, hHealth⟩

/- Ann shoots, and then Bob, who is new. -/
theorem shots_conserve_points_ann_bob :
    ∃ targets players',
      (drainInputs
          [("ann", .obj [("shoot", .bool true)]),
            ("bob", .obj [("shoot", .bool true)])] []
          (Dict.empty.set "ann"
            (PlayerState.new "ann" : PlayerState ℝ))).players =
          some players' ∧
        Volley
          [("ann", .obj [("shoot", .bool true)]),
            ("bob", .obj [("shoot", .bool true)])]
          (Dict.empty.set "ann" (PlayerState.new "ann"))
          targets players' ∧
        scoreGained
            (Dict.empty.set "ann" (PlayerState.new "ann"))
            players' =
          healthLost
            (Dict.empty.set "ann" (PlayerState.new "ann"))
            players' ∧
        healthLost
            (Dict.empty.set "ann" (PlayerState.new "ann"))
            players' =
          10 * (targets.reduceOption.length : Int) := by
  apply shots_conserve_points
  intro e hMem
  simp only [List.mem_cons, List.not_mem_nil,
    or_false] at hMem
  rcases hMem with rfl | rfl <;> rfl

end GameRoom
