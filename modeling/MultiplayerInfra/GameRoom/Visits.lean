import MultiplayerInfra.GameRoom.RunTask
import MultiplayerInfra.GameRoom.Shots

/-
  Joins and leaves while a tick is suspended in its publish,
  and what its commit makes of them.

  Key definitions include:
    * `GameRoom.Standing`
    * `GameRoom.Visit`
    * `GameRoom.GameLoop.visits`
    * `GameRoom.flagSet`
    * `GameRoom.slotRestored`
    * `GameRoom.VisitsKept`
    * `GameRoom.Undisturbed`

  Key theorems include:
    * `GameRoom.connection_visits`
    * `GameRoom.standing_visits`
    * `GameRoom.connection_next`
    * `GameRoom.visits_kept_iff`

  The tick works on copies that it took before it suspended,
  and it writes every field of every copy back.
-/

------------------------------------------------------------
-- Standings
------------------------------------------------------------

namespace GameRoom

open Py

/- The fields that a hold slot keeps. -/
structure Standing (α : Type) where
  x : α
  y : α
  health : Int
  score : Int
deriving DecidableEq

variable {α : Type}

def PlayerState.standing
    (player : PlayerState α) : Standing α where
  x := player.x
  y := player.y
  health := player.health
  score := player.score

/- What `add_player` makes of a slot. -/
def HoldJson.standing
    [PyNumber α]
    (saved : HoldJson α) : Standing α where
  x := saved.x.getD (PyNumber.ofInt 0)
  y := saved.y.getD (PyNumber.ofInt 0)
  health := saved.health.getD 100
  score := saved.score.getD 0

def standingOf
    (players : Players α)
    (pid : String) : Option (Standing α) :=
  (players.get? pid).map PlayerState.standing

theorem standingOf_set
    (players : Players α)
    (pid pid' : String)
    (player : PlayerState α) :
    standingOf (players.set pid player) pid' =
      if pid' = pid then some player.standing
      else standingOf players pid' := by
  rw [standingOf, Dict.get?_set]
  split <;> rfl

/- A commit takes over the standings of its players. -/
theorem standingOf_commitPlayers
    (players next : Players α)
    (pid : String) :
    standingOf (commitPlayers players next) pid =
      (standingOf next pid).or (standingOf players pid) := by
  rw [standingOf, get?_commitPlayers, standingOf]
  cases next.get? pid with
  | none => rfl
  | some p =>
      unfold overwrite
      cases players.get? pid <;> rfl

theorem connection_commitPlayers_or
    (players next : Players α)
    (pid : String) :
    connection (commitPlayers players next) pid =
      (connection next pid).or (connection players pid) := by
  rw [connection, get?_commitPlayers, connection]
  cases next.get? pid with
  | none => rfl
  | some p =>
      unfold overwrite
      cases players.get? pid <;> rfl

/- A departure does not change a standing. -/
theorem standingOf_removePlayer
    (g : GameLoop α)
    (playerId pid : String) :
    standingOf (g.removePlayer playerId).1.state.players
        pid =
      standingOf g.state.players pid := by
  unfold GameLoop.removePlayer
  split
  · rfl
  · rename_i player hGet
    simp only [GameLoop.setPlayers]
    rw [standingOf_set]
    split
    · rename_i hSame
      rw [hSame, standingOf, hGet]
      rfl
    · rfl

/- Neither does the end of a match. -/
theorem standingOf_beginEndMatch
    (g : GameLoop α)
    (pid : String) :
    standingOf g.beginEndMatch.state.players pid =
      standingOf g.state.players pid := by
  simp only [GameLoop.beginEndMatch, GameLoop.setPlayers,
    standingOf, Dict.get?_mapVals, Option.map_map]
  rfl

/- A departure of someone unknown changes nothing. -/
theorem removePlayer_of_unknown
    {g : GameLoop α}
    {playerId : String}
    (hUnknown : playerId ∉ g.state.players.keys) :
    (g.removePlayer playerId).1 = g := by
  unfold GameLoop.removePlayer
  rw [Dict.get?_eq_none_iff.mpr hUnknown]

variable [PyNumber α]

/- A join restores a standing, or starts from the default. -/
theorem standingOf_addPlayer
    (g : GameLoop α)
    (playerId : String)
    (hold : Option (HoldJson α))
    (pid : String) :
    standingOf (g.addPlayer playerId hold).state.players
        pid =
      if pid = playerId then
        (hold.map HoldJson.standing).or
          ((standingOf g.state.players pid).or
            (some (PlayerState.new playerId).standing))
      else standingOf g.state.players pid := by
  unfold GameLoop.addPlayer
  split
  · simp only [GameLoop.setPlayers]
    rw [standingOf_set]
    split <;> rfl
  · split
    · rename_i player hGet
      simp only [GameLoop.setPlayers]
      rw [standingOf_set]
      split
      · rename_i hSame
        rw [hSame, standingOf, hGet]
        rfl
      · rfl
    · rename_i hGet
      simp only [GameLoop.setPlayers]
      rw [standingOf_set]
      split
      · rename_i hSame
        rw [hSame, standingOf, hGet]
        rfl
      · rfl

end GameRoom

------------------------------------------------------------
-- Calls of Players
------------------------------------------------------------

namespace GameRoom

open Py

/- A call of `add_player`, with its hold slot, or another. -/
inductive Visit (α : Type) where
  | join (playerId : String) (hold : Option (HoldJson α))
  | leave (playerId : String)

variable {α : Type}

def Visit.playerId : Visit α → String
| .join playerId _ => playerId
| .leave playerId => playerId

/-
  The flag that the last of the calls for a player sets.  A
  departure of someone unknown sets none.
-/
def flagSet
    (pid : String) :
    Bool → List (Visit α) → Option Bool
| _, [] => none
| known, .join playerId _ :: calls =>
    if playerId = pid then
      (flagSet pid true calls).or (some true)
    else flagSet pid known calls
| known, .leave playerId :: calls =>
    if playerId = pid ∧ known = true then
      (flagSet pid known calls).or (some false)
    else flagSet pid known calls

/- The last slot that the calls restore for a player. -/
def slotRestored
    (pid : String) :
    List (Visit α) → Option (HoldJson α)
| [] => none
| .join playerId hold :: calls =>
    (slotRestored pid calls).or
      (if playerId = pid then hold else none)
| .leave _ :: calls => slotRestored pid calls

/- A player whom no call names. -/
theorem flagSet_of_not_mem
    {pid : String}
    {calls : List (Visit α)}
    (hNone : pid ∉ calls.map Visit.playerId)
    (known : Bool) :
    flagSet pid known calls = none := by
  induction calls with
  | nil => rfl
  | cons call calls ih =>
      rw [List.map_cons, List.mem_cons, not_or] at hNone
      cases call with
      | join playerId hold =>
          have hOther : playerId ≠ pid := Ne.symm hNone.1
          rw [flagSet, if_neg hOther]
          exact ih hNone.2
      | leave playerId =>
          rw [flagSet, if_neg (fun h => hNone.1 h.1.symm)]
          exact ih hNone.2

theorem slotRestored_of_not_mem
    {pid : String}
    {calls : List (Visit α)}
    (hNone : pid ∉ calls.map Visit.playerId) :
    slotRestored pid calls = none := by
  induction calls with
  | nil => rfl
  | cons call calls ih =>
      rw [List.map_cons, List.mem_cons, not_or] at hNone
      cases call with
      | join playerId hold =>
          have hOther : playerId ≠ pid := Ne.symm hNone.1
          rw [slotRestored, ih hNone.2, if_neg hOther]
          rfl
      | leave playerId => exact ih hNone.2

variable [PyNumber α]

namespace GameLoop

def visit (g : GameLoop α) : Visit α → GameLoop α
| .join playerId hold => g.addPlayer playerId hold
| .leave playerId => (g.removePlayer playerId).1

/- The calls, in order. -/
def visits
    (g : GameLoop α)
    (calls : List (Visit α)) : GameLoop α :=
  calls.foldl visit g

end GameLoop

/- The flag of a player after the calls. -/
theorem connection_visits
    (g : GameLoop α)
    (calls : List (Visit α))
    (pid : String) :
    connection (g.visits calls).state.players pid =
      (flagSet pid
        (connection g.state.players pid).isSome calls).or
        (connection g.state.players pid) := by
  induction calls generalizing g with
  | nil => rfl
  | cons call calls ih =>
      have hStep :
          g.visits (call :: calls) =
            (g.visit call).visits calls :=
        rfl
      rw [hStep, ih]
      cases call with
      | join playerId hold =>
          simp only [GameLoop.visit]
          rw [GameLoop.connection_addPlayer, flagSet]
          by_cases hSame : playerId = pid
          · rw [if_pos hSame.symm, if_pos hSame,
              Option.isSome_some]
            cases flagSet pid true calls <;> rfl
          · rw [if_neg (Ne.symm hSame), if_neg hSame]
      | leave playerId =>
          simp only [GameLoop.visit]
          rw [flagSet]
          by_cases hThere :
              playerId ∈ g.state.players.keys
          · rw [GameLoop.connection_removePlayer hThere]
            by_cases hSame : playerId = pid
            · subst hSame
              have hKnown :
                  (connection g.state.players
                    playerId).isSome = true := by
                rcases Dict.mem_keys_iff.mp hThere with
                  ⟨player, hGet⟩
                rw [connection, hGet]
                rfl
              rw [if_pos rfl, hKnown, if_pos ⟨rfl, rfl⟩,
                Option.isSome_some]
              cases flagSet playerId true calls <;> rfl
            · rw [if_neg (Ne.symm hSame),
                if_neg (fun h => hSame h.1)]
          · rw [removePlayer_of_unknown hThere, if_neg]
            rintro ⟨rfl, hKnown⟩
            rw [connection,
              Dict.get?_eq_none_iff.mpr hThere] at hKnown
            cases hKnown

/- The standing of a player who was there before the calls. -/
theorem standing_visits_of_known
    {g : GameLoop α}
    {pid : String}
    {standing : Standing α}
    (hKnown :
      standingOf g.state.players pid = some standing)
    (calls : List (Visit α)) :
    standingOf (g.visits calls).state.players pid =
      some (((slotRestored pid calls).map
        HoldJson.standing).getD standing) := by
  induction calls generalizing g standing with
  | nil => exact hKnown
  | cons call calls ih =>
      have hStep :
          g.visits (call :: calls) =
            (g.visit call).visits calls :=
        rfl
      rw [hStep]
      cases call with
      | join playerId hold =>
          have hNext :
              standingOf
                  (g.addPlayer playerId hold).state.players
                  pid =
                some (((if playerId = pid then hold
                  else none).map
                    HoldJson.standing).getD standing) := by
            rw [standingOf_addPlayer]
            by_cases hSame : playerId = pid
            · rw [if_pos hSame.symm, if_pos hSame, hKnown]
              cases hold <;> rfl
            · rw [if_neg (Ne.symm hSame), if_neg hSame,
                hKnown]
              rfl
          rw [GameLoop.visit, ih hNext, slotRestored]
          cases slotRestored pid calls <;> rfl
      | leave playerId =>
          rw [slotRestored]
          apply ih
          rw [GameLoop.visit, standingOf_removePlayer]
          exact hKnown

/- The last slot restored gives a player's standing. -/
theorem standing_visits
    (g : GameLoop α)
    {calls : List (Visit α)}
    {pid : String}
    {saved : HoldJson α}
    (hRestored : slotRestored pid calls = some saved) :
    standingOf (g.visits calls).state.players pid =
      some saved.standing := by
  induction calls generalizing g with
  | nil => cases hRestored
  | cons call calls ih =>
      have hStep :
          g.visits (call :: calls) =
            (g.visit call).visits calls :=
        rfl
      rw [hStep]
      cases call with
      | join playerId hold =>
          rw [slotRestored] at hRestored
          by_cases hSame : playerId = pid
          · rw [if_pos hSame] at hRestored
            subst hSame
            have hJoined :=
              standingOf_addPlayer g playerId hold playerId
            rw [if_pos rfl] at hJoined
            cases hLater : slotRestored playerId calls with
            | some later =>
                rw [hLater] at hRestored
                cases hRestored
                exact ih _ hLater
            | none =>
                rw [hLater, Option.none_or] at hRestored
                rw [hRestored] at hJoined
                have hKnown :=
                  standing_visits_of_known hJoined calls
                rw [hLater] at hKnown
                rw [GameLoop.visit, hRestored]
                exact hKnown
          · rw [if_neg hSame, Option.or_none] at hRestored
            exact ih _ hRestored
      | leave playerId => exact ih _ hRestored

end GameRoom

------------------------------------------------------------
-- What the Suspended Tick Has Taken
------------------------------------------------------------

namespace GameRoom

open Py

variable {α : Type} [PyNumber α]

/-
  The flag that a tick begun now takes for a player: an input
  of someone unknown makes a connected player.
-/
def flagBefore
    (g : GameLoop α)
    (pid : String) : Option Bool :=
  (connection g.state.players pid).or
    (if pid ∈ g.inputQueue.map Prod.fst then some true
    else none)

theorem connection_ensurePlayer
    (playerId : String)
    (players : Players α)
    (pid : String) :
    connection (ensurePlayer playerId players) pid =
      (connection players pid).or
        (if pid = playerId then some true else none) := by
  rw [connection, get?_ensurePlayer]
  by_cases hNew : pid = playerId ∧ playerId ∉ players.keys
  · rcases hNew with ⟨rfl, hAbsent⟩
    rw [if_pos ⟨rfl, hAbsent⟩, if_pos rfl, connection,
      Dict.get?_eq_none_iff.mpr hAbsent]
    rfl
  · rw [if_neg hNew, ← connection]
    by_cases hSame : pid = playerId
    · have hThere : pid ∈ players.keys := by
        rw [not_and_not_right] at hNew
        exact hSame ▸ hNew hSame
      rcases Dict.mem_keys_iff.mp hThere with
        ⟨player, hGet⟩
      rw [connection, hGet]
      rfl
    · rw [if_neg hSame, Option.or_none]

/- An input is applied with its player present. -/
theorem applyInputTo_ensurePlayer
    (playerId : String)
    (inputData : Json α)
    (players : Players α) :
    applyInputTo playerId inputData
        (ensurePlayer playerId players) =
      applyInputTo playerId inputData players := by
  have hPresent :
      playerId ∈ (ensurePlayer playerId players).keys := by
    unfold ensurePlayer
    split
    · assumption
    · exact
        (Dict.mem_keys_set _ _ _ _).mpr (Or.inl rfl)
  have hTwice :
      ensurePlayer playerId
          (ensurePlayer playerId players) =
        ensurePlayer playerId players := by
    rw [ensurePlayer, if_pos hPresent]
  rw [applyInputTo, hTwice, applyInputTo]

/- An input connects at most its own player. -/
theorem connection_applyInputTo_or
    {playerId : String}
    {inputData : Json α}
    {players players' : Players α}
    {kills : List (Telemetry α)}
    (hApply :
      applyInputTo playerId inputData players =
        some (players', kills))
    (pid : String) :
    connection players' pid =
      (connection players pid).or
        (if pid = playerId then some true else none) := by
  rw [← connection_ensurePlayer]
  rw [← applyInputTo_ensurePlayer] at hApply
  refine connection_applyInputTo ?_ hApply pid
  unfold ensurePlayer
  split
  · assumption
  · exact (Dict.mem_keys_set _ _ _ _).mpr (Or.inl rfl)

theorem connection_drainInputs_or
    {queue : List (String × Json α)}
    {pending : List (Telemetry α)}
    {players players' : Players α}
    (hDrain :
      (drainInputs queue pending players).players =
        some players')
    (pid : String) :
    connection players' pid =
      (connection players pid).or
        (if pid ∈ queue.map Prod.fst then some true
        else none) := by
  induction queue generalizing pending players with
  | nil =>
      cases hDrain
      simp
  | cons e queue ih =>
      rcases e with ⟨playerId, inputData⟩
      cases hApply :
          applyInputTo playerId inputData players with
      | none => simp [drainInputs, hApply] at hDrain
      | some result =>
          rcases result with ⟨players₁, kills⟩
          simp only [drainInputs, hApply] at hDrain
          rw [ih hDrain, connection_applyInputTo_or hApply,
            Option.or_assoc]
          simp only [List.map_cons, List.mem_cons]
          by_cases hSame : pid = playerId
          · simp [hSame]
          · rw [if_neg hSame, Option.none_or]
            simp only [hSame, false_or]

/- The flags in the values of a tick. -/
theorem connection_next
    {g : GameLoop α}
    {next : Players α}
    {event : StateJson α}
    (hBegin : g.beginTick.2 = some (next, event))
    (pid : String) :
    connection next pid = flagBefore g pid := by
  rcases Option.map_eq_some_iff.mp hBegin with
    ⟨players, hDrain, hEq⟩
  cases hEq
  rw [connection_respawn, connection_drainInputs_or hDrain,
    connection_copyPlayers, flagBefore]

end GameRoom

------------------------------------------------------------
-- Joins and Leaves That Survive the Commit
------------------------------------------------------------

namespace GameRoom

open Py

variable {α : Type} [PyNumber α]

/-
  The calls made while the tick of `g` was suspended are in
  effect in `final`, and the others have the tick's values.
-/
structure VisitsKept
    (g : GameLoop α)
    (next : Players α)
    (calls : List (Visit α))
    (final : GameLoop α) : Prop where
  flags :
    ∀ pid flag,
      flagSet pid (connection g.state.players pid).isSome
          calls = some flag →
        connection final.state.players pid = some flag
  slots :
    ∀ pid saved,
      slotRestored pid calls = some saved →
        standingOf final.state.players pid =
          some saved.standing
  others :
    ∀ pid,
      pid ∉ calls.map Visit.playerId →
        (final.state.players.get? pid).map
            PlayerState.toJson =
          (next.get? pid).map PlayerState.toJson

/-
  No call says otherwise than the tick: not of a player's
  flag, and not, with a slot, of a player's standing.
-/
def Undisturbed
    (g : GameLoop α)
    (next : Players α)
    (calls : List (Visit α)) : Prop :=
  ∀ pid ∈ calls.map Visit.playerId,
    (∀ flag ∈
        flagSet pid (connection g.state.players pid).isSome
          calls,
      ∀ taken ∈ flagBefore g pid, taken = flag) ∧
    ∀ saved ∈ slotRestored pid calls,
      ∀ standing ∈ standingOf next pid,
        standing = saved.standing

instance
    [DecidableEq α]
    (g : GameLoop α)
    (next : Players α)
    (calls : List (Visit α)) :
    Decidable (Undisturbed g next calls) :=
  inferInstanceAs (Decidable (∀ _ ∈ _, _))

section Committed

variable {g : GameLoop α}
variable {next : Players α}
variable {event : StateJson α}

/- A player's flag after the commit. -/
theorem connection_committed
    (hBegin : g.beginTick.2 = some (next, event))
    (calls : List (Visit α))
    (offset : Int)
    (pid : String) :
    connection
        ((g.beginTick.1.visits calls).commitTick next event
          offset).state.players pid =
      (flagBefore g pid).or
        ((flagSet pid
          (connection g.state.players pid).isSome calls).or
            (connection g.state.players pid)) := by
  have hPlayers :
      g.beginTick.1.state.players = g.state.players :=
    rfl
  rw [GameLoop.players_commitTick,
    connection_commitPlayers_or, connection_next hBegin,
    connection_visits, hPlayers]

/- The standing of a restored player after the commit. -/
theorem standing_committed
    {calls : List (Visit α)}
    {pid : String}
    {saved : HoldJson α}
    (hRestored : slotRestored pid calls = some saved)
    (next : Players α)
    (event : StateJson α)
    (offset : Int) :
    standingOf
        ((g.visits calls).commitTick next event
          offset).state.players pid =
      (standingOf next pid).or (some saved.standing) := by
  rw [GameLoop.players_commitTick, standingOf_commitPlayers,
    standing_visits g hRestored]

/- A player whom no call names has the tick's values. -/
theorem others_committed
    (hBegin : g.beginTick.2 = some (next, event))
    {calls : List (Visit α)}
    {pid : String}
    (hNone : pid ∉ calls.map Visit.playerId)
    (offset : Int) :
    (((g.beginTick.1.visits calls).commitTick next event
        offset).state.players.get? pid).map
          PlayerState.toJson =
      (next.get? pid).map PlayerState.toJson := by
  rw [GameLoop.players_commitTick, get?_commitPlayers]
  cases hNext : next.get? pid with
  | some p => simp
  | none =>
      have hTaken : flagBefore g pid = none := by
        rw [← connection_next hBegin, connection, hNext]
        rfl
      have hAbsent :
          connection
              (g.beginTick.1.visits calls).state.players
              pid =
            none := by
        rw [connection_visits, flagSet_of_not_mem hNone,
          Option.none_or]
        exact (Option.or_eq_none_iff.mp hTaken).1
      rw [connection, Option.map_eq_none_iff] at hAbsent
      rw [hAbsent]

/-
  After the commit the calls made during the publish are in
  effect exactly when none says otherwise than the tick.
-/
theorem visits_kept_iff
    (hBegin : g.beginTick.2 = some (next, event))
    (calls : List (Visit α))
    (offset : Int) :
    VisitsKept g next calls
        ((g.beginTick.1.visits calls).commitTick next event
          offset) ↔
      Undisturbed g next calls := by
  constructor
  · intro hKept pid hNamed
    constructor
    · intro flag hSet taken hTaken
      have hFinal := hKept.flags pid flag hSet
      rw [connection_committed hBegin, hTaken] at hFinal
      exact Option.some.inj hFinal
    · intro saved hRestored standing hTaken
      have hFinal := hKept.slots pid saved hRestored
      rw [standing_committed hRestored, hTaken] at hFinal
      exact Option.some.inj hFinal
  · intro hSame
    refine ⟨?_, ?_, ?_⟩
    · intro pid flag hSet
      rw [connection_committed hBegin, hSet]
      by_cases hNamed : pid ∈ calls.map Visit.playerId
      · cases hTaken : flagBefore g pid with
        | none => rfl
        | some taken =>
            rw [(hSame pid hNamed).1 flag hSet taken hTaken]
            rfl
      · rw [flagSet_of_not_mem hNamed] at hSet
        cases hSet
    · intro pid saved hRestored
      rw [standing_committed hRestored]
      by_cases hNamed : pid ∈ calls.map Visit.playerId
      · cases hTaken : standingOf next pid with
        | none => rfl
        | some standing =>
            rw [(hSame pid hNamed).2 saved hRestored
              standing hTaken]
            rfl
      · rw [slotRestored_of_not_mem hNamed] at hRestored
        cases hRestored
    · intro pid hNone
      exact others_committed hBegin hNone offset

end Committed

/- One player is there when the tick begins. -/
def annPlays : GameLoop Int :=
  (GameLoop.new {} "m" 0).addPlayer "ann" none

/- Someone joins, leaves again and joins once more. -/
theorem visits_kept_newPlayer :
    ∃ next event,
      annPlays.beginTick.2 = some (next, event) ∧
        VisitsKept annPlays next
          [.join "bob" none, .leave "bob", .join "bob" none]
          ((annPlays.beginTick.1.visits
            [.join "bob" none, .leave "bob",
              .join "bob" none]).commitTick next event 0) :=
  ⟨_, _, rfl,
    (visits_kept_iff (g := annPlays) rfl _ 0).mpr
      (by decide +kernel)⟩

/- The commit connects a player again who has left. -/
theorem leave_undone :
    ∃ next event,
      annPlays.beginTick.2 = some (next, event) ∧
        connection
            ((annPlays.beginTick.1.visits
              [.leave "ann"]).commitTick next event
              0).state.players "ann" =
            some true ∧
          ¬ VisitsKept annPlays next [.leave "ann"]
            ((annPlays.beginTick.1.visits
              [.leave "ann"]).commitTick next event 0) := by
  refine ⟨_, _, rfl, rfl, ?_⟩
  intro hKept
  cases hKept.flags "ann" false rfl

end GameRoom
