import MultiplayerInfra.GameRoom.RunTask
import MultiplayerInfra.GameRoom.Shots

/-
  A tick that is not committed: what it leaves behind when
  an input raises or its publish fails.

  Key definitions include:
    * `GameRoom.killsOf`
    * `GameRoom.HitsAbove`
    * `GameRoom.Failure`
    * `GameRoom.droppedTick`
    * `GameRoom.Unchanged`

  Key theorems include:
    * `GameRoom.pendingTelemetry_drainInputs`
    * `GameRoom.killsOf_eq_nil_iff`
    * `GameRoom.droppedTick_unchanged_iff`

  The players are copied before the inputs are applied, but
  the kills among them are reported on the loop object.
-/

------------------------------------------------------------
-- Kills of a Queue
------------------------------------------------------------

namespace GameRoom

open Py

variable {α : Type} [PyNumber α]

/- The kills reported until the queue ends or an input raises. -/
def killsOf :
    List (String × Json α) → Players α →
      List (Telemetry α)
| [], _ => []
| (playerId, inputData) :: queue, players =>
    match applyInputTo playerId inputData players with
    | none => []
    | some (players', kills) =>
        kills ++ killsOf queue players'

/-
  Every player who is hit by an applied input has more than
  `n` health before.
-/
def HitsAbove
    (n : Int) :
    List (String × Json α) → Players α → Prop
| [], _ => True
| (playerId, inputData) :: queue, players =>
    (∀ victim ∈ hit playerId inputData players,
        n < victim.2.health) ∧
      match applyInputTo playerId inputData players with
      | none => True
      | some (players', _) => HitsAbove n queue players'

instance decidableHitsAbove
    (n : Int) :
    (queue : List (String × Json α)) →
      (players : Players α) →
        Decidable (HitsAbove n queue players)
| [], _ => inferInstanceAs (Decidable True)
| (playerId, inputData) :: queue, players =>
    match hApply :
        applyInputTo playerId inputData players with
    | none =>
        decidable_of_iff
          (∀ victim ∈ hit playerId inputData players,
            n < victim.2.health) (by
          simp [HitsAbove, hApply])
    | some (players', _) =>
        have := decidableHitsAbove n queue players'
        decidable_of_iff
          ((∀ victim ∈ hit playerId inputData players,
              n < victim.2.health) ∧
            HitsAbove n queue players') (by
          simp [HitsAbove, hApply])

/- No applied input takes the last health of a player. -/
abbrev NoKill :
    List (String × Json α) → Players α → Prop :=
  HitsAbove 10

/- The input loop appends the kills to what was pending. -/
theorem pendingTelemetry_drainInputs
    (queue : List (String × Json α))
    (pending : List (Telemetry α))
    (players : Players α) :
    (drainInputs queue pending players).pendingTelemetry =
      pending ++ killsOf queue players := by
  induction queue generalizing pending players with
  | nil => simp [drainInputs, killsOf]
  | cons input queue ih =>
      rcases input with ⟨playerId, inputData⟩
      simp only [drainInputs, killsOf]
      cases applyInputTo playerId inputData players with
      | none => simp
      | some result =>
          rcases result with ⟨players', kills⟩
          simp only [ih, List.append_assoc]

/- Nobody is hit by an input that raises. -/
theorem hit_of_raises
    {playerId : String}
    {inputData : Json α}
    {players : Players α}
    (hRaises :
      applyInputTo playerId inputData players = none) :
    hit playerId inputData players = none := by
  rw [applyInputTo_eq, Option.map_eq_none_iff] at hRaises
  simp [hit, hRaises]

/- Kills are reported exactly when a hit takes the rest. -/
theorem killsOf_eq_nil_iff
    (queue : List (String × Json α))
    (players : Players α) :
    killsOf queue players = [] ↔ NoKill queue players := by
  induction queue generalizing players with
  | nil => simp [killsOf, HitsAbove]
  | cons input queue ih =>
      rcases input with ⟨playerId, inputData⟩
      simp only [killsOf, NoKill, HitsAbove]
      cases hApply :
          applyInputTo playerId inputData players with
      | none => simp [hit_of_raises hApply]
      | some result =>
          rcases result with ⟨players', kills⟩
          simp only [List.append_eq_nil_iff, ih players']
          refine and_congr_left (fun _ => ?_)
          cases applied_of_applyInputTo hApply with
          | miss hMiss _ => simp [hMiss]
          | hit hHit _ _ _ _ _ =>
              simp only [hHit, Option.mem_some_iff,
                forall_eq']
              split <;> simp <;> omega

end GameRoom

------------------------------------------------------------
-- Dropped Ticks
------------------------------------------------------------

namespace GameRoom

open Py

variable {α : Type} [PyNumber α]

/- The ways in which a tick can fail before its commit. -/
inductive Failure where
  -- an input raises
  | input
  -- the publish fails, after it appended its record or not
  | publish (appended : Bool) (now : Timestamp)
deriving DecidableEq

/- The record of the tick is in the log all the same. -/
def Failure.appended : Failure → Bool
| .input => false
| .publish appended _ => appended

/- The publish of a tick that fails. -/
def failedPublish
    (producer : Nat)
    (st : Stores α)
    (g : GameLoop α)
    (aw : Await α)
    (now : Timestamp) :
    Option (Stores α × GameLoop α) :=
  (awaitStep producer st g aw (.fail now)).map (fun out =>
    (out.1, out.2.1))

/-
  `_process_tick` with nothing else in between, when it
  fails in the given way.
-/
def droppedTick
    (producer : Nat)
    (st : Stores α)
    (g : GameLoop α)
    (failure : Failure) :
    Option (Stores α × GameLoop α) :=
  match g.beginTick, failure with
  | (g', none), .input => some (st, g')
  | (g', some (next, event)), .publish false now =>
      failedPublish producer st g'
        (.publishing next event none) now
  | (g', some (next, event)), .publish true now =>
      (awaitStep producer st g'
        (.publishing next event none) .effect).bind
        (fun out =>
          failedPublish producer out.1 out.2.1 out.2.2 now)
  | _, _ => none

/- What a dropped tick should leave as it was. -/
structure Unchanged
    (st : Stores α)
    (g : GameLoop α)
    (st' : Stores α)
    (g' : GameLoop α) : Prop where
  state : g'.state = g.state
  offset :
    g'.lastCommittedKafkaOffset = g.lastCommittedKafkaOffset
  buffer : g'.spectatorBuffer = g.spectatorBuffer
  redis : st'.redis = st.redis
  telemetry : g'.pendingTelemetry = g.pendingTelemetry

variable {producer : Nat}
variable {st st' : Stores α}
variable {g g' : GameLoop α}
variable {failure : Failure}

/- A dropped tick took its inputs, and at most logged. -/
theorem droppedTick_spec
    (hDropped :
      droppedTick producer st g failure = some (st', g')) :
    g' = g.beginTick.1 ∧
      ((failure.appended = false ∧ st' = st) ∨
        ∃ event,
          failure.appended = true ∧
            st' = st.appendEvent producer event) := by
  unfold droppedTick at hDropped
  split at hDropped
  · rename_i hBegin
    cases hDropped
    exact ⟨by rw [hBegin], Or.inl ⟨rfl, rfl⟩⟩
  · rename_i hBegin
    cases hDropped
    exact ⟨by rw [hBegin], Or.inl ⟨rfl, rfl⟩⟩
  · rename_i hBegin
    cases hDropped
    exact ⟨by rw [hBegin], Or.inr ⟨_, rfl, rfl⟩⟩
  · cases hDropped

/-
  A dropped tick leaves the loop and Redis as they were
  exactly when no applied input reported a kill, and the
  event log exactly when no record was appended.
-/
theorem droppedTick_unchanged_iff
    (hDropped :
      droppedTick producer st g failure = some (st', g')) :
    (Unchanged st g st' g' ↔
        NoKill g.inputQueue (copyPlayers g.state.players)) ∧
      (st'.events = st.events ↔
        failure.appended = false) := by
  rcases droppedTick_spec hDropped with ⟨rfl, hStores⟩
  have hRedis : st'.redis = st.redis := by
    rcases hStores with ⟨_, rfl⟩ | ⟨event, _, rfl⟩
    · rfl
    · rfl
  have hTelemetry :
      g.beginTick.1.pendingTelemetry =
        g.pendingTelemetry ++
          killsOf g.inputQueue
            (copyPlayers g.state.players) :=
    pendingTelemetry_drainInputs _ _ _
  constructor
  · rw [← killsOf_eq_nil_iff]
    constructor
    · intro hSame
      have hPending := hSame.telemetry
      rw [hTelemetry] at hPending
      simpa using hPending
    · intro hNone
      refine ⟨rfl, rfl, rfl, hRedis, ?_⟩
      rw [hTelemetry, hNone, List.append_nil]
  · rcases hStores with
      ⟨hAppended, rfl⟩ | ⟨event, hAppended, rfl⟩
    · simp [hAppended]
    · simp [hAppended]

/- Two players, one of whom has 10 health left. -/
def wounded : GameLoop Int :=
  (GameLoop.new {} "m" 0).setPlayers
    ((Dict.empty.set "ann" (PlayerState.new "ann")).set
      "bob" { PlayerState.new "bob" with health := 10 })

/- A shot at someone unhurt, in a tick that is not published. -/
def missedPublish : GameLoop Int :=
  (wounded.addPlayer "cat" none).enqueueInput "bob"
    (.obj [("shoot", .bool true)])

theorem droppedTick_unchanged_missedPublish :
    ∃ st g,
      droppedTick 0 Stores.empty missedPublish
          (.publish false 1) = some (st, g) ∧
        Unchanged Stores.empty missedPublish st g :=
  have hDropped :
      droppedTick 0 Stores.empty missedPublish
          (.publish false 1) =
        some (Stores.empty, missedPublish.beginTick.1) :=
    rfl
  ⟨_, _, hDropped,
    (droppedTick_unchanged_iff hDropped).1.mpr
      (by decide +kernel)⟩

/- After a shot that kills, an input raises. -/
def raisesAfterKill : GameLoop Int :=
  (wounded.enqueueInput "ann"
    (.obj [("shoot", .bool true)])).enqueueInput "bob"
      (.obj [("dx", .str "left")])

/- The kill is reported, though nobody was killed. -/
theorem kill_outlives_tick :
    ∃ st g,
      droppedTick 0 Stores.empty raisesAfterKill .input =
          some (st, g) ∧
        g.pendingTelemetry = [.kill "ann" "bob"] ∧
          ¬ Unchanged Stores.empty raisesAfterKill st g := by
  refine ⟨_, _, rfl, rfl, ?_⟩
  intro hSame
  cases hSame.telemetry

end GameRoom
