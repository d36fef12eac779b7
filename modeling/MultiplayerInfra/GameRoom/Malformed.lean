import MultiplayerInfra.GameRoom.GameLoop

/-
  Inputs that cannot be applied, and what one of them does to
  the tick of everybody else.

  Key definitions include:
    * `GameRoom.malformed`
    * `GameRoom.overflows`
    * `GameRoom.Abandoned`
    * `GameRoom.withoutMalformed`
    * `GameRoom.GameLoop.committed`
    * `GameRoom.GameLoop.UnspoiltBy`

  Key theorems include:
    * `GameRoom.applyInputTo_eq_none_iff`
    * `GameRoom.players_drainInputs_eq_none_iff`
    * `GameRoom.inputQueue_drainInputs_of_malformed`
    * `GameRoom.GameLoop.unspoiltBy_iff`

  All inputs of a tick are applied within one `try`, so the
  first one that raises takes the whole tick with it.
-/

------------------------------------------------------------
-- Inputs That Raise
------------------------------------------------------------

namespace GameRoom

open Py

variable {α : Type} [PyNumber α]

/- `input_data.get(key, default)`, if that is a number. -/
def operand
    (inputData : Json α)
    (key : String)
    (default : Int) : Option α := do
  (← inputData.get key
    (.num (PyNumber.ofInt default))).number?

/-
  The value is not an object, or its `dx`, `dy` or `speed` is
  not a number.
-/
def malformed : Json α → Bool
| .obj fields =>
    (operand (.obj fields) "dx" 0).isNone ||
      (operand (.obj fields) "dy" 0).isNone ||
        (operand (.obj fields) "speed" 5).isNone
| _ => true

/- The player whom an input moves. -/
def mover
    (playerId : String)
    (players : Players α) : PlayerState α :=
  (players.get? playerId).getD (PlayerState.new playerId)

/- A step of the input does not fit a float. -/
def overflows
    (playerId : String)
    (inputData : Json α)
    (players : Players α) : Bool :=
  match operand inputData "dx" 0, operand inputData "dy" 0,
    operand inputData "speed" 5 with
  | some dx, some dy, some speed =>
      let player := mover playerId players
      (PyNumber.addMul player.x dx speed).isNone ||
        (PyNumber.addMul player.y dy speed).isNone
  | _, _, _ => false

/- The player is in the dictionary once her input is read. -/
theorem get?_ensurePlayer_self
    (playerId : String)
    (players : Players α) :
    (ensurePlayer playerId players).get? playerId =
      some (mover playerId players) := by
  unfold ensurePlayer mover
  split
  · rename_i hThere
    rcases Dict.mem_keys_iff.mp hThere with ⟨player, hGet⟩
    rw [hGet]
    rfl
  · rename_i hFresh
    rw [Dict.get?_set_self,
      Dict.get?_eq_none_iff.mpr hFresh]
    rfl

/-
  An input raises when it is malformed or overflows, and for
  no other reason.
-/
theorem applyInputTo_eq_none_iff
    (playerId : String)
    (inputData : Json α)
    (players : Players α) :
    applyInputTo playerId inputData players = none ↔
      malformed inputData = true ∨
        overflows playerId inputData players = true := by
  simp only [applyInputTo, get?_ensurePlayer_self,
    Option.bind_eq_bind, Option.bind_some, move]
  cases inputData with
  | obj fields =>
      simp only [malformed, overflows, operand, Json.get,
        Option.bind_eq_bind, Option.bind_some]
      cases (((fields.reverse.lookup "dx").getD
        (.num (PyNumber.ofInt 0))).number?) with
      | none => simp
      | some dx =>
          cases (((fields.reverse.lookup "dy").getD
            (.num (PyNumber.ofInt 0))).number?) with
          | none => simp
          | some dy =>
              cases (((fields.reverse.lookup "speed").getD
                (.num (PyNumber.ofInt 5))).number?) with
              | none => simp
              | some speed =>
                  cases hX : PyNumber.addMul
                    (mover playerId players).x dx speed with
                  | none => simp [hX]
                  | some x =>
                      cases hY : PyNumber.addMul
                        (mover playerId players).y dy
                          speed with
                      | none => simp [hX, hY]
                      | some y => simp [hX, hY]
  | _ => simp [malformed, Json.get]

end GameRoom

------------------------------------------------------------
-- Queues With Such Inputs
------------------------------------------------------------

namespace GameRoom

open Py

variable {α : Type} [PyNumber α]

/-
  Some input of the queue is malformed, or overflows from
  where its player stands by then.
-/
def Abandoned :
    List (String × Json α) → Players α → Prop
| [], _ => False
| (playerId, inputData) :: queue, players =>
    malformed inputData = true ∨
      overflows playerId inputData players = true ∨
        match applyInputTo playerId inputData players with
        | none => False
        | some (players', _) => Abandoned queue players'

/- The queue without the malformed inputs of a player. -/
def withoutMalformed
    (playerId : String)
    (queue : List (String × Json α)) :
    List (String × Json α) :=
  queue.filter (fun input =>
    !(input.1 = playerId && malformed input.2))

theorem withoutMalformed_eq_self
    {playerId : String}
    {queue : List (String × Json α)}
    (hWell :
      ∀ input ∈ queue, input.1 = playerId →
        malformed input.2 = false) :
    withoutMalformed playerId queue = queue := by
  apply List.filter_eq_self.mpr
  intro input hMem
  by_cases hPlayer : input.1 = playerId
  · simp [hWell input hMem hPlayer]
  · simp [hPlayer]

/- The input loop raises at the first input that does. -/
theorem players_drainInputs_eq_none_iff
    (queue : List (String × Json α))
    (pending : List (Telemetry α))
    (players : Players α) :
    (drainInputs queue pending players).players = none ↔
      Abandoned queue players := by
  induction queue generalizing pending players with
  | nil => simp [drainInputs, Abandoned]
  | cons input queue ih =>
      rcases input with ⟨playerId, inputData⟩
      have hRaises :=
        applyInputTo_eq_none_iff playerId inputData players
      simp only [drainInputs, Abandoned]
      cases hApply :
          applyInputTo playerId inputData players with
      | none =>
          rcases hRaises.mp hApply with hBad | hOver
          · simp [hBad]
          · simp [hOver]
      | some result =>
          rcases result with ⟨players', kills⟩
          rw [hApply] at hRaises
          have hFine :
              ¬ (malformed inputData = true ∨
                overflows playerId inputData players =
                  true) := by
            rw [← hRaises]
            exact Option.some_ne_none _
          rw [not_or] at hFine
          simp only [hFine.1, hFine.2, Bool.false_eq_true,
            false_or, ih (pending ++ kills) players']

/- One malformed input anywhere is enough. -/
theorem abandoned_of_malformed
    {queue : List (String × Json α)}
    {input : String × Json α}
    (hMem : input ∈ queue)
    (hBad : malformed input.2 = true)
    (players : Players α) :
    Abandoned queue players := by
  induction queue generalizing players with
  | nil => cases hMem
  | cons head queue ih =>
      rcases head with ⟨playerId, inputData⟩
      rcases List.mem_cons.mp hMem with rfl | hLater
      · exact .inl hBad
      · have hRaises :=
          applyInputTo_eq_none_iff playerId inputData
            players
        simp only [Abandoned]
        cases hApply :
            applyInputTo playerId inputData players with
        | none =>
            rcases hRaises.mp hApply with hHead | hOver
            · exact .inl hHead
            · exact .inr (.inl hOver)
        | some result =>
            exact .inr (.inr (ih hLater result.1))

/- Exact numbers have no largest one. -/
theorem overflows_eq_false_of_total
    (hTotal :
      ∀ x d s : α, PyNumber.addMul x d s ≠ none)
    (playerId : String)
    (inputData : Json α)
    (players : Players α) :
    overflows playerId inputData players = false := by
  unfold overflows
  split
  · simp [Option.isSome_iff_ne_none, hTotal]
  · rfl

/-
  The inputs before a malformed one are gone with the tick;
  those behind it are left for the next one.
-/
theorem inputQueue_drainInputs_of_malformed
    {before after : List (String × Json α)}
    {players players' : Players α}
    {pending : List (Telemetry α)}
    {playerId : String}
    {inputData : Json α}
    (hBefore :
      (drainInputs before pending players).players =
        some players')
    (hBad : malformed inputData = true) :
    (drainInputs (before ++ (playerId, inputData) :: after)
        pending players).inputQueue = after ∧
      (drainInputs (before ++ (playerId, inputData) :: after)
        pending players).players = none := by
  induction before generalizing players pending with
  | nil =>
      have hRaises :
          applyInputTo playerId inputData players = none :=
        (applyInputTo_eq_none_iff playerId inputData
          players).mpr (.inl hBad)
      simp [drainInputs, hRaises]
  | cons input before ih =>
      rcases input with ⟨pid, data⟩
      simp only [List.cons_append, drainInputs] at hBefore ⊢
      cases hApply : applyInputTo pid data players with
      | none => simp [hApply] at hBefore
      | some result =>
          simp only [hApply] at hBefore ⊢
          exact ih hBefore

end GameRoom

------------------------------------------------------------
-- Ticks of the Others
------------------------------------------------------------

namespace GameRoom

open Py

namespace GameLoop

variable {α : Type} [PyNumber α]

/-
  The loop after a tick whose publish was acknowledged at
  `offset`; `none` when the tick raised and nothing was
  committed.
-/
def committed
    (g : GameLoop α)
    (offset : Int) : Option (GameLoop α) :=
  g.beginTick.2.map (fun e =>
    g.beginTick.1.commitTick e.1 e.2 offset)

/- The loop had a player sent no malformed inputs. -/
def spare
    (g : GameLoop α)
    (playerId : String) : GameLoop α :=
  { g with
    inputQueue := withoutMalformed playerId g.inputQueue }

/-
  The malformed inputs of a player make no difference to what
  a tick commits for the others.
-/
def UnspoiltBy
    (g : GameLoop α)
    (q : String) : Prop :=
  ∀ offset, ∀ p ≠ q,
    (g.committed offset).map (fun g' =>
        g'.state.players.get? p) =
      ((g.spare q).committed offset).map (fun g' =>
        g'.state.players.get? p)

/- A tick is committed unless one of its inputs raises. -/
theorem committed_eq_none_iff
    (g : GameLoop α)
    (offset : Int) :
    g.committed offset = none ↔
      Abandoned g.inputQueue
        (copyPlayers g.state.players) := by
  rw [committed, Option.map_eq_none_iff,
    ← players_drainInputs_eq_none_iff g.inputQueue
      g.pendingTelemetry]
  exact Option.map_eq_none_iff

/-
  A player cannot spoil the tick exactly if she sent no
  malformed input, or the tick is lost without hers.
-/
theorem unspoiltBy_iff
    (g : GameLoop α)
    (q : String) :
    g.UnspoiltBy q ↔
      (∀ input ∈ g.inputQueue,
        input.1 = q → malformed input.2 = false) ∨
      Abandoned (withoutMalformed q g.inputQueue)
        (copyPlayers g.state.players) := by
  constructor
  · intro hUnspoilt
    by_cases hWell :
        ∀ input ∈ g.inputQueue,
          input.1 = q → malformed input.2 = false
    · exact .inl hWell
    · right
      simp only [not_forall, Bool.not_eq_false] at hWell
      rcases hWell with ⟨input, hMem, _, hBad⟩
      have hLost : g.committed 0 = none :=
        (g.committed_eq_none_iff 0).mpr
          (abandoned_of_malformed hMem hBad _)
      -- some player other than `q`
      have hOther : q ++ "'" ≠ q := by
        intro hEq
        have hLength := congrArg String.length hEq
        simp [String.length_append] at hLength
      have hSame := hUnspoilt 0 (q ++ "'") hOther
      rw [hLost, Option.map_none, eq_comm,
        Option.map_eq_none_iff] at hSame
      exact ((g.spare q).committed_eq_none_iff 0).mp hSame
  · rintro (hWell | hLost) offset p _
    · have hSpare : g.spare q = g := by
        rw [spare, withoutMalformed_eq_self hWell]
      rw [hSpare]
    · have hSpared : (g.spare q).committed offset = none :=
        ((g.spare q).committed_eq_none_iff offset).mpr hLost
      have hRest :
          Abandoned g.inputQueue
            (copyPlayers g.state.players) := by
        by_cases hWell :
            ∀ input ∈ g.inputQueue,
              input.1 = q → malformed input.2 = false
        · rw [withoutMalformed_eq_self hWell] at hLost
          exact hLost
        · simp only [not_forall, Bool.not_eq_false] at hWell
          rcases hWell with ⟨input, hMem, _, hBad⟩
          exact abandoned_of_malformed hMem hBad _
      have hGone : g.committed offset = none :=
        (g.committed_eq_none_iff offset).mpr hRest
      rw [hGone, hSpared]

/-
  Ann's move and a word of Bob's where his step should be:
  without the word her move is committed.
-/
theorem bob_spoils_ann :
    ¬ ({ GameLoop.new {} "room-1" 0 with
          inputQueue :=
            [("ann", .obj [("dx", .num (1 : Int))]),
              ("bob", .obj [("dx", .str "left")])] }
        ).UnspoiltBy "bob" := by
  intro hUnspoilt
  have hAnn := hUnspoilt 7 "ann" (by decide)
  revert hAnn
  decide

end GameLoop

end GameRoom
