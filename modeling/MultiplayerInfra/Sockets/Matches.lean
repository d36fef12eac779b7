import MultiplayerInfra.Machine.Run
import MultiplayerInfra.Sockets.Handlers

/-
  The loop that a registered player plays in.

  Key definitions include:
    * `Sockets.Attached`
    * `Sockets.Bound`
    * `Sockets.Plays`

  Key theorems include:
    * `Sockets.bound_moves`
    * `Sockets.players_in_running_match`

  A handler keeps the loop that was the global one when its
  socket connected.  Only an entry that is made for another
  loop, or that outlives the swap of `run_matches`, can name
  a handler of an ended match.
-/

------------------------------------------------------------
-- The Condition
------------------------------------------------------------

namespace Sockets

open Py GameRoom Machine

variable {α : Type}

/- The socket that a validation registers for a player. -/
def registering
    (s : State α)
    (k : Nat)
    (playerId : Option String)
    (isLeader : Bool) : Bool :=
  match (s.handlers k).point, admitPlayer playerId isLeader with
  | .validating mode, .ok _ => mode ≠ "spectator"
  | _, _ => false

/-
  A socket is registered only for the loop that is the global
  one at that moment, and no registered handler still goes on
  when `run_matches` swaps the loops.
-/
def Attached (s : State α) : Act α → Prop
| .validated k playerId isLeader =>
    registering s k playerId isLeader = true →
      (s.handlers k).loop = s.current
| .delete (.ok _) =>
    ∀ e ∈ s.connectedPlayers.entries,
      (s.handlers e.2).point.player? = none
| _ => True

instance (s : State α) :
    (act : Act α) → Decidable (Attached s act)
| .connect => inferInstanceAs (Decidable True)
| .accepted _ => inferInstanceAs (Decidable True)
| .token _ _ => inferInstanceAs (Decidable True)
| .validated k playerId isLeader =>
    inferInstanceAs (Decidable
      (registering s k playerId isLeader = true →
        (s.handlers k).loop = s.current))
| .redis _ _ => inferInstanceAs (Decidable True)
| .frame _ _ => inferInstanceAs (Decidable True)
| .disconnect _ => inferInstanceAs (Decidable True)
| .error _ => inferInstanceAs (Decidable True)
| .sendFails _ => inferInstanceAs (Decidable True)
| .expire _ => inferInstanceAs (Decidable True)
| .resume _ => inferInstanceAs (Decidable True)
| .farewell _ => inferInstanceAs (Decidable True)
| .check _ => inferInstanceAs (Decidable True)
| .delete .effect => inferInstanceAs (Decidable True)
| .delete (.ok _) =>
    inferInstanceAs (Decidable
      (∀ e ∈ s.connectedPlayers.entries,
        (s.handlers e.2).point.player? = none))
| .delete (.fail _) => inferInstanceAs (Decidable True)

/- Socket `k` receives for the player that it is entered as. -/
structure Plays
    (s : State α)
    (playerId : String)
    (k : Nat) : Prop where
  entry : s.connectedPlayers.get? playerId = some k
  receives : ∃ q, (s.handlers k).point = .receiving q

/-
  A registered handler that goes on has captured the loop
  that `run_matches` is running.
-/
structure Bound (s : State α) : Prop where
  sound : Sound s
  bound :
    ∀ p k,
      s.connectedPlayers.get? p = some k →
        (s.handlers k).point.player? ≠ none →
          (s.handlers k).loop = s.current

------------------------------------------------------------
-- Every Step
------------------------------------------------------------

/-
  A step that keeps the running loop: whoever is registered
  afterwards and goes on did so before, with the same loop.
-/
theorem Bound.of_kept
    {s s' : State α}
    (hBound : Bound s)
    (hSound : Sound s')
    (hCurrent : s'.current = s.current)
    (hTable :
      ∀ p k,
        s'.connectedPlayers.get? p = some k →
          s.connectedPlayers.get? p = some k)
    (hHandlers :
      ∀ k,
        (s'.handlers k).point.player? ≠ none →
          k < s.sockets →
            (s.handlers k).point.player? ≠ none ∧
              (s'.handlers k).loop = (s.handlers k).loop) :
    Bound s' := by
  refine ⟨hSound, ?_⟩
  intro p k hEntry hGoes
  have hOld := hTable p k hEntry
  have hLt := (hBound.sound.table p k hOld).1
  rcases hHandlers k hGoes hLt with ⟨hWas, hLoop⟩
  rw [hLoop, hCurrent]
  exact hBound.bound p k hOld hWas

/- One handler goes to another point. -/
theorem Bound.of_setPoint
    {s s' : State α}
    (hBound : Bound s)
    (hSound : Sound s')
    (hCurrent : s'.current = s.current)
    (hTable :
      ∀ p k,
        s'.connectedPlayers.get? p = some k →
          s.connectedPlayers.get? p = some k)
    {k : Nat}
    {point : Point α}
    (hHandlers : s'.handlers = (s.setPoint k point).handlers)
    (hPoint :
      point.player? ≠ none →
        (s.handlers k).point.player? ≠ none) :
    Bound s' := by
  refine hBound.of_kept hSound hCurrent hTable ?_
  intro j hGoes _
  rw [hHandlers] at hGoes ⊢
  refine ⟨?_, State.loop_setPoint s j k point⟩
  by_cases hSame : j = k
  · subst hSame
    rw [State.point_setPoint_self] at hGoes
    exact hPoint hGoes
  · rw [State.handlers_setPoint_of_ne s hSame] at hGoes
    exact hGoes

/- The handlers stay as they are. -/
theorem Bound.of_handlers
    {s s' : State α}
    (hBound : Bound s)
    (hSound : Sound s')
    (hCurrent : s'.current = s.current)
    (hTable :
      ∀ p k,
        s'.connectedPlayers.get? p = some k →
          s.connectedPlayers.get? p = some k)
    (hHandlers : s'.handlers = s.handlers) :
    Bound s' := by
  refine hBound.of_kept hSound hCurrent hTable ?_
  intro k hGoes _
  rw [hHandlers] at hGoes ⊢
  exact ⟨hGoes, rfl⟩

theorem get?_of_get?_pop
    {d : Dict String Nat}
    {p q : String}
    {k : Nat}
    (hEntry : (d.pop p).get? q = some k) :
    d.get? q = some k := by
  rw [Dict.get?_pop] at hEntry
  split at hEntry
  · cases hEntry
  · exact hEntry

/- A player is registered for the running loop. -/
theorem Bound.register
    {s : State α}
    (hBound : Bound s)
    {k : Nat}
    {p : String}
    (hSound : Sound (s.register k p))
    (hLoop : (s.handlers k).loop = s.current) :
    Bound (s.register k p) := by
  refine ⟨hSound, ?_⟩
  intro q j hEntry hGoes
  have hKept :
      ((s.register k p).handlers j).loop =
        (s.handlers j).loop :=
    State.loop_setPoint s j k _
  rw [hKept]
  by_cases hSame : j = k
  · rw [hSame]
    exact hLoop
  · have hSome :
        (s.connectedPlayers.set p k).get? q = some j := hEntry
    rw [Dict.get?_set] at hSome
    split at hSome
    · cases hSome
      exact absurd rfl hSame
    · have hPoint :
          (s.register k p).handlers j = s.handlers j :=
        State.handlers_setPoint_of_ne s hSame _
      rw [hPoint] at hGoes
      exact hBound.bound q j hSome hGoes

/- The swap of `run_matches`. -/
theorem bound_restart
    {settings : Settings}
    {matchId : String}
    {s : State α}
    {now : Timestamp}
    (hSound : Sound (s.restart settings matchId now))
    (hIdle :
      ∀ e ∈ s.connectedPlayers.entries,
        (s.handlers e.2).point.player? = none) :
    Bound (s.restart settings matchId now) := by
  refine ⟨hSound, ?_⟩
  intro p k hEntry hGoes
  have hMem : (p, k) ∈ s.connectedPlayers.entries :=
    Dict.mem_of_get? hEntry
  exact absurd (hIdle (p, k) hMem) hGoes

variable [PyNumber α]

/- Every attached step keeps the players bound. -/
theorem bound_moves
    {settings : Settings}
    {matchId : String}
    {s s' : State α}
    {act : Act α}
    (hBound : Bound s)
    (hAttached : Attached s act)
    (hMoves : Moves settings matchId s act s') :
    Bound s' := by
  have hSound := sound_moves hBound.sound hMoves
  have hGoing :
      ∀ {k : Nat} {point : Point α},
        (s.handlers k).point = point →
          point.player? ≠ none →
            (s.handlers k).point.player? ≠ none := by
    intro k point hPoint hNe
    rw [hPoint]
    exact hNe
  cases hMoves with
  | connect =>
      refine hBound.of_kept hSound rfl (fun _ _ => id) ?_
      intro k hGoes hLt
      have hOther :
          s.connect.handlers k = s.handlers k :=
        Function.update_of_ne (by omega) _ _
      rw [hOther] at hGoes ⊢
      exact ⟨hGoes, rfl⟩
  | handshake hFrom hTo =>
      refine
        hBound.of_setPoint hSound rfl (fun _ _ => id) rfl ?_
      intro hGoes
      rcases hTo with hOutside | ⟨close, rfl⟩
      · rw [Point.player?_of_outside hOutside] at hGoes
        exact absurd rfl hGoes
      · exact absurd rfl hGoes
  | register hPoint hAdmit hMode =>
      apply hBound.register hSound
      apply hAttached
      rw [registering, hPoint, hAdmit]
      simpa using hMode
  | lookup hPoint =>
      exact
        hBound.of_setPoint hSound rfl (fun _ _ => id) rfl
          (fun _ => hGoing hPoint nofun)
  | join hPoint =>
      exact
        hBound.of_setPoint hSound rfl (fun _ _ => id) rfl
          (fun _ => hGoing hPoint nofun)
  | restore hPoint =>
      exact
        hBound.of_setPoint hSound rfl (fun _ _ => id) rfl
          (fun _ => hGoing hPoint nofun)
  | lookupFail hPoint =>
      exact
        hBound.of_setPoint hSound rfl (fun _ _ => id) rfl
          (fun hNe => absurd rfl hNe)
  | clear hPoint =>
      exact
        hBound.of_setPoint hSound rfl (fun _ _ => id) rfl
          (fun _ => hGoing hPoint nofun)
  | cleared hPoint =>
      exact
        hBound.of_setPoint hSound rfl (fun _ _ => id) rfl
          (fun _ => hGoing hPoint nofun)
  | clearFail hPoint =>
      exact
        hBound.of_setPoint hSound rfl (fun _ _ => id) rfl
          (fun _ => hGoing hPoint nofun)
  | hold hPoint =>
      exact
        hBound.of_setPoint hSound rfl (fun _ _ => id) rfl
          (fun hNe => absurd rfl hNe)
  | held hPoint =>
      exact
        hBound.of_setPoint hSound rfl (fun _ _ => id) rfl
          (fun hNe => absurd rfl hNe)
  | frame hPoint =>
      exact hBound.of_handlers hSound rfl (fun _ _ => id) rfl
  | leave hPoint =>
      exact
        hBound.of_setPoint hSound rfl
          (fun _ _ => get?_of_get?_pop) rfl
          (fun _ => hGoing hPoint nofun)
  | error hPoint =>
      exact
        hBound.of_setPoint hSound rfl
          (fun _ _ => get?_of_get?_pop) rfl
          (fun hNe => absurd rfl hNe)
  | sendFails =>
      exact
        hBound.of_handlers hSound rfl
          (fun _ _ => get?_of_get?_pop) rfl
  | expire =>
      exact hBound.of_handlers hSound rfl (fun _ _ => id) rfl
  | resume hTask hAwaits =>
      refine hBound.of_handlers hSound rfl ?_ rfl
      intro p k hEntry
      simp only [State.ran, State.setLoop, State.tables,
        State.note] at hEntry
      split at hEntry
      · cases hEntry
      · exact hEntry
  | farewell hTask =>
      rename_i k farewells sent
      refine hBound.of_kept hSound rfl (fun _ _ => id) ?_
      intro j hGoes _
      rw [State.point_farewell] at hGoes
      exact ⟨hGoes, State.loop_farewell s j k farewells sent⟩
  | idle hTask =>
      exact hBound.of_handlers hSound rfl (fun _ _ => id) rfl
  | restart hTask => exact bound_restart hSound hAttached

/-
  An accepted player plays in the running match, in every run
  in which a socket is registered only for the global loop
  and no registered handler goes on over a swap.
-/
theorem players_in_running_match
    {settings : Settings}
    {matchId : String}
    {g : GameLoop α}
    {stores : Stores α}
    {holds : String → Option (HoldJson α)}
    {s : State α}
    (hRun :
      Reaches (step settings matchId) Attached
        (.start g stores holds) s) :
    ∀ p k,
      Plays s p k →
        (s.handlers k).point = .receiving p ∧
          (s.handlers k).loop = s.current ∧
            p ∈ s.loop.state.players.keys := by
  have hBound : Bound s := by
    refine
      hRun.invariant ⟨sound_start g stores holds, nofun⟩ ?_
    intro t u act hPrior hAttached hStep
    exact
      bound_moves hPrior hAttached (moves_of_step hStep)
  rintro p k ⟨hEntry, q, hPoint⟩
  have hEntered := (hBound.sound.table p k hEntry).2
  have hOwn : q = p := by
    apply hEntered.own
    rw [hPoint]
    rfl
  subst hOwn
  have hLoop : (s.handlers k).loop = s.current := by
    apply hBound.bound q k hEntry
    rw [hPoint]
    exact nofun
  refine ⟨hPoint, hLoop, ?_⟩
  have hPresent := hBound.sound.present k q (by rw [hPoint]; rfl)
  rw [hLoop] at hPresent
  exact hPresent

/- A match that is over after its first tick. -/
def oneTick : Settings where
  tickRate := 1
  matchDurationSeconds := 1

/- A room without players, at the start of a match. -/
def emptyRoom : State Int :=
  .start (.new oneTick "m1" 0) .empty (fun _ => none)

/- The run task makes `n` calls, which succeed. -/
def calls (n : Nat) : List (Act Int) :=
  (List.replicate n [.resume .effect, .resume (.ok 0)]).flatten

/- Socket `k` connects and sends its token. -/
def connects (k : Nat) : List (Act Int) :=
  [.connect, .accepted k, .token k (.hello ⟨some "t", none⟩)]

/- Its player is validated, and the hold slot looked up. -/
def enters (k : Nat) (playerId : String) : List (Act Int) :=
  [.validated k (some playerId) true, .redis k .effect,
    .redis k (.ok 0)]

/- `add_player` deletes the hold slot that it restored. -/
def clears (k : Nat) : List (Act Int) :=
  [.redis k .effect, .redis k (.ok 0)]

/- Socket `k` disconnects, and a hold slot is stored. -/
def leaves (k : Nat) : List (Act Int) :=
  [.disconnect k, .redis k .effect, .redis k (.ok 0)]

/- From the end of `run` to the loop of the next match. -/
def restarts : List (Act Int) :=
  [.check true, .delete .effect, .delete (.ok 0)]

/- From the last closed socket to the next match. -/
def finishes : List (Act Int) :=
  [.resume (.ok 0), .resume .effect, .resume (.ok 0),
    .resume (.ok 0), .resume .effect, .resume (.ok 0),
    .resume (.ok 0)] ++ restarts

/-
  A player is in the first match to its end, leaves when its
  socket is closed, and comes back in the second match.
-/
def cameBack : State Int :=
  final (step oneTick "m1") emptyRoom
    (connects 0 ++ enters 0 "ann" ++ [.resume (.ok 0)] ++
      calls 7 ++ [.farewell true] ++ leaves 0 ++ finishes ++
      connects 1 ++ enters 1 "ann" ++ clears 1)
    (by decide +kernel)

theorem players_in_running_match_cameBack :
    Plays cameBack "ann" 1 ∧
      (cameBack.handlers 1).loop = 1 ∧
        "ann" ∈ cameBack.loop.state.players.keys := by
  have hPlays : Plays cameBack "ann" 1 := by
    refine ⟨by decide +kernel, "ann", ?_⟩
    decide +kernel
  have hRunning :=
    players_in_running_match
      (reaches_of_run (run_eq_final (by decide +kernel))
          (by decide +kernel) :
        Reaches (step oneTick "m1") Attached emptyRoom
          cameBack)
      "ann" 1 hPlays
  have hCurrent : cameBack.current = 1 := by
    decide +kernel
  exact ⟨hPlays, hRunning.2.1.trans hCurrent, hRunning.2.2⟩

/-
  The token of a player is validated while the match ends and
  the next one starts.
-/
def lateJoin : State Int :=
  final (step oneTick "m1") emptyRoom
    (connects 0 ++ [.resume (.ok 0)] ++ calls 6 ++
      [.resume (.ok 0)] ++ calls 1 ++
      [.resume (.ok 0), .resume (.ok 0)] ++ restarts ++
      enters 0 "ann")
    (by decide +kernel)

theorem player_in_ended_match :
    Reachable (step oneTick "m1") emptyRoom lateJoin ∧
      Plays lateJoin "ann" 0 ∧
        (lateJoin.handlers 0).loop = 0 ∧
          lateJoin.current = 1 ∧
            "ann" ∉ lateJoin.loop.state.players.keys := by
  refine
    ⟨reachable_of_run (run_eq_final (by decide +kernel)),
      ⟨by decide +kernel, "ann", ?_⟩, ?_, ?_, ?_⟩ <;>
    decide +kernel

end Sockets
