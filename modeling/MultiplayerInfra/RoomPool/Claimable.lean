import Mathlib.Data.Fintype.Basic
import MultiplayerInfra.RoomPool.Exclusive

/-
  Whether a room that is led and that no lobby has claimed
  can be claimed.

  Key definitions include:
    * `RoomPool.noteClaims`
    * `RoomPool.LedAfter`
    * `RoomPool.KeepsClaimable`
    * `RoomPool.Claimable`

  Key theorems include:
    * `RoomPool.leader_of_step`
    * `RoomPool.claimable_step`
    * `RoomPool.idle_room_claimable`

  A room is registered when a process starts and when a match
  ends; a replica that takes over does not register it, and
  one that steps down removes it.
-/

------------------------------------------------------------
-- Claims Since the Last Registration
------------------------------------------------------------

namespace RoomPool

variable {ι μ : Type}

/- The key that a claim of a lobby takes in a step. -/
def claimedKey
    (s : State ι μ) : Act ι μ → Option String
| .claim m true =>
    match s.matchmakers m with
    | .claiming ((key, value) :: _) =>
        if value = "available" ∧
            s.pool key = some "available" then some key
        else none
    | _ => none
| _ => none

/-
  The rooms that a lobby has claimed since a registration
  last took effect.
-/
def noteClaims
    (room : ι → String)
    (s : State ι μ)
    (act : Act ι μ)
    (_ : State ι μ)
    (claimed : String → Bool) : String → Bool :=
  match claimedKey s act, effect room s act with
  | some key, _ => Function.update claimed key true
  | none, some (.register r _) =>
      Function.update claimed r false
  | none, _ => claimed

/- The replica steps down in this step. -/
def stepsDown [DecidableEq ι] : Act ι μ → ι → Bool
| .cleanup i _, j => i = j
| _, _ => false

/- A replica leads the room, and goes on to do so. -/
def LedAfter
    [DecidableEq ι]
    (room : ι → String)
    (s : State ι μ)
    (act : Act ι μ)
    (r : String) : Prop :=
  ∃ i,
    room i = r ∧ (s.replicas i).leader = true ∧
      stepsDown act i = false

/- A write takes the key of no idle room that is led. -/
def Write.SparesIdle
    (pool : String → Option String)
    (claimed : String → Bool)
    (led : String → Prop) : Write → Prop
| .register _ _ => True
| .flip r => pool r = some "available" → ¬ led r
| .remove r => claimed r = true ∨ ¬ led r

/- The room of a new leader is available, or claimed. -/
def ElectedReady
    (room : ι → String)
    (s : State ι μ)
    (claimed : String → Bool) : Act ι μ → Prop
| .elected i =>
    s.pool (room i) = some "available" ∨
      claimed (room i) = true
| _ => True

/- The condition on a step. -/
def KeepsClaimable
    [DecidableEq ι]
    (room : ι → String)
    (s : State ι μ × (String → Bool))
    (act : Act ι μ) : Prop :=
  ElectedReady room s.1 s.2 act ∧
    ∀ w ∈ effect room s.1 act,
      w.SparesIdle s.1.pool s.2 (LedAfter room s.1 act)

/- Every idle room that is led can be claimed. -/
def Claimable
    (room : ι → String)
    (s : State ι μ × (String → Bool)) : Prop :=
  ∀ i,
    (s.1.replicas i).leader = true →
      s.2 (room i) = false →
        s.1.pool (room i) = some "available"

section Decidable

variable [DecidableEq ι] [Fintype ι]

instance
    (room : ι → String)
    (s : State ι μ)
    (act : Act ι μ)
    (r : String) :
    Decidable (LedAfter room s act r) :=
  inferInstanceAs (Decidable (∃ _, _))

instance
    (pool : String → Option String)
    (claimed : String → Bool)
    (led : String → Prop)
    [DecidablePred led] :
    (w : Write) →
      Decidable (w.SparesIdle pool claimed led)
| .register _ _ => isTrue trivial
| .flip _ => inferInstanceAs (Decidable (_ → _))
| .remove _ => inferInstanceAs (Decidable (_ ∨ _))

instance
    (room : ι → String)
    (s : State ι μ)
    (claimed : String → Bool) :
    (act : Act ι μ) →
      Decidable (ElectedReady room s claimed act)
| .elected _ => inferInstanceAs (Decidable (_ ∨ _))
| .list _ _ | .claim _ _ | .assign _ _ _
| .crashMatchmaker _ | .start _ _ | .lost _ | .endMatch _
| .returnRoom _ _ | .stop _ | .cleanup _ _ | .crash _
| .land _ => isTrue trivial

instance
    (room : ι → String)
    (s : State ι μ × (String → Bool))
    (act : Act ι μ) :
    Decidable (KeepsClaimable room s act) :=
  inferInstanceAs (Decidable (_ ∧ _))

end Decidable

end RoomPool

------------------------------------------------------------
-- Leaders
------------------------------------------------------------

namespace RoomPool

variable {ι μ : Type}

@[simp] theorem replicas_apply
    (s : State ι μ)
    (w : Write) :
    (s.apply w).replicas = s.replicas := by
  cases w with
  | register r givesBack => rfl
  | flip r =>
      simp only [State.apply]
      split <;> rfl
  | remove r => rfl

@[simp] theorem replicas_send
    (s : State ι μ)
    (w : Write)
    (returns : Bool) :
    (s.send w returns).replicas = s.replicas := by
  unfold State.send
  split
  · exact replicas_apply s w
  · rfl

variable [DecidableEq ι] [DecidableEq μ]

omit [DecidableEq ι] in
theorem replicas_claimNext
    (s : State ι μ)
    (m : μ)
    (key value : String)
    (rest : List (String × String))
    (returns : Bool) :
    (s.claimNext m key value rest returns).replicas =
      s.replicas := by
  unfold State.claimNext
  split
  · rfl
  · split
    · exact replicas_send s _ _
    · split
      · exact replicas_apply s _
      · rfl

/- What a step does to the replicas: to at most one. -/
inductive Turns
    (s : State ι μ)
    (act : Act ι μ) : (ι → Replica) → Prop where
  | same
      (hStays : ∀ j, stepsDown act j = false) :
      Turns s act s.replicas
  | turn
      {i : ι} {r : Replica}
      (hLeads :
        r.leader = true →
          act = .elected i ∨
            (s.replicas i).leader = true ∧
              stepsDown act i = false)
      (hStays : ∀ j, j ≠ i → stepsDown act j = false) :
      Turns s act (Function.update s.replicas i r)

variable {room : ι → String}
variable {s t : State ι μ}

theorem turns_of_step
    {act : Act ι μ}
    (hStep : step room s act = some t) :
    Turns s act t.replicas := by
  cases steps_of_step hStep with
  | list _ => exact .same (fun _ => rfl)
  | claim _ =>
      rw [replicas_claimNext]
      exact .same (fun _ => rfl)
  | assign _ => exact .same (fun _ => rfl)
  | giveBack _ =>
      simp only [State.setMatchmaker, replicas_send]
      exact .same (fun _ => rfl)
  | crashMatchmaker => exact .same (fun _ => rfl)
  | start _ =>
      simp only [State.setReplica, replicas_send]
      exact
        .turn (fun hLeads => by cases hLeads)
          (fun _ _ => rfl)
  | elected _ =>
      exact .turn (fun _ => Or.inl rfl) (fun _ _ => rfl)
  | lost =>
      exact
        .turn (fun hLeads => by cases hLeads)
          (fun _ _ => rfl)
  | endMatch _ =>
      exact
        .turn (fun hLeads => Or.inr ⟨hLeads, rfl⟩)
          (fun _ _ => rfl)
  | returnRoom _ =>
      simp only [State.setReplica, replicas_send]
      exact
        .turn (fun hLeads => Or.inr ⟨hLeads, rfl⟩)
          (fun _ _ => rfl)
  | stop _ =>
      exact
        .turn (fun hLeads => Or.inr ⟨hLeads, rfl⟩)
          (fun _ _ => rfl)
  | removeRoom _ _ =>
      simp only [State.setReplica, replicas_send]
      refine .turn (fun hLeads => by cases hLeads) ?_
      intro j hOther
      simp [stepsDown, Ne.symm hOther]
  | cleanup _ _ =>
      refine .turn (fun hLeads => by cases hLeads) ?_
      intro j hOther
      simp [stepsDown, Ne.symm hOther]
  | crash =>
      exact
        .turn (fun hLeads => by cases hLeads)
          (fun _ _ => rfl)
  | land _ =>
      rw [replicas_apply]
      exact .same (fun _ => rfl)

/- Who leads after a step was elected in it or led before. -/
theorem leader_of_step
    {act : Act ι μ}
    (hStep : step room s act = some t)
    {j : ι}
    (hLeads : (t.replicas j).leader = true) :
    act = .elected j ∨
      (s.replicas j).leader = true ∧
        stepsDown act j = false := by
  generalize hReplicas : t.replicas = replicas at hLeads
  have hTurns := turns_of_step hStep
  rw [hReplicas] at hTurns
  cases hTurns with
  | same hStays => exact Or.inr ⟨hLeads, hStays j⟩
  | @turn i r hLeader hStays =>
      by_cases hThis : j = i
      · subst hThis
        rw [Function.update_self] at hLeads
        exact hLeader hLeads
      · rw [Function.update_of_ne hThis] at hLeads
        exact Or.inr ⟨hLeads, hStays j hThis⟩

end RoomPool

------------------------------------------------------------
-- Idle Rooms
------------------------------------------------------------

namespace RoomPool

open Machine

variable {ι μ : Type} [DecidableEq ι] [DecidableEq μ]
variable {room : ι → String}

/- The pool after a step. -/
def poolAfter
    {ι μ : Type}
    (room : ι → String)
    (s : State ι μ)
    (act : Act ι μ) : String → Option String :=
  match claimedKey s act, effect room s act with
  | some key, _ => Function.update s.pool key (some "in-use")
  | none, some w => (s.apply w).pool
  | none, none => s.pool

omit [DecidableEq ι] [DecidableEq μ] in
/- A call that writes if it returns. -/
theorem pool_of_send
    {s u : State ι μ}
    {act : Act ι μ}
    {w : Write}
    {returns : Bool}
    (hClaims : claimedKey s act = none)
    (hEffect :
      effect room s act = if returns then some w else none)
    (hPool : u.pool = (s.send w returns).pool) :
    u.pool = poolAfter room s act := by
  rw [hPool, poolAfter, hClaims, hEffect]
  cases returns <;> rfl

omit [DecidableEq ι] in
theorem pool_claimNext
    {s : State ι μ}
    {m : μ}
    {key value : String}
    {rest : List (String × String)}
    (hClaiming :
      s.matchmakers m = .claiming ((key, value) :: rest))
    (returns : Bool) :
    (s.claimNext m key value rest returns).pool =
      poolAfter room s (.claim m returns) := by
  cases returns with
  | false =>
      unfold State.claimNext
      split <;> rfl
  | true =>
      unfold State.claimNext
      by_cases hListed : value = "available"
      · by_cases hFree : s.pool key = some "available"
        · simp [poolAfter, claimedKey, hClaiming, hListed,
            hFree, State.apply, State.setMatchmaker]
        · simp [poolAfter, claimedKey, hClaiming, hListed,
            hFree, effect, State.setMatchmaker]
      · simp [poolAfter, claimedKey, hClaiming, hListed,
          effect, State.setMatchmaker]

theorem pool_of_step
    {s t : State ι μ}
    {act : Act ι μ}
    (hStep : step room s act = some t) :
    t.pool = poolAfter room s act := by
  cases steps_of_step hStep with
  | @claim m key value rest returns hClaiming =>
      exact pool_claimNext hClaiming returns
  | @giveBack m claim r returns hAssigning =>
      refine
        pool_of_send (w := .register r (some claim)) rfl ?_ rfl
      cases returns <;> simp [effect, hAssigning]
  | @start i returns _ =>
      refine
        pool_of_send (w := .register (room i) none) rfl ?_ rfl
      cases returns <;> rfl
  | @returnRoom i returns _ =>
      refine
        pool_of_send (w := .register (room i) none) rfl ?_ rfl
      cases returns <;> rfl
  | @removeRoom i returns _ hLeader =>
      refine pool_of_send (w := .remove (room i)) rfl ?_ rfl
      cases returns <;> simp [effect, hLeader]
  | @cleanup i returns _ hLeader =>
      cases returns <;>
        simp [poolAfter, claimedKey, effect, hLeader,
          State.setReplica]
  | @land k w hFlight =>
      have hClaims :
          claimedKey s (.land k : Act ι μ) = none := rfl
      have hEffect : effect room s (.land k) = some w := hFlight
      rw [poolAfter, hClaims, hEffect]
      cases w with
      | register r givesBack => rfl
      | flip r =>
          simp only [State.apply]
          split <;> rfl
      | remove r => rfl
  | _ => rfl

omit [DecidableEq μ] in
/- An idle room that is led on stays in the pool. -/
theorem available_of_ledAfter
    {s : State ι μ × (String → Bool)}
    {t : State ι μ}
    {act : Act ι μ}
    {r : String}
    (hWas :
      s.2 r = false → s.1.pool r = some "available")
    (hLed : LedAfter room s.1 act r)
    (hSpares :
      ∀ w ∈ effect room s.1 act,
        w.SparesIdle s.1.pool s.2 (LedAfter room s.1 act))
    (hIdle : noteClaims room s.1 act t s.2 r = false) :
    poolAfter room s.1 act r = some "available" := by
  unfold noteClaims at hIdle
  unfold poolAfter
  cases hClaims : claimedKey s.1 act with
  | some key =>
      rw [hClaims] at hIdle
      simp only at hIdle ⊢
      by_cases hSame : r = key
      · rw [hSame, Function.update_self] at hIdle
        cases hIdle
      · rw [Function.update_of_ne hSame] at hIdle ⊢
        exact hWas hIdle
  | none =>
      rw [hClaims] at hIdle
      cases hEffect : effect room s.1 act with
      | none =>
          rw [hEffect] at hIdle
          exact hWas hIdle
      | some w =>
          rw [hEffect] at hIdle
          have hSpared := hSpares w hEffect
          cases w with
          | register r' givesBack =>
              simp only [State.apply] at hIdle ⊢
              by_cases hSame : r = r'
              · rw [hSame, Function.update_self]
              · rw [Function.update_of_ne hSame] at hIdle ⊢
                exact hWas hIdle
          | flip r' =>
              have hFree := hWas hIdle
              simp only [State.apply]
              split
              · rename_i hTaken
                have hSame : r ≠ r' := by
                  rintro rfl
                  exact hSpared hTaken hLed
                simp only [Function.update_of_ne hSame]
                exact hFree
              · exact hFree
          | remove r' =>
              have hUnclaimed : s.2 r = false := hIdle
              have hFree := hWas hUnclaimed
              have hSame : r ≠ r' := by
                rintro rfl
                rcases hSpared with hClaimed | hUnled
                · rw [hUnclaimed] at hClaimed
                  cases hClaimed
                · exact hUnled hLed
              simp only [State.apply,
                Function.update_of_ne hSame]
              exact hFree

/- Every step that keeps idle rooms claimable does so. -/
theorem claimable_step
    {s t : State ι μ × (String → Bool)}
    {act : Act ι μ}
    (hClaimable : Claimable room s)
    (hKeeps : KeepsClaimable room s act)
    (hStep :
      observe (step room) (noteClaims room) s act = some t) :
    Claimable room t := by
  rcases observe_eq_some_iff.mp hStep with ⟨hPool, hNote⟩
  intro j hLeads hIdle
  rw [hNote] at hIdle
  rw [pool_of_step hPool]
  rcases leader_of_step hPool hLeads with
    rfl | ⟨hLed, hStays⟩
  · rcases hKeeps.1 with hFree | hClaimed
    · exact hFree
    · have hUnclaimed : s.2 (room j) = false := hIdle
      rw [hUnclaimed] at hClaimed
      cases hClaimed
  · exact
      available_of_ledAfter (hClaimable j hLed)
        ⟨j, rfl, hLed, hStays⟩ hKeeps.2 hIdle

/-
  A room that is led and that no lobby has claimed since its
  last registration can be claimed, in every run in which new
  leaders find their room registered or claimed, and nobody
  takes the key of an idle room that is led.
-/
theorem idle_room_claimable
    {s : State ι μ × (String → Bool)}
    (hRun :
      Reaches (observe (step room) (noteClaims room))
        (KeepsClaimable room)
        (State.empty, fun _ => false) s)
    {i : ι}
    (hLeads : (s.1.replicas i).leader = true)
    (hIdle : s.2 (room i) = false) :
    s.1.pool (room i) = some "available" := by
  have hClaimable : Claimable room s :=
    hRun.invariant nofun
      (fun hClaimable hKeeps hStep =>
        claimable_step hClaimable hKeeps hStep)
  exact hClaimable i hLeads hIdle

/- Two replicas of one room. -/
def twoReplicas (_ : Fin 2) : String := "room-1"

def first : Fin 2 := ⟨0, Nat.two_pos⟩

def standby : Fin 2 := ⟨1, Nat.one_lt_two⟩

/-
  A match is played, and after it the standby takes over from
  a leader that has died.
-/
def standbyLeads : State (Fin 2) Nat × (String → Bool) :=
  final (observe (step twoReplicas) (noteClaims twoReplicas))
    (State.empty, fun _ => false)
    [.start first true, .start standby true, .elected first,
      .list 0 ["room-1"], .claim 0 true, .assign 0 true true,
      .endMatch first, .returnRoom first true, .crash first,
      .elected standby]
    (by decide +kernel)

theorem idle_room_claimable_standbyLeads :
    (standbyLeads.1.replicas standby).leader = true ∧
      standbyLeads.1.pool "room-1" = some "available" := by
  have hRun :
      Reaches
        (observe (step twoReplicas) (noteClaims twoReplicas))
        (KeepsClaimable twoReplicas)
        (State.empty, fun _ => false) standbyLeads :=
    reaches_of_run (run_eq_final (by decide +kernel))
      (by decide +kernel)
  have hLeads :
      (standbyLeads.1.replicas standby).leader = true := by
    decide +kernel
  exact
    ⟨hLeads,
      idle_room_claimable hRun hLeads (by decide +kernel)⟩

/- The leader steps down, and the standby takes over. -/
def standbyAfterStop :
    State (Fin 2) Nat × (String → Bool) :=
  final (observe (step twoReplicas) (noteClaims twoReplicas))
    (State.empty, fun _ => false)
    [.start first true, .start standby true, .elected first,
      .stop first, .cleanup first true, .elected standby]
    (by decide +kernel)

/- The room is led and idle, but not in the pool. -/
theorem idle_room_missing :
    Reachable
        (observe (step twoReplicas) (noteClaims twoReplicas))
        (State.empty, fun _ => false) standbyAfterStop ∧
      (standbyAfterStop.1.replicas standby).leader = true ∧
        standbyAfterStop.2 "room-1" = false ∧
          standbyAfterStop.1.pool "room-1" = none := by
  refine
    ⟨reachable_of_run (run_eq_final (by decide +kernel)),
      ?_, ?_, ?_⟩ <;>
    decide +kernel

end RoomPool
