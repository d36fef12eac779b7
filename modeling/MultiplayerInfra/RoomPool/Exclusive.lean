import MultiplayerInfra.RoomPool.Machine
import MultiplayerInfra.Machine.History
import MultiplayerInfra.Machine.Run

/-
  A claimed room is not claimed again while its match lasts.

  Key definitions include:
    * `RoomPool.outstanding`
    * `RoomPool.effect`
    * `RoomPool.PutsIdle`
    * `RoomPool.Orderly`
    * `RoomPool.Changes`
    * `RoomPool.ClaimedUntilEnded`
    * `RoomPool.Exclusive`

  Key theorems include:
    * `RoomPool.changes_of_step`
    * `RoomPool.exclusive_step`
    * `RoomPool.claimed_until_ended`

  The claim compares the value of the key.  The puts of
  'available' do not: one that takes effect while a claim is
  outstanding hands the room out a second time.
-/

------------------------------------------------------------
-- Outstanding Claims
------------------------------------------------------------

namespace RoomPool

/- The outstanding claims of a room after one more event. -/
def account
    (room : String)
    (claims : List Nat) : Event → List Nat
| .claimed claim r =>
    if r = room then claims ++ [claim] else claims
| .gaveBack claim => claims.filter (fun c => c ≠ claim)
| .ended r => if r = room then [] else claims

/-
  The claims of a room that were not given back and since
  which no `end_match` of the room has begun.
-/
def outstanding
    (room : String)
    (history : List Event) : List Nat :=
  history.foldl (account room) []

variable {room : String}
variable {h : List Event}

theorem outstanding_concat
    (room : String)
    (h : List Event)
    (e : Event) :
    outstanding room (h ++ [e]) =
      account room (outstanding room h) e := by
  rw [outstanding, List.foldl_append]
  rfl

theorem mem_outstanding_claimed
    (h : List Event)
    (claim : Nat) :
    claim ∈ outstanding room (h ++ [.claimed claim room]) := by
  rw [outstanding_concat]
  simp [account]

/- What keeps a claim outstanding. -/
theorem mem_outstanding_append
    {claim : Nat}
    (h' : List Event)
    (hMem : claim ∈ outstanding room h)
    (hKept : .gaveBack claim ∉ h')
    (hLasts : .ended room ∉ h') :
    claim ∈ outstanding room (h ++ h') := by
  induction h' using List.reverseRecOn with
  | nil =>
      rw [List.append_nil]
      exact hMem
  | append_singleton h' e ih =>
      rw [List.mem_append, not_or] at hKept hLasts
      have hPrior := ih hKept.1 hLasts.1
      rw [← List.append_assoc, outstanding_concat]
      cases e with
      | claimed c r =>
          simp only [account]
          split
          · exact List.mem_append_left _ hPrior
          · exact hPrior
      | gaveBack c =>
          have hNe : claim ≠ c := by
            rintro rfl
            exact hKept.2 (List.mem_singleton_self _)
          simpa [account, hNe] using hPrior
      | ended r =>
          have hNe : r ≠ room := by
            rintro rfl
            exact hLasts.2 (List.mem_singleton_self _)
          rw [account, if_neg hNe]
          exact hPrior

/- Giving back the only outstanding claim leaves none. -/
theorem outstanding_givesBack
    {givesBack : Option Nat}
    (hOnly :
      ∀ claim ∈ outstanding room h,
        givesBack = some claim) :
    outstanding room
        (h ++ (givesBack.map .gaveBack).toList) = [] := by
  cases givesBack with
  | none =>
      rw [Option.map_none, Option.toList_none,
        List.append_nil]
      apply List.eq_nil_iff_forall_not_mem.mpr
      intro claim hMem
      cases hOnly claim hMem
  | some c =>
      rw [Option.map_some, Option.toList_some,
        outstanding_concat, account,
        List.filter_eq_nil_iff]
      intro claim hMem
      cases hOnly claim hMem
      simp

/- A put never makes a claim outstanding. -/
theorem outstanding_givesBack_eq_nil
    (givesBack : Option Nat)
    (hNone : outstanding room h = []) :
    outstanding room
        (h ++ (givesBack.map .gaveBack).toList) = [] := by
  apply outstanding_givesBack
  rw [hNone]
  intro claim hMem
  cases hMem

end RoomPool

------------------------------------------------------------
-- The Condition
------------------------------------------------------------

namespace RoomPool

variable {ι μ : Type}

/-
  The write that takes effect in a step, other than that of
  a claim.
-/
def effect
    (room : ι → String)
    (s : State ι μ) : Act ι μ → Option Write
| .assign m false true =>
    match s.matchmakers m with
    | .assigning claim r => some (.register r (some claim))
    | _ => none
| .start i true => some (.register (room i) none)
| .returnRoom i true => some (.register (room i) none)
| .cleanup i true =>
    if (s.replicas i).leader then some (.remove (room i))
    else none
| .land k => s.flight[k]?
| _ => none

/- A put finds no outstanding claim but the given back one. -/
def Write.PutsIdle
    (history : List Event) : Write → Prop
| .register room givesBack =>
    ∀ claim ∈ outstanding room history,
      givesBack = some claim
| _ => True

instance
    (history : List Event) :
    (w : Write) → Decidable (w.PutsIdle history)
| .register room givesBack =>
    inferInstanceAs (Decidable
      (∀ claim ∈ outstanding room history,
        givesBack = some claim))
| .flip _ => inferInstanceAs (Decidable True)
| .remove _ => inferInstanceAs (Decidable True)

/- The same of the write that takes effect in a step. -/
def PutsIdle
    (room : ι → String)
    (s : State ι μ)
    (act : Act ι μ) : Prop :=
  ∀ w ∈ effect room s act, w.PutsIdle s.history

/- The key that is tried is that of a room without '/'. -/
def ClaimsOwnKey
    (s : State ι μ) : Act ι μ → Prop
| .claim m _ =>
    match s.matchmakers m with
    | .claiming ((key, _) :: _) => roomIdOf key = key
    | _ => True
| _ => True

/- The condition on a step. -/
def Orderly
    (room : ι → String)
    (s : State ι μ)
    (act : Act ι μ) : Prop :=
  PutsIdle room s act ∧ ClaimsOwnKey s act

instance decidablePutsIdle
    (room : ι → String)
    (s : State ι μ)
    (act : Act ι μ) :
    Decidable (PutsIdle room s act) :=
  match h : effect room s act with
  | none =>
      isTrue (by simp [PutsIdle, h])
  | some w =>
      decidable_of_iff (w.PutsIdle s.history) (by
        simp [PutsIdle, h])

instance decidableClaimsOwnKey
    (s : State ι μ)
    (act : Act ι μ) :
    Decidable (ClaimsOwnKey s act) :=
  match act with
  | .claim m _ =>
      match h : s.matchmakers m with
      | .claiming ((key, _) :: _) =>
          decidable_of_iff (roomIdOf key = key) (by
            simp [ClaimsOwnKey, h])
      | .claiming [] =>
          isTrue (by simp [ClaimsOwnKey, h])
      | .assigning _ _ =>
          isTrue (by simp [ClaimsOwnKey, h])
  | .list _ _ | .assign _ _ _ | .crashMatchmaker _
  | .start _ _ | .elected _ | .lost _ | .endMatch _
  | .returnRoom _ _ | .stop _ | .cleanup _ _ | .crash _
  | .land _ => isTrue trivial

instance
    (room : ι → String)
    (s : State ι μ)
    (act : Act ι μ) :
    Decidable (Orderly room s act) :=
  inferInstanceAs (Decidable
    (PutsIdle room s act ∧ ClaimsOwnKey s act))

end RoomPool

------------------------------------------------------------
-- What a Step Changes
------------------------------------------------------------

namespace RoomPool

variable {ι μ : Type}
variable {room : ι → String}

/- The pool and the history before and after a step. -/
inductive Changes
    (room : ι → String)
    (s : State ι μ)
    (act : Act ι μ)
    (t : State ι μ) : Prop where
  | same
      (hPool : t.pool = s.pool)
      (hHistory : t.history = s.history)
  | writes
      {w : Write}
      (hEffect : effect room s act = some w)
      (hPool : t.pool = (s.apply w).pool)
      (hHistory : t.history = (s.apply w).history)
  | claims
      {key : String}
      (hFree : s.pool key = some "available")
      (hOwn : ClaimsOwnKey s act → roomIdOf key = key)
      (hPool :
        t.pool =
          Function.update s.pool key (some "in-use"))
      (hHistory :
        t.history =
          s.history ++
            [.claimed s.history.length (roomIdOf key)])
  | ends
      {r : String}
      (hPool : t.pool = s.pool)
      (hHistory : t.history = s.history ++ [.ended r])

/- A call that writes `w`, and then changes only a party. -/
theorem changes_of_send
    {s t : State ι μ}
    {act : Act ι μ}
    {w : Write}
    {returns : Bool}
    (hEffect :
      returns = true → effect room s act = some w)
    (hPool : t.pool = (s.send w returns).pool)
    (hHistory : t.history = (s.send w returns).history) :
    Changes room s act t := by
  cases returns with
  | false => exact .same hPool hHistory
  | true => exact .writes (hEffect rfl) hPool hHistory

variable [DecidableEq ι] [DecidableEq μ]

omit [DecidableEq ι] in
theorem changes_claimNext
    (s : State ι μ)
    (act : Act ι μ)
    (m : μ)
    (key value : String)
    (rest : List (String × String))
    (returns : Bool)
    (hOwn : ClaimsOwnKey s act → roomIdOf key = key) :
    Changes room s act
      (s.claimNext m key value rest returns) := by
  unfold State.claimNext
  split
  · exact .same rfl rfl
  · split
    · exact .same rfl rfl
    · split
      · rename_i hFree
        refine .claims hFree hOwn ?_ rfl
        simp [State.setMatchmaker, State.apply, hFree]
      · exact .same rfl rfl

theorem changes_of_step
    {s t : State ι μ}
    {act : Act ι μ}
    (hStep : step room s act = some t) :
    Changes room s act t := by
  cases steps_of_step hStep with
  | claim hClaiming =>
      apply changes_claimNext
      intro hOwn
      simpa [ClaimsOwnKey, hClaiming] using hOwn
  | giveBack hAssigning =>
      refine changes_of_send ?_ rfl rfl
      rintro rfl
      simp [effect, hAssigning]
  | start _ =>
      refine changes_of_send ?_ rfl rfl
      rintro rfl
      rfl
  | endMatch _ => exact .ends rfl rfl
  | returnRoom _ =>
      refine changes_of_send ?_ rfl rfl
      rintro rfl
      rfl
  | removeRoom _ hLeader =>
      refine changes_of_send ?_ rfl rfl
      rintro rfl
      simp [effect, hLeader]
  | @land k w hFlight =>
      refine .writes hFlight ?_ ?_ <;>
        cases w <;>
          simp only [State.apply] <;> split <;> rfl
  | _ => exact .same rfl rfl

end RoomPool

------------------------------------------------------------
-- Exclusion
------------------------------------------------------------

namespace RoomPool

open History (AtEach atEach_nil)

/-
  Between two claims of a room, the first was given back or
  an `end_match` of the room has begun.
-/
def ClaimedUntilEnded (history : List Event) : Prop :=
  ∀ h₁ h₂ h₃ claim claim' room,
    history =
        h₁ ++ .claimed claim room ::
          (h₂ ++ .claimed claim' room :: h₃) →
      .gaveBack claim ∈ h₂ ∨ .ended room ∈ h₂

variable {ι μ : Type}
variable {room : ι → String}

/- An available room has no outstanding claim. -/
structure Exclusive (s : State ι μ) : Prop where
  idle :
    ∀ r, s.pool r = some "available" →
      outstanding r s.history = []
  claims :
    AtEach
      (fun before e =>
        ∀ claim r, e = .claimed claim r →
          outstanding r before = [])
      s.history

theorem exclusive_empty :
    Exclusive (State.empty : State ι μ) where
  idle := fun _ _ => rfl
  claims := atEach_nil _

/- What is available after a key was set to another value. -/
theorem available_of_update
    {pool : String → Option String}
    {r r' : String}
    {value : Option String}
    (hTaken : value ≠ some "available")
    (hFree :
      Function.update pool r value r' = some "available") :
    r' ≠ r ∧ pool r' = some "available" := by
  by_cases hEq : r' = r
  · subst hEq
    rw [Function.update_self] at hFree
    exact absurd hFree hTaken
  · rw [Function.update_of_ne hEq] at hFree
    exact ⟨hEq, hFree⟩

/- A step that makes no room available and is no event. -/
theorem Exclusive.of_taken
    {s t : State ι μ}
    (hExclusive : Exclusive s)
    (hPool :
      ∀ r, t.pool r = some "available" →
        s.pool r = some "available")
    (hHistory : t.history = s.history) :
    Exclusive t := by
  constructor
  · intro r hFree
    rw [hHistory]
    exact hExclusive.idle r (hPool r hFree)
  · rw [hHistory]
    exact hExclusive.claims

theorem exclusive_apply
    {s t : State ι μ}
    (w : Write)
    (hExclusive : Exclusive s)
    (hIdle : w.PutsIdle s.history)
    (hPool : t.pool = (s.apply w).pool)
    (hHistory : t.history = (s.apply w).history) :
    Exclusive t := by
  cases w with
  | register r givesBack =>
      have hHistory' :
          t.history =
            s.history ++
              (givesBack.map .gaveBack).toList := hHistory
      constructor
      · intro r' hFree
        rw [hHistory']
        by_cases hEq : r' = r
        · subst hEq
          exact outstanding_givesBack hIdle
        · rw [hPool] at hFree
          simp only [State.apply,
            Function.update_of_ne hEq] at hFree
          exact
            outstanding_givesBack_eq_nil givesBack
              (hExclusive.idle r' hFree)
      · rw [hHistory']
        refine hExclusive.claims.append_toList ?_
        intro e hNew claim r' hEq
        rcases Option.map_eq_some_iff.mp hNew with
          ⟨claim', _, rfl⟩
        cases hEq
  | flip r =>
      simp only [State.apply] at hPool hHistory
      split at hPool
      · rename_i hWas
        rw [if_pos hWas] at hHistory
        refine hExclusive.of_taken ?_ hHistory
        rw [hPool]
        exact fun _ hFree =>
          (available_of_update (by decide) hFree).2
      · rename_i hWas
        rw [if_neg hWas] at hHistory
        refine hExclusive.of_taken ?_ hHistory
        rw [hPool]
        exact fun _ hFree => hFree
  | remove r =>
      refine hExclusive.of_taken ?_ hHistory
      rw [hPool]
      exact fun _ hFree =>
        (available_of_update (by decide) hFree).2

variable [DecidableEq ι] [DecidableEq μ]

theorem exclusive_step
    {s t : State ι μ}
    {act : Act ι μ}
    (hExclusive : Exclusive s)
    (hOrderly : Orderly room s act)
    (hStep : step room s act = some t) :
    Exclusive t := by
  cases changes_of_step hStep with
  | same hPool hHistory =>
      refine hExclusive.of_taken ?_ hHistory
      rw [hPool]
      exact fun _ hFree => hFree
  | writes hEffect hPool hHistory =>
      exact
        exclusive_apply _ hExclusive
          (hOrderly.1 _ hEffect) hPool hHistory
  | @claims r hFree hOwn hPool hHistory =>
      rw [hOwn hOrderly.2] at hHistory
      constructor
      · intro r' hFree'
        rw [hPool] at hFree'
        rcases available_of_update (by decide) hFree' with
          ⟨hNe, hWas⟩
        rw [hHistory, outstanding_concat, account,
          if_neg (Ne.symm hNe)]
        exact hExclusive.idle r' hWas
      · rw [hHistory]
        apply hExclusive.claims.concat
        intro claim r' hEq
        cases hEq
        exact hExclusive.idle r hFree
  | ends hPool hHistory =>
      constructor
      · intro r' hFree
        rw [hPool] at hFree
        rw [hHistory, outstanding_concat, account,
          hExclusive.idle r' hFree]
        split <;> rfl
      · rw [hHistory]
        exact
          hExclusive.claims.concat
            (fun _ _ hEq => by cases hEq)

/-
  A claimed room stays claimed: before it is claimed again,
  it was given back or a match of it has ended.
-/
theorem claimed_until_ended
    (room : ι → String)
    (s : State ι μ)
    (hRun :
      Machine.Reaches (step room) (Orderly room)
        State.empty s) :
    ClaimedUntilEnded s.history := by
  have hExclusive : Exclusive s :=
    hRun.invariant exclusive_empty exclusive_step
  intro h₁ h₂ h₃ claim claim' r hHistory
  by_contra hNeither
  rw [not_or] at hNeither
  have hStill :
      claim ∈
        outstanding r (h₁ ++ [.claimed claim r] ++ h₂) :=
    mem_outstanding_append h₂
      (mem_outstanding_claimed h₁ claim)
      hNeither.1 hNeither.2
  have hNone :
      outstanding r (h₁ ++ [.claimed claim r] ++ h₂) = [] :=
    hExclusive.claims _ (.claimed claim' r) h₃
      (by simpa using hHistory) claim' r rfl
  rw [hNone] at hStill
  cases hStill

end RoomPool

------------------------------------------------------------
-- A Replica That Starts During a Match
------------------------------------------------------------

namespace RoomPool

/- Both replicas serve one room. -/
def oneRoom (_ : Nat) : String := "room-1"

/- A lobby is given the room and plays a match. -/
def firstMatch : List (Act Nat Nat) :=
  [.start 0 true, .elected 0, .list 0 ["room-1"],
    .claim 0 true, .assign 0 true true]

/- The match ends before the room is claimed again. -/
def nextMatch : List (Act Nat Nat) :=
  firstMatch ++
    [.endMatch 0, .returnRoom 0 true,
      .list 1 ["room-1"], .claim 1 true]

/- A second replica starts while the first one leads. -/
def secondReplica : List (Act Nat Nat) :=
  firstMatch ++
    [.start 1 true, .list 1 ["room-1"], .claim 1 true]

theorem claimed_until_ended_nextMatch :
    (Machine.final (step oneRoom) State.empty nextMatch
        rfl).history =
      [.claimed 0 "room-1", .ended "room-1",
        .claimed 2 "room-1"] ∧
    ClaimedUntilEnded
      (Machine.final (step oneRoom) State.empty nextMatch
        rfl).history :=
  ⟨by decide,
    claimed_until_ended oneRoom _
      (Machine.reaches_of_run (Machine.run_eq_final rfl)
        (by decide))⟩

theorem claimed_twice_in_a_match :
    Machine.Reachable (step oneRoom) State.empty
        (Machine.final (step oneRoom) State.empty
          secondReplica rfl) ∧
      ¬ ClaimedUntilEnded
        (Machine.final (step oneRoom) State.empty
          secondReplica rfl).history := by
  refine
    ⟨Machine.reachable_of_run (Machine.run_eq_final rfl), ?_⟩
  intro hUntil
  have hHistory :
      (Machine.final (step oneRoom) State.empty
          secondReplica rfl).history =
        [] ++ .claimed 0 "room-1" ::
          ([] ++ .claimed 1 "room-1" :: []) := by
    decide
  rcases hUntil _ _ _ _ _ _ hHistory with hMem | hMem
  · cases hMem
  · cases hMem

end RoomPool
