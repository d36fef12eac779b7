import MultiplayerInfra.RoomPool.Machine
import MultiplayerInfra.Machine.History
import MultiplayerInfra.Machine.Run

/-
  Any number of callers of `claim_available_room` over one
  pool, with registrations and removals of anyone.

  Key definitions include:
    * `RoomPool.Claimers.State`
    * `RoomPool.Claimers.step`
    * `RoomPool.Claimers.OncePerRegistration`
    * `RoomPool.Claimers.LeavesOthers`
    * `RoomPool.Claimers.FlipsOwnKey`

  Key theorems include:
    * `RoomPool.Claimers.steps_of_step`
    * `RoomPool.Claimers.careful_step`
    * `RoomPool.Claimers.handed_once_per_registration`

  A listing may be stale by the time its keys are tried, but
  the transaction compares the value that the key has then.
-/

------------------------------------------------------------
-- Callers
------------------------------------------------------------

namespace RoomPool

namespace Claimers

/- A call of `claim_available_room` after its listing. -/
structure Call where
  -- the listed keys and values that are still to be tried
  entries : List (String × String)
  -- the keys that its transactions have changed
  changed : List String
deriving DecidableEq

inductive Event where
  -- a call returned a room or `None`
  | returned (changed : List String) (room : Option String)
  -- `register_room`
  | registered (room : String)
  -- `remove_room`
  | removed (room : String)
deriving DecidableEq

/- Callers `κ` over one pool. -/
structure State (κ : Type) where
  -- the keys under `/rooms/available/`
  pool : String → Option String
  calls : κ → Option Call
  history : List Event

inductive Act (κ : Type) where
  -- `get_prefix`, which lists these keys
  | read (c : κ) (keys : List String)
  -- the next listed key is tried, or the list is at its end
  | next (c : κ) (raises : Bool)
  -- the call raises outside its transactions, or is killed
  | abort (c : κ)
  | register (room : String)
  | remove (room : String)

variable {κ : Type}

/- Nobody calls yet; the pool may hold anything. -/
def State.start
    (pool : String → Option String) : State κ where
  pool := pool
  calls := fun _ => none
  history := []

variable [DecidableEq κ]

def State.setCall
    (s : State κ)
    (c : κ)
    (call : Option Call) : State κ :=
  { s with calls := Function.update s.calls c call }

/- The transaction on a key that was listed as available. -/
def State.tryKey
    (s : State κ)
    (c : κ)
    (call : Call)
    (key : String) : State κ :=
  if s.pool key = some "available" then
    State.setCall
      { s with
        pool := Function.update s.pool key (some "in-use")
        history :=
          s.history ++
            [.returned (call.changed ++ [key])
              (some (roomIdOf key))] }
      c none
  else s.setCall c (some call)

/-
  One step.  A transaction that raises has not taken effect,
  and one on a missing key fails.
-/
def step
    (s : State κ) : Act κ → Option (State κ)
| .read c keys =>
    if s.calls c = none then
      some (s.setCall c (some {
        entries := keys.filterMap (fun key =>
          (s.pool key).map (fun value => (key, value)))
        changed := [] }))
    else none
| .next c raises =>
    match s.calls c with
    | none => none
    | some { entries := [], changed } =>
        some (State.setCall
          { s with
            history := s.history ++ [.returned changed none] }
          c none)
    | some { entries := (key, value) :: rest, changed } =>
        let call : Call := ⟨rest, changed⟩
        some
          (if value ≠ "available" ∨ raises = true then
            s.setCall c (some call)
          else s.tryKey c call key)
| .abort c => some (s.setCall c none)
| .register room =>
    some { s with
      pool := Function.update s.pool room (some "available")
      history := s.history ++ [.registered room] }
| .remove room =>
    some { s with
      pool := Function.update s.pool room none
      history := s.history ++ [.removed room] }

/- What a step does to the pool, the calls and the history. -/
inductive Steps
    (s : State κ) : Act κ → State κ → Prop where
  -- only the call goes on, with nothing changed by it
  | moves
      {act : Act κ} {c : κ} {call : Option Call}
      (hChanged :
        ∀ call' ∈ call, call'.changed = [] ∨
          ∃ before ∈ s.calls c,
            call'.changed = before.changed) :
      Steps s act (s.setCall c call)
  | returns
      {c : κ} {raises : Bool} {changed : List String}
      (hCall : s.calls c = some ⟨[], changed⟩) :
      Steps s (.next c raises)
        (State.setCall
          { s with
            history := s.history ++ [.returned changed none] }
          c none)
  | claims
      {c : κ} {key value : String}
      {rest : List (String × String)}
      {changed : List String}
      (hCall :
        s.calls c = some ⟨(key, value) :: rest, changed⟩)
      (hListed : value = "available")
      (hFree : s.pool key = some "available") :
      Steps s (.next c false)
        (State.setCall
          { s with
            pool :=
              Function.update s.pool key (some "in-use")
            history :=
              s.history ++
                [.returned (changed ++ [key])
                  (some (roomIdOf key))] }
          c none)
  | register {room : String} :
      Steps s (.register room)
        { s with
          pool :=
            Function.update s.pool room (some "available")
          history := s.history ++ [.registered room] }
  | remove {room : String} :
      Steps s (.remove room)
        { s with
          pool := Function.update s.pool room none
          history := s.history ++ [.removed room] }

/- Every step of the function is one of these. -/
theorem steps_of_step
    {s t : State κ}
    {act : Act κ}
    (hStep : step s act = some t) :
    Steps s act t := by
  cases act with
  | read c keys =>
      simp only [step] at hStep
      split at hStep
      · cases hStep
        refine .moves ?_
        intro call' hCall
        cases hCall
        exact .inl rfl
      · cases hStep
  | next c raises =>
      simp only [step] at hStep
      split at hStep
      · cases hStep
      · rename_i changed hCall
        cases hStep
        exact .returns hCall
      · rename_i key value rest changed hCall
        cases hStep
        have hStays :
            ∀ call' ∈ some (⟨rest, changed⟩ : Call),
              call'.changed = [] ∨
                ∃ before ∈ s.calls c,
                  call'.changed = before.changed := by
          intro call' hSome
          cases hSome
          exact .inr ⟨_, hCall, rfl⟩
        split
        · exact .moves hStays
        · rename_i hTried
          rw [not_or, not_not] at hTried
          have hRaises : raises = false := by
            simpa using hTried.2
          subst hRaises
          unfold State.tryKey
          split
          · exact .claims hCall hTried.1 ‹_›
          · exact .moves hStays
  | abort c =>
      cases hStep
      exact .moves (fun _ hNone => by cases hNone)
  | register room =>
      cases hStep
      exact .register
  | remove room =>
      cases hStep
      exact .remove

end Claimers

end RoomPool

------------------------------------------------------------
-- One Claim for Each Registration
------------------------------------------------------------

namespace RoomPool

namespace Claimers

open History (AtEach atEach_nil)

/-
  Between two successful claims of one room the room was
  registered.
-/
def OncePerRegistration (history : List Event) : Prop :=
  ∀ h₁ h₂ h₃ changed changed' room,
    history =
        h₁ ++ .returned changed (some room) ::
          (h₂ ++ .returned changed' (some room) :: h₃) →
      .registered room ∈ h₂

/-
  A call that returns `None` or another room has not changed
  the key of the room.
-/
def LeavesOthers (history : List Event) : Prop :=
  ∀ changed result,
    .returned changed result ∈ history →
      ∀ room, result ≠ some room → room ∉ changed

/- The room was registered since it was last claimed. -/
def Registered
    (room : String)
    (history : List Event) : Prop :=
  ∀ h₁ h₂ changed,
    history = h₁ ++ .returned changed (some room) :: h₂ →
      .registered room ∈ h₂

theorem Registered.concat
    {room : String}
    {history : List Event}
    {e : Event}
    (hRegistered : Registered room history)
    (hNot : ∀ changed, e ≠ .returned changed (some room)) :
    Registered room (history ++ [e]) := by
  intro h₁ h₂ changed hSplit
  rcases List.eq_nil_or_concat h₂ with
    rfl | ⟨h₃, last, rfl⟩
  · have hLast := (List.append_inj' hSplit rfl).2
    cases hLast
    exact absurd rfl (hNot changed)
  · have hInit :
        history =
          h₁ ++ .returned changed (some room) :: h₃ := by
      have hEnds :
          history ++ [e] =
            (h₁ ++ .returned changed (some room) :: h₃) ++
              [last] := by
        rw [hSplit]
        simp
      exact (List.append_inj' hEnds rfl).1
    rw [List.concat_eq_append]
    exact
      List.mem_append_left _ (hRegistered h₁ h₃ changed hInit)

/- A registration counts for every claim before it. -/
theorem registered_concat
    (room : String)
    (history : List Event) :
    Registered room (history ++ [.registered room]) := by
  intro h₁ h₂ changed hSplit
  rcases List.eq_nil_or_concat h₂ with
    rfl | ⟨h₃, last, rfl⟩
  · have hLast := (List.append_inj' hSplit rfl).2
    cases hLast
  · have hEnds :
        history ++ [.registered room] =
          (h₁ ++ .returned changed (some room) :: h₃) ++
            [last] := by
      rw [hSplit]
      simp
    have hLast := (List.append_inj' hEnds rfl).2
    cases hLast
    simp

variable {κ : Type}

/-
  A transaction that finds its key available is on the key of
  a room id without '/'.
-/
def FlipsOwnKey
    (s : State κ) : Act κ → Prop
| .next c false =>
    match s.calls c with
    | some ⟨(key, value) :: _, _⟩ =>
        value = "available" → s.pool key = some "available" →
          roomIdOf key = key
    | _ => True
| _ => True

instance decidableFlipsOwnKey
    (s : State κ)
    (act : Act κ) :
    Decidable (FlipsOwnKey s act) :=
  match act with
  | .next c false =>
      match h : s.calls c with
      | some ⟨(key, value) :: _, _⟩ =>
          decidable_of_iff
            (value = "available" →
              s.pool key = some "available" →
                roomIdOf key = key) (by
            simp [FlipsOwnKey, h])
      | some ⟨[], _⟩ =>
          isTrue (by simp [FlipsOwnKey, h])
      | none => isTrue (by simp [FlipsOwnKey, h])
  | .next _ true | .read _ _ | .abort _ | .register _
  | .remove _ => isTrue trivial

/-
  An available room was registered since it was last claimed,
  and so was every claimed one; no call under way has changed
  a key yet.
-/
structure Careful (s : State κ) : Prop where
  idle :
    ∀ room, s.pool room = some "available" →
      Registered room s.history
  claims :
    AtEach
      (fun before e =>
        ∀ changed room,
          e = .returned changed (some room) →
            Registered room before)
      s.history
  clean : ∀ c call, s.calls c = some call → call.changed = []
  returns : LeavesOthers s.history

theorem careful_start
    (pool : String → Option String) :
    Careful (State.start pool : State κ) where
  idle := by
    intro room _ h₁ h₂ changed hSplit
    exact absurd hSplit (by simp [State.start])
  claims := atEach_nil _
  clean := by
    intro c call hCall
    cases hCall
  returns := by
    intro changed result hMem
    cases hMem

theorem LeavesOthers.concat
    {history : List Event}
    {e : Event}
    (hLeaves : LeavesOthers history)
    (hNew :
      ∀ changed result,
        e = .returned changed result →
          ∀ room, result ≠ some room → room ∉ changed) :
    LeavesOthers (history ++ [e]) := by
  intro changed result hMem
  rcases List.mem_append.mp hMem with hOld | hLast
  · exact hLeaves changed result hOld
  · rw [List.mem_singleton] at hLast
    exact hNew changed result hLast.symm

variable [DecidableEq κ]

theorem Careful.setCall
    {s : State κ}
    {c : κ}
    {call : Option Call}
    (hCareful : Careful s)
    (hChanged : ∀ call' ∈ call, call'.changed = []) :
    Careful (s.setCall c call) where
  idle := hCareful.idle
  claims := hCareful.claims
  clean := by
    intro c' call' hCall
    simp only [State.setCall] at hCall
    by_cases hSame : c' = c
    · subst hSame
      rw [Function.update_self] at hCall
      exact hChanged call' hCall
    · rw [Function.update_of_ne hSame] at hCall
      exact hCareful.clean c' call' hCall
  returns := hCareful.returns

omit [DecidableEq κ] in
/- A call returns `None`. -/
theorem Careful.returnsNone
    {s : State κ}
    (hCareful : Careful s) :
    Careful
      { s with
        history := s.history ++ [.returned [] none] } where
  idle := by
    intro room hFree
    exact
      (hCareful.idle room hFree).concat
        (fun _ hEq => by cases hEq)
  claims :=
    hCareful.claims.concat (fun _ _ hEq => by cases hEq)
  clean := hCareful.clean
  returns := by
    apply hCareful.returns.concat
    rintro changed result hEq room -
    cases hEq
    exact List.not_mem_nil

omit [DecidableEq κ] in
/- An available room is claimed under its own key. -/
theorem Careful.claim
    {s : State κ}
    {room : String}
    (hCareful : Careful s)
    (hFree : s.pool room = some "available") :
    Careful
      { s with
        pool := Function.update s.pool room (some "in-use")
        history :=
          s.history ++ [.returned [room] (some room)] } where
  idle := by
    intro room' hFree'
    by_cases hSame : room' = room
    · subst hSame
      simp only [Function.update_self] at hFree'
      exact absurd hFree' (by decide)
    · simp only [Function.update_of_ne hSame] at hFree'
      apply (hCareful.idle room' hFree').concat
      intro _ hEq
      cases hEq
      exact hSame rfl
  claims := by
    apply hCareful.claims.concat
    intro _ room' hEq
    cases hEq
    exact hCareful.idle room hFree
  clean := hCareful.clean
  returns := by
    apply hCareful.returns.concat
    intro changed result hEq room' hNot hMem
    cases hEq
    rw [List.mem_singleton] at hMem
    exact hNot (by rw [hMem])

omit [DecidableEq κ] in
/- Registrations and removals are no claims. -/
theorem Careful.write
    {s : State κ}
    {room : String}
    {value : Option String}
    {e : Event}
    (hCareful : Careful s)
    (hEvent :
      e = .registered room ∨ e = .removed room ∧ value = none) :
    Careful
      { s with
        pool := Function.update s.pool room value
        history := s.history ++ [e] } := by
  have hNoClaim :
      ∀ changed result, e ≠ .returned changed result := by
    rintro changed result rfl
    rcases hEvent with hEq | ⟨hEq, _⟩ <;> cases hEq
  refine
    ⟨?_, hCareful.claims.concat ?_, hCareful.clean,
      hCareful.returns.concat ?_⟩
  · intro room' hFree
    by_cases hSame : room' = room
    · subst hSame
      rcases hEvent with rfl | ⟨_, rfl⟩
      · exact registered_concat _ _
      · simp only [Function.update_self] at hFree
        cases hFree
    · simp only [Function.update_of_ne hSame] at hFree
      exact
        (hCareful.idle room' hFree).concat
          (fun changed => hNoClaim changed (some room'))
  · intro changed room' hEq
    exact absurd hEq (hNoClaim changed (some room'))
  · intro changed result hEq
    exact absurd hEq (hNoClaim changed result)

theorem careful_step
    {s t : State κ}
    {act : Act κ}
    (hCareful : Careful s)
    (hOwn : FlipsOwnKey s act)
    (hStep : step s act = some t) :
    Careful t := by
  cases steps_of_step hStep with
  | @moves _ c call hChanged =>
      apply hCareful.setCall
      intro call' hCall
      rcases hChanged call' hCall with
        hNone | ⟨before, hBefore, hKept⟩
      · exact hNone
      · rw [hKept]
        exact hCareful.clean c before hBefore
  | @returns c raises changed hCall =>
      have hNothing : changed = [] :=
        hCareful.clean c _ hCall
      subst hNothing
      exact hCareful.returnsNone.setCall nofun
  | @claims c key value rest changed hCall hListed hFree =>
      have hRoom : roomIdOf key = key := by
        simp only [FlipsOwnKey, hCall] at hOwn
        exact hOwn hListed hFree
      have hNothing : changed = [] :=
        hCareful.clean c _ hCall
      subst hNothing
      rw [hRoom]
      exact (hCareful.claim hFree).setCall nofun
  | register => exact hCareful.write (.inl rfl)
  | remove => exact hCareful.write (.inr ⟨rfl, rfl⟩)

/-
  Whatever the callers, the registrations and the removals
  do, a room is handed out once for each registration, and
  nothing else is changed by a call.
-/
theorem handed_once_per_registration
    (pool : String → Option String)
    (s : State κ)
    (hRun :
      Machine.Reaches step FlipsOwnKey (State.start pool) s) :
    OncePerRegistration s.history ∧
      LeavesOthers s.history := by
  have hCareful : Careful s :=
    hRun.invariant (careful_start pool) careful_step
  refine ⟨?_, hCareful.returns⟩
  intro h₁ h₂ h₃ changed changed' room hHistory
  have hBefore :
      Registered room
        (h₁ ++ .returned changed (some room) :: h₂) :=
    hCareful.claims _ (.returned changed' (some room)) h₃
      (by rw [hHistory]; simp) changed' room rfl
  exact hBefore h₁ h₂ changed rfl

end Claimers

end RoomPool

------------------------------------------------------------
-- Two Rooms That Share a Last Part
------------------------------------------------------------

namespace RoomPool

namespace Claimers

/- A stale listing does not hand the room out again. -/
def staleListing : List (Act Nat) :=
  [.register "room-1", .read 0 ["room-1"],
    .read 1 ["room-1"], .next 0 false, .next 1 false,
    .next 1 false, .register "room-1", .read 2 ["room-1"],
    .next 2 true, .next 2 false, .read 3 ["room-1"],
    .next 3 false]

theorem handed_once_per_registration_staleListing :
    (Machine.final step (State.start fun _ => none)
        staleListing rfl).history =
      [.registered "room-1",
        .returned ["room-1"] (some "room-1"),
        .returned [] none,
        .registered "room-1",
        .returned [] none,
        .returned ["room-1"] (some "room-1")] ∧
      OncePerRegistration
        (Machine.final step (State.start fun _ => none)
          staleListing rfl).history ∧
      LeavesOthers
        (Machine.final step (State.start fun _ => none)
          staleListing rfl).history :=
  ⟨by decide,
    handed_once_per_registration (fun _ => none) _
      (Machine.reaches_of_run (Machine.run_eq_final rfl)
        (by decide))⟩

/- Both rooms are handed out as `room-1`. -/
def sharedLastPart : List (Act Nat) :=
  [.register "room-1", .register "eu/room-1",
    .read 0 ["eu/room-1", "room-1"], .next 0 false,
    .read 1 ["eu/room-1", "room-1"], .next 1 false,
    .next 1 false]

theorem room_handed_twice :
    Machine.Reachable step
        (State.start fun _ => none : State Nat)
        (Machine.final step (State.start fun _ => none)
          sharedLastPart rfl) ∧
      ¬ (OncePerRegistration
            (Machine.final step (State.start fun _ => none)
              sharedLastPart rfl).history ∧
          LeavesOthers
            (Machine.final step (State.start fun _ => none)
              sharedLastPart rfl).history) := by
  refine
    ⟨Machine.reachable_of_run (Machine.run_eq_final rfl), ?_⟩
  rintro ⟨hOnce, -⟩
  have hHistory :
      (Machine.final step
          (State.start fun _ => none : State Nat)
          sharedLastPart rfl).history =
        [.registered "room-1", .registered "eu/room-1"] ++
          .returned ["eu/room-1"] (some "room-1") ::
            ([] ++
              .returned ["room-1"] (some "room-1") ::
                []) := by
    decide
  have hBetween := hOnce _ _ _ _ _ _ hHistory
  cases hBetween

end Claimers

end RoomPool
