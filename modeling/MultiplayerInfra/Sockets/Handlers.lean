import MultiplayerInfra.Sockets.Endpoint

/-
  The kinds of steps of the sockets, and what always holds
  of the handlers and of the table that they share.

  Key definitions include:
    * `Sockets.Point.player?`
    * `Sockets.Point.joined?`
    * `Sockets.Moves`
    * `Sockets.Sound`

  Key theorems include:
    * `Sockets.moves_of_step`
    * `Sockets.sound_moves`
-/

------------------------------------------------------------
-- Points
------------------------------------------------------------

namespace Sockets

open Py GameRoom

variable {α : Type}

namespace Point

/- A socket that was not accepted for a player. -/
def outside : Point α → Bool
| .accepting => true
| .awaitingToken => true
| .validating _ => true
| .spectating => true
| _ => false

/- The player of a registered handler that still goes on. -/
def player? : Point α → Option String
| .lookingUp playerId _ => some playerId
| .clearing playerId _ => some playerId
| .receiving playerId => some playerId
| _ => none

/- The player of a handler behind its `add_player`. -/
def joined? : Point α → Option String
| .clearing playerId _ => some playerId
| .receiving playerId => some playerId
| _ => none

/- What a table entry says about the handler of its socket. -/
structure Entered
    (point : Point α)
    (playerId : String) : Prop where
  inside : point.outside = false
  own : ∀ q, point.player? = some q → q = playerId

theorem player?_of_joined?
    {point : Point α}
    {playerId : String}
    (hJoined : point.joined? = some playerId) :
    point.player? = some playerId := by
  cases point <;> first | exact hJoined | cases hJoined

theorem joined?_of_outside
    {point : Point α}
    (hOutside : point.outside = true) :
    point.joined? = none := by
  cases point <;> first | rfl | cases hOutside

theorem player?_of_outside
    {point : Point α}
    (hOutside : point.outside = true) :
    point.player? = none := by
  cases point <;> first | rfl | cases hOutside

/- A handler that goes on is entered under its player. -/
theorem entered_of_player?
    {point : Point α}
    {playerId : String}
    (hPlayer : point.player? = some playerId) :
    point.Entered playerId := by
  constructor
  · cases point <;> first | rfl | cases hPlayer
  · intro q hOther
    rw [hPlayer] at hOther
    exact (Option.some.inj hOther).symm

/- A handler that is done is entered under any name. -/
theorem entered_of_none
    {point : Point α}
    (hInside : point.outside = false)
    (hNone : point.player? = none)
    (playerId : String) :
    point.Entered playerId where
  inside := hInside
  own := by
    intro q hSome
    rw [hNone] at hSome
    cases hSome

end Point

end Sockets

------------------------------------------------------------
-- Fields of the Updates
------------------------------------------------------------

namespace Sockets

open Py GameRoom

namespace State

variable {α : Type}

@[simp] theorem handlers_setPoint_self
    (s : State α)
    (k : Nat)
    (point : Point α) :
    (s.setPoint k point).handlers k =
      { s.handlers k with point := point } :=
  Function.update_self _ _ _

theorem point_setPoint_self
    (s : State α)
    (k : Nat)
    (point : Point α) :
    ((s.setPoint k point).handlers k).point = point := by
  rw [handlers_setPoint_self]

@[simp] theorem loop_setPoint
    (s : State α)
    (j k : Nat)
    (point : Point α) :
    ((s.setPoint k point).handlers j).loop =
      (s.handlers j).loop := by
  by_cases hSame : j = k
  · subst hSame
    simp [setPoint, setHandler]
  · simp [setPoint, setHandler, hSame]

theorem handlers_setPoint_of_ne
    (s : State α)
    {j k : Nat}
    (hNe : j ≠ k)
    (point : Point α) :
    (s.setPoint k point).handlers j = s.handlers j :=
  Function.update_of_ne hNe _ _

@[simp] theorem point_farewell
    (s : State α)
    (j k : Nat)
    (farewells : List Nat)
    (sent : Bool) :
    ((s.farewell k farewells sent).handlers j).point =
      (s.handlers j).point := by
  by_cases hSame : j = k
  · subst hSame
    simp [farewell, setHandler]
  · simp [farewell, setHandler, hSame]

@[simp] theorem loop_farewell
    (s : State α)
    (j k : Nat)
    (farewells : List Nat)
    (sent : Bool) :
    ((s.farewell k farewells sent).handlers j).loop =
      (s.handlers j).loop := by
  by_cases hSame : j = k
  · subst hSame
    simp [farewell, setHandler]
  · simp [farewell, setHandler, hSame]

@[simp] theorem loops_setLoop_self
    (s : State α)
    (n : Nat)
    (g : GameLoop α) :
    (s.setLoop n g).loops n = g :=
  Function.update_self _ _ _

theorem loops_setLoop_of_ne
    (s : State α)
    {m n : Nat}
    (hNe : m ≠ n)
    (g : GameLoop α) :
    (s.setLoop n g).loops m = s.loops m :=
  Function.update_of_ne hNe _ _

end State

end Sockets

------------------------------------------------------------
-- The Kinds of Steps
------------------------------------------------------------

namespace Sockets

open Py GameRoom

variable {α : Type} [PyNumber α]

/- The transitions of `step`, one for each kind. -/
inductive Moves
    (settings : Settings)
    (matchId : String)
    (s : State α) :
    Act α → State α → Prop where
  | connect : Moves settings matchId s .connect s.connect
  | handshake
      {act : Act α} {k : Nat} {point : Point α}
      (hFrom : (s.handlers k).point.outside = true)
      (hTo :
        point.outside = true ∨ ∃ close, point = .returned close) :
      Moves settings matchId s act (s.setPoint k point)
  | register
      {k : Nat} {mode player : String}
      {playerId : Option String} {isLeader : Bool}
      (hPoint : (s.handlers k).point = .validating mode)
      (hAdmit : admitPlayer playerId isLeader = .ok player)
      (hMode : mode ≠ "spectator") :
      Moves settings matchId s
        (.validated k playerId isLeader) (s.register k player)
  | lookup
      {k : Nat} {p : String}
      (hPoint : (s.handlers k).point = .lookingUp p none) :
      Moves settings matchId s (.redis k .effect)
        (s.setPoint k (.lookingUp p (some (s.holds p))))
  | join
      {k : Nat} {p : String} {now : Timestamp}
      (hPoint :
        (s.handlers k).point = .lookingUp p (some none)) :
      Moves settings matchId s (.redis k (.ok now))
        ((s.addPlayer k p none).setPoint k (.receiving p))
  | restore
      {k : Nat} {p : String} {slot : Slot α} {now : Timestamp}
      (hPoint :
        (s.handlers k).point =
          .lookingUp p (some (some slot))) :
      Moves settings matchId s (.redis k (.ok now))
        (s.restore k p slot)
  | lookupFail
      {k : Nat} {p : String}
      {reply : Option (Option (Slot α))} {now : Timestamp}
      (hPoint : (s.handlers k).point = .lookingUp p reply) :
      Moves settings matchId s (.redis k (.fail now))
        (s.setPoint k (.returned none))
  | clear
      {k : Nat} {p : String}
      (hPoint : (s.handlers k).point = .clearing p false) :
      Moves settings matchId s (.redis k .effect)
        ((s.setHold p none).setPoint k (.clearing p true))
  | cleared
      {k : Nat} {p : String} {now : Timestamp}
      (hPoint : (s.handlers k).point = .clearing p true) :
      Moves settings matchId s (.redis k (.ok now))
        (s.setPoint k (.receiving p))
  | clearFail
      {k : Nat} {p : String} {applied : Bool}
      {now : Timestamp}
      (hPoint : (s.handlers k).point = .clearing p applied) :
      Moves settings matchId s (.redis k (.fail now))
        ((s.addPlayer k p none).setPoint k (.receiving p))
  | hold
      {k : Nat} {p : String} {value : HoldJson α}
      (hPoint :
        (s.handlers k).point = .holding p value false) :
      Moves settings matchId s (.redis k .effect)
        ((s.setHold p
          (some ⟨value, (s.handlers k).loop⟩)).setPoint k
            (.holding p value true))
  | held
      {k : Nat} {r : Reply} {p : String} {value : HoldJson α}
      {applied : Bool}
      (hPoint :
        (s.handlers k).point = .holding p value applied) :
      Moves settings matchId s (.redis k r)
        (s.setPoint k (.returned none))
  | frame
      {k : Nat} {p : String} {inputData : Json α}
      (hPoint : (s.handlers k).point = .receiving p) :
      Moves settings matchId s (.frame k inputData)
        (s.enqueue k p inputData)
  | leave
      {k : Nat} {p : String}
      (hPoint : (s.handlers k).point = .receiving p) :
      Moves settings matchId s (.disconnect k) (s.leave k p)
  | error
      {k : Nat} {p : String}
      (hPoint : (s.handlers k).point = .receiving p) :
      Moves settings matchId s (.error k)
        ((s.pop p).setPoint k (.returned none))
  | sendFails {p : String} :
      Moves settings matchId s (.sendFails p) (s.pop p)
  | expire {p : String} :
      Moves settings matchId s (.expire p) (s.setHold p none)
  | resume
      {r : Reply} {aw aw' : Await α} {stores : Stores α}
      {g : GameLoop α}
      (hTask : s.task = .inRun aw)
      (hAwaits :
        Awaits s.current s.stores s.loop aw r stores g aw') :
      Moves settings matchId s (.resume r)
        (s.ran aw r stores g aw')
  | farewell
      {k : Nat} {farewells : List Nat} {sent : Bool}
      (hTask : s.task = .inRun .closingSockets) :
      Moves settings matchId s (.farewell sent)
        (s.farewell k farewells sent)
  | idle
      {act : Act α} {stores : Stores α}
      {task : Room.MatchTask α}
      (hTask : ∀ aw, task ≠ .inRun aw) :
      Moves settings matchId s act
        { s with stores := stores, task := task }
  | restart
      {now : Timestamp}
      (hTask : s.task = .deleting true) :
      Moves settings matchId s (.delete (.ok now))
        (s.restart settings matchId now)

/- The Redis calls of a handler. -/
theorem moves_of_redis
    {settings : Settings}
    {matchId : String}
    {s s' : State α}
    {k : Nat}
    {r : Reply}
    (hStep : s.redis k (s.handlers k).point r = some s') :
    Moves settings matchId s (.redis k r) s' := by
  generalize hPoint : (s.handlers k).point = point at hStep
  unfold State.redis at hStep
  split at hStep <;> cases hStep
  · exact .lookup hPoint
  · exact .join hPoint
  · exact .restore hPoint
  · exact .lookupFail hPoint
  · exact .clear hPoint
  · exact .cleared hPoint
  · exact .clearFail hPoint
  · exact .hold hPoint
  · exact .held hPoint
  · exact .held hPoint

/- Every step of the function is one of the transitions. -/
theorem moves_of_step
    {settings : Settings}
    {matchId : String}
    {s s' : State α}
    {act : Act α}
    (hStep : step settings matchId s act = some s') :
    Moves settings matchId s act s' := by
  cases act with
  | connect =>
      cases hStep
      exact .connect
  | accepted k =>
      simp only [step] at hStep
      split at hStep
      · rename_i hPoint
        cases hStep
        exact .handshake (by rw [hPoint]; rfl) (.inl rfl)
      · cases hStep
  | token k received =>
      simp only [step] at hStep
      split at hStep
      · rename_i hPoint
        have hFrom : (s.handlers k).point.outside = true := by
          rw [hPoint]
          rfl
        split at hStep
        · cases hStep
          exact .handshake hFrom (.inl rfl)
        · cases hStep
          exact .handshake hFrom (.inr ⟨_, rfl⟩)
      · cases hStep
  | validated k playerId isLeader =>
      simp only [step] at hStep
      split at hStep
      · rename_i hPoint
        have hFrom : (s.handlers k).point.outside = true := by
          rw [hPoint]
          rfl
        split at hStep
        · rename_i hAdmit
          cases hStep
          unfold State.enter
          split
          · exact .handshake hFrom (.inl rfl)
          · exact .register hPoint hAdmit ‹_›
        · cases hStep
          exact .handshake hFrom (.inr ⟨_, rfl⟩)
      · cases hStep
  | redis k r => exact moves_of_redis hStep
  | frame k inputData =>
      simp only [step] at hStep
      split at hStep
      · rename_i hPoint
        split at hStep
        · cases hStep
        · cases hStep
          exact .frame hPoint
      · cases hStep
  | disconnect k =>
      simp only [step] at hStep
      split at hStep
      · rename_i hPoint
        cases hStep
        exact .leave hPoint
      · rename_i hPoint
        cases hStep
        exact
          .handshake (by rw [hPoint]; rfl) (.inr ⟨_, rfl⟩)
      · cases hStep
  | error k =>
      simp only [step] at hStep
      split at hStep
      · rename_i hPoint
        cases hStep
        exact .error hPoint
      · cases hStep
  | sendFails p =>
      rcases Option.map_eq_some_iff.mp hStep with ⟨_, _, rfl⟩
      exact .sendFails
  | expire p =>
      cases hStep
      exact .expire
  | resume r =>
      simp only [step] at hStep
      split at hStep
      · rename_i hTask
        unfold State.resume at hStep
        split at hStep
        · cases hStep
        · rcases Option.map_eq_some_iff.mp hStep with
            ⟨⟨stores, g, aw'⟩, hAwait, rfl⟩
          exact .resume hTask (awaits_of_awaitStep hAwait)
      · cases hStep
  | farewell sent =>
      simp only [step] at hStep
      split at hStep
      · rename_i hTask _
        cases hStep
        exact .farewell hTask
      · cases hStep
  | check isLeader =>
      simp only [step] at hStep
      split at hStep
      · cases hStep
        refine .idle ?_
        intro aw
        cases isLeader <;> exact nofun
      · cases hStep
  | delete r =>
      simp only [step] at hStep
      split at hStep
      · rename_i hTask
        unfold State.delete at hStep
        split at hStep
        · split at hStep
          · cases hStep
          · cases hStep
            exact .idle nofun
        · split at hStep
          · rename_i hApplied
            subst hApplied
            cases hStep
            exact .restart hTask
          · cases hStep
        · cases hStep
          exact .idle nofun
      · cases hStep

end Sockets

------------------------------------------------------------
-- Handlers and the Table
------------------------------------------------------------

namespace Sockets

open Py GameRoom

variable {α : Type}

/-
  Only connected sockets have handlers, a table entry is of a
  socket that was accepted for its player, and a handler
  behind `add_player` finds its player in its loop.
-/
structure Sound (s : State α) : Prop where
  used :
    ∀ k, s.sockets ≤ k → (s.handlers k).point = .returned none
  captured : ∀ k, (s.handlers k).loop ≤ s.current
  table :
    ∀ p k,
      s.connectedPlayers.get? p = some k →
        k < s.sockets ∧ (s.handlers k).point.Entered p
  present :
    ∀ k p,
      (s.handlers k).point.joined? = some p →
        p ∈ (s.loops (s.handlers k).loop).state.players.keys

theorem sound_start
    (g : GameLoop α)
    (stores : Stores α)
    (holds : String → Option (HoldJson α)) :
    Sound (State.start g stores holds) where
  used := fun _ _ => rfl
  captured := fun _ => Nat.le_refl 0
  table := nofun
  present := nofun

/- A socket in use is a connected one. -/
theorem Sound.lt_sockets
    {s : State α}
    (hSound : Sound s)
    {k : Nat}
    (hPoint : (s.handlers k).point ≠ .returned none) :
    k < s.sockets := by
  by_contra hNot
  exact hPoint (hSound.used k (Nat.le_of_not_lt hNot))

/- A handler goes on with the same loop. -/
theorem Sound.setHandler
    {s : State α}
    (hSound : Sound s)
    {k : Nat}
    {h : Handler α}
    (hUsed : s.sockets ≤ k → h.point = .returned none)
    (hLoop : h.loop = (s.handlers k).loop)
    (hEntered :
      ∀ p, (s.handlers k).point.Entered p → h.point.Entered p)
    (hJoined :
      ∀ p,
        h.point.joined? = some p →
          p ∈ (s.loops (s.handlers k).loop).state.players.keys) :
    Sound (s.setHandler k h) := by
  have hCases :
      ∀ j, (j = k ∧ (s.setHandler k h).handlers j = h) ∨
        (s.setHandler k h).handlers j = s.handlers j := by
    intro j
    by_cases hSame : j = k
    · subst hSame
      exact .inl ⟨rfl, Function.update_self _ _ _⟩
    · exact .inr (Function.update_of_ne hSame _ _)
  constructor
  · intro j hFree
    rcases hCases j with ⟨rfl, hThis⟩ | hOther
    · rw [hThis]
      exact hUsed hFree
    · rw [hOther]
      exact hSound.used j hFree
  · intro j
    rcases hCases j with ⟨rfl, hThis⟩ | hOther
    · rw [hThis, hLoop]
      exact hSound.captured j
    · rw [hOther]
      exact hSound.captured j
  · intro p j hEntry
    rcases hSound.table p j hEntry with ⟨hLt, hWas⟩
    rcases hCases j with ⟨rfl, hThis⟩ | hOther
    · rw [hThis]
      exact ⟨hLt, hEntered p hWas⟩
    · rw [hOther]
      exact ⟨hLt, hWas⟩
  · intro j p hAt
    rcases hCases j with ⟨rfl, hThis⟩ | hOther
    · rw [hThis] at hAt ⊢
      rw [hLoop]
      exact hJoined p hAt
    · rw [hOther] at hAt ⊢
      exact hSound.present j p hAt

/- A handler in use goes to another point. -/
theorem Sound.setPoint
    {s : State α}
    (hSound : Sound s)
    {k : Nat}
    {point : Point α}
    (hUsed : (s.handlers k).point ≠ .returned none)
    (hEntered :
      ∀ p, (s.handlers k).point.Entered p → point.Entered p)
    (hJoined :
      ∀ p,
        point.joined? = some p →
          p ∈ (s.loops (s.handlers k).loop).state.players.keys) :
    Sound (s.setPoint k point) := by
  refine hSound.setHandler ?_ rfl hEntered hJoined
  intro hFree
  exact absurd (hSound.used k hFree) hUsed

/- A handler that goes on for its player. -/
theorem Sound.setPoint_on
    {s : State α}
    (hSound : Sound s)
    {k : Nat}
    {p : String}
    {point : Point α}
    (hPlayer : (s.handlers k).point.player? = some p)
    (hNext : point.player? = some p)
    (hJoined :
      point.joined? = none ∨
        (s.handlers k).point.joined? = some p) :
    Sound (s.setPoint k point) := by
  refine hSound.setPoint ?_ ?_ ?_
  · intro hPoint
    rw [hPoint] at hPlayer
    cases hPlayer
  · intro q hEntered
    have hOwn : p = q := hEntered.own p hPlayer
    subst hOwn
    exact Point.entered_of_player? hNext
  · intro q hAt
    rcases hJoined with hNone | hWas
    · rw [hNone] at hAt
      cases hAt
    · have hSame := Point.player?_of_joined? hAt
      rw [hNext] at hSame
      cases hSame
      exact hSound.present k p hWas

/- A handler that neither is nor becomes a joined one. -/
theorem Sound.setPoint_done
    {s : State α}
    (hSound : Sound s)
    {k : Nat}
    {point : Point α}
    (hUsed : (s.handlers k).point ≠ .returned none)
    (hInside : point.outside = false)
    (hNone : point.player? = none) :
    Sound (s.setPoint k point) := by
  refine
    hSound.setPoint hUsed
      (fun p _ => Point.entered_of_none hInside hNone p) ?_
  intro p hJoined
  rw [Point.player?_of_joined? hJoined] at hNone
  cases hNone

/- No player is dropped from a loop. -/
theorem Sound.setLoop
    {s : State α}
    (hSound : Sound s)
    {n : Nat}
    {g : GameLoop α}
    (hKeys :
      (s.loops n).state.players.keys ⊆ g.state.players.keys) :
    Sound (s.setLoop n g) := by
  refine ⟨hSound.used, hSound.captured, hSound.table, ?_⟩
  intro k p hJoined
  have hOld := hSound.present k p hJoined
  show
    p ∈ (Function.update s.loops n g
      (s.handlers k).loop).state.players.keys
  by_cases hSame : (s.handlers k).loop = n
  · rw [hSame] at hOld ⊢
    rw [Function.update_self]
    exact hKeys hOld
  · rw [Function.update_of_ne hSame]
    exact hOld

/- Entries are taken out of the table. -/
theorem Sound.shrink
    {s : State α}
    (hSound : Sound s)
    {table : Dict String Nat}
    (hTable :
      ∀ p k,
        table.get? p = some k →
          s.connectedPlayers.get? p = some k) :
    Sound { s with connectedPlayers := table } :=
  ⟨hSound.used, hSound.captured,
    fun p k hEntry => hSound.table p k (hTable p k hEntry),
    hSound.present⟩

theorem Sound.pop
    {s : State α}
    (hSound : Sound s)
    (p : String) :
    Sound (s.pop p) := by
  apply hSound.shrink
  intro q k hEntry
  rw [Dict.get?_pop] at hEntry
  split at hEntry
  · cases hEntry
  · exact hEntry

theorem Sound.setHold
    {s : State α}
    (hSound : Sound s)
    (p : String)
    (slot : Option (Slot α)) :
    Sound (s.setHold p slot) :=
  ⟨hSound.used, hSound.captured, hSound.table,
    hSound.present⟩

theorem Sound.connect
    {s : State α}
    (hSound : Sound s) :
    Sound s.connect := by
  have hOther :
      ∀ k, k ≠ s.sockets →
        s.connect.handlers k = s.handlers k :=
    fun k hNe => Function.update_of_ne hNe _ _
  have hNew :
      s.connect.handlers s.sockets =
        ⟨s.current, false, .accepting⟩ :=
    Function.update_self _ _ _
  constructor
  · intro k hFree
    have hBelow : s.sockets + 1 ≤ k := hFree
    rw [hOther k (by omega)]
    exact hSound.used k (by omega)
  · intro k
    by_cases hSame : k = s.sockets
    · rw [hSame, hNew]
      exact Nat.le_refl _
    · rw [hOther k hSame]
      exact hSound.captured k
  · intro p k hEntry
    rcases hSound.table p k hEntry with ⟨hLt, hEntered⟩
    rw [hOther k (by omega)]
    exact ⟨Nat.lt_succ_of_lt hLt, hEntered⟩
  · intro k p hJoined
    by_cases hSame : k = s.sockets
    · rw [hSame, hNew] at hJoined
      cases hJoined
    · rw [hOther k hSame] at hJoined ⊢
      exact hSound.present k p hJoined

theorem Sound.register
    {s : State α}
    (hSound : Sound s)
    {k : Nat}
    {mode p : String}
    (hPoint : (s.handlers k).point = .validating mode) :
    Sound (s.register k p) := by
  have hUsed : (s.handlers k).point ≠ .returned none := by
    rw [hPoint]
    exact nofun
  have hSet : Sound (s.setPoint k (.lookingUp p none)) := by
    refine hSound.setPoint hUsed ?_ nofun
    intro q hEntered
    have hInside := hEntered.inside
    rw [hPoint] at hInside
    cases hInside
  refine ⟨hSet.used, hSet.captured, ?_, hSet.present⟩
  intro q j hEntry
  have hSome :
      (s.connectedPlayers.set p k).get? q = some j := hEntry
  rw [Dict.get?_set] at hSome
  split at hSome
  · rename_i hSame
    subst hSame
    cases hSome
    refine ⟨hSound.lt_sockets hUsed, ?_⟩
    apply Point.entered_of_player?
    show
      ((s.setPoint k (.lookingUp q none)).handlers
        k).point.player? = some q
    rw [State.point_setPoint_self]
    rfl
  · exact hSet.table q j hSome

/- The handler is behind its `add_player`. -/
theorem Sound.addPlayer
    [PyNumber α]
    {s : State α}
    (hSound : Sound s)
    {k : Nat}
    {p : String}
    (hPlayer : (s.handlers k).point.player? = some p)
    (hold : Option (HoldJson α))
    {point : Point α}
    (hJoined : point.joined? = some p) :
    Sound ((s.addPlayer k p hold).setPoint k point) := by
  have hLoop :
      ((s.addPlayer k p hold).loops
          (s.handlers k).loop).state.players.keys =
        ((s.loops (s.handlers k).loop).addPlayer p
          hold).state.players.keys := by
    rw [State.addPlayer, State.loops_setLoop_self]
  have hAdded : Sound (s.addPlayer k p hold) :=
    hSound.setLoop (GameLoop.subset_keys_addPlayer _ p hold)
  refine hAdded.setPoint ?_ ?_ ?_
  · intro hPoint
    have hWas : (s.handlers k).point = .returned none := hPoint
    rw [hWas] at hPlayer
    cases hPlayer
  · intro q hEntered
    have hOwn : p = q := hEntered.own p hPlayer
    subst hOwn
    exact
      Point.entered_of_player?
        (Point.player?_of_joined? hJoined)
  · intro q hOther
    rw [hJoined] at hOther
    cases hOther
    show
      p ∈ ((s.addPlayer k p hold).loops
        (s.handlers k).loop).state.players.keys
    rw [hLoop]
    exact GameLoop.mem_keys_addPlayer _ p hold

/- The handshake hands out no player. -/
theorem Sound.handshake
    {s : State α}
    (hSound : Sound s)
    {k : Nat}
    {point : Point α}
    (hFrom : (s.handlers k).point.outside = true)
    (hTo :
      point.outside = true ∨ ∃ close, point = .returned close) :
    Sound (s.setPoint k point) := by
  refine hSound.setPoint ?_ ?_ ?_
  · intro hPoint
    rw [hPoint] at hFrom
    cases hFrom
  · intro q hEntered
    have hInside := hEntered.inside
    rw [hFrom] at hInside
    cases hInside
  · intro q hJoined
    rcases hTo with hOutside | ⟨close, rfl⟩
    · rw [Point.joined?_of_outside hOutside] at hJoined
      cases hJoined
    · cases hJoined

/- The loop still has the players that handlers joined. -/
theorem Sound.ran
    [PyNumber α]
    {s : State α}
    (hSound : Sound s)
    {aw aw' : Await α}
    {r : Reply}
    {stores : Stores α}
    {g : GameLoop α}
    (hKeys : s.loop.state.players.keys ⊆ g.state.players.keys) :
    Sound (s.ran aw r stores g aw') := by
  have hTables : Sound ((s.note aw r).tables aw aw') := by
    refine
      ⟨hSound.used, hSound.captured, ?_, hSound.present⟩
    intro p k hEntry
    simp only [State.tables, State.note] at hEntry
    split at hEntry
    · cases hEntry
    · exact hSound.table p k hEntry
  have hSet :
      Sound
        (((s.note aw r).tables aw aw').setLoop s.current g) :=
    hTables.setLoop hKeys
  exact ⟨hSet.used, hSet.captured, hSet.table, hSet.present⟩

/- A new loop holds none of the players that handlers joined. -/
theorem Sound.restart
    [PyNumber α]
    {s : State α}
    (hSound : Sound s)
    {settings : Settings}
    {matchId : String}
    {now : Timestamp} :
    Sound (s.restart settings matchId now) := by
  refine
    ⟨hSound.used,
      fun k => Nat.le_succ_of_le (hSound.captured k),
      hSound.table, ?_⟩
  intro k p hJoined
  have hOld := hSound.present k p hJoined
  have hNe : (s.handlers k).loop ≠ s.current + 1 := by
    have hLe := hSound.captured k
    omega
  show
    p ∈ ((s.setLoop (s.current + 1) _).loops
      (s.handlers k).loop).state.players.keys
  rw [State.loops_setLoop_of_ne s hNe]
  exact hOld

/- Every step keeps the handlers and the table sound. -/
theorem sound_moves
    [PyNumber α]
    {settings : Settings}
    {matchId : String}
    {s s' : State α}
    {act : Act α}
    (hSound : Sound s)
    (hMoves : Moves settings matchId s act s') :
    Sound s' := by
  have hBusy :
      ∀ {k : Nat} {point : Point α},
        (s.handlers k).point = point →
          point ≠ .returned none →
            (s.handlers k).point ≠ .returned none := by
    intro k point hPoint hNe
    rw [hPoint]
    exact hNe
  cases hMoves with
  | connect => exact hSound.connect
  | handshake hFrom hTo => exact hSound.handshake hFrom hTo
  | register hPoint _ _ => exact hSound.register hPoint
  | lookup hPoint =>
      exact
        hSound.setPoint_on (by rw [hPoint]; rfl) rfl (.inl rfl)
  | join hPoint =>
      exact hSound.addPlayer (by rw [hPoint]; rfl) _ rfl
  | restore hPoint =>
      rename_i k p slot _
      have hAdded :
          Sound
            ((s.addPlayer k p (some slot.value)).setPoint k
              (.clearing p false)) :=
        hSound.addPlayer (by rw [hPoint]; rfl) _ rfl
      exact
        ⟨hAdded.used, hAdded.captured, hAdded.table,
          hAdded.present⟩
  | lookupFail hPoint =>
      exact
        hSound.setPoint_done (hBusy hPoint nofun) rfl rfl
  | clear hPoint =>
      exact
        (hSound.setHold _ _).setPoint_on
          (show (s.handlers _).point.player? = some _ by
            rw [hPoint]; rfl)
          rfl
          (.inr
            (show (s.handlers _).point.joined? = some _ by
              rw [hPoint]; rfl))
  | cleared hPoint =>
      exact
        hSound.setPoint_on (by rw [hPoint]; rfl) rfl
          (.inr (by rw [hPoint]; rfl))
  | clearFail hPoint =>
      exact hSound.addPlayer (by rw [hPoint]; rfl) _ rfl
  | hold hPoint =>
      exact
        (hSound.setHold _ _).setPoint_done
          (hBusy hPoint nofun) rfl rfl
  | held hPoint =>
      exact
        hSound.setPoint_done (hBusy hPoint nofun) rfl rfl
  | frame hPoint =>
      rename_i k p inputData
      have hSet :
          Sound
            (s.setLoop (s.handlers k).loop
              ((s.loops (s.handlers k).loop).enqueueInput p
                inputData)) :=
        hSound.setLoop (List.Subset.refl _)
      exact
        ⟨hSet.used, hSet.captured, hSet.table, hSet.present⟩
  | leave hPoint =>
      rename_i k p
      have hLeft :
          Sound
            ((s.pop p).setLoop (s.handlers k).loop
              ((s.loops (s.handlers k).loop).removePlayer
                p).1) :=
        (hSound.pop p).setLoop
          (GameLoop.subset_keys_removePlayer _ p)
      refine hLeft.setPoint_done (hBusy hPoint nofun) ?_ ?_
      · split <;> rfl
      · split <;> rfl
  | error hPoint =>
      exact
        (hSound.pop _).setPoint_done (hBusy hPoint nofun)
          rfl rfl
  | sendFails => exact hSound.pop _
  | expire => exact hSound.setHold _ _
  | resume hTask hAwaits =>
      exact hSound.ran (subset_keys_of_awaits hAwaits)
  | farewell hTask =>
      rename_i k farewells sent
      have hSet :
          Sound
            (s.setHandler k
              { s.handlers k with
                closed := sent || (s.handlers k).closed }) :=
        hSound.setHandler (hSound.used k) rfl (fun _ => id)
          (hSound.present k)
      exact
        ⟨hSet.used, hSet.captured, hSet.table, hSet.present⟩
  | idle hTask =>
      exact
        ⟨hSound.used, hSound.captured, hSound.table,
          hSound.present⟩
  | restart hTask => exact hSound.restart

end Sockets
