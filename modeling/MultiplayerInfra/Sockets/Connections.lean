import MultiplayerInfra.Machine.Latest
import MultiplayerInfra.Sockets.Matches

/-
  The table of connected players and the flags of a running
  match, beside the sockets that are open.

  Key definitions include:
    * `Sockets.OneMatch`
    * `Sockets.Orderly`
    * `Sockets.Follows`
    * `Sockets.Linked`

  Key theorems include:
    * `Sockets.linked_leave`
    * `Sockets.linked_moves`
    * `Sockets.connections_follow`

  One entry and one flag stand for all sockets of a player,
  and every disconnect takes both away.
-/

------------------------------------------------------------
-- Open Sockets
------------------------------------------------------------

namespace Sockets

open Py GameRoom Machine Latest

variable {α : Type}

/- The player of a handler that still goes on. -/
def State.owner (s : State α) (k : Nat) : Option String :=
  (s.handlers k).point.player?

/- The player that an open socket was accepted for. -/
def State.openFor (s : State α) (k : Nat) : Option String :=
  if (s.handlers k).closed then none else s.owner k

/- The event of a tick is being published. -/
def State.inTick (s : State α) : Bool :=
  match s.task with
  | .inRun (.publishing _ _ _) => true
  | _ => false

/-
  What the table and the flags should say: the latest open
  socket of each player, and whether one of them receives.
-/
structure Follows (s : State α) : Prop where
  entry :
    ∀ p,
      s.connectedPlayers.get? p = latest s.openFor s.accepted p
  flag :
    ∀ p,
      connection s.loop.state.players p = some true ↔
        ∃ k, s.openFor k = some p ∧
          (s.handlers k).point = .receiving p

/- No player is being added: between two events. -/
def Settled (s : State α) : Prop :=
  ∀ k p,
    s.owner k = some p → (s.handlers k).point = .receiving p

/-
  No handler goes on and no player leaves while a tick is in
  flight, and no other match begins.
-/
def BetweenTicks (s : State α) : Act α → Prop
| .redis _ (.ok _) => s.inTick = false
| .redis _ (.fail _) => s.inTick = false
| .disconnect _ => s.inTick = false
| .check _ => False
| .delete _ => False
| _ => True

/- Steps within one running match. -/
def OneMatch (s : State α) (act : Act α) : Prop :=
  s.loop.matchEnded = false ∧ BetweenTicks s act

def Point.lookingUp? : Point α → Bool
| .lookingUp _ _ => true
| _ => false

/-
  A player has no other socket when one disconnects, no frame
  fails to decode, no send fails and no lookup raises.
-/
def Orderly (s : State α) : Act α → Prop
| .redis k (.fail _) =>
    (s.handlers k).point.lookingUp? = false
| .disconnect k =>
    ∀ j < s.sockets, j ≠ k →
      s.owner j = none ∨ s.owner j ≠ s.owner k
| .error _ => False
| .sendFails _ => False
| _ => True

instance (s : State α) :
    (act : Act α) → Decidable (BetweenTicks s act)
| .connect => inferInstanceAs (Decidable True)
| .accepted _ => inferInstanceAs (Decidable True)
| .token _ _ => inferInstanceAs (Decidable True)
| .validated _ _ _ => inferInstanceAs (Decidable True)
| .redis _ .effect => inferInstanceAs (Decidable True)
| .redis _ (.ok _) =>
    inferInstanceAs (Decidable
      (s.inTick = false))
| .redis _ (.fail _) =>
    inferInstanceAs (Decidable
      (s.inTick = false))
| .frame _ _ => inferInstanceAs (Decidable True)
| .disconnect _ =>
    inferInstanceAs (Decidable
      (s.inTick = false))
| .error _ => inferInstanceAs (Decidable True)
| .sendFails _ => inferInstanceAs (Decidable True)
| .expire _ => inferInstanceAs (Decidable True)
| .resume _ => inferInstanceAs (Decidable True)
| .farewell _ => inferInstanceAs (Decidable True)
| .check _ => inferInstanceAs (Decidable (False))
| .delete _ => inferInstanceAs (Decidable False)

instance (s : State α) (act : Act α) :
    Decidable (OneMatch s act) :=
  inferInstanceAs (Decidable (_ = false ∧ BetweenTicks s act))

instance (s : State α) :
    (act : Act α) → Decidable (Orderly s act)
| .connect => inferInstanceAs (Decidable True)
| .accepted _ => inferInstanceAs (Decidable True)
| .token _ _ => inferInstanceAs (Decidable True)
| .validated _ _ _ => inferInstanceAs (Decidable True)
| .redis _ .effect => inferInstanceAs (Decidable True)
| .redis _ (.ok _) => inferInstanceAs (Decidable True)
| .redis k (.fail _) =>
    inferInstanceAs (Decidable
      ((s.handlers k).point.lookingUp? = false))
| .frame _ _ => inferInstanceAs (Decidable True)
| .disconnect k =>
    inferInstanceAs (Decidable
      (∀ j < s.sockets, j ≠ k →
        s.owner j = none ∨ s.owner j ≠ s.owner k))
| .error _ => inferInstanceAs (Decidable (False))
| .sendFails _ => inferInstanceAs (Decidable (False))
| .expire _ => inferInstanceAs (Decidable True)
| .resume _ => inferInstanceAs (Decidable True)
| .farewell _ => inferInstanceAs (Decidable True)
| .check _ => inferInstanceAs (Decidable True)
| .delete _ => inferInstanceAs (Decidable True)

/- What holds in a running match, also between two events. -/
structure Linked (s : State α) : Prop where
  task : ∀ aw, s.task = .inRun aw → closing aw = false
  loops : ∀ k, (s.handlers k).loop = s.current
  unclosed :
    ∀ k < s.sockets, (s.handlers k).closed = false
  entry :
    ∀ p,
      s.connectedPlayers.get? p = latest s.owner s.accepted p
  flag :
    ∀ p,
      connection s.loop.state.players p = some true ↔
        ∃ k, (s.handlers k).point.joined? = some p
  queue :
    ∀ e ∈ s.loop.inputQueue, e.1 ∈ s.loop.state.players.keys
  tick :
    ∀ next event kept,
      s.task = .inRun (.publishing next event kept) →
        ∀ p ∈ next.keys,
          connection next p =
            connection s.loop.state.players p

/- At a settled state the table and the flags are right. -/
theorem Linked.follows
    {s : State α}
    (hSound : Sound s)
    (hLinked : Linked s)
    (hSettled : Settled s) :
    Follows s := by
  have hOpen : s.openFor = s.owner := by
    funext k
    unfold State.openFor
    split
    · rename_i hClosed
      by_contra hOwner
      have hLt : k < s.sockets := by
        apply hSound.lt_sockets
        intro hPoint
        rw [State.owner, hPoint] at hOwner
        exact hOwner rfl
      have hNot := hLinked.unclosed k hLt
      rw [hClosed] at hNot
      cases hNot
    · rfl
  constructor
  · intro p
    rw [hOpen]
    exact hLinked.entry p
  · intro p
    rw [hLinked.flag p, hOpen]
    constructor
    · rintro ⟨k, hJoined⟩
      have hOwner := Point.player?_of_joined? hJoined
      exact ⟨k, hOwner, hSettled k p hOwner⟩
    · rintro ⟨k, _, hPoint⟩
      refine ⟨k, ?_⟩
      rw [hPoint]
      rfl

/- Only the handlers of the sockets so far may be busy. -/
theorem settled_of_below
    {s : State α}
    (hSound : Sound s)
    (hBelow :
      ∀ k < s.sockets,
        s.owner k = none ∨
          (s.handlers k).point =
            .receiving ((s.owner k).getD "")) :
    Settled s := by
  intro k p hOwner
  have hLt : k < s.sockets := by
    apply hSound.lt_sockets
    intro hReturned
    rw [State.owner, hReturned] at hOwner
    cases hOwner
  rcases hBelow k hLt with hNone | hReceiving
  · rw [hNone] at hOwner
    cases hOwner
  · rw [hOwner] at hReceiving
    exact hReceiving

/- A match before its first event. -/
structure Opening (g : GameLoop α) : Prop where
  queue : g.inputQueue = []
  nobody :
    ∀ p, connection g.state.players p ≠ some true

theorem opening_new
    (settings : Settings)
    (matchId : String)
    (now : Timestamp) :
    Opening (GameLoop.new settings matchId now : GameLoop α) where
  queue := rfl
  nobody := nofun

theorem linked_start
    {g : GameLoop α}
    (hOpening : Opening g)
    (stores : Stores α)
    (holds : String → Option (HoldJson α)) :
    Linked (State.start g stores holds) where
  task := by
    intro aw hTask
    cases hTask
    rfl
  loops := fun _ => rfl
  unclosed := fun _ hLt => absurd hLt (Nat.not_lt_zero _)
  entry := fun _ => rfl
  flag := by
    intro p
    constructor
    · intro hFlag
      exact absurd hFlag (hOpening.nobody p)
    · rintro ⟨k, hJoined⟩
      cases hJoined
  queue := by
    intro e hMem
    have hNone : e ∈ g.inputQueue := hMem
    rw [hOpening.queue] at hNone
    cases hNone
  tick := nofun

end Sockets

------------------------------------------------------------
-- Steps of the Handlers
------------------------------------------------------------

namespace Sockets

open Py GameRoom Machine Latest

variable {α : Type}

theorem owner_setPoint
    {s s' : State α}
    {k : Nat}
    {point : Point α}
    (hHandlers : s'.handlers = (s.setPoint k point).handlers) :
    s'.owner = Function.update s.owner k point.player? := by
  funext j
  unfold State.owner
  rw [hHandlers]
  by_cases hSame : j = k
  · subst hSame
    rw [State.point_setPoint_self, Function.update_self]
  · rw [State.handlers_setPoint_of_ne s hSame,
      Function.update_of_ne hSame]

/- Who has joined, after a handler went to another point. -/
theorem joined_setPoint
    {s s' : State α}
    {k : Nat}
    {point : Point α}
    (hHandlers : s'.handlers = (s.setPoint k point).handlers)
    (p : String) :
    (∃ j, (s'.handlers j).point.joined? = some p) ↔
      point.joined? = some p ∨
        ∃ j, j ≠ k ∧ (s.handlers j).point.joined? = some p := by
  rw [hHandlers]
  constructor
  · rintro ⟨j, hJoined⟩
    by_cases hSame : j = k
    · subst hSame
      rw [State.point_setPoint_self] at hJoined
      exact .inl hJoined
    · rw [State.handlers_setPoint_of_ne s hSame] at hJoined
      exact .inr ⟨j, hSame, hJoined⟩
  · rintro (hNew | ⟨j, hNe, hJoined⟩)
    · refine ⟨k, ?_⟩
      rw [State.point_setPoint_self]
      exact hNew
    · refine ⟨j, ?_⟩
      rw [State.handlers_setPoint_of_ne s hNe]
      exact hJoined

/- A handler keeps its socket at another point. -/
theorem unclosed_setPoint
    {s s' : State α}
    (hLinked : Linked s)
    {k : Nat}
    {point : Point α}
    (hHandlers : s'.handlers = (s.setPoint k point).handlers)
    (hSockets : s'.sockets = s.sockets) :
    ∀ j < s'.sockets, (s'.handlers j).closed = false := by
  intro j hLt
  rw [hSockets] at hLt
  rw [hHandlers]
  by_cases hSame : j = k
  · subst hSame
    rw [State.handlers_setPoint_self]
    exact hLinked.unclosed j hLt
  · rw [State.handlers_setPoint_of_ne s hSame]
    exact hLinked.unclosed j hLt

theorem loops_setPoint
    {s s' : State α}
    (hLinked : Linked s)
    {k : Nat}
    {point : Point α}
    (hHandlers : s'.handlers = (s.setPoint k point).handlers)
    (hCurrent : s'.current = s.current) :
    ∀ j, (s'.handlers j).loop = s'.current := by
  intro j
  rw [hHandlers, hCurrent, State.loop_setPoint]
  exact hLinked.loops j

/- A handler goes on for its player, and may have joined. -/
theorem Linked.of_point
    {s s' : State α}
    (hLinked : Linked s)
    {k : Nat}
    {point : Point α}
    (hHandlers : s'.handlers = (s.setPoint k point).handlers)
    (hSockets : s'.sockets = s.sockets)
    (hCurrent : s'.current = s.current)
    (hTask : s'.task = s.task)
    (hTable : s'.connectedPlayers = s.connectedPlayers)
    (hAccepted : s'.accepted = s.accepted)
    (hPlayer : point.player? = s.owner k)
    (hJoined :
      ∀ p,
        (s.handlers k).point.joined? = some p →
          point.joined? = some p)
    (hFlag :
      ∀ p,
        connection s'.loop.state.players p = some true ↔
          connection s.loop.state.players p = some true ∨
            point.joined? = some p)
    (hQueue :
      ∀ e ∈ s'.loop.inputQueue,
        e.1 ∈ s'.loop.state.players.keys)
    (hTick :
      s.inTick = true → s'.loop.state = s.loop.state) :
    Linked s' := by
  have hOwner : s'.owner = s.owner := by
    rw [owner_setPoint hHandlers, hPlayer,
      Function.update_eq_self]
  refine
    ⟨?_, loops_setPoint hLinked hHandlers hCurrent, ?_, ?_, ?_,
      hQueue, ?_⟩
  · rw [hTask]
    exact hLinked.task
  · exact unclosed_setPoint hLinked hHandlers hSockets
  · intro p
    rw [hTable, hAccepted, hOwner]
    exact hLinked.entry p
  · intro p
    rw [hFlag p, joined_setPoint hHandlers, hLinked.flag p]
    constructor
    · rintro (⟨j, hWas⟩ | hNew)
      · by_cases hSame : j = k
        · subst hSame
          exact .inl (hJoined p hWas)
        · exact .inr ⟨j, hSame, hWas⟩
      · exact .inl hNew
    · rintro (hNew | ⟨j, _, hWas⟩)
      · exact .inr hNew
      · exact .inl ⟨j, hWas⟩
  · intro next event kept hAt p hMem
    rw [hTask] at hAt
    have hSame : s'.loop.state = s.loop.state := by
      apply hTick
      rw [State.inTick, hAt]
    rw [hSame]
    exact hLinked.tick next event kept hAt p hMem

/- A step of a handler that changes no loop and no player. -/
theorem Linked.of_quiet
    {s s' : State α}
    (hLinked : Linked s)
    {k : Nat}
    {point : Point α}
    (hHandlers : s'.handlers = (s.setPoint k point).handlers)
    (hLoops : s'.loops = s.loops)
    (hSockets : s'.sockets = s.sockets)
    (hCurrent : s'.current = s.current)
    (hTask : s'.task = s.task)
    (hTable : s'.connectedPlayers = s.connectedPlayers)
    (hAccepted : s'.accepted = s.accepted)
    (hPlayer : point.player? = s.owner k)
    (hJoined :
      point.joined? = (s.handlers k).point.joined?) :
    Linked s' := by
  have hLoop : s'.loop = s.loop := by
    rw [State.loop, hLoops, hCurrent, State.loop]
  refine
    hLinked.of_point hHandlers hSockets hCurrent hTask hTable
      hAccepted hPlayer ?_ ?_ ?_ ?_
  · intro p hWas
    rw [hJoined]
    exact hWas
  · intro p
    rw [hLoop, hJoined]
    constructor
    · exact .inl
    · rintro (hWas | hThis)
      · exact hWas
      · exact (hLinked.flag p).mpr ⟨k, hThis⟩
  · rw [hLoop]
    exact hLinked.queue
  · intro _
    rw [hLoop]

/- A call to Redis that leaves the handler with its player. -/
theorem Linked.of_between
    {s s' : State α}
    (hLinked : Linked s)
    {k : Nat}
    {point point' : Point α}
    (hHandlers : s'.handlers = (s.setPoint k point').handlers)
    (hLoops : s'.loops = s.loops)
    (hSockets : s'.sockets = s.sockets)
    (hCurrent : s'.current = s.current)
    (hTask : s'.task = s.task)
    (hTable : s'.connectedPlayers = s.connectedPlayers)
    (hAccepted : s'.accepted = s.accepted)
    (hPoint : (s.handlers k).point = point)
    (hPlayer : point'.player? = point.player?)
    (hJoined : point'.joined? = point.joined?) :
    Linked s' := by
  refine
    hLinked.of_quiet hHandlers hLoops hSockets hCurrent hTask
      hTable hAccepted ?_ ?_
  · rw [State.owner, hPoint]
    exact hPlayer
  · rw [hPoint]
    exact hJoined

/- `add_player` on the running loop, between two ticks. -/
theorem Linked.addPlayer
    [PyNumber α]
    {s s' : State α}
    (hLinked : Linked s)
    {k : Nat}
    {p : String}
    {hold : Option (HoldJson α)}
    {point : Point α}
    (hHandlers : s'.handlers = (s.setPoint k point).handlers)
    (hLoops : s'.loops = (s.addPlayer k p hold).loops)
    (hSockets : s'.sockets = s.sockets)
    (hCurrent : s'.current = s.current)
    (hTask : s'.task = s.task)
    (hTable : s'.connectedPlayers = s.connectedPlayers)
    (hAccepted : s'.accepted = s.accepted)
    (hIdle : s.inTick = false)
    (hOwner : s.owner k = some p)
    (hJoined : point.joined? = some p) :
    Linked s' := by
  have hLoop : s'.loop = s.loop.addPlayer p hold := by
    rw [State.loop, hLoops, hCurrent, State.addPlayer,
      hLinked.loops k]
    exact State.loops_setLoop_self s s.current _
  have hPlayer : point.player? = s.owner k := by
    rw [hOwner]
    exact Point.player?_of_joined? hJoined
  refine
    hLinked.of_point hHandlers hSockets hCurrent hTask hTable
      hAccepted hPlayer ?_ ?_ ?_ ?_
  · intro q hWas
    have hSame := Point.player?_of_joined? hWas
    rw [State.owner, hSame] at hOwner
    rw [hJoined, hOwner]
  · intro q
    rw [hLoop, GameLoop.connection_addPlayer, hJoined]
    by_cases hSame : q = p
    · rw [if_pos hSame, hSame]
      exact ⟨fun _ => .inr rfl, fun _ => rfl⟩
    · rw [if_neg hSame]
      constructor
      · exact .inl
      · rintro (hWas | hThis)
        · exact hWas
        · exact absurd (Option.some.inj hThis).symm hSame
  · intro e hMem
    rw [hLoop] at hMem ⊢
    rw [GameLoop.inputQueue_addPlayer] at hMem
    exact
      GameLoop.subset_keys_addPlayer _ p hold
        (hLinked.queue e hMem)
  · intro hTick
    rw [hIdle] at hTick
    cases hTick

/- The only socket of a player disconnects, between ticks. -/
theorem linked_leave
    {s : State α}
    (hSound : Sound s)
    (hLinked : Linked s)
    {k : Nat}
    {p : String}
    (hPoint : (s.handlers k).point = .receiving p)
    (hIdle : s.inTick = false)
    (hOnly : ∀ j, j ≠ k → s.owner j ≠ some p) :
    Linked (s.leave k p) := by
  have hOwner : s.owner k = some p := by
    rw [State.owner, hPoint]
    rfl
  have hPresent : p ∈ s.loop.state.players.keys := by
    have hIn := hSound.present k p (by rw [hPoint]; rfl)
    rw [hLinked.loops k] at hIn
    exact hIn
  have hLoop : (s.leave k p).loop = (s.loop.removePlayer p).1 := by
    rw [State.leave, hLinked.loops k]
    exact State.loops_setLoop_self _ s.current _
  -- the handler goes to a point without a player
  obtain ⟨point, hHandlers, hNone⟩ :
      ∃ point : Point α,
        (s.leave k p).handlers = (s.setPoint k point).handlers ∧
          point.player? = none := by
    refine ⟨_, rfl, ?_⟩
    split <;> rfl
  have hOut : point.joined? = none := by
    cases hJoined : point.joined? with
    | none => rfl
    | some q =>
        rw [Point.player?_of_joined? hJoined] at hNone
        cases hNone
  refine
    ⟨hLinked.task,
      loops_setPoint hLinked hHandlers rfl, ?_, ?_, ?_, ?_, ?_⟩
  · exact unclosed_setPoint hLinked hHandlers rfl
  · intro q
    rw [owner_setPoint hHandlers, hNone,
      latest_giveUp hOwner hOnly]
    show
      (s.connectedPlayers.pop p).get? q =
        if q = p then none else latest s.owner s.accepted q
    rw [Dict.get?_pop, hLinked.entry q]
  · intro q
    rw [hLoop, GameLoop.connection_removePlayer hPresent,
      joined_setPoint hHandlers, hOut]
    by_cases hSame : q = p
    · subst hSame
      rw [if_pos rfl]
      constructor
      · exact nofun
      · rintro (hThis | ⟨j, hNe, hJoined⟩)
        · cases hThis
        · exact
            absurd (Point.player?_of_joined? hJoined)
              (hOnly j hNe)
    · rw [if_neg hSame, hLinked.flag q]
      constructor
      · rintro ⟨j, hJoined⟩
        refine .inr ⟨j, ?_, hJoined⟩
        rintro rfl
        rw [hPoint] at hJoined
        cases hJoined
        exact hSame rfl
      · rintro (hThis | ⟨j, _, hJoined⟩)
        · cases hThis
        · exact ⟨j, hJoined⟩
  · intro e hMem
    rw [hLoop] at hMem ⊢
    rw [GameLoop.inputQueue_removePlayer] at hMem
    exact
      GameLoop.subset_keys_removePlayer _ p
        (hLinked.queue e hMem)
  · intro next event kept hAt
    have hTask :
        s.task = .inRun (.publishing next event kept) := hAt
    rw [State.inTick, hTask] at hIdle
    cases hIdle

/- A player is registered with one more socket. -/
theorem linked_register
    {s : State α}
    (hLinked : Linked s)
    {k : Nat}
    {mode p : String}
    (hPoint : (s.handlers k).point = .validating mode) :
    Linked (s.register k p) := by
  have hFree : s.owner k = none := by
    rw [State.owner, hPoint]
    rfl
  have hHandlers :
      (s.register k p).handlers =
        (s.setPoint k (.lookingUp p none)).handlers := rfl
  have hLoop : (s.register k p).loop = s.loop := rfl
  refine
    ⟨hLinked.task,
      loops_setPoint hLinked hHandlers rfl, ?_, ?_, ?_,
      hLinked.queue, hLinked.tick⟩
  · exact unclosed_setPoint hLinked hHandlers rfl
  · intro q
    rw [owner_setPoint hHandlers]
    show
      (s.connectedPlayers.set p k).get? q =
        latest (Function.update s.owner k (some p))
          (s.accepted ++ [k]) q
    rw [Dict.get?_set, latest_take hFree, hLinked.entry q]
  · intro q
    rw [hLoop, hLinked.flag q, joined_setPoint hHandlers]
    constructor
    · rintro ⟨j, hJoined⟩
      refine .inr ⟨j, ?_, hJoined⟩
      rintro rfl
      rw [hPoint] at hJoined
      cases hJoined
    · rintro (hThis | ⟨j, _, hJoined⟩)
      · cases hThis
      · exact ⟨j, hJoined⟩

theorem linked_connect
    {s : State α}
    (hSound : Sound s)
    (hLinked : Linked s) :
    Linked s.connect := by
  have hCases :
      ∀ k,
        (k = s.sockets ∧
            s.connect.handlers k =
              ⟨s.current, false, .accepting⟩) ∨
          (k ≠ s.sockets ∧
            s.connect.handlers k = s.handlers k) := by
    intro k
    by_cases hSame : k = s.sockets
    · subst hSame
      exact .inl ⟨rfl, Function.update_self _ _ _⟩
    · exact .inr ⟨hSame, Function.update_of_ne hSame _ _⟩
  have hFree : (s.handlers s.sockets).point = .returned none :=
    hSound.used s.sockets (Nat.le_refl _)
  have hOwner : s.connect.owner = s.owner := by
    funext k
    unfold State.owner
    rcases hCases k with ⟨rfl, hThis⟩ | ⟨_, hOther⟩
    · rw [hThis, hFree]
      rfl
    · rw [hOther]
  have hJoined :
      ∀ k, (s.connect.handlers k).point.joined? =
        (s.handlers k).point.joined? := by
    intro k
    rcases hCases k with ⟨rfl, hThis⟩ | ⟨_, hOther⟩
    · rw [hThis, hFree]
      rfl
    · rw [hOther]
  refine
    ⟨hLinked.task, ?_, ?_, ?_, ?_, hLinked.queue, hLinked.tick⟩
  · intro k
    rcases hCases k with ⟨_, hThis⟩ | ⟨_, hOther⟩
    · rw [hThis]
      rfl
    · rw [hOther]
      exact hLinked.loops k
  · intro k hLt
    have hBelow : k < s.sockets + 1 := hLt
    rcases hCases k with ⟨_, hThis⟩ | ⟨hNe, hOther⟩
    · rw [hThis]
    · rw [hOther]
      exact hLinked.unclosed k (by omega)
  · intro p
    rw [hOwner]
    exact hLinked.entry p
  · intro p
    simp only [hJoined]
    exact hLinked.flag p

/- An input of a player who has joined. -/
theorem linked_frame
    {s : State α}
    (hSound : Sound s)
    (hLinked : Linked s)
    {k : Nat}
    {p : String}
    {inputData : Json α}
    (hPoint : (s.handlers k).point = .receiving p) :
    Linked (s.enqueue k p inputData) := by
  have hPresent : p ∈ s.loop.state.players.keys := by
    have hIn := hSound.present k p (by rw [hPoint]; rfl)
    rw [hLinked.loops k] at hIn
    exact hIn
  have hLoop :
      (s.enqueue k p inputData).loop =
        s.loop.enqueueInput p inputData := by
    rw [State.enqueue, hLinked.loops k]
    exact State.loops_setLoop_self _ s.current _
  have hState :
      (s.enqueue k p inputData).loop.state = s.loop.state := by
    rw [hLoop]
    rfl
  refine
    ⟨hLinked.task, hLinked.loops, hLinked.unclosed,
      hLinked.entry, ?_, ?_, ?_⟩
  · rw [hState]
    exact hLinked.flag
  · intro e hMem
    rw [hState]
    rw [hLoop] at hMem
    rcases List.mem_append.mp hMem with hOld | hNew
    · exact hLinked.queue e hOld
    · rw [List.mem_singleton.mp hNew]
      exact hPresent
  · rw [hState]
    exact hLinked.tick

end Sockets

------------------------------------------------------------
-- Every Step
------------------------------------------------------------

namespace Sockets

open Py GameRoom Machine Latest

variable {α : Type} [PyNumber α]

omit [PyNumber α] in
/- A reply to the run task that connects nobody. -/
theorem linked_ran
    {s : State α}
    (hLinked : Linked s)
    {aw aw' : Await α}
    {r : Reply}
    {stores : Stores α}
    {g : GameLoop α}
    (hTask : s.task = .inRun aw)
    (hNext : closing aw' = false)
    (hFlag :
      ∀ p,
        connection g.state.players p =
          connection s.loop.state.players p)
    (hQueue : g.inputQueue ⊆ s.loop.inputQueue)
    (hKeys :
      s.loop.state.players.keys ⊆ g.state.players.keys)
    (hTick :
      ∀ next event kept,
        aw' = .publishing next event kept →
          ∀ p ∈ next.keys,
            connection next p =
              connection g.state.players p) :
    Linked (s.ran aw r stores g aw') := by
  have hLoop : (s.ran aw r stores g aw').loop = g :=
    Function.update_self _ _ _
  refine
    ⟨?_, hLinked.loops, hLinked.unclosed, ?_, ?_, ?_, ?_⟩
  · intro aw₁ hAt
    injection hAt with hAwait
    subst hAwait
    exact hNext
  · intro p
    have hTable :
        (s.ran aw r stores g aw').connectedPlayers =
          s.connectedPlayers :=
      if_neg (by rw [hLinked.task aw hTask]; decide)
    rw [hTable]
    exact hLinked.entry p
  · intro p
    rw [hLoop, hFlag p]
    exact hLinked.flag p
  · intro e hMem
    rw [hLoop] at hMem ⊢
    exact hKeys (hLinked.queue e (hQueue hMem))
  · intro next event kept hAt
    injection hAt with hAwait
    rw [hLoop]
    exact hTick next event kept hAwait

/- The head of `run`. -/
theorem linked_head
    {s : State α}
    (hLinked : Linked s)
    {aw aw' : Await α}
    {r : Reply}
    {stores : Stores α}
    {g : GameLoop α}
    (hTask : s.task = .inRun aw)
    (hHead : loopHead s.loop = (g, aw')) :
    Linked (s.ran aw r stores g aw') := by
  cases heads_loopHead hHead with
  | publish _ hBegin =>
      have hState := (frame_beginTick hBegin).1
      refine
        linked_ran hLinked hTask rfl ?_
          (GameLoop.subset_inputQueue_beginTick hBegin) ?_ ?_
      · intro p
        rw [hState]
      · rw [hState]
        exact List.Subset.refl _
      · intro next event kept hAt p _
        cases hAt
        rw [hState]
        exact
          GameLoop.connection_beginTick hLinked.queue hBegin p
  | pause _ hBegin =>
      have hState := (frame_beginTick hBegin).1
      refine
        linked_ran hLinked hTask rfl ?_
          (GameLoop.subset_inputQueue_beginTick hBegin) ?_ nofun
      · intro p
        rw [hState]
      · rw [hState]
        exact List.Subset.refl _
  | finish _ =>
      exact
        linked_ran hLinked hTask rfl (fun _ => rfl)
          (List.Subset.refl _) (List.Subset.refl _) nofun

omit [PyNumber α] in
/- A reply that leaves the loop alone and begins no tick. -/
theorem linked_same
    {s : State α}
    (hLinked : Linked s)
    {aw aw' : Await α}
    {r : Reply}
    {stores : Stores α}
    (hTask : s.task = .inRun aw)
    (hNext : closing aw' = false)
    (hTick :
      ∀ next event kept, aw' ≠ .publishing next event kept) :
    Linked (s.ran aw r stores s.loop aw') :=
  linked_ran hLinked hTask hNext (fun _ => rfl)
    (List.Subset.refl _) (List.Subset.refl _)
    (fun next event kept hAt =>
      absurd hAt (hTick next event kept))

/- Every reply to the run task, unless it ends the match. -/
theorem linked_resume
    {s : State α}
    (hLinked : Linked s)
    {aw aw' : Await α}
    {r : Reply}
    {stores : Stores α}
    {g : GameLoop α}
    (hTask : s.task = .inRun aw)
    (hAwaits :
      Awaits s.current s.stores s.loop aw r stores g aw')
    (hEnded : g.matchEnded = false) :
    Linked (s.ran aw r stores g aw') := by
  have hKeys := subset_keys_of_awaits hAwaits
  cases hAwaits with
  | head _ => exact linked_head hLinked hTask rfl
  | appendEvent =>
      refine
        linked_ran hLinked hTask rfl (fun _ => rfl)
          (List.Subset.refl _) hKeys ?_
      intro next event kept hAt
      cases hAt
      exact hLinked.tick _ _ none hTask
  | commit =>
      exact
        linked_ran hLinked hTask rfl
          (connection_commitPlayers
            (hLinked.tick _ _ _ hTask))
          (List.Subset.refl _) hKeys nofun
  | dropTick => exact linked_same hLinked hTask rfl nofun
  | redisEffect => exact linked_same hLinked hTask rfl nofun
  | redisNext _ => exact linked_same hLinked hTask rfl nofun
  | redisDone _ =>
      revert hEnded
      unfold finishTick
      split
      · intro hEnded
        cases hEnded
      · intro _
        exact linked_same hLinked hTask rfl nofun
  | redisFail => exact linked_same hLinked hTask rfl nofun
  | farewell => exact linked_same hLinked hTask rfl nofun
  | appendEnd => exact linked_same hLinked hTask rfl nofun
  | endPublished => exact linked_same hLinked hTask rfl nofun
  | endTelemetry =>
      unfold writeMatchRecord
      split <;> exact linked_same hLinked hTask rfl nofun
  | saveEffect => exact linked_same hLinked hTask rfl nofun
  | saved => exact linked_same hLinked hTask rfl nofun
  | saveFailed => exact linked_same hLinked hTask rfl nofun
  | retry =>
      unfold retrySave
      split <;> exact linked_same hLinked hTask rfl nofun

/- Every orderly step of the match keeps the link. -/
theorem linked_moves
    {settings : Settings}
    {matchId : String}
    {s s' : State α}
    {act : Act α}
    (hSound : Sound s)
    (hLinked : Linked s)
    (hMatch : OneMatch s act)
    (hOrderly : Orderly s act)
    (hMoves : Moves settings matchId s act s')
    (hEnded : s'.loop.matchEnded = false) :
    Linked s' := by
  have hOwner :
      ∀ {k : Nat} {point : Point α},
        (s.handlers k).point = point →
          s.owner k = point.player? := by
    intro k point hPoint
    rw [State.owner, hPoint]
  cases hMoves with
  | connect => exact linked_connect hSound hLinked
  | handshake hFrom hTo =>
      rename_i k point
      have hNew :
          point.player? = none ∧ point.joined? = none := by
        rcases hTo with hOutside | ⟨close, rfl⟩
        · exact
            ⟨Point.player?_of_outside hOutside,
              Point.joined?_of_outside hOutside⟩
        · exact ⟨rfl, rfl⟩
      refine
        hLinked.of_quiet rfl rfl rfl rfl rfl rfl rfl ?_ ?_
      · rw [hNew.1, State.owner, Point.player?_of_outside hFrom]
      · rw [hNew.2, Point.joined?_of_outside hFrom]
  | register hPoint _ _ => exact linked_register hLinked hPoint
  | lookup hPoint =>
      exact
        hLinked.of_between rfl rfl rfl rfl rfl rfl rfl hPoint
          rfl rfl
  | join hPoint =>
      exact
        hLinked.addPlayer rfl rfl rfl rfl rfl rfl rfl hMatch.2
          (hOwner hPoint) rfl
  | restore hPoint =>
      exact
        hLinked.addPlayer rfl rfl rfl rfl rfl rfl rfl hMatch.2
          (hOwner hPoint) rfl
  | lookupFail hPoint =>
      rw [Orderly, hPoint] at hOrderly
      cases hOrderly
  | clear hPoint =>
      exact
        hLinked.of_between rfl rfl rfl rfl rfl rfl rfl hPoint
          rfl rfl
  | cleared hPoint =>
      exact
        hLinked.of_between rfl rfl rfl rfl rfl rfl rfl hPoint
          rfl rfl
  | clearFail hPoint =>
      exact
        hLinked.addPlayer rfl rfl rfl rfl rfl rfl rfl hMatch.2
          (hOwner hPoint) rfl
  | hold hPoint =>
      exact
        hLinked.of_between rfl rfl rfl rfl rfl rfl rfl hPoint
          rfl rfl
  | held hPoint =>
      exact
        hLinked.of_between rfl rfl rfl rfl rfl rfl rfl hPoint
          rfl rfl
  | frame hPoint => exact linked_frame hSound hLinked hPoint
  | leave hPoint =>
      rename_i k p
      have hThis : s.owner k = some p := hOwner hPoint
      apply linked_leave hSound hLinked hPoint hMatch.2
      intro j hNe hOther
      have hLt : j < s.sockets := by
        apply hSound.lt_sockets
        intro hReturned
        rw [hOwner hReturned] at hOther
        cases hOther
      rcases hOrderly j hLt hNe with hNone | hDiffers
      · rw [hNone] at hOther
        cases hOther
      · exact hDiffers (hOther.trans hThis.symm)
  | error hPoint => exact hOrderly.elim
  | sendFails => exact hOrderly.elim
  | expire =>
      exact
        ⟨hLinked.task, hLinked.loops, hLinked.unclosed,
          hLinked.entry, hLinked.flag, hLinked.queue,
          hLinked.tick⟩
  | resume hTask hAwaits =>
      rename_i r aw aw' stores g
      have hLoop : (s.ran aw r stores g aw').loop = g :=
        Function.update_self _ _ _
      rw [hLoop] at hEnded
      exact linked_resume hLinked hTask hAwaits hEnded
  | farewell hTask =>
      cases hLinked.task _ hTask
  | idle hTask =>
      refine
        ⟨?_, hLinked.loops, hLinked.unclosed, hLinked.entry,
          hLinked.flag, hLinked.queue, ?_⟩
      · intro aw hAt
        exact absurd hAt (hTask aw)
      · intro next event kept hAt
        exact absurd hAt (hTask _)
  | restart hTask => exact hMatch.2.elim

/-
  Connection state follows the sockets, in every run within
  one match in which a player has no other socket when one
  disconnects, no frame fails to decode, no send fails and
  no lookup of a hold slot raises.
-/
theorem connections_follow
    {settings : Settings}
    {matchId : String}
    {g : GameLoop α}
    (hOpening : Opening g)
    {stores : Stores α}
    {holds : String → Option (HoldJson α)}
    {s : State α}
    (hRun :
      Reaches (step settings matchId)
        (fun s act => OneMatch s act ∧ Orderly s act)
        (.start g stores holds) s)
    (hEnded : s.loop.matchEnded = false)
    (hSettled : Settled s) :
    Follows s := by
  have hInv :
      Sound s ∧ (s.loop.matchEnded = false → Linked s) := by
    refine
      hRun.invariant
        (I := fun t =>
          Sound t ∧ (t.loop.matchEnded = false → Linked t))
        ⟨sound_start g stores holds,
          fun _ => linked_start hOpening stores holds⟩ ?_
    rintro t u act ⟨hSound, hLinked⟩ ⟨hMatch, hOrderly⟩ hStep
    have hMoves := moves_of_step hStep
    exact
      ⟨sound_moves hSound hMoves,
        linked_moves hSound (hLinked hMatch.1) hMatch hOrderly
          hMoves⟩
  exact Linked.follows hInv.1 (hInv.2 hEnded) hSettled

/-
  Two players join, one of them plays, disconnects and takes
  its hold slot back with a second socket.
-/
def rejoined : State Int :=
  final (step oneTick "m1") emptyRoom
    (connects 0 ++ enters 0 "ann" ++ connects 1 ++
      enters 1 "bob" ++
      [.frame 0 (.str "shoot")] ++ leaves 0 ++ connects 2 ++
      enters 2 "ann" ++ clears 2)
    (by decide +kernel)

theorem connections_follow_rejoined :
    Follows rejoined ∧
      rejoined.connectedPlayers.get? "ann" = some 2 := by
  have hRun :
      Reaches (step oneTick "m1")
        (fun s act => OneMatch s act ∧ Orderly s act) emptyRoom
        rejoined :=
    reaches_of_run (run_eq_final (by decide +kernel))
      (by decide +kernel)
  have hSound : Sound rejoined := by
    refine
      hRun.invariant (sound_start _ .empty (fun _ => none)) ?_
    intro t u act hPrior _ hStep
    exact sound_moves hPrior (moves_of_step hStep)
  refine ⟨?_, by decide +kernel⟩
  exact
    connections_follow (opening_new oneTick "m1" 0) hRun
      (by decide +kernel)
      (settled_of_below hSound (by decide +kernel))

/-
  A player reconnects, and the disconnect of the old socket
  comes late.
-/
def lateDisconnect : State Int :=
  final (step oneTick "m1") emptyRoom
    (connects 0 ++ enters 0 "ann" ++ connects 1 ++
      enters 1 "ann" ++ leaves 0)
    (by decide +kernel)

theorem disconnect_takes_new_socket :
    Reaches (step oneTick "m1") OneMatch emptyRoom
        lateDisconnect ∧
      lateDisconnect.loop.matchEnded = false ∧
        lateDisconnect.openFor 1 = some "ann" ∧
          (lateDisconnect.handlers 1).point =
              .receiving "ann" ∧
            lateDisconnect.connectedPlayers.get? "ann" = none ∧
              connection lateDisconnect.loop.state.players
                  "ann" =
                some false ∧
                ¬ Follows lateDisconnect := by
  have hOpen : lateDisconnect.openFor 1 = some "ann" := by
    decide +kernel
  have hPoint :
      (lateDisconnect.handlers 1).point = .receiving "ann" := by
    decide +kernel
  have hFlag :
      connection lateDisconnect.loop.state.players "ann" =
        some false := by
    decide +kernel
  refine
    ⟨reaches_of_run (run_eq_final (by decide +kernel))
        (by decide +kernel),
      by decide +kernel, hOpen, hPoint, by decide +kernel,
      hFlag, ?_⟩
  intro hFollows
  have hTrue := (hFollows.flag "ann").mpr ⟨1, hOpen, hPoint⟩
  rw [hFlag] at hTrue
  cases hTrue

end Sockets
