import MultiplayerInfra.Machine.History
import MultiplayerInfra.Sockets.Matches

/-
  What players bring from one match into the next one.

  Key definitions include:
    * `Sockets.OwnSlots`
    * `Sockets.StartsClean`
    * `Sockets.Clean`

  Key theorems include:
    * `Sockets.clean_resume`
    * `Sockets.clean_moves`
    * `Sockets.new_match_clean`

  The loop of a match begins without players, so what it did
  not see before can only come from a hold slot.
-/

------------------------------------------------------------
-- Fresh Players
------------------------------------------------------------

namespace Sockets

open Py GameRoom

variable {α : Type} [PyNumber α]

/- A player as it is created, up to its connection. -/
structure Fresh (player : PlayerState α) : Prop where
  x : player.x = PyNumber.ofInt 0
  y : player.y = PyNumber.ofInt 0
  health : player.health = 100
  score : player.score = 0

/- The hold slot of such a player. -/
def freshHold : HoldJson α where
  x := some (PyNumber.ofInt 0)
  y := some (PyNumber.ofInt 0)
  health := some 100
  score := some 0

/- Every player without a commit so far is a fresh one. -/
def AllFresh
    (listed : String → Prop)
    (players : Players α) : Prop :=
  ∀ p, ¬ listed p →
    ∀ player, players.get? p = some player → Fresh player

variable {listed : String → Prop}

theorem AllFresh.set
    {players : Players α}
    (hFresh : AllFresh listed players)
    {p : String}
    {player : PlayerState α}
    (hNew : ¬ listed p → Fresh player) :
    AllFresh listed (players.set p player) := by
  intro q hNot player' hGet
  rw [Dict.get?_set] at hGet
  split at hGet
  · rename_i hSame
    subst hSame
    cases hGet
    exact hNew hNot
  · exact hFresh q hNot player' hGet

/- A player joins, from a fresh slot unless it is listed. -/
theorem AllFresh.addPlayer
    {g : GameLoop α}
    (hFresh : AllFresh listed g.state.players)
    {p : String}
    {hold : Option (HoldJson α)}
    (hHold :
      ¬ listed p → ∀ value, hold = some value →
        value = freshHold) :
    AllFresh listed (g.addPlayer p hold).state.players := by
  unfold GameLoop.addPlayer
  split
  · rename_i value
    apply hFresh.set
    intro hNot
    rw [hHold hNot value rfl]
    exact ⟨rfl, rfl, rfl, rfl⟩
  · split
    · rename_i player hGet
      apply hFresh.set
      intro hNot
      have hWas := hFresh p hNot player hGet
      exact ⟨hWas.x, hWas.y, hWas.health, hWas.score⟩
    · apply hFresh.set
      intro _
      exact ⟨rfl, rfl, rfl, rfl⟩

omit [PyNumber α] in
/- What a departure writes into its hold slot. -/
theorem removePlayer_spec
    {g : GameLoop α}
    {p : String}
    {value : HoldJson α}
    (hValue : (g.removePlayer p).2 = some value) :
    ∃ player, g.state.players.get? p = some player ∧
      value =
        ⟨some player.x, some player.y, some player.health,
          some player.score⟩ := by
  unfold GameLoop.removePlayer at hValue
  split at hValue
  · cases hValue
  · rename_i player hGet
    cases hValue
    exact ⟨player, hGet, rfl⟩

theorem AllFresh.removePlayer
    {g : GameLoop α}
    (hFresh : AllFresh listed g.state.players)
    (p : String) :
    AllFresh listed (g.removePlayer p).1.state.players := by
  unfold GameLoop.removePlayer
  split
  · exact hFresh
  · rename_i player hGet
    apply hFresh.set
    intro hNot
    have hWas := hFresh p hNot player hGet
    exact ⟨hWas.x, hWas.y, hWas.health, hWas.score⟩

/- A player that is not in a commit is not changed by it. -/
theorem AllFresh.commit
    {players next : Players α}
    (hFresh : AllFresh listed players) :
    AllFresh (fun p => listed p ∨ p ∈ next.keys)
      (commitPlayers players next) := by
  intro p hNot player hGet
  rw [not_or] at hNot
  rw [get?_commitPlayers,
    Dict.get?_eq_none_iff.mpr hNot.2] at hGet
  exact hFresh p hNot.1 player hGet

theorem AllFresh.beginEndMatch
    {g : GameLoop α}
    (hFresh : AllFresh listed g.state.players) :
    AllFresh listed g.beginEndMatch.state.players := by
  intro p hNot player hGet
  have hMapped :
      (g.state.players.mapVals (fun _ player =>
        { player with connected := false })).get? p =
          some player := hGet
  rw [Dict.get?_mapVals] at hMapped
  rcases Option.map_eq_some_iff.mp hMapped with
    ⟨was, hWas, rfl⟩
  have hOld := hFresh p hNot was hWas
  exact ⟨hOld.x, hOld.y, hOld.health, hOld.score⟩

theorem AllFresh.mono
    {listed' : String → Prop}
    {players : Players α}
    (hFresh : AllFresh listed players)
    (hMore : ∀ p, listed p → listed' p) :
    AllFresh listed' players :=
  fun p hNot => hFresh p (fun hWas => hNot (hMore p hWas))

theorem allFresh_empty :
    AllFresh listed (Dict.empty : Players α) := nofun

end Sockets

------------------------------------------------------------
-- Clean Starts
------------------------------------------------------------

namespace Sockets

open Py GameRoom Machine History

variable {α : Type}

/- A commit of match `n` lists the player. -/
def Listed
    (commits : List (Commit α))
    (n : Nat)
    (p : String) : Prop :=
  ∃ c ∈ commits, c.matchNo = n ∧ p ∈ c.next.keys

/- The player whose hold slot a handler is about to read. -/
def Point.lookup? : Point α → Option String
| .lookingUp playerId none => some playerId
| _ => none

/-
  `add_player` finds no hold slot that was recorded by the
  loop of an earlier match than its own.
-/
def OwnSlots (s : State α) : Act α → Prop
| .redis k .effect =>
    ∀ p ∈ (s.handlers k).point.lookup?,
      ∀ slot ∈ s.holds p, (s.handlers k).loop ≤ slot.matchNo
| _ => True

instance (s : State α) :
    (act : Act α) → Decidable (OwnSlots s act)
| .connect => inferInstanceAs (Decidable True)
| .accepted _ => inferInstanceAs (Decidable True)
| .token _ _ => inferInstanceAs (Decidable True)
| .validated _ _ _ => inferInstanceAs (Decidable True)
| .redis k .effect =>
    inferInstanceAs (Decidable
      (∀ p ∈ (s.handlers k).point.lookup?,
        ∀ slot ∈ s.holds p,
          (s.handlers k).loop ≤ slot.matchNo))
| .redis _ (.ok _) => inferInstanceAs (Decidable True)
| .redis _ (.fail _) => inferInstanceAs (Decidable True)
| .frame _ _ => inferInstanceAs (Decidable True)
| .disconnect _ => inferInstanceAs (Decidable True)
| .error _ => inferInstanceAs (Decidable True)
| .sendFails _ => inferInstanceAs (Decidable True)
| .expire _ => inferInstanceAs (Decidable True)
| .resume _ => inferInstanceAs (Decidable True)
| .farewell _ => inferInstanceAs (Decidable True)
| .check _ => inferInstanceAs (Decidable True)
| .delete _ => inferInstanceAs (Decidable True)

variable [PyNumber α]

/-
  A commit is a tick from inputs that its match received.  A
  player that it lists first was fresh when the tick began,
  or not there at all.
-/
structure StartsClean
    (received : List (Nat × String × Json α))
    (before : List (Commit α))
    (c : Commit α) : Prop where
  tick :
    ∃ g event, c.began.beginTick = (g, some (c.next, event))
  inputs :
    ∀ e ∈ c.began.inputQueue, (c.matchNo, e) ∈ received
  fresh :
    AllFresh (Listed before c.matchNo) c.began.state.players

/- A slot of the present match, of a player not yet listed. -/
def SlotFresh
    (commits : List (Commit α))
    (current n : Nat)
    (p : String)
    (value : HoldJson α) : Prop :=
  0 < current → n = current → ¬ Listed commits current p →
    value = freshHold

/- What a handler carries along between two awaits. -/
def HandlerClean
    (commits : List (Commit α))
    (current : Nat)
    (h : Handler α) : Prop :=
  match h.point with
  | .lookingUp p (some (some slot)) =>
      slot.matchNo ≤ current ∧ h.loop ≤ slot.matchNo ∧
        SlotFresh commits current slot.matchNo p slot.value
  | .holding p value _ =>
      SlotFresh commits current h.loop p value
  | _ => True

/- A loop that has seen nothing of earlier matches. -/
structure LoopClean
    (s : State α)
    (g : GameLoop α) : Prop where
  fresh :
    0 < s.current →
      AllFresh (Listed s.commits s.current) g.state.players
  inputs :
    0 < s.current →
      ∀ e ∈ g.inputQueue, (s.current, e) ∈ s.received

/- The tick in progress began from the recorded loop. -/
def TickClean (s : State α) : Prop :=
  ∀ next event kept,
    s.task = .inRun (.publishing next event kept) →
      LoopClean s s.began ∧
        ∃ g, s.began.beginTick = (g, some (next, event))

/- No commit, slot or handler is ahead of the present match. -/
structure Clean (s : State α) : Prop where
  sound : Sound s
  past : ∀ c ∈ s.commits, c.matchNo ≤ s.current
  slots :
    ∀ p slot, s.holds p = some slot →
      slot.matchNo ≤ s.current ∧
        SlotFresh s.commits s.current slot.matchNo p slot.value
  handlers :
    ∀ k, HandlerClean s.commits s.current (s.handlers k)
  loop : LoopClean s s.loop
  tick : TickClean s
  commits :
    AtEach
      (fun before c =>
        0 < c.matchNo → StartsClean s.received before c)
      s.commits
  restores : ∀ r ∈ s.restores, r.matchNo ≤ r.recorded

theorem clean_start
    (g : GameLoop α)
    (stores : Stores α)
    (holds : String → Option (HoldJson α)) :
    Clean (State.start g stores holds) where
  sound := sound_start g stores holds
  past := nofun
  slots := by
    intro p slot hSlot
    rcases Option.map_eq_some_iff.mp hSlot with ⟨value, _, rfl⟩
    exact ⟨Nat.le_refl 0, fun hPos => absurd hPos (Nat.lt_irrefl 0)⟩
  handlers := fun _ => trivial
  loop :=
    ⟨fun hPos => absurd hPos (Nat.lt_irrefl 0),
      fun hPos => absurd hPos (Nat.lt_irrefl 0)⟩
  tick := nofun
  commits := atEach_nil _
  restores := nofun

------------------------------------------------------------
-- Steps of the Handlers
------------------------------------------------------------

theorem StartsClean.mono
    {received received' : List (Nat × String × Json α)}
    {before : List (Commit α)}
    {c : Commit α}
    (hClean : StartsClean received before c)
    (hMore : received ⊆ received') :
    StartsClean received' before c :=
  ⟨hClean.tick, fun e hMem => hMore (hClean.inputs e hMem),
    hClean.fresh⟩

/-
  A step between two steps of the run task: what was handed
  to the loop, to a slot or to a handler is clean.
-/
theorem Clean.of_kept
    {s s' : State α}
    (hClean : Clean s)
    (hSound : Sound s')
    (hCurrent : s'.current = s.current)
    (hCommits : s'.commits = s.commits)
    (hBegan : s'.began = s.began)
    (hTask :
      ∀ aw, s'.task = .inRun aw → s.task = .inRun aw)
    (hReceived : s.received ⊆ s'.received)
    (hRestores :
      ∀ r ∈ s'.restores,
        r ∈ s.restores ∨ r.matchNo ≤ r.recorded)
    (hSlots :
      ∀ p slot, s'.holds p = some slot →
        s.holds p = some slot ∨
          slot.matchNo ≤ s.current ∧
            SlotFresh s.commits s.current slot.matchNo p
              slot.value)
    (hHandlers :
      ∀ k, HandlerClean s.commits s.current (s'.handlers k))
    (hLoop : LoopClean s' s'.loop) :
    Clean s' := by
  refine ⟨hSound, ?_, ?_, ?_, hLoop, ?_, ?_, ?_⟩
  · rw [hCommits, hCurrent]
    exact hClean.past
  · intro p slot hSlot
    rw [hCommits, hCurrent]
    rcases hSlots p slot hSlot with hOld | hNew
    · exact hClean.slots p slot hOld
    · exact hNew
  · rw [hCommits, hCurrent]
    exact hHandlers
  · intro next event kept hAt
    rcases hClean.tick next event kept (hTask _ hAt) with
      ⟨hBegun, hTick⟩
    rw [hBegan]
    refine ⟨⟨?_, ?_⟩, hTick⟩
    · rw [hCommits, hCurrent]
      exact hBegun.fresh
    · rw [hCurrent]
      intro hPos e hMem
      exact hReceived (hBegun.inputs hPos e hMem)
  · rw [hCommits]
    exact
      hClean.commits.mono
        (fun _ _ hStarts hPos =>
          (hStarts hPos).mono hReceived)
  · intro r hMem
    rcases hRestores r hMem with hOld | hNew
    · exact hClean.restores r hOld
    · exact hNew

/- One handler goes to another point. -/
theorem handlers_of_setPoint
    {s s' : State α}
    (hClean : Clean s)
    {k : Nat}
    {point : Point α}
    (hHandlers : s'.handlers = (s.setPoint k point).handlers)
    (hPoint :
      HandlerClean s.commits s.current
        { s.handlers k with point := point }) :
    ∀ j, HandlerClean s.commits s.current (s'.handlers j) := by
  intro j
  rw [hHandlers]
  by_cases hSame : j = k
  · subst hSame
    rw [State.handlers_setPoint_self]
    exact hPoint
  · rw [State.handlers_setPoint_of_ne s hSame]
    exact hClean.handlers j

/- The loop of a handler changes. -/
theorem LoopClean.setLoop
    {s s' : State α}
    (hClean : LoopClean s s.loop)
    {n : Nat}
    {g : GameLoop α}
    (hLoops : s'.loops = (s.setLoop n g).loops)
    (hCurrent : s'.current = s.current)
    (hCommits : s'.commits = s.commits)
    (hReceived : s.received ⊆ s'.received)
    (hFresh :
      n = s.current → 0 < s.current →
        AllFresh (Listed s.commits s.current) g.state.players)
    (hInputs :
      n = s.current → 0 < s.current →
        ∀ e ∈ g.inputQueue, (s.current, e) ∈ s'.received) :
    LoopClean s' s'.loop := by
  by_cases hSame : n = s.current
  · have hThis : s'.loop = g := by
      rw [State.loop, hLoops, hCurrent, hSame,
        State.loops_setLoop_self]
    rw [hThis]
    constructor
    · rw [hCurrent, hCommits]
      exact hFresh hSame
    · rw [hCurrent]
      exact hInputs hSame
  · have hOther : s'.loop = s.loop := by
      rw [State.loop, hLoops, hCurrent,
        State.loops_setLoop_of_ne s (Ne.symm hSame),
        State.loop]
    rw [hOther]
    constructor
    · rw [hCurrent, hCommits]
      exact hClean.fresh
    · rw [hCurrent]
      intro hPos e hMem
      exact hReceived (hClean.inputs hPos e hMem)

/- A handler step that touches no loop. -/
theorem Clean.of_loops
    {s s' : State α}
    (hClean : Clean s)
    (hSound : Sound s')
    (hLoops : s'.loops = s.loops)
    (hCurrent : s'.current = s.current)
    (hCommits : s'.commits = s.commits)
    (hBegan : s'.began = s.began)
    (hTask :
      ∀ aw, s'.task = .inRun aw → s.task = .inRun aw)
    (hReceived : s'.received = s.received)
    (hRestores : s'.restores = s.restores)
    (hSlots :
      ∀ p slot, s'.holds p = some slot →
        s.holds p = some slot ∨
          slot.matchNo ≤ s.current ∧
            SlotFresh s.commits s.current slot.matchNo p
              slot.value)
    (hHandlers :
      ∀ k, HandlerClean s.commits s.current (s'.handlers k)) :
    Clean s' := by
  refine
    hClean.of_kept hSound hCurrent hCommits hBegan hTask ?_ ?_
      hSlots hHandlers ?_
  · rw [hReceived]
    exact List.Subset.refl _
  · rw [hRestores]
    exact fun _ => .inl
  · have hSame : s'.loop = s.loop := by
      rw [State.loop, hLoops, hCurrent, State.loop]
    rw [hSame]
    constructor
    · rw [hCurrent, hCommits]
      exact hClean.loop.fresh
    · rw [hCurrent, hReceived]
      exact hClean.loop.inputs

/- `add_player` on a slot of the same match, if any. -/
theorem loopClean_addPlayer
    {s s' : State α}
    (hClean : Clean s)
    {k : Nat}
    {p : String}
    {hold : Option (HoldJson α)}
    (hLoops : s'.loops = (s.addPlayer k p hold).loops)
    (hCurrent : s'.current = s.current)
    (hCommits : s'.commits = s.commits)
    (hReceived : s'.received = s.received)
    (hHold :
      ∀ value, hold = some value →
        SlotFresh s.commits s.current (s.handlers k).loop p
          value) :
    LoopClean s' s'.loop := by
  refine
    hClean.loop.setLoop hLoops hCurrent hCommits ?_ ?_ ?_
  · rw [hReceived]
    exact List.Subset.refl _
  · intro hSame hPos
    rw [hSame]
    apply AllFresh.addPlayer (hClean.loop.fresh hPos)
    intro hNot value hValue
    exact hHold value hValue hPos hSame hNot
  · intro hSame hPos e hMem
    rw [hReceived]
    rw [hSame, GameLoop.inputQueue_addPlayer] at hMem
    exact hClean.loop.inputs hPos e hMem

omit [PyNumber α] in
theorem holds_of_setHold_none
    {s : State α}
    {p q : String}
    {slot : Slot α}
    (hSlot : (s.setHold p none).holds q = some slot) :
    s.holds q = some slot := by
  have hUpdate :
      Function.update s.holds p none q = some slot := hSlot
  by_cases hSame : q = p
  · subst hSame
    rw [Function.update_self] at hUpdate
    cases hUpdate
  · rw [Function.update_of_ne hSame] at hUpdate
    exact hUpdate

/- The slot that a departure is about to store. -/
theorem handlerClean_leave
    {s : State α}
    (hClean : Clean s)
    (k : Nat)
    (p : String) :
    HandlerClean s.commits s.current
      { s.handlers k with
        point :=
          match ((s.loops (s.handlers k).loop).removePlayer
            p).2 with
          | some value => .holding p value false
          | none => .returned none } := by
  cases hValue :
      ((s.loops (s.handlers k).loop).removePlayer p).2 with
  | none => trivial
  | some value =>
      intro hPos hSame hNot
      rcases removePlayer_spec hValue with ⟨player, hGet, rfl⟩
      have hThis : s.loop.state.players.get? p = some player := by
        rw [State.loop, ← hSame]
        exact hGet
      have hFresh := hClean.loop.fresh hPos p hNot player hThis
      rw [hFresh.x, hFresh.y, hFresh.health, hFresh.score]
      rfl

theorem clean_leave
    {s : State α}
    (hClean : Clean s)
    {k : Nat}
    {p : String}
    (hSound : Sound (s.leave k p)) :
    Clean (s.leave k p) := by
  refine
    hClean.of_kept hSound rfl rfl rfl (fun _ => id)
      (List.Subset.refl _) (fun _ => .inl) (fun _ _ => .inl)
      (handlers_of_setPoint hClean rfl
        (handlerClean_leave hClean k p)) ?_
  refine
    hClean.loop.setLoop rfl rfl rfl (List.Subset.refl _) ?_ ?_
  · intro hSame hPos
    rw [hSame]
    exact AllFresh.removePlayer (hClean.loop.fresh hPos) p
  · intro hSame hPos e hMem
    rw [hSame, GameLoop.inputQueue_removePlayer] at hMem
    exact hClean.loop.inputs hPos e hMem

/- An input is received for the loop of its handler. -/
theorem clean_frame
    {s : State α}
    (hClean : Clean s)
    {k : Nat}
    {p : String}
    {inputData : Json α}
    (hSound : Sound (s.enqueue k p inputData)) :
    Clean (s.enqueue k p inputData) := by
  have hMore :
      s.received ⊆ (s.enqueue k p inputData).received :=
    List.subset_append_left _ _
  refine
    hClean.of_kept hSound rfl rfl rfl (fun _ => id) hMore
      (fun _ => .inl) (fun _ _ => .inl) hClean.handlers ?_
  refine hClean.loop.setLoop rfl rfl rfl hMore ?_ ?_
  · intro hSame hPos
    rw [hSame]
    exact hClean.loop.fresh hPos
  · intro hSame hPos e hMem
    rw [hSame] at hMem
    rcases List.mem_append.mp hMem with hOld | hNew
    · exact hMore (hClean.loop.inputs hPos e hOld)
    · apply List.mem_append_right
      rw [List.mem_singleton.mp hNew, hSame]
      exact List.mem_singleton_self _

/- A hold slot is restored. -/
theorem clean_restore
    {s : State α}
    (hClean : Clean s)
    {k : Nat}
    {p : String}
    {slot : Slot α}
    (hPoint :
      (s.handlers k).point = .lookingUp p (some (some slot)))
    (hSound : Sound (s.restore k p slot)) :
    Clean (s.restore k p slot) := by
  have hHandler := hClean.handlers k
  rw [HandlerClean, hPoint] at hHandler
  rcases hHandler with ⟨hPast, hOwn, hFresh⟩
  refine
    hClean.of_kept hSound rfl rfl rfl (fun _ => id)
      (List.Subset.refl _) ?_ (fun _ _ => .inl)
      (handlers_of_setPoint hClean rfl trivial) ?_
  · intro r hMem
    rcases List.mem_append.mp hMem with hOld | hNew
    · exact .inl hOld
    · rw [List.mem_singleton.mp hNew]
      exact .inr hOwn
  · have hLoops :
        (s.restore k p slot).loops =
          (s.addPlayer k p (some slot.value)).loops := rfl
    refine loopClean_addPlayer hClean hLoops rfl rfl rfl ?_
    intro value hValue hPos hSame
    cases hValue
    exact hFresh hPos (by omega)

/- `add_player` without a slot, or after a failed delete. -/
theorem clean_join
    {s : State α}
    (hClean : Clean s)
    {k : Nat}
    {p : String}
    (hSound :
      Sound
        ((s.addPlayer k p none).setPoint k (.receiving p))) :
    Clean ((s.addPlayer k p none).setPoint k (.receiving p)) :=
  hClean.of_kept hSound rfl rfl rfl (fun _ => id)
    (List.Subset.refl _) (fun _ => .inl) (fun _ _ => .inl)
    (handlers_of_setPoint hClean rfl trivial)
    (loopClean_addPlayer hClean rfl rfl rfl rfl nofun)

end Sockets

------------------------------------------------------------
-- Steps of the Matches
------------------------------------------------------------

namespace Sockets

open Py GameRoom Machine History

variable {α : Type} [PyNumber α]

omit [PyNumber α] in
theorem loop_ran
    (s : State α)
    (aw : Await α)
    (r : Reply)
    (stores : Stores α)
    (g : GameLoop α)
    (aw' : Await α) :
    (s.ran aw r stores g aw').loop = g :=
  Function.update_self _ _ _

/- More commits list more players. -/
theorem SlotFresh.mono
    {commits : List (Commit α)}
    {current n : Nat}
    {p : String}
    {value : HoldJson α}
    (hFresh : SlotFresh commits current n p value)
    (more : List (Commit α)) :
    SlotFresh (commits ++ more) current n p value := by
  intro hPos hSame hNot
  apply hFresh hPos hSame
  rintro ⟨c, hMem, hListed⟩
  exact hNot ⟨c, List.mem_append_left _ hMem, hListed⟩

theorem HandlerClean.mono
    {commits : List (Commit α)}
    {current : Nat}
    {h : Handler α}
    (hClean : HandlerClean commits current h)
    (more : List (Commit α)) :
    HandlerClean (commits ++ more) current h := by
  unfold HandlerClean at hClean ⊢
  split
  · rename_i hPoint
    rw [hPoint] at hClean
    exact ⟨hClean.1, hClean.2.1, hClean.2.2.mono more⟩
  · rename_i hPoint
    rw [hPoint] at hClean
    exact hClean.mono more
  · trivial

/- A reply that commits nothing. -/
theorem clean_ran
    {s : State α}
    (hClean : Clean s)
    {aw aw' : Await α}
    {r : Reply}
    {stores : Stores α}
    {g : GameLoop α}
    (hSound : Sound (s.ran aw r stores g aw'))
    (hNone : committing aw r = none)
    (hLoop : LoopClean s g)
    (hTick :
      ∀ next event kept,
        aw' = .publishing next event kept →
          LoopClean s (s.note aw r).began ∧
            ∃ g', (s.note aw r).began.beginTick =
              (g', some (next, event))) :
    Clean (s.ran aw r stores g aw') := by
  have hCommits :
      (s.ran aw r stores g aw').commits = s.commits := by
    show
      s.commits ++ ((committing aw r).map _).toList = s.commits
    rw [hNone]
    exact List.append_nil _
  refine ⟨hSound, ?_, ?_, ?_, ?_, ?_, ?_, hClean.restores⟩
  · rw [hCommits]
    exact hClean.past
  · rw [hCommits]
    exact hClean.slots
  · rw [hCommits]
    exact hClean.handlers
  · rw [loop_ran]
    constructor
    · rw [hCommits]
      exact hLoop.fresh
    · exact hLoop.inputs
  · intro next event kept hAt
    injection hAt with hAwait
    rcases hTick next event kept hAwait with ⟨hBegan, hBegun⟩
    refine ⟨⟨?_, hBegan.inputs⟩, hBegun⟩
    rw [hCommits]
    exact hBegan.fresh
  · rw [hCommits]
    exact hClean.commits

/- The commit of a tick. -/
theorem clean_commit
    {s : State α}
    (hClean : Clean s)
    {next : Players α}
    {event : StateJson α}
    {offset : Nat}
    {now : Timestamp}
    (hTask :
      s.task = .inRun (.publishing next event (some offset)))
    {stores : Stores α}
    {aw : Await α}
    (hSound :
      Sound
        (s.ran (.publishing next event (some offset)) (.ok now)
          stores (s.loop.commitTick next event offset) aw))
    (hNext :
      ∀ next event kept, aw ≠ .publishing next event kept) :
    Clean
      (s.ran (.publishing next event (some offset)) (.ok now)
        stores (s.loop.commitTick next event offset) aw) := by
  rcases hClean.tick next event (some offset) hTask with
    ⟨hBegan, g, hTick⟩
  refine ⟨hSound, ?_, ?_, ?_, ?_, ?_, ?_, hClean.restores⟩
  · intro c hMem
    rcases List.mem_append.mp hMem with hOld | hNew
    · exact hClean.past c hOld
    · rw [List.mem_singleton.mp hNew]
      exact Nat.le_refl _
  · intro p slot hSlot
    rcases hClean.slots p slot hSlot with ⟨hPast, hFresh⟩
    exact ⟨hPast, hFresh.mono _⟩
  · intro k
    exact (hClean.handlers k).mono _
  · rw [loop_ran]
    constructor
    · intro hPos
      have hCommit :
          AllFresh
            (fun p =>
              Listed s.commits s.current p ∨ p ∈ next.keys)
            (commitPlayers s.loop.state.players next) :=
        (hClean.loop.fresh hPos).commit
      rw [GameLoop.players_commitTick]
      apply hCommit.mono
      rintro p (⟨c, hMem, hListed⟩ | hNew)
      · exact ⟨c, List.mem_append_left _ hMem, hListed⟩
      · exact
          ⟨_,
            List.mem_append_right _
              (List.mem_singleton_self _),
            rfl, hNew⟩
    · exact hClean.loop.inputs
  · intro next' event' kept hAt
    injection hAt with hAwait
    exact absurd hAwait (hNext next' event' kept)
  · apply hClean.commits.concat
    intro hPos
    exact
      ⟨⟨g, event, hTick⟩, hBegan.inputs hPos,
        hBegan.fresh hPos⟩

theorem loopClean_beginTick
    {s : State α}
    {g g' : GameLoop α}
    {result : Option (Players α × StateJson α)}
    (hClean : LoopClean s g)
    (hBegin : g.beginTick = (g', result)) :
    LoopClean s g' := by
  have hState := (frame_beginTick hBegin).1
  have hQueue := GameLoop.subset_inputQueue_beginTick hBegin
  constructor
  · rw [hState]
    exact hClean.fresh
  · intro hPos e hMem
    exact hClean.inputs hPos e (hQueue hMem)

/- The head of `run`. -/
theorem clean_head
    {s : State α}
    (hClean : Clean s)
    {aw aw' : Await α}
    {r : Reply}
    {stores : Stores α}
    {g : GameLoop α}
    (hResumes : Resumes aw)
    (hHead : loopHead s.loop = (g, aw'))
    (hSound : Sound (s.ran aw r stores g aw')) :
    Clean (s.ran aw r stores g aw') := by
  have hNone : committing aw r = none := by
    cases hResumes <;> rfl
  have hBegan : (s.note aw r).began = s.loop := by
    cases hResumes <;> rfl
  cases heads_loopHead hHead with
  | publish _ hBegin =>
      refine
        clean_ran hClean hSound hNone
          (loopClean_beginTick hClean.loop hBegin) ?_
      intro next event kept hAt
      cases hAt
      rw [hBegan]
      exact ⟨hClean.loop, g, hBegin⟩
  | pause _ hBegin =>
      exact
        clean_ran hClean hSound hNone
          (loopClean_beginTick hClean.loop hBegin) nofun
  | finish _ =>
      exact clean_ran hClean hSound hNone hClean.loop nofun

/- A reply that leaves the loop alone and begins no tick. -/
theorem clean_same
    {s : State α}
    (hClean : Clean s)
    {aw aw' : Await α}
    {r : Reply}
    {stores : Stores α}
    (hSound : Sound (s.ran aw r stores s.loop aw'))
    (hNone : committing aw r = none)
    (hNext :
      ∀ next event kept, aw' ≠ .publishing next event kept) :
    Clean (s.ran aw r stores s.loop aw') :=
  clean_ran hClean hSound hNone hClean.loop
    (fun next event kept hAt =>
      absurd hAt (hNext next event kept))

/- Every reply to the run task. -/
theorem clean_resume
    {s : State α}
    (hClean : Clean s)
    {aw aw' : Await α}
    {r : Reply}
    {stores : Stores α}
    {g : GameLoop α}
    (hTask : s.task = .inRun aw)
    (hAwaits :
      Awaits s.current s.stores s.loop aw r stores g aw')
    (hSound : Sound (s.ran aw r stores g aw')) :
    Clean (s.ran aw r stores g aw') := by
  cases hAwaits with
  | head hResumes => exact clean_head hClean hResumes rfl hSound
  | appendEvent =>
      refine clean_ran hClean hSound rfl hClean.loop ?_
      intro next event kept hAt
      cases hAt
      exact hClean.tick _ _ none hTask
  | commit => exact clean_commit hClean hTask hSound nofun
  | dropTick =>
      rename_i kept _
      refine clean_same hClean hSound ?_ nofun
      cases kept <;> rfl
  | redisEffect => exact clean_same hClean hSound rfl nofun
  | redisNext _ => exact clean_same hClean hSound rfl nofun
  | redisDone _ =>
      revert hSound
      unfold finishTick
      split
      · intro hSound
        refine clean_ran hClean hSound rfl ?_ nofun
        exact
          ⟨fun hPos => (hClean.loop.fresh hPos).beginEndMatch,
            hClean.loop.inputs⟩
      · intro hSound
        exact clean_same hClean hSound rfl nofun
  | redisFail => exact clean_same hClean hSound rfl nofun
  | farewell => exact clean_same hClean hSound rfl nofun
  | appendEnd => exact clean_same hClean hSound rfl nofun
  | endPublished => exact clean_same hClean hSound rfl nofun
  | endTelemetry =>
      refine clean_same hClean hSound rfl ?_
      unfold writeMatchRecord
      split <;> exact nofun
  | saveEffect => exact clean_same hClean hSound rfl nofun
  | saved => exact clean_same hClean hSound rfl nofun
  | saveFailed => exact clean_same hClean hSound rfl nofun
  | retry =>
      refine clean_same hClean hSound rfl ?_
      unfold retrySave
      split <;> exact nofun

/- A new handler holds no slot. -/
theorem clean_connect
    {s : State α}
    (hClean : Clean s)
    (hSound : Sound s.connect) :
    Clean s.connect := by
  refine
    hClean.of_loops hSound rfl rfl rfl rfl (fun _ => id)
      rfl rfl (fun _ _ => .inl) ?_
  intro k
  show
    HandlerClean s.commits s.current
      (Function.update s.handlers s.sockets _ k)
  by_cases hSame : k = s.sockets
  · rw [hSame, Function.update_self]
    trivial
  · rw [Function.update_of_ne hSame]
    exact hClean.handlers k

/- A slot is written with the value its handler read. -/
theorem clean_hold
    {s : State α}
    (hClean : Clean s)
    {k : Nat}
    {p : String}
    {value : HoldJson α}
    (hPoint : (s.handlers k).point = .holding p value false)
    (hSound :
      Sound
        ((s.setHold p
          (some ⟨value, (s.handlers k).loop⟩)).setPoint k
            (.holding p value true))) :
    Clean
      ((s.setHold p
        (some ⟨value, (s.handlers k).loop⟩)).setPoint k
          (.holding p value true)) := by
  have hValue := hClean.handlers k
  rw [HandlerClean, hPoint] at hValue
  refine
    hClean.of_loops hSound rfl rfl rfl rfl (fun _ => id)
      rfl rfl ?_ (handlers_of_setPoint hClean rfl hValue)
  intro q slot hSlot
  have hUpdate :
      Function.update s.holds p
        (some ⟨value, (s.handlers k).loop⟩) q =
          some slot := hSlot
  by_cases hSame : q = p
  · subst hSame
    rw [Function.update_self] at hUpdate
    cases hUpdate
    exact .inr ⟨hClean.sound.captured k, hValue⟩
  · rw [Function.update_of_ne hSame] at hUpdate
    exact .inl hUpdate

/- The next match begins with an empty loop. -/
theorem clean_restart
    {settings : Settings}
    {matchId : String}
    {s : State α}
    (hClean : Clean s)
    {now : Timestamp}
    (hSound : Sound (s.restart settings matchId now)) :
    Clean (s.restart settings matchId now) := by
  have hLater :
      ∀ {n : Nat} {p : String} {value : HoldJson α},
        n ≤ s.current →
          SlotFresh s.commits (s.current + 1) n p value := by
    intro n p value hLe _ hSame
    omega
  have hLoop :
      (s.restart settings matchId now).loop =
        (beginRun (GameLoop.new settings matchId now)).1 :=
    Function.update_self _ _ _
  refine
    ⟨hSound, fun c hMem => Nat.le_succ_of_le (hClean.past c hMem),
      ?_, ?_, ?_, nofun, hClean.commits, hClean.restores⟩
  · intro p slot hSlot
    have hPast := (hClean.slots p slot hSlot).1
    exact ⟨Nat.le_succ_of_le hPast, hLater hPast⟩
  · intro k
    have hHandler := hClean.handlers k
    have hCaptured := hClean.sound.captured k
    show HandlerClean s.commits (s.current + 1) (s.handlers k)
    unfold HandlerClean at hHandler ⊢
    split
    · rename_i hPoint
      rw [hPoint] at hHandler
      exact
        ⟨Nat.le_succ_of_le hHandler.1, hHandler.2.1,
          hLater hHandler.1⟩
    · exact hLater hCaptured
    · trivial
  · rw [hLoop]
    exact ⟨fun _ => allFresh_empty, fun _ => nofun⟩

------------------------------------------------------------
-- Every Step
------------------------------------------------------------

/- Every step on own slots keeps the room clean. -/
theorem clean_moves
    {settings : Settings}
    {matchId : String}
    {s s' : State α}
    {act : Act α}
    (hClean : Clean s)
    (hOwn : OwnSlots s act)
    (hMoves : Moves settings matchId s act s') :
    Clean s' := by
  have hSound := sound_moves hClean.sound hMoves
  cases hMoves with
  | connect => exact clean_connect hClean hSound
  | handshake hFrom hTo =>
      refine
        hClean.of_loops hSound rfl rfl rfl rfl (fun _ => id)
          rfl rfl (fun _ _ => .inl)
          (handlers_of_setPoint hClean rfl ?_)
      rcases hTo with hOutside | ⟨close, rfl⟩
      · rename_i point
        cases point <;> trivial
      · trivial
  | register hPoint _ _ =>
      exact
        hClean.of_loops hSound rfl rfl rfl rfl (fun _ => id)
          rfl rfl (fun _ _ => .inl)
          (handlers_of_setPoint hClean rfl trivial)
  | lookup hPoint =>
      rename_i k p
      refine
        hClean.of_loops hSound rfl rfl rfl rfl (fun _ => id)
          rfl rfl (fun _ _ => .inl)
          (handlers_of_setPoint hClean rfl ?_)
      cases hSlot : s.holds p with
      | none => trivial
      | some slot =>
          rcases hClean.slots p slot hSlot with ⟨hPast, hFresh⟩
          have hLe : (s.handlers k).loop ≤ slot.matchNo := by
            apply hOwn p _ slot hSlot
            rw [hPoint]
            rfl
          exact ⟨hPast, hLe, hFresh⟩
  | join hPoint => exact clean_join hClean hSound
  | restore hPoint => exact clean_restore hClean hPoint hSound
  | lookupFail hPoint =>
      exact
        hClean.of_loops hSound rfl rfl rfl rfl (fun _ => id)
          rfl rfl (fun _ _ => .inl)
          (handlers_of_setPoint hClean rfl trivial)
  | clear hPoint =>
      refine
        hClean.of_loops hSound rfl rfl rfl rfl (fun _ => id)
          rfl rfl ?_ (handlers_of_setPoint hClean rfl trivial)
      intro q slot hSlot
      exact .inl (holds_of_setHold_none hSlot)
  | cleared hPoint =>
      exact
        hClean.of_loops hSound rfl rfl rfl rfl (fun _ => id)
          rfl rfl (fun _ _ => .inl)
          (handlers_of_setPoint hClean rfl trivial)
  | clearFail hPoint => exact clean_join hClean hSound
  | hold hPoint => exact clean_hold hClean hPoint hSound
  | held hPoint =>
      exact
        hClean.of_loops hSound rfl rfl rfl rfl (fun _ => id)
          rfl rfl (fun _ _ => .inl)
          (handlers_of_setPoint hClean rfl trivial)
  | frame hPoint => exact clean_frame hClean hSound
  | leave hPoint => exact clean_leave hClean hSound
  | error hPoint =>
      exact
        hClean.of_loops hSound rfl rfl rfl rfl (fun _ => id)
          rfl rfl (fun _ _ => .inl)
          (handlers_of_setPoint hClean rfl trivial)
  | sendFails =>
      exact
        hClean.of_loops hSound rfl rfl rfl rfl (fun _ => id)
          rfl rfl (fun _ _ => .inl) hClean.handlers
  | expire =>
      refine
        hClean.of_loops hSound rfl rfl rfl rfl (fun _ => id)
          rfl rfl ?_ hClean.handlers
      intro q slot hSlot
      exact .inl (holds_of_setHold_none hSlot)
  | resume hTask hAwaits =>
      exact clean_resume hClean hTask hAwaits hSound
  | farewell hTask =>
      rename_i k farewells sent
      refine
        hClean.of_loops hSound rfl rfl rfl rfl (fun _ => id)
          rfl rfl (fun _ _ => .inl) ?_
      intro j
      have hHandler := hClean.handlers j
      rw [HandlerClean] at hHandler ⊢
      rw [State.point_farewell, State.loop_farewell]
      exact hHandler
  | idle hTask =>
      exact
        hClean.of_loops hSound rfl rfl rfl rfl
          (fun aw hAt => absurd hAt (hTask aw)) rfl rfl
          (fun _ _ => .inl) hClean.handlers
  | restart hTask => exact clean_restart hClean hSound

/-
  A new match starts clean, in every run in which no
  `add_player` finds a hold slot of an earlier match.
-/
theorem new_match_clean
    {settings : Settings}
    {matchId : String}
    {g : GameLoop α}
    {stores : Stores α}
    {holds : String → Option (HoldJson α)}
    {s : State α}
    (hRun :
      Reaches (step settings matchId) OwnSlots
        (.start g stores holds) s) :
    AtEach
        (fun before c =>
          0 < c.matchNo → StartsClean s.received before c)
        s.commits ∧
      ∀ r ∈ s.restores, r.matchNo ≤ r.recorded := by
  have hClean : Clean s := by
    refine hRun.invariant (clean_start g stores holds) ?_
    intro t u act hPrior hOwn hStep
    exact clean_moves hPrior hOwn (moves_of_step hStep)
  exact ⟨hClean.commits, hClean.restores⟩

/- A message that moves the player, and one that shoots. -/
def right : Json Int :=
  .obj [("dx", .num 1)]

def shot : Json Int :=
  .obj [("shoot", .bool true)]

/- The slot of the first match expires before the second. -/
def expired : State Int :=
  final (step oneTick "m1") emptyRoom
    (connects 0 ++ enters 0 "ann" ++
      [.frame 0 right, .resume (.ok 0)] ++ calls 7 ++
      [.farewell true] ++ leaves 0 ++ finishes ++
      [.expire "ann"] ++ connects 1 ++ enters 1 "ann" ++
      [.frame 1 right, .resume (.ok 0)] ++ calls 1)
    (by decide +kernel)

theorem new_match_clean_expired :
    expired.commits.map
          (fun c => (c.matchNo, (c.next.get? "ann").map
            PlayerState.x)) =
        [(0, some 5), (1, some 5)] ∧
      AtEach
          (fun before c =>
            0 < c.matchNo →
              StartsClean expired.received before c)
          expired.commits ∧
        ∀ r ∈ expired.restores, r.matchNo ≤ r.recorded := by
  refine ⟨by decide +kernel, ?_⟩
  exact
    new_match_clean
      (reaches_of_run (run_eq_final (by decide +kernel))
          (by decide +kernel) :
        Reaches (step oneTick "m1") OwnSlots emptyRoom
          expired)

/-
  The disconnect that `end_match` causes stores the score of
  the first match, and the second match restores it.
-/
def inherited : State Int :=
  final (step oneTick "m1") emptyRoom
    (connects 0 ++ enters 0 "ann" ++ connects 1 ++
      enters 1 "bob" ++
      [.frame 0 shot, .resume (.ok 0)] ++ calls 7 ++
      [.farewell true, .farewell true] ++ leaves 0 ++
      finishes ++ connects 2 ++ enters 2 "ann" ++ clears 2 ++
      [.resume (.ok 0)] ++ calls 1)
    (by decide +kernel)

theorem score_inherited :
    Reachable (step oneTick "m1") emptyRoom inherited ∧
      inherited.commits.map
            (fun c => (c.matchNo, (c.next.get? "ann").map
              PlayerState.score)) =
          [(0, some 10), (1, some 10)] ∧
        (∀ e ∈ inherited.received, e.1 = 0) ∧
          inherited.restores.map
              (fun r => (r.playerId, r.matchNo, r.recorded)) =
            [("ann", 1, 0)] := by
  refine
    ⟨reachable_of_run (run_eq_final (by decide +kernel)),
      ?_, ?_, ?_⟩ <;>
    decide +kernel

end Sockets
