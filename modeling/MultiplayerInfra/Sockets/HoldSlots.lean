import MultiplayerInfra.GameRoom.Visits
import MultiplayerInfra.Sockets.CleanStart

/-
  Hold slots beside the ticks: a slot is a copy of a player
  that is taken at the disconnect.

  Key definitions include:
    * `Sockets.Restorable`
    * `Sockets.SlotsStay`
    * `Sockets.SlotsMatch`

  Key theorems include:
    * `Sockets.slotsMatch_moves`
    * `Sockets.hold_restores_commit`

  What the player left in the queue, what others do to them
  and the tick in flight come after the copy.
-/

------------------------------------------------------------
-- Standings That Are Kept
------------------------------------------------------------

namespace Sockets

open Py GameRoom

variable {α : Type}

/- Whoever was there is there with the same standing. -/
def KeepsStandings (players players' : Players α) : Prop :=
  ∀ p standing,
    standingOf players p = some standing →
      standingOf players' p = some standing

theorem KeepsStandings.refl (players : Players α) :
    KeepsStandings players players :=
  fun _ _ hStanding => hStanding

theorem keepsStandings_removePlayer
    (g : GameLoop α)
    (p : String) :
    KeepsStandings g.state.players
      (g.removePlayer p).1.state.players := by
  intro q standing hStanding
  rw [standingOf_removePlayer]
  exact hStanding

theorem keepsStandings_beginEndMatch
    (g : GameLoop α) :
    KeepsStandings g.state.players
      g.beginEndMatch.state.players := by
  intro p standing hStanding
  rw [standingOf_beginEndMatch]
  exact hStanding

variable [PyNumber α]

/- A join without a slot, or with one that is up to date. -/
theorem keepsStandings_addPlayer
    {g : GameLoop α}
    {p : String}
    {hold : Option (HoldJson α)}
    (hHold :
      ∀ value ∈ hold,
        standingOf g.state.players p =
          some value.standing) :
    KeepsStandings g.state.players
      (g.addPlayer p hold).state.players := by
  intro q standing hStanding
  rw [standingOf_addPlayer]
  by_cases hSame : q = p
  · subst hSame
    rw [if_pos rfl]
    cases hold with
    | none =>
        rw [hStanding]
        rfl
    | some value =>
        rw [← hStanding, hHold value rfl]
        rfl
  · rw [if_neg hSame]
    exact hStanding

omit [PyNumber α] in
/- Only the acknowledged publish of a tick commits. -/
theorem publishing_of_committing
    {aw : Await α}
    {r : Reply}
    {next : Players α}
    (hCommit : committing aw r = some next) :
    ∃ event offset now,
      aw = .publishing next event (some offset) ∧
        r = .ok now := by
  unfold committing at hCommit
  split at hCommit
  · cases hCommit
    exact ⟨_, _, _, rfl, rfl⟩
  · cases hCommit

/- The run task changes standings only when it commits. -/
theorem keepsStandings_of_awaits
    {producer : Nat}
    {st st' : Stores α}
    {g g' : GameLoop α}
    {aw aw' : Await α}
    {r : Reply}
    (hAwaits : Awaits producer st g aw r st' g' aw')
    (hNone : committing aw r = none) :
    KeepsStandings g.state.players g'.state.players := by
  cases hAwaits with
  | head _ =>
      rcases hHead : loopHead g with ⟨g₁, aw₁⟩
      cases heads_loopHead hHead with
      | publish _ hBegin =>
          rw [(frame_beginTick hBegin).1]
          exact KeepsStandings.refl _
      | pause _ hBegin =>
          rw [(frame_beginTick hBegin).1]
          exact KeepsStandings.refl _
      | finish _ => exact KeepsStandings.refl _
  | commit => cases hNone
  | redisDone _ =>
      unfold finishTick
      split
      · exact keepsStandings_beginEndMatch g
      · exact KeepsStandings.refl _
  | _ => exact KeepsStandings.refl _

end Sockets

------------------------------------------------------------
-- Slots That Stay Up to Date
------------------------------------------------------------

namespace Sockets

open Py GameRoom

variable {α : Type}

/- The slot that a handler will restore, or store. -/
def Point.slot? : Point α → Option (String × HoldJson α)
| .lookingUp playerId (some (some slot)) =>
    some (playerId, slot.value)
| .holding playerId value false => some (playerId, value)
| _ => none

/- The player whose restored slot is yet to be deleted. -/
def Point.deletes? : Point α → Option String
| .clearing playerId false => some playerId
| _ => none

namespace State

/- The slot of the player is about to be deleted. -/
def Deleting (s : State α) (p : String) : Prop :=
  ∃ k < s.sockets, (s.handlers k).point.deletes? = some p

/- The player stands as the slot says. -/
def UpToDate
    [PyNumber α]
    (s : State α)
    (p : String)
    (value : HoldJson α) : Prop :=
  standingOf s.loop.state.players p = some value.standing

instance (s : State α) (p : String) :
    Decidable (s.Deleting p) :=
  inferInstanceAs (Decidable (∃ k < s.sockets, _))

instance
    [PyNumber α]
    [DecidableEq α]
    (s : State α)
    (p : String)
    (value : HoldJson α) :
    Decidable (s.UpToDate p value) :=
  inferInstanceAs (Decidable (_ = _))

end State

/-
  A slot of the present match may still be restored: it is
  stored and not about to be deleted, or on its way.
-/
def Restorable (s : State α) (p : String) : Prop :=
  ((s.holds p).any (fun slot => slot.matchNo = s.current) =
      true ∧ ¬ s.Deleting p) ∨
    ∃ k < s.sockets,
      (s.handlers k).loop = s.current ∧
        (s.handlers k).point.slot?.map Prod.fst = some p

instance (s : State α) (p : String) :
    Decidable (Restorable s p) :=
  inferInstanceAs (Decidable (_ ∨ _))

/-
  The tick leaves those alone for whom a slot may still be
  restored.
-/
def SparesHeld (s : State α) (next : Players α) : Prop :=
  ∀ p ∈ next.keys,
    Restorable s p →
      standingOf next p = standingOf s.loop.state.players p

instance
    [DecidableEq α]
    (s : State α)
    (next : Players α) :
    Decidable (SparesHeld s next) :=
  inferInstanceAs (Decidable (∀ _ ∈ _, _))

variable [PyNumber α]

/-
  `add_player` reads a slot of its own match, and a slot that
  was restored before, because its delete is pending or has
  failed, only while it is up to date.
-/
def ReadsOnce
    (s : State α)
    (k : Nat) : Point α → Reply → Prop
| .lookingUp p none, .effect =>
    (s.handlers k).loop = s.current →
      ∀ slot ∈ s.holds p,
        slot.matchNo = s.current ∧
          (s.Deleting p → s.UpToDate p slot.value)
| .clearing p false, .fail _ =>
    ¬ (s.setPoint k (.receiving p)).Deleting p →
      ∀ slot ∈ s.holds p,
        slot.matchNo = s.current → s.UpToDate p slot.value
| _, _ => True

instance
    [DecidableEq α]
    (s : State α)
    (k : Nat) :
    (point : Point α) → (r : Reply) →
      Decidable (ReadsOnce s k point r)
| .lookingUp p none, .effect =>
    inferInstanceAs (Decidable
      ((s.handlers k).loop = s.current →
        ∀ slot ∈ s.holds p,
          slot.matchNo = s.current ∧
            (s.Deleting p → s.UpToDate p slot.value)))
| .clearing p false, .fail _ =>
    inferInstanceAs (Decidable
      (¬ (s.setPoint k (.receiving p)).Deleting p →
        ∀ slot ∈ s.holds p,
          slot.matchNo = s.current →
            s.UpToDate p slot.value))
| .accepting, _ => isTrue trivial
| .awaitingToken, _ => isTrue trivial
| .validating _, _ => isTrue trivial
| .spectating, _ => isTrue trivial
| .lookingUp _ none, .ok _ => isTrue trivial
| .lookingUp _ none, .fail _ => isTrue trivial
| .lookingUp _ (some _), _ => isTrue trivial
| .clearing _ true, _ => isTrue trivial
| .clearing _ false, .effect => isTrue trivial
| .clearing _ false, .ok _ => isTrue trivial
| .receiving _, _ => isTrue trivial
| .holding _ _ _, _ => isTrue trivial
| .returned _, _ => isTrue trivial

/- The players that a step of the match task commits. -/
def taskCommits
    (task : Room.MatchTask α)
    (r : Reply) : Option (Players α) :=
  match task with
  | .inRun aw => committing aw r
  | _ => none

/- The runs in which no slot that is restored is outdated. -/
def SlotsStay (s : State α) : Act α → Prop
| .redis k r => ReadsOnce s k (s.handlers k).point r
| .resume r => ∀ next ∈ taskCommits s.task r, SparesHeld s next
| _ => True

instance
    [DecidableEq α]
    (s : State α) :
    (act : Act α) → Decidable (SlotsStay s act)
| .redis k r =>
    inferInstanceAs (Decidable (ReadsOnce s k _ r))
| .resume r =>
    inferInstanceAs (Decidable
      (∀ next ∈ taskCommits s.task r, SparesHeld s next))
| .connect => isTrue trivial
| .accepted _ => isTrue trivial
| .token _ _ => isTrue trivial
| .validated _ _ _ => isTrue trivial
| .frame _ _ => isTrue trivial
| .disconnect _ => isTrue trivial
| .error _ => isTrue trivial
| .sendFails _ => isTrue trivial
| .expire _ => isTrue trivial
| .farewell _ => isTrue trivial
| .check _ => isTrue trivial
| .delete _ => isTrue trivial

end Sockets

------------------------------------------------------------
-- Slots, Commits and the Players
------------------------------------------------------------

namespace Sockets

open Py GameRoom Machine

variable {α : Type} [PyNumber α]

/-
  A slot that may still be restored says what the player is
  now, and so does the last commit of the match.
-/
structure SlotsMatch (s : State α) : Prop where
  sound : Sound s
  past :
    ∀ p slot, s.holds p = some slot → slot.matchNo ≤ s.current
  stored :
    ∀ p slot,
      s.holds p = some slot →
        slot.matchNo = s.current →
          ¬ s.Deleting p → s.UpToDate p slot.value
  carried :
    ∀ k p value,
      (s.handlers k).loop = s.current →
        (s.handlers k).point.slot? = some (p, value) →
          s.UpToDate p value
  commitsPast : ∀ c ∈ s.commits, c.matchNo ≤ s.current
  committed :
    ∀ c,
      s.commits.getLast? = some c →
        c.matchNo = s.current →
          KeepsStandings c.next s.loop.state.players

theorem slotsMatch_start
    {g : GameLoop α}
    {stores : Stores α}
    {holds : String → Option (HoldJson α)}
    (hHolds :
      ∀ p value,
        holds p = some value →
          standingOf g.state.players p =
            some value.standing) :
    SlotsMatch (State.start g stores holds) where
  sound := sound_start g stores holds
  past := by
    intro p slot hSlot
    rcases Option.map_eq_some_iff.mp hSlot with ⟨value, _, rfl⟩
    exact Nat.le_refl 0
  stored := by
    intro p slot hSlot _ _
    rcases Option.map_eq_some_iff.mp hSlot with
      ⟨value, hValue, rfl⟩
    exact hHolds p value hValue
  carried := nofun
  commitsPast := nofun
  committed := nofun

variable {s s' : State α}

theorem KeepsStandings.upToDate
    (hKeeps :
      KeepsStandings s.loop.state.players
        s'.loop.state.players)
    {p : String}
    {value : HoldJson α}
    (hUp : s.UpToDate p value) :
    s'.UpToDate p value :=
  hKeeps p _ hUp

omit [PyNumber α] in
/- One loop changes, and nobody loses a standing in it. -/
theorem keepsStandings_setLoop
    {n : Nat}
    {g : GameLoop α}
    (hLoops : s'.loops = (s.setLoop n g).loops)
    (hCurrent : s'.current = s.current)
    (hKeeps :
      n = s.current →
        KeepsStandings s.loop.state.players
          g.state.players) :
    KeepsStandings s.loop.state.players
      s'.loop.state.players := by
  by_cases hSame : n = s.current
  · have hThis : s'.loop = g := by
      rw [State.loop, hLoops, hCurrent, hSame,
        State.loops_setLoop_self]
    rw [hThis]
    exact hKeeps hSame
  · have hOther : s'.loop = s.loop := by
      rw [State.loop, hLoops, hCurrent,
        State.loops_setLoop_of_ne s (Ne.symm hSame),
        State.loop]
    rw [hOther]
    exact KeepsStandings.refl _

omit [PyNumber α] in
/- Who goes on deleting slots after one handler went on. -/
theorem deleting_of_setPoint
    {k : Nat}
    {point : Point α}
    (hHandlers : s'.handlers = (s.setPoint k point).handlers)
    (hSockets : s'.sockets = s.sockets)
    {p : String}
    (hStill :
      (s.handlers k).point.deletes? = some p →
        point.deletes? = some p)
    (hDeleting : s.Deleting p) :
    s'.Deleting p := by
  rcases hDeleting with ⟨j, hLt, hAt⟩
  refine ⟨j, hSockets ▸ hLt, ?_⟩
  rw [hHandlers]
  by_cases hSame : j = k
  · subst hSame
    rw [State.point_setPoint_self]
    exact hStill hAt
  · rw [State.handlers_setPoint_of_ne s hSame]
    exact hAt

/- A handler goes on, and no standing is lost. -/
theorem SlotsMatch.setPoint
    (hMatch : SlotsMatch s)
    (hSound : Sound s')
    {k : Nat}
    {point : Point α}
    (hHandlers : s'.handlers = (s.setPoint k point).handlers)
    (hCurrent : s'.current = s.current)
    (hCommits : s'.commits = s.commits)
    (hKeeps :
      KeepsStandings s.loop.state.players
        s'.loop.state.players)
    (hHolds :
      ∀ p slot,
        s'.holds p = some slot →
          slot.matchNo ≤ s.current ∧
            (slot.matchNo = s.current →
              ¬ s'.Deleting p →
                s.UpToDate p slot.value))
    (hPoint :
      ∀ p value,
        (s.handlers k).loop = s.current →
          point.slot? = some (p, value) →
            s'.UpToDate p value) :
    SlotsMatch s' where
  sound := hSound
  past := by
    intro p slot hSlot
    rw [hCurrent]
    exact (hHolds p slot hSlot).1
  stored := by
    intro p slot hSlot hSame hNot
    rw [hCurrent] at hSame
    exact
      hKeeps.upToDate ((hHolds p slot hSlot).2 hSame hNot)
  carried := by
    intro j p value hLoop hAt
    rw [hHandlers] at hLoop hAt
    rw [hCurrent, State.loop_setPoint] at hLoop
    by_cases hSame : j = k
    · subst hSame
      rw [State.point_setPoint_self] at hAt
      exact hPoint p value hLoop hAt
    · rw [State.handlers_setPoint_of_ne s hSame] at hAt
      exact hKeeps.upToDate (hMatch.carried j p value hLoop hAt)
  commitsPast := by
    rw [hCommits, hCurrent]
    exact hMatch.commitsPast
  committed := by
    rw [hCommits, hCurrent]
    intro c hLast hSame p standing hStanding
    exact
      hKeeps p standing
        (hMatch.committed c hLast hSame p standing hStanding)

/- A slot stays that the handler does not stop deleting. -/
theorem SlotsMatch.holds_same
    (hMatch : SlotsMatch s)
    {k : Nat}
    {point : Point α}
    (hHandlers : s'.handlers = (s.setPoint k point).handlers)
    (hSockets : s'.sockets = s.sockets)
    {p : String}
    {slot : Slot α}
    (hStill :
      (s.handlers k).point.deletes? = some p →
        point.deletes? = some p)
    (hSlot : s.holds p = some slot) :
    slot.matchNo ≤ s.current ∧
      (slot.matchNo = s.current →
        ¬ s'.Deleting p → s.UpToDate p slot.value) := by
  refine ⟨hMatch.past p slot hSlot, ?_⟩
  intro hSame hNot
  apply hMatch.stored p slot hSlot hSame
  intro hDeleting
  exact
    hNot
      (deleting_of_setPoint hHandlers hSockets hStill
        hDeleting)

/- A handler goes on that leaves the slots alone. -/
theorem SlotsMatch.moveOn
    (hMatch : SlotsMatch s)
    (hSound : Sound s')
    {k : Nat}
    {point : Point α}
    (hHandlers : s'.handlers = (s.setPoint k point).handlers)
    (hSockets : s'.sockets = s.sockets)
    (hHolds : s'.holds = s.holds)
    (hCurrent : s'.current = s.current)
    (hCommits : s'.commits = s.commits)
    (hKeeps :
      KeepsStandings s.loop.state.players
        s'.loop.state.players)
    (hOld : (s.handlers k).point.deletes? = none)
    (hPoint :
      ∀ p value,
        (s.handlers k).loop = s.current →
          point.slot? = some (p, value) →
            s'.UpToDate p value) :
    SlotsMatch s' := by
  refine
    hMatch.setPoint hSound hHandlers hCurrent hCommits hKeeps
      ?_ hPoint
  intro p slot hSlot
  refine
    hMatch.holds_same hHandlers hSockets ?_ (hHolds ▸ hSlot)
  intro hDeletes
  rw [hOld] at hDeletes
  cases hDeletes

/- A handler that has no slot goes on, and nothing else. -/
theorem slotsMatch_setPoint
    (hMatch : SlotsMatch s)
    {k : Nat}
    {point : Point α}
    (hSound : Sound (s.setPoint k point))
    (hOld : (s.handlers k).point.deletes? = none)
    (hNew : point.slot? = none) :
    SlotsMatch (s.setPoint k point) := by
  refine
    hMatch.moveOn hSound rfl rfl rfl rfl rfl
      (KeepsStandings.refl _) hOld ?_
  intro p value _ hAt
  rw [hNew] at hAt
  cases hAt

/- No handler goes on. -/
theorem SlotsMatch.aside
    (hMatch : SlotsMatch s)
    (hSound : Sound s')
    (hPoints :
      ∀ k,
        (s'.handlers k).loop = (s.handlers k).loop ∧
          (s'.handlers k).point = (s.handlers k).point)
    (hSockets : s'.sockets = s.sockets)
    (hHolds :
      ∀ p slot,
        s'.holds p = some slot → s.holds p = some slot)
    (hCurrent : s'.current = s.current)
    (hCommits : s'.commits = s.commits)
    (hKeeps :
      KeepsStandings s.loop.state.players
        s'.loop.state.players) :
    SlotsMatch s' := by
  refine ⟨hSound, ?_, ?_, ?_, ?_, ?_⟩
  · intro p slot hSlot
    rw [hCurrent]
    exact hMatch.past p slot (hHolds p slot hSlot)
  · intro p slot hSlot hSame hNot
    rw [hCurrent] at hSame
    apply hKeeps.upToDate
    apply hMatch.stored p slot (hHolds p slot hSlot) hSame
    rintro ⟨k, hLt, hAt⟩
    refine hNot ⟨k, hSockets ▸ hLt, ?_⟩
    rw [(hPoints k).2]
    exact hAt
  · intro k p value hSame hAt
    rw [(hPoints k).1, hCurrent] at hSame
    rw [(hPoints k).2] at hAt
    exact hKeeps.upToDate (hMatch.carried k p value hSame hAt)
  · rw [hCommits, hCurrent]
    exact hMatch.commitsPast
  · rw [hCommits, hCurrent]
    intro c hLast hSame p standing hStanding
    exact
      hKeeps p standing
        (hMatch.committed c hLast hSame p standing hStanding)

end Sockets

------------------------------------------------------------
-- Steps of the Handlers
------------------------------------------------------------

namespace Sockets

open Py GameRoom Machine

variable {α : Type} [PyNumber α]
variable {s : State α}
variable {k : Nat} {p : String}

theorem slotsMatch_connect
    (hMatch : SlotsMatch s)
    (hSound : Sound s.connect) :
    SlotsMatch s.connect := by
  have hNew :
      s.connect.handlers s.sockets =
        ⟨s.current, false, .accepting⟩ :=
    Function.update_self _ _ _
  have hOther :
      ∀ {j}, j ≠ s.sockets →
        s.connect.handlers j = s.handlers j :=
    fun hNe => Function.update_of_ne hNe _ _
  refine
    ⟨hSound, hMatch.past, ?_, ?_, hMatch.commitsPast,
      hMatch.committed⟩
  · intro q slot hSlot hSame hNot
    apply hMatch.stored q slot hSlot hSame
    rintro ⟨j, hLt, hAt⟩
    refine hNot ⟨j, Nat.lt_succ_of_lt hLt, ?_⟩
    rw [hOther (Nat.ne_of_lt hLt)]
    exact hAt
  · intro j q value hSame hAt
    by_cases hThis : j = s.sockets
    · rw [hThis, hNew] at hAt
      cases hAt
    · rw [hOther hThis] at hSame hAt
      exact hMatch.carried j q value hSame hAt

/- What the lookup finds is up to date. -/
theorem slotsMatch_lookup
    (hMatch : SlotsMatch s)
    (hPoint : (s.handlers k).point = .lookingUp p none)
    (hReads : ReadsOnce s k (s.handlers k).point .effect)
    (hSound :
      Sound
        (s.setPoint k (.lookingUp p (some (s.holds p))))) :
    SlotsMatch
      (s.setPoint k (.lookingUp p (some (s.holds p)))) := by
  refine
    hMatch.moveOn hSound rfl rfl rfl rfl rfl
      (KeepsStandings.refl _) (by rw [hPoint]; rfl) ?_
  intro q value hSame hAt
  rw [hPoint] at hReads
  cases hSlot : s.holds p with
  | none =>
      rw [hSlot] at hAt
      cases hAt
  | some slot =>
      rw [hSlot] at hAt
      cases hAt
      rcases hReads hSame slot hSlot with ⟨hOwn, hOnce⟩
      by_cases hDeleting : s.Deleting p
      · exact hOnce hDeleting
      · exact hMatch.stored p slot hSlot hOwn hDeleting

/- A join without a slot. -/
theorem keepsStandings_join
    (s : State α)
    (k : Nat)
    (p : String)
    (point : Point α) :
    KeepsStandings s.loop.state.players
      ((s.addPlayer k p none).setPoint k
        point).loop.state.players := by
  refine
    keepsStandings_setLoop (n := (s.handlers k).loop) rfl rfl
      ?_
  intro hSame
  rw [hSame]
  exact keepsStandings_addPlayer nofun

/- The slot that is restored says what the player is. -/
theorem keepsStandings_restore
    (hMatch : SlotsMatch s)
    {slot : Slot α}
    (hPoint :
      (s.handlers k).point =
        .lookingUp p (some (some slot))) :
    KeepsStandings s.loop.state.players
      (s.restore k p slot).loop.state.players := by
  refine
    keepsStandings_setLoop (n := (s.handlers k).loop) rfl rfl
      ?_
  intro hSame
  have hUp : s.UpToDate p slot.value := by
    apply hMatch.carried k p slot.value hSame
    rw [hPoint]
    rfl
  rw [hSame]
  apply keepsStandings_addPlayer
  intro value hValue
  cases hValue
  exact hUp

omit [PyNumber α] in
/- The slot is deleted, or expires. -/
theorem holds_clear
    {q : String}
    {slot : Slot α}
    (hSlot : (s.setHold p none).holds q = some slot) :
    q ≠ p ∧ s.holds q = some slot := by
  refine ⟨?_, holds_of_setHold_none hSlot⟩
  rintro rfl
  have hUpdate :
      Function.update s.holds q none q = some slot := hSlot
  rw [Function.update_self] at hUpdate
  cases hUpdate

theorem slotsMatch_clear
    (hMatch : SlotsMatch s)
    (hPoint : (s.handlers k).point = .clearing p false)
    (hSound :
      Sound
        ((s.setHold p none).setPoint k (.clearing p true))) :
    SlotsMatch
      ((s.setHold p none).setPoint k (.clearing p true)) := by
  refine
    hMatch.setPoint hSound rfl rfl rfl (KeepsStandings.refl _)
      ?_ nofun
  intro q slot hSlot
  rcases holds_clear hSlot with ⟨hNe, hOld⟩
  refine hMatch.holds_same rfl rfl ?_ hOld
  intro hThis
  rw [hPoint] at hThis
  cases hThis
  exact absurd rfl hNe

/- After a failed delete the slot stays, if it was there. -/
theorem slotsMatch_clearFail
    (hMatch : SlotsMatch s)
    {applied : Bool}
    {now : Timestamp}
    (hPoint : (s.handlers k).point = .clearing p applied)
    (hReads :
      ReadsOnce s k (s.handlers k).point (.fail now))
    (hSound :
      Sound
        ((s.addPlayer k p none).setPoint k (.receiving p))) :
    SlotsMatch
      ((s.addPlayer k p none).setPoint k (.receiving p)) := by
  have hKeeps :=
    keepsStandings_join s k p (.receiving p)
  cases applied with
  | true =>
      exact
        hMatch.moveOn hSound rfl rfl rfl rfl rfl hKeeps
          (by rw [hPoint]; rfl) nofun
  | false =>
      refine
        hMatch.setPoint hSound rfl rfl rfl hKeeps ?_ nofun
      intro q slot hSlot
      have hOld : s.holds q = some slot := hSlot
      by_cases hThis : q = p
      · subst hThis
        rw [hPoint] at hReads
        refine ⟨hMatch.past q slot hOld, ?_⟩
        intro hSame hNot
        exact hReads hNot slot hOld hSame
      · refine hMatch.holds_same rfl rfl ?_ hOld
        intro hOther
        rw [hPoint] at hOther
        cases hOther
        exact absurd rfl hThis

/- A slot is stored. -/
theorem slotsMatch_hold
    (hMatch : SlotsMatch s)
    {value : HoldJson α}
    (hPoint : (s.handlers k).point = .holding p value false)
    (hSound :
      Sound
        ((s.setHold p
          (some ⟨value, (s.handlers k).loop⟩)).setPoint k
            (.holding p value true))) :
    SlotsMatch
      ((s.setHold p
        (some ⟨value, (s.handlers k).loop⟩)).setPoint k
          (.holding p value true)) := by
  refine
    hMatch.setPoint hSound rfl rfl rfl (KeepsStandings.refl _)
      ?_ nofun
  intro q slot hSlot
  have hUpdate :
      Function.update s.holds p
        (some ⟨value, (s.handlers k).loop⟩) q =
          some slot := hSlot
  by_cases hThis : q = p
  · subst hThis
    rw [Function.update_self] at hUpdate
    cases hUpdate
    refine ⟨hMatch.sound.captured k, ?_⟩
    intro hSame _
    apply hMatch.carried k q value hSame
    rw [hPoint]
    rfl
  · rw [Function.update_of_ne hThis] at hUpdate
    refine hMatch.holds_same rfl rfl ?_ hUpdate
    intro hOther
    rw [hPoint] at hOther
    cases hOther

/- The copy that a departure takes. -/
theorem slotsMatch_leave
    (hMatch : SlotsMatch s)
    (hPoint : (s.handlers k).point = .receiving p)
    (hSound : Sound (s.leave k p)) :
    SlotsMatch (s.leave k p) := by
  have hKeeps :
      KeepsStandings s.loop.state.players
        (s.leave k p).loop.state.players := by
    refine
      keepsStandings_setLoop (n := (s.handlers k).loop) rfl
        rfl ?_
    intro hSame
    rw [hSame]
    exact keepsStandings_removePlayer s.loop p
  refine
    hMatch.moveOn hSound rfl rfl rfl rfl rfl hKeeps
      (by rw [hPoint]; rfl) ?_
  intro q value hSame hAt
  split at hAt
  · rename_i value' hValue
    cases hAt
    rcases removePlayer_spec hValue with ⟨player, hGet, rfl⟩
    apply hKeeps
    rw [State.loop, ← hSame, standingOf, hGet]
    rfl
  · cases hAt

end Sockets

------------------------------------------------------------
-- Steps of the Matches
------------------------------------------------------------

namespace Sockets

open Py GameRoom Machine

variable {α : Type} [PyNumber α]
variable {s s' : State α}

/- A step of the run task that commits nothing. -/
theorem slotsMatch_ran
    (hMatch : SlotsMatch s)
    {aw aw' : Await α}
    {r : Reply}
    {stores : Stores α}
    {g : GameLoop α}
    (hSound : Sound (s.ran aw r stores g aw'))
    (hNone : committing aw r = none)
    (hKeeps :
      KeepsStandings s.loop.state.players g.state.players) :
    SlotsMatch (s.ran aw r stores g aw') := by
  have hCommits :
      (s.ran aw r stores g aw').commits = s.commits := by
    show
      s.commits ++ ((committing aw r).map _).toList = s.commits
    rw [hNone]
    exact List.append_nil _
  have hLoop :
      KeepsStandings s.loop.state.players
        (s.ran aw r stores g aw').loop.state.players := by
    rw [loop_ran]
    exact hKeeps
  refine ⟨hSound, hMatch.past, ?_, ?_, ?_, ?_⟩
  · intro p slot hSlot hSame hNot
    exact
      hLoop.upToDate (hMatch.stored p slot hSlot hSame hNot)
  · intro k p value hSame hAt
    exact hLoop.upToDate (hMatch.carried k p value hSame hAt)
  · rw [hCommits]
    exact hMatch.commitsPast
  · rw [hCommits]
    intro c hLast hSame p standing hStanding
    exact
      hLoop p standing
        (hMatch.committed c hLast hSame p standing hStanding)

/- A commit that spares those who are held. -/
theorem slotsMatch_commit
    (hMatch : SlotsMatch s)
    {next : Players α}
    {event : StateJson α}
    {offset : Nat}
    {now : Timestamp}
    {stores : Stores α}
    {aw' : Await α}
    (hSpares : SparesHeld s next)
    (hSound :
      Sound
        (s.ran (.publishing next event (some offset))
          (.ok now) stores (s.loop.commitTick next event offset)
          aw')) :
    SlotsMatch
      (s.ran (.publishing next event (some offset)) (.ok now)
        stores (s.loop.commitTick next event offset) aw') := by
  have hStanding :
      ∀ p,
        standingOf
            (s.ran (.publishing next event (some offset))
              (.ok now) stores
              (s.loop.commitTick next event offset)
              aw').loop.state.players p =
          (standingOf next p).or
            (standingOf s.loop.state.players p) := by
    intro p
    rw [loop_ran, GameLoop.players_commitTick,
      standingOf_commitPlayers]
  have hUp :
      ∀ {p value},
        Restorable s p →
          s.UpToDate p value →
            (s.ran (.publishing next event (some offset))
              (.ok now) stores
              (s.loop.commitTick next event offset)
              aw').UpToDate p value := by
    intro p value hHeld hWas
    rw [State.UpToDate, hStanding]
    cases hNext : standingOf next p with
    | none => exact hWas
    | some standing =>
        have hMem : p ∈ next.keys := by
          rcases Option.map_eq_some_iff.mp hNext with
            ⟨player, hGet, _⟩
          exact Dict.mem_keys_iff.mpr ⟨player, hGet⟩
        rw [← hNext, hSpares p hMem hHeld, hWas]
        rfl
  refine ⟨hSound, hMatch.past, ?_, ?_, ?_, ?_⟩
  · intro p slot hSlot hSame hNot
    have hOld : s.holds p = some slot := hSlot
    have hStays : ¬ s.Deleting p := hNot
    refine
      hUp (Or.inl ⟨?_, hStays⟩)
        (hMatch.stored p slot hOld hSame hStays)
    rw [hOld, Option.any_some]
    exact decide_eq_true hSame
  · intro k p value hSame hAt
    have hPoint :
        (s.handlers k).point.slot? = some (p, value) := hAt
    refine
      hUp (Or.inr ⟨k, ?_, hSame, by rw [hPoint]; rfl⟩)
        (hMatch.carried k p value hSame hPoint)
    apply hMatch.sound.lt_sockets
    intro hFree
    rw [hFree] at hPoint
    cases hPoint
  · intro c hMem
    rcases List.mem_append.mp hMem with hOld | hNew
    · exact hMatch.commitsPast c hOld
    · rw [List.mem_singleton.mp hNew]
      exact Nat.le_refl _
  · intro c hLast _ p standing hNext
    have hThis :
        (s.commits ++
          [(⟨s.current, s.began, next⟩ :
            Commit α)]).getLast? =
          some c := hLast
    rw [List.getLast?_concat] at hThis
    cases hThis
    rw [hStanding, hNext]
    rfl

/- The next match has no slots and no commits yet. -/
theorem slotsMatch_restart
    (hMatch : SlotsMatch s)
    {settings : Settings}
    {matchId : String}
    {now : Timestamp}
    (hSound : Sound (s.restart settings matchId now)) :
    SlotsMatch (s.restart settings matchId now) := by
  have hLater :
      ∀ {n}, n ≤ s.current → n ≠ s.current + 1 := by
    intro n hLe
    omega
  refine ⟨hSound, ?_, ?_, ?_, ?_, ?_⟩
  · intro p slot hSlot
    exact Nat.le_succ_of_le (hMatch.past p slot hSlot)
  · intro p slot hSlot hSame _
    exact absurd hSame (hLater (hMatch.past p slot hSlot))
  · intro k p value hSame _
    exact absurd hSame (hLater (hMatch.sound.captured k))
  · intro c hMem
    exact Nat.le_succ_of_le (hMatch.commitsPast c hMem)
  · intro c hLast hSame
    exact
      absurd hSame
        (hLater
          (hMatch.commitsPast c (List.mem_of_getLast? hLast)))

/- The handshake looks up no slot and holds none. -/
theorem slotsMatch_handshake
    (hMatch : SlotsMatch s)
    {k : Nat}
    {point : Point α}
    (hFrom : (s.handlers k).point.outside = true)
    (hTo :
      point.outside = true ∨ ∃ close, point = .returned close)
    (hSound : Sound (s.setPoint k point)) :
    SlotsMatch (s.setPoint k point) := by
  refine
    hMatch.moveOn hSound rfl rfl rfl rfl rfl
      (KeepsStandings.refl _) ?_ ?_
  · cases hPoint : (s.handlers k).point with
    | clearing q applied =>
        rw [hPoint] at hFrom
        cases hFrom
    | _ => rfl
  · intro q value _ hAt
    rcases hTo with hOutside | ⟨close, rfl⟩
    · cases point with
      | lookingUp q reply => cases hOutside
      | holding q value applied => cases hOutside
      | _ => cases hAt
    · cases hAt

/-
  A reply commits no players, or it commits players that
  spare the held ones.
-/
theorem slotsMatch_resume
    (hMatch : SlotsMatch s)
    {aw aw' : Await α}
    {r : Reply}
    {stores : Stores α}
    {g : GameLoop α}
    (hSpares : ∀ next ∈ committing aw r, SparesHeld s next)
    (hAwaits :
      Awaits s.current s.stores s.loop aw r stores g aw')
    (hSound : Sound (s.ran aw r stores g aw')) :
    SlotsMatch (s.ran aw r stores g aw') := by
  cases hCommit : committing aw r with
  | none =>
      exact
        slotsMatch_ran hMatch hSound hCommit
          (keepsStandings_of_awaits hAwaits hCommit)
  | some next =>
      have hSpared := hSpares next hCommit
      rcases publishing_of_committing hCommit with
        ⟨event, offset, now, rfl, rfl⟩
      cases hAwaits with
      | commit =>
          exact slotsMatch_commit hMatch hSpared hSound
      | head hResumes => cases hResumes

/- Every step on slots that stay keeps them matching. -/
theorem slotsMatch_moves
    {settings : Settings}
    {matchId : String}
    {act : Act α}
    (hMatch : SlotsMatch s)
    (hStay : SlotsStay s act)
    (hMoves : Moves settings matchId s act s') :
    SlotsMatch s' := by
  have hSound := sound_moves hMatch.sound hMoves
  cases hMoves with
  | connect => exact slotsMatch_connect hMatch hSound
  | handshake hFrom hTo =>
      exact slotsMatch_handshake hMatch hFrom hTo hSound
  | register hPoint _ _ =>
      exact
        hMatch.moveOn hSound rfl rfl rfl rfl rfl
          (KeepsStandings.refl _) (by rw [hPoint]; rfl) nofun
  | lookup hPoint =>
      exact slotsMatch_lookup hMatch hPoint hStay hSound
  | join hPoint =>
      exact
        hMatch.moveOn hSound rfl rfl rfl rfl rfl
          (keepsStandings_join s _ _ _) (by rw [hPoint]; rfl)
          nofun
  | restore hPoint =>
      exact
        hMatch.moveOn hSound rfl rfl rfl rfl rfl
          (keepsStandings_restore hMatch hPoint)
          (by rw [hPoint]; rfl) nofun
  | lookupFail hPoint =>
      exact
        slotsMatch_setPoint hMatch hSound
          (by rw [hPoint]; rfl) rfl
  | clear hPoint => exact slotsMatch_clear hMatch hPoint hSound
  | cleared hPoint =>
      exact
        slotsMatch_setPoint hMatch hSound
          (by rw [hPoint]; rfl) rfl
  | clearFail hPoint =>
      exact slotsMatch_clearFail hMatch hPoint hStay hSound
  | hold hPoint => exact slotsMatch_hold hMatch hPoint hSound
  | held hPoint =>
      exact
        slotsMatch_setPoint hMatch hSound
          (by rw [hPoint]; rfl) rfl
  | @frame k p inputData hPoint =>
      refine
        hMatch.aside hSound (fun _ => ⟨rfl, rfl⟩) rfl
          (fun _ _ => id) rfl rfl ?_
      refine
        keepsStandings_setLoop (n := (s.handlers k).loop) rfl
          rfl ?_
      intro hSame
      rw [hSame]
      exact KeepsStandings.refl _
  | leave hPoint => exact slotsMatch_leave hMatch hPoint hSound
  | error hPoint =>
      exact
        hMatch.moveOn hSound rfl rfl rfl rfl rfl
          (KeepsStandings.refl _) (by rw [hPoint]; rfl) nofun
  | sendFails =>
      exact
        hMatch.aside hSound (fun _ => ⟨rfl, rfl⟩) rfl
          (fun _ _ => id) rfl rfl (KeepsStandings.refl _)
  | expire =>
      exact
        hMatch.aside hSound (fun _ => ⟨rfl, rfl⟩) rfl
          (fun _ _ hSlot => (holds_clear hSlot).2) rfl rfl
          (KeepsStandings.refl _)
  | @resume r aw aw' stores g hTask hAwaits =>
      have hSpares :
          ∀ next ∈ committing aw r, SparesHeld s next := by
        have hStays :
            ∀ next ∈ taskCommits s.task r,
              SparesHeld s next := hStay
        rw [hTask] at hStays
        exact hStays
      exact slotsMatch_resume hMatch hSpares hAwaits hSound
  | @farewell k farewells sent hTask =>
      refine
        hMatch.aside hSound ?_ rfl (fun _ _ => id) rfl rfl
          (KeepsStandings.refl _)
      intro j
      exact
        ⟨State.loop_farewell s j k farewells sent,
          State.point_farewell s j k farewells sent⟩
  | idle hTask =>
      exact
        hMatch.aside hSound (fun _ => ⟨rfl, rfl⟩) rfl
          (fun _ _ => id) rfl rfl (KeepsStandings.refl _)
  | restart hTask => exact slotsMatch_restart hMatch hSound

omit s s' in
/- The step in which a hold slot is restored. -/
theorem step_restore
    (settings : Settings)
    (matchId : String)
    {s : State α}
    {k : Nat}
    {p : String}
    {slot : Slot α}
    (hPoint :
      (s.handlers k).point = .lookingUp p (some (some slot)))
    (now : Timestamp) :
    step settings matchId s (.redis k (.ok now)) =
      some (s.restore k p slot) := by
  simp only [step, State.redis, hPoint]

/-
  Right after `add_player` has restored a hold slot in the
  match in which it plays, the player is as before, and as in
  the last committed tick, in every run in which no slot that
  may still be restored becomes outdated.
-/
theorem hold_restores_commit
    {settings : Settings}
    {matchId : String}
    {g : GameLoop α}
    {stores : Stores α}
    {holds : String → Option (HoldJson α)}
    (hHolds :
      ∀ p value,
        holds p = some value →
          standingOf g.state.players p =
            some value.standing)
    (hRun :
      Reaches (step settings matchId) SlotsStay
        (.start g stores holds) s)
    {k : Nat}
    {p : String}
    {slot : Slot α}
    {now : Timestamp}
    (hPoint :
      (s.handlers k).point = .lookingUp p (some (some slot)))
    (hPlays : (s.handlers k).loop = s.current)
    (hStep :
      step settings matchId s (.redis k (.ok now)) =
        some s') :
    standingOf s'.loop.state.players p =
        standingOf s.loop.state.players p ∧
      ∀ c standing,
        s'.commits.getLast? = some c →
          c.matchNo = s'.current →
            standingOf c.next p = some standing →
              standingOf s'.loop.state.players p =
                some standing := by
  have hMatch : SlotsMatch s := by
    refine hRun.invariant (slotsMatch_start hHolds) ?_
    intro t u act hPrior hStay hStep
    exact slotsMatch_moves hPrior hStay (moves_of_step hStep)
  have hUp : s.UpToDate p slot.value := by
    apply hMatch.carried k p slot.value hPlays
    rw [hPoint]
    rfl
  rw [step_restore settings matchId hPoint] at hStep
  cases hStep
  have hKeeps := keepsStandings_restore hMatch hPoint
  refine ⟨(hKeeps.upToDate hUp).trans hUp.symm, ?_⟩
  intro c standing hLast hSame hListed
  apply hKeeps
  exact hMatch.committed c hLast hSame p standing hListed

/- A room in which no match ends soon. -/
def longMatch : State Int :=
  .start (.new {} "m1" 0) .empty (fun _ => none)

/- She moves, leaves after the commit and comes back. -/
def comesBack : State Int :=
  final (step {} "m1") longMatch
    (connects 0 ++ enters 0 "ann" ++
      [.frame 0 right, .resume (.ok 0)] ++ calls 1 ++
      leaves 0 ++ connects 1 ++
      [.validated 1 (some "ann") true, .redis 1 .effect])
    (by decide +kernel)

/- The slot that she left behind. -/
def movedSlot : Slot Int :=
  ⟨⟨some 5, some 0, some 100, some 0⟩, 0⟩

theorem hold_restores_commit_comesBack :
    ∃ s,
      step {} "m1" comesBack (.redis 1 (.ok 0)) = some s ∧
        (standingOf s.loop.state.players "ann").map
            Standing.x = some 5 ∧
          ∀ c standing,
            s.commits.getLast? = some c →
              c.matchNo = s.current →
                standingOf c.next "ann" = some standing →
                  standingOf s.loop.state.players "ann" =
                    some standing := by
  have hPoint :
      (comesBack.handlers 1).point =
        .lookingUp "ann" (some (some movedSlot)) := by
    decide +kernel
  refine
    ⟨_, step_restore {} "m1" hPoint 0, by decide +kernel, ?_⟩
  refine
    (hold_restores_commit (g := .new {} "m1" 0) ?_
      (reaches_of_run (run_eq_final (by decide +kernel))
          (by decide +kernel) :
        Reaches (step {} "m1") SlotsStay longMatch comesBack)
      hPoint (by decide +kernel)
      (step_restore {} "m1" hPoint 0)).2
  intro p value hNone
  cases hNone

/- She leaves before the commit of the tick that moves her. -/
def cameTooSoon : State Int :=
  final (step {} "m1") longMatch
    (connects 0 ++ enters 0 "ann" ++
      [.frame 0 right, .resume (.ok 0)] ++ leaves 0 ++
      calls 1 ++ connects 1 ++ enters 1 "ann")
    (by decide +kernel)

/- The restore takes the committed movement back. -/
theorem movement_rolled_back :
    Reachable (step {} "m1") longMatch cameTooSoon ∧
      cameTooSoon.restores.map
            (fun r => (r.playerId, r.matchNo, r.recorded)) =
          [("ann", 0, 0)] ∧
        (cameTooSoon.commits.getLast?.bind
            (fun c => standingOf c.next "ann")).map
              Standing.x = some 5 ∧
          (standingOf cameTooSoon.loop.state.players
              "ann").map Standing.x = some 0 := by
  refine
    ⟨reachable_of_run (run_eq_final (by decide +kernel)),
      ?_, ?_, ?_⟩ <;>
    decide +kernel

end Sockets
