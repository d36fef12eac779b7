import Mathlib.Data.List.Forall2
import MultiplayerInfra.Fleet.Process

/-
  The kinds of steps of a process.

  Key definitions include:
    * `Fleet.Kept`
    * `Fleet.Moves`

  Key theorems include:
    * `Fleet.kept_modify`
    * `Fleet.moves_of_step`
-/

------------------------------------------------------------
-- Loops That Are Kept
------------------------------------------------------------

namespace Fleet

open GameRoom

variable {α : Type}

/- A loop that has not ticked, and is not started anew. -/
structure KeptLoop (g g' : GameLoop α) : Prop where
  tick : g'.state.tick = g.state.tick
  ended : g.matchEnded = true → g'.matchEnded = true

/- The same loops, all of them kept. -/
abbrev Kept : List (GameLoop α) → List (GameLoop α) → Prop :=
  List.Forall₂ KeptLoop

theorem KeptLoop.refl (g : GameLoop α) : KeptLoop g g :=
  ⟨rfl, id⟩

theorem kept_refl (loops : List (GameLoop α)) :
    Kept loops loops :=
  List.forall₂_same.mpr (fun g _ => .refl g)

theorem kept_modify
    {f : GameLoop α → GameLoop α}
    (hKept : ∀ g, KeptLoop g (f g))
    (loops : List (GameLoop α))
    (b : Nat) :
    Kept loops (loops.modify b f) := by
  induction loops generalizing b with
  | nil =>
      rw [List.modify_nil]
      exact .nil
  | cons g loops ih =>
      cases b with
      | zero =>
          exact .cons (hKept g) (kept_refl loops)
      | succ b => exact .cons (.refl g) (ih b)

theorem kept_set
    {loops : List (GameLoop α)}
    {b : Nat}
    {g g' : GameLoop α}
    (hLoop : loops[b]? = some g)
    (hKept : KeptLoop g g') :
    Kept loops (loops.set b g') := by
  induction loops generalizing b with
  | nil => cases hLoop
  | cons head loops ih =>
      cases b with
      | zero =>
          cases hLoop
          exact .cons hKept (kept_refl loops)
      | succ b => exact .cons (.refl head) (ih hLoop)

/- A loop is still there, as it was kept. -/
theorem Kept.getElem?
    {loops loops' : List (GameLoop α)}
    {b : Nat}
    {g : GameLoop α}
    (hKept : Kept loops loops')
    (hLoop : loops[b]? = some g) :
    ∃ g', loops'[b]? = some g' ∧ KeptLoop g g' := by
  induction hKept generalizing b with
  | nil => cases hLoop
  | cons hHead _ ih =>
      cases b with
      | zero =>
          cases hLoop
          exact ⟨_, rfl, hHead⟩
      | succ b => exact ih hLoop

/- A loop that has ended is still there. -/
theorem Kept.any_matchEnded
    {loops loops' : List (GameLoop α)}
    {b : Nat}
    (hKept : Kept loops loops')
    (hEnded :
      (loops[b]?).any GameLoop.matchEnded = true) :
    (loops'[b]?).any GameLoop.matchEnded = true := by
  induction hKept generalizing b with
  | nil => cases hEnded
  | cons hHead _ ih =>
      cases b with
      | zero => exact hHead.ended hEnded
      | succ b => exact ih hEnded

end Fleet

------------------------------------------------------------
-- What Keeps a Loop
------------------------------------------------------------

namespace Fleet

open Py GameRoom

variable {α : Type}

theorem keptLoop_stop (g : GameLoop α) :
    KeptLoop g g.stop :=
  ⟨rfl, fun _ => rfl⟩

theorem keptLoop_enqueueInput
    (playerId : String)
    (inputData : Json α)
    (g : GameLoop α) :
    KeptLoop g (g.enqueueInput playerId inputData) :=
  ⟨rfl, id⟩

theorem keptLoop_removePlayer
    (playerId : String)
    (g : GameLoop α) :
    KeptLoop g (g.removePlayer playerId).1 := by
  refine ⟨g.tick_removePlayer playerId, ?_⟩
  intro hEnded
  unfold GameLoop.removePlayer
  split
  · exact hEnded
  · exact hEnded

theorem keptLoop_beginRun (g : GameLoop α) :
    KeptLoop g (beginRun g).1 :=
  ⟨rfl, id⟩

variable [PyNumber α]

theorem keptLoop_addPlayer
    (playerId : String)
    (hold : Option (HoldJson α))
    (g : GameLoop α) :
    KeptLoop g (g.addPlayer playerId hold) := by
  refine ⟨g.tick_addPlayer playerId hold, ?_⟩
  intro hEnded
  unfold GameLoop.addPlayer
  split
  · exact hEnded
  · split
    · exact hEnded
    · exact hEnded

end Fleet

------------------------------------------------------------
-- The Kinds of Steps
------------------------------------------------------------

namespace Fleet

open Py GameRoom
open Election (Callback)

variable {α : Type}

/- The elections that a process has yet to answer. -/
def Process.elections (p : Process α) : Nat :=
  (p.announced.toList ++ p.pending).count .elected

/- Nothing is begun: callbacks and loads may be dropped. -/
structure Keeps (p q : Process α) : Prop where
  elections : q.elections ≤ p.elections
  loading : q.loading.Sublist p.loading
  global : q.gameLoop = p.gameLoop ∨ q.gameLoop = none
  loops : Kept p.loops q.loops
  tasks : q.tasks = p.tasks

variable [PyNumber α]

/- The transitions of a process, one for each kind. -/
inductive Moves
    (settings : Settings)
    (matchId : String)
    (room : Room.State α)
    (p : Process α) :
    ProcessAct α → Outcome α → Prop where
  | win
      (hAnnounced : p.announced = none) :
      Moves settings matchId room p .win
        ⟨{ p with
            isLeader := true
            announced := some .elected },
          room.stores, some .won⟩
  | keep
      {act : ProcessAct α} {q : Process α}
      (hKeeps : Keeps p q) :
      Moves settings matchId room p act
        ⟨q, room.stores, none⟩
  | gained
      {now : Timestamp} {pending : List Callback}
      (hPending : p.pending = .elected :: pending) :
      Moves settings matchId room p (.start now)
        ⟨{ p with
            pending := pending
            loops :=
              p.loops ++ [GameLoop.new settings matchId now]
            gameLoop := some p.loops.length
            loading := p.loading ++ [p.loops.length] },
          room.stores, none⟩
  | load
      {k b : Nat} {now : Timestamp} {checkpointRead : Bool}
      {schedule : List (Option Nat)} {g g' : GameLoop α}
      (hLoading : p.loading[k]? = some b)
      (hLoop : p.loops[b]? = some g)
      (hLoad :
        loadState g
            (room.replies now checkpointRead schedule) =
          some g') :
      Moves settings matchId room p
        (.load k now checkpointRead schedule)
        ⟨{ p with
            loading := p.loading.eraseIdx k
            loops := p.loops.set b g'
            tasks := p.tasks ++ [.created p.gameLoop] },
          room.stores,
          some (.loaded (completeLoad room schedule))⟩
  | drop
      {act : ProcessAct α} {t : Nat} :
      Moves settings matchId room p act
        ⟨p.setTask t .gone, room.stores, none⟩
  | enter
      {t b : Nat} {g : GameLoop α}
      (hTask : p.tasks[t]? = some (.created (some b)))
      (hLoop : p.loops[b]? = some g) :
      Moves settings matchId room p (.enter t)
        ⟨{ p.setTask t (.inRun b .starting) with
            loops := p.loops.set b (beginRun g).1 },
          room.stores, none⟩
  | resume
      {t b : Nat} {aw aw' : Await α} {r : Reply}
      {g g' : GameLoop α} {stores : Stores α}
      (hTask : p.tasks[t]? = some (.inRun b aw))
      (hLoop : p.loops[b]? = some g)
      (hAwaits : Awaits b room.stores g aw r stores g' aw') :
      Moves settings matchId room p (.resume t r)
        ⟨{ p.setTask t (.inRun b aw') with
            loops := p.loops.set b g' },
          stores, noteOf aw r⟩
  | reset
      {t b : Nat}
      (hTask : p.tasks[t]? = some (.inRun b .returned))
      (hGlobal : p.gameLoop = some b) :
      Moves settings matchId room p (.check t)
        ⟨p.setTask t (.deleting b false), room.stores, none⟩
  | deleteKeys
      {t b : Nat}
      (hTask : p.tasks[t]? = some (.deleting b false)) :
      Moves settings matchId room p (.delete t .effect)
        ⟨p.setTask t (.deleting b true),
          room.stores.deleteRoomKeys, some .cleared⟩
  | next
      {t b : Nat} {now : Timestamp}
      (hTask : p.tasks[t]? = some (.deleting b true)) :
      Moves settings matchId room p (.delete t (.ok now))
        ⟨{ p.setTask t (.inRun p.loops.length .starting) with
            loops :=
              p.loops ++
                [(beginRun
                  (GameLoop.new settings matchId now)).1]
            gameLoop := some p.loops.length },
          room.stores, none⟩
  | crash :
      Moves settings matchId room p .crash
        ⟨Process.new, room.stores, none⟩

end Fleet

------------------------------------------------------------
-- Every Step Is One of Them
------------------------------------------------------------

namespace Fleet

open Py GameRoom
open Election (Callback)

variable {α : Type}

theorem Keeps.refl (p : Process α) : Keeps p p where
  elections := Nat.le_refl _
  loading := List.Sublist.refl _
  global := .inl rfl
  loops := kept_refl _
  tasks := rfl

/- A loop is changed, but not ticked nor started anew. -/
theorem keeps_onLoop
    {f : GameLoop α → GameLoop α}
    (hKept : ∀ g, KeptLoop g (f g))
    (p : Process α)
    (b : Nat) :
    Keeps p (p.onLoop b f) where
  elections := Nat.le_refl _
  loading := List.Sublist.refl _
  global := .inl rfl
  loops := kept_modify hKept _ _
  tasks := rfl

/- The flags change, and callbacks move or start. -/
theorem keeps_signal
    {p : Process α}
    {isLeader : Bool}
    {announced : Option Callback}
    {pending : List Callback}
    (hElections :
      (announced.toList ++ pending).count .elected ≤
        p.elections) :
    Keeps p
      { p with
        isLeader := isLeader
        announced := announced
        pending := pending } where
  elections := hElections
  loading := List.Sublist.refl _
  global := .inl rfl
  loops := kept_refl _
  tasks := rfl

/- Starting a callback leaves one less. -/
theorem elections_tail_le
    {p : Process α}
    {callback : Callback}
    {pending : List Callback}
    (hPending : p.pending = callback :: pending) :
    (p.announced.toList ++ pending).count .elected ≤
      p.elections := by
  rw [Process.elections, hPending]
  exact
    ((List.sublist_cons_self _ _).append_left _).count_le _

theorem keeps_handleLeadershipLost
    {p : Process α}
    {callback : Callback}
    {pending : List Callback}
    (hPending : p.pending = callback :: pending) :
    Keeps p
      (handleLeadershipLost { p with pending := pending }) := by
  unfold handleLeadershipLost
  split
  · exact keeps_signal (elections_tail_le hPending)
  · exact {
      elections := elections_tail_le hPending
      loading := List.Sublist.refl _
      global := .inr rfl
      loops := kept_modify keptLoop_stop _ _
      tasks := rfl }

theorem keeps_stopLoop (p : Process α) :
    Keeps p (stopLoop p) := by
  unfold stopLoop
  split
  · exact .refl p
  · exact keeps_onLoop keptLoop_stop p _

variable [PyNumber α]

theorem moves_of_step
    {settings : Settings}
    {matchId : String}
    {room : Room.State α}
    {p : Process α}
    {act : ProcessAct α}
    {out : Outcome α}
    (hStep : p.step settings matchId room act = some out) :
    Moves settings matchId room p act out := by
  cases act with
  | win =>
      simp only [Process.step] at hStep
      split at hStep
      · rename_i hFree
        cases hStep
        exact .win hFree.2
      · cases hStep
  | lose =>
      simp only [Process.step] at hStep
      split at hStep
      · rename_i hFree
        cases hStep
        refine .keep (keeps_signal ?_)
        simp [Process.elections, hFree.2]
      · cases hStep
  | dispatch =>
      rcases Option.map_eq_some_iff.mp hStep with
        ⟨callback, hAnnounced, rfl⟩
      refine .keep (keeps_signal ?_)
      simp [Process.elections, hAnnounced, List.count_cons]
  | cleanup =>
      cases hStep
      exact .keep (keeps_signal (Nat.le_refl _))
  | start now =>
      simp only [Process.step] at hStep
      split at hStep
      · cases hStep
      · rename_i pending hPending
        cases hStep
        unfold handleLeadershipGained
        split
        · exact .keep
            (keeps_signal (elections_tail_le hPending))
        · exact .gained hPending
      · rename_i pending hPending
        cases hStep
        exact .keep (keeps_handleLeadershipLost hPending)
  | load k now checkpointRead schedule =>
      simp only [Process.step, Process.finishLoad,
        Option.bind_eq_bind, Option.bind_eq_some_iff]
        at hStep
      rcases hStep with
        ⟨b, hLoading, g, hLoop, g', hLoad, hOut⟩
      cases hOut
      exact .load hLoading hLoop hLoad
  | loadFail k =>
      rcases Option.map_eq_some_iff.mp hStep with
        ⟨b, _, rfl⟩
      exact .keep {
        elections := Nat.le_refl _
        loading := List.eraseIdx_sublist _ _
        global := .inl rfl
        loops := kept_refl _
        tasks := rfl }
  | enter t =>
      simp only [Process.step] at hStep
      split at hStep
      · rename_i b hTask
        rcases Option.map_eq_some_iff.mp hStep with
          ⟨g, hLoop, rfl⟩
        exact .enter hTask hLoop
      · cases hStep
        exact .drop
      · cases hStep
  | resume t r =>
      simp only [Process.step, Process.resumeRun] at hStep
      split at hStep
      · rename_i b aw hTask
        simp only [Option.bind_eq_bind,
          Option.bind_eq_some_iff] at hStep
        rcases hStep with
          ⟨g, hLoop, ⟨stores, g', aw'⟩, hAwait, hOut⟩
        cases hOut
        exact
          .resume hTask hLoop (awaits_of_awaitStep hAwait)
      · cases hStep
  | check t =>
      simp only [Process.step] at hStep
      split at hStep
      · rename_i b hTask
        cases hStep
        split
        · rename_i hStays
          exact .reset hTask hStays.1
        · exact .drop
      · cases hStep
  | delete t r =>
      simp only [Process.step] at hStep
      split at hStep
      · rename_i hTask
        cases hStep
        exact .deleteKeys hTask
      · rename_i hTask
        cases hStep
        exact .next hTask
      · cases hStep
        exact .drop
      · cases hStep
  | input b playerId inputData =>
      cases hStep
      exact
        .keep
          (keeps_onLoop
            (keptLoop_enqueueInput playerId inputData) p b)
  | join b playerId hold =>
      cases hStep
      exact
        .keep
          (keeps_onLoop (keptLoop_addPlayer playerId hold) p b)
  | leave b playerId =>
      cases hStep
      exact
        .keep
          (keeps_onLoop (keptLoop_removePlayer playerId) p b)
  | stop =>
      cases hStep
      exact .keep (keeps_stopLoop p)
  | crash =>
      cases hStep
      exact .crash

end Fleet
