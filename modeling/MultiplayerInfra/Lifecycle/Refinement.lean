import MultiplayerInfra.Election.Claims
import MultiplayerInfra.GameRoom.RunTask
import MultiplayerInfra.Lifecycle.Process

/-
  The process machine stands for the election threads and
  for the run tasks of the game loops.

  Key definitions include:
    * `Lifecycle.Signals`
    * `Lifecycle.Announced`
    * `Lifecycle.Tracks`
    * `Lifecycle.loopOf`

  Key theorems include:
    * `Lifecycle.announced_of_reaches`
    * `Lifecycle.tracks_step`
    * `Lifecycle.follows_of_reaches`
    * `Lifecycle.loop_of_awaits`

  A thread shows its `is_leader` and the number of callbacks
  it has dispatched; a run task shows the flags of its loop.
-/

------------------------------------------------------------
-- What an Election Thread Shows
------------------------------------------------------------

namespace Lifecycle

open Election

/- The first callbacks that a thread dispatches. -/
def callbacks (n : Nat) : List Callback :=
  (List.range n).map callback

theorem callbacks_succ (n : Nat) :
    callbacks (n + 1) = callbacks n ++ [callback n] := by
  simp [callbacks, List.range_succ]

/- The flag of a thread, and how often it has dispatched. -/
structure View where
  isLeader : Bool
  dispatched : Nat

def view (r : LeaderElection) : View where
  isLeader := r.isLeader
  dispatched := r.dispatched.length

/- How a thread that is not stopped changes what it shows. -/
inductive Signals (v : View) : View → Prop where
  | stay : Signals v v
  | win
      (hLeader : v.isLeader = false)
      (hNext : callback v.dispatched = .elected) :
      Signals v { v with isLeader := true }
  | lose
      (hLeader : v.isLeader = true)
      (hNext : callback v.dispatched = .lost) :
      Signals v { v with isLeader := false }
  | dispatch
      (hFlag :
        v.isLeader = true ↔ callback v.dispatched = .elected) :
      Signals v { v with dispatched := v.dispatched + 1 }

/- The callback that the code at a call dispatches next. -/
def dueAt : Call → Option Callback
| .campaignRevoke _ => some .elected
| .campaignLease => some .elected
| .campaignTxn _ => some .elected
| .campaignPut _ => some .elected
| .serveGet => some .lost
| .serveRefresh _ => some .lost
| .loseRevoke _ => some .lost
| .loseDeleteAddress => some .lost
| .waitGet => some .elected
| .cleanupRevoke _ => none
| .cleanupDelete => none
| .cleanupDeleteAddress => none

def due (r : LeaderElection) : Option Callback :=
  match r.point with
  | .run => some (if r.isLeader then .lost else .elected)
  | .serving => some .lost
  | .waiting => some .elected
  | .calling c _ => dueAt c
  | .finished => none
  | .crashed => none

/- The places between `is_leader = True` and its end. -/
def Serving (r : LeaderElection) : Prop :=
  match r.point with
  | .serving => True
  | .calling c _ => c.Leading
  | _ => False

/-
  The dispatched callbacks alternate, and the next one is
  determined by the place of the thread.
-/
structure Announced (r : LeaderElection) : Prop where
  placed : r.Placed
  alternate : r.dispatched = callbacks r.dispatched.length
  next : ∀ cb ∈ due r, callback r.dispatched.length = cb
  serving : Serving r → r.isLeader = true

theorem announced_new : Announced LeaderElection.new := by
  refine ⟨?_, rfl, ?_, ?_⟩
  · exact
      LeaderElection.placed_of_not_leader rfl
        (by simp [LeaderElection.new])
  · intro cb hDue
    cases hDue
    rfl
  · intro hServing
    cases hServing

end Lifecycle

------------------------------------------------------------
-- Steps of an Election Thread
------------------------------------------------------------

namespace Lifecycle

open Election LeaderElection

/- A move that keeps the next callback, or ends the thread. -/
theorem Announced.move
    {r r' : LeaderElection}
    (hAnnounced : Announced r)
    (hMoves : r.Moves r')
    (hDispatched : r'.dispatched = r.dispatched)
    (hDue : ∀ cb ∈ due r', due r = some cb)
    (hServing : Serving r' → r'.isLeader = true) :
    Announced r' := by
  refine ⟨hMoves.placed, ?_, ?_, hServing⟩
  · rw [hDispatched]
    exact hAnnounced.alternate
  · intro cb hNext
    rw [hDispatched]
    exact hAnnounced.next cb (hDue cb hNext)

/- A move that shows nothing of itself. -/
theorem Announced.quiet
    {r r' : LeaderElection}
    (hAnnounced : Announced r)
    (hMoves : r.Moves r')
    (hView : view r' = view r)
    (hDispatched : r'.dispatched = r.dispatched)
    (hDue : ∀ cb ∈ due r', due r = some cb)
    (hServing : Serving r' → r'.isLeader = true) :
    Announced r' ∧ Signals (view r) (view r') := by
  refine
    ⟨hAnnounced.move hMoves hDispatched hDue hServing, ?_⟩
  rw [hView]
  exact .stay

/- A callback is dispatched when it is due. -/
theorem Announced.dispatched
    {r : LeaderElection}
    {callback' : Callback}
    {point : Point}
    (hAnnounced : Announced r)
    (hNow : due r = some callback')
    (hMoves :
      r.Moves ({ r with point := point }.dispatch callback'))
    (hDue :
      ∀ cb ∈ due { r with point := point },
        cb = callback'.next)
    (hServing :
      Serving { r with point := point } →
        r.isLeader = true) :
    Announced
      ({ r with point := point }.dispatch callback') := by
  have hCallback := hAnnounced.next callback' hNow
  have hDispatched :
      r.dispatched ++ [callback'] =
        callbacks (r.dispatched.length + 1) := by
    rw [callbacks_succ, ← hAnnounced.alternate, hCallback]
  have hLength :
      (r.dispatched ++ [callback']).length =
        r.dispatched.length + 1 :=
    List.length_append
  refine ⟨hMoves.placed, ?_, ?_, hServing⟩
  · show
      r.dispatched ++ [callback'] =
        callbacks (r.dispatched ++ [callback']).length
    rw [hLength]
    exact hDispatched
  · intro cb hNext
    show callback (r.dispatched ++ [callback']).length = cb
    rw [hLength, callback, hCallback]
    exact (hDue cb hNext).symm

/- What a thread shows and does after `_revoke_lease`. -/
theorem due_revokeLease
    (r : LeaderElection)
    (revoke : Nat → Call)
    (next : Call)
    (hDue : ∀ lease, dueAt (revoke lease) = dueAt next)
    (hLeading :
      ∀ lease, ¬ (revoke lease).Leading ∧ ¬ next.Leading) :
    view (r.revokeLease revoke next) = view r ∧
      (r.revokeLease revoke next).dispatched = r.dispatched ∧
        due (r.revokeLease revoke next) = dueAt next ∧
          ¬ Serving (r.revokeLease revoke next) := by
  rcases revokeLease_eq_call r revoke next with
    ⟨c, hEq, rfl | ⟨lease, rfl⟩⟩
  · rw [hEq]
    exact ⟨rfl, rfl, rfl, (hLeading 0).2⟩
  · rw [hEq]
    exact ⟨rfl, rfl, hDue lease, (hLeading lease).1⟩

/- A thread that is not at a place of a leader does not lead. -/
theorem Announced.not_leader
    {r : LeaderElection}
    (hAnnounced : Announced r)
    (hLeading : ¬ r.Leading) :
    r.isLeader = false := by
  by_contra hLeader
  exact
    hLeading (hAnnounced.placed.leading (by simpa using hLeader))

/- `_lose_leadership` of a leader. -/
theorem announced_loseLeadership
    {r : LeaderElection}
    (hAnnounced : Announced r)
    (hServing : Serving r)
    (hDue : due r = some .lost) :
    Announced r.loseLeadership ∧
      Signals (view r) (view r.loseLeadership) := by
  have hLeader := hAnnounced.serving hServing
  have hEq :
      r.loseLeadership =
        { r with isLeader := false }.revokeLease
          .loseRevoke .loseDeleteAddress := by
    rw [loseLeadership, if_pos hLeader]
  rcases due_revokeLease { r with isLeader := false }
      .loseRevoke .loseDeleteAddress
      (fun _ => rfl) (fun _ => ⟨id, id⟩) with
    ⟨hView, hDispatched, hNext, hNot⟩
  rw [← hEq] at hView hDispatched hNext hNot
  constructor
  · refine
      hAnnounced.move (moves_loseLeadership r) hDispatched ?_
        (fun hStill => absurd hStill hNot)
    intro cb hCb
    rw [hNext] at hCb
    rw [hDue]
    exact hCb
  · rw [hView]
    exact .lose hLeader (hAnnounced.next _ hDue)

/- A loop head of a thread that is not stopped. -/
theorem announced_proceed
    {r r' : LeaderElection}
    (hAnnounced : Announced r)
    (hStep : r.proceed = some r') :
    Announced r' ∧
      (r.stop = false → Signals (view r) (view r')) := by
  have hMoves := moves_proceed hAnnounced.placed hStep
  unfold proceed at hStep
  split at hStep
  · rename_i hPoint
    cases hStep
    split
    · rename_i hStop
      rcases due_revokeLease { r with isLeader := false }
          .cleanupRevoke .cleanupDelete
          (fun _ => rfl) (fun _ => ⟨id, id⟩) with
        ⟨_, hDispatched, hNext, hNot⟩
      rw [if_pos hStop] at hMoves
      refine ⟨hAnnounced.move hMoves hDispatched ?_
        (fun hStill => absurd hStill hNot), ?_⟩
      · intro cb hCb
        rw [cleanup, hNext] at hCb
        cases hCb
      · intro hGo
        rw [hStop] at hGo
        cases hGo
    · rename_i hStop
      have hLeader : r.isLeader = false := by
        apply hAnnounced.not_leader
        rw [Leading, hPoint]
        exact hStop
      rcases due_revokeLease r .campaignRevoke .campaignLease
          (fun _ => rfl) (fun _ => ⟨id, id⟩) with
        ⟨hView, hDispatched, hNext, hNot⟩
      rw [if_neg hStop] at hMoves
      refine ⟨hAnnounced.move hMoves hDispatched ?_
        (fun hStill => absurd hStill hNot), ?_⟩
      · intro cb hCb
        rw [campaign, hNext] at hCb
        rw [due, hPoint, hLeader]
        exact hCb
      · intro _
        rw [campaign, hView]
        exact .stay
  · rename_i hPoint
    have hLeader : r.isLeader = true := by
      apply hAnnounced.serving
      rw [Serving, hPoint]
      trivial
    cases hStep
    refine ⟨?_, fun _ => ?_⟩
    · refine hAnnounced.move hMoves ?_ ?_ ?_
      · split <;> rfl
      · intro cb hCb
        rw [due, hPoint]
        split at hCb
        · exact hCb
        · rw [due, hLeader] at hCb
          exact hCb
      · intro _
        split <;> exact hLeader
    · split <;> exact .stay
  · rename_i hPoint
    have hLeader : r.isLeader = false := by
      apply hAnnounced.not_leader
      rw [Leading, hPoint]
      exact id
    cases hStep
    refine ⟨?_, fun _ => ?_⟩
    · refine hAnnounced.move hMoves ?_ ?_ ?_
      · split <;> rfl
      · intro cb hCb
        rw [due, hPoint]
        split at hCb
        · rw [due, hLeader] at hCb
          exact hCb
        · exact hCb
      · intro hServing
        split at hServing <;> cases hServing
    · split <;> exact .stay
  · cases hStep
  · cases hStep
  · cases hStep

theorem view_dispatch
    (r : LeaderElection)
    (cb : Callback) :
    view (r.dispatch cb) =
      { view r with dispatched := (view r).dispatched + 1 } := by
  simp [view, dispatch]

/- The return of a call. -/
theorem announced_returned
    {config : Config}
    {r r' : LeaderElection}
    {c : Call}
    {reply answer : Option Reply}
    (hAnnounced : Announced r)
    (hPoint : r.point = .calling c reply)
    (hAnswer : answer = none ∨ answer = reply)
    (hReturn : r.returned config answer c = r') :
    Announced r' ∧ Signals (view r) (view r') := by
  have hMoves : r.Moves r' := by
    rw [← hReturn]
    exact moves_returned hAnnounced.placed hPoint hAnswer
  have hDue : due r = dueAt c := by
    rw [due, hPoint]
  have hLeader : ¬ c.Leading → r.isLeader = false := by
    intro hNot
    apply hAnnounced.not_leader
    rw [Leading, hPoint]
    exact hNot
  have hServing : c.Leading → Serving r := by
    intro hLeading
    rw [Serving, hPoint]
    exact hLeading
  cases c with
  -- the reply is not asked for
  | campaignRevoke _ | loseRevoke _ | cleanupRevoke _
  | cleanupDelete | cleanupDeleteAddress =>
      cases hReturn
      exact
        hAnnounced.quiet hMoves rfl rfl (fun _ => hDue.trans)
          False.elim
  | campaignLease =>
      simp only [returned] at hReturn
      split at hReturn <;> cases hReturn <;>
        exact
          hAnnounced.quiet hMoves rfl rfl (fun _ => hDue.trans)
            False.elim
  | campaignTxn lease =>
      simp only [returned] at hReturn
      split at hReturn <;> cases hReturn
      · exact
          ⟨hAnnounced.move hMoves rfl (fun _ => hDue.trans)
              (fun _ => rfl),
            .win (hLeader id) (hAnnounced.next _ hDue)⟩
      · exact
          hAnnounced.quiet hMoves rfl rfl (fun _ => hDue.trans)
            False.elim
      · exact
          hAnnounced.quiet hMoves rfl rfl (fun _ => hDue.trans)
            False.elim
  | campaignPut lease =>
      simp only [returned] at hReturn
      cases hReturn
      have hFlag := hAnnounced.serving (hServing trivial)
      have hNext := hAnnounced.next _ hDue
      refine ⟨?_, ?_⟩
      · refine
          hAnnounced.dispatched hDue hMoves ?_ (fun _ => hFlag)
        intro cb hCb
        cases hCb
        rfl
      · rw [view_dispatch]
        exact .dispatch (iff_of_true hFlag hNext)
  | serveGet =>
      have hFlag := hAnnounced.serving (hServing trivial)
      have hLose :=
        announced_loseLeadership hAnnounced (hServing trivial)
          hDue
      simp only [returned] at hReturn
      split at hReturn
      · split at hReturn
        · split at hReturn <;> cases hReturn
          · exact
              hAnnounced.quiet hMoves rfl rfl
                (fun _ => hDue.trans) (fun _ => hFlag)
          · exact hLose
        · cases hReturn
          exact hLose
      · cases hReturn
        exact hLose
  | serveRefresh lease =>
      have hFlag := hAnnounced.serving (hServing trivial)
      simp only [returned] at hReturn
      split at hReturn <;> cases hReturn
      · exact
          hAnnounced.quiet hMoves rfl rfl (fun _ => hDue.trans)
            (fun _ => hFlag)
      · exact
          announced_loseLeadership hAnnounced (hServing trivial)
            hDue
  | loseDeleteAddress =>
      simp only [returned] at hReturn
      cases hReturn
      have hFlag := hLeader id
      have hNext := hAnnounced.next _ hDue
      refine ⟨?_, ?_⟩
      · refine
          hAnnounced.dispatched hDue hMoves ?_ False.elim
        intro cb hCb
        rw [due, hFlag] at hCb
        cases hCb
        rfl
      · rw [view_dispatch]
        refine .dispatch (iff_of_false ?_ ?_)
        · show r.isLeader ≠ true
          rw [hFlag]
          simp
        · show callback r.dispatched.length ≠ .elected
          rw [hNext]
          simp
  | waitGet =>
      have hFlag := hLeader id
      simp only [returned] at hReturn
      split at hReturn <;> cases hReturn
      · refine
          hAnnounced.quiet hMoves rfl rfl ?_ False.elim
        intro cb hCb
        rw [due, hFlag] at hCb
        exact hDue.trans hCb
      · exact
          hAnnounced.quiet hMoves rfl rfl (fun _ => hDue.trans)
            False.elim

end Lifecycle

------------------------------------------------------------
-- Following an Election Thread
------------------------------------------------------------

namespace Lifecycle

open Election Machine

variable {ι : Type}

/- What every step of the election does to one thread. -/
def Tracks (r r' : LeaderElection) : Prop :=
  Announced r' ∧
    (r'.stop = false →
      r.stop = false ∧ Signals (view r) (view r'))

/- A thread whose place and flags stay as they are. -/
theorem tracks_of_same
    {r r' : LeaderElection}
    (hAnnounced : Announced r)
    (hPlaced : r'.Placed)
    (hDispatched : r'.dispatched = r.dispatched)
    (hLeader : r'.isLeader = r.isLeader)
    (hDue : ∀ cb ∈ due r', due r = some cb)
    (hServing : Serving r' → Serving r)
    (hStop : r'.stop = false → r.stop = false) :
    Tracks r r' := by
  refine ⟨⟨hPlaced, ?_, ?_, ?_⟩, fun hGo => ⟨hStop hGo, ?_⟩⟩
  · rw [hDispatched]
    exact hAnnounced.alternate
  · intro cb hCb
    rw [hDispatched]
    exact hAnnounced.next cb (hDue cb hCb)
  · intro hStill
    rw [hLeader]
    exact hAnnounced.serving (hServing hStill)
  · rw [view, view, hDispatched, hLeader]
    exact .stay

theorem tracks_refl
    {r : LeaderElection}
    (hAnnounced : Announced r) :
    Tracks r r :=
  ⟨hAnnounced, fun hGo => ⟨hGo, .stay⟩⟩

/- The code of a thread does not change its stop flag. -/
theorem stop_revokeLease
    (r : LeaderElection)
    (revoke : Nat → Call)
    (next : Call) :
    (r.revokeLease revoke next).stop = r.stop := by
  rcases LeaderElection.revokeLease_eq_call r revoke next with
    ⟨c, hEq, _⟩
  rw [hEq]
  rfl

theorem stop_loseLeadership (r : LeaderElection) :
    r.loseLeadership.stop = r.stop := by
  unfold LeaderElection.loseLeadership
  split
  · exact stop_revokeLease _ _ _
  · rfl

theorem stop_proceed
    {r r' : LeaderElection}
    (hStep : r.proceed = some r') :
    r'.stop = r.stop := by
  unfold LeaderElection.proceed at hStep
  split at hStep
  · cases hStep
    split <;> exact stop_revokeLease _ _ _
  · cases hStep
    split <;> rfl
  · cases hStep
    split <;> rfl
  · cases hStep
  · cases hStep
  · cases hStep

theorem stop_returned
    (config : Config)
    (r : LeaderElection)
    (answer : Option Reply)
    (c : Call) :
    (r.returned config answer c).stop = r.stop := by
  cases c with
  | campaignLease =>
      simp only [LeaderElection.returned]
      split <;> rfl
  | campaignTxn lease =>
      simp only [LeaderElection.returned]
      split <;> rfl
  | serveGet =>
      simp only [LeaderElection.returned]
      split
      · split
        · split
          · rfl
          · exact stop_loseLeadership r
        · exact stop_loseLeadership r
      · exact stop_loseLeadership r
  | serveRefresh lease =>
      simp only [LeaderElection.returned]
      split
      · rfl
      · exact stop_loseLeadership r
  | waitGet =>
      simp only [LeaderElection.returned]
      split <;> rfl
  | campaignRevoke lease => rfl
  | campaignPut lease => rfl
  | loseRevoke lease => rfl
  | loseDeleteAddress => rfl
  | cleanupRevoke lease => rfl
  | cleanupDelete => rfl
  | cleanupDeleteAddress => rfl

theorem tracks_proceed
    {r r' : LeaderElection}
    (hAnnounced : Announced r)
    (hStep : r.proceed = some r') :
    Tracks r r' := by
  rcases announced_proceed hAnnounced hStep with
    ⟨hNext, hSignals⟩
  refine ⟨hNext, fun hGo => ?_⟩
  rw [stop_proceed hStep] at hGo
  exact ⟨hGo, hSignals hGo⟩

theorem tracks_returned
    {config : Config}
    {r : LeaderElection}
    {c : Call}
    {reply answer : Option Reply}
    (hAnnounced : Announced r)
    (hPoint : r.point = .calling c reply)
    (hAnswer : answer = none ∨ answer = reply) :
    Tracks r (r.returned config answer c) := by
  rcases announced_returned hAnnounced hPoint hAnswer rfl with
    ⟨hNext, hSignals⟩
  refine ⟨hNext, fun hGo => ⟨?_, hSignals⟩⟩
  rw [stop_returned] at hGo
  exact hGo

theorem tracks_reply
    {r : LeaderElection}
    {c : Call}
    (answer : Reply)
    (hAnnounced : Announced r)
    (hPoint : r.point = .calling c none) :
    Tracks r (r.reply c answer) := by
  refine
    tracks_of_same hAnnounced
      (LeaderElection.placed_reply hAnnounced.placed hPoint)
      rfl rfl ?_ ?_ id
  · intro cb hCb
    rw [due, hPoint]
    exact hCb
  · intro hServing
    rw [Serving, hPoint]
    exact hServing

theorem tracks_stepDown
    {r : LeaderElection}
    (hAnnounced : Announced r) :
    Tracks r { r with stop := true } := by
  have hMoves :=
    LeaderElection.moves_stepDown hAnnounced.placed
  refine
    ⟨hAnnounced.move hMoves rfl (fun _ => id)
      hAnnounced.serving, ?_⟩
  intro hGo
  cases hGo

theorem tracks_crash
    {r : LeaderElection}
    (hAnnounced : Announced r) :
    Tracks r { r with point := .crashed } := by
  refine
    tracks_of_same hAnnounced
      (LeaderElection.moves_crash r).placed rfl rfl ?_
      False.elim id
  intro cb hCb
  cases hCb

variable [DecidableEq ι]

/- Every step of the election tracks every thread. -/
theorem tracks_step
    {group : Replicas ι}
    {t t' : Election.State ι}
    {act : Election.Act ι}
    (hAll : ∀ i, Announced (t.elections i))
    (hStep : Election.step group t act = some t')
    (j : ι) :
    Tracks (t.elections j) (t'.elections j) := by
  have hUpdate :
      ∀ i r, Tracks (t.elections i) r →
        Tracks (t.elections j)
          (Function.update t.elections i r j) := by
    intro i r hTracks
    by_cases hSame : j = i
    · subst hSame
      rw [Function.update_self]
      exact hTracks
    · rw [Function.update_of_ne hSame]
      exact tracks_refl (hAll j)
  cases Election.steps_of_step hStep with
  | @proceed i r hProceed =>
      exact hUpdate i r (tracks_proceed (hAll i) hProceed)
  | @effect i c hPoint =>
      exact hUpdate i _ (tracks_reply _ (hAll i) hPoint)
  | @answer i c reply hPoint =>
      exact
        hUpdate i _
          (tracks_returned (hAll i) hPoint (.inr rfl))
  | @raise i c reply hPoint =>
      exact
        hUpdate i _
          (tracks_returned (hAll i) hPoint (.inl rfl))
  | late _ => exact tracks_refl (hAll j)
  | expire _ => exact tracks_refl (hAll j)
  | @stepDown i =>
      exact hUpdate i _ (tracks_stepDown (hAll i))
  | @crash i => exact hUpdate i _ (tracks_crash (hAll i))

/- The callbacks of every replica are dispatched in turn. -/
theorem announced_of_reaches
    {group : Replicas ι}
    {etcd : Etcd.Server String String}
    {t : Election.State ι}
    (hRun :
      Reachable (Election.step group)
        (Election.State.start etcd) t) :
    ∀ i, Announced (t.elections i) := by
  apply hRun.invariant
  · intro i
    exact announced_new
  · intro u v act hAll _ hStep i
    exact (tracks_step hAll hStep i).1

/- The process with another view of its election thread. -/
def State.withView (s : State) (v : View) : State :=
  { s with isLeader := v.isLeader, dispatched := v.dispatched }

/- The process takes part in what its election shows. -/
theorem reachable_withView
    {s : State}
    {v v' : View}
    (hSignals : Signals v v') :
    Reachable step (s.withView v) (s.withView v') := by
  have hOne :
      ∀ act, step (s.withView v) act = some (s.withView v') →
        Reachable step (s.withView v) (s.withView v') :=
    fun act hStep => Reaches.refl.tail trivial hStep
  cases hSignals with
  | stay => exact .refl
  | win hLeader hNext =>
      apply hOne .win
      simp [step, State.withView, hLeader, hNext]
  | lose hLeader hNext =>
      apply hOne .lose
      simp [step, State.withView, hLeader, hNext]
  | dispatch hFlag =>
      apply hOne .dispatch
      exact if_pos hFlag

/-
  A process can follow its election thread in every run of
  the election, until the thread is asked to stop.
-/
theorem follows_of_reaches
    {group : Replicas ι}
    {etcd : Etcd.Server String String}
    {t : Election.State ι}
    (hRun :
      Reachable (Election.step group)
        (Election.State.start etcd) t)
    {i : ι}
    (hGo : (t.elections i).stop = false) :
    Reachable step State.start
      (State.start.withView (view (t.elections i))) := by
  have hFollows :
      (t.elections i).stop = false →
        Reachable step State.start
          (State.start.withView (view (t.elections i))) := by
    apply hRun.invariant_of_reaches
    · exact fun _ => .refl
    · intro u v act hPrior hFollowed _ hStep hStop
      have hTracks :=
        tracks_step (announced_of_reaches hPrior) hStep i
      rcases hTracks.2 hStop with ⟨hBefore, hSignals⟩
      exact
        (hFollowed hBefore).trans (reachable_withView hSignals)
  exact hFollows hGo

end Lifecycle

------------------------------------------------------------
-- Following a Run Task
------------------------------------------------------------

namespace Lifecycle

open Py GameRoom

variable {α : Type}

/- The flags of a game loop. -/
def loopOf (g : GameLoop α) : Loop where
  running := g.running
  matchEnded := g.matchEnded

theorem loopOf_new
    (settings : Settings)
    (matchId : String)
    (now : Timestamp) :
    loopOf (GameLoop.new settings matchId now : GameLoop α) =
      .new :=
  rfl

theorem loopOf_stop (g : GameLoop α) :
    loopOf g.stop = .ended :=
  rfl

theorem loopOf_beginRun (g : GameLoop α) :
    loopOf (beginRun g).1 =
      { loopOf g with running := true } :=
  rfl

variable [PyNumber α]

/-
  Between two awaits a run task leaves the flags of its loop
  alone or ends the match, and it returns from a loop that
  no longer ticks.
-/
theorem loop_of_awaits
    {producer : Nat}
    {st st' : Stores α}
    {g g' : GameLoop α}
    {aw aw' : Await α}
    {r : GameRoom.Reply}
    (hStep : Awaits producer st g aw r st' g' aw') :
    (loopOf g' = loopOf g ∨
        (g.matchEnded = false ∧ loopOf g' = .ended)) ∧
      (aw' = .returned → ¬ (loopOf g').Live) := by
  cases hStep with
  | head hResumes =>
      rcases hHead : loopHead g with ⟨g₁, aw₁⟩
      cases heads_loopHead hHead with
      | publish _ hBegin =>
          rcases frame_beginTick hBegin with
            ⟨_, _, hRunning, hEnded, _⟩
          refine ⟨.inl ?_, by simp⟩
          rw [loopOf, loopOf, hRunning, hEnded]
      | pause _ hBegin =>
          rcases frame_beginTick hBegin with
            ⟨_, _, hRunning, hEnded, _⟩
          refine ⟨.inl ?_, by simp⟩
          rw [loopOf, loopOf, hRunning, hEnded]
      | finish hDone => exact ⟨.inl rfl, fun _ => hDone⟩
  | redisDone _ =>
      unfold finishTick
      split
      · rename_i hEnd
        exact ⟨.inr ⟨hEnd.2, rfl⟩, by simp⟩
      · exact ⟨.inl rfl, by simp⟩
  | endTelemetry =>
      refine ⟨.inl rfl, ?_⟩
      unfold writeMatchRecord
      split <;> simp
  | retry =>
      refine ⟨.inl rfl, ?_⟩
      unfold retrySave
      split <;> simp
  | appendEvent => exact ⟨.inl rfl, by simp⟩
  | commit => exact ⟨.inl rfl, by simp⟩
  | dropTick => exact ⟨.inl rfl, by simp⟩
  | redisEffect => exact ⟨.inl rfl, by simp⟩
  | redisNext _ => exact ⟨.inl rfl, by simp⟩
  | redisFail => exact ⟨.inl rfl, by simp⟩
  | farewell => exact ⟨.inl rfl, by simp⟩
  | appendEnd => exact ⟨.inl rfl, by simp⟩
  | endPublished => exact ⟨.inl rfl, by simp⟩
  | saveEffect => exact ⟨.inl rfl, by simp⟩
  | saved => exact ⟨.inl rfl, by simp⟩
  | saveFailed => exact ⟨.inl rfl, by simp⟩

end Lifecycle
