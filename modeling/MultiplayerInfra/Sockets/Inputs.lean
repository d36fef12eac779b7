import MultiplayerInfra.Sockets.Matches

/-
  The inputs of a match: the ticks use them in the order in
  which the sockets received them, each at most once.

  Key definitions include:
    * `Sockets.usedInputs`
    * `Sockets.inFlight`
    * `Sockets.receivedFor`
    * `Sockets.InOrder`

  Key theorems include:
    * `Sockets.inOrder_resume`
    * `Sockets.inOrder_moves`
    * `Sockets.inputs_in_order`

  A tick takes the whole queue.  If one of the inputs raises,
  or the publish fails, what it took is not used again.
-/

------------------------------------------------------------
-- The Inputs of a Match
------------------------------------------------------------

namespace Sockets

open Py GameRoom

variable {α : Type}

/- The inputs of the committed ticks, in their order. -/
def usedInputs
    (s : State α)
    (n : Nat) : List (String × Json α) :=
  (s.commits.filter (fun c => c.matchNo = n)).flatMap
    (fun c => c.began.inputQueue)

/- What the frames gave to the loop of a match. -/
def receivedFor
    (s : State α)
    (n : Nat) : List (String × Json α) :=
  (s.received.filter (fun e => e.1 = n)).map Prod.snd

/- The inputs of a tick whose event is being published. -/
def takenAt
    (began : GameLoop α) :
    Room.MatchTask α → List (String × Json α)
| .inRun (.publishing _ _ _) => began.inputQueue
| _ => []

def inFlight
    (s : State α)
    (n : Nat) : List (String × Json α) :=
  if s.current = n then takenAt s.began s.task else []

variable [PyNumber α]

/- The players are those of the tick that began. -/
def IsTick
    (began : GameLoop α)
    (next : Players α) : Prop :=
  ∃ g event, began.beginTick = (g, some (next, event))

structure InOrder (s : State α) : Prop where
  inputs :
    ∀ n,
      (usedInputs s n ++
          (inFlight s n ++ (s.loops n).inputQueue)).Sublist
        (receivedFor s n)
  ticks : ∀ c ∈ s.commits, IsTick c.began c.next
  tick :
    ∀ next event kept,
      s.task = .inRun (.publishing next event kept) →
        IsTick s.began next

theorem inOrder_start
    {g : GameLoop α}
    (stores : Stores α)
    (holds : String → Option (HoldJson α))
    (hQueue : g.inputQueue = []) :
    InOrder (State.start g stores holds) where
  inputs := by
    intro n
    simp [usedInputs, inFlight, takenAt, State.start,
      beginRun, hQueue]
  ticks := nofun
  tick := nofun

end Sockets

------------------------------------------------------------
-- Steps of the Handlers
------------------------------------------------------------

namespace Sockets

open Py GameRoom

variable {α : Type} [PyNumber α]
variable {s t : State α}

/- A handler hands more inputs to the loops, or none. -/
theorem InOrder.of_more
    (hOrder : InOrder s)
    (hCurrent : t.current = s.current)
    (hCommits : t.commits = s.commits)
    (hBegan : t.began = s.began)
    (hTask : t.task = s.task)
    (hMore :
      ∀ n, ∃ more,
        (t.loops n).inputQueue =
            (s.loops n).inputQueue ++ more ∧
          receivedFor t n = receivedFor s n ++ more) :
    InOrder t where
  inputs := by
    intro n
    rcases hMore n with ⟨more, hQueue, hReceived⟩
    have hSub := (hOrder.inputs n).append_right more
    rw [hQueue, hReceived, usedInputs, hCommits, inFlight,
      hCurrent, hBegan, hTask]
    simpa only [usedInputs, inFlight, List.append_assoc]
      using hSub
  ticks := by
    rw [hCommits]
    exact hOrder.ticks
  tick := by
    rw [hTask, hBegan]
    exact hOrder.tick

/- A handler step that keeps the queues. -/
theorem InOrder.of_queues
    (hOrder : InOrder s)
    (hCurrent : t.current = s.current)
    (hCommits : t.commits = s.commits)
    (hBegan : t.began = s.began)
    (hTask : t.task = s.task)
    (hReceived : t.received = s.received)
    (hQueues :
      ∀ n, (t.loops n).inputQueue = (s.loops n).inputQueue) :
    InOrder t := by
  refine
    hOrder.of_more hCurrent hCommits hBegan hTask (fun n => ?_)
  refine ⟨[], ?_, ?_⟩
  · rw [hQueues, List.append_nil]
  · rw [receivedFor, hReceived, List.append_nil, receivedFor]

omit [PyNumber α] in
/- One loop changes, but not its queue. -/
theorem inputQueue_setLoop
    (s : State α)
    {n : Nat}
    {g : GameLoop α}
    (hQueue : g.inputQueue = (s.loops n).inputQueue)
    (m : Nat) :
    ((s.setLoop n g).loops m).inputQueue =
      (s.loops m).inputQueue := by
  by_cases hSame : m = n
  · rw [hSame, State.loops_setLoop_self]
    exact hQueue
  · rw [State.loops_setLoop_of_ne s hSame]

theorem inOrder_frame
    {k : Nat}
    {playerId : String}
    (hOrder : InOrder s)
    (inputData : Json α) :
    InOrder (s.enqueue k playerId inputData) := by
  refine hOrder.of_more rfl rfl rfl rfl (fun n => ?_)
  by_cases hSame : n = (s.handlers k).loop
  · subst hSame
    refine ⟨[(playerId, inputData)], ?_, ?_⟩
    · simp only [State.enqueue, State.loops_setLoop_self]
      rfl
    · simp [receivedFor, State.enqueue, State.setLoop]
  · refine ⟨[], ?_, ?_⟩
    · simp only [State.enqueue,
        State.loops_setLoop_of_ne s hSame, List.append_nil]
    · simp [receivedFor, State.enqueue, State.setLoop,
        Ne.symm hSame]

end Sockets

------------------------------------------------------------
-- Steps of the Run Task
------------------------------------------------------------

namespace Sockets

open Py GameRoom

variable {α : Type} [PyNumber α]
variable {s t : State α}

/- A tick that raises leaves a part of the queue. -/
theorem sublist_drainInputs
    (queue : List (String × Json α))
    (pending : List (Telemetry α))
    (players : Players α) :
    (drainInputs queue pending players).inputQueue.Sublist
      queue := by
  induction queue generalizing pending players with
  | nil => exact .refl _
  | cons input queue ih =>
      rw [drainInputs]
      split
      · exact List.sublist_cons_self _ _
      · exact (ih _ _).cons _

/- A tick that publishes has taken the whole queue. -/
theorem inputQueue_drainInputs_of_some
    {queue : List (String × Json α)}
    {pending : List (Telemetry α)}
    {players players' : Players α}
    (hDrain :
      (drainInputs queue pending players).players =
        some players') :
    (drainInputs queue pending players).inputQueue = [] := by
  induction queue generalizing pending players with
  | nil => rfl
  | cons input queue ih =>
      rw [drainInputs] at hDrain ⊢
      split at hDrain
      · cases hDrain
      · exact ih hDrain

theorem inputQueue_of_publishes
    {g g' : GameLoop α}
    {next : Players α}
    {event : StateJson α}
    (hBegin : g.beginTick = (g', some (next, event))) :
    g'.inputQueue = [] := by
  rcases Prod.mk.inj hBegin with ⟨rfl, hSome⟩
  rcases Option.map_eq_some_iff.mp hSome with
    ⟨players, hDrain, _⟩
  exact inputQueue_drainInputs_of_some hDrain

/- The queue at the head of `run`, before and after. -/
theorem sublist_loopHead
    {g g' : GameLoop α}
    {aw : Await α}
    (hHead : loopHead g = (g', aw)) :
    (takenAt g (.inRun aw) ++ g'.inputQueue).Sublist
      g.inputQueue := by
  cases heads_loopHead hHead with
  | publish _ hBegin =>
      rw [inputQueue_of_publishes hBegin, List.append_nil]
      exact .refl _
  | pause _ hBegin =>
      rcases Prod.mk.inj hBegin with ⟨rfl, _⟩
      exact sublist_drainInputs _ _ _
  | finish _ => exact .refl _

theorem isTick_of_loopHead
    {g g' : GameLoop α}
    {next : Players α}
    {event : StateJson α}
    {kept : Option Nat}
    (hHead : loopHead g = (g', .publishing next event kept)) :
    IsTick g next := by
  cases heads_loopHead hHead with
  | publish _ hBegin => exact ⟨g', event, hBegin⟩

/- The inputs that a reply commits. -/
def committedInputs
    (began : GameLoop α)
    (aw : Await α)
    (r : Reply) : List (String × Json α) :=
  ((committing aw r).map (fun _ => began.inputQueue)).getD []

omit [PyNumber α] in
theorem usedInputs_ran
    (s : State α)
    (aw aw' : Await α)
    (r : Reply)
    (stores : Stores α)
    (g : GameLoop α)
    (n : Nat) :
    usedInputs (s.ran aw r stores g aw') n =
      usedInputs s n ++
        if s.current = n then committedInputs s.began aw r
        else [] := by
  simp only [usedInputs, State.ran, State.setLoop,
    State.tables, State.note, committedInputs,
    List.filter_append, List.flatMap_append]
  cases committing aw r with
  | none => simp
  | some next => by_cases hThis : s.current = n <;> simp [hThis]

/- The inputs of one match after a reply to its run task. -/
theorem inOrder_ran
    {aw aw' : Await α}
    {r : Reply}
    {stores : Stores α}
    {g : GameLoop α}
    (hOrder : InOrder s)
    (hTask : s.task = .inRun aw)
    (hCommits :
      ∀ next, committing aw r = some next →
        IsTick s.began next)
    (hTick :
      ∀ next event kept,
        aw' = .publishing next event kept →
          IsTick (s.note aw r).began next)
    (hSub :
      (committedInputs s.began aw r ++
          (takenAt (s.note aw r).began (.inRun aw') ++
            g.inputQueue)).Sublist
        (takenAt s.began (.inRun aw) ++
          s.loop.inputQueue)) :
    InOrder (s.ran aw r stores g aw') := by
  refine ⟨?_, ?_, ?_⟩
  · intro n
    refine List.Sublist.trans ?_ (hOrder.inputs n)
    rw [usedInputs_ran, List.append_assoc]
    refine List.Sublist.append_left ?_ _
    have hFlying :
        inFlight (s.ran aw r stores g aw') n =
          if s.current = n then
            takenAt (s.note aw r).began (.inRun aw')
          else [] := rfl
    by_cases hThis : s.current = n
    · subst hThis
      have hAfter :
          ((s.ran aw r stores g aw').loops
            s.current) = g :=
        Function.update_self _ _ _
      rw [if_pos rfl, hAfter, hFlying, if_pos rfl, inFlight,
        if_pos rfl, hTask]
      exact hSub
    · have hAfter :
          ((s.ran aw r stores g aw').loops n) = s.loops n :=
        Function.update_of_ne (Ne.symm hThis) _ _
      rw [if_neg hThis, hAfter, hFlying, if_neg hThis,
        inFlight, if_neg hThis]
      exact .refl _
  · intro c hMem
    rcases List.mem_append.mp hMem with hOld | hNew
    · exact hOrder.ticks c hOld
    · rcases Option.map_eq_some_iff.mp
          (Option.mem_toList.mp hNew) with ⟨next, hSome, rfl⟩
      exact hCommits next hSome
  · intro next event kept hAt
    injection hAt with hAwait
    exact hTick next event kept hAwait

/- The run task goes on without beginning or ending a tick. -/
theorem inOrder_same
    {aw aw' : Await α}
    {r : Reply}
    {stores : Stores α}
    {g : GameLoop α}
    (hOrder : InOrder s)
    (hTask : s.task = .inRun aw)
    (hNone : committing aw r = none)
    (hNext :
      ∀ next event kept, aw' ≠ .publishing next event kept)
    (hQueue : g.inputQueue = s.loop.inputQueue) :
    InOrder (s.ran aw r stores g aw') := by
  refine inOrder_ran hOrder hTask ?_ ?_ ?_
  · intro next hSome
    rw [hNone] at hSome
    cases hSome
  · intro next event kept hAt
    exact absurd hAt (hNext next event kept)
  · have hNothing :
        takenAt (s.note aw r).began (.inRun aw') = [] := by
      unfold takenAt
      split
      · rename_i hAt
        injection hAt with hAwait
        exact absurd hAwait (hNext _ _ _)
      · rfl
    rw [committedInputs, hNone, hNothing, hQueue]
    exact List.sublist_append_right _ _

theorem inOrder_resume
    {aw aw' : Await α}
    {r : Reply}
    {stores : Stores α}
    {g : GameLoop α}
    (hOrder : InOrder s)
    (hTask : s.task = .inRun aw)
    (hAwaits :
      Awaits s.current s.stores s.loop aw r stores g aw') :
    InOrder (s.ran aw r stores g aw') := by
  cases hAwaits with
  | head hResumes =>
      have hNone : committing aw r = none := by
        cases hResumes <;> rfl
      have hBegan : (s.note aw r).began = s.loop := by
        cases hResumes <;> rfl
      refine inOrder_ran hOrder hTask ?_ ?_ ?_
      · intro next hSome
        rw [hNone] at hSome
        cases hSome
      · intro next event kept hAt
        rw [hBegan]
        exact isTick_of_loopHead (Prod.ext_iff.mpr ⟨rfl, hAt⟩)
      · rw [committedInputs, hNone, hBegan]
        exact
          (sublist_loopHead rfl).trans
            (List.sublist_append_right _ _)
  | appendEvent =>
      refine inOrder_ran hOrder hTask nofun ?_ (.refl _)
      intro next event kept hAt
      cases hAt
      exact hOrder.tick _ _ none hTask
  | @commit next event offset now =>
      refine inOrder_ran hOrder hTask ?_ nofun (.refl _)
      rintro next' ⟨⟩
      exact hOrder.tick next event (some offset) hTask
  | dropTick =>
      rename_i kept _
      refine inOrder_same hOrder hTask ?_ nofun rfl
      cases kept <;> rfl
  | redisDone _ =>
      unfold finishTick
      split <;> exact inOrder_same hOrder hTask rfl nofun rfl
  | endTelemetry =>
      refine inOrder_same hOrder hTask rfl ?_ rfl
      unfold writeMatchRecord
      split <;> exact nofun
  | retry =>
      refine inOrder_same hOrder hTask rfl ?_ rfl
      unfold retrySave
      split <;> exact nofun
  | redisEffect => exact inOrder_same hOrder hTask rfl nofun rfl
  | redisNext _ => exact inOrder_same hOrder hTask rfl nofun rfl
  | redisFail => exact inOrder_same hOrder hTask rfl nofun rfl
  | farewell => exact inOrder_same hOrder hTask rfl nofun rfl
  | appendEnd => exact inOrder_same hOrder hTask rfl nofun rfl
  | endPublished => exact inOrder_same hOrder hTask rfl nofun rfl
  | saveEffect => exact inOrder_same hOrder hTask rfl nofun rfl
  | saved => exact inOrder_same hOrder hTask rfl nofun rfl
  | saveFailed => exact inOrder_same hOrder hTask rfl nofun rfl

end Sockets

------------------------------------------------------------
-- Every Step
------------------------------------------------------------

namespace Sockets

open Py GameRoom Machine

variable {α : Type} [PyNumber α]
variable {settings : Settings} {matchId : String}
variable {s t : State α}

/- A step at which no run task is left in a tick. -/
theorem InOrder.of_idle
    (hOrder : InOrder s)
    {stores : Stores α}
    {task : Room.MatchTask α}
    (hTask : ∀ aw, task ≠ .inRun aw) :
    InOrder { s with stores := stores, task := task } := by
  refine ⟨?_, hOrder.ticks, ?_⟩
  · intro n
    refine List.Sublist.trans ?_ (hOrder.inputs n)
    refine List.Sublist.append_left ?_ _
    refine List.Sublist.append_right ?_ _
    have hNothing : takenAt s.began task = [] := by
      cases task with
      | inRun aw => exact absurd rfl (hTask aw)
      | _ => rfl
    simp only [inFlight, hNothing]
    split <;> exact List.nil_sublist _
  · intro next event kept hAt
    exact absurd hAt (hTask _)

/- The loop of the next match begins with an empty queue. -/
theorem inOrder_restart
    (hOrder : InOrder s)
    (now : Timestamp) :
    InOrder (s.restart settings matchId now) := by
  refine ⟨?_, hOrder.ticks, nofun⟩
  intro n
  refine List.Sublist.trans ?_ (hOrder.inputs n)
  refine List.Sublist.append_left ?_ _
  have hNothing :
      inFlight (s.restart settings matchId now) n = [] := by
    rw [inFlight]
    split <;> rfl
  rw [hNothing, List.nil_append]
  by_cases hNew : n = s.current + 1
  · have hQueue :
        ((s.restart settings matchId now).loops
          n).inputQueue = [] := by
      subst hNew
      simp only [State.restart, State.loops_setLoop_self]
      rfl
    rw [hQueue]
    exact List.nil_sublist _
  · have hQueue :
        ((s.restart settings matchId now).loops
          n).inputQueue = (s.loops n).inputQueue := by
      simp only [State.restart,
        State.loops_setLoop_of_ne s hNew]
    rw [hQueue]
    exact List.sublist_append_right _ _

theorem inOrder_moves
    {act : Act α}
    (hOrder : InOrder s)
    (hMoves : Moves settings matchId s act t) :
    InOrder t := by
  cases hMoves with
  | frame hPoint => exact inOrder_frame hOrder _
  | resume hTask hAwaits =>
      exact inOrder_resume hOrder hTask hAwaits
  | idle hTask => exact hOrder.of_idle hTask
  | restart hTask => exact inOrder_restart hOrder _
  | join hPoint =>
      exact
        hOrder.of_queues rfl rfl rfl rfl rfl
          (inputQueue_setLoop s
            (GameLoop.inputQueue_addPlayer _ _ _))
  | restore hPoint =>
      exact
        hOrder.of_queues rfl rfl rfl rfl rfl
          (inputQueue_setLoop s
            (GameLoop.inputQueue_addPlayer _ _ _))
  | clearFail hPoint =>
      exact
        hOrder.of_queues rfl rfl rfl rfl rfl
          (inputQueue_setLoop s
            (GameLoop.inputQueue_addPlayer _ _ _))
  | leave hPoint =>
      exact
        hOrder.of_queues rfl rfl rfl rfl rfl
          (inputQueue_setLoop s
            (GameLoop.inputQueue_removePlayer _ _))
  | connect =>
      exact
        hOrder.of_queues rfl rfl rfl rfl rfl (fun _ => rfl)
  | handshake hFrom hTo =>
      exact
        hOrder.of_queues rfl rfl rfl rfl rfl (fun _ => rfl)
  | register hPoint hAdmit hMode =>
      exact
        hOrder.of_queues rfl rfl rfl rfl rfl (fun _ => rfl)
  | lookup hPoint =>
      exact
        hOrder.of_queues rfl rfl rfl rfl rfl (fun _ => rfl)
  | lookupFail hPoint =>
      exact
        hOrder.of_queues rfl rfl rfl rfl rfl (fun _ => rfl)
  | clear hPoint =>
      exact
        hOrder.of_queues rfl rfl rfl rfl rfl (fun _ => rfl)
  | cleared hPoint =>
      exact
        hOrder.of_queues rfl rfl rfl rfl rfl (fun _ => rfl)
  | hold hPoint =>
      exact
        hOrder.of_queues rfl rfl rfl rfl rfl (fun _ => rfl)
  | held hPoint =>
      exact
        hOrder.of_queues rfl rfl rfl rfl rfl (fun _ => rfl)
  | error hPoint =>
      exact
        hOrder.of_queues rfl rfl rfl rfl rfl (fun _ => rfl)
  | sendFails =>
      exact
        hOrder.of_queues rfl rfl rfl rfl rfl (fun _ => rfl)
  | expire =>
      exact
        hOrder.of_queues rfl rfl rfl rfl rfl (fun _ => rfl)
  | farewell hTask =>
      exact
        hOrder.of_queues rfl rfl rfl rfl rfl (fun _ => rfl)

/-
  The inputs of the committed ticks of a match, and those
  that wait, are received inputs in the order of receipt,
  each at most once; a commit is the tick on its inputs.
-/
theorem inputs_in_order
    {g : GameLoop α}
    {stores : Stores α}
    {holds : String → Option (HoldJson α)}
    (hQueue : g.inputQueue = [])
    (hRun :
      Reachable (step settings matchId)
        (.start g stores holds) s) :
    (∀ n,
      (usedInputs s n ++ (s.loops n).inputQueue).Sublist
        (receivedFor s n)) ∧
      ∀ c ∈ s.commits, IsTick c.began c.next := by
  have hOrder : InOrder s := by
    refine
      hRun.invariant (inOrder_start stores holds hQueue) ?_
    intro t u act hPrior _ hStep
    exact inOrder_moves hPrior (moves_of_step hStep)
  refine ⟨fun n => ?_, hOrder.ticks⟩
  refine List.Sublist.trans ?_ (hOrder.inputs n)
  refine List.Sublist.append_left ?_ _
  exact List.sublist_append_right _ _

/- A message that moves the player by `dx`. -/
def moves (dx : Int) : Json Int :=
  .obj [("dx", .num dx)]

/-
  The publish of the tick with the first input fails; the
  next tick has the two inputs that came later.
-/
def threeInputs : State Int :=
  final (step oneTick "m1") emptyRoom
    (connects 0 ++ enters 0 "ann" ++
      [.frame 0 (moves 1), .resume (.ok 0),
        .frame 0 (moves 2), .resume (.fail 0),
        .frame 0 (moves 3), .resume (.ok 0)] ++ calls 1)
    (by decide +kernel)

theorem inputs_in_order_threeInputs :
    (usedInputs threeInputs 0).length = 2 ∧
      (receivedFor threeInputs 0).length = 3 ∧
        (usedInputs threeInputs 0 ++
            (threeInputs.loops 0).inputQueue).Sublist
          (receivedFor threeInputs 0) := by
  refine ⟨by decide +kernel, by decide +kernel, ?_⟩
  have hRun :
      Reachable (step oneTick "m1") emptyRoom threeInputs :=
    reachable_of_run (run_eq_final (by decide +kernel))
  exact (inputs_in_order rfl hRun).1 0

end Sockets
