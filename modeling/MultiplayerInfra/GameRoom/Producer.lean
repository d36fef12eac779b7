import Mathlib.Data.List.Count
import MultiplayerInfra.Machine.Run

/-
  `AsyncKafkaProducer`: publishing tasks, the threads that
  poll the one Kafka producer of the process, the event loop
  and the broker.

  Key definitions include:
    * `GameRoom.Producer.State`
    * `GameRoom.Producer.Act`
    * `GameRoom.Producer.step`
    * `GameRoom.Producer.Accounted`

  Key theorems include:
    * `GameRoom.Producer.accounted_step`
    * `GameRoom.Producer.published_own`
    * `GameRoom.Producer.awaiting_ends_iff`

  Every game loop wraps the same producer and polls it with a
  thread of its own, so any thread may serve any report.  The
  producer is not an idempotent one: what it sends again may
  be appended twice, also after its report.
-/

------------------------------------------------------------
-- The Machine
------------------------------------------------------------

namespace GameRoom.Producer

/- Where a call of `publish` is. -/
inductive Phase where
  -- after a `BufferError`, before the second `produce`
  | sleeping
  -- at `await future`
  | awaiting
  -- the future has its result, and the task has not resumed
  | settled (result : Option Nat)
  | returned (offset : Nat)
  -- the delivery failed
  | raised
  -- `produce` raised
  | refused
deriving DecidableEq

structure Call (μ : Type) where
  message : μ
  phase : Phase
deriving DecidableEq

/- The thread of `_poll_loop`. -/
inductive Poller where
  | running
  -- `_running` is false, and a `poll` has yet to return
  | stopping
  | gone
deriving DecidableEq

structure State (μ : Type) where
  calls : List (Call μ)
  -- the messages without a report, queued or under way
  queue : List Nat
  -- the partition, each record with its call
  log : List (Nat × μ)
  -- delivery reports: the offset, or none for an error
  reports : List (Nat × Option Nat)
  -- what `call_soon_threadsafe` has scheduled
  ready : List (Nat × Option Nat)
  pollers : List Poller
  -- the event loop is blocked in a `flush`
  flushing : Bool

/- What a call of `produce` does. -/
inductive Produce where
  | queued
  -- `BufferError`
  | full
  -- another exception
  | failed
deriving DecidableEq

inductive Act (μ : Type) where
  -- `__init__`
  | create
  | publish (message : μ) (first : Produce)
  -- `asyncio.sleep` is over
  | retry (k : Nat) (second : Produce)
  -- the broker; the report of a delivery has an offset
  | append (k : Nat)
  | report (k : Nat) (result : Option Nat)
  -- a thread serves a report, or leaves its loop
  | poll (w : Nat)
  | exit (w : Nat)
  -- up to their `flush`: `stop`, a request of `GET /ready`,
  -- and `shutdown`
  | stop (w : Nat)
  | ready
  | shutdown
  -- what happens in there
  | flush
  | flushed
  -- the event loop runs a callback or a task
  | callback
  | resume (k : Nat)
deriving DecidableEq

variable {μ : Type}

namespace State

def empty : State μ where
  calls := []
  queue := []
  log := []
  reports := []
  ready := []
  pollers := []
  flushing := false

def phaseOf (s : State μ) (k : Nat) : Option Phase :=
  (s.calls[k]?).map Call.phase

def setPhase
    (s : State μ)
    (k : Nat)
    (phase : Phase) : State μ :=
  { s with
    calls := s.calls.modify k (fun call =>
      { call with phase := phase }) }

/- `publish` up to its first await. -/
def publish
    (s : State μ)
    (message : μ) : Produce → State μ
| .queued =>
    { s with
      calls := s.calls ++ [⟨message, .awaiting⟩]
      queue := s.queue ++ [s.calls.length] }
| .full =>
    { s with calls := s.calls ++ [⟨message, .sleeping⟩] }
| .failed =>
    { s with calls := s.calls ++ [⟨message, .refused⟩] }

/- The second `produce`, whose exceptions are not caught. -/
def retry (s : State μ) (k : Nat) : Produce → State μ
| .queued =>
    { s.setPhase k .awaiting with queue := s.queue ++ [k] }
| .full => s.setPhase k .refused
| .failed => s.setPhase k .refused

/- The call whose record has an offset. -/
def callAt (s : State μ) (offset : Nat) : Option Nat :=
  (s.log[offset]?).map Prod.fst

/- The event loop enters a `flush`, which blocks it. -/
def beginFlush (s : State μ) : Option (State μ) :=
  if s.flushing then none else some { s with flushing := true }

/- `_callback` is called for the first report. -/
def serve (s : State μ) : Option (State μ) :=
  match s.reports with
  | [] => none
  | report :: reports =>
      some { s with
        reports := reports
        ready := s.ready ++ [report] }

/- The loop runs the first callback: the future is set. -/
def callback (s : State μ) : Option (State μ) :=
  match s.ready with
  | [] => none
  | (k, result) :: ready =>
      some { s.setPhase k (.settled result) with
        ready := ready }

end State

def step (s : State μ) : Act μ → Option (State μ)
| .create =>
    if s.flushing then none
    else some { s with pollers := s.pollers ++ [.running] }
| .publish message first =>
    if s.flushing then none
    else some (s.publish message first)
| .retry k second =>
    if s.flushing = false ∧ s.phaseOf k = some .sleeping then
      some (s.retry k second)
    else none
| .append k =>
    match s.calls[k]? with
    | none => none
    | some call =>
        -- the producer has, or had, the message
        if call.phase = .sleeping ∨ call.phase = .refused then
          none
        else
          some { s with log := s.log ++ [(k, call.message)] }
| .report k result =>
    if k ∈ s.queue ∧
        ∀ offset ∈ result, s.callAt offset = some k then
      some { s with
        queue := s.queue.erase k
        reports := s.reports ++ [(k, result)] }
    else none
| .poll w =>
    match s.pollers[w]? with
    | none => none
    | some .gone => none
    | some _ => s.serve
| .exit w =>
    if s.pollers[w]? = some .stopping then
      some { s with pollers := s.pollers.set w .gone }
    else none
| .stop w =>
    if s.flushing then none
    else
      (s.pollers[w]?).map (fun poller => { s with
        flushing := true
        pollers :=
          s.pollers.set w
            (if poller = .gone then .gone else .stopping) })
| .ready => s.beginFlush
| .shutdown => s.beginFlush
| .flush => if s.flushing then s.serve else none
| .flushed =>
    if s.flushing then some { s with flushing := false }
    else none
| .callback => if s.flushing then none else s.callback
| .resume k =>
    if s.flushing then none
    else
      match s.phaseOf k with
      | some (.settled (some offset)) =>
          some (s.setPhase k (.returned offset))
      | some (.settled none) => some (s.setPhase k .raised)
      | _ => none

end GameRoom.Producer

------------------------------------------------------------
-- The Kinds of Steps
------------------------------------------------------------

namespace GameRoom.Producer

variable {μ : Type}

/- The transitions of `step`, one for each kind. -/
inductive Steps (s : State μ) : Act μ → State μ → Prop where
  | create
      (hFree : s.flushing = false) :
      Steps s .create
        { s with pollers := s.pollers ++ [.running] }
  | publish
      {message : μ} {first : Produce}
      (hFree : s.flushing = false) :
      Steps s (.publish message first)
        (s.publish message first)
  | retry
      {k : Nat} {second : Produce}
      (hFree : s.flushing = false)
      (hPhase : s.phaseOf k = some .sleeping) :
      Steps s (.retry k second) (s.retry k second)
  | append
      {k : Nat} {call : Call μ}
      (hCall : s.calls[k]? = some call)
      (hSent :
        call.phase ≠ .sleeping ∧ call.phase ≠ .refused) :
      Steps s (.append k)
        { s with log := s.log ++ [(k, call.message)] }
  | report
      {k : Nat} {result : Option Nat}
      (hQueued : k ∈ s.queue)
      (hResult :
        ∀ offset ∈ result, s.callAt offset = some k) :
      Steps s (.report k result)
        { s with
          queue := s.queue.erase k
          reports := s.reports ++ [(k, result)] }
  | serve
      {act : Act μ}
      {report : Nat × Option Nat}
      {reports : List (Nat × Option Nat)}
      (hReports : s.reports = report :: reports)
      (hServes :
        s.flushing = true ∨
          ∃ poller ∈ s.pollers, poller ≠ .gone) :
      Steps s act
        { s with
          reports := reports
          ready := s.ready ++ [report] }
  | exit
      {w : Nat}
      (hStopping : s.pollers[w]? = some .stopping) :
      Steps s (.exit w)
        { s with pollers := s.pollers.set w .gone }
  | stop
      {w : Nat} {poller : Poller}
      (hFree : s.flushing = false)
      (hPoller : s.pollers[w]? = some poller) :
      Steps s (.stop w)
        { s with
          flushing := true
          pollers :=
            s.pollers.set w
              (if poller = .gone then .gone else .stopping) }
  | flushes
      {act : Act μ}
      (hFree : s.flushing = false)
      (hAct : act = .ready ∨ act = .shutdown) :
      Steps s act { s with flushing := true }
  | flushed
      (hFlushing : s.flushing = true) :
      Steps s .flushed { s with flushing := false }
  | callback
      {k : Nat} {result : Option Nat}
      {ready : List (Nat × Option Nat)}
      (hFree : s.flushing = false)
      (hReady : s.ready = (k, result) :: ready) :
      Steps s .callback
        { s.setPhase k (.settled result) with ready := ready }
  | returns
      {k offset : Nat}
      (hFree : s.flushing = false)
      (hPhase :
        s.phaseOf k = some (.settled (some offset))) :
      Steps s (.resume k) (s.setPhase k (.returned offset))
  | raises
      {k : Nat}
      (hFree : s.flushing = false)
      (hPhase : s.phaseOf k = some (.settled none)) :
      Steps s (.resume k) (s.setPhase k .raised)

theorem steps_of_serve
    {s t : State μ}
    (act : Act μ)
    (hServe : s.serve = some t)
    (hServes :
      s.flushing = true ∨
        ∃ poller ∈ s.pollers, poller ≠ .gone) :
    Steps s act t := by
  unfold State.serve at hServe
  split at hServe
  · cases hServe
  · rename_i report reports hReports
    cases hServe
    exact .serve hReports hServes

theorem steps_of_beginFlush
    {s t : State μ}
    {act : Act μ}
    (hBegin : s.beginFlush = some t)
    (hAct : act = .ready ∨ act = .shutdown) :
    Steps s act t := by
  unfold State.beginFlush at hBegin
  split at hBegin
  · cases hBegin
  · rename_i hFree
    cases hBegin
    exact .flushes (Bool.eq_false_iff.mpr hFree) hAct

/- Every step of the function is one of the transitions. -/
theorem steps_of_step
    {s t : State μ}
    {act : Act μ}
    (hStep : step s act = some t) :
    Steps s act t := by
  unfold step at hStep
  split at hStep
  · split at hStep
    · cases hStep
    · rename_i hFree
      cases hStep
      exact .create (Bool.eq_false_iff.mpr hFree)
  · split at hStep
    · cases hStep
    · rename_i hFree
      cases hStep
      exact .publish (Bool.eq_false_iff.mpr hFree)
  · split at hStep
    · rename_i hBoth
      cases hStep
      exact .retry hBoth.1 hBoth.2
    · cases hStep
  · split at hStep
    · cases hStep
    · rename_i call hCall
      split at hStep
      · cases hStep
      · rename_i hSent
        cases hStep
        exact .append hCall (not_or.mp hSent)
  · split at hStep
    · rename_i hBoth
      cases hStep
      exact .report hBoth.1 hBoth.2
    · cases hStep
  · split at hStep
    · cases hStep
    · cases hStep
    · rename_i poller hHere hPoller
      refine steps_of_serve _ hStep (.inr ⟨poller, ?_, ?_⟩)
      · exact List.mem_of_getElem? hPoller
      · rintro rfl
        exact hHere rfl
  · split at hStep
    · rename_i hStopping
      cases hStep
      exact .exit hStopping
    · cases hStep
  · split at hStep
    · cases hStep
    · rename_i hFree
      rcases Option.map_eq_some_iff.mp hStep with
        ⟨poller, hPoller, rfl⟩
      exact .stop (Bool.eq_false_iff.mpr hFree) hPoller
  · exact steps_of_beginFlush hStep (.inl rfl)
  · exact steps_of_beginFlush hStep (.inr rfl)
  · split at hStep
    · rename_i hFlushing
      exact steps_of_serve _ hStep (.inl hFlushing)
    · cases hStep
  · split at hStep
    · rename_i hFlushing
      cases hStep
      exact .flushed hFlushing
    · cases hStep
  · split at hStep
    · cases hStep
    · rename_i hFree
      unfold State.callback at hStep
      split at hStep
      · cases hStep
      · rename_i hReady
        cases hStep
        exact .callback (Bool.eq_false_iff.mpr hFree) hReady
  · split at hStep
    · cases hStep
    · rename_i hFree
      split at hStep
      · rename_i hPhase
        cases hStep
        exact .returns (Bool.eq_false_iff.mpr hFree) hPhase
      · rename_i hPhase
        cases hStep
        exact .raises (Bool.eq_false_iff.mpr hFree) hPhase
      · cases hStep

end GameRoom.Producer

------------------------------------------------------------
-- Phases
------------------------------------------------------------

namespace GameRoom.Producer

variable {μ : Type}

namespace State

variable (s : State μ)

def messageOf (k : Nat) : Option μ :=
  (s.calls[k]?).map Call.message

theorem phaseOf_setPhase
    (k j : Nat)
    (phase : Phase) :
    (s.setPhase k phase).phaseOf j =
      if j = k then (s.phaseOf k).map (fun _ => phase)
      else s.phaseOf j := by
  simp only [phaseOf, setPhase, List.getElem?_modify,
    Option.map_map]
  by_cases hSame : k = j
  · subst hSame
    rw [if_pos rfl]
    cases s.calls[k]? <;> simp
  · rw [if_neg (Ne.symm hSame)]
    simp [hSame]

@[simp] theorem messageOf_setPhase
    (k j : Nat)
    (phase : Phase) :
    (s.setPhase k phase).messageOf j = s.messageOf j := by
  simp only [messageOf, setPhase, List.getElem?_modify]
  by_cases hSame : k = j
  · subst hSame
    cases s.calls[k]? <;> simp
  · simp [hSame]

theorem phaseOf_full
    (message : μ)
    (k : Nat) :
    (s.publish message .full).phaseOf k =
      if k = s.calls.length then some .sleeping
      else s.phaseOf k := by
  simp only [phaseOf, publish]
  rw [List.getElem?_append]
  split
  · rw [if_neg (by omega)]
  · by_cases hLast : k = s.calls.length
    · simp [hLast]
    · rw [if_neg hLast, List.getElem?_eq_none (by simp; omega),
        List.getElem?_eq_none (by omega)]

theorem messageOf_full
    {message : μ}
    {k : Nat}
    {m : μ}
    (hMessage : s.messageOf k = some m) :
    (s.publish message .full).messageOf k = some m := by
  rcases Option.map_eq_some_iff.mp hMessage with
    ⟨call, hCall, hEq⟩
  have hLt := (List.getElem?_eq_some_iff.mp hCall).1
  simp only [messageOf, publish]
  rw [List.getElem?_append_left hLt, hCall, Option.map_some,
    hEq]

/- The first `produce` is like one after a pause. -/
theorem publish_eq_retry
    (message : μ)
    {first : Produce}
    (hFirst : first ≠ .full) :
    s.publish message first =
      (s.publish message .full).retry s.calls.length
        first := by
  have hLast :
      ∀ f : Call μ → Call μ,
        (s.calls ++ [(⟨message, .sleeping⟩ : Call μ)]).modify
            s.calls.length f =
          s.calls ++ [f ⟨message, .sleeping⟩] := by
    intro f
    rw [List.modify_eq_take_cons_drop (by simp)]
    simp
  cases first with
  | queued => simp [publish, retry, setPhase, hLast]
  | full => exact absurd rfl hFirst
  | failed => simp [publish, retry, setPhase, hLast]

end State

end GameRoom.Producer

------------------------------------------------------------
-- Accounts of Calls
------------------------------------------------------------

namespace GameRoom.Producer

variable {μ : Type}

/- How often a call has a message, report or callback. -/
def State.places (s : State μ) (k : Nat) : Nat :=
  s.queue.count k + (s.reports.map Prod.fst).count k +
    (s.ready.map Prod.fst).count k

/-
  A call that waits is in one place.  What is reported and
  returned is the offset of its own record.
-/
structure Accounted (s : State μ) : Prop where
  places :
    ∀ k, s.places k =
      if s.phaseOf k = some .awaiting then 1 else 0
  own :
    ∀ record ∈ s.log,
      s.messageOf record.1 = some record.2 ∧
        s.phaseOf record.1 ≠ some .sleeping ∧
          s.phaseOf record.1 ≠ some .refused
  told :
    ∀ k offset, (k, some offset) ∈ s.reports ++ s.ready →
      s.callAt offset = some k
  settled :
    ∀ k offset,
      s.phaseOf k = some (.settled (some offset)) ∨
          s.phaseOf k = some (.returned offset) →
        s.callAt offset = some k

theorem accounted_empty :
    Accounted (State.empty : State μ) where
  places := fun _ => rfl
  own := by
    intro record hMem
    cases hMem
  told := by
    intro k offset hMem
    cases hMem
  settled := by
    intro k offset hPhase
    rcases hPhase with hPhase | hPhase <;> cases hPhase

variable {s : State μ}

/- A call that is in a place waits. -/
theorem Accounted.awaiting
    (hAccounted : Accounted s)
    {k : Nat}
    (hPlace : 0 < s.places k) :
    s.phaseOf k = some .awaiting := by
  by_contra hNot
  rw [hAccounted.places k, if_neg hNot] at hPlace
  exact Nat.lt_irrefl 0 hPlace

/- One call changes its phase, and places with it. -/
theorem Accounted.move
    (hAccounted : Accounted s)
    {t : State μ}
    {k : Nat}
    {phase : Phase}
    (hLog : t.log = s.log)
    (hMessages : ∀ j, t.messageOf j = s.messageOf j)
    (hPhases :
      ∀ j, t.phaseOf j =
        if j = k then some phase else s.phaseOf j)
    (hOthers : ∀ j, j ≠ k → t.places j = s.places j)
    (hPlaces : t.places k = if phase = .awaiting then 1 else 0)
    (hTold :
      ∀ report ∈ t.reports ++ t.ready,
        report ∈ s.reports ++ s.ready)
    (hOwn :
      (∃ m, (k, m) ∈ s.log) →
        phase ≠ .sleeping ∧ phase ≠ .refused)
    (hSettled :
      ∀ offset,
        phase = .settled (some offset) ∨
            phase = .returned offset →
          s.callAt offset = some k) :
    Accounted t where
  places := by
    intro j
    rw [hPhases j]
    by_cases hSame : j = k
    · subst hSame
      rw [if_pos rfl, hPlaces]
      simp only [Option.some.injEq]
    · rw [if_neg hSame, hOthers j hSame]
      exact hAccounted.places j
  own := by
    rw [hLog]
    intro record hMem
    have hOld := hAccounted.own record hMem
    rw [hMessages, hPhases]
    refine ⟨hOld.1, ?_⟩
    split
    · rename_i hSame
      rcases hOwn ⟨record.2, by rw [← hSame]; exact hMem⟩ with
        ⟨hNot, hNot'⟩
      exact
        ⟨fun hEq => hNot (Option.some.inj hEq),
          fun hEq => hNot' (Option.some.inj hEq)⟩
    · exact hOld.2
  told := by
    intro j offset hMem
    rw [State.callAt, hLog]
    exact hAccounted.told j offset (hTold _ hMem)
  settled := by
    intro j offset hPhase
    rw [State.callAt, hLog]
    rw [hPhases j] at hPhase
    split at hPhase
    · rename_i hSame
      rw [hSame]
      refine hSettled offset ?_
      rcases hPhase with hPhase | hPhase
      · exact .inl (Option.some.inj hPhase)
      · exact .inr (Option.some.inj hPhase)
    · exact hAccounted.settled j offset hPhase

end GameRoom.Producer

------------------------------------------------------------
-- Steps Keep the Accounts
------------------------------------------------------------

namespace GameRoom.Producer

variable {μ : Type} {s : State μ}

/- A phase that a call gets, in terms of its old one. -/
theorem phases_of_setPhase
    {k : Nat}
    {old : Phase}
    (phase : Phase)
    (hPhase : s.phaseOf k = some old)
    (j : Nat) :
    (s.setPhase k phase).phaseOf j =
      if j = k then some phase else s.phaseOf j := by
  rw [State.phaseOf_setPhase, hPhase]
  rfl

/- A new call that sleeps. -/
theorem accounted_full
    (hAccounted : Accounted s)
    (message : μ) :
    Accounted (s.publish message .full) := by
  have hNew : s.phaseOf s.calls.length = none := by
    rw [State.phaseOf, List.getElem?_eq_none (Nat.le_refl _)]
    rfl
  have hOther :
      ∀ record ∈ s.log, record.1 ≠ s.calls.length := by
    intro record hMem hEq
    have hMessage := (hAccounted.own record hMem).1
    rw [hEq, State.messageOf,
      List.getElem?_eq_none (Nat.le_refl _)] at hMessage
    cases hMessage
  constructor
  · intro k
    rw [State.phaseOf_full]
    change s.places k = _
    rw [hAccounted.places k]
    by_cases hSame : k = s.calls.length
    · rw [hSame, hNew, if_pos rfl]
      rfl
    · rw [if_neg hSame]
  · intro record hMem
    rcases hAccounted.own record hMem with ⟨hMessage, hRest⟩
    refine ⟨s.messageOf_full hMessage, ?_⟩
    rw [State.phaseOf_full, if_neg (hOther record hMem)]
    exact hRest
  · exact hAccounted.told
  · intro k offset hPhase
    rw [State.phaseOf_full] at hPhase
    split at hPhase
    · rcases hPhase with hPhase | hPhase <;> cases hPhase
    · exact hAccounted.settled k offset hPhase

/- A call that sleeps has no record. -/
theorem Accounted.unrecorded
    (hAccounted : Accounted s)
    {k : Nat}
    (hPhase : s.phaseOf k = some .sleeping) :
    ¬ ∃ m, (k, m) ∈ s.log := by
  rintro ⟨m, hMem⟩
  exact (hAccounted.own (k, m) hMem).2.1 hPhase

theorem accounted_retry
    (hAccounted : Accounted s)
    {k : Nat}
    (hPhase : s.phaseOf k = some .sleeping)
    (second : Produce) :
    Accounted (s.retry k second) := by
  have hNone : s.places k = 0 := by
    rw [hAccounted.places k, hPhase]
    rfl
  have hAbsent := hAccounted.unrecorded hPhase
  have hRefused : Accounted (s.setPhase k .refused) := by
    refine
      hAccounted.move rfl (s.messageOf_setPhase k · .refused)
        (phases_of_setPhase .refused hPhase) (fun _ _ => rfl)
        hNone (fun _ hMem => hMem)
        (fun hMem => absurd hMem hAbsent) ?_
    intro offset hSettled
    rcases hSettled with hSettled | hSettled <;> cases hSettled
  cases second with
  | queued =>
      refine
        hAccounted.move rfl
          (s.messageOf_setPhase k · .awaiting)
          (phases_of_setPhase .awaiting hPhase) ?_ ?_
          (fun _ hMem => hMem)
          (fun hMem => absurd hMem hAbsent) ?_
      · intro j hOther
        simp only [State.places, State.retry, State.setPhase,
          List.count_append, List.count_singleton]
        simp [Ne.symm hOther]
      · simp only [State.places] at hNone
        simp only [State.places, State.retry, State.setPhase,
          List.count_append, List.count_singleton, if_true]
        simp only [beq_self_eq_true, if_true]
        omega
      · intro offset hSettled
        rcases hSettled with hSettled | hSettled <;>
          cases hSettled
  | full => exact hRefused
  | failed => exact hRefused

theorem accounted_publish
    (hAccounted : Accounted s)
    (message : μ)
    (first : Produce) :
    Accounted (s.publish message first) := by
  have hFull := accounted_full hAccounted message
  by_cases hFirst : first = .full
  · rw [hFirst]
    exact hFull
  · rw [s.publish_eq_retry message hFirst]
    refine accounted_retry hFull ?_ first
    rw [State.phaseOf_full, if_pos rfl]

/- What is known of an offset stays. -/
theorem callAt_append
    {offset k : Nat}
    (hCall : s.callAt offset = some k)
    (new : List (Nat × μ)) :
    ((s.log ++ new)[offset]?).map Prod.fst = some k := by
  rcases Option.map_eq_some_iff.mp hCall with
    ⟨record, hRecord, rfl⟩
  have hLt := (List.getElem?_eq_some_iff.mp hRecord).1
  rw [List.getElem?_append_left hLt, hRecord, Option.map_some]

theorem accounted_append
    (hAccounted : Accounted s)
    {k : Nat}
    {call : Call μ}
    (hCall : s.calls[k]? = some call)
    (hSent : call.phase ≠ .sleeping ∧ call.phase ≠ .refused) :
    Accounted { s with
      log := s.log ++ [(k, call.message)] } where
  places := hAccounted.places
  own := by
    intro record hMem
    rcases List.mem_append.mp hMem with hOld | hLast
    · exact hAccounted.own record hOld
    · rw [List.mem_singleton] at hLast
      subst hLast
      have hPhase : s.phaseOf k = some call.phase := by
        rw [State.phaseOf, hCall, Option.map_some]
      refine ⟨by simp [State.messageOf, hCall], ?_, ?_⟩
      · intro hEq
        exact hSent.1 (Option.some.inj (hPhase.symm.trans hEq))
      · intro hEq
        exact hSent.2 (Option.some.inj (hPhase.symm.trans hEq))
  told := by
    intro j offset hMem
    exact callAt_append (hAccounted.told j offset hMem) _
  settled := by
    intro j offset hPhase
    exact callAt_append (hAccounted.settled j offset hPhase) _

theorem accounted_report
    (hAccounted : Accounted s)
    {k : Nat}
    {result : Option Nat}
    (hQueued : k ∈ s.queue)
    (hResult :
      ∀ offset ∈ result, s.callAt offset = some k) :
    Accounted { s with
      queue := s.queue.erase k
      reports := s.reports ++ [(k, result)] } where
  places := by
    intro j
    refine Eq.trans ?_ (hAccounted.places j)
    have hErase :=
      (List.perm_cons_erase hQueued).count_eq j
    simp only [State.places, hErase, List.map_append,
      List.map_singleton, List.count_append, List.count_cons,
      List.count_nil]
    omega
  own := hAccounted.own
  told := by
    intro j offset hMem
    simp only [List.mem_append, List.mem_singleton] at hMem
    rcases hMem with (hOld | hNew) | hReady
    · exact
        hAccounted.told j offset
          (List.mem_append_left _ hOld)
    · cases hNew
      exact hResult offset rfl
    · exact
        hAccounted.told j offset
          (List.mem_append_right _ hReady)
  settled := hAccounted.settled

theorem accounted_serve
    (hAccounted : Accounted s)
    {report : Nat × Option Nat}
    {reports : List (Nat × Option Nat)}
    (hReports : s.reports = report :: reports) :
    Accounted { s with
      reports := reports
      ready := s.ready ++ [report] } where
  places := by
    intro k
    refine Eq.trans ?_ (hAccounted.places k)
    simp only [State.places, hReports, List.map_append,
      List.map_cons, List.map_nil, List.count_append,
      List.count_cons, List.count_nil]
    omega
  own := hAccounted.own
  told := by
    intro k offset hMem
    refine hAccounted.told k offset ?_
    rw [hReports]
    simp only [List.mem_append, List.mem_cons,
      List.not_mem_nil, or_false] at hMem ⊢
    rcases hMem with hOld | hReady | hNew
    · exact .inl (.inr hOld)
    · exact .inr hReady
    · exact .inl (.inl hNew)
  settled := hAccounted.settled

theorem accounted_callback
    (hAccounted : Accounted s)
    {k : Nat}
    {result : Option Nat}
    {ready : List (Nat × Option Nat)}
    (hReady : s.ready = (k, result) :: ready) :
    Accounted { s.setPhase k (.settled result) with
      ready := ready } := by
  have hPlace : 0 < s.places k := by
    simp only [State.places, hReady, List.map_cons,
      List.count_cons_self]
    omega
  have hWaits := hAccounted.awaiting hPlace
  have hOne := hAccounted.places k
  rw [hWaits, if_pos rfl] at hOne
  refine
    hAccounted.move rfl
      (s.messageOf_setPhase k · (.settled result))
      (phases_of_setPhase (.settled result) hWaits)
      ?_ ?_ ?_ ?_ ?_
  · intro j hOther
    simp only [State.places, State.setPhase, hReady,
      List.map_cons, List.count_cons]
    simp [Ne.symm hOther]
  · simp only [State.places, hReady, List.map_cons,
      List.count_cons_self] at hOne
    simp only [State.places, State.setPhase, reduceCtorEq,
      if_false]
    omega
  · intro report hMem
    rw [hReady]
    rcases List.mem_append.mp hMem with hOld | hRest
    · exact List.mem_append_left _ hOld
    · exact
        List.mem_append_right _
          (List.mem_cons_of_mem _ hRest)
  · intro _
    exact ⟨Phase.noConfusion, Phase.noConfusion⟩
  · intro offset hSettled
    rcases hSettled with hSettled | hSettled
    · cases hSettled
      refine hAccounted.told k offset ?_
      rw [hReady]
      exact
        List.mem_append_right _ List.mem_cons_self
    · cases hSettled

/- The task of a call resumes with what its future has. -/
theorem accounted_resume
    (hAccounted : Accounted s)
    {k : Nat}
    {result : Option Nat}
    {phase : Phase}
    (hPhase : s.phaseOf k = some (.settled result))
    (hNext :
      (∃ offset,
          result = some offset ∧ phase = .returned offset) ∨
        phase = .raised) :
    Accounted (s.setPhase k phase) := by
  have hNone : s.places k = 0 := by
    rw [hAccounted.places k, hPhase]
    rfl
  have hNot :
      phase ≠ .awaiting ∧ phase ≠ .sleeping ∧
        phase ≠ .refused := by
    rcases hNext with ⟨offset, _, rfl⟩ | rfl
    · exact
        ⟨Phase.noConfusion, Phase.noConfusion,
          Phase.noConfusion⟩
    · exact
        ⟨Phase.noConfusion, Phase.noConfusion,
          Phase.noConfusion⟩
  refine
    hAccounted.move rfl (s.messageOf_setPhase k · phase)
      (phases_of_setPhase phase hPhase) (fun _ _ => rfl) ?_
      (fun _ hMem => hMem) (fun _ => hNot.2) ?_
  · rw [if_neg hNot.1]
    exact hNone
  · intro offset hSettled
    rcases hNext with ⟨own, rfl, rfl⟩ | rfl
    · rcases hSettled with hSettled | hSettled
      · cases hSettled
      · cases hSettled
        exact hAccounted.settled k _ (.inl hPhase)
    · rcases hSettled with hSettled | hSettled <;>
        cases hSettled

theorem accounted_step
    {t : State μ}
    {act : Act μ}
    (hAccounted : Accounted s)
    (hStep : step s act = some t) :
    Accounted t := by
  have hSame :
      ∀ {pollers : List Poller} {flushing : Bool},
        Accounted { s with
          pollers := pollers
          flushing := flushing } :=
    ⟨hAccounted.places, hAccounted.own,
      hAccounted.told, hAccounted.settled⟩
  cases steps_of_step hStep with
  | create _ => exact hSame
  | publish _ => exact accounted_publish hAccounted _ _
  | retry _ hPhase => exact accounted_retry hAccounted hPhase _
  | append hCall hSent =>
      exact accounted_append hAccounted hCall hSent
  | report hQueued hResult =>
      exact accounted_report hAccounted hQueued hResult
  | serve hReports _ => exact accounted_serve hAccounted hReports
  | exit _ => exact hSame
  | stop _ _ => exact hSame
  | flushes _ _ => exact hSame
  | flushed _ => exact hSame
  | callback _ hReady =>
      exact accounted_callback hAccounted hReady
  | returns _ hPhase =>
      exact
        accounted_resume hAccounted hPhase
          (.inl ⟨_, rfl, rfl⟩)
  | raises _ hPhase =>
      exact accounted_resume hAccounted hPhase (.inr rfl)

end GameRoom.Producer

------------------------------------------------------------
-- Whose Outcome Is Told
------------------------------------------------------------

namespace GameRoom.Producer

open Machine

variable {μ : Type}

/-
  A call that returned has the offset of a record of its own,
  one that was refused has none, and a call waits exactly
  while its message, its report or its callback is in one
  place.
-/
theorem published_own
    (s : State μ)
    (k : Nat)
    (call : Call μ)
    (hRun : Reachable step State.empty s)
    (hCall : s.calls[k]? = some call) :
    (∀ offset, call.phase = .returned offset →
        s.log[offset]? = some (k, call.message)) ∧
      (call.phase = .refused → k ∉ s.log.map Prod.fst) ∧
      s.places k = if call.phase = .awaiting then 1 else 0 := by
  have hAccounted : Accounted s :=
    hRun.invariant accounted_empty
      (fun hPrior _ hStep => accounted_step hPrior hStep)
  have hPhase : s.phaseOf k = some call.phase := by
    rw [State.phaseOf, hCall, Option.map_some]
  have hMessage : s.messageOf k = some call.message := by
    rw [State.messageOf, hCall, Option.map_some]
  refine ⟨?_, ?_, ?_⟩
  · intro offset hReturned
    have hAt :=
      hAccounted.settled k offset
        (.inr (hPhase.trans (congrArg some hReturned)))
    rcases Option.map_eq_some_iff.mp hAt with
      ⟨⟨j, m⟩, hRecord, rfl⟩
    have hOwn :=
      (hAccounted.own _ (List.mem_of_getElem? hRecord)).1
    rw [hMessage] at hOwn
    cases hOwn
    exact hRecord
  · intro hRefused hMem
    rcases List.mem_map.mp hMem with ⟨record, hRecord, rfl⟩
    exact
      (hAccounted.own record hRecord).2.2
        (hPhase.trans (congrArg some hRefused))
  · rw [hAccounted.places k, hPhase]
    simp only [Option.some.injEq]

end GameRoom.Producer

------------------------------------------------------------
-- Which Calls Still End
------------------------------------------------------------

namespace GameRoom.Producer

open Machine

variable {μ : Type} {s t : State μ} {k : Nat}

/- Somebody serves reports. -/
def State.Served (s : State μ) : Prop :=
  s.flushing = true ∨ ∃ poller ∈ s.pollers, poller ≠ .gone

/- The task of the call has returned or raised. -/
def State.Over (s : State μ) (k : Nat) : Prop :=
  s.phaseOf k = some .raised ∨
    ∃ offset, s.phaseOf k = some (.returned offset)

/- No loop is created or stopped meanwhile. -/
def SameLoops (_ : State μ) : Act μ → Prop
| .create => False
| .stop _ => False
| _ => True

/- Nor does the event loop enter a `flush` otherwise. -/
def Quiet (s : State μ) : Act μ → Prop
| .ready => False
| .shutdown => False
| act => SameLoops s act

theorem sameLoops_of_quiet
    {act : Act μ}
    (hQuiet : Quiet s act) :
    SameLoops s act := by
  cases act with
  | create => exact hQuiet
  | stop w => exact hQuiet
  | _ => trivial

theorem phaseOf_publish
    {phase : Phase}
    (message : μ)
    (first : Produce)
    (hPhase : s.phaseOf k = some phase) :
    (s.publish message first).phaseOf k = some phase := by
  rcases Option.map_eq_some_iff.mp hPhase with
    ⟨call, hCall, rfl⟩
  have hLt := (List.getElem?_eq_some_iff.mp hCall).1
  cases first <;>
    rw [State.phaseOf, State.publish,
      List.getElem?_append_left hLt, hCall, Option.map_some]

/- The phase of another call does not matter. -/
theorem phaseOf_of_ne
    {j : Nat}
    {old new : Phase}
    (phase : Phase)
    (hOther : s.phaseOf j = some old)
    (hPhase : s.phaseOf k = some new)
    (hNe : old ≠ new) :
    (s.setPhase j phase).phaseOf k = some new := by
  rw [State.phaseOf_setPhase, if_neg, hPhase]
  rintro rfl
  cases hOther.symm.trans hPhase
  exact hNe rfl

/- A call that nobody serves. -/
structure Stuck (s : State μ) (k : Nat) : Prop where
  waits : s.phaseOf k = some .awaiting
  unserved : ¬ s.Served
  unscheduled : k ∉ s.ready.map Prod.fst

theorem stuck_step
    {act : Act μ}
    (hStuck : Stuck s k)
    (hQuiet : Quiet s act)
    (hStep : step s act = some t) :
    Stuck t k := by
  have hWaits := hStuck.waits
  have hSame :
      ∀ {u : State μ},
        u.phaseOf k = some .awaiting →
          u.pollers = s.pollers → u.flushing = s.flushing →
            u.ready = s.ready → Stuck u k := by
    intro u hPhase hPollers hFlushing hReady
    refine ⟨hPhase, ?_, ?_⟩
    · rw [State.Served, hPollers, hFlushing]
      exact hStuck.unserved
    · rw [hReady]
      exact hStuck.unscheduled
  cases steps_of_step hStep with
  | create _ => cases hQuiet
  | @publish message first _ =>
      refine hSame (phaseOf_publish message first hWaits) ?_ ?_ ?_
      · cases first <;> rfl
      · cases first <;> rfl
      · cases first <;> rfl
  | @retry j second _ hPhase =>
      have hKept :
          ∀ phase, (s.setPhase j phase).phaseOf k =
            some .awaiting := fun phase =>
        phaseOf_of_ne phase hPhase hWaits Phase.noConfusion
      cases second with
      | queued => exact hSame (hKept .awaiting) rfl rfl rfl
      | full => exact hSame (hKept .refused) rfl rfl rfl
      | failed => exact hSame (hKept .refused) rfl rfl rfl
  | append _ _ => exact hSame hWaits rfl rfl rfl
  | report _ _ => exact hSame hWaits rfl rfl rfl
  | serve _ hServes => exact absurd hServes hStuck.unserved
  | exit hStopping =>
      refine absurd (.inr ⟨.stopping, ?_, ?_⟩) hStuck.unserved
      · exact List.mem_of_getElem? hStopping
      · exact Poller.noConfusion
  | stop _ _ => cases hQuiet
  | flushes _ hAct =>
      rcases hAct with rfl | rfl
      · cases hQuiet
      · cases hQuiet
  | flushed hFlushing =>
      exact absurd (.inl hFlushing) hStuck.unserved
  | @callback j result ready _ hReady =>
      have hList := hStuck.unscheduled
      rw [hReady, List.map_cons, List.mem_cons, not_or] at hList
      refine ⟨?_, hStuck.unserved, hList.2⟩
      change (s.setPhase j (.settled result)).phaseOf k = _
      rw [State.phaseOf_setPhase, if_neg hList.1]
      exact hWaits
  | @returns j offset _ hPhase =>
      exact
        hSame
          (phaseOf_of_ne (.returned offset) hPhase hWaits
            Phase.noConfusion)
          rfl rfl rfl
  | @raises j _ hPhase =>
      exact
        hSame
          (phaseOf_of_ne .raised hPhase hWaits
            Phase.noConfusion)
          rfl rfl rfl

/- Whoever serves reports takes the first one. -/
theorem serve_step
    {report : Nat × Option Nat}
    {reports : List (Nat × Option Nat)}
    (hServed : s.Served)
    (hReports : s.reports = report :: reports) :
    ∃ act, Quiet s act ∧
      step s act =
        some { s with
          reports := reports
          ready := s.ready ++ [report] } := by
  have hServe :
      s.serve =
        some { s with
          reports := reports
          ready := s.ready ++ [report] } := by
    rw [State.serve, hReports]
  rcases hServed with hFlushing | ⟨poller, hMem, hHere⟩
  · refine ⟨.flush, trivial, ?_⟩
    simp only [step, hFlushing, if_true, hServe]
  · rcases List.getElem?_of_mem hMem with ⟨w, hPoller⟩
    refine ⟨.poll w, trivial, ?_⟩
    cases poller with
    | running => simp only [step, hPoller, hServe]
    | stopping => simp only [step, hPoller, hServe]
    | gone => exact absurd rfl hHere

theorem reaches_one
    (act : Act μ)
    (hQuiet : Quiet s act)
    (hStep : step s act = some t) :
    Reaches step Quiet s t :=
  Reaches.refl.tail hQuiet hStep

/- Every report is served in the end. -/
theorem reaches_ready
    (hServed : s.Served)
    (hWaits : s.phaseOf k = some .awaiting)
    (hReported : k ∈ s.reports.map Prod.fst) :
    ∃ t, Reaches step Quiet s t ∧
      t.phaseOf k = some .awaiting ∧
        k ∈ t.ready.map Prod.fst := by
  generalize hList : s.reports = reports at hReported
  induction reports generalizing s with
  | nil => cases hReported
  | cons report reports ih =>
      rcases serve_step hServed hList with
        ⟨act, hQuiet, hStep⟩
      rw [List.map_cons, List.mem_cons] at hReported
      rcases hReported with hThis | hLater
      · refine
          ⟨_, reaches_one act hQuiet hStep, hWaits, ?_⟩
        simp [hThis]
      · rcases ih (s := { s with
              reports := reports
              ready := s.ready ++ [report] })
            hServed hWaits rfl hLater with
          ⟨t, hRun, hRest⟩
        exact
          ⟨t, (reaches_one act hQuiet hStep).trans hRun,
            hRest⟩

/- Every callback is run in the end. -/
theorem reaches_settled
    (hFree : s.flushing = false)
    (hWaits : s.phaseOf k = some .awaiting)
    (hReady : k ∈ s.ready.map Prod.fst) :
    ∃ t result, Reaches step Quiet s t ∧
      t.flushing = false ∧
        t.phaseOf k = some (.settled result) := by
  generalize hList : s.ready = ready at hReady
  induction ready generalizing s with
  | nil => cases hReady
  | cons entry ready ih =>
      rcases entry with ⟨j, result⟩
      have hStep :
          step s .callback =
            some { s.setPhase j (.settled result) with
              ready := ready } := by
        simp only [step, hFree, State.callback, hList]
        rfl
      have hFirst := reaches_one .callback trivial hStep
      rw [List.map_cons, List.mem_cons] at hReady
      by_cases hSame : k = j
      · subst hSame
        refine ⟨_, result, hFirst, hFree, ?_⟩
        change (s.setPhase k (.settled result)).phaseOf k = _
        rw [State.phaseOf_setPhase, if_pos rfl, hWaits]
        rfl
      · have hLater : k ∈ ready.map Prod.fst :=
          hReady.resolve_left hSame
        have hStill :
            (s.setPhase j (.settled result)).phaseOf k =
              some .awaiting := by
          rw [State.phaseOf_setPhase, if_neg hSame]
          exact hWaits
        rcases ih (s := { s.setPhase j (.settled result) with
              ready := ready }) hFree hStill rfl hLater with
          ⟨t, r, hRun, hRest⟩
        exact ⟨t, r, hFirst.trans hRun, hRest⟩

end GameRoom.Producer

------------------------------------------------------------
-- The End of a Call
------------------------------------------------------------

namespace GameRoom.Producer

open Machine

variable {μ : Type} {s t : State μ} {k : Nat}

/- The broker reports on a message, be it a failure. -/
theorem reaches_reported
    (hAccounted : Accounted s)
    (hWaits : s.phaseOf k = some .awaiting)
    (hUnscheduled : k ∉ s.ready.map Prod.fst) :
    ∃ t, Reaches step Quiet s t ∧
      t.phaseOf k = some .awaiting ∧
        (s.Served → t.Served) ∧
          k ∈ t.reports.map Prod.fst := by
  by_cases hReported : k ∈ s.reports.map Prod.fst
  · exact ⟨s, .refl, hWaits, id, hReported⟩
  · have hQueued : k ∈ s.queue := by
      have hOne := hAccounted.places k
      rw [hWaits, if_pos rfl, State.places,
        List.count_eq_zero.mpr hReported,
        List.count_eq_zero.mpr hUnscheduled] at hOne
      exact List.count_pos_iff.mp (by omega)
    have hStep :
        step s (.report k none) =
          some { s with
            queue := s.queue.erase k
            reports := s.reports ++ [(k, none)] } := by
      simp [step, hQueued]
    refine
      ⟨_, reaches_one (.report k none) trivial hStep, hWaits,
        id, ?_⟩
    simp

/- A scheduled callback ends the call, after any `flush`. -/
theorem reaches_over
    (hWaits : s.phaseOf k = some .awaiting)
    (hReady : k ∈ s.ready.map Prod.fst) :
    ∃ t, Reaches step Quiet s t ∧ t.Over k := by
  have hFree :
      ∃ u, Reaches step Quiet s u ∧ u.flushing = false ∧
        u.phaseOf k = some .awaiting ∧
          k ∈ u.ready.map Prod.fst := by
    cases hFlushing : s.flushing with
    | false => exact ⟨s, .refl, hFlushing, hWaits, hReady⟩
    | true =>
        have hStep :
            step s .flushed =
              some { s with flushing := false } := by
          simp only [step, hFlushing, if_true]
        exact
          ⟨_, reaches_one .flushed trivial hStep, rfl, hWaits,
            hReady⟩
  rcases hFree with ⟨u, hFirst, hLoop, hStill, hLeft⟩
  rcases reaches_settled hLoop hStill hLeft with
    ⟨v, result, hSecond, hLoop', hSettled⟩
  have hPrior := hFirst.trans hSecond
  cases result with
  | none =>
      have hStep :
          step v (.resume k) = some (v.setPhase k .raised) := by
        simp only [step, hLoop', hSettled]
        rfl
      refine
        ⟨_,
          hPrior.trans (reaches_one (.resume k) trivial hStep),
          .inl ?_⟩
      rw [State.phaseOf_setPhase, if_pos rfl, hSettled]
      rfl
  | some offset =>
      have hStep :
          step v (.resume k) =
            some (v.setPhase k (.returned offset)) := by
        simp only [step, hLoop', hSettled]
        rfl
      refine
        ⟨_,
          hPrior.trans (reaches_one (.resume k) trivial hStep),
          .inr ⟨offset, ?_⟩⟩
      rw [State.phaseOf_setPhase, if_pos rfl, hSettled]
      rfl

/- With somebody to serve its report, a call can end. -/
theorem reaches_over_of_served
    (hAccounted : Accounted s)
    (hWaits : s.phaseOf k = some .awaiting)
    (hServed : s.Served) :
    ∃ t, Reaches step Quiet s t ∧ t.Over k := by
  by_cases hReady : k ∈ s.ready.map Prod.fst
  · exact reaches_over hWaits hReady
  · rcases reaches_reported hAccounted hWaits hReady with
      ⟨u, hFirst, hStill, hKept, hReported⟩
    rcases reaches_ready (hKept hServed) hStill hReported
      with ⟨v, hSecond, hStill', hLeft⟩
    rcases reaches_over hStill' hLeft with
      ⟨t, hThird, hOver⟩
    exact ⟨t, (hFirst.trans hSecond).trans hThird, hOver⟩

/- A `flush` of `GET /ready` serves whoever waits. -/
theorem reaches_over_of_ready
    (hAccounted : Accounted s)
    (hWaits : s.phaseOf k = some .awaiting) :
    ∃ t, Reaches step SameLoops s t ∧ t.Over k := by
  have hMono :
      ∀ {u : State μ},
        (∃ t, Reaches step Quiet u t ∧ t.Over k) →
          ∃ t, Reaches step SameLoops u t ∧ t.Over k := by
    rintro u ⟨t, hOn, hOver⟩
    exact ⟨t, hOn.mono sameLoops_of_quiet, hOver⟩
  by_cases hServed : s.Served
  · exact
      hMono (reaches_over_of_served hAccounted hWaits hServed)
  · have hFree : s.flushing = false :=
      Bool.eq_false_iff.mpr (fun hFlushing =>
        hServed (.inl hFlushing))
    have hStep :
        step s .ready = some { s with flushing := true } := by
      simp [step, State.beginFlush, hFree]
    rcases
        hMono
          (reaches_over_of_served
            (accounted_step hAccounted hStep) hWaits
            (.inl rfl)) with
      ⟨t, hOn, hOver⟩
    exact
      ⟨t, (Reaches.refl.tail trivial hStep).trans hOn, hOver⟩

/-
  While no loop is created or stopped and no other `flush`
  begins, a call that waits can still end exactly if somebody
  serves reports (a thread of some loop, or a `flush`) or its
  own callback is scheduled already: after the last thread has
  gone it waits for good.  A request of `GET /ready` that
  reaches its `flush` ends that.
-/
theorem awaiting_ends_iff
    (s : State μ)
    (k : Nat)
    (hRun : Reachable step State.empty s)
    (hWaits : s.phaseOf k = some .awaiting) :
    ((∃ t, Reaches step Quiet s t ∧ t.Over k) ↔
        s.Served ∨ k ∈ s.ready.map Prod.fst) ∧
      ∃ t, Reaches step SameLoops s t ∧ t.Over k := by
  have hAccounted : Accounted s :=
    hRun.invariant accounted_empty
      (fun hPrior _ hStep => accounted_step hPrior hStep)
  refine ⟨?_, reaches_over_of_ready hAccounted hWaits⟩
  constructor
  · rintro ⟨t, hOn, hOver⟩
    by_contra hNone
    rw [not_or] at hNone
    have hStuck : Stuck t k :=
      hOn.invariant (I := fun u => Stuck u k)
        ⟨hWaits, hNone.1, hNone.2⟩
        (fun hPrior hQuiet hStep =>
          stuck_step hPrior hQuiet hStep)
    rcases hOver with hRaised | ⟨offset, hReturned⟩
    · cases hStuck.waits.symm.trans hRaised
    · cases hStuck.waits.symm.trans hReturned
  · rintro (hServed | hReady)
    · exact reaches_over_of_served hAccounted hWaits hServed
    · exact reaches_over hWaits hReady

/-
  Two calls, and the second loop's thread serves both.  The
  second message is sent again, and appended twice.
-/
def bothServed : List (Act String) :=
  [.create, .create, .publish "a" .queued,
    .publish "b" .full, .append 0, .report 0 (some 0), .stop 0,
    .exit 0, .flushed, .retry 1 .queued, .append 1, .append 1,
    .report 1 (some 2), .poll 1, .poll 1, .callback, .callback,
    .resume 1, .resume 0]

def bothServedEnd : State String :=
  final step State.empty bothServed (by decide)

theorem published_own_bothServed :
    bothServedEnd.log[2]? = some (1, "b") ∧
      bothServedEnd.places 1 = 0 := by
  have hOwn :=
    published_own bothServedEnd 1 ⟨"b", .returned 2⟩
      (reachable_of_run (run_eq_final (by decide)))
      (by decide)
  exact ⟨hOwn.1 2 rfl, hOwn.2.2⟩

/- The only thread has gone before the report comes. -/
def unserved : List (Act String) :=
  [.create, .publish "a" .queued, .stop 0, .exit 0, .flushed,
    .append 0, .report 0 (some 0)]

def unservedEnd : State String :=
  final step State.empty unserved (by decide)

theorem awaiting_ends_iff_unserved :
    unservedEnd.log = [(0, "a")] ∧
      (¬ ∃ t, Reaches step Quiet unservedEnd t ∧ t.Over 0) ∧
        ∃ t, Reaches step SameLoops unservedEnd t ∧
          t.Over 0 := by
  have hEnds :=
    awaiting_ends_iff unservedEnd 0
      (reachable_of_run (run_eq_final (by decide))) (by decide)
  refine ⟨by decide, ?_, hEnds.2⟩
  rw [hEnds.1]
  rintro ((hFlushing | ⟨poller, hMem, hHere⟩) | hReady)
  · revert hFlushing
    decide
  · have hGone : unservedEnd.pollers = [.gone] := by decide
    rw [hGone, List.mem_singleton] at hMem
    exact hHere hMem
  · revert hReady
    decide

end GameRoom.Producer
