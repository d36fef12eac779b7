import MultiplayerInfra.Leaderboard.Statistics
import MultiplayerInfra.Machine.Run

/-
  The consumers of `match.lifecycle`: deliveries, attempts
  to apply a result, and committed offsets.

  Key definitions include:
    * `Leaderboard.Consumer`
    * `Leaderboard.step`
    * `Leaderboard.GaveUp`
    * `Leaderboard.Settled`
    * `Leaderboard.Kept`

  Key theorems include:
    * `Leaderboard.kept_step`
    * `Leaderboard.committed_settled`

  An offset is committed for all the records before it.  A
  consumer that crashes, or that loses a partition, leaves
  its records to one that resumes at the committed offset.
-/

------------------------------------------------------------
-- Records
------------------------------------------------------------

namespace Leaderboard

open GameRoom

def maxUpdateAttempts : Nat :=
  5

/- What `process_event` makes of a record. -/
inductive Record where
  -- its bytes do not decode
  | undecodable
  -- it decodes, but has no `get`
  | notObject
  -- it has another type or no `match_id`
  | other
  -- a `match.end` on whose fields `apply_match` raises
  | malformed
  | matchEnd (event : MatchEnd)
deriving DecidableEq

structure Place where
  partition : Nat
  offset : Nat
deriving DecidableEq

/- What is next for a record that was delivered. -/
inductive Task where
  | attempt (n : Nat)
  | commit
deriving DecidableEq

/-
  `process_event` up to its loop.  Without a task the
  exception ends the thread of the consumer.
-/
def Record.task : Record → Option Task
| .undecodable => some .commit
| .notObject => none
| .other => some .commit
| .malformed => some (.attempt 1)
| .matchEnd _ => some (.attempt 1)

/- How a call to Postgres or to Kafka ends. -/
inductive Result where
  | returned
  -- it raises, whether or not it took effect
  | raised (applied : Bool)
deriving DecidableEq

def Result.applied : Result → Bool
| .returned => true
| .raised applied => applied

end Leaderboard

------------------------------------------------------------
-- The Machine
------------------------------------------------------------

namespace Leaderboard

open GameRoom

/- The record that a consumer works on. -/
structure Work where
  place : Place
  delivery : Nat
  task : Task
deriving DecidableEq

/- A thread of `consume_lifecycle`. -/
structure Consumer where
  -- the next offsets of its partitions
  position : Nat → Option Nat
  working : Option Work

/- An attempt of a delivery that raised. -/
structure Failure where
  place : Place
  delivery : Nat
  attempt : Nat
deriving DecidableEq

structure State (β : Type) where
  board : Board β
  -- the records of each partition
  log : Nat → List Record
  committed : Nat → Option Nat
  consumers : Nat → Option Consumer
  deliveries : Nat
  -- the records for which `apply_match` has returned
  returned : List Place
  failures : List Failure

def State.first {β : Type} (board : Board β) : State β where
  board := board
  log := fun _ => []
  committed := fun _ => none
  consumers := fun _ => none
  deliveries := 0
  returned := []
  failures := []

inductive Act where
  | append (p : Nat) (r : Record)
  -- a process starts, again after a crash
  | start (k : Nat)
  | crash (k : Nat)
  -- the group gives a partition to a consumer, or takes it
  | assign (k p : Nat)
  | revoke (k p : Nat)
  -- a poll that returns a record of a partition
  | poll (k p : Nat)
  | attempt (k : Nat) (result : Result)
  | commit (k : Nat) (result : Result)
deriving DecidableEq

namespace State

variable {β : Type}

def setConsumer
    (s : State β)
    (k : Nat)
    (c : Option Consumer) : State β :=
  { s with consumers := Function.update s.consumers k c }

def recordAt
    (s : State β)
    (place : Place) : Option Record :=
  (s.log place.partition)[place.offset]?

/- A consumer that polls. -/
def idle (s : State β) (k : Nat) : Option Consumer :=
  (s.consumers k).filter (fun c => c.working.isNone)

/- A consumer with the record that it works on. -/
def busy
    (s : State β)
    (k : Nat) : Option (Consumer × Work) :=
  (s.consumers k).bind (fun c => c.working.map (Prod.mk c))

/- `auto.offset.reset` is `earliest`. -/
def resumeAt (s : State β) (p : Nat) : Nat :=
  (s.committed p).getD 0

/- A record is delivered. -/
def receive
    (s : State β)
    (k : Nat)
    (c : Consumer)
    (place : Place)
    (r : Record) : State β :=
  { s with
    deliveries := s.deliveries + 1
    consumers :=
      Function.update s.consumers k
        (r.task.map (fun task =>
          { position :=
              Function.update c.position place.partition
                (some (place.offset + 1))
            working :=
              some
                { place := place
                  delivery := s.deliveries
                  task := task } })) }

/- The task after an attempt that raised. -/
def afterFailure (n : Nat) : Task :=
  if n < maxUpdateAttempts then .attempt (n + 1)
  else .commit

def setTask
    (s : State β)
    (k : Nat)
    (c : Consumer)
    (w : Work)
    (task : Task) : State β :=
  s.setConsumer k
    (some { c with working := some { w with task := task } })

/-
  `consumer.commit(message=msg)`.  If it raises, the thread
  of the consumer ends.
-/
def commitOffset
    (s : State β)
    (k : Nat)
    (c : Consumer)
    (place : Place)
    (result : Result) : State β :=
  { s with
    committed :=
      if result.applied then
        Function.update s.committed place.partition
          (some (place.offset + 1))
      else s.committed
    consumers :=
      Function.update s.consumers k
        (match result with
        | .returned => some { c with working := none }
        | .raised _ => none) }

variable [RatingNumber β]

/- The transaction of an attempt, if it takes effect. -/
def applyRecord
    (s : State β)
    (r : Record)
    (applied : Bool) : Board β :=
  match r, applied with
  | .matchEnd event, true => (applyMatch s.board event).1
  | _, _ => s.board

/- An attempt; it can only raise for a malformed record. -/
def tryUpdate
    (s : State β)
    (k : Nat)
    (c : Consumer)
    (w : Work)
    (n : Nat)
    (r : Record) : Result → Option (State β)
| .returned =>
    match r with
    | .matchEnd event =>
        some
          { s.setTask k c w .commit with
            board := (applyMatch s.board event).1
            returned := w.place :: s.returned }
    | _ => none
| .raised applied =>
    some
      { s.setTask k c w (afterFailure n) with
        board := s.applyRecord r applied
        failures := ⟨w.place, w.delivery, n⟩ :: s.failures }

end State

variable {β : Type} [RatingNumber β]

def step (s : State β) : Act → Option (State β)
| .append p r =>
    some
      { s with
        log := Function.update s.log p (s.log p ++ [r]) }
| .start k =>
    some
      (s.setConsumer k
        (some { position := fun _ => none, working := none }))
| .crash k => some (s.setConsumer k none)
| .assign k p =>
    (s.idle k).map (fun c =>
      s.setConsumer k
        (some
          { c with
            position :=
              Function.update c.position p
                (some (s.resumeAt p)) }))
| .revoke k p =>
    (s.idle k).map (fun c =>
      s.setConsumer k
        (some
          { c with
            position :=
              Function.update c.position p none }))
| .poll k p =>
    (s.idle k).bind (fun c =>
      (c.position p).bind (fun o =>
        (s.recordAt ⟨p, o⟩).map (s.receive k c ⟨p, o⟩)))
| .attempt k result =>
    (s.busy k).bind (fun (c, w) =>
      (s.recordAt w.place).bind (fun r =>
        match w.task with
        | .attempt n => s.tryUpdate k c w n r result
        | .commit => none))
| .commit k result =>
    (s.busy k).bind (fun (c, w) =>
      match w.task with
      | .attempt _ => none
      | .commit => some (s.commitOffset k c w.place result))

end Leaderboard

------------------------------------------------------------
-- Settled Records
------------------------------------------------------------

namespace Leaderboard

open GameRoom

variable {β : Type}

/- Every attempt of one delivery of a record has raised. -/
def GaveUp (s : State β) (place : Place) : Prop :=
  ∃ delivery, ∀ n,
    1 ≤ n → n ≤ maxUpdateAttempts →
      ⟨place, delivery, n⟩ ∈ s.failures

/- The result, if the record is one, may be passed by. -/
def Settled (s : State β) (place : Place) : Prop :=
  ∀ event,
    s.recordAt place = some (.matchEnd event) →
      place ∈ s.returned ∨ GaveUp s place

/- The record that a consumer works on. -/
structure Work.Sound
    (s : State β)
    (c : Consumer)
    (w : Work) : Prop where
  logged :
    w.place.offset < (s.log w.place.partition).length
  position :
    c.position w.place.partition =
      some (w.place.offset + 1)
  attempted :
    ∀ n, w.task = .attempt n →
      1 ≤ n ∧ n ≤ maxUpdateAttempts ∧
        ∀ m, 1 ≤ m → m < n →
          ⟨w.place, w.delivery, m⟩ ∈ s.failures
  settled : w.task = .commit → Settled s w.place

/- A consumer has settled what lies behind it. -/
structure Consumer.Sound
    (s : State β)
    (c : Consumer) : Prop where
  logged :
    ∀ p o, c.position p = some o → o ≤ (s.log p).length
  settled :
    ∀ p o, c.position p = some o →
      ∀ o', o' < o →
        (∀ w ∈ c.working, w.place ≠ ⟨p, o'⟩) →
          Settled s ⟨p, o'⟩
  working : ∀ w ∈ c.working, w.Sound s c

/- The result at a place is in the tables. -/
structure Processed (s : State β) (place : Place) : Prop where
  logged : place.offset < (s.log place.partition).length
  key :
    ∀ event,
      s.recordAt place = some (.matchEnd event) →
        matchKey event ∈ s.board.processed

/- Committed offsets have only settled records behind them. -/
structure Kept (s : State β) : Prop where
  logged :
    ∀ p o, s.committed p = some o → o ≤ (s.log p).length
  settled :
    ∀ p o, s.committed p = some o →
      ∀ o', o' < o → Settled s ⟨p, o'⟩
  consumers :
    ∀ k c, s.consumers k = some c → c.Sound s
  processed : ∀ place ∈ s.returned, Processed s place

theorem kept_first
    {board : Board β} :
    Kept (State.first board) where
  logged := nofun
  settled := nofun
  consumers := nofun
  processed := by
    intro place hMem
    cases hMem

/- Nothing that was recorded is forgotten. -/
structure Grows (s t : State β) : Prop where
  log : ∀ p, s.log p <+: t.log p
  returned : s.returned ⊆ t.returned
  failures : s.failures ⊆ t.failures
  processed : s.board.processed ⊆ t.board.processed

variable {s t : State β}

theorem Grows.of_same
    (hLog : t.log = s.log)
    (hReturned : t.returned = s.returned)
    (hFailures : t.failures = s.failures)
    (hBoard : t.board = s.board) :
    Grows s t where
  log := fun p => ⟨[], by rw [hLog, List.append_nil]⟩
  returned := by rw [hReturned]; exact List.Subset.refl _
  failures := by rw [hFailures]; exact List.Subset.refl _
  processed := by rw [hBoard]; exact List.Subset.refl _

/- A record that was there is the same later. -/
theorem Grows.recordAt
    (hGrows : Grows s t)
    {place : Place}
    (hLogged :
      place.offset < (s.log place.partition).length) :
    t.recordAt place = s.recordAt place := by
  rcases hGrows.log place.partition with ⟨more, hMore⟩
  rw [State.recordAt, State.recordAt, ← hMore,
    List.getElem?_append_left hLogged]

theorem Settled.mono
    {place : Place}
    (hSettled : Settled s place)
    (hGrows : Grows s t)
    (hLogged :
      place.offset < (s.log place.partition).length) :
    Settled t place := by
  intro event hRecord
  rw [hGrows.recordAt hLogged] at hRecord
  rcases hSettled event hRecord with
    hReturned | ⟨delivery, hFailed⟩
  · exact .inl (hGrows.returned hReturned)
  · right
    refine ⟨delivery, ?_⟩
    intro n hFirst hLast
    exact hGrows.failures (hFailed n hFirst hLast)

theorem Work.Sound.mono
    {c : Consumer}
    {w : Work}
    (hSound : w.Sound s c)
    (hGrows : Grows s t) :
    w.Sound t c where
  logged :=
    hSound.logged.trans_le
      (hGrows.log w.place.partition).length_le
  position := hSound.position
  attempted := by
    intro n hTask
    rcases hSound.attempted n hTask with
      ⟨hFirst, hLast, hFailed⟩
    refine ⟨hFirst, hLast, ?_⟩
    intro m hOne hBefore
    exact hGrows.failures (hFailed m hOne hBefore)
  settled := fun hTask =>
    (hSound.settled hTask).mono hGrows hSound.logged

theorem Consumer.Sound.mono
    {c : Consumer}
    (hSound : c.Sound s)
    (hGrows : Grows s t) :
    c.Sound t where
  logged := fun p o hPosition =>
    (hSound.logged p o hPosition).trans
      (hGrows.log p).length_le
  settled := by
    intro p o hPosition o' hBefore hNot
    refine
      (hSound.settled p o hPosition o' hBefore hNot).mono
        hGrows ?_
    exact hBefore.trans_le (hSound.logged p o hPosition)
  working := fun w hWork => (hSound.working w hWork).mono hGrows

theorem Processed.mono
    {place : Place}
    (hProcessed : Processed s place)
    (hGrows : Grows s t) :
    Processed t place where
  logged :=
    hProcessed.logged.trans_le
      (hGrows.log place.partition).length_le
  key := by
    intro event hRecord
    rw [hGrows.recordAt hProcessed.logged] at hRecord
    exact hGrows.processed (hProcessed.key event hRecord)

/- What a step has to show about what it changes. -/
theorem Kept.grow
    (hKept : Kept s)
    (hGrows : Grows s t)
    (hCommitted :
      ∀ p o, t.committed p = some o →
        s.committed p = some o ∨
          o ≤ (t.log p).length ∧
            ∀ o', o' < o → Settled t ⟨p, o'⟩)
    (hConsumers :
      ∀ k c, t.consumers k = some c →
        s.consumers k = some c ∨ c.Sound t)
    (hReturned :
      ∀ place ∈ t.returned,
        place ∈ s.returned ∨ Processed t place) :
    Kept t := by
  refine ⟨?_, ?_, ?_, ?_⟩
  · intro p o hNow
    rcases hCommitted p o hNow with hOld | ⟨hLogged, _⟩
    · exact
        (hKept.logged p o hOld).trans
          (hGrows.log p).length_le
    · exact hLogged
  · intro p o hNow o' hBefore
    rcases hCommitted p o hNow with hOld | ⟨_, hSettled⟩
    · refine
        (hKept.settled p o hOld o' hBefore).mono hGrows ?_
      exact hBefore.trans_le (hKept.logged p o hOld)
    · exact hSettled o' hBefore
  · intro k c hNow
    rcases hConsumers k c hNow with hOld | hSound
    · exact (hKept.consumers k c hOld).mono hGrows
    · exact hSound
  · intro place hMem
    rcases hReturned place hMem with hOld | hNew
    · exact (hKept.processed place hOld).mono hGrows
    · exact hNew

end Leaderboard

------------------------------------------------------------
-- Steps
------------------------------------------------------------

namespace Leaderboard

open GameRoom

variable {β : Type} [RatingNumber β]
variable {s t : State β}

omit [RatingNumber β] in
theorem idle_eq_some
    {k : Nat}
    {c : Consumer}
    (hIdle : s.idle k = some c) :
    s.consumers k = some c ∧ c.working = none := by
  rcases Option.filter_eq_some_iff.mp hIdle with
    ⟨hConsumer, hNone⟩
  exact ⟨hConsumer, Option.isNone_iff_eq_none.mp hNone⟩

omit [RatingNumber β] in
theorem busy_eq_some
    {k : Nat}
    {c : Consumer}
    {w : Work}
    (hBusy : s.busy k = some (c, w)) :
    s.consumers k = some c ∧ c.working = some w := by
  rcases Option.bind_eq_some_iff.mp hBusy with
    ⟨c', hConsumer, hWork⟩
  rcases Option.map_eq_some_iff.mp hWork with
    ⟨w', hWorking, hPair⟩
  cases hPair
  exact ⟨hConsumer, hWorking⟩

/- An applied match stays in the table of processed ones. -/
theorem processed_applyMatch
    (board : Board β)
    (event : MatchEnd) :
    board.processed ⊆ (applyMatch board event).1.processed ∧
      matchKey event ∈
        (applyMatch board event).1.processed := by
  by_cases hMem : matchKey event ∈ board.processed
  · rw [applyMatch_of_mem hMem]
    exact ⟨List.Subset.refl _, hMem⟩
  · rw [(applyMatch_of_not_mem hMem).2]
    exact
      ⟨List.subset_append_left _ _,
        List.mem_append_right _ (List.mem_singleton_self _)⟩

theorem processed_applyRecord
    (r : Record)
    (applied : Bool) :
    s.board.processed ⊆
      (s.applyRecord r applied).processed := by
  unfold State.applyRecord
  split
  · exact (processed_applyMatch _ _).1
  · exact List.Subset.refl _

omit [RatingNumber β] in
/- A step that changes one consumer. -/
theorem Kept.change
    (hKept : Kept s)
    (hGrows : Grows s t)
    {k : Nat}
    {c : Option Consumer}
    (hConsumers :
      t.consumers = Function.update s.consumers k c)
    (hSound : ∀ c' ∈ c, c'.Sound t)
    (hCommitted :
      ∀ p o, t.committed p = some o →
        s.committed p = some o ∨
          o ≤ (t.log p).length ∧
            ∀ o', o' < o → Settled t ⟨p, o'⟩)
    (hReturned :
      ∀ place ∈ t.returned,
        place ∈ s.returned ∨ Processed t place) :
    Kept t := by
  refine hKept.grow hGrows hCommitted ?_ hReturned
  intro k' c' hNow
  rw [hConsumers] at hNow
  by_cases hSame : k' = k
  · subst hSame
    rw [Function.update_self] at hNow
    exact .inr (hSound c' hNow)
  · rw [Function.update_of_ne hSame] at hNow
    exact .inl hNow

omit [RatingNumber β] in
/- An idle consumer gets a position behind settled records. -/
theorem Consumer.Sound.setPosition
    {c : Consumer}
    (hSound : c.Sound s)
    (hIdle : c.working = none)
    (p : Nat)
    {position : Option Nat}
    (hLogged :
      ∀ o, position = some o → o ≤ (s.log p).length)
    (hSettled :
      ∀ o, position = some o →
        ∀ o', o' < o → Settled s ⟨p, o'⟩) :
    Consumer.Sound s
      { c with
        position := Function.update c.position p position } := by
  refine ⟨?_, ?_, ?_⟩
  · intro q o hPosition
    by_cases hSame : q = p
    · subst hSame
      exact hLogged o (by simpa using hPosition)
    · exact hSound.logged q o (by simpa [hSame] using hPosition)
  · intro q o hPosition o' hBefore hNot
    by_cases hSame : q = p
    · subst hSame
      exact hSettled o (by simpa using hPosition) o' hBefore
    · exact
        hSound.settled q o (by simpa [hSame] using hPosition)
          o' hBefore hNot
  · intro w hWork
    change w ∈ c.working at hWork
    rw [hIdle] at hWork
    cases hWork

omit [RatingNumber β] in
/- A delivered record is not passed by yet. -/
theorem sound_receive
    {c : Consumer}
    (hSound : c.Sound s)
    (hIdle : c.working = none)
    {p o : Nat}
    (hPosition : c.position p = some o)
    {r : Record}
    (hRecord : s.recordAt ⟨p, o⟩ = some r)
    {task : Task}
    (hTask : r.task = some task)
    (delivery : Nat) :
    Consumer.Sound s
      { position :=
          Function.update c.position p (some (o + 1))
        working := some ⟨⟨p, o⟩, delivery, task⟩ } := by
  have hLogged : o < (s.log p).length :=
    (List.getElem?_eq_some_iff.mp hRecord).1
  refine ⟨?_, ?_, ?_⟩
  · intro q o₁ hNow
    by_cases hSame : q = p
    · subst hSame
      simp only [Function.update_self, Option.some.injEq]
        at hNow
      omega
    · exact hSound.logged q o₁ (by simpa [hSame] using hNow)
  · intro q o₁ hNow o' hBefore hNot
    have hOthers : ∀ w ∈ c.working, w.place ≠ ⟨q, o'⟩ := by
      intro w hWork
      rw [hIdle] at hWork
      cases hWork
    by_cases hSame : q = p
    · subst hSame
      simp only [Function.update_self, Option.some.injEq]
        at hNow
      have hNe : o' ≠ o := by
        rintro rfl
        exact hNot _ rfl rfl
      exact
        hSound.settled q o hPosition o' (by omega) hOthers
    · exact
        hSound.settled q o₁ (by simpa [hSame] using hNow) o'
          hBefore hOthers
  · intro w hWork
    cases hWork
    refine ⟨hLogged, by simp, ?_, ?_⟩
    · intro n hAttempt
      have hFirst : n = 1 := by
        cases r <;> cases hTask <;> cases hAttempt <;> rfl
      subst hFirst
      refine ⟨le_rfl, by decide, ?_⟩
      intro m hOne hBefore
      omega
    · intro hCommit event hEvent
      have hIs : r = .matchEnd event :=
        Option.some.inj (hRecord.symm.trans hEvent)
      subst hIs
      cases hTask
      cases hCommit

omit [RatingNumber β] in
/- The next task of a consumer that works on a record. -/
theorem Consumer.Sound.setTask
    {c : Consumer}
    {w : Work}
    (hSound : c.Sound s)
    (hWorking : c.working = some w)
    {task : Task}
    (hAttempted :
      ∀ n, task = .attempt n →
        1 ≤ n ∧ n ≤ maxUpdateAttempts ∧
          ∀ m, 1 ≤ m → m < n →
            ⟨w.place, w.delivery, m⟩ ∈ s.failures)
    (hSettled : task = .commit → Settled s w.place) :
    Consumer.Sound s
      { c with working := some { w with task := task } } := by
  have hWork := hSound.working w hWorking
  refine ⟨hSound.logged, ?_, ?_⟩
  · intro p o hPosition o' hBefore hNot
    refine hSound.settled p o hPosition o' hBefore ?_
    intro w' hWork'
    cases hWorking.symm.trans hWork'
    intro hPlace
    exact hNot _ rfl hPlace
  · intro w' hWork'
    cases hWork'
    exact
      ⟨hWork.logged, hWork.position, hAttempted, hSettled⟩

omit [RatingNumber β] in
/- Before its commit a consumer has settled all it read. -/
theorem Consumer.Sound.behind
    {c : Consumer}
    {w : Work}
    (hSound : c.Sound s)
    (hWorking : c.working = some w)
    (hTask : w.task = .commit)
    {p o o' : Nat}
    (hPosition : c.position p = some o)
    (hBefore : o' < o) :
    Settled s ⟨p, o'⟩ := by
  have hWork := hSound.working w hWorking
  by_cases hPlace : w.place = ⟨p, o'⟩
  · rw [← hPlace]
    exact hWork.settled hTask
  · refine hSound.settled p o hPosition o' hBefore ?_
    intro w' hWork'
    cases hWorking.symm.trans hWork'
    exact hPlace

/- `apply_match` returns, and the offset is committed next. -/
theorem kept_returned
    (hKept : Kept s)
    {k : Nat}
    {c : Consumer}
    {w : Work}
    (hConsumer : s.consumers k = some c)
    (hWorking : c.working = some w)
    {event : MatchEnd}
    (hRecord : s.recordAt w.place = some (.matchEnd event)) :
    Kept
      { s.setTask k c w .commit with
        board := (applyMatch s.board event).1
        returned := w.place :: s.returned } := by
  have hSound := hKept.consumers k c hConsumer
  have hWork := hSound.working w hWorking
  have hKey := processed_applyMatch s.board event
  have hGrows :
      Grows s
        { s.setTask k c w .commit with
          board := (applyMatch s.board event).1
          returned := w.place :: s.returned } :=
    ⟨fun p => List.prefix_refl _, List.subset_cons_self _ _,
      List.Subset.refl _, hKey.1⟩
  refine
    hKept.change hGrows rfl ?_ (fun p o hNow => .inl hNow) ?_
  · intro c' hNew
    cases hNew
    refine (hSound.mono hGrows).setTask hWorking nofun ?_
    intro _ event' _
    exact .inl List.mem_cons_self
  · intro place hMem
    rcases List.mem_cons.mp hMem with rfl | hOld
    · right
      refine ⟨hWork.logged, ?_⟩
      intro event' hEvent
      cases hRecord.symm.trans hEvent
      exact hKey.2
    · exact .inl hOld

/- `apply_match` raises: another attempt, or the last was it. -/
theorem kept_raised
    (hKept : Kept s)
    {k n : Nat}
    {c : Consumer}
    {w : Work}
    (hConsumer : s.consumers k = some c)
    (hWorking : c.working = some w)
    (hTask : w.task = .attempt n)
    (r : Record)
    (applied : Bool) :
    Kept
      { s.setTask k c w (State.afterFailure n) with
        board := s.applyRecord r applied
        failures := ⟨w.place, w.delivery, n⟩ :: s.failures } := by
  have hSound := hKept.consumers k c hConsumer
  have hWork := hSound.working w hWorking
  rcases hWork.attempted n hTask with
    ⟨hFirst, hLast, hFailed⟩
  have hGrows :
      Grows s
        { s.setTask k c w (State.afterFailure n) with
          board := s.applyRecord r applied
          failures :=
            ⟨w.place, w.delivery, n⟩ :: s.failures } :=
    ⟨fun p => List.prefix_refl _, List.Subset.refl _,
      List.subset_cons_self _ _,
      processed_applyRecord r applied⟩
  refine
    hKept.change hGrows rfl ?_ (fun p o hNow => .inl hNow)
      (fun place hMem => .inl hMem)
  intro c' hNew
  cases hNew
  have hUpTo :
      ∀ m, 1 ≤ m → m ≤ n →
        (⟨w.place, w.delivery, m⟩ : Failure) ∈
          ⟨w.place, w.delivery, n⟩ :: s.failures := by
    intro m hOne hUp
    rcases Nat.lt_or_eq_of_le hUp with hBefore | rfl
    · exact List.mem_cons_of_mem _ (hFailed m hOne hBefore)
    · exact List.mem_cons_self
  refine (hSound.mono hGrows).setTask hWorking ?_ ?_
  · intro n' hAttempt
    unfold State.afterFailure at hAttempt
    split at hAttempt
    · cases hAttempt
      refine ⟨by omega, by omega, ?_⟩
      intro m hOne hBefore
      exact hUpTo m hOne (by omega)
    · cases hAttempt
  · intro hCommit event' _
    unfold State.afterFailure at hCommit
    split at hCommit
    · cases hCommit
    · -- the last attempt has failed
      right
      refine ⟨w.delivery, ?_⟩
      intro m hOne hUp
      exact hUpTo m hOne (by omega)

/- An attempt settles the record, or leads to the next one. -/
theorem kept_tryUpdate
    (hKept : Kept s)
    {k n : Nat}
    {c : Consumer}
    {w : Work}
    (hConsumer : s.consumers k = some c)
    (hWorking : c.working = some w)
    (hTask : w.task = .attempt n)
    {r : Record}
    (hRecord : s.recordAt w.place = some r)
    {result : Result}
    (hTry : s.tryUpdate k c w n r result = some t) :
    Kept t := by
  cases result with
  | returned =>
      cases r with
      | matchEnd event =>
          cases hTry
          exact
            kept_returned hKept hConsumer hWorking hRecord
      | undecodable => cases hTry
      | notObject => cases hTry
      | other => cases hTry
      | malformed => cases hTry
  | raised applied =>
      cases hTry
      exact
        kept_raised hKept hConsumer hWorking hTask r applied

omit [RatingNumber β] in
/- A commit covers settled records only. -/
theorem kept_commitOffset
    (hKept : Kept s)
    {k : Nat}
    {c : Consumer}
    {w : Work}
    (hConsumer : s.consumers k = some c)
    (hWorking : c.working = some w)
    (hTask : w.task = .commit)
    (result : Result) :
    Kept (s.commitOffset k c w.place result) := by
  have hSound := hKept.consumers k c hConsumer
  have hWork := hSound.working w hWorking
  have hGrows :
      Grows s (s.commitOffset k c w.place result) :=
    .of_same rfl rfl rfl rfl
  refine
    hKept.change hGrows rfl ?_ ?_
      (fun place hMem => .inl hMem)
  · intro c' hNew
    cases result with
    | returned =>
        cases hNew
        refine ⟨hSound.logged, ?_, nofun⟩
        intro p o hPosition o' hBefore _
        refine
          (hSound.behind hWorking hTask hPosition
            hBefore).mono hGrows ?_
        exact hBefore.trans_le (hSound.logged p o hPosition)
    | raised applied => cases hNew
  · intro p o hNow
    simp only [State.commitOffset] at hNow
    split at hNow
    · by_cases hSame : p = w.place.partition
      · subst hSame
        rw [Function.update_self] at hNow
        cases hNow
        right
        refine ⟨hWork.logged, ?_⟩
        intro o' hBefore
        refine
          (hSound.behind hWorking hTask hWork.position
            hBefore).mono hGrows ?_
        exact
          hBefore.trans_le
            (hSound.logged _ _ hWork.position)
      · rw [Function.update_of_ne hSame] at hNow
        exact .inl hNow
    · exact .inl hNow

omit [RatingNumber β] in
/- A consumer is replaced by one that is sound. -/
theorem Kept.setConsumer
    (hKept : Kept s)
    {k : Nat}
    {c : Option Consumer}
    (hSound : ∀ c' ∈ c, c'.Sound s) :
    Kept (s.setConsumer k c) := by
  have hGrows : Grows s (s.setConsumer k c) :=
    .of_same rfl rfl rfl rfl
  exact
    hKept.change hGrows rfl
      (fun c' hNew => (hSound c' hNew).mono hGrows)
      (fun p o hNow => .inl hNow)
      (fun place hMem => .inl hMem)

omit [RatingNumber β] in
/- An idle consumer reads on from the committed offset. -/
theorem sound_assign
    (hKept : Kept s)
    {k : Nat}
    {c : Consumer}
    (hConsumer : s.consumers k = some c)
    (hWorking : c.working = none)
    (p : Nat) :
    Consumer.Sound s
      { c with
        position :=
          Function.update c.position p (some (s.resumeAt p)) } := by
  have hSound := hKept.consumers k c hConsumer
  refine hSound.setPosition hWorking p ?_ ?_
  · intro o hResume
    cases hResume
    unfold State.resumeAt
    cases hCommitted : s.committed p with
    | none => exact Nat.zero_le _
    | some o => exact hKept.logged p o hCommitted
  · intro o hResume o' hBefore
    cases hResume
    unfold State.resumeAt at hBefore
    cases hCommitted : s.committed p with
    | none =>
        rw [hCommitted] at hBefore
        cases hBefore
    | some o =>
        rw [hCommitted] at hBefore
        exact hKept.settled p o hCommitted o' hBefore

theorem kept_step
    {act : Act}
    (hKept : Kept s)
    (hStep : step s act = some t) :
    Kept t := by
  cases act with
  | append p r =>
      cases hStep
      refine
        hKept.grow ⟨?_, List.Subset.refl _,
            List.Subset.refl _, List.Subset.refl _⟩
          (fun p o hNow => .inl hNow)
          (fun k c hNow => .inl hNow)
          (fun place hMem => .inl hMem)
      intro q
      by_cases hHere : q = p
      · subst hHere
        simp
      · simp [hHere]
  | start k =>
      cases hStep
      apply hKept.setConsumer
      intro c hNew
      cases hNew
      exact ⟨nofun, nofun, nofun⟩
  | crash k =>
      cases hStep
      apply hKept.setConsumer
      intro c hNew
      cases hNew
  | assign k p =>
      rcases Option.map_eq_some_iff.mp hStep with
        ⟨c, hIdle, rfl⟩
      rcases idle_eq_some hIdle with ⟨hConsumer, hWorking⟩
      apply hKept.setConsumer
      intro c' hNew
      cases hNew
      exact sound_assign hKept hConsumer hWorking p
  | revoke k p =>
      rcases Option.map_eq_some_iff.mp hStep with
        ⟨c, hIdle, rfl⟩
      rcases idle_eq_some hIdle with ⟨hConsumer, hWorking⟩
      apply hKept.setConsumer
      intro c' hNew
      cases hNew
      have hSound := hKept.consumers k c hConsumer
      exact hSound.setPosition hWorking p nofun nofun
  | poll k p =>
      rcases Option.bind_eq_some_iff.mp hStep with
        ⟨c, hIdle, hPoll⟩
      rcases Option.bind_eq_some_iff.mp hPoll with
        ⟨o, hPosition, hReceive⟩
      rcases Option.map_eq_some_iff.mp hReceive with
        ⟨r, hRecord, rfl⟩
      rcases idle_eq_some hIdle with ⟨hConsumer, hWorking⟩
      have hGrows : Grows s (s.receive k c ⟨p, o⟩ r) :=
        .of_same rfl rfl rfl rfl
      refine
        hKept.change hGrows rfl ?_
          (fun p o hNow => .inl hNow)
          (fun place hMem => .inl hMem)
      intro c' hNew
      rcases Option.map_eq_some_iff.mp hNew with
        ⟨task, hTask, rfl⟩
      have hSound := hKept.consumers k c hConsumer
      exact
        (sound_receive hSound hWorking hPosition hRecord
          hTask s.deliveries).mono hGrows
  | attempt k result =>
      rcases Option.bind_eq_some_iff.mp hStep with
        ⟨⟨c, w⟩, hBusy, hAttempt⟩
      rcases Option.bind_eq_some_iff.mp hAttempt with
        ⟨r, hRecord, hTry⟩
      rcases busy_eq_some hBusy with ⟨hConsumer, hWorking⟩
      cases hTask : w.task with
      | attempt n =>
          simp only [hTask] at hTry
          exact
            kept_tryUpdate hKept hConsumer hWorking hTask
              hRecord hTry
      | commit =>
          simp only [hTask] at hTry
          cases hTry
  | commit k result =>
      rcases Option.bind_eq_some_iff.mp hStep with
        ⟨⟨c, w⟩, hBusy, hCommit⟩
      rcases busy_eq_some hBusy with ⟨hConsumer, hWorking⟩
      cases hTask : w.task with
      | attempt n =>
          simp only [hTask] at hCommit
          cases hCommit
      | commit =>
          simp only [hTask] at hCommit
          cases hCommit
          exact
            kept_commitOffset hKept hConsumer hWorking hTask
              result

end Leaderboard

------------------------------------------------------------
-- Committed Results
------------------------------------------------------------

namespace Leaderboard

open GameRoom
open Machine (Reachable reachable_of_run run_eq_final final)

variable {β : Type} [RatingNumber β]

/-
  Behind a committed offset every result was applied, or all
  attempts of one delivery of it have raised.
-/
theorem committed_settled
    (board : Board β)
    (s : State β)
    (hReach : Reachable step (State.first board) s)
    (place : Place)
    (event : MatchEnd)
    (hCommitted : place.offset < s.resumeAt place.partition)
    (hRecord : s.recordAt place = some (.matchEnd event)) :
    place ∈ s.returned ∧
        matchKey event ∈ s.board.processed ∨
      GaveUp s place := by
  have hKept : Kept s :=
    hReach.invariant kept_first
      (fun hKept _ hStep => kept_step hKept hStep)
  unfold State.resumeAt at hCommitted
  cases hOffset : s.committed place.partition with
  | none =>
      rw [hOffset] at hCommitted
      cases hCommitted
  | some o =>
      rw [hOffset] at hCommitted
      have hSettled :=
        hKept.settled place.partition o hOffset
          place.offset hCommitted event hRecord
      rcases hSettled with hReturned | hGaveUp
      · left
        exact
          ⟨hReturned,
            (hKept.processed place hReturned).key event
              hRecord⟩
      · exact .inr hGaveUp

/- A result is delivered, and these attempts are made. -/
def attempts (results : List Result) : List Act :=
  [.append 0 (.matchEnd firstResult), .start 0,
    .assign 0 0, .poll 0 0] ++
      results.map (.attempt 0) ++ [.commit 0 .returned]

/- The database is back for the third attempt. -/
def shortOutage : State Rat :=
  final step (State.first registered)
    (attempts [.raised false, .raised false, .returned])
    (by decide)

/- It stays away for all of them. -/
def longOutage : State Rat :=
  final step (State.first registered)
    (attempts
      (List.replicate maxUpdateAttempts (.raised false)))
    (by decide)

theorem committed_settled_shortOutage :
    (⟨0, 0⟩ : Place) ∈ shortOutage.returned ∧
        matchKey firstResult ∈ shortOutage.board.processed ∨
      GaveUp shortOutage ⟨0, 0⟩ :=
  committed_settled registered shortOutage
    (reachable_of_run (run_eq_final (by decide))) ⟨0, 0⟩
    firstResult (by decide) (by decide)

/- A result whose offset is committed without an update. -/
theorem result_dropped :
    Reachable step (State.first registered) longOutage ∧
      longOutage.recordAt ⟨0, 0⟩ =
        some (.matchEnd firstResult) ∧
      (0 : Nat) < longOutage.resumeAt 0 ∧
      longOutage.returned = [] ∧
      longOutage.board.processed = [] :=
  ⟨reachable_of_run (run_eq_final (by decide)), by decide,
    by decide, by decide, by decide⟩

end Leaderboard
