import Mathlib.Data.Fintype.Basic
import MultiplayerInfra.Fleet.Machine
import MultiplayerInfra.Fleet.Ticks
import MultiplayerInfra.Machine.History

/-
  When the writes of an earlier leader are fenced, and when
  the tick in Redis never decreases.

  Key definitions include:
    * `Fleet.AcksAlone`
    * `Fleet.LoadsAlone`
    * `Fleet.Guarded`
    * `Fleet.Leveled`

  Key theorems include:
    * `Fleet.guarded_step`
    * `Fleet.leveled_step`
    * `Fleet.fenced_of_acksAlone`

  No write carries a token of the leadership that it belongs
  to.  A deposed leader is stopped, not fenced: it stays away
  only if its work is over when the next one has its first
  tick acknowledged, and the tick in Redis stays up only if
  no loop is active when the next one has loaded the state.
-/

------------------------------------------------------------
-- The Conditions
------------------------------------------------------------

namespace Fleet

open GameRoom

variable {ι α : Type}

/- The winner of the leader key. -/
def wins : ι × Note → Option ι
| (i, .won) => some i
| _ => none

def acks : ι × Note → Option ι
| (i, .acked) => some i
| _ => none

/- The state events and the writes of `_update_redis`. -/
def writes : ι × Note → Option ι
| (i, .appended) => some i
| (i, .wrote _) => some i
| _ => none

/- The tick that is stored in Redis. -/
def stored : ι × Note → Option Nat
| (_, .wrote tick) => tick
| _ => none

/- The match is over, and its keys are deleted. -/
def clears : ι × Note → Bool
| (_, .cleared) => true
| _ => false

/- The reply acknowledges the state event of a task. -/
def Process.acknowledges
    (p : Process α)
    (t : Nat)
    (r : Reply) : Bool :=
  match p.tasks[t]? with
  | some (.inRun _ aw) => decide (noteOf aw r = some .acked)
  | _ => false

/-
  When a publish is acknowledged, whoever else is still at
  work has won the leader key since its sender won it.
-/
def AcksAlone
    [DecidableEq ι]
    (s : State ι α) : Act ι α → Prop
| .process i (.resume t r) =>
    (s.procs i).acknowledges t r = true →
      ∀ j, j ≠ i → 0 < (s.procs j).work →
        ∃ e ∈ History.since wins i s.history,
          wins e = some j
| _ => True

instance [DecidableEq ι] [Fintype ι]
    (s : State ι α)
    (act : Act ι α) :
    Decidable (AcksAlone s act) :=
  match act with
  | .process i (.resume t r) =>
      inferInstanceAs (Decidable
        ((s.procs i).acknowledges t r = true →
          ∀ j, j ≠ i → 0 < (s.procs j).work →
            ∃ e ∈ History.since wins i s.history,
              wins e = some j))
  | .process _ .win | .process _ .lose
  | .process _ .dispatch | .process _ .cleanup
  | .process _ (.start _) | .process _ (.load _ _ _ _)
  | .process _ (.loadFail _) | .process _ (.enter _)
  | .process _ (.check _) | .process _ (.delete _ _)
  | .process _ (.input _ _ _) | .process _ (.join _ _ _)
  | .process _ (.leave _ _) | .process _ .stop
  | .process _ .crash | .expire | .evict _ | .service _ =>
      isTrue trivial

/-
  A load returns only while no task of any process is active,
  and as `Process.LoadsAlone` says.
-/
def LoadsAlone (s : State ι α) : Act ι α → Prop
| .process i (.load k now checkpointRead schedule) =>
    (∀ j, (s.procs j).running = 0) ∧
      (s.procs i).LoadsAlone s.view
        (.load k now checkpointRead schedule)
| _ => True

instance [Fintype ι]
    (s : State ι α)
    (act : Act ι α) :
    Decidable (LoadsAlone s act) :=
  match act with
  | .process i (.load k _ _ schedule) =>
      inferInstanceAs (Decidable
        ((∀ j, (s.procs j).running = 0) ∧
          (s.procs i).running = 0 ∧
            (∀ b ∈ (s.procs i).loading[k]?,
              (s.procs i).gameLoop = some b ∨
                (s.procs i).gameLoop = none) ∧
              completeLoad s.view schedule = true))
  | .process _ .win | .process _ .lose
  | .process _ .dispatch | .process _ .cleanup
  | .process _ (.start _) | .process _ (.loadFail _)
  | .process _ (.enter _) | .process _ (.resume _ _)
  | .process _ (.check _) | .process _ (.delete _ _)
  | .process _ (.input _ _ _) | .process _ (.join _ _ _)
  | .process _ (.leave _ _) | .process _ .stop
  | .process _ .crash | .expire | .evict _ | .service _ =>
      isTrue trivial

/- The level of a history. -/
abbrev reached (history : List (ι × Note)) : Nat :=
  History.level stored clears history

theorem reached_record
    (history : List (ι × Note))
    (i : ι)
    (note : Option Note) :
    reached (history ++ (note.map (Prod.mk i)).toList) =
      levelAfter (reached history) note := by
  cases note with
  | none =>
      rw [Option.map_none, Option.toList_none,
        List.append_nil]
      rfl
  | some note =>
      rw [Option.map_some, Option.toList_some, reached,
        History.level_concat]
      cases note with
      | wrote tick => cases tick <;> rfl
      | _ => rfl

end Fleet

------------------------------------------------------------
-- Fences
------------------------------------------------------------

namespace Fleet

open Py GameRoom History

variable {ι α : Type} [DecidableEq ι]

/- Who is at work may write, and only such have written. -/
structure Guarded (s : State ι α) : Prop where
  atWork :
    ∀ i, 0 < (s.procs i).work →
      MayWrite wins acks s.history i
  writes :
    AtEach
      (fun before e =>
        ∀ i, Fleet.writes e = some i →
          MayWrite wins acks before i)
      s.history

theorem guarded_empty :
    Guarded (State.empty : State ι α) where
  atWork := by
    intro i hWork
    cases hWork
  writes := atEach_nil _

variable [PyNumber α]
variable {settings : Settings}
variable {matchId : String}
variable {room : Room.State α}
variable {p : Process α}
variable {act : ProcessAct α}
variable {out : Outcome α}

/- Without work, nothing is recorded but an election. -/
theorem note_of_idle
    (hMoves : Moves settings matchId room p act out)
    (hIdle : p.work = 0) :
    out.note = none ∨ out.note = some .won := by
  have hTasks :
      ∀ {t : Nat} {task : MatchTask α},
        p.tasks[t]? = some task → ¬ p.Active task := by
    intro t task hTask
    refine
      not_active_of_running ?_ task (List.mem_of_getElem? hTask)
    have hLe := running_le_work (p := p)
    omega
  cases hMoves with
  | win _ => exact .inr rfl
  | load hLoading _ _ =>
      have hPos :=
        List.length_pos_of_mem (List.mem_of_getElem? hLoading)
      unfold Process.work at hIdle
      omega
  | resume hTask hLoop hAwaits =>
      exact
        .inl
          (rests_of_not_active hLoop hAwaits
            (hTasks hTask)).note
  | deleteKeys hTask => exact absurd trivial (hTasks hTask)
  | _ => exact .inl rfl

/- What an act records, and for whom. -/
theorem writes_of_note
    {ι : Type}
    {i j : ι}
    {note : Note}
    (hWrites : Fleet.writes (i, note) = some j) :
    i = j ∧ note ≠ .won := by
  cases note with
  | appended =>
      cases hWrites
      exact ⟨rfl, Note.noConfusion⟩
  | wrote tick =>
      cases hWrites
      exact ⟨rfl, Note.noConfusion⟩
  | _ => cases hWrites

/- An acknowledgement is recorded by the reply of one. -/
theorem act_of_acked
    (hMoves : Moves settings matchId room p act out)
    (hNote : out.note = some .acked) :
    ∃ t r, act = .resume t r ∧ p.acknowledges t r = true := by
  cases hMoves with
  | @resume t b aw aw' r g g' stores hTask hLoop hAwaits =>
      refine ⟨t, r, rfl, ?_⟩
      rw [Process.acknowledges, hTask]
      exact decide_eq_true hNote
  | _ => cases hNote

variable {interval : Nat}
variable {s t : State ι α}

omit [PyNumber α] in
/- The note is the only record of a step. -/
theorem history_record
    {i : ι}
    {note : Note}
    (hNote : out.note = some note) :
    (s.record i out).history = s.history ++ [(i, note)] := by
  simp [State.record, hNote]

/- A process is at work that was so before, or has won. -/
theorem mayWrite_record
    {i j : ι}
    (hGuarded : Guarded s)
    (hOk : AcksAlone s (.process i act))
    (hMoves :
      Moves settings matchId s.view (s.procs i) act out)
    (hWork : 0 < ((s.record i out).procs j).work) :
    MayWrite wins acks (s.record i out).history j := by
  by_cases hWon : j = i ∧ out.note = some .won
  · rcases hWon with ⟨rfl, hWon⟩
    rw [history_record hWon]
    exact mayWrite_concat_of_grant _ rfl rfl
  · have hBefore : 0 < (s.procs j).work := by
      by_cases hSame : j = i
      · subst hSame
        simp only [State.record, Function.update_self] at hWork
        exact
          Nat.lt_of_lt_of_le hWork
            (work_le_of_moves hMoves
              (fun hNote => hWon ⟨rfl, hNote⟩))
      · simpa only [State.record,
          Function.update_of_ne hSame] using hWork
    have hMay := hGuarded.atWork j hBefore
    cases hNote : out.note with
    | none =>
        simpa [State.record, hNote] using hMay
    | some note =>
        rw [history_record hNote]
        apply hMay.concat
        intro k hAcks hNe
        cases note with
        | acked =>
            cases hAcks
            rcases act_of_acked hMoves hNote with
              ⟨t, r, rfl, hReply⟩
            exact hOk hReply j hNe hBefore
        | _ => cases hAcks

theorem guarded_record
    {i : ι}
    (hGuarded : Guarded s)
    (hOk : AcksAlone s (.process i act))
    (hMoves :
      Moves settings matchId s.view (s.procs i) act out) :
    Guarded (s.record i out) := by
  refine ⟨fun j => mayWrite_record hGuarded hOk hMoves, ?_⟩
  apply hGuarded.writes.append_toList
  intro e hNew j hWrites
  rcases Option.map_eq_some_iff.mp hNew with
    ⟨note, hNote, rfl⟩
  rcases writes_of_note hWrites with ⟨rfl, hNot⟩
  -- an idle process records an election or nothing
  apply hGuarded.atWork
  by_contra hZero
  rcases note_of_idle hMoves (by omega) with
    hNone | hElected
  · rw [hNote] at hNone
    cases hNone
  · rw [hNote] at hElected
    exact hNot (Option.some.inj hElected)

theorem guarded_step
    {act : Act ι α}
    (hGuarded : Guarded s)
    (hOk : AcksAlone s act)
    (hStep :
      step settings interval matchId s act = some t) :
    Guarded t := by
  cases steps_of_step hStep with
  | process hMoves =>
      have hRecord := guarded_record hGuarded hOk hMoves
      exact ⟨hRecord.atWork, hRecord.writes⟩
  | expire => exact ⟨hGuarded.atWork, hGuarded.writes⟩
  | evict => exact ⟨hGuarded.atWork, hGuarded.writes⟩
  | service _ => exact ⟨hGuarded.atWork, hGuarded.writes⟩

end Fleet

------------------------------------------------------------
-- Levels
------------------------------------------------------------

namespace Fleet

open Py GameRoom History

variable {ι α : Type}

/-
  One task at most is active, and every process, Redis and
  the log have kept the level.
-/
structure Leveled [PyNumber α] (s : State ι α) : Prop where
  one : ∀ i, (s.procs i).running ≤ 1
  alone :
    ∀ i j,
      0 < (s.procs i).running →
        0 < (s.procs j).running → i = j
  procs :
    ∀ i, Paced s.stores (reached s.history) (s.procs i)
  stores : StoresPaced s.stores (reached s.history)
  origin : Replay.FromLog s.log s.service s.checkpoints
  above :
    AtEach
      (fun before e =>
        ∀ n, stored e = some n → reached before ≤ n)
      s.history

variable [PyNumber α]

theorem leveled_empty :
    Leveled (State.empty : State ι α) where
  one := fun _ => Nat.zero_le _
  alone := by
    intro i j hRunning
    cases hRunning
  procs := fun _ => paced_of_idle _ _ rfl
  stores := by
    refine ⟨?_, .inl rfl, ?_⟩
    · intro data hData
      cases hData
    · intro e hMem
      cases hMem
  origin := .empty _
  above := atEach_nil _

variable {settings : Settings}
variable {matchId : String}
variable {room : Room.State α}
variable {p : Process α}
variable {act : ProcessAct α}
variable {out : Outcome α}

/- The log only grows. -/
theorem log_of_moves
    (hMoves : Moves settings matchId room p act out) :
    room.stores.events.map LogEntry.event ⊆
      out.stores.events.map LogEntry.event := by
  cases hMoves with
  | resume _ _ hAwaits => exact (log_of_awaits hAwaits).1
  | _ => exact List.Subset.refl _

/- Without active tasks nothing is stored or deleted. -/
theorem levelAfter_of_rest
    (n : Nat)
    (hMoves : Moves settings matchId room p act out)
    (hRest : p.running = 0) :
    levelAfter n out.note = n := by
  have hTasks :
      ∀ {t : Nat} {task : MatchTask α},
        p.tasks[t]? = some task → ¬ p.Active task :=
    fun hTask =>
      not_active_of_running hRest _ (List.mem_of_getElem? hTask)
  cases hMoves with
  | resume hTask hLoop hAwaits =>
      rw [(rests_of_not_active hLoop hAwaits
        (hTasks hTask)).note]
      rfl
  | deleteKeys hTask => exact absurd trivial (hTasks hTask)
  | _ => rfl

/- A process, while another one makes a step. -/
theorem paced_other
    {n : Nat}
    {q : Process α}
    (hMoves : Moves settings matchId room p act out)
    (hPaced : Paced room.stores n q)
    (hAlone : 0 < q.running → p.running = 0) :
    Paced out.stores (levelAfter n out.note) q := by
  by_cases hIdle : q.running = 0
  · exact paced_of_idle _ _ hIdle
  · rw [levelAfter_of_rest n hMoves (hAlone (by omega))]
    exact
      paced_of_sameTicks hPaced (fun _ hStopped => hStopped)
        (sameTicks_of_kept (kept_refl _)) rfl
        (log_of_moves hMoves)

variable {interval : Nat}
variable {s t : State ι α}

/- A task becomes active only while no other one is. -/
theorem alone_record
    {i : ι}
    (hLeveled : Leveled s)
    (hOk : LoadsAlone s (.process i act))
    (hMoves :
      Moves settings matchId s.view (s.procs i) act out) :
    out.process.running ≤ 1 ∧
      ∀ j, j ≠ i → 0 < (s.procs j).running →
        out.process.running = 0 := by
  by_cases hLoaded :
      ∃ complete, out.note = some (.loaded complete)
  · rcases hLoaded with ⟨complete, hNote⟩
    rcases act_of_loaded hMoves hNote with
      ⟨⟨k, now, checkpointRead, schedule, rfl⟩, hMore⟩
    have hNone := hOk.1
    rw [hNone i] at hMore
    refine ⟨hMore, ?_⟩
    intro j _ hRunning
    rw [hNone j] at hRunning
    cases hRunning
  · have hLess :=
      running_le_of_moves hMoves
        (fun complete hNote => hLoaded ⟨complete, hNote⟩)
    refine ⟨Nat.le_trans hLess (hLeveled.one i), ?_⟩
    intro j hNe hRunning
    by_contra hSome
    exact hNe (hLeveled.alone j i hRunning (by omega))

variable [DecidableEq ι]

/- A process makes a step. -/
theorem leveled_record
    {i : ι}
    (hLeveled : Leveled s)
    (hOk : LoadsAlone s (.process i act))
    (hMoves :
      Moves settings matchId s.view (s.procs i) act out) :
    Leveled (s.record i out) := by
  have hLoads : (s.procs i).LoadsAlone s.view act := by
    cases act with
    | load k now checkpointRead schedule => exact hOk.2
    | _ => trivial
  have hStep :=
    paced_moves hMoves (hLeveled.one i) (hLeveled.procs i)
      hLeveled.stores hLeveled.origin hLoads
  have hReached :
      reached (s.record i out).history =
        levelAfter (reached s.history) out.note :=
    reached_record s.history i out.note
  rcases alone_record hLeveled hOk hMoves with
    ⟨hOne, hAlone⟩
  refine ⟨?_, ?_, ?_, ?_, ?_, ?_⟩
  · intro j
    by_cases hSame : j = i
    · subst hSame
      simp only [State.record, Function.update_self]
      exact hOne
    · simp only [State.record, Function.update_of_ne hSame]
      exact hLeveled.one j
  · intro j k hRunning hRunning'
    simp only [State.record, Function.update_apply]
      at hRunning hRunning'
    split at hRunning <;> split at hRunning'
    · rename_i hSame hSame'
      exact hSame.trans hSame'.symm
    · rename_i hSame hNe
      rw [hAlone k hNe hRunning'] at hRunning
      cases hRunning
    · rename_i hNe hSame
      rw [hAlone j hNe hRunning] at hRunning'
      cases hRunning'
    · exact hLeveled.alone j k hRunning hRunning'
  · rw [hReached]
    intro j
    by_cases hSame : j = i
    · subst hSame
      simp only [State.record, Function.update_self]
      exact hStep.process
    · simp only [State.record, Function.update_of_ne hSame]
      refine paced_other hMoves (hLeveled.procs j) ?_
      intro hRunning
      by_contra hBusy
      exact
        hSame (hLeveled.alone j i hRunning (by omega))
  · rw [hReached]
    exact hStep.stores
  · exact hLeveled.origin.mono (log_of_moves hMoves)
  · refine hLeveled.above.append_toList ?_
    intro e hNew n hStored
    rcases Option.map_eq_some_iff.mp hNew with
      ⟨note, hNote, rfl⟩
    apply hStep.above
    rw [hNote]
    cases note with
    | wrote tick => exact hStored
    | _ => cases hStored

theorem leveled_step
    {act : Act ι α}
    (hLeveled : Leveled s)
    (hOk : LoadsAlone s act)
    (hStep :
      step settings interval matchId s act = some t) :
    Leveled t := by
  cases steps_of_step hStep with
  | process hMoves =>
      have hRecord := leveled_record hLeveled hOk hMoves
      exact
        ⟨hRecord.one, hRecord.alone, hRecord.procs,
          hRecord.stores, hRecord.origin, hRecord.above⟩
  | expire =>
      exact
        ⟨hLeveled.one, hLeveled.alone, hLeveled.procs,
          hLeveled.stores, hLeveled.origin, hLeveled.above⟩
  | @evict key =>
      refine
        ⟨hLeveled.one, hLeveled.alone, hLeveled.procs, ?_,
          hLeveled.origin, hLeveled.above⟩
      refine
        ⟨?_, hLeveled.stores.logged, hLeveled.stores.full⟩
      intro data hData
      exact
        hLeveled.stores.redis data
          (Stores.state_evict s.stores hData)
  | service hService =>
      exact
        ⟨hLeveled.one, hLeveled.alone, hLeveled.procs,
          hLeveled.stores,
          Replay.fromLog_step hLeveled.origin hService,
          hLeveled.above⟩

end Fleet

------------------------------------------------------------
-- A Leader That Was Paused
------------------------------------------------------------

namespace Fleet

open GameRoom History
open Machine (Reachable Reaches reachable_of_run)
open Machine (reaches_of_run run_eq_final final)

/- An act of one of two replicas. -/
abbrev replica (i : Fin 2) (act : ProcessAct Int) :
    Act (Fin 2) Int :=
  .process i act

/- A replica is elected and enters its first tick. -/
def promote (i : Fin 2) : List (Act (Fin 2) Int) :=
  [.win, .dispatch, .start 100, .load 0 101 true [], .enter 0,
    .resume 0 (.ok 102)].map (replica i)

/- A tick with its state in Redis, up to the next one. -/
def tick (i : Fin 2) : List (Act (Fin 2) Int) :=
  [.resume 0 .effect, .resume 0 (.ok 103), .resume 0 .effect,
    .resume 0 (.ok 104), .resume 0 .effect,
    .resume 0 (.fail 105), .resume 0 (.ok 106)].map
      (replica i)

/- A leader notices the loss of its lease and stops. -/
def stepDown (i : Fin 2) : List (Act (Fin 2) Int) :=
  [.lose, .dispatch, .start 107, .resume 0 (.fail 108),
    .resume 0 (.ok 109), .check 0].map (replica i)

/- The first leader stops before the second is elected. -/
def handover : List (Act (Fin 2) Int) :=
  promote 0 ++ tick 0 ++ stepDown 0 ++ [.expire] ++
    promote 1 ++ tick 1

/- It is paused in its second tick, and resumes later. -/
def overlap : List (Act (Fin 2) Int) :=
  promote 0 ++ tick 0 ++ [.expire] ++ promote 1 ++
    tick 1 ++ tick 1 ++ tick 0

/- It dies, and the replay of the second one is cut off. -/
def cutOff : List (Act (Fin 2) Int) :=
  promote 0 ++ tick 0 ++ tick 0 ++
    [replica 0 .crash, .expire, .evict .lastOffset] ++
      promote 1 ++ tick 1

/- It is paused, and stops before the next tick of another. -/
def lateNotice : List (Act (Fin 2) Int) :=
  promote 0 ++ tick 0 ++ [.expire] ++ promote 1 ++
    stepDown 0 ++ tick 1

def lateNoticeEnd : State (Fin 2) Int :=
  final (step {} 300 "room") State.empty lateNotice
    (by decide)

def handoverEnd : State (Fin 2) Int :=
  final (step {} 300 "room") State.empty handover (by decide)

def overlapEnd : State (Fin 2) Int :=
  final (step {} 300 "room") State.empty overlap (by decide)

def cutOffEnd : State (Fin 2) Int :=
  final (step {} 300 "room") State.empty cutOff (by decide)

/- The records of a tick. -/
def notesOfTick (i : Fin 2) (n : Nat) : List (Fin 2 × Note) :=
  [.appended, .acked, .wrote (some n), .wrote none].map
    (fun note => (i, note))

/- The records of a promotion. -/
def notesOfPromotion
    (i : Fin 2)
    (complete : Bool) : List (Fin 2 × Note) :=
  [(i, .won), (i, .loaded complete)]

end Fleet
