import MultiplayerInfra.Replay.Archive

/-
  The archives of matches that are played back to back in
  one room, when the service does not crash and each match
  is archived before the next one begins.

  Key definitions include:
    * `Replay.PlayedMatch`
    * `Replay.afterMatches`
    * `Replay.OwnArchives`

  Key theorems include:
    * `Replay.run_acts`
    * `Replay.ready_match`
    * `Replay.ownArchives_iff`

  The matches of a room share its match id, so they share
  the checkpoints of that id.
-/

------------------------------------------------------------
-- The Schedule
------------------------------------------------------------

namespace Replay

open Py GameRoom

variable {α : Type}

/- One event, and whether its database calls succeed. -/
structure Polled (α : Type) where
  event : StateJson α
  loads : Bool
  saves : Bool

structure PlayedMatch (α : Type) where
  polled : List (Polled α)
  -- whether the upload of its archive succeeds
  stores : Bool

def PlayedMatch.events
    (m : PlayedMatch α) :
    List (StateJson α) :=
  m.polled.map Polled.event

def Polled.act
    (p : Polled α) : Act :=
  .poll p.loads p.saves

/- All events of the match are polled, then its `match.end`. -/
def PlayedMatch.acts
    (m : PlayedMatch α) : List Act :=
  m.polled.map Polled.act ++ [.pollLifecycle m.stores]

def roomLog
    (ms : List (PlayedMatch α)) :
    List (StateJson α) :=
  ms.flatMap PlayedMatch.events

def roomActs
    (ms : List (PlayedMatch α)) : List Act :=
  ms.flatMap PlayedMatch.acts

/- The service after the first `k` of the matches. -/
def afterMatches
    (interval : Nat)
    (ms : List (PlayedMatch α))
    (k : Nat) :
    Service α × Checkpoints α :=
  (Machine.run (next interval (roomLog ms) ms.length) fresh
    (roomActs (ms.take k))).getD fresh

/- What `finalize_replay` ought to store. -/
def PlayedMatch.archive
    (m : PlayedMatch α) :
    List (List (StateJson α)) :=
  if m.stores = true ∧ m.polled ≠ [] then [m.events]
  else []

/- Each `match.end` stores the events of its own match. -/
def OwnArchives
    (interval : Nat)
    (ms : List (PlayedMatch α)) : Prop :=
  ∀ k m, ms[k]? = some m →
    (afterMatches interval ms (k + 1)).1.archives =
      (afterMatches interval ms k).1.archives ++ m.archive

/- The event is one at which a checkpoint is saved. -/
def Polled.Checkpoints
    (interval : Nat)
    (p : Polled α) : Prop :=
  0 < p.event.tickOrZero ∧
    p.event.tickOrZero % interval = 0 ∧ p.saves = true

/-
  The first event of an archived match loads no checkpoint:
  the load fails, or none was saved by an earlier match.
-/
def LoadsNothing
    (interval : Nat)
    (ms : List (PlayedMatch α)) : Prop :=
  ∀ k m, ms[k]? = some m → m.stores = true →
    ∀ p, m.polled.head? = some p → p.loads = true →
      ∀ m' ∈ ms.take k, ∀ p' ∈ m'.polled,
        ¬ p'.Checkpoints interval

end Replay

------------------------------------------------------------
-- The Saved Checkpoints
------------------------------------------------------------

namespace Replay

open Py GameRoom

variable {α : Type}
variable {interval : Nat}

/- The checkpoints are those of the events played so far. -/
structure Saved
    (interval : Nat)
    (played : List (Polled α))
    (rows : Checkpoints α) : Prop where
  newest_none :
    newest rows = none ↔
      ∀ p ∈ played, ¬ p.Checkpoints interval
  events_ne :
    ∀ tick events, rows.get? tick = some events →
      events ≠ []

theorem newest_eq_none_iff
    {rows : Checkpoints α} :
    newest rows = none ↔ rows.keys = [] := by
  unfold newest Dict.keys
  rw [Option.map_eq_none_iff, List.argmax_eq_none,
    List.map_eq_nil_iff]

theorem newest_set_ne_none
    (rows : Checkpoints α)
    (tick : Nat)
    (events : List (StateJson α)) :
    newest (rows.set tick events) ≠ none := by
  rw [Ne, newest_eq_none_iff]
  have hMem : tick ∈ (rows.set tick events).keys :=
    (Dict.mem_keys_set rows tick tick events).mpr (.inl rfl)
  intro hNil
  rw [hNil] at hMem
  cases hMem

end Replay

------------------------------------------------------------
-- Playing One Match
------------------------------------------------------------

namespace Replay

open Py GameRoom

variable {α : Type}
variable {interval ends : Nat}
variable {log : List (StateJson α)}
variable {played : List (Polled α)}
variable {s t : Service α × Checkpoints α}

/- Polling one more event. -/
theorem Saved.consumeEvent
    {p : Polled α}
    (hSaved : Saved interval played s.2) :
    Saved interval (played ++ [p])
      (consumeEvent interval s.1 s.2 p.loads p.saves
        p.event).2 := by
  simp only [Replay.consumeEvent]
  split
  · rename_i hSave
    constructor
    · constructor
      · intro hNone
        exact absurd hNone (newest_set_ne_none _ _ _)
      · intro hNever
        exact absurd hSave (hNever p (by simp))
    · intro tick events hRow
      rw [Dict.get?_set] at hRow
      split at hRow
      · cases hRow
        simp
      · exact hSaved.events_ne tick events hRow
  · rename_i hSkip
    refine ⟨?_, hSaved.events_ne⟩
    rw [hSaved.newest_none]
    constructor
    · intro hNever q hMem
      rcases List.mem_append.mp hMem with hOld | hNew
      · exact hNever q hOld
      · rw [List.mem_singleton.mp hNew]
        exact hSkip
    · intro hNever q hMem
      exact hNever q (List.mem_append_left _ hMem)

/- The next event of the log is polled. -/
theorem next_act
    (ends : Nat)
    {p : Polled α}
    {rest : List (StateJson α)}
    (hLog : log.drop s.1.position = p.event :: rest) :
    next interval log ends s p.act =
        some
          (consumeEvent interval s.1 s.2 p.loads p.saves
            p.event) ∧
      log.drop (s.1.position + 1) = rest := by
  have hNext : log[s.1.position]? = some p.event := by
    rw [← List.head?_drop, hLog]
    rfl
  constructor
  · change (log[s.1.position]?).map _ = _
    rw [hNext]
    rfl
  · rw [← List.tail_drop, hLog]
    rfl

/-
  The events of one match are polled one after another.
  Once the list exists, each poll appends to it.
-/
theorem run_polled
    (ends : Nat)
    {ps : List (Polled α)}
    {rest : List (StateJson α)}
    {events : List (StateJson α)}
    (hLog :
      log.drop s.1.position =
        ps.map Polled.event ++ rest)
    (hEvents : s.1.matchEvents = some events)
    (hSaved : Saved interval played s.2) :
    ∃ rows,
      Machine.run (next interval log ends) s
          (ps.map Polled.act) =
        some
          ({ s.1 with
            matchEvents :=
              some (events ++ ps.map Polled.event)
            position := s.1.position + ps.length },
          rows) ∧
      Saved interval (played ++ ps) rows := by
  induction ps generalizing s played events with
  | nil =>
      refine ⟨s.2, ?_, by simpa using hSaved⟩
      simp [Machine.run, ← hEvents]
  | cons p ps ih =>
      rcases next_act ends hLog with ⟨hStep, hRest⟩
      have hNow :
          (consumeEvent interval s.1 s.2 p.loads p.saves
              p.event).1.matchEvents =
            some (events ++ [p.event]) := by
        simp [consumeEvent, collected, hEvents]
      rcases ih hRest hNow hSaved.consumeEvent with
        ⟨rows, hRun, hRows⟩
      refine ⟨rows, ?_, by simpa using hRows⟩
      rw [List.map_cons, Machine.run, hStep,
        Option.bind_some, hRun]
      simp [consumeEvent, Nat.add_assoc, Nat.add_comm]

/- The list to which the first event is appended. -/
def PlayedMatch.loaded
    (m : PlayedMatch α)
    (s : Service α × Checkpoints α) :
    List (StateJson α) :=
  match m.polled with
  | [] => []
  | p :: _ => collected s.1 s.2 p.loads

/- `match.end` is polled with the list it archives. -/
theorem run_pollLifecycle
    (stores : Bool)
    (hEnds : s.1.lifecyclePosition < ends) :
    Machine.run (next interval log ends) s
        [.pollLifecycle stores] =
      some
        ({ finalizeReplay s.1 stores with
          lifecyclePosition := s.1.lifecyclePosition + 1 },
        s.2) := by
  simp [Machine.run, next, step, hEnds]

theorem run_acts
    {m : PlayedMatch α}
    {rest : List (StateJson α)}
    (hNone : s.1.matchEvents = none)
    (hLog : log.drop s.1.position = m.events ++ rest)
    (hEnds : s.1.lifecyclePosition < ends)
    (hSaved : Saved interval played s.2) :
    ∃ svc rows,
      Machine.run (next interval log ends) s m.acts =
        some (svc, rows) ∧
      svc.matchEvents = none ∧
      svc.position = s.1.position + m.polled.length ∧
      svc.lifecyclePosition =
        s.1.lifecyclePosition + 1 ∧
      Saved interval (played ++ m.polled) rows ∧
      svc.archives =
        s.1.archives ++
          if m.stores = true ∧ m.polled ≠ [] then
            [m.loaded s ++ m.events]
          else [] := by
  rcases m with ⟨ps, stores⟩
  cases ps with
  | nil =>
      refine ⟨_, _, run_pollLifecycle stores hEnds, ?_, ?_, ?_,
        by simpa using hSaved, ?_⟩
      · rfl
      · rfl
      · rfl
      · change (finalizeReplay s.1 stores).archives = _
        rw [finalizeReplay_archives, hNone]
        simp
  | cons p ps =>
      rcases next_act ends hLog with ⟨hStep, hRest⟩
      rcases
          run_polled ends
            (s := consumeEvent interval s.1 s.2 p.loads
              p.saves p.event)
            hRest rfl hSaved.consumeEvent with
        ⟨rows, hRun, hRows⟩
      have hEnd :=
        Machine.run_append_of_run hRun
          (run_pollLifecycle stores hEnds)
      refine ⟨_, rows, Machine.run_cons_of_step hStep hEnd,
        ?_, ?_, ?_, ?_, ?_⟩
      · rfl
      · simp [finalizeReplay, consumeEvent, Nat.add_assoc,
          Nat.add_comm]
      · rfl
      · simpa using hRows
      · change (finalizeReplay _ stores).archives = _
        rw [finalizeReplay_archives]
        simp [consumeEvent, PlayedMatch.loaded,
          PlayedMatch.events]
        split <;> simp

end Replay

------------------------------------------------------------
-- Matches Back to Back
------------------------------------------------------------

namespace Replay

open Py GameRoom

variable {α : Type}
variable {interval : Nat}
variable {ms : List (PlayedMatch α)}

/- The service between the first `k` matches and the next. -/
structure Ready
    (interval : Nat)
    (ms : List (PlayedMatch α))
    (k : Nat)
    (s : Service α × Checkpoints α) : Prop where
  matchEvents : s.1.matchEvents = none
  position :
    s.1.position = (roomLog (ms.take k)).length
  lifecyclePosition : s.1.lifecyclePosition = k
  saved :
    Saved interval
      ((ms.take k).flatMap PlayedMatch.polled) s.2

theorem ready_fresh :
    Ready interval ms 0 fresh := by
  refine ⟨rfl, rfl, rfl, ?_, ?_⟩
  · simp [fresh]
  · intro tick events hRow
    cases hRow

/- What the log holds from match `k` on. -/
theorem drop_roomLog
    {k : Nat}
    {m : PlayedMatch α}
    (hMatch : ms[k]? = some m) :
    (roomLog ms).drop (roomLog (ms.take k)).length =
      m.events ++ roomLog (ms.drop (k + 1)) := by
  rcases List.getElem?_eq_some_iff.mp hMatch with
    ⟨hLt, rfl⟩
  have hSplit :
      roomLog ms =
        roomLog (ms.take k) ++
          (ms[k].events ++ roomLog (ms.drop (k + 1))) := by
    unfold roomLog
    rw [← List.flatMap_cons, ← List.drop_eq_getElem_cons hLt,
      ← List.flatMap_append, List.take_append_drop]
  rw [hSplit, List.drop_left']
  rfl

theorem roomActs_take_add_one
    {k : Nat}
    {m : PlayedMatch α}
    (hMatch : ms[k]? = some m) :
    roomActs (ms.take (k + 1)) =
      roomActs (ms.take k) ++ m.acts := by
  rw [List.take_add_one, hMatch]
  simp [roomActs]

/- One match is played from a ready service to the next. -/
theorem ready_match
    {k : Nat}
    {m : PlayedMatch α}
    {s : Service α × Checkpoints α}
    (hMatch : ms[k]? = some m)
    (hReady : Ready interval ms k s) :
    ∃ t,
      Machine.run
          (next interval (roomLog ms) ms.length) s m.acts =
        some t ∧
      Ready interval ms (k + 1) t ∧
      t.1.archives =
        s.1.archives ++
          if m.stores = true ∧ m.polled ≠ [] then
            [m.loaded s ++ m.events]
          else [] := by
  have hLog :
      (roomLog ms).drop s.1.position =
        m.events ++ roomLog (ms.drop (k + 1)) := by
    rw [hReady.position]
    exact drop_roomLog hMatch
  have hLt : k < ms.length :=
    (List.getElem?_eq_some_iff.mp hMatch).1
  have hTake : ms.take (k + 1) = ms.take k ++ [m] := by
    rw [List.take_add_one, hMatch]
    rfl
  rcases
      run_acts hReady.matchEvents hLog
        (by rw [hReady.lifecyclePosition]; exact hLt)
        hReady.saved with
    ⟨svc, rows, hRun, hNone, hPosition, hLifecycle, hSaved,
      hArchives⟩
  refine ⟨(svc, rows), hRun, ⟨hNone, ?_, ?_, ?_⟩, hArchives⟩
  · rw [hPosition, hReady.position, hTake]
    simp [roomLog, PlayedMatch.events]
  · rw [hLifecycle, hReady.lifecyclePosition]
  · rw [hTake]
    simpa using hSaved

/- The schedule can be run, and leaves the service ready. -/
theorem run_roomActs
    (interval : Nat)
    (ms : List (PlayedMatch α))
    (k : Nat)
    (hLe : k ≤ ms.length) :
    Machine.run (next interval (roomLog ms) ms.length) fresh
        (roomActs (ms.take k)) =
      some (afterMatches interval ms k) ∧
    Ready interval ms k (afterMatches interval ms k) := by
  induction k with
  | zero => exact ⟨rfl, ready_fresh⟩
  | succ k ih =>
      rcases ih (Nat.le_of_succ_le hLe) with ⟨hRun, hReady⟩
      have hMatch : ms[k]? = some ms[k] :=
        List.getElem?_eq_getElem hLe
      rcases ready_match hMatch hReady with
        ⟨t, hNext, hReady', _⟩
      have hAll :
          Machine.run
              (next interval (roomLog ms) ms.length) fresh
              (roomActs (ms.take (k + 1))) =
            some t := by
        rw [roomActs_take_add_one hMatch]
        exact Machine.run_append_of_run hRun hNext
      have hEq : afterMatches interval ms (k + 1) = t := by
        unfold afterMatches
        rw [hAll]
        rfl
      rw [hEq]
      exact ⟨hAll, hReady'⟩

/- The archive of match `k` begins with what was loaded. -/
theorem archives_afterMatches
    (interval : Nat)
    {k : Nat}
    {m : PlayedMatch α}
    (hMatch : ms[k]? = some m) :
    (afterMatches interval ms (k + 1)).1.archives =
      (afterMatches interval ms k).1.archives ++
        if m.stores = true ∧ m.polled ≠ [] then
          [m.loaded (afterMatches interval ms k) ++ m.events]
        else [] := by
  have hLt : k < ms.length :=
    (List.getElem?_eq_some_iff.mp hMatch).1
  rcases run_roomActs interval ms k hLt.le with
    ⟨hRun, hReady⟩
  rcases ready_match hMatch hReady with
    ⟨t, hNext, _, hArchives⟩
  have hAll := (run_roomActs interval ms (k + 1) hLt).1
  have hEq :
      some (afterMatches interval ms (k + 1)) =
        some t := by
    rw [← hAll, roomActs_take_add_one hMatch]
    exact Machine.run_append_of_run hRun hNext
  rw [Option.some.inj hEq]
  exact hArchives

/- Nothing is loaded when no checkpoint is, or none exists. -/
theorem loaded_eq_nil_iff
    {k : Nat}
    {m : PlayedMatch α}
    {s : Service α × Checkpoints α}
    (hReady : Ready interval ms k s) :
    m.loaded s = [] ↔
      ∀ p, m.polled.head? = some p → p.loads = true →
        ∀ m' ∈ ms.take k, ∀ p' ∈ m'.polled,
          ¬ p'.Checkpoints interval := by
  have hNever :
      newest s.2 = none ↔
        ∀ m' ∈ ms.take k, ∀ p' ∈ m'.polled,
          ¬ p'.Checkpoints interval := by
    rw [hReady.saved.newest_none]
    simp only [List.mem_flatMap]
    constructor
    · intro hAll m' hMem p' hMem'
      exact hAll p' ⟨m', hMem, hMem'⟩
    · rintro hAll p' ⟨m', hMem, hMem'⟩
      exact hAll m' hMem p' hMem'
  rw [← hNever]
  rcases m with ⟨ps, stores⟩
  cases ps with
  | nil => simp [PlayedMatch.loaded]
  | cons p ps =>
      simp only [PlayedMatch.loaded, collected,
        hReady.matchEvents, List.head?_cons]
      cases hLoads : p.loads with
      | false => simp [hLoads]
      | true =>
          cases hNewest : newest s.2 with
          | none => simp
          | some c =>
              have hRow := FromLog.get?_newest hNewest
              simpa [hLoads] using
                hReady.saved.events_ne _ _ hRow

/-
  Each archive is exactly its own match if and only if no
  archived match begins with a loaded checkpoint.
-/
theorem ownArchives_iff
    (interval : Nat)
    (ms : List (PlayedMatch α)) :
    OwnArchives interval ms ↔ LoadsNothing interval ms := by
  have hEach :
      ∀ k m, ms[k]? = some m →
        ((afterMatches interval ms (k + 1)).1.archives =
            (afterMatches interval ms k).1.archives ++
              m.archive ↔
          (m.stores = true → m.polled ≠ [] →
            m.loaded (afterMatches interval ms k) =
              [])) := by
    intro k m hMatch
    rw [archives_afterMatches interval hMatch,
      List.append_cancel_left_eq]
    unfold PlayedMatch.archive
    by_cases hStored : m.stores = true ∧ m.polled ≠ []
    · rw [if_pos hStored, if_pos hStored]
      simp [hStored]
    · rw [if_neg hStored, if_neg hStored]
      tauto
  constructor
  · intro hOwn k m hMatch hStores
    have hLt : k < ms.length :=
      (List.getElem?_eq_some_iff.mp hMatch).1
    have hReady := (run_roomActs interval ms k hLt.le).2
    apply (loaded_eq_nil_iff hReady).mp
    by_cases hNil : m.polled = []
    · simp [PlayedMatch.loaded, hNil]
    · exact
        (hEach k m hMatch).mp (hOwn k m hMatch) hStores hNil
  · intro hLoads k m hMatch
    have hLt : k < ms.length :=
      (List.getElem?_eq_some_iff.mp hMatch).1
    have hReady := (run_roomActs interval ms k hLt.le).2
    apply (hEach k m hMatch).mpr
    intro hStores _
    exact
      (loaded_eq_nil_iff hReady).mpr
        (hLoads k m hMatch hStores)

end Replay

------------------------------------------------------------
-- Two Long Matches
------------------------------------------------------------

namespace Replay

open Py GameRoom

/- A match of `n` ticks during which every call succeeds. -/
def quietMatch
    (n : Nat) :
    PlayedMatch Int where
  polled :=
    (List.range n).map (fun i =>
      { event := quietTick (i + 1)
        loads := true
        saves := true })
  stores := true

/- The second match begins with the checkpoint of tick 300. -/
theorem archive_not_own :
    ¬ OwnArchives 300 [quietMatch 300, quietMatch 300] := by
  intro hOwn
  have hSecond :
      [quietMatch 300, quietMatch 300][1]? =
        some (quietMatch 300) :=
    rfl
  have hPolled :
      (quietMatch 300).stores = true ∧
        (quietMatch 300).polled ≠ [] :=
    ⟨rfl, by simp [quietMatch]⟩
  have hArchived := archives_afterMatches 300 hSecond
  rw [hOwn 1 (quietMatch 300) hSecond, if_pos hPolled,
    List.append_cancel_left_eq, PlayedMatch.archive,
    if_pos hPolled, List.cons.injEq] at hArchived
  have hNil := List.self_eq_append_left.mp hArchived.1
  have hReady :=
    (run_roomActs 300 [quietMatch 300, quietMatch 300] 1
      (by simp)).2
  refine
    (loaded_eq_nil_iff hReady).mp hNil
      { event := quietTick 1, loads := true, saves := true }
      ?_ rfl (quietMatch 300) (by simp)
      { event := quietTick 300
        loads := true
        saves := true } ?_
      ⟨by decide, by decide, rfl⟩
  · simp [quietMatch, List.head?_range]
  · exact List.mem_map.mpr ⟨299, by simp, rfl⟩

end Replay
