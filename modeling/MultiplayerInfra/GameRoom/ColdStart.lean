import MultiplayerInfra.GameRoom.Recovery
import MultiplayerInfra.Kafka.ReadLoop

/-
  When the loop of the cold-start replay is left, and what it
  has processed by then.

  Key definitions include:
    * `GameRoom.replayed`
    * `GameRoom.coldStartRun`
    * `GameRoom.StopsWhenDone`

  Key theorems include:
    * `GameRoom.coldStartReplay_eq`
    * `GameRoom.stopsWhenDone_iff`

  The loop waits for every partition whose end is above zero,
  also for one without a record; at the deadline it is left
  with what it has.
-/

------------------------------------------------------------
-- The Replay With Its Exit
------------------------------------------------------------

namespace GameRoom

open Py Kafka

variable {α : Type} [PyNumber α]

/- The loop object after the messages of an exit. -/
def replayed
    (g : GameLoop α)
    (checkpoint : Option (Option (Checkpoint α)))
    (e : Exit (StateJson α)) : GameLoop α :=
  let restored := tryLoadCheckpoint g.state checkpoint
  let replay : GameState α × Int :=
    e.handled.foldl (replayMessage restored.2)
      (restored.1, -1)
  { g with
    state := replay.1
    lastCommittedKafkaOffset :=
      if 0 ≤ replay.2 then replay.2
      else g.lastCommittedKafkaOffset }

/-
  `_cold_start_replay` on a topic whose watermarks were read,
  with the variables of its loop at the exit.
-/
def coldStartRun
    (g : GameLoop α)
    (checkpoint : Option (Option (Checkpoint α)))
    (topic : Topic (StateJson α))
    (polls : List (Poll (StateJson α))) :
    Option (GameLoop α × Exit (StateJson α)) :=
  (readLoop (endOffset topic) (unread topic) polls).map
    (fun e => (replayed g checkpoint e, e))

theorem coldStartRun_eq_some_iff
    {g g' : GameLoop α}
    {checkpoint : Option (Option (Checkpoint α))}
    {topic : Topic (StateJson α)}
    {polls : List (Poll (StateJson α))}
    {e : Exit (StateJson α)} :
    coldStartRun g checkpoint topic polls = some (g', e) ↔
      readLoop (endOffset topic) (unread topic) polls =
          some e ∧
        replayed g checkpoint e = g' := by
  rw [coldStartRun, Option.map_eq_some_iff]
  constructor
  · rintro ⟨e', hLoop, hPair⟩
    cases hPair
    exact ⟨hLoop, rfl⟩
  · rintro ⟨hLoop, rfl⟩
    exact ⟨e, hLoop, rfl⟩

/- The replay handles the messages of the loop in order. -/
theorem coldStartReplay_eq
    (g : GameLoop α)
    (checkpoint : Option (Option (Checkpoint α)))
    (topic : Topic (StateJson α))
    (polls : List (Poll (StateJson α))) :
    coldStartReplay g checkpoint (some topic) polls =
      (coldStartRun g checkpoint topic polls).map
        Prod.fst := by
  rw [coldStartRun, Option.map_map]
  cases topic with
  | nil =>
      have hNothing :
          readLoop
              (endOffset ([] : Topic (StateJson α)))
              (unread ([] : Topic (StateJson α))) polls =
            some { remaining := [], handled := [] } := by
        rw [show unread ([] : Topic (StateJson α)) = [] from
          rfl, readLoop]
      rw [hNothing]
      rfl
  | cons p topic =>
      simp only [coldStartReplay, readToEnd_eq,
        Option.map_map]
      rfl

/-
  With these records appended and these polls before the
  deadline: the loop empties what remains with the poll that
  delivers the last record below the high watermarks, and
  what is returned has processed all of them.
-/
structure StopsWhenDone
    (g : GameLoop α)
    (checkpoint : Option (Option (Checkpoint α)))
    (topic grown : Topic (StateJson α))
    (schedule : List (Option Nat)) : Prop where
  exits :
    ∀ k ≤ schedule.length,
      (∃ g' e,
        coldStartRun g checkpoint topic
            ((deliver grown (fun _ => 0) schedule).take k) =
            some (g', e) ∧
          e.remaining = []) ↔
        Covers topic (schedule.take k)
  processed :
    ∀ g' e,
      coldStartRun g checkpoint topic
          (deliver grown (fun _ => 0) schedule) =
          some (g', e) →
        ∀ p,
          recordsOf topic p <+:
            (e.handled.filter (·.partition = p)).map
              Message.value

/-
  The replay stops when it is done exactly if the polls
  before the deadline deliver every record below the high
  watermarks, and by then also one appended later of every
  partition whose records have all expired.
-/
theorem stopsWhenDone_iff
    (g : GameLoop α)
    (checkpoint : Option (Option (Checkpoint α)))
    {topic grown : Topic (StateJson α)}
    (hGrows : Grows topic grown)
    (schedule : List (Option Nat)) :
    StopsWhenDone g checkpoint topic grown schedule ↔
      Covers topic schedule ∧
        ∀ p, Expired topic p →
          ∀ k ≤ schedule.length,
            Covers topic (schedule.take k) →
              some p ∈ schedule.take k ∧
                recordsOf grown p ≠ [] := by
  have hExit :
      ∀ polls,
        (∃ g' e,
          coldStartRun g checkpoint topic polls =
              some (g', e) ∧
            e.remaining = []) ↔
          ∃ e,
            readLoop (endOffset topic) (unread topic) polls =
                some e ∧
              e.remaining = [] := by
    intro polls
    constructor
    · rintro ⟨g', e, hRun, hNone⟩
      exact ⟨e, (coldStartRun_eq_some_iff.mp hRun).1, hNone⟩
    · rintro ⟨e, hLoop, hNone⟩
      exact
        ⟨replayed g checkpoint e, e,
          coldStartRun_eq_some_iff.mpr ⟨hLoop, rfl⟩, hNone⟩
  have hEmptied :
      ∀ k,
        (∃ g' e,
          coldStartRun g checkpoint topic
              ((deliver grown (fun _ => 0) schedule).take
                k) = some (g', e) ∧
            e.remaining = []) ↔
          Covers topic (schedule.take k) ∧
            ∀ p, Expired topic p →
              some p ∈ schedule.take k ∧
                recordsOf grown p ≠ [] := by
    intro k
    rw [hExit, take_deliver]
    exact emptied_iff hGrows (schedule.take k)
  constructor
  · rintro ⟨hExits, hProcessed⟩
    constructor
    · rcases remaining_eq_nil_iff grown (endOffset topic)
          schedule (fun _ => 0) (unread topic) with
        ⟨e, hLoop, _⟩
      apply (processed_iff hGrows hLoop).mp
      exact
        hProcessed (replayed g checkpoint e) e
          (coldStartRun_eq_some_iff.mpr ⟨hLoop, rfl⟩)
    · intro p hExpired k hLe hCovers
      have hEmpty := (hExits k hLe).mpr hCovers
      exact ((hEmptied k).mp hEmpty).2 p hExpired
  · rintro ⟨hCovers, hExpired⟩
    constructor
    · intro k hLe
      rw [hEmptied]
      constructor
      · exact fun h => h.1
      · exact fun hTaken =>
          ⟨hTaken, fun p hOld =>
            hExpired p hOld k hLe hTaken⟩
    · intro g' e hRun
      have hLoop := (coldStartRun_eq_some_iff.mp hRun).1
      exact (processed_iff hGrows hLoop).mpr hCovers

/- An event without players. -/
def emptyEvent (tick : Nat) : StateJson Int where
  matchId := "room-1"
  tick := some tick
  players := none

/- A record is appended while the only one is awaited. -/
theorem stopsWhenDone_iff_appended :
    StopsWhenDone (GameLoop.new {} "room-1" 0) none
        [⟨3, [emptyEvent 1]⟩]
        [⟨3, [emptyEvent 1, emptyEvent 2]⟩]
        [none, some 0, some 0] ↔
      Covers [⟨3, [emptyEvent 1]⟩] [none, some 0, some 0] ∧
        ∀ p, Expired [⟨3, [emptyEvent 1]⟩] p →
          ∀ k ≤ [none, some 0, some 0].length,
            Covers [⟨3, [emptyEvent 1]⟩]
                ([none, some 0, some 0].take k) →
              some p ∈ [none, some 0, some 0].take k ∧
                recordsOf
                    [⟨3, [emptyEvent 1, emptyEvent 2]⟩] p ≠
                  [] := by
  apply stopsWhenDone_iff
  exact .cons ⟨rfl, [emptyEvent 2], rfl⟩ .nil

/-
  Five records have expired, and the loop waits for the sixth;
  a slow broker, and the only record is not awaited.
-/
theorem expired_partition_awaited :
    ¬ StopsWhenDone (GameLoop.new {} "room-1" 0) none
        ([⟨5, []⟩] : Topic (StateJson Int)) [⟨5, []⟩]
        [none, none] ∧
      ¬ StopsWhenDone (GameLoop.new {} "room-1" 0) none
        [⟨0, [emptyEvent 1]⟩] [⟨0, [emptyEvent 1]⟩]
        [none, none] := by
  constructor
  · rintro ⟨hExits, -⟩
    have hCovers :
        Covers ([⟨5, []⟩] : Topic (StateJson Int)) [] := by
      intro p
      cases p with
      | zero => exact Nat.le_refl _
      | succ p => exact Nat.zero_le _
    rcases (hExits 0 (Nat.zero_le _)).mpr hCovers with
      ⟨g', e, hRun, hNone⟩
    have hLoop := (coldStartRun_eq_some_iff.mp hRun).1
    cases hLoop
    cases hNone
  · rintro ⟨-, hProcessed⟩
    have hFirst :=
      hProcessed _ ⟨[0], []⟩
        (coldStartRun_eq_some_iff.mpr ⟨rfl, rfl⟩) 0
    have hLength := hFirst.length_le
    revert hLength
    decide

end GameRoom
