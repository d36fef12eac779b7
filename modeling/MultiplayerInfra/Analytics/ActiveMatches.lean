import MultiplayerInfra.Analytics.Consumer
import MultiplayerInfra.Machine.History
import Mathlib.Data.Finset.Card
import Mathlib.Data.Finset.Dedup

/-
  The gauge of the active matches against the rooms that
  are in a match.

  Key definitions include:
    * `Analytics.runningRooms`
    * `Analytics.GaugeCounts`
    * `Analytics.CountsRight`

  Key theorems include:
    * `Analytics.activeMatches_concat_iff`
    * `Analytics.gauge_iff`

  A takeover starts the loop of a room again, so a room may
  start twice without an end.
-/

------------------------------------------------------------
-- Rooms in a Match
------------------------------------------------------------

namespace Analytics

/- The match event of a room: a start, or an end. -/
def runs
    (room : String)
    (msg : Message) : Option Bool :=
  if msg.room ≠ room then none
  else
    match msg.event with
    | .matchStart => some true
    | .matchEnd => some false
    | _ => none

/- The last match event of the room is a start. -/
def InMatch
    (msgs : List Message)
    (room : String) : Prop :=
  History.holder (runs room) msgs = some true

instance
    (msgs : List Message)
    (room : String) :
    Decidable (InMatch msgs room) :=
  inferInstanceAs (Decidable
    (History.holder (runs room) msgs = some true))

/- The rooms that are in a match. -/
def runningRooms (msgs : List Message) : Finset String :=
  ((msgs.map Message.room).toFinset).filter
    (fun room => InMatch msgs room)

/- After each message the gauge is the number of rooms. -/
def GaugeCounts (msgs : List Message) : Prop :=
  ∀ before, before <+: msgs →
    (consumeTelemetry before).activeMatches =
      ((runningRooms before).card : Int)

/-
  A start is of a room that is in no match, and an end finds
  no other room in one.
-/
def CountsRight
    (before : List Message)
    (msg : Message) : Prop :=
  (msg.event = .matchStart →
    msg.room ∉ runningRooms before) ∧
  (msg.event = .matchEnd →
    runningRooms before ⊆ {msg.room})

variable {msgs : List Message}
variable {msg : Message}
variable {room : String}

/- A message of another kind, or of another room. -/
theorem runs_eq_none
    (hOther :
      msg.room = room →
        msg.event ≠ .matchStart ∧ msg.event ≠ .matchEnd) :
    runs room msg = none := by
  unfold runs
  split
  · rfl
  · rename_i hRoom
    rcases hOther (not_not.mp hRoom) with ⟨hStart, hEnd⟩
    cases hEvent : msg.event with
    | matchStart => exact absurd hEvent hStart
    | matchEnd => exact absurd hEvent hEnd
    | _ => rfl

theorem runs_start
    (hEvent : msg.event = .matchStart) :
    runs msg.room msg = some true := by
  simp [runs, hEvent]

theorem runs_end
    (hEvent : msg.event = .matchEnd) :
    runs msg.room msg = some false := by
  simp [runs, hEvent]

theorem mem_runningRooms :
    room ∈ runningRooms msgs ↔ InMatch msgs room := by
  unfold runningRooms
  rw [Finset.mem_filter, List.mem_toFinset]
  constructor
  · exact fun h => h.2
  · intro hIn
    refine ⟨?_, hIn⟩
    have hMem := List.mem_of_getLast? hIn
    rcases List.mem_filterMap.mp hMem with
      ⟨msg, hMsg, hRuns⟩
    unfold runs at hRuns
    split at hRuns
    · cases hRuns
    · rename_i hRoom
      exact List.mem_map.mpr ⟨msg, hMsg, not_not.mp hRoom⟩

end Analytics

------------------------------------------------------------
-- One Message
------------------------------------------------------------

namespace Analytics

variable {msgs : List Message}
variable {msg : Message}

/- The other rooms are as they were. -/
theorem inMatch_concat_of_ne
    {room : String}
    (hOther : msg.room ≠ room) :
    InMatch (msgs ++ [msg]) room ↔ InMatch msgs room := by
  unfold InMatch
  rw [History.holder_concat_of_none
    (runs_eq_none (fun h => absurd h hOther))]

theorem runningRooms_start
    (hEvent : msg.event = .matchStart) :
    runningRooms (msgs ++ [msg]) =
      insert msg.room (runningRooms msgs) := by
  ext room
  rw [Finset.mem_insert, mem_runningRooms, mem_runningRooms]
  by_cases hRoom : msg.room = room
  · subst hRoom
    unfold InMatch
    rw [History.holder_concat_of_some (runs_start hEvent)]
    simp
  · rw [inMatch_concat_of_ne hRoom]
    simp [Ne.symm hRoom]

theorem runningRooms_end
    (hEvent : msg.event = .matchEnd) :
    runningRooms (msgs ++ [msg]) =
      (runningRooms msgs).erase msg.room := by
  ext room
  rw [Finset.mem_erase, mem_runningRooms, mem_runningRooms]
  by_cases hRoom : msg.room = room
  · subst hRoom
    unfold InMatch
    rw [History.holder_concat_of_some (runs_end hEvent)]
    simp
  · rw [inMatch_concat_of_ne hRoom]
    simp [Ne.symm hRoom]

theorem runningRooms_other
    (hStart : msg.event ≠ .matchStart)
    (hEnd : msg.event ≠ .matchEnd) :
    runningRooms (msgs ++ [msg]) = runningRooms msgs := by
  ext room
  rw [mem_runningRooms, mem_runningRooms]
  unfold InMatch
  rw [History.holder_concat_of_none
    (runs_eq_none (fun _ => ⟨hStart, hEnd⟩))]

/- An insertion counts when the element is new. -/
theorem card_insert_iff
    {κ : Type}
    [DecidableEq κ]
    (k : κ)
    (ks : Finset κ) :
    (ks.card : Int) + 1 = ((insert k ks).card : Int) ↔
      k ∉ ks := by
  by_cases hMem : k ∈ ks
  · rw [Finset.insert_eq_of_mem hMem]
    simp only [hMem, not_true_eq_false, iff_false]
    omega
  · simp [hMem]

/- From a right gauge, the next is right under the condition. -/
theorem activeMatches_concat_iff
    (hBefore :
      (consumeTelemetry msgs).activeMatches =
        ((runningRooms msgs).card : Int)) :
    (consumeTelemetry (msgs ++ [msg])).activeMatches =
        ((runningRooms (msgs ++ [msg])).card : Int) ↔
      CountsRight msgs msg := by
  rw [consumeTelemetry_concat, handle_activeMatches, hBefore]
  unfold CountsRight
  by_cases hStart : msg.event = .matchStart
  · rw [if_pos hStart, runningRooms_start hStart,
      card_insert_iff]
    simp [hStart]
  · rw [if_neg hStart]
    by_cases hEnd : msg.event = .matchEnd
    · rw [if_pos hEnd, runningRooms_end hEnd, eq_comm,
        Int.natCast_eq_zero, Finset.card_eq_zero,
        Finset.erase_eq_empty_iff, ← Finset.subset_singleton_iff]
      simp [hEnd]
    · rw [if_neg hEnd, runningRooms_other hStart hEnd]
      simp [hStart, hEnd]

end Analytics

------------------------------------------------------------
-- All Messages
------------------------------------------------------------

namespace Analytics

theorem gaugeCounts_concat
    {msgs : List Message}
    {msg : Message} :
    GaugeCounts (msgs ++ [msg]) ↔
      GaugeCounts msgs ∧ CountsRight msgs msg := by
  constructor
  · intro hCounts
    have hBefore : GaugeCounts msgs := fun before hPrefix =>
      hCounts before (hPrefix.trans (List.prefix_append _ _))
    exact
      ⟨hBefore,
        (activeMatches_concat_iff
          (hBefore msgs (List.prefix_refl _))).mp
            (hCounts _ (List.prefix_refl _))⟩
  · rintro ⟨hBefore, hRight⟩ before hPrefix
    rcases List.prefix_concat_iff.mp hPrefix with
      rfl | hShorter
    · exact
        (activeMatches_concat_iff
          (hBefore msgs (List.prefix_refl _))).mpr hRight
    · exact hBefore before hShorter

/-
  The gauge is the number of rooms in a match after each
  message exactly when no room starts within a match and no
  match ends while another room is in one.
-/
theorem gauge_iff (msgs : List Message) :
    GaugeCounts msgs ↔ History.AtEach CountsRight msgs := by
  induction msgs using List.reverseRecOn with
  | nil =>
      refine iff_of_true ?_ (History.atEach_nil _)
      intro before hPrefix
      rw [List.prefix_nil.mp hPrefix]
      rfl
  | append_singleton msgs msg ih =>
      rw [gaugeCounts_concat, History.atEach_concat_iff, ih]

/- A match event of a room. -/
def matchEvent (room : String) (event : Event) : Message where
  room := room
  event := event
  time := 0

/- One of two matches ends. -/
def twoRooms : List Message :=
  [matchEvent "arena" .matchStart,
    matchEvent "keep" .matchStart,
    matchEvent "arena" .matchEnd]

/- The room of a running match is taken over. -/
def takenOver : List Message :=
  [matchEvent "arena" .matchStart,
    matchEvent "arena" .matchStart]

/- No match is counted, then two of one. -/
theorem gauge_miscounts :
    ¬ GaugeCounts twoRooms ∧ ¬ GaugeCounts takenOver := by
  constructor
  · intro hCounts
    exact
      absurd (hCounts twoRooms (List.prefix_refl _))
        (by decide)
  · intro hCounts
    exact
      absurd (hCounts takenOver (List.prefix_refl _))
        (by decide)

end Analytics
