import MultiplayerInfra.Leaderboard.Statistics
import MultiplayerInfra.Room.Matches

/-
  Rating the matches of a room: how often a match ends in
  `match.lifecycle`, and how often it is rated.

  Key definitions include:
    * `Room.RatingOk`
    * `Room.MayEnd`
    * `Room.EndsOnce`
    * `Room.Rated`
    * `Room.Counts`
    * `Room.RatedOnce`

  Key theorems include:
    * `Room.mayEnd_of_awaits`
    * `Room.endsOnce_step`
    * `Room.match_rated_once`
    * `Room.match_rated_twice`

  A replica that loads the state of a match takes a new start
  time.  A match that ended before its keys were deleted then
  ends again, under another key.  A replica that finds no
  state in Redis replays the whole topic, and with it the
  players of the matches before.
-/

------------------------------------------------------------
-- Ending a Match
------------------------------------------------------------

namespace Room

open Py GameRoom

variable {α : Type}

/- The awaits of `end_match` after its flag was set. -/
def InEnd : Await α → Prop
| .closingSockets => True
| .publishingEnd _ _ => True
| .publishingEndTelemetry _ => True
| .savingMatch _ _ _ => True
| .retryingSave _ _ => True
| _ => False

/- A task that may still publish the end of its match. -/
def MayEnd (g : GameLoop α) : Await α → Prop
| .closingSockets => True
| .publishingEnd _ kept => kept = false
| .publishingEndTelemetry _ => False
| .savingMatch _ _ _ => False
| .retryingSave _ _ => False
| .returned => False
| _ => g.matchEnded = false

/- After `end_match` the loop does not end its match again. -/
theorem not_mayEnd_sleeping
    {g : GameLoop α}
    (hFlag : g.matchEnded = true) :
    ¬ MayEnd g .sleeping := by
  intro hEnd
  have hUnset : g.matchEnded = false := hEnd
  rw [hFlag] at hUnset
  cases hUnset

variable [PyNumber α]

/- The loop head does not touch the flag. -/
theorem end_loopHead
    {g g' : GameLoop α}
    {aw : Await α}
    (hHead : loopHead g = (g', aw)) :
    ¬ InEnd aw ∧
      (MayEnd g' aw → g.matchEnded = false) := by
  cases heads_loopHead hHead with
  | publish hRunning _ =>
      exact ⟨id, fun _ => hRunning.2⟩
  | pause hRunning _ =>
      exact ⟨id, fun _ => hRunning.2⟩
  | finish _ => exact ⟨id, False.elim⟩

/-
  One step of the run task: `end_match` keeps its flag set,
  and a task that may end the match afterwards could do so
  before and has not published the end in this step.
-/
theorem mayEnd_of_awaits
    {producer : Nat}
    {st st' : Stores α}
    {g g' : GameLoop α}
    {aw aw' : Await α}
    {r : Reply}
    (hStep : Awaits producer st g aw r st' g' aw')
    (hEnded : InEnd aw → g.matchEnded = true) :
    (InEnd aw' → g'.matchEnded = true) ∧
      (MayEnd g' aw' →
        MayEnd g aw ∧ st'.lifecycle = st.lifecycle) := by
  cases hStep with
  | head hResumes =>
      rcases hHead : loopHead g with ⟨g₁, aw₁⟩
      rcases end_loopHead hHead with ⟨hNot, hMay⟩
      refine ⟨fun hIn => absurd hIn hNot, ?_⟩
      intro hEnd
      cases hResumes with
      | starting => exact ⟨hMay hEnd, rfl⟩
      | sleeping => exact ⟨hMay hEnd, rfl⟩
  | appendEvent => exact ⟨False.elim, fun hEnd => ⟨hEnd, rfl⟩⟩
  | commit => exact ⟨False.elim, fun hEnd => ⟨hEnd, rfl⟩⟩
  | dropTick => exact ⟨False.elim, fun hEnd => ⟨hEnd, rfl⟩⟩
  | redisEffect =>
      exact ⟨False.elim, fun hEnd => ⟨hEnd, rfl⟩⟩
  | redisNext _ =>
      exact ⟨False.elim, fun hEnd => ⟨hEnd, rfl⟩⟩
  | redisDone _ =>
      unfold finishTick
      split
      · rename_i hEnd
        exact ⟨fun _ => rfl, fun _ => ⟨hEnd.2, rfl⟩⟩
      · exact ⟨False.elim, fun hEnd => ⟨hEnd, rfl⟩⟩
  | redisFail => exact ⟨False.elim, fun hEnd => ⟨hEnd, rfl⟩⟩
  | farewell =>
      exact
        ⟨fun _ => hEnded trivial, fun _ => ⟨trivial, rfl⟩⟩
  | appendEnd =>
      refine ⟨fun _ => hEnded trivial, ?_⟩
      intro hEnd
      cases hEnd
  | endPublished =>
      exact ⟨fun _ => hEnded trivial, False.elim⟩
  | endTelemetry =>
      have hFlag := hEnded trivial
      unfold writeMatchRecord
      split
      · exact
          ⟨False.elim, fun hEnd =>
            absurd hEnd (not_mayEnd_sleeping hFlag)⟩
      · exact ⟨fun _ => hFlag, False.elim⟩
  | saveEffect => exact ⟨fun _ => hEnded trivial, False.elim⟩
  | saved =>
      have hFlag := hEnded trivial
      exact
        ⟨False.elim, fun hEnd =>
          absurd hEnd (not_mayEnd_sleeping hFlag)⟩
  | saveFailed =>
      exact ⟨fun _ => hEnded trivial, False.elim⟩
  | retry =>
      have hFlag := hEnded trivial
      unfold retrySave
      split
      · exact ⟨fun _ => hFlag, False.elim⟩
      · exact
          ⟨False.elim, fun hEnd =>
            absurd hEnd (not_mayEnd_sleeping hFlag)⟩

/- Players do not end a match. -/
theorem Plays.matchEnded
    {g g' : GameLoop α}
    (hPlays : Plays g g') :
    g'.matchEnded = g.matchEnded := by
  cases hPlays with
  | input playerId inputData => rfl
  | join playerId hold =>
      unfold GameLoop.addPlayer
      split
      · rfl
      · split <;> rfl
  | leave playerId =>
      unfold GameLoop.removePlayer
      split <;> rfl

/- So they do not change whether a task may end it. -/
theorem Plays.mayEnd
    {g g' : GameLoop α}
    (hPlays : Plays g g')
    {aw : Await α}
    (hMay : MayEnd g' aw) :
    MayEnd g aw := by
  have hFlag := hPlays.matchEnded
  cases aw <;>
    first
      | exact hMay
      | exact hFlag.symm.trans hMay

end Room

------------------------------------------------------------
-- One End for Each Match
------------------------------------------------------------

namespace Room

open Py GameRoom

variable {α : Type}

/- The matches whose end is in `match.lifecycle`. -/
def State.ended (room : State α) : List Nat :=
  room.stores.lifecycle.map LifecycleEntry.producer

/-
  No takeover resumes a match that has already ended, and one
  without state in Redis finds events of that match only.
-/
def RatingOk (room : State α) : Act α → Prop
| .takeover _ _ _ =>
    room.resumed ∉ room.ended ∧
      (room.warm = true ∨
        ∀ entry ∈ room.stores.events,
          entry.producer = room.resumed)
| _ => True

instance
    (room : State α) :
    (act : Act α) → Decidable (RatingOk room act)
| .takeover _ _ _ =>
    inferInstanceAs (Decidable
      (room.resumed ∉ room.ended ∧
        (room.warm = true ∨
          ∀ entry ∈ room.stores.events,
            entry.producer = room.resumed)))
| .resume _ => inferInstanceAs (Decidable True)
| .check _ => inferInstanceAs (Decidable True)
| .delete _ => inferInstanceAs (Decidable True)
| .input _ _ => inferInstanceAs (Decidable True)
| .join _ _ => inferInstanceAs (Decidable True)
| .leave _ => inferInstanceAs (Decidable True)
| .crash => inferInstanceAs (Decidable True)
| .evict _ => inferInstanceAs (Decidable True)
| .service _ => inferInstanceAs (Decidable True)

/-
  Every match has at most one end in the topic, and none if
  the leader may still publish it.
-/
structure EndsOnce (room : State α) : Prop where
  tagged : Tagged room
  once : room.ended.Nodup
  inEnd :
    ∀ g matchNo aw,
      room.leader = some ⟨g, matchNo, .inRun aw⟩ →
        InEnd aw → g.matchEnded = true
  mayEnd :
    ∀ g matchNo aw,
      room.leader = some ⟨g, matchNo, .inRun aw⟩ →
        MayEnd g aw → matchNo ∉ room.ended

/- While nobody is in `run`, nothing can be published. -/
theorem endsOnce_of_idle
    {room : State α}
    (hTagged : Tagged room)
    (hOnce : room.ended.Nodup)
    (hIdle :
      ∀ g matchNo aw,
        room.leader ≠ some ⟨g, matchNo, .inRun aw⟩) :
    EndsOnce room := by
  refine ⟨hTagged, hOnce, ?_, ?_⟩
  · intro g matchNo aw hLeader
    exact absurd hLeader (hIdle g matchNo aw)
  · intro g matchNo aw hLeader
    exact absurd hLeader (hIdle g matchNo aw)

theorem endsOnce_empty :
    EndsOnce (State.empty : State α) := by
  apply endsOnce_of_idle tagged_empty List.nodup_nil
  intro g matchNo aw hLeader
  cases hLeader

variable [PyNumber α]

/- The topic only grows. -/
theorem lifecycle_step
    {settings : Settings}
    {interval : Nat}
    {matchId : String}
    {room room' : State α}
    {act : Act α}
    (hStep :
      step settings interval matchId room act =
        some room') :
    room.stores.lifecycle ⊆ room'.stores.lifecycle := by
  cases steps_of_step hStep with
  | resume hLeader hAwaits =>
      rcases lifecycle_of_awaits hAwaits with
        hSame | ⟨event, _, _, _, hNew⟩
      · rw [hSame]
        exact List.Subset.refl _
      · rw [hNew]
        exact List.subset_append_left _ _
  | _ => exact List.Subset.refl _

/- Every admitted step keeps one end for each match. -/
theorem endsOnce_step
    {settings : Settings}
    {interval : Nat}
    {matchId : String}
    {room room' : State α}
    {act : Act α}
    (hEnds : EndsOnce room)
    (hOk : RatingOk room act)
    (hStep :
      step settings interval matchId room act =
        some room') :
    EndsOnce room' := by
  have hTagged := tagged_step hEnds.tagged hStep
  rcases hEnds with ⟨hOld, hOnce, hInEnd, hMayEnd⟩
  cases steps_of_step hStep with
  | takeover hLeader hLoad =>
      refine ⟨hTagged, hOnce, ?_, ?_⟩
      · intro g matchNo aw hEq hIn
        cases hEq
        exact hIn.elim
      · intro g matchNo aw hEq _
        cases hEq
        exact hOk.1
  | @resume g g' matchNo aw aw' r stores hLeader hAwaits =>
      have hFlag := hInEnd _ _ _ hLeader
      rcases mayEnd_of_awaits hAwaits hFlag with
        ⟨hIn', hMay'⟩
      refine ⟨hTagged, ?_, ?_, ?_⟩
      · rcases lifecycle_of_awaits hAwaits with
          hSame | ⟨event, hAwait, _, _, hNew⟩
        · simp only [State.ended, hSame]
          exact hOnce
        · subst hAwait
          have hFresh := hMayEnd _ _ _ hLeader rfl
          simp only [State.ended, hNew, List.map_append,
            List.map_singleton]
          exact
            List.nodup_append.mpr
              ⟨hOnce, List.nodup_singleton _, by
                intro m hMem m' hLast hEq
                rw [List.mem_singleton.mp hLast] at hEq
                rw [hEq] at hMem
                exact hFresh hMem⟩
      · intro g₁ matchNo₁ aw₁ hEq
        cases hEq
        exact hIn'
      · intro g₁ matchNo₁ aw₁ hEq hMay
        cases hEq
        rcases hMay' hMay with ⟨hBefore, hSame⟩
        simp only [State.ended, hSame]
        exact hMayEnd _ _ _ hLeader hBefore
  | @check g matchNo isLeader hLeader =>
      apply endsOnce_of_idle hTagged hOnce
      intro g₁ matchNo₁ aw hEq
      cases isLeader <;> cases hEq
  | deleteKeys hLeader =>
      apply endsOnce_of_idle hTagged hOnce
      intro g₁ matchNo₁ aw hEq
      cases hEq
  | reset hLeader =>
      refine ⟨hTagged, hOnce, ?_, ?_⟩
      · intro g₁ matchNo₁ aw hEq hIn
        cases hEq
        exact hIn.elim
      · intro g₁ matchNo₁ aw hEq _ hMem
        cases hEq
        rcases List.mem_map.mp hMem with
          ⟨entry, hEntry, hNo⟩
        have hLe := hOld.lifecycle entry hEntry
        omega
  | deleteFail hLeader =>
      apply endsOnce_of_idle hTagged hOnce
      intro g₁ matchNo₁ aw hEq
      cases hEq
  | @play act ld g hLeader hPlays =>
      rcases ld with ⟨g₀, matchNo₀, task⟩
      refine ⟨hTagged, hOnce, ?_, ?_⟩
      · intro g₁ matchNo₁ aw hEq hIn
        cases hEq
        rw [hPlays.matchEnded]
        exact hInEnd _ _ _ hLeader hIn
      · intro g₁ matchNo₁ aw hEq hMay
        cases hEq
        exact hMayEnd _ _ _ hLeader (hPlays.mayEnd hMay)
  | crash =>
      apply endsOnce_of_idle hTagged hOnce
      intro g₁ matchNo₁ aw hEq
      cases hEq
  | evict => exact ⟨hTagged, hOnce, hInEnd, hMayEnd⟩
  | service hService =>
      exact ⟨hTagged, hOnce, hInEnd, hMayEnd⟩

end Room

------------------------------------------------------------
-- The Room and the Leaderboard
------------------------------------------------------------

namespace Room

open Py GameRoom Leaderboard

/- A room with the leaderboard that reads its topic. -/
structure Rated (α β : Type) where
  room : State α
  board : Board β
  -- the match of every message that was answered "applied"
  applied : List Nat
  -- the rows that these transactions updated, by match
  updated : List (Nat × String)

inductive RatedAct (α : Type) where
  | room (act : Act α)
  -- the message at an offset is handled, again or not
  | deliver (offset : Nat)

variable {α β : Type}

def Rated.start
    (players : Dict String (PlayerRow β)) :
    Rated α β where
  room := State.empty
  board := { processed := [], players := players }
  applied := []
  updated := []

/- The steps of the room meet `RatingOk`. -/
def RatedOk (s : Rated α β) : RatedAct α → Prop
| .room act => RatingOk s.room act
| .deliver _ => True

instance
    (s : Rated α β) :
    (act : RatedAct α) → Decidable (RatedOk s act)
| .room act => inferInstanceAs (Decidable (RatingOk s.room act))
| .deliver _ => inferInstanceAs (Decidable True)

variable [RatingNumber β]

omit [RatingNumber β] in
/- The players of a match who have a row. -/
def rowsOf
    (board : Board β)
    (event : MatchEnd) :
    List String :=
  event.players.dedup.filter
    (fun pid => (board.players.get? pid).isSome)

/- The transaction for a message of the topic. -/
def Rated.deliver
    (s : Rated α β)
    (entry : LifecycleEntry) :
    Rated α β :=
  if (applyMatch s.board entry.event).2 = .applied then
    { s with
      board := (applyMatch s.board entry.event).1
      applied := s.applied ++ [entry.producer]
      updated :=
        s.updated ++
          (rowsOf s.board entry.event).map
            (fun pid => (entry.producer, pid)) }
  else
    { s with board := (applyMatch s.board entry.event).1 }

/-
  Messages may be delivered in any order and any number of
  times; a transaction that rolls back is no step.
-/
def ratedStep
    [PyNumber α]
    (settings : Settings)
    (interval : Nat)
    (matchId : String)
    (s : Rated α β) :
    RatedAct α → Option (Rated α β)
| .room act =>
    (step settings interval matchId s.room act).map
      (fun room => { s with room := room })
| .deliver offset =>
    (s.room.stores.lifecycle[offset]?).map s.deliver

/- The matches that updated the row of a player. -/
def Rated.matchesOf
    (s : Rated α β)
    (pid : String) :
    List Nat :=
  (s.updated.filter (fun u => u.2 = pid)).map Prod.fst

/-
  What a row may have become: it has counted the matches that
  updated it, and without any it is as it was.
-/
structure Counts
    (row : PlayerRow β)
    (counted : List Nat)
    (row' : PlayerRow β) : Prop where
  total :
    row'.totalMatches = row.totalMatches + counted.length
  decided :
    row'.wins + row'.losses =
      row.wins + row.losses + counted.length
  same : counted = [] → row' = row

/-
  Every match is rated at most once: its messages have one
  key, once it is rated they are all duplicates, and the row
  of a player has changed by one update of each match at
  most.
-/
structure RatedOnce
    (players : Dict String (PlayerRow β))
    (s : Rated α β) : Prop where
  once : ∀ matchNo, s.applied.count matchNo ≤ 1
  updates : ∀ pid, (s.matchesOf pid).Nodup
  rows :
    ∀ pid row,
      players.get? pid = some row →
        ∃ row',
          s.board.players.get? pid = some row' ∧
            Counts row (s.matchesOf pid) row'
  sameKey :
    ∀ entry ∈ s.room.stores.lifecycle,
      ∀ entry' ∈ s.room.stores.lifecycle,
        entry.producer = entry'.producer →
          matchKey entry.event = matchKey entry'.event
  duplicate :
    ∀ entry ∈ s.room.stores.lifecycle,
      entry.producer ∈ s.applied →
        applyMatch s.board entry.event =
          (s.board, .duplicate)

/- The matches that were rated have their key recorded. -/
structure RatingTracked
    (players : Dict String (PlayerRow β))
    (s : Rated α β) : Prop where
  room : EndsOnce s.room
  applied : s.applied.Nodup
  recorded :
    ∀ matchNo ∈ s.applied,
      ∃ entry ∈ s.room.stores.lifecycle,
        entry.producer = matchNo ∧
          matchKey entry.event ∈ s.board.processed
  updates : ∀ pid, (s.matchesOf pid).Sublist s.applied
  rows :
    ∀ pid row,
      players.get? pid = some row →
        ∃ row',
          s.board.players.get? pid = some row' ∧
            Counts row (s.matchesOf pid) row'

/- A match has one message, which the match determines. -/
theorem EndsOnce.unique
    {room : State α}
    (hEnds : EndsOnce room)
    {entry entry' : LifecycleEntry}
    (hEntry : entry ∈ room.stores.lifecycle)
    (hEntry' : entry' ∈ room.stores.lifecycle)
    (hSame : entry.producer = entry'.producer) :
    entry = entry' :=
  List.inj_on_of_nodup_map hEnds.once hEntry hEntry' hSame

omit [RatingNumber β] in
/- The message of a rated match is a processed one. -/
theorem RatingTracked.processed
    {players : Dict String (PlayerRow β)}
    {s : Rated α β}
    (hTracked : RatingTracked players s)
    {entry : LifecycleEntry}
    (hEntry : entry ∈ s.room.stores.lifecycle)
    (hApplied : entry.producer ∈ s.applied) :
    matchKey entry.event ∈ s.board.processed := by
  rcases hTracked.recorded _ hApplied with
    ⟨entry', hEntry', hSame, hKey⟩
  rw [hTracked.room.unique hEntry hEntry' hSame.symm]
  exact hKey

/- What is tracked gives the property. -/
theorem RatingTracked.ratedOnce
    {players : Dict String (PlayerRow β)}
    {s : Rated α β}
    (hTracked : RatingTracked players s) :
    RatedOnce players s := by
  refine ⟨?_, ?_, hTracked.rows, ?_, ?_⟩
  · intro matchNo
    exact List.nodup_iff_count_le_one.mp hTracked.applied _
  · intro pid
    exact (hTracked.updates pid).nodup hTracked.applied
  · intro entry hEntry entry' hEntry' hSame
    rw [hTracked.room.unique hEntry hEntry' hSame]
  · intro entry hEntry hApplied
    exact
      applyMatch_of_mem
        (hTracked.processed hEntry hApplied)

omit [RatingNumber β] in
/- A match updates the row of a player once, if at all. -/
theorem matchesOf_rowsOf
    (board : Board β)
    (event : MatchEnd)
    (matchNo : Nat)
    (pid : String) :
    (((rowsOf board event).map
          (fun p => (matchNo, p))).filter
        (fun u => u.2 = pid)).map Prod.fst =
      if pid ∈ event.players ∧
          (board.players.get? pid).isSome then
        [matchNo]
      else [] := by
  have hNodup : (rowsOf board event).Nodup :=
    (List.nodup_dedup event.players).filter _
  have hPick :
      ((rowsOf board event).filter
          (fun p => decide (p = pid))) =
        if pid ∈ rowsOf board event then [pid] else [] := by
    rw [List.filter_eq, hNodup.count]
    split <;> rfl
  rw [List.filter_map, List.map_map]
  simp only [Function.comp_def]
  rw [hPick]
  simp only [rowsOf, List.mem_filter, List.mem_dedup]
  split <;> rfl

/- The row has counted one more match. -/
theorem Counts.concat
    {row row' : PlayerRow β}
    {counted : List Nat}
    (hCounts : Counts row counted row')
    (outcome : Outcome)
    (ratings : Dict String Int)
    (pid : String)
    (matchNo : Nat) :
    Counts row (counted ++ [matchNo])
      (updatedRow outcome ratings pid row') := by
  have hTotal := hCounts.total
  have hDecided := hCounts.decided
  refine ⟨?_, ?_, ?_⟩
  · simp only [updatedRow, List.length_append,
      List.length_singleton]
    omega
  · simp only [updatedRow, List.length_append,
      List.length_singleton]
    split <;> omega
  · intro hNil
    simp at hNil

/- A delivery applies a match that was not rated before. -/
theorem ratingTracked_deliver
    {players : Dict String (PlayerRow β)}
    {s : Rated α β}
    (hTracked : RatingTracked players s)
    {entry : LifecycleEntry}
    (hEntry : entry ∈ s.room.stores.lifecycle) :
    RatingTracked players (s.deliver entry) := by
  by_cases hKey :
      matchKey entry.event ∈ s.board.processed
  · have hSame : s.deliver entry = s := by
      simp [Rated.deliver, applyMatch_of_mem hKey]
    rw [hSame]
    exact hTracked
  · rcases applyMatch_of_not_mem hKey with
      ⟨hAnswer, hProcessed⟩
    have hNew : entry.producer ∉ s.applied := fun hApplied =>
      hKey (hTracked.processed hEntry hApplied)
    have hMatches :
        ∀ pid,
          (s.deliver entry).matchesOf pid =
            s.matchesOf pid ++
              if pid ∈ entry.event.players ∧
                  (s.board.players.get? pid).isSome then
                [entry.producer]
              else [] := by
      intro pid
      rw [← matchesOf_rowsOf s.board entry.event]
      simp [Rated.deliver, Rated.matchesOf, hAnswer]
    refine ⟨?_, ?_, ?_, ?_, ?_⟩
    · simp only [Rated.deliver, hAnswer, if_true]
      exact hTracked.room
    · simp only [Rated.deliver, hAnswer, if_true]
      exact
        List.nodup_append.mpr
          ⟨hTracked.applied, List.nodup_singleton _, by
            intro m hMem m' hLast hEq
            rw [List.mem_singleton.mp hLast] at hEq
            rw [hEq] at hMem
            exact hNew hMem⟩
    · simp only [Rated.deliver, hAnswer, if_true, hProcessed]
      intro matchNo hMem
      rcases List.mem_append.mp hMem with hOld | hLast
      · rcases hTracked.recorded matchNo hOld with
          ⟨entry', hEntry', hSame, hOldKey⟩
        exact
          ⟨entry', hEntry', hSame,
            List.mem_append_left _ hOldKey⟩
      · rw [List.mem_singleton.mp hLast]
        exact ⟨entry, hEntry, rfl, by simp⟩
    · intro pid
      rw [hMatches pid]
      simp only [Rated.deliver, hAnswer, if_true]
      apply (hTracked.updates pid).append
      split
      · exact List.Sublist.refl _
      · exact List.nil_sublist _
    · intro pid row hStart
      rcases hTracked.rows pid row hStart with
        ⟨row', hGet, hCounts⟩
      rcases get?_rate s.board entry.event pid with
        ⟨ratings, hRate⟩
      have hBoard :
          (s.deliver entry).board.players =
            rate s.board entry.event := by
        simp [Rated.deliver, applyMatch, hKey]
      rw [hMatches pid, hBoard, hRate, hGet]
      by_cases hPlays : pid ∈ entry.event.players
      · refine
          ⟨updatedRow entry.event.outcome ratings pid row',
            by simp [hPlays], ?_⟩
        simp only [hPlays, Option.isSome_some, and_self,
          if_true]
        exact hCounts.concat _ _ _ _
      · simp only [hPlays, false_and, if_false,
          List.append_nil]
        exact ⟨row', rfl, hCounts⟩

variable [PyNumber α]

/- Every admitted step keeps the ratings tracked. -/
theorem ratingTracked_step
    {settings : Settings}
    {interval : Nat}
    {matchId : String}
    {players : Dict String (PlayerRow β)}
    {s s' : Rated α β}
    {act : RatedAct α}
    (hTracked : RatingTracked players s)
    (hOk : RatedOk s act)
    (hStep :
      ratedStep settings interval matchId s act = some s') :
    RatingTracked players s' := by
  cases act with
  | room act =>
      rcases Option.map_eq_some_iff.mp hStep with
        ⟨room, hRoom, rfl⟩
      refine
        ⟨endsOnce_step hTracked.room hOk hRoom,
          hTracked.applied, ?_, hTracked.updates,
          hTracked.rows⟩
      intro matchNo hMem
      rcases hTracked.recorded matchNo hMem with
        ⟨entry, hEntry, hRest⟩
      exact ⟨entry, lifecycle_step hRoom hEntry, hRest⟩
  | deliver offset =>
      rcases Option.map_eq_some_iff.mp hStep with
        ⟨entry, hAt, rfl⟩
      exact
        ratingTracked_deliver hTracked
          (List.mem_of_getElem? hAt)

end Room

------------------------------------------------------------
-- Rating Once
------------------------------------------------------------

namespace Room

open Py GameRoom Leaderboard Machine

variable {α β : Type} [PyNumber α] [RatingNumber β]

/-
  In every run in which no takeover resumes a match that has
  already ended, or mixes the events of several matches,
  every match changes the row of each of its players at most
  once, however its messages are delivered.
-/
theorem match_rated_once
    {settings : Settings}
    {interval : Nat}
    {matchId : String}
    {players : Dict String (PlayerRow β)}
    {s : Rated α β}
    (hRun :
      Reaches (ratedStep settings interval matchId) RatedOk
        (Rated.start players) s) :
    RatedOnce players s := by
  have hTracked : RatingTracked players s := by
    apply hRun.invariant
    · refine
        ⟨endsOnce_empty, List.nodup_nil, ?_,
          fun _ => List.Sublist.refl _, ?_⟩
      · intro matchNo hMem
        cases hMem
      · intro pid row hRow
        exact ⟨row, hRow, rfl, rfl, fun _ => rfl⟩
    · intro t u act hOld hOk hStep
      exact ratingTracked_step hOld hOk hStep
  exact hTracked.ratedOnce

/- One player with no matches yet. -/
def newcomer : Dict String (PlayerRow Rat) :=
  Dict.empty.set "ann" ⟨1200, 0, 0, 0, 0⟩

/- A match is played and its message delivered twice. -/
def redelivered : Rated Int Rat :=
  final (ratedStep ⟨1, 1⟩ 300 "room") (Rated.start newcomer)
    (oneMatch.map .room ++ [.deliver 0, .deliver 0])
    (by decide)

theorem match_rated_once_redelivered :
    redelivered.applied = [0] ∧
      redelivered.updated = [(0, "ann")] ∧
        RatedOnce newcomer redelivered :=
  ⟨by decide, by decide,
    match_rated_once
      (reaches_of_run (run_eq_final (by decide))
        (by decide))⟩

/-
  The leader crashes after the match record was saved and
  before the keys in Redis are deleted; the next leader
  resumes the ended match at time 200 and ends it again.
-/
def endedAgain : List (Act Int) :=
  oneMatch.take 25 ++
    [.crash, .takeover 200 true [], .resume (.ok 201),
      .resume .effect, .resume (.ok 202), .resume .effect,
      .resume (.ok 203), .resume .effect, .resume (.ok 204),
      .resume .effect, .resume (.ok 205), .resume .effect,
      .resume (.ok 206), .resume .effect, .resume (.ok 207),
      .resume .effect, .resume (.ok 208), .resume (.ok 209),
      .resume .effect]

def endedTwice : Rated Int Rat :=
  final (ratedStep ⟨1, 1⟩ 300 "room") (Rated.start newcomer)
    (endedAgain.map .room ++ [.deliver 0, .deliver 1])
    (by decide)

theorem match_rated_twice :
    Reachable (ratedStep ⟨1, 1⟩ 300 "room")
        (Rated.start newcomer) endedTwice ∧
      (endedTwice.board.players.get? "ann").map
          PlayerRow.totalMatches = some 2 ∧
      ¬ RatedOnce newcomer endedTwice := by
  refine
    ⟨reachable_of_run (run_eq_final (by decide)),
      by decide, ?_⟩
  intro hOnce
  have hUpdates := hOnce.updates "ann"
  revert hUpdates
  decide

end Room
