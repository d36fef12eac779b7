import Mathlib.Data.List.Dedup
import Mathlib.Data.List.Induction
import Mathlib.Data.List.Perm.Basic
import MultiplayerInfra.Leaderboard.Db

/-
  The statistics of a player after any deliveries of
  `match.end` messages.

  Key definitions include:
    * `Leaderboard.Delivery`
    * `Leaderboard.deliverAll`
    * `Leaderboard.committed`
    * `Leaderboard.ExactNumber`
    * `Leaderboard.Tally`

  Key theorems include:
    * `Leaderboard.get?_rate`
    * `Leaderboard.applied_deliverAll`
    * `Leaderboard.statistics_exactly_once`

  The counters of a row and its running mean follow the list
  of the matches that were applied, in whatever order.
-/

------------------------------------------------------------
-- Exact Averages
------------------------------------------------------------

namespace Leaderboard

open RatingNumber

/-
  The laws of exact arithmetic on which a running mean
  depends; floats obey them up to rounding.
-/
structure ExactNumber
    (β : Type)
    [RatingNumber β] : Prop where
  mul_zero : ∀ x : β, mul x (ofInt 0) = ofInt 0
  add_ofInt :
    ∀ m n : Int,
      add (ofInt m) (ofInt n) = (ofInt (m + n) : β)
  div_mul :
    ∀ (x : β) (n : Nat),
      mul (div x (ofInt (n + 1))) (ofInt (n + 1)) = x
  cancel :
    ∀ (x y : β) (n : Nat),
      mul x (ofInt (n + 1)) = mul y (ofInt (n + 1)) → x = y

theorem exactNumber_rat : ExactNumber Rat where
  mul_zero x := by
    show x * ((0 : Int) : Rat) = ((0 : Int) : Rat)
    simp
  add_ofInt m n := by
    show (m : Rat) + (n : Rat) = ((m + n : Int) : Rat)
    simp
  div_mul x n := by
    show x / (((n : Int) + 1 : Int) : Rat) *
        (((n : Int) + 1 : Int) : Rat) = x
    apply div_mul_cancel₀
    exact_mod_cast Nat.succ_ne_zero n
  cancel x y n hEq := by
    apply mul_right_cancel₀ (b := ((n + 1 : Nat) : Rat))
    · exact_mod_cast Nat.succ_ne_zero n
    · exact_mod_cast hEq

/- The total behind the mean grows by the new score. -/
theorem ExactNumber.mul_newAverage
    {β : Type} [RatingNumber β]
    (hExact : ExactNumber β)
    {oldAvg : β}
    {oldTotal : Nat}
    {sum : Int}
    (hOld : mul oldAvg (ofInt oldTotal) = ofInt sum)
    (score : Int) :
    mul (newAverage oldAvg oldTotal score)
        (ofInt (oldTotal + 1)) =
      ofInt (sum + score) := by
  rw [newAverage, hExact.div_mul, hOld, hExact.add_ofInt]

end Leaderboard

------------------------------------------------------------
-- The Rows of a Rated Match
------------------------------------------------------------

namespace Leaderboard

open Py GameRoom

variable {β : Type}

/- The selected rows are those of the listed players. -/
theorem get?_known
    (board : Board β)
    (playerIds : List String)
    (pid : String) :
    (known board playerIds).get? pid =
      if pid ∈ playerIds then board.players.get? pid
      else none := by
  have hFold :
      ∀ rows : Dict String (PlayerRow β),
        (playerIds.foldl
            (fun rows pid =>
              (board.players.get? pid).elim rows
                (rows.set pid))
            rows).get? pid =
          if pid ∈ playerIds then
            (board.players.get? pid).or (rows.get? pid)
          else rows.get? pid := by
    induction playerIds with
    | nil => simp
    | cons p playerIds ih =>
        intro rows
        rw [List.foldl_cons, ih]
        cases hRow : board.players.get? p with
        | none =>
            by_cases hSame : pid = p
            · subst hSame
              simp [hRow]
            · simp [hSame]
        | some row =>
            by_cases hSame : pid = p
            · subst hSame
              simp [hRow]
            · simp [hSame, Dict.get?_set]
  have hKnown :
      known board playerIds =
        playerIds.foldl
          (fun rows pid =>
            (board.players.get? pid).elim rows
              (rows.set pid))
          Dict.empty := by
    unfold known
    congr 1
    funext rows pid
    cases board.players.get? pid <;> rfl
  rw [hKnown, hFold Dict.empty]
  simp

variable [RatingNumber β]

/- A rated match updates the rows of its known players. -/
theorem get?_rate
    (board : Board β)
    (event : MatchEnd)
    (pid : String) :
    ∃ ratings : Dict String Int,
      (rate board event).get? pid =
        if pid ∈ event.players then
          (board.players.get? pid).map
            (updatedRow event.outcome ratings pid)
        else board.players.get? pid := by
  let rows :=
    known board
      (event.players.dedup.insertionSort (· ≤ ·))
  let ratings :=
    newRatings (rows.mapVals (fun _ row => row.eloRating))
      event.outcome.scores
      (RatingNumber.ofInt kFactor : β)
  refine ⟨ratings, ?_⟩
  have hFold :=
    Dict.get?_foldl_set
      (fun p _ row => updatedRow event.outcome ratings p row)
      board.players rows.nodup pid
  have hKnown : rows.entries.lookup pid = _ :=
    get?_known board _ pid
  rw [hKnown] at hFold
  refine Eq.trans hFold ?_
  by_cases hMem : pid ∈ event.players
  · simp only [List.mem_insertionSort, List.mem_dedup, hMem,
      if_true]
    cases board.players.get? pid <;> rfl
  · simp [hMem]

end Leaderboard

------------------------------------------------------------
-- Deliveries
------------------------------------------------------------

namespace Leaderboard

open Py GameRoom RatingNumber

/- A delivery, whose transaction commits or rolls back. -/
structure Delivery where
  event : MatchEnd
  commits : Bool

/- The events whose transaction committed, in order. -/
def committed (deliveries : List Delivery) : List MatchEnd :=
  (deliveries.filter Delivery.commits).map Delivery.event

/- Events under one key are the same event. -/
def KeysIdentify (events : List MatchEnd) : Prop :=
  ∀ e ∈ events, ∀ e' ∈ events,
    matchKey e = matchKey e' → e = e'

/- The events that list a player. -/
def playedBy
    (pid : String)
    (events : List MatchEnd) :
    List MatchEnd :=
  events.filter (fun e => pid ∈ e.players)

/- Those of them that the player has won. -/
def wonBy
    (pid : String)
    (events : List MatchEnd) :
    List MatchEnd :=
  (playedBy pid events).filter
    (fun e => e.outcome.winner = some pid)

/- `scores.get(pid, 0)`. -/
def scoreOf
    (pid : String)
    (event : MatchEnd) :
    Int :=
  (event.outcome.scores.get? pid).getD 0

variable {β : Type} [RatingNumber β]

/- A delivery, of a new match or of a duplicate. -/
def deliver
    (board : Board β)
    (d : Delivery) :
    Board β :=
  if d.commits then (applyMatch board d.event).1 else board

def deliverAll
    (board : Board β)
    (deliveries : List Delivery) :
    Board β :=
  deliveries.foldl deliver board

/- A row without any match. -/
structure PlayerRow.Unrated (row : PlayerRow β) : Prop where
  wins : row.wins = 0
  losses : row.losses = 0
  totalMatches : row.totalMatches = 0
  averageScore : row.averageScore = ofInt 0

/-
  A row that has counted each of these matches once.  In
  exact arithmetic its mean is that of the scores.
-/
structure Tally
    (pid : String)
    (events : List MatchEnd)
    (row : PlayerRow β) : Prop where
  total : row.totalMatches = (playedBy pid events).length
  wins : row.wins = (wonBy pid events).length
  losses : row.wins + row.losses = row.totalMatches
  average :
    ExactNumber β →
      mul row.averageScore (ofInt row.totalMatches) =
        ofInt ((playedBy pid events).map (scoreOf pid)).sum
  unplayed :
    row.totalMatches = 0 → row.averageScore = ofInt 0

/-
  The board after some deliveries, in terms of the distinct
  events that were applied.
-/
structure Applied
    (pid : String)
    (deliveries : List Delivery)
    (board : Board β)
    (events : List MatchEnd) : Prop where
  processed : board.processed = events.map matchKey
  nodup : (events.map matchKey).Nodup
  same : ∀ e, e ∈ events ↔ e ∈ committed deliveries
  row :
    ∃ row, board.players.get? pid = some row ∧
      Tally pid events row

end Leaderboard

------------------------------------------------------------
-- One Delivery
------------------------------------------------------------

namespace Leaderboard

open Py GameRoom RatingNumber

variable {β : Type} [RatingNumber β]
variable {pid : String} {events : List MatchEnd}

/- Nothing has been counted in an unrated row. -/
theorem tally_nil
    {row : PlayerRow β}
    (hUnrated : row.Unrated) :
    Tally pid [] row := by
  refine ⟨hUnrated.totalMatches, hUnrated.wins, ?_, ?_, ?_⟩
  · rw [hUnrated.wins, hUnrated.losses,
      hUnrated.totalMatches]
  · intro hExact
    rw [hUnrated.totalMatches]
    exact hExact.mul_zero _
  · exact fun _ => hUnrated.averageScore

/- A match of other players is not counted. -/
theorem Tally.concat_other
    {row : PlayerRow β}
    (hTally : Tally pid events row)
    {event : MatchEnd}
    (hNot : pid ∉ event.players) :
    Tally pid (events ++ [event]) row := by
  have hPlayed :
      playedBy pid (events ++ [event]) =
        playedBy pid events := by
    simp [playedBy, hNot]
  rcases hTally with
    ⟨hTotal, hWins, hLosses, hAverage, hUnplayed⟩
  refine ⟨?_, ?_, hLosses, ?_, hUnplayed⟩
  · rw [hPlayed]
    exact hTotal
  · rw [wonBy, hPlayed]
    exact hWins
  · rw [hPlayed]
    exact hAverage

/- A match of the player is counted by its update. -/
theorem Tally.concat_updatedRow
    {row : PlayerRow β}
    (hTally : Tally pid events row)
    {event : MatchEnd}
    (hPlays : pid ∈ event.players)
    (ratings : Dict String Int) :
    Tally pid (events ++ [event])
      (updatedRow event.outcome ratings pid row) := by
  have hPlayed :
      playedBy pid (events ++ [event]) =
        playedBy pid events ++ [event] := by
    simp [playedBy, hPlays]
  have hLosses := hTally.losses
  refine ⟨?_, ?_, ?_, ?_, ?_⟩
  · rw [hPlayed, List.length_append, List.length_singleton,
      ← hTally.total]
    rfl
  · rw [wonBy, hPlayed, List.filter_append,
      List.length_append]
    simp only [updatedRow, hTally.wins, wonBy]
    by_cases hWon : event.outcome.winner = some pid
    · simp [hWon]
    · simp [hWon]
  · simp only [updatedRow]
    split <;> omega
  · intro hExact
    rw [hPlayed, List.map_append, List.sum_append,
      List.map_singleton, List.sum_singleton]
    exact
      hExact.mul_newAverage (hTally.average hExact)
        (scoreOf pid event)
  · intro hZero
    cases hZero

/- A further delivery is committed, or it is not. -/
theorem committed_concat
    (deliveries : List Delivery)
    (d : Delivery) :
    committed (deliveries ++ [d]) =
      if d.commits then committed deliveries ++ [d.event]
      else committed deliveries := by
  cases hCommits : d.commits with
  | true => simp [committed, hCommits]
  | false => simp [committed, hCommits]

/- One delivery counts its match unless it was counted. -/
theorem Applied.deliver
    {deliveries : List Delivery}
    {board : Board β}
    {d : Delivery}
    (hApplied : Applied pid deliveries board events)
    (hKeys : KeysIdentify (committed (deliveries ++ [d]))) :
    ∃ events',
      Applied pid (deliveries ++ [d])
        (Leaderboard.deliver board d) events' := by
  rcases hApplied with ⟨hProcessed, hNodup, hSame, hRow⟩
  rw [committed_concat] at hKeys
  cases hCommits : d.commits with
  | false =>
      refine ⟨events, ?_, hNodup, ?_, ?_⟩
      · simpa [Leaderboard.deliver, hCommits] using hProcessed
      · simpa [committed_concat, hCommits] using hSame
      · simpa [Leaderboard.deliver, hCommits] using hRow
  | true =>
      rw [hCommits, if_pos rfl] at hKeys
      by_cases hKey : matchKey d.event ∈ board.processed
      · -- a duplicate: its event is one of those counted
        have hOld : d.event ∈ events := by
          have hMem := hKey
          rw [hProcessed] at hMem
          rcases List.mem_map.mp hMem with ⟨e, hEvent, hEq⟩
          have hCommitted := (hSame e).mp hEvent
          have hIs :=
            hKeys e (List.mem_append_left _ hCommitted)
              d.event (by simp) hEq
          rw [← hIs]
          exact hEvent
        have hBoard : Leaderboard.deliver board d = board := by
          simp [Leaderboard.deliver, hCommits,
            applyMatch_of_mem hKey]
        refine ⟨events, ?_, hNodup, ?_, ?_⟩
        · rw [hBoard]
          exact hProcessed
        · intro e
          rw [committed_concat, hCommits, if_pos rfl,
            List.mem_append, List.mem_singleton, ← hSame]
          constructor
          · exact .inl
          · rintro (hEvent | rfl)
            · exact hEvent
            · exact hOld
        · rw [hBoard]
          exact hRow
      · have hBoard :
            Leaderboard.deliver board d =
              { processed :=
                  board.processed ++ [matchKey d.event]
                players := rate board d.event } := by
          simp [Leaderboard.deliver, hCommits, applyMatch,
            hKey]
        refine ⟨events ++ [d.event], ?_, ?_, ?_, ?_⟩
        · rw [hBoard]
          simp [hProcessed]
        · rw [List.map_append, List.map_singleton,
            List.nodup_append]
          refine ⟨hNodup, List.nodup_singleton _, ?_⟩
          intro k hOld k' hNew hEq
          rw [List.mem_singleton.mp hNew] at hEq
          rw [hEq, ← hProcessed] at hOld
          exact hKey hOld
        · intro e
          rw [committed_concat, hCommits, if_pos rfl,
            List.mem_append, List.mem_append, hSame]
        · rcases hRow with ⟨row, hGet, hTally⟩
          rcases get?_rate board d.event pid with
            ⟨ratings, hRate⟩
          rw [hBoard]
          by_cases hPlays : pid ∈ d.event.players
          · rw [if_pos hPlays, hGet] at hRate
            exact
              ⟨_, hRate,
                hTally.concat_updatedRow hPlays ratings⟩
          · rw [if_neg hPlays, hGet] at hRate
            exact ⟨row, hRate, hTally.concat_other hPlays⟩

end Leaderboard

------------------------------------------------------------
-- All Deliveries
------------------------------------------------------------

namespace Leaderboard

open Py GameRoom RatingNumber

variable {β : Type} [RatingNumber β]
variable {pid : String}

/- Induction over the deliveries, from the first one. -/
theorem applied_deliverAll
    {board : Board β}
    {row : PlayerRow β}
    (hFirst : board.processed = [])
    (hRow : board.players.get? pid = some row)
    (hUnrated : row.Unrated)
    {deliveries : List Delivery}
    (hKeys : KeysIdentify (committed deliveries)) :
    ∃ events,
      Applied pid deliveries (deliverAll board deliveries)
        events := by
  induction deliveries using List.reverseRecOn with
  | nil =>
      exact
        ⟨[], hFirst, List.nodup_nil, fun _ => Iff.rfl, row,
          hRow, tally_nil hUnrated⟩
  | append_singleton deliveries d ih =>
      have hPrior : KeysIdentify (committed deliveries) := by
        have hSub :
            committed deliveries ⊆
              committed (deliveries ++ [d]) := by
          intro e hEvent
          rw [committed_concat]
          split
          · exact List.mem_append_left _ hEvent
          · exact hEvent
        intro e hEvent e' hEvent'
        exact hKeys e (hSub hEvent) e' (hSub hEvent')
      rcases ih hPrior with ⟨events, hApplied⟩
      rcases hApplied.deliver hKeys with
        ⟨events', hApplied'⟩
      refine ⟨events', ?_⟩
      rw [deliverAll, List.foldl_append]
      exact hApplied'

/- A list without repetitions, up to order. -/
theorem perm_dedup
    {events events' : List MatchEnd}
    (hNodup : events.Nodup)
    (hSame : ∀ e, e ∈ events ↔ e ∈ events') :
    events.Perm events'.dedup := by
  apply
    (List.perm_ext_iff_of_nodup hNodup
      (List.nodup_dedup events')).mpr
  intro e
  rw [List.mem_dedup]
  exact hSame e

/- The counted matches are the distinct committed ones. -/
theorem Applied.perm_playedBy
    {deliveries : List Delivery}
    {board : Board β}
    {events : List MatchEnd}
    (hApplied : Applied pid deliveries board events) :
    (playedBy pid events).Perm
      (playedBy pid (committed deliveries)).dedup := by
  have hNodup : events.Nodup :=
    List.Nodup.of_map matchKey hApplied.nodup
  apply perm_dedup (hNodup.filter _)
  intro e
  simp only [playedBy, List.mem_filter, hApplied.same]

theorem Applied.perm_wonBy
    {deliveries : List Delivery}
    {board : Board β}
    {events : List MatchEnd}
    (hApplied : Applied pid deliveries board events) :
    (wonBy pid events).Perm
      (wonBy pid (committed deliveries)).dedup := by
  have hNodup : events.Nodup :=
    List.Nodup.of_map matchKey hApplied.nodup
  apply perm_dedup ((hNodup.filter _).filter _)
  intro e
  simp only [wonBy, playedBy, List.mem_filter,
    hApplied.same]

/- Distinct events have distinct keys. -/
theorem length_dedup_matchKey
    {events : List MatchEnd}
    (hKeys : KeysIdentify events) :
    (events.map matchKey).dedup.length =
      events.dedup.length := by
  have hNodup : (events.dedup.map matchKey).Nodup := by
    apply List.Nodup.map_on ?_ (List.nodup_dedup events)
    intro e hEvent e' hEvent'
    exact
      hKeys e (List.mem_dedup.mp hEvent) e'
        (List.mem_dedup.mp hEvent')
  have hPerm :
      (events.map matchKey).dedup.Perm
        (events.dedup.map matchKey) := by
    apply
      (List.perm_ext_iff_of_nodup (List.nodup_dedup _)
        hNodup).mpr
    intro k
    simp only [List.mem_dedup, List.mem_map]
  rw [hPerm.length_eq, List.length_map]

/- Fewer events are still identified by their keys. -/
theorem KeysIdentify.filter
    {events : List MatchEnd}
    (hKeys : KeysIdentify events)
    (p : MatchEnd → Bool) :
    KeysIdentify (events.filter p) := by
  intro e hEvent e' hEvent'
  exact
    hKeys e (List.mem_of_mem_filter hEvent) e'
      (List.mem_of_mem_filter hEvent')

/- Rows that have counted the same matches agree. -/
theorem Tally.congr
    {events events' : List MatchEnd}
    {row row' : PlayerRow β}
    (hTally : Tally pid events row)
    (hTally' : Tally pid events' row')
    (hPlayed :
      (playedBy pid events).Perm (playedBy pid events'))
    (hWon : (wonBy pid events).Perm (wonBy pid events')) :
    row'.wins = row.wins ∧ row'.losses = row.losses ∧
      row'.totalMatches = row.totalMatches ∧
        (ExactNumber β →
          row'.averageScore = row.averageScore) := by
  have hTotal : row'.totalMatches = row.totalMatches := by
    rw [hTally.total, hTally'.total, hPlayed.length_eq]
  have hWins : row'.wins = row.wins := by
    rw [hTally.wins, hTally'.wins, hWon.length_eq]
  have hLosses := hTally.losses
  have hLosses' := hTally'.losses
  refine ⟨hWins, by omega, hTotal, ?_⟩
  intro hExact
  have hSum := hTally.average hExact
  have hSum' := hTally'.average hExact
  have hScores :=
    (hPlayed.map (scoreOf pid)).sum_eq
  cases hCount : row.totalMatches with
  | zero =>
      rw [hTally.unplayed hCount,
        hTally'.unplayed (hTotal.trans hCount)]
  | succ n =>
      apply hExact.cancel _ _ n
      rw [hTotal, ← hScores, ← hSum, hCount] at hSum'
      exact hSum'

/-
  Every row that was there before the first delivery has in
  the end counted every committed match once, whatever was
  delivered again or rolled back, and in whatever order.
-/
theorem statistics_exactly_once
    {board : Board β}
    {row : PlayerRow β}
    (hFirst : board.processed = [])
    (hRow : board.players.get? pid = some row)
    (hUnrated : row.Unrated)
    {deliveries : List Delivery}
    (hKeys : KeysIdentify (committed deliveries)) :
    ∃ row',
      (deliverAll board deliveries).players.get? pid =
          some row' ∧
        row'.totalMatches =
            ((playedBy pid (committed deliveries)).map
              matchKey).dedup.length ∧
          row'.wins =
              ((wonBy pid (committed deliveries)).map
                matchKey).dedup.length ∧
            row'.wins + row'.losses = row'.totalMatches ∧
              (ExactNumber β →
                mul row'.averageScore
                    (ofInt row'.totalMatches) =
                  ofInt
                    ((playedBy pid
                      (committed deliveries)).dedup.map
                        (scoreOf pid)).sum) ∧
                ∀ deliveries',
                  (∀ e, e ∈ committed deliveries' ↔
                    e ∈ committed deliveries) →
                    ∃ row'',
                      (deliverAll board
                          deliveries').players.get? pid =
                          some row'' ∧
                        row''.wins = row'.wins ∧
                          row''.losses = row'.losses ∧
                            row''.totalMatches =
                                row'.totalMatches ∧
                              (ExactNumber β →
                                row''.averageScore =
                                  row'.averageScore) := by
  rcases applied_deliverAll hFirst hRow hUnrated hKeys with
    ⟨events, hApplied⟩
  rcases hApplied.row with ⟨row', hGet, hTally⟩
  have hPlayed := hApplied.perm_playedBy
  have hWon := hApplied.perm_wonBy
  refine ⟨row', hGet, ?_, ?_, hTally.losses, ?_, ?_⟩
  · have hDistinct :
        ((playedBy pid (committed deliveries)).map
            matchKey).dedup.length =
          (playedBy pid (committed deliveries)).dedup.length :=
      length_dedup_matchKey (hKeys.filter _)
    rw [hDistinct, ← hPlayed.length_eq]
    exact hTally.total
  · have hDistinct :
        ((wonBy pid (committed deliveries)).map
            matchKey).dedup.length =
          (wonBy pid (committed deliveries)).dedup.length :=
      length_dedup_matchKey ((hKeys.filter _).filter _)
    rw [hDistinct, ← hWon.length_eq]
    exact hTally.wins
  · intro hExact
    rw [← (hPlayed.map (scoreOf pid)).sum_eq]
    exact hTally.average hExact
  · intro deliveries' hSame
    have hKeys' : KeysIdentify (committed deliveries') := by
      intro e hEvent e' hEvent'
      exact
        hKeys e ((hSame e).mp hEvent) e'
          ((hSame e').mp hEvent')
    rcases applied_deliverAll hFirst hRow hUnrated
        hKeys' with
      ⟨events', hApplied'⟩
    rcases hApplied'.row with ⟨row'', hGet', hTally'⟩
    refine ⟨row'', hGet', ?_⟩
    have hEvents : events.Perm events' := by
      apply
        (List.perm_ext_iff_of_nodup
          (List.Nodup.of_map matchKey hApplied.nodup)
          (List.Nodup.of_map matchKey
            hApplied'.nodup)).mpr
      intro e
      rw [hApplied.same, hApplied'.same, hSame]
    exact
      hTally.congr hTally' (hEvents.filter _)
        ((hEvents.filter _).filter _)

/- A match that `ann` and `bob` have played to 3 : 1. -/
def firstResult : MatchEnd where
  matchId := "room"
  tick := 6000
  outcome := {
    winner := some "ann"
    scores := (Dict.empty.set "ann" 3).set "bob" 1 }
  players := ["ann", "bob"]
  startedAt := 100
  durationSeconds := 300

/- Their next match in the same room. -/
def secondResult : MatchEnd where
  matchId := "room"
  tick := 6000
  outcome := {
    winner := some "bob"
    scores := (Dict.empty.set "ann" 0).set "bob" 2 }
  players := ["ann", "bob"]
  startedAt := 401
  durationSeconds := 300

/- Rolled back once, retried, and delivered again at the end. -/
def retried : List Delivery :=
  [⟨firstResult, false⟩, ⟨secondResult, true⟩,
    ⟨firstResult, true⟩, ⟨secondResult, true⟩]

/- A board on which only `ann` has a row. -/
def registered : Board Rat where
  processed := []
  players := Dict.empty.set "ann" ⟨1200, 0, 0, 0, 0⟩

theorem statistics_exactly_once_retried :
    ∃ row,
      (deliverAll registered retried).players.get? "ann" =
          some row ∧
        row.totalMatches = 2 ∧ row.wins = 1 ∧
          row.losses = 1 ∧ row.averageScore * 2 = 3 := by
  have hRow :
      registered.players.get? "ann" =
        some ⟨1200, 0, 0, 0, 0⟩ := by
    rfl
  have hKeys : KeysIdentify (committed retried) := by
    unfold KeysIdentify
    decide
  rcases
    statistics_exactly_once rfl hRow ⟨rfl, rfl, rfl, rfl⟩
      hKeys with
    ⟨row, hGet, hTotal, hWins, hLosses, hAverage, _⟩
  have hTwo : row.totalMatches = 2 := hTotal.trans (by decide)
  have hOne : row.wins = 1 := hWins.trans (by decide)
  have hScores := hAverage exactNumber_rat
  rw [hTwo] at hScores
  exact ⟨row, hGet, hTwo, hOne, by omega, hScores⟩

end Leaderboard
