import Mathlib.Data.List.Sort
import MultiplayerInfra.GameRoom.GameLoop
import MultiplayerInfra.Leaderboard.Elo

/-
  The leaderboard's tables and the transaction that rates a
  match.

  Key definitions include:
    * `Leaderboard.Board`
    * `Leaderboard.matchKey`
    * `Leaderboard.applyMatch`

  Key theorems include:
    * `Leaderboard.applyMatch_of_mem`
    * `Leaderboard.applyMatch_of_not_mem`

  A transaction that raises rolls back, which leaves the
  tables as they were.
-/

------------------------------------------------------------
-- Tables
------------------------------------------------------------

namespace Leaderboard

open Py GameRoom

/- The rated columns of a row of `players`. -/
structure PlayerRow (β : Type) where
  eloRating : Int
  wins : Nat
  losses : Nat
  totalMatches : Nat
  averageScore : β

structure Board (β : Type) where
  -- the primary keys of `processed_matches`
  processed : List (String × Timestamp)
  players : Dict String (PlayerRow β)

inductive Answer where
  | applied
  | duplicate
deriving DecidableEq

/- `(match_id, started_at)`. -/
def matchKey (event : MatchEnd) : String × Timestamp :=
  (event.matchId, event.startedAt)

end Leaderboard

------------------------------------------------------------
-- The Transaction
------------------------------------------------------------

namespace Leaderboard

open Py GameRoom

variable {β : Type} [RatingNumber β]

omit [RatingNumber β] in
/- `SELECT ... WHERE player_id = ANY(...) ORDER BY player_id`. -/
def known
    (board : Board β)
    (playerIds : List String) :
    Dict String (PlayerRow β) :=
  playerIds.foldl
    (fun rows pid =>
      match board.players.get? pid with
      | none => rows
      | some row => rows.set pid row)
    Dict.empty

/- The new row of a player of the match. -/
def updatedRow
    (outcome : Outcome)
    (ratings : Dict String Int)
    (pid : String)
    (row : PlayerRow β) :
    PlayerRow β :=
  let won := outcome.winner = some pid
  { eloRating := (ratings.get? pid).getD row.eloRating
    wins := row.wins + (if won then 1 else 0)
    losses := row.losses + (if won then 0 else 1)
    totalMatches := row.totalMatches + 1
    averageScore :=
      newAverage row.averageScore row.totalMatches
        ((outcome.scores.get? pid).getD 0) }

/- The updates of the rows of the known players. -/
def rate
    (board : Board β)
    (event : MatchEnd) :
    Dict String (PlayerRow β) :=
  let playerIds :=
    event.players.dedup.insertionSort (· ≤ ·)
  let rows := known board playerIds
  let ratings :=
    newRatings (rows.mapVals (fun _ row => row.eloRating))
      event.outcome.scores
      (RatingNumber.ofInt kFactor : β)
  rows.entries.foldl
    (fun players e =>
      players.set e.1
        (updatedRow event.outcome ratings e.1 e.2))
    board.players

/-
  `apply_match`.  Without players nothing but the key is
  recorded, as `rate` then changes no row.
-/
def applyMatch
    (board : Board β)
    (event : MatchEnd) :
    Board β × Answer :=
  if matchKey event ∈ board.processed then
    (board, .duplicate)
  else
    ({ processed := board.processed ++ [matchKey event]
       players := rate board event },
      .applied)

/- A processed match is a duplicate, and changes nothing. -/
theorem applyMatch_of_mem
    {board : Board β}
    {event : MatchEnd}
    (hMem : matchKey event ∈ board.processed) :
    applyMatch board event = (board, .duplicate) := by
  simp [applyMatch, hMem]

/- A new match is applied and its key recorded. -/
theorem applyMatch_of_not_mem
    {board : Board β}
    {event : MatchEnd}
    (hNew : matchKey event ∉ board.processed) :
    (applyMatch board event).2 = .applied ∧
      (applyMatch board event).1.processed =
        board.processed ++ [matchKey event] := by
  simp [applyMatch, hNew]

end Leaderboard
