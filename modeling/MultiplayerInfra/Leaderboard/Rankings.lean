import Mathlib.Data.Prod.Lex
import Mathlib.Data.String.Basic
import MultiplayerInfra.Leaderboard.Db
import MultiplayerInfra.Ranking.Page

/-
  The queries of the leaderboard: a page of the best players,
  and the rank of one player.

  Key definitions include:
    * `Leaderboard.Profile`
    * `Leaderboard.topPlayers`
    * `Leaderboard.playerWithRank`
    * `Leaderboard.getLeaderboard`

  Key theorems include:
    * `Leaderboard.isPage_topPlayers`
    * `Leaderboard.page_agrees_with_ranks`

  The page is sorted by Postgres, the rank is counted by it;
  that the two agree depends on what the columns are.  Names
  may have any collation.
-/

------------------------------------------------------------
-- Queries
------------------------------------------------------------

namespace Leaderboard

open Ranking

/- A row of `players`, of those columns that are queried. -/
structure Profile (β ν : Type) where
  playerId : String
  username : ν
  row : PlayerRow β
  -- in microseconds
  lastSeen : Int

variable {β ν : Type}

def Profile.elo (profile : Profile β ν) : Int :=
  profile.row.eloRating

/- `{"daily": 1, "weekly": 7}.get(window)`. -/
def daysOf (window : String) : Option Int :=
  if window = "daily" then some 1
  else if window = "weekly" then some 7
  else none

/- The `WHERE` clause of a window, at a time. -/
def Profile.Seen
    (window : String)
    (now : Int)
    (profile : Profile β ν) : Prop :=
  ∀ days ∈ daysOf window,
    now - days * 86400 * 1000000 ≤ profile.lastSeen

instance
    (window : String)
    (now : Int)
    (profile : Profile β ν) :
    Decidable (profile.Seen window now) :=
  inferInstanceAs (Decidable
    (∀ days ∈ daysOf window,
      now - days * 86400 * 1000000 ≤ profile.lastSeen))

variable [LinearOrder ν]

/- `ORDER BY elo_rating DESC, username`. -/
def Profile.key
    (profile : Profile β ν) : Lex (Intᵒᵈ × ν) :=
  toLex (OrderDual.toDual profile.elo, profile.username)

def Ahead (p q : Profile β ν) : Prop :=
  p.key ≤ q.key

instance : DecidableRel (Ahead (β := β) (ν := ν)) :=
  fun p q => inferInstanceAs (Decidable (p.key ≤ q.key))

/- `top_players`. -/
def topPlayers
    (window : String)
    (limit : Nat)
    (now : Int)
    (rows : List (Profile β ν)) : List (Profile β ν) :=
  ((rows.filter (fun row => row.Seen window now)).insertionSort
    Ahead).take limit

omit [LinearOrder ν] in
/-
  `player_with_rank`: each of its two statements sees the
  table as it is then.
-/
def playerWithRank
    (rows rows' : List (Profile β ν))
    (playerId : String) : Option (Profile β ν × Nat) :=
  (rows.find? (fun row => row.playerId = playerId)).map
    (fun player =>
      (player,
        rows'.countP (fun row => player.elo < row.elo) + 1))

/- `get_leaderboard`, which other parameters do not reach. -/
def getLeaderboard
    (window : String)
    (limit : Int)
    (now : Int)
    (rows : List (Profile β ν)) :
    Option (List (Profile β ν)) :=
  if window ∈ ["daily", "weekly", "all"] ∧
      1 ≤ limit ∧ limit ≤ 200 then
    some (topPlayers window limit.toNat now rows)
  else none

end Leaderboard

------------------------------------------------------------
-- Pages and Ranks
------------------------------------------------------------

namespace Leaderboard

open Ranking

variable {β ν : Type} [LinearOrder ν]

instance : Std.Total (Ahead (β := β) (ν := ν)) where
  total p q := le_total p.key q.key

instance : IsTrans (Profile β ν) Ahead where
  trans _ _ _ hFirst hSecond := le_trans hFirst hSecond

/- Better rated players come first. -/
theorem elo_le_of_ahead
    (p q : Profile β ν)
    (hAhead : Ahead p q) :
    q.elo ≤ p.elo := by
  rcases Prod.Lex.toLex_le_toLex.mp hAhead with
    hLess | ⟨hEqual, _⟩
  · exact (OrderDual.toDual_lt_toDual.mp hLess).le
  · exact (OrderDual.toDual_inj.mp hEqual).ge

/- Players with one key have one name. -/
theorem username_eq_of_ahead
    {p q : Profile β ν}
    (hAhead : Ahead p q)
    (hBehind : Ahead q p) :
    p.username = q.username := by
  have hKey : p.key = q.key := le_antisymm hAhead hBehind
  exact congrArg (fun key => (ofLex key).2) hKey

theorem isPage_topPlayers
    (window : String)
    (limit : Nat)
    (now : Int)
    (rows : List (Profile β ν)) :
    IsPage Ahead limit
      (rows.filter (fun row => row.Seen window now))
      (topPlayers window limit now rows) :=
  isPage_take_insertionSort limit _

omit [LinearOrder ν] in
/- Rows with one name are one row. -/
theorem eq_of_username
    {rows : List (Profile β ν)}
    (hNames : (rows.map Profile.username).Nodup)
    {p q : Profile β ν}
    (hP : p ∈ rows)
    (hQ : q ∈ rows)
    (hSame : p.username = q.username) :
    p = q :=
  List.inj_on_of_nodup_map hNames hP hQ hSame

omit [LinearOrder ν] in
/- A row is found under its identifier. -/
theorem playerWithRank_of_mem
    {rows : List (Profile β ν)}
    (hIds : (rows.map Profile.playerId).Nodup)
    {player : Profile β ν}
    (hMem : player ∈ rows) :
    playerWithRank rows rows player.playerId =
      some (player, rank Profile.elo rows player) := by
  have hFound :
      rows.find? (fun row => row.playerId = player.playerId) =
        some player := by
    cases hFind :
        rows.find?
          (fun row => row.playerId = player.playerId) with
    | none =>
        have hNone := List.find?_eq_none.mp hFind player hMem
        simp at hNone
    | some row =>
        have hSame : row.playerId = player.playerId := by
          simpa using List.find?_some hFind
        rw [List.inj_on_of_nodup_map hIds
          (List.mem_of_find?_eq_some hFind) hMem hSame]
  rw [playerWithRank, hFound]
  rfl

omit [LinearOrder ν] in
/- The window of all time leaves nobody out. -/
theorem filter_seen_all
    (now : Int)
    (rows : List (Profile β ν)) :
    rows.filter (fun row => row.Seen "all" now) = rows := by
  apply List.filter_eq_self.mpr
  intro row _
  simp [Profile.Seen, daysOf]

/-
  With unique names and identifiers, whatever the number of
  equal ratings: there is only one page that the query may
  return; who is missing comes after everybody on a full
  page; ranks never improve down the page; and on the page of
  all time the rank of a player is the one that is read off
  the page.
-/
theorem page_agrees_with_ranks
    {window : String}
    {limit now : Int}
    {rows page : List (Profile β ν)}
    (hNames : (rows.map Profile.username).Nodup)
    (hIds : (rows.map Profile.playerId).Nodup)
    (hAnswer :
      getLeaderboard window limit now rows = some page) :
    (∀ other,
      IsPage Ahead limit.toNat
          (rows.filter (fun row => row.Seen window now))
          other →
        other = page) ∧
      (∀ row ∈ rows, row.Seen window now → row ∉ page →
        page.length = limit.toNat ∧
          ∀ other ∈ page, Ahead other row) ∧
      page.Pairwise (fun p q =>
        rank Profile.elo rows p ≤ rank Profile.elo rows q) ∧
      (window = "all" →
        ∀ (i : Nat) (player : Profile β ν),
          page[i]? = some player →
            ∃ place ≤ i + 1,
              place = rank Profile.elo page player ∧
                playerWithRank rows rows player.playerId =
                  some (player, place)) := by
  have hPage :
      IsPage Ahead limit.toNat
        (rows.filter (fun row => row.Seen window now))
        page := by
    unfold getLeaderboard at hAnswer
    split at hAnswer
    · cases hAnswer
      exact isPage_topPlayers window limit.toNat now rows
    · cases hAnswer
  refine ⟨?_, ?_, ?_, ?_⟩
  · intro other hOther
    refine hOther.unique ?_ hPage
    intro p hP q hQ hAhead hBehind
    exact
      eq_of_username hNames (List.mem_of_mem_filter hP)
        (List.mem_of_mem_filter hQ)
        (username_eq_of_ahead hAhead hBehind)
  · intro row hRow hSeen hMissing
    exact
      hPage.full_of_missing
        (List.mem_filter.mpr ⟨hRow, decide_eq_true hSeen⟩)
        hMissing
  · refine hPage.pairwise.imp ?_
    intro p q hAhead
    exact rank_le_rank rows (elo_le_of_ahead p q hAhead)
  · rintro rfl i player hAt
    rw [filter_seen_all] at hPage
    have hMem := List.mem_of_getElem? hAt
    refine
      ⟨rank Profile.elo page player, ?_, rfl, ?_⟩
    · rw [← hPage.rank_eq elo_le_of_ahead hMem]
      exact hPage.rank_le elo_le_of_ahead hAt
    · rw [← hPage.rank_eq elo_le_of_ahead hMem]
      exact playerWithRank_of_mem hIds (hPage.subset hMem)

/- Three players, of whom two share a rating. -/
def threeRows : List (Profile Rat String) :=
  [⟨"p1", "ann", ⟨1200, 0, 0, 0, 0⟩, 0⟩,
    ⟨"p2", "bob", ⟨1216, 1, 0, 1, 0⟩, 0⟩,
    ⟨"p3", "cat", ⟨1200, 0, 0, 0, 0⟩, 0⟩]

def topTwo : List (Profile Rat String) :=
  topPlayers "all" 2 0 threeRows

/- Those with one rating share the second place. -/
theorem page_agrees_topTwo :
    topTwo.map Profile.username = ["bob", "ann"] ∧
      ∀ (i : Nat) (player : Profile Rat String),
        topTwo[i]? = some player →
          ∃ place ≤ i + 1,
            place = rank Profile.elo topTwo player ∧
              playerWithRank threeRows threeRows
                  player.playerId =
                some (player, place) := by
  have hAnswer :
      getLeaderboard "all" 2 0 threeRows = some topTwo := by
    rfl
  exact
    ⟨rfl,
      (page_agrees_with_ranks (by decide) (by decide)
        hAnswer).2.2.2 rfl⟩

end Leaderboard
