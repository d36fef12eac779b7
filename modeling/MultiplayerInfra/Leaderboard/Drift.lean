import MultiplayerInfra.Leaderboard.Fairness
import MultiplayerInfra.Leaderboard.Statistics

/-
  How far ratings drift: what any deliveries of match results
  can do to the rating of a player and to the total of all.

  Key definitions include:
    * `Leaderboard.ratingsAfter`
    * `Leaderboard.totalRating`
    * `Leaderboard.totalPlayed`
    * `Leaderboard.Drifts`

  Key theorems include:
    * `Leaderboard.rate_eq_mapVals`
    * `Leaderboard.abs_sum_newRatings_sub_le`
    * `Leaderboard.ratings_drift`

  The bounds are in terms of the matches that the rows count.
  A redelivered result counts nothing and moves nothing.
-/

------------------------------------------------------------
-- Dictionaries
------------------------------------------------------------

namespace Py.Dict

variable {κ ν : Type} [DecidableEq κ]

/- Assigning to a present key leaves the keys in place. -/
theorem keys_set_of_mem
    {d : Dict κ ν}
    {k : κ}
    (hMem : k ∈ d.keys)
    (v : ν) :
    (d.set k v).keys = d.keys := by
  rcases d with ⟨es, hNodup⟩
  simp only [keys, set] at hMem ⊢
  clear hNodup
  induction es with
  | nil => cases hMem
  | cons e es ih =>
      rcases e with ⟨k₀, v₀⟩
      by_cases hSame : k₀ = k
      · simp [assign, hSame]
      · rw [List.map_cons, List.mem_cons] at hMem
        have hTail : k ∈ es.map Prod.fst :=
          hMem.resolve_left (Ne.symm hSame)
        simp only [assign, hSame, if_false, List.map_cons,
          ih hTail]

/- A bulk update of present keys leaves them in place. -/
theorem keys_foldl_set
    {μ : Type}
    (f : κ → μ → ν)
    {es : List (κ × μ)}
    {d : Dict κ ν}
    (hKeys : ∀ e ∈ es, e.1 ∈ d.keys) :
    (es.foldl (fun acc e => acc.set e.1 (f e.1 e.2)) d).keys =
      d.keys := by
  induction es generalizing d with
  | nil => rfl
  | cons e es ih =>
      have hSet :=
        keys_set_of_mem (hKeys e List.mem_cons_self)
          (f e.1 e.2)
      rw [List.foldl_cons, ih, hSet]
      intro e' hMem
      rw [hSet]
      exact hKeys e' (List.mem_cons_of_mem _ hMem)

theorem mem_entries_iff
    {d : Dict κ ν}
    {k : κ}
    {v : ν} :
    (k, v) ∈ d.entries ↔ d.get? k = some v :=
  ⟨fun hMem => d.get?_of_mem hMem, mem_of_get?⟩

omit [DecidableEq κ] in
theorem nodup_entries
    (d : Dict κ ν) :
    d.entries.Nodup :=
  List.Nodup.of_map Prod.fst d.nodup

/- Keys in one order with the same values. -/
theorem ext_get?
    {d d' : Dict κ ν}
    (hKeys : d.keys = d'.keys)
    (hGet : ∀ k, d.get? k = d'.get? k) :
    d = d' := by
  have hEntries : d.entries = d'.entries := by
    apply List.ext_getElem
    · have hLength := congrArg List.length hKeys
      simpa [keys] using hLength
    · intro i hBound hBound'
      have hKey : d.entries[i].1 = d'.entries[i].1 := by
        have hAt := congrArg (fun ks => ks[i]?) hKeys
        simpa [keys, hBound, hBound'] using hAt
      have hValue :
          some d.entries[i].2 = some d'.entries[i].2 := by
        rw [← d.get?_of_mem (List.getElem_mem hBound),
          ← d'.get?_of_mem (List.getElem_mem hBound'), hKey]
        exact hGet _
      exact Prod.ext hKey (Option.some.inj hValue)
  rcases d with ⟨es, hNodup⟩
  rcases d' with ⟨es', hNodup'⟩
  simp only at hEntries
  subst hEntries
  rfl

/- Values that may be replaced, key by key. -/
theorem eq_mapVals_of_keys
    {d d' : Dict κ ν}
    (hKeys : d'.keys = d.keys) :
    d' = d.mapVals (fun k v => (d'.get? k).getD v) := by
  apply ext_get?
  · rw [keys_mapVals, hKeys]
  · intro k
    rw [get?_mapVals]
    cases hOld : d.get? k with
    | none =>
        rw [get?_eq_none_iff, ← hKeys,
          ← get?_eq_none_iff] at hOld
        exact hOld
    | some v =>
        have hMem : k ∈ d'.keys := by
          rw [hKeys]
          exact mem_keys_iff.mpr ⟨v, hOld⟩
        rcases mem_keys_iff.mp hMem with ⟨v', hNew⟩
        rw [hNew]
        rfl

end Py.Dict

------------------------------------------------------------
-- New Ratings
------------------------------------------------------------

namespace Leaderboard

open Py RatingNumber Rounding

/- The players stay the same. -/
theorem keys_newRatings
    {β : Type} [RatingNumber β]
    (ratings scores : Dict String Int)
    (k : β) :
    (newRatings ratings scores k).keys = ratings.keys := by
  unfold newRatings
  split
  · rfl
  · exact Dict.keys_mapVals _ _

theorem total_exact
    (ratings : Dict String Int) :
    total (exact ratings) =
      ((ratings.entries.map Prod.snd).sum : ℤ) := by
  simp only [total, exact, Dict.mapVals, List.map_map,
    Function.comp_def, Int.cast_list_sum]

/- Whole ratings, computed with real numbers. -/
theorem exact_newRatings
    (ratings scores : Dict String Int)
    (k : ℝ) :
    exact (newRatings ratings scores k) =
      Generic.newRatings (exact ratings) scores k :=
  (newRatings_eq ratings scores k).symm

/- A match moves a rating by at most the K factor. -/
theorem abs_newRatings_sub_le
    {ratings scores : Dict String Int}
    {pid : String}
    {old new : Int}
    (hOld : ratings.get? pid = some old)
    (hNew :
      (newRatings ratings scores (ofInt kFactor : ℝ)).get?
        pid = some new) :
    |new - old| ≤ 32 := by
  have hCast :
      (Generic.newRatings (exact ratings) scores
          (ofInt kFactor)).get? pid =
        some (new : ℝ) := by
    rw [← exact_newRatings, exact, Dict.get?_mapVals, hNew]
    rfl
  have hEntry : (pid, (old : ℝ)) ∈ (exact ratings).entries :=
    List.mem_map_of_mem (Dict.mem_of_get? hOld)
  by_cases hMany : 2 ≤ (exact ratings).entries.length
  · have hRounded :
        (Generic.newRatings (exact ratings) scores
            (ofInt kFactor)).get? pid =
          some
            (halfEven
              (unrounded (exact ratings) scores
                (ofInt kFactor) (pid, (old : ℝ))) : ℝ) :=
      get?_newRatings hMany hEntry
    rw [hCast, Option.some.injEq, Int.cast_inj] at hRounded
    rw [hRounded]
    apply abs_halfEven_sub_intCast_le
    refine
      (abs_unrounded_sub_le scores _ hMany hEntry).trans
        (le_of_eq ?_)
    simp [ofInt, kFactor]
  · rw [newRatings_of_lt (not_le.mp hMany), exact,
      Dict.get?_mapVals, hOld] at hCast
    have hSame : old = new := by
      simpa using hCast
    rw [hSame, sub_self, abs_zero]
    norm_num

/- Rounding moves the total by half a point for a player. -/
theorem abs_sum_newRatings_sub_le
    (ratings scores : Dict String Int)
    (k : ℝ) :
    2 *
        |((newRatings ratings scores k).entries.map
            Prod.snd).sum -
          (ratings.entries.map Prod.snd).sum| ≤
      ratings.entries.length := by
  have hLength :
      (exact ratings).entries.length =
        ratings.entries.length := by
    simp [exact, Dict.mapVals]
  have hReal :
      |total (Generic.newRatings (exact ratings) scores k) -
          total (exact ratings)| ≤
        ratings.entries.length / 2 := by
    by_cases hMany : 2 ≤ (exact ratings).entries.length
    · rw [total, entries_newRatings scores k hMany,
        List.map_map, ← sum_unrounded (exact ratings) scores k,
        ← hLength]
      exact abs_sum_halfEven_sub_le _ _
    · rw [newRatings_of_lt (not_le.mp hMany), sub_self,
        abs_zero]
      positivity
  rw [← exact_newRatings, total_exact, total_exact] at hReal
  have hDouble :
      2 *
          |((((newRatings ratings scores k).entries.map
              Prod.snd).sum : ℤ) : ℝ) -
            ((ratings.entries.map Prod.snd).sum : ℤ)| ≤
        ratings.entries.length := by
    linarith
  exact_mod_cast hDouble

end Leaderboard

------------------------------------------------------------
-- One Match
------------------------------------------------------------

namespace Leaderboard

open Py GameRoom RatingNumber

variable {β : Type}

/- The rows that a match rates. -/
def ratedRows
    (board : Board β)
    (event : MatchEnd) : Dict String (PlayerRow β) :=
  known board (event.players.dedup.insertionSort (· ≤ ·))

/- Their ratings, before and after. -/
def ratingsBefore
    (board : Board β)
    (event : MatchEnd) : Dict String Int :=
  (ratedRows board event).mapVals
    (fun _ row => row.eloRating)

def ratingsAfter
    [RatingNumber β]
    (board : Board β)
    (event : MatchEnd) : Dict String Int :=
  newRatings (ratingsBefore board event)
    event.outcome.scores (ofInt kFactor : β)

theorem get?_ratedRows
    (board : Board β)
    (event : MatchEnd)
    (pid : String) :
    (ratedRows board event).get? pid =
      if pid ∈ event.players then board.players.get? pid
      else none := by
  rw [ratedRows, get?_known]
  simp only [List.mem_insertionSort, List.mem_dedup]

/- A match updates the rated rows and leaves the others. -/
theorem rate_eq_mapVals
    [RatingNumber β]
    (board : Board β)
    (event : MatchEnd) :
    rate board event =
      board.players.mapVals (fun pid row =>
        if pid ∈ event.players then
          updatedRow event.outcome (ratingsAfter board event)
            pid row
        else row) := by
  have hRate :
      rate board event =
        (ratedRows board event).entries.foldl
          (fun players e =>
            players.set e.1
              (updatedRow event.outcome
                (ratingsAfter board event) e.1 e.2))
          board.players :=
    rfl
  rw [hRate]
  apply Dict.ext_get?
  · rw [Dict.keys_mapVals]
    apply Dict.keys_foldl_set
    intro e hMem
    have hRow := Dict.get?_of_mem _ hMem
    rw [get?_ratedRows] at hRow
    split at hRow
    · exact Dict.mem_keys_iff.mpr ⟨e.2, hRow⟩
    · cases hRow
  · intro pid
    rw [Dict.get?_foldl_set
      (fun p _ row =>
        updatedRow event.outcome (ratingsAfter board event) p
          row)
      board.players (ratedRows board event).nodup,
      Dict.get?_mapVals]
    have hRow :
        (ratedRows board event).entries.lookup pid = _ :=
      get?_ratedRows board event pid
    rw [hRow]
    by_cases hPlays : pid ∈ event.players
    · simp only [hPlays, if_true]
      cases board.players.get? pid <;> rfl
    · simp [hPlays]

end Leaderboard

------------------------------------------------------------
-- Totals
------------------------------------------------------------

namespace Leaderboard

open Py GameRoom RatingNumber

/- The sum of all ratings. -/
def totalRating {β : Type} (board : Board β) : Int :=
  (board.players.entries.map (fun e => e.2.eloRating)).sum

/- The matches that the rows count, over all rows. -/
def totalPlayed {β : Type} (board : Board β) : Int :=
  (board.players.entries.map (fun e =>
    (e.2.totalMatches : Int))).sum

/- Two sums differ by the elements whose terms differ. -/
theorem sum_sub_sum_eq_filter
    {ι : Type}
    {p : ι → Prop} [DecidablePred p]
    {f f' : ι → Int}
    {l : List ι}
    (hSame : ∀ i ∈ l, ¬ p i → f' i = f i) :
    (l.map f').sum - (l.map f).sum =
      ((l.filter p).map (fun i => f' i - f i)).sum := by
  induction l with
  | nil => rfl
  | cons i l ih =>
      have hTail :=
        ih (fun j hMem =>
          hSame j (List.mem_cons_of_mem _ hMem))
      by_cases hDiffers : p i
      · have hFilter :
            (i :: l).filter (fun i => p i) =
              i :: l.filter (fun i => p i) := by
          simp [hDiffers]
        rw [hFilter]
        simp only [List.map_cons, List.sum_cons]
        rw [← hTail]
        ring
      · have hFilter :
            (i :: l).filter (fun i => p i) =
              l.filter (fun i => p i) := by
          simp [hDiffers]
        rw [hFilter, ← hTail]
        simp only [List.map_cons, List.sum_cons,
          hSame i List.mem_cons_self hDiffers]
        ring

variable {β : Type}

/- The rated rows, in the order of the table. -/
theorem perm_ratedRows
    (board : Board β)
    (event : MatchEnd) :
    (board.players.entries.filter (fun e =>
        e.1 ∈ event.players)).Perm
      (ratedRows board event).entries := by
  rw [List.perm_ext_iff_of_nodup
    (board.players.nodup_entries.filter _)
    (ratedRows board event).nodup_entries]
  rintro ⟨pid, row⟩
  rw [List.mem_filter, Dict.mem_entries_iff,
    Dict.mem_entries_iff, get?_ratedRows, decide_eq_true_eq]
  by_cases hPlays : pid ∈ event.players
  · simp [hPlays]
  · simp [hPlays]

variable [RatingNumber β]

/- What a match adds to the total of all ratings. -/
theorem totalRating_rate
    (board : Board β)
    (event : MatchEnd)
    (processed : List (String × Timestamp)) :
    totalRating
          { processed := processed
            players := rate board event } -
        totalRating board =
      ((ratingsAfter board event).entries.map
          Prod.snd).sum -
        ((ratingsBefore board event).entries.map
          Prod.snd).sum := by
  have hAfter :
      ratingsAfter board event =
        (ratingsBefore board event).mapVals (fun pid old =>
          ((ratingsAfter board event).get? pid).getD old) :=
    Dict.eq_mapVals_of_keys (keys_newRatings _ _ _)
  have hRated :
      ((ratingsAfter board event).entries.map Prod.snd).sum =
        ((ratedRows board event).entries.map (fun e =>
          ((ratingsAfter board event).get? e.1).getD
            e.2.eloRating)).sum := by
    conv_lhs => rw [hAfter]
    simp only [ratingsBefore, Dict.mapVals, List.map_map,
      Function.comp_def]
  have hBefore :
      ((ratingsBefore board event).entries.map
          Prod.snd).sum =
        ((ratedRows board event).entries.map (fun e =>
          e.2.eloRating)).sum := by
    simp only [ratingsBefore, Dict.mapVals, List.map_map,
      Function.comp_def]
  have hRows :
      ((ratedRows board event).entries.map (fun e =>
            ((ratingsAfter board event).get? e.1).getD
              e.2.eloRating)).sum -
          ((ratedRows board event).entries.map (fun e =>
            e.2.eloRating)).sum =
        ((ratedRows board event).entries.map (fun e =>
          ((ratingsAfter board event).get? e.1).getD
              e.2.eloRating -
            e.2.eloRating)).sum := by
    rw [sum_sub_sum_eq_filter (p := fun _ => True)
      (fun _ _ hNot => absurd trivial hNot)]
    simp only [decide_true, List.filter_true]
  rw [hRated, hBefore, hRows]
  simp only [totalRating, rate_eq_mapVals, Dict.mapVals,
    List.map_map, Function.comp_def]
  rw [sum_sub_sum_eq_filter
    (p := fun e : String × PlayerRow β =>
      e.1 ∈ event.players)]
  · refine Eq.trans ?_
      ((perm_ratedRows board event).map _).sum_eq
    congr 1
    apply List.map_congr_left
    intro e hMem
    have hPlays : e.1 ∈ event.players :=
      of_decide_eq_true (List.mem_filter.mp hMem).2
    simp only [hPlays, if_true, updatedRow]
  · intro e _ hOther
    simp only [hOther, if_false]

/- What it adds to the matches that are counted. -/
theorem totalPlayed_rate
    (board : Board β)
    (event : MatchEnd)
    (processed : List (String × Timestamp)) :
    totalPlayed
          { processed := processed
            players := rate board event } -
        totalPlayed board =
      (ratingsBefore board event).entries.length := by
  have hLength :
      (ratingsBefore board event).entries.length =
        (board.players.entries.filter (fun e =>
          e.1 ∈ event.players)).length := by
    rw [(perm_ratedRows board event).length_eq]
    simp [ratingsBefore, Dict.mapVals]
  rw [hLength]
  simp only [totalPlayed, rate_eq_mapVals, Dict.mapVals,
    List.map_map, Function.comp_def]
  rw [sum_sub_sum_eq_filter
    (p := fun e : String × PlayerRow β =>
      e.1 ∈ event.players)]
  · have hOnes :
        ∀ e ∈ board.players.entries.filter (fun e =>
            e.1 ∈ event.players),
          (((if e.1 ∈ event.players then
              updatedRow event.outcome
                (ratingsAfter board event) e.1 e.2
            else e.2).totalMatches : Int) -
              e.2.totalMatches) = 1 := by
      intro e hMem
      have hPlays : e.1 ∈ event.players :=
        of_decide_eq_true (List.mem_filter.mp hMem).2
      simp [hPlays, updatedRow]
    rw [List.map_congr_left hOnes]
    simp
  · intro e _ hOther
    simp only [hOther, if_false]

end Leaderboard

------------------------------------------------------------
-- All Deliveries
------------------------------------------------------------

namespace Leaderboard

open Py GameRoom RatingNumber

/-
  How far a board has moved: each rating by the K factor for
  each match its row counts, the total by half a point.
-/
structure Drifts (first last : Board ℝ) : Prop where
  rows :
    ∀ pid row, first.players.get? pid = some row →
      ∃ row', last.players.get? pid = some row' ∧
        row.totalMatches ≤ row'.totalMatches ∧
          |row'.eloRating - row.eloRating| ≤
            32 *
              ((row'.totalMatches : Int) - row.totalMatches)
  total :
    2 * |totalRating last - totalRating first| ≤
      totalPlayed last - totalPlayed first

theorem Drifts.refl
    (board : Board ℝ) :
    Drifts board board where
  rows := fun pid row hRow =>
    ⟨row, hRow, le_refl _, by simp⟩
  total := by simp

theorem Drifts.trans
    {first next last : Board ℝ}
    (hFirst : Drifts first next)
    (hNext : Drifts next last) :
    Drifts first last where
  rows := by
    intro pid row hRow
    rcases hFirst.rows pid row hRow with
      ⟨row', hRow', hLe, hNear⟩
    rcases hNext.rows pid row' hRow' with
      ⟨row'', hRow'', hLe', hNear'⟩
    refine ⟨row'', hRow'', hLe.trans hLe', ?_⟩
    have hTriangle :=
      abs_sub_le row''.eloRating row'.eloRating row.eloRating
    linarith
  total := by
    have hTriangle :=
      abs_sub_le (totalRating last) (totalRating next)
        (totalRating first)
    linarith [hFirst.total, hNext.total]

/- A rated match drifts within the bounds. -/
theorem drifts_rate
    (board : Board ℝ)
    (event : MatchEnd)
    (processed : List (String × Timestamp)) :
    Drifts board
      { processed := processed
        players := rate board event } where
  rows := by
    intro pid row hRow
    simp only [rate_eq_mapVals, Dict.get?_mapVals, hRow,
      Option.map_some]
    refine ⟨_, rfl, ?_⟩
    by_cases hPlays : pid ∈ event.players
    · have hOld :
          (ratingsBefore board event).get? pid =
            some row.eloRating := by
        rw [ratingsBefore, Dict.get?_mapVals, get?_ratedRows,
          if_pos hPlays, hRow]
        rfl
      simp only [hPlays, if_true, updatedRow]
      refine ⟨Nat.le_succ _, ?_⟩
      cases hNew : (ratingsAfter board event).get? pid with
      | none => simp
      | some new =>
          have hNear := abs_newRatings_sub_le hOld hNew
          push_cast
          simpa using hNear
    · simp [hPlays]
  total := by
    rw [totalRating_rate, totalPlayed_rate]
    exact abs_sum_newRatings_sub_le _ _ _

/- So does a delivery, which may be a duplicate or roll back. -/
theorem drifts_deliver
    (board : Board ℝ)
    (d : Delivery) :
    Drifts board (deliver board d) := by
  unfold deliver applyMatch
  split
  · split
    · exact .refl board
    · exact drifts_rate board d.event _
  · exact .refl board

/-
  However often results are delivered and redelivered: a
  rating has moved by at most 32 points for every match that
  its row has counted since, and the total of all ratings by
  half a point for every match that a row has counted.
-/
theorem ratings_drift
    (board : Board ℝ)
    (deliveries : List Delivery) :
    (∀ pid row, board.players.get? pid = some row →
      ∃ row',
        (deliverAll board deliveries).players.get? pid =
            some row' ∧
          row.totalMatches ≤ row'.totalMatches ∧
            |row'.eloRating - row.eloRating| ≤
              32 *
                ((row'.totalMatches : Int) -
                  row.totalMatches)) ∧
      2 *
          |totalRating (deliverAll board deliveries) -
            totalRating board| ≤
        totalPlayed (deliverAll board deliveries) -
          totalPlayed board := by
  have hDrifts : Drifts board (deliverAll board deliveries) := by
    induction deliveries using List.reverseRecOn with
    | nil => exact .refl board
    | append_singleton deliveries d ih =>
        rw [deliverAll, List.foldl_append]
        exact ih.trans (drifts_deliver _ d)
  exact ⟨hDrifts.rows, hDrifts.total⟩

end Leaderboard
