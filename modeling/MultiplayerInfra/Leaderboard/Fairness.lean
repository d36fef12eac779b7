import Mathlib.Analysis.SpecialFunctions.Pow.Real
import MultiplayerInfra.Leaderboard.Elo
import MultiplayerInfra.Rounding.HalfEven
import MultiplayerInfra.Tournament.RoundRobin

/-
  What is fair about the ratings when they are computed
  exactly.

  Key definitions include:
    * `Leaderboard.pointsOf`
    * `Leaderboard.Generic.actual`
    * `Leaderboard.Generic.newRatings`
    * `Leaderboard.duel`
    * `Leaderboard.total`

  Key theorems include:
    * `Leaderboard.newRatings_eq`
    * `Leaderboard.get?_newRatings`
    * `Leaderboard.order_kept`
    * `Leaderboard.bounded_and_zero_sum`
    * `Leaderboard.more_points_never_hurt`
-/

------------------------------------------------------------
-- Exact Ratings
------------------------------------------------------------

namespace Leaderboard

/- Real arithmetic, and Python's `round` of its results. -/
noncomputable instance : RatingNumber ℝ where
  ofInt n := n
  add := (· + ·)
  sub := (· - ·)
  mul := (· * ·)
  div := (· / ·)
  tenPow x := (10 : ℝ) ^ x
  round := Rounding.halfEven

end Leaderboard

------------------------------------------------------------
-- Ratings and Scores of Any Kind
------------------------------------------------------------

namespace Leaderboard

open Py RatingNumber

variable {β σ : Type} [RatingNumber β]
variable [LinearOrder σ] [Zero σ]

omit [LinearOrder σ] in
/- `scores.get(a, 0)`. -/
def pointsOf
    (scores : Dict String σ)
    (a : String) : σ :=
  (scores.get? a).getD 0

namespace Generic

/- The result of a head-to-head game, by score. -/
def actual (sa sb : σ) : β :=
  if sb < sa then ofInt 1
  else if sa < sb then ofInt 0
  else div (ofInt 1) (ofInt 2)

/-
  `new_ratings`, for ratings that need not be whole and
  scores of any ordered kind.
-/
def newRatings
    (ratings : Dict String β)
    (scores : Dict String σ)
    (k : β) : Dict String β :=
  if ratings.entries.length < 2 then ratings
  else
    ratings.mapVals (fun a rating =>
      let delta : β :=
        ratings.entries.foldl
          (fun delta e =>
            if e.1 = a then delta
            else
              add delta
                (sub
                  (actual (pointsOf scores a)
                    (pointsOf scores e.1))
                  (expected rating e.2)))
          (ofInt 0)
      ofInt (round
        (add rating
          (div (mul k delta)
            (ofInt (ratings.entries.length - 1))))))

end Generic

/- Whole ratings and scores are a special case. -/
theorem newRatings_eq
    (ratings scores : Dict String Int)
    (k : β) :
    Generic.newRatings
        (ratings.mapVals (fun _ r => (ofInt r : β))) scores
        k =
      (newRatings ratings scores k).mapVals
        (fun _ r => ofInt r) := by
  have hLength :
      (ratings.mapVals
        (fun _ r => (ofInt r : β))).entries.length =
        ratings.entries.length := by
    simp [Dict.mapVals]
  unfold Generic.newRatings newRatings
  rw [hLength]
  by_cases hFew : ratings.entries.length < 2
  · rw [if_pos hFew, if_pos hFew]
  · rw [if_neg hFew, if_neg hFew]
    simp only [Dict.mapVals, List.map_map, List.foldl_map,
      Function.comp_def]
    rfl

end Leaderboard

------------------------------------------------------------
-- Duels
------------------------------------------------------------

namespace Leaderboard

open Py RatingNumber Tournament

variable {σ : Type} [LinearOrder σ] [Zero σ]

/- What a player gains against another, per unit of `k`. -/
noncomputable def duel
    (scores : Dict String σ)
    (e e' : String × ℝ) : ℝ :=
  Generic.actual (pointsOf scores e.1) (pointsOf scores e'.1) -
    expected e.2 e'.2

/- The expectation is a logistic curve of the difference. -/
theorem expected_eq_sigmoid
    (a b : ℝ) :
    expected a b =
      Real.sigmoid (Real.log 10 / 400 * (a - b)) := by
  have hPower :
      (10 : ℝ) ^ ((b - a) / 400) =
        Real.exp (-(Real.log 10 / 400 * (a - b))) := by
    rw [Real.rpow_def_of_pos (by norm_num)]
    congr 1
    ring
  have hUnfold :
      expected a b =
        ((1 : ℤ) : ℝ) /
          (((1 : ℤ) : ℝ) +
            (10 : ℝ) ^ ((b - a) / ((400 : ℤ) : ℝ))) := rfl
  rw [hUnfold, Real.sigmoid_def]
  push_cast
  rw [hPower, one_div]

theorem expected_add_expected
    (a b : ℝ) :
    expected a b + expected b a = 1 := by
  have hNeg :
      Real.log 10 / 400 * (b - a) =
        -(Real.log 10 / 400 * (a - b)) := by
    ring
  rw [expected_eq_sigmoid, expected_eq_sigmoid, hNeg,
    Real.sigmoid_neg]
  ring

/-
  A lead of 400 points costs less than a quarter of
  `log 10` in expectation.
-/
theorem expected_sub_le
    {a b : ℝ}
    (c : ℝ)
    (hLe : b ≤ a) :
    expected a c - expected b c ≤ 9 / 1600 * (a - b) := by
  have hLog : Real.log 10 ≤ 9 := by
    have hBound :=
      Real.log_le_sub_one_of_pos
        (show (0 : ℝ) < 10 by norm_num)
    linarith
  have hLogNonneg : 0 ≤ Real.log 10 :=
    Real.log_nonneg (by norm_num)
  have hOrder :
      Real.log 10 / 400 * (b - c) ≤
        Real.log 10 / 400 * (a - c) := by
    apply mul_le_mul_of_nonneg_left _ (by positivity)
    linarith
  have hSlope := sigmoid_sub_le hOrder
  rw [expected_eq_sigmoid, expected_eq_sigmoid]
  calc
    Real.sigmoid (Real.log 10 / 400 * (a - c)) -
          Real.sigmoid (Real.log 10 / 400 * (b - c))
        ≤ 1 / 4 * (Real.log 10 / 400 * (a - c) -
          Real.log 10 / 400 * (b - c)) := hSlope
    _ = Real.log 10 * ((a - b) / 1600) := by ring
    _ ≤ 9 * ((a - b) / 1600) := by
      apply mul_le_mul_of_nonneg_right hLog
      linarith
    _ = 9 / 1600 * (a - b) := by ring

omit [Zero σ] in
/- Of two results one is the rest of the other. -/
theorem actual_add_actual
    (sa sb : σ) :
    (Generic.actual sa sb : ℝ) + Generic.actual sb sa =
      1 := by
  unfold Generic.actual
  rcases lt_trichotomy sa sb with hLess | hSame | hMore
  · simp [hLess, not_lt_of_gt hLess, ofInt]
  · subst hSame
    simp [ofInt, div]
    norm_num
  · simp [hMore, not_lt_of_gt hMore, ofInt]

omit [Zero σ] in
theorem actual_mem
    (sa sb : σ) :
    0 ≤ (Generic.actual sa sb : ℝ) ∧
      (Generic.actual sa sb : ℝ) ≤ 1 := by
  unfold Generic.actual
  split
  · simp [ofInt]
  · split
    · simp [ofInt]
    · simp only [ofInt, div]
      norm_num

omit [Zero σ] in
/- More points, or a weaker opponent, give no less. -/
theorem actual_mono
    {sa sa' sb sb' : σ}
    (hOwn : sa ≤ sa')
    (hOther : sb' ≤ sb) :
    (Generic.actual sa sb : ℝ) ≤ Generic.actual sa' sb' := by
  by_cases hWins : sb < sa
  · have hWins' : sb' < sa' :=
      hOther.trans_lt (hWins.trans_le hOwn)
    simp [Generic.actual, hWins, hWins']
  · by_cases hLoses : sa < sb
    · have hZero : (Generic.actual sa sb : ℝ) = 0 := by
        simp [Generic.actual, hWins, hLoses, ofInt]
      rw [hZero]
      exact (actual_mem sa' sb').1
    · have hLost' : ¬ sa' < sb' := fun hLess =>
        hLoses ((hOwn.trans_lt hLess).trans_le hOther)
      simp only [Generic.actual, if_neg hWins,
        if_neg hLoses, if_neg hLost']
      split
      · simp only [ofInt, div]
        norm_num
      · exact le_refl _

theorem duel_anti
    (scores : Dict String σ)
    (e e' : String × ℝ) :
    duel scores e e' = -duel scores e' e := by
  have hResults :=
    actual_add_actual (pointsOf scores e.1)
      (pointsOf scores e'.1)
  have hExpected := expected_add_expected e.2 e'.2
  unfold duel
  linarith

theorem duel_self
    (scores : Dict String σ)
    (e : String × ℝ) :
    duel scores e e = 0 := by
  have hAnti := duel_anti scores e e
  linarith

theorem abs_duel_le
    (scores : Dict String σ)
    (e e' : String × ℝ) :
    |duel scores e e'| ≤ 1 := by
  have hResult :=
    actual_mem (pointsOf scores e.1) (pointsOf scores e'.1)
  have hPos : 0 ≤ expected e.2 e'.2 := by
    rw [expected_eq_sigmoid]
    exact Real.sigmoid_nonneg _
  have hLess : expected e.2 e'.2 ≤ 1 := by
    rw [expected_eq_sigmoid]
    exact Real.sigmoid_le_one _
  unfold duel
  rw [abs_le]
  constructor <;> linarith

end Leaderboard

------------------------------------------------------------
-- New Ratings
------------------------------------------------------------

namespace Leaderboard

open Py RatingNumber Tournament Rounding

variable {σ : Type} [LinearOrder σ] [Zero σ]
variable {ratings : Dict String ℝ}
variable {scores : Dict String σ} {k : ℝ}

/- A rating before it is rounded. -/
noncomputable def unrounded
    (ratings : Dict String ℝ)
    (scores : Dict String σ)
    (k : ℝ)
    (e : String × ℝ) : ℝ :=
  e.2 +
    k * margin (duel scores) ratings.entries e /
      (ratings.entries.length - 1)

/- The loop over the opponents adds up the duels. -/
theorem foldl_duels
    {e : String × ℝ}
    (hMem : e ∈ ratings.entries) :
    ratings.entries.foldl
        (fun delta e' =>
          if e'.1 = e.1 then delta
          else
            add delta
              (sub
                (Generic.actual (pointsOf scores e.1)
                  (pointsOf scores e'.1))
                (expected e.2 e'.2)))
        (ofInt 0 : ℝ) =
      margin (duel scores) ratings.entries e := by
  have hGeneral :
      ∀ (l : List (String × ℝ)) (delta : ℝ),
        l ⊆ ratings.entries →
          l.foldl
              (fun delta e' =>
                if e'.1 = e.1 then delta
                else
                  add delta
                    (sub
                      (Generic.actual (pointsOf scores e.1)
                        (pointsOf scores e'.1))
                      (expected e.2 e'.2))) delta =
            delta + margin (duel scores) l e := by
    intro l
    induction l with
    | nil => simp [margin]
    | cons e' l ih =>
        intro delta hSub
        rw [List.foldl_cons, ih _ (fun x hx =>
          hSub (List.mem_cons_of_mem _ hx))]
        by_cases hSame : e'.1 = e.1
        · -- the player herself, who plays herself to a draw
          have hGet :=
            ratings.get?_of_mem (hSub List.mem_cons_self)
          have hEntry : e' = e := by
            rw [hSame, ratings.get?_of_mem hMem] at hGet
            exact
              Prod.ext hSame (Option.some.inj hGet).symm
          subst hEntry
          simp [margin, duel_self]
        · rw [if_neg hSame]
          simp only [margin, List.map_cons, List.sum_cons,
            duel, add, sub]
          ring
  have hWhole := hGeneral ratings.entries (ofInt 0)
    (List.Subset.refl _)
  rw [hWhole]
  simp [ofInt]

/- The new ratings of a match. -/
theorem entries_newRatings
    (scores : Dict String σ)
    (k : ℝ)
    (hMany : 2 ≤ ratings.entries.length) :
    (Generic.newRatings ratings scores k).entries =
      ratings.entries.map (fun e =>
        (e.1,
          (halfEven (unrounded ratings scores k e) : ℝ))) := by
  have hOpponents :
      (ofInt ((ratings.entries.length : Int) - 1) : ℝ) =
        (ratings.entries.length : ℝ) - 1 := by
    simp [ofInt]
  rw [Generic.newRatings, if_neg (not_lt.mpr hMany),
    Dict.mapVals]
  apply List.map_congr_left
  intro e hMem
  rw [foldl_duels hMem, hOpponents]
  rfl

/- The new rating of one of its players. -/
theorem get?_newRatings
    (hMany : 2 ≤ ratings.entries.length)
    {e : String × ℝ}
    (hMem : e ∈ ratings.entries) :
    (Generic.newRatings ratings scores k).get? e.1 =
      some (halfEven (unrounded ratings scores k e) : ℝ) := by
  have hEntry :
      (e.1, (halfEven (unrounded ratings scores k e) : ℝ)) ∈
        (Generic.newRatings ratings scores k).entries := by
    rw [entries_newRatings scores k hMany]
    exact List.mem_map_of_mem hMem
  exact Dict.get?_of_mem _ hEntry

/- A match of one player changes nothing. -/
theorem newRatings_of_lt
    (hFew : ratings.entries.length < 2) :
    Generic.newRatings ratings scores k = ratings := by
  rw [Generic.newRatings, if_pos hFew]

end Leaderboard

------------------------------------------------------------
-- Order
------------------------------------------------------------

namespace Leaderboard

open Py RatingNumber Tournament Rounding

variable {σ : Type} [LinearOrder σ] [Zero σ]

/-
  A player who was not rated lower and did not score less
  keeps at least her lead before rounding: what she loses in
  expectation, against all opponents, is less than it.
-/
theorem unrounded_le_unrounded
    {ratings : Dict String ℝ}
    (scores : Dict String σ)
    (hMany : 2 ≤ ratings.entries.length)
    {a b : String × ℝ}
    (hRating : b.2 ≤ a.2)
    (hScore : pointsOf scores b.1 ≤ pointsOf scores a.1) :
    unrounded ratings scores (kFactor : ℝ) b ≤
      unrounded ratings scores (kFactor : ℝ) a := by
  have hLength : (2 : ℝ) ≤ ratings.entries.length := by
    exact_mod_cast hMany
  have hDuels :
      ∀ e ∈ ratings.entries,
        duel scores b e - duel scores a e ≤
          9 / 1600 * (a.2 - b.2) := by
    intro e _
    have hResults :=
      actual_mono hScore (le_refl (pointsOf scores e.1))
    have hExpected := expected_sub_le e.2 hRating
    unfold duel
    linarith
  have hMargins := margin_sub_margin_le hDuels
  have hK : (kFactor : ℝ) = 32 := by norm_num [kFactor]
  have hOpponents :
      (0 : ℝ) < ratings.entries.length - 1 := by
    linarith
  have hLead :
      (32 : ℝ) *
            (margin (duel scores) ratings.entries b -
              margin (duel scores) ratings.entries a) /
          (ratings.entries.length - 1) ≤ a.2 - b.2 := by
    rw [div_le_iff₀ hOpponents]
    nlinarith only [hMargins, hLength, hRating]
  unfold unrounded
  rw [hK]
  have hSplit :
      (32 : ℝ) *
            (margin (duel scores) ratings.entries b -
              margin (duel scores) ratings.entries a) /
          (ratings.entries.length - 1) =
        32 * margin (duel scores) ratings.entries b /
            (ratings.entries.length - 1) -
          32 * margin (duel scores) ratings.entries a /
            (ratings.entries.length - 1) := by
    ring
  rw [hSplit] at hLead
  linarith

/-
  Whoever was rated at least as high and scored at least as
  much is rated at least as high afterwards.
-/
theorem order_kept
    (ratings : Dict String ℝ)
    (scores : Dict String σ)
    {a b : String × ℝ}
    (hA : a ∈ ratings.entries)
    (hB : b ∈ ratings.entries)
    (hRating : b.2 ≤ a.2)
    (hScore : pointsOf scores b.1 ≤ pointsOf scores a.1) :
    ∃ newA newB,
      (Generic.newRatings ratings scores
          (kFactor : ℝ)).get? a.1 = some newA ∧
        (Generic.newRatings ratings scores
          (kFactor : ℝ)).get? b.1 = some newB ∧
        newB ≤ newA := by
  by_cases hMany : 2 ≤ ratings.entries.length
  · refine
      ⟨_, _, get?_newRatings hMany hA,
        get?_newRatings hMany hB, ?_⟩
    exact_mod_cast
      halfEven_mono
        (unrounded_le_unrounded scores hMany hRating hScore)
  · rw [newRatings_of_lt (not_le.mp hMany)]
    exact
      ⟨a.2, b.2, ratings.get?_of_mem hA,
        ratings.get?_of_mem hB, hRating⟩

/- Ann leads Bob by 400 points, and they draw. -/
theorem order_kept_draw :
    ∃ newA newB,
      (Generic.newRatings
          ((Dict.empty.set "ann" (1600 : ℝ)).set "bob" 1200)
          (Dict.empty : Dict String Int)
          (kFactor : ℝ)).get? "ann" = some newA ∧
        (Generic.newRatings
          ((Dict.empty.set "ann" (1600 : ℝ)).set "bob" 1200)
          (Dict.empty : Dict String Int)
          (kFactor : ℝ)).get? "bob" = some newB ∧
        newB ≤ newA :=
  order_kept _ _
    (a := ("ann", 1600)) (b := ("bob", 1200))
    (Dict.mem_of_get? (by simp [Dict.get?_set]))
    (Dict.mem_of_get? (by simp))
    (by norm_num) (le_refl _)

end Leaderboard

------------------------------------------------------------
-- Sum and Bound
------------------------------------------------------------

namespace Leaderboard

open Py RatingNumber Tournament Rounding

variable {σ : Type} [LinearOrder σ] [Zero σ]

/- All ratings together. -/
noncomputable def total (ratings : Dict String ℝ) : ℝ :=
  (ratings.entries.map Prod.snd).sum

/- Whole ratings, as real numbers. -/
noncomputable def exact
    (ratings : Dict String Int) : Dict String ℝ :=
  ratings.mapVals (fun _ (r : Int) => (r : ℝ))

/- Before rounding, nothing is won or lost in total. -/
theorem sum_unrounded
    (ratings : Dict String ℝ)
    (scores : Dict String σ)
    (k : ℝ) :
    (ratings.entries.map (unrounded ratings scores k)).sum =
      total ratings := by
  have hMargins :=
    sum_margin_eq_zero (duel_anti scores) ratings.entries
  have hSplit :
      (ratings.entries.map
          (unrounded ratings scores k)).sum =
        total ratings +
          k / (ratings.entries.length - 1) *
            (ratings.entries.map
              (margin (duel scores)
                ratings.entries)).sum := by
    unfold unrounded total
    rw [List.sum_map_add, ← List.sum_map_mul_left]
    congr 2
    apply List.map_congr_left
    intro e _
    ring
  rw [hSplit, hMargins, mul_zero, add_zero]

/- Each rating is off by a half at most. -/
theorem abs_sum_halfEven_sub_le
    {ι : Type}
    (f : ι → ℝ)
    (l : List ι) :
    |(l.map (fun i => (halfEven (f i) : ℝ))).sum -
        (l.map f).sum| ≤ l.length / 2 := by
  induction l with
  | nil => simp
  | cons i l ih =>
      have hHead := abs_halfEven_sub_le (f i)
      rw [abs_le] at hHead ih ⊢
      simp only [List.map_cons, List.sum_cons,
        List.length_cons]
      push_cast
      constructor <;> linarith [hHead.1, hHead.2, ih.1, ih.2]

/- The change of a rating before it is rounded. -/
theorem abs_unrounded_sub_le
    {ratings : Dict String ℝ}
    (scores : Dict String σ)
    (k : ℝ)
    (hMany : 2 ≤ ratings.entries.length)
    {e : String × ℝ}
    (hMem : e ∈ ratings.entries) :
    |unrounded ratings scores k e - e.2| ≤ |k| := by
  have hLength : (2 : ℝ) ≤ ratings.entries.length := by
    exact_mod_cast hMany
  have hOpponents :
      (0 : ℝ) < ratings.entries.length - 1 := by
    linarith
  have hMargin :=
    abs_margin_le hMem (duel_self scores e)
      (abs_duel_le scores e)
  rw [unrounded, add_sub_cancel_left, abs_div, abs_mul,
    abs_of_pos hOpponents, div_le_iff₀ hOpponents]
  exact mul_le_mul_of_nonneg_left hMargin (abs_nonneg k)

/-
  A rating changes by no more than `k`, rounded up to a whole
  number; the total by no more than a half for each player.
-/
theorem bounded_and_zero_sum
    (ratings : Dict String Int)
    (scores : Dict String σ)
    (k : ℝ) :
    (∀ e ∈ ratings.entries,
      ∃ new : Int,
        (Generic.newRatings (exact ratings) scores k).get?
            e.1 = some (new : ℝ) ∧
          |new - e.2| ≤ ⌈|k|⌉) ∧
      |total (Generic.newRatings (exact ratings) scores k) -
          total (exact ratings)| ≤
        ratings.entries.length / 2 := by
  have hLength :
      (exact ratings).entries.length =
        ratings.entries.length := by
    simp [exact, Dict.mapVals]
  have hEntries :
      ∀ e ∈ ratings.entries,
        (e.1, (e.2 : ℝ)) ∈ (exact ratings).entries := by
    intro e hMem
    exact List.mem_map_of_mem hMem
  by_cases hMany : 2 ≤ (exact ratings).entries.length
  · constructor
    · intro e hMem
      refine ⟨_, get?_newRatings hMany (hEntries e hMem), ?_⟩
      apply abs_halfEven_sub_intCast_le
      exact
        (abs_unrounded_sub_le scores k hMany
          (hEntries e hMem)).trans (Int.le_ceil _)
    · rw [total, entries_newRatings scores k hMany,
        List.map_map, ← sum_unrounded (exact ratings) scores k,
        ← hLength]
      exact abs_sum_halfEven_sub_le _ _
  · rw [newRatings_of_lt (not_le.mp hMany)]
    constructor
    · intro e hMem
      refine ⟨e.2, ?_, ?_⟩
      · exact (exact ratings).get?_of_mem (hEntries e hMem)
      · rw [sub_self, abs_zero]
        exact Int.ceil_nonneg (abs_nonneg k)
    · rw [sub_self, abs_zero]
      positivity

/-
  With a factor of 0.6, an upset is worth 6/11 of a point,
  which is rounded to a whole one.
-/
theorem small_factor_overshoots :
    (Generic.newRatings
        (exact ((Dict.empty.set "ann" 1200).set "bob" 1600))
        (Dict.empty.set "ann" (1 : Int)) (3 / 5)).get?
          "ann" = some 1201 ∧
      (3 / 5 : ℝ) < |1201 - 1200| := by
  have hEntries :
      (exact ((Dict.empty.set "ann" 1200).set "bob"
        1600)).entries =
        [("ann", 1200), ("bob", 1600)] := by
    simp [exact, Dict.mapVals, Dict.set, Dict.empty, assign]
  have hExpected : expected (1200 : ℝ) 1600 = 1 / 11 := by
    simp only [expected, div, add, sub, tenPow, ofInt]
    norm_num
  have hMargin :
      margin (duel (Dict.empty.set "ann" (1 : Int)))
          [("ann", (1200 : ℝ)), ("bob", 1600)]
          ("ann", 1200) = 10 / 11 := by
    simp only [margin, List.map_cons, List.map_nil,
      List.sum_cons, List.sum_nil, duel_self]
    simp only [duel, hExpected, pointsOf, Dict.get?_set,
      Dict.get?_empty]
    simp [Generic.actual, ofInt]
    norm_num
  have hRounded :
      halfEven (1200 + 3 / 5 * (10 / 11) / (2 - 1) : ℝ) =
        1201 := by
    have hFloor :
        ⌊(1200 + 3 / 5 * (10 / 11) / (2 - 1) : ℝ)⌋ =
          1200 := by
      rw [Int.floor_eq_iff]
      norm_num
    rw [halfEven, hFloor]
    norm_num
  constructor
  · have hMany :
        2 ≤
          (exact ((Dict.empty.set "ann" 1200).set "bob"
            1600)).entries.length := by
      simp [hEntries]
    have hMem :
        ("ann", (1200 : ℝ)) ∈
          (exact ((Dict.empty.set "ann" 1200).set "bob"
            1600)).entries := by
      simp [hEntries]
    rw [get?_newRatings hMany hMem, unrounded, hEntries, hMargin]
    simp [hRounded]
  · norm_num

end Leaderboard

------------------------------------------------------------
-- More Points
------------------------------------------------------------

namespace Leaderboard

open Py RatingNumber Tournament Rounding

variable {σ : Type} [LinearOrder σ] [Zero σ]

/- Whoever does better in every duel has no lower rating. -/
theorem unrounded_mono
    {ratings : Dict String ℝ}
    {scores scores' : Dict String σ}
    {k : ℝ}
    (hFactor : 0 ≤ k)
    (hMany : 2 ≤ ratings.entries.length)
    {e : String × ℝ}
    (hDuels :
      ∀ e', duel scores e e' ≤ duel scores' e e') :
    unrounded ratings scores k e ≤
      unrounded ratings scores' k e := by
  have hLength : (2 : ℝ) ≤ ratings.entries.length := by
    exact_mod_cast hMany
  have hMargins :
      margin (duel scores) ratings.entries e ≤
        margin (duel scores') ratings.entries e :=
    margin_le_margin (fun e' _ => hDuels e')
  unfold unrounded
  apply add_le_add_right
  apply div_le_div_of_nonneg_right
  · exact mul_le_mul_of_nonneg_left hMargins hFactor
  · linarith

omit [Zero σ] in
/- Whoever draws with herself does so with any score. -/
theorem actual_self
    (s : σ) :
    (Generic.actual s s : ℝ) = 1 / 2 := by
  have hBoth := actual_add_actual s s
  linarith

/-
  A higher score of one player does not lower her rating,
  and does not raise that of anybody else.
-/
theorem more_points_never_hurt
    (ratings : Dict String ℝ)
    {scores scores' : Dict String σ}
    {k : ℝ}
    (hFactor : 0 ≤ k)
    {a : String}
    (hMore : pointsOf scores a ≤ pointsOf scores' a)
    (hOthers :
      ∀ b, b ≠ a → pointsOf scores' b = pointsOf scores b) :
    ∀ e ∈ ratings.entries,
      ∃ old new,
        (Generic.newRatings ratings scores k).get? e.1 =
            some old ∧
          (Generic.newRatings ratings scores' k).get? e.1 =
            some new ∧
          (e.1 = a → old ≤ new) ∧
          (e.1 ≠ a → new ≤ old) := by
  intro e hMem
  by_cases hMany : 2 ≤ ratings.entries.length
  · refine
      ⟨_, _, get?_newRatings hMany hMem,
        get?_newRatings hMany hMem, ?_, ?_⟩
    · intro hSame
      have hDuels :
          ∀ e', duel scores e e' ≤ duel scores' e e' := by
        intro e'
        unfold duel
        apply sub_le_sub_right
        by_cases hSelf : e'.1 = a
        · rw [hSame, hSelf, actual_self, actual_self]
        · rw [hSame]
          exact actual_mono hMore (hOthers _ hSelf).le
      exact_mod_cast
        halfEven_mono (unrounded_mono hFactor hMany hDuels)
    · intro hOther
      have hDuels :
          ∀ e', duel scores' e e' ≤ duel scores e e' := by
        intro e'
        unfold duel
        apply sub_le_sub_right
        apply actual_mono (hOthers _ hOther).le
        by_cases hSelf : e'.1 = a
        · rw [hSelf]
          exact hMore
        · exact (hOthers _ hSelf).ge
      exact_mod_cast
        halfEven_mono (unrounded_mono hFactor hMany hDuels)
  · rw [newRatings_of_lt (not_le.mp hMany),
      newRatings_of_lt (not_le.mp hMany)]
    exact
      ⟨e.2, e.2, ratings.get?_of_mem hMem,
        ratings.get?_of_mem hMem, fun _ => le_refl _,
        fun _ => le_refl _⟩

/- Ann scores once more than Bob, instead of once less. -/
theorem more_points_never_hurt_ann :
    ∃ old new,
      (Generic.newRatings
          ((Dict.empty.set "ann" (1200 : ℝ)).set "bob" 1300.5)
          ((Dict.empty.set "bob" (20 : Int)).set "ann" 10)
          (kFactor : ℝ)).get? "ann" = some old ∧
        (Generic.newRatings
          ((Dict.empty.set "ann" (1200 : ℝ)).set "bob" 1300.5)
          ((Dict.empty.set "bob" (20 : Int)).set "ann" 30)
          (kFactor : ℝ)).get? "ann" = some new ∧
        ("ann" = "ann" → old ≤ new) ∧
        ("ann" ≠ "ann" → new ≤ old) := by
  refine
    more_points_never_hurt _ (by norm_num [kFactor])
      (by decide) ?_ ("ann", 1200)
      (by simp [Dict.set, Dict.empty, assign])
  intro b hOther
  simp [pointsOf, Dict.get?_set, hOther]

end Leaderboard
