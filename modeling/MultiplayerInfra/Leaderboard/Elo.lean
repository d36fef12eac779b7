import Mathlib.Data.Rat.Floor
import MultiplayerInfra.Py.Dict

/-
  The rating arithmetic of the leaderboard.

  Key definitions include:
    * `Leaderboard.RatingNumber`
    * `Leaderboard.expected`
    * `Leaderboard.newRatings`
    * `Leaderboard.newAverage`

  Ratings are whole numbers; what is computed between them
  is generic, so that results hold for floats too.
-/

------------------------------------------------------------
-- Numbers
------------------------------------------------------------

namespace Leaderboard

/-
  The operations on floats that ratings need; `tenPow x` is
  `10 ** x`, and `round` is Python's `round`.
-/
class RatingNumber (β : Type) where
  ofInt : Int → β
  add : β → β → β
  sub : β → β → β
  mul : β → β → β
  div : β → β → β
  tenPow : β → β
  round : β → Int

/- Python's `round` on exact numbers: ties go to even. -/
def roundHalfEven (x : Rat) : Int :=
  if x - ⌊x⌋ < 1 / 2 then ⌊x⌋
  else if 1 / 2 < x - ⌊x⌋ then ⌊x⌋ + 1
  else if ⌊x⌋ % 2 = 0 then ⌊x⌋
  else ⌊x⌋ + 1

/-
  Exact arithmetic; powers of ten are right at whole
  exponents, such as those of equal ratings.
-/
instance : RatingNumber Rat where
  ofInt n := n
  add := (· + ·)
  sub := (· - ·)
  mul := (· * ·)
  div := (· / ·)
  tenPow x := 10 ^ ⌊x⌋
  round := roundHalfEven

end Leaderboard

------------------------------------------------------------
-- Elo
------------------------------------------------------------

namespace Leaderboard

open Py RatingNumber

variable {β : Type} [RatingNumber β]

/- `K_FACTOR`. -/
def kFactor : Int := 32

/- The chance of a player with rating `a` against `b`. -/
def expected (a b : β) : β :=
  div (ofInt 1)
    (add (ofInt 1) (tenPow (div (sub b a) (ofInt 400))))

/- The result of a head-to-head game, by score. -/
def actual (sa sb : Int) : β :=
  if sb < sa then ofInt 1
  else if sa < sb then ofInt 0
  else div (ofInt 1) (ofInt 2)

/-
  `new_ratings`: every player changes by the average over
  all opponents.
-/
def newRatings
    (ratings scores : Dict String Int)
    (k : β) :
    Dict String Int :=
  if ratings.entries.length < 2 then ratings
  else
    ratings.mapVals (fun a rating =>
      let delta : β :=
        ratings.entries.foldl
          (fun delta e =>
            if e.1 = a then delta
            else
              add delta
                (sub
                  (actual ((scores.get? a).getD 0)
                    ((scores.get? e.1).getD 0))
                  (expected (ofInt rating) (ofInt e.2))))
          (ofInt 0)
      round
        (add (ofInt rating)
          (div (mul k delta)
            (ofInt (ratings.entries.length - 1)))))

def newAverage
    (oldAvg : β)
    (oldTotal : Nat)
    (score : Int) :
    β :=
  div (add (mul oldAvg (ofInt oldTotal)) (ofInt score))
    (ofInt (oldTotal + 1))

end Leaderboard
