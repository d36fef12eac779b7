import Mathlib.Data.Int.Sqrt

/-
  Python numbers and decoded JSON values.

  Key definitions include:
    * `Py.PyNumber`
    * `Py.PyNumber.min`
    * `Py.PyNumber.max`
    * `Py.PyNumber.AtMost`
    * `Py.LawfulPyNumber`
    * `Py.Json`
    * `Py.Json.get`
    * `Py.Json.number?`
    * `Py.Json.truthy`

  Arithmetic is a parameter: a development that is generic
  in `PyNumber` holds for floats with all their rounding, as
  well as for exact numbers.
-/

------------------------------------------------------------
-- Numbers
------------------------------------------------------------

namespace Py

/-
  The operations of Python numbers that the game uses.
  `addMul x d s` is `x + d * s`, which raises
  `OverflowError` when an integer does not fit a float;
  `dist` is `((x₁ - x₂) ** 2 + (y₁ - y₂) ** 2) ** 0.5`.
-/
class PyNumber (α : Type) where
  ofInt : Int → α
  addMul : α → α → α → Option α
  lt : α → α → Bool
  isZero : α → Bool
  dist : α → α → α → α → α

namespace PyNumber

variable {α : Type} [PyNumber α]

/- `min(a, b)`: the first argument unless the second is less. -/
def min (a b : α) : α :=
  if lt b a then b else a

/- `max(a, b)`: the first argument unless it is less. -/
def max (a b : α) : α :=
  if lt a b then b else a

/- `a <= b`, where equal numbers are the same value. -/
def AtMost (a b : α) : Prop :=
  lt a b = true ∨ a = b

end PyNumber

/- Whole numbers are compared exactly. -/
class LawfulPyNumber (α : Type) [PyNumber α] : Prop where
  lt_ofInt :
    ∀ m n : Int,
      PyNumber.lt (PyNumber.ofInt m : α)
          (PyNumber.ofInt n) =
        decide (m < n)

/-
  Whole-number arithmetic: what Python computes while every
  coordinate and input is an integer, up to the fraction of
  a distance.
-/
instance : PyNumber Int where
  ofInt n := n
  addMul x d s := some (x + d * s)
  lt x y := decide (x < y)
  isZero x := decide (x = 0)
  dist x₁ y₁ x₂ y₂ :=
    Int.sqrt (Int.pow (x₁ - x₂) 2 + Int.pow (y₁ - y₂) 2)

instance : LawfulPyNumber Int where
  lt_ofInt _ _ := rfl

end Py

------------------------------------------------------------
-- JSON Values
------------------------------------------------------------

namespace Py

/- What `json.loads` returns. -/
inductive Json (α : Type) where
  | null
  | bool (b : Bool)
  | num (v : α)
  | str (s : String)
  | arr (items : List (Json α))
  | obj (fields : List (String × Json α))

namespace Json

variable {α : Type}

/-
  `value.get(key, default)`.  Only objects have `get`; the
  last of several fields with one name counts.
-/
def get
    (value : Json α)
    (key : String)
    (default : Json α) :
    Option (Json α) :=
  match value with
  | .obj fields =>
      some ((fields.reverse.lookup key).getD default)
  | _ => none

variable [PyNumber α]

/- The operand of an arithmetic operation; booleans count. -/
def number? : Json α → Option α
| .num v => some v
| .bool b => some (PyNumber.ofInt (if b then 1 else 0))
| _ => none

/- `bool(value)`. -/
def truthy : Json α → Bool
| .null => false
| .bool b => b
| .num v => !PyNumber.isZero v
| .str s => !s.isEmpty
| .arr items => !items.isEmpty
| .obj fields => !fields.isEmpty

end Json

end Py
