import Mathlib.Algebra.BigOperators.Group.List.Basic
import Mathlib.Algebra.Field.Rat
import Mathlib.Algebra.Order.BigOperators.Group.List
import Mathlib.Algebra.Order.Floor.Ring
import Mathlib.Data.Int.Log
import Mathlib.Data.Rat.Defs
import Mathlib.Data.Rat.Floor
import Mathlib.Tactic.FieldSimp
import Mathlib.Tactic.Linarith
import Mathlib.Tactic.Positivity
import Mathlib.Tactic.Ring

/-!
# Decimal arithmetic with a rounding rule

The value of a finite decimal is a rational. An `Arith` says how the result of every operation is
rounded (`round`, the arithmetic context of the program) and what a numeric column keeps of a value
(`store`).  `Arith.exact` rounds nothing: under it the operations are those of the rationals. 
`toDigits` keeps so many significant digits, ties to the even one, `toPlaces` so many decimal
places, ties away from zero.
-/

namespace Lib

/-- how an operation rounds its result, and how a column stores it -/
structure Arith where
  round : ℚ → ℚ
  store : ℚ → ℚ

namespace Arith

variable (A : Arith)

def add (x y : ℚ) : ℚ := A.round (x + y)
def sub (x y : ℚ) : ℚ := A.round (x - y)
def mul (x y : ℚ) : ℚ := A.round (x * y)
def div (x y : ℚ) : ℚ := A.round (x / y)
def neg (x : ℚ) : ℚ := A.round (-x)
def abs (x : ℚ) : ℚ := A.round |x|

/-- the sum from the left, rounded at every term -/
def sum (l : List ℚ) : ℚ := l.foldl A.add 0

/-- no rounding at all -/
def exact : Arith := ⟨id, id⟩

@[simp] theorem exact_add (x y : ℚ) : exact.add x y = x + y := rfl
@[simp] theorem exact_sub (x y : ℚ) : exact.sub x y = x - y := rfl
@[simp] theorem exact_mul (x y : ℚ) : exact.mul x y = x * y := rfl
@[simp] theorem exact_div (x y : ℚ) : exact.div x y = x / y := rfl
@[simp] theorem exact_neg (x : ℚ) : exact.neg x = -x := rfl
@[simp] theorem exact_abs (x : ℚ) : exact.abs x = |x| := rfl
@[simp] theorem exact_store (x : ℚ) : exact.store x = x := rfl

@[simp] theorem exact_sum (l : List ℚ) : exact.sum l = l.sum := by
  rw [List.sum_eq_foldl]
  rfl

end Arith

/-! ## rounding -/

/-- the nearest integer, the even one of two -/
def halfEven (x : ℚ) : ℤ :=
  let low := ⌊x⌋
  let rest := x - low
  if rest < 1 / 2 ∨ rest = 1 / 2 ∧ low % 2 = 0 then low else low + 1

/-- the nearest integer, the outer one of two -/
def halfAway (x : ℚ) : ℤ := if 0 ≤ x then ⌊x + 1 / 2⌋ else -⌊-x + 1 / 2⌋

/-- half-even to so many significant digits -/
def toDigits (digits : ℕ) (x : ℚ) : ℚ :=
  if x = 0 then 0
  else
    let unit : ℚ := 10 ^ (Int.log 10 |x| - digits + 1)
    halfEven (x / unit) * unit

/-- half away from zero to so many decimal places -/
def toPlaces (places : ℕ) (x : ℚ) : ℚ := halfAway (x * 10 ^ places) / 10 ^ places

theorem halfEven_intCast (k : ℤ) : halfEven (k : ℚ) = k := by
  simp [halfEven]

end Lib
