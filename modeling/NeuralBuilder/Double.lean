import Mathlib.Analysis.SpecialFunctions.Trigonometric.DerivHyp
import Mathlib.Analysis.SpecialFunctions.Log.Basic
import Mathlib.Analysis.Real.Sqrt

/-!
# The numbers and the faults of the engine

The engine computes in `double` and calls `<cmath>`. The model is written
over a type of numbers `α` with those operations and no laws, so that what
holds of the code whatever the arithmetic – which shapes its matrices
have, which positions it reads, which of two loops computes the same term
as the other – is proved for rounded numbers as well. Where a result is
about exact arithmetic it is stated over `ℝ`, `std::exp`, `std::tanh`,
`log` and `std::sqrt` being the real functions there.

A call of the engine can stop in several ways. Some are exceptions the
source throws, or the library throws for it; the others are behaviours
the language leaves undefined, which no handler can see. `Fault` keeps
them apart.
-/

/-- **What the engine asks of `double`**: the operations it uses, with no
law among them. -/
class Double (α : Type) extends
    Zero α, One α, Add α, Sub α, Mul α, Div α, Neg α, NatCast α, OfScientific α where
  /-- `std::exp`. -/
  exp : α → α
  /-- `std::tanh`. -/
  tanh : α → α
  /-- `log`. -/
  log : α → α
  /-- `std::sqrt`. -/
  sqrt : α → α
  /-- `x < y`. -/
  lt : α → α → Bool
  /-- `x <= y`. -/
  le : α → α → Bool
  /-- `x == y`. -/
  eq : α → α → Bool
  /-- The conversion to `int`, which drops the fraction. -/
  toInt : α → ℤ

/-- **Doubles read as reals.** -/
noncomputable instance : Double ℝ where
  exp := Real.exp
  tanh := Real.tanh
  log := Real.log
  sqrt := Real.sqrt
  lt x y := decide (x < y)
  le x y := decide (x ≤ y)
  eq x y := decide (x = y)
  toInt x := if 0 ≤ x then ⌊x⌋ else ⌈x⌉

/-- The numbers the engine runs on. -/
instance : Double Float where
  zero := 0
  one := 1
  natCast := Float.ofNat
  exp := Float.exp
  tanh := Float.tanh
  log := Float.log
  sqrt := Float.sqrt
  lt x y := x < y
  le x y := x ≤ y
  eq x y := x == y
  toInt x := x.toInt64.toInt

namespace Double

@[simp] theorem exp_real (x : ℝ) : Double.exp x = Real.exp x := rfl

@[simp] theorem tanh_real (x : ℝ) : Double.tanh x = Real.tanh x := rfl

@[simp] theorem log_real (x : ℝ) : Double.log x = Real.log x := rfl

@[simp] theorem sqrt_real (x : ℝ) : Double.sqrt x = Real.sqrt x := rfl

@[simp] theorem lt_real (x y : ℝ) : Double.lt x y = decide (x < y) := rfl

@[simp] theorem le_real (x y : ℝ) : Double.le x y = decide (x ≤ y) := rfl

@[simp] theorem eq_real (x y : ℝ) : Double.eq x y = decide (x = y) := rfl

/-- The conversion to `int` returns the integer a number is. -/
@[simp] theorem toInt_intCast (k : ℤ) : Double.toInt (k : ℝ) = k := by
  show (if (0 : ℝ) ≤ k then ⌊(k : ℝ)⌋ else ⌈(k : ℝ)⌉) = k
  simp

@[simp] theorem toInt_natCast (k : ℕ) : Double.toInt (k : ℝ) = k := by
  simpa using toInt_intCast k

variable {α : Type} [Double α]

/-- A truth value converted to a number. -/
def ofBool (b : Bool) : α := if b then 1 else 0

end Double

/-- **How a call of the engine can stop.** -/
inductive Fault where
  /-- `std::invalid_argument`, with its text. -/
  | invalidArgument (what : String)
  /-- `std::runtime_error`, with its text. -/
  | runtimeError (what : String)
  /-- `std::length_error`: a vector was asked to have a negative size. -/
  | lengthError
  /-- `std::bad_alloc`: there was no memory for a vector. -/
  | badAlloc
  /-- `std::out_of_range`, with its text. -/
  | outOfRangeException (what : String)
  /-- A position outside a vector was read, written or sliced to:
  undefined. -/
  | outOfRange
  /-- A function ended without returning its result: undefined. -/
  | missingReturn
  /-- A value was read before it was written: undefined. -/
  | uninitialised
  /-- A sum of `int`s is too large for an `int`: undefined. -/
  | overflow
  /-- The loop has not ended within the number of turns the model was
  given. -/
  | outOfFuel
  deriving DecidableEq, Repr

/-- The faults a handler can catch. -/
def Fault.isException : Fault → Bool
  | .invalidArgument _ => true
  | .runtimeError _ => true
  | .lengthError => true
  | .badAlloc => true
  | .outOfRangeException _ => true
  | .outOfRange => false
  | .missingReturn => false
  | .uninitialised => false
  | .overflow => false
  | .outOfFuel => false
