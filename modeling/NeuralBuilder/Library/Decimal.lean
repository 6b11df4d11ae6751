import Mathlib.Algebra.Order.Floor.Ring
import Mathlib.Data.Rat.Cast.Defs
import Mathlib.Tactic.FieldSimp
import Mathlib.Tactic.Ring
import NeuralBuilder.Library.Scan

/-!
# Numbers in fixed notation

A number is written in fixed notation with `k` decimals as the nearest
multiple of `10 ^ (-k)`, its digits before the point and `k` digits after it.
Read as a number, the text is that multiple (`value_fixed`).

Rounding to the nearest multiple, ties to even, is a function on an ordered
field with a floor. The text is a list of digits, so that its length and its
characters can be spoken of, and reading it back is exact.
-/

namespace Decimal

variable {K : Type} [Field K] [LinearOrder K] [FloorRing K]

/-- **The nearest integer**, and the even one of two that are as near. -/
def roundEven (x : K) : ℤ :=
  if Int.fract x < 1 - Int.fract x then ⌊x⌋
  else if 1 - Int.fract x < Int.fract x then ⌊x⌋ + 1
  else if ⌊x⌋ % 2 = 0 then ⌊x⌋
  else ⌊x⌋ + 1

theorem roundEven_nonneg [IsStrictOrderedRing K] {x : K} (hx : 0 ≤ x) : 0 ≤ roundEven x := by
  have hfloor : 0 ≤ ⌊x⌋ := Int.floor_nonneg.mpr hx
  unfold roundEven
  split_ifs <;> omega

/-- **`u` units of the last of `k` decimals** in fixed notation. -/
def fixed (k u : ℕ) : List Char :=
  Nat.toDigits 10 (u / 10 ^ k) ++ '.' :: (Nat.toDigits 10 (u % 10 ^ k)).leftpad k '0'

/-- The digits after the point, if there is one. -/
def fraction : List Char → List Char
  | '.' :: text => text.takeWhile Char.isDigit
  | _ => []

/-- **The number at the start of a text of digits and points**: the longest
one, if there is a digit. -/
def value (text : List Char) : Option ℚ :=
  let whole := text.takeWhile Char.isDigit
  let fraction := fraction (text.dropWhile Char.isDigit)
  if whole = [] ∧ fraction = [] then none
  else some (Nat.ofDigitChars 10 whole 0 + Nat.ofDigitChars 10 fraction 0 / 10 ^ fraction.length)

theorem isDigit_toDigits {n : ℕ} : ∀ c ∈ Nat.toDigits 10 n, c.isDigit = true :=
  fun _ hc => Nat.isDigit_of_mem_toDigits (by decide) (by decide) hc

/-- The decimals of a text in fixed notation. -/
theorem isDigit_leftpad {k n : ℕ} : ∀ c ∈ (Nat.toDigits 10 n).leftpad k '0', c.isDigit = true := by
  intro c hc
  rw [List.leftpad, List.mem_append] at hc
  rcases hc with hc | hc
  · rw [List.eq_of_mem_replicate hc]
    rfl
  · exact isDigit_toDigits c hc

/-- A text in fixed notation has digits and a point. -/
theorem mem_fixed {k u : ℕ} {c : Char} (hc : c ∈ fixed k u) : c.isDigit = true ∨ c = '.' := by
  rw [fixed, List.mem_append, List.mem_cons] at hc
  rcases hc with hc | rfl | hc
  · exact .inl (isDigit_toDigits c hc)
  · exact .inr rfl
  · exact .inl (isDigit_leftpad c hc)

theorem fixed_ne_nil (k u : ℕ) : fixed k u ≠ [] :=
  fun h => Nat.toDigits_ne_nil (List.append_eq_nil_iff.mp h).1

/-- It starts with a digit. -/
theorem isDigit_head_fixed {k u : ℕ} : ∀ c ∈ (fixed k u).head?, c.isDigit = true := by
  intro c hc
  rw [fixed, List.head?_append_of_ne_nil _ Nat.toDigits_ne_nil] at hc
  exact isDigit_toDigits c (List.mem_of_mem_head? hc)

/-- The decimals are a run of `k` digits. -/
theorem length_leftpad_toDigits {k n : ℕ} (hk : 0 < k) (hn : n < 10 ^ k) :
    ((Nat.toDigits 10 n).leftpad k '0').length = k := by
  have hle := (Nat.length_toDigits_le_iff (by decide) hk).mpr hn
  rw [List.leftpad, List.length_append, List.length_replicate, Nat.sub_add_cancel hle]

theorem ofDigitChars_leftpad (k n : ℕ) :
    Nat.ofDigitChars 10 ((Nat.toDigits 10 n).leftpad k '0') 0 = n := by
  rw [List.leftpad, Nat.ofDigitChars_append, Nat.ofDigitChars_replicate_zero, Nat.mul_zero,
    Nat.ofDigitChars_ten_toDigits]

/-- **What is written in fixed notation is read as it was written.** -/
theorem value_fixed {k : ℕ} (hk : 0 < k) (u : ℕ) : value (fixed k u) = some ((u : ℚ) / 10 ^ k) := by
  have hpos : 0 < 10 ^ k := Nat.pow_pos (by decide)
  have hwhole : (fixed k u).takeWhile Char.isDigit = Nat.toDigits 10 (u / 10 ^ k) :=
    Scan.takeWhile_append isDigit_toDigits (by rintro c ⟨⟩; rfl)
  have hfraction : fraction ((fixed k u).dropWhile Char.isDigit)
      = (Nat.toDigits 10 (u % 10 ^ k)).leftpad k '0' := by
    rw [fixed, Scan.dropWhile_append isDigit_toDigits (by rintro c ⟨⟩; rfl)]
    exact List.takeWhile_eq_self_iff.mpr isDigit_leftpad
  have hsome : ¬ (Nat.toDigits 10 (u / 10 ^ k) = []
      ∧ (Nat.toDigits 10 (u % 10 ^ k)).leftpad k '0' = []) :=
    fun h => Nat.toDigits_ne_nil h.1
  rw [value, hwhole, hfraction, if_neg hsome, Nat.ofDigitChars_ten_toDigits, ofDigitChars_leftpad,
    length_leftpad_toDigits hk (Nat.mod_lt u hpos)]
  refine congrArg some ?_
  have hsplit : (10 ^ k * (u / 10 ^ k : ℕ) + (u % 10 ^ k : ℕ) : ℚ) = u := by
    exact_mod_cast Nat.div_add_mod u (10 ^ k)
  rw [← hsplit]
  field_simp

end Decimal
