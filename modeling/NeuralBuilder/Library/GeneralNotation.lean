import Mathlib.Data.Int.Log
import Mathlib.Data.Rat.Floor
import NeuralBuilder.Library.Decimal
import NeuralBuilder.Library.Numeral

/-!
# General notation

A number in general notation is rounded to `P` significant digits. Its point
stands where it belongs, or behind the first digit with an exponent, if the
number is small or large; in both cases the zeros at the end of the fraction are
left out, and the point with them.

The exponent is found from the size of the number, and rounding may move it by
one. Both are part of the definition (`significant`). What is written is at most
half a unit of the last significant digit away from the number
(`abs_sub_value_general_le`), and its notation is that of `%g`
(`isGeneral_general`).
-/

namespace GeneralNotation

open Decimal

/-! ## Significant digits -/

theorem le_roundEven {k : ℤ} {x : ℚ} (h : (k : ℚ) ≤ x) : k ≤ roundEven x := by
  have hfloor : k ≤ ⌊x⌋ := Int.le_floor.mpr h
  unfold roundEven
  split_ifs <;> omega

theorem roundEven_le {k : ℤ} {x : ℚ} (h : x < k) : roundEven x ≤ k := by
  have hfloor : ⌊x⌋ < k := Int.floor_lt.mpr h
  unfold roundEven
  split_ifs <;> omega

/-- The nearest integer is at most a half away. -/
theorem abs_sub_roundEven_le (x : ℚ) : |x - roundEven x| ≤ 1 / 2 := by
  have hfract := Int.floor_add_fract x
  have hnonneg := Int.fract_nonneg x
  have hlt := Int.fract_lt_one x
  rw [abs_le]
  unfold roundEven
  split_ifs with hlow hhigh heven
  · constructor <;> linarith
  · push_cast
    constructor <;> linarith
  · constructor <;> linarith
  · push_cast
    constructor <;> linarith

/-- **The significant digits of a positive number** as one number, and the power
of ten the first of them counts. -/
def significant (P : ℕ) (x : ℚ) : ℕ × ℤ :=
  let X := Int.log 10 x
  let n := (roundEven (x / 10 ^ (X + 1 - P))).toNat
  if n = 10 ^ P then (10 ^ (P - 1), X + 1) else (n, X)

/-- There are `P` of them, and they are as near as can be. -/
theorem significant_spec {P : ℕ} (hP : 0 < P) {x : ℚ} (hx : 0 < x) :
    10 ^ (P - 1) ≤ (significant P x).1 ∧ (significant P x).1 < 10 ^ P
      ∧ |x - (significant P x).1 * 10 ^ ((significant P x).2 + 1 - P)|
        ≤ 10 ^ ((significant P x).2 + 1 - P) / 2 := by
  have hten : (10 : ℚ) ≠ 0 := by norm_num
  have hone : (1 : ℚ) < 10 := by norm_num
  set X := Int.log 10 x with hX
  set y := x / 10 ^ (X + 1 - P) with hy
  have hunit : (0 : ℚ) < 10 ^ (X + 1 - (P : ℤ)) := by positivity
  have hlow : ((10 ^ (P - 1) : ℕ) : ℚ) ≤ y := by
    rw [hy, le_div_iff₀ hunit]
    have hlog := Int.zpow_log_le_self (b := 10) (by decide) hx
    rw [← hX] at hlog
    calc ((10 ^ (P - 1) : ℕ) : ℚ) * 10 ^ (X + 1 - (P : ℤ))
        = 10 ^ (((P - 1 : ℕ) : ℤ) + (X + 1 - P)) := by
          rw [zpow_add₀ hten, zpow_natCast]
          push_cast
          ring
      _ = 10 ^ X := by
          congr 1
          omega
      _ ≤ x := by exact_mod_cast hlog
  have hhigh : y < ((10 ^ P : ℕ) : ℤ) := by
    rw [hy, div_lt_iff₀ hunit]
    have hlog := Int.lt_zpow_succ_log_self (b := 10) (by decide) x
    rw [← hX] at hlog
    calc x < 10 ^ (X + 1) := by exact_mod_cast hlog
      _ = 10 ^ ((P : ℤ) + (X + 1 - P)) := by
          congr 1
          omega
      _ = (((10 ^ P : ℕ) : ℤ) : ℚ) * 10 ^ (X + 1 - (P : ℤ)) := by
          rw [zpow_add₀ hten, zpow_natCast]
          push_cast
          ring
  have hround : ((10 ^ (P - 1) : ℕ) : ℤ) ≤ roundEven y := le_roundEven (by exact_mod_cast hlow)
  have hround' : roundEven y ≤ ((10 ^ P : ℕ) : ℤ) := roundEven_le hhigh
  have hnat : ((roundEven y).toNat : ℤ) = roundEven y :=
    Int.toNat_of_nonneg (le_trans (Int.natCast_nonneg _) hround)
  have herror : |x - roundEven y * 10 ^ (X + 1 - (P : ℤ))| ≤ 10 ^ (X + 1 - (P : ℤ)) / 2 := by
    have hsplit : x - roundEven y * 10 ^ (X + 1 - (P : ℤ))
        = (y - roundEven y) * 10 ^ (X + 1 - (P : ℤ)) := by
      rw [sub_mul, hy, div_mul_cancel₀ _ hunit.ne']
    rw [hsplit, abs_mul, abs_of_pos hunit]
    calc |y - roundEven y| * 10 ^ (X + 1 - (P : ℤ))
        ≤ 1 / 2 * 10 ^ (X + 1 - (P : ℤ)) :=
          mul_le_mul_of_nonneg_right (abs_sub_roundEven_le y) hunit.le
      _ = 10 ^ (X + 1 - (P : ℤ)) / 2 := by ring
  unfold significant
  simp only [← hX, ← hy]
  by_cases hfull : (roundEven y).toNat = 10 ^ P
  · -- rounded up to one more digit
    rw [if_pos hfull]
    have hcast : (roundEven y : ℚ) = 10 ^ P := by
      have hint : roundEven y = ((10 ^ P : ℕ) : ℤ) := by omega
      rw [hint]
      push_cast
      rfl
    refine ⟨le_rfl, Nat.pow_lt_pow_right (by decide) (by omega), ?_⟩
    have hsame : ((10 ^ (P - 1) : ℕ) : ℚ) * 10 ^ (X + 1 + 1 - (P : ℤ))
        = roundEven y * 10 ^ (X + 1 - (P : ℤ)) := by
      rw [hcast, ← zpow_natCast (10 : ℚ) P, ← zpow_add₀ hten]
      push_cast
      rw [← zpow_natCast (10 : ℚ) (P - 1), ← zpow_add₀ hten]
      congr 1
      omega
    rw [hsame]
    refine herror.trans ?_
    have hmono : (10 : ℚ) ^ (X + 1 - (P : ℤ)) ≤ 10 ^ (X + 1 + 1 - (P : ℤ)) :=
      zpow_le_zpow_right₀ hone.le (by omega)
    linarith
  · rw [if_neg hfull]
    have hcast : (((roundEven y).toNat : ℕ) : ℚ) = roundEven y := by
      rw [← Int.cast_natCast, hnat]
    rw [hcast]
    exact ⟨by omega, by omega, herror⟩

/-! ## Numerals -/

/-- Digits after a point, and the point with them. -/
def optional (ds : List Char) : Option (List Char) := if ds = [] then none else some ds

theorem getD_optional (ds : List Char) : (optional ds).getD [] = ds := by
  unfold optional
  split
  · next h => rw [h]; rfl
  · rfl

theorem eq_of_mem_optional {ds es : List Char} (h : ds ∈ optional es) : ds = es ∧ es ≠ [] := by
  unfold optional at h
  split at h
  · cases h
  · next hne =>
    cases h
    exact ⟨rfl, hne⟩

/-- An exponent with its sign and two digits at least. -/
def exponent (X : ℤ) : Exponent where
  mark := 'e'
  sign := some (if X < 0 then '-' else '+')
  digits := (Nat.toDigits 10 X.natAbs).leftpad 2 '0'
  mark_ok := .inl rfl
  sign_ok := by
    rintro c ⟨⟩
    split
    · exact .inr rfl
    · exact .inl rfl
  digits_ok := fun _ hc => isDigit_leftpad _ hc
  digits_ne := fun h => by cases h

theorem value_exponent (X : ℤ) : (exponent X).value = X := by
  unfold Exponent.value
  simp only [exponent, ofDigitChars_leftpad]
  by_cases hX : X < 0
  · rw [if_pos hX, if_pos rfl]
    omega
  · rw [if_neg hX, if_neg (by decide)]
    omega

/-- The last digit of an exponent. -/
theorem getLast?_toDigits (n : ℕ) : (Nat.toDigits 10 n).getLast? = some '0' ↔ 10 ∣ n := by
  induction n using Nat.base_induction 10 (by decide) with
  | single m hm =>
    rw [Nat.toDigits_of_lt_base hm, List.getLast?_singleton, Option.some_inj,
      Nat.digitChar_eq_zero]
    omega
  | digit m k hk hm _ =>
    rw [← Nat.toDigits_append_toDigits (by decide) hm hk, Nat.toDigits_of_lt_base hk,
      List.getLast?_concat, Option.some_inj, Nat.digitChar_eq_zero]
    omega

theorem getLast?_exponent (X : ℤ) : (exponent X).digits.getLast? = some '0' ↔ 10 ∣ X := by
  have hlast : (exponent X).digits.getLast? = (Nat.toDigits 10 X.natAbs).getLast? := by
    simp only [exponent, List.leftpad]
    rw [List.getLast?_append_of_ne_nil _ Nat.toDigits_ne_nil]
  rw [hlast, getLast?_toDigits]
  exact Int.ofNat_dvd_left.symm.trans Iff.rfl

/-- **The digits of a number with a point** behind the first `k + 1`. -/
def withPoint (minus : Bool) (n k : ℕ) (e : Option Exponent) : Numeral where
  minus := minus
  whole := (Nat.toDigits 10 n).take (k + 1)
  fraction := optional (stripZeros ((Nat.toDigits 10 n).drop (k + 1)))
  exponent := e
  whole_digits := fun c hc => isDigit_toDigits c (List.mem_of_mem_take hc)
  whole_ne := by
    obtain ⟨c, ds, hds⟩ := List.exists_cons_of_ne_nil (Nat.toDigits_ne_nil (n := n) (b := 10))
    rw [hds, List.take_succ_cons]
    exact List.cons_ne_nil _ _
  whole_zero := by
    intro ds h
    obtain ⟨c, es, hes⟩ := List.exists_cons_of_ne_nil (Nat.toDigits_ne_nil (n := n) (b := 10))
    rw [hes, List.take_succ_cons] at h
    obtain ⟨rfl, rfl⟩ := List.cons.inj h
    rw [Numeral.toDigits_eq_zero_cons hes, List.take_nil]
  fraction_digits := by
    intro ds hds
    obtain ⟨rfl, -⟩ := eq_of_mem_optional hds
    have hall : AllDigits ((Nat.toDigits 10 n).drop (k + 1)) :=
      fun c hc => isDigit_toDigits c (List.mem_of_mem_drop hc)
    exact hall.stripZeros

/-- The digits of a number after a zero, a point and `k` zeros. -/
def behindPoint (minus : Bool) (n k : ℕ) : Numeral where
  minus := minus
  whole := ['0']
  fraction := optional (stripZeros (List.replicate k '0' ++ Nat.toDigits 10 n))
  exponent := none
  whole_digits := AllDigits.nil.cons rfl
  whole_ne := by simp
  whole_zero := fun _ h => (List.cons.inj h).2.symm
  fraction_digits := by
    intro ds hds
    obtain ⟨rfl, -⟩ := eq_of_mem_optional hds
    refine AllDigits.stripZeros fun c hc => ?_
    rcases List.mem_append.mp hc with hc | hc
    · rw [List.eq_of_mem_replicate hc]
      rfl
    · exact isDigit_toDigits c hc

/-- **General notation** of a number with the significant digits `n`, the first
of which counts `10 ^ X`. -/
def place (minus : Bool) (P n : ℕ) (X : ℤ) : Numeral :=
  if -4 ≤ X ∧ X < P then
    if 0 ≤ X then withPoint minus n X.toNat none
    else behindPoint minus n (-X - 1).toNat
  else withPoint minus n 0 (some (exponent X))

/-- **`%.*g`** with `P` significant digits. -/
def general (P : ℕ) (x : ℚ) : Numeral :=
  if x = 0 then Numeral.ofInt 0
  else place (decide (x < 0)) P (significant P |x|).1 (significant P |x|).2

/-- **`%f`** with `k + 1` decimals. -/
def fixed (k : ℕ) (x : ℚ) : Numeral :=
  let u := (roundEven (|x| * 10 ^ (k + 1))).toNat
  { minus := decide (x < 0)
    whole := Nat.toDigits 10 (u / 10 ^ (k + 1))
    fraction := some ((Nat.toDigits 10 (u % 10 ^ (k + 1))).leftpad (k + 1) '0')
    exponent := none
    whole_digits := isDigit_toDigits
    whole_ne := Nat.toDigits_ne_nil
    whole_zero := fun _ h => Numeral.toDigits_eq_zero_cons h
    fraction_digits := by
      rintro ds ⟨⟩
      exact isDigit_leftpad }

theorem isFixed_fixed (k : ℕ) (x : ℚ) : (fixed k x).IsFixed := by
  refine ⟨⟨_, rfl, ?_⟩, rfl⟩
  rw [List.leftpad]
  exact List.append_ne_nil_of_right_ne_nil _ Nat.toDigits_ne_nil

/-- Zeros at the end of a fraction do not count. -/
theorem significand_strip (whole ds : List Char) :
    (Nat.ofDigitChars 10 (whole ++ stripZeros ds) 0 : ℚ) * 10 ^ (-((stripZeros ds).length : ℤ))
      = Nat.ofDigitChars 10 (whole ++ ds) 0 * 10 ^ (-(ds.length : ℤ)) := by
  obtain ⟨k, hk⟩ := exists_replicate ds
  have hlength : ds.length = (stripZeros ds).length + k := by
    conv_lhs => rw [hk]
    rw [List.length_append, List.length_replicate]
  have hdigits : Nat.ofDigitChars 10 (whole ++ ds) 0
      = 10 ^ k * Nat.ofDigitChars 10 (whole ++ stripZeros ds) 0 := by
    conv_lhs => rw [hk]
    rw [← List.append_assoc, Nat.ofDigitChars_append, Nat.ofDigitChars_replicate_zero]
  have hten : (10 : ℚ) ≠ 0 := by norm_num
  rw [hlength, hdigits]
  push_cast
  rw [neg_add, zpow_add₀ hten, zpow_neg, zpow_neg, zpow_natCast, zpow_natCast]
  field_simp

theorem value_withPoint (minus : Bool) {n k : ℕ} (hk : k < (Nat.toDigits 10 n).length)
    (e : Option Exponent) : (withPoint minus n k e).value
      = Numeral.sign minus * n
        * 10 ^ (e.elim 0 Exponent.value + (k + 1 - (Nat.toDigits 10 n).length : ℤ)) := by
  have hten : (10 : ℚ) ≠ 0 := by norm_num
  have hstrip := significand_strip ((Nat.toDigits 10 n).take (k + 1))
    ((Nat.toDigits 10 n).drop (k + 1))
  rw [List.take_append_drop, Nat.ofDigitChars_ten_toDigits, List.length_drop] at hstrip
  simp only [Numeral.value, Numeral.significand, Numeral.scale, withPoint, getD_optional]
  rw [sub_eq_add_neg, zpow_add₀ hten, mul_assoc, mul_left_comm _ (10 ^ _) (10 ^ _), hstrip,
    zpow_add₀ hten]
  have hlen : -(((Nat.toDigits 10 n).length - (k + 1) : ℕ) : ℤ)
      = (k : ℤ) + 1 - (Nat.toDigits 10 n).length := by omega
  rw [hlen]
  ring

theorem value_behindPoint (minus : Bool) (n k : ℕ) : (behindPoint minus n k).value
    = Numeral.sign minus * n * 10 ^ (-(k + (Nat.toDigits 10 n).length : ℤ)) := by
  have hstrip := significand_strip ['0'] (List.replicate k '0' ++ Nat.toDigits 10 n)
  have hdigits :
      Nat.ofDigitChars 10 (['0'] ++ (List.replicate k '0' ++ Nat.toDigits 10 n)) 0 = n := by
    rw [Nat.ofDigitChars_append, Nat.ofDigitChars_append, Nat.ofDigitChars_replicate_zero]
    exact Nat.ofDigitChars_ten_toDigits
  rw [hdigits, List.length_append, List.length_replicate] at hstrip
  simp only [Numeral.value, Numeral.significand, Numeral.scale, behindPoint, getD_optional,
    Option.elim_none, zero_sub]
  rw [mul_assoc, hstrip]
  push_cast
  ring

/-! ## What is written -/

section General

variable {P n : ℕ} {X : ℤ}

theorem length_toDigits (hP : 0 < P) (hlow : 10 ^ (P - 1) ≤ n) (hhigh : n < 10 ^ P) :
    (Nat.toDigits 10 n).length = P := by
  have hle := (Nat.length_toDigits_le_iff (by decide) hP).mpr hhigh
  by_contra hne
  rcases Nat.eq_zero_or_pos (P - 1) with hzero | hpos
  · have hlen := Nat.length_toDigits_pos (b := 10) (n := n)
    omega
  · have hlt := (Nat.length_toDigits_le_iff (b := 10) (n := n) (by decide) hpos).mp (by omega)
    omega

/-- The place of the point does not change the number. -/
theorem value_place (hP : 0 < P) (hlow : 10 ^ (P - 1) ≤ n) (hhigh : n < 10 ^ P) (minus : Bool) :
    (place minus P n X).value = Numeral.sign minus * n * 10 ^ (X + 1 - P) := by
  have hlength := length_toDigits hP hlow hhigh
  unfold place
  split_ifs with hfixed hpos
  · rw [value_withPoint minus (by omega), hlength, Option.elim_none]
    congr 2
    omega
  · rw [value_behindPoint, hlength]
    congr 2
    omega
  · rw [value_withPoint minus (by omega), hlength, Option.elim_some, value_exponent]
    congr 2
    push_cast
    ring

theorem stripZeros_idem (s : List Char) : stripZeros (stripZeros s) = stripZeros s :=
  List.rdropWhile_idempotent _ s

/-- A fraction has no zeros at its end. -/
theorem fraction_of_mem {ds es : List Char} (h : ds ∈ optional (stripZeros es)) :
    ds ≠ [] ∧ ds.getLast? ≠ some '0' := by
  obtain ⟨rfl, hne⟩ := eq_of_mem_optional h
  exact ⟨hne, stripZeros_eq_self_iff.mp (stripZeros_idem es)⟩

theorem exponent_ne_zero (hX : X ≠ 0) : ∃ d ∈ (exponent X).digits, d ≠ '0' := by
  by_contra hall
  have hzero : ∀ d ∈ (exponent X).digits, d = '0' := by
    intro d hd
    by_contra hne
    exact hall ⟨d, hd, hne⟩
  have hvalue : Nat.ofDigitChars 10 (exponent X).digits 0 = 0 := by
    rw [List.eq_replicate_of_mem hzero, Nat.ofDigitChars_replicate_zero, Nat.mul_zero]
  simp only [exponent, ofDigitChars_leftpad] at hvalue
  omega

theorem isGeneral_place (hP : 0 < P) (hn : 0 < n) (minus : Bool) :
    (place minus P n X).IsGeneral := by
  have hnone : ∀ e : Exponent, e ∉ (none : Option Exponent) := fun e he => by cases he
  unfold place
  split_ifs with hfixed hpos
  · exact ⟨fun ds hds => (fraction_of_mem hds).1, fun ds hds => (fraction_of_mem hds).2,
      fun e he => absurd he (hnone e), fun e he => absurd he (hnone e), fun h => absurd rfl h⟩
  · exact ⟨fun ds hds => (fraction_of_mem hds).1, fun ds hds => (fraction_of_mem hds).2,
      fun e he => absurd he (hnone e), fun e he => absurd he (hnone e), fun h => absurd rfl h⟩
  · refine ⟨fun ds hds => (fraction_of_mem hds).1,
      fun ds hds => (fraction_of_mem hds).2, ?_, ?_, ?_⟩
    · rintro e ⟨⟩
      simp [exponent]
    · rintro e ⟨⟩
      exact exponent_ne_zero (by omega)
    · intro _ hwhole
      -- the first digit of a positive number is not zero
      obtain ⟨c, ds, hds⟩ := List.exists_cons_of_ne_nil (Nat.toDigits_ne_nil (n := n) (b := 10))
      simp only [withPoint, hds, List.take_succ_cons, List.take_zero] at hwhole
      obtain ⟨rfl, -⟩ := List.cons.inj hwhole
      obtain rfl := Numeral.toDigits_eq_zero_cons hds
      have hzero := congrArg (fun ds => Nat.ofDigitChars 10 ds 0) hds
      simp only [Nat.ofDigitChars_ten_toDigits] at hzero
      exact absurd hzero (Nat.pos_iff_ne_zero.mp hn)

/-- No point is written where the digits after the first are zeros. -/
theorem fraction_eq_none_iff (hP : 0 < P) (hlow : 10 ^ (P - 1) ≤ n) (hhigh : n < 10 ^ P)
    (minus : Bool) (e : Option Exponent) :
    (withPoint minus n 0 e).fraction = none ↔ 10 ^ (P - 1) ∣ n := by
  have hlength := length_toDigits hP hlow hhigh
  have hall : AllDigits ((Nat.toDigits 10 n).drop 1) :=
    fun c hc => isDigit_toDigits c (List.mem_of_mem_drop hc)
  have hdrop : ((Nat.toDigits 10 n).drop 1).length = P - 1 := by rw [List.length_drop, hlength]
  have hsplit : n = 10 ^ (P - 1) * Nat.ofDigitChars 10 ((Nat.toDigits 10 n).take 1) 0
      + Nat.ofDigitChars 10 ((Nat.toDigits 10 n).drop 1) 0 := by
    conv_lhs => rw [← Nat.ofDigitChars_ten_toDigits (n := n),
      ← List.take_append_drop 1 (Nat.toDigits 10 n), Nat.ofDigitChars_append,
      Nat.ofDigitChars_eq_ofDigitChars_zero, hdrop]
  have hlt := hall.ofDigitChars_lt
  rw [hdrop] at hlt
  have hnone : (withPoint minus n 0 e).fraction = none
      ↔ stripZeros ((Nat.toDigits 10 n).drop 1) = [] := by
    simp only [withPoint, optional, Nat.zero_add, ite_eq_left_iff, reduceCtorEq, imp_false, not_not]
  have hdvd : 10 ^ (P - 1) ∣ n
      ↔ 10 ^ (P - 1) ∣ Nat.ofDigitChars 10 ((Nat.toDigits 10 n).drop 1) 0 := by
    conv_lhs => rw [hsplit]
    exact Nat.dvd_add_right (Nat.dvd_mul_right _ _)
  rw [hnone, stripZeros_eq_nil_iff, hdvd]
  constructor
  · intro hzeros
    rw [List.eq_replicate_of_mem hzeros, Nat.ofDigitChars_replicate_zero, Nat.mul_zero]
    exact dvd_zero _
  · intro hdvd c hc
    by_contra hne
    exact hall.ofDigitChars_ne_zero ⟨c, hc, hne⟩ (Nat.eq_zero_of_dvd_of_lt hdvd hlt)

theorem significant_pos (hP : 0 < P) {x : ℚ} (hx : 0 < x) : 0 < (significant P x).1 :=
  Nat.lt_of_lt_of_le (Nat.pow_pos (by decide)) (significant_spec hP hx).1

theorem isGeneral_general (hP : 0 < P) (x : ℚ) : (general P x).IsGeneral := by
  unfold general
  split_ifs with hx
  · have hnone : ∀ e : Exponent, e ∉ (none : Option Exponent) := fun e he => by cases he
    have hempty : ∀ ds : List Char, ds ∉ (none : Option (List Char)) := fun ds hds => by cases hds
    exact ⟨fun ds hds => absurd hds (hempty ds), fun ds hds => absurd hds (hempty ds),
      fun e he => absurd he (hnone e), fun e he => absurd he (hnone e), fun h => absurd rfl h⟩
  · exact isGeneral_place hP (significant_pos hP (abs_pos.mpr hx)) _

/-- **What is written is as near as `P` digits allow.** -/
theorem abs_sub_value_general_le (hP : 0 < P) {x : ℚ} (hx : x ≠ 0) :
    |x - (general P x).value| ≤ 10 ^ ((significant P |x|).2 + 1 - P) / 2 := by
  obtain ⟨hlow, hhigh, herror⟩ := significant_spec hP (abs_pos.mpr hx)
  rw [general, if_neg hx, value_place hP hlow hhigh]
  refine le_trans (le_of_eq ?_) herror
  by_cases hneg : x < 0
  · rw [abs_of_neg hneg, Numeral.sign, if_pos (decide_eq_true hneg), ← abs_neg]
    congr 1
    ring
  · rw [abs_of_nonneg (not_lt.mp hneg), Numeral.sign, if_neg (by simpa using hneg)]
    congr 1
    ring

end General

end GeneralNotation
