import NeuralBuilder.JsonDump
import NeuralBuilder.Library.GeneralNotation

/-!
# Which doubles the engine writes truly

A finite double is a rational number, and `snprintf` prints it rounded to
`DECIMAL_DIG` significant digits. What `dump` makes of that is as near to the
double as so many digits allow, unless there is an exponent that ends with a
zero behind a point (`written_nearest_iff`).

`exactPrintf` is a `snprintf` as the C standard describes it, for doubles that
are rational numbers: the nearest decimal of so many digits, ties to even, in
general or in fixed notation. It meets `Printf`, so that the results of
`JsonDump` hold of what it prints; `sample` is a value with lists, objects and
every kind of number for which they are spelled out.
-/

namespace JsonDump

open GeneralNotation

/-- **`snprintf` on finite doubles**, with `P` for `DECIMAL_DIG`. -/
def exactPrintf (P : ℕ) (hP : 0 < P) : Printf ℚ where
  isFinite := fun _ => true
  g := general P
  f := fixed 5
  general := fun x _ => isGeneral_general hP x
  fixed := fun x _ => isFixed_fixed 5 x

/-- What is left of a printed number has its sign and digits, and an exponent of
its own. -/
theorem exists_value_trim (x : Numeral) :
    ∃ k : ℤ, x.trim.value = x.value * 10 ^ k := by
  have hten : (10 : ℚ) ≠ 0 := by norm_num
  cases hexponent : x.exponent with
  | none => exact ⟨0, by rw [value_trim_of_exponent_eq hexponent, zpow_zero, mul_one]⟩
  | some e =>
    have hsignificand : x.trim.significand = x.significand := by
      simp only [Numeral.significand, Numeral.trim, hexponent, reduceCtorEq, if_false]
    refine ⟨x.trim.scale - x.scale, ?_⟩
    rw [Numeral.value, Numeral.value, hsignificand, show x.trim.minus = x.minus from rfl,
      mul_assoc (Numeral.sign _ * _), ← zpow_add₀ hten, add_sub_cancel]

/-- Which printed numbers lose nothing, by the digits and the exponent. -/
theorem value_trim_general_iff {P : ℕ} (hP : 0 < P) {x : ℚ} (hx : x ≠ 0) :
    (general P x).trim.value = (general P x).value
      ↔ (-4 ≤ (significant P |x|).2 ∧ (significant P |x|).2 < P)
        ∨ ¬ 10 ∣ (significant P |x|).2 ∨ 10 ^ (P - 1) ∣ (significant P |x|).1 := by
  obtain ⟨hlow, hhigh, -⟩ := significant_spec hP (abs_pos.mpr hx)
  rw [value_trim_iff (isGeneral_general hP x), general, if_neg hx]
  generalize (significant P |x|).1 = n at hlow hhigh
  generalize (significant P |x|).2 = X
  unfold place
  split_ifs with hfixed hpos
  · exact iff_of_true (.inr fun e he => by cases he) (.inl hfixed)
  · exact iff_of_true (.inr fun e he => by cases he) (.inl hfixed)
  · have hlast : (∀ e ∈ (withPoint (decide (x < 0)) n 0 (some (exponent X))).exponent,
        e.digits.getLast? ≠ some '0') ↔ ¬ 10 ∣ X := by
      rw [← getLast?_exponent]
      exact ⟨fun h => h _ rfl, fun h e he => Option.some.inj he ▸ h⟩
    rw [fraction_eq_none_iff hP hlow hhigh, hlast]
    tauto

/-- Another power of ten is at least nine tenths away. -/
theorem nine_tenths_le {k : ℤ} (hk : k ≠ 0) : (9 : ℚ) / 10 ≤ |1 - 10 ^ k| := by
  rcases lt_or_gt_of_ne hk with hneg | hpos
  · have hle : (10 : ℚ) ^ k ≤ 10 ^ (-1 : ℤ) := zpow_le_zpow_right₀ (by norm_num) (by omega)
    rw [zpow_neg_one] at hle
    rw [le_abs]
    left
    linarith
  · have hle : (10 : ℚ) ^ (1 : ℤ) ≤ 10 ^ k := zpow_le_zpow_right₀ (by norm_num) (by omega)
    rw [zpow_one] at hle
    rw [le_abs]
    right
    linarith

/-- **Which doubles are written truly**: what is written is a numeral, and it is
within half a unit of the last printed digit of the double where the number is
printed without an exponent, or its exponent is not a multiple of ten, or it has
one significant digit. All others lose zeros of their exponent. -/
theorem written_nearest_iff {P : ℕ} (hP : 2 ≤ P) {x : ℚ} (hx : x ≠ 0)
    (indent : Option (ℕ × Char)) :
    ∃ y : Numeral, dump (exactPrintf P (by omega)) indent (.double x) = y.text
      ∧ (|x - y.value| ≤ 10 ^ ((significant P |x|).2 + 1 - P) / 2
        ↔ (-4 ≤ (significant P |x|).2 ∧ (significant P |x|).2 < P)
          ∨ ¬ 10 ∣ (significant P |x|).2 ∨ 10 ^ (P - 1) ∣ (significant P |x|).1) := by
  have hpos : 0 < P := by omega
  have hten : (10 : ℚ) ≠ 0 := by norm_num
  have hgeneral := isGeneral_general hpos x
  have herror := abs_sub_value_general_le hpos hx
  refine ⟨(general P x).trim, ?_, ?_⟩
  · rw [dump, dumpInternal, if_pos (show (exactPrintf P _).isFinite x = true from rfl)]
    exact trimZeros_text hgeneral.digits_ne_zero
  rw [← value_trim_general_iff hpos hx]
  refine ⟨fun hnear => ?_, fun heq => by rwa [heq]⟩
  obtain ⟨k, hk⟩ := exists_value_trim (general P x)
  by_cases hzero : k = 0
  · rw [hk, hzero, zpow_zero, mul_one]
  exfalso
  -- the digits count at least the power of ten of the first one
  obtain ⟨hlow, hhigh, -⟩ := significant_spec hpos (abs_pos.mpr hx)
  have hvalue : |(general P x).value|
      = (significant P |x|).1 * 10 ^ ((significant P |x|).2 + 1 - P) := by
    rw [general, if_neg hx, value_place hpos hlow hhigh, abs_mul, abs_mul, Nat.abs_cast,
      abs_of_pos (a := (10 : ℚ) ^ _) (by positivity)]
    have hsign : |Numeral.sign (decide (x < 0))| = 1 := by
      unfold Numeral.sign
      split <;> simp
    rw [hsign, one_mul]
  set X := (significant P |x|).2
  set unit : ℚ := 10 ^ (X + 1 - (P : ℤ)) with hunit
  have hunitPos : 0 < unit := by positivity
  have hlarge : (10 : ℚ) ≤ (significant P |x|).1 := by
    have hle : 10 ≤ 10 ^ (P - 1) := Nat.le_self_pow (by omega) 10
    exact_mod_cast hle.trans hlow
  have hapart : |(general P x).value - (general P x).trim.value| ≤ unit := by
    calc |(general P x).value - (general P x).trim.value|
        = |(x - (general P x).trim.value) - (x - (general P x).value)| := by
          congr 1
          ring
      _ ≤ |x - (general P x).trim.value| + |x - (general P x).value| := abs_sub _ _
      _ ≤ unit / 2 + unit / 2 := add_le_add hnear herror
      _ = unit := add_halves unit
  have hfar : 9 * unit ≤ |(general P x).value - (general P x).trim.value| := by
    have hfactor : (general P x).value - (general P x).trim.value
        = (general P x).value * (1 - 10 ^ k) := by
      rw [hk]
      ring
    rw [hfactor, abs_mul, hvalue]
    calc 9 * unit = 10 * unit * (9 / 10) := by ring
      _ ≤ (significant P |x|).1 * unit * |1 - 10 ^ k| :=
          mul_le_mul (mul_le_mul_of_nonneg_right hlarge hunitPos.le) (nine_tenths_le hzero)
            (by norm_num) (by positivity)
  linarith

/-- `1.5e-10` is not. -/
theorem written_small : ∃ y : Numeral,
    dump (exactPrintf 21 (by omega)) none (.double (3 / 20000000000)) = y.text
      ∧ ¬ |3 / 20000000000 - y.value| ≤ 10 ^ (-30 : ℤ) / 2 := by
  obtain ⟨y, hy, hiff⟩ := written_nearest_iff (show 2 ≤ 21 by decide)
    (show (3 / 20000000000 : ℚ) ≠ 0 by norm_num) none
  have hdigits : significant 21 |3 / 20000000000| = (150000000000000000000, -10) := by
    decide +kernel
  rw [hdigits] at hiff
  exact ⟨y, hy, fun hnear => absurd (hiff.mp (by simpa using hnear)) (by decide)⟩

/-- A response with numbers of all types, a quote and a list in an object. -/
def sample : WValue ℚ :=
  .object [(['c'], .double (1 / 4)), (['v'], .list [.floating (-5 / 2), .signed (-7), .null]),
    (['n'], .string ['a', '\"']), (['o'], .list [.object [(['k'], .bool true)], .unsigned 12])]

/-- What a reader finds in it. -/
def sampleTree : JsonGrammar.Tree :=
  .object [(['c'], .number ['0', '.', '2', '5']),
    (['v'], .list [.number ['-', '2', '.', '5'], .number ['-', '7'], .null]),
    (['n'], .string ['a', '\\', '\"']),
    (['o'], .list [.object [(['k'], .bool true)], .number ['1', '2']])]

theorem tree_sample : sample.tree (exactPrintf 21 (by decide)) = sampleTree := by
  have hdouble : trimZeros (GeneralNotation.general 21 (1 / 4)).text = ['0', '.', '2', '5'] := by
    decide +kernel
  have hfloating : trimZeros (outbuf (GeneralNotation.fixed 5 (-5 / 2)).text)
      = ['-', '2', '.', '5'] := by
    decide +kernel
  have hsigned : intText (-7) = ['-', '7'] := by decide +kernel
  have hunsigned : intText 12 = ['1', '2'] := by decide +kernel
  have hescape : escape ['a', '\"'] = ['a', '\\', '\"'] := by decide +kernel
  simp only [sample, sampleTree, WValue.tree, treeFields, treeItems, exactPrintf, if_true,
    hdouble, hfloating, hsigned, hescape, Nat.cast_ofNat, hunsigned]

theorem fitsBuffer_sample : sample.FitsBuffer (exactPrintf 21 (by decide)) := by
  have hfloating : (GeneralNotation.fixed 5 (-5 / 2)).signText.length
      + (GeneralNotation.fixed 5 (-5 / 2)).whole.length + 2 ≤ 127 := by
    decide +kernel
  simp only [sample, WValue.FitsBuffer, FitsFields, FitsItems, exactPrintf, hfloating,
    implies_true, and_self]

/-- It is read back. -/
theorem load_sample :
    JsonLoad.load (dump (exactPrintf 21 (by decide)) none sample) = some sampleTree := by
  rw [← tree_sample]
  exact load_dump (exactPrintf 21 (by decide)) (fun p hp => absurd hp (Option.not_mem_none p))
    sample fitsBuffer_sample (by decide)

/-- With an indentation it is standard JSON. -/
theorem text_sample : JsonGrammar.Text (JsonGrammar.standard JsonLoad.unescape) 3 sampleTree
    (dump (exactPrintf 21 (by decide)) (some (2, ' ')) sample) := by
  rw [← tree_sample]
  exact text_dump (exactPrintf 21 (by decide)) (fun _ hp => Option.some.inj hp ▸ rfl) sample
    fitsBuffer_sample

end JsonDump
