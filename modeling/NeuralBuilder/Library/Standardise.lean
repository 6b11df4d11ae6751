import Mathlib.Algebra.BigOperators.Field
import Mathlib.Algebra.Order.BigOperators.Ring.Finset
import Mathlib.Tactic.Ring

/-!
# Standardised values

A finite family of values is centred at its mean, and divided by its standard
deviation where that is not `0`. The result has mean `0` and mean square `1`,
or is `0` throughout where the family is constant (`sum_standardise`,
`meanSquare_standardise`, `standardise_of_deviation_eq_zero`). It does not
depend on the unit the family is measured in (`standardise_affine`), and is
left as it is by standardising again (`standardise_standardise`).

The values are those of an ordered field with a square root.
-/

namespace Standardise

variable {ι F : Type*} [Fintype ι] [Field F] [LinearOrder F]

/-- **A square root** on the nonnegative values. -/
structure IsSqrt (sqrt : F → F) : Prop where
  /-- Roots are not negative. -/
  nonneg : ∀ x, 0 ≤ sqrt x
  /-- Their square is the number, if that is not negative. -/
  mul_self : ∀ x, 0 ≤ x → sqrt x * sqrt x = x

def mean (v : ι → F) : F := (∑ i, v i) / Fintype.card ι

/-- The mean of the squared distances to the mean. -/
def variance (v : ι → F) : F := (∑ i, (v i - mean v) * (v i - mean v)) / Fintype.card ι

variable (sqrt : F → F)

/-- The standard deviation. -/
def deviation (v : ι → F) : F := sqrt (variance v)

/-- **The map that standardises `v`**; a constant family is centred only. -/
def rescale (v : ι → F) (x : F) : F :=
  if deviation sqrt v = 0 then x - mean v else (x - mean v) / deviation sqrt v

/-- The standardised family. -/
def standardise (v : ι → F) : ι → F := fun i => rescale sqrt v (v i)

/-- The slope of the map: `1` for a constant family, the inverse of the
deviation for any other. -/
def slope (v : ι → F) : F := if deviation sqrt v = 0 then 1 else 1 / deviation sqrt v

/-- What the map adds: it takes the mean to `0`. -/
def offset (v : ι → F) : F := -(slope sqrt v * mean v)

/-- The map is affine. -/
theorem rescale_eq (v : ι → F) (x : F) :
    rescale sqrt v x = slope sqrt v * x + offset sqrt v := by
  unfold rescale offset slope
  by_cases h : deviation sqrt v = 0
  · rw [if_pos h, if_pos h]
    ring
  · rw [if_neg h, if_neg h]
    ring

variable {sqrt} [IsStrictOrderedRing F]

theorem variance_nonneg (v : ι → F) : 0 ≤ variance v :=
  div_nonneg (Finset.sum_nonneg fun _ _ => mul_self_nonneg _) (Nat.cast_nonneg _)

namespace IsSqrt

variable (h : IsSqrt sqrt)

include h

/-- The square root is the nonnegative value with the square. -/
theorem eq_of_mul_self {x y : F} (hy : 0 ≤ y) (hxy : y * y = x) : sqrt x = y :=
  (mul_self_inj (h.nonneg x) hy).mp ((h.mul_self x (hxy ▸ mul_self_nonneg y)).trans hxy.symm)

theorem eq_zero_iff {x : F} (hx : 0 ≤ x) : sqrt x = 0 ↔ x = 0 := by
  rw [← mul_self_eq_zero, h.mul_self x hx]

end IsSqrt

section Nonempty

variable [Nonempty ι] (hsqrt : IsSqrt sqrt)

theorem card_ne_zero : (Fintype.card ι : F) ≠ 0 := Nat.cast_ne_zero.mpr Fintype.card_ne_zero

/-! ## Constant families -/

section

include hsqrt

/-- **The deviation is `0` where every value is the mean.** -/
theorem deviation_eq_zero_iff (v : ι → F) : deviation sqrt v = 0 ↔ ∀ i, v i = mean v := by
  unfold deviation
  rw [hsqrt.eq_zero_iff (variance_nonneg v), variance, div_eq_zero_iff, or_iff_left card_ne_zero,
    Finset.sum_mul_self_eq_zero_iff]
  simp only [Finset.mem_univ, true_imp_iff, sub_eq_zero]

end

theorem mean_const (c : F) : mean (fun _ : ι => c) = c := by
  unfold mean
  rw [Finset.sum_const, Finset.card_univ, nsmul_eq_mul, mul_div_cancel_left₀ c card_ne_zero]

include hsqrt

/-- **The deviation is `0` for the constant families.** -/
theorem deviation_eq_zero_iff_const (v : ι → F) :
    deviation sqrt v = 0 ↔ ∃ c, ∀ i, v i = c := by
  rw [deviation_eq_zero_iff hsqrt]
  constructor
  · exact fun h => ⟨mean v, h⟩
  · rintro ⟨c, h⟩
    obtain rfl : v = fun _ => c := funext h
    exact fun _ => (mean_const c).symm

/-- A constant family becomes `0`. -/
theorem standardise_of_deviation_eq_zero {v : ι → F} (h : deviation sqrt v = 0) (i : ι) :
    standardise sqrt v i = 0 := by
  unfold standardise rescale
  rw [if_pos h, (deviation_eq_zero_iff hsqrt v).mp h i, sub_self]

/-! ## Mean and mean square -/

omit [LinearOrder F] [IsStrictOrderedRing F] hsqrt in
theorem sum_sub_mean [CharZero F] (v : ι → F) : ∑ i, (v i - mean v) = 0 := by
  unfold mean
  rw [Finset.sum_sub_distrib, Finset.sum_const, Finset.card_univ, nsmul_eq_mul,
    mul_div_cancel₀ _ (Nat.cast_ne_zero.mpr Fintype.card_ne_zero), sub_self]

/-- **The standardised family has mean `0`.** -/
theorem sum_standardise (v : ι → F) : ∑ i, standardise sqrt v i = 0 := by
  by_cases h : deviation sqrt v = 0
  · exact Finset.sum_eq_zero fun i _ => standardise_of_deviation_eq_zero hsqrt h i
  · unfold standardise rescale
    simp only [if_neg h]
    rw [← Finset.sum_div, sum_sub_mean, zero_div]

theorem mean_standardise (v : ι → F) : mean (standardise sqrt v) = 0 := by
  unfold mean
  rw [sum_standardise hsqrt, zero_div]

omit [Nonempty ι] in
/-- **Its mean square is `1`**, where the family is not constant. -/
theorem meanSquare_standardise {v : ι → F} (h : deviation sqrt v ≠ 0) :
    (∑ i, standardise sqrt v i * standardise sqrt v i) / Fintype.card ι = 1 := by
  have hsquare : deviation sqrt v * deviation sqrt v
      = (∑ i, (v i - mean v) * (v i - mean v)) / Fintype.card ι :=
    hsqrt.mul_self _ (variance_nonneg v)
  unfold standardise rescale
  simp only [if_neg h, div_mul_div_comm]
  rw [← Finset.sum_div, div_right_comm, ← hsquare, div_self (mul_ne_zero h h)]

theorem deviation_standardise {v : ι → F} (h : deviation sqrt v ≠ 0) :
    deviation sqrt (standardise sqrt v) = 1 := by
  refine hsqrt.eq_of_mul_self zero_le_one ?_
  unfold variance
  simp only [mean_standardise hsqrt, sub_zero, meanSquare_standardise hsqrt h, mul_one]

/-- **Standardising again changes nothing.** -/
theorem standardise_standardise (v : ι → F) :
    standardise sqrt (standardise sqrt v) = standardise sqrt v := by
  funext i
  show rescale sqrt (standardise sqrt v) (standardise sqrt v i) = standardise sqrt v i
  unfold rescale
  by_cases h : deviation sqrt v = 0
  · rw [mean_standardise hsqrt, standardise_of_deviation_eq_zero hsqrt h i, sub_zero, zero_div,
      ite_self]
  · rw [mean_standardise hsqrt, deviation_standardise hsqrt h, if_neg one_ne_zero, sub_zero,
      div_one]

/-! ## The unit of measurement -/

omit hsqrt in
theorem mean_affine (v : ι → F) (c d : F) : mean (fun i => c * v i + d) = c * mean v + d := by
  unfold mean
  rw [Finset.sum_add_distrib, ← Finset.mul_sum, Finset.sum_const, Finset.card_univ, nsmul_eq_mul,
    add_div, mul_div_cancel_left₀ d card_ne_zero, mul_div_assoc]

omit hsqrt in
theorem variance_affine (v : ι → F) (c d : F) :
    variance (fun i => c * v i + d) = c * c * variance v := by
  have hterm : ∀ i, (c * v i + d - (c * mean v + d)) * (c * v i + d - (c * mean v + d))
      = c * c * ((v i - mean v) * (v i - mean v)) := fun i => by ring
  unfold variance
  simp only [mean_affine, hterm]
  rw [← Finset.mul_sum, mul_div_assoc]

theorem deviation_affine (v : ι → F) {c : F} (hc : 0 < c) (d : F) :
    deviation sqrt (fun i => c * v i + d) = c * deviation sqrt v := by
  refine hsqrt.eq_of_mul_self (mul_nonneg hc.le (hsqrt.nonneg _)) ?_
  rw [variance_affine, mul_mul_mul_comm, deviation, hsqrt.mul_self _ (variance_nonneg v)]

/-- **The unit of measurement does not matter.** -/
theorem standardise_affine (v : ι → F) {c : F} (hc : 0 < c) (d : F) :
    standardise sqrt (fun i => c * v i + d) = standardise sqrt v := by
  have hcentred : ∀ x, c * x + d - (c * mean v + d) = c * (x - mean v) := fun x => by ring
  funext i
  unfold standardise rescale
  rw [mean_affine, deviation_affine hsqrt v hc, hcentred, mul_div_mul_left _ _ hc.ne']
  by_cases h : deviation sqrt v = 0
  · rw [if_pos (by rw [h, mul_zero]), if_pos h, (deviation_eq_zero_iff hsqrt v).mp h i, sub_self,
      mul_zero]
  · rw [if_neg (mul_ne_zero hc.ne' h), if_neg h]

end Nonempty

end Standardise
