import NeuralBuilder.Activation
import NeuralBuilder.Library.ReverseMode
import Mathlib.Analysis.Calculus.Deriv.Inv
import Mathlib.Analysis.SpecialFunctions.Log.Deriv
import Mathlib.Algebra.BigOperators.Field

/-!
# The activations over the reals

Each activation that is applied entry by entry is differentiable but for
the kink of relu and leaky relu at `0`, and its derivative is what
`derivative` computes from the *output*. At a kink the derivative of the
source is the derivative from the left.

A `Kink` is where a rectifier is at `0`. Away from it `hasDerivAt` says that the
slope is the derivative, and at it `hasDerivWithinAt` says so from the left,
which is all that the sweep through a chain asks for. The other four functions
have no kinks. Strict monotony, for sigmoid, tanh and leaky relu, is used where
outputs have to be told apart, and softmax of a column is put in terms of
`Real.exp`.
-/

namespace ActivationFunction

/-- **The points where an activation is not differentiable.** -/
def Kink (act : ActivationFunction) (x : ℝ) : Prop :=
  (act = relu ∨ act = leakyRelu) ∧ x = 0

/-! ## The pieces of the two rectifiers -/

theorem relu_of_nonneg {x : ℝ} (hx : 0 ≤ x) : (relu.activate x : ℝ) = x := by
  show (if decide ((0 : ℝ) < x) = true then x else 0) = x
  by_cases h : 0 < x
  · rw [if_pos (by simpa using h)]
  · rw [if_neg (by simpa using h)]
    exact le_antisymm hx (not_lt.mp h)

theorem relu_of_nonpos {x : ℝ} (hx : x ≤ 0) : (relu.activate x : ℝ) = 0 :=
  if_neg (by simpa using hx)

theorem leakyRelu_of_nonneg {x : ℝ} (hx : 0 ≤ x) : (leakyRelu.activate x : ℝ) = x := by
  show (if decide ((0.01 : ℝ) * x < x) = true then x else 0.01 * x) = x
  by_cases h : (0.01 : ℝ) * x < x
  · rw [if_pos (by simpa using h)]
  · rw [if_neg (by simpa using h)]
    linarith

theorem leakyRelu_of_nonpos {x : ℝ} (hx : x ≤ 0) : (leakyRelu.activate x : ℝ) = 0.01 * x :=
  if_neg (by simp only [Double.lt_real, decide_eq_true_eq, not_lt]; linarith)

theorem slope_relu_of_pos {a : ℝ} (ha : 0 < a) : (relu.slope a : ℝ) = 1 := by
  show Double.ofBool (decide ((0 : ℝ) < a)) = (1 : ℝ)
  simp [Double.ofBool, ha]

theorem slope_relu_of_nonpos {a : ℝ} (ha : a ≤ 0) : (relu.slope a : ℝ) = 0 := by
  show Double.ofBool (decide ((0 : ℝ) < a)) = (0 : ℝ)
  simp [Double.ofBool, not_lt.mpr ha]

theorem slope_leakyRelu_of_pos {a : ℝ} (ha : 0 < a) : (leakyRelu.slope a : ℝ) = 1 :=
  if_pos (by simpa using ha)

theorem slope_leakyRelu_of_nonpos {a : ℝ} (ha : a ≤ 0) : (leakyRelu.slope a : ℝ) = 0.01 :=
  if_neg (by simpa using ha)

/-! ## Derivatives -/

theorem sigmoid_hasDerivAt (x : ℝ) :
    HasDerivAt (Sigmoid.activate : ℝ → ℝ) (Sigmoid.derivative (Sigmoid.activate x)) x := by
  have hpos : 1 + Real.exp (-x) ≠ 0 := by positivity
  have hden : HasDerivAt (fun x : ℝ => 1 + Real.exp (-x)) (-Real.exp (-x)) x := by
    simpa using ((hasDerivAt_neg x).exp).const_add 1
  have h := hden.fun_inv hpos
  refine (h.congr_deriv ?_).congr_of_eventuallyEq (Filter.Eventually.of_forall fun y => ?_)
  · show -(-Real.exp (-x)) / (1 + Real.exp (-x)) ^ 2
      = 1 / (1 + Real.exp (-x)) * (1 - 1 / (1 + Real.exp (-x)))
    field_simp
    ring
  · show 1 / (1 + Real.exp (-y)) = (1 + Real.exp (-y))⁻¹
    rw [one_div]

theorem tanh_hasDerivAt (x : ℝ) :
    HasDerivAt (Tanh.activate : ℝ → ℝ) (Tanh.derivative (Tanh.activate x)) x := by
  have hcosh : Real.cosh x ≠ 0 := (Real.cosh_pos x).ne'
  have h := (Real.hasDerivAt_sinh x).fun_div (Real.hasDerivAt_cosh x) hcosh
  refine (h.congr_deriv ?_).congr_of_eventuallyEq (Filter.Eventually.of_forall fun y => ?_)
  · show (Real.cosh x * Real.cosh x - Real.sinh x * Real.sinh x) / Real.cosh x ^ 2
      = 1 - Real.tanh x * Real.tanh x
    rw [Real.tanh_eq_sinh_div_cosh]
    field_simp
  · exact Real.tanh_eq_sinh_div_cosh y

/-- Both rectifiers are linear on either side of `0`. -/
theorem rectifier_hasDerivAt {f : ℝ → ℝ} {c x : ℝ} (hpos : ∀ y, 0 ≤ y → f y = y)
    (hneg : ∀ y, y ≤ 0 → f y = c * y) (hx : x ≠ 0) :
    HasDerivAt f (if 0 < x then 1 else c) x := by
  rcases lt_or_gt_of_ne hx with h | h
  · rw [if_neg h.le.not_gt]
    have hlin : HasDerivAt (fun y : ℝ => c * y) c x := by
      simpa using (hasDerivAt_id x).const_mul c
    refine hlin.congr_of_eventuallyEq ?_
    filter_upwards [Iic_mem_nhds h] with y hy using hneg y hy
  · rw [if_pos h]
    refine (hasDerivAt_id x).congr_of_eventuallyEq ?_
    filter_upwards [Ici_mem_nhds h] with y hy using hpos y hy

/-- Up to `0` both rectifiers are linear. -/
theorem rectifier_hasDerivWithinAt_zero {f : ℝ → ℝ} {c : ℝ} (hneg : ∀ y, y ≤ 0 → f y = c * y) :
    HasDerivWithinAt f c (Set.Iic 0) 0 := by
  have hlin : HasDerivWithinAt (fun y : ℝ => c * y) c (Set.Iic 0) 0 := by
    simpa using ((hasDerivAt_id (0 : ℝ)).const_mul c).hasDerivWithinAt
  exact hlin.congr (fun y hy => hneg y hy) (hneg 0 le_rfl)

/-- **Away from its kink an activation has the derivative the source
computes from its output.** -/
theorem hasDerivAt {act : ActivationFunction} (hact : act ≠ softmax) {x : ℝ} (hx : ¬ act.Kink x) :
    HasDerivAt (act.activate : ℝ → ℝ) (act.slope (act.activate x)) x := by
  cases act with
  | softmax => exact absurd rfl hact
  | sigmoid => exact sigmoid_hasDerivAt x
  | tanh => exact tanh_hasDerivAt x
  | relu =>
    have hx0 : x ≠ 0 := fun h => hx ⟨Or.inl rfl, h⟩
    have h := rectifier_hasDerivAt (f := relu.activate) (c := 0) (fun y => relu_of_nonneg)
      (fun y hy => by rw [relu_of_nonpos hy, zero_mul]) hx0
    refine h.congr_deriv ?_
    rcases lt_or_gt_of_ne hx0 with hlt | hgt
    · rw [if_neg hlt.le.not_gt, relu_of_nonpos hlt.le, slope_relu_of_nonpos le_rfl]
    · rw [if_pos hgt, relu_of_nonneg hgt.le, slope_relu_of_pos hgt]
  | leakyRelu =>
    have hx0 : x ≠ 0 := fun h => hx ⟨Or.inr rfl, h⟩
    have h := rectifier_hasDerivAt (f := leakyRelu.activate) (c := 0.01)
      (fun y => leakyRelu_of_nonneg) (fun y => leakyRelu_of_nonpos) hx0
    refine h.congr_deriv ?_
    rcases lt_or_gt_of_ne hx0 with hlt | hgt
    · rw [if_neg hlt.le.not_gt, leakyRelu_of_nonpos hlt.le,
        slope_leakyRelu_of_nonpos (by linarith)]
    · rw [if_pos hgt, leakyRelu_of_nonneg hgt.le, slope_leakyRelu_of_pos hgt]

/-- **Everywhere an activation has the derivative from the left that the
source computes from its output.** -/
theorem hasDerivWithinAt {act : ActivationFunction} (hact : act ≠ softmax) (x : ℝ) :
    HasDerivWithinAt (act.activate : ℝ → ℝ) (act.slope (act.activate x)) (Set.Iic x) x := by
  by_cases hx : act.Kink x
  · obtain ⟨rfl | rfl, rfl⟩ := hx
    · rw [relu_of_nonpos le_rfl, slope_relu_of_nonpos le_rfl]
      exact rectifier_hasDerivWithinAt_zero fun y hy => by rw [relu_of_nonpos hy, zero_mul]
    · rw [leakyRelu_of_nonpos le_rfl, mul_zero, slope_leakyRelu_of_nonpos le_rfl]
      exact rectifier_hasDerivWithinAt_zero fun y => leakyRelu_of_nonpos
  · exact (hasDerivAt hact hx).hasDerivWithinAt

/-! ## Monotonicity -/

/-- **On the nonnegative numbers an activation that is applied entry by
entry is strictly increasing, with nonnegative values.** -/
theorem activate_lt {act : ActivationFunction} (hact : act ≠ softmax) {x y : ℝ} (hx : 0 ≤ x)
    (hxy : x < y) : 0 ≤ (act.activate x : ℝ) ∧ (act.activate x : ℝ) < act.activate y := by
  cases act with
  | softmax => exact absurd rfl hact
  | sigmoid =>
    show 0 ≤ 1 / (1 + Real.exp (-x)) ∧ 1 / (1 + Real.exp (-x)) < 1 / (1 + Real.exp (-y))
    refine ⟨by positivity, one_div_lt_one_div_of_lt (by positivity) ?_⟩
    have := Real.exp_lt_exp.mpr (neg_lt_neg hxy)
    linarith
  | tanh =>
    show 0 ≤ Real.tanh x ∧ Real.tanh x < Real.tanh y
    have hsinh : 0 ≤ Real.sinh x := Real.sinh_nonneg_iff.mpr hx
    rw [Real.tanh_eq_sinh_div_cosh, Real.tanh_eq_sinh_div_cosh]
    refine ⟨div_nonneg hsinh (Real.cosh_pos x).le, ?_⟩
    rw [div_lt_div_iff₀ (Real.cosh_pos x) (Real.cosh_pos y)]
    have hdiff : 0 < Real.sinh (y - x) := Real.sinh_pos_iff.mpr (by linarith)
    rw [Real.sinh_sub] at hdiff
    linarith
  | relu =>
    rw [relu_of_nonneg hx, relu_of_nonneg (hx.trans hxy.le)]
    exact ⟨hx, hxy⟩
  | leakyRelu =>
    rw [leakyRelu_of_nonneg hx, leakyRelu_of_nonneg (hx.trans hxy.le)]
    exact ⟨hx, hxy⟩

end ActivationFunction

namespace Sigmoid

theorem activate_pos (x : ℝ) : 0 < Sigmoid.activate x := by
  show 0 < 1 / (1 + Real.exp (-x))
  positivity

theorem activate_lt_one (x : ℝ) : Sigmoid.activate x < 1 := by
  show 1 / (1 + Real.exp (-x)) < 1
  have := Real.exp_pos (-x)
  rw [div_lt_one (by positivity)]
  linarith

/-- The derivative of the negative logarithm of a sigmoid. -/
theorem hasDerivAt_neg_log (v d : ℝ) :
    HasDerivAt (fun s : ℝ => -Real.log (Sigmoid.activate (v + s * d)))
      ((Sigmoid.activate v - 1) * d) 0 := by
  have hlin : HasDerivAt (fun s : ℝ => v + s * d) d 0 := by
    simpa using ((hasDerivAt_id (0 : ℝ)).mul_const d).const_add v
  have hsig := (ActivationFunction.sigmoid_hasDerivAt (v + 0 * d)).comp (0 : ℝ) hlin
  have hpos := activate_pos (v + 0 * d)
  refine (hsig.log hpos.ne').fun_neg.congr_deriv ?_
  show -(Sigmoid.activate (v + 0 * d) * (1 - Sigmoid.activate (v + 0 * d)) * d
    / Sigmoid.activate (v + 0 * d)) = _
  rw [zero_mul, add_zero] at hpos ⊢
  have hne : (Sigmoid.activate v : ℝ) ≠ 0 := hpos.ne'
  field_simp
  ring

end Sigmoid

/-! ## Softmax -/

namespace Softmax

variable {r : ℕ}

/-- **Scaling by the largest entry cancels**: softmax of a column is the
exponentials divided by their sum. -/
theorem column_real (v : Fin r → ℝ) (hr : 0 < r) (i : Fin r) :
    column v hr i = Real.exp (v i) / ∑ q, Real.exp (v q) := by
  have hscale : ∀ x, Real.exp (x - columnMax v hr)
      = Real.exp x * Real.exp (-columnMax v hr) := fun x => by rw [← Real.exp_add, sub_eq_add_neg]
  have hsum : (List.ofFn v).foldl (fun s x => s + Real.exp (x - columnMax v hr)) 0
      = 0 + ∑ q, Real.exp (v q - columnMax v hr) :=
    Checked.foldl_ofFn_eq_add_sum (fun _ _ => by rfl) 0
  show Real.exp (v i - columnMax v hr)
    / (List.ofFn v).foldl (fun s x => s + Real.exp (x - columnMax v hr)) 0 = _
  rw [hsum, zero_add]
  simp only [hscale]
  rw [← Finset.sum_mul, mul_div_mul_right _ _ (Real.exp_pos _).ne']

/-- The sum of the exponentials of a column is positive. -/
theorem sum_exp_pos (v : Fin r → ℝ) (hr : 0 < r) : 0 < ∑ q, Real.exp (v q) :=
  Finset.sum_pos (fun _ _ => Real.exp_pos _) ⟨⟨0, hr⟩, Finset.mem_univ _⟩

theorem column_pos (v : Fin r → ℝ) (hr : 0 < r) (i : Fin r) : 0 < column v hr i := by
  rw [column_real]
  exact div_pos (Real.exp_pos _) (sum_exp_pos v hr)

/-- Softmax of a column adds up to `1`. -/
theorem sum_column (v : Fin r → ℝ) (hr : 0 < r) : ∑ i, column v hr i = 1 := by
  simp only [column_real]
  rw [← Finset.sum_div, div_self (sum_exp_pos v hr).ne']

theorem column_le_one (v : Fin r → ℝ) (hr : 0 < r) (i : Fin r) : column v hr i ≤ 1 := by
  rw [← sum_column v hr]
  exact Finset.single_le_sum (fun q _ => (column_pos v hr q).le) (Finset.mem_univ i)

/-- The ratio of two entries is the exponential of the difference of what
softmax was applied to. -/
theorem column_eq_exp_mul (v : Fin r → ℝ) (hr : 0 < r) (i k : Fin r) :
    column v hr k = Real.exp (v k - v i) * column v hr i := by
  rw [column_real, column_real, Real.exp_sub]
  have hne : Real.exp (v i) ≠ 0 := (Real.exp_pos _).ne'
  field_simp

/-- **Softmax keeps the order of the entries of a column.** -/
theorem column_lt_iff (v : Fin r → ℝ) (hr : 0 < r) (i k : Fin r) :
    column v hr i < column v hr k ↔ v i < v k := by
  rw [column_real, column_real, div_lt_div_iff_of_pos_right (sum_exp_pos v hr), Real.exp_lt_exp]

/-- Softmax of a constant column is uniform. -/
theorem column_const (c : ℝ) (hr : 0 < r) (i : Fin r) :
    column (fun _ => c) hr i = 1 / (r : ℝ) := by
  rw [column_real, Finset.sum_const, Finset.card_univ, Fintype.card_fin, nsmul_eq_mul,
    div_mul_cancel_right₀ (Real.exp_pos c).ne', one_div]

end Softmax
