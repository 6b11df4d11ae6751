import NeuralBuilder.WeightDecay

/-!
# The derivative through the dropout mask

`forward` of a layer that drops units caches the activations after the mask
and the division by `keepProb`, and `backward` takes the derivative of the
activation from this cache, with the formula for the activation alone. The
rectifiers do not notice the factor. Sigmoid and tanh do, but for a single
value of the pre-activation (`exactThroughMask_iff`).

For a mask that is held fixed the layer is a function of its weights, its biases
and its input, and `weightedOutput_hasDerivAt_weight` and its two companions
differentiate it. What `backward` computes differs from this in one factor, the
slope of the activation, read off a cache that was divided by `keepProb`
already. So the condition is about single entries: the unit is dropped there,
`da` is `0`, or the activation tolerates the division. A decay of the weights is
a condition of its own, since `daPrev` is computed from the decayed ones.
-/

variable {n k m : ℕ}

/-! ## The derivative at a rescaled activation -/

namespace ActivationFunction

/-- **The pre-activations at which the derivative survives the division by
`keepProb`.** -/
noncomputable def Tolerates (act : ActivationFunction) (keepProb z : ℝ) : Prop :=
  match act with
  | relu => True
  | leakyRelu => True
  | sigmoid => Sigmoid.activate z = keepProb / (1 + keepProb)
  | tanh => z = 0
  | softmax => False

section Rescaled

variable {keepProb : ℝ} (hpos : 0 < keepProb)

include hpos

/-- A factor does not move a rectifier over its kink. -/
theorem slope_relu_div (a : ℝ) : (relu.slope (a / keepProb) : ℝ) = relu.slope a := by
  rcases le_or_gt a 0 with ha | ha
  · rw [slope_relu_of_nonpos ha, slope_relu_of_nonpos (div_nonpos_of_nonpos_of_nonneg ha hpos.le)]
  · rw [slope_relu_of_pos ha, slope_relu_of_pos (div_pos ha hpos)]

theorem slope_leakyRelu_div (a : ℝ) :
    (leakyRelu.slope (a / keepProb) : ℝ) = leakyRelu.slope a := by
  rcases le_or_gt a 0 with ha | ha
  · rw [slope_leakyRelu_of_nonpos ha,
      slope_leakyRelu_of_nonpos (div_nonpos_of_nonpos_of_nonneg ha hpos.le)]
  · rw [slope_leakyRelu_of_pos ha, slope_leakyRelu_of_pos (div_pos ha hpos)]

/-- Sigmoid has one value at which its derivative does not change. -/
theorem slope_sigmoid_div_iff (hlt : keepProb < 1) {a : ℝ} (ha : 0 < a) :
    (sigmoid.slope (a / keepProb) : ℝ) = sigmoid.slope a ↔ a = keepProb / (1 + keepProb) := by
  have hne : keepProb ≠ 0 := hpos.ne'
  have hsum : 1 + keepProb ≠ 0 := by positivity
  have hdiff : 1 - keepProb ≠ 0 := sub_ne_zero.mpr hlt.ne'
  have hfactor : a / keepProb * (1 - a / keepProb) - a * (1 - a)
      = a * (1 - keepProb) / keepProb ^ 2 * (keepProb - a * (1 + keepProb)) := by
    field_simp
    ring
  show a / keepProb * (1 - a / keepProb) = a * (1 - a) ↔ _
  rw [← sub_eq_zero, hfactor, mul_eq_zero, or_iff_right
    (div_ne_zero (mul_ne_zero ha.ne' hdiff) (pow_ne_zero 2 hne)), sub_eq_zero, eq_div_iff hsum]
  exact eq_comm

theorem slope_tanh_div_iff (hlt : keepProb < 1) (a : ℝ) :
    (tanh.slope (a / keepProb) : ℝ) = tanh.slope a ↔ a = 0 := by
  have hne : keepProb ≠ 0 := hpos.ne'
  have hfactor : 1 - a / keepProb * (a / keepProb) - (1 - a * a)
      = a * a * ((keepProb - 1) * (keepProb + 1) / keepProb ^ 2) := by
    field_simp
    ring
  have hcoefficient : (keepProb - 1) * (keepProb + 1) / keepProb ^ 2 ≠ 0 :=
    div_ne_zero (mul_ne_zero (sub_ne_zero.mpr hlt.ne) (by positivity)) (pow_ne_zero 2 hne)
  show 1 - a / keepProb * (a / keepProb) = 1 - a * a ↔ _
  rw [← sub_eq_zero, hfactor, mul_eq_zero, or_iff_left hcoefficient, mul_self_eq_zero]

/-- **When the division by `keepProb` leaves the derivative as it is.** -/
theorem slope_div_iff {act : ActivationFunction} (hact : act ≠ softmax) (hlt : keepProb < 1)
    (z : ℝ) : act.slope (act.activate z / keepProb) = act.slope (act.activate z)
      ↔ act.Tolerates keepProb z := by
  cases act with
  | softmax => exact absurd rfl hact
  | relu => exact iff_of_true (slope_relu_div hpos _) trivial
  | leakyRelu => exact iff_of_true (slope_leakyRelu_div hpos _) trivial
  | sigmoid =>
    refine slope_sigmoid_div_iff hpos hlt ?_
    show (0 : ℝ) < 1 / (1 + Real.exp (-z))
    positivity
  | tanh =>
    refine (slope_tanh_div_iff hpos hlt _).trans ?_
    show Real.tanh z = 0 ↔ z = 0
    rw [Real.tanh_eq_sinh_div_cosh, div_eq_zero_iff, or_iff_left (Real.cosh_pos z).ne',
      Real.sinh_eq_zero]

end Rescaled

end ActivationFunction

/-! ## The layer with its mask held fixed -/

/-- **The scalar that is differentiated**: what the layer returns for the
same calls of `rand()`, weighted by `da`. -/
noncomputable def DenseLayer.weightedOutput (rand : ℕ → ℝ) (X da : Mat ℝ)
    (layer : DenseLayer ℝ) : ℝ :=
  match layer.forward rand X with
  | .ok (a, _, _) => Mat.sumMul da a
  | .error _ => 0

namespace DenseParams

variable {L : DenseParams ℝ n k}

/-- A unit is either dropped or kept. -/
theorem gate_eq (L : DenseParams ℝ n k) (rand : ℕ → ℝ) (i : Fin k) (j : Fin m) :
    L.gate rand i j = 0 ∨ L.gate rand i j = 1 := by
  unfold gate Dropout.gate Double.ofBool
  split_ifs
  · exact Or.inr rfl
  · exact Or.inl rfl

/-- **The derivatives with respect to the pre-activations** of the layer with
its mask held fixed. -/
noncomputable def exactDz (L : DenseParams ℝ n k) (rand : ℕ → ℝ) (X : Fin n → Fin m → ℝ)
    (da : Fin k → Fin m → ℝ) : Fin k → Fin m → ℝ :=
  fun i j => deriv L.activation.activate (L.preact X i j) * (L.gate rand i j / L.keepProb) * da i j

/-- **An entry of `dz` is exact** where the unit is dropped, where nothing
comes in, and where the activation tolerates the factor. -/
theorem dz_eq_exactDz_iff (hact : L.activation ≠ .softmax) (hpos : 0 < L.keepProb)
    (hlt : L.keepProb < 1) (rand : ℕ → ℝ) (X : Fin n → Fin m → ℝ) (da : Fin k → Fin m → ℝ)
    {i : Fin k} {j : Fin m} (hkink : ¬ L.activation.Kink (L.preact X i j)) :
    L.dz rand X da i j = L.exactDz rand X da i j
      ↔ L.gate rand i j = 0 ∨ da i j = 0 ∨ L.activation.Tolerates L.keepProb (L.preact X i j) := by
  have hdrops : L.drops = true := decide_eq_true hlt
  have hforward : L.forward rand X i j
      = L.activation.activate (L.preact X i j) * L.gate rand i j / L.keepProb := by
    rw [forward, if_pos hdrops, act, ActivationFunction.onGrid_of_ne_softmax hact]
  have hmasked : L.masked rand da i j = da i j * L.gate rand i j / L.keepProb := by
    rw [masked, if_pos hdrops]
  unfold dz exactDz
  rw [if_neg hact, hforward, hmasked, (ActivationFunction.hasDerivAt hact hkink).deriv]
  rcases L.gate_eq rand i j with hgate | hgate
  · rw [hgate]
    refine iff_of_true ?_ (Or.inl rfl)
    simp only [mul_zero, zero_div, zero_mul]
  · -- a unit that is kept: both sides are multiples of what comes back
    have hscale : ∀ s s' d : ℝ, s' * (d / L.keepProb) = s * (1 / L.keepProb) * d
        ↔ d = 0 ∨ s' = s := by
      intro s s' d
      rw [← sub_eq_zero, show s' * (d / L.keepProb) - s * (1 / L.keepProb) * d
          = d * (s' - s) / L.keepProb by ring, div_eq_zero_iff, or_iff_left hpos.ne', mul_eq_zero,
        sub_eq_zero (a := s')]
    rw [hgate, mul_one, mul_one, or_iff_right one_ne_zero, hscale,
      ActivationFunction.slope_div_iff hpos hact hlt]

end DenseParams

/-! ## The partial derivatives -/

/-- The derivative of a weighted sum of activations. -/
theorem ActivationFunction.sum_hasDerivAt {act : ActivationFunction} (hact : act ≠ .softmax)
    (g : Fin k → Fin m → ℝ) {Z : ℝ → Fin k → Fin m → ℝ} {Z' : Fin k → Fin m → ℝ} {x : ℝ}
    (hZ : ∀ i j, HasDerivAt (fun x => Z x i j) (Z' i j) x)
    (hkink : ∀ i j, ¬ act.Kink (Z x i j)) :
    HasDerivAt (fun x => ∑ i, ∑ j, g i j * act.activate (Z x i j))
      (∑ i, ∑ j, g i j * (deriv act.activate (Z x i j) * Z' i j)) x := by
  refine HasDerivAt.fun_sum fun i _ => HasDerivAt.fun_sum fun j _ => HasDerivAt.const_mul _ ?_
  have h := ActivationFunction.hasDerivAt hact (hkink i j)
  rw [← h.deriv] at h
  exact h.comp x (hZ i j)

namespace DenseParams

variable {L : DenseParams ℝ n k}

theorem preact_hasDerivAt_weight (L : DenseParams ℝ n k) (X : Fin n → Fin m → ℝ) (i : Fin k)
    (q : Fin n) (i' : Fin k) (j : Fin m) :
    HasDerivAt (fun x => ({ L with w := Grid.update L.w i q x } : DenseParams ℝ n k).preact X i' j)
      (if i' = i then X q j else 0) (L.w i q) := by
  have h := (HasDerivAt.fun_sum fun q' (_ : q' ∈ Finset.univ) =>
    (Grid.update_hasDerivAt L.w i i' q q' (L.w i q)).mul_const (X q' j)).add_const (L.b i')
  refine (h.congr_deriv ?_).congr_of_eventuallyEq (Filter.Eventually.of_forall fun x => ?_)
  · by_cases hi : i' = i
    · simp only [if_pos hi, ite_mul, one_mul, zero_mul, Finset.sum_ite_eq', Finset.mem_univ,
        if_true]
    · simp only [if_neg hi, zero_mul, Finset.sum_const_zero]
  · show MathUtils.dot (Grid.update L.w i q x i') (fun q => X q j) + L.b i' = _
    rw [MathUtils.dot_real]
    rfl

theorem preact_hasDerivAt_bias (L : DenseParams ℝ n k) (X : Fin n → Fin m → ℝ) (i i' : Fin k)
    (j : Fin m) :
    HasDerivAt
      (fun x => ({ L with b := Function.update L.b i x } : DenseParams ℝ n k).preact X i' j)
      (if i' = i then 1 else 0) (L.b i) := by
  have hb : HasDerivAt (fun x => Function.update L.b i x i') (if i' = i then 1 else 0) (L.b i) := by
    by_cases hi : i' = i
    · subst hi
      simp only [Function.update_self, if_pos]
      exact hasDerivAt_id _
    · simp only [Function.update_of_ne hi, if_neg hi]
      exact hasDerivAt_const _ _
  exact hb.const_add (MathUtils.dot (L.w i') fun q => X q j)

theorem preact_hasDerivAt_input (L : DenseParams ℝ n k) (X : Fin n → Fin m → ℝ) (q : Fin n)
    (j : Fin m) (i : Fin k) (j' : Fin m) :
    HasDerivAt (fun x => L.preact (Grid.update X q j x) i j')
      (if j' = j then L.w i q else 0) (X q j) := by
  have h := (HasDerivAt.fun_sum fun q' (_ : q' ∈ Finset.univ) =>
    (Grid.update_hasDerivAt X q q' j j' (X q j)).const_mul (L.w i q')).add_const (L.b i)
  refine (h.congr_deriv ?_).congr_of_eventuallyEq (Filter.Eventually.of_forall fun x => ?_)
  · simp only [mul_ite, mul_one, mul_zero, Finset.sum_ite_eq', Finset.mem_univ, if_true]
  · show MathUtils.dot (L.w i) (fun q' => Grid.update X q j x q' j') + L.b i = _
    rw [MathUtils.dot_real]
    rfl

/-- A pre-activation that moves in one row has the derivatives of that row
alone. -/
theorem sum_row_exactDz (L : DenseParams ℝ n k) (rand : ℕ → ℝ) (X : Fin n → Fin m → ℝ)
    (da : Fin k → Fin m → ℝ) (i : Fin k) (f : Fin m → ℝ) :
    ∑ i', ∑ j, L.gate rand i' j / L.keepProb * da i' j
        * (deriv L.activation.activate (L.preact X i' j) * if i' = i then f j else 0)
      = ∑ j, L.exactDz rand X da i j * f j := by
  rw [Finset.sum_eq_single i]
  · refine Finset.sum_congr rfl fun j _ => ?_
    rw [if_pos rfl, exactDz]
    ring
  · intro i' _ hi
    simp only [if_neg hi, mul_zero, Finset.sum_const_zero]
  · exact fun hi => absurd (Finset.mem_univ i) hi

end DenseParams

namespace DenseLayer

/-- What `weightedOutput` is for a layer that drops units. -/
theorem weightedOutput_eq {layer : DenseLayer ℝ} {L : DenseParams ℝ n k} (h : layer.Holds L)
    (hact : L.activation ≠ .softmax) (hlt : L.keepProb < 1) (rand : ℕ → ℝ)
    (X : Fin n → Fin m → ℝ) (da : Fin k → Fin m → ℝ) (hn : 0 < n) :
    layer.weightedOutput rand (Grid.ofFn X) (Grid.ofFn da)
      = ∑ i, ∑ j, (L.gate rand i j / L.keepProb * da i j)
        * L.activation.activate (L.preact X i j) := by
  obtain ⟨layer', hrun, -⟩ := forward_holds h rand X hn
  unfold weightedOutput
  rw [hrun]
  show Mat.sumMul (Grid.ofFn da) (Grid.ofFn (L.forward rand X)) = _
  rw [Mat.sumMul_ofFn, DenseParams.forward, if_pos (show L.drops = true from decide_eq_true hlt),
    DenseParams.act, ActivationFunction.onGrid_of_ne_softmax hact]
  refine Finset.sum_congr rfl fun i _ => Finset.sum_congr rfl fun j _ => ?_
  ring

section Partial

variable {layer : DenseLayer ℝ} {L : DenseParams ℝ n k} (h : layer.Holds L)
  (hact : L.activation ≠ .softmax) (hlt : L.keepProb < 1) (rand : ℕ → ℝ)
  {X : Fin n → Fin m → ℝ} (hkink : ∀ i j, ¬ L.activation.Kink (L.preact X i j))
  (da : Fin k → Fin m → ℝ) (hn : 0 < n)

include h hact hlt hkink hn

/-- **The partial derivative in a weight.** -/
theorem weightedOutput_hasDerivAt_weight (i : Fin k) (q : Fin n) :
    HasDerivAt (fun x => ({ layer with w := Grid.ofFn (Grid.update L.w i q x) }).weightedOutput
      rand (Grid.ofFn X) (Grid.ofFn da)) (∑ j, L.exactDz rand X da i j * X q j) (L.w i q) := by
  have hholds : ∀ x, ({ layer with w := Grid.ofFn (Grid.update L.w i q x) } : DenseLayer ℝ).Holds
      { L with w := Grid.update L.w i q x } :=
    fun x => ⟨h.1, h.2, rfl, h.4, h.5, h.6, h.7, h.8, h.9⟩
  have hself : ({ L with w := Grid.update L.w i q (L.w i q) } : DenseParams ℝ n k) = L := by
    rw [Grid.update_self]
  have hsum := ActivationFunction.sum_hasDerivAt hact
    (fun i j => L.gate rand i j / L.keepProb * da i j)
    (L.preact_hasDerivAt_weight X i q) (by rwa [hself])
  refine (hsum.congr_deriv ?_).congr_of_eventuallyEq (Filter.Eventually.of_forall fun x =>
    weightedOutput_eq (hholds x) hact hlt rand X da hn)
  rw [hself]
  exact L.sum_row_exactDz rand X da i fun j => X q j

/-- **The partial derivative in a bias.** -/
theorem weightedOutput_hasDerivAt_bias (i : Fin k) :
    HasDerivAt (fun x => ({ layer with b := List.ofFn (Function.update L.b i x) }).weightedOutput
      rand (Grid.ofFn X) (Grid.ofFn da)) (∑ j, L.exactDz rand X da i j) (L.b i) := by
  have hholds : ∀ x, ({ layer with b := List.ofFn (Function.update L.b i x) } : DenseLayer ℝ).Holds
      { L with b := Function.update L.b i x } :=
    fun x => ⟨h.1, h.2, h.3, rfl, h.5, h.6, h.7, h.8, h.9⟩
  have hself : ({ L with b := Function.update L.b i (L.b i) } : DenseParams ℝ n k) = L := by
    rw [Function.update_eq_self]
  have hsum := ActivationFunction.sum_hasDerivAt hact
    (fun i j => L.gate rand i j / L.keepProb * da i j)
    (L.preact_hasDerivAt_bias X i) (by rwa [hself])
  refine (hsum.congr_deriv ?_).congr_of_eventuallyEq (Filter.Eventually.of_forall fun x =>
    weightedOutput_eq (hholds x) hact hlt rand X da hn)
  rw [hself]
  refine (L.sum_row_exactDz rand X da i fun _ => 1).trans ?_
  simp only [mul_one]

/-- **The partial derivative in an entry of the input.** -/
theorem weightedOutput_hasDerivAt_input (q : Fin n) (j : Fin m) :
    HasDerivAt (fun x => layer.weightedOutput rand (Grid.ofFn (Grid.update X q j x))
      (Grid.ofFn da)) (∑ i, L.w i q * L.exactDz rand X da i j) (X q j) := by
  have hsum := ActivationFunction.sum_hasDerivAt hact
    (fun i j => L.gate rand i j / L.keepProb * da i j)
    (L.preact_hasDerivAt_input X q j) (by rwa [Grid.update_self])
  refine (hsum.congr_deriv ?_).congr_of_eventuallyEq (Filter.Eventually.of_forall fun x =>
    weightedOutput_eq h hact hlt rand _ da hn)
  rw [Grid.update_self]
  refine Finset.sum_congr rfl fun i _ => ?_
  rw [Finset.sum_eq_single j]
  · rw [if_pos rfl, DenseParams.exactDz]
    ring
  · intro j' _ hj
    rw [if_neg hj, mul_zero, mul_zero]
  · exact fun hj => absurd (Finset.mem_univ j) hj

end Partial

end DenseLayer

namespace DenseLayer

/-- **The layer is differentiated through its mask**: `dz` is the derivative
of the activation at the pre-activation, times the mask over `keepProb`, times
`da`, and `dw`, `db` and `daPrev` are the derivatives of what the layer
returns for the same mask. -/
structure ExactThroughMask (layer : DenseLayer ℝ) (L : DenseParams ℝ n k) (rand : ℕ → ℝ)
    (X : Fin n → Fin m → ℝ) (da : Fin k → Fin m → ℝ) (dz : Fin k → Fin m → ℝ)
    (daPrev : Fin n → Fin m → ℝ) (dw : Fin k → Fin n → ℝ) (db : Fin k → ℝ) : Prop where
  /-- `dz` is the chain rule through the mask. -/
  dz : ∀ i j, dz i j = deriv layer.activationFunction.activate (L.preact X i j)
    * (L.gate rand i j / layer.keepProb) * da i j
  /-- `dw` is the derivative in the weights, divided by the number of samples. -/
  dw : ∀ i q, HasDerivAt (fun x => ({ layer with w := Grid.ofFn (Grid.update L.w i q x)
    }).weightedOutput rand (Grid.ofFn X) (Grid.ofFn da)) (m * dw i q) (L.w i q)
  /-- `db` is the one in the biases, divided likewise. -/
  db : ∀ i, HasDerivAt (fun x => ({ layer with b := List.ofFn (Function.update L.b i x)
    }).weightedOutput rand (Grid.ofFn X) (Grid.ofFn da)) (m * db i) (L.b i)
  /-- `daPrev` is the one in the input. -/
  daPrev : ∀ q j, HasDerivAt (fun x => layer.weightedOutput rand
    (Grid.ofFn (Grid.update X q j x)) (Grid.ofFn da)) (daPrev q j) (X q j)

/-- **When a layer that drops units is differentiated through its mask.** A
forward and a backward pass go through, and what `backward` computes is the
derivative for the mask of the forward pass if and only if, at every entry, the
unit is dropped, `da` is `0` or the activation tolerates the division by
`keepProb`; and, with a decay, what is handed on is `0` before the weights are
decayed. -/
theorem exactThroughMask_iff {layer : DenseLayer ℝ} {L : DenseParams ℝ n k} (h : layer.Holds L)
    (hpos : 0 < layer.keepProb) (hlt : layer.keepProb < 1)
    (hact : layer.activationFunction ≠ .softmax) (rand : ℕ → ℝ) (X : Fin n → Fin m → ℝ)
    (hkink : ∀ i j, ¬ layer.activationFunction.Kink (L.preact X i j)) (da : Fin k → Fin m → ℝ)
    (hn : 0 < n) (hm : 0 < m) :
    ∃ (a : Mat ℝ) (forwarded : DenseLayer ℝ) (rand' : ℕ → ℝ) (dz : Fin k → Fin m → ℝ)
      (daPrev : Fin n → Fin m → ℝ) (updated : DenseLayer ℝ) (dw : Fin k → Fin n → ℝ)
      (db : Fin k → ℝ),
      layer.forward rand (Grid.ofFn X) = .ok (a, forwarded, rand')
      ∧ forwarded.z = Grid.ofFn (L.preact X)
      ∧ forwarded.dropoutMask = Grid.ofFn (L.gate rand : Fin k → Fin m → ℝ)
      ∧ forwarded.backwardDz (Grid.ofFn da) = .ok (Grid.ofFn dz)
      ∧ forwarded.backward (Grid.ofFn da) = .ok (Grid.ofFn daPrev, updated)
      ∧ updated.dw = Grid.ofFn dw ∧ updated.db = List.ofFn db
      ∧ (layer.ExactThroughMask L rand X da dz daPrev dw db
        ↔ (∀ i j, L.gate rand i j = 0 ∨ da i j = 0
            ∨ layer.activationFunction.Tolerates layer.keepProb (L.preact X i j))
          ∧ (layer.lambda = 0 ∨ ∀ q j, ∑ i, L.w i q
            * (deriv layer.activationFunction.activate (L.preact X i j)
              * (L.gate rand i j / layer.keepProb) * da i j) = 0)) := by
  obtain ⟨forwarded, updated, hforward, hcached, hdz, hback, -, hdw, hdb⟩ :=
    step_holds h rand X da hn hm
  refine ⟨_, forwarded, _, _, _, updated, _, _, hforward, hcached.z,
    hcached.dropoutMask (decide_eq_true (h.keepProb ▸ hlt)), hdz, hback, hdw, hdb, ?_⟩
  rw [h.keepProb] at hpos hlt
  rw [h.activationFunction] at hact hkink
  have hm' : (m : ℝ) ≠ 0 := Nat.cast_ne_zero.mpr hm.ne'
  have hinput := weightedOutput_hasDerivAt_input h hact hlt rand hkink da hn
  -- the derivative with respect to the pre-activations decides all but `daPrev`
  have hentries : (∀ i j, L.dz rand X da i j = L.exactDz rand X da i j)
      ↔ ∀ i j, L.gate rand i j = 0 ∨ da i j = 0
        ∨ L.activation.Tolerates L.keepProb (L.preact X i j) :=
    forall_congr' fun i => forall_congr' fun j =>
      DenseParams.dz_eq_exactDz_iff hact hpos hlt rand X da (hkink i j)
  have hprev : (∀ i j, L.dz rand X da i j = L.exactDz rand X da i j) → ∀ q j,
      (L.daPrev rand X da q j = ∑ i, L.w i q * L.exactDz rand X da i j
        ↔ L.lambda = 0 ∨ ∑ i, L.w i q * L.exactDz rand X da i j = 0) := by
    intro hexact q j
    simp only [DenseParams.daPrev_real, hexact]
    rw [← sub_eq_zero, show ∀ s : ℝ, (1 - L.lambda / m) * s - s = -(L.lambda / m * s) from
      fun s => by ring, neg_eq_zero, mul_eq_zero, div_eq_zero_iff, or_iff_left hm']
  rw [h.keepProb, h.activationFunction, h.lambda, ← hentries]
  constructor
  · intro hmask
    have hexact : ∀ i j, L.dz rand X da i j = L.exactDz rand X da i j := by
      have := hmask.dz
      rwa [h.keepProb, h.activationFunction] at this
    refine ⟨hexact, or_iff_not_imp_left.mpr fun hlambda q j => ?_⟩
    exact ((hprev hexact q j).mp ((hmask.daPrev q j).unique (hinput q j))).resolve_left hlambda
  · rintro ⟨hexact, hor⟩
    refine ⟨?_, fun i q => ?_, fun i => ?_, fun q j => ?_⟩
    · rw [h.keepProb, h.activationFunction]
      exact hexact
    · have hw := weightedOutput_hasDerivAt_weight h hact hlt rand hkink da hn i q
      simp only [hexact, mul_div_cancel₀ _ hm']
      exact hw
    · have hb := weightedOutput_hasDerivAt_bias h hact hlt rand hkink da hn i
      simp only [hexact, mul_div_cancel₀ _ hm']
      exact hb
    · rw [(hprev hexact q j).mpr (hor.imp_right fun hzero => hzero q j)]
      exact hinput q j

end DenseLayer

/-- A sigmoid unit on one feature, of weight and bias `0`. -/
noncomputable def droppingUnit (keepProb : ℝ) : DenseLayer ℝ :=
  { DenseLayer.unit 0 0 0 1 .sigmoid "sigmoid" with keepProb }

/-- Its parameters. -/
noncomputable def droppingUnitParams (keepProb : ℝ) : DenseParams ℝ 1 1 :=
  { DenseParams.unit 0 0 1 .sigmoid with keepProb }

theorem droppingUnit_holds (keepProb : ℝ) :
    (droppingUnit keepProb).Holds (droppingUnitParams keepProb) :=
  ⟨rfl, rfl, rfl, rfl, rfl, rfl, rfl, rfl, rfl⟩

theorem droppingUnitParams_preact (keepProb : ℝ) (X : Fin 1 → Fin 1 → ℝ) :
    (droppingUnitParams keepProb).preact X = oneEntry 0 := by
  funext i j
  show MathUtils.dot (fun _ => (0 : ℝ)) (fun q => X q j) + 0 = 0
  rw [MathUtils.dot_real, add_zero]
  exact Finset.sum_eq_zero fun q _ => zero_mul _

/-- A call of `rand()` that returns `0` keeps the unit. -/
theorem droppingUnitParams_gate (i j : Fin 1) :
    ((droppingUnitParams (1 / 2)).gate (fun _ => 0) i j : ℝ) = 1 :=
  if_pos (decide_eq_true (show (0 : ℝ) < 1 / 2 by norm_num))

namespace DenseLayer

theorem droppingUnit_exactThroughMask_iff :
    ∃ (a : Mat ℝ) (forwarded : DenseLayer ℝ) (rand' : ℕ → ℝ) (dz : Fin 1 → Fin 1 → ℝ)
      (daPrev : Fin 1 → Fin 1 → ℝ) (updated : DenseLayer ℝ) (dw : Fin 1 → Fin 1 → ℝ)
      (db : Fin 1 → ℝ),
      (droppingUnit (1 / 2)).forward (fun _ => 0) (Grid.ofFn (oneEntry 1))
        = .ok (a, forwarded, rand')
      ∧ forwarded.z = Grid.ofFn ((droppingUnitParams (1 / 2)).preact (oneEntry 1))
      ∧ forwarded.dropoutMask
        = Grid.ofFn ((droppingUnitParams (1 / 2)).gate (fun _ => 0) : Fin 1 → Fin 1 → ℝ)
      ∧ forwarded.backwardDz (Grid.ofFn (oneEntry 1)) = .ok (Grid.ofFn dz)
      ∧ forwarded.backward (Grid.ofFn (oneEntry 1)) = .ok (Grid.ofFn daPrev, updated)
      ∧ updated.dw = Grid.ofFn dw ∧ updated.db = List.ofFn db
      ∧ ((droppingUnit (1 / 2)).ExactThroughMask (droppingUnitParams (1 / 2)) (fun _ => 0)
          (oneEntry 1) (oneEntry 1) dz daPrev dw db
        ↔ (∀ i j, (droppingUnitParams (1 / 2)).gate (fun _ => 0) i j = 0 ∨ oneEntry 1 i j = 0
            ∨ (droppingUnit (1 / 2)).activationFunction.Tolerates (droppingUnit (1 / 2)).keepProb
              ((droppingUnitParams (1 / 2)).preact (oneEntry 1) i j))
          ∧ ((droppingUnit (1 / 2)).lambda = 0 ∨ ∀ q j, ∑ i, (droppingUnitParams (1 / 2)).w i q
            * (deriv (droppingUnit (1 / 2)).activationFunction.activate
                ((droppingUnitParams (1 / 2)).preact (oneEntry 1) i j)
              * ((droppingUnitParams (1 / 2)).gate (fun _ => 0) i j
                / (droppingUnit (1 / 2)).keepProb) * oneEntry 1 i j) = 0)) := by
  have hsigmoid : (droppingUnit (1 / 2)).activationFunction = .sigmoid := rfl
  refine exactThroughMask_iff (droppingUnit_holds (1 / 2)) (show (0 : ℝ) < 1 / 2 by norm_num)
    (show (1 / 2 : ℝ) < 1 by norm_num) ?_ (fun _ => 0) (oneEntry 1) (fun i j hkink => ?_)
    (oneEntry 1) one_pos one_pos
  · rw [hsigmoid]
    decide
  · rw [ActivationFunction.Kink, hsigmoid] at hkink
    exact absurd hkink.1 (by decide)

/-- **A kept sigmoid unit at `0`** has the cache `1 / 2` over `1 / 2`, at which
the formula is `0`, where the derivative is `1 / 4` times `2`. -/
theorem droppingUnit_dz :
    ∃ (a : Mat ℝ) (forwarded : DenseLayer ℝ) (rand' : ℕ → ℝ),
      (droppingUnit (1 / 2)).forward (fun _ => 0) [[1]] = .ok (a, forwarded, rand')
      ∧ forwarded.z = [[0]] ∧ forwarded.dropoutMask = [[1]] ∧ forwarded.a = [[1]]
      ∧ forwarded.backwardDz [[1]] = .ok [[0]]
      ∧ deriv ActivationFunction.sigmoid.activate (0 : ℝ)
        * (1 / (droppingUnit (1 / 2)).keepProb) * 1 = 1 / 2 := by
  have hsoftmax : (droppingUnitParams (1 / 2)).activation ≠ .softmax := by
    show ActivationFunction.sigmoid ≠ .softmax
    decide
  have hdrops : (droppingUnitParams (1 / 2)).drops = true :=
    decide_eq_true (show (1 / 2 : ℝ) < 1 by norm_num)
  have hhalf : (Sigmoid.activate 0 : ℝ) = 1 / 2 := by
    show 1 / (1 + Real.exp (-0)) = (1 / 2 : ℝ)
    rw [neg_zero, Real.exp_zero]
    norm_num
  obtain ⟨forwarded, updated, hforward, hcached, hdz, -⟩ :=
    step_holds (droppingUnit_holds (1 / 2)) (fun _ => 0) (oneEntry 1) (oneEntry 1) one_pos one_pos
  -- the output that is kept is scaled to `1`, where the sigmoid reads a slope of `0`
  have hone : (droppingUnitParams (1 / 2)).forward (fun _ => 0) (oneEntry 1) = oneEntry 1 := by
    rw [DenseParams.forward, if_pos hdrops, DenseParams.act,
      ActivationFunction.onGrid_of_ne_softmax hsoftmax, droppingUnitParams_preact]
    funext i j
    rw [droppingUnitParams_gate]
    show (Sigmoid.activate 0 : ℝ) * 1 / (1 / 2) = 1
    rw [hhalf]
    norm_num
  have hzero : (droppingUnitParams (1 / 2)).dz (fun _ => 0) (oneEntry 1) (oneEntry 1)
      = oneEntry 0 := by
    rw [DenseParams.dz, if_neg hsoftmax, hone]
    funext i j
    show (1 * (1 - 1) : ℝ) * _ = 0
    rw [sub_self, mul_zero, zero_mul]
  refine ⟨_, forwarded, _, hforward, ?_, ?_, ?_, ?_, ?_⟩
  · rw [hcached.z, droppingUnitParams_preact]
    rfl
  · rw [hcached.dropoutMask hdrops]
    exact congrArg (fun x : ℝ => [[x]]) (droppingUnitParams_gate 0 0)
  · rw [hcached.a, hone]
    rfl
  · rw [hzero] at hdz
    exact hdz
  · have hderiv : deriv ActivationFunction.sigmoid.activate (0 : ℝ)
        = Sigmoid.derivative (Sigmoid.activate 0) :=
      (ActivationFunction.sigmoid_hasDerivAt 0).deriv
    rw [hderiv, hhalf]
    show (1 / 2 * (1 - 1 / 2) : ℝ) * (1 / (1 / 2)) * 1 = 1 / 2
    norm_num

end DenseLayer
