import NeuralBuilder.Backpropagation
import NeuralBuilder.SoftmaxGradient

/-!
# The decay of the weights

Where the `lambda` of a layer is not `0`, `backward` takes `lambda / m` times
every weight off it, in place, between the derivatives of the weights and
those of the input. Two things follow. The decay is not scaled by the
learning rate, so that the step is one on the cost plus the penalty of
`calculateLayerPenalty` for a learning rate of `1` only
(`backward_follows_penalty_iff`). And the derivatives handed to the layer
before are those of the decayed weights, so that the `lambda` of a layer
moves the weights of every layer before it (`undisturbed_iff`).

Both conditions are exact. For the first one the penalty is differentiated,
which is what its name in the source promises a step on; for the second one two
chains are compared that differ in the `lambda` of one layer, and what is asked
is whether the layers before it end up the same.
-/

variable {n k p m : ℕ}

/-! ## The penalty -/

namespace L2Regularizer

theorem weightSquareSum_ofFn (W : Fin k → Fin n → ℝ) :
    weightSquareSum (Grid.ofFn W) = ∑ i, ∑ q, W i q * W i q := by
  unfold weightSquareSum Grid.ofFn
  rw [Checked.foldl_ofFn_eq_add_sum (a := fun i => ∑ q, W i q * W i q), zero_add]
  intro s i
  exact Checked.foldl_ofFn_eq_add_sum (f := fun s x => s + x * x) (fun _ _ => rfl) s

/-- **The derivative of the penalty** with respect to a weight. -/
theorem calculateLayerPenalty_hasDerivAt (W : Fin k → Fin n → ℝ) (lambda : ℝ) (hm : 0 < m)
    (i : Fin k) (q : Fin n) :
    HasDerivAt (fun x => calculateLayerPenalty (Grid.ofFn (Grid.update W i q x)) lambda m)
      (lambda / m * W i q) (W i q) := by
  have hsum := HasDerivAt.fun_sum fun i' (_ : i' ∈ Finset.univ) =>
    HasDerivAt.fun_sum fun q' (_ : q' ∈ Finset.univ) =>
      (Grid.update_hasDerivAt W i i' q q' (W i q)).fun_mul
        (Grid.update_hasDerivAt W i i' q q' (W i q))
  simp only [← weightSquareSum_ofFn] at hsum
  refine ((hsum.mul_const lambda).div_const ((2 * m : ℕ) : ℝ)).congr_deriv ?_
  have hm' : (m : ℝ) ≠ 0 := Nat.cast_ne_zero.mpr hm.ne'
  simp only [Grid.update_self, ite_mul, one_mul, zero_mul, mul_ite, mul_one, mul_zero,
    Finset.sum_add_distrib, Finset.sum_ite_eq', Finset.mem_univ, if_true, Finset.sum_ite_irrel,
    Finset.sum_const_zero, Nat.cast_mul, Nat.cast_ofNat]
  field_simp
  ring

end L2Regularizer

/-! ## The step -/

namespace DenseParams

/-- The weights after the decay. -/
theorem decayed_apply (L : DenseParams ℝ n k) (m : ℕ) (i : Fin k) (q : Fin n) :
    L.decayed m i q = (1 - L.lambda / m) * L.w i q := by
  unfold decayed
  by_cases h : L.lambda = 0
  · rw [if_pos (show Double.eq L.lambda 0 = true from decide_eq_true h), h, zero_div, sub_zero,
      one_mul]
  · rw [if_neg (by simpa using h), sub_mul, one_mul]

/-- **What a step does to the weights**: the decay is not scaled by the
learning rate. -/
theorem update_w_decayed (L : DenseParams ℝ n k) (rand : ℕ → ℝ) (X : Fin n → Fin m → ℝ)
    (da : Fin k → Fin m → ℝ) (i : Fin k) (q : Fin n) :
    (L.update rand X da).w i q = (1 - L.lambda / m) * L.w i q
      - (∑ j, L.dz rand X da i j * X q j) / (m : ℝ) * L.learningRate := by
  show L.decayed m i q - MathUtils.dot (L.dz rand X da i) (fun j => X q j) / (m : ℝ)
    * L.learningRate = _
  rw [decayed_apply, MathUtils.dot_real]
  rfl

end DenseParams

namespace DenseLayer

/-- A list of the right length is resized to itself. -/
theorem resize_of_length {β : Type} {v : List β} {r : ℕ} (h : v.length = r) (x : β) :
    resize v r x = v := by
  unfold resize
  rw [List.take_of_length_le h.le, h, Nat.sub_self, List.replicate_zero, List.append_nil]

/-- **A step of a layer**, with the derivatives it leaves in `dw` and `db`. -/
theorem step_holds {layer : DenseLayer ℝ} {L : DenseParams ℝ n k} (h : layer.Holds L)
    (rand : ℕ → ℝ) (X : Fin n → Fin m → ℝ) (da : Fin k → Fin m → ℝ) (hn : 0 < n) (hm : 0 < m) :
    ∃ forwarded updated : DenseLayer ℝ,
      layer.forward rand (Grid.ofFn X)
        = .ok (Grid.ofFn (L.forward rand X), forwarded, L.randAfter m rand)
      ∧ forwarded.Caches L rand X
      ∧ forwarded.backwardDz (Grid.ofFn da) = .ok (Grid.ofFn (L.dz rand X da))
      ∧ forwarded.backward (Grid.ofFn da) = .ok (Grid.ofFn (L.daPrev rand X da), updated)
      ∧ updated.Holds (L.update rand X da)
      ∧ updated.dw = Grid.ofFn (fun i q => (∑ j, L.dz rand X da i j * X q j) / (m : ℝ))
      ∧ updated.db = List.ofFn fun i => (∑ j, L.dz rand X da i j) / (m : ℝ) := by
  obtain ⟨forwarded, hforward, hheld, hcached, -⟩ := forward_holds h rand X hn
  have hdz := backwardDz_holds hheld hcached da
  have hfrom := backwardFromDz_holds hheld hcached.aPrev (L.dz rand X da) hn hm
  have hback : forwarded.backward (Grid.ofFn da)
      = forwarded.backwardFromDz m (Grid.ofFn (L.dz rand X da)) := by
    rw [backward_eq, Vec.at_row_zero da L.pos, Checked.ok_bind, List.length_ofFn, hdz,
      Checked.ok_bind]
  refine ⟨forwarded, _, hforward, hcached, hdz, hback.trans hfrom,
    ⟨hheld.1, hheld.2, rfl, rfl, hheld.5, hheld.6, hheld.7, hheld.8, hheld.9⟩, ?_, ?_⟩
  · have hdw : ∀ i q, MathUtils.dot (L.dz rand X da i) (fun j => X q j)
        = ∑ j, L.dz rand X da i j * X q j := fun i q => MathUtils.dot_real _ _
    simp only [hdw]
    exact resize_of_length ((Grid.length_ofFn _).trans hheld.outputSize.symm) _
  · have hdb : ∀ i, MathUtils.dot (L.dz rand X da i) (fun _ => 1) = ∑ j, L.dz rand X da i j := by
      intro i
      rw [MathUtils.dot_real]
      exact Finset.sum_congr rfl fun j _ => mul_one _
    simp only [hdb]
    exact resize_of_length (List.length_ofFn.trans hheld.outputSize.symm) _

/-- **When a step follows the penalty**: the weights after `backward` are those
of a gradient step on the cost plus the penalty where the learning rate is `1`
or there is no weight to decay, and nowhere else. -/
theorem backward_follows_penalty_iff {layer : DenseLayer ℝ} {L : DenseParams ℝ n k}
    (h : layer.Holds L) (hlambda : layer.lambda ≠ 0) (rand : ℕ → ℝ)
    (X : Fin n → Fin m → ℝ) (da : Fin k → Fin m → ℝ) (hn : 0 < n) (hm : 0 < m) :
    ∃ (a : Mat ℝ) (forwarded : DenseLayer ℝ) (rand' : ℕ → ℝ) (dz : Fin k → Fin m → ℝ)
      (daPrev : Mat ℝ) (updated : DenseLayer ℝ) (dw : Fin k → Fin n → ℝ),
      layer.forward rand (Grid.ofFn X) = .ok (a, forwarded, rand')
      ∧ forwarded.backwardDz (Grid.ofFn da) = .ok (Grid.ofFn dz)
      ∧ forwarded.backward (Grid.ofFn da) = .ok (daPrev, updated)
      ∧ (∀ i q, dw i q = (∑ j, dz i j * X q j) / m) ∧ updated.dw = Grid.ofFn dw
      ∧ (∀ i q, HasDerivAt (fun x => L2Regularizer.calculateLayerPenalty
        (Grid.ofFn (Grid.update L.w i q x)) L.lambda m) (L.lambda / m * L.w i q) (L.w i q))
      ∧ (updated.w = Grid.ofFn (fun i q =>
          L.w i q - L.learningRate * (dw i q + L.lambda / m * L.w i q))
        ↔ layer.learningRate = 1 ∨ ∀ row ∈ layer.w, ∀ weight ∈ row, weight = 0) := by
  obtain ⟨forwarded, updated, hforward, -, hdz, hback, hheld, hdw, -⟩ :=
    step_holds h rand X da hn hm
  refine ⟨_, forwarded, _, L.dz rand X da, _, updated, _, hforward, hdz, hback,
    fun i q => rfl, hdw,
    fun i q => L2Regularizer.calculateLayerPenalty_hasDerivAt L.w L.lambda hm i q, ?_⟩
  have hm' : (m : ℝ) ≠ 0 := Nat.cast_ne_zero.mpr hm.ne'
  have hcoefficient : L.lambda / m ≠ 0 := div_ne_zero (h.lambda ▸ hlambda) hm'
  -- what the step takes off too much
  have hentry : ∀ d w : ℝ, (1 - L.lambda / m) * w - d * L.learningRate
      = w - L.learningRate * (d + L.lambda / m * w) ↔ L.learningRate = 1 ∨ w = 0 := by
    intro d w
    rw [← sub_eq_zero (b := w - _), ← sub_eq_zero (b := (1 : ℝ)),
      show (1 - L.lambda / m) * w - d * L.learningRate
        - (w - L.learningRate * (d + L.lambda / m * w))
        = L.lambda / m * ((L.learningRate - 1) * w) by ring,
      mul_eq_zero, mul_eq_zero, or_iff_right hcoefficient]
  rw [hheld.w, Grid.ofFn_inj, h.learningRate, h.w]
  simp only [funext_iff, DenseParams.update_w_decayed, hentry]
  constructor
  · intro heq
    by_contra hne
    obtain ⟨hrate, hweights⟩ := not_or.mp hne
    refine hweights fun row hrow weight hweight => ?_
    obtain ⟨i, rfl⟩ := List.mem_ofFn.mp hrow
    obtain ⟨q, rfl⟩ := List.mem_ofFn.mp hweight
    exact (heq i q).resolve_left hrate
  · intro hor i q
    refine hor.imp_right fun hweights => ?_
    exact hweights _ (List.mem_ofFn.mpr ⟨i, rfl⟩) _ (List.mem_ofFn.mpr ⟨q, rfl⟩)

end DenseLayer

/-- A relu unit on one feature whose weight `1` decays. -/
noncomputable def decayingUnit (addr : ℕ) (learningRate lambda : ℝ) : DenseLayer ℝ :=
  { DenseLayer.unit addr 1 0 learningRate .relu "relu" with lambda }

/-- Its parameters. -/
noncomputable def decayingUnitParams (learningRate lambda : ℝ) : DenseParams ℝ 1 1 :=
  { DenseParams.unit 1 0 learningRate .relu with lambda }

theorem decayingUnit_holds (addr : ℕ) (learningRate lambda : ℝ) :
    (decayingUnit addr learningRate lambda).Holds (decayingUnitParams learningRate lambda) :=
  ⟨rfl, rfl, rfl, rfl, rfl, rfl, rfl, rfl, rfl⟩

theorem decayingUnitParams_drops (learningRate lambda : ℝ) :
    (decayingUnitParams learningRate lambda).drops = false :=
  decide_eq_false (lt_irrefl (1 : ℝ))

theorem decayingUnitParams_ne_softmax (learningRate lambda : ℝ) :
    (decayingUnitParams learningRate lambda).activation ≠ .softmax := by
  show ActivationFunction.relu ≠ .softmax
  decide

namespace DenseLayer

theorem decayingUnit_follows_penalty_iff :
    ∃ (a : Mat ℝ) (forwarded : DenseLayer ℝ) (rand' : ℕ → ℝ) (dz : Fin 1 → Fin 1 → ℝ)
      (daPrev : Mat ℝ) (updated : DenseLayer ℝ) (dw : Fin 1 → Fin 1 → ℝ),
      (decayingUnit 0 1 1).forward (fun _ => 0) [[1]] = .ok (a, forwarded, rand')
      ∧ forwarded.backwardDz [[1]] = .ok (Grid.ofFn dz)
      ∧ forwarded.backward [[1]] = .ok (daPrev, updated)
      ∧ (∀ i q, dw i q = (∑ j, dz i j * 1) / (1 : ℕ)) ∧ updated.dw = Grid.ofFn dw
      ∧ (∀ i q, HasDerivAt (fun x => L2Regularizer.calculateLayerPenalty
        (Grid.ofFn (Grid.update (decayingUnitParams 1 1).w i q x)) 1 1) (1 / (1 : ℕ) * 1) 1)
      ∧ (updated.w = Grid.ofFn (fun i q => (1 : ℝ) - 1 * (dw i q + 1 / (1 : ℕ) * 1))
        ↔ (1 : ℝ) = 1 ∨ ∀ row ∈ (decayingUnit 0 1 1).w, ∀ weight ∈ row, weight = 0) :=
  backward_follows_penalty_iff (decayingUnit_holds 0 1 1) one_ne_zero (fun _ => 0)
    (fun (_ : Fin 1) (_ : Fin 1) => 1) (fun (_ : Fin 1) (_ : Fin 1) => 1) one_pos one_pos

/-- **At a learning rate of `1 / 2`** the weight `1` with `lambda` `1` is
decayed to `0`, and not to `1 / 2`, where nothing comes back. -/
theorem decayingUnit_overshoots :
    ∃ (a : Mat ℝ) (forwarded : DenseLayer ℝ) (rand' : ℕ → ℝ) (daPrev : Mat ℝ)
      (updated : DenseLayer ℝ),
      (decayingUnit 0 (1 / 2) 1).forward (fun _ => 0) [[1]] = .ok (a, forwarded, rand')
      ∧ forwarded.backwardDz [[0]] = .ok [[0]]
      ∧ forwarded.backward [[0]] = .ok (daPrev, updated)
      ∧ updated.dw = [[0]] ∧ updated.w = [[0]]
      ∧ updated.w ≠ [[(1 : ℝ) - 1 / 2 * (0 + 1 / (1 : ℕ) * 1)]] := by
  obtain ⟨forwarded, updated, hforward, -, hdz, hback, hheld, hdw, -⟩ :=
    step_holds (decayingUnit_holds 0 (1 / 2) 1) (fun _ => 0)
      (fun (_ : Fin 1) (_ : Fin 1) => 1) (fun (_ : Fin 1) (_ : Fin 1) => 0) one_pos one_pos
  have hzero : (decayingUnitParams (1 / 2) 1).dz (fun _ => 0) (fun (_ : Fin 1) (_ : Fin 1) => 1)
      (fun (_ : Fin 1) (_ : Fin 1) => 0) = fun _ _ => 0 := by
    unfold DenseParams.dz
    rw [if_neg (decayingUnitParams_ne_softmax _ _),
      DenseParams.masked_eq (decayingUnitParams_drops _ _)]
    simp only [mul_zero]
  rw [hzero] at hdz
  simp only [hzero, zero_mul, Finset.sum_const_zero, zero_div] at hdw
  -- without a gradient the weight is scaled by `1 - lambda / m`, which is `0`
  have hw0 : updated.w = [[0]] := by
    rw [hheld.w]
    refine congrArg (fun x => [[x]]) ?_
    rw [DenseParams.update_w_decayed, hzero]
    simp only [zero_mul, Finset.sum_const_zero, zero_div]
    show (1 - (1 : ℝ) / (1 : ℕ)) * 1 - 0 = 0
    norm_num
  refine ⟨_, forwarded, _, _, updated, hforward, hdz, hback, hdw, hw0, ?_⟩
  rw [hw0]
  norm_num

end DenseLayer

/-! ## What the layer hands on -/

namespace DenseParams

/-- What a layer hands on is scaled by its own decay. -/
theorem daPrev_real (L : DenseParams ℝ n k) (rand : ℕ → ℝ) (X : Fin n → Fin m → ℝ)
    (da : Fin k → Fin m → ℝ) (q : Fin n) (j : Fin m) :
    L.daPrev rand X da q j = (1 - L.lambda / m) * ∑ i, L.w i q * L.dz rand X da i j := by
  unfold daPrev
  rw [MathUtils.dot_real, Finset.mul_sum]
  refine Finset.sum_congr rfl fun i _ => ?_
  show L.decayed m i q * L.dz rand X da i j = _
  rw [decayed_apply, mul_assoc]

end DenseParams

/-- **The `daPrev` of a layer with this `lambda` is `wᵀ · dz`**, for the
weights `w` that its forward pass used. -/
def DenseLayer.HandsOnWithOwnWeights (lambda : ℝ) : Prop :=
  ∀ {n k m : ℕ} (layer : DenseLayer ℝ) (L : DenseParams ℝ n k), layer.Holds L →
    layer.lambda = lambda → 0 < n → 0 < m →
    ∀ (rand : ℕ → ℝ) (X : Fin n → Fin m → ℝ) (da : Fin k → Fin m → ℝ),
      ∃ (a : Mat ℝ) (forwarded : DenseLayer ℝ) (rand' : ℕ → ℝ) (dz : Fin k → Fin m → ℝ)
        (daPrev : Mat ℝ) (updated : DenseLayer ℝ),
        layer.forward rand (Grid.ofFn X) = .ok (a, forwarded, rand')
        ∧ forwarded.backwardDz (Grid.ofFn da) = .ok (Grid.ofFn dz)
        ∧ forwarded.backward (Grid.ofFn da) = .ok (daPrev, updated)
        ∧ daPrev = Grid.ofFn fun q j => ∑ i, L.w i q * dz i j

/-- **The `lambda` of layer `l` does not disturb the other layers**: of two
networks that differ in it alone, with `r` layers after it, the same passes
leave every other layer with the same weights and biases. -/
def NeuralNetwork.Undisturbed (l r : ℕ) (lambda lambda' : ℝ) : Prop :=
  ∀ {n p m : ℕ} (nn : NeuralNetwork ℝ) (before after : List (DenseLayer ℝ))
    (layer : DenseLayer ℝ), nn.layers = before ++ { layer with lambda } :: after →
    before.length = l → after.length = r → Chained n nn.layers p → 0 < n → 0 < m →
    ∀ (rand : ℕ → ℝ) (X : Fin n → Fin m → ℝ) (da : Fin p → Fin m → ℝ),
      ∃ predictions nn₁ rand₁ da₁ nn₂ predictions' nn₁' rand₁' da₁' nn₂',
        nn.forwardPropagation rand (Grid.ofFn X) = .ok (predictions, nn₁, rand₁)
        ∧ nn₁.backwardPropagation (Grid.ofFn da) = .ok (da₁, nn₂)
        ∧ { nn with layers := before ++ { layer with lambda := lambda' } :: after
          }.forwardPropagation rand (Grid.ofFn X) = .ok (predictions', nn₁', rand₁')
        ∧ nn₁'.backwardPropagation (Grid.ofFn da) = .ok (da₁', nn₂')
        ∧ ∀ i ≠ l, nn₂.layers[i]?.map (fun layer => (layer.w, layer.b))
          = nn₂'.layers[i]?.map (fun layer => (layer.w, layer.b))

/-! ### Decaying units in a row -/

/-- Decaying units in a row, at the addresses from `addr` on. -/
noncomputable def decayingUnits (addr : ℕ) : List ℝ → List (DenseLayer ℝ)
  | [] => []
  | lambda :: lambdas => decayingUnit addr 1 lambda :: decayingUnits (addr + 1) lambdas

theorem length_decayingUnits (addr : ℕ) (lambdas : List ℝ) :
    (decayingUnits addr lambdas).length = lambdas.length := by
  induction lambdas generalizing addr with
  | nil => rfl
  | cons lambda lambdas ih => exact congrArg (· + 1) (ih (addr + 1))

theorem decayingUnits_append (addr : ℕ) (lambdas lambdas' : List ℝ) :
    decayingUnits addr (lambdas ++ lambdas')
      = decayingUnits addr lambdas ++ decayingUnits (addr + lambdas.length) lambdas' := by
  induction lambdas generalizing addr with
  | nil => rfl
  | cons lambda lambdas ih =>
    rw [List.cons_append, decayingUnits, decayingUnits, ih, List.length_cons, List.cons_append,
      Nat.add_assoc, Nat.add_comm 1]

/-- Their parameters. -/
noncomputable def decayingChain : List ℝ → Network ℝ 1 1
  | [] => .nil
  | lambda :: lambdas => .cons (decayingUnitParams 1 lambda) (decayingChain lambdas)

theorem decayingChain_heldBy (addr : ℕ) (lambdas : List ℝ) :
    (decayingChain lambdas).HeldBy (decayingUnits addr lambdas) := by
  induction lambdas generalizing addr with
  | nil => rfl
  | cons lambda lambdas ih =>
    exact ⟨_, _, rfl, decayingUnit_holds addr 1 lambda, ih (addr + 1)⟩

section

variable (lambda : ℝ) (rand : ℕ → ℝ)

/-- A single entry. -/
def oneEntry (x : ℝ) : Fin 1 → Fin 1 → ℝ := fun _ _ => x

theorem decayingUnitParams_preact :
    (decayingUnitParams 1 lambda).preact (oneEntry 1) = oneEntry 1 := by
  funext i j
  show MathUtils.dot (fun _ : Fin 1 => (1 : ℝ)) (fun _ => 1) + 0 = 1
  rw [MathUtils.dot_real]
  simp [dotProduct]

/-- A decaying unit passes a `1` on. -/
theorem decayingUnitParams_forward :
    (decayingUnitParams 1 lambda).forward rand (oneEntry 1) = oneEntry 1 := by
  rw [DenseParams.forward_eq_act (decayingUnitParams_drops 1 lambda), DenseParams.act,
    ActivationFunction.onGrid_of_ne_softmax (decayingUnitParams_ne_softmax 1 lambda),
    decayingUnitParams_preact]
  funext i j
  exact ActivationFunction.relu_of_nonneg zero_le_one

theorem decayingUnitParams_dz (x : ℝ) :
    (decayingUnitParams 1 lambda).dz rand (oneEntry 1) (oneEntry x) = oneEntry x := by
  unfold DenseParams.dz
  rw [if_neg (decayingUnitParams_ne_softmax 1 lambda), decayingUnitParams_forward,
    DenseParams.masked_eq (decayingUnitParams_drops 1 lambda)]
  funext i j
  show ActivationFunction.relu.slope (1 : ℝ) * x = x
  rw [ActivationFunction.slope_relu_of_pos one_pos, one_mul]

theorem decayingUnitParams_daPrev (x : ℝ) :
    (decayingUnitParams 1 lambda).daPrev rand (oneEntry 1) (oneEntry x)
      = oneEntry ((1 - lambda) * x) := by
  funext q j
  rw [DenseParams.daPrev_real, decayingUnitParams_dz]
  show (1 - lambda / (1 : ℕ)) * ∑ _ : Fin 1, 1 * x = (1 - lambda) * x
  rw [Nat.cast_one, div_one, Finset.sum_const, Finset.card_fin, one_smul, one_mul]

theorem decayingUnitParams_update (x : ℝ) :
    ((decayingUnitParams 1 lambda).update rand (oneEntry 1) (oneEntry x)).w
      = oneEntry (1 - lambda - x) := by
  funext i q
  rw [DenseParams.update_w_decayed, decayingUnitParams_dz]
  show (1 - lambda / (1 : ℕ)) * 1 - (∑ _ : Fin 1, x * 1) / (1 : ℕ) * 1 = 1 - lambda - x
  rw [Nat.cast_one, Finset.sum_const, Finset.card_fin, one_smul]
  ring

/-- **What comes back through a row of units** is scaled by all their
decays. -/
theorem decayingChain_daPrev (lambdas : List ℝ) :
    (decayingChain lambdas).daPrev rand (oneEntry 1) (oneEntry 1)
      = oneEntry (lambdas.map (1 - ·)).prod := by
  induction lambdas generalizing rand with
  | nil => rfl
  | cons lambda lambdas ih =>
    rw [decayingChain, Network.daPrev, decayingUnitParams_forward, ih,
      decayingUnitParams_daPrev, List.map_cons, List.prod_cons]

/-- **The weight of a unit after the step** shows the decays of those after
it. -/
theorem decayingChain_update (before after : List ℝ) {layers : List (DenseLayer ℝ)}
    (h : ((decayingChain (before ++ lambda :: after)).update rand (oneEntry 1) (oneEntry 1)).HeldBy
      layers) :
    layers[before.length]?.map (·.w) = some [[1 - lambda - (after.map (1 - ·)).prod]] := by
  induction before generalizing layers rand with
  | nil =>
    obtain ⟨layer, rest, rfl, hlayer, -⟩ := h
    rw [List.length_nil, List.getElem?_cons_zero, Option.map_some, hlayer.w,
      decayingUnitParams_forward, decayingChain_daPrev, decayingUnitParams_update]
    rfl
  | cons lambda' before ih =>
    obtain ⟨layer, rest, rfl, -, hrest⟩ := h
    rw [decayingUnitParams_forward] at hrest
    rw [List.length_cons, List.getElem?_cons_succ]
    exact ih _ hrest

end

/-- **When a layer hands on `wᵀ · dz`**: without decay only. -/
theorem DenseLayer.handsOnWithOwnWeights_iff (lambda : ℝ) :
    DenseLayer.HandsOnWithOwnWeights lambda ↔ lambda = 0 := by
  constructor
  · intro h
    obtain ⟨a, forwarded, rand', dz, daPrev, updated, hforward, hdz, hback, hown⟩ :=
      h (m := 1) _ _ (decayingUnit_holds 0 1 lambda) rfl one_pos one_pos (fun _ => 0) (oneEntry 1)
        (oneEntry 1)
    obtain ⟨forwarded', updated', hforward', -, hdz', hback', -⟩ :=
      step_holds (decayingUnit_holds 0 1 lambda) (fun _ => 0) (oneEntry 1) (oneEntry 1) one_pos
        one_pos
    obtain rfl : forwarded = forwarded' :=
      congrArg (fun r => r.2.1) (Except.ok.inj (hforward.symm.trans hforward'))
    rw [decayingUnitParams_dz] at hdz'
    have hone : dz = oneEntry 1 := Grid.ofFn_inj.mp (Except.ok.inj (hdz.symm.trans hdz'))
    have hprev := congrArg Prod.fst (Except.ok.inj (hback.symm.trans hback'))
    rw [hown, hone, decayingUnitParams_daPrev] at hprev
    -- a unit with weight `1` hands on `1 - lambda` times what it gets
    have hentry := congrFun (congrFun (Grid.ofFn_inj.mp hprev) 0) 0
    have : ∑ _ : Fin 1, (1 : ℝ) * 1 = (1 - lambda) * 1 := hentry
    rw [Finset.sum_const, Finset.card_fin, one_smul] at this
    linarith
  · rintro rfl n k m layer L hL hlambda hn hm rand X da
    obtain ⟨forwarded, updated, hforward, -, hdz, hback, -⟩ := step_holds hL rand X da hn hm
    refine ⟨_, forwarded, _, L.dz rand X da, _, updated, hforward, hdz, hback,
      Grid.ofFn_inj.mpr ?_⟩
    funext q j
    rw [DenseParams.daPrev_real, ← hL.lambda, hlambda, zero_div, sub_zero, one_mul]

namespace NeuralNetwork

/-- The first layer hands nothing on. -/
theorem undisturbed_zero (r : ℕ) (lambda lambda' : ℝ) : Undisturbed 0 r lambda lambda' := by
  intro n p m nn before after layer hlayers hbefore _ hchained hn hm rand X da
  obtain rfl := List.length_eq_zero_iff.mp hbefore
  obtain ⟨N, hN⟩ := Network.chained_iff.mp hchained
  rw [hlayers] at hN
  cases N with
  | nil => exact absurd hN (List.cons_ne_nil _ _)
  | cons L N =>
    obtain ⟨_, _, heq, hL, hrest⟩ := hN
    obtain ⟨rfl, rfl⟩ := List.cons_eq_cons.mp heq
    have hL' : { layer with lambda := lambda' }.Holds { L with lambda := lambda' } :=
      ⟨hL.1, hL.2, hL.3, hL.4, hL.5, rfl, hL.7, hL.8, hL.9⟩
    have hheld : (Network.cons L N).HeldBy nn.layers := hlayers ▸ ⟨_, _, rfl, hL, hrest⟩
    have hheld' : (Network.cons { L with lambda := lambda' } N).HeldBy
        { nn with layers := { layer with lambda := lambda' } :: after }.layers :=
      ⟨_, _, rfl, hL', hrest⟩
    obtain ⟨nn₁, nn₂, hforward, hbackward, hupdate⟩ := hheld.passes rand X da hn hm
    obtain ⟨nn₁', nn₂', hforward', hbackward', hupdate'⟩ := hheld'.passes rand X da hn hm
    refine ⟨_, nn₁, _, _, nn₂, _, nn₁', _, _, nn₂', hforward, hbackward, hforward', hbackward',
      fun i hi => ?_⟩
    obtain ⟨i, rfl⟩ := Nat.exists_eq_succ_of_ne_zero hi
    obtain ⟨first, others, heq, -, hothers⟩ := hupdate
    obtain ⟨first', others', heq', -, hothers'⟩ := hupdate'
    rw [heq, heq', List.getElem?_cons_succ, List.getElem?_cons_succ, ← List.getElem?_map,
      ← List.getElem?_map, hothers.parameters_eq hothers']

/-- Two runs that agree on the network agree on the other layers. -/
theorem undisturbed_self (l r : ℕ) (lambda : ℝ) : Undisturbed l r lambda lambda := by
  intro n p m nn before after layer hlayers _ _ hchained hn hm rand X da
  obtain ⟨N, hN⟩ := Network.chained_iff.mp hchained
  obtain ⟨nn₁, nn₂, hforward, hbackward, -⟩ := hN.passes rand X da hn hm
  rw [← hlayers]
  exact ⟨_, nn₁, _, _, nn₂, _, nn₁, _, _, nn₂, hforward, hbackward, hforward, hbackward,
    fun _ _ => rfl⟩

/-- Units in a row of which one decays. -/
noncomputable def oneDecays (l r : ℕ) (lambda : ℝ) : NeuralNetwork ℝ where
  lossFunction := .sigmoidCrossEntropy
  layers := decayingUnits 0 (List.replicate l 0)
    ++ { decayingUnit l 1 0 with lambda } :: decayingUnits (l + 1) (List.replicate r 0)
  means := []
  stdevs := []

theorem oneDecays_heldBy (l r : ℕ) (lambda : ℝ) :
    (decayingChain (List.replicate l 0 ++ lambda :: List.replicate r 0)).HeldBy
      (oneDecays l r lambda).layers := by
  have h := decayingChain_heldBy 0 (List.replicate l 0 ++ lambda :: List.replicate r 0)
  rw [decayingUnits_append, List.length_replicate, Nat.zero_add] at h
  exact h

/-- **The decay of a unit shows in the weight of the one before it.** -/
theorem oneDecays_update (l r : ℕ) (lambda : ℝ) (rand : ℕ → ℝ) :
    ∃ nn₁ nn₂,
      (oneDecays (l + 1) r lambda).forwardPropagation rand (Grid.ofFn (oneEntry 1))
        = .ok (Grid.ofFn ((decayingChain (List.replicate (l + 1) 0
          ++ lambda :: List.replicate r 0)).forward rand (oneEntry 1)), nn₁, (decayingChain
          (List.replicate (l + 1) 0 ++ lambda :: List.replicate r 0)).randAfter 1 rand)
      ∧ nn₁.backwardPropagation (Grid.ofFn (oneEntry 1)) = .ok (Grid.ofFn ((decayingChain
        (List.replicate (l + 1) 0 ++ lambda :: List.replicate r 0)).daPrev rand (oneEntry 1)
          (oneEntry 1)), nn₂)
      ∧ nn₂.layers[l]?.map (·.w) = some [[lambda]] := by
  obtain ⟨nn₁, nn₂, hforward, hbackward, hupdate⟩ :=
    (oneDecays_heldBy (l + 1) r lambda).passes rand (oneEntry 1) (oneEntry 1) one_pos one_pos
  refine ⟨nn₁, nn₂, hforward, hbackward, ?_⟩
  rw [List.replicate_succ', List.append_assoc, List.singleton_append] at hupdate
  have hweight := decayingChain_update 0 rand _ _ hupdate
  rw [List.length_replicate] at hweight
  rw [hweight, List.map_cons, List.map_replicate, List.prod_cons, List.prod_replicate, sub_zero,
    one_pow, mul_one, sub_sub_cancel]

/-- **When the `lambda` of a layer leaves the other layers alone**: for the
first layer, and for no layer after it. The layer itself hands on the
derivatives of the weights it was evaluated with if and only if its `lambda` is
`0`. -/
theorem undisturbed_iff (l r : ℕ) (lambda lambda' : ℝ) :
    (Undisturbed l r lambda lambda' ↔ l = 0 ∨ lambda = lambda')
    ∧ (DenseLayer.HandsOnWithOwnWeights lambda ↔ lambda = 0) := by
  refine ⟨⟨fun h => (Nat.eq_zero_or_pos l).imp_right fun hl => ?_, fun h => ?_⟩,
    DenseLayer.handsOnWithOwnWeights_iff lambda⟩
  · obtain ⟨l, rfl⟩ := Nat.exists_eq_succ_of_ne_zero hl.ne'
    obtain ⟨predictions, nn₁, rand₁, da₁, nn₂, predictions', nn₁', rand₁', da₁', nn₂', hforward,
      hbackward, hforward', hbackward', hsame⟩ :=
      h (oneDecays (l + 1) r lambda) _ _ _ rfl
        ((length_decayingUnits _ _).trans List.length_replicate)
        ((length_decayingUnits _ _).trans List.length_replicate)
        (Network.chained_iff.mpr ⟨_, oneDecays_heldBy (l + 1) r lambda⟩) one_pos one_pos
        (fun _ => 0) (oneEntry 1) (oneEntry 1)
    -- a chain of units whose layer after position `l` decays
    obtain ⟨run₁, run₂, hrun₁, hrun₂, hweight⟩ := oneDecays_update l r lambda fun _ => 0
    obtain ⟨run₁', run₂', hrun₁', hrun₂', hweight'⟩ := oneDecays_update l r lambda' fun _ => 0
    obtain rfl : nn₁ = run₁ :=
      congrArg (fun r => r.2.1) (Except.ok.inj (hforward.symm.trans hrun₁))
    obtain rfl : nn₂ = run₂ := congrArg Prod.snd (Except.ok.inj (hbackward.symm.trans hrun₂))
    obtain rfl : nn₁' = run₁' :=
      congrArg (fun r => r.2.1) (Except.ok.inj (hforward'.symm.trans hrun₁'))
    obtain rfl : nn₂' = run₂' :=
      congrArg Prod.snd (Except.ok.inj (hbackward'.symm.trans hrun₂'))
    have heq := congrArg (Option.map Prod.fst) (hsame l (Nat.lt_succ_self l).ne)
    rw [Option.map_map, Option.map_map] at heq
    have hweights : some [[lambda]] = some [[lambda']] := hweight.symm.trans (heq.trans hweight')
    simpa using hweights
  · rcases h with rfl | rfl
    · exact undisturbed_zero r lambda lambda'
    · exact undisturbed_self l r lambda

/-- **With `lambda` `1` in the second of two units** the first keeps its
weight `1`, which it loses where no unit decays. -/
theorem oneDecays_disturbs :
    ∃ predictions nn₁ rand₁ da₁ nn₂ predictions' nn₁' rand₁' da₁' nn₂',
      (oneDecays 1 0 0).forwardPropagation (fun _ => 0) [[1]] = .ok (predictions, nn₁, rand₁)
      ∧ nn₁.backwardPropagation [[1]] = .ok (da₁, nn₂)
      ∧ (oneDecays 1 0 1).forwardPropagation (fun _ => 0) [[1]]
        = .ok (predictions', nn₁', rand₁')
      ∧ nn₁'.backwardPropagation [[1]] = .ok (da₁', nn₂')
      ∧ nn₂.layers[0]?.map (·.w) = some [[0]] ∧ nn₂'.layers[0]?.map (·.w) = some [[1]] := by
  obtain ⟨nn₁, nn₂, hforward, hbackward, hweight⟩ := oneDecays_update 0 0 0 fun _ => 0
  obtain ⟨nn₁', nn₂', hforward', hbackward', hweight'⟩ := oneDecays_update 0 0 1 fun _ => 0
  exact ⟨_, nn₁, _, _, nn₂, _, nn₁', _, _, nn₂', hforward, hbackward, hforward', hbackward',
    hweight, hweight'⟩

end NeuralNetwork
