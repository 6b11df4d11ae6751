import NeuralBuilder.Gradient

/-!
# Backpropagation computes the gradient

For layers of any number whose sizes match, without softmax, dropout and
decay, and an input at which no rectifier sits on its kink: a forward pass
and a backward pass that starts from `da` move every weight and bias
against the partial derivative of `∑ da · forwardPropagation(X)` with
respect to it, and leave the partial derivatives with respect to the input
in `da`. All of them are taken at the parameters before the step, although
the layers are updated one after the other.

The objects are first replaced by the network they hold, and the two passes by
the two sweeps of `Gradient`; the partial derivatives are then those of the
library on chains of stages, in whose statement the layers are not updated at
all. What is left to show is that a layer hands on its `daPrev` before its own
weights are overwritten, so that the order of the updates does not matter.

The result is about the whole forward map and any `da`. The loss, and what
softmax and dropout change, come in the modules on the training step and on the
mask.
-/

open ReverseMode

/-- The sum of the products of the entries of two matrices. -/
def Mat.sumMul (A B : Mat ℝ) : ℝ :=
  (List.zipWith (fun u v => (List.zipWith (· * ·) u v).sum) A B).sum

/-- The matrix with `t` added to one entry. -/
def Mat.nudge (A : Mat ℝ) (i j : ℕ) (t : ℝ) : Mat ℝ :=
  A.mapIdx fun i' row => row.mapIdx fun j' x => if i' = i ∧ j' = j then x + t else x

namespace NeuralNetwork

/-- **The scalar that is differentiated**: the sum of the predictions
weighted by `da`. -/
noncomputable def weightedOutput (rand : ℕ → ℝ) (X da : Mat ℝ) (nn : NeuralNetwork ℝ) : ℝ :=
  match nn.forwardPropagation rand X with
  | .ok (predictions, _, _) => Mat.sumMul da predictions
  | .error _ => 0

/-- **No pre-activation of a rectifier is exactly `0`** in a forward pass on
`X`. -/
def OffKinks (nn : NeuralNetwork ℝ) (rand : ℕ → ℝ) (X : Mat ℝ) : Prop :=
  ∀ predictions nn' rand', nn.forwardPropagation rand X = .ok (predictions, nn', rand') →
    ∀ layer ∈ nn'.layers,
      layer.activationFunction = .relu ∨ layer.activationFunction = .leakyRelu →
      ∀ row ∈ layer.z, ∀ z ∈ row, z ≠ 0

end NeuralNetwork

section Lists

variable {r c n : ℕ}

theorem Mat.sumMul_ofFn (A B : Fin r → Fin c → ℝ) :
    Mat.sumMul (Grid.ofFn A) (Grid.ofFn B) = ∑ i, ∑ j, A i j * B i j := by
  rw [Mat.sumMul, Grid.ofFn, Grid.ofFn, Grid.zipWith_ofFn, List.sum_ofFn]
  refine Finset.sum_congr rfl fun i _ => ?_
  rw [Grid.zipWith_ofFn, List.sum_ofFn]

theorem Mat.nudge_ofFn (A : Fin r → Fin c → ℝ) (i : Fin r) (j : Fin c) (t : ℝ) :
    Mat.nudge (Grid.ofFn A) i j t
      = Grid.ofFn (A + t • (Pi.single i (Pi.single j 1) : Fin r → Fin c → ℝ)) := by
  rw [Mat.nudge, Grid.ofFn, Grid.mapIdx_ofFn]
  simp only [Grid.mapIdx_ofFn]
  refine congrArg Grid.ofFn (funext fun i' => funext fun j' => ?_)
  by_cases hi : i' = i
  · subst hi
    by_cases hj : j' = j
    · subst hj
      simp
    · have hj' : (j' : ℕ) ≠ j := fun h => hj (Fin.ext h)
      simp [hj, hj']
  · have hi' : (i' : ℕ) ≠ i := fun h => hi (Fin.ext h)
    simp [hi, hi']

end Lists

namespace Network

variable {n p m : ℕ}

/-- What `weightedOutput` is for a network that the objects hold. -/
theorem weightedOutput_eq {N : Network ℝ n p} (hplain : N.Plain) {nn : NeuralNetwork ℝ}
    (hN : N.HeldBy nn.layers) (rand : ℕ → ℝ) (X : Fin n → Fin m → ℝ) (da : Fin p → Fin m → ℝ)
    (hn : 0 < n) :
    nn.weightedOutput rand (Grid.ofFn X) (Grid.ofFn da)
      = ∑ i, ∑ j, da i j * N.chain.eval X i j := by
  obtain ⟨layers, hrun, -⟩ := forwardPropagation_heldBy hN rand X hn
  rw [NeuralNetwork.weightedOutput, hrun]
  show Mat.sumMul (Grid.ofFn da) (Grid.ofFn (N.forward rand X)) = _
  rw [Mat.sumMul_ofFn, forward_eq_eval hplain]

/-- The parameters of a plain network stay plain when they move. -/
theorem Plain.shift {N : Network ℝ n p} (h : N.Plain) (δ : Direction) (t : ℝ) :
    (N.shift δ t).Plain := by
  induction N generalizing δ with
  | nil => trivial
  | cons L N ih => exact ⟨h.1, h.2.1, ih h.2.2 _⟩

/-- Off the kinks every stage is smooth. -/
theorem smooth_of_cachedBy {N : Network ℝ n p} (hplain : N.Plain) {layers : List (DenseLayer ℝ)}
    (hN : N.HeldBy layers) {rand : ℕ → ℝ} {X : Fin n → Fin m → ℝ}
    (hc : N.CachedBy layers rand X)
    (h : ∀ layer ∈ layers,
      layer.activationFunction = .relu ∨ layer.activationFunction = .leakyRelu →
      ∀ row ∈ layer.z, ∀ z ∈ row, z ≠ 0) : N.chain.Smooth X := by
  induction N generalizing layers rand with
  | nil => trivial
  | cons L N ih =>
    obtain ⟨layer, rest, rfl, hL, hrest⟩ := hN
    obtain ⟨_, _, heq, hcL, hcN⟩ := hc
    obtain ⟨rfl, rfl⟩ := List.cons_eq_cons.mp heq
    refine ⟨fun i j => ?_, ?_⟩
    · refine ActivationFunction.nonlinearity_smoothAt fun hkink => ?_
      have hrow : List.ofFn (L.preact X i) ∈ layer.z := by
        rw [hcL.z]
        exact List.mem_ofFn.mpr ⟨i, rfl⟩
      refine h layer List.mem_cons_self (by rw [hL.activationFunction]; exact hkink.1) _ hrow
        (L.preact X i j) (List.mem_ofFn.mpr ⟨j, rfl⟩) ?_
      rw [← DenseParams.stage_preact]
      exact hkink.2
    · rw [← DenseParams.forward_eq_eval hplain.1 hplain.2.1 rand]
      exact ih hplain.2.2 hrest hcN fun l hl => h l (List.mem_cons_of_mem _ hl)

/-- A plain network without decay is trainable. -/
theorem Plain.trainable {N : Network ℝ n p} (h : N.Plain) {layers : List (DenseLayer ℝ)}
    (hN : N.HeldBy layers) (hlambda : ∀ layer ∈ layers, layer.lambda = 0) : N.Trainable := by
  induction N generalizing layers with
  | nil => trivial
  | cons L N ih =>
    obtain ⟨layer, rest, rfl, hL, hrest⟩ := hN
    refine ⟨h.1, ?_, fun hact => absurd hact h.2.1,
      ih h.2.2 hrest fun l hl => hlambda l (List.mem_cons_of_mem _ hl)⟩
    rw [← hL.lambda]
    exact hlambda layer List.mem_cons_self

end Network

namespace NeuralNetwork

variable {n p m : ℕ}

/-- **An object steps down what its chain is differentiated for**, where
`G` is the derivative of the objective and `c` makes up for the division by
the number of samples. -/
theorem stepsDown_of_trainable {N : Network ℝ n p} (h : N.Trainable)
    {before after : NeuralNetwork ℝ} (hbefore : N.HeldBy before.layers) {rand : ℕ → ℝ}
    {X : Fin n → Fin m → ℝ} {da : Fin p → Fin m → ℝ}
    (hafter : (N.update rand X da).HeldBy after.layers) {objective : NeuralNetwork ℝ → ℝ} {c : ℝ}
    {G : Direction → ℝ}
    (hG : ∀ δ, HasDerivAt (fun t => objective (before.shift δ t)) (G δ) 0)
    (hc : ∀ δ, c * G δ = 1 / (m : ℝ) * N.chain.pair X da δ) :
    StepsDown objective c before after := by
  have hlen : after.layers.length = before.layers.length := by
    have h₁ := congrArg List.length hbefore.outputSizes
    have h₂ := congrArg List.length hafter.outputSizes
    rw [Network.sizes_update] at h₂
    simp only [List.length_map] at h₁ h₂
    omega
  have hmove : ∀ x lr δ, x - 1 / (m : ℝ) * lr * N.chain.pair X da δ = x - c * lr * G δ :=
    fun x lr δ => by
      have := hc δ
      linear_combination lr * this
  refine ⟨hlen, fun l layer layer' hl hl' => ?_⟩
  obtain ⟨hrect, hb, hw, hbias⟩ := h.update_eq hbefore hafter hl hl'
  refine ⟨hrect, hb, fun i hi q hq => ⟨G (weightAt l i q), hG _, ?_⟩,
    fun i hi => ⟨G (biasAt l i), hG _, ?_⟩⟩
  · rw [hw i hi q hq, hmove]
  · rw [hbias i hi, hmove]

/-- **Backpropagation computes the gradient.** A forward pass on `X` and a
backward pass from `da` go through. They leave a network that has stepped, with
every weight and bias, against the partial derivative of `∑ da ·
forwardPropagation(X)` divided by the number of samples, and hand back the
partial derivatives with respect to the input. All derivatives are those at the
parameters before the step. -/
theorem backwardPropagation_gradient {nn : NeuralNetwork ℝ} (hchain : Chained n nn.layers p)
    (hn : 0 < n) (hm : 0 < m)
    (hlayers : ∀ layer ∈ nn.layers, layer.activationFunction ≠ .softmax ∧ layer.keepProb = 1
      ∧ layer.lambda = 0)
    (rand : ℕ → ℝ) {X da : Mat ℝ} (hX : Grid.IsRect n m X) (hda : Grid.IsRect p m da)
    (hkinks : nn.OffKinks rand X) :
    ∃ predictions nn₁ rand₁ da' nn₂,
      nn.forwardPropagation rand X = .ok (predictions, nn₁, rand₁)
      ∧ nn₁.backwardPropagation da = .ok (da', nn₂)
      ∧ StepsDown (weightedOutput rand X da) (1 / m) nn nn₂
      ∧ Grid.IsRect n m da'
      ∧ ∀ q < n, ∀ j < m,
        HasDerivAt (fun t => nn.weightedOutput rand (X.nudge q j t) da) (da'.entry q j) 0 := by
  obtain ⟨N, hN⟩ := Network.chained_iff.mp hchain
  obtain ⟨X, rfl⟩ := Grid.exists_ofFn hX
  obtain ⟨da, rfl⟩ := Grid.exists_ofFn hda
  have hplain : N.Plain := Network.plain_of_heldBy hN
    (fun layer hl => by rw [(hlayers layer hl).2.1]; simp) fun layer hl => (hlayers layer hl).1
  have htrain : N.Trainable := hplain.trainable hN fun layer hl => (hlayers layer hl).2.2
  obtain ⟨layers₁, hforward, hheld₁, hcached⟩ := Network.forwardPropagation_heldBy hN rand X hn
  obtain ⟨layers₂, hbackward, hheld₂⟩ :=
    Network.backwardPropagation_heldBy nn hheld₁ hcached da hn hm
  have hsmooth : N.chain.Smooth X :=
    Network.smooth_of_cachedBy hplain hheld₁ hcached (hkinks _ _ _ hforward)
  have hgrad := Chain.hasGradient_sum da (N.chain.eval X)
  refine ⟨Grid.ofFn (N.forward rand X), { nn with layers := layers₁ }, N.randAfter m rand,
    Grid.ofFn (N.daPrev rand X da), { nn with layers := layers₂ }, hforward, hbackward, ?_,
    Grid.isRect_ofFn _, fun q hq j hj => ?_⟩
  · refine stepsDown_of_trainable htrain hN hheld₂ (fun δ => ?_) fun δ => rfl
    -- the derivative along a direction in the parameters, the input standing still
    have hder := Chain.hasDerivAt_objective hgrad hsmooth δ 0
    simp only [smul_zero, add_zero, Pi.zero_apply, mul_zero, Finset.sum_const_zero] at hder
    refine hder.congr_of_eventuallyEq (Filter.Eventually.of_forall fun t => ?_)
    show weightedOutput rand (Grid.ofFn X) (Grid.ofFn da) (nn.shift δ t) = _
    rw [Network.weightedOutput_eq (hplain.shift δ t) (hN.shift δ t) rand X da hn,
      Network.chain_shift]
  · lift q to Fin n using hq
    lift j to Fin m using hj
    have hder := Chain.hasDerivAt_objective hgrad hsmooth 0
      (Pi.single q (Pi.single j 1) : Fin n → Fin m → ℝ)
    have hsum : ∑ q', ∑ j', N.chain.cotangent X da q' j'
        * (Pi.single q (Pi.single j 1) : Fin n → Fin m → ℝ) q' j'
        = N.chain.cotangent X da q j := by
      rw [Finset.sum_eq_single q, Finset.sum_eq_single j]
      · simp
      · intro j' _ hj
        simp [hj]
      · simp
      · intro q' _ hq
        simp [hq]
      · simp
    rw [Chain.pair_zero, zero_add, hsum] at hder
    simp only [Chain.zero_shift] at hder
    rw [Mat.entry_ofFn, Network.daPrev_eq_cotangent htrain]
    refine hder.congr_of_eventuallyEq (Filter.Eventually.of_forall fun t => ?_)
    show nn.weightedOutput rand (Mat.nudge (Grid.ofFn X) q j t) (Grid.ofFn da) = _
    rw [Mat.nudge_ofFn, Network.weightedOutput_eq hplain hN rand _ da hn]

/-- A relu unit, and a sigmoid unit after it. -/
noncomputable def reluNetwork : NeuralNetwork ℝ :=
  ⟨.sigmoidCrossEntropy, [.unit 0 1 0 1 .relu "relu", .unit 1 1 0 1 .sigmoid "sigmoid"], [], []⟩

theorem reluNetwork_heldBy : (Network.cons (DenseParams.unit (1 : ℝ) 0 1 .relu)
    (.cons (DenseParams.unit 1 0 1 .sigmoid) .nil)).HeldBy reluNetwork.layers :=
  ⟨_, _, rfl, DenseLayer.unit_holds 0 1 0 1 _ _ rfl, _, _, rfl,
    DenseLayer.unit_holds 1 1 0 1 _ _ rfl, rfl⟩

theorem reluNetwork_chained : Chained 1 reluNetwork.layers 1 :=
  Network.chained_iff.mpr ⟨_, reluNetwork_heldBy⟩

theorem reluNetwork_layers : ∀ layer ∈ reluNetwork.layers,
    layer.activationFunction ≠ .softmax ∧ layer.keepProb = 1 ∧ layer.lambda = 0 := by
  intro layer hlayer
  rcases List.mem_cons.mp hlayer with rfl | hlayer
  · exact ⟨ActivationFunction.noConfusion, rfl, rfl⟩
  · obtain rfl := List.mem_singleton.mp hlayer
    exact ⟨ActivationFunction.noConfusion, rfl, rfl⟩

/-- The pre-activations of the relu unit are `1` and `2`. -/
theorem reluNetwork_offKinks : reluNetwork.OffKinks (fun _ => 0) [[1, 2]] := by
  intro predictions nn' rand' hrun layer hlayer hrelu row hrow z hz
  obtain ⟨layers, hforward, hheld, hcached⟩ := Network.forwardPropagation_heldBy
    reluNetwork_heldBy (fun _ => 0) (fun (_ : Fin 1) (j : Fin 2) => if j = 0 then 1 else 2) one_pos
  have hlayers : layers = nn'.layers :=
    congrArg (fun r => r.2.1.layers) (Except.ok.inj (hforward.symm.trans hrun))
  obtain ⟨layer₁, rest, rfl, hlayer₁, layer₂, rest', rfl, hlayer₂, rfl⟩ := hheld
  obtain ⟨_, _, heq, hcache, -⟩ := hcached
  obtain ⟨rfl, -⟩ := List.cons_eq_cons.mp heq
  rw [← hlayers] at hlayer
  rcases List.mem_cons.mp hlayer with rfl | hlayer
  · rw [hcache.z] at hrow
    obtain ⟨i, rfl⟩ := List.mem_ofFn.mp hrow
    obtain ⟨j, rfl⟩ := List.mem_ofFn.mp hz
    rw [DenseParams.preact, MathUtils.dot_real]
    simp only [DenseParams.unit, dotProduct, Fin.sum_univ_one, one_mul, add_zero]
    split <;> norm_num
  · obtain rfl := List.mem_singleton.mp hlayer
    rw [hlayer₂.activationFunction] at hrelu
    rcases hrelu with h | h <;> cases h

/-- Two layers and two samples. -/
theorem reluNetwork_gradient :
    ∃ predictions nn₁ rand₁ da' nn₂,
      reluNetwork.forwardPropagation (fun _ => 0) [[1, 2]] = .ok (predictions, nn₁, rand₁)
      ∧ nn₁.backwardPropagation [[1, 3]] = .ok (da', nn₂)
      ∧ StepsDown (weightedOutput (fun _ => 0) [[1, 2]] [[1, 3]]) (1 / (2 : ℕ)) reluNetwork nn₂
      ∧ Grid.IsRect 1 2 da'
      ∧ ∀ q < 1, ∀ j < 2, HasDerivAt
        (fun t => reluNetwork.weightedOutput (fun _ => 0) (Mat.nudge [[1, 2]] q j t) [[1, 3]])
        (da'.entry q j) 0 :=
  backwardPropagation_gradient (n := 1) (p := 1) (m := 2) reluNetwork_chained one_pos two_pos
    reluNetwork_layers _ ⟨rfl, by simp⟩ ⟨rfl, by simp⟩ reluNetwork_offKinks

end NeuralNetwork
