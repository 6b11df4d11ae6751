import NeuralBuilder.Backpropagation
import NeuralBuilder.Draws
import NeuralBuilder.RealLoss

/-!
# A training step follows the gradient of its cost

One turn of the loop of `train` is a forward pass, the derivative of the
loss, and a backward pass. `backward` leaves out the derivative of softmax
and the categorical loss leaves out the division by it, so that the two fit
each other: a softmax layer must be the last layer and be paired with
categorical cross entropy, and categorical cross entropy with a softmax
layer. For the networks so paired the step moves every weight and bias
against the partial derivative of the reported cost, wherever that cost is
finite and differentiable.

Nothing keeps a network from being built with another pairing, and for each
of the other pairings there is one whose step does not follow its cost
(`gradient_mismatch`).
-/

open ReverseMode

namespace NeuralNetwork

/-- **The reported cost** of a batch, with the guard of the logarithm read
as `0`. -/
noncomputable def cost (rand : ℕ → ℝ) (X T : Mat ℝ) (nn : NeuralNetwork ℝ) : ℝ :=
  match nn.forwardPropagation rand X with
  | .ok (predictions, _, _) =>
    match nn.lossFunction.calculateLossWith 0 predictions T with
    | .ok cost => cost
    | .error _ => 0
  | .error _ => 0

/-- The cost is finite: the logarithms of sigmoid cross entropy are taken
of positive numbers. Those of categorical cross entropy after softmax
always are. -/
def CostFinite (nn : NeuralNetwork ℝ) (rand : ℕ → ℝ) (X : Mat ℝ) : Prop :=
  nn.lossFunction = .sigmoidCrossEntropy →
    ∀ predictions nn' rand', nn.forwardPropagation rand X = .ok (predictions, nn', rand') →
      ∀ row ∈ predictions, ∀ x ∈ row, 0 < x ∧ x < 1

/-- The cost is differentiable in the weights and biases: its derivative
along every direction exists, and is linear in the direction. -/
def CostDifferentiable (nn : NeuralNetwork ℝ) (rand : ℕ → ℝ) (X T : Mat ℝ) : Prop :=
  ∃ D : Direction →ₗ[ℝ] ℝ, ∀ δ, HasDerivAt (fun t => cost rand X T (nn.shift δ t)) (D δ) 0

/-- **A step of the loop of `train` goes through and follows the cost**:
every weight and bias moves by the learning rate of its layer times the
partial derivative of the cost with respect to it. -/
def StepFollowsCost (nn : NeuralNetwork ℝ) (rand : ℕ → ℝ) (X T : Mat ℝ) : Prop :=
  ∃ predictions nn₁ rand₁ da da' nn₂,
    nn.forwardPropagation rand X = .ok (predictions, nn₁, rand₁)
    ∧ nn₁.lossFunction.derivativeWith 0 predictions T = .ok da
    ∧ nn₁.backwardPropagation da = .ok (da', nn₂)
    ∧ StepsDown (cost rand X T) 1 nn nn₂

/-- **The loss and the layers fit each other**: no layer before the last is
a softmax layer, and the last one is if and only if the loss is categorical
cross entropy. -/
structure Paired (nn : NeuralNetwork ℝ) : Prop where
  /-- The derivative of softmax is left out on the way back. -/
  hidden : ∀ layer ∈ nn.layers.dropLast, layer.activationFunction ≠ .softmax
  /-- The loss leaves it out too, at the last layer. -/
  output : nn.lossFunction = .categoricalCrossEntropy
    ↔ ∃ layer ∈ nn.layers.getLast?, layer.activationFunction = .softmax

end NeuralNetwork

namespace Network

variable {n p m t : ℕ}

/-- A trainable network with a softmax layer applies softmax to what its
chain computes. -/
theorem forward_eq_column {N : Network ℝ n p} (h : N.Trainable) (hsoft : N.HasSoftmax)
    (rand : ℕ → ℝ) (X : Fin n → Fin m → ℝ) (hp : 0 < p) :
    N.forward rand X = fun i j => Softmax.column (fun i => N.chain.eval X i j) hp i := by
  induction N generalizing rand with
  | nil => exact absurd hsoft id
  | cons L N ih =>
    by_cases hact : L.activation = .softmax
    · cases N with
      | cons L' N' => exact absurd (h.2.2.1 hact) id
      | nil =>
        funext i j
        show L.forward rand X i j = Softmax.column (fun i => L.stage.eval X i j) hp i
        rw [DenseParams.forward, h.1, if_neg (by decide), DenseParams.act, hact]
        show Softmax.column (fun i => L.preact X i j) _ i = _
        refine congrArg (fun v => Softmax.column v hp i) (funext fun i => ?_)
        rw [← DenseParams.stage_preact]
        show _ = L.activation.activate _
        rw [hact]
        rfl
    · have hN : N.HasSoftmax := hsoft.resolve_left hact
      rw [forward, DenseParams.forward_eq_eval h.1 hact, ih h.2.2.2 hN _ _ hp]
      rfl

/-- The parameters of a network with a softmax layer move in it. -/
theorem HasSoftmax.shift {N : Network ℝ n p} (h : N.HasSoftmax) (δ : Direction) (s : ℝ) :
    (N.shift δ s).HasSoftmax := by
  induction N generalizing δ with
  | nil => exact absurd h id
  | cons L N ih => exact h.imp id fun hN => ih hN _

/-- **The cost of a paired network is a function of what its chain
computes**, and `derivative` returns its gradient, times the number of
samples. -/
theorem exists_total {N : Network ℝ n p} (htrain : N.Trainable) {lossFunction : LossFunction}
    (hpair : lossFunction = .categoricalCrossEntropy ∧ N.HasSoftmax
      ∨ lossFunction = .sigmoidCrossEntropy ∧ N.Plain)
    (rand : ℕ → ℝ) (X : Fin n → Fin m → ℝ) {T : Fin t → Fin m → ℝ}
    (hfit : lossFunction.Fits p T) (hn : 0 < n)
    (hfinite : lossFunction = .sigmoidCrossEntropy →
      ∀ i j, 0 < N.forward rand X i j ∧ N.forward rand X i j < 1) :
    ∃ (total : (Fin p → Fin m → ℝ) → ℝ) (da : Fin p → Fin m → ℝ),
      lossFunction.derivativeWith 0 (Grid.ofFn (N.forward rand X)) (Grid.ofFn T)
          = .ok (Grid.ofFn da)
      ∧ Chain.HasGradient total da (N.chain.eval X)
      ∧ ∀ δ s, lossFunction.calculateLossWith 0 (Grid.ofFn ((N.shift δ s).forward rand X))
          (Grid.ofFn T) = .ok (total ((N.chain.shift δ s).eval X) / (m : ℝ)) := by
  have hp : 0 < p := N.out_pos hn
  rcases hpair with ⟨rfl, hsoft⟩ | ⟨rfl, hplain⟩
  · -- the loss reads the softmax of the last layer as one function
    refine ⟨CategoricalCrossEntropy.total (CategoricalCrossEntropy.targetInd T hfit), _,
      CategoricalCrossEntropy.derivative_ofFn _ T hp hfit, ?_, fun δ s => ?_⟩
    · rw [forward_eq_column htrain hsoft rand X hp]
      exact CategoricalCrossEntropy.hasGradient_total _ _ hp
    · refine (CategoricalCrossEntropy.calculateLossWith_ofFn 0 _ T hp hfit).trans ?_
      rw [forward_eq_column (htrain.shift δ s) (hsoft.shift δ s) rand X hp, chain_shift,
        CategoricalCrossEntropy.foldl_eq_total]
  · -- the loss reads the activations entry by entry
    have ht : p ≤ t := hfit
    refine ⟨SigmoidCrossEntropy.total fun i j => T (i.castLE ht) j, _,
      SigmoidCrossEntropy.derivativeWith_ofFn 0 _ T hp ht, ?_, fun δ s => ?_⟩
    · have hP := hfinite rfl
      rw [forward_eq_eval hplain] at hP ⊢
      exact SigmoidCrossEntropy.hasGradient_total _ _ hP
    · refine (SigmoidCrossEntropy.calculateLoss_ofFn _ T hp ht).trans ?_
      rw [forward_eq_eval (hplain.shift δ s), chain_shift]
      exact congrArg (fun c => Except.ok (c / (m : ℝ)))
        (SigmoidCrossEntropy.foldl_eq_total (fun i j => T (i.castLE ht) j) _)

/-- What makes a network trainable, said of its objects. -/
theorem trainable_of_heldBy {N : Network ℝ n p} {layers : List (DenseLayer ℝ)}
    (hN : N.HeldBy layers)
    (hlayers : ∀ layer ∈ layers, layer.keepProb = 1 ∧ layer.lambda = 0)
    (hhidden : ∀ layer ∈ layers.dropLast, layer.activationFunction ≠ .softmax) :
    N.Trainable := by
  induction N generalizing layers with
  | nil => trivial
  | cons L N ih =>
    obtain ⟨layer, rest, rfl, hL, hrest⟩ := hN
    obtain ⟨hkeep, hlambda⟩ := hlayers layer List.mem_cons_self
    refine ⟨?_, by rw [← hL.lambda, hlambda], fun hact => ?_,
      ih hrest (fun l hl => hlayers l (List.mem_cons_of_mem _ hl)) fun l hl => hhidden l ?_⟩
    · rw [DenseParams.drops, ← hL.keepProb, hkeep]
      simp
    · cases N with
      | nil => trivial
      | cons L' N' =>
        obtain ⟨layer', rest', rfl, -, -⟩ := hrest
        refine absurd hact ?_
        rw [← hL.activationFunction]
        exact hhidden layer (by simp)
    · cases rest with
      | nil => simp at hl
      | cons layer' rest' => exact List.mem_cons_of_mem _ hl

theorem plain_of_not_hasSoftmax {N : Network ℝ n p} (h : N.Trainable) (hsoft : ¬ N.HasSoftmax) :
    N.Plain := by
  induction N with
  | nil => trivial
  | cons L N ih =>
    obtain ⟨hact, hN⟩ := not_or.mp hsoft
    exact ⟨h.1, hact, ih h.2.2.2 hN⟩

/-- Where no layer before the last is a softmax layer, the last one is if
any is. -/
theorem hasSoftmax_iff_getLast {N : Network ℝ n p} {layers : List (DenseLayer ℝ)}
    (hN : N.HeldBy layers)
    (hhidden : ∀ layer ∈ layers.dropLast, layer.activationFunction ≠ .softmax) :
    N.HasSoftmax ↔ ∃ layer ∈ layers.getLast?, layer.activationFunction = .softmax := by
  induction N generalizing layers with
  | nil =>
    obtain rfl : layers = [] := hN
    simp [HasSoftmax]
  | cons L N ih =>
    obtain ⟨layer, rest, rfl, hL, hrest⟩ := hN
    cases N with
    | nil =>
      obtain rfl : rest = [] := hrest
      simp [HasSoftmax, hL.activationFunction]
    | cons L' N' =>
      have hcons := hrest
      obtain ⟨layer', rest', rfl, -, -⟩ := hrest
      have hfirst : L.activation ≠ .softmax := by
        rw [← hL.activationFunction]
        exact hhidden layer (by simp)
      have hlast : (layer :: layer' :: rest').getLast? = (layer' :: rest').getLast? := by
        rw [List.getLast?_cons_cons]
      rw [hlast, ← ih hcons fun l hl => hhidden l (List.mem_cons_of_mem _ hl)]
      exact or_iff_right hfirst

end Network

namespace NeuralNetwork

variable {n p m t : ℕ}

/-- The cost of the objects after a move is the cost of the network they
hold. -/
theorem cost_shift_eq {N : Network ℝ n p} {nn : NeuralNetwork ℝ} (hN : N.HeldBy nn.layers)
    (rand : ℕ → ℝ) (X : Fin n → Fin m → ℝ) (hn : 0 < n) {T : Mat ℝ} {δ : Direction} {s c : ℝ}
    (hcost : nn.lossFunction.calculateLossWith 0 (Grid.ofFn ((N.shift δ s).forward rand X)) T
      = .ok c) :
    cost rand (Grid.ofFn X) T (nn.shift δ s) = c := by
  have hshift : (N.shift δ s).HeldBy (nn.shift δ s).layers := hN.shift δ s
  obtain ⟨layers, hrun, -⟩ := Network.forwardPropagation_heldBy hshift rand X hn
  have hloss : (nn.shift δ s).lossFunction = nn.lossFunction := rfl
  rw [cost, hrun]
  dsimp only
  rw [hloss, hcost]

/-- **A step of a paired network follows its cost**, for any number of
layers without dropout and decay, and any batch with targets the loss can
read at which the cost is finite and differentiable – also where a
rectifier sits on its kink. -/
theorem step_follows_cost {nn : NeuralNetwork ℝ} (hchain : Chained n nn.layers p) (hn : 0 < n)
    (hm : 0 < m) (hlayers : ∀ layer ∈ nn.layers, layer.keepProb = 1 ∧ layer.lambda = 0)
    (hpaired : nn.Paired) (rand : ℕ → ℝ) {X T : Mat ℝ} (hX : Grid.IsRect n m X)
    (hT : Grid.IsRect t m T) (hfit : nn.lossFunction.TargetsFit p T)
    (hfinite : nn.CostFinite rand X) (hdiff : nn.CostDifferentiable rand X T) :
    nn.StepFollowsCost rand X T := by
  obtain ⟨N, hN⟩ := Network.chained_iff.mp hchain
  obtain ⟨X, rfl⟩ := Grid.exists_ofFn hX
  obtain ⟨T, rfl⟩ := Grid.exists_ofFn hT
  have htrain : N.Trainable := Network.trainable_of_heldBy hN hlayers hpaired.hidden
  have hpair : nn.lossFunction = .categoricalCrossEntropy ∧ N.HasSoftmax
      ∨ nn.lossFunction = .sigmoidCrossEntropy ∧ N.Plain := by
    have hiff := Network.hasSoftmax_iff_getLast hN hpaired.hidden
    rw [← hpaired.output] at hiff
    by_cases hsoft : N.HasSoftmax
    · exact Or.inl ⟨hiff.mp hsoft, hsoft⟩
    · refine Or.inr ⟨?_, Network.plain_of_not_hasSoftmax htrain hsoft⟩
      cases hloss : nn.lossFunction with
      | sigmoidCrossEntropy => rfl
      | categoricalCrossEntropy => exact absurd (hiff.mpr hloss) hsoft
  obtain ⟨layers₁, hforward, hheld₁, hcached⟩ := Network.forwardPropagation_heldBy hN rand X hn
  have hbounds : nn.lossFunction = .sigmoidCrossEntropy →
      ∀ i j, 0 < N.forward rand X i j ∧ N.forward rand X i j < 1 := fun hloss i j =>
    hfinite hloss _ _ _ hforward _ (List.mem_ofFn.mpr ⟨i, rfl⟩) _ (List.mem_ofFn.mpr ⟨j, rfl⟩)
  obtain ⟨total, da, hda, hgrad, hcost⟩ :=
    Network.exists_total htrain hpair rand X hfit.fits hn hbounds
  obtain ⟨layers₂, hbackward, hheld₂⟩ :=
    Network.backwardPropagation_heldBy nn hheld₁ hcached da hn hm
  obtain ⟨D, hD⟩ := hdiff
  have hm' : (m : ℝ) ≠ 0 := by exact_mod_cast hm.ne'
  -- the reported cost is the total over the batch, divided by its size
  have hshift : ∀ δ s, cost rand (Grid.ofFn X) (Grid.ofFn T) (nn.shift δ s)
      = total ((N.chain.shift δ s).eval X) / (m : ℝ) := fun δ s =>
    cost_shift_eq hN rand X hn (hcost δ s)
  have htotal : ∀ δ, HasDerivAt (fun s => total ((N.chain.shift δ s).eval X))
      (((m : ℝ) • D) δ) 0 := fun δ => by
    refine ((hD δ).const_mul (m : ℝ)).congr_of_eventuallyEq
      (Filter.Eventually.of_forall fun s => ?_)
    show _ = (m : ℝ) * cost rand (Grid.ofFn X) (Grid.ofFn T) (nn.shift δ s)
    rw [hshift, mul_div_cancel₀ _ hm']
  have hpairing := Chain.eq_pair_of_differentiable hgrad htotal
  refine ⟨_, _, _, Grid.ofFn da, Grid.ofFn (N.daPrev rand X da), { nn with layers := layers₂ },
    hforward, hda, hbackward, stepsDown_of_trainable htrain hN hheld₂ hD fun δ => ?_⟩
  rw [← hpairing δ, LinearMap.smul_apply, smul_eq_mul, one_mul, one_div, inv_mul_cancel_left₀ hm']

/-- **Off the kinks the cost is differentiable**, so that a step of a network
with the sigmoid loss follows its cost wherever that is finite and no rectifier
sits on its kink. -/
theorem costDifferentiable_of_offKinks {nn : NeuralNetwork ℝ} (hchain : Chained n nn.layers p)
    (hn : 0 < n) (hlayers : ∀ layer ∈ nn.layers, layer.activationFunction ≠ .softmax
      ∧ layer.keepProb = 1 ∧ layer.lambda = 0)
    (hloss : nn.lossFunction = .sigmoidCrossEntropy) (rand : ℕ → ℝ) {X T : Mat ℝ}
    (hX : Grid.IsRect n m X) (hT : Grid.IsRect t m T) (hfit : nn.lossFunction.TargetsFit p T)
    (hfinite : nn.CostFinite rand X) (hkinks : nn.OffKinks rand X) :
    nn.CostDifferentiable rand X T := by
  obtain ⟨N, hN⟩ := Network.chained_iff.mp hchain
  obtain ⟨X, rfl⟩ := Grid.exists_ofFn hX
  obtain ⟨T, rfl⟩ := Grid.exists_ofFn hT
  have hplain : N.Plain := Network.plain_of_heldBy hN
    (fun layer hl => by rw [(hlayers layer hl).2.1]; simp) fun layer hl => (hlayers layer hl).1
  have htrain : N.Trainable := hplain.trainable hN fun layer hl => (hlayers layer hl).2.2
  obtain ⟨layers, hforward, hheld, hcached⟩ := Network.forwardPropagation_heldBy hN rand X hn
  obtain ⟨total, da, -, hgrad, hcost⟩ := Network.exists_total htrain (.inr ⟨hloss, hplain⟩) rand X
    hfit.fits hn fun _ i j => hfinite hloss _ _ _ hforward _ (List.mem_ofFn.mpr ⟨i, rfl⟩) _
      (List.mem_ofFn.mpr ⟨j, rfl⟩)
  have hsmooth : N.chain.Smooth X :=
    Network.smooth_of_cachedBy hplain hheld hcached (hkinks _ _ _ hforward)
  refine ⟨(m : ℝ)⁻¹ • N.chain.pairing X da, fun δ => ?_⟩
  have hder := Chain.hasDerivAt_objective hgrad hsmooth δ 0
  simp only [smul_zero, add_zero, Pi.zero_apply, mul_zero, Finset.sum_const_zero] at hder
  refine (hder.const_mul (m : ℝ)⁻¹).congr_of_eventuallyEq (Filter.Eventually.of_forall fun s => ?_)
  show cost rand (Grid.ofFn X) (Grid.ofFn T) (nn.shift δ s) = _
  rw [cost_shift_eq hN rand X hn (hcost δ s), div_eq_inv_mul]

/-! ## A paired network -/

variable {k : ℕ}

/-- How a direction moves the bias at a position. -/
def biasPart (l i : ℕ) : Direction →ₗ[ℝ] ℝ where
  toFun δ := (δ l).2 i
  map_add' _ _ := rfl
  map_smul' _ _ := rfl

/-- How a direction moves the weight at a position. -/
def weightPart (l i q : ℕ) : Direction →ₗ[ℝ] ℝ where
  toFun δ := (δ l).1 i q
  map_add' _ _ := rfl
  map_smul' _ _ := rfl

/-- The cost is finite where the predictions lie between `0` and `1`. -/
theorem costFinite_of_forward {N : Network ℝ n p} {nn : NeuralNetwork ℝ} (hN : N.HeldBy nn.layers)
    (rand : ℕ → ℝ) {X : Fin n → Fin m → ℝ} (hn : 0 < n)
    (h : nn.lossFunction = .sigmoidCrossEntropy →
      ∀ i j, 0 < N.forward rand X i j ∧ N.forward rand X i j < 1) :
    nn.CostFinite rand (Grid.ofFn X) := by
  intro hloss predictions nn' rand' hrun row hrow x hx
  obtain ⟨layers, hforward, -⟩ := Network.forwardPropagation_heldBy hN rand X hn
  rw [hforward] at hrun
  obtain rfl := (Prod.ext_iff.mp (Except.ok.inj hrun)).1
  obtain ⟨i, rfl⟩ := List.mem_ofFn.mp hrow
  obtain ⟨j, rfl⟩ := List.mem_ofFn.mp hx
  exact h hloss i j

/-- On the input `0` the pre-activations are the biases. -/
theorem preact_of_zero (L : DenseParams ℝ n k) :
    L.preact (fun _ (_ : Fin m) => 0) = fun i _ => L.b i := by
  funext i j
  rw [DenseParams.preact, MathUtils.dot_real]
  exact (congrArg (· + L.b i) (dotProduct_zero _)).trans (zero_add _)

/-- A sigmoid unit on the input `0`, with its parameters moved. -/
theorem sigmoidUnit_forward (δ : Direction) (s : ℝ) :
    ((Network.cons (DenseParams.unit 0 0 1 .sigmoid) .nil).shift δ s).forward (fun _ => 0)
      (fun _ (_ : Fin 1) => 0) = fun _ _ => Sigmoid.activate (0 + s * biasPart 0 0 δ) := by
  show ((DenseParams.unit 0 0 1 .sigmoid).shift (δ 0) s).forward (fun _ => 0) _ = _
  rw [DenseParams.forward_eq_eval (by simp) (by show ActivationFunction.sigmoid ≠ .softmax; decide)]
  funext i j
  rw [Stage.eval, DenseParams.stage_preact, preact_of_zero]
  obtain rfl := Subsingleton.elim i 0
  rfl

theorem sigmoidUnit_eval :
    (DenseParams.unit (0 : ℝ) 0 1 .sigmoid).stage.eval (fun _ (_ : Fin 1) => 0)
      = fun _ _ => 1 / 2 := by
  funext i j
  rw [Stage.eval, DenseParams.stage_preact, preact_of_zero]
  show 1 / (1 + Real.exp (-0)) = 1 / 2
  norm_num

theorem sigmoid_zero : Sigmoid.activate (0 : ℝ) = 1 / 2 := by
  show 1 / (1 + Real.exp (-0)) = 1 / 2
  norm_num

/-- The sigmoid loss of one prediction, where the class is `1`. -/
theorem calculateLoss_one (x : ℝ) :
    SigmoidCrossEntropy.calculateLoss (Grid.ofFn fun (_ : Fin 1) (_ : Fin 1) => x)
      (Grid.ofFn fun (_ : Fin 1) (_ : Fin 1) => 1) = .ok (-Real.log x) := by
  refine (SigmoidCrossEntropy.calculateLoss_ofFn _ _ one_pos le_rfl).trans ?_
  rw [SigmoidCrossEntropy.foldl_eq_total, SigmoidCrossEntropy.total, Fin.sum_univ_one,
    Fin.sum_univ_one]
  show Except.ok (-(1 * Real.log x + (1 - 1) * Real.log (1 - x)) / ((1 : ℕ) : ℝ)) = _
  rw [one_mul, sub_self, zero_mul, add_zero, Nat.cast_one, div_one]

/-- One sigmoid unit, with the sigmoid loss. -/
noncomputable def sigmoidNetwork : NeuralNetwork ℝ :=
  ⟨.sigmoidCrossEntropy, [.unit 0 0 0 1 .sigmoid "sigmoid"], [], []⟩

theorem sigmoidNetwork_heldBy :
    (Network.cons (DenseParams.unit (0 : ℝ) 0 1 .sigmoid) .nil).HeldBy sigmoidNetwork.layers :=
  ⟨_, _, rfl, DenseLayer.unit_holds 0 0 0 1 _ _ rfl, rfl⟩

/-- A step on two samples, through two layers. -/
theorem reluNetwork_follows_cost :
    reluNetwork.StepFollowsCost (fun _ => 0) [[1, 2]] [[0, 1]] := by
  have hrect : ∀ x y : ℝ, Grid.IsRect 1 2 [[x, y]] := fun x y => ⟨rfl, by simp⟩
  have hfit : reluNetwork.lossFunction.TargetsFit 1 ([[0, 1]] : Mat ℝ) := le_refl 1
  have hfinite : reluNetwork.CostFinite (fun _ => 0) [[1, 2]] := by
    refine costFinite_of_forward reluNetwork_heldBy _
      (X := fun (_ : Fin 1) (j : Fin 2) => if j = 0 then (1 : ℝ) else 2) one_pos fun _ i j => ?_
    obtain ⟨x, hx⟩ : ∃ x : ℝ, (Network.cons (DenseParams.unit (1 : ℝ) 0 1 .relu)
        (.cons (DenseParams.unit 1 0 1 .sigmoid) .nil)).forward (fun _ => 0)
        (fun (_ : Fin 1) (j : Fin 2) => if j = 0 then (1 : ℝ) else 2) i j
          = Sigmoid.activate x := by
      refine ⟨_, congrFun (congrFun (DenseParams.forward_eq_eval
        (L := DenseParams.unit (1 : ℝ) 0 1 .sigmoid) (by simp) (by decide) _ _) i) j⟩
    rw [hx]
    exact ⟨Sigmoid.activate_pos x, Sigmoid.activate_lt_one x⟩
  refine step_follows_cost reluNetwork_chained one_pos two_pos
    (fun layer hlayer => (reluNetwork_layers layer hlayer).2)
    ⟨fun layer hlayer => (reluNetwork_layers layer (List.mem_of_mem_dropLast hlayer)).1, ?_⟩ _
    (hrect 1 2) (hrect 0 1) hfit hfinite
    (costDifferentiable_of_offKinks reluNetwork_chained one_pos reluNetwork_layers rfl _
      (hrect 1 2) (hrect 0 1) hfit hfinite reluNetwork_offKinks)
  refine iff_of_false (by show LossFunction.sigmoidCrossEntropy ≠ _; decide) ?_
  rintro ⟨layer, hlayer, hact⟩
  exact (reluNetwork_layers layer (List.mem_of_mem_getLast? hlayer)).1 hact

/-! ## Pairings that do not fit -/

/-- A step that moves a bias of the first layer by something else than the
partial derivative does not follow the cost. -/
theorem not_stepFollowsCost {L : DenseParams ℝ n k} {N : Network ℝ k p} {nn : NeuralNetwork ℝ}
    (hN : (Network.cons L N).HeldBy nn.layers) (rand : ℕ → ℝ) (X : Fin n → Fin m → ℝ) (hn : 0 < n)
    (hm : 0 < m) {T : Mat ℝ} {da : Fin p → Fin m → ℝ}
    (hda : nn.lossFunction.derivativeWith 0 (Grid.ofFn ((Network.cons L N).forward rand X)) T
      = .ok (Grid.ofFn da)) (hdrops : L.drops = false) (hlr : L.learningRate ≠ 0) (i : Fin k)
    {g : ℝ} (hg : HasDerivAt (fun s => cost rand (Grid.ofFn X) T (nn.shift (biasAt 0 i) s)) g 0)
    (hne : 1 / (m : ℝ) * L.stage.gradB X (N.daPrev (L.randAfter m rand) (L.forward rand X) da) i
      ≠ g) :
    ¬ nn.StepFollowsCost rand (Grid.ofFn X) T := by
  rintro ⟨predictions, nn₁, rand₁, da₁, da₂, nn₂, hforward, hderivative, hbackward, hlen, hsteps⟩
  obtain ⟨layers₁, hrun, hheld₁, hcached⟩ := Network.forwardPropagation_heldBy hN rand X hn
  obtain ⟨layers₂, hrun₂, hheld₂⟩ :=
    Network.backwardPropagation_heldBy nn hheld₁ hcached da hn hm
  -- the three calls return what they do on the network the objects hold
  rw [hrun] at hforward
  obtain ⟨rfl, rfl, rfl⟩ : Grid.ofFn ((Network.cons L N).forward rand X) = predictions
      ∧ { nn with layers := layers₁ } = nn₁ ∧ _ = rand₁ := by
    have h := Except.ok.inj hforward
    exact ⟨(Prod.ext_iff.mp h).1, (Prod.ext_iff.mp (Prod.ext_iff.mp h).2).1,
      (Prod.ext_iff.mp (Prod.ext_iff.mp h).2).2⟩
  obtain rfl : Grid.ofFn da = da₁ := Except.ok.inj (hda.symm.trans hderivative)
  rw [hrun₂] at hbackward
  obtain rfl : { nn with layers := layers₂ } = nn₂ :=
    (Prod.ext_iff.mp (Except.ok.inj hbackward)).2
  obtain ⟨layer, rest, hlayers, hL, -⟩ := hN
  obtain ⟨layer₂, rest₂, rfl, hL₂, -⟩ := hheld₂
  obtain ⟨-, -, -, hbias⟩ := hsteps 0 layer layer₂ (by rw [hlayers]; rfl) rfl
  obtain ⟨g', hg', hmove⟩ := hbias i (by rw [hL.outputSize]; exact i.isLt)
  rw [hg'.unique hg, hL₂.b, hL.b, hL.learningRate, Vec.getD_ofFn, Vec.getD_ofFn, one_mul,
    DenseParams.update_b hdrops, mul_comm (1 / (m : ℝ)), mul_assoc] at hmove
  exact hne (mul_left_cancel₀ hlr (sub_right_injective hmove))

/-- **A network the arguments build trains against its cost**: for weights
the initialisers can draw there is a sample with a target its loss can read,
at which the cost is finite and differentiable, and the step of that sample
does not follow the cost. -/
def HasMismatch (args : HyperParameters ℝ) : Prop :=
  ∃ (noise : ℕ → Noise ℝ) (nn : NeuralNetwork ℝ) (p : ℕ) (X T : Mat ℝ),
    (∀ addr, (noise addr).Legal)
    ∧ (⟨.categoricalCrossEntropy, [], [], []⟩ : NeuralNetwork ℝ).setModelHyperParameters noise 0
      args = (nn, .ok ())
    ∧ (∀ layer ∈ nn.layers, layer.keepProb = 1 ∧ layer.lambda = 0)
    ∧ Chained args.inputSize.toNat nn.layers p
    ∧ Grid.IsRect args.inputSize.toNat 1 X ∧ Grid.IsRect p 1 T ∧ nn.lossFunction.TargetsFit p T
    ∧ nn.CostFinite (fun _ => 0) X ∧ nn.CostDifferentiable (fun _ => 0) X T
    ∧ ¬ nn.StepFollowsCost (fun _ => 0) X T

/-- A mismatch from the network the objects hold, on the sample `0`. -/
theorem hasMismatch_of {args : HyperParameters ℝ} (noise : ℕ → Noise ℝ)
    {nn : NeuralNetwork ℝ} (hlegal : ∀ addr, (noise addr).Legal) (hsize : args.inputSize = 1)
    (hset : (⟨.categoricalCrossEntropy, [], [], []⟩ : NeuralNetwork ℝ).setModelHyperParameters
      noise 0 args = (nn, .ok ()))
    (hlayers : ∀ layer ∈ nn.layers, layer.keepProb = 1 ∧ layer.lambda = 0)
    {L : DenseParams ℝ 1 k} {N : Network ℝ k p} (hN : (Network.cons L N).HeldBy nn.layers)
    {T : Fin p → Fin 1 → ℝ} (hfit : nn.lossFunction.TargetsFit p (Grid.ofFn T))
    (hfinite : nn.lossFunction = .sigmoidCrossEntropy → ∀ i j,
      0 < (Network.cons L N).forward (fun _ => 0) (fun _ (_ : Fin 1) => 0) i j
      ∧ (Network.cons L N).forward (fun _ => 0) (fun _ (_ : Fin 1) => 0) i j < 1)
    {D : Direction →ₗ[ℝ] ℝ}
    (hD : ∀ δ, HasDerivAt (fun s => cost (fun _ => 0) (Grid.ofFn fun (_ : Fin 1) (_ : Fin 1) => 0)
      (Grid.ofFn T) (nn.shift δ s)) (D δ) 0)
    {da : Fin p → Fin 1 → ℝ}
    (hda : nn.lossFunction.derivativeWith 0
      (Grid.ofFn ((Network.cons L N).forward (fun _ => 0) fun _ (_ : Fin 1) => 0)) (Grid.ofFn T)
      = .ok (Grid.ofFn da)) (hdrops : L.drops = false) (hlr : L.learningRate ≠ 0) (i : Fin k)
    (hne : L.stage.gradB (fun _ (_ : Fin 1) => 0) (N.daPrev (L.randAfter 1 fun _ => 0)
      (L.forward (fun _ => 0) fun _ _ => 0) da) i ≠ D (biasAt 0 i)) :
    HasMismatch args := by
  refine ⟨noise, nn, p, Grid.ofFn fun (_ : Fin 1) (_ : Fin 1) => 0, Grid.ofFn T, hlegal, hset,
    hlayers, ?_, ?_, Grid.isRect_ofFn _, hfit, ?_, ⟨D, hD⟩,
    not_stepFollowsCost hN _ _ one_pos one_pos hda hdrops hlr i (hD _) ?_⟩
  · rw [hsize]
    exact Network.chained_iff.mpr ⟨_, hN⟩
  · rw [hsize]
    exact Grid.isRect_ofFn _
  · exact costFinite_of_forward hN _ one_pos hfinite
  · rw [Nat.cast_one, div_one, one_mul]
    exact hne

/-- One sigmoid unit, with the categorical loss. -/
def sigmoidCategorical : HyperParameters ℝ where
  layerSizes := [1]
  layerActivations := ["sigmoid"]
  lossFunc := "categorical cross entropy"
  learningRates := [1]
  keyProbValues := []
  lambdaValues := []
  inputSize := 1

/-- Two softmax units, with the sigmoid loss. -/
def softmaxSigmoid : HyperParameters ℝ where
  layerSizes := [2]
  layerActivations := ["softmax"]
  lossFunc := "sigmoid cross entropy"
  learningRates := [1]
  keyProbValues := []
  lambdaValues := []
  inputSize := 1

/-- A softmax unit before a sigmoid unit, with the sigmoid loss. -/
def hiddenSoftmax : HyperParameters ℝ where
  layerSizes := [1, 1]
  layerActivations := ["softmax", "sigmoid"]
  lossFunc := "sigmoid cross entropy"
  learningRates := [1, 1]
  keyProbValues := []
  lambdaValues := []
  inputSize := 1

theorem toInt_zero : Double.toInt (0 : ℝ) = 0 := by
  have := Double.toInt_natCast 0
  rwa [Nat.cast_zero] at this

theorem sigmoidCategorical_hasMismatch : HasMismatch sigmoidCategorical := by
  let N : Network ℝ 1 1 := .cons (.unit 0 0 1 .sigmoid) .nil
  let nn : NeuralNetwork ℝ := ⟨.categoricalCrossEntropy, [.unit 0 0 0 1 .sigmoid "sigmoid"], [], []⟩
  have hset : (⟨.categoricalCrossEntropy, [], [], []⟩ : NeuralNetwork ℝ).setModelHyperParameters
      (fun _ => Noise.zero) 0 sigmoidCategorical = (nn, .ok ()) := by
    have hnew : newLayer (fun _ => Noise.zero) sigmoidCategorical 0 0 1 1
        = .ok (.unit 0 0 0 1 .sigmoid "sigmoid") :=
      newLayer_unit _ 0 0 (Noise.zero_allocates 1 1) (Initializer.draw_zero _ one_pos) rfl rfl rfl
        rfl rfl
    rw [setModelHyperParameters, show pushLayers (fun _ => Noise.zero) sigmoidCategorical 0
      sigmoidCategorical.layerSizes 0 sigmoidCategorical.inputSize
        = pushLayers (fun _ => Noise.zero) sigmoidCategorical 0 [1] 0 1 from rfl, pushLayers, hnew]
    rfl
  have hN : N.HeldBy nn.layers := ⟨_, _, rfl, DenseLayer.unit_holds 0 0 0 1 _ _ rfl, rfl⟩
  have htargets : nn.lossFunction.TargetsFit 1
      (Grid.ofFn fun (_ : Fin 1) (_ : Fin 1) => (0 : ℝ)) := by
    refine ⟨[0], [], rfl, fun label hlabel => ?_⟩
    obtain rfl := List.mem_singleton.mp hlabel
    rw [toInt_zero]
    decide
  have hfit := htargets.fits
  have hdrops : (DenseParams.unit (0 : ℝ) 0 1 .sigmoid).drops = false := by simp
  refine hasMismatch_of (fun _ => Noise.zero) (fun _ => Noise.zero_legal) rfl hset ?_ hN htargets ?_
    (D := (Sigmoid.activate (0 : ℝ) - 1) • biasPart 0 0) ?_
    (CategoricalCrossEntropy.derivative_ofFn _ _ one_pos hfit) hdrops one_ne_zero 0 ?_
  · intro layer hlayer
    obtain rfl := List.mem_singleton.mp hlayer
    exact ⟨rfl, rfl⟩
  · intro hloss
    cases hloss
  · intro δ
    have hcost : ∀ s, cost (fun _ => 0) (Grid.ofFn fun (_ : Fin 1) (_ : Fin 1) => 0)
        (Grid.ofFn fun (_ : Fin 1) (_ : Fin 1) => 0) (nn.shift δ s)
        = -Real.log (Sigmoid.activate (0 + s * biasPart 0 0 δ)) := fun s => by
      refine cost_shift_eq hN _ _ one_pos ?_
      refine (CategoricalCrossEntropy.calculateLossWith_ofFn 0 _ _ one_pos hfit).trans ?_
      rw [sigmoidUnit_forward, Checked.foldl_add_eq_sum]
      simp
    simp only [hcost]
    exact Sigmoid.hasDerivAt_neg_log 0 _
  · -- the step takes `P (1 - P) (P - 1)` for `P - 1`, at `P = 1 / 2`
    show ∑ j : Fin 1, (DenseParams.unit (0 : ℝ) 0 1 .sigmoid).stage.eval (fun _ _ => 0) 0 j
      * (1 - (DenseParams.unit (0 : ℝ) 0 1 .sigmoid).stage.eval (fun _ _ => 0) 0 j) * _ ≠ _
    have hP : N.forward (fun _ => 0) (fun _ (_ : Fin 1) => 0) = fun _ _ => 1 / 2 :=
      (DenseParams.forward_eq_eval hdrops (by decide) _ _).trans sigmoidUnit_eval
    rw [Fin.sum_univ_one, sigmoidUnit_eval]
    show 1 / 2 * (1 - 1 / 2) * (if (0 : Fin 1) = CategoricalCrossEntropy.targetInd _ hfit 0
      then N.forward (fun _ => 0) (fun _ _ => 0) 0 0 - 1 else _) ≠ (Sigmoid.activate 0 - 1) * _
    rw [if_pos (Subsingleton.elim _ _), hP, sigmoid_zero]
    norm_num [biasPart, biasAt]

/-- Two softmax units on the input `0`, with their biases at `b`. -/
theorem softmaxUnits_column (L : DenseParams ℝ 1 2) (hdrops : L.drops = false)
    (hact : L.activation = .softmax) :
    (Network.cons L .nil).forward (fun _ => 0) (fun _ (_ : Fin 1) => 0)
      = fun i _ => Real.exp (L.b i) / (Real.exp (L.b 0) + Real.exp (L.b 1)) := by
  funext i j
  show L.forward _ _ i j = _
  rw [DenseParams.forward, hdrops, if_neg (by decide), DenseParams.act, hact, preact_of_zero]
  refine (Softmax.column_real _ two_pos i).trans ?_
  rw [Fin.sum_univ_two]

/-- Minus the logarithm of the first of two softmax units, where both
biases move. -/
theorem hasDerivAt_neg_log_softmax (d₀ d₁ : ℝ) :
    HasDerivAt (fun s => -2 * Real.log (Real.exp (s * d₀)
      / (Real.exp (s * d₀) + Real.exp (s * d₁)))) (d₁ - d₀) 0 := by
  have hexp : ∀ d : ℝ, HasDerivAt (fun s => Real.exp (s * d)) d 0 := fun d => by
    simpa using ((hasDerivAt_id (0 : ℝ)).mul_const d).exp
  have hlog : HasDerivAt (fun s => Real.log (Real.exp (s * d₀) + Real.exp (s * d₁)))
      ((d₀ + d₁) / 2) 0 := by
    refine (((hexp d₀).fun_add (hexp d₁)).log (by positivity)).congr_deriv ?_
    simp only [zero_mul, Real.exp_zero]
    norm_num
  have hlin : HasDerivAt (fun s : ℝ => s * d₀) d₀ 0 := by
    simpa using (hasDerivAt_id (0 : ℝ)).mul_const d₀
  refine (((hlin.fun_sub hlog).const_mul (-2)).congr_deriv (by ring)).congr_of_eventuallyEq
    (Filter.Eventually.of_forall fun s => ?_)
  dsimp only
  rw [Real.log_div (by positivity) (by positivity), Real.log_exp]

/-- The sigmoid loss of two softmax units, where the class is the first. -/
theorem calculateLoss_softmaxUnits (b : Fin 2 → ℝ) :
    SigmoidCrossEntropy.calculateLoss
      (Grid.ofFn fun i (_ : Fin 1) => Real.exp (b i) / (Real.exp (b 0) + Real.exp (b 1)))
      (Grid.ofFn fun (i : Fin 2) (_ : Fin 1) => if i = 0 then 1 else 0)
      = .ok (-2 * Real.log (Real.exp (b 0) / (Real.exp (b 0) + Real.exp (b 1)))) := by
  refine (SigmoidCrossEntropy.calculateLoss_ofFn _ _ two_pos le_rfl).trans ?_
  rw [SigmoidCrossEntropy.foldl_eq_total, SigmoidCrossEntropy.total, Fin.sum_univ_two,
    Fin.sum_univ_one, Fin.sum_univ_one]
  set e₀ := Real.exp (b 0) with he₀
  set e₁ := Real.exp (b 1) with he₁
  -- the prediction for one class is one minus that for the other
  have hone : 1 - e₁ / (e₀ + e₁) = e₀ / (e₀ + e₁) := by
    have hpos : e₀ + e₁ ≠ 0 := by positivity
    field_simp
    ring
  show Except.ok ((-(1 * Real.log (e₀ / (e₀ + e₁)) + (1 - 1) * Real.log (1 - e₀ / (e₀ + e₁)))
    + -(0 * Real.log (e₁ / (e₀ + e₁)) + (1 - 0) * Real.log (1 - e₁ / (e₀ + e₁))))
    / ((1 : ℕ) : ℝ)) = _
  rw [hone, Nat.cast_one, div_one]
  refine congrArg Except.ok ?_
  ring

theorem softmaxSigmoid_hasMismatch : HasMismatch softmaxSigmoid := by
  obtain ⟨layer, hnew, hL⟩ := newLayer_holds (fun _ => Noise.zero) softmaxSigmoid 0 0 (n := 1)
    two_pos (Or.inr (by decide)) (Noise.zero_allocates _ _) rfl rfl rfl rfl rfl
  rw [Initializer.draw_zero _ one_pos] at hL
  let L : DenseParams ℝ 1 2 := ⟨fun _ _ => 0, fun _ => 0, 1, 0, 1, .softmax, two_pos⟩
  let N : Network ℝ 1 2 := .cons L .nil
  let nn : NeuralNetwork ℝ := ⟨.sigmoidCrossEntropy, [layer], [], []⟩
  let T : Fin 2 → Fin 1 → ℝ := fun i _ => if i = 0 then 1 else 0
  have hset : (⟨.categoricalCrossEntropy, [], [], []⟩ : NeuralNetwork ℝ).setModelHyperParameters
      (fun _ => Noise.zero) 0 softmaxSigmoid = (nn, .ok ()) := by
    have hnew' : newLayer (fun _ => Noise.zero) softmaxSigmoid 0 0 1 2 = .ok layer := hnew
    rw [setModelHyperParameters, show pushLayers (fun _ => Noise.zero) softmaxSigmoid 0
      softmaxSigmoid.layerSizes 0 softmaxSigmoid.inputSize
        = pushLayers (fun _ => Noise.zero) softmaxSigmoid 0 [2] 0 1 from rfl, pushLayers, hnew']
    rfl
  have hN : N.HeldBy nn.layers := ⟨layer, [], rfl, hL, rfl⟩
  have hdrops : L.drops = false := by simp [DenseParams.drops, L]
  have hP : N.forward (fun _ => 0) (fun _ (_ : Fin 1) => 0) = fun _ _ => 1 / 2 := by
    refine (softmaxUnits_column L hdrops rfl).trans ?_
    funext i j
    show Real.exp 0 / (Real.exp 0 + Real.exp 0) = 1 / 2
    norm_num
  refine hasMismatch_of (fun _ => Noise.zero) (fun _ => Noise.zero_legal) rfl hset ?_ hN (T := T)
    (le_refl 2) ?_ (D := biasPart 0 1 - biasPart 0 0) ?_
    (SigmoidCrossEntropy.derivativeWith_ofFn 0 _ T two_pos le_rfl) hdrops one_ne_zero 0 ?_
  · intro layer' hlayer
    obtain rfl := List.mem_singleton.mp hlayer
    exact ⟨hL.keepProb, hL.lambda⟩
  · intro _ i j
    rw [hP]
    norm_num
  · intro δ
    have hcost : ∀ s, cost (fun _ => 0) (Grid.ofFn fun (_ : Fin 1) (_ : Fin 1) => 0)
        (Grid.ofFn T) (nn.shift δ s)
        = -2 * Real.log (Real.exp (s * biasPart 0 0 δ)
          / (Real.exp (s * biasPart 0 0 δ) + Real.exp (s * biasPart 0 1 δ))) := fun s => by
      have hb : ∀ q : Fin 2, (L.shift (δ 0) s).b q = s * biasPart 0 q δ := fun q => zero_add _
      refine cost_shift_eq hN _ _ one_pos ?_
      rw [show (N.shift δ s).forward (fun _ => 0) (fun _ (_ : Fin 1) => 0) = _ from
        softmaxUnits_column (L.shift (δ 0) s) hdrops rfl]
      refine (calculateLoss_softmaxUnits _).trans ?_
      rw [hb, hb]
      rfl
    simp only [hcost]
    exact hasDerivAt_neg_log_softmax _ _
  · -- the step takes `(P - 1) / (P (1 - P))` for `P - 1 - P`, at `P = 1 / 2`
    show ∑ j : Fin 1, 1 * _ ≠ _
    rw [Fin.sum_univ_one]
    show 1 * ((N.forward (fun _ => 0) (fun _ _ => 0) 0 0 - 1)
      / (N.forward (fun _ => 0) (fun _ _ => 0) 0 0 * (1 - N.forward (fun _ => 0) (fun _ _ => 0) 0 0)
        + 0)) ≠ _
    rw [hP]
    norm_num [biasPart, biasAt]

/-- A softmax unit before a sigmoid unit: the softmax is `1` whatever its
parameters, so only the sigmoid unit moves the prediction. -/
theorem hiddenSoftmax_forward (L₁ L₂ : DenseParams ℝ 1 1) (hdrops₁ : L₁.drops = false)
    (hact₁ : L₁.activation = .softmax) (hdrops₂ : L₂.drops = false)
    (hact₂ : L₂.activation = .sigmoid) (X : Fin 1 → Fin 1 → ℝ) :
    (Network.cons L₁ (.cons L₂ .nil)).forward (fun _ => 0) X
      = fun _ _ => Sigmoid.activate (L₂.w 0 0 + L₂.b 0) := by
  have hone : L₁.forward (fun _ => 0) X = fun _ _ => 1 := by
    funext i j
    rw [DenseParams.forward, hdrops₁, if_neg (by decide), DenseParams.act, hact₁]
    show Softmax.column (fun i => L₁.preact X i j) L₁.pos i = 1
    rw [Softmax.column_real, Fin.sum_univ_one, Subsingleton.elim i 0]
    exact div_self (Real.exp_pos _).ne'
  funext i j
  show L₂.forward _ (L₁.forward _ X) i j = _
  rw [hone, DenseParams.forward_eq_eval hdrops₂ (by rw [hact₂]; decide), Stage.eval,
    DenseParams.stage_preact, DenseParams.preact, MathUtils.dot_real]
  show L₂.activation.activate _ = _
  rw [hact₂, Subsingleton.elim i 0]
  exact congrArg (fun x => Sigmoid.activate (x + L₂.b 0)) (by simp [dotProduct])

/-- The network of `hiddenSoftmax`, with `c` as the weight of its sigmoid
unit. -/
noncomputable def hiddenSoftmaxNetwork (c : ℝ) : NeuralNetwork ℝ where
  lossFunction := .sigmoidCrossEntropy
  layers := [.unit 0 0 0 1 .softmax "softmax", .unit 1 c 0 1 .sigmoid "sigmoid"]
  means := []
  stdevs := []

theorem hiddenSoftmaxNetwork_heldBy (c : ℝ) :
    (Network.cons (.unit 0 0 1 .softmax) (.cons (.unit c 0 1 .sigmoid) .nil)).HeldBy
      (hiddenSoftmaxNetwork c).layers :=
  ⟨_, _, rfl, DenseLayer.unit_holds 0 0 0 1 _ _ rfl, _, _, rfl,
    DenseLayer.unit_holds 1 c 0 1 _ _ rfl, rfl⟩

/-- The draws for `hiddenSoftmax`: zero for the softmax unit, and half of the
bound for the sigmoid unit. -/
noncomputable def hiddenSoftmaxNoise (addr : ℕ) : Noise ℝ :=
  if addr = 0 then .zero else .half

theorem hiddenSoftmaxNoise_legal (addr : ℕ) : (hiddenSoftmaxNoise addr).Legal := by
  unfold hiddenSoftmaxNoise
  split_ifs
  · exact Noise.zero_legal
  · exact Noise.half_legal

/-- The arguments build the network, with a positive weight. -/
theorem exists_hiddenSoftmaxNetwork :
    ∃ c > 0, (⟨.categoricalCrossEntropy, [], [], []⟩ : NeuralNetwork ℝ).setModelHyperParameters
      hiddenSoftmaxNoise 0 hiddenSoftmax = (hiddenSoftmaxNetwork c, .ok ()) := by
  obtain ⟨c, hc, hdraw⟩ := Initializer.draw_half (n := 1) (k := 1) "sigmoid" one_pos
  have hnew₁ : newLayer hiddenSoftmaxNoise hiddenSoftmax 0 0 1 1
      = .ok (.unit 0 0 0 1 .softmax "softmax") :=
    newLayer_unit _ 0 0 (Noise.zero_allocates 1 1) (Initializer.draw_zero _ one_pos) rfl rfl rfl
      rfl rfl
  have hnew₂ : newLayer hiddenSoftmaxNoise hiddenSoftmax 1 1 1 1
      = .ok (.unit 1 c 0 1 .sigmoid "sigmoid") :=
    newLayer_unit _ 1 1 (Noise.half_allocates 1 1) hdraw rfl rfl rfl rfl rfl
  refine ⟨c, hc, ?_⟩
  rw [setModelHyperParameters, show pushLayers hiddenSoftmaxNoise hiddenSoftmax 0
    hiddenSoftmax.layerSizes 0 hiddenSoftmax.inputSize
      = pushLayers hiddenSoftmaxNoise hiddenSoftmax 0 [1, 1] 0 1 from rfl, pushLayers, hnew₁,
    pushLayers, hnew₂]
  rfl

/-- The prediction of the network is that of its sigmoid unit on `1`. -/
theorem hiddenSoftmaxNetwork_forward (c : ℝ) (X : Fin 1 → Fin 1 → ℝ) :
    (Network.cons (.unit 0 0 1 .softmax) (.cons (.unit c 0 1 .sigmoid) .nil)).forward
      (fun _ => 0) X = fun _ _ => Sigmoid.activate c := by
  refine (hiddenSoftmax_forward _ _ (by simp) rfl (by simp) rfl X).trans ?_
  show (fun _ _ => Sigmoid.activate (c + 0)) = _
  rw [add_zero]

/-- Its cost depends on the parameters of the sigmoid unit alone. -/
theorem hiddenSoftmaxNetwork_cost (c : ℝ) (δ : Direction) (s : ℝ) :
    cost (fun _ => 0) (Grid.ofFn fun (_ : Fin 1) (_ : Fin 1) => 0)
      (Grid.ofFn fun (_ : Fin 1) (_ : Fin 1) => 1) ((hiddenSoftmaxNetwork c).shift δ s)
      = -Real.log (Sigmoid.activate (c + s * (weightPart 1 0 0 + biasPart 1 0) δ)) := by
  have hz : c + s * weightPart 1 0 0 δ + (0 + s * biasPart 1 0 δ)
      = c + s * (weightPart 1 0 0 + biasPart 1 0) δ := by
    rw [LinearMap.add_apply]
    ring
  refine cost_shift_eq (hiddenSoftmaxNetwork_heldBy c) _ _ one_pos ?_
  rw [show ((Network.cons (.unit 0 0 1 .softmax)
      (.cons (.unit c 0 1 .sigmoid) .nil)).shift δ s).forward (fun _ => 0) (fun _ (_ : Fin 1) => 0)
    = _ from hiddenSoftmax_forward ((DenseParams.unit 0 0 1 .softmax).shift (δ 0) s)
      ((DenseParams.unit c 0 1 .sigmoid).shift (δ 1) s) (by simp) rfl (by simp) rfl _, ← hz]
  exact calculateLoss_one _

theorem hiddenSoftmax_hasMismatch : HasMismatch hiddenSoftmax := by
  obtain ⟨c, hc, hset⟩ := exists_hiddenSoftmaxNetwork
  let L₁ : DenseParams ℝ 1 1 := .unit 0 0 1 .softmax
  let L₂ : DenseParams ℝ 1 1 := .unit c 0 1 .sigmoid
  let N : Network ℝ 1 1 := .cons L₁ (.cons L₂ .nil)
  let T : Fin 1 → Fin 1 → ℝ := fun _ _ => 1
  have hP : ∀ X, N.forward (fun _ => 0) X = fun _ _ => Sigmoid.activate c :=
    hiddenSoftmaxNetwork_forward c
  refine hasMismatch_of hiddenSoftmaxNoise hiddenSoftmaxNoise_legal rfl hset ?_
    (hiddenSoftmaxNetwork_heldBy c) (T := T) (le_refl 1) ?_
    (D := (Sigmoid.activate c - 1) • (weightPart 1 0 0 + biasPart 1 0)) ?_
    (SigmoidCrossEntropy.derivativeWith_ofFn 0 _ T one_pos le_rfl) (by simp) one_ne_zero 0 ?_
  · intro layer hlayer
    rcases List.mem_cons.mp hlayer with rfl | hlayer
    · exact ⟨rfl, rfl⟩
    · obtain rfl := List.mem_singleton.mp hlayer
      exact ⟨rfl, rfl⟩
  · intro _ i j
    rw [hiddenSoftmaxNetwork_forward]
    exact ⟨Sigmoid.activate_pos c, Sigmoid.activate_lt_one c⟩
  · intro δ
    refine (Sigmoid.hasDerivAt_neg_log c _).congr_of_eventuallyEq
      (Filter.Eventually.of_forall fun s => hiddenSoftmaxNetwork_cost c δ s)
  · -- the step moves the bias of the softmax unit, and the cost does not depend on it
    have hdrops₂ : L₂.drops = false := DenseParams.unit_drops _ _ _ _
    have hP' : L₂.stage.eval (L₁.forward (fun _ => 0) fun _ _ => 0)
        = fun _ (_ : Fin 1) => Sigmoid.activate c :=
      (DenseParams.forward_eq_eval hdrops₂ (by show ActivationFunction.sigmoid ≠ .softmax; decide)
        (L₁.randAfter 1 fun _ => 0) _).symm.trans (hP _)
    show ∑ j : Fin 1, 1 * L₂.daPrev _ _ _ 0 j ≠ _
    rw [Fin.sum_univ_one, DenseParams.daPrev_eq_cotangent hdrops₂ rfl]
    show 1 * ∑ i : Fin 1, c * (L₂.stage.eval _ i 0 * (1 - L₂.stage.eval _ i 0)
      * ((N.forward (fun _ => 0) (fun _ _ => 0) i 0 - 1)
        / (N.forward (fun _ => 0) (fun _ _ => 0) i 0
          * (1 - N.forward (fun _ => 0) (fun _ _ => 0) i 0) + 0))) ≠ _
    have hpos := Sigmoid.activate_pos c
    have hlt := Sigmoid.activate_lt_one c
    have hone : 1 - (Sigmoid.activate c : ℝ) ≠ 0 := by linarith
    have hzero : ((Sigmoid.activate c - 1) • (weightPart 1 0 0 + biasPart 1 0))
        (biasAt 0 ↑(0 : Fin 1)) = (0 : ℝ) := by
      simp [weightPart, biasPart, biasAt]
    rw [Fin.sum_univ_one, hP, hP', hzero, one_mul]
    dsimp only
    rw [add_zero, mul_div_cancel₀ _ (mul_ne_zero hpos.ne' hone)]
    exact mul_ne_zero hc.ne' (by linarith)

/-- **Every way of pairing that is not the intended one trains against its
cost**: the categorical loss without softmax, softmax with the sigmoid loss,
and softmax before the last layer. -/
theorem gradient_mismatch :
    HasMismatch sigmoidCategorical ∧ HasMismatch softmaxSigmoid ∧ HasMismatch hiddenSoftmax :=
  ⟨sigmoidCategorical_hasMismatch, softmaxSigmoid_hasMismatch, hiddenSoftmax_hasMismatch⟩

end NeuralNetwork
