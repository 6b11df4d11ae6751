import NeuralBuilder.DenseLayer

/-!
# The layer as a function

What a layer computes does not depend on what its caches held before.
`DenseParams α n k` keeps the parameters of a layer from `n` inputs to
`k ≥ 1` outputs, with the shape of the weights in the type, so that what it
computes is a function of grids: `forward`, `predict`, and for the way back
`daPrev` and `update`. `DenseLayer.Holds` says an object holds those
parameters and `DenseLayer.Caches` that its caches are those of a given
input; `forward_holds`, `predict_holds` and `backward_holds` say that the
methods of the object return, and return what the functions compute.
-/

variable {α : Type} [Double α]


/-- **The parameters of a layer from `n` inputs to `k` outputs.** -/
structure DenseParams (α : Type) (n k : ℕ) where
  /-- The weights, a row for each output. -/
  w : Fin k → Fin n → α
  /-- The biases. -/
  b : Fin k → α
  /-- How far an update goes. -/
  learningRate : α
  /-- The weight decay. -/
  lambda : α
  /-- The share of units that dropout keeps. -/
  keepProb : α
  /-- What is applied to the pre-activations. -/
  activation : ActivationFunction
  /-- A layer has at least one output. -/
  pos : 0 < k

namespace DenseParams

variable {n k m : ℕ}

/-- The pre-activations, `w · X + b`. -/
def preact (L : DenseParams α n k) (X : Fin n → Fin m → α) : Fin k → Fin m → α :=
  fun i j => MathUtils.dot (L.w i) (fun q => X q j) + L.b i

/-- The activations before dropout. -/
def act (L : DenseParams α n k) (X : Fin n → Fin m → α) : Fin k → Fin m → α :=
  L.activation.onGrid L.pos (L.preact X)

/-- Whether the layer drops units. -/
def drops (L : DenseParams α n k) : Bool := Double.lt L.keepProb 1

/-- The dropout mask. -/
def gate (L : DenseParams α n k) (rand : ℕ → α) : Fin k → Fin m → α :=
  fun i j => Dropout.gate rand L.keepProb m i j

/-- **What the layer returns.** -/
def forward (L : DenseParams α n k) (rand : ℕ → α) (X : Fin n → Fin m → α) : Fin k → Fin m → α :=
  if L.drops then fun i j => L.act X i j * L.gate rand i j / L.keepProb else L.act X

/-- The calls of `rand()` to come after a forward pass over `m` samples. -/
def randAfter (L : DenseParams α n k) (m : ℕ) (rand : ℕ → α) : ℕ → α :=
  if L.drops then fun q => rand (k * m + q) else rand

/-- What the layer returns at inference: the scalar overload of the
activation, and no dropout. -/
def predict (L : DenseParams α n k) (X : Fin n → Fin m → α) : Fin k → Fin m → α :=
  fun i j => L.activation.activate (L.preact X i j)

/-- The incoming derivatives, through the dropout mask. -/
def masked (L : DenseParams α n k) (rand : ℕ → α) (da : Fin k → Fin m → α) : Fin k → Fin m → α :=
  if L.drops then fun i j => da i j * L.gate rand i j / L.keepProb else da

/-- The derivatives with respect to the pre-activations, as the layer
computes them. -/
def dz (L : DenseParams α n k) (rand : ℕ → α) (X : Fin n → Fin m → α) (da : Fin k → Fin m → α) :
    Fin k → Fin m → α :=
  if L.activation = .softmax then L.masked rand da
  else fun i j => L.activation.slope (L.forward rand X i j) * L.masked rand da i j

/-- The weights after the decay of the L2 regulariser. -/
def decayed (L : DenseParams α n k) (m : ℕ) : Fin k → Fin n → α :=
  if Double.eq L.lambda 0 then L.w
  else fun i q => L.w i q - L.lambda / (m : α) * L.w i q

/-- **The derivatives the layer hands to the one before it.** -/
def daPrev (L : DenseParams α n k) (rand : ℕ → α) (X : Fin n → Fin m → α)
    (da : Fin k → Fin m → α) : Fin n → Fin m → α :=
  fun q j => MathUtils.dot (fun i => L.decayed m i q) (fun i => L.dz rand X da i j)

/-- **The parameters after a backward pass.** -/
def update (L : DenseParams α n k) (rand : ℕ → α) (X : Fin n → Fin m → α)
    (da : Fin k → Fin m → α) : DenseParams α n k :=
  { L with
    w := fun i q => L.decayed m i q
      - MathUtils.dot (L.dz rand X da i) (fun j => X q j) / (m : α) * L.learningRate
    b := fun i => L.b i
      - MathUtils.dot (L.dz rand X da i) (fun _ => 1) / (m : α) * L.learningRate }

/-! ### Without dropout -/

section KeepsUnits

variable {L : DenseParams α n k}

/-- Without dropout a layer returns its activations. -/
theorem forward_eq_act (h : L.drops = false) (rand : ℕ → α) (X : Fin n → Fin m → α) :
    L.forward rand X = L.act X := by
  rw [forward, h, if_neg Bool.false_ne_true]

theorem masked_eq (h : L.drops = false) (rand : ℕ → α) (da : Fin k → Fin m → α) :
    L.masked rand da = da := by
  rw [masked, h, if_neg Bool.false_ne_true]

theorem forward_rand (h : L.drops = false) (rand rand' : ℕ → α) (X : Fin n → Fin m → α) :
    L.forward rand X = L.forward rand' X := by
  rw [forward_eq_act h, forward_eq_act h]

theorem dz_rand (h : L.drops = false) (rand rand' : ℕ → α) (X : Fin n → Fin m → α)
    (da : Fin k → Fin m → α) : L.dz rand X da = L.dz rand' X da := by
  unfold dz
  rw [masked_eq h, masked_eq h, forward_rand h rand rand']

theorem daPrev_rand (h : L.drops = false) (rand rand' : ℕ → α) (X : Fin n → Fin m → α)
    (da : Fin k → Fin m → α) : L.daPrev rand X da = L.daPrev rand' X da := by
  unfold daPrev
  rw [dz_rand h rand rand']

theorem update_rand (h : L.drops = false) (rand rand' : ℕ → α) (X : Fin n → Fin m → α)
    (da : Fin k → Fin m → α) : L.update rand X da = L.update rand' X da := by
  unfold update
  rw [dz_rand h rand rand']

end KeepsUnits

end DenseParams

namespace DenseLayer

variable {n k m : ℕ}

/-- **The object holds the parameters `L`.** -/
structure Holds (layer : DenseLayer α) (L : DenseParams α n k) : Prop where
  /-- The sizes of the object are those of the type of `L`. -/
  inputSize : layer.inputSize = n
  /-- There is a row of weights for each output. -/
  outputSize : layer.outputSize = k
  /-- The weights of the object are a grid. -/
  w : layer.w = Grid.ofFn L.w
  /-- The biases are as many as the outputs. -/
  b : layer.b = List.ofFn L.b
  /-- The rates agree. -/
  learningRate : layer.learningRate = L.learningRate
  /-- The decays agree. -/
  lambda : layer.lambda = L.lambda
  /-- They drop alike. -/
  keepProb : layer.keepProb = L.keepProb
  /-- The activation object is that of `L`. -/
  activationFunction : layer.activationFunction = L.activation
  /-- The name of the object, which `backward` compares, stands for the same
  activation. -/
  activationFunc : ActivationFactory.getActivationClass layer.activationFunc = .ok L.activation

/-- **The caches of the object are those of a forward pass on `X`.** -/
structure Caches (layer : DenseLayer α) (L : DenseParams α n k) (rand : ℕ → α)
    (X : Fin n → Fin m → α) : Prop where
  /-- `z` holds the pre-activations. -/
  z : layer.z = Grid.ofFn (L.preact X)
  /-- `a` holds what was returned. -/
  a : layer.a = Grid.ofFn (L.forward rand X)
  /-- `aPrev` holds the input. -/
  aPrev : layer.aPrev = Grid.ofFn X
  /-- Where units are dropped, the mask is the one of these draws. -/
  dropoutMask : L.drops → layer.dropoutMask = Grid.ofFn (L.gate rand : Fin k → Fin m → α)

omit [Double α] in
/-- The test of `backward` on the name of the activation is a test on its
object. -/
theorem softmax_name_iff {layer : DenseLayer α} {L : DenseParams α n k} (h : layer.Holds L) :
    layer.activationFunc = "softmax" ↔ L.activation = .softmax :=
  ActivationFactory.eq_softmax_iff h.activationFunc

/-- **`forward` returns the function of the layer**, and leaves the caches of
its input. -/
theorem forward_holds {layer : DenseLayer α} {L : DenseParams α n k} (h : layer.Holds L)
    (rand : ℕ → α) (X : Fin n → Fin m → α) (hn : 0 < n) :
    ∃ layer', layer.forward rand (Grid.ofFn X)
        = .ok (Grid.ofFn (L.forward rand X), layer', L.randAfter m rand)
      ∧ layer'.Holds L ∧ layer'.Caches L rand X ∧ layer'.addr = layer.addr := by
  have hz : MathUtils.elementWiseSumRows (Grid.ofFn fun i j =>
      MathUtils.dot (L.w i) fun q => X q j) (List.ofFn L.b) = .ok (Grid.ofFn (L.preact X)) :=
    MathUtils.zipRows_ofFn _ _ _ _ L.pos
  have ha : L.activation.activateMat (Grid.ofFn (L.preact X)) = .ok (Grid.ofFn (L.act X)) :=
    ActivationFunction.activateMat_ofFn L.activation (L.preact X) L.pos
  by_cases hd : Double.lt L.keepProb 1 = true
  · -- the layer drops units: the mask is cached, and the draws move on
    have hforward : L.forward rand X = fun i j => L.act X i j * L.gate rand i j / L.keepProb :=
      if_pos hd
    have hrand : L.randAfter m rand = fun q => rand (k * m + q) := if_pos hd
    refine ⟨{ layer with
      z := Grid.ofFn (L.preact X)
      a := Grid.ofFn fun i j => L.act X i j * L.gate rand i j / L.keepProb
      dropoutMask := Grid.ofFn (L.gate rand : Fin k → Fin m → α)
      aPrev := Grid.ofFn X }, ?_, ⟨h.1, h.2, h.3, h.4, h.5, h.6, h.7, h.8, h.9⟩,
      ⟨rfl, by rw [hforward], rfl, fun _ => rfl⟩, rfl⟩
    rw [forward, Vec.at_row_zero X hn, Checked.ok_bind, h.w, h.b,
      MathUtils.dotProduct_ofFn L.w X L.pos hn, Checked.ok_bind, hz, Checked.ok_bind,
      h.activationFunction, ha, Checked.ok_bind, h.keepProb, if_pos hd,
      Dropout.applyForward_ofFn rand _ L.keepProb L.pos, Checked.ok_bind, hforward, hrand]
    rfl
  · -- it drops none: mask and draws stay
    have hforward : L.forward rand X = L.act X := if_neg hd
    have hrand : L.randAfter m rand = rand := if_neg hd
    refine ⟨{ layer with
      z := Grid.ofFn (L.preact X)
      a := Grid.ofFn (L.act X)
      aPrev := Grid.ofFn X }, ?_, ⟨h.1, h.2, h.3, h.4, h.5, h.6, h.7, h.8, h.9⟩,
      ⟨rfl, by rw [hforward], rfl, fun hdrops => absurd hdrops hd⟩, rfl⟩
    rw [forward, Vec.at_row_zero X hn, Checked.ok_bind, h.w, h.b,
      MathUtils.dotProduct_ofFn L.w X L.pos hn, Checked.ok_bind, hz, Checked.ok_bind,
      h.activationFunction, ha, Checked.ok_bind, h.keepProb, if_neg hd, hforward, hrand]
    rfl

/-- **`predict` returns the function of the layer at inference.** -/
theorem predict_holds {layer : DenseLayer α} {L : DenseParams α n k} (h : layer.Holds L)
    (X : Fin n → Fin m → α) (hn : 0 < n) :
    layer.predict (Grid.ofFn X) = .ok (Grid.ofFn (L.predict X)) := by
  rw [predict, Vec.at_row_zero X hn, Checked.ok_bind, List.length_ofFn, h.outputSize,
    h.inputSize, h.w, h.b, h.activationFunction]
  refine Grid.fill_ok fun i j => ?_
  rw [MathUtils.dotLoop_ok L.w X i j, Checked.ok_bind, Vec.at_ofFn, Checked.ok_bind]
  rfl

/-- The incoming derivatives, through the dropout mask the forward pass
left. -/
theorem masked_holds {layer : DenseLayer α} {L : DenseParams α n k} {rand : ℕ → α}
    {X : Fin n → Fin m → α} (hc : layer.Caches L rand X) (da : Fin k → Fin m → α) :
    (if Double.lt L.keepProb 1 then
      Dropout.applyBackward (Grid.ofFn da) layer.dropoutMask L.keepProb
      else Except.ok (Grid.ofFn da)) = .ok (Grid.ofFn (L.masked rand da)) := by
  by_cases hd : Double.lt L.keepProb 1 = true
  · rw [if_pos hd, hc.dropoutMask hd, Dropout.applyBackward_ofFn _ _ _ L.pos,
      DenseParams.masked, if_pos (show L.drops = true from hd)]
  · rw [if_neg hd, DenseParams.masked, if_neg (show ¬ L.drops = true from hd)]

/-- The derivatives with respect to the pre-activations. -/
theorem backwardDz_holds {layer : DenseLayer α} {L : DenseParams α n k} (h : layer.Holds L)
    {rand : ℕ → α} {X : Fin n → Fin m → α} (hc : layer.Caches L rand X)
    (da : Fin k → Fin m → α) :
    layer.backwardDz (Grid.ofFn da) = .ok (Grid.ofFn (L.dz rand X da)) := by
  rw [backwardDz, h.keepProb, masked_holds hc, Checked.ok_bind]
  by_cases hs : L.activation = .softmax
  · rw [if_pos ((softmax_name_iff h).mpr hs), DenseParams.dz, if_pos hs]
  · rw [if_neg (mt (softmax_name_iff h).mp hs), h.activationFunction, hc.a,
      ActivationFunction.derivativeMat_ofFn _ _ L.pos, Checked.ok_bind, DenseParams.dz,
      if_neg hs]
    exact MathUtils.zipMat_ofFn _ _ _ _ L.pos

/-- The decay of the L2 regulariser. -/
theorem decayed_holds {layer : DenseLayer α} {L : DenseParams α n k} (h : layer.Holds L)
    (m : ℕ) :
    (if Double.eq layer.lambda 0 then layer.w
      else L2Regularizer.apply layer.w layer.lambda m) = Grid.ofFn (L.decayed m) := by
  rw [h.lambda, h.w, DenseParams.decayed]
  by_cases hl : Double.eq L.lambda 0 = true
  · rw [if_pos hl, if_pos hl]
  · rw [if_neg hl, if_neg hl]
    exact Grid.map_ofFn _ _

/-- **What `backward` makes of `dz`**: the weights are decayed, then used for
the derivatives with respect to the input, and then moved. -/
theorem backwardFromDz_holds {layer : DenseLayer α} {L : DenseParams α n k} (h : layer.Holds L)
    {X : Fin n → Fin m → α} (hX : layer.aPrev = Grid.ofFn X) (D : Fin k → Fin m → α)
    (hn : 0 < n) (hm : 0 < m) :
    layer.backwardFromDz m (Grid.ofFn D)
      = .ok (Grid.ofFn fun q j => MathUtils.dot (fun i => L.decayed m i q) fun i => D i j,
        { layer with
          w := Grid.ofFn fun i q => L.decayed m i q
            - MathUtils.dot (D i) (fun j => X q j) / (m : α) * L.learningRate
          b := List.ofFn fun i =>
            L.b i - MathUtils.dot (D i) (fun _ => 1) / (m : α) * L.learningRate
          dw := resize (Grid.ofFn fun i q => MathUtils.dot (D i) (fun j => X q j) / (m : α))
            layer.outputSize (List.replicate layer.inputSize 0)
          db := resize (List.ofFn fun i => MathUtils.dot (D i) (fun _ => 1) / (m : α))
            layer.outputSize 0 }) := by
  have hdw : MathUtils.dotProduct (Grid.ofFn D) (Grid.ofFn fun j q => X q j)
      = .ok (Grid.ofFn fun i q => MathUtils.dot (D i) fun j => X q j) :=
    MathUtils.dotProduct_ofFn _ _ L.pos hm
  have hdb : MathUtils.dotProductVec (Grid.ofFn D) (List.replicate m 1)
      = .ok (List.ofFn fun i => MathUtils.dot (D i) fun _ => 1) := by
    rw [← List.ofFn_const]
    exact MathUtils.dotProductVec_ofFn _ _ L.pos
  have hda : MathUtils.dotProduct (Grid.ofFn fun q i => L.decayed m i q) (Grid.ofFn D)
      = .ok (Grid.ofFn fun q j => MathUtils.dot (fun i => L.decayed m i q) fun i => D i j) :=
    MathUtils.dotProduct_ofFn _ _ hn L.pos
  unfold backwardFromDz
  simp only [decayed_holds h]
  rw [hX, MathUtils.transpose_ofFn X hn, Checked.ok_bind, hdw, Checked.ok_bind,
    MathUtils.elementWiseDivideNum, MathUtils.mapMat_ofFn _ _ _ L.pos, Checked.ok_bind, hdb,
    Checked.ok_bind, MathUtils.elementWiseDivideVecNum, MathUtils.mapVec_ofFn, Checked.ok_bind,
    MathUtils.transpose_ofFn _ L.pos, Checked.ok_bind, hda, Checked.ok_bind, h.learningRate,
    MathUtils.elementWiseProductNum, MathUtils.mapMat_ofFn _ _ _ L.pos, Checked.ok_bind,
    MathUtils.elementWiseSubtract, MathUtils.zipMat_ofFn _ _ _ _ L.pos, Checked.ok_bind,
    MathUtils.elementWiseProductVecNum, MathUtils.mapVec_ofFn, Checked.ok_bind,
    h.b, MathUtils.elementWiseSubtractVec, MathUtils.zipVec_ofFn, Checked.ok_bind]
  rfl

/-- **`backward` returns the derivatives of the layer**, and leaves its
updated parameters. -/
theorem backward_holds {layer : DenseLayer α} {L : DenseParams α n k} (h : layer.Holds L)
    {rand : ℕ → α} {X : Fin n → Fin m → α} (hc : layer.Caches L rand X)
    (da : Fin k → Fin m → α) (hn : 0 < n) (hm : 0 < m) :
    ∃ layer', layer.backward (Grid.ofFn da) = .ok (Grid.ofFn (L.daPrev rand X da), layer')
      ∧ layer'.Holds (L.update rand X da) ∧ layer'.addr = layer.addr := by
  have hback : layer.backward (Grid.ofFn da)
      = layer.backwardFromDz m (Grid.ofFn (L.dz rand X da)) := by
    rw [backward_eq, Vec.at_row_zero da L.pos, Checked.ok_bind, List.length_ofFn,
      backwardDz_holds h hc, Checked.ok_bind]
  exact ⟨_, hback.trans (backwardFromDz_holds h hc.aPrev (L.dz rand X da) hn hm),
    ⟨h.1, h.2, rfl, rfl, h.5, h.6, h.7, h.8, h.9⟩, rfl⟩

end DenseLayer
