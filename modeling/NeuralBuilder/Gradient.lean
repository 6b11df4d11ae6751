import NeuralBuilder.Library.ReverseMode
import NeuralBuilder.Network
import NeuralBuilder.RealActivation

/-!
# The layers as a chain of stages

Over the reals, without dropout and without decay, the two passes of a
network are the two sweeps of a chain of stages: `daPrev` is the
`cotangent` of the chain, and `update` takes from every weight and bias
the learning rate times its weighting, divided by the number of samples.

A softmax layer is special: `backward` leaves out its derivative. Seen from
the way back it is a layer with the identity for activation, and as such it
enters the chain.

`NeuralNetwork.shift` moves the parameters of the objects, and
`StepsDown` says what it is for one network object to be another one after
a step against the partial derivatives of some function of the parameters.
-/

open ReverseMode

variable {n k p m : ℕ}

/-- The activation as the way back sees it. -/
noncomputable def ActivationFunction.nonlinearity (act : ActivationFunction) : Nonlinearity where
  f := act.activate
  slope := if act = softmax then fun _ => 1 else act.slope
  hasDerivWithinAt x := by
    by_cases h : act = softmax
    · subst h
      rw [if_pos rfl]
      exact (hasDerivAt_id x).hasDerivWithinAt
    · rw [if_neg h]
      exact ActivationFunction.hasDerivWithinAt h x

theorem ActivationFunction.nonlinearity_smoothAt {act : ActivationFunction} {x : ℝ}
    (h : ¬ act.Kink x) : act.nonlinearity.SmoothAt x := by
  show HasDerivAt act.activate
    ((if act = softmax then fun _ => 1 else act.slope) (act.activate x)) x
  by_cases hact : act = softmax
  · rw [if_pos hact, hact]
    exact hasDerivAt_id x
  · rw [if_neg hact]
    exact ActivationFunction.hasDerivAt hact h

namespace DenseParams

/-- The layer as a stage. -/
noncomputable def stage (L : DenseParams ℝ n k) : Stage n k where
  w := L.w
  b := L.b
  φ := L.activation.nonlinearity

theorem stage_preact (L : DenseParams ℝ n k) (X : Fin n → Fin m → ℝ) :
    L.stage.preact X = L.preact X := by
  funext i j
  rw [preact, MathUtils.dot_real]
  rfl

/-- Without dropout a layer that is not a softmax layer computes its
stage. -/
theorem forward_eq_eval {L : DenseParams ℝ n k} (hdrops : L.drops = false)
    (hact : L.activation ≠ .softmax) (rand : ℕ → ℝ) (X : Fin n → Fin m → ℝ) :
    L.forward rand X = L.stage.eval X := by
  funext i j
  rw [forward, hdrops, if_neg (by decide), act, ActivationFunction.onGrid_of_ne_softmax hact,
    Stage.eval, stage_preact]
  rfl

/-- Without dropout `dz` is the weighting of the pre-activations. -/
theorem dz_eq_preCotangent {L : DenseParams ℝ n k} (hdrops : L.drops = false) (rand : ℕ → ℝ)
    (X : Fin n → Fin m → ℝ) (da : Fin k → Fin m → ℝ) :
    L.dz rand X da = L.stage.preCotangent X da := by
  funext i j
  have hmasked : L.masked rand da = da := by rw [masked, hdrops, if_neg (by decide)]
  show _ = (if L.activation = .softmax then fun _ => 1 else L.activation.slope) (L.stage.eval X i j)
    * da i j
  by_cases hact : L.activation = .softmax
  · rw [dz, if_pos hact, if_pos hact, hmasked, one_mul]
  · rw [dz, if_neg hact, if_neg hact, hmasked, forward_eq_eval hdrops hact]

theorem decayed_eq {L : DenseParams ℝ n k} (hlambda : L.lambda = 0) : L.decayed m = L.w := by
  rw [decayed, hlambda, if_pos (by simp)]

/-- **`backward` returns the weighting of the input.** -/
theorem daPrev_eq_cotangent {L : DenseParams ℝ n k} (hdrops : L.drops = false)
    (hlambda : L.lambda = 0) (rand : ℕ → ℝ) (X : Fin n → Fin m → ℝ) (da : Fin k → Fin m → ℝ) :
    L.daPrev rand X da = L.stage.cotangent X da := by
  funext q j
  rw [daPrev, dz_eq_preCotangent hdrops, decayed_eq hlambda, MathUtils.dot_real]
  rfl

/-- **`backward` moves a weight by its weighting.** -/
theorem update_w {L : DenseParams ℝ n k} (hdrops : L.drops = false) (hlambda : L.lambda = 0)
    (rand : ℕ → ℝ) (X : Fin n → Fin m → ℝ) (da : Fin k → Fin m → ℝ) (i : Fin k) (q : Fin n) :
    (L.update rand X da).w i q
      = L.w i q - 1 / (m : ℝ) * L.learningRate * L.stage.gradW X da i q := by
  show L.decayed m i q - MathUtils.dot (L.dz rand X da i) (fun j => X q j) / (m : ℝ)
    * L.learningRate = _
  rw [dz_eq_preCotangent hdrops, decayed_eq hlambda, MathUtils.dot_real,
    show L.stage.preCotangent X da i ⬝ᵥ (fun j => X q j) = L.stage.gradW X da i q from rfl]
  ring

/-- **`backward` moves a bias by its weighting.** -/
theorem update_b {L : DenseParams ℝ n k} (hdrops : L.drops = false) (rand : ℕ → ℝ)
    (X : Fin n → Fin m → ℝ) (da : Fin k → Fin m → ℝ) (i : Fin k) :
    (L.update rand X da).b i = L.b i - 1 / (m : ℝ) * L.learningRate * L.stage.gradB X da i := by
  show L.b i - MathUtils.dot (L.dz rand X da i) (fun _ => 1) / (m : ℝ) * L.learningRate = _
  have hsum : MathUtils.dot (L.dz rand X da i) (fun _ => 1) = L.stage.gradB X da i := by
    rw [dz_eq_preCotangent hdrops, MathUtils.dot_real]
    exact dotProduct_one _
  rw [hsum]
  ring

/-- The parameters with `t` times a direction added. -/
def shift (L : DenseParams ℝ n k) (d : (ℕ → ℕ → ℝ) × (ℕ → ℝ)) (t : ℝ) : DenseParams ℝ n k :=
  { L with w := fun i q => L.w i q + t * d.1 i q, b := fun i => L.b i + t * d.2 i }

@[simp] theorem shift_drops (L : DenseParams ℝ n k) (d : (ℕ → ℕ → ℝ) × (ℕ → ℝ)) (t : ℝ) :
    (L.shift d t).drops = L.drops := rfl

end DenseParams

namespace Network

/-- The layers as a chain. -/
noncomputable def chain : {n p : ℕ} → Network ℝ n p → Chain n p
  | _, _, nil => .nil
  | _, _, cons L N => .cons L.stage N.chain

def IsNil : {n p : ℕ} → Network ℝ n p → Prop
  | _, _, nil => True
  | _, _, cons _ _ => False

/-- **The layers neither drop units nor decay**, and none but the last is a
softmax layer. -/
def Trainable : {n p : ℕ} → Network ℝ n p → Prop
  | _, _, nil => True
  | _, _, cons L N =>
    L.drops = false ∧ L.lambda = 0 ∧ (L.activation = .softmax → N.IsNil) ∧ N.Trainable

def shift : {n p : ℕ} → Network ℝ n p → Direction → ℝ → Network ℝ n p
  | _, _, nil, _, _ => nil
  | _, _, cons L N, δ, t => cons (L.shift (δ 0) t) (N.shift δ.tail t)

theorem chain_shift (N : Network ℝ n p) (δ : Direction) (t : ℝ) :
    (N.shift δ t).chain = N.chain.shift δ t := by
  induction N generalizing δ with
  | nil => rfl
  | cons L N ih => rw [shift, chain, ih, chain, Chain.shift]; rfl

theorem Trainable.shift {N : Network ℝ n p} (h : N.Trainable) (δ : Direction) (t : ℝ) :
    (N.shift δ t).Trainable := by
  induction N generalizing δ with
  | nil => trivial
  | cons L N ih =>
    refine ⟨h.1, h.2.1, fun hact => ?_, ih h.2.2.2 _⟩
    cases N with
    | nil => trivial
    | cons L' N' => exact h.2.2.1 hact

/-- A network without softmax computes its chain. -/
theorem forward_eq_eval {N : Network ℝ n p} (h : N.Plain) (rand : ℕ → ℝ) (X : Fin n → Fin m → ℝ) :
    N.forward rand X = N.chain.eval X := by
  induction N generalizing rand with
  | nil => rfl
  | cons L N ih =>
    rw [forward, DenseParams.forward_eq_eval h.1 h.2.1, ih h.2.2]
    rfl

/-- What comes back to a layer is the weighting of its output by the chain after
it; after softmax there is none. -/
theorem daPrev_after {L : DenseParams ℝ n k} {N : Network ℝ k p} (h : (cons L N).Trainable)
    (rand : ℕ → ℝ) (X : Fin n → Fin m → ℝ) (da : Fin p → Fin m → ℝ)
    (hN : N.daPrev (L.randAfter m rand) (L.forward rand X) da
      = N.chain.cotangent (L.forward rand X) da) :
    N.daPrev (L.randAfter m rand) (L.forward rand X) da
      = N.chain.cotangent (L.stage.eval X) da := by
  by_cases hact : L.activation = .softmax
  · cases N with
    | nil => rfl
    | cons L' N' => exact absurd (h.2.2.1 hact) id
  · rw [hN, DenseParams.forward_eq_eval h.1 hact]

/-- **`backwardPropagation` leaves the weighting of the input in `da`.** -/
theorem daPrev_eq_cotangent {N : Network ℝ n p} (h : N.Trainable) (rand : ℕ → ℝ)
    (X : Fin n → Fin m → ℝ) (da : Fin p → Fin m → ℝ) :
    N.daPrev rand X da = N.chain.cotangent X da := by
  induction N generalizing rand with
  | nil => rfl
  | cons L N ih =>
    rw [daPrev, daPrev_after h rand X da (ih h.2.2.2 _ _ _),
      DenseParams.daPrev_eq_cotangent h.1 h.2.1]
    rfl

end Network

/-! ## Moving the parameters of the objects -/

/-- The entry in row `i` and column `j`. -/
def Mat.entry (A : Mat ℝ) (i j : ℕ) : ℝ := (A.getD i []).getD j 0

@[simp] theorem Mat.entry_ofFn (f : Fin n → Fin m → ℝ) (i : Fin n) (j : Fin m) :
    Mat.entry (Grid.ofFn f) i j = f i j := by
  simp [Mat.entry, Grid.ofFn]

@[simp] theorem Vec.getD_ofFn (f : Fin n → ℝ) (i : Fin n) : (List.ofFn f).getD i 0 = f i := by
  simp

/-- The layer with `t` times a direction added to its parameters. -/
def DenseLayer.shift (layer : DenseLayer ℝ) (d : (ℕ → ℕ → ℝ) × (ℕ → ℝ)) (t : ℝ) : DenseLayer ℝ :=
  { layer with
    w := layer.w.mapIdx fun i row => row.mapIdx fun q x => x + t * d.1 i q
    b := layer.b.mapIdx fun i x => x + t * d.2 i }

/-- **The network with `t` times a direction added to its parameters.** -/
def NeuralNetwork.shift (nn : NeuralNetwork ℝ) (δ : Direction) (t : ℝ) : NeuralNetwork ℝ :=
  { nn with layers := nn.layers.mapIdx fun l layer => layer.shift (δ l) t }

theorem DenseLayer.Holds.shift {layer : DenseLayer ℝ} {L : DenseParams ℝ n k} (h : layer.Holds L)
    (d : (ℕ → ℕ → ℝ) × (ℕ → ℝ)) (t : ℝ) : (layer.shift d t).Holds (L.shift d t) := by
  refine ⟨h.1, h.2, ?_, ?_, h.5, h.6, h.7, h.8, h.9⟩
  · show layer.w.mapIdx _ = Grid.ofFn (L.shift d t).w
    rw [h.w, Grid.ofFn, Grid.mapIdx_ofFn]
    simp only [Grid.mapIdx_ofFn]
    rfl
  · show layer.b.mapIdx _ = List.ofFn (L.shift d t).b
    rw [h.b, Grid.mapIdx_ofFn]
    rfl

theorem Network.HeldBy.shift {N : Network ℝ n p} {layers : List (DenseLayer ℝ)}
    (h : N.HeldBy layers) (δ : Direction) (t : ℝ) :
    (N.shift δ t).HeldBy (layers.mapIdx fun l layer => layer.shift (δ l) t) := by
  induction N generalizing layers δ with
  | nil =>
    obtain rfl : layers = [] := h
    rfl
  | cons L N ih =>
    obtain ⟨layer, rest, rfl, hL, hN⟩ := h
    exact ⟨_, _, List.mapIdx_cons, hL.shift _ t, ih hN δ.tail⟩

/-! ## Steps against a gradient -/

/-- **`after` is `before` after a step against the partial derivatives of
`objective`**: every weight and every bias has moved by the learning rate of
its layer times `c` times the partial derivative, at the parameters before
the step, of `objective` with respect to it. -/
def NeuralNetwork.StepsDown (objective : NeuralNetwork ℝ → ℝ) (c : ℝ)
    (before after : NeuralNetwork ℝ) : Prop :=
  after.layers.length = before.layers.length
  ∧ ∀ l layer layer', before.layers[l]? = some layer → after.layers[l]? = some layer' →
    Grid.IsRect layer.outputSize layer.inputSize layer'.w
    ∧ layer'.b.length = layer.outputSize
    ∧ (∀ i < layer.outputSize, ∀ q < layer.inputSize, ∃ g,
      HasDerivAt (fun t => objective (before.shift (weightAt l i q) t)) g 0
      ∧ layer'.w.entry i q = layer.w.entry i q - c * layer.learningRate * g)
    ∧ ∀ i < layer.outputSize, ∃ g,
      HasDerivAt (fun t => objective (before.shift (biasAt l i) t)) g 0
      ∧ layer'.b.getD i 0 = layer.b.getD i 0 - c * layer.learningRate * g

namespace Network

/-- **An object after `backward` against the object before**, layer by
layer: every weight and bias has moved by what the sweep of the chain finds
for it. -/
theorem Trainable.update_eq {N : Network ℝ n p} (h : N.Trainable)
    {layers layers' : List (DenseLayer ℝ)} (hN : N.HeldBy layers) {rand : ℕ → ℝ}
    {X : Fin n → Fin m → ℝ} {da : Fin p → Fin m → ℝ} (hN' : (N.update rand X da).HeldBy layers')
    {l : ℕ} {layer layer' : DenseLayer ℝ} (hl : layers[l]? = some layer)
    (hl' : layers'[l]? = some layer') :
    Grid.IsRect layer.outputSize layer.inputSize layer'.w ∧ layer'.b.length = layer.outputSize
      ∧ (∀ i < layer.outputSize, ∀ q < layer.inputSize, layer'.w.entry i q
        = layer.w.entry i q - 1 / (m : ℝ) * layer.learningRate * N.chain.pair X da (weightAt l i q))
      ∧ ∀ i < layer.outputSize, layer'.b.getD i 0
        = layer.b.getD i 0 - 1 / (m : ℝ) * layer.learningRate * N.chain.pair X da (biasAt l i) := by
  induction N generalizing layers layers' rand l with
  | nil =>
    obtain rfl : layers = [] := hN
    simp at hl
  | @cons n k p L N ih =>
    obtain ⟨first, rest, rfl, hL, hrest⟩ := hN
    obtain ⟨first', rest', rfl, hL', hrest'⟩ := hN'
    -- what comes back to the first layer is the cotangent of the chain after it
    have hcot : N.daPrev (L.randAfter m rand) (L.forward rand X) da
        = N.chain.cotangent (L.stage.eval X) da :=
      daPrev_after h rand X da (daPrev_eq_cotangent h.2.2.2 _ _ _)
    cases l with
    | zero =>
      -- the direction is one entry of the first layer, and leaves the rest alone
      obtain rfl : first = layer := by simpa using hl
      obtain rfl : first' = layer' := by simpa using hl'
      rw [hL'.w, hL'.b, hL.w, hL.b, hL.outputSize, hL.inputSize, hL.learningRate, hcot]
      refine ⟨Grid.isRect_ofFn _, List.length_ofFn, fun i hi q hq => ?_, fun i hi => ?_⟩
      · lift i to Fin k using hi
        lift q to Fin n using hq
        rw [Mat.entry_ofFn, Mat.entry_ofFn, DenseParams.update_w h.1 h.2.1, chain, Chain.pair,
          weightAt_zero, Direction.tail_cons, Chain.pair_zero, add_zero]
        exact congrArg (fun g => L.w i q - 1 / (m : ℝ) * L.learningRate * g)
          (Stage.pair_single_weight _ _ _ i q).symm
      · lift i to Fin k using hi
        rw [Vec.getD_ofFn, Vec.getD_ofFn, DenseParams.update_b h.1, chain, Chain.pair,
          biasAt_zero, Direction.tail_cons, Chain.pair_zero, add_zero]
        exact congrArg (fun g => L.b i - 1 / (m : ℝ) * L.learningRate * g)
          (Stage.pair_single_bias _ _ _ i).symm
    | succ l =>
      -- the direction lies after the first layer, which has a layer after it
      have hlast : L.activation = .softmax → False := fun hact => by
        cases N with
        | nil =>
          obtain rfl : rest = [] := hrest
          simp at hl
        | cons L' N' => exact h.2.2.1 hact
      rw [DenseParams.forward_eq_eval h.1 hlast] at hrest'
      have := ih h.2.2.2 hrest hrest' (by simpa using hl) (by simpa using hl')
      simpa only [chain, Chain.pair, weightAt_succ_zero, biasAt_succ_zero, tail_weightAt_succ,
        tail_biasAt_succ, Stage.pair_zero, zero_add] using this

end Network
