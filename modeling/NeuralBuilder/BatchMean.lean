import NeuralBuilder.Backpropagation

/-!
# A batch step is the mean of the steps on its samples

Every stage of a step works on the columns of the batch one by one – the
products, the activations, softmax with its sums down a column, the
derivatives of both losses – as long as no layer drops units and no weight
decays. Columns meet only where `backward` sums over the batch and divides by
its size. So the step on a batch is the mean of the steps on its samples, and
the order of the samples does not matter.

The induction is over the layers, forwards for the caches (`forward_cols`) and
backwards for `daPrev` (`daPrev_cols`), with one column at a time on the one
side and all of them on the other. The order of the columns is a permutation
under a sum, and `step_isMean` states both. `IsMean` compares objects, whose
grids are read entry by entry, since the samples are trained by objects of their
own.
-/

/-- The columns of a grid at the given positions. -/
def Grid.cols {β : Type} {r m c : ℕ} (A : Fin r → Fin m → β) (f : Fin c → Fin m) :
    Fin r → Fin c → β :=
  fun i j => A i (f j)

variable {α : Type} [Double α] {n k p t m c : ℕ}

/-! ## Column by column -/

theorem ActivationFunction.onGrid_cols (act : ActivationFunction) (hk : 0 < k)
    (A : Fin k → Fin m → α) (f : Fin c → Fin m) :
    act.onGrid hk (Grid.cols A f) = Grid.cols (act.onGrid hk A) f := by
  cases act <;> rfl

namespace DenseParams

theorem forward_cols {L : DenseParams α n k} (h : L.drops = false) (rand rand' : ℕ → α)
    (X : Fin n → Fin m → α) (f : Fin c → Fin m) :
    L.forward rand' (Grid.cols X f) = Grid.cols (L.forward rand X) f := by
  rw [forward_eq_act h, forward_eq_act h]
  exact L.activation.onGrid_cols L.pos (L.preact X) f

theorem dz_cols {L : DenseParams α n k} (h : L.drops = false) (rand rand' : ℕ → α)
    (X : Fin n → Fin m → α) (da : Fin k → Fin m → α) (f : Fin c → Fin m) :
    L.dz rand' (Grid.cols X f) (Grid.cols da f) = Grid.cols (L.dz rand X da) f := by
  unfold dz
  rw [masked_eq h, masked_eq h, forward_cols h rand rand' X f]
  split <;> rfl

theorem decayed_eq_w {L : DenseParams α n k} (h : Double.eq L.lambda 0 = true) (m : ℕ) :
    L.decayed m = L.w :=
  if_pos h

theorem daPrev_cols {L : DenseParams α n k} (h : L.drops = false)
    (hlambda : Double.eq L.lambda 0 = true) (rand rand' : ℕ → α) (X : Fin n → Fin m → α)
    (da : Fin k → Fin m → α) (f : Fin c → Fin m) :
    L.daPrev rand' (Grid.cols X f) (Grid.cols da f) = Grid.cols (L.daPrev rand X da) f := by
  unfold daPrev
  rw [dz_cols h rand rand' X da f, decayed_eq_w hlambda, decayed_eq_w hlambda]
  rfl

end DenseParams

namespace Network

/-- No layer decays its weights. -/
def Undecayed (N : Network α n p) : Prop :=
  N.AllLayers (fun L => Double.eq L.lambda 0 = true)

/-- **A forward pass takes the columns one by one.** -/
theorem forward_cols {N : Network α n p} (h : N.KeepsUnits) (rand rand' : ℕ → α)
    (X : Fin n → Fin m → α) (f : Fin c → Fin m) :
    N.forward rand' (Grid.cols X f) = Grid.cols (N.forward rand X) f := by
  induction N generalizing rand rand' with
  | nil => rfl
  | cons L N ih =>
    unfold forward
    rw [DenseParams.forward_cols h.1 rand rand' X f]
    exact ih h.2 _ _ _

/-- **And so does the way back.** -/
theorem daPrev_cols {N : Network α n p} (h : N.KeepsUnits) (hlambda : N.Undecayed)
    (rand rand' : ℕ → α) (X : Fin n → Fin m → α) (da : Fin p → Fin m → α)
    (f : Fin c → Fin m) :
    N.daPrev rand' (Grid.cols X f) (Grid.cols da f) = Grid.cols (N.daPrev rand X da) f := by
  induction N generalizing rand rand' with
  | nil => rfl
  | cons L N ih =>
    unfold daPrev
    rw [DenseParams.forward_cols h.1 rand rand' X f, ih h.2 hlambda.2 _ _ _ _]
    exact DenseParams.daPrev_cols h.1 hlambda.1 _ _ _ _ _

end Network

namespace LossFunction

theorem Fits.cols {lossFunction : LossFunction} {T : Fin t → Fin m → α}
    (h : lossFunction.Fits p T) (f : Fin c → Fin m) : lossFunction.Fits p (Grid.cols T f) := by
  cases lossFunction with
  | sigmoidCrossEntropy => exact h
  | categoricalCrossEntropy => exact ⟨h.1, fun j => h.2 (f j)⟩

theorem onGrid_cols (lossFunction : LossFunction) (P : Fin p → Fin m → α)
    (T : Fin t → Fin m → α) (h : lossFunction.Fits p T) (f : Fin c → Fin m) :
    lossFunction.onGrid (Grid.cols P f) (Grid.cols T f) (h.cols f)
      = Grid.cols (lossFunction.onGrid P T h) f := by
  cases lossFunction <;> rfl

end LossFunction

namespace NeuralNetwork

/-- **A step**: the three calls that the loop of `train` makes for a batch. -/
def step (nn : NeuralNetwork α) (rand : ℕ → α) (input targets : Mat α) :
    Except Fault (NeuralNetwork α) := do
  let (predictions, nn, _) ← nn.forwardPropagation rand input
  let da ← nn.lossFunction.derivative predictions targets
  let (_, nn) ← nn.backwardPropagation da
  return nn

/-- A step goes through and leaves the updated parameters. -/
theorem step_heldBy {nn : NeuralNetwork α} {N : Network α n p} (hN : N.HeldBy nn.layers)
    (rand : ℕ → α) (X : Fin n → Fin m → α) (T : Fin t → Fin m → α) (hn : 0 < n) (hm : 0 < m)
    (hfit : nn.lossFunction.Fits p T) :
    ∃ nn', nn.step rand (Grid.ofFn X) (Grid.ofFn T) = .ok nn'
      ∧ (N.update rand X (nn.lossFunction.onGrid (N.forward rand X) T hfit)).HeldBy nn'.layers := by
  obtain ⟨layers, hforward, hheld, hcached⟩ := Network.forwardPropagation_heldBy hN rand X hn
  obtain ⟨layers', hbackward, hheld'⟩ := Network.backwardPropagation_heldBy nn hheld hcached
    (nn.lossFunction.onGrid (N.forward rand X) T hfit) hn hm
  refine ⟨{ nn with layers := layers' }, ?_, hheld'⟩
  rw [step, hforward, Checked.ok_bind]
  dsimp only
  rw [LossFunction.derivative_ofFn _ T (N.out_pos hn) hfit, Checked.ok_bind, hbackward]
  rfl

end NeuralNetwork

/-! ## The mean -/

namespace DenseParams

variable {L : DenseParams ℝ n k}

/-- The weights after a step on a batch are the mean of the weights after
the steps on its columns. -/
theorem update_w_mean (h : L.drops = false) (hlambda : L.lambda = 0) (hm : 0 < m)
    (rand : ℕ → ℝ) (rands : Fin m → ℕ → ℝ) (X : Fin n → Fin m → ℝ) (da : Fin k → Fin m → ℝ)
    (i : Fin k) (q : Fin n) :
    (L.update rand X da).w i q
      = (∑ j, (L.update (rands j) (Grid.cols X fun _ : Fin 1 => j)
          (Grid.cols da fun _ => j)).w i q) / m := by
  have hm' : (m : ℝ) ≠ 0 := Nat.cast_ne_zero.mpr hm.ne'
  have hcol : ∀ j, (L.update (rands j) (Grid.cols X fun _ : Fin 1 => j)
      (Grid.cols da fun _ => j)).w i q
        = L.w i q - L.dz rand X da i j * X q j * L.learningRate := by
    intro j
    show L.decayed 1 i q - MathUtils.dot _ _ / ((1 : ℕ) : ℝ) * L.learningRate = _
    rw [dz_cols h rand (rands j), decayed_eq hlambda, MathUtils.dot_real]
    simp [Grid.cols, dotProduct]
  show L.decayed m i q - MathUtils.dot _ _ / (m : ℝ) * L.learningRate = _
  rw [decayed_eq hlambda, MathUtils.dot_real]
  simp only [hcol, Finset.sum_sub_distrib, Finset.sum_const, Finset.card_univ, Fintype.card_fin,
    nsmul_eq_mul, ← Finset.sum_mul, dotProduct]
  field_simp

/-- And so are the biases. -/
theorem update_b_mean (h : L.drops = false) (hm : 0 < m)
    (rand : ℕ → ℝ) (rands : Fin m → ℕ → ℝ) (X : Fin n → Fin m → ℝ) (da : Fin k → Fin m → ℝ)
    (i : Fin k) :
    (L.update rand X da).b i
      = (∑ j, (L.update (rands j) (Grid.cols X fun _ : Fin 1 => j)
          (Grid.cols da fun _ => j)).b i) / m := by
  have hm' : (m : ℝ) ≠ 0 := Nat.cast_ne_zero.mpr hm.ne'
  have hcol : ∀ j, (L.update (rands j) (Grid.cols X fun _ : Fin 1 => j)
      (Grid.cols da fun _ => j)).b i = L.b i - L.dz rand X da i j * L.learningRate := by
    intro j
    show L.b i - MathUtils.dot _ _ / ((1 : ℕ) : ℝ) * L.learningRate = _
    rw [dz_cols h rand (rands j), MathUtils.dot_real]
    simp [Grid.cols, dotProduct]
  show L.b i - MathUtils.dot _ _ / (m : ℝ) * L.learningRate = _
  rw [MathUtils.dot_real]
  simp only [hcol, Finset.sum_sub_distrib, Finset.sum_const, Finset.card_univ, Fintype.card_fin,
    nsmul_eq_mul, ← Finset.sum_mul, dotProduct, mul_one]
  field_simp

/-- A step does not look at the order of the columns. -/
theorem update_perm (h : L.drops = false) (rand rand' : ℕ → ℝ)
    (X : Fin n → Fin m → ℝ) (da : Fin k → Fin m → ℝ) (σ : Equiv.Perm (Fin m)) :
    L.update rand' (Grid.cols X σ) (Grid.cols da σ) = L.update rand X da := by
  have hw : ∀ i q, L.dz rand' (Grid.cols X σ) (Grid.cols da σ) i ⬝ᵥ (fun j => Grid.cols X σ q j)
      = L.dz rand X da i ⬝ᵥ fun j => X q j := by
    intro i q
    rw [dz_cols h rand rand']
    exact Equiv.sum_comp σ (fun j => L.dz rand X da i j * X q j)
  have hb : ∀ i, L.dz rand' (Grid.cols X σ) (Grid.cols da σ) i ⬝ᵥ (fun _ => 1)
      = L.dz rand X da i ⬝ᵥ fun _ => 1 := by
    intro i
    rw [dz_cols h rand rand']
    exact Equiv.sum_comp σ (fun j => L.dz rand X da i j * 1)
  unfold update
  simp only [MathUtils.dot_real, hw, hb]

end DenseParams

/-- **A layer holds the mean** of the parameters the others hold. -/
structure DenseLayer.IsMean (layer : DenseLayer ℝ) (samples : Fin m → DenseLayer ℝ) : Prop where
  /-- Its weights and biases have the shape its sizes say. -/
  shape : Grid.IsRect layer.outputSize layer.inputSize layer.w
    ∧ layer.b.length = layer.outputSize
  /-- So have those of the others. -/
  shapes : ∀ j, Grid.IsRect layer.outputSize layer.inputSize (samples j).w
    ∧ (samples j).b.length = layer.outputSize
  /-- Every weight is the mean of the weights there. -/
  w : ∀ i < layer.outputSize, ∀ q < layer.inputSize,
    layer.w.entry i q = (∑ j, (samples j).w.entry i q) / m
  /-- So is every bias. -/
  b : ∀ i < layer.outputSize, layer.b.getD i 0 = (∑ j, (samples j).b.getD i 0) / m

/-- **The layers hold the means**, layer by layer. -/
def LayersMean (layers : List (DenseLayer ℝ)) (samples : Fin m → List (DenseLayer ℝ)) : Prop :=
  (∀ j, (samples j).length = layers.length)
  ∧ ∀ (l : ℕ) (layer : DenseLayer ℝ), layers[l]? = some layer →
    ∃ layers' : Fin m → DenseLayer ℝ, (∀ j, (samples j)[l]? = some (layers' j))
      ∧ layer.IsMean layers'

theorem layersMean_nil : LayersMean [] (fun _ : Fin m => []) :=
  ⟨fun _ => rfl, fun _ _ h => by simp at h⟩

theorem LayersMean.cons {layer : DenseLayer ℝ} {layers : List (DenseLayer ℝ)}
    {sample : Fin m → DenseLayer ℝ} {samples : Fin m → List (DenseLayer ℝ)}
    (hlayer : layer.IsMean sample) (h : LayersMean layers samples) :
    LayersMean (layer :: layers) (fun j => sample j :: samples j) := by
  refine ⟨fun j => congrArg (· + 1) (h.1 j), fun l layer' hl => ?_⟩
  cases l with
  | zero =>
    obtain rfl : layer = layer' := by simpa using hl
    exact ⟨sample, fun _ => rfl, hlayer⟩
  | succ l => exact h.2 l layer' (by simpa using hl)

namespace Network

theorem allLayers_lambda {N : Network ℝ n p} (h : N.AllLayers (fun L => L.lambda = 0)) :
    N.Undecayed := by
  induction N with
  | nil => trivial
  | cons L N ih => exact ⟨decide_eq_true h.1, ih h.2⟩

/-- **The update of a batch is the mean of the updates of its columns.** -/
theorem update_mean {N : Network ℝ n p} (hkeep : N.KeepsUnits)
    (hlambda : N.AllLayers (fun L => L.lambda = 0)) (hm : 0 < m) {rand : ℕ → ℝ}
    {rands : Fin m → ℕ → ℝ} {X : Fin n → Fin m → ℝ} {da : Fin p → Fin m → ℝ}
    {layers : List (DenseLayer ℝ)} {samples : Fin m → List (DenseLayer ℝ)}
    (h : (N.update rand X da).HeldBy layers)
    (hs : ∀ j, (N.update (rands j) (Grid.cols X fun _ : Fin 1 => j)
      (Grid.cols da fun _ => j)).HeldBy (samples j)) :
    LayersMean layers samples := by
  induction N generalizing layers samples rand rands with
  | nil =>
    obtain rfl : layers = [] := h
    obtain rfl : samples = fun _ => [] := funext hs
    exact layersMean_nil
  | @cons n k p L N ih =>
    obtain ⟨layer, rest, rfl, hL, hrest⟩ := h
    choose sample samples' hsamples hsample hsrest using hs
    obtain rfl : samples = fun j => sample j :: samples' j := funext hsamples
    -- every sample goes through the layer as its column of the batch does
    have hcols : ∀ j : Fin m, L.forward (rands j) (Grid.cols X fun _ : Fin 1 => j)
        = Grid.cols (L.forward rand X) fun _ : Fin 1 => j :=
      fun j => DenseParams.forward_cols hkeep.1 rand (rands j) X _
    simp only [hcols] at hsrest hsample
    refine LayersMean.cons ?_ (ih hkeep.2 hlambda.2 hrest hsrest)
    -- and comes back to it as its column
    have hdaPrev : ∀ j : Fin m, N.daPrev (L.randAfter 1 (rands j))
        (Grid.cols (L.forward rand X) fun _ : Fin 1 => j) (Grid.cols da fun _ => j)
          = Grid.cols (N.daPrev (L.randAfter m rand) (L.forward rand X) da) fun _ => j :=
      fun j => daPrev_cols hkeep.2 (allLayers_lambda hlambda.2) _ _ _ _ _
    simp only [hdaPrev] at hsample
    refine ⟨?_, fun j => ?_, fun i hi q hq => ?_, fun i hi => ?_⟩
    · rw [hL.outputSize, hL.inputSize, hL.w, hL.b]
      exact ⟨Grid.isRect_ofFn _, List.length_ofFn⟩
    · rw [hL.outputSize, hL.inputSize, (hsample j).w, (hsample j).b]
      exact ⟨Grid.isRect_ofFn _, List.length_ofFn⟩
    · rw [hL.outputSize] at hi
      rw [hL.inputSize] at hq
      lift i to Fin k using hi
      lift q to Fin n using hq
      simp only [hL.w, (hsample _).w, Mat.entry_ofFn]
      exact DenseParams.update_w_mean hkeep.1 hlambda.1 hm rand rands X _ i q
    · rw [hL.outputSize] at hi
      lift i to Fin k using hi
      simp only [hL.b, (hsample _).b, Vec.getD_ofFn]
      exact DenseParams.update_b_mean hkeep.1 hm rand rands X _ i

/-- The update does not look at the order of the columns. -/
theorem update_perm {N : Network ℝ n p} (h : N.KeepsUnits)
    (hlambda : N.AllLayers (fun L => L.lambda = 0)) (rand rand' : ℕ → ℝ) (X : Fin n → Fin m → ℝ)
    (da : Fin p → Fin m → ℝ) (σ : Equiv.Perm (Fin m)) :
    N.update rand' (Grid.cols X σ) (Grid.cols da σ) = N.update rand X da := by
  induction N generalizing rand rand' with
  | nil => rfl
  | cons L N ih =>
    unfold update
    rw [DenseParams.forward_cols h.1 rand rand' X σ,
      daPrev_cols h.2 (allLayers_lambda hlambda.2) (L.randAfter m rand) _ _ _ σ,
      DenseParams.update_perm h.1 rand, ih h.2 hlambda.2]

end Network

/-! ## A step on a batch -/

namespace NeuralNetwork

/-- **A batch step is the mean of its samples**: the step on a batch leaves
in every layer the means of the weights and biases that the steps on its
columns leave, and a batch in another order leaves the same. -/
theorem step_isMean {nn : NeuralNetwork ℝ} (hchain : Chained n nn.layers p)
    (hkeep : ∀ layer ∈ nn.layers, 1 ≤ layer.keepProb)
    (hlambda : ∀ layer ∈ nn.layers, layer.lambda = 0) (rand : ℕ → ℝ) (X : Fin n → Fin m → ℝ)
    (T : Fin t → Fin m → ℝ) (hn : 0 < n) (hm : 0 < m) (hfit : nn.lossFunction.Fits p T) :
    ∃ (after : NeuralNetwork ℝ) (afters : Fin m → NeuralNetwork ℝ),
      nn.step rand (Grid.ofFn X) (Grid.ofFn T) = .ok after
      ∧ (∀ j, nn.step rand (Grid.ofFn (Grid.cols X fun _ : Fin 1 => j))
          (Grid.ofFn (Grid.cols T fun _ : Fin 1 => j)) = .ok (afters j))
      ∧ LayersMean after.layers (fun j => (afters j).layers)
      ∧ ∀ σ : Equiv.Perm (Fin m), ∃ after' : NeuralNetwork ℝ,
        nn.step rand (Grid.ofFn (Grid.cols X σ)) (Grid.ofFn (Grid.cols T σ)) = .ok after'
        ∧ after'.layers.map (fun layer => (layer.w, layer.b))
          = after.layers.map (fun layer => (layer.w, layer.b)) := by
  obtain ⟨N, hN⟩ := Network.chained_iff.mp hchain
  have hunits : N.KeepsUnits :=
    hN.keepsUnits (fun layer hlayer => decide_eq_false (not_lt.mpr (hkeep layer hlayer)))
  have hzero : N.AllLayers (fun L => L.lambda = 0) :=
    hN.allLayers (fun layer hlayer _ _ L hL => hL.lambda ▸ hlambda layer hlayer)
  obtain ⟨after, hstep, hheld⟩ := NeuralNetwork.step_heldBy hN rand X T hn hm hfit
  -- the derivatives of the loss on any choice of columns are columns of those on the batch
  have hcols : ∀ {c : ℕ} (f : Fin c → Fin m) (hc : 0 < c), ∃ after' : NeuralNetwork ℝ,
      nn.step rand (Grid.ofFn (Grid.cols X f)) (Grid.ofFn (Grid.cols T f)) = .ok after'
      ∧ (N.update rand (Grid.cols X f)
        (Grid.cols (nn.lossFunction.onGrid (N.forward rand X) T hfit) f)).HeldBy after'.layers := by
    intro c f hc
    obtain ⟨after', hstep', hheld'⟩ :=
      NeuralNetwork.step_heldBy hN rand (Grid.cols X f) (Grid.cols T f) hn hc (hfit.cols f)
    simp only [Network.forward_cols hunits rand rand X f] at hheld'
    rw [LossFunction.onGrid_cols nn.lossFunction _ T hfit f] at hheld'
    exact ⟨after', hstep', hheld'⟩
  choose afters hsteps hhelds using fun j : Fin m => hcols (fun _ : Fin 1 => j) one_pos
  refine ⟨after, afters, hstep, hsteps, Network.update_mean hunits hzero hm hheld hhelds,
    fun σ => ?_⟩
  obtain ⟨after', hstep', hheld'⟩ := hcols σ hm
  rw [Network.update_perm hunits hzero rand rand X _ σ] at hheld'
  exact ⟨after', hstep', hheld'.parameters_eq hheld⟩

theorem reluNetwork_step_isMean :
    ∃ (after : NeuralNetwork ℝ) (afters : Fin 2 → NeuralNetwork ℝ),
      reluNetwork.step (fun _ => 0) (Grid.ofFn fun (_ : Fin 1) (j : Fin 2) => (j : ℝ))
        (Grid.ofFn fun (_ : Fin 1) (_ : Fin 2) => 1) = .ok after
      ∧ LayersMean after.layers (fun j => (afters j).layers) := by
  obtain ⟨after, afters, hstep, -, hmean, -⟩ := step_isMean (n := 1) (p := 1) (t := 1)
    reluNetwork_chained (fun layer hlayer => (reluNetwork_layers layer hlayer).2.1.ge)
    (fun layer hlayer => (reluNetwork_layers layer hlayer).2.2)
    (fun _ => 0) (fun _ j => (j : ℝ)) (fun _ _ => 1) one_pos two_pos (le_refl 1)
  exact ⟨after, afters, hstep, hmean⟩

end NeuralNetwork
