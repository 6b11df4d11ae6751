import NeuralBuilder.Backpropagation
import NeuralBuilder.Training

/-!
# The fused forward pass

`forwardOpt` computes in one loop what `forward` computes with three calls of
`MathUtils`: the sums are taken in the same order, the bias is added last, and
the activation is applied entry by entry. For the activations that are
functions of one number the two fill the same caches, and a training run that
goes through with one is, pass by pass, the run with the other.

`forwardOpt` does not draw a mask, and it applies the activation to one number,
so that neither dropout nor softmax has a place in it (`Fusable`). What is
related are two runs in step: the same predictions and the same caches at every
mini-batch, whatever the arithmetic. Since `backward` reads the caches, the
objects are equal after it as well, and so on to the end of the call
(`train_forwardPropagationOpt`).
-/

variable {α : Type} [Double α]

/-! ## One layer -/

namespace DenseLayer

variable {n k : ℕ}

/-- **An object whose passes can be fused**: it is well shaped, keeps all its
units, and its activation is a function of one number. -/
structure Fusable (layer : DenseLayer α) : Prop where
  /-- Its weights and biases have the shape its sizes say. -/
  shape : layer.WellShaped
  /-- `forwardOpt` draws no mask. -/
  keep : Double.lt layer.keepProb 1 = false
  /-- Softmax needs a whole column at once. -/
  act : layer.activationFunction ≠ .softmax

/-- **`forwardOpt` does what `forward` does**, wherever `forward` returns. -/
theorem forwardOpt_of_forward {layer layer' : DenseLayer α} (h : layer.Fusable) {rand rand' : ℕ → α}
    {input a : Mat α} (hrun : layer.forward rand input = .ok (a, layer', rand')) :
    layer.forwardOpt input = .ok (a, layer') ∧ rand' = rand ∧ layer'.Fusable := by
  obtain ⟨L, hL⟩ := h.shape.exists_holds
  unfold forward at hrun
  obtain ⟨front, hfront, hrun⟩ := (Checked.bind_eq_ok_iff _ _ _).mp hrun
  obtain ⟨product, hproduct, hrun⟩ := (Checked.bind_eq_ok_iff _ _ _).mp hrun
  obtain ⟨z, hz, hrun⟩ := (Checked.bind_eq_ok_iff _ _ _).mp hrun
  obtain ⟨activations, ha, hrun⟩ := (Checked.bind_eq_ok_iff _ _ _).mp hrun
  rw [if_neg (by rw [h.keep]; exact Bool.false_ne_true)] at hrun
  cases hrun
  -- the product has read everything that the fused loop reads
  rw [MathUtils.dotProduct, hL.w, Vec.at_row_zero L.w L.pos, Checked.ok_bind] at hproduct
  split at hproduct
  · cases hproduct
  rw [hfront, Checked.ok_bind, Grid.length_ofFn, List.length_ofFn] at hproduct
  obtain ⟨sums, rfl, hsums⟩ := Grid.exists_of_fill_ok hproduct
  rw [hL.b, MathUtils.elementWiseSumRows, MathUtils.zipRows_ofFn _ _ _ _ L.pos] at hz
  obtain rfl := Except.ok.inj hz
  rw [ActivationFunction.activateMat_ofFn _ _ L.pos,
    ActivationFunction.onGrid_of_ne_softmax h.act] at ha
  obtain rfl := Except.ok.inj ha
  refine ⟨?_, rfl, ⟨⟨h.shape.pos, h.shape.w, h.shape.b, h.shape.activation⟩, h.keep, h.act⟩⟩
  rw [forwardOpt, hfront, Checked.ok_bind]
  dsimp only
  rw [Grid.fill_ok (g := fun i j => (sums i j + L.b i,
    layer.activationFunction.activate (sums i j + L.b i))), Checked.ok_bind, Grid.map_ofFn,
    Grid.map_ofFn]
  · rfl
  · intro i j
    rw [hL.w, hsums, Checked.ok_bind, hL.b, Vec.at_ofFn, Checked.ok_bind]
    rfl

end DenseLayer

namespace MathUtils

omit [Double α] in
/-- An entrywise operation on two matrices returns the shape of the first. -/
theorem isRect_of_zipMat {r c : ℕ} {op : α → α → α} {what : String} {A B C : Mat α}
    (hA : Grid.IsRect r c A) (hr : 0 < r) (h : zipMat op what A B = .ok C) :
    Grid.IsRect r c C := by
  obtain ⟨a, rfl⟩ := Grid.exists_ofFn hA
  unfold zipMat at h
  split at h
  · cases h
  rw [Vec.at_row_zero a hr, Checked.ok_bind] at h
  obtain ⟨front, -, h⟩ := (Checked.bind_eq_ok_iff _ _ _).mp h
  split at h
  · cases h
  rw [Grid.length_ofFn, List.length_ofFn] at h
  obtain ⟨C, rfl, -⟩ := Grid.exists_of_fill_ok h
  exact Grid.isRect_ofFn C

omit [Double α] in
/-- And on two vectors the length. -/
theorem length_of_zipVec {op : α → α → α} {what : String} {u v w : Vec α}
    (h : zipVec op what u v = .ok w) : w.length = u.length := by
  unfold zipVec at h
  split at h
  · cases h
  · obtain ⟨g, rfl, -⟩ := Checked.exists_of_fill_ok h
    exact List.length_ofFn

end MathUtils

namespace DenseLayer

/-- The decay of the weights keeps their shape. -/
theorem isRect_decayed {layer : DenseLayer α} (h : layer.WellShaped) (m : ℕ) :
    Grid.IsRect layer.outputSize layer.inputSize
      (if Double.eq layer.lambda 0 then layer.w
        else L2Regularizer.apply layer.w layer.lambda m) := by
  split
  · exact h.w
  · obtain ⟨w, hw⟩ := Grid.exists_ofFn h.w
    rw [hw, L2Regularizer.apply, Grid.map_ofFn]
    exact Grid.isRect_ofFn _

/-- `backward` keeps an object fusable. -/
theorem Fusable.backward {layer layer' : DenseLayer α} (h : layer.Fusable) {da da' : Mat α}
    (hrun : layer.backward da = .ok (da', layer')) : layer'.Fusable := by
  simp only [DenseLayer.backward, Checked.bind_eq_ok_iff] at hrun
  obtain ⟨_, -, _, -, _, -, _, -, _, -, _, -, _, -, _, -, _, -, _, -, _, -, w, hw, _, -, b, hb,
    hreturn⟩ := hrun
  obtain ⟨-, rfl⟩ := Prod.mk.inj (Except.ok.inj hreturn)
  refine ⟨⟨h.shape.pos, ?_, ?_, h.shape.activation⟩, h.keep, h.act⟩
  · exact MathUtils.isRect_of_zipMat (isRect_decayed h.shape _) h.shape.pos hw
  · exact (MathUtils.length_of_zipVec hb).trans h.shape.b

end DenseLayer

namespace NeuralNetwork

/-! ## All the layers -/

/-- Every layer of the object is fusable. -/
def Fusable (nn : NeuralNetwork α) : Prop :=
  ∀ layer ∈ nn.layers, layer.Fusable

theorem forwardLayersOpt_of_forwardLayers {layers layers' : List (DenseLayer α)}
    (h : ∀ layer ∈ layers, layer.Fusable) {rand rand' : ℕ → α} {input predictions : Mat α}
    (hrun : forwardLayers layers rand input = .ok (predictions, layers', rand')) :
    forwardLayersOpt layers input = .ok (predictions, layers') ∧ rand' = rand
      ∧ ∀ layer ∈ layers', layer.Fusable := by
  induction layers generalizing rand input layers' with
  | nil =>
    cases hrun
    exact ⟨rfl, rfl, h⟩
  | cons layer layers ih =>
    simp only [forwardLayers, Checked.bind_eq_ok_iff] at hrun
    obtain ⟨⟨a, layer₁, rand₁⟩, hlayer, ⟨predictions₁, layers₁, rand₂⟩, hrest, hreturn⟩ := hrun
    cases hreturn
    obtain ⟨hopt, rfl, hfusable⟩ :=
      DenseLayer.forwardOpt_of_forward (h layer List.mem_cons_self) hlayer
    obtain ⟨hopts, rfl, hfusables⟩ := ih (fun l hl => h l (List.mem_cons_of_mem _ hl)) hrest
    refine ⟨?_, rfl, ?_⟩
    · rw [forwardLayersOpt, hopt, Checked.ok_bind]
      dsimp only
      rw [hopts, Checked.ok_bind]
      rfl
    · intro l hl
      rcases List.mem_cons.mp hl with rfl | hl
      · exact hfusable
      · exact hfusables l hl

theorem fusable_backwardLayers {layers layers' : List (DenseLayer α)}
    (h : ∀ layer ∈ layers, layer.Fusable) {da da' : Mat α}
    (hrun : backwardLayers layers da = .ok (da', layers')) : ∀ layer ∈ layers', layer.Fusable := by
  induction layers generalizing da' layers' with
  | nil =>
    cases hrun
    exact h
  | cons layer layers ih =>
    simp only [backwardLayers, Checked.bind_eq_ok_iff] at hrun
    obtain ⟨⟨da₁, layers₁⟩, hrest, ⟨da₂, layer₂⟩, hlayer, hreturn⟩ := hrun
    cases hreturn
    intro l hl
    rcases List.mem_cons.mp hl with rfl | hl
    · exact (h layer List.mem_cons_self).backward hlayer
    · exact ih (fun l hl => h l (List.mem_cons_of_mem _ hl)) hrest l hl

/-- **The fused pass over the layers does what the plain one does**, wherever
that one returns. -/
theorem forwardPropagationOpt_of_forwardPropagation {nn nn' : NeuralNetwork α} (h : nn.Fusable)
    {rand rand' : ℕ → α} {input predictions : Mat α}
    (hrun : nn.forwardPropagation rand input = .ok (predictions, nn', rand')) :
    nn.forwardPropagationOpt rand input = .ok (predictions, nn', rand') ∧ nn'.Fusable := by
  simp only [forwardPropagation, Checked.bind_eq_ok_iff] at hrun
  obtain ⟨⟨predictions₁, layers, rand₁⟩, hlayers, hreturn⟩ := hrun
  cases hreturn
  obtain ⟨hopt, rfl, hfusable⟩ := forwardLayersOpt_of_forwardLayers h hlayers
  refine ⟨?_, hfusable⟩
  rw [forwardPropagationOpt, hopt, Checked.ok_bind]
  rfl

theorem Fusable.backwardPropagation {nn nn' : NeuralNetwork α} (h : nn.Fusable) {da da' : Mat α}
    (hrun : nn.backwardPropagation da = .ok (da', nn')) : nn'.Fusable := by
  simp only [NeuralNetwork.backwardPropagation, Checked.bind_eq_ok_iff] at hrun
  obtain ⟨⟨da₁, layers⟩, hlayers, hreturn⟩ := hrun
  cases hreturn
  exact fusable_backwardLayers h hlayers

/-! ## Training with either pass -/

/-- A pass over a mini-batch as the way back finds it: the predictions, and
the caches `z`, `a` and `aPrev` of every layer. -/
structure Pass (α : Type) where
  /-- What the last layer returned. -/
  predictions : Mat α
  /-- `z`, `a` and `aPrev`, layer by layer. -/
  caches : List (Mat α × Mat α × Mat α)

/-- What takes the place of `forwardPropagation`. -/
abbrev Forward (α : Type) :=
  NeuralNetwork α → (ℕ → α) → Mat α → Except Fault (Mat α × NeuralNetwork α × (ℕ → α))

/-- `trainBatch` with the forward pass as a parameter, and with the passes
made so far. -/
def trainBatchBy (forwardPropagation : Forward α) (s : Training α × List (Pass α))
    (batch : Mat α × Mat α) : Except Fault (Training α × List (Pass α)) := do
  let _miniBatchSize := (← Vec.at batch.2 0).length
  let (predictions, nn, rand) ← forwardPropagation s.1.nn s.1.rand batch.1
  let pass : Pass α := ⟨predictions, nn.layers.map fun layer => (layer.z, layer.a, layer.aPrev)⟩
  let accuracy ← ModelEvaluator.accuracy predictions batch.2 nn.lossFunction
  let cost ← nn.lossFunction.calculateLoss predictions batch.2
  let da ← nn.lossFunction.derivative predictions batch.2
  let (_, nn) ← nn.backwardPropagation da
  let accuracyRate := s.1.accuracyRate + accuracy
  let costValue := s.1.costValue + cost
  return ({ accuracyRate, costValue, nn, rand }, s.2 ++ [pass])

/-- `trainEpoch` with the forward pass as a parameter. -/
def trainEpochBy (forwardPropagation : Forward α) (batches : List (Mat α × Mat α))
    (s : Training α × List (Pass α)) : Except Fault (Training α × List (Pass α)) := do
  let s ← batches.foldlM (trainBatchBy forwardPropagation)
    ({ s.1 with accuracyRate := 0, costValue := 0 }, s.2)
  return ({ s.1 with
    accuracyRate := s.1.accuracyRate / (batches.length : α)
    costValue := s.1.costValue / (batches.length : α) }, s.2)

/-- `trainEpochs` with the forward pass as a parameter. -/
def trainEpochsBy {Conn : Type} (forwardPropagation : Forward α) (ws_conn : Option Conn)
    (batches : List (Mat α × Mat α)) (epochNum : ℕ) (s : Training α) :
    Except Fault ((Training α × List (Pass α)) × List (Conn × Progress α)) :=
  Checked.loop epochNum (fun s epoch => do
    let t ← trainEpochBy forwardPropagation batches s.1
    return (t, s.2 ++ ws_conn.toList.map (·, ⟨epoch + 1, t.1.costValue, t.1.accuracyRate⟩)))
    ((s, []), [])

/-- `train` with the forward pass as a parameter. Returns the passes as
well. -/
def trainBy {Conn : Type} (forwardPropagation : Forward α) (fuel : ℕ) (nn : NeuralNetwork α)
    (rand : ℕ → α) (inputLayer targets : Mat α) (epochNum miniBatchSize : ℤ)
    (ws_conn : Option Conn) :
    Except Fault ((α × NeuralNetwork α × (ℕ → α) × List (Conn × Progress α)) × List (Pass α)) := do
  let (inputNormalized, nn) ← nn.normalizeTraining inputLayer
  let batches ← miniBatchGenerator fuel targets inputNormalized miniBatchSize
  let (s, sent) ← trainEpochsBy forwardPropagation ws_conn batches epochNum.toNat
    { accuracyRate := 0, costValue := 0, nn, rand }
  return ((s.1.accuracyRate, s.1.nn, s.1.rand, sent), s.2)

theorem trainBatchBy_of_trainBatch {batch : Mat α × Mat α} {s s' : Training α}
    {t : Training α × List (Pass α)} (ht : t.1 = s) (h : trainBatch s batch = .ok s') :
    ∃ t', trainBatchBy forwardPropagation t batch = .ok t' ∧ t'.1 = s' := by
  subst ht
  simp only [trainBatch, Checked.bind_eq_ok_iff] at h
  obtain ⟨row, hrow, ⟨predictions, nn, rand⟩, hforward, accuracy, haccuracy, cost, hcost, da, hda,
    ⟨da', nn'⟩, hbackward, hreturn⟩ := h
  cases hreturn
  rw [trainBatchBy, hrow, Checked.ok_bind, hforward, Checked.ok_bind]
  dsimp only
  rw [haccuracy, Checked.ok_bind, hcost, Checked.ok_bind, hda, Checked.ok_bind, hbackward]
  exact ⟨_, rfl, rfl⟩

theorem trainEpochBy_of_trainEpoch {batches : List (Mat α × Mat α)} {s s' : Training α}
    {t : Training α × List (Pass α)} (ht : t.1 = s) (h : trainEpoch batches s = .ok s') :
    ∃ t', trainEpochBy forwardPropagation batches t = .ok t' ∧ t'.1 = s' := by
  subst ht
  obtain ⟨r, hr, hreturn⟩ := (Checked.bind_eq_ok_iff _ _ _).mp h
  cases hreturn
  obtain ⟨r', hr', hfst⟩ := Checked.foldlM_simulates
    (g := trainBatchBy forwardPropagation)
    (c := ({ t.1 with accuracyRate := 0, costValue := 0 }, t.2))
    (fun s (t : Training α × List (Pass α)) => t.1 = s)
    (fun batch s t s' ht hs => trainBatchBy_of_trainBatch ht hs) rfl hr
  subst hfst
  rw [trainEpochBy, hr', Checked.ok_bind]
  exact ⟨_, rfl, rfl⟩

/-- **`train` is training with `forwardPropagation`.** -/
theorem trainBy_of_train {Conn : Type} {fuel : ℕ} {nn : NeuralNetwork α} {rand : ℕ → α}
    {inputLayer targets : Mat α} {epochNum miniBatchSize : ℤ} {ws_conn : Option Conn}
    {result : α × NeuralNetwork α × (ℕ → α) × List (Conn × Progress α)}
    (h : train fuel nn rand inputLayer targets epochNum miniBatchSize ws_conn = .ok result) :
    ∃ passes, trainBy forwardPropagation fuel nn rand inputLayer targets epochNum miniBatchSize
      ws_conn = .ok (result, passes) := by
  simp only [train, trainEpochs, Checked.bind_eq_ok_iff] at h
  obtain ⟨⟨inputNormalized, nn'⟩, hnorm, batches, hgen, ⟨s, sent⟩, hrun, hreturn⟩ := h
  cases hreturn
  obtain ⟨⟨⟨t, passes⟩, sent'⟩, hrun', hfst⟩ := Checked.loop_simulates
    (c := ((({ accuracyRate := 0, costValue := 0, nn := nn', rand } : Training α),
      ([] : List (Pass α))), ([] : List (Conn × Progress α))))
    (g := fun s epoch => do
      let t ← trainEpochBy forwardPropagation batches s.1
      return (t, s.2 ++ ws_conn.toList.map (·, ⟨epoch + 1, t.1.costValue, t.1.accuracyRate⟩)))
    (fun (s : Training α × List (Conn × Progress α)) t => t.1.1 = s.1 ∧ t.2 = s.2)
    (fun epoch s t s' ht hs => by
      obtain ⟨r, hr, hreturn⟩ := (Checked.bind_eq_ok_iff _ _ _).mp hs
      cases hreturn
      obtain ⟨r', hr', rfl⟩ := trainEpochBy_of_trainEpoch ht.1 hr
      rw [hr', Checked.ok_bind, ht.2]
      exact ⟨_, rfl, rfl, rfl⟩)
    ⟨rfl, rfl⟩ hrun
  obtain ⟨rfl, rfl⟩ := hfst
  refine ⟨passes, ?_⟩
  rw [trainBy, hnorm, Checked.ok_bind]
  dsimp only
  rw [hgen, Checked.ok_bind, trainEpochsBy, hrun', Checked.ok_bind]
  rfl

/-! ## The two runs -/

/-- What the two runs keep: they are in the same state, and every layer in it
can be fused. -/
def InStep (s t : Training α × List (Pass α)) : Prop :=
  s.1.nn.Fusable ∧ t = s

/-- **A batch keeps the two runs in step.** -/
theorem trainBatchBy_inStep {batch : Mat α × Mat α} {s t s' : Training α × List (Pass α)}
    (hst : InStep s t) (h : trainBatchBy forwardPropagation s batch = .ok s') :
    ∃ t', trainBatchBy forwardPropagationOpt t batch = .ok t' ∧ InStep s' t' := by
  obtain ⟨hs, rfl⟩ := hst
  simp only [trainBatchBy, Checked.bind_eq_ok_iff] at h
  obtain ⟨row, hrow, ⟨predictions, nn, rand⟩, hforward, accuracy, haccuracy, cost, hcost, da, hda,
    ⟨da', nn'⟩, hbackward, hreturn⟩ := h
  cases hreturn
  obtain ⟨hopt, hnn⟩ := forwardPropagationOpt_of_forwardPropagation hs hforward
  rw [trainBatchBy, hrow, Checked.ok_bind, hopt, Checked.ok_bind]
  dsimp only
  rw [haccuracy, Checked.ok_bind, hcost, Checked.ok_bind, hda, Checked.ok_bind, hbackward]
  exact ⟨_, rfl, hnn.backwardPropagation hbackward, rfl⟩

/-- **So does an epoch.** -/
theorem trainEpochBy_inStep {batches : List (Mat α × Mat α)} {s t s' : Training α × List (Pass α)}
    (hst : InStep s t) (h : trainEpochBy forwardPropagation batches s = .ok s') :
    ∃ t', trainEpochBy forwardPropagationOpt batches t = .ok t' ∧ InStep s' t' := by
  obtain ⟨hs, rfl⟩ := hst
  obtain ⟨r, hr, hreturn⟩ := (Checked.bind_eq_ok_iff _ _ _).mp h
  cases hreturn
  obtain ⟨r', hr', hnn, rfl⟩ := Checked.foldlM_simulates
    (g := trainBatchBy forwardPropagationOpt)
    (c := ({ t.1 with accuracyRate := 0, costValue := 0 }, t.2)) InStep
    (fun batch s t s' hst hs => trainBatchBy_inStep hst hs) (by exact ⟨hs, rfl⟩) hr
  rw [trainEpochBy, hr', Checked.ok_bind]
  exact ⟨_, rfl, hnn, rfl⟩

/-- **And the loop over the epochs.** -/
theorem trainEpochsBy_inStep {Conn : Type} {ws_conn : Option Conn}
    {batches : List (Mat α × Mat α)} {epochNum : ℕ} {s : Training α} (hs : s.nn.Fusable)
    {result : (Training α × List (Pass α)) × List (Conn × Progress α)}
    (h : trainEpochsBy forwardPropagation ws_conn batches epochNum s = .ok result) :
    trainEpochsBy forwardPropagationOpt ws_conn batches epochNum s = .ok result := by
  obtain ⟨result', hrun, -, rfl⟩ := Checked.loop_simulates
    (g := fun s epoch => do
      let t ← trainEpochBy forwardPropagationOpt batches s.1
      return (t, s.2 ++ ws_conn.toList.map (·, ⟨epoch + 1, t.1.costValue, t.1.accuracyRate⟩)))
    (fun (s t : (Training α × List (Pass α)) × List (Conn × Progress α)) =>
      s.1.1.nn.Fusable ∧ t = s)
    (fun epoch s t s' hst hstep => by
      obtain ⟨hnn, rfl⟩ := hst
      obtain ⟨r, hr, hreturn⟩ := (Checked.bind_eq_ok_iff _ _ _).mp hstep
      cases hreturn
      obtain ⟨r', hr', hnn', rfl⟩ := trainEpochBy_inStep ⟨hnn, rfl⟩ hr
      rw [hr', Checked.ok_bind]
      exact ⟨_, rfl, hnn', rfl⟩)
    (show ((s, []), []).1.1.nn.Fusable ∧ _ from ⟨hs, rfl⟩) h
  exact hrun

/-- Measuring a data set leaves the layers alone. -/
theorem normalizeTraining_layers {nn nn' : NeuralNetwork α} {input inputNormalized : Mat α}
    (h : nn.normalizeTraining input = .ok (inputNormalized, nn')) : nn'.layers = nn.layers := by
  obtain ⟨row, -, hreturn⟩ := (Checked.bind_eq_ok_iff _ _ _).mp h
  cases hreturn
  rfl

/-- **A call with the plain pass is a call with the fused one.** -/
theorem trainBy_forwardPropagationOpt {Conn : Type} {fuel : ℕ} {nn : NeuralNetwork α}
    (hnn : nn.Fusable) {rand : ℕ → α} {inputLayer targets : Mat α} {epochNum miniBatchSize : ℤ}
    {ws_conn : Option Conn}
    {result : (α × NeuralNetwork α × (ℕ → α) × List (Conn × Progress α)) × List (Pass α)}
    (h : trainBy forwardPropagation fuel nn rand inputLayer targets epochNum miniBatchSize ws_conn
      = .ok result) :
    trainBy forwardPropagationOpt fuel nn rand inputLayer targets epochNum miniBatchSize ws_conn
      = .ok result := by
  simp only [trainBy, Checked.bind_eq_ok_iff] at h
  obtain ⟨⟨inputNormalized, nn'⟩, hnorm, batches, hgen, ⟨s, sent⟩, hrun, hreturn⟩ := h
  have hnn' : nn'.Fusable := by
    unfold Fusable
    rw [normalizeTraining_layers hnorm]
    exact hnn
  rw [trainBy, hnorm, Checked.ok_bind]
  dsimp only
  rw [hgen, Checked.ok_bind, trainEpochsBy_inStep (by exact hnn') hrun, Checked.ok_bind]
  exact hreturn

/-- A network whose sizes match, that keeps its units and has no softmax
layer, can be fused. -/
theorem fusable_of_chained {n p : ℕ} {nn : NeuralNetwork α} (hchain : Chained n nn.layers p)
    (hkeep : ∀ layer ∈ nn.layers, Double.lt layer.keepProb 1 = false)
    (hact : ∀ layer ∈ nn.layers, layer.activationFunction ≠ .softmax) : nn.Fusable := by
  intro layer hlayer
  refine ⟨?_, hkeep layer hlayer, hact layer hlayer⟩
  clear hkeep hact
  revert hchain hlayer
  generalize nn.layers = layers
  intro hchain hlayer
  induction layers generalizing n with
  | nil => cases hlayer
  | cons first layers ih =>
    rcases List.mem_cons.mp hlayer with rfl | hlayer
    · exact hchain.1
    · exact ih hchain.2.2 hlayer

/-- **The fused forward pass refines the plain one over whole training
runs.** A call of `train` that returns, returns the same with
`forwardPropagationOpt` in the place of `forwardPropagation`, and pass by
pass the predictions and the caches `z`, `a` and `aPrev` of every layer are
the same; and on data that fits the network every call returns. -/
theorem train_forwardPropagationOpt {Conn : Type} {n p : ℕ} {nn : NeuralNetwork α}
    (hchain : Chained n nn.layers p)
    (hkeep : ∀ layer ∈ nn.layers, Double.lt layer.keepProb 1 = false)
    (hact : ∀ layer ∈ nn.layers, layer.activationFunction ≠ .softmax) :
    (∀ (fuel : ℕ) (rand : ℕ → α) (inputLayer targets : Mat α) (epochNum miniBatchSize : ℤ)
      (ws_conn : Option Conn)
      (result : α × NeuralNetwork α × (ℕ → α) × List (Conn × Progress α)),
      train fuel nn rand inputLayer targets epochNum miniBatchSize ws_conn = .ok result →
      ∃ passes,
        trainBy forwardPropagation fuel nn rand inputLayer targets epochNum miniBatchSize ws_conn
          = .ok (result, passes)
        ∧ trainBy forwardPropagationOpt fuel nn rand inputLayer targets epochNum miniBatchSize
          ws_conn = .ok (result, passes))
    ∧ ∀ (m t : ℕ) (X : Fin n → Fin m → α) (T : Fin t → Fin m → α), 0 < n → 0 < m → 0 < t →
      nn.lossFunction.Fits p T → ∀ (fuel : ℕ) (rand : ℕ → α) (epochNum miniBatchSize : ℤ)
      (ws_conn : Option Conn), m ≤ fuel → 1 ≤ miniBatchSize → ∃ result,
        train fuel nn rand (Grid.ofFn X) (Grid.ofFn T) epochNum miniBatchSize ws_conn
          = .ok result := by
  constructor
  · intro fuel rand inputLayer targets epochNum miniBatchSize ws_conn result hrun
    obtain ⟨passes, hpasses⟩ := trainBy_of_train hrun
    exact ⟨passes, hpasses,
      trainBy_forwardPropagationOpt (fusable_of_chained hchain hkeep hact) hpasses⟩
  · intro m t X T hn hm ht hfit fuel rand epochNum miniBatchSize ws_conn hfuel hsize
    obtain ⟨N, hN⟩ := Network.chained_iff.mp hchain
    obtain ⟨accuracy, nn', rand', sent, hrun, -⟩ := train_ok ⟨⟨N, hN, rfl⟩, rfl⟩ rand X T hn hm ht
      hfit epochNum hsize ws_conn hfuel
    exact ⟨_, hrun⟩

theorem reluNetwork_forwardPropagationOpt :
    ∃ result passes,
      train 2 reluNetwork (fun _ => 0) [[1, 2]] [[0, 1]] 3 1 (none : Option Unit) = .ok result
      ∧ trainBy forwardPropagationOpt 2 reluNetwork (fun _ => 0) [[1, 2]] [[0, 1]] 3 1
        (none : Option Unit) = .ok (result, passes) := by
  obtain ⟨hsame, hreturns⟩ := @train_forwardPropagationOpt ℝ _ Unit 1 1 reluNetwork
    reluNetwork_chained
    (fun layer hlayer => decide_eq_false (reluNetwork_layers layer hlayer).2.1.not_lt)
    (fun layer hlayer => (reluNetwork_layers layer hlayer).1)
  obtain ⟨result, hrun⟩ := hreturns 2 1 (fun _ j => if j = 0 then 1 else 2)
    (fun _ j => if j = 0 then 0 else 1) one_pos two_pos one_pos (le_refl 1) 2 (fun _ => 0) 3 1 none
    (le_refl 2) (le_refl 1)
  obtain ⟨passes, -, hopt⟩ := hsame _ _ _ _ _ _ _ _ hrun
  exact ⟨result, passes, hrun, hopt⟩

end NeuralNetwork
