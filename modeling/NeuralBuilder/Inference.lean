import NeuralBuilder.Draws
import NeuralBuilder.RealActivation

/-!
# Inference and training paths

`predict` and `forwardPropagation` are two implementations of the same
function: one fused loop with the scalar overload of the activation, and
products of matrices with the matrix overload. They agree layer by layer
where the two overloads do, which is for every activation but softmax,
whose scalar overload returns its argument.

`Network.predict_eq_forward` is the agreement, for any network without
softmax and without dropout. For the converse an initialiser may draw
weights that make the difference visible: zero up to the last softmax
layer, whose output is then positive at training and zero at inference, and
positive after it, where the remaining activations are strictly increasing.
-/

section Agreement

variable {α : Type} [Double α] {n k p m : ℕ}

/-- **Without softmax and dropout a layer predicts what it returns at
training.** -/
theorem DenseParams.predict_eq_forward {L : DenseParams α n k} (hdrops : L.drops = false)
    (hact : L.activation ≠ .softmax) (rand : ℕ → α) (X : Fin n → Fin m → α) :
    L.predict X = L.forward rand X := by
  rw [forward, hdrops, if_neg (by decide), act,
    ActivationFunction.onGrid_of_ne_softmax hact]
  rfl

namespace Network

/-- **Without softmax and dropout a network predicts what it returns at
training.** -/
theorem predict_eq_forward {N : Network α n p} (h : N.Plain) (rand : ℕ → α)
    (X : Fin n → Fin m → α) : N.predict X = N.forward rand X := by
  induction N generalizing rand with
  | nil => rfl
  | cons L N ih =>
    obtain ⟨hdrops, hact, hN⟩ := h
    rw [predict, forward, DenseParams.predict_eq_forward hdrops hact rand X, ih hN]

end Network

end Agreement

/-! ## Weights that show the difference -/

section Difference

variable {n k p m : ℕ}

/-- The product of two constant vectors. -/
theorem MathUtils.dot_const (c x : ℝ) : dot (fun _ : Fin n => c) (fun _ => x) = n * (c * x) := by
  rw [dot_real]
  show ∑ _i : Fin n, c * x = n * (c * x)
  simp

/-- A layer with constant weights and no bias sends a constant grid to a
constant one. -/
theorem DenseParams.preact_const {L : DenseParams ℝ n k} {c : ℝ} (hw : L.w = fun _ _ => c)
    (hb : L.b = fun _ => 0) (x : ℝ) :
    L.preact (fun (_ : Fin n) (_ : Fin m) => x) = fun _ _ => n * (c * x) := by
  funext i j
  rw [preact, hw, hb, MathUtils.dot_const, add_zero]

/-- A layer without weights has no pre-activations. -/
theorem DenseParams.preact_zero {L : DenseParams ℝ n k} (hw : L.w = fun _ _ => 0)
    (hb : L.b = fun _ => 0) (X : Fin n → Fin m → ℝ) : L.preact X = fun _ _ => 0 := by
  funext i j
  rw [preact, hw, hb, MathUtils.dot_real, add_zero]
  exact zero_dotProduct _

namespace Network

/-- **The weights are zero up to the last softmax layer and positive after
it.** -/
def Revealing : {n p : ℕ} → Network ℝ n p → Prop
  | _, _, nil => True
  | _, _, cons L N => L.drops = false ∧ L.b = (fun _ => 0)
    ∧ (L.activation = .softmax ∨ N.HasSoftmax → L.w = fun _ _ => 0)
    ∧ (¬ (L.activation = .softmax ∨ N.HasSoftmax) → ∃ c > 0, L.w = fun _ _ => c)
    ∧ N.Revealing

/-- **After the last softmax layer the difference is carried on**: a
positive constant at training and a smaller one at inference stay apart. -/
theorem Revealing.forward_ne_predict {N : Network ℝ n p} (h : N.Revealing) (hsoft : ¬ N.HasSoftmax)
    (hn : 0 < n) (hm : 0 < m) (rand : ℕ → ℝ) {f g : ℝ} (hg : 0 ≤ g) (hfg : g < f) :
    N.forward rand (fun _ (_ : Fin m) => f) ≠ N.predict (fun _ _ => g) := by
  induction N generalizing rand f g with
  | nil =>
    intro heq
    have := congrFun (congrFun heq ⟨0, hn⟩) ⟨0, hm⟩
    exact hfg.ne' this
  | @cons n k p L N ih =>
    obtain ⟨hdrops, hb, -, hpos, hN⟩ := h
    obtain ⟨c, hc, hw⟩ := hpos hsoft
    obtain ⟨hact, hN'⟩ := not_or.mp hsoft
    have hn' : (0 : ℝ) < n := by exact_mod_cast hn
    have hforward : L.forward rand (fun _ (_ : Fin m) => f)
        = fun _ _ => L.activation.activate (n * (c * f)) := by
      funext i j
      rw [← DenseParams.predict_eq_forward hdrops hact, DenseParams.predict,
        DenseParams.preact_const hw hb]
    have hpredict : L.predict (fun _ (_ : Fin m) => g)
        = fun _ _ => L.activation.activate (n * (c * g)) := by
      funext i j
      rw [DenseParams.predict, DenseParams.preact_const hw hb]
    -- equal positive weights keep apart what goes in apart
    obtain ⟨hlow, hlt⟩ := ActivationFunction.activate_lt hact
      (x := n * (c * g)) (y := n * (c * f)) (by positivity)
      (mul_lt_mul_of_pos_left (mul_lt_mul_of_pos_left hfg hc) hn')
    rw [forward, predict, hforward, hpredict]
    exact ih hN hN' L.pos _ hlow hlt

/-- **A revealing network with a softmax layer never predicts what it
returns at training.** -/
theorem Revealing.forward_ne_predict_of_hasSoftmax {N : Network ℝ n p} (h : N.Revealing)
    (hsoft : N.HasSoftmax) (hm : 0 < m) (rand : ℕ → ℝ) (X Y : Fin n → Fin m → ℝ) :
    N.forward rand X ≠ N.predict Y := by
  induction N generalizing rand with
  | nil => exact absurd hsoft id
  | @cons n k p L N ih =>
    obtain ⟨hdrops, hb, hzero, -, hN⟩ := h
    by_cases hlast : N.HasSoftmax
    · rw [forward, predict]
      exact ih hN hlast _ _ _
    · have hact : L.activation = .softmax := hsoft.resolve_right hlast
      have hpreact : ∀ Z : Fin n → Fin m → ℝ, L.preact Z = fun _ _ => 0 :=
        DenseParams.preact_zero (hzero hsoft) hb
      have hforward : L.forward rand X = fun _ _ => 1 / (k : ℝ) := by
        funext i j
        rw [DenseParams.forward, hdrops, if_neg (by decide), DenseParams.act, hact, hpreact]
        exact Softmax.column_const 0 L.pos i
      have hpredict : L.predict Y = fun _ _ => 0 := by
        funext i j
        rw [DenseParams.predict, hact, hpreact]
        rfl
      have hk : (0 : ℝ) < k := by exact_mod_cast L.pos
      rw [forward, predict, hforward, hpredict]
      exact hN.forward_ne_predict hlast L.pos hm _ le_rfl (by positivity)

end Network

end Difference

/-! ## The networks that are built -/

section Built

namespace Network

variable {n p : ℕ}

/-- What makes a network revealing, said of its objects. -/
theorem revealing_of_heldBy {N : Network ℝ n p} {layers : List (DenseLayer ℝ)}
    (h : N.HeldBy layers)
    (hlayer : ∀ layer ∈ layers, layer.keepProb = 1 ∧ layer.b = List.replicate layer.outputSize 0)
    (hzero : ∀ j (hj : j < layers.length),
      (∃ layer ∈ layers.drop j, layer.activationFunc = "softmax") →
      layers[j].w = Grid.tabulate layers[j].outputSize layers[j].inputSize fun _ _ => 0)
    (hpos : ∀ j (hj : j < layers.length),
      (¬ ∃ layer ∈ layers.drop j, layer.activationFunc = "softmax") →
      ∃ c > 0, layers[j].w = Grid.tabulate layers[j].outputSize layers[j].inputSize fun _ _ => c) :
    N.Revealing := by
  induction N generalizing layers with
  | nil => trivial
  | cons L N ih =>
    obtain ⟨layer, rest, rfl, hL, hN⟩ := h
    obtain ⟨hkeep, hb⟩ := hlayer layer List.mem_cons_self
    have hw : ∀ c : ℝ, layer.w = Grid.tabulate layer.outputSize layer.inputSize (fun _ _ => c) →
        L.w = fun _ _ => c := fun c hc => by
      rw [hL.w, hL.outputSize, hL.inputSize] at hc
      exact Grid.ofFn_injective hc
    have hsoft : (L.activation = .softmax ∨ N.HasSoftmax)
        ↔ ∃ l ∈ layer :: rest, l.activationFunc = "softmax" := by
      rw [← DenseLayer.softmax_name_iff hL, hasSoftmax_iff hN]
      simp
    refine ⟨?_, ?_, fun hs => hw 0 (hzero 0 (by simp) (hsoft.mp hs)), fun hs => ?_,
      ih hN (fun l hl => hlayer l (List.mem_cons_of_mem _ hl))
        (fun j hj => hzero (j + 1) (by simpa using hj))
        (fun j hj => hpos (j + 1) (by simpa using hj))⟩
    · rw [DenseParams.drops, ← hL.keepProb, hkeep]
      simp
    · rw [hL.b, hL.outputSize, ← List.ofFn_const] at hb
      exact List.ofFn_injective hb
    · obtain ⟨c, hc, hcw⟩ := hpos 0 (by simp) (mt hsoft.mpr hs)
      exact ⟨c, hc, hw c hcw⟩

end Network

namespace NeuralNetwork

/-- **Inference agrees with training on the object**: `predict` returns what
`forwardPropagation` does, on every rectangular input. -/
def InferenceAgrees (nn : NeuralNetwork ℝ) (inputSize : ℤ) : Prop :=
  ∀ (m : ℕ) (X : Mat ℝ) (rand : ℕ → ℝ), 1 ≤ m → Grid.IsRect inputSize.toNat m X →
    ∃ predictions nn' rand', nn.forwardPropagation rand X = .ok (predictions, nn', rand')
      ∧ nn.predict X = .ok predictions

/-- The units of the layers are all kept. -/
theorem AreRequested.keepProb {noise : ℕ → Noise ℝ} {args : HyperParameters ℝ} {next : ℕ}
    {layers : List (DenseLayer ℝ)} (h : AreRequested noise args next layers)
    (hkeep : ∀ v ∈ args.keyProbValues, v = 1) {layer : DenseLayer ℝ} (hlayer : layer ∈ layers) :
    layer.keepProb = 1 := by
  obtain ⟨j, _, _, hreq⟩ := h.exists_turn hlayer
  have hopt := hreq.keepProb
  unfold optionalAt at hopt
  split_ifs at hopt with hne
  · exact hkeep _ (List.mem_of_getElem? hopt)
  · exact (Option.some.inj hopt).symm

/-- **Without softmax, inference agrees with training** on every network
that is built. -/
theorem inferenceAgrees_of_no_softmax {noise : ℕ → Noise ℝ} {args : HyperParameters ℝ}
    {next : ℕ} {layers : List (DenseLayer ℝ)} (h : AreRequested noise args next layers)
    (hinput : 1 ≤ args.inputSize) (hsizes : ∀ size ∈ args.layerSizes, 1 ≤ size)
    (hkeep : ∀ v ∈ args.keyProbValues, v = 1)
    (hsoft : "softmax" ∉ args.layerActivations.take args.layerSizes.length)
    {nn : NeuralNetwork ℝ} (hnn : nn.layers = layers) : nn.InferenceAgrees args.inputSize := by
  intro m X rand _ hX
  obtain ⟨N, hN⟩ := Network.chained_iff.mp (h.chained hsizes).2
  obtain ⟨X, rfl⟩ := Grid.exists_ofFn hX
  have hplain : N.Plain := by
    refine Network.plain_of_heldBy hN (fun layer hlayer => ?_) (fun layer hlayer hact => ?_)
    · rw [h.keepProb hkeep hlayer]
      simp
    · obtain ⟨_, _, _, hreq⟩ := h.exists_turn hlayer
      have hname := (ActivationFactory.eq_softmax_iff hreq.activationFunction).mpr hact
      rw [← h.activations] at hsoft
      exact hsoft (List.mem_map.mpr ⟨layer, hlayer, hname⟩)
  rw [← hnn] at hN
  obtain ⟨layers', hrun, -⟩ := Network.forwardPropagation_heldBy hN rand X (by omega)
  refine ⟨Grid.ofFn (N.forward rand X), { nn with layers := layers' }, N.randAfter m rand, hrun, ?_⟩
  rw [predict, Network.predictLayers_heldBy hN X (by omega), Network.predict_eq_forward hplain rand]

/-- The draws that show the difference: zero for the layers up to the last
softmax layer, and positive for the layers after it. -/
noncomputable def revealingNoise (args : HyperParameters ℝ) (next addr : ℕ) : Noise ℝ :=
  open Classical in
  if "softmax" ∈ (args.layerActivations.take args.layerSizes.length).drop (addr - next) then
    Noise.zero
  else Noise.half

theorem revealingNoise_legal (args : HyperParameters ℝ) (next addr : ℕ) :
    (revealingNoise args next addr).Legal := by
  unfold revealingNoise
  split_ifs
  · exact Noise.zero_legal
  · exact Noise.half_legal

/-- There is memory for the network that shows it. -/
theorem hasMemory_revealingNoise (args : HyperParameters ℝ) (next : ℕ) :
    HasMemory (revealingNoise args next) next args := by
  intro j _
  unfold revealingNoise
  split_ifs
  · exact Noise.zero_allocates _ _
  · exact Noise.half_allocates _ _

/-- **With softmax, there are draws for which inference never agrees with
training.** -/
theorem revealing_of_softmax {args : HyperParameters ℝ} {next : ℕ} {layers : List (DenseLayer ℝ)}
    (h : AreRequested (revealingNoise args next) args next layers)
    (hinput : 1 ≤ args.inputSize) (hsizes : ∀ size ∈ args.layerSizes, 1 ≤ size)
    (hkeep : ∀ v ∈ args.keyProbValues, v = 1) {n p : ℕ} {N : Network ℝ n p}
    (hN : N.HeldBy layers) : N.Revealing := by
  have hinputs : ∀ j (hj : j < layers.length), 0 < layers[j].inputSize := fun j hj => by
    have hsize : 1 ≤ ((args.inputSize :: args.layerSizes).get ⟨j, by
        rw [List.length_cons, ← h.length]; omega⟩) := by
      rcases List.mem_cons.mp (List.get_mem (args.inputSize :: args.layerSizes) _) with heq | hmem
      · rw [heq]; exact hinput
      · exact hsizes _ hmem
    have := (h.layer j (h.length ▸ hj) hj).inputSize
    omega
  have hdrop : ∀ j, (∃ layer ∈ layers.drop j, layer.activationFunc = "softmax")
      ↔ "softmax" ∈ (args.layerActivations.take args.layerSizes.length).drop j := fun j => by
    rw [← h.activations, ← List.map_drop, List.mem_map]
  have hdraw : ∀ j (hj : j < layers.length), layers[j].w
      = Grid.tabulate layers[j].outputSize layers[j].inputSize
        (Initializer.draw (revealingNoise args next layers[j].addr) layers[j].activationFunc
          layers[j].inputSize layers[j].outputSize) := fun j hj =>
    (h.layer j (h.length ▸ hj) hj).w
  have haddr : ∀ j (hj : j < layers.length), layers[j].addr - next = j := fun j hj => by
    rw [(h.layer j (h.length ▸ hj) hj).addr]
    omega
  refine Network.revealing_of_heldBy hN (fun layer hlayer => ?_) (fun j hj hs => ?_)
    (fun j hj hs => ?_)
  · obtain ⟨_, _, _, hreq⟩ := h.exists_turn hlayer
    exact ⟨h.keepProb hkeep hlayer, hreq.b⟩
  · rw [hdraw, revealingNoise, haddr, if_pos ((hdrop j).mp hs),
      Initializer.draw_zero _ (hinputs j hj)]
  · obtain ⟨c, hc, hcw⟩ := Initializer.draw_half (k := layers[j].outputSize)
      layers[j].activationFunc (hinputs j hj)
    refine ⟨c, hc, ?_⟩
    rw [hdraw, revealingNoise, haddr, if_neg (mt (hdrop j).mpr hs), hcw]

/-- **Inference agrees with training exactly where no layer is a softmax
layer**: for every list of sizes of at least `1` and activations the factory
accepts, without dropout, `predict` returns what `forwardPropagation` does
on all networks `setModelHyperParameters` can build from it, if and only if
softmax is not among the activations of the layers. -/
theorem inferenceAgrees_iff {args : HyperParameters ℝ} (hbuilds : Builds args)
    (hinput : 1 ≤ args.inputSize) (hsizes : ∀ size ∈ args.layerSizes, 1 ≤ size)
    (hkeep : ∀ v ∈ args.keyProbValues, v = 1) (next : ℕ) :
    (∀ noise : ℕ → Noise ℝ, (∀ addr, (noise addr).Legal) → ∀ before nn : NeuralNetwork ℝ,
        before.setModelHyperParameters noise next args = (nn, .ok ()) →
        nn.InferenceAgrees args.inputSize)
      ↔ "softmax" ∉ args.layerActivations.take args.layerSizes.length := by
  constructor
  · intro h hsoft
    have before : NeuralNetwork ℝ := ⟨.categoricalCrossEntropy, [], [], []⟩
    obtain ⟨layers, lossFunction, hrun, hlayers, -⟩ :=
      setModelHyperParameters_ok before hbuilds (hasMemory_revealingNoise args next)
    have hagrees := h _ (revealingNoise_legal args next) before _ hrun
    obtain ⟨N, hN⟩ := Network.chained_iff.mp (hlayers.chained hsizes).2
    -- the draws reveal the last softmax layer on the input `0`
    have hreveal := revealing_of_softmax hlayers hinput hsizes hkeep hN
    have hhas : N.HasSoftmax := by
      rw [Network.hasSoftmax_iff hN, ← List.mem_map, hlayers.activations]
      exact hsoft
    let X : Fin args.inputSize.toNat → Fin 1 → ℝ := fun _ _ => 0
    obtain ⟨predictions, _, _, hforward, hpredict⟩ :=
      hagrees 1 (Grid.ofFn X) (fun _ => 0) le_rfl (Grid.isRect_ofFn X)
    obtain ⟨layers', hrun', -⟩ := Network.forwardLayers_heldBy hN (fun _ => 0) X (by omega)
    rw [predict, Network.predictLayers_heldBy hN X (by omega)] at hpredict
    rw [forwardPropagation, hrun'] at hforward
    have hout : Grid.ofFn (N.forward (fun _ => 0) X) = predictions :=
      (Prod.ext_iff.mp (Except.ok.inj hforward)).1
    have heq := Grid.ofFn_injective (hout.trans (Except.ok.inj hpredict).symm)
    exact hreveal.forward_ne_predict_of_hasSoftmax hhas one_pos _ X X heq
  · intro hsoft noise _ before nn hrun
    obtain ⟨-, hmemory⟩ := (setModelHyperParameters_ok_iff before noise next).mp ⟨nn, hrun⟩
    obtain ⟨layers, lossFunction, hrun', hlayers, -⟩ :=
      setModelHyperParameters_ok before hbuilds hmemory
    rw [hrun'] at hrun
    obtain ⟨rfl, -⟩ := Prod.mk.inj hrun
    exact inferenceAgrees_of_no_softmax hlayers hinput hsizes hkeep hsoft rfl

/-- One softmax layer of one unit on one feature. -/
def softmaxArgs : HyperParameters ℝ where
  layerSizes := [1]
  layerActivations := ["softmax"]
  lossFunc := "categorical cross entropy"
  learningRates := [1]
  keyProbValues := []
  lambdaValues := []
  inputSize := 1

/-- The layer that is built from them with draws of `0`. -/
noncomputable def softmaxLayer : DenseLayer ℝ := .unit 0 0 0 1 .softmax "softmax"

theorem pushLayers_softmaxArgs :
    pushLayers (fun _ => Noise.zero) softmaxArgs 0 softmaxArgs.layerSizes 0 softmaxArgs.inputSize
      = ([softmaxLayer], .ok ()) := by
  have hnew : newLayer (fun _ => Noise.zero) softmaxArgs 0 0 1 1 = .ok softmaxLayer :=
    newLayer_unit _ 0 0 (Noise.zero_allocates 1 1) (Initializer.draw_zero _ one_pos) rfl rfl rfl
      rfl rfl
  show pushLayers (fun _ => Noise.zero) softmaxArgs 0 [1] 0 1 = _
  rw [pushLayers, hnew]
  rfl

/-- **Inference differs on a network that is one softmax unit**: on the
input `0` it returns `1` at training and `0` at inference. -/
theorem softmax_inference_differs :
    ∃ nn : NeuralNetwork ℝ,
      (⟨.sigmoidCrossEntropy, [], [], []⟩ : NeuralNetwork ℝ).setModelHyperParameters
          (fun _ => Noise.zero) 0 softmaxArgs = (nn, .ok ())
      ∧ (∃ nn' rand', nn.forwardPropagation (fun _ => 0) [[0]] = .ok ([[1]], nn', rand'))
      ∧ nn.predict [[0]] = .ok [[0]] ∧ ¬ nn.InferenceAgrees softmaxArgs.inputSize := by
  let L : DenseParams ℝ 1 1 := .unit 0 0 1 .softmax
  let N : Network ℝ 1 1 := .cons L .nil
  let X : Fin 1 → Fin 1 → ℝ := fun _ _ => 0
  have hN : N.HeldBy [softmaxLayer] :=
    ⟨softmaxLayer, [], rfl, DenseLayer.unit_holds 0 0 0 1 _ _ rfl, rfl⟩
  obtain ⟨layers, hrun, -⟩ := Network.forwardLayers_heldBy hN (fun _ => 0) X one_pos
  have hdrops : L.drops = false := DenseParams.unit_drops _ _ _ _
  have hpreact : L.preact X = fun _ _ => 0 := DenseParams.preact_zero rfl rfl X
  have hforward : N.forward (fun _ => 0) X = fun _ _ => 1 := by
    funext i j
    show L.forward (fun _ => 0) X i j = 1
    rw [DenseParams.forward, hdrops, if_neg (by decide), DenseParams.act, hpreact]
    exact (Softmax.column_const 0 one_pos i).trans (by norm_num)
  have hpredict : predictLayers [softmaxLayer] [[0]] = .ok [[0]] := by
    refine (Network.predictLayers_heldBy hN X one_pos).trans ?_
    show Except.ok (Grid.ofFn (L.predict X)) = .ok [[0]]
    rw [show L.predict X = fun _ _ => 0 from by
      funext i j; rw [DenseParams.predict, hpreact]; rfl]
    rfl
  have hrun' : forwardLayers [softmaxLayer] (fun _ => 0) [[0]]
      = .ok ([[1]], layers, N.randAfter 1 fun _ => 0) := by
    refine hrun.trans ?_
    rw [hforward]
    rfl
  refine ⟨⟨.categoricalCrossEntropy, [softmaxLayer], [], []⟩, ?_,
    ⟨⟨.categoricalCrossEntropy, layers, [], []⟩, N.randAfter 1 fun _ => 0, ?_⟩, hpredict, ?_⟩
  · rw [setModelHyperParameters, pushLayers_softmaxArgs]
    rfl
  · rw [forwardPropagation, hrun']
    rfl
  · intro hagrees
    obtain ⟨predictions, nn', rand', hf, hp⟩ :=
      hagrees 1 [[0]] (fun _ => 0) le_rfl ⟨rfl, by simp⟩
    rw [forwardPropagation, hrun'] at hf
    rw [predict, hpredict] at hp
    have htrain : [[(1 : ℝ)]] = predictions := (Prod.ext_iff.mp (Except.ok.inj hf)).1
    have hinfer : [[(0 : ℝ)]] = predictions := Except.ok.inj hp
    simpa using htrain.trans hinfer.symm

theorem softmaxArgs_inferenceAgrees_iff :
    (∀ noise : ℕ → Noise ℝ, (∀ addr, (noise addr).Legal) → ∀ before nn : NeuralNetwork ℝ,
        before.setModelHyperParameters noise 0 softmaxArgs = (nn, .ok ()) →
        nn.InferenceAgrees softmaxArgs.inputSize)
      ↔ "softmax" ∉ softmaxArgs.layerActivations.take softmaxArgs.layerSizes.length :=
  inferenceAgrees_iff
    { turns := fun j hj => by
        obtain rfl : j = 0 := Nat.lt_one_iff.mp hj
        exact ⟨⟨⟨one_pos, one_pos, by simp [softmaxArgs], by simp [softmaxArgs]⟩,
            Or.inr (show (-2 ^ 31 : ℤ) ≤ 1 + 1 ∧ (1 + 1 : ℤ) < 2 ^ 31 by decide)⟩,
          show (0 : ℤ) ≤ 1 by decide, show (0 : ℤ) ≤ 1 by decide, .softmax, rfl⟩
      loss := ⟨.categoricalCrossEntropy, rfl⟩ }
    (by decide) (by decide) (fun v hv => absurd hv (by simp [softmaxArgs])) 0

end NeuralNetwork

end Built
