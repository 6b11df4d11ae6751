import NeuralBuilder.Inference
import NeuralBuilder.MiniBatches
import NeuralBuilder.Resume
import NeuralBuilder.TrainingStep

/-!
# The cost `trainVal` returns

`trainVal` predicts the validation set at the start of each epoch and goes
through the mini-batches after that. The updates it makes are those of `train`,
and the cost it returns is that of the network as it stood when the last epoch
began (`trainVal_returns`): the one it leaves behind is ahead of it by the
updates of that epoch (`trainVal_before_last_epoch`).

The state of the loop is that of `train` with a cost beside it, and the cost
that a turn computes is thrown away by the next one. So the induction is over
the epochs but the last, on which `trainVal` and `train` do the same to the
network. The validation set is normalised with the statistics that `normalize`
has appended by then, which are those of the training set if there were none
before.
-/

variable {α : Type} [Double α]

/-- An update keeps what makes a network plain. -/
theorem Network.plain_update {n p m : ℕ} {N : Network α n p} (h : N.Plain) (rand : ℕ → α)
    (X : Fin n → Fin m → α) (da : Fin p → Fin m → α) : (N.update rand X da).Plain := by
  induction N generalizing rand with
  | nil => trivial
  | cons L N ih => exact ⟨h.1, h.2.1, ih h.2.2 _ _ _⟩

namespace NeuralNetwork

variable {n p t m tVal mVal : ℕ} {lossFunction : LossFunction} {plain : Prop}

/-! ## The updates of `train` -/

/-- **What training keeps**: the objects hold a network of the given sizes, a
plain one if it was, and the loss object is the given one. -/
structure KeepsLayers (n p : ℕ) (plain : Prop) (lossFunction : LossFunction)
    (nn : NeuralNetwork α) : Prop where
  /-- The layers hold a network, a plain one if it was. -/
  network : ∃ N : Network α n p, N.HeldBy nn.layers ∧ (plain → N.Plain)
  /-- The loss does not change. -/
  lossFunction : nn.lossFunction = lossFunction

theorem trainBatch_keeps {s : Training α} (h : KeepsLayers n p plain lossFunction s.nn) (hn : 0 < n)
    {batch : Mat α × Mat α} (hbatch : GoodBatch n p lossFunction batch) :
    ∃ s', trainBatch s batch = .ok s' ∧ KeepsLayers n p plain lossFunction s'.nn := by
  obtain ⟨⟨N, hN, hplain⟩, hloss⟩ := h
  obtain ⟨s', c, X, da, hrun, hheld, hloss'⟩ := exists_trainBatch hN hloss hn hbatch
  exact ⟨s', hrun, ⟨_, hheld, fun h => Network.plain_update (hplain h) _ _ _⟩, hloss'⟩

/-- **A batch of `trainVal`** makes the update that one of `train` makes. -/
theorem trainValBatch_of_trainBatch {s s' : Training α} {batch : Mat α × Mat α}
    (h : trainBatch s batch = .ok s') {predictionsVal targetsVal : Mat α} {accuracy cost : α}
    (haccuracy : ModelEvaluator.accuracy predictionsVal targetsVal s.nn.lossFunction
      = .ok accuracy)
    (hcost : s.nn.lossFunction.calculateLoss predictionsVal targetsVal = .ok cost)
    (costVal : Option α) :
    trainValBatch predictionsVal targetsVal (costVal, s.nn, s.rand) batch
      = .ok (some cost, s'.nn, s'.rand) := by
  unfold trainBatch at h
  obtain ⟨_, -, h⟩ := (Checked.bind_eq_ok_iff _ _ _).mp h
  obtain ⟨⟨predictions, nn₁, rand₁⟩, hforward, h⟩ := (Checked.bind_eq_ok_iff _ _ _).mp h
  obtain ⟨accuracyTrain, haccuracyTrain, h⟩ := (Checked.bind_eq_ok_iff _ _ _).mp h
  obtain ⟨costTrain, hcostTrain, h⟩ := (Checked.bind_eq_ok_iff _ _ _).mp h
  obtain ⟨da, hda, h⟩ := (Checked.bind_eq_ok_iff _ _ _).mp h
  obtain ⟨⟨da', nn₂⟩, hbackward, h⟩ := (Checked.bind_eq_ok_iff _ _ _).mp h
  obtain rfl := Except.ok.inj h
  -- the forward pass leaves the loss object
  have hloss : nn₁.lossFunction = s.nn.lossFunction := by
    unfold forwardPropagation at hforward
    obtain ⟨_, -, hforward⟩ := (Checked.bind_eq_ok_iff _ _ _).mp hforward
    obtain rfl := (Prod.ext_iff.mp (Prod.ext_iff.mp (Except.ok.inj hforward)).2).1
    rfl
  rw [← hloss] at haccuracy hcost
  rw [trainValBatch, hforward, Checked.ok_bind]
  dsimp only
  rw [haccuracyTrain, Checked.ok_bind, haccuracy, Checked.ok_bind, hcostTrain, Checked.ok_bind,
    hcost, Checked.ok_bind, hda, Checked.ok_bind, hbackward]
  rfl

/-! ## An epoch -/

/-- **The cost of a network on a validation set**: that of what it predicts,
which for a plain network is what a forward pass returns. -/
def HasCost (plain : Prop) (lossFunction : LossFunction) (nn : NeuralNetwork α)
    (inputsVal targetsVal : Mat α) (cost : α) : Prop :=
  ∃ predictions, nn.predict inputsVal = .ok predictions
    ∧ lossFunction.calculateLoss predictions targetsVal = .ok cost
    ∧ (plain → ∀ rand, ∃ nn' rand',
      nn.forwardPropagation rand inputsVal = .ok (predictions, nn', rand'))

/-- The body of the loop of `trainVal` over the epochs. -/
def trainValEpoch (batches : List (Mat α × Mat α)) (inputValCopy targetsVal : Mat α)
    (s : Option α × NeuralNetwork α × (ℕ → α)) :
    Except Fault (Option α × NeuralNetwork α × (ℕ → α)) := do
  let predictionsVal ← s.2.1.predict inputValCopy
  batches.foldlM (trainValBatch predictionsVal targetsVal) s

section Epoch

variable {batches : List (Mat α × Mat α)} {V : Fin n → Fin mVal → α} {U : Fin tVal → Fin mVal → α}

/-- **An epoch of `trainVal`** makes the updates of one of `train`, and its
cost is that of the network before them. -/
theorem trainValEpoch_eq {s : Training α} (h : KeepsLayers n p plain lossFunction s.nn) (hn : 0 < n)
    (hbatches : ∀ batch ∈ batches, GoodBatch n p lossFunction batch) (hne : batches ≠ [])
    (htVal : 0 < tVal) (hfit : lossFunction.Fits p U) (costVal : Option α) :
    ∃ s' cost, trainEpoch batches s = .ok s' ∧ KeepsLayers n p plain lossFunction s'.nn
      ∧ HasCost plain lossFunction s.nn (Grid.ofFn V) (Grid.ofFn U) cost
      ∧ trainValEpoch batches (Grid.ofFn V) (Grid.ofFn U) (costVal, s.nn, s.rand)
        = .ok (some cost, s'.nn, s'.rand) := by
  obtain ⟨N, hN, hplain⟩ := h.network
  have hp : 0 < p := N.out_pos hn
  have hpredict : s.nn.predict (Grid.ofFn V) = .ok (Grid.ofFn (N.predict V)) :=
    Network.predictLayers_heldBy hN V hn
  have haccuracy := ModelEvaluator.accuracy_ofFn (N.predict V) U lossFunction hp htVal
  obtain ⟨cost, hcost⟩ := calculateLoss_ok (N.predict V) U hp hfit
  obtain ⟨b, rest, rfl⟩ := List.exists_cons_of_ne_nil hne
  -- a batch keeps the two calls in step
  have hstep (batch : Mat α × Mat α) (hbatch : batch ∈ b :: rest) (r : Training α)
      (hr : KeepsLayers n p plain lossFunction r.nn) (c : Option α) :
      ∃ r', trainBatch r batch = .ok r' ∧ KeepsLayers n p plain lossFunction r'.nn
        ∧ trainValBatch (Grid.ofFn (N.predict V)) (Grid.ofFn U) (c, r.nn, r.rand) batch
          = .ok (some cost, r'.nn, r'.rand) := by
    obtain ⟨r', hrun, hr'⟩ := trainBatch_keeps hr hn (hbatches batch hbatch)
    rw [← hr.lossFunction] at haccuracy hcost
    exact ⟨r', hrun, hr', trainValBatch_of_trainBatch hrun haccuracy hcost c⟩
  obtain ⟨r, hrun, hr, hrunVal⟩ := hstep b List.mem_cons_self
    { s with accuracyRate := 0, costValue := 0 } h costVal
  obtain ⟨r', c', hrest, hrestVal, hr', hc'⟩ := Checked.foldlM_relates (l := rest)
    (f := trainBatch) (g := trainValBatch (Grid.ofFn (N.predict V)) (Grid.ofFn U))
    (b := r) (c := (some cost, r.nn, r.rand))
    (fun r c => KeepsLayers n p plain lossFunction r.nn ∧ c = (some cost, r.nn, r.rand))
    (fun batch hbatch r c ⟨hr, hc⟩ => by
      obtain ⟨r', hrun, hr', hrunVal⟩ :=
        hstep batch (List.mem_cons_of_mem b hbatch) r hr (some cost)
      subst hc
      exact ⟨r', _, hrun, hrunVal, hr', rfl⟩)
    ⟨hr, rfl⟩
  subst hc'
  refine ⟨{ r' with
      accuracyRate := r'.accuracyRate / ((b :: rest).length : α)
      costValue := r'.costValue / ((b :: rest).length : α) }, cost, ?_, ⟨hr'.1, hr'.2⟩,
    ⟨_, hpredict, hcost, fun hp rand => ?_⟩, ?_⟩
  · rw [trainEpoch, List.foldlM_cons, hrun, Checked.ok_bind, hrest]
    rfl
  · obtain ⟨layers, hforward, -⟩ := Network.forwardPropagation_heldBy hN rand V hn
    rw [Network.predict_eq_forward (hplain hp) rand V]
    exact ⟨_, _, hforward⟩
  · rw [trainValEpoch, hpredict, Checked.ok_bind, List.foldlM_cons, hrunVal, Checked.ok_bind]
    exact hrestVal

/-- **The epochs of `trainVal`** make the updates of those of `train`. -/
theorem trainValEpochs_eq (s₀ : Training α) (h : KeepsLayers n p plain lossFunction s₀.nn)
    (hn : 0 < n) (hbatches : ∀ batch ∈ batches, GoodBatch n p lossFunction batch)
    (hne : batches ≠ []) (htVal : 0 < tVal) (hfit : lossFunction.Fits p U) (epochNum : ℕ) :
    ∃ s costVal, epochs batches epochNum s₀ = .ok s ∧ KeepsLayers n p plain lossFunction s.nn
      ∧ Checked.loop epochNum
        (fun s _ => trainValEpoch batches (Grid.ofFn V) (Grid.ofFn U) s) (none, s₀.nn, s₀.rand)
        = .ok (costVal, s.nn, s.rand) := by
  induction epochNum with
  | zero => exact ⟨s₀, none, epochs_zero _ _, h, Checked.loop_zero _ _⟩
  | succ epochNum ih =>
    obtain ⟨s, costVal, hepochs, hs, hloop⟩ := ih
    obtain ⟨s', cost, hepoch, hs', -, hepochVal⟩ :=
      trainValEpoch_eq (V := V) hs hn hbatches hne htVal hfit costVal
    refine ⟨s', some cost, ?_, hs', ?_⟩
    · rw [epochs_succ, hepochs, Checked.ok_bind, hepoch]
    · rw [Checked.loop_succ, hloop, Checked.ok_bind, hepochVal]

end Epoch

/-! ## A call -/

/-- **`normalize(input, false)`** after a training set was measured maps feature
`i` with the entry `i` of the statistics: the ones of the training set, on an
object that had none. -/
theorem measured_normalizeWith (nn : NeuralNetwork α) (X : Fin n → Fin m → α)
    (Y : Fin n → Fin mVal → α) :
    ∃ V : Fin n → Fin mVal → α, (nn.measured X).normalizeWith (Grid.ofFn Y) = .ok (Grid.ofFn V)
      ∧ (nn.means = [] → nn.stdevs = [] → V = fun i j =>
        rescale (mean m (List.ofFn (X i))) (stdev m (List.ofFn (X i))) (Y i j)) := by
  have hentry (before : Vec α) (f : Fin n → α) (i : Fin n) :
      ∃ x, Vec.at (before ++ List.ofFn f) i = .ok x ∧ (before = [] → x = f i) := by
    have hlt : (i : ℕ) < (before ++ List.ofFn f).length := by
      rw [List.length_append, List.length_ofFn]
      exact i.isLt.trans_le (Nat.le_add_left n _)
    refine ⟨_, Checked.read_of_lt _ _ hlt, ?_⟩
    rintro rfl
    simp
  choose means hmeans hmeans' using hentry nn.means fun i => mean m (List.ofFn (X i))
  choose stdevs hstdevs hstdevs' using hentry nn.stdevs fun i => stdev m (List.ofFn (X i))
  refine ⟨fun i j => rescale (means i) (stdevs i) (Y i j), ?_, fun hm hs => ?_⟩
  · rw [normalizeWith, Grid.length_ofFn]
    refine Checked.fill_ok fun i => ?_
    rw [Vec.at_row_ofFn, Checked.ok_bind, List.length_ofFn]
    refine Checked.fill_ok fun j => ?_
    unfold measured
    rw [hmeans, Checked.ok_bind, hstdevs, Checked.ok_bind, Vec.at_ofFn]
    rfl
  · funext i j
    rw [hmeans' i hm, hstdevs' i hs]

omit [Double α] in
/-- The batches cut from a training set are digestible, and there is one. -/
theorem CutsUp.ne_nil {X : Fin n → Fin m → α} {T : Fin t → Fin m → α}
    {batches : List (Mat α × Mat α)} (h : CutsUp X T 0 batches) (hm : 0 < m) : batches ≠ [] := by
  obtain ⟨_, _, _, hmem, -⟩ := h.cover 0 (le_refl 0) hm
  exact List.ne_nil_of_mem hmem

/-- **A call of `trainVal`, in terms of the network that the layers hold**: the
state before the last epoch, the one after it, and the cost. -/
theorem trainVal_heldBy {nn : NeuralNetwork α} {N : Network α n p} (hN : N.HeldBy nn.layers)
    (hplain : plain → N.Plain) (hlayers : nn.layers ≠ []) (rand : ℕ → α) (X : Fin n → Fin m → α)
    (T : Fin t → Fin m → α) (Y : Fin n → Fin mVal → α) (U : Fin tVal → Fin mVal → α)
    (hn : 0 < n) (hm : 0 < m) (ht : 0 < t) (htVal : 0 < tVal) (hfit : nn.lossFunction.Fits p T)
    (hfitVal : nn.lossFunction.Fits p U) {epochNum miniBatchSize : ℤ} (hepoch : 1 ≤ epochNum)
    (hsize : 1 ≤ miniBatchSize) {fuel : ℕ} (hfuel : m ≤ fuel) {V : Fin n → Fin mVal → α}
    (hV : (nn.measured X).normalizeWith (Grid.ofFn Y) = .ok (Grid.ofFn V)) :
    ∃ inputs batches before after costVal,
      nn.normalizeTraining (Grid.ofFn X) = .ok (inputs, nn.measured X)
      ∧ miniBatchGenerator fuel (Grid.ofFn T) inputs miniBatchSize = .ok batches
      ∧ epochs batches (epochNum.toNat - 1) ⟨0, 0, nn.measured X, rand⟩ = .ok before
      ∧ trainEpoch batches before = .ok after
      ∧ HasCost plain nn.lossFunction before.nn (Grid.ofFn V) (Grid.ofFn U) costVal
      ∧ nn.trainVal fuel rand (Grid.ofFn X) (Grid.ofFn T) (Grid.ofFn Y) (Grid.ofFn U) epochNum
        miniBatchSize = .ok (costVal, after.nn, after.rand) := by
  have hinputs : nn.normalizeTraining (Grid.ofFn X) = .ok (_, nn.measured X) :=
    normalizeTraining_ofFn nn X hn
  obtain ⟨batches, hgen, hcuts⟩ | ⟨-, hlt⟩ := miniBatchGenerator_cases (fun i j =>
    rescale (mean m (List.ofFn (X i))) (stdev m (List.ofFn (X i))) (X i j)) T hn hm hsize fuel
  swap
  · exact absurd hlt (not_lt.mpr hfuel)
  have hgood := hcuts.goodBatch ht hfit
  have hne := hcuts.ne_nil hm
  have hstart : KeepsLayers n p plain nn.lossFunction (nn.measured X) := ⟨⟨N, hN, hplain⟩, rfl⟩
  obtain ⟨before, c, hbefore, hkeeps, hloop⟩ := trainValEpochs_eq (V := V) (U := U)
    ⟨0, 0, nn.measured X, rand⟩ hstart hn hgood hne htVal hfitVal (epochNum.toNat - 1)
  obtain ⟨after, costVal, hafter, -, hcost, hlast⟩ :=
    trainValEpoch_eq (V := V) (U := U) hkeeps hn hgood hne htVal hfitVal c
  refine ⟨_, batches, before, after, costVal, hinputs, hgen, hbefore, hafter, hcost, ?_⟩
  have hlayer : Vec.at nn.layers (nn.layers.length - 1) = .ok (nn.layers.getLast hlayers) := by
    rw [Vec.at, Checked.read_of_lt _ _ (Nat.sub_lt (List.length_pos_iff.mpr hlayers) one_pos)]
    exact congrArg Except.ok (List.getLast_eq_getElem hlayers).symm
  have hepochs : Checked.loop epochNum.toNat
      (fun s _ => trainValEpoch batches (Grid.ofFn V) (Grid.ofFn U) s)
      (none, nn.measured X, rand) = .ok (some costVal, after.nn, after.rand) := by
    obtain ⟨e, he⟩ := Nat.exists_eq_add_one.mpr (show 0 < epochNum.toNat by omega)
    rw [he, Nat.add_sub_cancel] at hloop
    rw [he, Checked.loop_succ, hloop, Checked.ok_bind, hlast]
  rw [trainVal, hinputs, Checked.ok_bind]
  dsimp only
  rw [hV, Checked.ok_bind, hgen, Checked.ok_bind,
    show Vec.at (nn.measured X).layers ((nn.measured X).layers.length - 1) = _ from hlayer,
    Checked.ok_bind, Vec.at_row_zero U htVal, Checked.ok_bind]
  refine (congrArg (· >>= _) hepochs).trans ?_
  rfl

/-- Without layers the number of classes is read outside the network. -/
theorem trainVal_of_no_layers {nn : NeuralNetwork α} (hlayers : nn.layers = []) (rand : ℕ → α)
    (X : Fin n → Fin m → α) (T : Fin t → Fin m → α) (Y : Fin n → Fin mVal → α)
    (targetsVal : Mat α) (hn : 0 < n) (hm : 0 < m) (epochNum : ℤ) {miniBatchSize : ℤ}
    (hsize : 1 ≤ miniBatchSize) {fuel : ℕ} (hfuel : m ≤ fuel) :
    nn.trainVal fuel rand (Grid.ofFn X) (Grid.ofFn T) (Grid.ofFn Y) targetsVal epochNum
      miniBatchSize = .error .outOfRange := by
  have hinputs : nn.normalizeTraining (Grid.ofFn X) = .ok (_, nn.measured X) :=
    normalizeTraining_ofFn nn X hn
  obtain ⟨V, hV, -⟩ := measured_normalizeWith nn X Y
  obtain ⟨batches, hgen, -⟩ | ⟨-, hlt⟩ := miniBatchGenerator_cases (fun i j =>
    rescale (mean m (List.ofFn (X i))) (stdev m (List.ofFn (X i))) (X i j)) T hn hm hsize fuel
  · rw [trainVal, hinputs, Checked.ok_bind]
    dsimp only
    rw [hV, Checked.ok_bind, hgen, Checked.ok_bind, show (nn.measured X).layers = [] from hlayers,
      Vec.at_nil]
    rfl
  · exact absurd hlt (not_lt.mpr hfuel)

/-- **`trainVal` returns the cost before the last epoch**: that of the network
after the updates of the epochs but the last one, on the validation set
normalised with the statistics after the training set was measured. -/
theorem trainVal_returns {nn : NeuralNetwork α} (hchain : Chained n nn.layers p)
    (hlayers : nn.layers ≠ []) (rand : ℕ → α) (X : Fin n → Fin m → α) (T : Fin t → Fin m → α)
    (Y : Fin n → Fin mVal → α) (U : Fin tVal → Fin mVal → α) (hn : 0 < n) (hm : 0 < m)
    (ht : 0 < t) (htVal : 0 < tVal) (hfit : nn.lossFunction.Fits p T)
    (hfitVal : nn.lossFunction.Fits p U) {epochNum miniBatchSize : ℤ} (hepoch : 1 ≤ epochNum)
    (hsize : 1 ≤ miniBatchSize) {fuel : ℕ} (hfuel : m ≤ fuel) :
    ∃ inputs start V batches before after costVal predictions,
      -- the training set is measured and cut into batches, the validation set normalised
      nn.normalizeTraining (Grid.ofFn X) = .ok (inputs, start)
      ∧ start.normalizeWith (Grid.ofFn Y) = .ok V
      ∧ (nn.means = [] → nn.stdevs = [] → V = Grid.ofFn fun i j =>
        rescale (mean m (List.ofFn (X i))) (stdev m (List.ofFn (X i))) (Y i j))
      ∧ miniBatchGenerator fuel (Grid.ofFn T) inputs miniBatchSize = .ok batches
      -- the updates are those of `train`
      ∧ epochs batches (epochNum.toNat - 1) ⟨0, 0, start, rand⟩ = .ok before
      ∧ trainEpoch batches before = .ok after
      ∧ nn.trainVal fuel rand (Grid.ofFn X) (Grid.ofFn T) (Grid.ofFn Y) (Grid.ofFn U) epochNum
        miniBatchSize = .ok (costVal, after.nn, after.rand)
      -- and the cost is the one before the last of them
      ∧ before.nn.predict V = .ok predictions
      ∧ nn.lossFunction.calculateLoss predictions (Grid.ofFn U) = .ok costVal
      ∧ ((∀ layer ∈ nn.layers, Double.lt layer.keepProb 1 = false
          ∧ layer.activationFunction ≠ .softmax) →
        ∀ rand', ∃ nn' rand'',
          before.nn.forwardPropagation rand' V = .ok (predictions, nn', rand'')) := by
  obtain ⟨N, hN⟩ := Network.chained_iff.mp hchain
  obtain ⟨V, hV, hfresh⟩ := measured_normalizeWith nn X Y
  obtain ⟨inputs, batches, before, after, costVal, hinputs, hgen, hbefore, hafter,
    ⟨predictions, hpredict, hcost, hforward⟩, hrun⟩ := trainVal_heldBy hN
      (show (∀ layer ∈ nn.layers, Double.lt layer.keepProb 1 = false
          ∧ layer.activationFunction ≠ .softmax) → N.Plain from
        fun h => Network.plain_of_heldBy hN (fun l hl => (h l hl).1) fun l hl => (h l hl).2)
      hlayers rand X T Y U hn hm ht htVal hfit hfitVal hepoch hsize hfuel hV
  refine ⟨inputs, nn.measured X, _, batches, before, after, costVal, predictions, hinputs, hV,
    fun hmeans hstdevs => congrArg Grid.ofFn (hfresh hmeans hstdevs), hgen, hbefore, hafter, hrun,
    hpredict, hcost, hforward⟩

/-- Two epochs of two mini-batches, through two layers. -/
theorem reluNetwork_trainVal : ∃ (before : NeuralNetwork ℝ) (V predictions : Mat ℝ) (costVal : ℝ),
    (∃ nn' rand', reluNetwork.trainVal 2 (fun _ => 0) [[1, 2]] [[0, 1]] [[1]] [[1]] 2 1
      = .ok (costVal, nn', rand'))
    ∧ before.predict V = .ok predictions
    ∧ reluNetwork.lossFunction.calculateLoss predictions [[1]] = .ok costVal := by
  obtain ⟨_, _, V, _, before, after, costVal, predictions, -, -, -, -, -, -, hrun, hpredict, hcost,
    -⟩ :=
    trainVal_returns reluNetwork_chained (List.cons_ne_nil _ _) (fun _ => 0)
      (fun (_ : Fin 1) (j : Fin 2) => if j = 0 then 1 else 2)
      (fun (_ : Fin 1) (j : Fin 2) => if j = 0 then 0 else 1) (fun _ (_ : Fin 1) => 1)
      (fun (_ : Fin 1) _ => 1) one_pos two_pos one_pos one_pos (le_refl 1) (le_refl 1)
      (show (1 : ℤ) ≤ 2 by decide) (le_refl 1) (le_refl 2)
  exact ⟨before.nn, V, predictions, costVal, ⟨_, _, hrun⟩, hpredict, hcost⟩

/-! ## One epoch of one unit -/

/-- A sigmoid unit on the feature `0`. -/
theorem forward_zero_of_sigmoid {L : DenseParams ℝ 1 1} (hdrops : L.drops = false)
    (hact : L.activation = .sigmoid) (rand : ℕ → ℝ) :
    (Network.cons L .nil).forward rand (fun _ (_ : Fin 1) => 0)
      = fun _ _ => Sigmoid.activate (L.b 0) := by
  show L.forward rand _ = _
  rw [DenseParams.forward_eq_act hdrops, DenseParams.act, preact_of_zero, hact]
  funext i j
  obtain rfl := Subsingleton.elim i 0
  rfl

/-- **An epoch of one batch**, in terms of the network that the layers hold. -/
theorem trainEpoch_single {s : Training α} {N : Network α n p} (hN : N.HeldBy s.nn.layers)
    (hloss : s.nn.lossFunction = lossFunction) (X : Fin n → Fin m → α) (T : Fin t → Fin m → α)
    (hn : 0 < n) (hm : 0 < m) (ht : 0 < t) (hfit : lossFunction.Fits p T) :
    ∃ s' layers, trainEpoch [(Grid.ofFn X, Grid.ofFn T)] s = .ok s' ∧ s'.nn = { s.nn with layers }
      ∧ (N.update s.rand X (lossFunction.onGrid (N.forward s.rand X) T hfit)).HeldBy layers := by
  have hp : 0 < p := N.out_pos hn
  have haccuracy := ModelEvaluator.accuracy_ofFn (N.forward s.rand X) T lossFunction hp ht
  obtain ⟨cost, hcost⟩ := calculateLoss_ok (N.forward s.rand X) T hp hfit
  obtain ⟨layers, hrun, hheld⟩ := trainBatch_heldBy
    (s := { s with accuracyRate := 0, costValue := 0 }) hN hloss X T hn hm ht hfit rfl haccuracy
    hcost
  obtain ⟨s₁, hs₁, hnn⟩ : ∃ s₁, trainBatch { s with accuracyRate := 0, costValue := 0 }
      (Grid.ofFn X, Grid.ofFn T) = .ok s₁ ∧ s₁.nn = { s.nn with layers } := ⟨_, hrun, rfl⟩
  refine ⟨{ s₁ with
      accuracyRate := s₁.accuracyRate / ((1 : ℕ) : α)
      costValue := s₁.costValue / ((1 : ℕ) : α) }, layers, ?_, hnn, hheld⟩
  rw [trainEpoch, List.foldlM_cons, hs₁, Checked.ok_bind]
  rfl

/-- A constant feature is centred. -/
theorem rescale_const (σ : ℝ) : rescale (mean 1 (List.ofFn fun _ : Fin 1 => (1 : ℝ))) σ 1 = 0 := by
  have hmean : mean 1 (List.ofFn fun _ : Fin 1 => (1 : ℝ)) = 1 := by
    simp [mean]
  rw [hmean, rescale]
  split_ifs <;> simp

/-- The bias of the unit grows: its prediction is below the target. -/
theorem update_bias_pos (rand : ℕ → ℝ) (hfit : LossFunction.sigmoidCrossEntropy.Fits 1
    fun (_ : Fin 1) (_ : Fin 1) => (1 : ℝ)) :
    0 < ((DenseParams.unit (0 : ℝ) 0 1 .sigmoid).update rand (fun _ (_ : Fin 1) => 0)
      (LossFunction.sigmoidCrossEntropy.onGrid (fun _ _ => Sigmoid.activate 0)
        (fun _ _ => 1) hfit)).b 0 := by
  set L := DenseParams.unit (0 : ℝ) 0 1 .sigmoid
  have hforward : L.forward rand (fun _ (_ : Fin 1) => 0) = fun _ _ => Sigmoid.activate 0 :=
    forward_zero_of_sigmoid (DenseParams.unit_drops 0 0 1 .sigmoid) rfl rand
  have hdz : ∀ da : Fin 1 → Fin 1 → ℝ, L.dz rand (fun _ (_ : Fin 1) => 0) da 0
      = fun j => Sigmoid.derivative (Sigmoid.activate 0) * da 0 j := by
    intro da
    rw [DenseParams.dz, if_neg (by decide), DenseParams.masked_eq (DenseParams.unit_drops _ _ _ _),
      hforward]
    rfl
  have hepsilon : (0 : ℝ) < epsilon := by
    show (0 : ℝ) < 1e-10
    norm_num
  show 0 < 0 - MathUtils.dot (L.dz rand _ _ 0) (fun _ => 1) / ((1 : ℕ) : ℝ) * 1
  rw [hdz, MathUtils.dot_real, sigmoid_zero]
  rw [show (fun _ : Fin 1 => (1 : ℝ)) = 1 from rfl, dotProduct_one, Fin.sum_univ_one]
  show 0 < 0 - (1 / 2 * (1 - 1 / 2)) * (((1 : ℝ) / 2 - 1) / (1 / 2 * (1 - 1 / 2) + epsilon))
    / ((1 : ℕ) : ℝ) * 1
  have hslope : ((1 : ℝ) / 2 - 1) / (1 / 2 * (1 - 1 / 2) + epsilon) < 0 :=
    div_neg_of_neg_of_pos (by norm_num) (by linarith)
  rw [Nat.cast_one, div_one, mul_one]
  linarith

/-- **The model that is left behind is ahead of the cost that is returned**: one
epoch takes the prediction for the one sample from `1 / 2` towards its target.
Without layers nothing is returned. -/
theorem trainVal_before_last_epoch :
    (∀ layer ∈ sigmoidNetwork.layers, layer.keepProb = 1)
    ∧ (∃ costVal after rand' predictions nn' rand'' finalCost,
      sigmoidNetwork.trainVal 1 (fun _ => 0) [[1]] [[1]] [[1]] [[1]] 1 1
        = .ok (costVal, after, rand')
      ∧ after.normalizeWith [[1]] = .ok [[0]]
      ∧ after.forwardPropagation (fun _ => 0) [[0]] = .ok (predictions, nn', rand'')
      ∧ after.lossFunction.calculateLoss predictions [[1]] = .ok finalCost
      ∧ finalCost < costVal)
    ∧ trainVal 1 ⟨.sigmoidCrossEntropy, [], [], []⟩ (fun _ => 0) [[1]] [[1]] [[1]] [[1]] 1 1
      = (.error .outOfRange : Except Fault (ℝ × NeuralNetwork ℝ × (ℕ → ℝ))) := by
  set one : Fin 1 → Fin 1 → ℝ := fun _ _ => 1
  set zero : Fin 1 → Fin 1 → ℝ := fun _ _ => 0
  set rand : ℕ → ℝ := fun _ => 0
  have hfit : LossFunction.sigmoidCrossEntropy.Fits 1 one := le_refl 1
  have hX' : (fun i j => rescale (mean 1 (List.ofFn (one i))) (stdev 1 (List.ofFn (one i)))
      (one i j)) = zero := funext₂ fun _ _ => rescale_const _
  obtain ⟨V, hV, hfresh⟩ := measured_normalizeWith sigmoidNetwork one one
  obtain rfl : V = zero := (hfresh rfl rfl).trans hX'
  obtain ⟨inputs, batches, before, after, costVal, hinputs, hgen, hbefore, hafter,
    ⟨P, hP, hcost, -⟩, hrun⟩ := trainVal_heldBy sigmoidNetwork_heldBy
      (show False → _ from False.elim) (List.cons_ne_nil _ _) rand one one one one one_pos one_pos
      one_pos one_pos hfit hfit (le_refl 1) (le_refl 1) (le_refl 1) hV
  -- one batch, and one epoch
  rw [normalizeTraining_ofFn sigmoidNetwork one one_pos, hX'] at hinputs
  obtain rfl := (Prod.mk.inj (Except.ok.inj hinputs)).1
  rw [miniBatchGenerator_whole zero one one_pos (le_refl 1) 0] at hgen
  obtain rfl := Except.ok.inj hgen
  obtain rfl := Except.ok.inj ((epochs_zero _ _).symm.trans hbefore)
  obtain ⟨after', layers, hafter', hnn, hheld⟩ := trainEpoch_single
    (s := ⟨0, 0, sigmoidNetwork.measured one, rand⟩) sigmoidNetwork_heldBy rfl zero one one_pos
    one_pos one_pos hfit
  obtain rfl := Except.ok.inj (hafter'.symm.trans hafter)
  -- the prediction before the epoch, and the one after it
  have hplain : (Network.cons (DenseParams.unit (0 : ℝ) 0 1 .sigmoid) .nil).Plain :=
    ⟨DenseParams.unit_drops _ _ _ _, by decide, trivial⟩
  have hforward := forward_zero_of_sigmoid (DenseParams.unit_drops 0 0 1 .sigmoid) rfl rand
  have hpredict := Network.predictLayers_heldBy sigmoidNetwork_heldBy zero one_pos
  rw [Network.predict_eq_forward hplain rand, hforward] at hpredict
  obtain rfl := Except.ok.inj (hpredict.symm.trans hP)
  obtain rfl := Except.ok.inj ((calculateLoss_one _).symm.trans hcost)
  rw [hforward] at hheld
  rw [hnn] at hrun
  set L := (DenseParams.unit (0 : ℝ) 0 1 .sigmoid).update rand zero
    (LossFunction.sigmoidCrossEntropy.onGrid (fun _ _ => Sigmoid.activate 0) one hfit)
  obtain ⟨layers', hforward', -⟩ := Network.forwardPropagation_heldBy
    (show (Network.cons L .nil).HeldBy ({ sigmoidNetwork.measured one with layers } :
      NeuralNetwork ℝ).layers from hheld) rand zero one_pos
  rw [show (Network.cons L .nil).forward rand zero = _ from forward_zero_of_sigmoid (L := L)
    (DenseParams.unit_drops 0 0 1 .sigmoid) rfl rand] at hforward'
  refine ⟨fun layer hlayer => ?_,
    ⟨_, _, _, _, _, _, _, hrun, hV, hforward', calculateLoss_one _, ?_⟩, ?_⟩
  · obtain rfl := List.mem_singleton.mp hlayer
    rfl
  · have hlt := ActivationFunction.activate_lt
      (show ActivationFunction.sigmoid ≠ .softmax by decide) (le_refl 0) (update_bias_pos rand hfit)
    exact neg_lt_neg (Real.log_lt_log (Sigmoid.activate_pos 0) hlt.2)
  · exact trainVal_of_no_layers rfl rand one one one _ one_pos one_pos 1 (le_refl 1) (le_refl 1)

end NeuralNetwork
