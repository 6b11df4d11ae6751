import NeuralBuilder.MiniBatches
import NeuralBuilder.RealLoss
import NeuralBuilder.Resume

/-!
# The metrics of an epoch

`train` adds up the accuracy and the loss of every mini-batch, each already
divided by the number of samples of its batch, and divides the sums by the
number of batches. What is reported is the mean of the means over the
batches of the predictions each batch was given (`train_reports`), and this
is the mean over the samples where all batches have the same number of
samples and nowhere else (`metrics_true_iff`).

The predictions of a batch are made with the weights the batches before it have
left, so there is no one network whose metrics these would be. The mean over the
samples is taken of the same predictions. The result is exact in the number of
samples and in the mini-batch size; where batches are of one size, nothing is
asked of the data, and where they are not, there are data for which the two
differ.
-/

/-! ## The metrics of a batch -/

section Batch

variable {r t m : ℕ}

/-- **The loss of a sample**, as `calculateLoss` adds it up. -/
noncomputable def LossFunction.sampleLoss (lossFunction : LossFunction) (P : Fin r → Fin m → ℝ)
    (T : Fin t → Fin m → ℝ) (h : lossFunction.Fits r T) (j : Fin m) : ℝ :=
  match lossFunction with
  | sigmoidCrossEntropy => ∑ i, -SigmoidCrossEntropy.term (P i j) (T (Fin.castLE h i) j)
  | categoricalCrossEntropy =>
    -Double.log (P (CategoricalCrossEntropy.targetInd T h j) j + epsilon)

/-- **Whether the prediction of a sample is right**, as `accuracy` counts
it. -/
noncomputable def ModelEvaluator.sampleHit (lossFunction : LossFunction) (P : Fin r → Fin m → ℝ)
    (T : Fin t → Fin m → ℝ) (hr : 0 < r) (ht : 0 < t) (j : Fin m) : ℝ :=
  Double.ofBool (hit lossFunction P T hr ht j)

/-- The loss of a sample is its loss in its batch. -/
theorem LossFunction.sampleLoss_position {s : ℕ} {lossFunction : LossFunction}
    (P : Fin r → Fin m → ℝ) (T : Fin t → Fin m → ℝ) (h : lossFunction.Fits r T)
    (k : Fin (m ⌈/⌉ s)) :
    lossFunction.sampleLoss (fun i q => P i (Chunks.position k q))
        (Grid.block T (k * s) (Chunks.size m s k) (Chunks.fits k.isLt)) (h.block _)
      = fun q => lossFunction.sampleLoss P T h (Chunks.position k q) := by
  cases lossFunction with
  | sigmoidCrossEntropy => rfl
  | categoricalCrossEntropy => rfl

/-- The loss of a batch is the mean of the losses of its samples. -/
theorem LossFunction.calculateLoss_eq {lossFunction : LossFunction} (P : Fin r → Fin m → ℝ)
    (T : Fin t → Fin m → ℝ) (hr : 0 < r) (h : lossFunction.Fits r T) :
    lossFunction.calculateLoss (Grid.ofFn P) (Grid.ofFn T)
      = .ok (Chunks.mean (lossFunction.sampleLoss P T h)) := by
  cases lossFunction with
  | sigmoidCrossEntropy =>
    refine (SigmoidCrossEntropy.calculateLoss_ofFn P T hr h).trans (congrArg Except.ok ?_)
    refine congrArg (· / (m : ℝ)) ?_
    rw [SigmoidCrossEntropy.foldl_eq_total (fun i j => T (i.castLE h) j) P,
      SigmoidCrossEntropy.total, Finset.sum_comm]
    rfl
  | categoricalCrossEntropy =>
    refine (CategoricalCrossEntropy.calculateLossWith_ofFn epsilon P T hr h).trans
      (congrArg Except.ok ?_)
    exact congrArg (· / (m : ℝ)) (Checked.foldl_add_eq_sum _)

/-- The accuracy of a batch is the mean of the hits of its samples. -/
theorem ModelEvaluator.accuracy_eq (lossFunction : LossFunction) (P : Fin r → Fin m → ℝ)
    (T : Fin t → Fin m → ℝ) (hr : 0 < r) (ht : 0 < t) :
    accuracy (Grid.ofFn P) (Grid.ofFn T) lossFunction
      = .ok (Chunks.mean (sampleHit lossFunction P T hr ht)) := by
  refine (accuracy_ofFn P T lossFunction hr ht).trans (congrArg Except.ok ?_)
  exact congrArg (· / (m : ℝ)) (Checked.foldl_add_eq_sum _)

end Batch

namespace NeuralNetwork

variable {n p t m size : ℕ} {sizes : List ℕ} {lossFunction : LossFunction}

/-- **What a turn over a batch reports**: the sums grow by the metrics of the
predictions that the network makes for the batch. -/
theorem trainBatch_reports {s s' : Training ℝ} (h : Sound n p sizes lossFunction s.nn)
    (X : Fin n → Fin m → ℝ) (T : Fin t → Fin m → ℝ) (hn : 0 < n) (hm : 0 < m) (hp : 0 < p)
    (ht : 0 < t) (hfit : lossFunction.Fits p T)
    (hrun : trainBatch s (Grid.ofFn X, Grid.ofFn T) = .ok s') :
    ∃ P : Fin p → Fin m → ℝ,
      (∃ nn rand, s.nn.forwardPropagation s.rand (Grid.ofFn X) = .ok (Grid.ofFn P, nn, rand))
      ∧ s'.accuracyRate = s.accuracyRate
        + Chunks.mean (ModelEvaluator.sampleHit lossFunction P T hp ht)
      ∧ s'.costValue = s.costValue + Chunks.mean (lossFunction.sampleLoss P T hfit) := by
  obtain ⟨⟨N, hN, -⟩, hloss⟩ := h
  obtain ⟨layers, hforward, -⟩ := Network.forwardPropagation_heldBy hN s.rand X hn
  obtain ⟨layers', htrain, -⟩ := trainBatch_heldBy hN hloss X T hn hm ht hfit rfl
    (ModelEvaluator.accuracy_eq lossFunction (N.forward s.rand X) T hp ht)
    (LossFunction.calculateLoss_eq (N.forward s.rand X) T hp hfit)
  obtain rfl := Except.ok.inj (htrain.symm.trans hrun)
  exact ⟨N.forward s.rand X, ⟨{ s.nn with layers }, N.randAfter m s.rand, hforward⟩, rfl, rfl⟩

/-! ## The metrics of an epoch -/

/-- **The predictions made for each sample's own mini-batch** in the epoch
that starts in state `s`: batch `k` is given to the network as it stands
after the batches before it. -/
def OwnPredictions (batches : List (Mat ℝ × Mat ℝ)) (size : ℕ) (s : Training ℝ)
    (Q : Fin p → Fin m → ℝ) : Prop :=
  ∀ k : Fin (m ⌈/⌉ size), ∃ batch r nn rand, batches[(k : ℕ)]? = some batch
    ∧ (batches.take k).foldlM trainBatch { s with accuracyRate := 0, costValue := 0 } = .ok r
    ∧ r.nn.forwardPropagation r.rand batch.1
      = .ok (Grid.ofFn fun i q => Q i (Chunks.position k q), nn, rand)

/-- **The states before the batches of an epoch**: each batch takes the one
before it to the one after it. -/
theorem exists_batchStates {s : Training ℝ} (h : Sound n p sizes lossFunction s.nn)
    (X : Fin n → Fin m → ℝ) (T : Fin t → Fin m → ℝ) (hn : 0 < n) (ht : 0 < t)
    (hfit : lossFunction.Fits p T) (hsize : 0 < size) :
    ∃ r : ℕ → Training ℝ, (∀ k ≤ m ⌈/⌉ size,
        ((miniBatches X T size).take k).foldlM trainBatch s = .ok (r k)
        ∧ Sound n p sizes lossFunction (r k).nn)
      ∧ ∀ k : Fin (m ⌈/⌉ size), trainBatch (r k)
        (batchAt X T (k * size) (Chunks.size m size k) (Chunks.fits k.isLt)) = .ok (r (k + 1)) := by
  have hlength : (miniBatches X T size).length = m ⌈/⌉ size := length_miniBatches X T
  have hbatch : ∀ (k : ℕ) (hk : k < (miniBatches X T size).length),
      GoodBatch n p lossFunction (miniBatches X T size)[k] := by
    intro k hk
    rw [getElem_miniBatches]
    exact ⟨_, _, _, _, rfl,
      Chunks.size_pos hsize ((Chunks.lt_count_iff hsize).mp (hk.trans_eq hlength)), ht,
      hfit.block _⟩
  have hstates : ∀ k : ℕ, k ≤ m ⌈/⌉ size → ∃ r,
      ((miniBatches X T size).take k).foldlM trainBatch s = .ok r
        ∧ Sound n p sizes lossFunction r.nn :=
    fun k hk => Checked.foldlM_take_invariant (b := s)
      (fun _ (r : Training ℝ) => Sound n p sizes lossFunction r.nn) h
      (fun k hk r hr => trainBatch_ok hr hn (hbatch k hk)) (hk.trans_eq hlength.symm)
  -- one state for each number of batches, so that the next one is a function of it
  have : Nonempty (Training ℝ) := ⟨s⟩
  choose! r hr using hstates
  refine ⟨r, hr, fun k => ?_⟩
  have hk : (k : ℕ) < (miniBatches X T size).length := k.isLt.trans_eq hlength.symm
  have hnext := (hr (k + 1) k.isLt).1
  rw [Checked.foldlM_take_succ _ _ _ hk, (hr k k.isLt.le).1, Checked.ok_bind,
    getElem_miniBatches] at hnext
  exact hnext

/-- **An epoch reports means of batch means**, of the predictions made for
each sample's own mini-batch. -/
theorem trainEpoch_reports {s : Training ℝ} (h : Sound n p sizes lossFunction s.nn)
    (X : Fin n → Fin m → ℝ) (T : Fin t → Fin m → ℝ) (hn : 0 < n) (hp : 0 < p) (ht : 0 < t)
    (hfit : lossFunction.Fits p T) (hsize : 0 < size) :
    ∃ (s' : Training ℝ) (Q : Fin p → Fin m → ℝ), trainEpoch (miniBatches X T size) s = .ok s'
      ∧ Sound n p sizes lossFunction s'.nn ∧ OwnPredictions (miniBatches X T size) size s Q
      ∧ s'.accuracyRate = Chunks.meanOfMeans size (ModelEvaluator.sampleHit lossFunction Q T hp ht)
      ∧ s'.costValue = Chunks.meanOfMeans size (lossFunction.sampleLoss Q T hfit) := by
  have hlength : (miniBatches X T size).length = m ⌈/⌉ size := length_miniBatches X T
  obtain ⟨r, hr, hstep⟩ := exists_batchStates (s := { s with accuracyRate := 0, costValue := 0 })
    h X T hn ht hfit hsize
  choose P hforward hhits hlosses using fun k : Fin (m ⌈/⌉ size) =>
    trainBatch_reports (hr k k.isLt.le).2 _ _ hn
      (Chunks.size_pos hsize ((Chunks.lt_count_iff hsize).mp k.isLt)) hp ht (hfit.block _) (hstep k)
  -- the predictions for the batches, as those for one data set
  obtain ⟨columns, hcolumns⟩ := Chunks.exists_glue hsize fun k q i => P k i q
  have hP : ∀ k, P k = fun i q => columns (Chunks.position k q) i :=
    fun k => funext fun i => funext fun q => (congrFun (hcolumns k q) i).symm
  have hzero : r 0 = { s with accuracyRate := 0, costValue := 0 } :=
    (Except.ok.inj (hr 0 (Nat.zero_le _)).1).symm
  have hall : (miniBatches X T size).foldlM trainBatch { s with accuracyRate := 0, costValue := 0 }
      = .ok (r (m ⌈/⌉ size)) := by
    rw [← (hr _ le_rfl).1, ← hlength, List.take_length]
  refine ⟨{ r (m ⌈/⌉ size) with
    accuracyRate := (r (m ⌈/⌉ size)).accuracyRate / ((miniBatches X T size).length : ℝ)
    costValue := (r (m ⌈/⌉ size)).costValue / ((miniBatches X T size).length : ℝ) },
    fun i j => columns j i, ?_, (hr _ le_rfl).2, fun k => ?_, ?_, ?_⟩
  · rw [trainEpoch, hall, Checked.ok_bind]
    rfl
  · obtain ⟨nn, rand, hrun⟩ := hforward k
    refine ⟨_, r k, nn, rand, List.getElem?_eq_getElem (k.isLt.trans_eq hlength.symm),
      (hr k k.isLt.le).1, ?_⟩
    rw [getElem_miniBatches]
    exact hrun.trans (by rw [hP k])
  · refine congrArg₂ (· / ·) (Checked.eq_sum_of_steps (f := fun k => (r k).accuracyRate)
      (congrArg Training.accuracyRate hzero) fun k => ?_) (congrArg Nat.cast hlength)
    rw [hhits k, hP k]
    rfl
  · refine congrArg₂ (· / ·) (Checked.eq_sum_of_steps (f := fun k => (r k).costValue)
      (congrArg Training.costValue hzero) fun k => ?_) (congrArg Nat.cast hlength)
    rw [hlosses k, hP k, LossFunction.sampleLoss_position (fun i j => columns j i) T hfit k]
    rfl

/-! ## The metrics of a call -/

/-- The texts sent on the connection at the end of the epochs, where there is
one. -/
def texts {α Conn : Type} (ws_conn : Option Conn) (epochNum : ℕ) (text : ℕ → Progress α) :
    List (Conn × Progress α) :=
  (List.range epochNum).flatMap fun epoch => ws_conn.toList.map (·, text epoch)

/-- **The epochs of a call**: where each epoch takes a state to the next one,
the texts are the metrics of the states after the epochs. -/
theorem trainEpochs_eq {α Conn : Type} [Double α] (ws_conn : Option Conn)
    {batches : List (Mat α × Mat α)} {r : ℕ → Training α}
    (hr : ∀ epoch, trainEpoch batches (r epoch) = .ok (r (epoch + 1))) (epochNum : ℕ) :
    trainEpochs ws_conn batches epochNum (r 0) = .ok (r epochNum, texts ws_conn epochNum
      fun epoch => ⟨epoch + 1, (r (epoch + 1)).costValue, (r (epoch + 1)).accuracyRate⟩) := by
  unfold trainEpochs
  induction epochNum with
  | zero => exact Checked.loop_zero _ _
  | succ epochNum ih =>
    rw [Checked.loop_succ, ih, Checked.ok_bind]
    dsimp only
    rw [hr epochNum, Checked.ok_bind, texts, texts, List.range_succ, List.flatMap_append,
      List.flatMap_singleton]
    rfl

/-- **What a call of `train` reports about its epochs**, for a way to average
over the samples: the texts hold the average loss and the average hits of the
predictions made for each sample's own mini-batch, and the hits of the last
epoch are returned. -/
def Reports {Conn : Type} (average : (Fin m → ℝ) → ℝ) (fuel : ℕ) (nn : NeuralNetwork ℝ)
    (rand : ℕ → ℝ) (X : Fin n → Fin m → ℝ) (T : Fin t → Fin m → ℝ) (hp : 0 < p) (ht : 0 < t)
    (hfit : nn.lossFunction.Fits p T) (epochNum : ℤ) (size : ℕ) (ws_conn : Option Conn) : Prop :=
  ∃ (inputs : Mat ℝ) (start : NeuralNetwork ℝ) (batches : List (Mat ℝ × Mat ℝ))
    (Q : ℕ → Fin p → Fin m → ℝ) (accuracy : ℝ) (nn' : NeuralNetwork ℝ) (rand' : ℕ → ℝ)
    (sent : List (Conn × Progress ℝ)),
    nn.normalizeTraining (Grid.ofFn X) = .ok (inputs, start)
    ∧ miniBatchGenerator fuel (Grid.ofFn T) inputs size = .ok batches
    ∧ (∀ epoch < epochNum.toNat, ∃ s, epochs batches epoch ⟨0, 0, start, rand⟩ = .ok s
      ∧ OwnPredictions batches size s (Q epoch))
    ∧ train fuel nn rand (Grid.ofFn X) (Grid.ofFn T) epochNum size ws_conn
      = .ok (accuracy, nn', rand', sent)
    ∧ sent = texts ws_conn epochNum.toNat (fun epoch => ⟨epoch + 1,
      average (nn.lossFunction.sampleLoss (Q epoch) T hfit),
      average (ModelEvaluator.sampleHit nn.lossFunction (Q epoch) T hp ht)⟩)
    ∧ (0 < epochNum → accuracy
      = average (ModelEvaluator.sampleHit nn.lossFunction (Q (epochNum.toNat - 1)) T hp ht))

/-- **`train` reports means of batch means.** -/
theorem train_reports {Conn : Type} {nn : NeuralNetwork ℝ} (hchain : Chained n nn.layers p)
    (rand : ℕ → ℝ) (X : Fin n → Fin m → ℝ) (T : Fin t → Fin m → ℝ) (hn : 0 < n) (hm : 0 < m)
    (hp : 0 < p) (ht : 0 < t) (hfit : nn.lossFunction.Fits p T) (epochNum : ℤ) (hsize : 0 < size)
    (ws_conn : Option Conn) {fuel : ℕ} (hfuel : m ⌈/⌉ size ≤ fuel) :
    Reports (Chunks.meanOfMeans size) fuel nn rand X T hp ht hfit epochNum size ws_conn := by
  obtain ⟨N, hN⟩ := Network.chained_iff.mp hchain
  set X' : Fin n → Fin m → ℝ := fun i j =>
    rescale (mean m (List.ofFn (X i))) (stdev m (List.ofFn (X i))) (X i j) with hX'
  set start := nn.measured X with hstart
  have hepochs : ∀ epoch, ∃ r, epochs (miniBatches X' T size) epoch ⟨0, 0, start, rand⟩ = .ok r
      ∧ Sound n p N.sizes nn.lossFunction r.nn := by
    intro epoch
    induction epoch with
    | zero => exact ⟨_, epochs_zero _ _, ⟨⟨N, hN, rfl⟩, rfl⟩⟩
    | succ epoch ih =>
      obtain ⟨r, hr, hsound⟩ := ih
      obtain ⟨r', -, hr', hsound', -⟩ := trainEpoch_reports hsound X' T hn hp ht hfit hsize
      exact ⟨r', by rw [epochs_succ, hr, Checked.ok_bind, hr'], hsound'⟩
  -- the states before the epochs, and what each epoch reports on the way to the next
  choose r hr hsound using hepochs
  choose r' Q hrun _ hown haccuracy hcost using fun epoch =>
    trainEpoch_reports (hsound epoch) X' T hn hp ht hfit hsize
  have hnext : ∀ epoch, r' epoch = r (epoch + 1) := by
    intro epoch
    have h := hr (epoch + 1)
    rw [epochs_succ, hr epoch, Checked.ok_bind, hrun epoch] at h
    exact Except.ok.inj h
  have hzero : r 0 = ⟨0, 0, start, rand⟩ :=
    Except.ok.inj ((hr 0).symm.trans (epochs_zero _ _))
  have hloop := trainEpochs_eq ws_conn (fun epoch => (hrun epoch).trans (by rw [hnext]))
    epochNum.toNat
  refine ⟨Grid.ofFn X', start, miniBatches X' T size, Q, (r epochNum.toNat).accuracyRate,
    (r epochNum.toNat).nn, (r epochNum.toNat).rand, texts ws_conn epochNum.toNat fun epoch =>
      ⟨epoch + 1, (r (epoch + 1)).costValue, (r (epoch + 1)).accuracyRate⟩,
    normalizeTraining_ofFn nn X hn, miniBatchGenerator_eq X' T hn hm hsize hfuel,
    fun epoch _ => ⟨r epoch, hr epoch, hown epoch⟩, ?_, ?_, fun hpos => ?_⟩
  · rw [train, normalizeTraining_ofFn nn X hn, Checked.ok_bind]
    dsimp only
    rw [miniBatchGenerator_eq X' T hn hm hsize hfuel, Checked.ok_bind]
    have hmeasured := hloop
    rw [hzero] at hmeasured
    exact congrArg (· >>= _) hmeasured
  · refine congrArg (texts ws_conn epochNum.toNat) (funext fun epoch => ?_)
    rw [← hnext, hcost, haccuracy]
  · obtain ⟨e, he⟩ := Nat.exists_eq_add_one.mpr (show 0 < epochNum.toNat by omega)
    rw [he, ← hnext, haccuracy, Nat.add_sub_cancel]

/-! ## The true averages -/

/-- **The metrics are true averages** over `m` samples in mini-batches of
`size`: whatever the network, the data and the epochs, what is reported is
the mean over the samples. -/
def MetricsTrue (m size : ℕ) : Prop :=
  ∀ {Conn : Type} {n p t : ℕ} (nn : NeuralNetwork ℝ) (rand : ℕ → ℝ) (X : Fin n → Fin m → ℝ)
    (T : Fin t → Fin m → ℝ) (hp : 0 < p) (ht : 0 < t) (hfit : nn.lossFunction.Fits p T)
    (epochNum : ℤ) (ws_conn : Option Conn) (fuel : ℕ), 0 < n → Chained n nn.layers p →
    m ⌈/⌉ size ≤ fuel → Reports Chunks.mean fuel nn rand X T hp ht hfit epochNum size ws_conn

/-- A network whose only unit predicts `1 / 2` and does not learn. -/
noncomputable def idleNetwork : NeuralNetwork ℝ :=
  ⟨.sigmoidCrossEntropy, [DenseLayer.unit 0 0 0 0 .sigmoid "sigmoid"], [], []⟩

/-- The parameters of the idle network. -/
noncomputable def idle : Network ℝ 1 1 := .cons (.unit 0 0 0 .sigmoid) .nil

theorem idle_heldBy : idle.HeldBy idleNetwork.layers :=
  ⟨_, _, rfl, DenseLayer.unit_holds 0 0 0 0 _ _ rfl, rfl⟩

theorem idle_forward (rand : ℕ → ℝ) (X : Fin 1 → Fin m → ℝ) :
    idle.forward rand X = fun _ _ => 1 / 2 := by
  have hkeep : (DenseParams.unit (0 : ℝ) 0 0 .sigmoid).drops = false :=
    decide_eq_false (lt_irrefl (1 : ℝ))
  have hz : (DenseParams.unit (0 : ℝ) 0 0 .sigmoid).preact X = fun _ _ => 0 := by
    funext i j
    show MathUtils.dot (fun _ => 0) (fun q => X q j) + 0 = 0
    rw [MathUtils.dot_real, add_zero]
    exact Finset.sum_eq_zero fun q _ => zero_mul _
  show (DenseParams.unit (0 : ℝ) 0 0 .sigmoid).forward rand X = _
  rw [DenseParams.forward_eq_act hkeep, DenseParams.act, hz]
  funext i j
  show 1 / (1 + Real.exp (-0)) = (1 : ℝ) / 2
  rw [neg_zero, Real.exp_zero, one_add_one_eq_two]

theorem idle_update (rand : ℕ → ℝ) (X da : Fin 1 → Fin m → ℝ) : idle.update rand X da = idle := by
  have hsame : (DenseParams.unit (0 : ℝ) 0 0 .sigmoid).update rand X da
      = DenseParams.unit 0 0 0 .sigmoid := by
    have hdecay : (DenseParams.unit (0 : ℝ) 0 0 .sigmoid).decayed m = fun _ _ => 0 :=
      if_pos (decide_eq_true rfl)
    refine DenseParams.mk.injEq .. |>.mpr ⟨?_, ?_, rfl, rfl, rfl, rfl⟩
    · funext i q
      rw [hdecay]
      show 0 - _ * (0 : ℝ) = 0
      rw [mul_zero, sub_zero]
    · funext i
      show 0 - _ * (0 : ℝ) = 0
      rw [mul_zero, sub_zero]
  exact congrArg (fun L => Network.cons L .nil) hsame

/-- The batches leave the idle network as it is. -/
theorem idle_states {s : Training ℝ} (hN : idle.HeldBy s.nn.layers)
    (hloss : s.nn.lossFunction = .sigmoidCrossEntropy) (X T : Fin 1 → Fin m → ℝ)
    (hsize : 0 < size) {k : ℕ} (hk : k ≤ (miniBatches X T size).length) :
    ∃ r, ((miniBatches X T size).take k).foldlM trainBatch s = .ok r
      ∧ idle.HeldBy r.nn.layers ∧ r.nn.lossFunction = .sigmoidCrossEntropy := by
  refine Checked.foldlM_take_invariant (b := s) (fun _ (r : Training ℝ) =>
    idle.HeldBy r.nn.layers ∧ r.nn.lossFunction = .sigmoidCrossEntropy) ⟨hN, hloss⟩
    (fun k hk r ⟨hheld, hloss⟩ => ?_) hk
  have hk' : k < m ⌈/⌉ size := hk.trans_eq (length_miniBatches X T)
  have hfit : LossFunction.sigmoidCrossEntropy.Fits 1
      (Grid.block T (k * size) (Chunks.size m size k) (Chunks.fits hk')) := le_refl 1
  obtain ⟨layers, hrun, hheld'⟩ := trainBatch_heldBy hheld hloss
    (Grid.block X (k * size) (Chunks.size m size k) (Chunks.fits hk')) _ one_pos
    (Chunks.size_pos hsize ((Chunks.lt_count_iff hsize).mp hk')) one_pos hfit rfl
    (ModelEvaluator.accuracy_eq _ _ _ one_pos one_pos)
    (LossFunction.calculateLoss_eq _ _ one_pos hfit)
  rw [idle_update] at hheld'
  rw [getElem_miniBatches]
  exact ⟨_, hrun, hheld', hloss⟩

/-- The idle network predicts `1 / 2` for every sample. -/
theorem idle_ownPredictions {s : Training ℝ} (hN : idle.HeldBy s.nn.layers)
    (hloss : s.nn.lossFunction = .sigmoidCrossEntropy) (X T : Fin 1 → Fin m → ℝ)
    (hsize : 0 < size) {Q : Fin 1 → Fin m → ℝ}
    (hQ : OwnPredictions (miniBatches X T size) size s Q) : Q = fun _ _ => 1 / 2 := by
  funext i j
  obtain ⟨k, q, rfl⟩ := Chunks.exists_position hsize j
  have hk : (k : ℕ) < (miniBatches X T size).length := k.isLt.trans_eq (length_miniBatches X T).symm
  obtain ⟨batch, r, nn, rand, hbatch, hr, hrun⟩ := hQ k
  obtain ⟨r', hr', hheld, -⟩ := idle_states
    (s := { s with accuracyRate := 0, costValue := 0 }) hN hloss X T hsize hk.le
  obtain rfl := Except.ok.inj (hr.symm.trans hr')
  obtain rfl := Option.some.inj (hbatch.symm.trans (List.getElem?_eq_getElem hk))
  obtain ⟨layers, hforward, -⟩ := Network.forwardPropagation_heldBy hheld r.rand
    (Grid.block X (k * size) (Chunks.size m size k) (Chunks.fits k.isLt)) one_pos
  rw [getElem_miniBatches, batchAt, hforward] at hrun
  obtain ⟨hpred, -⟩ := Prod.mk.inj (Except.ok.inj hrun)
  rw [idle_forward] at hpred
  exact (congrFun (congrFun (Grid.ofFn_injective hpred) i) q).symm

/-- The idle network is right about the samples of class `1`. -/
theorem idle_hits (T : Fin 1 → Fin m → ℝ) (hT : ∀ j, T 0 j = 0 ∨ T 0 j = 1) :
    ModelEvaluator.sampleHit .sigmoidCrossEntropy (fun (_ : Fin 1) _ => 1 / 2) T one_pos one_pos
      = T 0 := by
  funext j
  have hhalf : Double.le (0.5 : ℝ) (1 / 2) = true := decide_eq_true (by norm_num)
  show Double.ofBool (Double.eq (Double.ofBool (Double.le (0.5 : ℝ) (1 / 2))) (T 0 j)) = T 0 j
  rw [hhalf]
  rcases hT j with h | h
  · rw [h]
    exact if_neg (by simp [Double.ofBool])
  · rw [h]
    exact if_pos (decide_eq_true rfl)

/-- One epoch of the idle network returns the average of the classes. -/
theorem idle_reports {average : (Fin m → ℝ) → ℝ} {X T : Fin 1 → Fin m → ℝ}
    (hT : ∀ j, T 0 j = 0 ∨ T 0 j = 1) (hm : 0 < m) (hsize : 0 < size)
    (h : Reports average (m ⌈/⌉ size) idleNetwork (fun _ => 0) X T (p := 1) one_pos one_pos
      (le_refl 1) 1 size (none : Option Unit)) :
    ∃ nn rand sent, train (m ⌈/⌉ size) idleNetwork (fun _ => 0) (Grid.ofFn X) (Grid.ofFn T) 1 size
      (none : Option Unit) = .ok (average (T 0), nn, rand, sent) := by
  obtain ⟨inputs, start, batches, Q, accuracy, nn, rand, sent, hinputs, hbatches, hown, hrun, -,
    hlast⟩ := h
  obtain ⟨rfl, rfl⟩ := Prod.mk.inj (Except.ok.inj
    ((normalizeTraining_ofFn idleNetwork X one_pos).symm.trans hinputs))
  obtain rfl := Except.ok.inj ((miniBatchGenerator_eq _ T one_pos hm hsize le_rfl).symm.trans
    hbatches)
  obtain ⟨s, hs, hQ⟩ := hown 0 Nat.one_pos
  obtain rfl := Except.ok.inj ((epochs_zero _ _).symm.trans hs)
  have hfirst : Q 0 = fun _ _ => 1 / 2 := idle_ownPredictions idle_heldBy rfl _ T hsize hQ
  have haccuracy : accuracy = average (T 0) := by
    rw [← idle_hits T hT, ← hfirst]
    exact hlast one_pos
  rw [haccuracy] at hrun
  exact ⟨nn, rand, sent, hrun⟩

/-- The classes of data with one sample of class `1`, the last. -/
theorem last_classes (j : Fin m) : (Chunks.last j : ℝ) = 0 ∨ (Chunks.last j : ℝ) = 1 := by
  unfold Chunks.last
  split
  · exact Or.inr rfl
  · exact Or.inl rfl

/-- What is returned for the idle network. -/
theorem train_idle (m size : ℕ) (hm : 0 < m) (hsize : 0 < size) :
    ∃ nn rand sent, train (m ⌈/⌉ size) idleNetwork (fun _ => 0)
      (Grid.ofFn fun (_ : Fin 1) (_ : Fin m) => 0)
      (Grid.ofFn fun (_ : Fin 1) => (Chunks.last : Fin m → ℝ)) 1 size (none : Option Unit)
        = .ok (Chunks.meanOfMeans size (Chunks.last : Fin m → ℝ), nn, rand, sent) :=
  idle_reports last_classes hm hsize (train_reports (Network.chained_iff.mpr ⟨idle, idle_heldBy⟩)
    _ _ _ one_pos hm one_pos one_pos (le_refl 1) 1 hsize none le_rfl)

/-- Over uneven batches the metrics are not always true averages. -/
theorem not_metricsTrue (hm : 0 < m) (hsize : 0 < size) (huneven : ¬ Chunks.Even m size) :
    ¬ MetricsTrue m size := by
  intro htrue
  obtain ⟨nn, rand, sent, hrun⟩ := train_idle m size hm hsize
  obtain ⟨nn', rand', sent', hrun'⟩ := idle_reports last_classes hm hsize
    (htrue idleNetwork (fun _ => 0) (fun _ _ => 0) (fun _ => Chunks.last) one_pos one_pos
      (le_refl 1) 1 none (m ⌈/⌉ size) one_pos (Network.chained_iff.mpr ⟨idle, idle_heldBy⟩) le_rfl)
  have hsame := congrArg Prod.fst (Except.ok.inj (hrun.symm.trans hrun'))
  exact Chunks.meanOfMeans_last_ne hsize hm huneven hsame

/-- **Which mini-batch sizes report true averages**: those that divide the
number of samples, and those that make one batch of them. With these every call
of `train` reports the averages over the samples; with any other size there is a
call on `m` samples that does not. -/
theorem metrics_true_iff (hm : 1 ≤ m) (hsize : 1 ≤ size) :
    MetricsTrue m size ↔ size ∣ m ∨ m ≤ size := by
  constructor
  · intro htrue
    by_contra huneven
    exact not_metricsTrue hm hsize huneven htrue
  · intro heven
    have haverage : (Chunks.meanOfMeans size : (Fin m → ℝ) → ℝ) = Chunks.mean :=
      funext (Chunks.meanOfMeans_eq heven hsize hm)
    intro Conn n p t nn rand X T hp ht hfit epochNum ws_conn fuel hn hchain hfuel
    rw [← haverage]
    exact train_reports hchain rand X T hn hm hp ht hfit epochNum hsize ws_conn hfuel

theorem metrics_true_four_two : MetricsTrue 4 2 :=
  (metrics_true_iff (show 1 ≤ 4 by decide) (show 1 ≤ 2 by decide)).mpr (Or.inl ⟨2, rfl⟩)

/-- **Three samples in mini-batches of two**: one sample of three is right,
and the accuracy returned is a half. -/
theorem idle_metrics_false :
    (∃ nn rand sent, train 2 idleNetwork (fun _ => 0) [[0, 0, 0]] [[0, 0, 1]] 1 2
      (none : Option Unit) = .ok (1 / 2, nn, rand, sent)) ∧ ¬ MetricsTrue 3 2 := by
  refine ⟨?_, not_metricsTrue (by decide) (by decide) ?_⟩
  · obtain ⟨nn, rand, sent, hrun⟩ := train_idle 3 2 (by decide) (by decide)
    have hhalf : Chunks.meanOfMeans 2 (Chunks.last : Fin 3 → ℝ) = 1 / 2 := by
      rw [Chunks.meanOfMeans_last (by decide) (by decide)]
      norm_num
    rw [hhalf] at hrun
    have hlast : (Grid.ofFn fun (_ : Fin 1) => (Chunks.last : Fin 3 → ℝ)) = [[0, 0, 1]] := by
      simp [Grid.ofFn, Chunks.last]
    rw [hlast] at hrun
    exact ⟨nn, rand, sent, hrun⟩
  · rintro (h | h)
    · exact absurd h (by decide)
    · exact absurd h (by decide)

end NeuralNetwork
