import NeuralBuilder.Backpropagation
import NeuralBuilder.Training

/-!
# Training in two calls

A second call of `train` on the same data normalises and slices the data
again, and starts with the caches, the derivatives and the statistics that
the first call left. None of this reaches the weights: without dropout a pass
over a batch depends on the network that the layers hold and on the batch
alone. So training for `e₁ + e₂` epochs is training for `e₁` epochs and then
for `e₂`.

`Alike` relates two objects that hold the same network and the same loss,
whatever else they hold, and every method of a training call keeps it. Two runs
of epochs are then one run of the sum (`epochs_add`), and the second call starts
with an object that is alike to the one that went on. That the batches are the
same is a fact about `normalize`: what it returns on training data depends on
the data alone. Dropout is excluded, for its draws come from one stream.
-/

variable {α : Type} [Double α]

namespace NeuralNetwork

variable {n p t m : ℕ} {lossFunction : LossFunction}

/-- **Two objects that train alike**: they hold the same network, which does
not drop units, and have the same loss. Their caches, derivatives and
statistics may differ. -/
structure Alike (n p : ℕ) (lossFunction : LossFunction) (nn nn' : NeuralNetwork α) : Prop where
  /-- One network is held by both. -/
  network : ∃ N : Network α n p, N.KeepsUnits ∧ N.HeldBy nn.layers ∧ N.HeldBy nn'.layers
  /-- The first has the loss. -/
  loss : nn.lossFunction = lossFunction
  /-- So has the second. -/
  loss' : nn'.lossFunction = lossFunction

/-- **A batch leaves alike objects alike**, and adds the same to their
sums. -/
theorem trainBatch_alike {s s' : Training α} (h : Alike n p lossFunction s.nn s'.nn) (hn : 0 < n)
    {batch : Mat α × Mat α} (hbatch : GoodBatch n p lossFunction batch) :
    ∃ r r', trainBatch s batch = .ok r ∧ trainBatch s' batch = .ok r'
      ∧ Alike n p lossFunction r.nn r'.nn
      ∧ (s.accuracyRate = s'.accuracyRate → r.accuracyRate = r'.accuracyRate) := by
  obtain ⟨⟨N, hkeep, hN, hN'⟩, hloss, hloss'⟩ := h
  obtain ⟨c, t, X, T, rfl, hc, ht, hfit⟩ := hbatch
  have hp : 0 < p := N.out_pos hn
  obtain ⟨cost, hcost⟩ := calculateLoss_ok (N.forward s.rand X) T hp hfit
  have haccuracy := ModelEvaluator.accuracy_ofFn (N.forward s.rand X) T lossFunction hp ht
  obtain ⟨layers, hrun, hheld⟩ :=
    trainBatch_heldBy hN hloss X T hn hc ht hfit rfl haccuracy hcost
  obtain ⟨layers', hrun', hheld'⟩ :=
    trainBatch_heldBy hN' hloss' X T hn hc ht hfit (N.forward_rand hkeep s'.rand s.rand X)
      haccuracy hcost
  rw [N.update_rand hkeep s'.rand s.rand] at hheld'
  refine ⟨_, _, hrun, hrun', ⟨⟨_, N.keepsUnits_update hkeep _ _ _, hheld, hheld'⟩, hloss, hloss'⟩,
    fun hsum => ?_⟩
  rw [hsum]

/-- **An epoch leaves alike objects alike**, and measures the same
accuracy. -/
theorem trainEpoch_alike {s s' : Training α} (h : Alike n p lossFunction s.nn s'.nn) (hn : 0 < n)
    {batches : List (Mat α × Mat α)}
    (hbatches : ∀ batch ∈ batches, GoodBatch n p lossFunction batch) :
    ∃ r r', trainEpoch batches s = .ok r ∧ trainEpoch batches s' = .ok r'
      ∧ Alike n p lossFunction r.nn r'.nn ∧ r.accuracyRate = r'.accuracyRate := by
  obtain ⟨r, r', hrun, hrun', hr, hsum⟩ := Checked.foldlM_relates (f := trainBatch)
    (g := trainBatch) (b := { s with accuracyRate := 0, costValue := 0 })
    (c := { s' with accuracyRate := 0, costValue := 0 })
    (fun s s' => Alike n p lossFunction s.nn s'.nn ∧ s.accuracyRate = s'.accuracyRate)
    (fun batch hbatch s s' hs => by
      obtain ⟨r, r', hrun, hrun', hr, hsum⟩ := trainBatch_alike hs.1 hn (hbatches batch hbatch)
      exact ⟨r, r', hrun, hrun', hr, hsum hs.2⟩) ⟨h, rfl⟩
  rw [trainEpoch, trainEpoch, hrun, hrun', Checked.ok_bind, Checked.ok_bind]
  refine ⟨_, _, rfl, rfl, hr, ?_⟩
  show r.accuracyRate / _ = r'.accuracyRate / _
  rw [hsum]

/-! ## Epochs -/

/-- The loop over the epochs, without the texts it sends. -/
def epochs (batches : List (Mat α × Mat α)) (epochNum : ℕ) (s : Training α) :
    Except Fault (Training α) :=
  Checked.loop epochNum (fun s _ => trainEpoch batches s) s

theorem epochs_zero (batches : List (Mat α × Mat α)) (s : Training α) :
    epochs batches 0 s = .ok s :=
  Checked.loop_zero _ s

theorem epochs_succ (batches : List (Mat α × Mat α)) (epochNum : ℕ) (s : Training α) :
    epochs batches (epochNum + 1) s = epochs batches epochNum s >>= trainEpoch batches :=
  Checked.loop_succ epochNum _ s

/-- The texts do not change what is computed. -/
theorem exists_trainEpochs {Conn : Type} (ws_conn : Option Conn) {batches : List (Mat α × Mat α)}
    {epochNum : ℕ} {s r : Training α} (h : epochs batches epochNum s = .ok r) :
    ∃ sent, trainEpochs ws_conn batches epochNum s = .ok (r, sent) := by
  induction epochNum generalizing r with
  | zero =>
    obtain rfl := Except.ok.inj ((epochs_zero batches s).symm.trans h)
    exact ⟨[], Checked.loop_zero _ _⟩
  | succ epochNum ih =>
    rw [epochs_succ] at h
    obtain ⟨q, hq, hr⟩ := (Checked.bind_eq_ok_iff _ _ _).mp h
    obtain ⟨sent, hsent⟩ := ih hq
    rw [trainEpochs, Checked.loop_succ]
    rw [trainEpochs] at hsent
    rw [hsent, Checked.ok_bind]
    dsimp only
    rw [hr, Checked.ok_bind]
    exact ⟨_, rfl⟩

/-- **The epochs of one loop are those of two loops in turn.** -/
theorem epochs_add (batches : List (Mat α × Mat α)) (e₁ e₂ : ℕ) (s : Training α) :
    epochs batches (e₁ + e₂) s = epochs batches e₁ s >>= epochs batches e₂ := by
  induction e₂ with
  | zero =>
    rw [Nat.add_zero]
    cases epochs batches e₁ s with
    | error e => rfl
    | ok r => exact (epochs_zero batches r).symm
  | succ e₂ ih =>
    rw [← Nat.add_assoc, epochs_succ, ih]
    cases epochs batches e₁ s with
    | error e => rfl
    | ok r => exact (epochs_succ batches e₂ r).symm

/-- **Alike objects stay alike over the epochs**, and the last one measures
the same accuracy. -/
theorem epochs_alike (s s' : Training α) (h : Alike n p lossFunction s.nn s'.nn) (hn : 0 < n)
    {batches : List (Mat α × Mat α)}
    (hbatches : ∀ batch ∈ batches, GoodBatch n p lossFunction batch) (epochNum : ℕ) :
    ∃ r r', epochs batches epochNum s = .ok r ∧ epochs batches epochNum s' = .ok r'
      ∧ Alike n p lossFunction r.nn r'.nn ∧ (0 < epochNum → r.accuracyRate = r'.accuracyRate) := by
  induction epochNum with
  | zero =>
    exact ⟨s, s', epochs_zero _ _, epochs_zero _ _, h, fun hlt => absurd hlt (Nat.lt_irrefl 0)⟩
  | succ epochNum ih =>
    obtain ⟨q, q', hq, hq', halike, -⟩ := ih
    obtain ⟨r, r', hr, hr', halike', hsum⟩ := trainEpoch_alike halike hn hbatches
    refine ⟨r, r', ?_, ?_, halike', fun _ => hsum⟩
    · rw [epochs_succ, hq, Checked.ok_bind, hr]
    · rw [epochs_succ, hq', Checked.ok_bind, hr']

/-! ## Calls -/

/-- The object after `normalize` has appended the statistics of a data
set. -/
def measured (nn : NeuralNetwork α) (X : Fin n → Fin m → α) : NeuralNetwork α :=
  { nn with
    means := nn.means ++ List.ofFn fun i => mean m (List.ofFn (X i))
    stdevs := nn.stdevs ++ List.ofFn fun i => stdev m (List.ofFn (X i)) }

/-- A call of `train` is its loop over the epochs. -/
theorem train_of_epochs {Conn : Type} {nn : NeuralNetwork α} {rand : ℕ → α} {fuel : ℕ}
    (X : Fin n → Fin m → α) (T : Fin t → Fin m → α) (hn : 0 < n) {miniBatchSize epochNum : ℤ}
    {batches : List (Mat α × Mat α)}
    (hgen : miniBatchGenerator fuel (Grid.ofFn T) (Grid.ofFn fun i j =>
      rescale (mean m (List.ofFn (X i))) (stdev m (List.ofFn (X i))) (X i j)) miniBatchSize
        = .ok batches) {r : Training α}
    (hrun : epochs batches epochNum.toNat ⟨0, 0, nn.measured X, rand⟩ = .ok r)
    (ws_conn : Option Conn) :
    ∃ sent, train fuel nn rand (Grid.ofFn X) (Grid.ofFn T) epochNum miniBatchSize ws_conn
      = .ok (r.accuracyRate, r.nn, r.rand, sent) := by
  obtain ⟨sent, hsent⟩ := exists_trainEpochs ws_conn hrun
  rw [train, normalizeTraining_ofFn nn X hn, Checked.ok_bind]
  unfold measured at hsent
  dsimp only
  rw [hgen, Checked.ok_bind, hsent, Checked.ok_bind]
  exact ⟨sent, rfl⟩

/-- **Training can be resumed**: a call for `e₁ + e₂` epochs leaves the
weights and biases, and returns the accuracy, of a call for `e₁` epochs and
another one for `e₂ ≥ 1` epochs on the same data. -/
theorem train_resume {Conn : Type} {nn : NeuralNetwork α} (hchain : Chained n nn.layers p)
    (hkeep : ∀ layer ∈ nn.layers, Double.lt layer.keepProb 1 = false) (rand : ℕ → α)
    (X : Fin n → Fin m → α) (T : Fin t → Fin m → α) (hn : 0 < n) (hm : 0 < m) (ht : 0 < t)
    (hfit : nn.lossFunction.Fits p T) {miniBatchSize : ℤ} (hsize : 1 ≤ miniBatchSize)
    {e₁ e₂ : ℤ} (he₁ : 0 ≤ e₁) (he₂ : 1 ≤ e₂) (ws_conn ws_conn₁ ws_conn₂ : Option Conn)
    {fuel : ℕ} (hfuel : m ≤ fuel) :
    ∃ (accuracy accuracy₁ : α) (whole first second : NeuralNetwork α) (rand' rand₁ rand₂ : ℕ → α)
      (sent sent₁ sent₂ : List (Conn × Progress α)),
      train fuel nn rand (Grid.ofFn X) (Grid.ofFn T) (e₁ + e₂) miniBatchSize ws_conn
        = .ok (accuracy, whole, rand', sent)
      ∧ train fuel nn rand (Grid.ofFn X) (Grid.ofFn T) e₁ miniBatchSize ws_conn₁
        = .ok (accuracy₁, first, rand₁, sent₁)
      ∧ train fuel first rand₁ (Grid.ofFn X) (Grid.ofFn T) e₂ miniBatchSize ws_conn₂
        = .ok (accuracy, second, rand₂, sent₂)
      ∧ second.layers.map (fun layer => (layer.w, layer.b))
        = whole.layers.map (fun layer => (layer.w, layer.b)) := by
  obtain ⟨N, hN⟩ := Network.chained_iff.mp hchain
  obtain ⟨batches, hgen, hgood⟩ := miniBatchGenerator_ok (fun i j =>
    rescale (mean m (List.ofFn (X i))) (stdev m (List.ofFn (X i))) (X i j)) T hn hm ht hfit
    hsize hfuel
  have hkeepN : N.KeepsUnits := hN.keepsUnits hkeep
  have hstart : Alike n p nn.lossFunction (nn.measured X) (nn.measured X) :=
    ⟨⟨N, hkeepN, hN, hN⟩, rfl, rfl⟩
  obtain ⟨r₁, _, hfirst, -, halike, -⟩ :=
    epochs_alike ⟨0, 0, nn.measured X, rand⟩ ⟨0, 0, nn.measured X, rand⟩ hstart hn hgood e₁.toNat
  -- the second loop, from where the first one stands and from the object it left
  have hagain : Alike n p nn.lossFunction r₁.nn (r₁.nn.measured X) := by
    obtain ⟨⟨N', hkeep', hN', -⟩, hloss, -⟩ := halike
    exact ⟨⟨N', hkeep', hN', hN'⟩, hloss, hloss⟩
  obtain ⟨r, r₂, hrest, hsecond, ⟨⟨N', -, hN', hN₂⟩, -, -⟩, haccuracy⟩ :=
    epochs_alike r₁ ⟨0, 0, r₁.nn.measured X, r₁.rand⟩ hagain hn hgood e₂.toNat
  have hwhole : epochs batches (e₁ + e₂).toNat ⟨0, 0, nn.measured X, rand⟩ = .ok r := by
    rw [Int.toNat_add he₁ (by omega), epochs_add, hfirst, Checked.ok_bind, hrest]
  obtain ⟨sent, htrain⟩ := train_of_epochs X T hn hgen hwhole ws_conn
  obtain ⟨sent₁, htrain₁⟩ := train_of_epochs X T hn hgen hfirst ws_conn₁
  obtain ⟨sent₂, htrain₂⟩ := train_of_epochs X T hn hgen hsecond ws_conn₂
  rw [← haccuracy (by omega)] at htrain₂
  exact ⟨_, _, _, _, _, _, _, _, _, _, _, htrain, htrain₁, htrain₂, hN₂.parameters_eq hN'⟩

theorem reluNetwork_resume :
    ∃ (accuracy accuracy₁ : ℝ) (whole first second : NeuralNetwork ℝ) (rand' rand₁ rand₂ : ℕ → ℝ)
      (sent sent₁ sent₂ : List (Unit × Progress ℝ)),
      train 2 reluNetwork (fun _ => 0) [[1, 2]] [[0, 1]] (3 + 4) 1 none
        = .ok (accuracy, whole, rand', sent)
      ∧ train 2 reluNetwork (fun _ => 0) [[1, 2]] [[0, 1]] 3 1 none
        = .ok (accuracy₁, first, rand₁, sent₁)
      ∧ train 2 first rand₁ [[1, 2]] [[0, 1]] 4 1 none = .ok (accuracy, second, rand₂, sent₂)
      ∧ second.layers.map (fun layer => (layer.w, layer.b))
        = whole.layers.map (fun layer => (layer.w, layer.b)) := by
  exact train_resume reluNetwork_chained
    (fun layer hlayer => decide_eq_false (reluNetwork_layers layer hlayer).2.1.not_lt) (fun _ => 0)
    (fun (_ : Fin 1) (j : Fin 2) => if j = 0 then 1 else 2)
    (fun (_ : Fin 1) (j : Fin 2) => if j = 0 then 0 else 1) one_pos two_pos one_pos (le_refl 1)
    (le_refl 1) (by decide) (by decide) none none none (le_refl 2)

end NeuralNetwork
