import NeuralBuilder.Backpropagation
import NeuralBuilder.StandardFeatures

/-!
# The units of the features

`train` sees the features only after `normalize`, which takes the unit and
the origin they are measured in out of them. What differs between two calls
on the same data in different units is what `normalize` appends to `means`
and `stdevs`, and nothing in the training loops reads it
(`train_units_iff`).

The normalised features of the two calls are equal (`Standardise`), so that the
loops do the same on both sides, and each mini-batch is got through by one call
if and only if by the other. The calls also differ in the numbers from `rand()`,
which a network without dropout does not ask for. So the statement is about the
whole call: it returns for one of the data sets if and only if it returns for
the other, and returns the same.
-/

variable {α : Type} [Double α]

/-! ## Without dropout `rand()` is not called -/

namespace DenseLayer

/-- The layer keeps all its units. -/
def Keeps (layer : DenseLayer α) : Prop := Double.lt layer.keepProb 1 = false

/-- A layer that keeps its units returns the same for any calls of
`rand()`. -/
theorem Keeps.forward {layer layer' : DenseLayer α} (h : layer.Keeps) {rand rand₁ : ℕ → α}
    {input a : Mat α} (hrun : layer.forward rand input = .ok (a, layer', rand₁))
    (rand' : ℕ → α) : layer.forward rand' input = .ok (a, layer', rand') ∧ layer'.Keeps := by
  have hkeep : Double.lt layer.keepProb 1 = false := h
  simp only [DenseLayer.forward, hkeep, if_neg Bool.false_ne_true, Checked.bind_eq_ok_iff] at hrun ⊢
  obtain ⟨_, hcol, _, hdot, z, hz, a', ha, hreturn⟩ := hrun
  obtain ⟨rfl, heq⟩ := Prod.mk.inj (Except.ok.inj hreturn)
  obtain ⟨rfl, -⟩ := Prod.mk.inj heq
  exact ⟨⟨_, hcol, _, hdot, z, hz, a', ha, rfl⟩, h⟩

theorem Keeps.backward {layer layer' : DenseLayer α} (h : layer.Keeps) {da da' : Mat α}
    (hrun : layer.backward da = .ok (da', layer')) : layer'.Keeps := by
  obtain ⟨w, b, dw, db, rfl⟩ := backward_writes hrun
  exact h

end DenseLayer

namespace NeuralNetwork

/-- Every layer keeps all its units. -/
def Keeps (layers : List (DenseLayer α)) : Prop := ∀ layer ∈ layers, layer.Keeps

theorem forwardLayers_keeps {layers layers' : List (DenseLayer α)} (h : Keeps layers)
    {rand rand₁ : ℕ → α} {input predictions : Mat α}
    (hrun : forwardLayers layers rand input = .ok (predictions, layers', rand₁))
    (rand' : ℕ → α) :
    forwardLayers layers rand' input = .ok (predictions, layers', rand') ∧ Keeps layers' := by
  induction layers generalizing rand rand₁ rand' input predictions layers' with
  | nil =>
    obtain ⟨rfl, heq⟩ := Prod.mk.inj (Except.ok.inj hrun)
    obtain ⟨rfl, -⟩ := Prod.mk.inj heq
    exact ⟨rfl, h⟩
  | cons layer layers ih =>
    simp only [forwardLayers, Checked.bind_eq_ok_iff] at hrun ⊢
    obtain ⟨⟨a, layer₁, rand₂⟩, hlayer, ⟨P, rest, rand₃⟩, hrest, hreturn⟩ := hrun
    obtain ⟨rfl, heq⟩ := Prod.mk.inj (Except.ok.inj hreturn)
    obtain ⟨rfl, -⟩ := Prod.mk.inj heq
    obtain ⟨hlayer', hkeep⟩ := (h layer List.mem_cons_self).forward hlayer rand'
    obtain ⟨hrest', hkeeps⟩ := ih (fun l hl => h l (List.mem_cons_of_mem _ hl)) hrest rand'
    exact ⟨⟨_, hlayer', _, hrest', rfl⟩, List.forall_mem_cons.mpr ⟨hkeep, hkeeps⟩⟩

theorem backwardLayers_keeps {layers layers' : List (DenseLayer α)} (h : Keeps layers)
    {da da' : Mat α} (hrun : backwardLayers layers da = .ok (da', layers')) : Keeps layers' := by
  induction layers generalizing da' layers' with
  | nil =>
    obtain ⟨-, rfl⟩ := Prod.mk.inj (Except.ok.inj hrun)
    exact h
  | cons layer layers ih =>
    simp only [backwardLayers, Checked.bind_eq_ok_iff] at hrun
    obtain ⟨⟨da₁, rest⟩, hrest, ⟨da₂, layer₁⟩, hlayer, hreturn⟩ := hrun
    obtain ⟨-, rfl⟩ := Prod.mk.inj (Except.ok.inj hreturn)
    exact List.forall_mem_cons.mpr ⟨(h layer List.mem_cons_self).backward hlayer,
      ih (fun l hl => h l (List.mem_cons_of_mem _ hl)) hrest⟩

/-! ## Two calls that differ in the statistics -/

/-- **Two training calls under way that agree** but for the statistics of the
objects and the calls of `rand()` to come, neither of which is read. -/
structure Agree (s s' : Training α) : Prop where
  /-- The sums of the rates are the same. -/
  accuracyRate : s.accuracyRate = s'.accuracyRate
  /-- So are the sums of the costs. -/
  costValue : s.costValue = s'.costValue
  /-- The objects have the same loss. -/
  lossFunction : s.nn.lossFunction = s'.nn.lossFunction
  /-- And the same layers, caches included. -/
  layers : s.nn.layers = s'.nn.layers
  /-- No layer drops units, so that no draw is used. -/
  keeps : Keeps s.nn.layers

/-- **A mini-batch that the one call gets through** the other one gets
through, and they agree after it. -/
theorem trainBatch_agree {s s' r : Training α} (h : Agree s s') {batch : Mat α × Mat α}
    (hr : trainBatch s batch = .ok r) : ∃ r', trainBatch s' batch = .ok r' ∧ Agree r r' := by
  simp only [trainBatch, forwardPropagation, backwardPropagation, Checked.bind_eq_ok_iff] at hr ⊢
  obtain ⟨_, hfront, ⟨P, nn₁, rand₁⟩, ⟨⟨_, layers₁, _⟩, hforward, hnn₁⟩, accuracy, haccuracy, cost,
    hcost, da, hda, ⟨_, nn₂⟩, ⟨⟨_, layers₂⟩, hbackward, hnn₂⟩, hreturn⟩ := hr
  obtain ⟨rfl, heq₁⟩ := Prod.mk.inj (Except.ok.inj hnn₁)
  obtain ⟨rfl, rfl⟩ := Prod.mk.inj heq₁
  obtain ⟨rfl, rfl⟩ := Prod.mk.inj (Except.ok.inj hnn₂)
  obtain rfl := Except.ok.inj hreturn
  obtain ⟨hforward', hkeeps₁⟩ := forwardLayers_keeps h.keeps hforward s'.rand
  rw [h.layers] at hforward'
  dsimp only at haccuracy hcost hda
  rw [h.lossFunction] at haccuracy hcost hda
  refine ⟨_, ⟨_, hfront, _, ⟨_, hforward', rfl⟩, accuracy, haccuracy, cost, hcost, da, hda, _,
    ⟨_, hbackward, rfl⟩, rfl⟩, ?_⟩
  exact ⟨congrArg (· + accuracy) h.accuracyRate, congrArg (· + cost) h.costValue, h.lossFunction,
    rfl, backwardLayers_keeps hkeeps₁ hbackward⟩

theorem trainEpoch_agree {s s' r : Training α} (h : Agree s s') {batches : List (Mat α × Mat α)}
    (hr : trainEpoch batches s = .ok r) : ∃ r', trainEpoch batches s' = .ok r' ∧ Agree r r' := by
  simp only [trainEpoch, Checked.bind_eq_ok_iff] at hr ⊢
  obtain ⟨t, hfold, hreturn⟩ := hr
  obtain rfl := Except.ok.inj hreturn
  have hstart : Agree { s with accuracyRate := 0, costValue := 0 }
      { s' with accuracyRate := 0, costValue := 0 } :=
    ⟨rfl, rfl, h.lossFunction, h.layers, h.keeps⟩
  obtain ⟨t', hfold', hagree⟩ := Checked.foldlM_simulates (f := trainBatch) (g := trainBatch)
    Agree (fun batch s s' r hs hrun => trainBatch_agree hs hrun) hstart hfold
  refine ⟨_, ⟨t', hfold', rfl⟩, ?_⟩
  exact ⟨congrArg (· / (batches.length : α)) hagree.accuracyRate,
    congrArg (· / (batches.length : α)) hagree.costValue, hagree.lossFunction, hagree.layers,
    hagree.keeps⟩

/-- A turn of the loop over the epochs: an epoch, and its text. -/
def epochTurn {Conn : Type} (ws_conn : Option Conn) (batches : List (Mat α × Mat α))
    (t : Training α × List (Conn × Progress α)) (epoch : ℕ) :
    Except Fault (Training α × List (Conn × Progress α)) := do
  let u ← trainEpoch batches t.1
  return (u, t.2 ++ ws_conn.toList.map (·, ⟨epoch + 1, u.costValue, u.accuracyRate⟩))

/-- **The epochs send the same texts.** -/
theorem trainEpochs_agree {Conn : Type} {ws_conn : Option Conn} {s s' r : Training α}
    (h : Agree s s') {batches : List (Mat α × Mat α)} {epochNum : ℕ}
    {sent : List (Conn × Progress α)}
    (hr : trainEpochs ws_conn batches epochNum s = .ok (r, sent)) :
    ∃ r', trainEpochs ws_conn batches epochNum s' = .ok (r', sent) ∧ Agree r r' := by
  have hturn : ∀ epoch (t t' q : Training α × List (Conn × Progress α)),
      Agree t.1 t'.1 ∧ t.2 = t'.2 → epochTurn ws_conn batches t epoch = .ok q →
      ∃ q', epochTurn ws_conn batches t' epoch = .ok q' ∧ Agree q.1 q'.1 ∧ q.2 = q'.2 := by
    intro epoch t t' q ht hturn
    obtain ⟨u, hepoch, hreturn⟩ := (Checked.bind_eq_ok_iff _ _ _).mp hturn
    obtain rfl := Except.ok.inj hreturn
    obtain ⟨u', hepoch', hu⟩ := trainEpoch_agree ht.1 hepoch
    refine ⟨_, (Checked.bind_eq_ok_iff _ _ _).mpr ⟨u', hepoch', rfl⟩, hu, ?_⟩
    dsimp only
    rw [ht.2, hu.accuracyRate, hu.costValue]
  obtain ⟨⟨r', sent'⟩, hrun, hagree, hsent⟩ := Checked.loop_simulates
    (fun t t' => Agree t.1 t'.1 ∧ t.2 = t'.2) hturn (c := (s', [])) ⟨h, rfl⟩ hr
  obtain rfl : sent = sent' := hsent
  exact ⟨r', hrun, hagree⟩

/-! ## Whole calls -/

variable {n p t m : ℕ}

/-- **A call of `train` that returns**, with what can be seen of it: the
accuracy, the weights and biases it leaves, and the texts it sends. -/
def Trains {Conn : Type} (fuel : ℕ) (nn : NeuralNetwork α) (rand : ℕ → α)
    (inputLayer targets : Mat α) (epochNum miniBatchSize : ℤ) (ws_conn : Option Conn)
    (accuracy : α) (parameters : List (Mat α × Vec α)) (sent : List (Conn × Progress α)) : Prop :=
  ∃ nn' rand', nn.train fuel rand inputLayer targets epochNum miniBatchSize ws_conn
      = .ok (accuracy, nn', rand', sent)
    ∧ nn'.layers.map (fun layer => (layer.w, layer.b)) = parameters

/-- Inputs that normalise to the same are trained on alike. -/
theorem Trains.of_normalized {Conn : Type} {fuel : ℕ} {nn : NeuralNetwork α} {rand : ℕ → α}
    {inputLayer inputLayer' targets Z : Mat α} {epochNum miniBatchSize : ℤ}
    {ws_conn : Option Conn} {accuracy : α} {parameters : List (Mat α × Vec α)}
    {sent : List (Conn × Progress α)}
    (h : Trains fuel nn rand inputLayer targets epochNum miniBatchSize ws_conn accuracy parameters
      sent) (hkeeps : Keeps nn.layers) (rand' : ℕ → α) {means stdevs means' stdevs' : Vec α}
    (hZ : nn.normalizeTraining inputLayer = .ok (Z, { nn with means, stdevs }))
    (hZ' : nn.normalizeTraining inputLayer'
      = .ok (Z, { nn with means := means', stdevs := stdevs' })) :
    Trains fuel nn rand' inputLayer' targets epochNum miniBatchSize ws_conn accuracy parameters
      sent := by
  obtain ⟨nn₁, rand₁, hrun, rfl⟩ := h
  rw [train, hZ, Checked.ok_bind] at hrun
  simp only [Checked.bind_eq_ok_iff] at hrun
  obtain ⟨batches, hbatches, ⟨r, sent₁⟩, hepochs, hreturn⟩ := hrun
  have hresult := Except.ok.inj hreturn
  simp only [Prod.mk.injEq] at hresult
  obtain ⟨rfl, rfl, rfl, rfl⟩ := hresult
  -- the two calls differ in their statistics alone, which no pass reads
  have hstart : Agree ⟨0, 0, { nn with means, stdevs }, rand⟩
      ⟨0, 0, { nn with means := means', stdevs := stdevs' }, rand'⟩ :=
    ⟨rfl, rfl, rfl, rfl, hkeeps⟩
  obtain ⟨r', hepochs', hagree⟩ := trainEpochs_agree hstart hepochs
  refine ⟨r'.nn, r'.rand, ?_, by rw [hagree.layers]⟩
  rw [train, hZ', Checked.ok_bind]
  dsimp only
  rw [hbatches, Checked.ok_bind, hepochs', Checked.ok_bind, hagree.accuracyRate]
  rfl

/-- **Training does not depend on the units of the features**: of the same
network, without dropout, and the same data with feature `i` measured as
`c i * x + d i`, the one call returns where the other one does, with the same
accuracy, weights, biases and texts. Both return for mini-batches of at least
one sample. -/
theorem train_units_iff {Conn : Type} {nn : NeuralNetwork ℝ} (hchain : Chained n nn.layers p)
    (hkeep : ∀ layer ∈ nn.layers, 1 ≤ layer.keepProb) (X : Fin n → Fin m → ℝ)
    (T : Fin t → Fin m → ℝ) (hn : 0 < n) (hm : 0 < m) (ht : 0 < t)
    (hfit : nn.lossFunction.Fits p T) (c d : Fin n → ℝ) (hc : ∀ i, 0 < c i) (rand rand' : ℕ → ℝ)
    (epochNum miniBatchSize : ℤ) (ws_conn : Option Conn) :
    (∀ fuel accuracy parameters sent,
      Trains fuel nn rand' (Grid.ofFn fun i j => c i * X i j + d i) (Grid.ofFn T) epochNum
          miniBatchSize ws_conn accuracy parameters sent
        ↔ Trains fuel nn rand (Grid.ofFn X) (Grid.ofFn T) epochNum miniBatchSize ws_conn accuracy
          parameters sent)
    ∧ (1 ≤ miniBatchSize → ∀ fuel, m ≤ fuel → ∃ accuracy parameters sent,
      Trains fuel nn rand (Grid.ofFn X) (Grid.ofFn T) epochNum miniBatchSize ws_conn accuracy
        parameters sent) := by
  have : Nonempty (Fin m) := ⟨⟨0, hm⟩⟩
  have hkeeps : Keeps nn.layers :=
    fun layer hlayer => decide_eq_false (not_lt.mpr (hkeep layer hlayer))
  have hX := normalizeTraining_standardise nn X hn
  have hX' := normalizeTraining_standardise nn (fun i j => c i * X i j + d i) hn
  -- in other units a feature has the same standard form
  simp only [fun i => Standardise.standardise_affine isSqrt_sqrt (X i) (hc i) (d i)] at hX'
  refine ⟨fun fuel accuracy parameters sent => ⟨fun h => ?_, fun h => ?_⟩,
    fun hsize fuel hfuel => ?_⟩
  · exact h.of_normalized hkeeps rand hX' hX
  · exact h.of_normalized hkeeps rand' hX hX'
  · obtain ⟨N, hN⟩ := Network.chained_iff.mp hchain
    obtain ⟨accuracy, nn₁, rand₁, sent, hrun, -⟩ := train_ok
      (⟨⟨N, hN, rfl⟩, rfl⟩ : Sound n p N.sizes nn.lossFunction nn) rand X T hn hm ht hfit epochNum
      hsize ws_conn hfuel
    exact ⟨accuracy, _, sent, nn₁, rand₁, hrun, rfl⟩

theorem reluNetwork_units_iff :
    (∀ fuel accuracy parameters (sent : List (Unit × Progress ℝ)),
      Trains fuel reluNetwork (fun _ => 1)
          (Grid.ofFn fun (_ : Fin 1) (j : Fin 2) => 2 * ((j : ℕ) : ℝ) + 3)
          (Grid.ofFn fun (_ : Fin 1) (_ : Fin 2) => 1) 4 1 none accuracy parameters sent
        ↔ Trains fuel reluNetwork (fun _ => 0)
          (Grid.ofFn fun (_ : Fin 1) (j : Fin 2) => ((j : ℕ) : ℝ))
          (Grid.ofFn fun (_ : Fin 1) (_ : Fin 2) => 1) 4 1 none accuracy parameters sent)
    ∧ ((1 : ℤ) ≤ 1 → ∀ fuel, 2 ≤ fuel → ∃ accuracy parameters,
      ∃ sent : List (Unit × Progress ℝ), Trains fuel reluNetwork (fun _ => 0)
        (Grid.ofFn fun (_ : Fin 1) (j : Fin 2) => ((j : ℕ) : ℝ))
        (Grid.ofFn fun (_ : Fin 1) (_ : Fin 2) => 1) 4 1 none accuracy parameters sent) := by
  exact train_units_iff reluNetwork_chained
    (fun layer hlayer => (reluNetwork_layers layer hlayer).2.1.ge) _ _ one_pos two_pos one_pos
    (le_refl 1) (fun _ => 2) (fun _ => 3) (fun _ => two_pos) _ _ _ _ none

end NeuralNetwork
