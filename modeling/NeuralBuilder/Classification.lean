import NeuralBuilder.Inference
import NeuralBuilder.SoftmaxGradient

/-!
# The class that is predicted

`predict` applies the activations to one number at a time, and softmax of a
number is the number. So on a network that ends in softmax it returns what the
forward pass applies softmax to. Softmax of a column is strictly increasing in
its entries, which keeps the first largest one where it is: the two agree on
the class of every sample, and on the accuracy (`accuracy_predict_eq`).

The search of `accuracy` is for the first of the largest entries, so ties
matter: `firstMax_comp` says that any strictly increasing map keeps it. The
statement is about networks of any depth whose only softmax layer is the last
one, where the two passes agree up to the last activation
(`forward_eq_column_predict`).
-/

variable {n k p r m : ℕ}

/-! ## The first largest entry -/

namespace ModelEvaluator

/-- A turn of the search for the first largest entry. -/
noncomputable def maxStep (v : Fin r → ℝ) (s : ℝ × ℕ) (i : Fin (r - 1)) : ℝ × ℕ :=
  if Double.lt s.1 (v ⟨i + 1, Grid.succ_lt i⟩) then (v ⟨i + 1, Grid.succ_lt i⟩, (i : ℕ) + 1) else s

theorem firstMax_eq_foldl (v : Fin r → ℝ) (hr : 0 < r) :
    firstMax v hr = ((List.finRange (r - 1)).foldl (maxStep v) (v ⟨0, hr⟩, 0)).2 := by
  unfold firstMax
  rw [Fin.foldl_eq_finRange_foldl]
  rfl

/-- A turn after a strictly increasing function is the function after the
turn. -/
theorem maxStep_comp {f : ℝ → ℝ} (hf : StrictMono f) (v : Fin r → ℝ) (s : ℝ × ℕ)
    (i : Fin (r - 1)) :
    maxStep (fun i => f (v i)) (Prod.map f id s) i = Prod.map f id (maxStep v s i) := by
  have hlt : Double.lt (f s.1) (f (v ⟨i + 1, Grid.succ_lt i⟩))
      = Double.lt s.1 (v ⟨i + 1, Grid.succ_lt i⟩) := by
    rw [Double.lt_real, Double.lt_real]
    exact decide_eq_decide.mpr hf.lt_iff_lt
  unfold maxStep
  show (if Double.lt (f s.1) _ then _ else _) = _
  rw [hlt]
  cases Double.lt s.1 (v ⟨i + 1, Grid.succ_lt i⟩) with
  | true => rfl
  | false => rfl

/-- **A strictly increasing function keeps the first largest entry where it
is.** -/
theorem firstMax_comp {f : ℝ → ℝ} (hf : StrictMono f) (v : Fin r → ℝ) (hr : 0 < r) :
    firstMax (fun i => f (v i)) hr = firstMax v hr := by
  have hfold : (List.finRange (r - 1)).foldl (maxStep fun i => f (v i))
      (Prod.map f id (v ⟨0, hr⟩, 0))
      = Prod.map f id ((List.finRange (r - 1)).foldl (maxStep v) (v ⟨0, hr⟩, 0)) :=
    List.foldl_hom (Prod.map f id) (maxStep_comp hf v)
  have hpositions := congrArg Prod.snd hfold
  rw [firstMax_eq_foldl, firstMax_eq_foldl]
  exact hpositions

/-- **Softmax of a column has its first largest entry where the column has
it.** -/
theorem firstMax_column (v : Fin r → ℝ) (hr : 0 < r) :
    firstMax (Softmax.column v hr) hr = firstMax v hr := by
  have hmono : StrictMono fun x => Real.exp x / ∑ q, Real.exp (v q) := fun x y hxy =>
    div_lt_div_of_pos_right (Real.exp_lt_exp.mpr hxy) (Softmax.sum_exp_pos v hr)
  have hcolumn : Softmax.column v hr = fun i => Real.exp (v i) / ∑ q, Real.exp (v q) :=
    funext fun i => Softmax.column_real v hr i
  rw [hcolumn]
  exact firstMax_comp hmono v hr

/-- The accuracy under the categorical loss depends on the positions of the
first largest entries alone. -/
theorem accuracy_congr {P Q : Fin r → Fin m → ℝ} (hr : 0 < r)
    (h : ∀ j, firstMax (fun i => P i j) hr = firstMax (fun i => Q i j) hr) (targets : Mat ℝ) :
    accuracy (Grid.ofFn P) targets .categoricalCrossEntropy
      = accuracy (Grid.ofFn Q) targets .categoricalCrossEntropy := by
  have hind : ∀ j : Fin m, predInd (Grid.ofFn P) j = predInd (Grid.ofFn Q) j := fun j => by
    rw [predInd_ofFn P hr, predInd_ofFn Q hr, h]
  unfold accuracy
  rw [Vec.at_row_zero P hr, Vec.at_row_zero Q hr, Checked.ok_bind, Checked.ok_bind]
  dsimp only
  rw [List.length_ofFn, List.length_ofFn]
  unfold Checked.loop
  simp only [hind]

end ModelEvaluator

/-! ## What `predict` returns -/

namespace Network

/-- **The forward pass returns the softmax of the columns that `predict`
returns**, for a network without dropout of which the last layer alone is a
softmax layer. -/
theorem forward_eq_column_predict {N : Network ℝ n p} {before : List (DenseLayer ℝ)}
    {last : DenseLayer ℝ} (hN : N.HeldBy (before ++ [last])) (hkeep : N.KeepsUnits)
    (hbefore : ∀ layer ∈ before, layer.activationFunction ≠ .softmax)
    (hlast : last.activationFunction = .softmax) (rand : ℕ → ℝ) (X : Fin n → Fin m → ℝ)
    (hp : 0 < p) :
    N.forward rand X = fun i j => Softmax.column (fun q => N.predict X q j) hp i := by
  induction N generalizing before rand with
  | nil => exact absurd hN (List.append_ne_nil_of_right_ne_nil _ (List.cons_ne_nil _ _))
  | cons L N ih =>
    obtain ⟨layer, rest, heq, hL, hrest⟩ := hN
    cases before with
    | nil =>
      obtain ⟨rfl, rfl⟩ := List.cons_eq_cons.mp heq
      cases N with
      | nil =>
        -- the last layer: softmax is applied to what inference returns
        have hsoftmax : L.activation = .softmax := hL.activationFunction.symm.trans hlast
        show L.forward rand X = _
        rw [DenseParams.forward_eq_act hkeep.1, DenseParams.act, hsoftmax]
        show _ = fun i j => Softmax.column (fun q => L.predict X q j) hp i
        unfold DenseParams.predict
        rw [hsoftmax]
        rfl
      | cons L' N' =>
        obtain ⟨_, _, hnil, -⟩ := hrest
        exact absurd hnil.symm (List.cons_ne_nil _ _)
    | cons first before =>
      obtain ⟨rfl, rfl⟩ := List.cons_eq_cons.mp heq
      -- a layer before it: training and inference apply the same activation
      have hact : L.activation ≠ .softmax := by
        rw [← hL.activationFunction]
        exact hbefore first List.mem_cons_self
      rw [forward, ← DenseParams.predict_eq_forward hkeep.1 hact]
      exact ih hrest hkeep.2 (fun l hl => hbefore l (List.mem_cons_of_mem _ hl)) _ _ hp

end Network

namespace NeuralNetwork

/-- **Classification by `predict` agrees with the forward pass**: on a network
without dropout of which the last layer alone is a softmax layer, the accuracy
under the categorical loss is the same for both, for all labels. -/
theorem accuracy_predict_eq {nn : NeuralNetwork ℝ} {before : List (DenseLayer ℝ)}
    {last : DenseLayer ℝ} (hlayers : nn.layers = before ++ [last])
    (hchain : Chained n nn.layers p) (hkeep : ∀ layer ∈ nn.layers, 1 ≤ layer.keepProb)
    (hbefore : ∀ layer ∈ before, layer.activationFunction ≠ .softmax)
    (hlast : last.activationFunction = .softmax) (rand : ℕ → ℝ) (X : Fin n → Fin m → ℝ)
    (hn : 0 < n) :
    ∃ (A P : Fin p → Fin m → ℝ) (nn' : NeuralNetwork ℝ) (rand' : ℕ → ℝ),
      nn.forwardPropagation rand (Grid.ofFn X) = .ok (Grid.ofFn A, nn', rand')
      ∧ nn.predict (Grid.ofFn X) = .ok (Grid.ofFn P)
      ∧ (∀ targets : Mat ℝ,
        ModelEvaluator.accuracy (Grid.ofFn P) targets .categoricalCrossEntropy
          = ModelEvaluator.accuracy (Grid.ofFn A) targets .categoricalCrossEntropy)
      ∧ ∀ labels : Fin m → ℝ, ∃ rate, ModelEvaluator.accuracy (Grid.ofFn P) [List.ofFn labels]
        .categoricalCrossEntropy = .ok rate := by
  obtain ⟨N, hN⟩ := Network.chained_iff.mp hchain
  have hunits : N.KeepsUnits :=
    hN.keepsUnits fun layer hlayer => decide_eq_false (not_lt.mpr (hkeep layer hlayer))
  have hp : 0 < p := N.out_pos hn
  obtain ⟨layers, hforward, -⟩ := Network.forwardPropagation_heldBy hN rand X hn
  have hcolumn : N.forward rand X = fun i j => Softmax.column (fun q => N.predict X q j) hp i :=
    Network.forward_eq_column_predict (hlayers ▸ hN) hunits hbefore hlast rand X hp
  refine ⟨N.forward rand X, N.predict X, { nn with layers }, N.randAfter m rand, hforward,
    Network.predictLayers_heldBy hN X hn, fun targets => ?_, fun labels => ?_⟩
  · refine ModelEvaluator.accuracy_congr hp (fun j => ?_) targets
    rw [hcolumn]
    exact (ModelEvaluator.firstMax_column (fun q => N.predict X q j) hp).symm
  · exact ⟨_, ModelEvaluator.accuracy_ofFn (N.predict X) (fun (_ : Fin 1) => labels) _ hp one_pos⟩

/-- A relu unit in front of two softmax units. -/
noncomputable def classifier : NeuralNetwork ℝ :=
  ⟨.categoricalCrossEntropy, [.unit 1 1 0 1 .relu "relu", softmaxPair 1], [], []⟩

theorem classifier_accuracy_predict_eq :
    ∃ (A P : Fin 2 → Fin 1 → ℝ) (nn' : NeuralNetwork ℝ) (rand' : ℕ → ℝ),
      classifier.forwardPropagation (fun _ => 0) [[1]] = .ok (Grid.ofFn A, nn', rand')
      ∧ classifier.predict [[1]] = .ok (Grid.ofFn P)
      ∧ (∀ targets : Mat ℝ,
        ModelEvaluator.accuracy (Grid.ofFn P) targets .categoricalCrossEntropy
          = ModelEvaluator.accuracy (Grid.ofFn A) targets .categoricalCrossEntropy)
      ∧ ∀ labels : Fin 1 → ℝ, ∃ rate, ModelEvaluator.accuracy (Grid.ofFn P) [List.ofFn labels]
        .categoricalCrossEntropy = .ok rate := by
  have hN : (Network.cons (.unit 1 0 1 .relu) (.cons (softmaxPairParams 1) .nil)).HeldBy
      classifier.layers :=
    ⟨_, _, rfl, DenseLayer.unit_holds 1 1 0 1 _ _ rfl, _, _, rfl, softmaxPair_holds 1, rfl⟩
  have hlayers : classifier.layers = [.unit 1 1 0 1 .relu "relu"] ++ [softmaxPair 1] := rfl
  refine accuracy_predict_eq hlayers (Network.chained_iff.mpr ⟨_, hN⟩) (fun layer hlayer => ?_)
    (fun layer hlayer => ?_) rfl (fun _ => 0) (fun (_ : Fin 1) (_ : Fin 1) => 1) one_pos
  · rcases List.mem_cons.mp hlayer with rfl | hlayer
    · exact le_refl (1 : ℝ)
    · obtain rfl := List.mem_singleton.mp hlayer
      exact le_refl (1 : ℝ)
  · obtain rfl := List.mem_singleton.mp hlayer
    show ActivationFunction.relu ≠ .softmax
    decide

end NeuralNetwork
