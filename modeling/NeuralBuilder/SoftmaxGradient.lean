import NeuralBuilder.DenseParams
import NeuralBuilder.RealLoss

/-!
# Softmax with categorical cross entropy

The derivative of the categorical loss is the predictions with `1` taken off
at the label of each sample. On the output of softmax this is the exact
gradient of the loss with respect to what softmax was applied to
(`softmax_exactGradient`), which is why `backward` of a softmax layer takes it
for `dz` as it is. Where the layer drops units it goes through the dropout
mask first.

A column is differentiated in one of its entries at a time, the negative
logarithm of a probability being the logarithm of the sum less the entry. The
labels are positions, so that a target the loss could not read does not come up.
`ExactGradient` has the signs as well: only the entry at the label is not
positive, and no entry is larger than `1`. With dropout the derivative is that
of a loss of the masked output, and the last theorem has a unit for which it
differs.
-/

variable {n m : ℕ}

namespace Softmax

/-! ## A column -/

section Column

variable (v : Fin n → ℝ) (hn : 0 < n)

/-- **The derivative of the negative logarithm of a softmax entry** in one
entry of the column. -/
theorem hasDerivAt_neg_log_column (i label : Fin n) :
    HasDerivAt (fun x => -Real.log (column (Function.update v i x) hn label))
      (if i = label then column v hn i - 1 else column v hn i) (v i) := by
  have hentry : ∀ q,
      HasDerivAt (fun x => Function.update v i x q) (if q = i then 1 else 0) (v i) := by
    intro q
    by_cases hq : q = i
    · subst hq
      simp only [Function.update_self, if_pos]
      exact hasDerivAt_id (v q)
    · simp only [Function.update_of_ne hq, if_neg hq]
      exact hasDerivAt_const (v i) (v q)
  have hsum : HasDerivAt (fun x => ∑ q, Real.exp (Function.update v i x q))
      (Real.exp (v i)) (v i) := by
    refine (HasDerivAt.fun_sum fun q _ => (hentry q).exp).congr_deriv ?_
    simp only [Function.update_eq_self, mul_ite, mul_one, mul_zero]
    rw [Finset.sum_ite_eq' Finset.univ i fun q => Real.exp (v q), if_pos (Finset.mem_univ i)]
  have hpos : ∑ q, Real.exp (Function.update v i (v i) q) ≠ 0 := (sum_exp_pos _ hn).ne'
  -- the loss is the logarithm of the sum, less the entry of the label
  have hvalue : (fun x => -Real.log (column (Function.update v i x) hn label))
      = fun x => Real.log (∑ q, Real.exp (Function.update v i x q))
        - Function.update v i x label := by
    funext x
    have h := CategoricalCrossEntropy.neg_log_softmax (Function.update v i x) hn label
    rwa [add_zero] at h
  rw [hvalue]
  refine ((hsum.log hpos).fun_sub (hentry label)).congr_deriv ?_
  rw [Function.update_eq_self, ← column_real v hn i]
  by_cases hi : i = label
  · rw [if_pos hi, if_pos hi.symm]
  · rw [if_neg hi, if_neg fun h => hi h.symm, sub_zero]

end Column

end Softmax

/-! ## The whole matrix -/

/-- `A` with the entry in row `i` and column `j` replaced by `x`. -/
def Grid.update {α : Type} {r c : ℕ} (A : Fin r → Fin c → α) (i : Fin r) (j : Fin c) (x : α) :
    Fin r → Fin c → α :=
  Function.update A i (Function.update (A i) j x)

/-- The column of the entry that was replaced. -/
theorem Grid.update_column {α : Type} {r c : ℕ} (A : Fin r → Fin c → α) (i : Fin r) (j : Fin c)
    (x : α) : (fun q => Grid.update A i j x q j) = Function.update (fun q => A q j) i x := by
  funext q
  unfold Grid.update
  by_cases hq : q = i
  · subst hq
    rw [Function.update_self, Function.update_self, Function.update_self]
  · rw [Function.update_of_ne hq, Function.update_of_ne hq]

/-- An entry replaced by itself. -/
theorem Grid.update_self {α : Type} {r c : ℕ} (A : Fin r → Fin c → α) (i : Fin r) (j : Fin c) :
    Grid.update A i j (A i j) = A := by
  unfold Grid.update
  rw [Function.update_eq_self, Function.update_eq_self]

/-- The entries move with the one that is replaced, or not at all. -/
theorem Grid.update_hasDerivAt {r c : ℕ} (A : Fin r → Fin c → ℝ) (i i' : Fin r) (j j' : Fin c)
    (x : ℝ) : HasDerivAt (fun x => Grid.update A i j x i' j')
      (if i' = i then if j' = j then 1 else 0 else 0) x := by
  unfold Grid.update
  by_cases hi : i' = i
  · subst hi
    by_cases hj : j' = j
    · subst hj
      simp only [Function.update_self, if_pos]
      exact hasDerivAt_id x
    · simp only [Function.update_self, Function.update_of_ne hj, if_pos, if_neg hj]
      exact hasDerivAt_const x _
  · simp only [Function.update_of_ne hi, if_neg hi]
    exact hasDerivAt_const x _

namespace CategoricalCrossEntropy

/-- **`G` is the gradient of the loss of softmax**, for the label of each
column: entry `(i, j)` is the partial derivative of the negative logarithm of
the predicted probability of the label of column `j` with respect to entry
`(i, j)` of what softmax is applied to. The columns add up to `0`, and only
the entry at the label is not positive. -/
structure ExactGradient (Z : Fin n → Fin m → ℝ) (hn : 0 < n) (label : Fin m → Fin n)
    (G : Fin n → Fin m → ℝ) : Prop where
  /-- Every entry is a partial derivative. -/
  partialDerivative : ∀ i j, HasDerivAt (fun x => -Real.log
    (ActivationFunction.softmax.onGrid hn (Grid.update Z i j x) (label j) j)) (G i j) (Z i j)
  /-- A column adds up to `0`. -/
  column_sum : ∀ j, ∑ i, G i j = 0
  /-- Off the label entries are positive. -/
  off_label : ∀ i j, i ≠ label j → 0 < G i j ∧ G i j ≤ 1
  /-- At the label the entry is not. -/
  at_label : ∀ j, -1 < G (label j) j ∧ G (label j) j ≤ 0

/-- The labels as a row of numbers. -/
def labels (label : Fin m → Fin n) : Fin 1 → Fin m → ℝ := fun _ j => ((label j : ℕ) : ℝ)

theorem labels_fits (label : Fin m → Fin n) :
    LossFunction.categoricalCrossEntropy.Fits n (labels label) := by
  refine ⟨one_pos, fun j => ?_⟩
  unfold labels
  rw [Double.toInt_natCast]
  exact ⟨Int.natCast_nonneg _, by exact_mod_cast (label j).isLt⟩

theorem targetInd_labels (label : Fin m → Fin n) (j : Fin m) :
    targetInd (labels label) (labels_fits label) j = label j := by
  refine Fin.ext ?_
  show (Double.toInt (((label j : ℕ) : ℝ))).toNat = label j
  rw [Double.toInt_natCast, Int.toNat_natCast]

/-- The predictions with `1` taken off at the labels. -/
def lessLabels (P : Fin n → Fin m → ℝ) (label : Fin m → Fin n) : Fin n → Fin m → ℝ :=
  fun i j => if i = label j then P i j - 1 else P i j

theorem derivative_labels (P : Fin n → Fin m → ℝ) (hn : 0 < n) (label : Fin m → Fin n) :
    derivative (Grid.ofFn P) (Grid.ofFn (labels label)) = .ok (Grid.ofFn (lessLabels P label)) := by
  rw [derivative_ofFn P (labels label) hn (labels_fits label)]
  simp only [targetInd_labels]
  rfl

/-- **What `derivative` returns on the output of softmax is the gradient.** -/
theorem exactGradient_lessLabels (Z : Fin n → Fin m → ℝ) (hn : 0 < n) (label : Fin m → Fin n) :
    ExactGradient Z hn label (lessLabels (ActivationFunction.softmax.onGrid hn Z) label) := by
  have hG : ∀ i j, lessLabels (ActivationFunction.softmax.onGrid hn Z) label i j
      = if i = label j then Softmax.column (fun q => Z q j) hn i - 1
        else Softmax.column (fun q => Z q j) hn i := fun _ _ => rfl
  refine ⟨fun i j => ?_, fun j => ?_, fun i j hi => ?_, fun j => ?_⟩
  · -- each entry is the derivative of the loss
    have h := Softmax.hasDerivAt_neg_log_column (fun q => Z q j) hn i (label j)
    rw [hG]
    refine h.congr_of_eventuallyEq (Filter.Eventually.of_forall fun x => ?_)
    show -Real.log (Softmax.column (fun q => Grid.update Z i j x q j) hn (label j)) = _
    rw [Grid.update_column]
  · -- the column sums to one less one
    have hterm : ∀ i, lessLabels (ActivationFunction.softmax.onGrid hn Z) label i j
        = Softmax.column (fun q => Z q j) hn i - if i = label j then 1 else 0 := by
      intro i
      rw [hG]
      split_ifs
      · rfl
      · rw [sub_zero]
    simp only [hterm]
    rw [Finset.sum_sub_distrib, Softmax.sum_column, Finset.sum_ite_eq' Finset.univ (label j),
      if_pos (Finset.mem_univ _), sub_self]
  · -- off the label the entry is a probability
    rw [hG, if_neg hi]
    exact ⟨Softmax.column_pos _ hn i, Softmax.column_le_one _ hn i⟩
  · -- at the label it is one less than a probability
    rw [hG, if_pos rfl]
    have hpos := Softmax.column_pos (fun q => Z q j) hn (label j)
    have hle := Softmax.column_le_one (fun q => Z q j) hn (label j)
    exact ⟨by linarith, by linarith⟩

end CategoricalCrossEntropy

namespace DenseLayer

/-- **`backward` of a softmax layer** that keeps its units takes what it is
given for `dz`. -/
theorem backwardDz_softmax {α : Type} [Double α] {layer : DenseLayer α}
    (hsoftmax : layer.activationFunc = "softmax") (hkeep : Double.lt layer.keepProb 1 = false)
    (da : Mat α) : layer.backwardDz da = .ok da := by
  rw [backwardDz, hkeep, if_neg Bool.false_ne_true, Checked.ok_bind, if_pos hsoftmax]

end DenseLayer

namespace CategoricalCrossEntropy

/-- **Softmax with categorical cross entropy has the exact gradient**, and
`backward` of a softmax layer without dropout uses it for `dz` as it is. -/
theorem softmax_exactGradient (Z : Fin n → Fin m → ℝ) (hn : 0 < n)
    (label : Fin m → Fin n) :
    ∃ A G : Fin n → Fin m → ℝ, Softmax.activateMat (Grid.ofFn Z) = .ok (Grid.ofFn A)
      ∧ derivative (Grid.ofFn A) (Grid.ofFn (labels label)) = .ok (Grid.ofFn G)
      ∧ ExactGradient Z hn label G
      ∧ ∀ layer : DenseLayer ℝ, layer.activationFunc = "softmax" → 1 ≤ layer.keepProb →
        layer.backwardDz (Grid.ofFn G) = .ok (Grid.ofFn G)
        ∧ layer.backward (Grid.ofFn G) = layer.backwardFromDz m (Grid.ofFn G) := by
  refine ⟨ActivationFunction.softmax.onGrid hn Z, _, Softmax.activateMat_ofFn Z hn,
    derivative_labels _ hn label, exactGradient_lessLabels Z hn label,
    fun layer hsoftmax hkeep => ?_⟩
  have hdz := DenseLayer.backwardDz_softmax hsoftmax (decide_eq_false (not_lt.mpr hkeep))
    (Grid.ofFn (lessLabels (ActivationFunction.softmax.onGrid hn Z) label))
  refine ⟨hdz, ?_⟩
  rw [DenseLayer.backward_eq, Vec.at_row_zero _ hn, Checked.ok_bind, hdz, Checked.ok_bind,
    List.length_ofFn]

theorem zeros_exactGradient :
    ∃ A G : Fin 2 → Fin 1 → ℝ, Softmax.activateMat [[0], [0]] = .ok (Grid.ofFn A)
      ∧ derivative (Grid.ofFn A) (Grid.ofFn (labels fun _ : Fin 1 => (0 : Fin 2)))
        = .ok (Grid.ofFn G)
      ∧ ExactGradient (fun _ _ => 0) two_pos (fun _ => 0) G
      ∧ ∀ layer : DenseLayer ℝ, layer.activationFunc = "softmax" → 1 ≤ layer.keepProb →
        layer.backwardDz (Grid.ofFn G) = .ok (Grid.ofFn G)
        ∧ layer.backward (Grid.ofFn G) = layer.backwardFromDz 1 (Grid.ofFn G) :=
  softmax_exactGradient (fun (_ : Fin 2) (_ : Fin 1) => 0) two_pos fun _ => 0

end CategoricalCrossEntropy

/-! ## A softmax layer that drops units -/

/-- Two softmax units on one feature. -/
def softmaxPair (keepProb : ℝ) : DenseLayer ℝ where
  addr := 0
  inputSize := 1
  outputSize := 2
  learningRate := 1
  lambda := 0
  keepProb
  dropoutMask := []
  w := [[0], [0]]
  b := [0, 0]
  dw := [[0], [0]]
  db := [0, 0]
  z := []
  a := []
  aPrev := []
  activationFunction := .softmax
  activationFunc := "softmax"

/-- Their parameters. -/
def softmaxPairParams (keepProb : ℝ) : DenseParams ℝ 1 2 :=
  ⟨fun _ _ => 0, fun _ => 0, 1, 0, keepProb, .softmax, Nat.succ_pos 1⟩

theorem softmaxPair_holds (keepProb : ℝ) :
    (softmaxPair keepProb).Holds (softmaxPairParams keepProb) :=
  ⟨rfl, rfl, rfl, rfl, rfl, rfl, rfl, rfl, rfl⟩

/-- A forward pass that keeps both units leaves the pre-activations `0`, and a
mask that doubles. -/
theorem softmaxPair_caches {layer : DenseLayer ℝ}
    (hheld : layer.Holds (softmaxPairParams (1 / 2)))
    (hcached : layer.Caches (softmaxPairParams (1 / 2)) (fun _ => 0)
      (fun (_ : Fin 1) (_ : Fin 1) => 1)) (da : Fin 2 → Fin 1 → ℝ) :
    layer.z = [[0], [0]]
      ∧ layer.backwardDz (Grid.ofFn da) = .ok (Grid.ofFn fun i j => 2 * da i j) := by
  have hz : (softmaxPairParams (1 / 2)).preact (fun (_ : Fin 1) (_ : Fin 1) => 1)
      = fun _ _ => 0 := by
    funext i j
    show MathUtils.dot (fun _ => (0 : ℝ)) (fun _ => 1) + 0 = 0
    rw [MathUtils.dot_real, add_zero]
    exact Finset.sum_eq_zero fun q _ => zero_mul _
  have hdrops : (softmaxPairParams (1 / 2)).drops = true :=
    decide_eq_true (show (1 / 2 : ℝ) < 1 by norm_num)
  have hgate : ∀ i j, (softmaxPairParams (1 / 2)).gate (fun _ => 0) i (j : Fin 1) = 1 :=
    fun i j => if_pos (decide_eq_true (show (0 : ℝ) < 1 / 2 by norm_num))
  have hsoftmax : (softmaxPairParams (1 / 2)).activation = .softmax := rfl
  refine ⟨hcached.z.trans (by rw [hz]; rfl), ?_⟩
  rw [DenseLayer.backwardDz_holds hheld hcached, DenseParams.dz, if_pos hsoftmax,
    DenseParams.masked, if_pos hdrops]
  refine congrArg (fun A => Except.ok (Grid.ofFn A)) (funext fun i => funext fun j => ?_)
  rw [hgate]
  show da i j * 1 / (1 / 2) = 2 * da i j
  ring

/-- **With dropout the gradient is not used as it is**: after a forward pass
in which both units are kept with probability `1 / 2`, `backward` doubles
it. -/
theorem softmaxPair_changes_gradient : ∃ (a : Mat ℝ) (layer : DenseLayer ℝ) (rand : ℕ → ℝ),
    (softmaxPair (1 / 2)).forward (fun _ => 0) [[1]] = .ok (a, layer, rand)
      ∧ layer.activationFunc = "softmax" ∧ layer.z = [[0], [0]]
      ∧ Softmax.activateMat [[(0 : ℝ)], [0]] = .ok [[1 / 2], [1 / 2]]
      ∧ CategoricalCrossEntropy.derivative [[1 / 2], [1 / 2]] [[0]]
        = .ok [[-(1 / 2)], [(1 / 2 : ℝ)]]
      ∧ layer.backwardDz [[-(1 / 2)], [1 / 2]] = .ok [[-1], [1]] := by
  obtain ⟨layer, hrun, hheld, hcached, -⟩ := DenseLayer.forward_holds (softmaxPair_holds (1 / 2))
    (fun _ => 0) (fun (_ : Fin 1) (_ : Fin 1) => (1 : ℝ)) one_pos
  have hcaches := softmaxPair_caches hheld hcached
  refine ⟨_, layer, _, hrun, (DenseLayer.softmax_name_iff hheld).mpr rfl, (hcaches 0).1, ?_, ?_, ?_⟩
  · -- softmax of two equal entries
    have h := Softmax.activateMat_ofFn (fun (_ : Fin 2) (_ : Fin 1) => (0 : ℝ)) two_pos
    simp only [Softmax.column_const] at h
    exact h
  · -- the label is the first class
    have h := CategoricalCrossEntropy.derivative_labels (fun (_ : Fin 2) (_ : Fin 1) => 1 / 2)
      two_pos fun _ => 0
    rw [show -(1 / 2 : ℝ) = 1 / 2 - 1 by norm_num]
    simpa [Grid.ofFn, CategoricalCrossEntropy.labels, CategoricalCrossEntropy.lessLabels] using h
  · have h := (hcaches fun i _ => if i = 0 then -(1 / 2) else 1 / 2).2
    simpa [Grid.ofFn] using h
