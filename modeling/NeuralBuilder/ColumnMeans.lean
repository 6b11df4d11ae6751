import NeuralBuilder.BatchMean
import NeuralBuilder.EpochMetrics

/-!
# Metrics are means over columns

What `accuracy` and both `calculateLoss` add up for a sample depends on the
column of the sample alone, and they divide by the number of columns. So the
metrics of two batches side by side are the means of those of the batches, each
weighted with its number of samples (`metrics_append`).

Both accuracies and both costs are covered: for each there is a number for a
column, and the metric is the sum of the numbers divided by how many there are.
That the range of the accuracy is from `0` to `1` follows from the same sums.
The cost of sigmoid cross entropy is a sum over the entries of a column as well.
-/

variable {r t m c m₁ m₂ : ℕ}

/-! ## The metrics of a column -/

theorem LossFunction.sampleLoss_cols (lossFunction : LossFunction) (P : Fin r → Fin m → ℝ)
    (T : Fin t → Fin m → ℝ) (h : lossFunction.Fits r T) (f : Fin c → Fin m) :
    lossFunction.sampleLoss (Grid.cols P f) (Grid.cols T f) (h.cols f)
      = fun j => lossFunction.sampleLoss P T h (f j) := by
  cases lossFunction <;> rfl

theorem ModelEvaluator.sampleHit_cols (lossFunction : LossFunction) (P : Fin r → Fin m → ℝ)
    (T : Fin t → Fin m → ℝ) (hr : 0 < r) (ht : 0 < t) (f : Fin c → Fin m) :
    sampleHit lossFunction (Grid.cols P f) (Grid.cols T f) hr ht
      = fun j => sampleHit lossFunction P T hr ht (f j) := by
  cases lossFunction <;> rfl

/-! ## Two batches side by side -/

/-- **Two grids of as many rows are the columns of one.** -/
theorem Grid.exists_sides {β : Type} (P : Fin r → Fin m₁ → β) (Q : Fin r → Fin m₂ → β) :
    ∃ R : Fin r → Fin (m₁ + m₂) → β, Grid.cols R (Fin.castAdd m₂) = P
      ∧ Grid.cols R (Fin.natAdd m₁) = Q
      ∧ Grid.append (Grid.ofFn P) (Grid.ofFn Q) = Grid.ofFn R :=
  ⟨fun i => Fin.append (P i) (Q i), funext₂ fun i j => Fin.append_left (P i) (Q i) j,
    funext₂ fun i j => Fin.append_right (P i) (Q i) j, Grid.append_ofFn P Q⟩

/-- Targets fit where those of both sides do. -/
theorem LossFunction.Fits.of_sides {lossFunction : LossFunction} {T : Fin t → Fin (m₁ + m₂) → ℝ}
    (hleft : lossFunction.Fits r (Grid.cols T (Fin.castAdd m₂)))
    (hright : lossFunction.Fits r (Grid.cols T (Fin.natAdd m₁))) : lossFunction.Fits r T := by
  cases lossFunction with
  | sigmoidCrossEntropy => exact hleft
  | categoricalCrossEntropy =>
    exact ⟨hleft.1, Fin.addCases hleft.2 hright.2⟩

/-- There are rows of targets where they fit predictions. -/
theorem LossFunction.Fits.pos {lossFunction : LossFunction} {T : Fin t → Fin m → ℝ}
    (h : lossFunction.Fits r T) (hr : 0 < r) : 0 < t := by
  cases lossFunction with
  | sigmoidCrossEntropy => exact hr.trans_le h
  | categoricalCrossEntropy => exact h.1

/-- **A metric is a mean over columns** where what it returns for two batches
side by side, times the number of columns of both, is the sum of what it returns
for each times the number of its columns. -/
def AveragesColumns (metric : Mat ℝ → Mat ℝ → Except Fault ℝ) (P Q T U : Mat ℝ)
    (m₁ m₂ : ℕ) : Prop :=
  ∃ left right both, metric P T = .ok left ∧ metric Q U = .ok right
    ∧ metric (Grid.append P Q) (Grid.append T U) = .ok both
    ∧ both * ((m₁ : ℝ) + m₂) = m₁ * left + m₂ * right

/-- **The metrics are means over columns**: the accuracy by either rule, and
both losses on targets that fit. The accuracy of any batch lies between `0` and
`1`. -/
theorem LossFunction.metrics_append (lossFunction : LossFunction) {P Q T U : Mat ℝ}
    (hP : Grid.IsRect r m₁ P) (hQ : Grid.IsRect r m₂ Q) (hT : Grid.IsRect t m₁ T)
    (hU : Grid.IsRect t m₂ U) (hr : 0 < r) (h₁ : 0 < m₁) (h₂ : 0 < m₂)
    (hfitT : lossFunction.TargetsFit r T) (hfitU : lossFunction.TargetsFit r U) :
    AveragesColumns lossFunction.calculateLoss P Q T U m₁ m₂
    ∧ (∀ rule : LossFunction,
        AveragesColumns (ModelEvaluator.accuracy · · rule) P Q T U m₁ m₂)
    ∧ ∀ (predictions targets : Mat ℝ) (rule : LossFunction) (a : ℝ),
        ModelEvaluator.accuracy predictions targets rule = .ok a → 0 ≤ a ∧ a ≤ 1 := by
  obtain ⟨P, rfl⟩ := Grid.exists_ofFn hP
  obtain ⟨Q, rfl⟩ := Grid.exists_ofFn hQ
  obtain ⟨T, rfl⟩ := Grid.exists_ofFn hT
  obtain ⟨U, rfl⟩ := Grid.exists_ofFn hU
  have hT := hfitT.fits
  have hU := hfitU.fits
  obtain ⟨R, rfl, rfl, hR⟩ := Grid.exists_sides P Q
  obtain ⟨V, rfl, rfl, hV⟩ := Grid.exists_sides T U
  have hfit := hT.of_sides hU
  have ht := hfit.pos hr
  refine ⟨?_, fun rule => ?_, fun _ _ _ _ h => ModelEvaluator.accuracy_mem_Icc h⟩
  · refine ⟨_, _, Chunks.mean (lossFunction.sampleLoss R V hfit),
      calculateLoss_eq _ _ hr (hfit.cols _), calculateLoss_eq _ _ hr (hfit.cols _), ?_, ?_⟩
    · rw [hR, hV]
      exact calculateLoss_eq R V hr hfit
    · rw [sampleLoss_cols, sampleLoss_cols]
      exact Chunks.mean_parts h₁ h₂ _
  · refine ⟨_, _, Chunks.mean (ModelEvaluator.sampleHit rule R V hr ht),
      ModelEvaluator.accuracy_eq rule _ _ hr ht, ModelEvaluator.accuracy_eq rule _ _ hr ht, ?_, ?_⟩
    · dsimp only
      rw [hR, hV]
      exact ModelEvaluator.accuracy_eq rule R V hr ht
    · rw [ModelEvaluator.sampleHit_cols, ModelEvaluator.sampleHit_cols]
      exact Chunks.mean_parts h₁ h₂ _

/-- Three samples of two classes, two of them in one batch. -/
theorem LossFunction.metrics_append_classes :
    AveragesColumns LossFunction.categoricalCrossEntropy.calculateLoss
      [[1, 0.5], [0, 0.5]] [[0.25], [0.75]] [[0, 1]] [[1]] 2 1 := by
  have hfit (labels : List ℝ) (h : ∀ label ∈ labels, label = 0 ∨ label = 1) :
      LossFunction.categoricalCrossEntropy.TargetsFit 2 [labels] := by
    refine ⟨labels, [], rfl, fun label hlabel => ?_⟩
    rcases h label hlabel with rfl | rfl
    · rw [show Double.toInt (0 : ℝ) = 0 from mod_cast Double.toInt_natCast 0]
      exact ⟨le_refl _, two_pos⟩
    · rw [show Double.toInt (1 : ℝ) = 1 from mod_cast Double.toInt_natCast 1]
      exact ⟨zero_le_one, one_lt_two⟩
  have hP : Grid.IsRect 2 2 [[(1 : ℝ), 0.5], [0, 0.5]] := by decide
  have hQ : Grid.IsRect 2 1 [[(0.25 : ℝ)], [0.75]] := by decide
  have hT : Grid.IsRect 1 2 [[(0 : ℝ), 1]] := by decide
  have hU : Grid.IsRect 1 1 [[(1 : ℝ)]] := by decide
  exact (metrics_append .categoricalCrossEntropy hP hQ hT hU two_pos two_pos one_pos
    (hfit [0, 1] (by simp)) (hfit [1] (by simp))).1
