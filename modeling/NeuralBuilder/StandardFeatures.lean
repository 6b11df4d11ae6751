import NeuralBuilder.Normalization
import NeuralBuilder.Library.Standardise

/-!
# What `normalize` does to the features

Over the reals `normalize(X, true)` standardises every row of `X`. On a new
network `normalize(Y, false)` then applies the same affine map to the rows of
any `Y`, since the two branches compute the same function of the stored mean
and deviation (`normalize_standardises`). The map is the one the mean and the
deviation of the row of `X` make: its slope is the inverse of the deviation,
and `1` for a row that is constant, so that at inference a feature that did
not vary in training is moved by its mean and keeps its scale.

That the first branch standardises is the library on standardised values
(`Standardise`), once the loops of `mean` and `stdev` are put as sums.
`StandardisesBy` collects what follows of one call: means, mean squares, what
becomes of a constant row, the map at inference, and that training on what was
returned changes nothing.
-/

namespace NeuralNetwork

variable {n m : ℕ}

/-! ## The statistics are those of the library -/

theorem mean_ofFn (v : Fin m → ℝ) : mean m (List.ofFn v) = Standardise.mean v := by
  unfold mean Standardise.mean
  rw [Checked.foldl_ofFn_eq_add_sum (a := v) fun _ _ => rfl, zero_add, Fintype.card_fin]

theorem isSqrt_sqrt : Standardise.IsSqrt Real.sqrt :=
  ⟨Real.sqrt_nonneg, fun _ => Real.mul_self_sqrt⟩

theorem stdev_ofFn (v : Fin m → ℝ) :
    stdev m (List.ofFn v) = Standardise.deviation Real.sqrt v := by
  unfold stdev Standardise.deviation Standardise.variance
  have hsum := Checked.foldl_ofFn_eq_add_sum (g := v)
    (f := fun s val => s + (val - Standardise.mean v) * (val - Standardise.mean v))
    (fun _ _ => rfl) 0
  rw [mean_ofFn, Double.sqrt_real, hsum, zero_add, Fintype.card_fin]

/-- The map of a feature is the one that standardises it. -/
theorem rescale_ofFn (v : Fin m → ℝ) (x : ℝ) :
    rescale (mean m (List.ofFn v)) (stdev m (List.ofFn v)) x
      = Standardise.rescale Real.sqrt v x := by
  unfold rescale Standardise.rescale
  rw [mean_ofFn, stdev_ofFn]
  simp only [Double.eq_real, decide_eq_true_eq]

/-- **`normalize(X, true)` standardises the rows.** -/
theorem normalizeTraining_standardise (nn : NeuralNetwork ℝ) (X : Fin n → Fin m → ℝ)
    (hn : 0 < n) :
    nn.normalizeTraining (Grid.ofFn X)
      = .ok (Grid.ofFn fun i => Standardise.standardise Real.sqrt (X i),
          { nn with
            means := nn.means ++ List.ofFn fun i => mean m (List.ofFn (X i))
            stdevs := nn.stdevs ++ List.ofFn fun i => stdev m (List.ofFn (X i)) }) := by
  rw [normalizeTraining_ofFn nn X hn]
  simp only [rescale_ofFn]
  rfl

/-! ## Training and inference -/

/-- **The map of a feature**: multiplication with the slope that the training
values `v` have, `1` where their deviation is `0` and its inverse elsewhere,
after which the mean of `v` is at `0`. -/
noncomputable def featureMap (v : Fin m → ℝ) (x : ℝ) : ℝ :=
  Standardise.slope Real.sqrt v * x + Standardise.offset Real.sqrt v

/-- It is the map that standardises `v`. -/
theorem featureMap_eq_rescale (v : Fin m → ℝ) : featureMap v = Standardise.rescale Real.sqrt v :=
  funext fun x => (Standardise.rescale_eq Real.sqrt v x).symm

/-- **`normalize(X, true)` returns the standardised rows `Z`**, and leaves
`nn'`, for which `normalize(Y, false)` applies the same affine map to every
row. Standardised rows are left as they are. -/
structure StandardisesBy (nn : NeuralNetwork ℝ) (X Z : Fin n → Fin m → ℝ)
    (nn' : NeuralNetwork ℝ) : Prop where
  /-- What `normalize(X, true)` returns and leaves. -/
  training : nn.normalizeTraining (Grid.ofFn X) = .ok (Grid.ofFn Z, nn')
  /-- Every row has mean `0`. -/
  mean : ∀ i, (∑ j, Z i j) / m = 0
  /-- A row that varies has mean square `1`. -/
  meanSquare : ∀ i, (∃ j j', X i j ≠ X i j') → (∑ j, Z i j * Z i j) / m = 1
  /-- A row that does not vary is all zeros. -/
  constant : ∀ i, (∀ j j', X i j = X i j') → ∀ j, Z i j = 0
  /-- The row has gone through the map of its feature. -/
  affine : ∀ i j, Z i j = featureMap (X i) (X i j)
  /-- At inference every row of any matrix goes through the same map, whether
  the feature varied in training or not. -/
  inference : ∀ (Y : Mat ℝ) (h : Y.length = n), nn'.normalizeWith Y
    = .ok (List.ofFn fun i => (Y.get (i.cast h.symm)).map (featureMap (X i)))
  /-- The training matrix comes out as in training. -/
  repeats : nn'.normalizeWith (Grid.ofFn X) = .ok (Grid.ofFn Z)
  /-- Training on what was returned returns it, on any network. -/
  again : ∀ other : NeuralNetwork ℝ, ∃ other',
    other.normalizeTraining (Grid.ofFn Z) = .ok (Grid.ofFn Z, other')

/-- **`normalize(Y, false)` after `normalize(X, true)`** on a new network
applies the maps that standardise the rows of `X`. -/
theorem normalizeWith_measured {nn nn' : NeuralNetwork ℝ} (hmeans : nn.means = [])
    (hstdevs : nn.stdevs = []) (X : Fin n → Fin m → ℝ) {Z : Mat ℝ}
    (h : nn.normalizeTraining (Grid.ofFn X) = .ok (Z, nn')) (Y : Mat ℝ) (hY : Y.length = n) :
    nn'.normalizeWith Y = .ok (List.ofFn fun i =>
      (Y.get (i.cast hY.symm)).map (Standardise.rescale Real.sqrt (X i))) := by
  obtain ⟨-, hstatistics⟩ := normalizeTraining_statistics (Grid.isRect_ofFn X) h
  rw [hmeans, hstdevs, List.nil_append, List.nil_append] at hstatistics
  rw [normalizeWith_of_statistics (X := Grid.ofFn X) [] []
    (by rw [List.append_nil, List.append_nil]; exact hstatistics)
    (by rw [Grid.length_ofFn, hY])]
  refine congrArg Except.ok (List.ext_getElem (by simp [Grid.ofFn, hY]) fun i h₁ h₂ => ?_)
  simp only [Grid.ofFn, List.getElem_zipWith, List.getElem_ofFn, List.length_ofFn,
    List.get_eq_getElem, Fin.val_cast]
  exact List.map_congr_left fun x _ => rescale_ofFn _ x

/-- **Normalisation standardises, and inference repeats the map of training**,
on every new network and for every matrix with a feature and a sample. The map
of a feature is the one that its mean and its deviation make, also for a feature
that is constant (`featureMap`). -/
theorem normalize_standardises {noise : ℕ → Noise ℝ} {next : ℕ} {args : HyperParameters ℝ}
    {nn : NeuralNetwork ℝ} (hnew : NeuralNetwork.new noise next args = .ok nn)
    (X : Fin n → Fin m → ℝ) (hn : 0 < n) (hm : 0 < m) :
    ∃ Z nn', nn.StandardisesBy X Z nn' := by
  have : Nonempty (Fin m) := ⟨⟨0, hm⟩⟩
  obtain ⟨hmeans, hstdevs⟩ := new_statistics hnew
  have htraining := normalizeTraining_standardise nn X hn
  have hinference := normalizeWith_measured hmeans hstdevs X htraining
  have hconst : ∀ i, Standardise.deviation Real.sqrt (X i) = 0 ↔ ∀ j j', X i j = X i j' := by
    intro i
    rw [Standardise.deviation_eq_zero_iff_const isSqrt_sqrt]
    constructor
    · rintro ⟨c, hc⟩ j j'
      rw [hc j, hc j']
    · exact fun h => ⟨X i ⟨0, hm⟩, fun j => h j _⟩
  refine ⟨fun i => Standardise.standardise Real.sqrt (X i), _, htraining, fun i => ?_,
    fun i hi => ?_, fun i hi j => ?_,
    fun i j => (congrFun (featureMap_eq_rescale (X i)) (X i j)).symm,
    fun Y hY => ?_, ?_, fun other => ?_⟩
  · -- mean zero
    rw [Standardise.sum_standardise isSqrt_sqrt, zero_div]
  · -- mean square one
    have hne : Standardise.deviation Real.sqrt (X i) ≠ 0 := by
      obtain ⟨j, j', hj⟩ := hi
      exact fun hzero => hj ((hconst i).mp hzero j j')
    have h := Standardise.meanSquare_standardise isSqrt_sqrt hne
    rwa [Fintype.card_fin] at h
  · -- a constant feature becomes zero
    exact Standardise.standardise_of_deviation_eq_zero isSqrt_sqrt ((hconst i).mpr hi) j
  · -- any other matrix goes through the same affine maps
    rw [hinference Y hY]
    simp only [featureMap_eq_rescale]
  · -- the training matrix comes out as in training
    rw [hinference _ (Grid.length_ofFn X)]
    refine congrArg Except.ok (List.ofFn_inj.mpr (funext fun i => ?_))
    rw [List.get_eq_getElem]
    simp only [Grid.ofFn, List.getElem_ofFn, List.map_ofFn]
    rfl
  · -- standard features stay as they are
    have h := normalizeTraining_standardise other
      (fun i => Standardise.standardise Real.sqrt (X i)) hn
    simp only [Standardise.standardise_standardise isSqrt_sqrt] at h
    exact ⟨_, h⟩

theorem exampleNetwork_standardises : ∃ nn : NeuralNetwork ℝ,
    NeuralNetwork.new (fun _ => Noise.zero) 0 exampleArgs = .ok nn
      ∧ ∃ Z nn',
        nn.StandardisesBy (fun (i j : Fin 2) => if i = 0 then (j : ℕ) else 5) Z nn' := by
  obtain ⟨nn, hnew, -⟩ := exists_exampleNetwork
  exact ⟨nn, hnew, normalize_standardises hnew _ two_pos two_pos⟩

end NeuralNetwork
