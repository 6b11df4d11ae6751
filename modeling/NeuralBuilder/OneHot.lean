import NeuralBuilder.Loss
import NeuralBuilder.NeuralNetwork

/-!
# Class indices and one-hot columns

Categorical cross entropy is implemented twice. The matrix overloads, which
training uses, take a row of class indices; the vector overloads, which are
older, take one sample with a one-hot column of targets, and search it for the
`1`. The encoder between the two is `labelToOneHot` of the data set loader.

The two are the same loss (`calculateLoss_eq_oneHot`), in any arithmetic that
represents the numbers of the classes and in which subtracting `0` changes
nothing: they add up the same terms in the same order.

The terms that the older overload adds for the other classes are `0` times a
logarithm, and it leaves them out by looking for the `1`. Equality is equality
of the computed numbers, rounding included, for the cost and for its derivative.
The encoder is the one that the engine has, so that the columns are those it
really makes of a row of labels.
-/

variable {α : Type} [Double α]

namespace Double

/-- **The arithmetic counts to `n`**: it represents `0`, …, `n`, and
subtracting `0` changes nothing. -/
structure CountsTo (α : Type) [Double α] (n : ℕ) : Prop where
  /-- A class converts to its index. -/
  toInt : ∀ k < n, Double.toInt (k : α) = k
  /-- No class is `n` or more. -/
  le : ∀ k < n, Double.le (n : α) (k : α) = false
  /-- A `1` is found. -/
  one_eq : Double.eq (1 : α) 1 = true
  /-- A `0` is not taken for one. -/
  zero_eq : Double.eq (0 : α) 1 = false
  /-- Targets of `0` leave a prediction as it is. -/
  sub_zero : ∀ x : α, x - 0 = x

/-- Real numbers count as far as one likes. -/
theorem countsTo_real (n : ℕ) : CountsTo ℝ n where
  toInt k _ := toInt_natCast k
  le k hk := by simpa using hk
  one_eq := by simp
  zero_eq := by simp
  sub_zero := sub_zero

end Double

/-! ## The older overloads and the encoder -/

namespace CategoricalCrossEntropy

/-- The search of `calculateLoss` for the true class, from position `classIdx`
on. -/
def lossFrom (predictions targets : Vec α) : ℕ → ℕ → Except Fault α
  | 0, _ => .ok 0
  | k + 1, classIdx => do
    if Double.eq (← Vec.at targets classIdx) 1 then
      return -Double.log ((← Vec.at predictions classIdx) + epsilon)
    else lossFrom predictions targets k (classIdx + 1)

/-- `calculateLoss` on a vector; without a true class the loss is `0`. -/
def calculateLossVec (predictions targets : Vec α) : Except Fault α :=
  lossFrom predictions targets predictions.length 0

/-- `derivative` on a vector. -/
def derivativeVec (prediction target : Vec α) : Except Fault (Vec α) :=
  Checked.fill prediction.length fun i => do
    return (← Vec.at prediction i) - (← Vec.at target i)

end CategoricalCrossEntropy

/-- `labelToOneHot`: a column of zeros for every label, with `1` at the label.
A label is compared with the number of classes only, and converted to a
position as it is. There is taken to be memory for the matrix. -/
def labelToOneHot (labels : Vec α) (numClasses : ℤ) : Except Fault (Mat α) := do
  let n ← vectorSize (fun _ => true) numClasses
  Checked.loop labels.length (fun oneHot j => do
    let label ← Vec.at labels j
    if Double.le (n : α) label then
      .error (.outOfRangeException "Label value exceeds the number of classes.")
    else Mat.setInt oneHot (Double.toInt label) j 1)
    (List.replicate n (List.replicate labels.length 0))

/-! ## One-hot columns -/

variable {n m : ℕ}

/-- A row of labels. -/
def labelRow (label : Fin m → Fin n) : Fin m → α := fun j => ((label j : ℕ) : α)

/-- The column of every label. -/
def oneHot (label : Fin m → Fin n) : Fin n → Fin m → α := fun i j => if i = label j then 1 else 0

omit [Double α] in
/-- A matrix that is the same everywhere. -/
theorem replicate_eq_ofFn (x : α) :
    List.replicate n (List.replicate m x) = Grid.ofFn fun (_ : Fin n) (_ : Fin m) => x := by
  rw [Grid.ofFn, List.ofFn_const, List.ofFn_const]

/-- The column of a label is set. -/
theorem setInt_label (label : Fin m → Fin n) (B : Fin n → Fin m → α) (j : Fin m) :
    Mat.setInt (Grid.ofFn B) (label j : ℕ) j 1
      = .ok (Grid.ofFn fun i j' => if j' = j then (if i = label j then 1 else B i j)
          else B i j') := by
  rw [Mat.setInt_ofFn B j 1 (Int.natCast_nonneg _) (Int.ofNat_lt.mpr (label j).isLt),
    Grid.update_update_apply]
  refine congrArg Except.ok (congrArg Grid.ofFn ?_)
  funext i j'
  by_cases hj : j' = j
  · subst hj
    rfl
  · rw [if_neg hj, if_neg hj]

theorem labelToOneHot_labelRow (h : Double.CountsTo α n) (label : Fin m → Fin n) :
    labelToOneHot (List.ofFn (labelRow label : Fin m → α)) n = .ok (Grid.ofFn (oneHot label)) := by
  have hturn : ∀ (B : Fin n → Fin m → α) (j : Fin m),
      (do
        let label ← Vec.at (List.ofFn (labelRow label : Fin m → α)) j
        if Double.le (n : α) label then
          Except.error (Fault.outOfRangeException "Label value exceeds the number of classes.")
        else Mat.setInt (Grid.ofFn B) (Double.toInt label) j 1)
      = .ok (Grid.ofFn fun i j' => if j' = j then (if i = label j then 1 else B i j)
          else B i j') := by
    intro B j
    rw [Vec.at_ofFn, Checked.ok_bind, labelRow, h.le _ (label j).isLt, if_neg Bool.false_ne_true,
      h.toInt _ (label j).isLt]
    exact setInt_label label B j
  rw [labelToOneHot, vectorSize_natCast rfl, Checked.ok_bind, List.length_ofFn, replicate_eq_ofFn]
  exact Grid.columnLoop_ok (fun _ _ => 0) _ (fun v j i => if i = label j then 1 else v i) hturn

namespace CategoricalCrossEntropy

/-- **The search finds the label**, from any position before it. -/
theorem lossFrom_oneHot (h : Double.CountsTo α n) (v : Fin n → α) (c : Fin n) {k classIdx : ℕ}
    (hk : classIdx + k = n) (hc : classIdx ≤ c) :
    lossFrom (List.ofFn v) (List.ofFn fun i => if i = c then 1 else 0) k classIdx
      = .ok (-Double.log (v c + epsilon)) := by
  induction k generalizing classIdx with
  | zero => exact absurd c.isLt (by omega)
  | succ k ih =>
    have hlt : classIdx < n := by omega
    rw [lossFrom, show Vec.at (List.ofFn fun i => if i = c then (1 : α) else 0) classIdx
      = .ok (if (⟨classIdx, hlt⟩ : Fin n) = c then 1 else 0) from Vec.at_ofFn _ ⟨classIdx, hlt⟩,
      Checked.ok_bind]
    by_cases hfound : (⟨classIdx, hlt⟩ : Fin n) = c
    · subst hfound
      rw [if_pos rfl, h.one_eq, if_pos rfl, show Vec.at (List.ofFn v) classIdx
        = .ok (v ⟨classIdx, hlt⟩) from Vec.at_ofFn v ⟨classIdx, hlt⟩, Checked.ok_bind]
      rfl
    · have hne : classIdx ≠ c := fun heq => hfound (Fin.ext heq)
      rw [if_neg hfound, h.zero_eq, if_neg Bool.false_ne_true]
      exact ih (by omega) (by omega)

theorem calculateLossVec_oneHot (h : Double.CountsTo α n) (v : Fin n → α) (c : Fin n) :
    calculateLossVec (List.ofFn v) (List.ofFn fun i => if i = c then 1 else 0)
      = .ok (-Double.log (v c + epsilon)) := by
  rw [calculateLossVec, List.length_ofFn]
  exact lossFrom_oneHot h v c (Nat.zero_add n) (Nat.zero_le _)

theorem derivativeVec_ofFn (v t : Fin n → α) :
    derivativeVec (List.ofFn v) (List.ofFn t) = .ok (List.ofFn fun i => v i - t i) := by
  rw [derivativeVec, List.length_ofFn]
  exact Checked.fill_ok fun i => by
    rw [Vec.at_ofFn, Checked.ok_bind, Vec.at_ofFn, Checked.ok_bind]
    rfl

/-- Labels are targets that the matrix overloads can read. -/
theorem fits_labelRow (h : Double.CountsTo α n) (label : Fin m → Fin n) :
    LossFunction.categoricalCrossEntropy.Fits n fun _ : Fin 1 => (labelRow label : Fin m → α) := by
  refine ⟨one_pos, fun j => ?_⟩
  show 0 ≤ Double.toInt ((label j : ℕ) : α) ∧ Double.toInt ((label j : ℕ) : α) < n
  rw [h.toInt _ (label j).isLt]
  exact ⟨Int.natCast_nonneg _, Int.ofNat_lt.mpr (label j).isLt⟩

theorem targetInd_labelRow (h : Double.CountsTo α n) (label : Fin m → Fin n) (j : Fin m) :
    targetInd (fun _ : Fin 1 => (labelRow label : Fin m → α)) (fits_labelRow h label) j
      = label j := by
  refine Fin.ext ?_
  show (Double.toInt ((label j : ℕ) : α)).toNat = label j
  rw [h.toInt _ (label j).isLt, Int.toNat_natCast]

/-- **The two implementations are the same loss**: on the row of labels the
matrix overloads return the mean of what the vector overload returns for the
columns and the one-hot columns of their labels, and its derivatives. -/
theorem calculateLoss_eq_oneHot (h : Double.CountsTo α n) (P : Fin n → Fin m → α) (hn : 0 < n)
    (label : Fin m → Fin n) :
    ∃ (O D : Fin n → Fin m → α) (losses : Fin m → α),
      labelToOneHot (List.ofFn (labelRow label : Fin m → α)) n = .ok (Grid.ofFn O)
      ∧ (∀ j, calculateLossVec (Grid.column P j) (Grid.column O j) = .ok (losses j))
      ∧ LossFunction.categoricalCrossEntropy.calculateLoss (Grid.ofFn P)
          [List.ofFn (labelRow label)] = .ok (NeuralNetwork.mean m (List.ofFn losses))
      ∧ (∀ j, derivativeVec (Grid.column P j) (Grid.column O j) = .ok (Grid.column D j))
      ∧ LossFunction.categoricalCrossEntropy.derivative (Grid.ofFn P)
          [List.ofFn (labelRow label)] = .ok (Grid.ofFn D) := by
  have hrow : [List.ofFn (labelRow label : Fin m → α)]
      = Grid.ofFn fun _ : Fin 1 => (labelRow label : Fin m → α) := rfl
  have hloss := calculateLossWith_ofFn epsilon P _ hn (fits_labelRow h label)
  have hderivative := derivative_ofFn P _ hn (fits_labelRow h label)
  simp only [targetInd_labelRow h] at hloss hderivative
  refine ⟨oneHot label, fun i j => P i j - oneHot label i j,
    fun j => -Double.log (P (label j) j + epsilon), labelToOneHot_labelRow h label,
    fun j => calculateLossVec_oneHot h (fun i => P i j) (label j), ?_,
    fun j => derivativeVec_ofFn (fun i => P i j) fun i => oneHot label i j, ?_⟩
  · rw [hrow, NeuralNetwork.mean, Checked.foldl_ofFn]
    exact hloss
  · rw [hrow]
    refine hderivative.trans (congrArg Except.ok (congrArg Grid.ofFn ?_))
    funext i j
    rw [oneHot]
    by_cases hi : i = label j
    · rw [if_pos hi, if_pos hi]
    · rw [if_neg hi, if_neg hi, h.sub_zero]

/-- Over the reals, for two samples of two classes. -/
theorem calculateLoss_eq_oneHot_pair :
    ∃ losses : Fin 2 → ℝ, LossFunction.categoricalCrossEntropy.calculateLoss
      (Grid.ofFn fun (_ : Fin 2) (_ : Fin 2) => (1 / 2 : ℝ)) [[((0 : ℕ) : ℝ), ((1 : ℕ) : ℝ)]]
        = .ok (NeuralNetwork.mean 2 (List.ofFn losses)) := by
  obtain ⟨-, -, losses, -, -, hloss, -⟩ := calculateLoss_eq_oneHot (Double.countsTo_real 2)
    (fun (_ : Fin 2) (_ : Fin 2) => (1 / 2 : ℝ)) two_pos id
  exact ⟨losses, hloss⟩

end CategoricalCrossEntropy
