import NeuralBuilder.MathUtils

/-!
# Loss functions and the accuracy

The loss classes are evaluated on a matrix of predictions, one column per
sample. Sigmoid cross entropy compares entry by entry with a matrix of
targets of the same shape; categorical cross entropy reads one class index
per column off the first row of the targets, converts it to `int` and uses
it as a row position. Its derivative is already the derivative with
respect to what softmax was applied to: the predictions, with `1`
subtracted at the class of each sample.

Both files define `epsilon` as `1e-10`. It guards the logarithm of the
categorical loss and the denominator of the derivative of the other; the
functions below take it as a parameter, and the ones that carry the
source's names are those at `1e-10`.
-/

/-- The loss objects `LossFactory` builds. -/
inductive LossFunction where
  | sigmoidCrossEntropy
  | categoricalCrossEntropy
  deriving DecidableEq, Repr

variable {α : Type} [Double α]

/-- `constexpr double epsilon = 1e-10`. -/
def epsilon : α := 1e-10

namespace SigmoidCrossEntropy

/-- The term a prediction and its target contribute. -/
def term (pred target : α) : α :=
  target * Double.log pred + (1 - target) * Double.log (1 - pred)

def calculateLoss (predictions targets : Mat α) : Except Fault α := do
  let front ← Vec.at predictions 0
  let sum ← Checked.loop predictions.length (fun sum i =>
    Checked.loop front.length (fun sum j => do
      let pred ← Mat.at predictions i j
      let target ← Mat.at targets i j
      return sum - term pred target) sum) 0
  return sum / (front.length : α)

def derivativeWith (epsilon : α) (predictions targets : Mat α) : Except Fault (Mat α) := do
  let front ← Vec.at predictions 0
  Checked.fill predictions.length fun i => Checked.fill front.length fun j => do
    let pred ← Mat.at predictions i j
    let target ← Mat.at targets i j
    return (pred - target) / (pred * (1 - pred) + epsilon)

end SigmoidCrossEntropy

namespace CategoricalCrossEntropy

def calculateLossWith (epsilon : α) (predictions targets : Mat α) : Except Fault α := do
  let front ← Vec.at predictions 0
  let totalLoss ← Checked.loop front.length (fun totalLoss sampleIdx => do
    let targetInd := Double.toInt (← Mat.at targets 0 sampleIdx)
    return totalLoss + -Double.log ((← Mat.atInt predictions targetInd sampleIdx) + epsilon)) 0
  return totalLoss / (front.length : α)

def derivative (predictions targets : Mat α) : Except Fault (Mat α) := do
  let front ← Vec.at predictions 0
  Checked.loop front.length (fun gradients sampleIdx => do
    let targetInd := Double.toInt (← Mat.at targets 0 sampleIdx)
    let prediction ← Mat.atInt predictions targetInd sampleIdx
    Mat.setInt gradients targetInd sampleIdx (prediction - 1)) predictions

end CategoricalCrossEntropy

namespace LossFunction

/-- `calculateLoss`, with the guard of the logarithm as a parameter. -/
def calculateLossWith (epsilon : α) : LossFunction → Mat α → Mat α → Except Fault α
  | sigmoidCrossEntropy => SigmoidCrossEntropy.calculateLoss
  | categoricalCrossEntropy => CategoricalCrossEntropy.calculateLossWith epsilon

/-- `derivative`, with the guard of the denominator as a parameter. -/
def derivativeWith (epsilon : α) : LossFunction → Mat α → Mat α → Except Fault (Mat α)
  | sigmoidCrossEntropy => SigmoidCrossEntropy.derivativeWith epsilon
  | categoricalCrossEntropy => CategoricalCrossEntropy.derivative

def calculateLoss (lossFunction : LossFunction) (predictions targets : Mat α) :
    Except Fault α :=
  lossFunction.calculateLossWith epsilon predictions targets

def derivative (lossFunction : LossFunction) (predictions targets : Mat α) :
    Except Fault (Mat α) :=
  lossFunction.derivativeWith epsilon predictions targets

end LossFunction

/-- `LossFactory::getLossClass`. The names `adam` and `mse` have an empty
branch, and control leaves the function there without a result. -/
def LossFactory.getLossClass (name : String) : Except Fault LossFunction :=
  if name = "sigmoid cross entropy" then .ok .sigmoidCrossEntropy
  else if name = "categorical cross entropy" then .ok .categoricalCrossEntropy
  else if name = "adam" then .error .missingReturn
  else if name = "mse" then .error .missingReturn
  else .error (.invalidArgument ("Unknown loss function: " ++ name))

namespace ModelEvaluator

/-- The position of the first largest entry of column `j`. -/
def predInd (predictions : Mat α) (j : ℕ) : Except Fault ℕ := do
  let p ← Checked.loop (predictions.length - 1) (fun (p : α × ℕ) i => do
    let x ← Mat.at predictions (i + 1) j
    return if Double.lt p.1 x then (x, i + 1) else p) (← Mat.at predictions 0 j, 0)
  return p.2

def accuracy (predictions targets : Mat α) (lossFunction : LossFunction) :
    Except Fault α := do
  let front ← Vec.at predictions 0
  match lossFunction with
  | .categoricalCrossEntropy =>
    let accuracyRate ← Checked.loop front.length (fun accuracyRate j => do
      let predInd ← predInd predictions j
      let target ← Mat.at targets 0 j
      return accuracyRate + Double.ofBool (Double.eq (predInd : α) target)) 0
    return accuracyRate / (front.length : α)
  | .sigmoidCrossEntropy =>
    let accuracyRate ← Checked.loop front.length (fun accuracyRate i => do
      let pred ← Mat.at predictions 0 i
      let target ← Mat.at targets 0 i
      return accuracyRate
        + Double.ofBool (Double.eq (Double.ofBool (Double.le 0.5 pred)) target)) 0
    return accuracyRate / (front.length : α)

end ModelEvaluator

/-! ## On rectangular operands

`r` classes or output units, `m` samples, and a matrix of targets with a
first row that is at least as long as the batch. -/

section Rect

variable {r t m : ℕ}

/-- **What the targets of a batch must be for a loss to read them**: a row
per output unit for sigmoid cross entropy, and a first row of class indices
for the categorical one. -/
def LossFunction.Fits (lossFunction : LossFunction) (r : ℕ) (T : Fin t → Fin m → α) : Prop :=
  match lossFunction with
  | .sigmoidCrossEntropy => r ≤ t
  | .categoricalCrossEntropy => ∃ ht : 0 < t, ∀ j,
      0 ≤ Double.toInt (T ⟨0, ht⟩ j) ∧ Double.toInt (T ⟨0, ht⟩ j) < r

/-- The same condition on the rows of the targets. -/
def LossFunction.TargetsFit (lossFunction : LossFunction) (r : ℕ) (targets : Mat α) : Prop :=
  match lossFunction with
  | .sigmoidCrossEntropy => r ≤ targets.length
  | .categoricalCrossEntropy => ∃ labels rest, targets = labels :: rest
      ∧ ∀ label ∈ labels, 0 ≤ Double.toInt label ∧ Double.toInt label < r

theorem LossFunction.TargetsFit.fits {lossFunction : LossFunction} {T : Fin t → Fin m → α}
    (h : lossFunction.TargetsFit r (Grid.ofFn T)) : lossFunction.Fits r T := by
  cases lossFunction with
  | sigmoidCrossEntropy =>
    have hlen : r ≤ (Grid.ofFn T).length := h
    rwa [Grid.length_ofFn] at hlen
  | categoricalCrossEntropy =>
    obtain ⟨labels, rest, hrows, hlabels⟩ := h
    have ht : 0 < t := by
      rw [← Grid.length_ofFn T, hrows]
      simp
    refine ⟨ht, fun j => hlabels _ ?_⟩
    have hfirst : Vec.at (Grid.ofFn T) 0 = .ok labels := by rw [hrows]; rfl
    rw [Vec.at_row_zero T ht] at hfirst
    rw [← Except.ok.inj hfirst]
    exact List.mem_ofFn.mpr ⟨j, rfl⟩

namespace SigmoidCrossEntropy

theorem calculateLoss_ofFn (P : Fin r → Fin m → α) (T : Fin t → Fin m → α) (hr : 0 < r)
    (ht : r ≤ t) :
    calculateLoss (Grid.ofFn P) (Grid.ofFn T)
      = .ok (Fin.foldl r (fun s i => Fin.foldl m (fun s j =>
          s - term (P i j) (T (i.castLE ht) j)) s) 0 / (m : α)) := by
  rw [calculateLoss, Vec.at_row_zero P hr, Checked.ok_bind, Grid.length_ofFn,
    List.length_ofFn, Checked.loop_ok (g := fun s i => Fin.foldl m (fun s j =>
      s - term (P i j) (T (i.castLE ht) j)) s), Checked.ok_bind, Checked.pure_eq_ok]
  refine fun s i => Checked.loop_ok (fun s j => ?_) s
  rw [Mat.at_ofFn, Checked.ok_bind,
    show Mat.at (Grid.ofFn T) i j = .ok (T (i.castLE ht) j) from Mat.at_ofFn T (i.castLE ht) j,
    Checked.ok_bind]
  rfl

theorem derivativeWith_ofFn (epsilon : α) (P : Fin r → Fin m → α) (T : Fin t → Fin m → α)
    (hr : 0 < r) (ht : r ≤ t) :
    derivativeWith epsilon (Grid.ofFn P) (Grid.ofFn T)
      = .ok (Grid.ofFn fun i j =>
          (P i j - T (i.castLE ht) j) / (P i j * (1 - P i j) + epsilon)) := by
  rw [derivativeWith, Vec.at_row_zero P hr, Checked.ok_bind, Grid.length_ofFn,
    List.length_ofFn]
  refine Grid.fill_ok fun i j => ?_
  rw [Mat.at_ofFn, Checked.ok_bind,
    show Mat.at (Grid.ofFn T) i j = .ok (T (i.castLE ht) j) from Mat.at_ofFn T (i.castLE ht) j,
    Checked.ok_bind]
  rfl

end SigmoidCrossEntropy

namespace CategoricalCrossEntropy

/-- The class of a sample, as a row position. -/
def targetInd (T : Fin t → Fin m → α)
    (h : LossFunction.categoricalCrossEntropy.Fits r T) (j : Fin m) : Fin r :=
  ⟨(Double.toInt (T ⟨0, h.1⟩ j)).toNat, by have := h.2 j; omega⟩

omit [Double α] in
theorem at_target_ofFn (T : Fin t → Fin m → α) (ht : 0 < t) (j : Fin m) :
    Mat.at (Grid.ofFn T) 0 j = .ok (T ⟨0, ht⟩ j) :=
  Mat.at_ofFn T ⟨0, ht⟩ j

theorem calculateLossWith_ofFn (epsilon : α) (P : Fin r → Fin m → α)
    (T : Fin t → Fin m → α) (hr : 0 < r)
    (h : LossFunction.categoricalCrossEntropy.Fits r T) :
    calculateLossWith epsilon (Grid.ofFn P) (Grid.ofFn T)
      = .ok (Fin.foldl m (fun s j => s + -Double.log (P (targetInd T h j) j + epsilon)) 0
          / (m : α)) := by
  rw [calculateLossWith, Vec.at_row_zero P hr, Checked.ok_bind, List.length_ofFn,
    Checked.loop_ok (g := fun s j => s + -Double.log (P (targetInd T h j) j + epsilon)),
    Checked.ok_bind, Checked.pure_eq_ok]
  intro s j
  rw [at_target_ofFn T h.1, Checked.ok_bind]
  dsimp only
  rw [Mat.atInt_ofFn P j (h.2 j).1 (h.2 j).2,
    Checked.ok_bind]
  rfl

theorem derivative_ofFn (P : Fin r → Fin m → α) (T : Fin t → Fin m → α) (hr : 0 < r)
    (h : LossFunction.categoricalCrossEntropy.Fits r T) :
    derivative (Grid.ofFn P) (Grid.ofFn T)
      = .ok (Grid.ofFn fun i j => if i = targetInd T h j then P i j - 1 else P i j) := by
  rw [derivative, Vec.at_row_zero P hr, Checked.ok_bind, List.length_ofFn]
  refine (Grid.columnLoop_ok P _
    (fun v j i => if i = targetInd T h j then P i j - 1 else v i) (fun B j => ?_))
  rw [at_target_ofFn T h.1, Checked.ok_bind]
  dsimp only
  rw [Mat.atInt_ofFn P j (h.2 j).1 (h.2 j).2, Checked.ok_bind,
    Mat.setInt_ofFn B j _ (h.2 j).1 (h.2 j).2, Grid.update_update_apply]
  refine congrArg Except.ok (congrArg Grid.ofFn ?_)
  funext i j'
  by_cases hj : j' = j
  · subst hj
    rw [if_pos rfl, if_pos rfl]
    show (if i = targetInd T h j' then P (targetInd T h j') j' - 1 else B i j')
      = if i = targetInd T h j' then P i j' - 1 else B i j'
    exact ite_congr rfl (fun hi => by rw [hi]) fun _ => rfl
  · rw [if_neg hj, if_neg hj]

end CategoricalCrossEntropy

namespace LossFunction

/-- **The derivatives of a loss**, as a function of grids. -/
def onGrid (lossFunction : LossFunction) (P : Fin r → Fin m → α) (T : Fin t → Fin m → α)
    (h : lossFunction.Fits r T) : Fin r → Fin m → α :=
  match lossFunction with
  | sigmoidCrossEntropy => fun i j =>
    (P i j - T (Fin.castLE h i) j) / (P i j * (1 - P i j) + epsilon)
  | categoricalCrossEntropy => fun i j =>
    if i = CategoricalCrossEntropy.targetInd T h j then P i j - 1 else P i j

theorem derivative_ofFn {lossFunction : LossFunction} (P : Fin r → Fin m → α)
    (T : Fin t → Fin m → α) (hr : 0 < r) (h : lossFunction.Fits r T) :
    lossFunction.derivative (Grid.ofFn P) (Grid.ofFn T)
      = .ok (Grid.ofFn (lossFunction.onGrid P T h)) := by
  cases lossFunction with
  | sigmoidCrossEntropy => exact SigmoidCrossEntropy.derivativeWith_ofFn epsilon P T hr h
  | categoricalCrossEntropy => exact CategoricalCrossEntropy.derivative_ofFn P T hr h

end LossFunction

namespace ModelEvaluator

/-- The position of the first largest value. -/
def firstMax (v : Fin r → α) (hr : 0 < r) : ℕ :=
  (Fin.foldl (r - 1) (fun (p : α × ℕ) i => if Double.lt p.1 (v ⟨i + 1, Grid.succ_lt i⟩)
    then (v ⟨i + 1, Grid.succ_lt i⟩, (i : ℕ) + 1) else p) (v ⟨0, hr⟩, 0)).2

theorem predInd_ofFn (P : Fin r → Fin m → α) (hr : 0 < r) (j : Fin m) :
    predInd (Grid.ofFn P) j = .ok (firstMax (fun i => P i j) hr) := by
  rw [predInd, show Mat.at (Grid.ofFn P) 0 j = .ok (P ⟨0, hr⟩ j) from
    Mat.at_ofFn P ⟨0, hr⟩ j, Checked.ok_bind, Grid.length_ofFn,
    Checked.loop_ok (g := fun (p : α × ℕ) (i : Fin (r - 1)) =>
      if Double.lt p.1 (P ⟨i + 1, Grid.succ_lt i⟩ j)
      then (P ⟨i + 1, Grid.succ_lt i⟩ j, (i : ℕ) + 1) else p)]
  · rfl
  · intro p i
    have hlt : (i : ℕ) + 1 < r := Grid.succ_lt i
    rw [show Mat.at (Grid.ofFn P) (i + 1) j = .ok (P ⟨i + 1, hlt⟩ j) from
      Mat.at_ofFn P ⟨i + 1, hlt⟩ j, Checked.ok_bind]
    rfl

/-- Whether the prediction of a sample counts as right. -/
def hit (lossFunction : LossFunction) (P : Fin r → Fin m → α) (T : Fin t → Fin m → α)
    (hr : 0 < r) (ht : 0 < t) (j : Fin m) : Bool :=
  match lossFunction with
  | .categoricalCrossEntropy =>
    Double.eq (firstMax (fun i => P i j) hr : α) (T ⟨0, ht⟩ j)
  | .sigmoidCrossEntropy =>
    Double.eq (Double.ofBool (Double.le 0.5 (P ⟨0, hr⟩ j))) (T ⟨0, ht⟩ j)

/-- **The accuracy is the share of hits**, and is computed as soon as there
is a row of predictions and a row of targets. -/
theorem accuracy_ofFn (P : Fin r → Fin m → α) (T : Fin t → Fin m → α)
    (lossFunction : LossFunction) (hr : 0 < r) (ht : 0 < t) :
    accuracy (Grid.ofFn P) (Grid.ofFn T) lossFunction
      = .ok (Fin.foldl m (fun a j => a + Double.ofBool (hit lossFunction P T hr ht j)) 0
          / (m : α)) := by
  have hT : ∀ j : Fin m, Mat.at (Grid.ofFn T) 0 j = .ok (T ⟨0, ht⟩ j) :=
    fun j => Mat.at_ofFn T ⟨0, ht⟩ j
  have hP : ∀ j : Fin m, Mat.at (Grid.ofFn P) 0 j = .ok (P ⟨0, hr⟩ j) :=
    fun j => Mat.at_ofFn P ⟨0, hr⟩ j
  cases lossFunction with
  | categoricalCrossEntropy =>
    simp only [accuracy, Vec.at_row_zero P hr, Checked.ok_bind, List.length_ofFn]
    rw [Checked.loop_ok (g := fun a j => a + Double.ofBool
      (hit .categoricalCrossEntropy P T hr ht j)), Checked.ok_bind, Checked.pure_eq_ok]
    intro a j
    rw [predInd_ofFn P hr, Checked.ok_bind, hT, Checked.ok_bind]
    rfl
  | sigmoidCrossEntropy =>
    simp only [accuracy, Vec.at_row_zero P hr, Checked.ok_bind, List.length_ofFn]
    rw [Checked.loop_ok (g := fun a j => a + Double.ofBool
      (hit .sigmoidCrossEntropy P T hr ht j)), Checked.ok_bind, Checked.pure_eq_ok]
    intro a j
    rw [hP, Checked.ok_bind, hT, Checked.ok_bind]
    rfl

end ModelEvaluator

end Rect
