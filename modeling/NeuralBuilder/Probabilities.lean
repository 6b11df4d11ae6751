import NeuralBuilder.Compile
import NeuralBuilder.RealActivation

/-!
# Predictions that are probabilities

Softmax turns every column of real numbers into probabilities, and the
division at the end of its loop is by a positive sum
(`activateMat_probabilities`). Sigmoid cross entropy takes logarithms of a
prediction and of what is missing to `1`, so it is made for predictions
strictly between `0` and `1`. Nothing keeps it from another output activation,
and `crossEntropy_downhill_iff` says which pre-activations of which
activations it is defined at.

Softmax is stated over the reals, for every matrix with a row: entries between
`0` and `1`, columns that add up to `1`, the order of the entries kept strictly,
and nothing changed by adding a number to a column. The second part is about
networks that `/compile` has built, with whatever activation last. A prediction
of `0` or of `1` is where the loss ends, and a prediction outside of them is
where a step against the derivative makes the error larger.
-/

variable {α : Type} [Double α]

/-! ## Softmax -/

namespace Softmax

variable {n m : ℕ}

/-- **No turn of the loop over the columns divides by `0`**: each is reached,
and divides by a positive sum. -/
def DividesByPositive (Z : Fin n → Fin m → ℝ) : Prop :=
  ∀ j : Fin m, ∃ results scaled sum,
    Checked.loop j activateColumn (Grid.ofFn Z) = .ok results
    ∧ expColumn results j = .ok (scaled, sum) ∧ 0 < sum

/-- The sum of scaled exponentials is positive. -/
theorem expSum_pos (v : Fin n → ℝ) (hn : 0 < n) (max : ℝ) :
    0 < (List.ofFn v).foldl (fun s x => s + Double.exp (x - max)) 0 := by
  have hsum : (List.ofFn v).foldl (fun s x => s + Double.exp (x - max)) 0
      = 0 + ∑ i, Real.exp (v i - max) :=
    Checked.foldl_ofFn_eq_add_sum (fun _ _ => by rfl) 0
  rw [hsum, zero_add]
  exact sum_exp_pos (fun i => v i - max) hn

theorem dividesByPositive (Z : Fin n → Fin m → ℝ) (hn : 0 < n) : DividesByPositive Z := by
  intro j
  -- the turns before this one leave a matrix of the same shape
  obtain ⟨results, hrun, B, rfl⟩ := Checked.loop_invariant (n := (j : ℕ)) (f := activateColumn)
    (b := Grid.ofFn Z) (fun _ results => ∃ B : Fin n → Fin m → ℝ, results = Grid.ofFn B)
    ⟨Z, rfl⟩ (fun i results hi ⟨B, hB⟩ => by
      subst hB
      exact ⟨_, activateColumn_ofFn B hn ⟨i, hi.trans j.isLt⟩, _, rfl⟩)
  exact ⟨_, _, _, hrun, expColumn_ofFn B hn j, expSum_pos (fun i => B i j) hn _⟩

/-- Adding a number to a column does not change what softmax makes of it. -/
theorem column_add (v : Fin n → ℝ) (hn : 0 < n) (c : ℝ) (i : Fin n) :
    column (fun q => v q + c) hn i = column v hn i := by
  simp only [column_real, Real.exp_add]
  rw [← Finset.sum_mul, mul_div_mul_right _ _ (Real.exp_pos c).ne']

/-- **Probability columns**: the entries of `P` are positive, every column adds
up to `1`, and within a column `P` has the order of `Z`. -/
structure ProbabilityColumns (Z P : Fin n → Fin m → ℝ) : Prop where
  /-- Every entry is positive. -/
  pos : ∀ i j, 0 < P i j
  /-- None is more than `1`. -/
  le_one : ∀ i j, P i j ≤ 1
  /-- A column adds up to `1`. -/
  column_sum : ∀ j, ∑ i, P i j = 1
  /-- Within a column the order is that of `Z`. -/
  strictMono : ∀ j i k, Z i j < Z k j ↔ P i j < P k j

/-- **Softmax returns probability columns**, without a division by `0`, and
forgets a constant that is added to a column. -/
theorem activateMat_probabilities (Z : Fin n → Fin m → ℝ) (hn : 0 < n) :
    ∃ P : Fin n → Fin m → ℝ, activateMat (Grid.ofFn Z) = .ok (Grid.ofFn P)
      ∧ DividesByPositive Z ∧ ProbabilityColumns Z P
      ∧ ∀ (j : Fin m) (c : ℝ), ∃ P' : Fin n → Fin m → ℝ,
        activateMat (Grid.ofFn fun i j' => if j' = j then Z i j' + c else Z i j')
          = .ok (Grid.ofFn P') ∧ ∀ i, P' i j = P i j := by
  refine ⟨_, activateMat_ofFn Z hn, dividesByPositive Z hn, ?_, fun j c =>
    ⟨_, activateMat_ofFn _ hn, fun i => ?_⟩⟩
  · exact {
      pos := fun i j => column_pos _ hn i
      le_one := fun i j => column_le_one _ hn i
      column_sum := fun j => sum_column _ hn
      strictMono := fun j i k => (column_lt_iff (fun i => Z i j) hn i k).symm }
  · simp only [if_pos]
    exact column_add (fun i => Z i j) hn c i

/-- Softmax of one column of two entries. -/
theorem activateMat_probabilities_pair :
    ∃ P : Fin 2 → Fin 1 → ℝ,
      activateMat (Grid.ofFn fun (i : Fin 2) (_ : Fin 1) => ((i : ℕ) : ℝ)) = .ok (Grid.ofFn P)
      ∧ P 0 0 < P 1 0 := by
  obtain ⟨P, hrun, -, hcolumns, -⟩ :=
    activateMat_probabilities (fun (i : Fin 2) (_ : Fin 1) => ((i : ℕ) : ℝ)) two_pos
  refine ⟨P, hrun, (hcolumns.strictMono 0 0 1).mp ?_⟩
  norm_num

end Softmax

/-! ## The other activations -/

namespace ActivationFunction

variable {r m : ℕ}

/-- An entry of a column of softmax is `1` only where it is alone. -/
theorem column_lt_one_iff (v : Fin r → ℝ) (hr : 0 < r) (i : Fin r) :
    Softmax.column v hr i < 1 ↔ 2 ≤ r := by
  constructor
  · intro h
    by_contra hlt
    obtain rfl : r = 1 := by omega
    have hsum := Softmax.sum_column v hr
    rw [Fin.sum_univ_one, ← Subsingleton.elim i 0] at hsum
    exact h.ne hsum
  · intro h
    obtain ⟨k, hk⟩ : ∃ k, k ≠ i := by
      have := Fin.nontrivial_iff_two_le.mpr h
      exact exists_ne i
    rw [← Softmax.sum_column v hr, ← Finset.add_sum_erase _ _ (Finset.mem_univ i)]
    have hmem : k ∈ Finset.univ.erase i := Finset.mem_erase.mpr ⟨hk, Finset.mem_univ k⟩
    have hpos := Finset.sum_pos (fun q _ => Softmax.column_pos v hr q) ⟨k, hmem⟩
    linarith

/-- **The pre-activations whose activation is strictly between `0` and `1`.** -/
def IntoUnitInterval (act : ActivationFunction) (Z : Fin r → Fin m → ℝ) (i : Fin r) (j : Fin m) :
    Prop :=
  match act with
  | sigmoid => True
  | softmax => 2 ≤ r
  | tanh => 0 < Z i j
  | relu => 0 < Z i j ∧ Z i j < 1
  | leakyRelu => 0 < Z i j ∧ Z i j < 1

theorem onGrid_mem_unitInterval_iff (act : ActivationFunction) (Z : Fin r → Fin m → ℝ)
    (hr : 0 < r) (i : Fin r) (j : Fin m) :
    0 < act.onGrid hr Z i j ∧ act.onGrid hr Z i j < 1 ↔ act.IntoUnitInterval Z i j := by
  cases act with
  | sigmoid => exact iff_of_true ⟨Sigmoid.activate_pos _, Sigmoid.activate_lt_one _⟩ trivial
  | softmax =>
    show 0 < Softmax.column (fun i => Z i j) hr i ∧ Softmax.column (fun i => Z i j) hr i < 1
      ↔ 2 ≤ r
    rw [and_iff_right (Softmax.column_pos _ hr i), column_lt_one_iff]
  | tanh =>
    show 0 < Real.tanh (Z i j) ∧ Real.tanh (Z i j) < 1 ↔ 0 < Z i j
    rw [and_iff_left (Real.tanh_lt_one _), Real.tanh_eq_sinh_div_cosh,
      div_pos_iff_of_pos_right (Real.cosh_pos _), Real.sinh_pos_iff]
  | relu =>
    show 0 < relu.activate (Z i j) ∧ relu.activate (Z i j) < 1 ↔ _
    rcases le_total 0 (Z i j) with h | h
    · rw [relu_of_nonneg h]
      rfl
    · rw [relu_of_nonpos h]
      exact iff_of_false (fun h' => lt_irrefl _ h'.1) fun h' => h.not_gt h'.1
  | leakyRelu =>
    show 0 < leakyRelu.activate (Z i j) ∧ leakyRelu.activate (Z i j) < 1 ↔ _
    rcases le_total 0 (Z i j) with h | h
    · rw [leakyRelu_of_nonneg h]
      rfl
    · rw [leakyRelu_of_nonpos h]
      exact iff_of_false (fun h' => by linarith [h'.1]) fun h' => h.not_gt h'.1

end ActivationFunction

/-! ## Sigmoid cross entropy -/

namespace SigmoidCrossEntropy

/-- **The loss is defined and points downhill** at the prediction `p` of a
target `t`, with the derivative `d`: its logarithms are taken of positive
numbers, its derivative is divided by one and has the sign of `p - t`, and
small steps against it come closer to the target. -/
structure PointsDownhill (p t d : ℝ) : Prop where
  /-- The logarithm of `p` is that of a positive number. -/
  log_pos : 0 < p
  /-- So is that of `1 - p`. -/
  log_one_sub_pos : 0 < 1 - p
  /-- The derivative is not divided by `0`. -/
  divisor_pos : 0 < p * (1 - p) + epsilon
  /-- It has the sign of the error. -/
  sign : SignType.sign d = SignType.sign (p - t)
  /-- A small step against it makes the error smaller. -/
  step : ∃ rate₀ > 0, ∀ rate, 0 < rate → rate ≤ rate₀ → |p - rate * d - t| < |p - t|

/-- It does so strictly between `0` and `1`. -/
theorem pointsDownhill_iff (p : ℝ) (b : Bool) :
    PointsDownhill p (Double.ofBool b) ((p - Double.ofBool b) / (p * (1 - p) + epsilon))
      ↔ 0 < p ∧ p < 1 := by
  refine ⟨fun h => ⟨h.log_pos, sub_pos.mp h.log_one_sub_pos⟩, fun ⟨h0, h1⟩ => ?_⟩
  have h1' : 0 < 1 - p := sub_pos.mpr h1
  have hepsilon : (0 : ℝ) < epsilon := by
    show (0 : ℝ) < 1e-10
    norm_num
  have hdivisor : 0 < p * (1 - p) + epsilon := by positivity
  have hne : p - Double.ofBool b ≠ 0 := by
    cases b with
    | false => exact (sub_zero p).trans_ne h0.ne'
    | true => exact sub_ne_zero.mpr h1.ne
  refine ⟨h0, h1', hdivisor, ?_, _, hdivisor, fun rate hrate hle => ?_⟩
  · rw [div_eq_mul_inv, sign_mul, sign_pos (inv_pos.mpr hdivisor), mul_one]
  · -- the distance is scaled by a factor below `1`
    set q := p * (1 - p) + epsilon
    have hfactor : p - rate * ((p - Double.ofBool b) / q) - Double.ofBool b
        = (p - Double.ofBool b) * (1 - rate / q) := by
      field_simp
      ring
    have hratio : 0 < rate / q := div_pos hrate hdivisor
    have hratio' : rate / q ≤ 1 := (div_le_one hdivisor).mpr hle
    rw [hfactor, abs_mul, abs_of_nonneg (by linarith : 0 ≤ 1 - rate / q)]
    exact mul_lt_of_lt_one_right (abs_pos.mpr hne) (by linarith)

end SigmoidCrossEntropy

/-- The loss and its derivative at an entry of the predictions that an
activation makes of real pre-activations, for targets `0` and `1`. -/
def LossFunction.Downhill {r m : ℕ} (lossFunction : LossFunction) (act : ActivationFunction)
    (Z : Fin r → Fin m → ℝ) (T : Fin r → Fin m → Bool) (i : Fin r) (j : Fin m) : Prop :=
  ∃ P D : Fin r → Fin m → ℝ, act.activateMat (Grid.ofFn Z) = .ok (Grid.ofFn P)
    ∧ lossFunction.derivative (Grid.ofFn P) (Grid.ofFn fun i j => Double.ofBool (T i j))
      = .ok (Grid.ofFn D)
    ∧ SigmoidCrossEntropy.PointsDownhill (P i j) (Double.ofBool (T i j)) (D i j)

theorem SigmoidCrossEntropy.downhill_iff {r m : ℕ} (act : ActivationFunction)
    (Z : Fin r → Fin m → ℝ) (T : Fin r → Fin m → Bool) (i : Fin r) (j : Fin m) :
    LossFunction.sigmoidCrossEntropy.Downhill act Z T i j ↔ act.IntoUnitInterval Z i j := by
  have hr : 0 < r := i.pos
  have hact := act.activateMat_ofFn Z hr
  have hloss := derivativeWith_ofFn epsilon (act.onGrid hr Z)
    (fun i j => Double.ofBool (T i j)) hr (le_refl r)
  rw [← act.onGrid_mem_unitInterval_iff Z hr i j,
    ← pointsDownhill_iff (act.onGrid hr Z i j) (T i j)]
  constructor
  · rintro ⟨P, D, hP, hD, h⟩
    obtain rfl := Grid.ofFn_inj.mp (Except.ok.inj (hact.symm.trans hP))
    obtain rfl := Grid.ofFn_inj.mp (Except.ok.inj (hloss.symm.trans hD))
    exact h
  · exact fun h => ⟨_, _, hact, hloss, h⟩

namespace RouteHandlers

variable {r m : ℕ}

/-- A network that was compiled has the loss it was compiled with. -/
theorem lossFunction_of_compile {noise : ℕ → Noise ℝ} {responds : Bool} {next : ℕ}
    {before after : NeuralNetwork ℝ} {body : RValue ℝ} {request : CompileRequest ℝ}
    {parameters : List (Mat ℝ × Vec ℝ)}
    (hcompile : compile noise responds next before body = (after, .ok parameters))
    (hread : readRequest body = .ok request) :
    LossFactory.getLossClass request.lossFunc = .ok after.lossFunction := by
  rw [compile, hread] at hcompile
  dsimp only at hcompile
  cases hrun : before.setModelHyperParameters noise next request.args with
  | mk nn result =>
    rw [hrun] at hcompile
    cases result with
    | error e => cases hcompile
    | ok _ =>
      obtain ⟨hbuilds, hmemory⟩ :=
        (NeuralNetwork.setModelHyperParameters_ok_iff before noise next).mp ⟨nn, hrun⟩
      obtain ⟨layers, lossFunction, hset, -, hloss⟩ :=
        NeuralNetwork.setModelHyperParameters_ok before hbuilds hmemory
      obtain ⟨rfl, -⟩ := Prod.mk.inj (hrun.symm.trans hset)
      dsimp only at hcompile
      split_ifs at hcompile
      · obtain ⟨rfl, -⟩ := Prod.mk.inj hcompile
        exact hloss
      · cases (Prod.mk.inj hcompile).2

/-- **When sigmoid cross entropy is defined and points downhill** behind the
last layer of a network that `/compile` has built with it: where the
activation is strictly between `0` and `1`. -/
theorem crossEntropy_downhill_iff {noise : ℕ → Noise ℝ} {responds : Bool} {next : ℕ}
    {before after : NeuralNetwork ℝ} {body : RValue ℝ} {request : CompileRequest ℝ}
    {parameters : List (Mat ℝ × Vec ℝ)}
    (hcompile : compile noise responds next before body = (after, .ok parameters))
    (hread : readRequest body = .ok request)
    (hloss : request.lossFunc = "sigmoid cross entropy") :
    ∀ layer ∈ after.layers.getLast?, ∀ (Z : Fin r → Fin m → ℝ) (T : Fin r → Fin m → Bool) i j,
      after.lossFunction.Downhill layer.activationFunction Z T i j
        ↔ layer.activationFunction.IntoUnitInterval Z i j := by
  have hcross := lossFunction_of_compile hcompile hread
  rw [hloss] at hcross
  obtain hfunction : LossFunction.sigmoidCrossEntropy = after.lossFunction := Except.ok.inj hcross
  intro layer _ Z T i j
  rw [← hfunction]
  exact SigmoidCrossEntropy.downhill_iff layer.activationFunction Z T i j

/-- A sigmoid unit is one that may use the loss. -/
theorem sigmoidUnit_downhill :
    ∃ after parameters layer,
      compile (fun _ => Noise.zero) true 1 unitNetwork (unitBody "sigmoid")
        = (after, .ok parameters)
      ∧ layer ∈ after.layers.getLast?
      ∧ after.lossFunction.Downhill layer.activationFunction
        (fun (_ : Fin 1) (_ : Fin 1) => 0) (fun _ _ => true) 0 0 := by
  obtain ⟨after, parameters, layer, hrun, hlayers, hact⟩ :=
    compile_unitBody (show ActivationFactory.getActivationClass "sigmoid" = .ok .sigmoid from rfl)
      (NeuralNetwork.hasMemory_zero 1 _) unitNetwork
  have hlast : layer ∈ after.layers.getLast? := by
    rw [hlayers]
    exact rfl
  refine ⟨after, parameters, layer, hrun, hlast, ?_⟩
  refine (crossEntropy_downhill_iff hrun (readRequest_unitBody "sigmoid") rfl layer hlast _ _ _
    _).mpr ?_
  rw [hact]
  trivial

/-- **Behind a relu unit the loss points uphill** at the pre-activation `2`:
for the target `1` the prediction `2` has the logarithm of `-1`, a negative
divisor and a negative derivative. -/
theorem reluUnit_uphill :
    ∃ after parameters layer,
      compile (fun _ => Noise.zero) true 1 unitNetwork (unitBody "relu") = (after, .ok parameters)
      ∧ layer ∈ after.layers.getLast?
      ∧ ¬ after.lossFunction.Downhill layer.activationFunction
        (fun (_ : Fin 1) (_ : Fin 1) => 2) (fun _ _ => true) 0 0
      ∧ layer.activationFunction.activateMat [[(2 : ℝ)]] = .ok [[2]]
      ∧ (2 : ℝ) * (1 - 2) + epsilon < 0
      ∧ ∃ d : ℝ, after.lossFunction.derivative [[2]] [[1]] = .ok [[d]] ∧ d < 0 := by
  obtain ⟨after, parameters, layer, hrun, hlayers, hact⟩ :=
    compile_unitBody (show ActivationFactory.getActivationClass "relu" = .ok .relu from rfl)
      (NeuralNetwork.hasMemory_zero 1 _) unitNetwork
  have hlast : layer ∈ after.layers.getLast? := by
    rw [hlayers]
    exact rfl
  obtain hfunction : LossFunction.sigmoidCrossEntropy = after.lossFunction :=
    Except.ok.inj (lossFunction_of_compile hrun (readRequest_unitBody "relu"))
  have hepsilon : (epsilon : ℝ) = 1e-10 := rfl
  have hdivisor : (2 : ℝ) * (1 - 2) + epsilon < 0 := by
    rw [hepsilon]
    norm_num
  refine ⟨after, parameters, layer, hrun, hlast, ?_, ?_, hdivisor,
    (2 - 1) / (2 * (1 - 2) + epsilon), ?_, div_neg_of_pos_of_neg (by norm_num) hdivisor⟩
  · rw [← hfunction, hact, SigmoidCrossEntropy.downhill_iff]
    rintro ⟨-, hlt⟩
    norm_num at hlt
  · rw [hact]
    refine (ActivationFunction.relu.activateMat_ofFn
      (fun (_ : Fin 1) (_ : Fin 1) => (2 : ℝ)) one_pos).trans ?_
    show Except.ok [[(ActivationFunction.relu.activate (2 : ℝ) : ℝ)]] = _
    rw [ActivationFunction.relu_of_nonneg two_pos.le]
  · rw [← hfunction]
    exact SigmoidCrossEntropy.derivativeWith_ofFn epsilon (fun (_ : Fin 1) (_ : Fin 1) => (2 : ℝ))
      (fun (_ : Fin 1) (_ : Fin 1) => (1 : ℝ)) one_pos le_rfl

end RouteHandlers
