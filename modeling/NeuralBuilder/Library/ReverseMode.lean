import Mathlib.Analysis.Calculus.Deriv.Add
import Mathlib.Analysis.Calculus.Deriv.Mul
import Mathlib.Analysis.Calculus.Deriv.Comp
import Mathlib.Analysis.Calculus.Deriv.Slope
import Mathlib.Algebra.BigOperators.Fin

/-!
# Reverse mode through a chain of stages

A stage sends a grid `X` – a column per sample – to `φ (w · X + b)`, with
`φ` applied entry by entry. A chain of stages is differentiated forwards by
`tangent`, which carries a direction along, and backwards by `cotangent`
and `grad`, which carry a weighting of the outputs back. The two are
adjoint (`sum_mul_tangent`), and `tangent` is the derivative
(`hasDerivWithinAt_eval`); hence the sweep backwards computes the partial
derivatives of every function of the output whose gradient it starts from
(`hasDerivAt_objective`).

The nonlinearities may have kinks. What is asked of `φ` is a derivative
from the left, as a function of its *value*: then the derivative of the
chain from the right is known along every direction in which the arguments
at the kinks decrease. Such directions form an open set that is not empty
(`exists_falls`, `Falls.eventually`), so that where the function of the
output is differentiable after all, kinks or not, its derivative is the
sweep's (`eq_pair_of_differentiable`).
-/

namespace ReverseMode

open Filter Topology

variable {n k p m : ℕ}

-- a derivative of a real function asks for this instance each time it is stated
instance continuousSMul_real : ContinuousSMul ℝ ℝ := inferInstance

/-- **An entrywise function**, with its derivative from the left as a
function of its value. -/
structure Nonlinearity where
  /-- The function. -/
  f : ℝ → ℝ
  /-- Its derivative, read off its value. -/
  slope : ℝ → ℝ
  /-- It is the derivative from the left everywhere. -/
  hasDerivWithinAt : ∀ x, HasDerivWithinAt f (slope (f x)) (Set.Iic x) x

/-- The slope is the derivative from both sides. -/
def Nonlinearity.SmoothAt (φ : Nonlinearity) (x : ℝ) : Prop :=
  HasDerivAt φ.f (φ.slope (φ.f x)) x

/-- **The chain rule from the right**, where the nonlinearity is smooth or
its argument decreases. -/
theorem Nonlinearity.comp_hasDerivWithinAt (φ : Nonlinearity) {u : ℝ → ℝ} {u' : ℝ}
    (hu : HasDerivWithinAt u u' (Set.Ici 0) 0) (h : φ.SmoothAt (u 0) ∨ u' < 0) :
    HasDerivWithinAt (fun t => φ.f (u t)) (φ.slope (φ.f (u 0)) * u') (Set.Ici 0) 0 := by
  rcases h with hsmooth | hneg
  · exact HasDerivAt.comp_hasDerivWithinAt 0 hsmooth hu
  · -- just right of `0` the argument is below where it started
    have hbelow : ∀ᶠ t in 𝓝[Set.Ici 0] (0 : ℝ), u t ≤ u 0 := by
      have hslope := hasDerivWithinAt_iff_tendsto_slope.mp hu
      have hev := hslope.eventually (eventually_lt_nhds hneg)
      rw [eventually_nhdsWithin_iff] at hev ⊢
      filter_upwards [hev] with t ht ht0
      by_cases hzero : t = 0
      · rw [hzero]
      · have hlt := ht ⟨ht0, hzero⟩
        rw [slope_def_field, sub_zero] at hlt
        have hpos : 0 < t := lt_of_le_of_ne ht0 (Ne.symm hzero)
        have := (div_lt_iff₀ hpos).mp hlt
        linarith
    have hmem : Set.Ici (0 : ℝ) ∩ {t | u t ≤ u 0} ∈ 𝓝[Set.Ici 0] (0 : ℝ) :=
      inter_mem self_mem_nhdsWithin hbelow
    refine HasDerivWithinAt.mono_of_mem_nhdsWithin ?_ hmem
    exact (φ.hasDerivWithinAt (u 0)).comp 0 (hu.mono Set.inter_subset_left)
      fun t ht => ht.2

/-! ## Stages and chains -/

/-- **A stage** from `n` inputs to `k` outputs. -/
structure Stage (n k : ℕ) where
  /-- The weights, a row for each output. -/
  w : Fin k → Fin n → ℝ
  /-- The biases. -/
  b : Fin k → ℝ
  /-- What is applied to the sums. -/
  φ : Nonlinearity

/-- **A chain of stages.** -/
inductive Chain : ℕ → ℕ → Type where
  | nil {n : ℕ} : Chain n n
  | cons {n k p : ℕ} (S : Stage n k) (N : Chain k p) : Chain n p

/-- A direction in the parameters of a chain: for the stage at each
position, one for its weights and one for its biases. Positions that the
chain does not have are not read. -/
abbrev Direction := ℕ → (ℕ → ℕ → ℝ) × (ℕ → ℝ)

/-- The direction in the parameters of all stages but the first. -/
def Direction.tail (δ : Direction) : Direction := fun l => δ (l + 1)

/-- A direction in the parameters of the first stage, and one in those of
the others. -/
def Direction.cons (d : (ℕ → ℕ → ℝ) × (ℕ → ℝ)) (δ : Direction) : Direction
  | 0 => d
  | l + 1 => δ l

/-- The direction that changes one weight. -/
def weightAt (l i q : ℕ) : Direction := Pi.single l (Pi.single i (Pi.single q 1), 0)

/-- The direction that changes one bias. -/
def biasAt (l i : ℕ) : Direction := Pi.single l (0, Pi.single i 1)

theorem Direction.tail_cons (d : (ℕ → ℕ → ℝ) × (ℕ → ℝ)) (δ : Direction) :
    (Direction.cons d δ).tail = δ := rfl

theorem weightAt_zero (i q : ℕ) :
    weightAt 0 i q = Direction.cons (Pi.single i (Pi.single q 1), 0) 0 := by
  funext l
  cases l with
  | zero => rfl
  | succ l => rfl

theorem biasAt_zero (i : ℕ) : biasAt 0 i = Direction.cons (0, Pi.single i 1) 0 := by
  funext l
  cases l with
  | zero => rfl
  | succ l => rfl

theorem tail_weightAt_succ (l i q : ℕ) : (weightAt (l + 1) i q).tail = weightAt l i q := by
  funext l'
  simp [Direction.tail, weightAt, Pi.single_apply]

theorem weightAt_succ_zero (l i q : ℕ) : weightAt (l + 1) i q 0 = 0 := by
  simp [weightAt]

theorem tail_biasAt_succ (l i : ℕ) : (biasAt (l + 1) i).tail = biasAt l i := by
  funext l'
  simp [Direction.tail, biasAt, Pi.single_apply]

theorem biasAt_succ_zero (l i : ℕ) : biasAt (l + 1) i 0 = 0 := by
  simp [biasAt]

namespace Stage

/-- The argument of the nonlinearity. -/
def preact (S : Stage n k) (X : Fin n → Fin m → ℝ) : Fin k → Fin m → ℝ :=
  fun i j => (∑ q, S.w i q * X q j) + S.b i

def eval (S : Stage n k) (X : Fin n → Fin m → ℝ) : Fin k → Fin m → ℝ :=
  fun i j => S.φ.f (S.preact X i j)

/-- The stage with `t` times a direction added to its parameters. -/
def shift (S : Stage n k) (d : (ℕ → ℕ → ℝ) × (ℕ → ℝ)) (t : ℝ) : Stage n k :=
  { S with w := fun i q => S.w i q + t * d.1 i q, b := fun i => S.b i + t * d.2 i }

/-- How fast the argument of the nonlinearity moves. -/
def preTangent (S : Stage n k) (d : (ℕ → ℕ → ℝ) × (ℕ → ℝ)) (X V : Fin n → Fin m → ℝ) :
    Fin k → Fin m → ℝ :=
  fun i j => (∑ q : Fin n, (d.1 i q * X q j + S.w i q * V q j)) + d.2 i

/-- How fast the output moves. -/
def tangent (S : Stage n k) (d : (ℕ → ℕ → ℝ) × (ℕ → ℝ)) (X V : Fin n → Fin m → ℝ) :
    Fin k → Fin m → ℝ :=
  fun i j => S.φ.slope (S.eval X i j) * S.preTangent d X V i j

/-- The weighting of the arguments that a weighting of the outputs
induces. -/
def preCotangent (S : Stage n k) (X : Fin n → Fin m → ℝ) (A : Fin k → Fin m → ℝ) :
    Fin k → Fin m → ℝ :=
  fun i j => S.φ.slope (S.eval X i j) * A i j

/-- The weighting of the inputs. -/
def cotangent (S : Stage n k) (X : Fin n → Fin m → ℝ) (A : Fin k → Fin m → ℝ) :
    Fin n → Fin m → ℝ :=
  fun q j => ∑ i, S.w i q * S.preCotangent X A i j

/-- The weighting of a weight. -/
def gradW (S : Stage n k) (X : Fin n → Fin m → ℝ) (A : Fin k → Fin m → ℝ) (i : Fin k)
    (q : Fin n) : ℝ :=
  ∑ j, S.preCotangent X A i j * X q j

/-- The weighting of a bias. -/
def gradB (S : Stage n k) (X : Fin n → Fin m → ℝ) (A : Fin k → Fin m → ℝ) (i : Fin k) : ℝ :=
  ∑ j, S.preCotangent X A i j

/-- What the weightings of its parameters make of a direction. -/
def pair (S : Stage n k) (X : Fin n → Fin m → ℝ) (A : Fin k → Fin m → ℝ)
    (d : (ℕ → ℕ → ℝ) × (ℕ → ℝ)) : ℝ :=
  (∑ i, ∑ q, S.gradW X A i q * d.1 i q) + ∑ i, S.gradB X A i * d.2 i

@[simp] theorem shift_zero (S : Stage n k) (d : (ℕ → ℕ → ℝ) × (ℕ → ℝ)) : S.shift d 0 = S := by
  simp [shift]

/-- **A stage is differentiated from the right**, where its nonlinearity is
smooth or its argument decreases. -/
theorem hasDerivWithinAt_eval (S : Stage n k) (d : (ℕ → ℕ → ℝ) × (ℕ → ℝ))
    {X : ℝ → Fin n → Fin m → ℝ} {V : Fin n → Fin m → ℝ}
    (hX : ∀ q j, HasDerivWithinAt (fun t => X t q j) (V q j) (Set.Ici 0) 0) (i : Fin k) (j : Fin m)
    (h : S.φ.SmoothAt (S.preact (X 0) i j) ∨ S.preTangent d (X 0) V i j < 0) :
    HasDerivWithinAt (fun t => (S.shift d t).eval (X t) i j) (S.tangent d (X 0) V i j)
      (Set.Ici 0) 0 := by
  have hlin : ∀ x y : ℝ, HasDerivWithinAt (fun t : ℝ => x + t * y) y (Set.Ici 0) 0 := fun x y => by
    simpa using (((hasDerivAt_id (0 : ℝ)).mul_const y).const_add x).hasDerivWithinAt
  have hterm : ∀ q, HasDerivWithinAt (fun t => (S.w i q + t * d.1 i q) * X t q j)
      (d.1 i q * X 0 q j + S.w i q * V q j) (Set.Ici 0) 0 := fun q => by
    simpa using (hlin (S.w i q) (d.1 i q)).fun_mul (hX q j)
  have hpre : HasDerivWithinAt (fun t => (S.shift d t).preact (X t) i j)
      (S.preTangent d (X 0) V i j) (Set.Ici 0) 0 :=
    (HasDerivWithinAt.fun_sum fun q _ => hterm q).fun_add (hlin (S.b i) (d.2 i))
  have hzero : (S.shift d 0).preact (X 0) i j = S.preact (X 0) i j := by rw [shift_zero]
  have hcomp := S.φ.comp_hasDerivWithinAt hpre (by rw [hzero]; exact h)
  rw [hzero] at hcomp
  exact hcomp

/-- **Forwards and backwards are adjoint** for a stage. -/
theorem sum_mul_tangent (S : Stage n k) (d : (ℕ → ℕ → ℝ) × (ℕ → ℝ)) (X V : Fin n → Fin m → ℝ)
    (A : Fin k → Fin m → ℝ) :
    ∑ i, ∑ j, A i j * S.tangent d X V i j
      = S.pair X A d + ∑ q, ∑ j, S.cotangent X A q j * V q j := by
  have hentry : ∀ i j, A i j * S.tangent d X V i j
      = (∑ q, S.preCotangent X A i j * X q j * d.1 i q) + S.preCotangent X A i j * d.2 i
        + ∑ q, S.w i q * S.preCotangent X A i j * V q j := by
    intro i j
    simp only [tangent, preTangent, preCotangent, Finset.sum_add_distrib, mul_add, Finset.mul_sum]
    have h₁ : ∀ q : Fin n, A i j * (S.φ.slope (S.eval X i j) * (d.1 i q * X q j))
        = S.φ.slope (S.eval X i j) * A i j * X q j * d.1 i q := fun q => by ring
    have h₂ : ∀ q : Fin n, A i j * (S.φ.slope (S.eval X i j) * (S.w i q * V q j))
        = S.w i q * (S.φ.slope (S.eval X i j) * A i j) * V q j := fun q => by ring
    simp only [h₁, h₂]
    ring
  simp only [hentry, Finset.sum_add_distrib]
  rw [pair]
  congr 1
  · congr 1
    · refine Finset.sum_congr rfl fun i _ => ?_
      rw [Finset.sum_comm]
      refine Finset.sum_congr rfl fun q _ => ?_
      rw [gradW, Finset.sum_mul]
    · refine Finset.sum_congr rfl fun i _ => ?_
      rw [gradB, Finset.sum_mul]
  · -- the sum over the outputs moves inside
    have hswap : ∀ i : Fin k, ∑ j, ∑ q, S.w i q * S.preCotangent X A i j * V q j
        = ∑ q, ∑ j, S.w i q * S.preCotangent X A i j * V q j := fun i => Finset.sum_comm
    simp only [hswap]
    rw [Finset.sum_comm]
    refine Finset.sum_congr rfl fun q _ => ?_
    rw [Finset.sum_comm]
    refine Finset.sum_congr rfl fun j _ => ?_
    rw [cotangent, Finset.sum_mul]

/-- What the weightings make of a direction is linear in it. -/
theorem pair_add_smul (S : Stage n k) (X : Fin n → Fin m → ℝ) (A : Fin k → Fin m → ℝ)
    (d e : (ℕ → ℕ → ℝ) × (ℕ → ℝ)) (s : ℝ) :
    S.pair X A (d + s • e) = S.pair X A d + s * S.pair X A e := by
  simp only [pair, Prod.fst_add, Prod.snd_add, Prod.smul_fst, Prod.smul_snd, Pi.add_apply,
    Pi.smul_apply, smul_eq_mul, mul_add, Finset.sum_add_distrib, Finset.mul_sum]
  have h₁ : ∀ (i : Fin k) (q : Fin n), S.gradW X A i q * (s * e.1 i q)
      = s * (S.gradW X A i q * e.1 i q) := fun i q => by ring
  have h₂ : ∀ i : Fin k, S.gradB X A i * (s * e.2 i) = s * (S.gradB X A i * e.2 i) :=
    fun i => by ring
  simp only [h₁, h₂]
  ring

@[simp] theorem pair_zero (S : Stage n k) (X : Fin n → Fin m → ℝ) (A : Fin k → Fin m → ℝ) :
    S.pair X A 0 = 0 := by
  simp [pair]

/-- **The partial derivative for a weight is its weighting.** -/
theorem pair_single_weight (S : Stage n k) (X : Fin n → Fin m → ℝ) (A : Fin k → Fin m → ℝ)
    (i : Fin k) (q : Fin n) :
    S.pair X A (Pi.single (i : ℕ) (Pi.single (q : ℕ) 1), 0) = S.gradW X A i q := by
  rw [pair, Finset.sum_eq_single i, Finset.sum_eq_single q]
  · simp
  · intro q' _ hq
    have : (q' : ℕ) ≠ q := fun h => hq (Fin.ext h)
    simp [this]
  · simp
  · intro i' _ hi
    have : (i' : ℕ) ≠ i := fun h => hi (Fin.ext h)
    simp [this]
  · simp

/-- **The partial derivative for a bias is its weighting.** -/
theorem pair_single_bias (S : Stage n k) (X : Fin n → Fin m → ℝ) (A : Fin k → Fin m → ℝ)
    (i : Fin k) : S.pair X A (0, Pi.single (i : ℕ) 1) = S.gradB X A i := by
  rw [pair, Finset.sum_eq_single i (f := fun i' => S.gradB X A i' * _)]
  · simp
  · intro i' _ hi
    have : (i' : ℕ) ≠ i := fun h => hi (Fin.ext h)
    simp [this]
  · simp

/-- A tangent is linear in the direction. -/
theorem preTangent_add_smul (S : Stage n k) (d e : (ℕ → ℕ → ℝ) × (ℕ → ℝ))
    (X V U : Fin n → Fin m → ℝ) (s : ℝ) (i : Fin k) (j : Fin m) :
    S.preTangent (d + s • e) X (V + s • U) i j
      = S.preTangent d X V i j + s * S.preTangent e X U i j := by
  simp only [preTangent, Prod.fst_add, Prod.snd_add, Prod.smul_fst, Prod.smul_snd, Pi.add_apply,
    Pi.smul_apply, smul_eq_mul, mul_add, Finset.mul_sum]
  rw [add_add_add_comm, ← Finset.sum_add_distrib]
  congr 1
  refine Finset.sum_congr rfl fun q _ => ?_
  ring

theorem tangent_add_smul (S : Stage n k) (d e : (ℕ → ℕ → ℝ) × (ℕ → ℝ))
    (X V U : Fin n → Fin m → ℝ) (s : ℝ) :
    S.tangent (d + s • e) X (V + s • U) = S.tangent d X V + s • S.tangent e X U := by
  funext i j
  simp only [tangent, preTangent_add_smul, Pi.add_apply, Pi.smul_apply, smul_eq_mul]
  ring

end Stage

namespace Chain

def eval : {n p : ℕ} → Chain n p → (Fin n → Fin m → ℝ) → Fin p → Fin m → ℝ
  | _, _, nil, X => X
  | _, _, cons S N, X => N.eval (S.eval X)

/-- The chain with `t` times a direction added to its parameters. -/
def shift : {n p : ℕ} → Chain n p → Direction → ℝ → Chain n p
  | _, _, nil, _, _ => nil
  | _, _, cons S N, δ, t => cons (S.shift (δ 0) t) (N.shift δ.tail t)

/-- How fast the output moves, when the parameters move in the direction
`δ` and the input in the direction `V`. -/
def tangent : {n p : ℕ} → Chain n p → Direction → (Fin n → Fin m → ℝ) → (Fin n → Fin m → ℝ) →
    Fin p → Fin m → ℝ
  | _, _, nil, _, _, V => V
  | _, _, cons S N, δ, X, V => N.tangent δ.tail (S.eval X) (S.tangent (δ 0) X V)

/-- **The sweep backwards**: the weighting of the input that a weighting of
the output induces. -/
def cotangent : {n p : ℕ} → Chain n p → (Fin n → Fin m → ℝ) → (Fin p → Fin m → ℝ) →
    Fin n → Fin m → ℝ
  | _, _, nil, _, A => A
  | _, _, cons S N, X, A => S.cotangent X (N.cotangent (S.eval X) A)

/-- **What the sweep finds on its way**: the sum of the weightings of all
parameters times a direction. -/
def pair : {n p : ℕ} → Chain n p → (Fin n → Fin m → ℝ) → (Fin p → Fin m → ℝ) → Direction → ℝ
  | _, _, nil, _, _, _ => 0
  | _, _, cons S N, X, A, δ =>
    S.pair X (N.cotangent (S.eval X) A) (δ 0) + N.pair (S.eval X) A δ.tail

/-- Every nonlinearity is smooth where it is evaluated. -/
def Smooth : {n p : ℕ} → Chain n p → (Fin n → Fin m → ℝ) → Prop
  | _, _, nil, _ => True
  | _, _, cons S N, X => (∀ i j, S.φ.SmoothAt (S.preact X i j)) ∧ N.Smooth (S.eval X)

/-- Every argument at which a nonlinearity is not smooth decreases. -/
def Moves : {n p : ℕ} → Chain n p → Direction → (Fin n → Fin m → ℝ) → (Fin n → Fin m → ℝ) → Prop
  | _, _, nil, _, _, _ => True
  | _, _, cons S N, δ, X, V =>
    (∀ i j, S.φ.SmoothAt (S.preact X i j) ∨ S.preTangent (δ 0) X V i j < 0)
      ∧ N.Moves δ.tail (S.eval X) (S.tangent (δ 0) X V)

/-- Every argument of a nonlinearity decreases. -/
def Falls : {n p : ℕ} → Chain n p → Direction → (Fin n → Fin m → ℝ) → (Fin n → Fin m → ℝ) → Prop
  | _, _, nil, _, _, _ => True
  | _, _, cons S N, δ, X, V =>
    (∀ i j, S.preTangent (δ 0) X V i j < 0)
      ∧ N.Falls δ.tail (S.eval X) (S.tangent (δ 0) X V)

theorem Smooth.moves {N : Chain n p} {X : Fin n → Fin m → ℝ} (h : N.Smooth X) (δ : Direction)
    (V : Fin n → Fin m → ℝ) : N.Moves δ X V := by
  induction N generalizing δ with
  | nil => trivial
  | cons S N ih => exact ⟨fun i j => Or.inl (h.1 i j), ih h.2 _ _⟩

theorem Falls.moves {N : Chain n p} {δ : Direction} {X V : Fin n → Fin m → ℝ}
    (h : N.Falls δ X V) : N.Moves δ X V := by
  induction N generalizing δ with
  | nil => trivial
  | cons S N ih => exact ⟨fun i j => Or.inr (h.1 i j), ih h.2⟩

@[simp] theorem shift_zero (N : Chain n p) (δ : Direction) : N.shift δ 0 = N := by
  induction N generalizing δ with
  | nil => rfl
  | cons S N ih => rw [shift, Stage.shift_zero, ih]

@[simp] theorem zero_shift (N : Chain n p) (t : ℝ) : N.shift 0 t = N := by
  induction N with
  | nil => rfl
  | cons S N ih =>
    have htail : (0 : Direction).tail = 0 := rfl
    rw [shift, htail, ih]
    simp [Stage.shift]

/-! ## Forwards -/

/-- **The tangent is the derivative from the right** along a direction in
which the arguments at the kinks decrease. -/
theorem hasDerivWithinAt_eval (N : Chain n p) (δ : Direction) {X : ℝ → Fin n → Fin m → ℝ}
    {V : Fin n → Fin m → ℝ} (hX : ∀ q j, HasDerivWithinAt (fun t => X t q j) (V q j) (Set.Ici 0) 0)
    (h : N.Moves δ (X 0) V) (i : Fin p) (j : Fin m) :
    HasDerivWithinAt (fun t => (N.shift δ t).eval (X t) i j) (N.tangent δ (X 0) V i j)
      (Set.Ici 0) 0 := by
  induction N generalizing δ with
  | nil => exact hX i j
  | cons S N ih =>
    have hstage : ∀ i j, HasDerivWithinAt (fun t => (S.shift (δ 0) t).eval (X t) i j)
        (S.tangent (δ 0) (X 0) V i j) (Set.Ici 0) 0 :=
      fun i j => S.hasDerivWithinAt_eval (δ 0) hX i j (h.1 i j)
    have hzero : (S.shift (δ 0) 0).eval (X 0) = S.eval (X 0) := by rw [Stage.shift_zero]
    have hrest := ih δ.tail hstage (by rw [hzero]; exact h.2) i
    rw [hzero] at hrest
    exact hrest

/-! ## Backwards -/

/-- **Forwards and backwards are adjoint.** -/
theorem sum_mul_tangent (N : Chain n p) (δ : Direction) (X V : Fin n → Fin m → ℝ)
    (A : Fin p → Fin m → ℝ) :
    ∑ i, ∑ j, A i j * N.tangent δ X V i j
      = N.pair X A δ + ∑ q, ∑ j, N.cotangent X A q j * V q j := by
  induction N generalizing δ with
  | nil => rw [pair, zero_add]; rfl
  | cons S N ih =>
    rw [tangent, ih, S.sum_mul_tangent, pair, cotangent]
    ring

/-- **A function of the output with a gradient**: along every curve of
outputs that is differentiable from the right, it moves by the weighting
`A` of the outputs. -/
def HasGradient (F : (Fin p → Fin m → ℝ) → ℝ) (A P : Fin p → Fin m → ℝ) : Prop :=
  ∀ (Q : ℝ → Fin p → Fin m → ℝ) (V : Fin p → Fin m → ℝ), Q 0 = P →
    (∀ i j, HasDerivWithinAt (fun t => Q t i j) (V i j) (Set.Ici 0) 0) →
    HasDerivWithinAt (fun t => F (Q t)) (∑ i, ∑ j, A i j * V i j) (Set.Ici 0) 0

/-- The weighted sum of the outputs has its weights for gradient. -/
theorem hasGradient_sum (A P : Fin p → Fin m → ℝ) :
    HasGradient (fun Q => ∑ i, ∑ j, A i j * Q i j) A P := by
  intro Q V _ hQ
  exact HasDerivWithinAt.fun_sum fun i _ => HasDerivWithinAt.fun_sum fun j _ =>
    (hQ i j).const_mul (A i j)

/-- **The sweep computes the derivative from the right** of every function
of the output, along a direction in which the arguments at the kinks
decrease. -/
theorem hasDerivWithinAt_objective (N : Chain n p) {F : (Fin p → Fin m → ℝ) → ℝ}
    {A : Fin p → Fin m → ℝ} (δ : Direction) {X : ℝ → Fin n → Fin m → ℝ} {V : Fin n → Fin m → ℝ}
    (hX : ∀ q j, HasDerivWithinAt (fun t => X t q j) (V q j) (Set.Ici 0) 0)
    (hF : HasGradient F A (N.eval (X 0))) (h : N.Moves δ (X 0) V) :
    HasDerivWithinAt (fun t => F ((N.shift δ t).eval (X t)))
      (N.pair (X 0) A δ + ∑ q, ∑ j, N.cotangent (X 0) A q j * V q j) (Set.Ici 0) 0 := by
  rw [← N.sum_mul_tangent δ (X 0) V A]
  exact hF _ _ (by rw [shift_zero]) fun i j => N.hasDerivWithinAt_eval δ hX h i j

/-! ## Partial derivatives -/

/-- What the sweep makes of a direction is linear in it. -/
theorem pair_add_smul (N : Chain n p) (X : Fin n → Fin m → ℝ) (A : Fin p → Fin m → ℝ)
    (δ ε : Direction) (s : ℝ) : N.pair X A (δ + s • ε) = N.pair X A δ + s * N.pair X A ε := by
  induction N generalizing δ ε with
  | nil => simp [pair]
  | cons S N ih =>
    have hhead : (δ + s • ε) 0 = δ 0 + s • ε 0 := rfl
    have htail : (δ + s • ε).tail = δ.tail + s • ε.tail := rfl
    rw [pair, hhead, htail, ih, Stage.pair_add_smul, pair, pair]
    ring

@[simp] theorem pair_zero (N : Chain n p) (X : Fin n → Fin m → ℝ) (A : Fin p → Fin m → ℝ) :
    N.pair X A 0 = 0 := by
  have h := N.pair_add_smul X A 0 0 1
  rw [smul_zero, add_zero, one_mul] at h
  linarith

/-- The weightings of all parameters are linear in the direction. -/
def pairing (N : Chain n p) (X : Fin n → Fin m → ℝ) (A : Fin p → Fin m → ℝ) :
    Direction →ₗ[ℝ] ℝ where
  toFun := N.pair X A
  map_add' δ ε := by
    rw [← one_smul ℝ ε, pair_add_smul, one_smul, one_mul]
  map_smul' s δ := by
    rw [← zero_add (s • δ), pair_add_smul, pair_zero, zero_add, RingHom.id_apply, smul_eq_mul]

theorem pair_neg (N : Chain n p) (X : Fin n → Fin m → ℝ) (A : Fin p → Fin m → ℝ) (δ : Direction) :
    N.pair X A (-δ) = -N.pair X A δ := by
  have h := N.pair_add_smul X A 0 δ (-1)
  rw [zero_add, neg_one_smul, pair_zero, zero_add] at h
  linarith

theorem shift_neg (N : Chain n p) (δ : Direction) (t : ℝ) : N.shift (-δ) t = N.shift δ (-t) := by
  induction N generalizing δ with
  | nil => rfl
  | cons S N ih =>
    have htail : (-δ).tail = -δ.tail := rfl
    rw [shift, shift, htail, ih]
    congr 1
    simp [Stage.shift]

/-- **Where every nonlinearity is smooth the sweep computes the
derivative** of every function of the output, along every direction in the
parameters and the input. -/
theorem hasDerivAt_objective {N : Chain n p} {F : (Fin p → Fin m → ℝ) → ℝ}
    {A : Fin p → Fin m → ℝ} {X : Fin n → Fin m → ℝ} (hF : HasGradient F A (N.eval X))
    (h : N.Smooth X) (δ : Direction) (V : Fin n → Fin m → ℝ) :
    HasDerivAt (fun t : ℝ => F ((N.shift δ t).eval (X + t • V)))
      (N.pair X A δ + ∑ q, ∑ j, N.cotangent X A q j * V q j) 0 := by
  have hline : ∀ (U : Fin n → Fin m → ℝ) q j,
      HasDerivWithinAt (fun t : ℝ => (X + t • U) q j) (U q j) (Set.Ici 0) 0 := fun U q j => by
    simpa using (((hasDerivAt_id (0 : ℝ)).mul_const (U q j)).const_add (X q j)).hasDerivWithinAt
  have hzero : ∀ U : Fin n → Fin m → ℝ, X + (0 : ℝ) • U = X := fun U => by rw [zero_smul, add_zero]
  have hright := N.hasDerivWithinAt_objective δ (X := fun t => X + t • V) (hline V)
    (by rw [hzero]; exact hF) (by rw [hzero]; exact h.moves _ _)
  -- the derivative from the left is the one from the right along the opposite direction
  have hback := N.hasDerivWithinAt_objective (-δ) (X := fun t => X + t • (-V)) (hline (-V))
    (by rw [hzero]; exact hF) (by rw [hzero]; exact h.moves _ _)
  simp only [hzero] at hright hback
  have hneg : HasDerivWithinAt (fun t : ℝ => -t) (-1) (Set.Iic 0) 0 :=
    (hasDerivAt_neg 0).hasDerivWithinAt
  rw [← neg_zero] at hback
  have hleft := HasDerivWithinAt.comp (0 : ℝ) hback hneg
    (fun t ht => by simpa using ht)
  have hleft' : HasDerivWithinAt (fun t : ℝ => F ((N.shift δ t).eval (X + t • V)))
      (N.pair X A δ + ∑ q, ∑ j, N.cotangent X A q j * V q j) (Set.Iic 0) 0 := by
    refine (hleft.congr_deriv ?_).congr (fun t _ => ?_) ?_
    · rw [pair_neg]
      simp only [Pi.neg_apply, mul_neg, Finset.sum_neg_distrib]
      ring
    · simp [shift_neg]
    · simp
  have hunion := hleft'.union hright
  rwa [Set.Iic_union_Ici, hasDerivWithinAt_univ] at hunion

/-! ## Through the kinks -/

/-- **There is a direction along which every argument decreases**: lower
each bias by more than what the layers below can raise. -/
theorem exists_falls (N : Chain n p) (X V : Fin n → Fin m → ℝ) : ∃ δ, N.Falls δ X V := by
  induction N with
  | nil => exact ⟨0, trivial⟩
  | @cons n k p S N ih =>
    let raise (i : ℕ) : ℝ :=
      if h : i < k then ∑ j, |∑ q, S.w ⟨i, h⟩ q * V q j| else 0
    let d : (ℕ → ℕ → ℝ) × (ℕ → ℝ) := (0, fun i => -(raise i + 1))
    obtain ⟨δ, hδ⟩ := ih (S.eval X) (S.tangent d X V)
    refine ⟨Direction.cons d δ, fun i j => ?_, hδ⟩
    have hpre : S.preTangent d X V i j = (∑ q, S.w i q * V q j) - (raise i + 1) := by
      simp [Stage.preTangent, d, sub_eq_add_neg]
    have hraise : raise i = ∑ j, |∑ q, S.w i q * V q j| := dif_pos i.isLt
    have hle : |∑ q, S.w i q * V q j| ≤ ∑ j, |∑ q, S.w i q * V q j| :=
      Finset.single_le_sum (f := fun j => |∑ q, S.w i q * V q j|) (fun _ _ => abs_nonneg _)
        (Finset.mem_univ j)
    have := le_abs_self (∑ q, S.w i q * V q j)
    show S.preTangent d X V i j < 0
    rw [hpre, hraise]
    linarith

/-- **Such directions form an open set.** -/
theorem Falls.eventually {N : Chain n p} {δ : Direction} {X V : Fin n → Fin m → ℝ}
    (h : N.Falls δ X V) (ε : Direction) (U : Fin n → Fin m → ℝ) :
    ∀ᶠ s in 𝓝[>] (0 : ℝ), N.Falls (δ + s • ε) X (V + s • U) := by
  induction N generalizing δ ε with
  | nil => exact Eventually.of_forall fun _ => trivial
  | cons S N ih =>
    have hhead : ∀ᶠ s in 𝓝[>] (0 : ℝ), ∀ i j,
        S.preTangent ((δ + s • ε) 0) X (V + s • U) i j < 0 := by
      refine eventually_all.mpr fun i => eventually_all.mpr fun j => ?_
      have hlim : Tendsto (fun s : ℝ => S.preTangent (δ 0) X V i j
          + s * S.preTangent (ε 0) X U i j) (𝓝[>] 0) (𝓝 (S.preTangent (δ 0) X V i j)) := by
        have hcont : Continuous fun s : ℝ => S.preTangent (δ 0) X V i j
            + s * S.preTangent (ε 0) X U i j := by fun_prop
        have := (hcont.tendsto 0).mono_left (nhdsWithin_le_nhds (s := Set.Ioi 0))
        simpa using this
      filter_upwards [hlim.eventually (eventually_lt_nhds (h.1 i j))] with s hs
      have hadd : (δ + s • ε) 0 = δ 0 + s • ε 0 := rfl
      rwa [hadd, Stage.preTangent_add_smul]
    have hrest := ih h.2 ε.tail (S.tangent (ε 0) X U)
    filter_upwards [hhead, hrest] with s hs hs'
    refine ⟨hs, ?_⟩
    have hadd : (δ + s • ε) 0 = δ 0 + s • ε 0 := rfl
    rw [hadd, Stage.tangent_add_smul]
    exact hs'

/-- **Where a function of the output is differentiable in the parameters,
its derivative is the sweep's**, whether or not a nonlinearity is evaluated
at a kink. -/
theorem eq_pair_of_differentiable {N : Chain n p} {F : (Fin p → Fin m → ℝ) → ℝ}
    {A : Fin p → Fin m → ℝ} {X : Fin n → Fin m → ℝ} (hF : HasGradient F A (N.eval X))
    {D : Direction →ₗ[ℝ] ℝ}
    (hD : ∀ δ, HasDerivAt (fun t => F ((N.shift δ t).eval X)) (D δ) 0) (ε : Direction) :
    D ε = N.pair X A ε := by
  have hfalls : ∀ δ, N.Falls δ X 0 → D δ = N.pair X A δ := fun δ hδ => by
    have hright := N.hasDerivWithinAt_objective δ (X := fun _ => X) (V := 0)
      (fun q j => hasDerivWithinAt_const _ _ _) hF hδ.moves
    simp only [Pi.zero_apply, mul_zero, Finset.sum_const_zero, add_zero] at hright
    exact (uniqueDiffWithinAt_Ici (0 : ℝ)).eq_deriv _ (hD δ).hasDerivWithinAt hright
  obtain ⟨δ, hδ⟩ := N.exists_falls X 0
  obtain ⟨s, hs, hpos⟩ := ((hδ.eventually ε 0).and self_mem_nhdsWithin).exists
  rw [smul_zero, add_zero] at hs
  have h₀ := hfalls δ hδ
  have h₁ := hfalls (δ + s • ε) hs
  rw [map_add, map_smul, smul_eq_mul, pair_add_smul, h₀] at h₁
  exact mul_left_cancel₀ (ne_of_gt hpos) (add_left_cancel h₁)

end Chain

end ReverseMode
