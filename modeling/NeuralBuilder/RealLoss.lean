import NeuralBuilder.Gradient
import NeuralBuilder.Loss
import Mathlib.Analysis.SpecialFunctions.Log.Deriv
import Mathlib.Analysis.SpecialFunctions.ExpDeriv
import Mathlib.Algebra.BigOperators.Field

/-!
# The losses over the reals

With the guards of the loss classes read as `0`, what `derivative` returns
is `m` times a gradient of the cost of `m` samples: for sigmoid cross
entropy the gradient with respect to the predictions, and for categorical
cross entropy the gradient with respect to what softmax was applied to.

`HasGradient` is about functions of a grid and the curves through it, so that
the two losses have one statement: along a curve the sum over the samples
changes by the sum of the products of the velocity with what `derivative`
returns. The domain of the one are predictions strictly between `0` and `1`; the
other one is composed with softmax, and has a gradient everywhere.
-/

open ReverseMode

variable {r t m : ℕ}

namespace SigmoidCrossEntropy

/-- **The cost of a batch**, before it is divided by the number of
samples. -/
noncomputable def total (T : Fin r → Fin m → ℝ) (P : Fin r → Fin m → ℝ) : ℝ :=
  ∑ i, ∑ j, -term (P i j) (T i j)

theorem foldl_eq_total (T P : Fin r → Fin m → ℝ) :
    Fin.foldl r (fun s i => Fin.foldl m (fun s j => s - term (P i j) (T i j)) s) 0 = total T P := by
  have hrow : ∀ (s : ℝ) (i : Fin r), Fin.foldl m (fun s j => s - term (P i j) (T i j)) s
      = s + ∑ j, -term (P i j) (T i j) := fun s i => by
    rw [Checked.foldl_sub_eq_sub_sum, Finset.sum_neg_distrib, sub_eq_add_neg]
  simp only [hrow]
  exact Checked.foldl_add_eq_sum _

/-- The derivative of a term. -/
theorem hasDerivWithinAt_term {u : ℝ → ℝ} {u' x : ℝ} (hu : HasDerivWithinAt u u' (Set.Ici 0) 0)
    (hlow : 0 < u 0) (hhigh : u 0 < 1) :
    HasDerivWithinAt (fun t => -term (u t) x) ((u 0 - x) / (u 0 * (1 - u 0) + 0) * u')
      (Set.Ici 0) 0 := by
  have hlog : HasDerivWithinAt (fun t => Real.log (u t)) (u' / u 0) (Set.Ici 0) 0 :=
    hu.log hlow.ne'
  have hlog' : HasDerivWithinAt (fun t => Real.log (1 - u t)) (-u' / (1 - u 0)) (Set.Ici 0) 0 :=
    (hu.const_sub 1).log (by linarith)
  have h := ((hlog.const_mul x).fun_add (hlog'.const_mul (1 - x))).fun_neg
  refine h.congr_deriv ?_
  have h₁ : u 0 ≠ 0 := hlow.ne'
  have h₂ : 1 - u 0 ≠ 0 := by linarith
  rw [add_zero]
  field_simp
  ring

/-- **`derivative` returns the gradient of the cost**, where the cost is
finite. -/
theorem hasGradient_total (T P : Fin r → Fin m → ℝ) (hP : ∀ i j, 0 < P i j ∧ P i j < 1) :
    Chain.HasGradient (total T) (fun i j => (P i j - T i j) / (P i j * (1 - P i j) + 0)) P := by
  intro Q V hQ0 hQ
  subst hQ0
  exact HasDerivWithinAt.fun_sum fun i _ => HasDerivWithinAt.fun_sum fun j _ =>
    hasDerivWithinAt_term (hQ i j) (hP i j).1 (hP i j).2

end SigmoidCrossEntropy

namespace CategoricalCrossEntropy

/-- **The cost of a batch** as a function of what softmax is applied to,
before it is divided by the number of samples. -/
noncomputable def total (c : Fin m → Fin r) (Z : Fin r → Fin m → ℝ) : ℝ :=
  ∑ j, (Real.log (∑ q, Real.exp (Z q j)) - Z (c j) j)

/-- The negative logarithm of a softmax entry. -/
theorem neg_log_softmax (v : Fin r → ℝ) (hr : 0 < r) (i : Fin r) :
    -Real.log (Softmax.column v hr i + 0) = Real.log (∑ q, Real.exp (v q)) - v i := by
  rw [add_zero, Softmax.column_real,
    Real.log_div (Real.exp_pos _).ne' (Softmax.sum_exp_pos v hr).ne', Real.log_exp, neg_sub]

theorem foldl_eq_total (c : Fin m → Fin r) (Z : Fin r → Fin m → ℝ) (hr : 0 < r) :
    Fin.foldl m (fun s j => s + -Double.log (Softmax.column (fun i => Z i j) hr (c j) + 0)) 0
      = total c Z := by
  refine (Checked.foldl_add_eq_sum _).trans (Finset.sum_congr rfl fun j _ => ?_)
  exact neg_log_softmax (fun i => Z i j) hr (c j)

/-- **`derivative` returns the gradient of the cost** with respect to what
softmax is applied to. -/
theorem hasGradient_total (c : Fin m → Fin r) (Z : Fin r → Fin m → ℝ) (hr : 0 < r) :
    Chain.HasGradient (total c) (fun i j => if i = c j
      then Softmax.column (fun i => Z i j) hr i - 1
      else Softmax.column (fun i => Z i j) hr i) Z := by
  intro Q V hQ0 hQ
  subst hQ0
  have hcol : ∀ j, HasDerivWithinAt (fun t => Real.log (∑ q, Real.exp (Q t q j)) - Q t (c j) j)
      ((∑ q, Real.exp (Q 0 q j) * V q j) / (∑ q, Real.exp (Q 0 q j)) - V (c j) j)
      (Set.Ici 0) 0 := fun j =>
    ((HasDerivWithinAt.fun_sum fun q _ => (hQ q j).exp).log
      (Softmax.sum_exp_pos (fun q => Q 0 q j) hr).ne').fun_sub (hQ (c j) j)
  refine (HasDerivWithinAt.fun_sum fun j _ => hcol j).congr_deriv ?_
  rw [Finset.sum_comm]
  refine Finset.sum_congr rfl fun j _ => ?_
  have hterm : ∀ i, (if i = c j then Softmax.column (fun i => Q 0 i j) hr i - 1
      else Softmax.column (fun i => Q 0 i j) hr i) * V i j
      = Real.exp (Q 0 i j) * V i j / (∑ q, Real.exp (Q 0 q j))
        - if i = c j then V i j else 0 := fun i => by
    rw [Softmax.column_real]
    split_ifs
    · ring
    · ring
  simp only [hterm]
  rw [Finset.sum_sub_distrib, Finset.sum_div, Finset.sum_ite_eq' Finset.univ (c j) fun i => V i j,
    if_pos (Finset.mem_univ _)]

end CategoricalCrossEntropy

namespace ModelEvaluator

/-- A count that grows by at most `1` at each of `n` positions is a part of
`n`. -/
theorem rate_mem_Icc {n : ℕ} {count : ℝ → ℕ → Except Fault ℝ} {hits : ℝ}
    (hcount : ∀ i c d, count c i = .ok d → c ≤ d ∧ d ≤ c + 1)
    (h : Checked.loop n count 0 = .ok hits) : hits / n ∈ Set.Icc (0 : ℝ) 1 := by
  have hhits : 0 ≤ hits ∧ hits ≤ n := by
    refine Checked.loop_keeps (P := fun k c => 0 ≤ c ∧ c ≤ (k : ℝ)) (fun i c d _ hc hd => ?_) ?_ h
    · obtain ⟨hle, hle'⟩ := hcount i c d hd
      rw [Nat.cast_succ]
      exact ⟨hc.1.trans hle, hle'.trans (add_le_add_left hc.2 1)⟩
    · exact ⟨le_refl 0, Nat.cast_nonneg 0⟩
  exact ⟨div_nonneg hhits.1 (Nat.cast_nonneg n), div_le_one_of_le₀ hhits.2 (Nat.cast_nonneg n)⟩

/-- **An accuracy lies between `0` and `1`.** -/
theorem accuracy_mem_Icc {predictions targets : Mat ℝ} {lossFunction : LossFunction} {a : ℝ}
    (h : accuracy predictions targets lossFunction = .ok a) : a ∈ Set.Icc (0 : ℝ) 1 := by
  have hhit : ∀ (c : ℝ) (b : Bool),
      c ≤ c + Double.ofBool b ∧ c + Double.ofBool b ≤ c + 1 := by
    intro c b
    cases b
    · exact ⟨(add_zero c).ge, add_le_add_right zero_le_one c⟩
    · exact ⟨le_add_of_nonneg_right zero_le_one, le_refl _⟩
  unfold accuracy at h
  obtain ⟨front, -, h⟩ := (Checked.bind_eq_ok_iff _ _ _).mp h
  cases lossFunction with
  | sigmoidCrossEntropy =>
    obtain ⟨hits, hloop, h⟩ := (Checked.bind_eq_ok_iff _ _ _).mp h
    cases h
    refine rate_mem_Icc (fun i c d hd => ?_) hloop
    obtain ⟨pred, -, hd⟩ := (Checked.bind_eq_ok_iff _ _ _).mp hd
    obtain ⟨target, -, hd⟩ := (Checked.bind_eq_ok_iff _ _ _).mp hd
    cases hd
    exact hhit c _
  | categoricalCrossEntropy =>
    obtain ⟨hits, hloop, h⟩ := (Checked.bind_eq_ok_iff _ _ _).mp h
    cases h
    refine rate_mem_Icc (fun j c d hd => ?_) hloop
    obtain ⟨predInd, -, hd⟩ := (Checked.bind_eq_ok_iff _ _ _).mp hd
    obtain ⟨target, -, hd⟩ := (Checked.bind_eq_ok_iff _ _ _).mp hd
    cases hd
    exact hhit c _

end ModelEvaluator
