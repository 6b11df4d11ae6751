import NeuralBuilder.Building

/-!
# Draws

What the distributions of the initialisers may return, and two choices of
draws that show what a network can be built with: weights of `0`, and
weights that are all one positive number. Both come with an allocator that
always has memory.

A witness needs a network that was really built, and what the initialisers draw
is not for the request to say. With `Noise.zero` every weight is `0`, where the
bounds allow it, and with `Noise.half` every weight is positive, so that what a
unit returns shows in what the network returns.
-/

/-- **The distribution returns values it can return**: a uniform draw lies
between its bounds, a normal one anywhere. -/
def Noise.Legal (noise : Noise ℝ) : Prop :=
  ∀ lo hi i j, lo < hi → lo ≤ noise.uniform lo hi i j ∧ noise.uniform lo hi i j < hi

/-- Draws of `0`, where the bounds allow it. -/
noncomputable def Noise.zero : Noise ℝ where
  normal _ _ _ _ := 0
  uniform lo hi _ _ := if lo ≤ 0 ∧ 0 < hi then 0 else lo
  allocates _ := true
  allocatesRows _ _ := true

/-- Draws of a positive number, where the bounds allow it. -/
noncomputable def Noise.half : Noise ℝ where
  normal _ stddev _ _ := stddev
  uniform lo hi _ _ := if lo ≤ hi / 2 ∧ hi / 2 < hi then hi / 2 else lo
  allocates _ := true
  allocatesRows _ _ := true

theorem Noise.zero_legal : Noise.zero.Legal := by
  intro lo hi i j hlt
  show lo ≤ (if lo ≤ 0 ∧ 0 < hi then 0 else lo) ∧ (if lo ≤ 0 ∧ 0 < hi then 0 else lo) < hi
  split_ifs with h
  · exact h
  · exact ⟨le_rfl, hlt⟩

theorem Noise.half_legal : Noise.half.Legal := by
  intro lo hi i j hlt
  show lo ≤ (if lo ≤ hi / 2 ∧ hi / 2 < hi then hi / 2 else lo)
    ∧ (if lo ≤ hi / 2 ∧ hi / 2 < hi then hi / 2 else lo) < hi
  split_ifs with h
  · exact h
  · exact ⟨le_rfl, hlt⟩

theorem Noise.zero_allocates (n k : ℤ) : Noise.zero.Allocates n k :=
  Noise.allocates_of_unbounded (fun _ => rfl) (fun _ _ => rfl) n k

theorem Noise.half_allocates (n k : ℤ) : Noise.half.Allocates n k :=
  Noise.allocates_of_unbounded (fun _ => rfl) (fun _ _ => rfl) n k

/-- There is memory for every network of weights of `0`. -/
theorem NeuralNetwork.hasMemory_zero (next : ℕ) (args : HyperParameters ℝ) :
    HasMemory (fun _ => Noise.zero) next args :=
  fun _ _ => Noise.zero_allocates _ _

namespace Initializer

variable {n k : ℕ}

/-- The bound of the uniform initialiser is positive. -/
theorem limit_pos (hn : 0 < n) : 0 < Real.sqrt (6.0 / ((n + k : ℕ) : ℝ)) := by
  have : (0 : ℝ) < ((n + k : ℕ) : ℝ) := by exact_mod_cast (by omega : 0 < n + k)
  exact Real.sqrt_pos.mpr (by positivity)

theorem draw_zero (name : String) (hn : 0 < n) : draw Noise.zero name n k = fun _ _ => 0 := by
  funext i j
  unfold draw
  split_ifs
  · rfl
  · have := limit_pos (k := k) hn
    exact if_pos ⟨neg_nonpos.mpr this.le, this⟩

theorem draw_half (name : String) (hn : 0 < n) :
    ∃ c > 0, draw Noise.half name n k = fun _ _ => c := by
  unfold draw
  split_ifs
  · refine ⟨Real.sqrt (2.0 / (n : ℝ)), Real.sqrt_pos.mpr ?_, rfl⟩
    have : (0 : ℝ) < n := by exact_mod_cast hn
    positivity
  · have hlim := limit_pos (k := k) hn
    refine ⟨Real.sqrt (6.0 / ((n + k : ℕ) : ℝ)) / 2, by linarith, ?_⟩
    funext i j
    exact if_pos ⟨show -Real.sqrt (6.0 / ((n + k : ℕ) : ℝ))
      ≤ Real.sqrt (6.0 / ((n + k : ℕ) : ℝ)) / 2 by linarith,
      show Real.sqrt (6.0 / ((n + k : ℕ) : ℝ)) / 2
        < Real.sqrt (6.0 / ((n + k : ℕ) : ℝ)) by linarith⟩

end Initializer
