import NeuralBuilder.MathUtils
import Mathlib.LinearAlgebra.Matrix.Hadamard

/-!
# The laws of the matrix kernel

On rectangular operands and over exact arithmetic the products, sums and
transposes of `MathUtils` are those of Mathlib's matrices. The laws that
backpropagation uses hold of the code for this reason, the two adjoint
identities among them, by which `dw` and `daPrev` are what they are
(`kernel_laws`).

Each operation is first put in terms of Mathlib's: `dot` of two grids is the
grid of `A * B`, `transpose` that of `Aᵀ`, and so on. The laws then are those of
matrices over a commutative ring, and the sizes are in the types, so that there
is nothing to check but that operands have a row where the source reads row `0`.
-/

open Matrix

variable {k n m p : ℕ}

/-- The sum of the entries of a matrix. -/
def Mat.entrySum (A : Mat ℝ) : ℝ := (A.map List.sum).sum

theorem Mat.entrySum_ofFn (A : Fin k → Fin n → ℝ) :
    Mat.entrySum (Grid.ofFn A) = ∑ i, ∑ j, A i j := by
  rw [entrySum, Grid.ofFn, List.map_ofFn, List.sum_ofFn]
  exact Finset.sum_congr rfl fun i _ => List.sum_ofFn

namespace MathUtils

/-- The sum of the entries of an entrywise product. -/
noncomputable def inner (U V : Mat ℝ) : Except Fault ℝ := do
  return Mat.entrySum (← elementWiseProduct U V)

/-! ## The operations on matrices -/

section Operations

variable (A B : Matrix (Fin k) (Fin n) ℝ)

theorem transpose_matrix (hk : 0 < k) : transpose (Grid.ofFn A) = .ok (Grid.ofFn Aᵀ) :=
  transpose_ofFn A hk

theorem dotProduct_matrix (C : Matrix (Fin n) (Fin m) ℝ) (hk : 0 < k) (hn : 0 < n) :
    dotProduct (Grid.ofFn A) (Grid.ofFn C) = .ok (Grid.ofFn (A * C)) := by
  refine (dotProduct_ofFn A C hk hn).trans (congrArg Except.ok (congrArg Grid.ofFn ?_))
  funext i j
  rw [dot_real]
  rfl

theorem elementWiseSum_matrix (hk : 0 < k) :
    elementWiseSum (Grid.ofFn A) (Grid.ofFn B) = .ok (Grid.ofFn (A + B)) :=
  zipMat_ofFn _ _ A B hk

theorem inner_matrix (hk : 0 < k) :
    inner (Grid.ofFn A) (Grid.ofFn B) = .ok (trace (A * Bᵀ)) := by
  rw [inner, elementWiseProduct, zipMat_ofFn _ _ A B hk, Checked.ok_bind, Mat.entrySum_ofFn,
    ← sum_hadamard_eq]
  rfl

end Operations

/-! ## The laws -/

/-- Two computations return, and what they return is the same. -/
def Agree {β : Type} (x y : Except Fault β) : Prop := ∃ b, x = .ok b ∧ y = .ok b

section Laws

variable (A A' : Matrix (Fin k) (Fin n) ℝ) (B B' : Matrix (Fin n) (Fin m) ℝ)
  (C : Matrix (Fin m) (Fin p) ℝ) (hk : 0 < k) (hn : 0 < n) (hm : 0 < m)

include hk hn

theorem transpose_transpose : (transpose (Grid.ofFn A) >>= transpose) = .ok (Grid.ofFn A) := by
  rw [transpose_matrix A hk, Checked.ok_bind, transpose_matrix Aᵀ hn, Matrix.transpose_transpose]

theorem dotProduct_add : Agree
    (do
      let sum ← elementWiseSum (Grid.ofFn B) (Grid.ofFn B')
      dotProduct (Grid.ofFn A) sum)
    (do
      let left ← dotProduct (Grid.ofFn A) (Grid.ofFn B)
      let right ← dotProduct (Grid.ofFn A) (Grid.ofFn B')
      elementWiseSum left right) := by
  refine ⟨Grid.ofFn (A * (B + B')), ?_, ?_⟩
  · rw [elementWiseSum_matrix B B' hn, Checked.ok_bind, dotProduct_matrix A _ hk hn]
  · rw [dotProduct_matrix A B hk hn, Checked.ok_bind, dotProduct_matrix A B' hk hn,
      Checked.ok_bind, elementWiseSum_matrix _ _ hk, Matrix.mul_add]

theorem add_dotProduct : Agree
    (do
      let sum ← elementWiseSum (Grid.ofFn A) (Grid.ofFn A')
      dotProduct sum (Grid.ofFn B))
    (do
      let left ← dotProduct (Grid.ofFn A) (Grid.ofFn B)
      let right ← dotProduct (Grid.ofFn A') (Grid.ofFn B)
      elementWiseSum left right) := by
  refine ⟨Grid.ofFn ((A + A') * B), ?_, ?_⟩
  · rw [elementWiseSum_matrix A A' hk, Checked.ok_bind, dotProduct_matrix _ B hk hn]
  · rw [dotProduct_matrix A B hk hn, Checked.ok_bind, dotProduct_matrix A' B hk hn,
      Checked.ok_bind, elementWiseSum_matrix _ _ hk, Matrix.add_mul]

include hm

theorem transpose_dotProduct : Agree
    (dotProduct (Grid.ofFn A) (Grid.ofFn B) >>= transpose)
    (do dotProduct (← transpose (Grid.ofFn B)) (← transpose (Grid.ofFn A))) := by
  refine ⟨Grid.ofFn (A * B)ᵀ, ?_, ?_⟩
  · rw [dotProduct_matrix A B hk hn, Checked.ok_bind, transpose_matrix _ hk]
  · rw [transpose_matrix B hn, Checked.ok_bind, transpose_matrix A hk, Checked.ok_bind,
      dotProduct_matrix _ _ hm hn, Matrix.transpose_mul]

theorem dotProduct_assoc : Agree
    (do dotProduct (← dotProduct (Grid.ofFn A) (Grid.ofFn B)) (Grid.ofFn C))
    (do dotProduct (Grid.ofFn A) (← dotProduct (Grid.ofFn B) (Grid.ofFn C))) := by
  refine ⟨Grid.ofFn (A * B * C), ?_, ?_⟩
  · rw [dotProduct_matrix A B hk hn, Checked.ok_bind, dotProduct_matrix _ C hk hm]
  · rw [dotProduct_matrix B C hn hm, Checked.ok_bind, dotProduct_matrix A _ hk hn, Matrix.mul_assoc]

/-- **The adjoint of a product in its left factor**: the weights against what
comes back. -/
theorem inner_dotProduct_left (D : Matrix (Fin k) (Fin m) ℝ) : Agree
    (do inner (← dotProduct (Grid.ofFn A) (Grid.ofFn B)) (Grid.ofFn D))
    (do inner (Grid.ofFn A) (← dotProduct (Grid.ofFn D) (← transpose (Grid.ofFn B)))) := by
  refine ⟨trace (A * B * Dᵀ), ?_, ?_⟩
  · rw [dotProduct_matrix A B hk hn, Checked.ok_bind, inner_matrix _ D hk]
  · rw [transpose_matrix B hn, Checked.ok_bind, dotProduct_matrix D _ hk hm, Checked.ok_bind,
      inner_matrix A _ hk, Matrix.transpose_mul, Matrix.transpose_transpose, Matrix.mul_assoc]

omit hm in
/-- **The adjoint of a product in its right factor**: the input against what
comes back. -/
theorem inner_dotProduct_right (D : Matrix (Fin k) (Fin m) ℝ) : Agree
    (do inner (← dotProduct (Grid.ofFn A) (Grid.ofFn B)) (Grid.ofFn D))
    (do inner (Grid.ofFn B) (← dotProduct (← transpose (Grid.ofFn A)) (Grid.ofFn D))) := by
  refine ⟨trace (A * B * Dᵀ), ?_, ?_⟩
  · rw [dotProduct_matrix A B hk hn, Checked.ok_bind, inner_matrix _ D hk]
  · rw [transpose_matrix A hk, Checked.ok_bind, dotProduct_matrix _ D hn hk, Checked.ok_bind,
      inner_matrix B _ hn, Matrix.transpose_mul, Matrix.transpose_transpose, ← Matrix.mul_assoc,
      Matrix.trace_mul_cycle B]

end Laws

/-- **The laws of the kernel**, for rectangular matrices of compatible sizes
other than zero: transposing twice, transposing a product, the associativity of
the product, its distributivity over sums, and its two adjoints. -/
theorem kernel_laws {A A' B B' C D : Mat ℝ} (hA : Grid.IsRect k n A) (hA' : Grid.IsRect k n A')
    (hB : Grid.IsRect n m B) (hB' : Grid.IsRect n m B') (hC : Grid.IsRect m p C)
    (hD : Grid.IsRect k m D) (hk : 0 < k) (hn : 0 < n) (hm : 0 < m) :
    (transpose A >>= transpose) = .ok A
    ∧ Agree (dotProduct A B >>= transpose)
      (do
        let Bt ← transpose B
        let At ← transpose A
        dotProduct Bt At)
    ∧ Agree
      (do
        let AB ← dotProduct A B
        dotProduct AB C)
      (do
        let BC ← dotProduct B C
        dotProduct A BC)
    ∧ Agree
      (do
        let sum ← elementWiseSum B B'
        dotProduct A sum)
      (do
        let left ← dotProduct A B
        let right ← dotProduct A B'
        elementWiseSum left right)
    ∧ Agree
      (do
        let sum ← elementWiseSum A A'
        dotProduct sum B)
      (do
        let left ← dotProduct A B
        let right ← dotProduct A' B
        elementWiseSum left right)
    ∧ Agree
      (do
        let AB ← dotProduct A B
        inner AB D)
      (do
        let Bt ← transpose B
        let DBt ← dotProduct D Bt
        inner A DBt)
    ∧ Agree
      (do
        let AB ← dotProduct A B
        inner AB D)
      (do
        let At ← transpose A
        let AtD ← dotProduct At D
        inner B AtD) := by
  obtain ⟨A, rfl⟩ := Grid.exists_ofFn hA
  obtain ⟨A', rfl⟩ := Grid.exists_ofFn hA'
  obtain ⟨B, rfl⟩ := Grid.exists_ofFn hB
  obtain ⟨B', rfl⟩ := Grid.exists_ofFn hB'
  obtain ⟨C, rfl⟩ := Grid.exists_ofFn hC
  obtain ⟨D, rfl⟩ := Grid.exists_ofFn hD
  exact ⟨transpose_transpose A hk hn, transpose_dotProduct A B hk hn hm,
    dotProduct_assoc A B C hk hn hm, dotProduct_add A B B' hk hn, add_dotProduct A A' B hk hn,
    inner_dotProduct_left A B hk hn hm D, inner_dotProduct_right A B hk hn D⟩

/-- A row and a column of two: the product of the inner sizes is not square. -/
theorem kernel_laws_row :
    (transpose [[(1 : ℝ), 2]] >>= transpose) = .ok [[1, 2]]
    ∧ Agree
      (do
        let AB ← dotProduct [[1, 2]] [[3], [4]]
        inner AB [[5]])
      (do
        let At ← transpose [[1, 2]]
        let AtD ← dotProduct At [[5]]
        inner [[3], [4]] AtD) := by
  have hrow : Grid.IsRect 1 2 [[(1 : ℝ), 2]] := by decide
  have hcolumn : Grid.IsRect 2 1 [[(3 : ℝ)], [4]] := by decide
  have hone : Grid.IsRect 1 1 [[(5 : ℝ)]] := by decide
  have h := kernel_laws hrow hrow hcolumn hcolumn hone hone one_pos two_pos one_pos
  exact ⟨h.1, h.2.2.2.2.2.2⟩

end MathUtils
