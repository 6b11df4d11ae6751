import NeuralBuilder.Double
import NeuralBuilder.Library.Grid
import Mathlib.Data.Matrix.Mul

/-!
# The matrix kernel

`MathUtils` keeps a matrix as a vector of rows and overloads each of its
operations on matrices, vectors and numbers. The overloads look at row `0`
for the number of columns – reading it before they know that it exists –
and index every row up to that number, so that a ragged matrix is read
past the end of its shorter rows. The definitions below keep the guards,
the reads and the loops of the source; `…_ofFn` says what each of them
returns on rectangular operands with at least one row.

Nothing is assumed of the numbers here, so that the order of the additions is
the one of the loops. The overloads that work entry by entry are one function of
the operation and of the text of its exception (`zipMat`). Over the reals a
product is a sum, in whatever order it was added up, and is put that way at the
end of the module.
-/

/-- `std::vector<double>`. -/
abbrev Vec (α : Type) := List α

/-- `std::vector<std::vector<double>>`. -/
abbrev Mat (α : Type) := List (List α)

/-- `v[i]`. -/
def Vec.at {α : Type} (v : List α) (i : ℕ) : Except Fault α :=
  Checked.read .outOfRange v i

/-- `v[i] = x`. -/
def Vec.set {α : Type} (v : List α) (i : ℕ) (x : α) : Except Fault (List α) :=
  Checked.write .outOfRange v i x

/-- `m[i][j]`. -/
def Mat.at {α : Type} (m : Mat α) (i j : ℕ) : Except Fault α :=
  Grid.read .outOfRange m i j

/-- `m[i][j] = x`. -/
def Mat.set {α : Type} (m : Mat α) (i j : ℕ) (x : α) : Except Fault (Mat α) :=
  Grid.write .outOfRange m i j x

/-- `m[i][j]` for an `int` in row position: a negative one is far out of
range once converted to the index type. -/
def Mat.atInt {α : Type} (m : Mat α) (i : ℤ) (j : ℕ) : Except Fault α :=
  if i < 0 then .error .outOfRange else Mat.at m i.toNat j

/-- `m[i][j] = x` for an `int` in row position. -/
def Mat.setInt {α : Type} (m : Mat α) (i : ℤ) (j : ℕ) (x : α) : Except Fault (Mat α) :=
  if i < 0 then .error .outOfRange else Mat.set m i.toNat j x

section Access

variable {α : Type} {r c n : ℕ}

@[simp] theorem Vec.at_ofFn (f : Fin n → α) (i : Fin n) :
    Vec.at (List.ofFn f) i = .ok (f i) :=
  Checked.read_ofFn _ f i

@[simp] theorem Vec.set_ofFn (f : Fin n → α) (i : Fin n) (x : α) :
    Vec.set (List.ofFn f) i x = .ok (List.ofFn (Function.update f i x)) :=
  Checked.write_ofFn _ f i x

@[simp] theorem Vec.at_row_ofFn (f : Fin r → Fin c → α) (i : Fin r) :
    Vec.at (Grid.ofFn f) i = .ok (List.ofFn (f i)) :=
  Grid.read_row_ofFn _ f i

theorem Vec.at_row_zero (f : Fin r → Fin c → α) (hr : 0 < r) :
    Vec.at (Grid.ofFn f) 0 = .ok (List.ofFn (f ⟨0, hr⟩)) :=
  Grid.read_row_zero _ f hr

@[simp] theorem Vec.at_nil (i : ℕ) : Vec.at ([] : List α) i = .error .outOfRange :=
  Checked.read_nil _ i

@[simp] theorem Mat.at_ofFn (f : Fin r → Fin c → α) (i : Fin r) (j : Fin c) :
    Mat.at (Grid.ofFn f) i j = .ok (f i j) :=
  Grid.read_ofFn _ f i j

@[simp] theorem Mat.set_ofFn (f : Fin r → Fin c → α) (i : Fin r) (j : Fin c) (x : α) :
    Mat.set (Grid.ofFn f) i j x
      = .ok (Grid.ofFn (Function.update f i (Function.update (f i) j x))) :=
  Grid.write_ofFn _ f i j x

theorem Mat.atInt_ofFn (f : Fin r → Fin c → α) {k : ℤ} (j : Fin c) (h₀ : 0 ≤ k)
    (h : k < r) : Mat.atInt (Grid.ofFn f) k j = .ok (f ⟨k.toNat, by omega⟩ j) := by
  rw [Mat.atInt, if_neg (by omega)]
  exact Mat.at_ofFn f ⟨k.toNat, by omega⟩ j

/-- A read outside a vector is the one fault of a read. -/
theorem Vec.at_failsOnly (v : List α) (i : ℕ) :
    Checked.FailsOnly (· = Fault.outOfRange) (Vec.at v i) :=
  Checked.FailsOnly.read (P := (· = Fault.outOfRange)) rfl v i

theorem Mat.at_failsOnly (A : Mat α) (i j : ℕ) :
    Checked.FailsOnly (· = Fault.outOfRange) (Mat.at A i j) :=
  (Vec.at_failsOnly A i).bind fun row => Vec.at_failsOnly row j

theorem Mat.setInt_ofFn (f : Fin r → Fin c → α) {k : ℤ} (j : Fin c) (x : α)
    (h₀ : 0 ≤ k) (h : k < r) :
    Mat.setInt (Grid.ofFn f) k j x
      = .ok (Grid.ofFn (Function.update f ⟨k.toNat, by omega⟩
          (Function.update (f ⟨k.toNat, by omega⟩) j x))) := by
  rw [Mat.setInt, if_neg (by omega)]
  exact Mat.set_ofFn f ⟨k.toNat, by omega⟩ j x

/-- A write at a position of a rectangular matrix leaves it rectangular. -/
theorem Mat.setInt_isRect {A : Mat α} (hA : Grid.IsRect r c A) {k : ℤ} {j : ℕ} (x : α)
    (h₀ : 0 ≤ k) (h : k < r) (hj : j < c) :
    ∃ B, Mat.setInt A k j x = .ok B ∧ Grid.IsRect r c B := by
  obtain ⟨f, rfl⟩ := Grid.exists_ofFn hA
  exact ⟨_, Mat.setInt_ofFn f ⟨j, hj⟩ x h₀ h, Grid.isRect_ofFn _⟩

theorem Mat.setInt_of_neg (A : Mat α) {k : ℤ} (j : ℕ) (x : α) (h : k < 0) :
    Mat.setInt A k j x = .error .outOfRange :=
  if_pos h

end Access

namespace MathUtils

variable {α : Type} [Double α]

/-! ## Products -/

/-- The dot product of a matrix and a vector. -/
def dotProductVec (matrix : Mat α) (vec : Vec α) : Except Fault (Vec α) :=
  if matrix.length = 0 then .error (.invalidArgument "Matrix input can't be empty.") else do
    let front ← Vec.at matrix 0
    if front.length ≠ vec.length then
      .error (.invalidArgument "Matrix and vector incompatible for dot product!")
    else
      Checked.fill matrix.length fun i =>
        Checked.loop front.length (fun acc j => do
          return acc + (← Mat.at matrix i j) * (← Vec.at vec j)) 0

/-- The dot product of two matrices. -/
def dotProduct (matrix1 matrix2 : Mat α) : Except Fault (Mat α) := do
  let front ← Vec.at matrix1 0
  if front.length ≠ matrix2.length then
    .error (.invalidArgument "Matrixes must be of compatible size for dot product.")
  else do
    let cols := (← Vec.at matrix2 0).length
    Checked.fill matrix1.length fun i => Checked.fill cols fun j =>
      Checked.loop front.length (fun acc k => do
        return acc + (← Mat.at matrix1 i k) * (← Mat.at matrix2 k j)) 0

/-- The transposed matrix, after a check that all rows have the length of
the first. -/
def transpose (matrix : Mat α) : Except Fault (Mat α) :=
  match matrix with
  | [] => .ok []
  | front :: rest =>
    if rest.any (fun row => row.length != front.length) then
      .error (.invalidArgument "All rows must have the same number of columns to transpose")
    else
      Checked.fill front.length fun j => Checked.fill (front :: rest).length fun i =>
        Mat.at (front :: rest) i j

/-! ## Entrywise operations

The overloads on equal shapes, on a matrix and a vector that is read once
per row, on a matrix and a number, and on a vector and a number are each
written out once per operation in the source; here each is the loop with
the operation, and the text of its guard, as parameters. -/

/-- The loop of the overloads on two vectors. -/
def zipVec (op : α → α → α) (what : String) (vec1 vec2 : Vec α) : Except Fault (Vec α) :=
  if vec1.length ≠ vec2.length then .error (.invalidArgument what)
  else Checked.fill vec1.length fun i => do
    return op (← Vec.at vec1 i) (← Vec.at vec2 i)

/-- The loop of the overloads on two matrices; row `0` of both is read
only where the numbers of rows agree. -/
def zipMat (op : α → α → α) (what : String) (matrix1 matrix2 : Mat α) :
    Except Fault (Mat α) :=
  if matrix1.length ≠ matrix2.length then .error (.invalidArgument what)
  else do
    let front1 ← Vec.at matrix1 0
    let front2 ← Vec.at matrix2 0
    if front1.length ≠ front2.length then .error (.invalidArgument what)
    else
      Checked.fill matrix1.length fun i => Checked.fill front1.length fun j => do
        return op (← Mat.at matrix1 i j) (← Mat.at matrix2 i j)

/-- The loop of the overloads on a matrix and a vector. -/
def zipRows (op : α → α → α) (what : String) (matrix : Mat α) (vector : Vec α) :
    Except Fault (Mat α) :=
  if matrix.length ≠ vector.length then .error (.invalidArgument what)
  else do
    let front ← Vec.at matrix 0
    Checked.fill matrix.length fun i => Checked.fill front.length fun j => do
      return op (← Mat.at matrix i j) (← Vec.at vector i)

/-- The loop of the overloads on a matrix and a number. -/
def mapMat (op : α → α → α) (matrix : Mat α) (num : α) : Except Fault (Mat α) := do
  let front ← Vec.at matrix 0
  Checked.fill matrix.length fun i => Checked.fill front.length fun j => do
    return op (← Mat.at matrix i j) num

/-- The loop of the overloads on a vector and a number. -/
def mapVec (op : α → α → α) (vec : Vec α) (num : α) : Except Fault (Vec α) :=
  Checked.fill vec.length fun i => do
    return op (← Vec.at vec i) num

/-- `elementWiseProduct(matrix1, matrix2)`. -/
def elementWiseProduct (matrix1 matrix2 : Mat α) : Except Fault (Mat α) :=
  zipMat (· * ·) "Matrixes must be of the same size for element-wise product." matrix1 matrix2

/-- `elementWiseProduct(matrix, vector)`. -/
def elementWiseProductRows (matrix : Mat α) (vector : Vec α) : Except Fault (Mat α) :=
  zipRows (· * ·) "Matrix and vector size must me compatible for element-wise product."
    matrix vector

/-- `elementWiseProduct(matrix, num)`. -/
def elementWiseProductNum (matrix : Mat α) (num : α) : Except Fault (Mat α) :=
  mapMat (· * ·) matrix num

/-- `elementWiseProduct(vec, num)`. -/
def elementWiseProductVecNum (vec : Vec α) (num : α) : Except Fault (Vec α) :=
  mapVec (· * ·) vec num

/-- `elementWiseDivide(matrix1, matrix2)`. -/
def elementWiseDivide (matrix1 matrix2 : Mat α) : Except Fault (Mat α) :=
  zipMat (· / ·) "Matrixes must be of the same size for element-wise sum." matrix1 matrix2

/-- `elementWiseDivide(matrix, vector)`. -/
def elementWiseDivideRows (matrix : Mat α) (vector : Vec α) : Except Fault (Mat α) :=
  zipRows (· / ·) "Matrix and vector size must me compatible for element-wise sum."
    matrix vector

/-- `elementWiseDivide(matrix, num)`. -/
def elementWiseDivideNum (matrix : Mat α) (num : α) : Except Fault (Mat α) :=
  mapMat (· / ·) matrix num

/-- `elementWiseDivide(vec, num)`. -/
def elementWiseDivideVecNum (vec : Vec α) (num : α) : Except Fault (Vec α) :=
  mapVec (· / ·) vec num

/-- `elementWiseSum(matrix1, matrix2)`. -/
def elementWiseSum (matrix1 matrix2 : Mat α) : Except Fault (Mat α) :=
  zipMat (· + ·) "Matrixes must be of the same size for element-wise sum." matrix1 matrix2

/-- `elementWiseSum(matrix, vector)`. -/
def elementWiseSumRows (matrix : Mat α) (vector : Vec α) : Except Fault (Mat α) :=
  zipRows (· + ·) "Matrix and vector size must me compatible for element-wise sum."
    matrix vector

/-- `elementWiseSum(matrix, num)`. -/
def elementWiseSumNum (matrix : Mat α) (num : α) : Except Fault (Mat α) :=
  mapMat (· + ·) matrix num

/-- `elementWiseSubtract(matrix1, matrix2)`. -/
def elementWiseSubtract (matrix1 matrix2 : Mat α) : Except Fault (Mat α) :=
  zipMat (· - ·) "Matrixes must be of the same size for element-wise sum." matrix1 matrix2

/-- `elementWiseSubtract(matrix, vector)`. -/
def elementWiseSubtractRows (matrix : Mat α) (vector : Vec α) : Except Fault (Mat α) :=
  zipRows (· - ·) "Matrix and vector size must me compatible for element-wise sum."
    matrix vector

/-- `elementWiseSubtract(matrix, num)`. -/
def elementWiseSubtractNum (matrix : Mat α) (num : α) : Except Fault (Mat α) :=
  mapMat (· - ·) matrix num

/-- `elementWiseSubtract(vec1, vec2)`. -/
def elementWiseSubtractVec (vec1 vec2 : Vec α) : Except Fault (Vec α) :=
  zipVec (· - ·) "Vectors must be of the same size for element-wise sum." vec1 vec2

/-! ## On rectangular operands -/

/-- The sum the product loops accumulate. -/
def dot {n : ℕ} (u v : Fin n → α) : α := Fin.foldl n (fun acc k => acc + u k * v k) 0

variable {r n c : ℕ}

/-- An entry of a product. -/
theorem dotLoop_ok (A : Fin r → Fin n → α) (B : Fin n → Fin c → α) (i : Fin r)
    (j : Fin c) :
    Checked.loop (m := Except Fault) n (fun acc k => do
        return acc + (← Mat.at (Grid.ofFn A) i k) * (← Mat.at (Grid.ofFn B) k j)) 0
      = .ok (dot (A i) fun k => B k j) := by
  refine Checked.loop_ok (fun acc k => ?_) 0
  rw [Mat.at_ofFn, Checked.ok_bind, Mat.at_ofFn, Checked.ok_bind]
  rfl

theorem dotProduct_ofFn (A : Fin r → Fin n → α) (B : Fin n → Fin c → α) (hr : 0 < r)
    (hn : 0 < n) :
    dotProduct (Grid.ofFn A) (Grid.ofFn B)
      = .ok (Grid.ofFn fun i j => dot (A i) fun k => B k j) := by
  rw [dotProduct, Vec.at_row_zero A hr, Checked.ok_bind, if_neg (by simp),
    Vec.at_row_zero B hn, Checked.ok_bind]
  simp only [List.length_ofFn, Grid.length_ofFn]
  exact Grid.fill_ok fun i j => dotLoop_ok A B i j

theorem dotProductVec_ofFn (A : Fin r → Fin n → α) (v : Fin n → α) (hr : 0 < r) :
    dotProductVec (Grid.ofFn A) (List.ofFn v) = .ok (List.ofFn fun i => dot (A i) v) := by
  rw [dotProductVec, if_neg (by simp; omega), Vec.at_row_zero A hr, Checked.ok_bind,
    if_neg (by simp)]
  simp only [List.length_ofFn, Grid.length_ofFn]
  refine Checked.fill_ok fun i => Checked.loop_ok (fun acc k => ?_) 0
  rw [Mat.at_ofFn, Checked.ok_bind, Vec.at_ofFn, Checked.ok_bind]
  rfl

omit [Double α] in
theorem transpose_ofFn (A : Fin r → Fin c → α) (hr : 0 < r) :
    transpose (Grid.ofFn A) = .ok (Grid.ofFn fun j i => A i j) := by
  cases hA : Grid.ofFn A with
  | nil => simpa [hA, hr.ne] using Grid.length_ofFn A
  | cons front rest =>
    have hrect : Grid.IsRect r c (front :: rest) := hA ▸ Grid.isRect_ofFn A
    have hfront : front.length = c := hrect.2 front (by simp)
    have hany : rest.any (fun row => row.length != front.length) = false := by
      rw [List.any_eq_false]
      intro row hrow
      simp [hfront, hrect.2 row (List.mem_cons_of_mem _ hrow)]
    rw [transpose, hany, if_neg (by simp), hrect.1, hfront]
    exact Grid.fill_ok fun j i => by rw [← hA, Mat.at_ofFn]

omit [Double α] in
theorem zipVec_ofFn (op : α → α → α) (what : String) (u v : Fin n → α) :
    zipVec op what (List.ofFn u) (List.ofFn v) = .ok (List.ofFn fun i => op (u i) (v i)) := by
  rw [zipVec, if_neg (by simp), List.length_ofFn]
  exact Checked.fill_ok fun i => by
    rw [Vec.at_ofFn, Checked.ok_bind, Vec.at_ofFn, Checked.ok_bind]; rfl

omit [Double α] in
theorem zipMat_ofFn (op : α → α → α) (what : String) (A B : Fin r → Fin c → α)
    (hr : 0 < r) :
    zipMat op what (Grid.ofFn A) (Grid.ofFn B)
      = .ok (Grid.ofFn fun i j => op (A i j) (B i j)) := by
  rw [zipMat, if_neg (by simp), Vec.at_row_zero A hr, Checked.ok_bind,
    Vec.at_row_zero B hr, Checked.ok_bind, if_neg (by simp), Grid.length_ofFn,
    List.length_ofFn]
  exact Grid.fill_ok fun i j => by
    rw [Mat.at_ofFn, Checked.ok_bind, Mat.at_ofFn, Checked.ok_bind]; rfl

omit [Double α] in
theorem zipRows_ofFn (op : α → α → α) (what : String) (A : Fin r → Fin c → α)
    (v : Fin r → α) (hr : 0 < r) :
    zipRows op what (Grid.ofFn A) (List.ofFn v)
      = .ok (Grid.ofFn fun i j => op (A i j) (v i)) := by
  rw [zipRows, if_neg (by simp), Vec.at_row_zero A hr, Checked.ok_bind, Grid.length_ofFn,
    List.length_ofFn]
  exact Grid.fill_ok fun i j => by
    rw [Mat.at_ofFn, Checked.ok_bind, Vec.at_ofFn, Checked.ok_bind]; rfl

omit [Double α] in
theorem mapMat_ofFn (op : α → α → α) (A : Fin r → Fin c → α) (x : α) (hr : 0 < r) :
    mapMat op (Grid.ofFn A) x = .ok (Grid.ofFn fun i j => op (A i j) x) := by
  rw [mapMat, Vec.at_row_zero A hr, Checked.ok_bind, Grid.length_ofFn, List.length_ofFn]
  exact Grid.fill_ok fun i j => by rw [Mat.at_ofFn, Checked.ok_bind]; rfl

omit [Double α] in
theorem mapVec_ofFn (op : α → α → α) (v : Fin n → α) (x : α) :
    mapVec op (List.ofFn v) x = .ok (List.ofFn fun i => op (v i) x) := by
  rw [mapVec, List.length_ofFn]
  exact Checked.fill_ok fun i => by rw [Vec.at_ofFn, Checked.ok_bind]; rfl

/-! ## Over the reals -/

/-- The accumulated product is Mathlib's. -/
theorem dot_real (u v : Fin n → ℝ) : dot u v = u ⬝ᵥ v :=
  Checked.foldl_add_eq_sum fun k => u k * v k

end MathUtils
