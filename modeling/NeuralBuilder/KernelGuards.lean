import NeuralBuilder.MathUtils

/-!
# The guards of the matrix kernel

The overloads of `MathUtils` on matrices check their operands before they
compute: the numbers of rows, and the length of row `0` in the place of the
number of columns. `transpose` alone goes through all rows. The others read row
`0` of a matrix without rows, read past the end of a later row that is shorter,
and leave out what a later row has more.

A call keeps what its guard promises where the operands are refused by it, and
where they are rectangular with at least one row (`guarded_iff`).

`Guards` says what is asked of an overload: on compatible operands it returns a
value of the size of the operation, and on all others it throws
`std::invalid_argument`, in place of reading outside a matrix. The condition is
exact for each of the overloads, empty and ragged operands included. Three
lemmas do the work for all of them: on a test that refuses (`guards_iff_or`), on
a read that nothing guards (`guards_iff_and`), and on the loops past the last
test (`guards_iff_of_failsOnly`).
-/

namespace MathUtils

open Checked

variable {α : Type}

/-! ## What a guard promises -/

/-- **A guarded computation**: it returns a value of the size of the operation
if the operands are compatible, and throws `invalid_argument` if not. -/
def Guards {β : Type} (run : Except Fault β) (Compatible : ℕ → ℕ → Prop)
    (Sized : ℕ → ℕ → β → Prop) : Prop :=
  (∃ r c value, Compatible r c ∧ run = .ok value ∧ Sized r c value)
    ∨ (∀ r c, ¬ Compatible r c) ∧ ∃ what, run = .error (.invalidArgument what)

section Guards

variable {β : Type} {run : Except Fault β} {Compatible : ℕ → ℕ → Prop}
  {Sized : ℕ → ℕ → β → Prop}

/-- What throws is to have operands that are not compatible. -/
theorem guards_of_throws {what : String} (h : run = .error (.invalidArgument what))
    (hno : ∀ r c, ¬ Compatible r c) : Guards run Compatible Sized :=
  Or.inr ⟨hno, what, h⟩

/-- What reads outside a matrix keeps no promise. -/
theorem not_guards_of_outOfRange (h : run = .error .outOfRange) :
    ¬ Guards run Compatible Sized := by
  rw [h]
  rintro (⟨_, _, _, -, hrun, -⟩ | ⟨-, _, hrun⟩)
  · cases hrun
  · cases hrun

/-- **A test that refuses** what is not compatible anyway: the promise is kept
where it refuses, and where it is kept past it. -/
theorem guards_iff_or {refused P : Prop} {what : String}
    (hthrows : refused → run = .error (.invalidArgument what))
    (hno : refused → ∀ r c, ¬ Compatible r c)
    (h : ¬ refused → (Guards run Compatible Sized ↔ P)) :
    Guards run Compatible Sized ↔ refused ∨ P := by
  by_cases hrefused : refused
  · exact iff_of_true (guards_of_throws (hthrows hrefused) (hno hrefused)) (Or.inl hrefused)
  · exact (h hrefused).trans (or_iff_right hrefused).symm

/-- **A read that nothing guards**: the promise is kept where there is something
to read, and where it is kept after it. -/
theorem guards_iff_and {present P : Prop} (hout : ¬ present → run = .error .outOfRange)
    (h : present → (Guards run Compatible Sized ↔ P)) :
    Guards run Compatible Sized ↔ present ∧ P := by
  by_cases hpresent : present
  · exact (h hpresent).trans (and_iff_right hpresent).symm
  · exact iff_of_false (not_guards_of_outOfRange (hout hpresent)) fun h => hpresent h.1

/-- **Past the guard** nothing is refused any more, and the promise is kept
where the operands are compatible. -/
theorem guards_iff_of_failsOnly (h : FailsOnly (· = Fault.outOfRange) run)
    (hreturns : ∀ r c, Compatible r c → ∃ value, run = .ok value ∧ Sized r c value) :
    Guards run Compatible Sized ↔ ∃ r c, Compatible r c := by
  constructor
  · rintro (⟨r, c, _, hcompatible, -, -⟩ | ⟨-, _, hrun⟩)
    · exact ⟨r, c, hcompatible⟩
    · cases h _ hrun
  · rintro ⟨r, c, hcompatible⟩
    obtain ⟨value, hrun, hsized⟩ := hreturns r c hcompatible
    exact Or.inl ⟨r, c, value, hcompatible, hrun, hsized⟩

end Guards

/-! ## The entrywise overloads -/

section Entrywise

variable (op : α → α → α) (what : String)

theorem zipMat_guards_iff (A B : Mat α) :
    Guards (zipMat op what A B) (fun r c => Grid.IsRect r c A ∧ Grid.IsRect r c B) Grid.IsRect
      ↔ A.length ≠ B.length ∨ A ≠ [] ∧ (Grid.width A ≠ Grid.width B
        ∨ Grid.IsUniform A ∧ Grid.IsUniform B) := by
  -- the numbers of rows, row `0` before it is known to exist, and its length
  refine guards_iff_or (fun hne => if_pos hne) ?_ fun hlength => ?_
  · rintro hne r c ⟨hA, hB⟩
    exact hne (hA.1.trans hB.1.symm)
  have hlength := not_not.mp hlength
  refine guards_iff_and (fun h => ?_) fun hA => ?_
  · obtain rfl := not_not.mp h
    exact if_neg (not_not_intro hlength)
  have hB : B ≠ [] := by
    rintro rfl
    exact hA (List.length_eq_zero_iff.mp hlength)
  have hrun : zipMat op what A B
      = if Grid.width A ≠ Grid.width B then .error (.invalidArgument what)
        else fill A.length fun i => fill (Grid.width A) fun j => do
          return op (← Mat.at A i j) (← Mat.at B i j) := by
    obtain ⟨front1, rest1, rfl⟩ := List.exists_cons_of_ne_nil hA
    obtain ⟨front2, rest2, rfl⟩ := List.exists_cons_of_ne_nil hB
    exact if_neg (not_not_intro hlength)
  refine guards_iff_or (fun hne => hrun.trans (if_pos hne)) ?_ fun hwidth => ?_
  · rintro hne r c ⟨hrectA, hrectB⟩
    exact hne ((hrectA.width_eq hA).trans (hrectB.width_eq hB).symm)
  refine Iff.trans (guards_iff_of_failsOnly ?_ ?_) ⟨?_, ?_⟩
  · rw [hrun, if_neg hwidth]
    exact .fill fun i => .fill fun j => (Mat.at_failsOnly A i j).bind fun _ =>
      (Mat.at_failsOnly B i j).bind fun _ => .ok _
  · rintro r c ⟨hrectA, hrectB⟩
    have hr := hrectA.pos hA
    obtain ⟨f, rfl⟩ := Grid.exists_ofFn hrectA
    obtain ⟨g, rfl⟩ := Grid.exists_ofFn hrectB
    exact ⟨_, zipMat_ofFn op what f g hr, Grid.isRect_ofFn _⟩
  · rintro ⟨r, c, hrectA, hrectB⟩
    exact ⟨hrectA.isUniform, hrectB.isUniform⟩
  · rintro ⟨huniformA, huniformB⟩
    have hrectB := huniformB.isRect
    rw [← hlength, ← not_not.mp hwidth] at hrectB
    exact ⟨_, _, huniformA.isRect, hrectB⟩

theorem zipRows_guards_iff (A : Mat α) (v : Vec α) :
    Guards (zipRows op what A v) (fun r c => Grid.IsRect r c A ∧ v.length = r) Grid.IsRect
      ↔ A.length ≠ v.length ∨ A ≠ [] ∧ Grid.IsUniform A := by
  refine guards_iff_or (fun hne => if_pos hne) ?_ fun hlength => ?_
  · rintro hne r c ⟨hA, hv⟩
    exact hne (hA.1.trans hv.symm)
  have hlength := not_not.mp hlength
  refine guards_iff_and (fun h => ?_) fun hA => ?_
  · obtain rfl := not_not.mp h
    exact if_neg (not_not_intro hlength)
  have hrun : zipRows op what A v
      = fill A.length fun i => fill (Grid.width A) fun j => do
          return op (← Mat.at A i j) (← Vec.at v i) := by
    obtain ⟨front, rest, rfl⟩ := List.exists_cons_of_ne_nil hA
    exact if_neg (not_not_intro hlength)
  refine Iff.trans (guards_iff_of_failsOnly ?_ ?_) ?_
  · rw [hrun]
    exact .fill fun i => .fill fun j => (Mat.at_failsOnly A i j).bind fun _ =>
      (Vec.at_failsOnly v i).bind fun _ => .ok _
  · rintro r c ⟨hrect, hv⟩
    have hr := hrect.pos hA
    obtain ⟨f, rfl⟩ := Grid.exists_ofFn hrect
    obtain ⟨w, rfl⟩ := Grid.exists_list_ofFn hv
    exact ⟨_, zipRows_ofFn op what f w hr, Grid.isRect_ofFn _⟩
  · rw [← Grid.exists_isRect_iff]
    refine exists_congr fun r => exists_congr fun c => and_iff_left_of_imp fun hrect => ?_
    exact hlength.symm.trans hrect.1

theorem mapMat_guards_iff (A : Mat α) (x : α) :
    Guards (mapMat op A x) (fun r c => Grid.IsRect r c A) Grid.IsRect
      ↔ A ≠ [] ∧ Grid.IsUniform A := by
  refine guards_iff_and (fun h => ?_) fun hA => ?_
  · obtain rfl := not_not.mp h
    rfl
  have hrun : mapMat op A x
      = fill A.length fun i => fill (Grid.width A) fun j => do
          return op (← Mat.at A i j) x := by
    obtain ⟨front, rest, rfl⟩ := List.exists_cons_of_ne_nil hA
    rfl
  refine Iff.trans (guards_iff_of_failsOnly ?_ fun r c hrect => ?_) Grid.exists_isRect_iff
  · rw [hrun]
    exact .fill fun i => .fill fun j => (Mat.at_failsOnly A i j).bind fun _ => .ok _
  · have hr := hrect.pos hA
    obtain ⟨f, rfl⟩ := Grid.exists_ofFn hrect
    exact ⟨_, mapMat_ofFn op f x hr, Grid.isRect_ofFn _⟩

end Entrywise

/-! ## Products and transposes -/

/-- The vector that is multiplied has an entry for each column, and the matrix
a row: it is refused without one. -/
theorem dotProductVec_guards_iff [Double α] (A : Mat α) (v : Vec α) :
    Guards (dotProductVec A v) (fun r c => 0 < r ∧ Grid.IsRect r v.length A ∧ c = 1)
        (fun r _ w => w.length = r)
      ↔ A = [] ∨ Grid.width A ≠ v.length ∨ Grid.IsUniform A := by
  refine guards_iff_or (fun hA => if_pos (List.length_eq_zero_iff.mpr hA)) ?_ fun hA => ?_
  · rintro rfl r c ⟨hr, hrect, -⟩
    exact hr.ne hrect.1
  have hrun : dotProductVec A v
      = if Grid.width A ≠ v.length then
          .error (.invalidArgument "Matrix and vector incompatible for dot product!")
        else fill A.length fun i => loop (Grid.width A) (fun acc j => do
          return acc + (← Mat.at A i j) * (← Vec.at v j)) 0 := by
    obtain ⟨front, rest, rfl⟩ := List.exists_cons_of_ne_nil hA
    rfl
  refine guards_iff_or (fun hne => hrun.trans (if_pos hne)) ?_ fun hwidth => ?_
  · rintro hne r c ⟨-, hrect, -⟩
    exact hne (hrect.width_eq hA)
  refine Iff.trans (guards_iff_of_failsOnly ?_ ?_) ⟨?_, fun huniform => ?_⟩
  · rw [hrun, if_neg hwidth]
    exact .fill fun i => .loop (fun acc j => (Mat.at_failsOnly A i j).bind fun _ =>
      (Vec.at_failsOnly v j).bind fun _ => .ok _) 0
  · rintro r c ⟨hr, hrect, -⟩
    obtain ⟨f, rfl⟩ := Grid.exists_ofFn hrect
    obtain ⟨w, hw⟩ := Grid.exists_list_ofFn (rfl : v.length = v.length)
    have hdot := dotProductVec_ofFn f w hr
    rw [← hw] at hdot
    exact ⟨_, hdot, List.length_ofFn⟩
  · rintro ⟨r, c, -, hrect, -⟩
    exact hrect.isUniform
  · have hrect := huniform.isRect
    rw [not_not.mp hwidth] at hrect
    exact ⟨_, _, List.length_pos_iff.mpr hA, hrect, rfl⟩

theorem dotProduct_guards_iff [Double α] (A B : Mat α) :
    Guards (dotProduct A B) (fun r c => ∃ n, Grid.IsRect r n A ∧ Grid.IsRect n c B) Grid.IsRect
      ↔ A ≠ [] ∧ (Grid.width A ≠ B.length
        ∨ B ≠ [] ∧ Grid.IsUniform A ∧ Grid.IsUniform B) := by
  refine guards_iff_and (fun h => ?_) fun hA => ?_
  · obtain rfl := not_not.mp h
    rfl
  have hrun : dotProduct A B
      = if Grid.width A ≠ B.length then
          .error (.invalidArgument "Matrixes must be of compatible size for dot product.")
        else Vec.at B 0 >>= fun front =>
          fill A.length fun i => fill front.length fun j =>
            loop (Grid.width A) (fun acc k => do
              return acc + (← Mat.at A i k) * (← Mat.at B k j)) 0 := by
    obtain ⟨front, rest, rfl⟩ := List.exists_cons_of_ne_nil hA
    rfl
  refine guards_iff_or (fun hne => hrun.trans (if_pos hne)) ?_ fun hwidth => ?_
  · rintro hne r c ⟨n, hrectA, hrectB⟩
    exact hne ((hrectA.width_eq hA).trans hrectB.1.symm)
  -- a first factor without columns gets as far as row `0` of the second one
  refine guards_iff_and (fun h => ?_) fun hB => ?_
  · obtain rfl := not_not.mp h
    exact hrun.trans (if_neg hwidth)
  refine Iff.trans (guards_iff_of_failsOnly ?_ ?_) ⟨?_, ?_⟩
  · rw [hrun, if_neg hwidth]
    exact (Vec.at_failsOnly B 0).bind fun _ => .fill fun i => .fill fun j =>
      .loop (fun acc k => (Mat.at_failsOnly A i k).bind fun _ =>
        (Mat.at_failsOnly B k j).bind fun _ => .ok _) 0
  · rintro r c ⟨n, hrectA, hrectB⟩
    have hr := hrectA.pos hA
    have hn := hrectB.pos hB
    obtain ⟨f, rfl⟩ := Grid.exists_ofFn hrectA
    obtain ⟨g, rfl⟩ := Grid.exists_ofFn hrectB
    exact ⟨_, dotProduct_ofFn f g hr hn, Grid.isRect_ofFn _⟩
  · rintro ⟨r, c, n, hrectA, hrectB⟩
    exact ⟨hrectA.isUniform, hrectB.isUniform⟩
  · rintro ⟨huniformA, huniformB⟩
    have hrectA := huniformA.isRect
    rw [not_not.mp hwidth] at hrectA
    exact ⟨_, _, _, hrectA, huniformB.isRect⟩

/-- **`transpose` keeps its promise** on all operands: it goes through all
rows. -/
theorem transpose_guards (A : Mat α) :
    Guards (transpose A) (fun r c => Grid.IsRect c r A) Grid.IsRect := by
  by_cases hA : A = []
  · subst hA
    exact Or.inl ⟨0, 0, [], ⟨rfl, nofun⟩, rfl, rfl, nofun⟩
  by_cases huniform : Grid.IsUniform A
  · have hrect := huniform.isRect
    have hr := hrect.pos hA
    obtain ⟨f, hf⟩ := Grid.exists_ofFn hrect
    have hrun := transpose_ofFn f hr
    rw [← hf] at hrun
    exact Or.inl ⟨_, _, _, hrect, hrun, Grid.isRect_ofFn _⟩
  · refine guards_of_throws (show transpose A = .error (.invalidArgument
      "All rows must have the same number of columns to transpose") from ?_)
      fun r c hrect => huniform hrect.isUniform
    obtain ⟨front, rest, rfl⟩ := List.exists_cons_of_ne_nil hA
    refine if_pos (List.any_eq_true.mpr ?_)
    by_contra hall
    push Not at hall
    refine huniform fun row hrow => ?_
    rcases List.mem_cons.mp hrow with rfl | hrow
    · rfl
    · exact not_not.mp (mt bne_iff_ne.mpr (hall row hrow))

/-! ## All overloads -/

/-- The four entrywise operations. -/
inductive Operation
  | product
  | divide
  | sum
  | subtract
  deriving DecidableEq, Repr

namespace Operation

variable [Double α]

/-- Its overload on two matrices. -/
def onMatrices : Operation → Mat α → Mat α → Except Fault (Mat α)
  | product => elementWiseProduct
  | divide => elementWiseDivide
  | sum => elementWiseSum
  | subtract => elementWiseSubtract

/-- Its overload on a matrix and a vector. -/
def onRows : Operation → Mat α → Vec α → Except Fault (Mat α)
  | product => elementWiseProductRows
  | divide => elementWiseDivideRows
  | sum => elementWiseSumRows
  | subtract => elementWiseSubtractRows

/-- Its overload on a matrix and a number. -/
def onNum : Operation → Mat α → α → Except Fault (Mat α)
  | product => elementWiseProductNum
  | divide => elementWiseDivideNum
  | sum => elementWiseSumNum
  | subtract => elementWiseSubtractNum

end Operation

/-- A call of one of the overloads that take a matrix. -/
inductive MatrixCall (α : Type)
  | onMatrices (operation : Operation) (matrix1 matrix2 : Mat α)
  | onRows (operation : Operation) (matrix : Mat α) (vector : Vec α)
  | onNum (operation : Operation) (matrix : Mat α) (num : α)
  | dotProductVec (matrix : Mat α) (vec : Vec α)
  | dotProduct (matrix1 matrix2 : Mat α)
  | transpose (matrix : Mat α)

namespace MatrixCall

/-- **What the call promises**: it throws `invalid_argument` exactly if the
operands are not rectangular, or not of sizes that go together; otherwise it
reads inside them and returns a result of the size of the operation. -/
def Guarded [Double α] : MatrixCall α → Prop
  | onMatrices operation A B =>
    Guards (operation.onMatrices A B) (fun r c => Grid.IsRect r c A ∧ Grid.IsRect r c B)
      Grid.IsRect
  | onRows operation A v =>
    Guards (operation.onRows A v) (fun r c => Grid.IsRect r c A ∧ v.length = r) Grid.IsRect
  | onNum operation A x =>
    Guards (operation.onNum A x) (fun r c => Grid.IsRect r c A) Grid.IsRect
  | dotProductVec A v =>
    Guards (MathUtils.dotProductVec A v)
      (fun r c => 0 < r ∧ Grid.IsRect r v.length A ∧ c = 1) fun r _ w => w.length = r
  | dotProduct A B =>
    Guards (MathUtils.dotProduct A B)
      (fun r c => ∃ n, Grid.IsRect r n A ∧ Grid.IsRect n c B) Grid.IsRect
  | transpose A =>
    Guards (MathUtils.transpose A) (fun r c => Grid.IsRect c r A) Grid.IsRect

/-- **What the guard covers**: the numbers of rows differ, or there is a row
`0` and it is of the wrong length, or all rows are of its length. -/
def Covered : MatrixCall α → Prop
  | onMatrices _ A B =>
    A.length ≠ B.length
      ∨ A ≠ [] ∧ (Grid.width A ≠ Grid.width B ∨ Grid.IsUniform A ∧ Grid.IsUniform B)
  | onRows _ A v => A.length ≠ v.length ∨ A ≠ [] ∧ Grid.IsUniform A
  | onNum _ A _ => A ≠ [] ∧ Grid.IsUniform A
  | dotProductVec A v => A = [] ∨ Grid.width A ≠ v.length ∨ Grid.IsUniform A
  | dotProduct A B =>
    A ≠ [] ∧ (Grid.width A ≠ B.length ∨ B ≠ [] ∧ Grid.IsUniform A ∧ Grid.IsUniform B)
  | transpose _ => True

variable [Double α]

/-- **An overload keeps its promise exactly on the shapes its guard covers.**
This is about every overload of `MathUtils` on any operands, rectangular or not;
a call keeps its promise if it returns on compatible operands and throws on all
others, reading nothing outside of them. -/
theorem guarded_iff (call : MatrixCall α) : call.Guarded ↔ call.Covered := by
  cases call with
  | onMatrices operation A B =>
    cases operation
    all_goals exact zipMat_guards_iff _ _ A B
  | onRows operation A v =>
    cases operation
    all_goals exact zipRows_guards_iff _ _ A v
  | onNum operation A x =>
    cases operation
    all_goals exact mapMat_guards_iff _ A x
  | dotProductVec A v => exact dotProductVec_guards_iff A v
  | dotProduct A B => exact dotProduct_guards_iff A B
  | transpose A => exact iff_of_true (transpose_guards A) trivial

/-- Two matrices of two rows whose row `0` is of one length: the sum reads the
entry the second row of the first one does not have. The other way round it
leaves an entry out and returns. Without rows, row `0` is read. -/
theorem ragged_sum_not_guarded :
    elementWiseSum [[1], []] [[1], [2]] = (.error .outOfRange : Except Fault (Mat ℝ))
      ∧ (∃ sum : Mat ℝ, elementWiseSum [[1], [1, 2]] [[1], [2]] = .ok sum)
      ∧ elementWiseProduct [] [] = (.error .outOfRange : Except Fault (Mat ℝ))
      ∧ ¬ (onMatrices .sum ([[1], []] : Mat ℝ) [[1], [2]]).Guarded
      ∧ ¬ (onMatrices .sum ([[1], [1, 2]] : Mat ℝ) [[1], [2]]).Guarded
      ∧ ¬ (onMatrices .product ([] : Mat ℝ) []).Guarded := by
  have hrun (A : Mat ℝ) (row : Vec ℝ) (hA : A = [[1], row]) :
      elementWiseSum A [[1], [2]] = fill 2 fun i => fill 1 fun j => do
        return (← Mat.at A i j) + (← Mat.at [[1], [2]] i j) := by
    subst hA
    rfl
  have houtside : elementWiseSum [[1], []] [[1], [2]]
      = (.error .outOfRange : Except _ (Mat ℝ)) := by
    rw [hrun _ _ rfl]
    simp only [fill_succ, fill_zero]
    rfl
  have hreturns : ∃ sum : Mat ℝ, elementWiseSum [[1], [1, 2]] [[1], [2]] = .ok sum := by
    rw [hrun _ _ rfl]
    simp only [fill_succ, fill_zero]
    exact ⟨_, rfl⟩
  refine ⟨houtside, hreturns, rfl, not_guards_of_outOfRange houtside, ?_,
    not_guards_of_outOfRange rfl⟩
  obtain ⟨_, hsum⟩ := hreturns
  rintro (⟨r, c, -, ⟨⟨-, hwidth⟩, -⟩, -⟩ | ⟨-, _, hthrows⟩)
  · have h₁ := hwidth [1] (by simp)
    have h₂ := hwidth [1, 2] (by simp)
    exact absurd (h₁.trans h₂.symm) (by simp)
  · cases hsum.symm.trans hthrows

end MatrixCall

end MathUtils
