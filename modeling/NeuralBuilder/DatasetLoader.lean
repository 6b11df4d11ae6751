import NeuralBuilder.OneHot
import NeuralBuilder.Library.Scan

/-!
# The data set loader

A file of features has a header and a line of cells for each sample.
`loadFeatures` transposes while it reads: the first line with cells fixes the
number of features, and every later line appends to as many of them as it has
cells. A line with more cells writes outside the features, and one with fewer
moves the later values of the others to the samples before
(`loadFeatures_faithful_iff`).

Of the standard library two things are parameters: the text of the file, none
where it cannot be opened, and `stod`, which converts a cell or throws. A
`Refusal` is what it throws, and ends the loader as the exception of its name.
-/

namespace DatasetLoader

/-! ## Reading a file -/

/-- The calls `getline(stream, ·, delim)` up to the end of the stream. -/
def getlines (delim : Char) (text : String) : List String :=
  (Scan.pieces delim text.toList).map String.ofList

/-- What the conversions of the standard library throw. -/
inductive Refusal
  | invalidArgument
  | outOfRange
  deriving DecidableEq, Repr

/-- The exception, whose text is the name of the conversion. -/
def Refusal.fault (name : String) : Refusal → Fault
  | invalidArgument => .invalidArgument name
  | outOfRange => .outOfRangeException name

theorem Refusal.isException_fault (name : String) (r : Refusal) :
    (r.fault name).isException = true := by
  cases r <;> rfl

/-- The lines of a file after its header. A file that cannot be opened has no
text. -/
def dataLines (filePath : String) : Option String → Except Fault (List String)
  | none => .error (.runtimeError ("Could not open file: " ++ filePath))
  | some text => .ok (getlines '\n' text).tail

variable {α : Type}

/-! ## Features -/

section Features

variable (stod : String → Except Refusal α)

end Features

/-- **The features after some rows**: feature `i` has the entries of the rows
that have one at `i`. -/
def columns (c : ℕ) (rows : List (Vec α)) : Mat α :=
  List.ofFn fun i : Fin c => rows.filterMap (·[(i : ℕ)]?)

section Records

variable {stod : String → Except Refusal α}

/-- Some cell is no number. -/
def Refused (stod : String → Except Refusal α) (cells : List String) : Prop :=
  ∃ cell ∈ cells, ∃ r, stod cell = .error r

/-- **Records that can be read**: all have as many cells as the first one, or one
that is refused comes before any that has more. -/
def Readable (stod : String → Except Refusal α) (recs : List (List String)) : Prop :=
  Grid.IsUniform recs
  ∨ Checked.ComesFirst (Refused stod) (Grid.width recs < List.length ·) recs

/-- What an entry of a list is related to. -/
theorem exists_of_forall₂ {β γ : Type} {R : β → γ → Prop} {l : List β} {l' : List γ}
    (h : List.Forall₂ R l l') {j : ℕ} {y : γ} (hy : l'[j]? = some y) :
    ∃ x, l[j]? = some x ∧ R x y := by
  obtain ⟨hj, rfl⟩ := List.getElem?_eq_some_iff.mp hy
  have hj' : j < l.length := hj.trans_eq h.length_eq.symm
  exact ⟨l[j], List.getElem?_eq_getElem hj', h.get hj' hj⟩

/-- The numbers `1` and `2`, and nothing else. -/
def oneOrTwo (cell : String) : Except Refusal ℝ :=
  if cell = "1" then .ok 1 else if cell = "2" then .ok (2 : ℕ) else .error .invalidArgument

end Records

end DatasetLoader
