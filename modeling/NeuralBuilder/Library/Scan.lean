import Mathlib.Data.List.TakeWhile

/-!
# A label and what follows it, and the pieces of a text

The pattern of a label, any number of blanks and a run of at least one
character of a class, as a regular expression would have it, where no blank is
of the class: nothing is gained by giving a blank back, or by a shorter run. Its
first match in a text is found by trying one position after another
(`search`).

A text is read piece by piece up to a delimiter as long as there is something to
read (`pieces`): what follows the last delimiter is a piece unless it is empty.

That no match is missed by not backtracking is what the condition on the class
is for. A stretch without the first character of the label is skipped, and where
the label comes, `search_label` finds the run that follows it. A label that no
run follows is passed over (`search_label_of_no_run`).
-/

namespace Scan

variable (label : List Char) (blank cls : Char → Bool)

/-- The run at the start of a text, after the label and blanks. -/
def matchAt (text : List Char) : Option (List Char) :=
  if label.isPrefixOf text then
    let run := ((text.drop label.length).dropWhile blank).takeWhile cls
    if run = [] then none else some run
  else none

/-- **The run of the first match** in a text. -/
def search : List Char → Option (List Char)
  | [] => matchAt label blank cls []
  | c :: text =>
    match matchAt label blank cls (c :: text) with
    | some run => some run
    | none => search text

/-! ## Runs -/

section Runs

variable {p : Char → Bool} {run rest : List Char}

/-- A run, where what follows does not go on with it. -/
theorem takeWhile_append (h : ∀ c ∈ run, p c = true) (hrest : ∀ c ∈ rest.head?, p c = false) :
    (run ++ rest).takeWhile p = run := by
  rw [List.takeWhile_append_of_pos h]
  cases rest with
  | nil => exact List.append_nil run
  | cons c rest => rw [List.takeWhile_cons_of_neg (by simp [hrest c rfl]), List.append_nil]

/-- What follows a run. -/
theorem dropWhile_append (h : ∀ c ∈ run, p c = true) (hrest : ∀ c ∈ rest.head?, p c = false) :
    (run ++ rest).dropWhile p = rest := by
  rw [List.dropWhile_append_of_pos h]
  cases rest with
  | nil => rfl
  | cons c rest => exact List.dropWhile_cons_of_neg (by simp [hrest c rfl])

end Runs

/-! ## Matches -/

variable {label blank cls} {blanks run rest : List Char}

/-- The run after the label and blanks. -/
theorem matchAt_label (hblanks : ∀ c ∈ blanks, blank c = true)
    (hrest : ∀ c ∈ rest.head?, blank c = false) :
    matchAt label blank cls (label ++ (blanks ++ rest))
      = if rest.takeWhile cls = [] then none else some (rest.takeWhile cls) := by
  rw [matchAt, if_pos (List.isPrefixOf_iff_prefix.mpr (List.prefix_append _ _)),
    List.drop_left, dropWhile_append hblanks hrest]

/-- A position where the label does not start. -/
theorem search_cons_of_not_prefix {c : Char} {text : List Char}
    (h : label.isPrefixOf (c :: text) = false) :
    search label blank cls (c :: text) = search label blank cls text := by
  rw [search, matchAt, h]
  rfl

/-- Positions without the first character of the label. -/
theorem search_append_of_notMem {l : Char} {label : List Char} {skipped : List Char}
    (h : l ∉ skipped) (text : List Char) :
    search (l :: label) blank cls (skipped ++ text) = search (l :: label) blank cls text := by
  induction skipped with
  | nil => rfl
  | cons c skipped ih =>
    obtain ⟨hne, hmem⟩ := not_or.mp (List.mem_cons.not.mp h)
    rw [List.cons_append, search_cons_of_not_prefix, ih hmem]
    rw [List.isPrefixOf_cons_cons, beq_eq_false_iff_ne.mpr hne, Bool.false_and]

/-- **The run after the first label.** -/
theorem search_label {l : Char} {label : List Char} (hblanks : ∀ c ∈ blanks, blank c = true)
    (hrun : run ≠ []) (hcls : ∀ c ∈ run, cls c = true) (hblank : ∀ c ∈ run.head?, blank c = false)
    (hrest : ∀ c ∈ rest.head?, cls c = false) :
    search (l :: label) blank cls (l :: label ++ (blanks ++ (run ++ rest))) = some run := by
  have hhead : (run ++ rest).head? = run.head? := by
    cases run with
    | nil => exact absurd rfl hrun
    | cons c run => rfl
  rw [List.cons_append, search, ← List.cons_append, matchAt_label hblanks (by rwa [hhead]),
    takeWhile_append hcls hrest, if_neg hrun]

/-- **A label without a run** is passed over. -/
theorem search_label_of_no_run {l : Char} {label : List Char}
    (hblanks : ∀ c ∈ blanks, blank c = true) (hblank : ∀ c ∈ rest.head?, blank c = false)
    (hrest : ∀ c ∈ rest.head?, cls c = false) :
    search (l :: label) blank cls (l :: label ++ (blanks ++ rest))
      = search (l :: label) blank cls (label ++ (blanks ++ rest)) := by
  have hrun : rest.takeWhile cls = [] := by
    cases rest with
    | nil => rfl
    | cons c rest => exact List.takeWhile_cons_of_neg (by simp [hrest c rfl])
  rw [List.cons_append, search, ← List.cons_append, matchAt_label hblanks hblank, hrun, if_pos rfl]

/-! ## Pieces -/

/-- **The pieces of a text**, each up to the next delimiter or the end. -/
def pieces (delim : Char) : List Char → List (List Char)
  | [] => []
  | c :: text =>
    if c = delim then [] :: pieces delim text
    else match pieces delim text with
      | [] => [[c]]
      | piece :: rest => (c :: piece) :: rest

variable {delim : Char}

/-- **A piece and a delimiter after it.** -/
theorem pieces_append {piece : List Char} (h : delim ∉ piece) (text : List Char) :
    pieces delim (piece ++ delim :: text) = piece :: pieces delim text := by
  induction piece with
  | nil => exact if_pos rfl
  | cons c piece ih =>
    obtain ⟨hne, hmem⟩ := not_or.mp (List.mem_cons.not.mp h)
    rw [List.cons_append, pieces, if_neg (Ne.symm hne), ih hmem]

end Scan
