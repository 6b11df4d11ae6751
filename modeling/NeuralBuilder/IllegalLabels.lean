import NeuralBuilder.LabelFiles

/-!
# Illegal labels

Both encoders use a label as the position of a row. `labelToOneHot` compares it
with the number of classes first, but not with `0`, and drops its fraction;
`loadLabelsGeneral` compares it with nothing. This module says when an illegal
label is refused all the same (`illegal_labels_refused_iff`).

`labelToOneHot` is given numbers, which may have a fraction. `loadLabelsGeneral`
reads integers from a text, and of these only the negative ones are illegal,
since the largest one sets the number of classes. In both it is what comes first
that decides: the source goes through the labels one by one, and a label that it
throws at may come before or after one that it uses as a position out of range.
An `int` is taken off a `double` by dropping the fraction, and a number that
does not fit in an `int` is a fault of its own.
-/

namespace DatasetLoader

/-! ## Labels that are real numbers -/

section Real

variable {n : ℕ}

/-- A number that is converted to the position of a row, with its fraction
dropped. -/
theorem toInt_mem {x : ℝ} (hn : 0 < n) (hlow : -1 < x) (hhigh : x < n) :
    0 ≤ Double.toInt x ∧ Double.toInt x < n := by
  show 0 ≤ (if 0 ≤ x then ⌊x⌋ else ⌈x⌉) ∧ (if 0 ≤ x then ⌊x⌋ else ⌈x⌉) < (n : ℤ)
  split_ifs with hx
  · exact ⟨Int.floor_nonneg.mpr hx, Int.floor_lt.mpr (by exact_mod_cast hhigh)⟩
  · have hceil : ⌈x⌉ ≤ 0 := Int.ceil_le.mpr (by exact_mod_cast (not_le.mp hx).le)
    have hlow : -1 < ⌈x⌉ := Int.lt_ceil.mpr (by exact_mod_cast hlow)
    omega

/-- A number that is too small for one. -/
theorem toInt_neg {x : ℝ} (hx : x ≤ -1) : Double.toInt x < 0 := by
  show (if 0 ≤ x then ⌊x⌋ else ⌈x⌉) < 0
  rw [if_neg (by linarith)]
  have hceil : ⌈x⌉ ≤ -1 := Int.ceil_le.mpr (by exact_mod_cast hx)
  omega

/-- The turn of the encoder for a position. -/
noncomputable def encodeLabel (labels : Vec ℝ) (n : ℕ) (oneHot : Mat ℝ) (j : ℕ) :
    Except Fault (Mat ℝ) := do
  let label ← Vec.at labels j
  if Double.le (n : ℝ) label then
    .error (.outOfRangeException "Label value exceeds the number of classes.")
  else Mat.setInt oneHot (Double.toInt label) j 1

theorem labelToOneHot_eq (labels : Vec ℝ) (n : ℕ) :
    labelToOneHot labels n = Checked.loop labels.length (encodeLabel labels n)
      (Grid.ofFn fun (_ : Fin n) (_ : Fin labels.length) => 0) := by
  rw [labelToOneHot, vectorSize_natCast rfl, Checked.ok_bind, replicate_eq_ofFn]
  rfl

theorem encodeLabel_of_le {labels : Vec ℝ} {j : ℕ} {label : ℝ} (h : labels[j]? = some label)
    (hle : (n : ℝ) ≤ label) (A : Mat ℝ) :
    encodeLabel labels n A j
      = .error (.outOfRangeException "Label value exceeds the number of classes.") := by
  rw [encodeLabel, Vec.at, Checked.read_eq_ok_iff.mpr h, Checked.ok_bind, Double.le_real,
    if_pos (by simpa using hle)]

theorem encodeLabel_of_lt {labels : Vec ℝ} {j : ℕ} {label : ℝ} (h : labels[j]? = some label)
    (hlt : label < n) (A : Mat ℝ) :
    encodeLabel labels n A j = Mat.setInt A (Double.toInt label) j 1 := by
  rw [encodeLabel, Vec.at, Checked.read_eq_ok_iff.mpr h, Checked.ok_bind, Double.le_real,
    if_neg (by simpa using hlt)]

/-- **What the encoder does with a list of labels**: it goes on as long as they
are between `-1` and the number of classes, and the first one that is not is
thrown at, or used as a position. -/
theorem labelToOneHot_cases (hn : 0 < n) (labels : Vec ℝ) :
    ((∀ label ∈ labels, -1 < label ∧ label < n) ∧ ∃ O, labelToOneHot labels n = .ok O)
    ∨ ∃ before label after, labels = before ++ label :: after
      ∧ (∀ l ∈ before, ¬ (n : ℝ) ≤ l ∧ ¬ l ≤ -1)
      ∧ ((n : ℝ) ≤ label ∧ labelToOneHot labels n
          = .error (.outOfRangeException "Label value exceeds the number of classes.")
        ∨ label ≤ -1 ∧ labelToOneHot labels n = .error .outOfRange) := by
  rw [labelToOneHot_eq]
  rcases Checked.loop_entries (l := labels) (f := encodeLabel labels n)
    (Grid.IsRect n labels.length) (fun label => -1 < label ∧ label < n) (Grid.isRect_ofFn _)
    (fun A k label hlabel hA hgood => by
      obtain ⟨hlow, hhigh⟩ := toInt_mem hn hgood.1 hgood.2
      rw [encodeLabel_of_lt hlabel hgood.2]
      exact Mat.setInt_isRect hA 1 hlow hhigh (List.getElem?_eq_some_iff.mp hlabel).1)
    with ⟨hall, O, hO, -⟩ | ⟨before, label, after, A, hlabels, hbefore, hbad, -, herror⟩
  · exact .inl ⟨hall, O, hO⟩
  · have hlabel : labels[before.length]? = some label := by rw [hlabels]; simp
    refine .inr ⟨before, label, after, hlabels, fun l hl => ?_, ?_⟩
    · exact ⟨not_le.mpr (hbefore l hl).2, not_le.mpr (hbefore l hl).1⟩
    by_cases hhigh : (n : ℝ) ≤ label
    · exact .inl ⟨hhigh, herror _ (encodeLabel_of_le hlabel hhigh A)⟩
    · have hlow : label ≤ -1 := by
        by_contra h
        exact hbad ⟨not_le.mp h, not_le.mp hhigh⟩
      refine .inr ⟨hlow, herror _ ?_⟩
      rw [encodeLabel_of_lt hlabel (not_le.mp hhigh)]
      exact Mat.setInt_of_neg A _ _ (toInt_neg hlow)

/-- A label that names a class. -/
def Legal (n : ℕ) (label : ℝ) : Prop := ∃ k : ℕ, label = k ∧ k < n

theorem Legal.bounds {label : ℝ} (h : Legal n label) : -1 < label ∧ label < n := by
  obtain ⟨k, rfl, hk⟩ := h
  have hnonneg : (0 : ℝ) ≤ k := Nat.cast_nonneg k
  exact ⟨by linarith, by exact_mod_cast hk⟩

/-- **The encoder refuses illegal labels**: it throws exactly where there is one,
and otherwise returns. -/
def RefusesIllegal (n : ℕ) (labels : Vec ℝ) : Prop :=
  ((∃ what, labelToOneHot labels n = .error (.outOfRangeException what))
    ↔ ∃ label ∈ labels, ¬ Legal n label)
  ∧ ((∀ label ∈ labels, Legal n label) → ∃ O, labelToOneHot labels n = .ok O)

/-- **It does exactly where all labels are legal, or one that is too large comes
before any that is `-1` or less.** -/
theorem refusesIllegal_iff (hn : 0 < n) (labels : Vec ℝ) :
    RefusesIllegal n labels ↔ (∀ label ∈ labels, Legal n label)
      ∨ Checked.ComesFirst ((n : ℝ) ≤ ·) (· ≤ -1) labels := by
  rcases labelToOneHot_cases hn labels with ⟨hall, O, hO⟩
    | ⟨before, label, after, hlabels, hbefore, ⟨hhigh, hthrows⟩ | ⟨hlow, hfault⟩⟩
  · have hnot : ¬ Checked.ComesFirst ((n : ℝ) ≤ ·) (· ≤ -1) labels := by
      intro h
      obtain ⟨label, hmem, hhigh⟩ := h.exists_mem
      exact absurd hhigh (not_le.mpr (hall label hmem).2)
    rw [RefusesIllegal, hO, or_iff_left hnot]
    constructor
    · rintro ⟨h, -⟩ label hmem
      by_contra hillegal
      obtain ⟨what, hwhat⟩ := h.mpr ⟨label, hmem, hillegal⟩
      cases hwhat
    · refine fun h => ⟨iff_of_false nofun ?_, fun _ => ⟨O, rfl⟩⟩
      rintro ⟨label, hmem, hillegal⟩
      exact hillegal (h label hmem)
  all_goals
    have hmem : label ∈ labels := by rw [hlabels]; simp
  · have hillegal : ¬ Legal n label := fun h => absurd hhigh (not_le.mpr h.bounds.2)
    refine iff_of_true ⟨iff_of_true ⟨_, hthrows⟩ ⟨label, hmem, hillegal⟩, fun h => ?_⟩ (.inr ?_)
    · exact absurd (h label hmem) hillegal
    · rw [hlabels]
      exact (Checked.comesFirst_append_iff hbefore (.inl hhigh)).mpr hhigh
  · have hillegal : ¬ Legal n label := fun h => absurd hlow (not_le.mpr h.bounds.1)
    refine iff_of_false ?_ ?_
    · rintro ⟨h, -⟩
      obtain ⟨what, hwhat⟩ := h.mpr ⟨label, hmem, hillegal⟩
      rw [hfault] at hwhat
      cases hwhat
    · rintro (h | h)
      · exact hillegal (h label hmem)
      · rw [hlabels] at h
        have hhigh := (Checked.comesFirst_append_iff hbefore (.inr hlow)).mp h
        have hnonneg : (0 : ℝ) ≤ n := Nat.cast_nonneg n
        linarith

end Real

/-! ## Labels in a file -/

section File

variable {α : Type} [Double α]

/-- The label of a line. -/
theorem mem_labels_iff {lines : List String} {labels : List ℤ}
    (h : List.Forall₂ (fun line label => stoi line = .ok label) lines labels) {label : ℤ} :
    label ∈ labels ↔ ∃ line ∈ lines, stoi line = .ok label := by
  induction h with
  | nil => exact iff_of_false List.not_mem_nil (by rintro ⟨_, ⟨⟩, -⟩)
  | @cons line l lines labels hline _ ih =>
    rw [List.mem_cons, ih]
    constructor
    · rintro (rfl | ⟨line', hmem, h⟩)
      · exact ⟨line, List.mem_cons_self, hline⟩
      · exact ⟨line', List.mem_cons_of_mem _ hmem, h⟩
    · rintro ⟨line', hmem, h⟩
      rcases List.mem_cons.mp hmem with rfl | hmem
      · exact .inl (Except.ok.inj (h.symm.trans hline))
      · exact .inr ⟨line', hmem, h⟩

/-- The rows that a label asks for: `-1` asks for none, and a smaller label for
more than there is room for. -/
theorem toSize_succ_eq {label : ℤ} (hlow : -intMax - 1 ≤ label) (hhigh : label ≤ intMax) :
    (toSize (label + 1) : ℤ) = if -1 ≤ label then label + 1 else label + 1 + 2 ^ 64 := by
  rw [toSize]
  rw [intMax] at hlow hhigh
  split_ifs with h <;> omega

/-- The largest of some numbers. -/
theorem foldl_max_le_iff {l : List ℕ} {a b : ℕ} :
    l.foldl max a ≤ b ↔ a ≤ b ∧ ∀ x ∈ l, x ≤ b := by
  induction l generalizing a with
  | nil => exact (and_iff_left nofun).symm
  | cons x l ih => rw [List.foldl_cons, ih, max_le_iff, List.forall_mem_cons, and_assoc]

theorem numOfClasses_le_iff {labels : List ℤ} {b : ℕ} :
    numOfClasses labels ≤ b ↔ ∀ label ∈ labels, toSize (label + 1) ≤ b := by
  rw [numOfClasses, foldl_max_le_iff, List.forall_mem_map, and_iff_right (Nat.zero_le b)]

section Sizes

variable {labels : List ℤ} (hrange : ∀ label ∈ labels, -intMax - 1 ≤ label ∧ label ≤ intMax)
include hrange

/-- A label below `-1` makes the matrix too large. -/
theorem maxSize_le_numOfClasses {label : ℤ} (hmem : label ∈ labels) (hlabel : label ≤ -2) :
    maxSize ≤ numOfClasses labels := by
  have hle : toSize (label + 1) ≤ numOfClasses labels := numOfClasses_le_iff.mp le_rfl label hmem
  have heq := toSize_succ_eq (hrange label hmem).1 (hrange label hmem).2
  have hlow := (hrange label hmem).1
  rw [if_neg (by omega)] at heq
  rw [intMax] at hlow
  refine le_trans ?_ hle
  rw [maxSize]
  omega

variable (hlow : ∀ label ∈ labels, -1 ≤ label)
include hlow

theorem numOfClasses_lt_maxSize : numOfClasses labels < maxSize := by
  refine lt_of_le_of_lt (b := 2 ^ 32) (numOfClasses_le_iff.mpr fun label hmem => ?_) (by decide)
  have heq := toSize_succ_eq (hrange label hmem).1 (hrange label hmem).2
  have hhigh := (hrange label hmem).2
  rw [if_pos (hlow label hmem)] at heq
  rw [intMax] at hhigh
  omega

/-- The labels have rows, as far as they are not negative. -/
theorem lt_numOfClasses {label : ℤ} (hmem : label ∈ labels) : label < numOfClasses labels := by
  have hle : toSize (label + 1) ≤ numOfClasses labels := numOfClasses_le_iff.mp le_rfl label hmem
  have heq := toSize_succ_eq (hrange label hmem).1 (hrange label hmem).2
  rw [if_pos (hlow label hmem)] at heq
  omega

end Sizes

/-- **Filling in stops at a negative label**, where the others have a row. -/
theorem fillLabels_of_neg {n : ℕ} {labels : List ℤ} (h : ∀ label ∈ labels, label < n)
    (hneg : ∃ label ∈ labels, label < 0) {A : Mat α} (hA : Grid.IsRect n labels.length A) :
    fillLabels labels A = .error .outOfRange := by
  rcases Checked.loop_entries (l := labels) (f := fun (A : Mat α) k => do
      let label ← Vec.at labels k
      Mat.setInt A label k 1) (Grid.IsRect n labels.length) (0 ≤ ·) hA
    (fun A k label hlabel hA hgood => by
      rw [Vec.at, Checked.read_eq_ok_iff.mpr hlabel, Checked.ok_bind]
      exact Mat.setInt_isRect hA 1 hgood (h label (List.mem_of_getElem? hlabel))
        (List.getElem?_eq_some_iff.mp hlabel).1)
    with ⟨hall, -⟩ | ⟨before, label, after, B, hlabels, -, hbad, -, herror⟩
  · obtain ⟨label, hmem, hlabel⟩ := hneg
    exact absurd (hall label hmem) (not_le.mpr hlabel)
  · have hlabel : labels[before.length]? = some label := by rw [hlabels]; simp
    refine herror _ ?_
    rw [Vec.at, Checked.read_eq_ok_iff.mpr hlabel, Checked.ok_bind]
    exact Mat.setInt_of_neg B _ _ (not_le.mp hbad)

/-- A line of the file starts with a negative label. -/
def HasNegative (text : String) : Prop :=
  ∃ line ∈ labelLines text, ∃ label < 0, strtol line.toList = some label

/-- Every line gives a label, and one of them is so small that the number of
classes is past the largest size. -/
def OnlySized (text : String) : Prop :=
  (∀ line ∈ labelLines text, GivesLabel line)
  ∧ ∃ line ∈ labelLines text, ∃ label ≤ -2, stoi line = .ok label

/-- **What a negative label leads to**: a line is thrown at, an addition
overflows, the matrix is asked to be too large, or the label is used as a
position. -/
theorem loadLabelsGeneral_cases (filePath : String) {text : String} (h : HasNegative text) :
    (RefusedFirst (labelLines text) ∧ ¬ OnlySized text
      ∧ ∃ r : Refusal, loadLabelsGeneral (α := α) filePath (some text) = .error (r.fault "stoi"))
    ∨ (¬ RefusedFirst (labelLines text) ∧ OnlySized text
      ∧ loadLabelsGeneral (α := α) filePath (some text) = .error .lengthError)
    ∨ ¬ RefusedFirst (labelLines text) ∧ ¬ OnlySized text
      ∧ ∃ e, loadLabelsGeneral (α := α) filePath (some text) = .error e
        ∧ e.isException = false := by
  rw [loadLabelsGeneral_some]
  rcases foldlM_addLabel_cases (labelLines text) with ⟨labels, hlabels, hall, hrun⟩
    | ⟨hfirst, r, hrun⟩ | ⟨hfirst, ⟨line, hmem, hline⟩, hrun⟩
  · have hnotfirst : ¬ RefusedFirst (labelLines text) := by
      intro h
      obtain ⟨line, hline, r, hr⟩ := h.exists_mem
      obtain ⟨label, hlabel, -⟩ := hall line hline
      cases hlabel.symm.trans hr
    have hmem : ∀ {label}, label ∈ labels ↔ ∃ line ∈ labelLines text, stoi line = .ok label :=
      mem_labels_iff hlabels
    have hrange : ∀ label ∈ labels, -intMax - 1 ≤ label ∧ label ≤ intMax := by
      intro label hlabel
      obtain ⟨line, -, hline⟩ := hmem.mp hlabel
      exact (stoi_eq_ok_iff.mp hline).2
    rw [hrun, Checked.ok_bind]
    by_cases hsmall : ∃ label ∈ labels, label ≤ -2
    · -- its successor is far too large as a size
      obtain ⟨label, hlabel, hle⟩ := hsmall
      obtain ⟨line, hline, hstoi⟩ := hmem.mp hlabel
      exact .inr (.inl ⟨hnotfirst, ⟨hall, line, hline, label, hle, hstoi⟩,
        if_pos (maxSize_le_numOfClasses hrange hlabel hle)⟩)
    · -- `-1` asks for no row and is a position far outside
      have hlow : ∀ label ∈ labels, -1 ≤ label := fun label hlabel => by
        by_contra h
        exact hsmall ⟨label, hlabel, by omega⟩
      have hneg : ∃ label ∈ labels, label < 0 := by
        obtain ⟨line, hline, label, hlabel, hstrtol⟩ := h
        obtain ⟨label', hstoi, -⟩ := hall line hline
        obtain rfl := Option.some.inj (hstrtol.symm.trans (stoi_eq_ok_iff.mp hstoi).1)
        exact ⟨label, hmem.mpr ⟨line, hline, hstoi⟩, hlabel⟩
      refine .inr (.inr ⟨hnotfirst, ?_, .outOfRange, ?_, rfl⟩)
      · rintro ⟨-, line, hline, label, hlabel, hstoi⟩
        exact hsmall ⟨label, hmem.mpr ⟨line, hline, hstoi⟩, hlabel⟩
      · rw [if_neg (not_le.mpr (numOfClasses_lt_maxSize hrange hlow)), replicate_eq_ofFn]
        exact fillLabels_of_neg (fun label hlabel => lt_numOfClasses hrange hlow hlabel) hneg
          (Grid.isRect_ofFn _)
  · refine .inl ⟨hfirst, fun hsized => ?_, r, by rw [hrun]; rfl⟩
    obtain ⟨line, hline, r, hr⟩ := hfirst.exists_mem
    obtain ⟨label, hlabel, -⟩ := hsized.1 line hline
    cases hlabel.symm.trans hr
  · exact .inr (.inr ⟨hfirst, fun hsized => hline (hsized.1 line hmem), .overflow,
      by rw [hrun]; rfl, rfl⟩)

/-- **Loading refuses negative labels**: it throws, and not for the size of the
matrix. -/
def RefusesNegative (filePath text : String) : Prop :=
  ∃ e, loadLabelsGeneral (α := α) filePath (some text) = .error e ∧ e.isException = true
    ∧ e ≠ .lengthError

/-- **It does exactly where a line that is no `int` comes before any with the
largest one**; it throws at all where the labels are read and one of them is below
`-1` as well. -/
theorem refusesNegative_iff (filePath : String) {text : String} (h : HasNegative text) :
    (RefusesNegative (α := α) filePath text ↔ RefusedFirst (labelLines text))
    ∧ ((∃ e, loadLabelsGeneral (α := α) filePath (some text) = .error e ∧ e.isException = true)
      ↔ RefusedFirst (labelLines text) ∨ OnlySized text) := by
  rw [RefusesNegative]
  rcases loadLabelsGeneral_cases (α := α) filePath h with ⟨hfirst, -, r, hrun⟩
    | ⟨hfirst, hsized, hrun⟩ | ⟨hfirst, hsized, e, hrun, hfault⟩
  · have hne : r.fault "stoi" ≠ .lengthError := by cases r <;> exact nofun
    rw [hrun]
    exact ⟨iff_of_true ⟨_, rfl, r.isException_fault _, hne⟩ hfirst,
      iff_of_true ⟨_, rfl, r.isException_fault _⟩ (.inl hfirst)⟩
  · rw [hrun]
    refine ⟨iff_of_false ?_ hfirst, iff_of_true ⟨_, rfl, rfl⟩ (.inr hsized)⟩
    rintro ⟨e, he, -, hne⟩
    exact hne (Except.error.inj he).symm
  · have hnot : ¬ ∃ e', loadLabelsGeneral (α := α) filePath (some text) = .error e'
        ∧ e'.isException = true := by
      rintro ⟨e', he, hexception⟩
      obtain rfl := Except.error.inj (hrun.symm.trans he)
      exact Bool.false_ne_true (hfault.symm.trans hexception)
    refine ⟨iff_of_false (fun ⟨e', he, hexception, _⟩ => hnot ⟨e', he, hexception⟩) hfirst,
      iff_of_false hnot (not_or.mpr ⟨hfirst, hsized⟩)⟩

end File

/-! ## When they are refused -/

/-- **When illegal labels are refused**: by `labelToOneHot` where all labels are
legal, or one that is too large comes before any that is `-1` or less; by
`loadLabelsGeneral`, on a file with a negative label, where a line that is no
`int` comes before any with the largest one. -/
theorem illegal_labels_refused_iff {n : ℕ} (hn : 0 < n) (labels : Vec ℝ) (filePath : String)
    {text : String} (h : HasNegative text) :
    (RefusesIllegal n labels ↔ (∀ label ∈ labels, Legal n label)
      ∨ Checked.ComesFirst ((n : ℝ) ≤ ·) (· ≤ -1) labels)
    ∧ (RefusesNegative (α := ℝ) filePath text ↔ RefusedFirst (labelLines text))
    ∧ ((∃ e, loadLabelsGeneral (α := ℝ) filePath (some text) = .error e ∧ e.isException = true)
      ↔ RefusedFirst (labelLines text) ∨ OnlySized text) :=
  ⟨refusesIllegal_iff hn labels, refusesNegative_iff filePath h⟩

/-- A label that is too large, and a negative label before an empty line. -/
theorem illegal_labels_refused_pair :
    RefusesIllegal 2 [0, 2] ∧ RefusesNegative (α := ℝ) "labels.csv" "y\n-1\n\n" := by
  have hlines : labelLines "y\n-1\n\n" = ["-1", ""] := by decide
  have h : HasNegative "y\n-1\n\n" := ⟨"-1", by rw [hlines]; simp, -1, by decide, by decide⟩
  have hiff := illegal_labels_refused_iff two_pos [0, 2] "labels.csv" h
  refine ⟨hiff.1.mpr (.inr ⟨[0], 2, [], rfl, by norm_num, by norm_num⟩), hiff.2.1.mpr ?_⟩
  rw [hlines]
  exact ⟨["-1"], "", [], rfl, ⟨.invalidArgument, by decide⟩, by decide⟩

/-- **A fraction is dropped, and a negative label is a position.** In a file, `-1`
is a position too, and `-2` makes the matrix too large. -/
theorem illegal_labels_not_refused :
    (labelToOneHot [(1 / 2 : ℝ)] 1 = .ok [[1]] ∧ ¬ RefusesIllegal 1 [1 / 2])
    ∧ (labelToOneHot [(-1 : ℝ)] 1 = .error .outOfRange ∧ ¬ RefusesIllegal 1 [-1])
    ∧ (loadLabelsGeneral (α := ℝ) "labels.csv" (some "y\n-1") = .error .outOfRange
      ∧ ¬ RefusesNegative (α := ℝ) "labels.csv" "y\n-1")
    ∧ loadLabelsGeneral (α := ℝ) "labels.csv" (some "y\n-2") = .error .lengthError
    ∧ ¬ RefusesNegative (α := ℝ) "labels.csv" "y\n-2" := by
  have htoInt : Double.toInt (1 / 2 : ℝ) = 0 := by
    show (if (0 : ℝ) ≤ 1 / 2 then ⌊(1 / 2 : ℝ)⌋ else ⌈(1 / 2 : ℝ)⌉) = 0
    norm_num
  have hhalf : labelToOneHot [(1 / 2 : ℝ)] (1 : ℕ) = .ok [[1]] := by
    rw [labelToOneHot_eq, List.length_singleton, Checked.loop_succ, Checked.loop_zero,
      Checked.pure_eq_ok, Checked.ok_bind, encodeLabel_of_lt rfl (by norm_num), htoInt]
    rfl
  have hminus : labelToOneHot [(-1 : ℝ)] (1 : ℕ) = .error .outOfRange := by
    rw [labelToOneHot_eq, List.length_singleton, Checked.loop_succ, Checked.loop_zero,
      Checked.pure_eq_ok, Checked.ok_bind, encodeLabel_of_lt rfl (by norm_num)]
    exact Mat.setInt_of_neg _ _ _ (toInt_neg le_rfl)
  have hlines : labelLines "y\n-1" = ["-1"] ∧ labelLines "y\n-2" = ["-2"] := by decide
  have hreadone : addLabel ([], 0) "-1" = .ok ([-1], 0) :=
    addLabel_of_stoi (show stoi "-1" = .ok (-1) by decide) (by decide) ([], 0)
  have hreadtwo : addLabel ([], 0) "-2" = .ok ([-2], 2 ^ 64 - 1) :=
    addLabel_of_stoi (show stoi "-2" = .ok (-2) by decide) (by decide) ([], 0)
  have hone : loadLabelsGeneral (α := ℝ) "labels.csv" (some "y\n-1") = .error .outOfRange := by
    rw [loadLabelsGeneral_some, hlines.1, List.foldlM_cons, hreadone, Checked.ok_bind,
      List.foldlM_nil, Checked.pure_eq_ok, Checked.ok_bind, if_neg (show ¬ maxSize ≤ 0 by decide)]
    exact fillLabels_of_neg (n := 0) (by decide) ⟨-1, by decide⟩ ⟨rfl, nofun⟩
  have htwo : loadLabelsGeneral (α := ℝ) "labels.csv" (some "y\n-2") = .error .lengthError := by
    rw [loadLabelsGeneral_some, hlines.2, List.foldlM_cons, hreadtwo, Checked.ok_bind,
      List.foldlM_nil, Checked.pure_eq_ok, Checked.ok_bind]
    exact if_pos (show maxSize ≤ 2 ^ 64 - 1 by decide)
  refine ⟨⟨hhalf, fun h => ?_⟩, ⟨hminus, fun h => ?_⟩, ⟨hone, ?_⟩, htwo, ?_⟩
  · have hillegal : ¬ Legal 1 (1 / 2) := by
      rintro ⟨k, hk, hlt⟩
      obtain rfl : k = 0 := Nat.lt_one_iff.mp hlt
      norm_num at hk
    obtain ⟨what, hwhat⟩ := h.1.mpr ⟨1 / 2, List.mem_singleton_self _, hillegal⟩
    cases hhalf.symm.trans hwhat
  · have hillegal : ¬ Legal 1 (-1) := fun h => lt_irrefl _ h.bounds.1
    obtain ⟨what, hwhat⟩ := h.1.mpr ⟨-1, List.mem_singleton_self _, hillegal⟩
    cases hminus.symm.trans hwhat
  · rintro ⟨e, he, hexception, -⟩
    obtain rfl := Except.error.inj (hone.symm.trans he)
    cases hexception
  · rintro ⟨e, he, -, hne⟩
    exact hne (Except.error.inj (htwo.symm.trans he)).symm

end DatasetLoader
