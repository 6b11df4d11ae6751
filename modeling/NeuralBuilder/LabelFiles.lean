import NeuralBuilder.DatasetLoader
import NeuralBuilder.Library.Decimal

/-!
# Label files

`loadLabelsGeneral` reads an integer from each line of a file and builds the
one-hot matrix of the labels, with as many rows as the largest of them asks for.
`labelToOneHot` is told the number of classes instead. On labels that are not
negative the two build the same matrix, and the search for the first largest
entry finds every label in it (`loadLabelsGeneral_eq_labelToOneHot`).

A line is read by `std::stoi`, with blanks and a sign before the digits and
whatever comes after them. The arithmetic is any in which the numbers of the
classes and of the samples can be told apart (`Tallies`), as they can in the
reals.
-/

namespace DatasetLoader

/-! ## Integers -/

/-- `isspace`, for the locale a program starts in. -/
def isspace (c : Char) : Bool := c.toNat = 32 || (9 ≤ c.toNat && c.toNat ≤ 13)

/-- The number the digits at the start of a text are, if there is one. -/
def digits (text : List Char) : Option ℤ :=
  let run := text.takeWhile Char.isDigit
  if run = [] then none else some (Nat.ofDigitChars 10 run 0)

/-- The integer at the start of a text, after blanks and perhaps a sign. -/
def strtol (text : List Char) : Option ℤ :=
  match text.dropWhile isspace with
  | '-' :: text => (digits text).map Neg.neg
  | '+' :: text => digits text
  | text => digits text

/-- The largest `int`. -/
def intMax : ℤ := 2 ^ 31 - 1

/-- `std::stoi`. -/
def stoi (str : String) : Except Refusal ℤ :=
  match strtol str.toList with
  | none => .error .invalidArgument
  | some n => if -intMax - 1 ≤ n ∧ n ≤ intMax then .ok n else .error .outOfRange

theorem stoi_eq_ok_iff {str : String} {n : ℤ} :
    stoi str = .ok n ↔ strtol str.toList = some n ∧ -intMax - 1 ≤ n ∧ n ≤ intMax := by
  rw [stoi]
  cases h : strtol str.toList with
  | none => exact iff_of_false nofun fun h => nomatch h.1
  | some k =>
    dsimp only
    by_cases hk : -intMax - 1 ≤ k ∧ k ≤ intMax
    · rw [if_pos hk]
      constructor
      · rintro hn
        obtain rfl := Except.ok.inj hn
        exact ⟨rfl, hk⟩
      · rintro ⟨hn, -⟩
        rw [Option.some.inj hn]
    · rw [if_neg hk]
      refine iff_of_false nofun ?_
      rintro ⟨hn, hrange⟩
      obtain rfl := Option.some.inj hn
      exact hk hrange

/-- The conversion of an `int` to `size_t`. -/
def toSize (n : ℤ) : ℕ := (n % 2 ^ 64).toNat

/-- A vector cannot have more entries than the difference of two pointers
counts. Long entries leave room for fewer, but no number of classes is in
between. -/
def maxSize : ℕ := 2 ^ 63

/-! ## Loading -/

/-- The turn of the loop over the lines: the labels, and the number of classes
so far. -/
def addLabel (read : List ℤ × ℕ) (line : String) : Except Fault (List ℤ × ℕ) := do
  let label ← (stoi line).mapError (Refusal.fault "stoi")
  if label = intMax then .error .overflow
  else return (read.1 ++ [label], max read.2 (toSize (label + 1)))

section Load

variable {α : Type} [Double α]

/-- The loop that fills the matrix in. -/
def fillLabels (encodedLabels : List ℤ) (oneHotLabels : Mat α) : Except Fault (Mat α) :=
  Checked.loop encodedLabels.length (fun oneHotLabels sampleIdx => do
    let label ← Vec.at encodedLabels sampleIdx
    Mat.setInt oneHotLabels label sampleIdx 1) oneHotLabels

/-- `loadLabelsGeneral`. -/
def loadLabelsGeneral (filePath : String) (file : Option String) : Except Fault (Mat α) := do
  let lines ← dataLines filePath file
  let (encodedLabels, numOfClasses) ← lines.foldlM addLabel ([], 0)
  if maxSize ≤ numOfClasses then .error .lengthError
  else
    let m := encodedLabels.length
    fillLabels encodedLabels (List.replicate numOfClasses (List.replicate m 0))

/-- The lines that `loadLabelsGeneral` reads. -/
def labelLines (text : String) : List String := (getlines '\n' text).tail

theorem loadLabelsGeneral_some (filePath text : String) :
    loadLabelsGeneral (α := α) filePath (some text)
      = (labelLines text).foldlM addLabel ([], 0) >>= fun read =>
        if maxSize ≤ read.2 then .error .lengthError
        else fillLabels read.1 (List.replicate read.2 (List.replicate read.1.length 0)) :=
  rfl

end Load


/-- **A file with labels**: a line for each of them, that starts with it. -/
def HasLabels (text : String) (labels : List ℕ) : Prop :=
  List.Forall₂ (fun line (label : ℕ) => strtol line.toList = some (label : ℤ)) (labelLines text)
    labels

/-- A digit is no blank and no sign. -/
theorem isDigit_start {c : Char} (h : c.isDigit = true) :
    isspace c = false ∧ c ≠ '-' ∧ c ≠ '+' := by
  have hrange : 48 ≤ c.toNat ∧ c.toNat ≤ 57 := by
    simpa [Char.isDigit, UInt32.le_iff_toNat_le] using h
  refine ⟨?_, ?_, ?_⟩
  · simp only [isspace, Bool.or_eq_false_iff, Bool.and_eq_false_iff, decide_eq_false_iff_not]
    omega
  · rintro rfl
    exact absurd h (by decide)
  · rintro rfl
    exact absurd h (by decide)

/-- A line with a number in decimal. -/
theorem strtol_toDigits (n : ℕ) : strtol (Nat.toDigits 10 n) = some (n : ℤ) := by
  have hdigits : digits (Nat.toDigits 10 n) = some (n : ℤ) := by
    rw [digits, List.takeWhile_eq_self_iff.mpr Decimal.isDigit_toDigits]
    simp only [Nat.toDigits_ne_nil, if_false, Nat.ofDigitChars_ten_toDigits]
  cases h : Nat.toDigits 10 n with
  | nil => exact absurd h Nat.toDigits_ne_nil
  | cons c text =>
    have hc : c.isDigit = true := Decimal.isDigit_toDigits c (h ▸ List.mem_cons_self)
    obtain ⟨hblank, hminus, hplus⟩ := isDigit_start hc
    rw [strtol, List.dropWhile_cons_of_neg (by simp [hblank]), ← h, ← hdigits, h]
    split
    · next heq => exact absurd (List.cons.inj heq).1 hminus
    · next heq => exact absurd (List.cons.inj heq).1 hplus
    · rfl

/-- **Every list of labels is in a file**: a header, and a line for each of them
with the number in decimal. -/
theorem hasLabels_decimal {header : List Char} (h : '\n' ∉ header) (labels : List ℕ) :
    HasLabels (String.ofList (header ++ '\n' :: labels.flatMap fun label =>
      Nat.toDigits 10 label ++ ['\n'])) labels := by
  have hpieces : Scan.pieces '\n' (labels.flatMap fun label => Nat.toDigits 10 label ++ ['\n'])
      = labels.map (Nat.toDigits 10) := by
    induction labels with
    | nil => rfl
    | cons label labels ih =>
      have hmem : '\n' ∉ Nat.toDigits 10 label := fun hmem =>
        absurd (Decimal.isDigit_toDigits _ hmem) (by decide)
      rw [List.flatMap_cons, List.append_assoc, List.singleton_append, Scan.pieces_append hmem, ih,
        List.map_cons]
  rw [HasLabels, labelLines, getlines, String.toList_ofList, Scan.pieces_append h, hpieces,
    List.map_cons, List.tail_cons, List.map_map, List.forall₂_map_left_iff, List.forall₂_same]
  intro label _
  rw [Function.comp_apply, String.toList_ofList, strtol_toDigits]

/-! ## What the lines are read as -/

/-- A line that `stoi` throws at. -/
def Unreadable (line : String) : Prop := ∃ r, stoi line = .error r

theorem addLabel_of_stoi {line : String} {label : ℤ} (h : stoi line = .ok label)
    (hmax : label ≠ intMax) (read : List ℤ × ℕ) :
    addLabel read line = .ok (read.1 ++ [label], max read.2 (toSize (label + 1))) := by
  rw [addLabel, h]
  exact if_neg hmax

/-- **Lines that are read** give their labels, and the largest number of classes
one of them asks for. -/
theorem foldlM_addLabel_ok {lines : List String} {labels : List ℤ}
    (h : List.Forall₂ (fun line label => stoi line = .ok label) lines labels)
    (hmax : intMax ∉ labels) (read : List ℤ × ℕ) :
    lines.foldlM addLabel read = .ok (read.1 ++ labels,
      (labels.map fun label => toSize (label + 1)).foldl max read.2) := by
  induction h generalizing read with
  | nil => rw [List.append_nil]; rfl
  | @cons line label lines labels hline _ ih =>
    obtain ⟨hne, hmax⟩ := not_or.mp (List.mem_cons.not.mp hmax)
    rw [List.foldlM_cons, addLabel_of_stoi hline (Ne.symm hne), Checked.ok_bind, ih hmax,
      List.append_assoc]
    rfl

/-- **The number of classes** that is counted for some labels. -/
def numOfClasses (labels : List ℤ) : ℕ :=
  (labels.map fun label => toSize (label + 1)).foldl max 0

/-- A line that gives a label, to which `1` can be added. -/
def GivesLabel (line : String) : Prop := ∃ label, stoi line = .ok label ∧ label ≠ intMax

theorem exists_labels {lines : List String} (h : ∀ line ∈ lines, GivesLabel line) :
    ∃ labels, List.Forall₂ (fun line label => stoi line = .ok label) lines labels
      ∧ intMax ∉ labels := by
  induction lines with
  | nil => exact ⟨[], .nil, List.not_mem_nil⟩
  | cons line lines ih =>
    obtain ⟨⟨label, hlabel, hne⟩, h⟩ := List.forall_mem_cons.mp h
    obtain ⟨labels, hlabels, hmax⟩ := ih h
    exact ⟨label :: labels, .cons hlabel hlabels,
      List.mem_cons.not.mpr (not_or.mpr ⟨hne.symm, hmax⟩)⟩

/-- **A line that `stoi` throws at comes first**: no line before it holds the
largest `int`. -/
def RefusedFirst (lines : List String) : Prop :=
  Checked.ComesFirst Unreadable (fun line => stoi line = .ok intMax) lines

/-- **What reading the lines comes to**: their labels, or the first line that is
no `int` or the largest one. -/
theorem foldlM_addLabel_cases (lines : List String) :
    (∃ labels, List.Forall₂ (fun line label => stoi line = .ok label) lines labels
      ∧ (∀ line ∈ lines, GivesLabel line)
      ∧ lines.foldlM addLabel ([], 0) = .ok (labels, numOfClasses labels))
    ∨ RefusedFirst lines ∧ (∃ r : Refusal, lines.foldlM addLabel ([], 0) = .error (r.fault "stoi"))
    ∨ ¬ RefusedFirst lines ∧ (∃ line ∈ lines, ¬ GivesLabel line)
      ∧ lines.foldlM addLabel ([], 0) = .error .overflow := by
  by_cases hall : ∀ line ∈ lines, GivesLabel line
  · obtain ⟨labels, hlabels, hmax⟩ := exists_labels hall
    exact .inl ⟨labels, hlabels, hall, foldlM_addLabel_ok hlabels hmax ([], 0)⟩
  · obtain ⟨before, line, after, rfl, hbefore, hline⟩ := Checked.exists_first hall
    obtain ⟨labels, hlabels, hmax⟩ := exists_labels hbefore
    have hneither : ∀ line ∈ before, ¬ Unreadable line ∧ ¬ stoi line = .ok intMax := by
      intro line hmem
      obtain ⟨label, hlabel, hne⟩ := hbefore line hmem
      constructor
      · rintro ⟨r, hr⟩
        cases hlabel.symm.trans hr
      · intro h
        exact hne (Except.ok.inj (hlabel.symm.trans h))
    rw [RefusedFirst, List.foldlM_append, foldlM_addLabel_ok hlabels hmax, Checked.ok_bind,
      List.foldlM_cons]
    cases h : stoi line with
    | error r =>
      refine .inr (.inl ⟨(Checked.comesFirst_append_iff hneither (.inl ⟨r, h⟩)).mpr ⟨r, h⟩, r, ?_⟩)
      rw [addLabel, h]
      rfl
    | ok label =>
      have hlabel : label = intMax := by
        by_contra hne
        exact hline ⟨label, h, hne⟩
      subst hlabel
      refine .inr (.inr ⟨fun hfirst => ?_, ⟨line, by simp, hline⟩, ?_⟩)
      · obtain ⟨r, hr⟩ := (Checked.comesFirst_append_iff hneither (.inr h)).mp hfirst
        cases h.symm.trans hr
      · rw [addLabel, h]
        rfl

theorem toSize_natCast {n : ℕ} (h : n < 2 ^ 64) : toSize n = n := by
  rw [toSize]
  omega

/-- It is one more than the largest label, where none is negative. -/
theorem numOfClasses_natCast {labels : List ℕ} {M : ℕ} (hM : labels.max? = some M)
    (hsize : M + 1 < 2 ^ 31) : numOfClasses (labels.map Nat.cast) = M + 1 := by
  obtain ⟨hmem, hle⟩ := List.max?_eq_some_iff.mp hM
  have hmap : (labels.map Nat.cast).map (fun label : ℤ => toSize (label + 1))
      = labels.map (· + 1) := by
    rw [List.map_map]
    refine List.map_congr_left fun label hlabel => ?_
    have hlabel := hle label hlabel
    exact toSize_natCast (n := label + 1) (by omega)
  have hmax : (labels.map (· + 1)).max? = some (M + 1) :=
    List.max?_eq_some_iff.mpr ⟨List.mem_map_of_mem hmem,
      List.forall_mem_map.mpr fun label hlabel => Nat.succ_le_succ (hle label hlabel)⟩
  rw [numOfClasses, hmap, List.foldl_max, hmax]
  exact Nat.zero_max _

/-! ## The matrix -/

section Matrix

variable {α : Type} [Double α] {n m : ℕ}

/-- **Filling in** sets the column of every label. -/
theorem fillLabels_eq (label : Fin m → Fin n) :
    fillLabels (List.ofFn fun j => ((label j : ℕ) : ℤ))
      (List.replicate n (List.replicate m (0 : α))) = .ok (Grid.ofFn (oneHot label)) := by
  rw [fillLabels, List.length_ofFn, replicate_eq_ofFn]
  refine Grid.columnLoop_ok (fun _ _ => 0) _ (fun v j i => if i = label j then 1 else v i) ?_
  intro B j
  rw [Vec.at_ofFn, Checked.ok_bind]
  exact setInt_label label B j

end Matrix

/-! ## Decoding -/

section Decoding

variable {α : Type} [Double α] {n m : ℕ}

/-- **The arithmetic tallies** `m` samples of `n` classes: it tells `0` from `1`,
counts to `m`, and finds a class equal to itself. -/
structure Tallies (α : Type) [Double α] (n m : ℕ) : Prop where
  /-- A class is equal to itself. -/
  eq_self : ∀ k < n, Double.eq (k : α) (k : α) = true
  /-- The search for the largest entry moves on to a `1`. -/
  zero_lt_one : Double.lt (0 : α) 1 = true
  /-- It does not move among zeros. -/
  zero_lt_zero : Double.lt (0 : α) 0 = false
  /-- It does not leave a `1`. -/
  one_lt_zero : Double.lt (1 : α) 0 = false
  /-- The count starts at `0`. -/
  cast_zero : ((0 : ℕ) : α) = 0
  /-- It goes up by `1`. -/
  cast_succ : ∀ k < m, (k : α) + 1 = ((k + 1 : ℕ) : α)
  /-- All of `m` samples are a share of `1`. -/
  div_self : (m : α) / (m : α) = 1

/-- Real numbers tally any number of samples. -/
theorem tallies_real (n : ℕ) (hm : 0 < m) : Tallies ℝ n m where
  eq_self k _ := by simp
  zero_lt_one := by simp
  zero_lt_zero := by simp
  one_lt_zero := by simp
  cast_zero := Nat.cast_zero
  cast_succ k _ := (Nat.cast_succ k).symm
  div_self := div_self (Nat.cast_ne_zero.mpr hm.ne')

/-- **The first largest entry of a one-hot column is at the label**: the search
keeps `0` until it comes to the label, and `1` after it. -/
theorem predInd_oneHot (h : Tallies α n m) (label : Fin m → Fin n) (j : Fin m) :
    ModelEvaluator.predInd (Grid.ofFn (oneHot label : Fin n → Fin m → α)) j = .ok (label j) := by
  have hn : 0 < n := (label j).pos
  have hentry : ∀ (i : ℕ) (hi : i < n),
      Mat.at (Grid.ofFn (oneHot label : Fin n → Fin m → α)) i j
        = .ok (if i = label j then 1 else 0) := by
    intro i hi
    refine (Mat.at_ofFn (oneHot label : Fin n → Fin m → α) ⟨i, hi⟩ j).trans (congrArg Except.ok ?_)
    exact if_congr Fin.ext_iff rfl rfl
  obtain ⟨p, hrun, hp⟩ := Checked.loop_invariant (n := n - 1)
    (f := fun (p : α × ℕ) i => do
      let x ← Mat.at (Grid.ofFn (oneHot label : Fin n → Fin m → α)) (i + 1) j
      return if Double.lt p.1 x then (x, i + 1) else p)
    (b := (if 0 = (label j : ℕ) then 1 else 0, 0))
    (fun k p => p = if (label j : ℕ) ≤ k then (1, (label j : ℕ)) else (0, 0))
    (by
      by_cases hzero : 0 = (label j : ℕ)
      · rw [if_pos hzero, if_pos hzero.ge, ← hzero]
      · rw [if_neg hzero, if_neg (by omega)])
    (fun k p hk hp => by
      refine ⟨_, by rw [hentry (k + 1) (by omega), Checked.ok_bind]; rfl, ?_⟩
      rcases lt_trichotomy (k + 1) (label j : ℕ) with hlt | heq | hgt
      · -- the label is further down
        rw [if_neg (show ¬ (label j : ℕ) ≤ k by omega)] at hp
        rw [hp, if_neg hlt.ne, h.zero_lt_zero, if_neg Bool.false_ne_true, if_neg (by omega)]
      · rw [if_neg (show ¬ (label j : ℕ) ≤ k by omega)] at hp
        rw [hp, if_pos heq, h.zero_lt_one, if_pos rfl, if_pos heq.ge, heq]
      · -- it has been found
        rw [if_pos (show (label j : ℕ) ≤ k by omega)] at hp
        rw [hp, if_neg hgt.ne', h.one_lt_zero, if_neg Bool.false_ne_true, if_pos (by omega)])
  rw [ModelEvaluator.predInd, hentry 0 hn, Checked.ok_bind, Grid.length_ofFn, hrun, Checked.ok_bind,
    hp, if_pos (by omega)]
  rfl

/-- A sum of ones. -/
theorem foldl_one (h : Tallies α n m) {k : ℕ} (hk : k ≤ m) :
    Fin.foldl k (fun a _ => a + Double.ofBool true) (0 : α) = (k : α) := by
  induction k with
  | zero => rw [Fin.foldl_zero, h.cast_zero]
  | succ k ih =>
    rw [Fin.foldl_succ_last, ih (Nat.le_of_succ_le hk)]
    exact h.cast_succ k hk

/-- **All samples are hits** where the one-hot columns are the predictions and
the labels the targets. -/
theorem accuracy_oneHot (h : Tallies α n m) (hn : 0 < n) (label : Fin m → Fin n) :
    ModelEvaluator.accuracy (Grid.ofFn (oneHot label : Fin n → Fin m → α))
      [List.ofFn (labelRow label)] .categoricalCrossEntropy = .ok ((m : α) / (m : α)) := by
  have htargets : [List.ofFn (labelRow label : Fin m → α)]
      = Grid.ofFn fun _ : Fin 1 => (labelRow label : Fin m → α) := rfl
  have hhit : ∀ j : Fin m, ModelEvaluator.hit .categoricalCrossEntropy
      (oneHot label : Fin n → Fin m → α) (fun _ : Fin 1 => labelRow label) hn one_pos j = true := by
    intro j
    have hfirst : ModelEvaluator.firstMax (fun i => (oneHot label i j : α)) hn = label j :=
      Except.ok.inj ((ModelEvaluator.predInd_ofFn _ hn j).symm.trans (predInd_oneHot h label j))
    show Double.eq ((ModelEvaluator.firstMax (fun i => (oneHot label i j : α)) hn : ℕ) : α) _ = true
    rw [hfirst]
    exact h.eq_self _ (label j).isLt
  rw [htargets, ModelEvaluator.accuracy_ofFn _ _ _ hn one_pos]
  simp only [hhit]
  rw [foldl_one h le_rfl]

end Decoding

/-! ## The two encoders -/

section Encoders

variable {α : Type} [Double α]

/-- The labels of a file, where they and the number of classes are `int`s. -/
theorem foldlM_addLabel_hasLabels {labels : List ℕ} {M : ℕ} (hM : labels.max? = some M)
    (hsize : M + 1 < 2 ^ 31) {text : String} (htext : HasLabels text labels) :
    (labelLines text).foldlM addLabel ([], 0) = .ok (labels.map Nat.cast, M + 1) := by
  obtain ⟨-, hle⟩ := List.max?_eq_some_iff.mp hM
  have hlines : List.Forall₂ (fun line label => stoi line = .ok label) (labelLines text)
      (labels.map Nat.cast) := by
    rw [List.forall₂_map_right_iff]
    refine (List.forall₂_iff_zip.mpr ⟨htext.length_eq, fun {line label} hmem => ?_⟩)
    have hlabel := hle label (List.of_mem_zip hmem).2
    have hline := (List.forall₂_iff_zip.mp htext).2 hmem
    exact stoi_eq_ok_iff.mpr ⟨hline, by rw [intMax]; omega, by rw [intMax]; omega⟩
  have hmax : intMax ∉ labels.map (Nat.cast : ℕ → ℤ) := by
    intro hmem
    obtain ⟨label, hlabel, heq⟩ := List.mem_map.mp hmem
    have hlabel := hle label hlabel
    rw [intMax] at heq
    omega
  rw [← numOfClasses_natCast hM hsize]
  exact foldlM_addLabel_ok hlines hmax ([], 0)

/-- A file with a label that is too large is not read. -/
theorem foldlM_addLabel_ne_ok {labels : List ℕ} {M : ℕ} (hM : M ∈ labels) (hsize : 2 ^ 31 ≤ M + 1)
    {text : String} (htext : HasLabels text labels) (read : List ℤ × ℕ) :
    (labelLines text).foldlM addLabel ([], 0) ≠ .ok read := by
  have hline : ∃ line ∈ labelLines text, ¬ GivesLabel line := by
    obtain ⟨k, hk⟩ := List.mem_iff_getElem?.mp hM
    obtain ⟨line, hline, hlabel⟩ := exists_of_forall₂ htext hk
    refine ⟨line, List.mem_of_getElem? hline, ?_⟩
    rintro ⟨label, hstoi, hne⟩
    obtain ⟨hlabel', -, hle⟩ := stoi_eq_ok_iff.mp hstoi
    obtain rfl := Option.some.inj (hlabel.symm.trans hlabel')
    rw [intMax] at hne hle
    omega
  rcases foldlM_addLabel_cases (labelLines text) with ⟨-, -, hall, -⟩ | ⟨-, r, h⟩ | ⟨-, -, h⟩
  · obtain ⟨line, hmem, hnot⟩ := hline
    exact absurd (hall line hmem) hnot
  · rw [h]
    exact nofun
  · rw [h]
    exact nofun

/-- **The two encoders agree, and the labels can be read off**: on a file with
labels the matrix is built exactly where the number of classes is an `int`. It is
the matrix of `labelToOneHot`, has a single `1` in each column, in the row of its
label, and as predictions for the labels it is always right. -/
theorem loadLabelsGeneral_eq_labelToOneHot {labels : List ℕ} {M : ℕ} (hM : labels.max? = some M)
    (hcounts : Double.CountsTo α (M + 1)) (htallies : Tallies α (M + 1) labels.length)
    (filePath : String) {text : String} (htext : HasLabels text labels) :
    (M + 1 < 2 ^ 31 → ∃ O : Mat α, loadLabelsGeneral filePath (some text) = .ok O
      ∧ labelToOneHot (labels.map Nat.cast) (M + 1 : ℕ) = .ok O
      ∧ Grid.IsRect (M + 1) labels.length O
      ∧ (∀ j label, labels[j]? = some label →
        label ≤ M ∧ ∀ i ≤ M, Mat.at O i j = .ok (if i = label then 1 else 0))
      ∧ ModelEvaluator.accuracy O [labels.map Nat.cast] .categoricalCrossEntropy = .ok 1)
    ∧ (2 ^ 31 ≤ M + 1 → ∀ O : Mat α, loadLabelsGeneral filePath (some text) ≠ .ok O) := by
  obtain ⟨hmem, hle⟩ := List.max?_eq_some_iff.mp hM
  constructor
  · intro hsize
    let label : Fin labels.length → Fin (M + 1) := fun j =>
      ⟨labels[j], Nat.lt_succ_of_le (hle _ (List.getElem_mem j.isLt))⟩
    have hlabels : labels.map (Nat.cast : ℕ → ℤ) = List.ofFn fun j => ((label j : ℕ) : ℤ) :=
      (List.ofFn_getElem_eq_map labels _).symm
    have hrow : labels.map (Nat.cast : ℕ → α) = List.ofFn (labelRow label) :=
      (List.ofFn_getElem_eq_map labels _).symm
    refine ⟨Grid.ofFn (oneHot label), ?_, ?_, Grid.isRect_ofFn _,
      fun j k hk => ⟨?_, fun i hi => ?_⟩, ?_⟩
    · rw [loadLabelsGeneral_some, foldlM_addLabel_hasLabels hM hsize htext, Checked.ok_bind,
        hlabels, List.length_ofFn, if_neg (by rw [maxSize]; omega)]
      exact fillLabels_eq label
    · rw [hrow]
      exact labelToOneHot_labelRow hcounts label
    · exact hle k (List.mem_of_getElem? hk)
    · obtain ⟨hj, rfl⟩ := List.getElem?_eq_some_iff.mp hk
      refine (Mat.at_ofFn (oneHot label : Fin (M + 1) → Fin labels.length → α)
        ⟨i, Nat.lt_succ_of_le hi⟩ ⟨j, hj⟩).trans (congrArg Except.ok ?_)
      exact if_congr Fin.ext_iff rfl rfl
    · rw [hrow, accuracy_oneHot htallies (Nat.succ_pos M) label, htallies.div_self]
  · intro hsize O hO
    rw [loadLabelsGeneral_some] at hO
    obtain ⟨read, hread, -⟩ := (Checked.bind_eq_ok_iff _ _ _).mp hO
    exact foldlM_addLabel_ne_ok hmem hsize htext read hread

/-- A file with the labels `0` and `2`, over the reals. -/
theorem loadLabelsGeneral_pair : ∃ O : Mat ℝ,
    loadLabelsGeneral "labels.csv" (some "y\n0\n2\n") = .ok O
    ∧ labelToOneHot [((0 : ℕ) : ℝ), ((2 : ℕ) : ℝ)] (2 + 1 : ℕ) = .ok O
    ∧ ModelEvaluator.accuracy O [[((0 : ℕ) : ℝ), ((2 : ℕ) : ℝ)]] .categoricalCrossEntropy
      = .ok 1 := by
  have hfile : HasLabels "y\n0\n2\n" [0, 2] :=
    hasLabels_decimal (show '\n' ∉ ['y'] by decide) [0, 2]
  obtain ⟨O, hload, hencoder, -, -, haccuracy⟩ :=
    (loadLabelsGeneral_eq_labelToOneHot (α := ℝ) rfl (Double.countsTo_real _)
      (tallies_real _ two_pos) "labels.csv" hfile).1 (by decide)
  exact ⟨O, hload, hencoder, haccuracy⟩

end Encoders

end DatasetLoader
