import NeuralBuilder.ProcessPage

/-!
# The rows of an uploaded file

The page uploads five kinds of file, and each handler makes the matrix of what
`Papa.parse` returns in the same way: it leaves out the arrays without a cell,
then the first one, the header, and the last one, which it takes for an empty
line. `Papa.parse` is a parameter here, and `RowPerLine` says what is relied on
of it. A file whose last line has no newline loses its last sample.

What a line is, and which cells it has, is left to `Papa.parse`, but for this:
each line makes one array, an empty line makes one with an empty cell, and the
array depends on the text as a whole, since the delimiter is guessed from it.
The five handlers differ in what they set and not in how they cut
(`UploadHandler.matrix`), so that one statement is about all of them
(`upload_keeps_samples_iff`).
-/

namespace ProcessPage

variable {α : Type}

/-! ## The handlers -/

/-- **What is uploaded on the page**: the data sets of trainings and tests, and
the file of the predictions. -/
structure DataFiles (α : Type) where
  /-- The data set of trainings. -/
  trainDataset : TrainDataset α
  /-- The data set of tests. -/
  testDataset : TrainDataset α
  /-- The name of the file of the predictions. -/
  predictionFile : String
  /-- Its matrix, none while there is none. -/
  predictionData : Option (Mat α)
  deriving DecidableEq

/-- The upload handlers of the page. -/
inductive UploadHandler
  | handleTrainFeaturesUpload
  | handleTrainLabelsUpload
  | handleTestFeaturesUpload
  | handleTestLabelsUpload
  | handlePredictionFileUpload
  deriving DecidableEq, Repr

/-- **`complete` of a handler**, with the files it has read when the upload was
started, and those there are now. -/
def UploadHandler.complete (number : String → α) (read : DataFiles α) (file : String)
    (data : List (List String)) (now : DataFiles α) : UploadHandler → DataFiles α
  | handleTrainFeaturesUpload =>
    { now with trainDataset := read.trainDataset.withFeatures file (parsedMatrix number data) }
  | handleTrainLabelsUpload =>
    { now with trainDataset := read.trainDataset.withLabels file (parsedMatrix number data) }
  | handleTestFeaturesUpload =>
    { now with testDataset := read.testDataset.withFeatures file (parsedMatrix number data) }
  | handleTestLabelsUpload =>
    { now with testDataset := read.testDataset.withLabels file (parsedMatrix number data) }
  | handlePredictionFileUpload => { now with predictionData := some (parsedMatrix number data) }

/-- The matrix a handler sets. -/
def UploadHandler.matrix (files : DataFiles α) : UploadHandler → Option (Mat α)
  | handleTrainFeaturesUpload => files.trainDataset.features
  | handleTrainLabelsUpload => files.trainDataset.labels
  | handleTestFeaturesUpload => files.testDataset.features
  | handleTestLabelsUpload => files.testDataset.labels
  | handlePredictionFileUpload => files.predictionData

theorem UploadHandler.matrix_complete (h : UploadHandler) (number : String → α)
    (read : DataFiles α) (file : String) (data : List (List String)) (now : DataFiles α) :
    h.matrix (h.complete number read file data now) = some (parsedMatrix number data) := by
  cases h <;> rfl

/-! ## Files of lines -/

/-- **A CSV file**: a header, at least one line of data, the newline between the
lines, and whether one follows the last line. -/
structure CsvFile (IsLine IsNewline : String → Prop) where
  /-- The names of the columns, which no handler reads. -/
  header : String
  /-- One line for every sample. -/
  data : List String
  /-- What ends a line. -/
  separator : String
  /-- Whether the last line is ended too. -/
  newline : Bool
  /-- The header is one line. -/
  header_isLine : IsLine header
  /-- So is every sample. -/
  data_isLine : ∀ line ∈ data, IsLine line
  /-- There is a sample. -/
  data_ne_nil : data ≠ []
  /-- The separator ends lines. -/
  separator_isNewline : IsNewline separator

variable {IsLine IsNewline : String → Prop}

namespace CsvFile

/-- The lines with the empty one after a last newline. -/
def lines (csv : CsvFile IsLine IsNewline) : List String :=
  csv.header :: (csv.data ++ if csv.newline then [""] else [])

/-- The text of the file. -/
def text (csv : CsvFile IsLine IsNewline) : String :=
  csv.separator.intercalate csv.lines

theorem lines_isLine (csv : CsvFile IsLine IsNewline) (hempty : IsLine "") :
    ∀ line ∈ csv.lines, IsLine line := by
  intro line hline
  rcases List.mem_cons.mp hline with rfl | hline
  · exact csv.header_isLine
  rcases List.mem_append.mp hline with hline | hline
  · exact csv.data_isLine line hline
  · split at hline
    · rwa [List.mem_singleton.mp hline]
    · cases hline

end CsvFile

/-- **What is relied on of `Papa.parse`**: for each line it returns an array of
its cells, of which there is at least one. What a line is and what ends it is for
`Papa.parse` to say, and how a line is cut may depend on the whole text, as the
delimiter is guessed from it. -/
structure RowPerLine (IsLine IsNewline : String → Prop)
    (papaParse : String → List (List String)) (cells : String → String → List String) : Prop where
  /-- A text of lines becomes one array for each of them. -/
  parse : ∀ separator lines, IsNewline separator → lines ≠ [] → (∀ line ∈ lines, IsLine line) →
    papaParse (separator.intercalate lines) = lines.map (cells (separator.intercalate lines))
  /-- What follows a last newline is a line too. -/
  isLine_empty : IsLine ""
  /-- Even an empty line has a cell. -/
  cells_ne_nil : ∀ text line, cells text line ≠ []

variable {papaParse : String → List (List String)} {cells : String → String → List String}

/-- The rows of the data lines, as numbers. -/
def CsvFile.rows (csv : CsvFile IsLine IsNewline) (cells : String → String → List String)
    (number : String → α) : Mat α :=
  csv.data.map fun line => (cells csv.text line).map number

/-- **What a handler makes of a file**: it keeps the lines of data if a newline
follows the last one, and all but the last one if not. -/
theorem parsedMatrix_text (h : RowPerLine IsLine IsNewline papaParse cells) (number : String → α)
    (csv : CsvFile IsLine IsNewline) :
    parsedMatrix number (papaParse csv.text)
      = if csv.newline then csv.rows cells number else (csv.rows cells number).dropLast := by
  have hparse : papaParse csv.text = csv.lines.map (cells csv.text) :=
    h.parse csv.separator csv.lines csv.separator_isNewline (List.cons_ne_nil _ _)
      (csv.lines_isLine h.isLine_empty)
  have hfilter : (csv.lines.map (cells csv.text)).filter (fun row => row.length > 0)
      = csv.lines.map (cells csv.text) := by
    refine List.filter_eq_self.mpr fun row hrow => ?_
    obtain ⟨line, -, rfl⟩ := List.mem_map.mp hrow
    exact decide_eq_true (List.length_pos_iff.mpr (h.cells_ne_nil csv.text line))
  rw [parsedMatrix, hparse, hfilter, CsvFile.lines, List.map_cons, List.tail_cons, CsvFile.rows]
  cases csv.newline with
  | true =>
    show (List.map _ (csv.data ++ [""])).dropLast.map _ = csv.data.map _
    rw [List.map_append, List.map_singleton, List.dropLast_concat, List.map_map]
    rfl
  | false =>
    show (List.map _ (csv.data ++ [])).dropLast.map _ = (csv.data.map _).dropLast
    rw [List.append_nil, ← List.map_dropLast, ← List.map_dropLast, List.map_map]
    rfl

theorem length_parsedMatrix_text (h : RowPerLine IsLine IsNewline papaParse cells)
    (number : String → α) (csv : CsvFile IsLine IsNewline) :
    (parsedMatrix number (papaParse csv.text)).length
      = if csv.newline then csv.data.length else csv.data.length - 1 := by
  rw [parsedMatrix_text h]
  split
  · rw [CsvFile.rows, List.length_map]
  · rw [List.length_dropLast, CsvFile.rows, List.length_map]

/-- **An upload keeps every sample exactly when a newline ends the file**, and
two files of as many samples have matrices of one length exactly when both end
with a newline or neither does. -/
theorem upload_keeps_samples_iff (h : RowPerLine IsLine IsNewline papaParse cells)
    (number : String → α) (csv : CsvFile IsLine IsNewline) (handler : UploadHandler)
    (read now : DataFiles α) (file : String) :
    (handler.matrix (handler.complete number read file (papaParse csv.text) now)
        = some (csv.rows cells number) ↔ csv.newline = true)
    ∧ ∀ (csv' : CsvFile IsLine IsNewline) (handler' : UploadHandler) (read' now' : DataFiles α)
        (file' : String), csv'.data.length = csv.data.length →
      ((handler.matrix (handler.complete number read file (papaParse csv.text) now)).map
          List.length
        = (handler'.matrix (handler'.complete number read' file' (papaParse csv'.text) now')).map
          List.length
      ↔ csv.newline = csv'.newline) := by
  have hpos : 0 < csv.data.length := List.length_pos_iff.mpr csv.data_ne_nil
  constructor
  · rw [UploadHandler.matrix_complete, Option.some_inj]
    constructor
    · intro heq
      have hlength := congrArg List.length heq
      rw [length_parsedMatrix_text h, CsvFile.rows, List.length_map] at hlength
      by_contra hnot
      rw [if_neg hnot] at hlength
      omega
    · intro hnewline
      rw [parsedMatrix_text h, if_pos hnewline]
  · intro csv' handler' read' now' file' hcount
    rw [UploadHandler.matrix_complete, UploadHandler.matrix_complete, Option.map_some,
      Option.map_some, Option.some_inj, length_parsedMatrix_text h, length_parsedMatrix_text h,
      hcount]
    cases csv.newline <;> cases csv'.newline <;> simp <;> omega

/-! ## Lines cut at commas -/

/-- A line of plain cells. -/
def PlainLine (line : String) : Prop :=
  '\n' ∉ line.toList

/-- The cells of a line. -/
def plainCells (line : String) : List String :=
  (line.toList.splitOn ',').map String.ofList

/-- What `Papa.parse` makes of plain cells between commas. -/
def parsePlain (text : String) : List (List String) :=
  (text.toList.splitOn '\n').map fun line => plainCells (String.ofList line)

theorem rowPerLine_parsePlain :
    RowPerLine PlainLine (· = "\n") parsePlain fun _ line => plainCells line where
  parse separator lines hseparator hne hlines := by
    subst hseparator
    have hmem : ∀ line ∈ lines.map String.toList, '\n' ∉ line := by
      intro line hline
      obtain ⟨line', hline', rfl⟩ := List.mem_map.mp hline
      exact hlines line' hline'
    have hsplit : ("\n".intercalate lines).toList.splitOn '\n' = lines.map String.toList := by
      rw [String.toList_intercalate]
      exact List.splitOn_intercalate _ hmem fun h => hne (List.map_eq_nil_iff.mp h)
    rw [parsePlain, hsplit, List.map_map]
    refine List.map_congr_left fun line _ => ?_
    rw [Function.comp_apply, String.ofList_toList]
  isLine_empty := by
    intro h
    cases h
  cells_ne_nil _ line := by
    intro h
    exact List.splitOn_ne_nil _ _ (List.map_eq_nil_iff.mp h)

/-- The number `1`, and `2` for any other text. -/
def oneOrTwo (text : String) : ℕ :=
  if text = "1" then 1 else 2

/-- Two samples of one number. -/
def twoSamples (newline : Bool) : CsvFile PlainLine (· = "\n") where
  header := "x"
  data := ["1", "2"]
  separator := "\n"
  newline := newline
  header_isLine := by unfold PlainLine; decide
  data_isLine := by unfold PlainLine; decide
  data_ne_nil := List.cons_ne_nil _ _
  separator_isNewline := rfl

/-- Before anything has been uploaded. -/
def noFiles : DataFiles ℕ :=
  ⟨⟨⟨"No file selected", "No file selected"⟩, none, none⟩,
    ⟨⟨"No file selected", "No file selected"⟩, none, none⟩, "", none⟩

/-- With a newline at the end both samples are kept. -/
theorem upload_keeps_twoSamples : UploadHandler.handleTrainLabelsUpload.matrix
    (UploadHandler.handleTrainLabelsUpload.complete oneOrTwo noFiles "y.csv"
      (parsePlain (twoSamples true).text) noFiles)
    = some ((twoSamples true).rows (fun _ line => plainCells line) oneOrTwo) :=
  (upload_keeps_samples_iff rowPerLine_parsePlain oneOrTwo (twoSamples true)
    .handleTrainLabelsUpload noFiles noFiles "y.csv").1.mpr rfl

/-- **Without one the last sample is lost**, and features from a file with one
are longer. -/
theorem upload_loses_sample :
    (twoSamples false).text = "x\n1\n2" ∧ (twoSamples true).text = "x\n1\n2\n"
    ∧ (twoSamples false).rows (fun _ line => plainCells line) oneOrTwo = [[1], [2]]
    ∧ UploadHandler.handleTrainLabelsUpload.matrix
      (UploadHandler.handleTrainLabelsUpload.complete oneOrTwo noFiles "y.csv"
        (parsePlain (twoSamples false).text) noFiles) = some [[1]]
    ∧ UploadHandler.handleTrainFeaturesUpload.matrix
      (UploadHandler.handleTrainFeaturesUpload.complete oneOrTwo noFiles "X.csv"
        (parsePlain (twoSamples true).text) noFiles) = some [[1], [2]] := by
  decide +kernel

end ProcessPage
