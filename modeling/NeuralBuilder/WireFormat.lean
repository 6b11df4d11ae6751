import NeuralBuilder.ProcessPage
import NeuralBuilder.TrainingMessage

/-!
# What the page sends to the engine

`transform` makes the body of a compile request, and the socket of a training
sends the data set and the settings of the page. The handlers of the engine
read both back, key by key. Two keys are not the same on the two sides: the
engine looks for `lossFunc`, which `transform` does not write, and for
`target`, where the page sends `labels`. So neither request is understood,
whatever the page holds (`requests_refused`). The other keys are read as they
were meant (`readRequest_withLossFunc`, `readTraining_withTarget`).

What is written is a value with the types of JSON, and not a text: a number that
is not finite becomes null, an undefined field is left out. The readers are
those of `Compile` and `TrainingMessage`. With the missing key put in, each
request is read as it was meant on pages whose numbers can be read (`Readable`),
so that the two keys are all that is wrong.
-/

namespace ProcessPage

open RouteHandlers

variable {α : Type}

/-! ## JSON -/

/-- **What is used of JSON**: whether a number is finite, since
`JSON.stringify` writes `null` for the others, and what `i()` reads from the
text of a number and from a text. -/
structure Json (α : Type) where
  /-- Neither `NaN` nor infinite. -/
  isFinite : α → Bool
  /-- What `i()` reads from the text of a number. -/
  int : α → Int64
  /-- What it reads from a text. -/
  textInt : String → Int64

namespace Json

variable (J : Json α)

def number (x : α) : RValue α :=
  if J.isFinite x then .number (J.int x) x else .null

def text (s : String) : RValue α :=
  .string s (J.textInt s)

def scalar : Scalar α → RValue α
  | .number x => J.number x
  | .text s => J.text s
  | .null => .null

def matrix (rows : Mat α) : RValue α :=
  .list (rows.map fun row => .list (row.map J.number))

/-- A matrix that may be null. -/
def dataset : Option (Mat α) → RValue α
  | none => .null
  | some rows => J.matrix rows

end Json

/-! ## The two requests -/

section Requests

variable [Double α] (J : Json α)

/-- The keys of the object that `transform` returns. -/
def transformFields (page : Page α) : List (String × RValue α) :=
  [("hiddenLayerSizes", .list (page.layers.map fun layer => J.number layer.numOfNeurons)),
    ("learningRates", .list (page.layers.map fun layer => J.scalar layer.lr)),
    ("layerActivations", .list (page.layers.map fun layer => J.text layer.activation)),
    ("inputSize", .number (Int64.ofNat page.inputSize) (page.inputSize : ℕ))]

/-- `transform`, the body of a compile request. -/
def transform (page : Page α) : RValue α :=
  .object (transformFields J page)

/-- The keys of the message of a training: `modelId`, those of the data set
and those of the settings. -/
def trainDataFields (modelId : String) (page : Page α) : List (String × RValue α) :=
  [("modelId", J.text modelId),
    ("fileNames", .object [("features", J.text page.trainDataset.fileNames.features),
      ("labels", J.text page.trainDataset.fileNames.labels)]),
    ("features", J.dataset page.trainDataset.features),
    ("labels", J.dataset page.trainDataset.labels),
    ("lossFunction", J.text page.trainingHyperparameters.lossFunction),
    ("optimizer", J.text page.trainingHyperparameters.optimizer),
    ("epochNum", J.number page.trainingHyperparameters.epochNum),
    ("minibatchSize", J.number page.trainingHyperparameters.minibatchSize)]
  ++ page.trainingHyperparameters.learningRate.toList.map fun x => ("learningRate", J.number x)

/-- `trainData`, the message the socket sends when it is open. -/
def trainData (modelId : String) (page : Page α) : RValue α :=
  .object (trainDataFields J modelId page)

end Requests

/-! ## What should be read -/

variable [Double α] {J : Json α} {modelId : String} {page : Page α}

/-- An entry of a matrix. -/
def entry (rows : Mat α) (i j : ℕ) : Option α :=
  rows[i]?.bind fun row => row[j]?

/-- **A compile request is read as it was meant.** -/
structure CompileSurvives (J : Json α) (page : Page α) (request : CompileRequest α) : Prop where
  /-- The sizes are those of the layers. -/
  hiddenLayerSizes :
    request.hiddenLayerSizes = page.layers.map fun layer => J.int layer.numOfNeurons
  /-- The rates are those of the layers, as numbers. -/
  learningRates : request.learningRates.map Scalar.number = page.layers.map Layer.lr
  /-- The activations are those of the layers. -/
  layerActivations : request.layerActivations = page.layers.map Layer.activation
  /-- The loss is the one that is chosen. -/
  lossFunc : request.lossFunc = page.trainingHyperparameters.lossFunction
  /-- The number of features is that of the page. -/
  inputSize : request.inputSize = Int64.ofNat page.inputSize

/-- **The message of a training is read as it was meant**: the matrices with
one sample per column. -/
structure TrainSurvives (J : Json α) (page : Page α) (request : TrainingRequest α) : Prop where
  /-- The features are those of the file, transposed. -/
  features : ∃ features, page.trainDataset.features = some features
    ∧ ∀ i j, entry request.features i j = entry features j i
  /-- So are the labels. -/
  target : ∃ labels, page.trainDataset.labels = some labels
    ∧ ∀ i j, entry request.target i j = entry labels j i
  /-- The number of epochs is the one typed in. -/
  epochs : request.epochs = (J.int page.trainingHyperparameters.epochNum).narrow
  /-- So is the mini-batch size. -/
  batchSize : request.batchSize = (J.int page.trainingHyperparameters.minibatchSize).narrow

/-- The two requests of a page are read as they were meant. -/
def RequestsSurvive (J : Json α) (modelId : String) (page : Page α) : Prop :=
  (∃ request, readRequest (transform J page) = .ok request ∧ CompileSurvives J page request)
  ∧ ∃ request, readTraining (trainData J modelId page) = .ok request ∧ TrainSurvives J page request

/-! ## No request is understood -/

/-- **The engine refuses every compile request and every message of the page**,
whatever the page holds: the one lacks `lossFunc`, the other one `target`. So
neither is ever read as it was meant. -/
theorem requests_refused (J : Json α) (modelId : String) (page : Page α) :
    (∀ request, readRequest (transform J page) ≠ .ok request)
      ∧ (∀ request, readTraining (trainData J modelId page) ≠ .ok request)
      ∧ ¬ RequestsSurvive J modelId page := by
  have hcompile : ∀ request, readRequest (transform J page) ≠ .ok request := by
    intro request h
    simp only [readRequest, Checked.bind_eq_ok_iff] at h
    obtain ⟨_, -, _, -, _, -, _, -, _, -, _, -, lossFunc, hlossFunc, -⟩ := h
    have hmissing : (transform J page).field "lossFunc"
        = .error (.runtimeError "cannot find key: lossFunc") := rfl
    cases hmissing.symm.trans hlossFunc
  have htrain : ∀ request, readTraining (trainData J modelId page) ≠ .ok request := by
    intro request h
    simp only [readTraining, Checked.bind_eq_ok_iff] at h
    obtain ⟨_, -, _, -, target, htarget, -⟩ := h
    have hmissing : (trainData J modelId page).field "target"
        = .error (.runtimeError "cannot find key: target") := by
      unfold trainData trainDataFields
      cases page.trainingHyperparameters.learningRate <;> rfl
    cases hmissing.symm.trans htarget
  refine ⟨hcompile, htrain, ?_⟩
  rintro ⟨⟨request, hread, -⟩, -⟩
  exact hcompile request hread

/-! ## What the two keys are short of -/

omit [Double α] in
theorem Json.number_of_isFinite {x : α} (h : J.isFinite x = true) :
    J.number x = .number (J.int x) x :=
  if_pos h

/-- **A page with numbers that can be read**: they are finite, and no learning
rate is a text. -/
structure Readable (J : Json α) (page : Page α) (rates : List α) : Prop where
  /-- No size is null in the body. -/
  numOfNeurons : ∀ layer ∈ page.layers, J.isFinite layer.numOfNeurons = true
  /-- No learning rate is a text. -/
  lr : page.layers.map Layer.lr = rates.map Scalar.number
  /-- None is null in the body. -/
  isFinite : ∀ x ∈ rates, J.isFinite x = true

omit [Double α] in
/-- The three lists of a readable page are read as they were meant. -/
theorem Readable.readRequest_eq {rates : List α} (h : Readable J page rates) {body : RValue α}
    (hsizes : body.field "hiddenLayerSizes"
      = .ok (.list (page.layers.map fun layer => J.number layer.numOfNeurons)))
    (hrates : body.field "learningRates"
      = .ok (.list (page.layers.map fun layer => J.scalar layer.lr)))
    (hactivations : body.field "layerActivations"
      = .ok (.list (page.layers.map fun layer => J.text layer.activation))) :
    readRequest body = (do
      let lossFunc ← (← body.field "lossFunc").s
      let inputSize ← (← body.field "inputSize").i
      return ⟨page.layers.map fun layer => J.int layer.numOfNeurons, rates,
        page.layers.map Layer.activation, lossFunc, inputSize⟩) := by
  -- each of the three lists is read entry by entry
  have hreadSizes : (RValue.list (page.layers.map fun layer => J.number layer.numOfNeurons)).readAll
      RValue.i = .ok (page.layers.map fun layer => J.int layer.numOfNeurons) := by
    refine RValue.readAll_map_of_mem _ _ fun layer hlayer => ?_
    rw [J.number_of_isFinite (h.numOfNeurons layer hlayer)]
    rfl
  have hscalars : (page.layers.map fun layer => J.scalar layer.lr) = rates.map J.number := by
    have hmap := congrArg (List.map J.scalar) h.lr
    rw [List.map_map, List.map_map] at hmap
    exact hmap
  have hreadRates : (RValue.list (page.layers.map fun layer => J.scalar layer.lr)).readAll RValue.d
      = .ok rates := by
    rw [hscalars, RValue.readAll_map_of_mem _ id fun x hx => ?_, List.map_id]
    rw [J.number_of_isFinite (h.isFinite x hx)]
    rfl
  have hreadActivations :
      (RValue.list (page.layers.map fun layer => J.text layer.activation)).readAll RValue.s
        = .ok (page.layers.map Layer.activation) :=
    RValue.readAll_map_of_mem _ _ fun _ _ => rfl
  unfold readRequest
  rw [hsizes, Checked.ok_bind, hrates, Checked.ok_bind, hactivations, Checked.ok_bind, hreadSizes,
    Checked.ok_bind, hreadRates, Checked.ok_bind, hreadActivations, Checked.ok_bind]

/-- **Under the key `lossFunc`**, the compile request of a readable page is
read as it was meant. -/
theorem readRequest_withLossFunc {rates : List α} (h : Readable J page rates) :
    ∃ request, readRequest (.object (("lossFunc", J.text page.trainingHyperparameters.lossFunction)
        :: transformFields J page)) = .ok request
      ∧ CompileSurvives J page request :=
  ⟨_, h.readRequest_eq rfl rfl rfl, ⟨rfl, h.lr.symm, rfl, rfl, rfl⟩⟩

/-- Without it, that key is what the engine misses. -/
theorem readRequest_transform {rates : List α} (h : Readable J page rates) :
    readRequest (transform J page) = .error (.runtimeError "cannot find key: lossFunc") :=
  h.readRequest_eq rfl rfl rfl

omit [Double α] in
/-- A matrix of finite numbers is read back. -/
theorem readRows_matrix {rows : Mat α} (h : ∀ row ∈ rows, ∀ x ∈ row, J.isFinite x = true) :
    readRows (J.matrix rows) = .ok rows := by
  have hrow : ∀ row ∈ rows, (do (← (RValue.list (row.map J.number)).elements).mapM RValue.d)
      = .ok row := by
    intro row hrow
    rw [RValue.elements, Checked.ok_bind, List.mapM_map]
    refine (Checked.mapM_ok (g := id) fun x hx => ?_).trans (congrArg Except.ok (List.map_id row))
    rw [Function.comp_apply, J.number_of_isFinite (h row hrow x hx)]
    rfl
  unfold readRows Json.matrix
  rw [RValue.elements, Checked.ok_bind, List.mapM_map]
  exact (Checked.mapM_ok (g := id) hrow).trans (congrArg Except.ok (List.map_id rows))

omit [Double α] in
/-- The entries of a transposed matrix. -/
theorem entry_transpose {r c : ℕ} (X : Fin r → Fin c → α) (i j : ℕ) :
    entry (Grid.ofFn fun j i => X i j) i j = entry (Grid.ofFn X) j i := by
  unfold entry Grid.ofFn
  by_cases hi : i < c <;> by_cases hj : j < r <;> simp [hi, hj]

omit [Double α] in
/-- **Under the key `target`**, the message of a training is read as it was
meant, for two matrices with rows of one length each, if the numbers are
finite. -/
theorem readTraining_withTarget {m n k t : ℕ} {X : Fin m → Fin n → α} {T : Fin k → Fin t → α}
    (hm : 0 < m) (hk : 0 < k) (hfeatures : page.trainDataset.features = some (Grid.ofFn X))
    (hlabels : page.trainDataset.labels = some (Grid.ofFn T))
    (hX : ∀ row ∈ Grid.ofFn X, ∀ x ∈ row, J.isFinite x = true)
    (hT : ∀ row ∈ Grid.ofFn T, ∀ x ∈ row, J.isFinite x = true)
    (hepochs : J.isFinite page.trainingHyperparameters.epochNum = true)
    (hbatch : J.isFinite page.trainingHyperparameters.minibatchSize = true) :
    ∃ request, readTraining (.object (("target", J.dataset page.trainDataset.labels)
        :: trainDataFields J modelId page)) = .ok request
      ∧ TrainSurvives J page request := by
  have hreadX : readRows (J.dataset page.trainDataset.features) = .ok (Grid.ofFn X) := by
    rw [hfeatures]
    exact readRows_matrix hX
  have hreadT : readRows (J.dataset page.trainDataset.labels) = .ok (Grid.ofFn T) := by
    rw [hlabels]
    exact readRows_matrix hT
  refine ⟨⟨Grid.ofFn X, Grid.ofFn T, Grid.ofFn fun i j => X j i, Grid.ofFn fun i j => T j i,
    (J.int page.trainingHyperparameters.epochNum).narrow,
    (J.int page.trainingHyperparameters.minibatchSize).narrow⟩, ?_,
    ⟨⟨_, hfeatures, entry_transpose X⟩, ⟨_, hlabels, entry_transpose T⟩, rfl, rfl⟩⟩
  unfold readTraining
  rw [show RValue.field _ "features" = .ok (J.dataset page.trainDataset.features) from rfl,
    Checked.ok_bind, hreadX, Checked.ok_bind,
    show RValue.field _ "target" = .ok (J.dataset page.trainDataset.labels) from rfl,
    Checked.ok_bind, hreadT, Checked.ok_bind, MathUtils.transpose_ofFn X hm, Checked.ok_bind,
    MathUtils.transpose_ofFn T hk, Checked.ok_bind,
    show RValue.field _ "epochNum" = .ok (J.number page.trainingHyperparameters.epochNum) from rfl,
    Checked.ok_bind, J.number_of_isFinite hepochs, RValue.i, Checked.ok_bind,
    show RValue.field _ "minibatchSize"
      = .ok (J.number page.trainingHyperparameters.minibatchSize) from rfl,
    Checked.ok_bind, J.number_of_isFinite hbatch, RValue.i, Checked.ok_bind]
  rfl

/-! ## Two files of one sample -/

/-- The texts of finite numbers, of which `i()` reads the integer. -/
def finiteJson : Json Float where
  isFinite _ := true
  int x := x.toInt64
  textInt _ := 0

/-- The page when `x.csv` and `y.csv` have been uploaded. -/
def uploadedPage : Page Float :=
  { Page.mounted true with
    inputSize := 1
    trainDataset := ⟨⟨"x.csv", "y.csv"⟩, some [[1]], some [[1]]⟩
    loading := false
    saved := false }

/-- **A page with both matrices**: the files `x.csv` and `y.csv` hold one
sample, and the engine misses the two keys. -/
theorem uploaded_refused : ∃ (s₀ s : State Float ℕ) (as : List (Action Float)),
    Start oneModelSetting s₀ ∧ Runs.Run (Step oneModelSetting) s₀ as s
    ∧ s.page.trainDataset.features = some [[1]] ∧ s.page.trainDataset.labels = some [[1]]
    ∧ readRequest (transform finiteJson s.page)
      = .error (.runtimeError "cannot find key: lossFunc")
    ∧ readTraining (trainData finiteJson "1" s.page)
      = .error (.runtimeError "cannot find key: target")
    ∧ ¬ RequestsSurvive finiteJson "1" s.page := by
  have hrun : Runs.Run (Step oneModelSetting) (mountedState createDefaultModelInfo)
      [.loadFailed, .uploadFeatures 0 "x.csv", .featuresParsed 0 [["x"], ["1"], [""]],
        .uploadLabels 0 "y.csv", .labelsParsed 0 [["y"], ["1"], [""]]] _ :=
    .cons (.loadFailed rfl) <| .cons (.uploadFeatures rfl rfl) <| .cons (.featuresParsed rfl) <|
    .cons (.uploadLabels rfl rfl) <| .single (.labelsParsed rfl)
  have hreadable : Readable finiteJson uploadedPage [0.01] :=
    ⟨fun _ _ => rfl, rfl, fun _ _ => rfl⟩
  have hcompile := readRequest_transform hreadable
  refine ⟨_, _, _, mountedState_start createDefaultModelInfo, hrun, rfl, rfl, hcompile, rfl, ?_⟩
  rintro ⟨⟨request, hread, -⟩, -⟩
  cases hcompile.symm.trans hread

end ProcessPage
