import NeuralBuilder.Library.Runs
import NeuralBuilder.ModelInfo

/-!
# The page of one model

`ProcessPage` from the moment it is mounted: what its buttons and inputs do,
and what happens when a file has been parsed, a request has been answered or
the socket of a training has something to say. Each of these comes when it
comes, and every request may fail.

The effect on `[isCompiled]` that clears `isTrained` runs when `isCompiled`
becomes false and at no other time, so it is part of what clears
`isCompiled`. The messages to the engine that a change of `isCompiled`
sends (`createCompiledModel`, `removeModel`) change nothing here.
-/

namespace ProcessPage

open ExpressServer

/-! ## The state of the component -/

/-- The names shown beside the two upload buttons. -/
structure FileNames where
  /-- The file of the features. -/
  features : String
  /-- The file of the labels. -/
  labels : String
  deriving DecidableEq

/-- The data set of a training; a matrix is none while it is null. -/
structure TrainDataset (α : Type) where
  /-- The files it was read from. -/
  fileNames : FileNames
  /-- A row for each sample. -/
  features : Option (Mat α)
  /-- A row for each sample as well. -/
  labels : Option (Mat α)
  deriving DecidableEq

/-- A data set with other features. -/
def TrainDataset.withFeatures (d : TrainDataset α) (file : String) (features : Mat α) :
    TrainDataset α :=
  ⟨⟨file, d.fileNames.labels⟩, some features, d.labels⟩

/-- A data set with other labels. -/
def TrainDataset.withLabels (d : TrainDataset α) (file : String) (labels : Mat α) :
    TrainDataset α :=
  ⟨⟨d.fileNames.features, file⟩, d.features, some labels⟩

/-- **The state of `ProcessPage`**, and the flag `saved` that `App` keeps for
it. Sockets are numbered. -/
structure Page (α : Type) extends Fields α where
  /-- Whether a training has ended since the last compile. -/
  isTrained : Bool
  /-- Whether the buttons are disabled. -/
  modelInProcess : Bool
  /-- Whether Train shows that it is at work. -/
  isTraining : Bool
  /-- What trainings are given. -/
  trainDataset : TrainDataset α
  /-- The socket of the last training. -/
  socket : Option ℕ
  /-- Whether the document is still waited for. -/
  loading : Bool
  /-- Whether leaving the page asks no question. -/
  saved : Bool
  deriving DecidableEq

/-- What a network is compiled from. -/
structure Architecture (α : Type) where
  /-- The layers. -/
  layers : List (Layer α)
  /-- The number of features of the first one. -/
  inputSize : ℕ
  deriving DecidableEq

variable {α Id Token : Type}

/-- What `transform` reads. -/
def Fields.architecture (fields : Fields α) : Architecture α :=
  ⟨fields.layers, fields.inputSize⟩

/-- A file that is being parsed: what the upload handler has read. -/
structure Parse (α : Type) where
  /-- The name of the file. -/
  file : String
  /-- The data set when the file was chosen, which the handler changes when it
  is parsed. -/
  trainDataset : TrainDataset α
  deriving DecidableEq

/-- What an input of `LayerForm` changes. -/
inductive LayerEdit
  | layerType (value : String)
  | activation (value : String)
  | numOfNeurons (value : String)
  | lr (value : String)
  | wim (value : String)
  deriving DecidableEq

/-- What an input of the training settings changes. -/
inductive HyperparameterEdit
  | lossFunction (value : String)
  | optimizer (value : String)
  | epochNum (value : String)
  | minibatchSize (value : String)
  deriving DecidableEq

/-- The new layer of `addLayer`. -/
def newLayer [Double α] : Layer α :=
  ⟨"relu", (1 : ℕ), .number 0.01, "XAVIER", "DL"⟩

/-- `handleChange` of `LayerForm`; `number` is `Number`. -/
def handleChange (number : String → α) (tempLayer : Layer α) : LayerEdit → Layer α
  | .layerType value => { tempLayer with layerType := value }
  | .activation value => { tempLayer with activation := value }
  | .numOfNeurons value => { tempLayer with numOfNeurons := number value }
  | .lr value => { tempLayer with lr := .text value }
  | .wim value => { tempLayer with wim := value }

/-- The `onChange` handlers of the training settings. -/
def TrainingHyperparameters.edit (number : String → α) (prev : TrainingHyperparameters α) :
    HyperparameterEdit → TrainingHyperparameters α
  | .lossFunction value => { prev with lossFunction := value }
  | .optimizer value => { prev with optimizer := value }
  | .epochNum value => { prev with epochNum := number value }
  | .minibatchSize value => { prev with minibatchSize := number value }

/-- The matrix of a parsed file: the empty lines, the first line and the last
one are left out. -/
def parsedMatrix (number : String → α) (data : List (List String)) : Mat α :=
  ((data.filter fun row => row.length > 0).tail.dropLast).map fun row => row.map number

namespace Page

/-- The page as it is mounted. -/
def mounted [Double α] (saved : Bool) : Page α where
  layers := [newLayer]
  trainingHyperparameters := ⟨"sigmoid cross entropy", "SGD", (900 : ℕ), (128 : ℕ), some 0.01⟩
  parameters := some []
  normalizerParameters := .emptyArray
  inputSize := 40
  isCompiled := false
  isTrained := false
  modelInProcess := false
  isTraining := false
  trainDataset := ⟨⟨"No file selected", "No file selected"⟩, none, none⟩
  socket := none
  loading := true
  saved := saved

/-- The load effect. -/
def loaded (page : Page α) (modelInfo : ModelInfo α) : Page α :=
  { page with toFields := modelInfo.fields, loading := false }

/-- `setIsCompiled(false)`, with the effect. -/
def clearIsCompiled (page : Page α) : Page α :=
  { page with isCompiled := false, isTrained := if page.isCompiled then false else page.isTrained }

def addLayer [Double α] (page : Page α) : Page α :=
  { page with layers := page.layers ++ [newLayer], saved := false }

def handleLayerChange (page : Page α) (index : ℕ) (updatedLayer : Layer α) : Page α :=
  { page with layers := page.layers.set index updatedLayer }

def handleLayerDelete (page : Page α) (index : ℕ) : Page α :=
  { page with layers := page.layers.eraseIdx index }

/-- The Save button of a layer. -/
def saveLayer (page : Page α) (index : ℕ) (tempLayer : Layer α) : Page α :=
  { page.clearIsCompiled.handleLayerChange index tempLayer with saved := false }

/-- The Delete button of a layer. -/
def deleteLayer (page : Page α) (index : ℕ) : Page α :=
  page.clearIsCompiled.handleLayerDelete index

/-- The end of `handleTrainFeaturesUpload`, while the file is parsed. -/
def handleTrainFeaturesUpload (page : Page α) : Page α :=
  { page.clearIsCompiled with saved := false }

/-- `complete` of `handleTrainFeaturesUpload`; without a row, `features[0]`
is undefined and reading its length throws. -/
def featuresParsed (page : Page α) (parse : Parse α) (features : Mat α) : Page α :=
  { page with
    trainDataset := parse.trainDataset.withFeatures parse.file features
    inputSize := (features.head?.map List.length).getD page.inputSize }

/-- `complete` of `handleTrainLabelsUpload`. -/
def labelsParsed (page : Page α) (parse : Parse α) (labels : Mat α) : Page α :=
  { page with trainDataset := parse.trainDataset.withLabels parse.file labels }

/-- The rest of `handleCompile`, with the parameters `sendHyperparametersCrow`
returns: undefined when the request has failed. -/
def compiled (page : Page α) (parametersRecieved : Option (List (LayerParameters α))) : Page α :=
  { page with
    modelInProcess := page.modelInProcess && parametersRecieved.isNone
    parameters := parametersRecieved
    isCompiled := true
    saved := false }

def handleTrain (page : Page α) (newSocket : ℕ) : Page α :=
  { page with isTraining := true, modelInProcess := true, socket := some newSocket }

def handleStopTraining (page : Page α) : Page α :=
  { page with isTraining := false, modelInProcess := false }

/-- `onmessage`, for `finalParams`. -/
def onFinalParams (page : Page α) (modelParams : List (LayerParameters α))
    (normalizerParams : NormalizerParameters α) : Page α :=
  { page with parameters := some modelParams, normalizerParameters := .parameters normalizerParams }

def onClose (page : Page α) : Page α :=
  { page with socket := none, modelInProcess := false, isTraining := false, isTrained := true }

end Page

/-! ## Requests to the Express server -/

/-- **The page's surroundings**: `Number`, the casts of Mongoose, `jwt.verify`,
the cookie of the browser and the model of the page. -/
structure Setting (α Id Token : Type) where
  /-- `Number` of the text of a cell. -/
  number : String → α
  /-- What Mongoose casts. -/
  casts : Casts α
  /-- The user a token is for. -/
  verify : Token → Option Id
  /-- The token of the browser. -/
  token : Option Token
  /-- The model of the page. -/
  modelId : Id

/-- The status `updateStatue` sends. -/
def statusOf (isCompiled isTrained : Bool) : String :=
  if isTrained then "trained" else if isCompiled then "compiled" else "draft"

namespace Setting

variable (E : Setting α Id Token)

/-- The request of `fetchModelData`. -/
def fetchModelData : Request Token Id (ModelInfo α) :=
  ⟨E.token, .getProcess (some E.modelId)⟩

/-- The request of `saveModelInfo`. -/
def saveModelInfo (fields : Fields α) : Request Token Id (ModelInfo α) :=
  ⟨E.token, .postProcess ⟨.value E.modelId, fields.set E.casts⟩⟩

/-- The request of `updateStatue`. -/
def updateStatue (isCompiled isTrained : Bool) : Request Token Id (ModelInfo α) :=
  ⟨E.token, .updateStatus (some E.modelId) (.value (statusOf isCompiled isTrained))⟩

variable [Double α] [DecidableEq Id]

/-- A request served by the Express server. -/
def serve (db : Database Id (ModelInfo α)) (request : Request Token Id (ModelInfo α)) :
    Database Id (ModelInfo α) × (Operation Id (ModelInfo α) ⊕ Reply Id (ModelInfo α)) :=
  ExpressServer.serve E.verify createDefaultModelInfo db request

/-- Whether axios resolves a reply. -/
def resolves : Operation Id (ModelInfo α) ⊕ Reply Id (ModelInfo α) → Bool
  | .inl _ => false
  | .inr reply => 200 ≤ reply.code ∧ reply.code < 300

theorem serve_fetchModelData (db : Database Id (ModelInfo α)) :
    E.serve db E.fetchModelData = (db, .inr ⟨200, .modelInfo (db.findInfo E.modelId)⟩) :=
  rfl

theorem serve_saveModelInfo (db : Database Id (ModelInfo α)) {fields : Fields α}
    {f : ModelInfo α → ModelInfo α} (h : fields.set E.casts = some f) :
    E.serve db (E.saveModelInfo fields)
      = (db.updateInfo E.modelId f, .inr ⟨200, .text "Model saved successfully"⟩) := by
  unfold serve saveModelInfo
  rw [h]
  rfl

/-- A save with a field that cannot be cast is refused. -/
theorem serve_saveModelInfo_of_none (db : Database Id (ModelInfo α)) {fields : Fields α}
    (h : fields.set E.casts = none) :
    E.serve db (E.saveModelInfo fields) = (db, .inr ⟨500, .text "Error creating case"⟩) := by
  unfold serve saveModelInfo
  rw [h]
  rfl

/-- The status is written for a user who is logged in. -/
theorem serve_updateStatue (db : Database Id (ModelInfo α)) {user : Id}
    (h : E.token.bind E.verify = some user) (isCompiled isTrained : Bool) :
    E.serve db (E.updateStatue isCompiled isTrained)
      = (db.updateModel E.modelId (setStatus fun _ => statusOf isCompiled isTrained) fun _ => rfl,
        .inr ⟨200, .text "status updated!"⟩) := by
  have hauth :
      (authenticateUser E.verify E.token : Except (Reply Id (ModelInfo α)) Id) = .ok user :=
    authenticateUser_eq_ok_iff.mpr h
  unfold serve updateStatue ExpressServer.serve entry
  rw [hauth]
  cases isTrained <;> cases isCompiled <;> rfl

/-- Without a user the request is refused. -/
theorem serve_updateStatue_of_none (db : Database Id (ModelInfo α))
    (h : E.token.bind E.verify = none) (isCompiled isTrained : Bool) :
    ∃ reply : Reply Id (ModelInfo α),
      E.serve db (E.updateStatue isCompiled isTrained) = (db, .inr reply)
        ∧ resolves (.inr reply : Operation Id (ModelInfo α) ⊕ _) = false := by
  unfold serve updateStatue ExpressServer.serve entry authenticateUser
  cases htoken : E.token with
  | none => exact ⟨_, rfl, rfl⟩
  | some token =>
    rw [htoken, Option.bind_some] at h
    dsimp only
    rw [h]
    exact ⟨_, rfl, rfl⟩

/-- The document of the model. -/
def info (db : Database Id (ModelInfo α)) : Option (ModelInfo α) :=
  (db.findInfo E.modelId).map InfoDoc.data

/-- The document that `fetchModelData` is answered with. -/
theorem info_of_fetchModelData {db : Database Id (ModelInfo α)} {doc : InfoDoc Id (ModelInfo α)}
    (h : (E.serve db E.fetchModelData).2 = .inr ⟨200, .modelInfo (some doc)⟩) :
    E.info db = some doc.data := by
  rw [E.serve_fetchModelData] at h
  have hfind := Body.modelInfo.inj (congrArg Reply.body (Sum.inr.inj h))
  unfold info
  rw [hfind, Option.map_some]

omit [Double α] in
theorem info_updateInfo (db : Database Id (ModelInfo α)) (f : ModelInfo α → ModelInfo α) :
    E.info (db.updateInfo E.modelId f) = (E.info db).map f := by
  unfold info
  rw [db.findInfo_updateInfo, Option.map_map, Option.map_map]
  rfl

/-- Writing the status leaves the documents. -/
theorem info_updateStatue (db : Database Id (ModelInfo α)) (isCompiled isTrained : Bool) :
    E.info (E.serve db (E.updateStatue isCompiled isTrained)).1 = E.info db := by
  cases h : E.token.bind E.verify with
  | none =>
    obtain ⟨reply, hserve, -⟩ := E.serve_updateStatue_of_none db h isCompiled isTrained
    rw [hserve]
  | some user =>
    rw [E.serve_updateStatue db h]
    rfl

end Setting

/-! ## Steps -/

/-- How far a call of `handleSaveModel` is: it waits for the first request,
for the second one, or has ended. -/
inductive Stage
  | modelInfo
  | status
  | ended
  deriving DecidableEq

/-- **A call of `handleSaveModel`**: what it has read, which of its requests
are on their way to the server, and whether the server has answered the
second one with a success. -/
structure Saving (α : Type) where
  /-- The fields when Save was pressed. -/
  fields : Fields α
  /-- Whether the page was trained then. -/
  isTrained : Bool
  /-- What it waits for. -/
  stage : Stage
  /-- Whether the server has still to serve the first request. -/
  modelInfoInFlight : Bool
  /-- Whether it has still to serve the second one. -/
  statusInFlight : Bool
  /-- Whether it has served that with a success. -/
  statusServed : Bool
  deriving DecidableEq

/-- **The page at work**: its state, what it waits for, and the database. The
last four fields are what has happened, and no code reads them. -/
structure State (α Id : Type) where
  /-- The state of the component. -/
  page : Page α
  /-- The reply to `fetchModelData`. -/
  fetched : Option (ModelInfo α)
  /-- The files of features that are being parsed. -/
  featureParses : ℕ → Option (Parse α)
  /-- Those of labels. -/
  labelParses : ℕ → Option (Parse α)
  /-- The calls of `handleCompile`, with what they have sent. -/
  compiles : ℕ → Option (Architecture α)
  /-- The sockets that are not closed, with the number of compiles there had
  been when they were opened. -/
  sessions : ℕ → Option ℕ
  /-- The tests and predictions that are waited for. -/
  requests : ℕ
  /-- The calls of `handleSaveModel`. -/
  saves : ℕ → Option (Saving α)
  /-- The database. -/
  db : Database Id (ModelInfo α)
  /-- What the parameters of the page are the parameters of, if anything. -/
  origin : Option (Architecture α)
  /-- How often the page has been compiled or loaded. -/
  compileCount : ℕ
  /-- For each `finalParams` received, the number of compiles there had been
  when its training was started. -/
  finished : List ℕ
  /-- The fields the document was last read with or set to. -/
  stored : Option (Fields α)

/-- What the user does, and what happens to what is waited for. The number `t`
is that of a call or socket, and a fresh one where it starts. -/
inductive Action (α : Type)
  /-- The server serves `fetchModelData`. -/
  | serveLoad
  | loaded
  /-- The request fails, or the server has no document. -/
  | loadFailed
  | addLayer
  | saveLayer (index : ℕ) (edits : List LayerEdit)
  | deleteLayer (index : ℕ)
  | setHyperparameters (edit : HyperparameterEdit)
  | uploadFeatures (t : ℕ) (file : String)
  | featuresParsed (t : ℕ) (data : List (List String))
  | uploadLabels (t : ℕ) (file : String)
  | labelsParsed (t : ℕ) (data : List (List String))
  | compile (t : ℕ)
  | compiled (t : ℕ) (parameters : List (LayerParameters α))
  | compileFailed (t : ℕ)
  | train (t : ℕ)
  /-- The message with the parameters of a network, which it does not name. -/
  | finalParams (t : ℕ) (modelParams : List (LayerParameters α))
    (normalizerParams : NormalizerParameters α) (network : Architecture α)
  | socketError (t : ℕ)
  | close (t : ℕ)
  | stopTraining
  /-- A test or a prediction. -/
  | request
  | reply
  | loseReply
  | save (t : ℕ)
  /-- The server serves the first request of a save. -/
  | serveSave (t : ℕ)
  /-- The first request has been answered or has failed, and the second one
  is sent. -/
  | sendStatus (t : ℕ)
  | serveStatus (t : ℕ)
  | saveDone (t : ℕ)
  /-- The second request is answered with an error, or fails. -/
  | saveFailed (t : ℕ)

variable [Double α] [DecidableEq Id]

/-- **One step.** A button is pressed only where the page shows it enabled;
while the page is loading it shows no layer and no training section. -/
inductive Step (E : Setting α Id Token) : State α Id → Action α → State α Id → Prop
  | serveLoad {s info} : s.page.loading = true → s.fetched = none →
    (E.serve s.db E.fetchModelData).2 = .inr ⟨200, .modelInfo (some info)⟩ →
    Step E s .serveLoad { s with fetched := some info.data, stored := some info.data.fields }
  | loaded {s info} : s.page.loading = true → s.fetched = some info →
    Step E s .loaded
      { s with
        page := s.page.loaded info
        origin := some info.fields.architecture
        compileCount := s.compileCount + 1 }
  | loadFailed {s} : s.page.loading = true →
    Step E s .loadFailed { s with page.loading := false }
  | addLayer {s} : Step E s .addLayer { s with page := s.page.addLayer }
  | saveLayer {s index edits la} : s.page.loading = false → s.page.layers[index]? = some la →
    Step E s (.saveLayer index edits)
      { s with page := s.page.saveLayer index (edits.foldl (handleChange E.number) la) }
  | deleteLayer {s index} : s.page.loading = false → index < s.page.layers.length →
    Step E s (.deleteLayer index) { s with page := s.page.deleteLayer index }
  | setHyperparameters {s edit} : s.page.loading = false →
    Step E s (.setHyperparameters edit)
      { s with
        page.trainingHyperparameters := s.page.trainingHyperparameters.edit E.number edit }
  | uploadFeatures {s t file} : s.page.loading = false → s.featureParses t = none →
    Step E s (.uploadFeatures t file)
      { s with
        page := s.page.handleTrainFeaturesUpload
        featureParses := Function.update s.featureParses t (some ⟨file, s.page.trainDataset⟩) }
  | featuresParsed {s t parse data} : s.featureParses t = some parse →
    Step E s (.featuresParsed t data)
      { s with
        page := s.page.featuresParsed parse (parsedMatrix E.number data)
        featureParses := Function.update s.featureParses t none }
  | uploadLabels {s t file} : s.page.loading = false → s.labelParses t = none →
    Step E s (.uploadLabels t file)
      { s with
        labelParses := Function.update s.labelParses t (some ⟨file, s.page.trainDataset⟩) }
  | labelsParsed {s t parse data} : s.labelParses t = some parse →
    Step E s (.labelsParsed t data)
      { s with
        page := s.page.labelsParsed parse (parsedMatrix E.number data)
        labelParses := Function.update s.labelParses t none }
  | compile {s t} : s.page.loading = false → s.page.modelInProcess = false →
    s.page.trainDataset.features ≠ none → s.compiles t = none →
    Step E s (.compile t)
      { s with
        page.modelInProcess := true
        compiles := Function.update s.compiles t (some s.page.architecture) }
  | compiled {s t sent parameters} : s.compiles t = some sent →
    Step E s (.compiled t parameters)
      { s with
        page := s.page.compiled (some parameters)
        compiles := Function.update s.compiles t none
        origin := some sent
        compileCount := s.compileCount + 1 }
  | compileFailed {s t sent} : s.compiles t = some sent →
    Step E s (.compileFailed t)
      { s with
        page := s.page.compiled none
        compiles := Function.update s.compiles t none
        origin := none
        compileCount := s.compileCount + 1 }
  | train {s t} : s.page.loading = false → s.page.isTraining = false →
    s.page.isCompiled = true → s.page.modelInProcess = false →
    s.page.trainDataset.features ≠ none → s.page.trainDataset.labels ≠ none →
    s.page.socket = none → s.sessions t = none →
    Step E s (.train t)
      { s with
        page := s.page.handleTrain t
        sessions := Function.update s.sessions t (some s.compileCount) }
  | finalParams {s t startedAt modelParams normalizerParams network} :
    s.sessions t = some startedAt →
    Step E s (.finalParams t modelParams normalizerParams network)
      { s with
        page := s.page.onFinalParams modelParams normalizerParams
        origin := some network
        finished := startedAt :: s.finished }
  | socketError {s t startedAt} : s.sessions t = some startedAt →
    Step E s (.socketError t) { s with page.socket := none }
  | close {s t startedAt} : s.sessions t = some startedAt →
    Step E s (.close t)
      { s with
        page := s.page.onClose
        sessions := Function.update s.sessions t none }
  | stopTraining {s} : s.page.loading = false → s.page.isTraining = true →
    Step E s .stopTraining { s with page := s.page.handleStopTraining }
  | request {s} : s.page.loading = false → s.page.isCompiled = true →
    s.page.modelInProcess = false →
    Step E s .request { s with page.modelInProcess := true, requests := s.requests + 1 }
  | reply {s n} : s.requests = n + 1 →
    Step E s .reply { s with page.modelInProcess := false, requests := n }
  | loseReply {s n} : s.requests = n + 1 →
    Step E s .loseReply { s with requests := n }
  | save {s t} : s.page.saved = false → s.saves t = none →
    Step E s (.save t)
      { s with
        saves := Function.update s.saves t
          (some ⟨s.page.toFields, s.page.isTrained, .modelInfo, true, false, false⟩) }
  | serveSave {s t saving} : s.saves t = some saving → saving.modelInfoInFlight = true →
    Step E s (.serveSave t)
      { s with
        saves := Function.update s.saves t (some { saving with modelInfoInFlight := false })
        db := (E.serve s.db (E.saveModelInfo saving.fields)).1
        stored := if (saving.fields.set E.casts).isSome then some saving.fields else s.stored }
  | sendStatus {s t saving} : s.saves t = some saving → saving.stage = .modelInfo →
    Step E s (.sendStatus t)
      { s with
        saves := Function.update s.saves t
          (some { saving with stage := .status, statusInFlight := true }) }
  | serveStatus {s t saving db reply} : s.saves t = some saving → saving.statusInFlight = true →
    E.serve s.db (E.updateStatue saving.fields.isCompiled saving.isTrained) = (db, reply) →
    Step E s (.serveStatus t)
      { s with
        saves := Function.update s.saves t
          (some { saving with statusInFlight := false, statusServed := Setting.resolves reply })
        db := db }
  | saveDone {s t saving} : s.saves t = some saving → saving.stage = .status →
    saving.statusServed = true →
    Step E s (.saveDone t)
      { s with
        page.saved := true
        saves := Function.update s.saves t (some { saving with stage := .ended }) }
  | saveFailed {s t saving} : s.saves t = some saving → saving.stage = .status →
    Step E s (.saveFailed t)
      { s with saves := Function.update s.saves t (some { saving with stage := .ended }) }

/-- **The start**: the page is mounted, and nothing is waited for but the
document of its model. -/
structure Start (E : Setting α Id Token) (s : State α Id) : Prop where
  /-- The page is mounted, and loading. -/
  page : s.page = .mounted s.page.saved
  /-- Its document was not read yet. -/
  fetched : s.fetched = none
  /-- No features are being parsed. -/
  featureParses : ∀ t, s.featureParses t = none
  /-- No labels are. -/
  labelParses : ∀ t, s.labelParses t = none
  /-- No compile is waited for. -/
  compiles : ∀ t, s.compiles t = none
  /-- No socket is open. -/
  sessions : ∀ t, s.sessions t = none
  /-- Nothing is tested or predicted. -/
  requests : s.requests = 0
  /-- Nothing is being saved. -/
  saves : ∀ t, s.saves t = none
  /-- The page has no parameters. -/
  origin : s.origin = none
  /-- Nothing was compiled. -/
  compileCount : s.compileCount = 0
  /-- Nothing was trained. -/
  finished : s.finished = []
  /-- No document was read or written. -/
  stored : s.stored = none

/-! ## A page of one model -/

/-- The page of the model `1` of the user `7`, where the only text that is a
number is `1`. -/
def oneModelSetting : Setting Float ℕ Unit where
  number text := if text = "1" then 1 else 0
  casts := ⟨fun text => if text = "1" then some (some 1) else none, none⟩
  verify _ := some 7
  token := some ()
  modelId := 1

/-- The database with that model and its document. -/
def oneModel (info : ModelInfo Float) : Database ℕ (ModelInfo Float) :=
  ⟨⟨[⟨1, "a", some "", "draft", 7⟩], by decide⟩, [⟨1, info⟩]⟩

/-- The page when it is mounted. -/
def mountedState (info : ModelInfo Float) : State Float ℕ where
  page := .mounted true
  fetched := none
  featureParses _ := none
  labelParses _ := none
  compiles _ := none
  sessions _ := none
  requests := 0
  saves _ := none
  db := oneModel info
  origin := none
  compileCount := 0
  finished := []
  stored := none

theorem mountedState_start (info : ModelInfo Float) : Start oneModelSetting (mountedState info) :=
  ⟨rfl, rfl, fun _ => rfl, fun _ => rfl, fun _ => rfl, fun _ => rfl, rfl, fun _ => rfl, rfl, rfl,
    rfl, rfl⟩

/-- The page when its document has been read. -/
def fetchedState (info : ModelInfo Float) : State Float ℕ :=
  { mountedState info with fetched := some info, stored := some info.fields }

/-- The page when it has loaded its document. -/
def loadedState (info : ModelInfo Float) : State Float ℕ :=
  { fetchedState info with
    page := (Page.mounted true).loaded info
    origin := some info.fields.architecture
    compileCount := 1 }

theorem step_serveLoad (info : ModelInfo Float) :
    Step oneModelSetting (mountedState info) .serveLoad (fetchedState info) := by
  have hreply := oneModelSetting.serve_fetchModelData (oneModel info)
  exact .serveLoad (s := mountedState info) rfl rfl (congrArg Prod.snd hreply)

theorem step_loaded (info : ModelInfo Float) :
    Step oneModelSetting (fetchedState info) .loaded (loadedState info) :=
  .loaded (s := fetchedState info) rfl rfl

end ProcessPage
