import NeuralBuilder.Double
import NeuralBuilder.ExpressServer
import NeuralBuilder.MathUtils

/-!
# What the page saves and what the document holds

`ProcessPage` sends six of its fields to `POST /api/process`, and its load
effect sets the same six from `GET /api/process/:modelId`. Between the two
stand `JSON.stringify`, which leaves out what is undefined, and the schemas
of `modelInfoModel.js`, which cast a text to a number and drop a key they do
not declare. `set_fields_iff` says which fields survive the way.

A save is a function of the document, since a key that is undefined leaves what
is there (`Fields.set`); it fails where a cast does. The condition `Storable` is
about the fields and, for `normalizerParameters`, about the document. Saving
keeps it as it is (`storable_set_iff`), and a save of storable fields is never
refused (`Storable.exists_set`). What Mongoose casts is a parameter, `Casts`.
-/

namespace ProcessPage

open ExpressServer

/-! ## The fields of the page -/

/-- **A learning rate**: a number, the text of the input that edits it, or
what a text was stored as that is no number. -/
inductive Scalar (α : Type)
  | number (x : α)
  | text (s : String)
  | null
  deriving DecidableEq

/-- A layer of the page. -/
structure Layer (α : Type) where
  /-- The activation that is chosen. -/
  activation : String
  /-- The number that is typed in. -/
  numOfNeurons : α
  /-- The learning rate, as it is typed. -/
  lr : Scalar α
  /-- The initialisation that is chosen; the engine does not read it. -/
  wim : String
  /-- The kind of layer, of which there is one. -/
  layerType : String
  deriving DecidableEq

/-- The settings of a training; the form has no input for `learningRate`. -/
structure TrainingHyperparameters (α : Type) where
  /-- The name of the loss. -/
  lossFunction : String
  /-- The optimizer, which the engine does not read. -/
  optimizer : String
  /-- The number of epochs. -/
  epochNum : α
  /-- The mini-batch size. -/
  minibatchSize : α
  /-- Set before a model is loaded, and by nothing else. -/
  learningRate : Option α
  deriving DecidableEq

/-- The parameters of one layer. -/
structure LayerParameters (α : Type) where
  /-- A row for each unit. -/
  weights : Mat α
  /-- A number for each unit. -/
  biases : Vec α
  deriving DecidableEq

structure NormalizerParameters (α : Type) where
  /-- The mean of each feature. -/
  means : Vec α
  /-- Its standard deviation. -/
  stdevs : Vec α
  deriving DecidableEq

/-- **What `normalizerParameters` can be**: undefined, the `[]` it is before
the model is loaded, or what a training has sent. -/
inductive Normalizer (α : Type)
  | undefined
  | emptyArray
  | parameters (p : NormalizerParameters α)
  deriving DecidableEq

/-- **The fields that are saved and loaded.** The parameters are none when
they are undefined. -/
@[ext]
structure Fields (α : Type) where
  /-- The layers of the form. -/
  layers : List (Layer α)
  /-- The settings of the form. -/
  trainingHyperparameters : TrainingHyperparameters α
  /-- What a compile or a training has sent. -/
  parameters : Option (List (LayerParameters α))
  /-- What a training has sent of the features. -/
  normalizerParameters : Normalizer α
  /-- The number of columns of the features. -/
  inputSize : ℕ
  /-- Whether the engine has a network of these layers. -/
  isCompiled : Bool
  deriving DecidableEq

/-! ## The document -/

/-- A layer of the document; the learning rate is none when it is null. -/
structure StoredLayer (α : Type) where
  /-- The activation. -/
  activation : String
  /-- The number of units. -/
  numOfNeurons : α
  /-- The learning rate, as a number. -/
  lr : Option α
  /-- The initialisation. -/
  wim : String
  /-- The kind of layer. -/
  layerType : String
  deriving DecidableEq

/-- `trainingHyperparametersSchema`, which has no `learningRate`. -/
structure StoredHyperparameters (α : Type) where
  /-- The name of the loss. -/
  lossFunction : String
  /-- The optimizer. -/
  optimizer : String
  /-- The number of epochs. -/
  epochNum : α
  /-- The mini-batch size. -/
  minibatchSize : α
  deriving DecidableEq

/-- **A `ModelInfo` document** beside its `modelId`. -/
structure ModelInfo (α : Type) where
  /-- The layers. -/
  layers : List (StoredLayer α)
  /-- The settings of trainings. -/
  trainingHyperparameters : StoredHyperparameters α
  /-- The parameters of the layers. -/
  parameters : List (LayerParameters α)
  /-- The subdocument, if it was ever set. -/
  normalizerParameters : Option (NormalizerParameters α)
  /-- The number of features. -/
  inputSize : ℕ
  /-- Whether the layers were compiled. -/
  isCompiled : Bool
  deriving DecidableEq

variable {α : Type}

/-- `createDefaultModelInfo`. -/
def createDefaultModelInfo [Double α] : ModelInfo α where
  layers := [⟨"relu", 1, some 0.01, "XAVİER", "DL"⟩]
  trainingHyperparameters := ⟨"sigmoid cross entropy", "SGD", (400 : ℕ), (64 : ℕ)⟩
  parameters := [⟨[[0]], [0]⟩]
  normalizerParameters := none
  inputSize := 0
  isCompiled := false

/-- **What Mongoose casts**, where the schema says so: a text to a `Number`,
which is none when the cast fails and `some none` for null, and `[]` to the
subdocument `normalizerParameters`. -/
structure Casts (α : Type) where
  /-- Of a text to a `Number`. -/
  number : String → Option (Option α)
  /-- Of `[]` to the subdocument. -/
  emptyArray : Option (NormalizerParameters α)

variable {casts : Casts α}

/-! ## Saving -/

section Set

variable (casts)

/-- The cast of a learning rate. -/
def Scalar.cast : Scalar α → Option (Option α)
  | number x => some (some x)
  | text s => casts.number s
  | null => some none

/-- The cast to `layerSchema`. -/
def Layer.cast (layer : Layer α) : Option (StoredLayer α) := do
  let lr ← layer.lr.cast casts
  return ⟨layer.activation, layer.numOfNeurons, lr, layer.wim, layer.layerType⟩

/-- The cast to `trainingHyperparametersSchema`. -/
def TrainingHyperparameters.cast (t : TrainingHyperparameters α) : StoredHyperparameters α :=
  ⟨t.lossFunction, t.optimizer, t.epochNum, t.minibatchSize⟩

/-- What `$set` makes of the `normalizerParameters` of a document. -/
def Normalizer.set :
    Normalizer α → Option (Option (NormalizerParameters α) → Option (NormalizerParameters α))
  | undefined => some id
  | emptyArray => casts.emptyArray.map fun p _ => some p
  | parameters p => some fun _ => some p

/-- **What `$set` does with the fields of a save**; none when a cast fails. A
key that is undefined is not in the body. -/
def Fields.set (fields : Fields α) : Option (ModelInfo α → ModelInfo α) := do
  let layers ← fields.layers.mapM (Layer.cast casts)
  let normalizerParameters ← fields.normalizerParameters.set casts
  return fun info =>
    { layers
      trainingHyperparameters := fields.trainingHyperparameters.cast
      parameters := fields.parameters.getD info.parameters
      normalizerParameters := normalizerParameters info.normalizerParameters
      inputSize := fields.inputSize
      isCompiled := fields.isCompiled }

end Set

/-! ## Loading -/

/-- A learning rate of the document, as the page receives it. -/
def Scalar.ofStored : Option α → Scalar α
  | none => null
  | some x => number x

def Layer.ofStored (layer : StoredLayer α) : Layer α :=
  ⟨layer.activation, layer.numOfNeurons, .ofStored layer.lr, layer.wim, layer.layerType⟩

def TrainingHyperparameters.ofStored (t : StoredHyperparameters α) : TrainingHyperparameters α :=
  ⟨t.lossFunction, t.optimizer, t.epochNum, t.minibatchSize, none⟩

def Normalizer.ofStored : Option (NormalizerParameters α) → Normalizer α
  | none => undefined
  | some p => parameters p

/-- **What the load effect sets** from a document. -/
def ModelInfo.fields (info : ModelInfo α) : Fields α where
  layers := info.layers.map Layer.ofStored
  trainingHyperparameters := .ofStored info.trainingHyperparameters
  parameters := some info.parameters
  normalizerParameters := .ofStored info.normalizerParameters
  inputSize := info.inputSize
  isCompiled := info.isCompiled

/-! ## The way there and back -/

/-- A learning rate that is not the text of an input. -/
def Scalar.IsStored : Scalar α → Prop
  | text _ => False
  | _ => True

/-- What `normalizerParameters` is kept by a document that holds
`stored`. -/
def Normalizer.IsStored (stored : Option (NormalizerParameters α)) : Normalizer α → Prop
  | undefined => stored = none
  | emptyArray => False
  | parameters _ => True

/-- **Fields that a document keeps as they are.** -/
structure Storable (fields : Fields α) (info : ModelInfo α) : Prop where
  /-- The learning rates are numbers, or what null is shown as. -/
  lr : ∀ layer ∈ fields.layers, layer.lr.IsStored
  /-- There is no `learningRate`, which the schema would drop. -/
  learningRate : fields.trainingHyperparameters.learningRate = none
  /-- The parameters are defined. -/
  parameters : fields.parameters ≠ none
  /-- So are those of the normalizer, unless the document has none. -/
  normalizerParameters : fields.normalizerParameters.IsStored info.normalizerParameters

theorem Scalar.ofStored_iff {lr : Scalar α} {stored : Option α} (h : lr.cast casts = some stored) :
    ofStored stored = lr ↔ lr.IsStored := by
  cases lr with
  | number x =>
    obtain rfl := Option.some.inj h
    exact iff_of_true rfl trivial
  | text s => cases stored <;> exact iff_of_false (fun heq => by cases heq) id
  | null =>
    obtain rfl := Option.some.inj h
    exact iff_of_true rfl trivial

theorem Layer.ofStored_iff {layer : Layer α} {stored : StoredLayer α}
    (h : layer.cast casts = some stored) : ofStored stored = layer ↔ layer.lr.IsStored := by
  obtain ⟨lr, hlr, hstored⟩ := Option.bind_eq_some_iff.mp h
  obtain rfl := Option.some.inj hstored
  rw [← Scalar.ofStored_iff hlr]
  constructor
  · exact fun heq => congrArg Layer.lr heq
  · intro heq
    rw [ofStored, heq]

theorem map_ofStored_iff {layers : List (Layer α)} {stored : List (StoredLayer α)}
    (h : layers.mapM (Layer.cast casts) = some stored) :
    stored.map Layer.ofStored = layers ↔ ∀ layer ∈ layers, layer.lr.IsStored := by
  induction layers generalizing stored with
  | nil =>
    obtain rfl := Option.some.inj h
    exact iff_of_true rfl fun layer hlayer => absurd hlayer List.not_mem_nil
  | cons layer layers ih =>
    rw [List.mapM_cons] at h
    obtain ⟨first, hfirst, h⟩ := Option.bind_eq_some_iff.mp h
    obtain ⟨rest, hrest, h⟩ := Option.bind_eq_some_iff.mp h
    obtain rfl := Option.some.inj h
    rw [List.map_cons, List.cons_eq_cons, Layer.ofStored_iff hfirst, ih hrest,
      List.forall_mem_cons]

theorem TrainingHyperparameters.ofStored_cast_iff (t : TrainingHyperparameters α) :
    ofStored t.cast = t ↔ t.learningRate = none := by
  constructor
  · exact fun heq => (congrArg learningRate heq).symm
  · intro hnone
    rw [ofStored, ← hnone]
    rfl

theorem Normalizer.ofStored_iff {n : Normalizer α}
    {f : Option (NormalizerParameters α) → Option (NormalizerParameters α)}
    (h : n.set casts = some f) (stored : Option (NormalizerParameters α)) :
    ofStored (f stored) = n ↔ n.IsStored stored := by
  cases n with
  | undefined =>
    obtain rfl := Option.some.inj h
    cases stored with
    | none => exact iff_of_true rfl rfl
    | some p => exact iff_of_false (fun heq => by cases heq) (fun heq => by cases heq)
  | emptyArray =>
    obtain ⟨p, -, rfl⟩ := Option.map_eq_some_iff.mp h
    exact iff_of_false (fun heq => by cases heq) id
  | parameters p =>
    obtain rfl := Option.some.inj h
    exact iff_of_true rfl trivial

theorem Fields.set_eq_some {fields : Fields α} {f : ModelInfo α → ModelInfo α}
    (h : fields.set casts = some f) :
    ∃ layers normalizerParameters, fields.layers.mapM (Layer.cast casts) = some layers
      ∧ fields.normalizerParameters.set casts = some normalizerParameters
      ∧ f = fun info =>
        { layers
          trainingHyperparameters := fields.trainingHyperparameters.cast
          parameters := fields.parameters.getD info.parameters
          normalizerParameters := normalizerParameters info.normalizerParameters
          inputSize := fields.inputSize
          isCompiled := fields.isCompiled } := by
  obtain ⟨layers, hlayers, h⟩ := Option.bind_eq_some_iff.mp h
  obtain ⟨normalizerParameters, hnormalizer, h⟩ := Option.bind_eq_some_iff.mp h
  exact ⟨layers, normalizerParameters, hlayers, hnormalizer, (Option.some.inj h).symm⟩

theorem Layer.exists_cast {layer : Layer α} (h : layer.lr.IsStored) :
    ∃ stored, layer.cast casts = some stored := by
  cases hlr : layer.lr with
  | text s =>
    rw [hlr] at h
    exact h.elim
  | _ =>
    rw [Layer.cast, hlr]
    exact ⟨_, rfl⟩

theorem exists_mapM_cast {layers : List (Layer α)} (h : ∀ layer ∈ layers, layer.lr.IsStored) :
    ∃ stored, layers.mapM (Layer.cast casts) = some stored := by
  induction layers with
  | nil => exact ⟨[], rfl⟩
  | cons layer layers ih =>
    obtain ⟨first, hfirst⟩ : ∃ first, layer.cast casts = some first :=
      Layer.exists_cast (h layer List.mem_cons_self)
    obtain ⟨rest, hrest⟩ := ih fun l hl => h l (List.mem_cons_of_mem layer hl)
    rw [List.mapM_cons, hfirst, hrest]
    exact ⟨first :: rest, rfl⟩

/-- **A save of storable fields is not refused.** -/
theorem Storable.exists_set {fields : Fields α} {info : ModelInfo α} (h : Storable fields info) :
    ∃ f, fields.set casts = some f := by
  obtain ⟨layers, hlayers⟩ : ∃ layers, fields.layers.mapM (Layer.cast casts) = some layers :=
    exists_mapM_cast h.lr
  have hnormalizer : ∃ f, fields.normalizerParameters.set casts = some f := by
    have hstored := h.normalizerParameters
    cases hn : fields.normalizerParameters with
    | undefined => exact ⟨id, rfl⟩
    | emptyArray =>
      rw [hn] at hstored
      exact hstored.elim
    | parameters p => exact ⟨fun _ => some p, rfl⟩
  obtain ⟨f, hf⟩ := hnormalizer
  rw [Fields.set, hlayers, hf]
  exact ⟨_, rfl⟩

/-- **Loading what was saved restores it exactly when it is storable.** -/
theorem set_fields_iff {fields : Fields α} {f : ModelInfo α → ModelInfo α}
    (h : fields.set casts = some f) (info : ModelInfo α) :
    (f info).fields = fields ↔ Storable fields info := by
  obtain ⟨layers, normalizerParameters, hlayers, hnormalizer, rfl⟩ := Fields.set_eq_some h
  have hparameters : some (fields.parameters.getD info.parameters) = fields.parameters
      ↔ fields.parameters ≠ none := by
    cases fields.parameters with
    | none => exact iff_of_false (fun heq => by cases heq) fun hne => hne rfl
    | some parameters => exact iff_of_true rfl (Option.some_ne_none parameters)
  rw [Fields.ext_iff]
  simp only [ModelInfo.fields, and_true]
  rw [map_ofStored_iff hlayers, TrainingHyperparameters.ofStored_cast_iff, hparameters,
    Normalizer.ofStored_iff hnormalizer]
  exact ⟨fun ⟨hlr, hrate, hparams, hnorm⟩ => ⟨hlr, hrate, hparams, hnorm⟩,
    fun ⟨hlr, hrate, hparams, hnorm⟩ => ⟨hlr, hrate, hparams, hnorm⟩⟩

/-- Saving the same fields once more changes nothing. -/
theorem set_set {fields : Fields α} {f : ModelInfo α → ModelInfo α}
    (h : fields.set casts = some f) (info : ModelInfo α) : f (f info) = f info := by
  obtain ⟨layers, normalizerParameters, -, hnormalizer, rfl⟩ := Fields.set_eq_some h
  have hparameters : fields.parameters.getD (fields.parameters.getD info.parameters)
      = fields.parameters.getD info.parameters := by
    cases fields.parameters <;> rfl
  have hnorm : normalizerParameters (normalizerParameters info.normalizerParameters)
      = normalizerParameters info.normalizerParameters := by
    cases hn : fields.normalizerParameters with
    | undefined =>
      rw [hn] at hnormalizer
      obtain rfl := Option.some.inj hnormalizer
      rfl
    | emptyArray =>
      rw [hn] at hnormalizer
      obtain ⟨p, -, rfl⟩ := Option.map_eq_some_iff.mp hnormalizer
      rfl
    | parameters p =>
      rw [hn] at hnormalizer
      obtain rfl := Option.some.inj hnormalizer
      rfl
  dsimp only
  rw [hparameters, hnorm]

/-- **Whether fields are storable does not change by saving them.** -/
theorem storable_set_iff {fields : Fields α} {f : ModelInfo α → ModelInfo α}
    (h : fields.set casts = some f) (info : ModelInfo α) :
    Storable fields (f info) ↔ Storable fields info := by
  rw [← set_fields_iff h, set_set h, set_fields_iff h]

end ProcessPage
