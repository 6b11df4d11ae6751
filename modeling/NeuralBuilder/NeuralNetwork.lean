import NeuralBuilder.DenseLayer
import NeuralBuilder.Loss

/-!
# The network

A `NeuralNetwork` object holds its layers, its loss object, and the
`means` and `stdevs` that `normalize` appends to when it is called on
training data. The methods below thread the object, and the calls of
`rand()` to come, through in the order of the source; a method that
throws half way and whose object is looked at afterwards returns the
object next to the exception.

The `int`s of the source are integers here. The places where they come from a
request and may not fit are modelled: a sum of two sizes in `DenseLayer`, and the
numbers of a message as they are read. The column numbers of the mini-batches do
not overflow with at most `2 ^ 30` samples (`batchesFrom`).
-/

/-- The arguments of the constructor and of `setModelHyperParameters`. -/
structure HyperParameters (α : Type) where
  /-- The units of each layer, as `int`s that may be negative. -/
  layerSizes : List ℤ
  /-- The names of the activations, read at the positions of the sizes. -/
  layerActivations : List String
  /-- The name of the loss. -/
  lossFunc : String
  /-- The learning rates, read at the positions of the sizes. -/
  learningRates : List α
  /-- What dropout keeps of each layer; an empty list keeps everything. -/
  keyProbValues : List α
  /-- The weight decay of each layer; with an empty list there is none. -/
  lambdaValues : List α
  /-- The number of features. -/
  inputSize : ℤ

/-- An object of class `NeuralNetwork`. -/
structure NeuralNetwork (α : Type) where
  /-- The loss object. -/
  lossFunction : LossFunction
  /-- The layers, from the features on. -/
  layers : List (DenseLayer α)
  /-- The means that every training has appended. -/
  means : Vec α
  /-- The deviations, appended likewise. -/
  stdevs : Vec α

/-- The text sent at the end of an epoch, before its numbers are printed. -/
structure Progress (α : Type) where
  /-- The number of the epoch, from `1` on. -/
  epoch : ℕ
  /-- The mean cost of its mini-batches. -/
  cost : α
  /-- The mean rate of right predictions. -/
  accuracy : α

variable {α : Type} [Double α]

/-- The vector built from `row.begin() + startCol` and
`row.begin() + endCol`. -/
def Vec.slice {β : Type} (row : List β) (startCol endCol : ℤ) : Except Fault (List β) :=
  if 0 ≤ startCol ∧ startCol ≤ endCol ∧ endCol ≤ row.length then
    .ok ((row.drop startCol.toNat).take (endCol - startCol).toNat)
  else .error .outOfRange

namespace NeuralNetwork

/-! ## Building the layers -/

/-- The layer the loop over the layer sizes builds in its turn `i`. -/
def newLayer (noise : ℕ → Noise α) (args : HyperParameters α) (addr i : ℕ)
    (inputSize numOfNeurons : ℤ) : Except Fault (DenseLayer α) := do
  let activation ← Vec.at args.layerActivations i
  let lr ← Vec.at args.learningRates i
  let keepProb ← (if args.keyProbValues.length ≠ 0 then Vec.at args.keyProbValues i else .ok 1)
  let lambda ← (if args.lambdaValues.length ≠ 0 then Vec.at args.lambdaValues i else .ok 0)
  DenseLayer.new (noise addr) addr inputSize numOfNeurons lr activation keepProb lambda

/-- The loop over the layer sizes from its turn `i` on: the layers it
pushes, up to the turn that stops it if one does. The layer of turn `i`
lives at the `i`-th address from `next` on. -/
def pushLayers (noise : ℕ → Noise α) (args : HyperParameters α) (next : ℕ) :
    List ℤ → ℕ → ℤ → List (DenseLayer α) × Except Fault Unit
  | [], _, _ => ([], .ok ())
  | numOfNeurons :: sizes, i, inputSize =>
    match newLayer noise args (next + i) i inputSize numOfNeurons with
    | .error e => ([], .error e)
    | .ok layer =>
      let (layers, result) := pushLayers noise args next sizes (i + 1) numOfNeurons
      (layer :: layers, result)

/-- The constructor. An exception in it leaves no object behind. -/
def new (noise : ℕ → Noise α) (next : ℕ) (args : HyperParameters α) :
    Except Fault (NeuralNetwork α) := do
  let (layers, result) := pushLayers noise args next args.layerSizes 0 args.inputSize
  result
  let lossFunction ← LossFactory.getLossClass args.lossFunc
  return { lossFunction, layers, means := [], stdevs := [] }

/-- `setModelHyperParameters`: the old layers go first, and the object is
left as it stands where the method throws. -/
def setModelHyperParameters (nn : NeuralNetwork α) (noise : ℕ → Noise α) (next : ℕ)
    (args : HyperParameters α) : NeuralNetwork α × Except Fault Unit :=
  let (layers, result) := pushLayers noise args next args.layerSizes 0 args.inputSize
  let nn := { nn with layers }
  match result with
  | .error e => (nn, .error e)
  | .ok () =>
    match LossFactory.getLossClass args.lossFunc with
    | .error e => (nn, .error e)
    | .ok lossFunction => ({ nn with lossFunction }, .ok ())

/-! ## Through the layers and back -/

/-- The loop of `forwardPropagation`. -/
def forwardLayers : List (DenseLayer α) → (ℕ → α) → Mat α →
    Except Fault (Mat α × List (DenseLayer α) × (ℕ → α))
  | [], rand, predictions => .ok (predictions, [], rand)
  | layer :: layers, rand, predictions => do
    let (predictions, layer, rand) ← layer.forward rand predictions
    let (predictions, layers, rand) ← forwardLayers layers rand predictions
    return (predictions, layer :: layers, rand)

def forwardPropagation (nn : NeuralNetwork α) (rand : ℕ → α) (input : Mat α) :
    Except Fault (Mat α × NeuralNetwork α × (ℕ → α)) := do
  let (predictions, layers, rand) ← forwardLayers nn.layers rand input
  return (predictions, { nn with layers }, rand)

/-- The loop of `forwardPropagation` with `forwardOpt` in the place of
`forward`, the line that is commented out there. -/
def forwardLayersOpt : List (DenseLayer α) → Mat α → Except Fault (Mat α × List (DenseLayer α))
  | [], predictions => .ok (predictions, [])
  | layer :: layers, predictions => do
    let (predictions, layer) ← layer.forwardOpt predictions
    let (predictions, layers) ← forwardLayersOpt layers predictions
    return (predictions, layer :: layers)

/-- `forwardPropagation` with `forwardOpt`. Nothing calls `rand()`. -/
def forwardPropagationOpt (nn : NeuralNetwork α) (rand : ℕ → α) (input : Mat α) :
    Except Fault (Mat α × NeuralNetwork α × (ℕ → α)) := do
  let (predictions, layers) ← forwardLayersOpt nn.layers input
  return (predictions, { nn with layers }, rand)

/-- The loop of `backwardPropagation`, from the last layer to the first. -/
def backwardLayers : List (DenseLayer α) → Mat α →
    Except Fault (Mat α × List (DenseLayer α))
  | [], da => .ok (da, [])
  | layer :: layers, da => do
    let (da, layers) ← backwardLayers layers da
    let (da, layer) ← layer.backward da
    return (da, layer :: layers)

/-- `backwardPropagation`. Returns what it leaves in `da`. -/
def backwardPropagation (nn : NeuralNetwork α) (da : Mat α) :
    Except Fault (Mat α × NeuralNetwork α) := do
  let (da, layers) ← backwardLayers nn.layers da
  return (da, { nn with layers })

/-- The loop of `predict`. -/
def predictLayers : List (DenseLayer α) → Mat α → Except Fault (Mat α)
  | [], predictions => .ok predictions
  | layer :: layers, predictions => do predictLayers layers (← layer.predict predictions)

def predict (nn : NeuralNetwork α) (input : Mat α) : Except Fault (Mat α) :=
  predictLayers nn.layers input

/-! ## Normalisation and mini-batches -/

/-- The mean of a feature over a batch of `m` samples. -/
def mean (m : ℕ) (feature : Vec α) : α :=
  feature.foldl (· + ·) 0 / (m : α)

/-- The standard deviation of a feature over a batch of `m` samples. -/
def stdev (m : ℕ) (feature : Vec α) : α :=
  Double.sqrt (feature.foldl (fun s val =>
    s + (val - mean m feature) * (val - mean m feature)) 0 / (m : α))

/-- `val` normalised; a feature that does not vary is centred only. -/
def rescale (mean stdev val : α) : α :=
  if Double.eq stdev 0 then val - mean else (val - mean) / stdev

/-- `normalize(input, true)`: every feature is normalised with its own
statistics, which are appended to those of the object. -/
def normalizeTraining (nn : NeuralNetwork α) (input : Mat α) :
    Except Fault (Mat α × NeuralNetwork α) := do
  let m := (← Vec.at input 0).length
  return (input.map fun feature =>
      feature.map (rescale (mean m feature) (stdev m feature)),
    { nn with
      means := nn.means ++ input.map (mean m)
      stdevs := nn.stdevs ++ input.map (stdev m) })

/-- `normalize(input, false)`: feature `i` is normalised with entry `i` of
the statistics of the object. -/
def normalizeWith (nn : NeuralNetwork α) (input : Mat α) : Except Fault (Mat α) :=
  Checked.fill input.length fun i => do
    let feature ← Vec.at input i
    Checked.fill feature.length fun j => do
      return rescale (← Vec.at nn.means i) (← Vec.at nn.stdevs i) (← Vec.at feature j)

/-- The slice of every row. -/
def slices (A : Mat α) (startCol endCol : ℤ) : Except Fault (Mat α) :=
  Checked.fill A.length fun i => do Vec.slice (← Vec.at A i) startCol endCol

/-- The loop of `miniBatchGenerator`, and the remaining part of the batch
after it. A turn is taken where `endCol` is below `m`, and then so is the size
that is added to it; with at most `2 ^ 30` samples their sum fits in an `int`, and
it is only such data sets that this loop is the one of the source for. -/
def batchesFrom (inputLayer targets : Mat α) (m miniBatchSize : ℤ) :
    ℕ → ℤ → ℤ → Except Fault (List (Mat α × Mat α))
  | 0, _, _ => .error .outOfFuel
  | fuel + 1, startCol, endCol =>
    if endCol < m then do
      let miniBatchPrediction ← slices inputLayer startCol endCol
      let miniBatchTarget ← slices targets startCol endCol
      let batches ← batchesFrom inputLayer targets m miniBatchSize fuel endCol
        (endCol + miniBatchSize)
      return (miniBatchPrediction, miniBatchTarget) :: batches
    else do
      let miniBatchPrediction ← slices inputLayer startCol m
      let miniBatchTarget ← slices targets startCol m
      return [(miniBatchPrediction, miniBatchTarget)]

/-- `miniBatchGenerator`, for at most `fuel` turns of its loop: the batches
of the input, each with its targets. -/
def miniBatchGenerator (fuel : ℕ) (targets inputLayer : Mat α) (miniBatchSize : ℤ) :
    Except Fault (List (Mat α × Mat α)) := do
  let m := (← Vec.at inputLayer 0).length
  batchesFrom inputLayer targets m miniBatchSize fuel 0 miniBatchSize

/-! ## Training -/

/-- A training call under way: the sums of the epoch, the object, and the
calls of `rand()` to come. -/
structure Training (α : Type) where
  /-- The sum of the rates of the epoch. -/
  accuracyRate : α
  /-- The sum of its costs. -/
  costValue : α
  /-- The object, with its layers as the last batch left them. -/
  nn : NeuralNetwork α
  /-- The calls of `rand()` to come. -/
  rand : ℕ → α

/-- The body of the loop over the mini-batches. -/
def trainBatch (s : Training α) (batch : Mat α × Mat α) : Except Fault (Training α) := do
  let _miniBatchSize := (← Vec.at batch.2 0).length
  let (predictions, nn, rand) ← s.nn.forwardPropagation s.rand batch.1
  let accuracy ← ModelEvaluator.accuracy predictions batch.2 nn.lossFunction
  let cost ← nn.lossFunction.calculateLoss predictions batch.2
  let da ← nn.lossFunction.derivative predictions batch.2
  let (_, nn) ← nn.backwardPropagation da
  return { accuracyRate := s.accuracyRate + accuracy, costValue := s.costValue + cost, nn, rand }

/-- An epoch. -/
def trainEpoch (batches : List (Mat α × Mat α)) (s : Training α) :
    Except Fault (Training α) := do
  let s ← batches.foldlM trainBatch { s with accuracyRate := 0, costValue := 0 }
  return { s with
    accuracyRate := s.accuracyRate / (batches.length : α)
    costValue := s.costValue / (batches.length : α) }

/-- The loop over the epochs, with the texts sent on the connection where
there is one. -/
def trainEpochs {Conn : Type} (ws_conn : Option Conn) (batches : List (Mat α × Mat α))
    (epochNum : ℕ) (s : Training α) : Except Fault (Training α × List (Conn × Progress α)) :=
  Checked.loop epochNum (fun s epoch => do
    let t ← trainEpoch batches s.1
    return (t, s.2 ++ ws_conn.toList.map (·, ⟨epoch + 1, t.costValue, t.accuracyRate⟩))) (s, [])

/-- `train`. Returns the accuracy of the last epoch and the texts sent. -/
def train {Conn : Type} (fuel : ℕ) (nn : NeuralNetwork α) (rand : ℕ → α)
    (inputLayer targets : Mat α) (epochNum miniBatchSize : ℤ) (ws_conn : Option Conn) :
    Except Fault (α × NeuralNetwork α × (ℕ → α) × List (Conn × Progress α)) := do
  let (inputNormalized, nn) ← nn.normalizeTraining inputLayer
  let batches ← miniBatchGenerator fuel targets inputNormalized miniBatchSize
  let (s, sent) ← trainEpochs ws_conn batches epochNum.toNat
    { accuracyRate := 0, costValue := 0, nn, rand }
  return (s.accuracyRate, s.nn, s.rand, sent)

/-- The body of the loop of `trainVal` over the mini-batches. Carries the
cost on the validation set, once there is one. -/
def trainValBatch (predictionsVal targetsVal : Mat α)
    (s : Option α × NeuralNetwork α × (ℕ → α)) (batch : Mat α × Mat α) :
    Except Fault (Option α × NeuralNetwork α × (ℕ → α)) := do
  let (predictionsTrain, nn, rand) ← s.2.1.forwardPropagation s.2.2 batch.1
  let _accuracyRateTrain ← ModelEvaluator.accuracy predictionsTrain batch.2 nn.lossFunction
  let _accuracyRateVal ← ModelEvaluator.accuracy predictionsVal targetsVal nn.lossFunction
  let _costTrain ← nn.lossFunction.calculateLoss predictionsTrain batch.2
  let costVal ← nn.lossFunction.calculateLoss predictionsVal targetsVal
  let da ← nn.lossFunction.derivative predictionsTrain batch.2
  let (_, nn) ← nn.backwardPropagation da
  return (some costVal, nn, rand)

/-- `trainVal`. Returns the last cost on the validation set, which is read
before it is written where no epoch was run. -/
def trainVal (fuel : ℕ) (nn : NeuralNetwork α) (rand : ℕ → α)
    (inputLayer targets inputsVal targetsVal : Mat α) (epochNum miniBatchSize : ℤ) :
    Except Fault (α × NeuralNetwork α × (ℕ → α)) := do
  let (inputTrainCopy, nn) ← nn.normalizeTraining inputLayer
  let inputValCopy ← nn.normalizeWith inputsVal
  let batches ← miniBatchGenerator fuel targets inputTrainCopy miniBatchSize
  let _numOfClasses := (← Vec.at nn.layers (nn.layers.length - 1)).w.length
  let _samplesVal := (← Vec.at targetsVal 0).length
  let s ← Checked.loop epochNum.toNat (fun s _ => do
    let predictionsVal ← s.2.1.predict inputValCopy
    batches.foldlM (trainValBatch predictionsVal targetsVal) s) (none, nn, rand)
  match s.1 with
  | none => .error .uninitialised
  | some costVal => return (costVal, s.2)

end NeuralNetwork
