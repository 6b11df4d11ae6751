import NeuralBuilder.Activation

/-!
# The dense layer

A `DenseLayer` object holds its parameters, the caches `z`, `a` and
`aPrev` that `forward` leaves for `backward`, and the dropout mask of the
last forward pass. `backward` reads the caches, computes the derivatives
of the weights and of the input, and overwrites the weights before it
returns.

Three sources of randomness are outside the engine: the two distributions
the initialisers draw from, which every layer seeds anew, and `rand()`,
which all layers share. The first are a `Noise`, the second is the stream
of the values `rand() / RAND_MAX` still to come.

Outside the engine is the allocator as well. The constructor of a layer
asks it for vectors whose sizes come from the request, so a request of a
few bytes can ask for more memory than there is; the `Noise` of a layer
also says what the allocator answers. Objects of a fixed size are taken to
find memory.

Objects live at addresses. `addr` stands for the address of a layer, a
fresh one for each `new`, so that "the same layer object" can be said.
-/

/-- **What the constructor of a layer meets with from outside**: what the
distributions of its initialiser return for the entry in row `i` and
column `j`, and what the allocator answers. The answer for a shape is the
one for all vectors of that shape the constructor asks for: whichever of
them finds no memory, the constructor ends in the same exception. -/
structure Noise (α : Type) where
  /-- `std::normal_distribution<>(mean, stddev)`. -/
  normal : α → α → ℕ → ℕ → α
  /-- `std::uniform_real_distribution<>(lo, hi)`. -/
  uniform : α → α → ℕ → ℕ → α
  /-- Whether there is memory for a vector of so many numbers. -/
  allocates : ℕ → Bool
  /-- Whether there is memory for rows of so many numbers, and so many rows. -/
  allocatesRows : ℕ → ℕ → Bool

/-- An object of class `DenseLayer`. -/
structure DenseLayer (α : Type) where
  /-- The address of the object. -/
  addr : ℕ
  /-- The numbers it takes of each sample. -/
  inputSize : ℕ
  /-- The numbers it returns of each: its units. -/
  outputSize : ℕ
  /-- How far an update goes. -/
  learningRate : α
  /-- The weight decay; with `0` there is none. -/
  lambda : α
  /-- The share of units that dropout keeps; with `1` it drops none. -/
  keepProb : α
  /-- Which units the last forward pass kept, as `0` and `1`. -/
  dropoutMask : Mat α
  /-- The weights, a row for each unit. -/
  w : Mat α
  /-- The biases, one for each unit. -/
  b : Vec α
  /-- The derivatives of the weights at the last backward pass. -/
  dw : Mat α
  /-- Those of the biases. -/
  db : Vec α
  /-- What the last forward pass put into the activation. -/
  z : Mat α
  /-- What it returned. -/
  a : Mat α
  /-- What it was given. -/
  aPrev : Mat α
  /-- The activation object. -/
  activationFunction : ActivationFunction
  /-- The name it was asked for by. -/
  activationFunc : String
  deriving DecidableEq

variable {α : Type} [Double α]

/-- The size of a vector to be built: a negative `int` becomes a size no
vector can have, and for any other size there may be no memory. -/
def vectorSize (allocates : ℕ → Bool) (n : ℤ) : Except Fault ℕ :=
  if n < 0 then .error .lengthError
  else if allocates n.toNat then .ok n.toNat
  else .error .badAlloc

section vectorSize

variable {allocates : ℕ → Bool}

/-- Sizes convert to themselves, where there is memory. -/
theorem vectorSize_natCast {n : ℕ} (h : allocates n) :
    vectorSize allocates (n : ℤ) = .ok n := by
  rw [vectorSize, if_neg (by omega), Int.toNat_natCast, if_pos h]

theorem vectorSize_neg {n : ℤ} (h : n < 0) : vectorSize allocates n = .error .lengthError :=
  if_pos h

theorem vectorSize_badAlloc {n : ℕ} (h : ¬ allocates n) :
    vectorSize allocates (n : ℤ) = .error .badAlloc := by
  rw [vectorSize, if_neg (by omega), Int.toNat_natCast, if_neg h]

end vectorSize

/-- The sum of two `int`s. -/
def intSum (x y : ℤ) : Except Fault ℤ :=
  if -2 ^ 31 ≤ x + y ∧ x + y < 2 ^ 31 then .ok (x + y) else .error .overflow

/-- `v.resize(n, x)`. -/
def resize {β : Type} (v : List β) (n : ℕ) (x : β) : List β :=
  v.take n ++ List.replicate (n - v.length) x

namespace Initializer

def he (noise : Noise α) (inputSize outputSize : ℤ) : Except Fault (Mat α) := do
  let cols ← vectorSize noise.allocates inputSize
  let rows ← vectorSize (noise.allocatesRows cols) outputSize
  let stddev := Double.sqrt (2.0 / (cols : α))
  return Grid.tabulate rows cols (noise.normal 0 stddev)

/-- The limit is computed first, from a sum of `int`s. -/
def xavier (noise : Noise α) (inputSize outputSize : ℤ) : Except Fault (Mat α) := do
  let _sum ← intSum inputSize outputSize
  let cols ← vectorSize noise.allocates inputSize
  let rows ← vectorSize (noise.allocatesRows cols) outputSize
  let limit := Double.sqrt (6.0 / ((cols + rows : ℕ) : α))
  return Grid.tabulate rows cols (noise.uniform (-limit) limit)

def xavierUniform (noise : Noise α) (inputSize outputSize : ℤ) : Except Fault (Mat α) := do
  let cols ← vectorSize noise.allocates inputSize
  let rows ← vectorSize (noise.allocatesRows cols) outputSize
  let limit := Double.sqrt (3.0 / (cols : α))
  return Grid.tabulate rows cols (noise.uniform (-limit) limit)

/-- `initialize`. -/
def initializeWeights (noise : Noise α) (methodName : String) (inputSize outputSize : ℤ) :
    Except Fault (Mat α) :=
  if methodName = "he" then he noise inputSize outputSize
  else if methodName = "xavier" then xavier noise inputSize outputSize
  else if methodName = "xavier uniform" then xavierUniform noise inputSize outputSize
  else .error (.invalidArgument ("Unknown initialization method: " ++ methodName))

end Initializer

/-- `L2Regularizer::apply`. -/
def L2Regularizer.apply (weights : Mat α) (lambda : α) (m : ℕ) : Mat α :=
  weights.map (List.map fun weight => weight - lambda / (m : α) * weight)

/-- `L2Regularizer::weightSquareSum`. -/
def L2Regularizer.weightSquareSum (weights : Mat α) : α :=
  weights.foldl (fun sumSquare row =>
    row.foldl (fun sumSquare weight => sumSquare + weight * weight) sumSquare) 0

/-- `L2Regularizer::calculateLayerPenalty`. -/
def L2Regularizer.calculateLayerPenalty (weights : Mat α) (lambda : α) (m : ℕ) : α :=
  weightSquareSum weights * lambda / ((2 * m : ℕ) : α)

namespace Dropout

/-- The double loop of the dropout methods, which rewrites in place the
first `col` entries of every row. -/
def rewriteRows (A : Mat α) (col : ℕ) (f : ℕ → ℕ → α → Except Fault α) :
    Except Fault (Mat α) :=
  Checked.fill A.length fun i => do
    let row ← Vec.at A i
    let rewritten ← Checked.fill col fun j => do f i j (← Vec.at row j)
    return rewritten ++ row.drop col

/-- The gate of an entry: the call of `rand()` made for it is the one its
position has in the order of the loops. -/
def gate (rand : ℕ → α) (keepProb : α) (col i j : ℕ) : α :=
  Double.ofBool (Double.lt (rand (i * col + j)) keepProb)

/-- Returns the mask and the masked matrix, with the stream after the
calls of `rand()`. -/
def applyForward (rand : ℕ → α) (A : Mat α) (keepProb : α) :
    Except Fault (Mat α × Mat α × (ℕ → α)) := do
  let col := (← Vec.at A 0).length
  let dropout := Grid.tabulate A.length col (gate rand keepProb col)
  let masked ← rewriteRows A col fun i j x => do
    return x * gate rand keepProb col i j / keepProb
  return (dropout, masked, fun k => rand (A.length * col + k))

def applyBackward (dA dropout : Mat α) (keepProb : α) : Except Fault (Mat α) := do
  let col := (← Vec.at dA 0).length
  rewriteRows dA col fun i j x => do
    return x * (← Mat.at dropout i j) / keepProb

end Dropout

namespace DenseLayer

/-- `new DenseLayer(...)` at address `addr`, with the initialiser left to
its default. -/
def new (noise : Noise α) (addr : ℕ) (inputSize outputSize : ℤ) (learningRate : α)
    (activationFunc : String) (keepProb lambda : α) : Except Fault (DenseLayer α) := do
  let weightInitializeType := if activationFunc = "relu" then "he" else "xavier"
  let w ← Initializer.initializeWeights noise weightInitializeType inputSize outputSize
  let outputs ← vectorSize noise.allocates outputSize
  let inputs ← vectorSize noise.allocates inputSize
  let rows ← vectorSize (noise.allocatesRows inputs) outputSize
  let activationFunction ← ActivationFactory.getActivationClass activationFunc
  return {
    addr, inputSize := inputs, outputSize := outputs, learningRate, lambda, keepProb,
    dropoutMask := [], w, b := resize [] outputs 0,
    dw := resize [] rows (List.replicate inputs 0), db := resize [] outputs 0,
    z := [], a := [], aPrev := [], activationFunction, activationFunc }

/-- `forward`. The layer is returned with its caches filled, `rand` being
the calls of `rand()` to come. -/
def forward (layer : DenseLayer α) (rand : ℕ → α) (input : Mat α) :
    Except Fault (Mat α × DenseLayer α × (ℕ → α)) := do
  let _m := (← Vec.at input 0).length
  let z ← MathUtils.elementWiseSumRows (← MathUtils.dotProduct layer.w input) layer.b
  let a ← layer.activationFunction.activateMat z
  if Double.lt layer.keepProb 1 then do
    let (dropoutMask, a, rand) ← Dropout.applyForward rand a layer.keepProb
    return (a, { layer with z, a, dropoutMask, aPrev := input }, rand)
  else
    return (a, { layer with z, a, aPrev := input }, rand)

/-- `predict`: one fused loop, through the scalar overload of the
activation. -/
def predict (layer : DenseLayer α) (input : Mat α) : Except Fault (Mat α) := do
  let m := (← Vec.at input 0).length
  Checked.fill layer.outputSize fun i => Checked.fill m fun j => do
    let result ← Checked.loop layer.inputSize (fun result k => do
      return result + (← Mat.at layer.w i k) * (← Mat.at input k j)) 0
    return layer.activationFunction.activate (result + (← Vec.at layer.b i))

/-- `forwardOpt`: one fused loop that fills `z` and `a`. It does not drop
units. -/
def forwardOpt (layer : DenseLayer α) (input : Mat α) :
    Except Fault (Mat α × DenseLayer α) := do
  let m := (← Vec.at input 0).length
  let za ← Checked.fill layer.outputSize fun i => Checked.fill m fun j => do
    let val ← Checked.loop layer.inputSize (fun val k => do
      return val + (← Mat.at layer.w i k) * (← Mat.at input k j)) 0
    let z := val + (← Vec.at layer.b i)
    return (z, layer.activationFunction.activate z)
  let z := za.map (List.map Prod.fst)
  let a := za.map (List.map Prod.snd)
  return (a, { layer with z, a, aPrev := input })

/-- `backward`. Returns the derivatives with respect to the input, and the
layer with its weights updated. -/
def backward (layer : DenseLayer α) (da : Mat α) : Except Fault (Mat α × DenseLayer α) := do
  let m := (← Vec.at da 0).length
  let da ← (if Double.lt layer.keepProb 1 then
      Dropout.applyBackward da layer.dropoutMask layer.keepProb
    else .ok da)
  let dz ← (if layer.activationFunc = "softmax" then .ok da
    else do MathUtils.elementWiseProduct (← layer.activationFunction.derivativeMat layer.a) da)
  let dw ← MathUtils.elementWiseDivideNum
    (← MathUtils.dotProduct dz (← MathUtils.transpose layer.aPrev)) (m : α)
  -- the decayed weights are the ones `daPrev` is computed from
  let w := if Double.eq layer.lambda 0 then layer.w
    else L2Regularizer.apply layer.w layer.lambda m
  let db ← MathUtils.elementWiseDivideVecNum
    (← MathUtils.dotProductVec dz (List.replicate m 1)) (m : α)
  let daPrev ← MathUtils.dotProduct (← MathUtils.transpose w) dz
  let w ← MathUtils.elementWiseSubtract w
    (← MathUtils.elementWiseProductNum dw layer.learningRate)
  let b ← MathUtils.elementWiseSubtractVec layer.b
    (← MathUtils.elementWiseProductVecNum db layer.learningRate)
  return (daPrev, { layer with
    w, b,
    dw := resize dw layer.outputSize (List.replicate layer.inputSize 0),
    db := resize db layer.outputSize 0 })

/-! ### `backward` in two halves -/

/-- The derivatives `dz` with respect to the pre-activations, as `backward`
computes them from `da`. -/
def backwardDz (layer : DenseLayer α) (da : Mat α) : Except Fault (Mat α) := do
  let da ← (if Double.lt layer.keepProb 1 then
      Dropout.applyBackward da layer.dropoutMask layer.keepProb
    else .ok da)
  if layer.activationFunc = "softmax" then .ok da
  else do MathUtils.elementWiseProduct (← layer.activationFunction.derivativeMat layer.a) da

/-- What `backward` does with `dz`, on a batch of `m` samples. -/
def backwardFromDz (layer : DenseLayer α) (m : ℕ) (dz : Mat α) :
    Except Fault (Mat α × DenseLayer α) := do
  let dw ← MathUtils.elementWiseDivideNum
    (← MathUtils.dotProduct dz (← MathUtils.transpose layer.aPrev)) (m : α)
  let w := if Double.eq layer.lambda 0 then layer.w
    else L2Regularizer.apply layer.w layer.lambda m
  let db ← MathUtils.elementWiseDivideVecNum
    (← MathUtils.dotProductVec dz (List.replicate m 1)) (m : α)
  let daPrev ← MathUtils.dotProduct (← MathUtils.transpose w) dz
  let w ← MathUtils.elementWiseSubtract w
    (← MathUtils.elementWiseProductNum dw layer.learningRate)
  let b ← MathUtils.elementWiseSubtractVec layer.b
    (← MathUtils.elementWiseProductVecNum db layer.learningRate)
  return (daPrev, { layer with
    w, b,
    dw := resize dw layer.outputSize (List.replicate layer.inputSize 0),
    db := resize db layer.outputSize 0 })

/-- **`backward` is its two halves in turn.** -/
theorem backward_eq (layer : DenseLayer α) (da : Mat α) : layer.backward da = (do
    let m := (← Vec.at da 0).length
    let dz ← layer.backwardDz da
    layer.backwardFromDz m dz) := by
  unfold backward backwardDz backwardFromDz
  simp only [bind_assoc]

/-- `backward` only writes the parameters and their derivatives. -/
theorem backward_writes {layer layer' : DenseLayer α} {da da' : Mat α}
    (h : layer.backward da = .ok (da', layer')) :
    ∃ w b dw db, layer' = { layer with w, b, dw, db } := by
  simp only [backward, Checked.bind_eq_ok_iff] at h
  obtain ⟨_, -, _, -, _, -, _, -, _, -, _, -, _, -, _, -, _, -, _, -, _, -, _, -, _, -, _, -,
    hreturn⟩ := h
  obtain ⟨-, rfl⟩ := Prod.mk.inj (Except.ok.inj hreturn)
  exact ⟨_, _, _, _, rfl⟩

end DenseLayer

/-! ## On rectangular operands -/

namespace Dropout

variable {r c : ℕ}

omit [Double α] in
theorem rewriteRows_ofFn (A : Fin r → Fin c → α) {f : ℕ → ℕ → α → Except Fault α}
    {g : Fin r → Fin c → α} (h : ∀ (i : Fin r) (j : Fin c), f i j (A i j) = .ok (g i j)) :
    rewriteRows (Grid.ofFn A) c f = .ok (Grid.ofFn g) := by
  rw [rewriteRows, Grid.length_ofFn]
  refine Checked.fill_ok fun i => ?_
  rw [Vec.at_row_ofFn, Checked.ok_bind, Checked.fill_ok (g := g i), Checked.ok_bind,
    List.drop_of_length_le (by simp), List.append_nil]
  · rfl
  · intro j
    rw [Vec.at_ofFn, Checked.ok_bind, h]

theorem applyForward_ofFn (rand : ℕ → α) (A : Fin r → Fin c → α) (keepProb : α)
    (hr : 0 < r) :
    applyForward rand (Grid.ofFn A) keepProb
      = .ok (Grid.ofFn fun (i : Fin r) (j : Fin c) => gate rand keepProb c i j,
          Grid.ofFn fun i j => A i j * gate rand keepProb c i j / keepProb,
          fun q => rand (r * c + q)) := by
  rw [applyForward, Vec.at_row_zero A hr, Checked.ok_bind]
  simp only [List.length_ofFn, Grid.length_ofFn]
  rw [rewriteRows_ofFn A (g := fun i j => A i j * gate rand keepProb c i j / keepProb)
    (fun _ _ => rfl), Checked.ok_bind]
  rfl

theorem applyBackward_ofFn (dA dropout : Fin r → Fin c → α) (keepProb : α) (hr : 0 < r) :
    applyBackward (Grid.ofFn dA) (Grid.ofFn dropout) keepProb
      = .ok (Grid.ofFn fun i j => dA i j * dropout i j / keepProb) := by
  rw [applyBackward, Vec.at_row_zero dA hr, Checked.ok_bind]
  simp only [List.length_ofFn]
  exact rewriteRows_ofFn dA fun i j => by rw [Mat.at_ofFn, Checked.ok_bind]; rfl

end Dropout
