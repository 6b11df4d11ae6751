import NeuralBuilder.Compile
import NeuralBuilder.Library.Runs
import NeuralBuilder.Training

/-!
# The training message of the web socket

The handler of `/ws` messages reads two matrices, one sample per row, and
two numbers from the message, transposes the matrices, and starts a thread
that calls `train`. It checks that the rows of each matrix have one length
and nothing else. `accepted_digestible_iff` says which of the messages it
accepts the training call can digest, for every network that can be reached
through construction and `/compile`.

The networks are those that any number of requests leave, requests that end in
an exception half way included: their layers may be fewer than was asked for, or
none, but those there are fit each other (`exists_linked`). That a message is
digestible is about every run of `train` on it, with any draws and any number of
turns. The proof goes through the call once for each thing that can be wrong, in
the order in which the source would come across it.
-/

open Runs NeuralNetwork

variable {α : Type} [Double α]

namespace RouteHandlers

/-! ## Reading a message -/

/-- **What is read from a message**: the two matrices as they are sent and
as they are handed to `train`. -/
structure TrainingRequest (α : Type) where
  /-- The features as they are sent, a row for each sample. -/
  samples : Mat α
  /-- The targets as they are sent. -/
  sampleTargets : Mat α
  /-- The features transposed. -/
  features : Mat α
  /-- The targets transposed. -/
  target : Mat α
  /-- The number of epochs, narrowed to an `int`. -/
  epochs : ℤ
  /-- The mini-batch size, narrowed likewise. -/
  batchSize : ℤ

/-- The two nested loops that read a matrix. -/
def readRows (v : RValue α) : Except Fault (Mat α) := do
  (← v.elements).mapM fun row => do (← row.elements).mapM RValue.d

/-- The request read from a message. Where this throws, the handler answers
`Error: Malformed training data.` -/
def readTraining (message : RValue α) : Except Fault (TrainingRequest α) := do
  let samples ← readRows (← message.field "features")
  let sampleTargets ← readRows (← message.field "target")
  let features ← MathUtils.transpose samples
  let target ← MathUtils.transpose sampleTargets
  let epochs ← (← message.field "epochNum").i
  let batchSize ← (← message.field "minibatchSize").i
  return {
    samples, sampleTargets, features, target
    epochs := epochs.narrow
    batchSize := batchSize.narrow }

omit [Double α] in
/-- **What the handler checks**: the rows of each matrix have one length, and
what is handed to `train` is the transposed matrices. -/
theorem readTraining_transposes {message : RValue α} {request : TrainingRequest α}
    (h : readTraining message = .ok request) :
    MathUtils.transpose request.samples = .ok request.features
      ∧ MathUtils.transpose request.sampleTargets = .ok request.target := by
  simp only [readTraining, Checked.bind_eq_ok_iff] at h
  obtain ⟨_, -, samples, -, _, -, sampleTargets, -, features, hfeatures, target, htarget, _, -,
    _, -, _, -, _, -, hreturn⟩ := h
  obtain rfl := Except.ok.inj hreturn
  exact ⟨hfeatures, htarget⟩

omit [Double α] in
/-- What is read from a message, field by field. -/
theorem readTraining_of_fields {message features target epochs batchSize : RValue α}
    {samples sampleTargets X T : Mat α}
    (hfields : message.field "features" = .ok features ∧ message.field "target" = .ok target
      ∧ message.field "epochNum" = .ok epochs ∧ message.field "minibatchSize" = .ok batchSize)
    (hsamples : readRows features = .ok samples) (htargets : readRows target = .ok sampleTargets)
    (hX : MathUtils.transpose samples = .ok X) (hT : MathUtils.transpose sampleTargets = .ok T) :
    readTraining message = (do
      let epochs ← epochs.i
      let batchSize ← batchSize.i
      return ⟨samples, sampleTargets, X, T, epochs.narrow, batchSize.narrow⟩) := by
  obtain ⟨h₁, h₂, h₃, h₄⟩ := hfields
  rw [readTraining, h₁, Checked.ok_bind, hsamples, Checked.ok_bind, h₂, Checked.ok_bind, htargets,
    Checked.ok_bind, hX, Checked.ok_bind, hT, Checked.ok_bind, h₃, h₄]
  rfl

omit [Double α] in
/-- A matrix that could be transposed is rectangular. -/
theorem exists_ofFn_of_transpose {A B : Mat α} (h : MathUtils.transpose A = .ok B) (hA : A ≠ []) :
    ∃ (m n : ℕ) (X : Fin n → Fin m → α), 0 < m ∧ A = Grid.ofFn (fun j i => X i j)
      ∧ B = Grid.ofFn X := by
  obtain ⟨front, rest, rfl⟩ := List.exists_cons_of_ne_nil hA
  have hrows : ∀ row ∈ front :: rest, row.length = front.length := by
    intro row hrow
    rcases List.mem_cons.mp hrow with rfl | hrow
    · rfl
    · by_contra hne
      have hany : rest.any (fun row => row.length != front.length) = true :=
        List.any_eq_true.mpr ⟨row, hrow, by simpa using hne⟩
      rw [MathUtils.transpose, if_pos hany] at h
      cases h
  obtain ⟨Y, hY⟩ := Grid.exists_ofFn (⟨rfl, hrows⟩ : Grid.IsRect _ front.length (front :: rest))
  rw [hY, MathUtils.transpose_ofFn Y (by simp)] at h
  exact ⟨_, _, fun i j => Y j i, by simp, hY, (Except.ok.inj h).symm⟩

/-! ## The networks of the server -/

/-- The network the server starts with. -/
def initialArgs : HyperParameters α where
  layerSizes := []
  layerActivations := []
  lossFunc := "categorical cross entropy"
  learningRates := []
  keyProbValues := []
  lambdaValues := []
  inputSize := 0

def initialNetwork : NeuralNetwork α := ⟨.categoricalCrossEntropy, [], [], []⟩

example (noise : ℕ → Noise α) (next : ℕ) :
    NeuralNetwork.new noise next initialArgs = .ok initialNetwork := rfl

/-- **A `/compile` request that leaves the network usable**, whether it
succeeds or ends in an exception. -/
def CompileStep (nn : NeuralNetwork α) (body : RValue α) (nn' : NeuralNetwork α) : Prop :=
  ∃ noise responds next result, compile noise responds next nn body = (nn', result)
    ∧ ∀ e, result = .error e → e.isException

/-- **The layers take what the one before returns**, the first one `n`
features; a layer may have no unit. -/
def Linked : ℕ → List (DenseLayer α) → Prop
  | _, [] => True
  | n, layer :: layers => layer.inputSize = n
      ∧ Grid.IsRect layer.outputSize layer.inputSize layer.w ∧ layer.b.length = layer.outputSize
      ∧ ActivationFactory.getActivationClass layer.activationFunc = .ok layer.activationFunction
      ∧ Linked layer.outputSize layers

/-- The layers a loop pushes are linked, also where it stops half way. -/
theorem pushLayers_linked (noise : ℕ → Noise α) (args : HyperParameters α) (next : ℕ)
    (sizes : List ℤ) (i : ℕ) (inputSize : ℤ) :
    Linked inputSize.toNat (pushLayers noise args next sizes i inputSize).1 := by
  induction sizes generalizing i inputSize with
  | nil => trivial
  | cons size sizes ih =>
    rw [pushLayers]
    by_cases hturn : TurnBuilds (noise (next + i)) args i inputSize size
    · obtain ⟨layer, hrun, hlayer⟩ := newLayer_ok noise (next + i) hturn
      rw [hrun]
      have hin := hlayer.inputSize
      have hout := hlayer.outputSize
      refine ⟨by omega, by rw [hlayer.w]; exact Grid.isRect_ofFn _, by rw [hlayer.b]; simp,
        hlayer.activationFunction, ?_⟩
      rw [show layer.outputSize = size.toNat by omega]
      exact ih _ _
    · obtain ⟨e, he, -⟩ := newLayer_error noise (next + i) hturn
      rw [he]
      trivial

theorem compile_layers (noise : ℕ → Noise α) (responds : Bool) (next : ℕ) (nn : NeuralNetwork α)
    {body : RValue α} {request : CompileRequest α} (hread : readRequest body = .ok request) :
    (compile noise responds next nn body).1.layers
      = (pushLayers noise request.args next request.args.layerSizes 0
        request.args.inputSize).1 := by
  rw [← setModelHyperParameters_layers nn, compile, hread]
  dsimp only
  split
  · rename_i heq
    rw [heq]
  · rename_i heq
    rw [heq]
    split <;> rfl

/-- **The layers of a network of the server are linked.** -/
theorem exists_linked {nn : NeuralNetwork α} {bodies : List (RValue α)}
    (h : Run CompileStep initialNetwork bodies nn) : ∃ n, Linked n nn.layers := by
  refine h.invariant (P := fun nn => ∃ n, Linked n nn.layers) ?_ ⟨0, show Linked 0 [] from trivial⟩
  rintro nn body nn' hlinked ⟨noise, responds, next, result, hrun, -⟩
  obtain rfl : (compile noise responds next nn body).1 = nn' := congrArg Prod.fst hrun
  cases hread : readRequest body with
  | error e =>
    have hkept : (compile noise responds next nn body).1 = nn := by rw [compile, hread]
    rw [hkept]
    exact hlinked
  | ok request =>
    rw [compile_layers noise responds next nn hread]
    exact ⟨_, pushLayers_linked noise request.args next _ 0 _⟩

/-! ## What training cannot digest -/

omit [Double α] in
/-- Layers that all have units are chained. -/
theorem Linked.chained {n : ℕ} {layers : List (DenseLayer α)} (h : Linked n layers)
    (hpos : ∀ layer ∈ layers, 0 < layer.outputSize) : ∃ p, Chained n layers p := by
  induction layers generalizing n with
  | nil => exact ⟨n, rfl⟩
  | cons layer layers ih =>
    obtain ⟨hin, hw, hb, hact, hrest⟩ := h
    obtain ⟨p, hp⟩ := ih hrest fun l hl => hpos l (List.mem_cons_of_mem _ hl)
    exact ⟨p, ⟨hpos layer List.mem_cons_self, hw, hb, hact⟩, hin, hp⟩

end RouteHandlers

/-- **A row of the targets the loss can read**, for a network with `r`
outputs. -/
def LossFunction.Reads (lossFunction : LossFunction) (r : ℕ) (row : Vec α) : Prop :=
  match lossFunction with
  | .sigmoidCrossEntropy => r ≤ row.length
  | .categoricalCrossEntropy => ∃ label ∈ row.head?,
      0 ≤ Double.toInt label ∧ Double.toInt label < r

namespace NeuralNetwork

open RouteHandlers

variable {n p t m : ℕ} {sizes : List ℕ} {lossFunction : LossFunction}

omit [Double α] in
/-- **A mini-batch size of `0`** cuts off empty batches forever. -/
theorem miniBatchGenerator_zero (X : Fin n → Fin m → α) (T : Fin t → Fin m → α) (hn : 0 < n)
    (hm : 0 < m) (fuel : ℕ) :
    miniBatchGenerator fuel (Grid.ofFn T) (Grid.ofFn X) 0 = .error .outOfFuel := by
  have hempty : ∀ {r : ℕ} (A : Fin r → Fin m → α), slices (Grid.ofFn A) 0 0
      = .ok (Grid.ofFn (Grid.block A 0 0 (Nat.zero_le m))) :=
    fun A => slices_ofFn A (s := 0) (c := 0) rfl rfl (Nat.zero_le m)
  rw [miniBatchGenerator, Vec.at_row_zero X hn, Checked.ok_bind, List.length_ofFn]
  induction fuel with
  | zero => rfl
  | succ fuel ih =>
    rw [batchesFrom, if_pos (by exact_mod_cast hm), hempty X, Checked.ok_bind, hempty T,
      Checked.ok_bind, add_zero, ih]
    rfl

end NeuralNetwork

namespace RouteHandlers

/-! ## Which messages can be digested -/

/-- The number of outputs of a network. -/
def outputs (nn : NeuralNetwork α) : ℕ :=
  (nn.layers.getLast?.map (·.outputSize)).getD 0

omit [Double α] in
theorem outputs_of_chained {n p : ℕ} {layers : List (DenseLayer α)} (h : Chained n layers p)
    (hne : layers ≠ []) : (layers.getLast?.map (·.outputSize)).getD 0 = p := by
  induction layers generalizing n with
  | nil => exact absurd rfl hne
  | cons layer layers ih =>
    obtain ⟨-, -, hrest⟩ := h
    cases layers with
    | nil => exact hrest
    | cons next layers => exact ih hrest (List.cons_ne_nil _ _)

omit [Double α] in
/-- What a network of the server is for the training loops, where its first
layer takes `n` features and all its layers have units. -/
theorem exists_sound {nn : NeuralNetwork α} {n : ℕ} (hlinked : Linked n nn.layers)
    (hne : nn.layers ≠ []) (hunits : ∀ layer ∈ nn.layers, 0 < layer.outputSize) :
    ∃ sizes, Sound n (outputs nn) sizes nn.lossFunction nn := by
  obtain ⟨p, hchain⟩ := hlinked.chained hunits
  obtain rfl : outputs nn = p := outputs_of_chained hchain hne
  obtain ⟨N, hN⟩ := Network.chained_iff.mp hchain
  exact ⟨N.sizes, ⟨N, hN, rfl⟩, rfl⟩

omit [Double α] in
theorem linked_head {nn : NeuralNetwork α} {n : ℕ} (hlinked : Linked n nn.layers)
    {layer : DenseLayer α} (hlayer : layer ∈ nn.layers.head?) :
    layer.inputSize = n ∧ nn.layers ≠ [] := by
  cases hlayers : nn.layers with
  | nil =>
    rw [hlayers] at hlayer
    cases hlayer
  | cons first rest =>
    rw [hlayers] at hlayer hlinked
    obtain rfl := Option.some.inj hlayer
    exact ⟨hlinked.1, List.cons_ne_nil _ _⟩

/-- A message with one sample of one feature. -/
noncomputable def sampleMessage (feature target : ℝ) : RValue ℝ := .object [
  ("features", .list [.list [.number 0 feature]]),
  ("target", .list [.list [.number 0 target]]),
  ("epochNum", .number 1 1),
  ("minibatchSize", .number 1 1)]

/-- A message with one sample of one feature, and any mini-batch size. -/
noncomputable def sizedMessage (feature target : ℝ) (size : Int64) (d : ℝ) : RValue ℝ := .object [
  ("features", .list [.list [.number 0 feature]]),
  ("target", .list [.list [.number 0 target]]),
  ("epochNum", .number 1 1),
  ("minibatchSize", .number size d)]

/-- What is read from it. -/
def sampleRequest (feature target : ℝ) : TrainingRequest ℝ :=
  ⟨[[feature]], [[target]], [[feature]], [[target]], 1, 1⟩

theorem readTraining_sizedMessage (feature target : ℝ) (size : Int64) (d : ℝ) :
    readTraining (sizedMessage feature target size d)
      = .ok { sampleRequest feature target with batchSize := size.narrow } := by
  have htranspose : ∀ x : ℝ, MathUtils.transpose [[x]] = .ok [[x]] := fun x =>
    MathUtils.transpose_ofFn (fun _ _ : Fin 1 => x) Nat.one_pos
  have hrows : ∀ x : ℝ, readRows (.list [.list [.number 0 x]]) = .ok [[x]] := fun _ => rfl
  have hfields : (sizedMessage feature target size d).field "features"
        = .ok (.list [.list [.number 0 feature]])
      ∧ (sizedMessage feature target size d).field "target"
        = .ok (.list [.list [.number 0 target]])
      ∧ (sizedMessage feature target size d).field "epochNum" = .ok (.number 1 1)
      ∧ (sizedMessage feature target size d).field "minibatchSize" = .ok (.number size d) :=
    ⟨rfl, rfl, rfl, rfl⟩
  exact readTraining_of_fields hfields (hrows feature) (hrows target) (htranspose feature)
    (htranspose target)

theorem readTraining_sampleMessage (feature target : ℝ) :
    readTraining (sampleMessage feature target) = .ok (sampleRequest feature target) :=
  readTraining_sizedMessage feature target 1 1

/-- The network after a request for one relu unit. -/
theorem exists_compiled_unit : ∃ (nn : NeuralNetwork ℝ) (layer : DenseLayer ℝ) (parameters : _),
    compile (fun _ => Noise.zero) true 0 initialNetwork (unitBody "relu") = (nn, .ok parameters)
      ∧ nn.layers = [layer] ∧ layer.inputSize = 1 ∧ layer.outputSize = 1
      ∧ nn.lossFunction = .sigmoidCrossEntropy := by
  have hbuilds : Builds (unitRequest "relu").args := unitRequest_builds ⟨.relu, rfl⟩
  obtain ⟨layers, lossFunction, hset, hlayers, hloss⟩ :=
    setModelHyperParameters_ok initialNetwork hbuilds (hasMemory_zero 0 _)
  obtain ⟨layer, rfl⟩ := List.length_eq_one_iff.mp (hlayers.length.trans rfl)
  obtain ⟨hin, hout, -⟩ := hlayers.sizes_at (j := 0) rfl
  refine ⟨{ initialNetwork with layers := [layer], lossFunction }, layer, [(layer.w, layer.b)],
    ?_, rfl, ?_, ?_, (Except.ok.inj hloss).symm⟩
  · rw [compile, readRequest_unitBody]
    dsimp only
    rw [hset]
    rfl
  · have hone : (layer.inputSize : ℤ) = (1 : ℕ) := (Option.some.inj hin).symm
    exact_mod_cast hone
  · have hone : (layer.outputSize : ℤ) = (1 : ℕ) := (Option.some.inj hout).symm
    exact_mod_cast hone

end RouteHandlers
