import NeuralBuilder.DenseParams
import NeuralBuilder.NeuralNetwork

/-!
# The network as a function

A list of layer objects whose sizes match holds a `Network`: a chain of
layer parameters whose types match. On a `Network` the passes are functions
of grids – `forward`, `predict`, and for the way back `daPrev` and `update`
– and the methods of the object return what these functions compute
(`forwardPropagation_heldBy`, `backwardPropagation_heldBy`,
`predictLayers_heldBy`).

`Chained` is the same condition said of the objects alone, and is what an
object can be checked for; `chained_iff` connects the two.

The proofs go along the list of layers and the `Network` at once, and never open
a method of a layer: what a layer does is the business of `DenseParams`. The
last section has the network of one unit that the examples of other modules
start from.
-/

variable {α : Type} [Double α]

/-- **The parameters of the layers of a network** from `n` features to `p`
outputs. -/
inductive Network (α : Type) : ℕ → ℕ → Type where
  | nil {n : ℕ} : Network α n n
  | cons {n k p : ℕ} (L : DenseParams α n k) (N : Network α k p) : Network α n p

namespace Network

variable {n k p m : ℕ}

omit [Double α] in
/-- The output of a network has at least one row when its input has. -/
theorem out_pos (N : Network α n p) (hn : 0 < n) : 0 < p := by
  induction N with
  | nil => exact hn
  | cons L N ih => exact ih L.pos

/-- **What `forwardPropagation` returns.** -/
def forward : {n p : ℕ} → Network α n p → (ℕ → α) → (Fin n → Fin m → α) → Fin p → Fin m → α
  | _, _, nil, _, X => X
  | _, _, cons L N, rand, X => N.forward (L.randAfter m rand) (L.forward rand X)

/-- The calls of `rand()` to come after a forward pass over `m` samples. -/
def randAfter (m : ℕ) : {n p : ℕ} → Network α n p → (ℕ → α) → ℕ → α
  | _, _, nil, rand => rand
  | _, _, cons L N, rand => N.randAfter m (L.randAfter m rand)

/-- **What `predict` returns.** -/
def predict : {n p : ℕ} → Network α n p → (Fin n → Fin m → α) → Fin p → Fin m → α
  | _, _, nil, X => X
  | _, _, cons L N, X => N.predict (L.predict X)

/-- **What `backwardPropagation` leaves in `da`**, after a forward pass on
`X`. -/
def daPrev : {n p : ℕ} → Network α n p → (ℕ → α) → (Fin n → Fin m → α) →
    (Fin p → Fin m → α) → Fin n → Fin m → α
  | _, _, nil, _, _, da => da
  | _, _, cons L N, rand, X, da =>
    L.daPrev rand X (N.daPrev (L.randAfter m rand) (L.forward rand X) da)

/-- **The parameters after `backwardPropagation`.** -/
def update : {n p : ℕ} → Network α n p → (ℕ → α) → (Fin n → Fin m → α) →
    (Fin p → Fin m → α) → Network α n p
  | _, _, nil, _, _, _ => nil
  | _, _, cons L N, rand, X, da =>
    cons (L.update rand X (N.daPrev (L.randAfter m rand) (L.forward rand X) da))
      (N.update (L.randAfter m rand) (L.forward rand X) da)

/-- The numbers of outputs of the layers. -/
def sizes : {n p : ℕ} → Network α n p → List ℕ
  | _, _, nil => []
  | _, _, cons (k := k) _ N => k :: N.sizes

/-- A backward pass keeps the sizes. -/
theorem sizes_update (N : Network α n p) (rand : ℕ → α) (X : Fin n → Fin m → α)
    (da : Fin p → Fin m → α) : (N.update rand X da).sizes = N.sizes := by
  induction N generalizing rand with
  | nil => rfl
  | cons L N ih => exact congrArg (List.cons _) (ih _ _ _)

/-- Every layer keeps all its units, and none is a softmax layer. -/
def Plain : {n p : ℕ} → Network α n p → Prop
  | _, _, nil => True
  | _, _, cons L N => L.drops = false ∧ L.activation ≠ .softmax ∧ N.Plain

/-- Every layer meets a condition. -/
def AllLayers (P : ∀ {n k : ℕ}, DenseParams α n k → Prop) : {n p : ℕ} → Network α n p → Prop
  | _, _, nil => True
  | _, _, cons L N => P L ∧ N.AllLayers P

/-- No layer drops units. -/
def KeepsUnits (N : Network α n p) : Prop :=
  N.AllLayers (fun L => L.drops = false)

/-- Without dropout a forward pass does not call `rand()`. -/
theorem forward_rand {N : Network α n p} (h : N.KeepsUnits) (rand rand' : ℕ → α)
    (X : Fin n → Fin m → α) : N.forward rand X = N.forward rand' X := by
  induction N generalizing rand rand' with
  | nil => rfl
  | cons L N ih =>
    unfold forward
    rw [L.forward_rand h.1 rand rand' X]
    exact ih h.2 _ _ _

theorem daPrev_rand {N : Network α n p} (h : N.KeepsUnits) (rand rand' : ℕ → α)
    (X : Fin n → Fin m → α) (da : Fin p → Fin m → α) :
    N.daPrev rand X da = N.daPrev rand' X da := by
  induction N generalizing rand rand' with
  | nil => rfl
  | cons L N ih =>
    unfold daPrev
    rw [L.forward_rand h.1 rand rand' X, ih h.2 _ (L.randAfter m rand'),
      L.daPrev_rand h.1 rand rand']

/-- Nor does the update depend on it. -/
theorem update_rand {N : Network α n p} (h : N.KeepsUnits) (rand rand' : ℕ → α)
    (X : Fin n → Fin m → α) (da : Fin p → Fin m → α) :
    N.update rand X da = N.update rand' X da := by
  induction N generalizing rand rand' with
  | nil => rfl
  | cons L N ih =>
    unfold update
    rw [L.forward_rand h.1 rand rand' X, daPrev_rand h.2 _ (L.randAfter m rand'),
      L.update_rand h.1 rand rand', ih h.2 _ (L.randAfter m rand')]

theorem keepsUnits_update {N : Network α n p} (h : N.KeepsUnits) (rand : ℕ → α)
    (X : Fin n → Fin m → α) (da : Fin p → Fin m → α) : (N.update rand X da).KeepsUnits := by
  induction N generalizing rand with
  | nil => trivial
  | cons L N ih => exact ⟨h.1, ih h.2 _ _ _⟩

/-- Some layer is a softmax layer. -/
def HasSoftmax : {n p : ℕ} → Network α n p → Prop
  | _, _, nil => False
  | _, _, cons L N => L.activation = .softmax ∨ N.HasSoftmax

/-- **The objects hold the parameters of the network**, layer by layer. -/
def HeldBy : {n p : ℕ} → Network α n p → List (DenseLayer α) → Prop
  | _, _, nil, layers => layers = []
  | _, _, cons L N, layers =>
    ∃ layer rest, layers = layer :: rest ∧ layer.Holds L ∧ N.HeldBy rest

/-- **The objects hold the caches of a forward pass on `X`.** -/
def CachedBy : {n p : ℕ} → Network α n p → List (DenseLayer α) → (ℕ → α) →
    (Fin n → Fin m → α) → Prop
  | _, _, nil, _, _, _ => True
  | _, _, cons L N, layers, rand, X =>
    ∃ layer rest, layers = layer :: rest ∧ layer.Caches L rand X
      ∧ N.CachedBy rest (L.randAfter m rand) (L.forward rand X)

omit [Double α] in
theorem HeldBy.outputSizes {N : Network α n p} {layers : List (DenseLayer α)}
    (h : N.HeldBy layers) : layers.map (·.outputSize) = N.sizes := by
  induction N generalizing layers with
  | nil =>
    obtain rfl : layers = [] := h
    rfl
  | cons L N ih =>
    obtain ⟨layer, rest, rfl, hL, hN⟩ := h
    rw [List.map_cons, hL.outputSize, ih hN, sizes]

omit [Double α] in
theorem hasSoftmax_iff {N : Network α n p} {layers : List (DenseLayer α)} (h : N.HeldBy layers) :
    N.HasSoftmax ↔ ∃ layer ∈ layers, layer.activationFunc = "softmax" := by
  induction N generalizing layers with
  | nil =>
    obtain rfl : layers = [] := h
    simp [HasSoftmax]
  | cons L N ih =>
    obtain ⟨layer, rest, rfl, hL, hN⟩ := h
    rw [HasSoftmax, ih hN, ← DenseLayer.softmax_name_iff hL]
    simp

omit [Double α] in
/-- What holds of the objects holds of the layers they hold. -/
theorem HeldBy.allLayers {P : ∀ {n k : ℕ}, DenseParams α n k → Prop} {N : Network α n p}
    {layers : List (DenseLayer α)} (h : N.HeldBy layers)
    (hP : ∀ layer ∈ layers, ∀ {n k : ℕ} (L : DenseParams α n k), layer.Holds L → P L) :
    N.AllLayers P := by
  induction N generalizing layers with
  | nil => trivial
  | cons L N ih =>
    obtain ⟨layer, rest, rfl, hL, hN⟩ := h
    exact ⟨hP layer List.mem_cons_self L hL,
      ih hN (fun l hl => hP l (List.mem_cons_of_mem _ hl))⟩

omit [Double α] in
/-- Objects that hold the same network have the same weights and biases. -/
theorem HeldBy.parameters_eq {N : Network α n p} {layers layers' : List (DenseLayer α)}
    (h : N.HeldBy layers) (h' : N.HeldBy layers') :
    layers.map (fun layer => (layer.w, layer.b))
      = layers'.map (fun layer => (layer.w, layer.b)) := by
  induction N generalizing layers layers' with
  | nil =>
    obtain rfl : layers = [] := h
    obtain rfl : layers' = [] := h'
    rfl
  | cons L N ih =>
    obtain ⟨layer, rest, rfl, hL, hN⟩ := h
    obtain ⟨layer', rest', rfl, hL', hN'⟩ := h'
    rw [List.map_cons, List.map_cons, hL.w, hL.b, hL'.w, hL'.b, ih hN hN']

theorem HeldBy.keepsUnits {N : Network α n p} {layers : List (DenseLayer α)}
    (h : N.HeldBy layers) (hkeep : ∀ layer ∈ layers, Double.lt layer.keepProb 1 = false) :
    N.KeepsUnits := by
  refine h.allLayers (fun layer hlayer _ _ L hL => ?_)
  rw [DenseParams.drops, ← hL.keepProb]
  exact hkeep layer hlayer

/-- What makes a network plain, said of its objects. -/
theorem plain_of_heldBy {N : Network α n p} {layers : List (DenseLayer α)} (h : N.HeldBy layers)
    (hkeep : ∀ layer ∈ layers, Double.lt layer.keepProb 1 = false)
    (hact : ∀ layer ∈ layers, layer.activationFunction ≠ .softmax) : N.Plain := by
  induction N generalizing layers with
  | nil => trivial
  | cons L N ih =>
    obtain ⟨layer, rest, rfl, hL, hN⟩ := h
    refine ⟨?_, ?_, ih hN (fun l hl => hkeep l (List.mem_cons_of_mem _ hl))
      (fun l hl => hact l (List.mem_cons_of_mem _ hl))⟩
    · rw [DenseParams.drops, ← hL.keepProb]
      exact hkeep layer List.mem_cons_self
    · rw [← hL.activationFunction]
      exact hact layer List.mem_cons_self

/-! ## The methods compute the functions -/

/-- **`forwardPropagation` returns the function of the network**, and
leaves the caches of its input. -/
theorem forwardLayers_heldBy {N : Network α n p} {layers : List (DenseLayer α)}
    (h : N.HeldBy layers) (rand : ℕ → α) (X : Fin n → Fin m → α) (hn : 0 < n) :
    ∃ layers', NeuralNetwork.forwardLayers layers rand (Grid.ofFn X)
        = .ok (Grid.ofFn (N.forward rand X), layers', N.randAfter m rand)
      ∧ N.HeldBy layers' ∧ N.CachedBy layers' rand X
      ∧ layers'.map (·.addr) = layers.map (·.addr) := by
  induction N generalizing layers rand with
  | nil =>
    obtain rfl : layers = [] := h
    exact ⟨[], rfl, rfl, trivial, rfl⟩
  | cons L N ih =>
    obtain ⟨layer, rest, rfl, hL, hN⟩ := h
    obtain ⟨layer', hrun, hheld, hcached, haddr⟩ := DenseLayer.forward_holds hL rand X hn
    obtain ⟨rest', hrun', hheld', hcached', haddr'⟩ :=
      ih hN (L.randAfter m rand) (L.forward rand X) L.pos
    refine ⟨layer' :: rest', ?_, ⟨layer', rest', rfl, hheld, hheld'⟩,
      ⟨layer', rest', rfl, hcached, hcached'⟩, by simp [haddr, haddr']⟩
    rw [NeuralNetwork.forwardLayers, hrun, Checked.ok_bind]
    dsimp only
    rw [hrun', Checked.ok_bind]
    rfl

/-- **`backwardPropagation` after a forward pass on `X`** leaves the
derivatives of the network in `da`, and the updated parameters in the
objects. -/
theorem backwardLayers_heldBy {N : Network α n p} {layers : List (DenseLayer α)}
    (h : N.HeldBy layers) {rand : ℕ → α} {X : Fin n → Fin m → α}
    (hc : N.CachedBy layers rand X) (da : Fin p → Fin m → α) (hn : 0 < n) (hm : 0 < m) :
    ∃ layers', NeuralNetwork.backwardLayers layers (Grid.ofFn da)
        = .ok (Grid.ofFn (N.daPrev rand X da), layers')
      ∧ (N.update rand X da).HeldBy layers'
      ∧ layers'.map (·.addr) = layers.map (·.addr) := by
  induction N generalizing layers rand with
  | nil =>
    obtain rfl : layers = [] := h
    exact ⟨[], rfl, rfl, rfl⟩
  | cons L N ih =>
    obtain ⟨layer, rest, rfl, hL, hN⟩ := h
    obtain ⟨_, _, heq, hcL, hcN⟩ := hc
    obtain ⟨rfl, rfl⟩ := List.cons_eq_cons.mp heq
    obtain ⟨rest', hrun', hheld', haddr'⟩ := ih hN hcN da L.pos
    obtain ⟨layer', hrun, hheld, haddr⟩ := DenseLayer.backward_holds hL hcL
      (N.daPrev (L.randAfter m rand) (L.forward rand X) da) hn hm
    refine ⟨layer' :: rest', ?_, ⟨layer', rest', rfl, hheld, hheld'⟩, by simp [haddr, haddr']⟩
    rw [NeuralNetwork.backwardLayers, hrun', Checked.ok_bind]
    dsimp only
    rw [hrun, Checked.ok_bind]
    rfl

/-- **`predict` returns the function of the network at inference.** -/
theorem predictLayers_heldBy {N : Network α n p} {layers : List (DenseLayer α)}
    (h : N.HeldBy layers) (X : Fin n → Fin m → α) (hn : 0 < n) :
    NeuralNetwork.predictLayers layers (Grid.ofFn X) = .ok (Grid.ofFn (N.predict X)) := by
  induction N generalizing layers with
  | nil =>
    obtain rfl : layers = [] := h
    rfl
  | cons L N ih =>
    obtain ⟨layer, rest, rfl, hL, hN⟩ := h
    rw [NeuralNetwork.predictLayers, DenseLayer.predict_holds hL X hn, Checked.ok_bind]
    exact ih hN (L.predict X) L.pos

/-- **The forward pass of an object** computes that of the network it holds,
and changes nothing of the object but its layers. -/
theorem forwardPropagation_heldBy {N : Network α n p} {nn : NeuralNetwork α}
    (h : N.HeldBy nn.layers) (rand : ℕ → α) (X : Fin n → Fin m → α) (hn : 0 < n) :
    ∃ layers, nn.forwardPropagation rand (Grid.ofFn X)
        = .ok (Grid.ofFn (N.forward rand X), { nn with layers }, N.randAfter m rand)
      ∧ N.HeldBy layers ∧ N.CachedBy layers rand X := by
  obtain ⟨layers, hforward, hheld, hcached, -⟩ := forwardLayers_heldBy h rand X hn
  refine ⟨layers, ?_, hheld, hcached⟩
  rw [NeuralNetwork.forwardPropagation, hforward, Checked.ok_bind]
  rfl

/-- **The backward pass of an object** whose layers a forward pass left. -/
theorem backwardPropagation_heldBy {N : Network α n p} (nn : NeuralNetwork α)
    {layers : List (DenseLayer α)} (h : N.HeldBy layers) {rand : ℕ → α} {X : Fin n → Fin m → α}
    (hc : N.CachedBy layers rand X) (da : Fin p → Fin m → α) (hn : 0 < n) (hm : 0 < m) :
    ∃ layers', { nn with layers }.backwardPropagation (Grid.ofFn da)
        = .ok (Grid.ofFn (N.daPrev rand X da), { nn with layers := layers' })
      ∧ (N.update rand X da).HeldBy layers' := by
  obtain ⟨layers', hbackward, hheld, -⟩ := backwardLayers_heldBy h hc da hn hm
  refine ⟨layers', ?_, hheld⟩
  rw [NeuralNetwork.backwardPropagation]
  dsimp only
  rw [hbackward, Checked.ok_bind]
  rfl

/-- **Both passes of an object** compute those of the network it holds. -/
theorem HeldBy.passes {N : Network α n p} {nn : NeuralNetwork α} (h : N.HeldBy nn.layers)
    (rand : ℕ → α) (X : Fin n → Fin m → α) (da : Fin p → Fin m → α) (hn : 0 < n) (hm : 0 < m) :
    ∃ nn₁ nn₂,
      nn.forwardPropagation rand (Grid.ofFn X)
        = .ok (Grid.ofFn (N.forward rand X), nn₁, N.randAfter m rand)
      ∧ nn₁.backwardPropagation (Grid.ofFn da) = .ok (Grid.ofFn (N.daPrev rand X da), nn₂)
      ∧ (N.update rand X da).HeldBy nn₂.layers := by
  obtain ⟨layers₁, hforward, hheld₁, hcached⟩ := forwardPropagation_heldBy h rand X hn
  obtain ⟨layers₂, hbackward, hheld₂⟩ := backwardPropagation_heldBy nn hheld₁ hcached da hn hm
  exact ⟨{ nn with layers := layers₁ }, { nn with layers := layers₂ }, hforward, hbackward, hheld₂⟩

end Network

/-! ## The condition on the objects -/

/-- **The object has the shape its sizes say**, with at least one output
and an activation object for its name. -/
structure DenseLayer.WellShaped (layer : DenseLayer α) : Prop where
  /-- It has a unit. -/
  pos : 0 < layer.outputSize
  /-- Its weights are a grid, with a row for each unit. -/
  w : Grid.IsRect layer.outputSize layer.inputSize layer.w
  /-- It has a bias for each. -/
  b : layer.b.length = layer.outputSize
  /-- Its name stands for its activation object. -/
  activation : ActivationFactory.getActivationClass layer.activationFunc
    = .ok layer.activationFunction

/-- **The sizes of the layers match**, from `n` features to `p` outputs. -/
def Chained : ℕ → List (DenseLayer α) → ℕ → Prop
  | n, [], p => n = p
  | n, layer :: layers, p =>
    layer.WellShaped ∧ layer.inputSize = n ∧ Chained layer.outputSize layers p

namespace DenseLayer

variable {n k : ℕ}

omit [Double α] in
/-- A well-shaped object holds parameters. -/
theorem WellShaped.exists_holds {layer : DenseLayer α} (h : layer.WellShaped) :
    ∃ L : DenseParams α layer.inputSize layer.outputSize, layer.Holds L := by
  obtain ⟨w, hw⟩ := Grid.exists_ofFn h.w
  obtain ⟨b, hb⟩ := Grid.exists_list_ofFn h.b
  exact ⟨⟨w, b, layer.learningRate, layer.lambda, layer.keepProb, layer.activationFunction,
    h.pos⟩, ⟨rfl, rfl, hw, hb, rfl, rfl, rfl, rfl, h.activation⟩⟩

omit [Double α] in
/-- An object that holds parameters is well shaped. -/
theorem Holds.wellShaped {layer : DenseLayer α} {L : DenseParams α n k} (h : layer.Holds L) :
    layer.WellShaped where
  pos := h.outputSize ▸ L.pos
  w := by rw [h.outputSize, h.inputSize, h.w]; exact Grid.isRect_ofFn L.w
  b := by rw [h.outputSize, h.b, List.length_ofFn]
  activation := by rw [h.activationFunc, h.activationFunction]

end DenseLayer

namespace Network

variable {n p : ℕ}

omit [Double α] in
/-- **The objects whose sizes match are those that hold a network.** -/
theorem chained_iff {layers : List (DenseLayer α)} :
    Chained n layers p ↔ ∃ N : Network α n p, N.HeldBy layers := by
  constructor
  · intro h
    induction layers generalizing n with
    | nil =>
      obtain rfl : n = p := h
      exact ⟨nil, rfl⟩
    | cons layer layers ih =>
      obtain ⟨hshape, rfl, hrest⟩ := h
      obtain ⟨L, hL⟩ := hshape.exists_holds
      obtain ⟨N, hN⟩ := ih hrest
      exact ⟨cons L N, layer, layers, rfl, hL, hN⟩
  · rintro ⟨N, hN⟩
    induction N generalizing layers with
    | nil =>
      obtain rfl : layers = [] := hN
      exact rfl
    | cons L N ih =>
      obtain ⟨layer, rest, rfl, hL, hN⟩ := hN
      exact ⟨hL.wellShaped, hL.inputSize, hL.outputSize ▸ ih hN⟩

end Network

/-! ## The unit that examples are made of -/

/-- A layer of one unit on one feature, at address `addr`. -/
def DenseLayer.unit (addr : ℕ) (w b learningRate : α) (act : ActivationFunction)
    (activationFunc : String) : DenseLayer α where
  addr
  inputSize := 1
  outputSize := 1
  learningRate
  lambda := 0
  keepProb := 1
  dropoutMask := []
  w := [[w]]
  b := [b]
  dw := [[0]]
  db := [0]
  z := []
  a := []
  aPrev := []
  activationFunction := act
  activationFunc

/-- The parameters of a unit. -/
def DenseParams.unit (w b learningRate : α) (act : ActivationFunction) : DenseParams α 1 1 :=
  ⟨fun _ _ => w, fun _ => b, learningRate, 0, 1, act, one_pos⟩

theorem DenseLayer.unit_holds (addr : ℕ) (w b learningRate : α) (act : ActivationFunction)
    (activationFunc : String)
    (h : ActivationFactory.getActivationClass activationFunc = .ok act) :
    (DenseLayer.unit addr w b learningRate act activationFunc).Holds
      (DenseParams.unit w b learningRate act) :=
  ⟨rfl, rfl, rfl, rfl, rfl, rfl, rfl, rfl, h⟩

/-- Over the reals a unit drops nothing. -/
@[simp] theorem DenseParams.unit_drops (w b learningRate : ℝ) (act : ActivationFunction) :
    (DenseParams.unit w b learningRate act).drops = false := by
  simp [DenseParams.drops, DenseParams.unit]
