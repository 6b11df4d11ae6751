import NeuralBuilder.Network

/-!
# Building the layers

When the loop over the layer sizes goes through, and what it has built
then. A layer is refused for a negative size, for a name the activation
factory does not know, and where there is no memory for its vectors. Two
things are undefined: a turn reads past the end of the activations or the
learning rates where these are shorter than the sizes, and the initialiser
of every layer but a relu one adds its two sizes as `int`s, which overflows
for sizes that each fit.

`newLayer_ok` and `newLayer_error` say when a turn builds a layer,
`pushLayers_ok` what a loop that goes through has built, and
`pushLayers_error` that a loop that stops has stopped in the first turn
that does. What a turn needs of its arguments (`TurnOk`) is kept apart from
what it needs of the allocator (`Noise.Allocates`).
-/

variable {α : Type} [Double α]

namespace Initializer

/-- The weight that the initialiser a layer chooses for its activation
draws for the entry in row `i` and column `j`. -/
def draw (noise : Noise α) (activationFunc : String) (n k : ℕ) : ℕ → ℕ → α :=
  if activationFunc = "relu" then noise.normal 0 (Double.sqrt (2.0 / (n : α)))
  else
    noise.uniform (-Double.sqrt (6.0 / ((n + k : ℕ) : α))) (Double.sqrt (6.0 / ((n + k : ℕ) : α)))

/-- **The sum of the sizes fits an `int`**, or the initialiser a layer chooses
for its activation takes none. -/
def SumFits (activationFunc : String) (inputSize outputSize : ℤ) : Prop :=
  activationFunc = "relu"
    ∨ (-2 ^ 31 ≤ inputSize + outputSize ∧ inputSize + outputSize < 2 ^ 31)

/-- Where the sum fits, what is left of the initialiser is its matrix. -/
theorem initializeWeights_eq (noise : Noise α) {activationFunc : String}
    {inputSize outputSize : ℤ} (h : SumFits activationFunc inputSize outputSize) :
    initializeWeights noise (if activationFunc = "relu" then "he" else "xavier") inputSize
        outputSize
      = (do
        let cols ← vectorSize noise.allocates inputSize
        let rows ← vectorSize (noise.allocatesRows cols) outputSize
        return Grid.tabulate rows cols (draw noise activationFunc cols rows)) := by
  by_cases hrelu : activationFunc = "relu"
  · rw [if_pos hrelu, initializeWeights, if_pos rfl, he]
    simp only [draw, if_pos hrelu]
  · rw [if_neg hrelu, initializeWeights, if_neg (by decide), if_pos rfl, xavier, intSum,
      if_pos (h.resolve_left hrelu), Checked.ok_bind]
    simp only [draw, if_neg hrelu]

/-- Where it does not fit, nothing is defined after it. -/
theorem initializeWeights_overflow (noise : Noise α) {activationFunc : String}
    {inputSize outputSize : ℤ} (h : ¬ SumFits activationFunc inputSize outputSize) :
    initializeWeights noise (if activationFunc = "relu" then "he" else "xavier") inputSize
      outputSize = .error .overflow := by
  have hrelu : activationFunc ≠ "relu" := fun hrelu => h (Or.inl hrelu)
  rw [if_neg hrelu, initializeWeights, if_neg (by decide), if_pos rfl, xavier, intSum,
    if_neg fun hfits => h (Or.inr hfits), Checked.error_bind]

/-- **The initialiser a layer chooses builds a matrix of the sizes asked
for**, where there is memory. -/
theorem initializeWeights_natCast (noise : Noise α) {activationFunc : String} {n k : ℕ}
    (hsum : SumFits activationFunc n k) (hrow : noise.allocates n)
    (hweights : noise.allocatesRows n k) :
    initializeWeights noise (if activationFunc = "relu" then "he" else "xavier") n k
      = .ok (Grid.tabulate k n (draw noise activationFunc n k)) := by
  rw [initializeWeights_eq noise hsum, vectorSize_natCast hrow, Checked.ok_bind,
    vectorSize_natCast hweights]
  rfl

/-- Where there is no memory, the initialiser throws. -/
theorem initializeWeights_badAlloc (noise : Noise α) {activationFunc : String} {n k : ℕ}
    (hsum : SumFits activationFunc n k) (h : ¬ (noise.allocates n ∧ noise.allocatesRows n k)) :
    initializeWeights noise (if activationFunc = "relu" then "he" else "xavier") n k
      = .error .badAlloc := by
  rw [initializeWeights_eq noise hsum]
  by_cases hrow : noise.allocates n
  · rw [vectorSize_natCast hrow, Checked.ok_bind, vectorSize_badAlloc fun hw => h ⟨hrow, hw⟩,
      Checked.error_bind]
  · rw [vectorSize_badAlloc hrow, Checked.error_bind]

/-- A negative size is refused. -/
theorem initializeWeights_neg (noise : Noise α) {activationFunc : String}
    {inputSize outputSize : ℤ} (hsum : SumFits activationFunc inputSize outputSize)
    (h : inputSize < 0 ∨ outputSize < 0) :
    ∃ e, initializeWeights noise (if activationFunc = "relu" then "he" else "xavier") inputSize
      outputSize = .error e ∧ e.isException := by
  rw [initializeWeights_eq noise hsum]
  by_cases hi : inputSize < 0
  · exact ⟨.lengthError, by rw [vectorSize_neg hi, Checked.error_bind], rfl⟩
  · -- the row is asked for before the rows are counted
    obtain ⟨n, rfl⟩ := Int.eq_ofNat_of_zero_le (not_lt.mp hi)
    by_cases hrow : noise.allocates n
    · refine ⟨.lengthError, ?_, rfl⟩
      rw [vectorSize_natCast hrow, Checked.ok_bind, vectorSize_neg (h.resolve_left hi),
        Checked.error_bind]
    · exact ⟨.badAlloc, by rw [vectorSize_badAlloc hrow, Checked.error_bind], rfl⟩

end Initializer

/-- **There is memory for the vectors of a layer**: for a row of its weights,
for the weights, and for its biases. -/
structure Noise.Allocates (noise : Noise α) (inputSize outputSize : ℤ) : Prop where
  /-- The row `initializeWeights` copies. -/
  row : noise.allocates inputSize.toNat
  /-- A row of inputs for every unit; the derivatives are of the same size. -/
  weights : noise.allocatesRows inputSize.toNat outputSize.toNat
  /-- One number for every unit. -/
  biases : noise.allocates outputSize.toNat

omit [Double α] in
/-- There is, where there always is. -/
theorem Noise.allocates_of_unbounded {noise : Noise α}
    (h : ∀ n, noise.allocates n) (hrows : ∀ n k, noise.allocatesRows n k)
    (inputSize outputSize : ℤ) : noise.Allocates inputSize outputSize :=
  ⟨h _, hrows _ _, h _⟩

namespace DenseLayer

/-- **A new layer** at address `addr` has the sizes `n` and `k`, the rates
and the activation it was asked for, and the shape its sizes say. -/
structure IsNew (layer : DenseLayer α) (noise : Noise α) (addr n k : ℕ) (lr : α) (name : String)
    (kp lam : α) : Prop where
  /-- It lies where it was put. -/
  addr : layer.addr = addr
  /-- It takes `n` numbers. -/
  inputSize : layer.inputSize = n
  /-- It returns `k`. -/
  outputSize : layer.outputSize = k
  /-- The rate it was given. -/
  learningRate : layer.learningRate = lr
  /-- What it keeps of its units. -/
  keepProb : layer.keepProb = kp
  /-- Its weight decay. -/
  lambda : layer.lambda = lam
  /-- The name of the activation it was given. -/
  activationFunc : layer.activationFunc = name
  /-- The object the factory has for the name. -/
  activationFunction : ActivationFactory.getActivationClass name = .ok layer.activationFunction
  /-- One draw for every weight, in the order of the loops. -/
  w : layer.w = Grid.tabulate k n (Initializer.draw noise name n k)
  /-- Biases start at `0`. -/
  b : layer.b = List.replicate k 0

/-- **A layer is built** where its sum of sizes fits, there is memory for its
vectors, and its activation is known. -/
theorem new_natCast (noise : Noise α) (addr : ℕ) {n k : ℕ} (learningRate : α) {name : String}
    (keepProb lambda : α) (hsum : Initializer.SumFits name n k) (hmemory : noise.Allocates n k)
    {act : ActivationFunction} (hact : ActivationFactory.getActivationClass name = .ok act) :
    ∃ layer, DenseLayer.new noise addr n k learningRate name keepProb lambda = .ok layer
      ∧ layer.IsNew noise addr n k learningRate name keepProb lambda := by
  have hrow : noise.allocates n := by simpa using hmemory.row
  have hweights : noise.allocatesRows n k := by simpa using hmemory.weights
  have hbiases : noise.allocates k := by simpa using hmemory.biases
  rw [DenseLayer.new, Initializer.initializeWeights_natCast noise hsum hrow hweights,
    Checked.ok_bind, vectorSize_natCast hbiases, Checked.ok_bind, vectorSize_natCast hrow,
    Checked.ok_bind, vectorSize_natCast hweights, Checked.ok_bind, hact, Checked.ok_bind]
  exact ⟨_, rfl, rfl, rfl, rfl, rfl, rfl, rfl, rfl, hact, rfl, by simp [resize]⟩

/-- Where the sum of the sizes does not fit, nothing is defined. -/
theorem new_overflow (noise : Noise α) (addr : ℕ) {inputSize outputSize : ℤ} (learningRate : α)
    {name : String} (keepProb lambda : α)
    (h : ¬ Initializer.SumFits name inputSize outputSize) :
    DenseLayer.new noise addr inputSize outputSize learningRate name keepProb lambda
      = .error .overflow := by
  rw [DenseLayer.new, Initializer.initializeWeights_overflow noise h, Checked.error_bind]

/-- Where there is no memory for its vectors, the constructor throws. -/
theorem new_badAlloc (noise : Noise α) (addr : ℕ) {n k : ℕ} (learningRate : α) {name : String}
    (keepProb lambda : α) (hsum : Initializer.SumFits name n k) (h : ¬ noise.Allocates n k) :
    DenseLayer.new noise addr n k learningRate name keepProb lambda = .error .badAlloc := by
  rw [DenseLayer.new]
  by_cases hw : noise.allocates n ∧ noise.allocatesRows n k
  · have hbiases : ¬ noise.allocates k := fun hbiases =>
      h ⟨by simpa using hw.1, by simpa using hw.2, by simpa using hbiases⟩
    rw [Initializer.initializeWeights_natCast noise hsum hw.1 hw.2, Checked.ok_bind,
      vectorSize_badAlloc hbiases, Checked.error_bind]
  · rw [Initializer.initializeWeights_badAlloc noise hsum hw, Checked.error_bind]

/-- **A layer is refused for a negative size, an unknown activation or want
of memory**, by an exception. -/
theorem new_error (noise : Noise α) (addr : ℕ) {inputSize outputSize : ℤ} (learningRate : α)
    {name : String} (keepProb lambda : α) (hsum : Initializer.SumFits name inputSize outputSize)
    (h : ¬ (0 ≤ inputSize ∧ 0 ≤ outputSize ∧ noise.Allocates inputSize outputSize
      ∧ ActivationFactory.Accepts name)) :
    ∃ e, DenseLayer.new noise addr inputSize outputSize learningRate name keepProb lambda
        = .error e ∧ e.isException := by
  by_cases hneg : inputSize < 0 ∨ outputSize < 0
  · obtain ⟨e, he, hexc⟩ := Initializer.initializeWeights_neg noise hsum hneg
    exact ⟨e, by rw [DenseLayer.new, he, Checked.error_bind], hexc⟩
  · push Not at hneg
    obtain ⟨n, rfl⟩ := Int.eq_ofNat_of_zero_le hneg.1
    obtain ⟨k, rfl⟩ := Int.eq_ofNat_of_zero_le hneg.2
    by_cases hmemory : noise.Allocates n k
    · have hname : ¬ ActivationFactory.Accepts name := fun hname =>
        h ⟨hneg.1, hneg.2, hmemory, hname⟩
      have hrow : noise.allocates n := by simpa using hmemory.row
      have hweights : noise.allocatesRows n k := by simpa using hmemory.weights
      have hbiases : noise.allocates k := by simpa using hmemory.biases
      rw [DenseLayer.new, Initializer.initializeWeights_natCast noise hsum hrow hweights,
        Checked.ok_bind, vectorSize_natCast hbiases, Checked.ok_bind, vectorSize_natCast hrow,
        Checked.ok_bind, vectorSize_natCast hweights, Checked.ok_bind]
      cases hget : ActivationFactory.getActivationClass name with
      | ok act => exact absurd ⟨act, hget⟩ hname
      | error e => exact ⟨e, rfl, ActivationFactory.isException_of_error hget⟩
    · exact ⟨.badAlloc, new_badAlloc noise addr learningRate keepProb lambda hsum hmemory, rfl⟩

end DenseLayer

/-- The number of outputs the arguments ask for. -/
def HyperParameters.outputSize (args : HyperParameters α) : ℤ :=
  args.layerSizes.getLast?.getD args.inputSize

namespace NeuralNetwork

/-- The entry of one of the optional lists, or its default. -/
def optionalAt (values : List α) (default : α) (i : ℕ) : Option α :=
  if values.length ≠ 0 then values[i]? else some default

/-- **The layer is the one turn `i` is asked for**, with the sizes given. -/
structure IsRequested (noise : ℕ → Noise α) (args : HyperParameters α) (addr i : ℕ)
    (inputSize numOfNeurons : ℤ) (layer : DenseLayer α) : Prop where
  /-- It lies where turn `i` puts it. -/
  addr : layer.addr = addr
  /-- It takes what the layer before returns. -/
  inputSize : (layer.inputSize : ℤ) = inputSize
  /-- It has the size that is asked for. -/
  outputSize : (layer.outputSize : ℤ) = numOfNeurons
  /-- Its activation is entry `i` of the list. -/
  activation : args.layerActivations[i]? = some layer.activationFunc
  /-- So is its learning rate. -/
  learningRate : args.learningRates[i]? = some layer.learningRate
  /-- It keeps what entry `i` says, or all where the list is empty. -/
  keepProb : optionalAt args.keyProbValues 1 i = some layer.keepProb
  /-- It decays as entry `i` says, or not at all. -/
  lambda : optionalAt args.lambdaValues 0 i = some layer.lambda
  /-- The factory has an object for the name. -/
  activationFunction :
    ActivationFactory.getActivationClass layer.activationFunc = .ok layer.activationFunction
  /-- Its weights are the draws made for it. -/
  w : layer.w = Grid.tabulate layer.outputSize layer.inputSize
    (Initializer.draw (noise layer.addr) layer.activationFunc layer.inputSize layer.outputSize)
  /-- Its biases are `0`. -/
  b : layer.b = List.replicate layer.outputSize 0

theorem IsRequested.wellShaped {noise : ℕ → Noise α} {args : HyperParameters α} {addr i : ℕ}
    {n k : ℤ} {layer : DenseLayer α} (h : IsRequested noise args addr i n k layer) (hk : 0 < k) :
    layer.WellShaped where
  pos := by have := h.outputSize; omega
  w := by rw [h.w]; exact Grid.isRect_ofFn _
  b := by rw [h.b, List.length_replicate]
  activation := h.activationFunction

/-- A position is read off a list that has it. -/
theorem at_eq_ok_iff {β : Type} {v : List β} {i : ℕ} {x : β} :
    Vec.at v i = .ok x ↔ v[i]? = some x := by
  unfold Vec.at Checked.read
  cases v[i]? <;> simp

theorem at_eq_error {β : Type} {v : List β} {i : ℕ} (h : v[i]? = none) :
    Vec.at v i = .error .outOfRange := by
  unfold Vec.at Checked.read
  rw [h]

omit [Double α] in
theorem optionalAt_eq_ok_iff {values : List α} {default : α} {i : ℕ} {x : α} :
    (if values.length ≠ 0 then Vec.at values i else .ok default) = .ok x
      ↔ optionalAt values default i = some x := by
  unfold optionalAt
  split_ifs with h
  · exact at_eq_ok_iff
  · simp

/-- Turn `i` reads no list past its end. -/
structure HasPositions (args : HyperParameters α) (i : ℕ) : Prop where
  /-- `layerActivations[i]` exists. -/
  activation : i < args.layerActivations.length
  /-- So does `learningRates[i]`. -/
  learningRate : i < args.learningRates.length
  /-- So does `keyProbValues[i]`, if the list is read. -/
  keepProb : args.keyProbValues.length ≠ 0 → i < args.keyProbValues.length
  /-- So does `lambdaValues[i]`, if that is. -/
  lambda : args.lambdaValues.length ≠ 0 → i < args.lambdaValues.length

/-- **Turn `i` stays defined**: it reads no list past its end, and adds no two
sizes whose sum is no `int`. -/
structure StaysDefined (args : HyperParameters α) (i : ℕ) (inputSize numOfNeurons : ℤ) : Prop
    extends HasPositions args i where
  /-- Xavier adds the sizes, He does not. -/
  sum : Initializer.SumFits (args.layerActivations.getD i "") inputSize numOfNeurons

/-- **When the arguments of a turn of the loop ask for a layer that can be
built**: the turn stays defined, its sizes are not negative and its
activation is known. -/
structure TurnOk (args : HyperParameters α) (i : ℕ) (inputSize numOfNeurons : ℤ) : Prop
    extends StaysDefined args i inputSize numOfNeurons where
  /-- A negative size is one no vector can have. -/
  inputSize : 0 ≤ inputSize
  /-- The same of the number of units. -/
  numOfNeurons : 0 ≤ numOfNeurons
  /-- The factory throws on every other name. -/
  accepts : ActivationFactory.Accepts (args.layerActivations.getD i "")

/-- **When a turn of the loop builds a layer**: it can be built, and there is
memory for it. -/
structure TurnBuilds (noise : Noise α) (args : HyperParameters α) (i : ℕ)
    (n k : ℤ) : Prop extends TurnOk args i n k where
  /-- The allocator has what the vectors of the layer take. -/
  memory : noise.Allocates n k

omit [Double α] in
theorem optionalAt_isSome {values : List α} (default : α) {i : ℕ}
    (h : values.length ≠ 0 → i < values.length) :
    ∃ x, optionalAt values default i = some x := by
  unfold optionalAt
  split_ifs with hlen
  · exact ⟨_, List.getElem?_eq_getElem (h hlen)⟩
  · exact ⟨_, rfl⟩

omit [Double α] in
theorem optionalAt_eq_error {values : List α} {default : α} {i : ℕ}
    (h : ¬ (values.length ≠ 0 → i < values.length)) :
    (if values.length ≠ 0 then Vec.at values i else .ok default) = .error .outOfRange := by
  push Not at h
  rw [if_pos h.1]
  exact at_eq_error (List.getElem?_eq_none h.2)

/-- **A turn that reads no list past its end** is left with the constructor. -/
theorem newLayer_eq (noise : ℕ → Noise α) {args : HyperParameters α} (addr : ℕ) {i : ℕ}
    (h : HasPositions args i) :
    ∃ kp lam, optionalAt args.keyProbValues 1 i = some kp
      ∧ optionalAt args.lambdaValues 0 i = some lam
      ∧ ∀ inputSize numOfNeurons : ℤ, newLayer noise args addr i inputSize numOfNeurons
        = DenseLayer.new (noise addr) addr inputSize numOfNeurons
          (args.learningRates.get ⟨i, h.learningRate⟩) (args.layerActivations.getD i "") kp
          lam := by
  obtain ⟨kp, hkp⟩ := optionalAt_isSome 1 h.keepProb
  obtain ⟨lam, hlam⟩ := optionalAt_isSome 0 h.lambda
  have hname : args.layerActivations[i]? = some (args.layerActivations.getD i "") := by
    simp [List.getD, List.getElem?_eq_getElem h.activation]
  refine ⟨kp, lam, hkp, hlam, fun inputSize numOfNeurons => ?_⟩
  rw [newLayer, at_eq_ok_iff.mpr hname, Checked.ok_bind,
    at_eq_ok_iff.mpr (List.getElem?_eq_getElem h.learningRate), Checked.ok_bind,
    optionalAt_eq_ok_iff.mpr hkp, Checked.ok_bind, optionalAt_eq_ok_iff.mpr hlam, Checked.ok_bind]
  rfl

/-- **A turn that can build its layer builds the layer it is asked for.** -/
theorem newLayer_ok (noise : ℕ → Noise α) {args : HyperParameters α} (addr : ℕ) {i : ℕ}
    {inputSize numOfNeurons : ℤ} (h : TurnBuilds (noise addr) args i inputSize numOfNeurons) :
    ∃ layer, newLayer noise args addr i inputSize numOfNeurons = .ok layer
      ∧ IsRequested noise args addr i inputSize numOfNeurons layer := by
  obtain ⟨n, rfl⟩ := Int.eq_ofNat_of_zero_le h.inputSize
  obtain ⟨k, rfl⟩ := Int.eq_ofNat_of_zero_le h.numOfNeurons
  obtain ⟨act, hact⟩ := h.accepts
  obtain ⟨kp, lam, hkp, hlam, hreads⟩ := newLayer_eq noise addr h.toHasPositions
  have hname : args.layerActivations[i]? = some (args.layerActivations.getD i "") := by
    simp [List.getD, List.getElem?_eq_getElem h.activation]
  have hlr : args.learningRates[i]? = some (args.learningRates.get ⟨i, h.learningRate⟩) :=
    List.getElem?_eq_getElem h.learningRate
  obtain ⟨layer, hrun, hnew⟩ := DenseLayer.new_natCast (noise addr) addr
    (args.learningRates.get ⟨i, h.learningRate⟩) kp lam h.sum h.memory hact
  refine ⟨layer, (hreads n k).trans hrun, ⟨hnew.addr, congrArg Nat.cast hnew.inputSize,
    congrArg Nat.cast hnew.outputSize, by rw [hname, hnew.activationFunc],
    by rw [hlr, hnew.learningRate], by rw [hkp, hnew.keepProb], by rw [hlam, hnew.lambda],
    by rw [hnew.activationFunc]; exact hnew.activationFunction,
    by rw [hnew.outputSize, hnew.inputSize, hnew.activationFunc, hnew.addr]; exact hnew.w,
    by rw [hnew.outputSize]; exact hnew.b⟩⟩

/-- A turn that is asked for one unit on one feature, with a constant draw
for its weight. -/
theorem newLayer_unit (noise : ℕ → Noise α) {args : HyperParameters α} (addr i : ℕ) {w lr : α}
    {name : String} {act : ActivationFunction} (hmemory : (noise addr).Allocates 1 1)
    (hdraw : Initializer.draw (noise addr) name 1 1 = fun _ _ => w)
    (hname : args.layerActivations[i]? = some name) (hlr : args.learningRates[i]? = some lr)
    (hact : ActivationFactory.getActivationClass name = .ok act)
    (hkeep : args.keyProbValues = []) (hlambda : args.lambdaValues = []) :
    newLayer noise args addr i 1 1 = .ok (.unit addr w 0 lr act name) := by
  have hrow : (noise addr).allocates 1 := hmemory.row
  have hweights : (noise addr).allocatesRows 1 1 := hmemory.weights
  have hsum : Initializer.SumFits name (1 : ℕ) (1 : ℕ) := Or.inr (by decide)
  have hw := Initializer.initializeWeights_natCast (noise addr) hsum hrow hweights
  rw [hdraw] at hw
  rw [newLayer, at_eq_ok_iff.mpr hname, Checked.ok_bind, at_eq_ok_iff.mpr hlr, Checked.ok_bind,
    hkeep, hlambda]
  show DenseLayer.new (noise addr) addr ((1 : ℕ) : ℤ) ((1 : ℕ) : ℤ) lr name 1 0 = _
  rw [DenseLayer.new, hw, Checked.ok_bind, vectorSize_natCast hrow, Checked.ok_bind,
    Checked.ok_bind, vectorSize_natCast hweights, Checked.ok_bind, hact]
  rfl

/-- A turn on sizes of at least `1`, without dropout and decay, builds a
layer that holds its draws. -/
theorem newLayer_holds (noise : ℕ → Noise α) (args : HyperParameters α) (addr i : ℕ) {n k : ℕ}
    (hk : 0 < k) {lr : α} {name : String} {act : ActivationFunction}
    (hsum : Initializer.SumFits name n k) (hmemory : (noise addr).Allocates n k)
    (hname : args.layerActivations[i]? = some name) (hlr : args.learningRates[i]? = some lr)
    (hact : ActivationFactory.getActivationClass name = .ok act)
    (hkeep : args.keyProbValues = []) (hlambda : args.lambdaValues = []) :
    ∃ layer, newLayer noise args addr i n k = .ok layer
      ∧ layer.Holds (⟨fun i q => Initializer.draw (noise addr) name n k i q, fun _ => 0, lr, 0, 1,
        act, hk⟩ : DenseParams α n k) := by
  obtain ⟨layer, hrun, hnew⟩ := DenseLayer.new_natCast (noise addr) addr lr 1 0 hsum hmemory hact
  refine ⟨layer, ?_, hnew.inputSize, hnew.outputSize, hnew.w, ?_, hnew.learningRate, hnew.lambda,
    hnew.keepProb, Except.ok.inj (hnew.activationFunction.symm.trans hact), ?_⟩
  · rw [newLayer, at_eq_ok_iff.mpr hname, Checked.ok_bind, at_eq_ok_iff.mpr hlr, Checked.ok_bind,
      hkeep, hlambda]
    exact hrun
  · rw [hnew.b, List.ofFn_const]
  · rw [hnew.activationFunc, hact]

/-- **A turn that cannot build its layer builds none.** It ends in an
exception where it stays defined. -/
theorem newLayer_error (noise : ℕ → Noise α) {args : HyperParameters α} (addr : ℕ) {i : ℕ}
    {inputSize numOfNeurons : ℤ} (h : ¬ TurnBuilds (noise addr) args i inputSize numOfNeurons) :
    ∃ e, newLayer noise args addr i inputSize numOfNeurons = .error e
      ∧ (e.isException ↔ StaysDefined args i inputSize numOfNeurons) := by
  by_cases hpos : HasPositions args i
  · obtain ⟨kp, lam, -, -, hreads⟩ := newLayer_eq noise addr hpos
    rw [hreads]
    by_cases hsum : Initializer.SumFits (args.layerActivations.getD i "") inputSize numOfNeurons
    · obtain ⟨e, he, hexc⟩ := DenseLayer.new_error (noise addr) addr
        (args.learningRates.get ⟨i, hpos.learningRate⟩) kp lam hsum
        fun hgood => h ⟨⟨⟨hpos, hsum⟩, hgood.1, hgood.2.1, hgood.2.2.2⟩, hgood.2.2.1⟩
      exact ⟨e, he, iff_of_true hexc ⟨hpos, hsum⟩⟩
    · exact ⟨.overflow, DenseLayer.new_overflow (noise addr) addr _ kp lam hsum,
        iff_of_false (by decide) fun hdefined => hsum hdefined.sum⟩
  · refine ⟨.outOfRange, ?_, iff_of_false (by decide) fun hdefined => hpos hdefined.toHasPositions⟩
    -- the first of the four reads past the end of its list
    rw [newLayer]
    by_cases ha : i < args.layerActivations.length
    · rw [at_eq_ok_iff.mpr (List.getElem?_eq_getElem ha), Checked.ok_bind]
      by_cases hl : i < args.learningRates.length
      · rw [at_eq_ok_iff.mpr (List.getElem?_eq_getElem hl), Checked.ok_bind]
        by_cases hk : args.keyProbValues.length ≠ 0 → i < args.keyProbValues.length
        · obtain ⟨kp, hkp⟩ := optionalAt_isSome 1 hk
          have hlam : ¬ (args.lambdaValues.length ≠ 0 → i < args.lambdaValues.length) :=
            fun hlam => hpos ⟨ha, hl, hk, hlam⟩
          rw [optionalAt_eq_ok_iff.mpr hkp, Checked.ok_bind, optionalAt_eq_error hlam,
            Checked.error_bind]
        · rw [optionalAt_eq_error hk, Checked.error_bind]
      · rw [at_eq_error (List.getElem?_eq_none (not_lt.mp hl)), Checked.error_bind]
    · rw [at_eq_error (List.getElem?_eq_none (not_lt.mp ha)), Checked.error_bind]

/-! ## The loop -/

/-- **A loop whose turns all build their layer builds the layers it is
asked for**, one for each size and in their order. -/
theorem pushLayers_ok (noise : ℕ → Noise α) {args : HyperParameters α} (next : ℕ)
    {sizes : List ℤ} {i : ℕ} {inputSize : ℤ}
    (h : ∀ j (hj : j < sizes.length), TurnBuilds (noise (next + (i + j))) args (i + j)
      ((inputSize :: sizes).get ⟨j, by simp; omega⟩) sizes[j]) :
    ∃ layers, pushLayers noise args next sizes i inputSize = (layers, .ok ())
      ∧ layers.length = sizes.length
      ∧ ∀ j (hj : j < sizes.length) (hj' : j < layers.length),
        IsRequested noise args (next + (i + j)) (i + j)
          ((inputSize :: sizes).get ⟨j, by simp; omega⟩) sizes[j] layers[j] := by
  induction sizes generalizing i inputSize with
  | nil => exact ⟨[], rfl, rfl, fun j hj => absurd hj (by simp)⟩
  | cons size sizes ih =>
    obtain ⟨layer, hrun, hlayer⟩ := newLayer_ok noise (next + i) (h 0 (by simp))
    obtain ⟨layers, hrun', hlen, hlayers⟩ := @ih (i + 1) size (fun j hj => by
      have := h (j + 1) (by simpa using hj)
      rwa [show i + (j + 1) = i + 1 + j by omega] at this)
    refine ⟨layer :: layers, ?_, by simp [hlen], fun j hj hj' => ?_⟩
    · simp only [List.get_eq_getElem, List.getElem_cons_zero, Nat.add_zero] at hrun
      rw [pushLayers, hrun]
      dsimp only
      rw [hrun']
    · cases j with
      | zero => exact hlayer
      | succ j =>
        have := hlayers j (by simpa using hj) (by simpa using hj')
        rwa [show i + 1 + j = i + (j + 1) by omega] at this

/-- **A loop with a turn that cannot build its layer stops in the first
such turn**, as that turn does, having pushed the layers of the turns before
it. -/
theorem pushLayers_error (noise : ℕ → Noise α) {args : HyperParameters α} (next : ℕ)
    {sizes : List ℤ} {i : ℕ} {inputSize : ℤ} {k : ℕ} {e : Fault} (hk : k < sizes.length)
    (hok : ∀ j (hj : j < k), TurnBuilds (noise (next + (i + j))) args (i + j)
      ((inputSize :: sizes).get ⟨j, by simp; omega⟩) sizes[j])
    (hbad : newLayer noise args (next + (i + k)) (i + k)
      ((inputSize :: sizes).get ⟨k, by simp; omega⟩) sizes[k] = .error e) :
    ∃ layers, pushLayers noise args next sizes i inputSize = (layers, .error e)
      ∧ layers.length = k := by
  induction sizes generalizing i inputSize k with
  | nil => exact absurd hk (by simp)
  | cons size sizes ih =>
    cases k with
    | zero =>
      -- the first turn is the bad one
      refine ⟨[], ?_, rfl⟩
      simp only [List.get_eq_getElem, List.getElem_cons_zero, Nat.add_zero] at hbad
      rw [pushLayers, hbad]
    | succ k =>
      -- the first turn builds a layer, and the bad one is one of the rest
      obtain ⟨layer, hrun, -⟩ := newLayer_ok noise (next + i) (hok 0 (by omega))
      obtain ⟨layers, hrun', hlen⟩ := @ih (i + 1) size k
        (by simpa using hk)
        (fun j hj => by
          have := hok (j + 1) (by omega)
          rwa [show i + (j + 1) = i + 1 + j by omega] at this)
        (by rwa [show i + (k + 1) = i + 1 + k by omega] at hbad)
      refine ⟨layer :: layers, ?_, by simp [hlen]⟩
      simp only [List.get_eq_getElem, List.getElem_cons_zero, Nat.add_zero] at hrun
      rw [pushLayers, hrun]
      dsimp only
      rw [hrun']

/-! ## The method -/

/-- The arguments of turn `j` of the loop over the sizes ask for a layer that
can be built. -/
def TurnAt (args : HyperParameters α) (j : ℕ) (hj : j < args.layerSizes.length) : Prop :=
  TurnOk args j ((args.inputSize :: args.layerSizes).get ⟨j, by simp; omega⟩) args.layerSizes[j]

/-- Turn `j` builds its layer. -/
def BuildsAt (noise : ℕ → Noise α) (next : ℕ) (args : HyperParameters α) (j : ℕ)
    (hj : j < args.layerSizes.length) : Prop :=
  TurnBuilds (noise (next + j)) args j
    ((args.inputSize :: args.layerSizes).get ⟨j, by simp; omega⟩) args.layerSizes[j]

/-- **There is memory for every layer.** -/
def HasMemory (noise : ℕ → Noise α) (next : ℕ) (args : HyperParameters α) : Prop :=
  ∀ j (hj : j < args.layerSizes.length), (noise (next + j)).Allocates
    ((args.inputSize :: args.layerSizes).get ⟨j, by simp; omega⟩) args.layerSizes[j]

omit [Double α] in
/-- There is, where there always is. -/
theorem hasMemory_of_unbounded {noise : ℕ → Noise α}
    (h : ∀ addr n, (noise addr).allocates n) (hrows : ∀ addr n k, (noise addr).allocatesRows n k)
    (next : ℕ) (args : HyperParameters α) : HasMemory noise next args :=
  fun j _ => Noise.allocates_of_unbounded (h (next + j)) (hrows (next + j)) _ _

/-- **When the arguments ask for a network that can be built**: every turn of
the loop asks for such a layer, and the loss factory has an object for the
loss. -/
structure Builds (args : HyperParameters α) : Prop where
  /-- Every turn of the loop asks for a layer that can be built. -/
  turns : ∀ j hj, TurnAt args j hj
  /-- The factory has an object for the name of the loss. -/
  loss : ∃ lossFunction, LossFactory.getLossClass args.lossFunc = .ok lossFunction

/-- **The layers are those the arguments ask for**: one for each size, in
the order of the sizes, each taking what the one before returns. -/
structure AreRequested (noise : ℕ → Noise α) (args : HyperParameters α) (next : ℕ)
    (layers : List (DenseLayer α)) : Prop where
  /-- There is a layer for every size. -/
  length : layers.length = args.layerSizes.length
  /-- The layer of turn `j` is the one it asks for. -/
  layer : ∀ j (hj : j < args.layerSizes.length) (hj' : j < layers.length),
    IsRequested noise args (next + j) j
      ((args.inputSize :: args.layerSizes).get ⟨j, by simp; omega⟩) args.layerSizes[j] layers[j]

/-- Layers that are what the arguments ask for, with sizes of at least `1`,
are chained. -/
theorem chained_of_isRequested {noise : ℕ → Noise α} {args : HyperParameters α} {next : ℕ}
    {layers : List (DenseLayer α)} {sizes : List ℤ} {i : ℕ} {inputSize : ℤ}
    (hlen : layers.length = sizes.length) (hsizes : ∀ size ∈ sizes, 1 ≤ size)
    (h : ∀ j (hj : j < sizes.length) (hj' : j < layers.length),
      IsRequested noise args (next + (i + j)) (i + j)
        ((inputSize :: sizes).get ⟨j, by simp; omega⟩) sizes[j] layers[j]) :
    layers.map (fun layer => (layer.outputSize : ℤ)) = sizes
      ∧ Chained inputSize.toNat layers (sizes.getLast?.getD inputSize).toNat := by
  induction sizes generalizing i inputSize layers with
  | nil =>
    obtain rfl := List.eq_nil_of_length_eq_zero hlen
    exact ⟨rfl, rfl⟩
  | cons size sizes ih =>
    obtain ⟨layer, layers, rfl⟩ : ∃ layer rest, layers = layer :: rest :=
      List.exists_cons_of_length_eq_add_one hlen
    have hlayer := h 0 (by simp) (by simp)
    obtain ⟨hmap, hchain⟩ := @ih layers (i + 1) size (by simpa using hlen)
      (fun s hs => hsizes s (List.mem_cons_of_mem _ hs))
      (fun j hj hj' => by
        have := h (j + 1) (by simpa using hj) (by simpa using hj')
        rwa [show i + (j + 1) = i + 1 + j by omega] at this)
    have hout : (layer.outputSize : ℤ) = size := hlayer.outputSize
    have hin : (layer.inputSize : ℤ) = inputSize := hlayer.inputSize
    refine ⟨by rw [List.map_cons, hmap, hout],
      hlayer.wellShaped (hsizes size List.mem_cons_self), by omega, ?_⟩
    have hlast : (size :: sizes).getLast?.getD inputSize = sizes.getLast?.getD size := by
      rw [List.getLast?_cons]
      rfl
    rw [hlast, show layer.outputSize = size.toNat by omega]
    exact hchain

/-- **The layers asked for are chained**, where the sizes are at least
`1`. -/
theorem AreRequested.chained {noise : ℕ → Noise α} {args : HyperParameters α} {next : ℕ}
    {layers : List (DenseLayer α)} (h : AreRequested noise args next layers)
    (hsizes : ∀ size ∈ args.layerSizes, 1 ≤ size) :
    layers.map (fun layer => (layer.outputSize : ℤ)) = args.layerSizes
      ∧ Chained args.inputSize.toNat layers args.outputSize.toNat := by
  have hlayer : ∀ j (hj : j < args.layerSizes.length) (hj' : j < layers.length),
      IsRequested noise args (next + (0 + j)) (0 + j)
        ((args.inputSize :: args.layerSizes).get ⟨j, by simp; omega⟩) args.layerSizes[j]
        layers[j] := fun j hj hj' => by
    rw [Nat.zero_add]
    exact h.layer j hj hj'
  exact chained_of_isRequested h.length hsizes hlayer

/-- A layer that is asked for is the layer of some turn. -/
theorem AreRequested.exists_turn {noise : ℕ → Noise α} {args : HyperParameters α}
    {next : ℕ} {layers : List (DenseLayer α)} (h : AreRequested noise args next layers)
    {layer : DenseLayer α} (hlayer : layer ∈ layers) :
    ∃ j inputSize numOfNeurons,
      IsRequested noise args (next + j) j inputSize numOfNeurons layer := by
  obtain ⟨j, hj, rfl⟩ := List.getElem_of_mem hlayer
  exact ⟨j, _, _, h.layer j (h.length ▸ hj) hj⟩

/-- The activations of the layers are those of the arguments, up to the
number of sizes. -/
theorem AreRequested.activations {noise : ℕ → Noise α} {args : HyperParameters α} {next : ℕ}
    {layers : List (DenseLayer α)} (h : AreRequested noise args next layers) :
    layers.map (·.activationFunc) = args.layerActivations.take args.layerSizes.length := by
  refine List.ext_getElem? fun j => ?_
  by_cases hj : j < args.layerSizes.length
  · have hj' : j < layers.length := h.length.symm ▸ hj
    rw [List.getElem?_map, List.getElem?_take_of_lt hj, (h.layer j hj hj').activation,
      List.getElem?_eq_getElem hj']
    rfl
  · have hj' : layers.length ≤ j := by rw [h.length]; omega
    rw [List.getElem?_eq_none (by simpa using hj'),
      List.getElem?_eq_none (by rw [List.length_take]; omega)]

/-- The layers after the method are those its loop pushed. -/
theorem setModelHyperParameters_layers (before : NeuralNetwork α) (noise : ℕ → Noise α) (next : ℕ)
    (args : HyperParameters α) :
    (before.setModelHyperParameters noise next args).1.layers
      = (pushLayers noise args next args.layerSizes 0 args.inputSize).1 := by
  unfold setModelHyperParameters
  dsimp only
  split
  · rfl
  · split <;> rfl

/-- Turns that all build their layer build the layers asked for. -/
theorem pushLayers_areRequested {noise : ℕ → Noise α} {args : HyperParameters α} {next : ℕ}
    (h : ∀ j hj, BuildsAt noise next args j hj) :
    ∃ layers, pushLayers noise args next args.layerSizes 0 args.inputSize = (layers, .ok ())
      ∧ AreRequested noise args next layers := by
  obtain ⟨layers, hrun, hlen, hlayers⟩ := pushLayers_ok noise next (i := 0) (fun j hj => by
    rw [Nat.zero_add]; exact h j hj)
  refine ⟨layers, hrun, hlen, fun j hj hj' => ?_⟩
  have := hlayers j hj hj'
  rwa [Nat.zero_add] at this

omit [Double α] in
/-- A network that can be built is built turn by turn, where there is
memory. -/
theorem Builds.buildsAt {noise : ℕ → Noise α} {next : ℕ} {args : HyperParameters α}
    (h : Builds args) (hmemory : HasMemory noise next args) (j : ℕ)
    (hj : j < args.layerSizes.length) : BuildsAt noise next args j hj :=
  ⟨h.turns j hj, hmemory j hj⟩

/-- **`setModelHyperParameters` on arguments that build** leaves the layers
and the loss object they ask for. -/
theorem setModelHyperParameters_ok (before : NeuralNetwork α) {noise : ℕ → Noise α} {next : ℕ}
    {args : HyperParameters α} (h : Builds args) (hmemory : HasMemory noise next args) :
    ∃ layers lossFunction, before.setModelHyperParameters noise next args
        = ({ before with layers, lossFunction }, .ok ())
      ∧ AreRequested noise args next layers
      ∧ LossFactory.getLossClass args.lossFunc = .ok lossFunction := by
  obtain ⟨layers, hrun, hlayers⟩ := pushLayers_areRequested (h.buildsAt hmemory)
  obtain ⟨lossFunction, hloss⟩ := h.loss
  refine ⟨layers, lossFunction, ?_, hlayers, hloss⟩
  rw [setModelHyperParameters, hrun, hloss]

/-- The constructor on arguments that build. -/
theorem new_ok {noise : ℕ → Noise α} {next : ℕ} {args : HyperParameters α} (h : Builds args)
    (hmemory : HasMemory noise next args) :
    ∃ nn : NeuralNetwork α, NeuralNetwork.new noise next args = .ok nn
      ∧ AreRequested noise args next nn.layers
      ∧ LossFactory.getLossClass args.lossFunc = .ok nn.lossFunction := by
  obtain ⟨layers, hrun, hlayers⟩ := pushLayers_areRequested (h.buildsAt hmemory)
  obtain ⟨lossFunction, hloss⟩ := h.loss
  refine ⟨⟨lossFunction, layers, [], []⟩, ?_, hlayers, hloss⟩
  rw [NeuralNetwork.new, hrun]
  dsimp only
  rw [Checked.ok_bind, hloss]
  rfl

/-- A loop with a turn that cannot build its layer stops in one. -/
theorem pushLayers_not_turns (noise : ℕ → Noise α) {args : HyperParameters α} (next : ℕ)
    (h : ¬ ∀ j hj, BuildsAt noise next args j hj) :
    ∃ k layers e, pushLayers noise args next args.layerSizes 0 args.inputSize = (layers, .error e)
      ∧ layers.length = k ∧ (∀ j hj, j < k → BuildsAt noise next args j hj)
      ∧ ∃ hk : k < args.layerSizes.length, ¬ BuildsAt noise next args k hk
        ∧ newLayer noise args (next + k) k
          ((args.inputSize :: args.layerSizes).get ⟨k, by simp; omega⟩) args.layerSizes[k]
          = .error e := by
  classical
  push Not at h
  obtain ⟨hk, hbad⟩ := Nat.find_spec h
  have hbefore : ∀ j hj, j < Nat.find h → BuildsAt noise next args j hj := fun j hj hlt => by
    by_contra hcon
    exact Nat.find_min h hlt ⟨hj, hcon⟩
  obtain ⟨e, he, -⟩ := newLayer_error noise (next + Nat.find h) hbad
  obtain ⟨layers, hrun, hlen⟩ := pushLayers_error noise next (i := 0) hk
    (fun j hj => by rw [Nat.zero_add]; exact hbefore j (by omega) hj)
    (by rw [Nat.zero_add]; exact he)
  exact ⟨Nat.find h, layers, e, hrun, hlen, hbefore, hk, hbad, he⟩

/-- **`setModelHyperParameters` succeeds on the arguments that build, where
there is memory, and on no others.** -/
theorem setModelHyperParameters_ok_iff (before : NeuralNetwork α) (noise : ℕ → Noise α) (next : ℕ)
    {args : HyperParameters α} :
    (∃ nn, before.setModelHyperParameters noise next args = (nn, .ok ()))
      ↔ Builds args ∧ HasMemory noise next args := by
  constructor
  · rintro ⟨nn, hrun⟩
    have hturns : ∀ j hj, BuildsAt noise next args j hj := by
      by_contra hcon
      obtain ⟨k, layers, e, hpush, -⟩ := pushLayers_not_turns noise next hcon
      rw [setModelHyperParameters, hpush] at hrun
      simp at hrun
    refine ⟨⟨fun j hj => (hturns j hj).toTurnOk, ?_⟩, fun j hj => (hturns j hj).memory⟩
    obtain ⟨layers, hpush, -⟩ := pushLayers_areRequested hturns
    rw [setModelHyperParameters, hpush] at hrun
    cases hloss : LossFactory.getLossClass args.lossFunc with
    | ok lossFunction => exact ⟨lossFunction, rfl⟩
    | error e => rw [hloss] at hrun; simp at hrun
  · rintro ⟨h, hmemory⟩
    obtain ⟨layers, lossFunction, hrun, -⟩ := setModelHyperParameters_ok before h hmemory
    exact ⟨_, hrun⟩

end NeuralNetwork
