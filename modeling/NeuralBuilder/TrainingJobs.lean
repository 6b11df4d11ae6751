import NeuralBuilder.Building
import NeuralBuilder.Training

/-!
# Training jobs

A network is built from well-formed arguments, by the constructor or by
`setModelHyperParameters` on whatever network there was, and is then sent
any number of training jobs. `runJobs_ok` says that every job goes through:
no guard of the matrix kernel throws, no vector is read, written or sliced
out of its range in any mini-batch of any epoch, and the shapes of the
layers stay what they were built with.

Two things can keep well-formed arguments from building their network: the
sizes of a layer may add up to more than an `int` holds, and there may be no
memory for a layer. `stops_without_network` says that nothing else does.
-/

variable {α : Type} [Double α]

/-- **Well-formed arguments**: a non-empty list of sizes, all sizes at least
`1`, and lists of the same length for what goes with each layer, the last
two of which may also be left out. -/
structure HyperParameters.WellFormed (args : HyperParameters α) : Prop where
  /-- There is a feature. -/
  inputSize : 1 ≤ args.inputSize
  /-- There is a layer. -/
  nonempty : args.layerSizes ≠ []
  /-- Every layer has a unit. -/
  sizes : ∀ size ∈ args.layerSizes, 1 ≤ size
  /-- Every layer has an activation. -/
  activations : args.layerActivations.length = args.layerSizes.length
  /-- The factory knows it. -/
  accepts : ∀ name ∈ args.layerActivations, ActivationFactory.Accepts name
  /-- Every layer has a learning rate. -/
  learningRates : args.learningRates.length = args.layerSizes.length
  /-- Dropout is given for every layer or for none. -/
  keyProbValues : args.keyProbValues = [] ∨ args.keyProbValues.length = args.layerSizes.length
  /-- So is the weight decay. -/
  lambdaValues : args.lambdaValues = [] ∨ args.lambdaValues.length = args.layerSizes.length

/-- **The sums the initialisers take of the sizes fit an `int`.** -/
def HyperParameters.SumsFit (args : HyperParameters α) : Prop :=
  ∀ j (hj : j < args.layerSizes.length), Initializer.SumFits (args.layerActivations.getD j "")
    ((args.inputSize :: args.layerSizes).get ⟨j, Nat.lt_succ_of_lt hj⟩) args.layerSizes[j]

/-- A training call. -/
structure Job (α : Type) where
  /-- A row for each feature. -/
  inputLayer : Mat α
  /-- The targets, a column for each sample. -/
  targets : Mat α
  /-- How many epochs are run. -/
  epochNum : ℤ
  /-- How many samples a mini-batch has. -/
  miniBatchSize : ℤ
  /-- The connection the epochs are reported to, if there is one. -/
  ws_conn : Option ℕ

/-- **A well-formed job** of `m` samples. -/
structure Job.WellFormed (job : Job α) (args : HyperParameters α) (lossFunction : LossFunction)
    (m : ℕ) : Prop where
  /-- There is a sample. -/
  samples : 1 ≤ m
  /-- There is a row for each feature the network takes. -/
  inputLayer : Grid.IsRect args.inputSize.toNat m job.inputLayer
  /-- Every sample has its targets. -/
  targets : Grid.IsRect job.targets.length m job.targets
  /-- The loss can read them. -/
  fit : lossFunction.TargetsFit args.outputSize.toNat job.targets
  /-- A mini-batch has a sample. -/
  miniBatchSize : 1 ≤ job.miniBatchSize

namespace NeuralNetwork

/-- The training calls, one after the other. -/
def runJobs (fuel : ℕ) (nn : NeuralNetwork α) (rand : ℕ → α) :
    List (Job α) → Except Fault (NeuralNetwork α × (ℕ → α))
  | [] => .ok (nn, rand)
  | job :: jobs => do
    let (_, nn, rand, _) ← nn.train fuel rand job.inputLayer job.targets job.epochNum
      job.miniBatchSize job.ws_conn
    runJobs fuel nn rand jobs

/-- **The shapes of a network built from `args`**: a layer per size, of that
size, with weights and biases of the shape its sizes say, and each layer
taking what the one before returns. -/
structure HasShape (args : HyperParameters α) (nn : NeuralNetwork α) : Prop where
  /-- The layers have the sizes that were asked for. -/
  outputSizes : nn.layers.map (fun layer => (layer.outputSize : ℤ)) = args.layerSizes
  /-- Each takes what the one before returns. -/
  chained : Chained args.inputSize.toNat nn.layers args.outputSize.toNat

/-! ## The network that is built -/

omit [Double α] in
/-- The turns of the loop over well-formed arguments read no list past its
end. -/
theorem hasPositions_of_wellFormed {args : HyperParameters α} (h : args.WellFormed) {j : ℕ}
    (hj : j < args.layerSizes.length) : HasPositions args j where
  activation := by rw [h.activations]; exact hj
  learningRate := by rw [h.learningRates]; exact hj
  keepProb hne := by
    rcases h.keyProbValues with hnil | hlen
    · simp [hnil] at hne
    · rw [hlen]; exact hj
  lambda hne := by
    rcases h.lambdaValues with hnil | hlen
    · simp [hnil] at hne
    · rw [hlen]; exact hj

omit [Double α] in
/-- Where the sums of their sizes fit, they all ask for a layer that can be
built. -/
theorem turnOk_of_wellFormed {args : HyperParameters α} (h : args.WellFormed) {j : ℕ}
    (hj : j < args.layerSizes.length)
    (hsum : Initializer.SumFits (args.layerActivations.getD j "")
      ((args.inputSize :: args.layerSizes).get ⟨j, Nat.lt_succ_of_lt hj⟩) args.layerSizes[j]) :
    TurnAt args j hj where
  toHasPositions := hasPositions_of_wellFormed h hj
  sum := hsum
  inputSize := by
    have hinput := h.inputSize
    have hmem := List.get_mem (args.inputSize :: args.layerSizes) ⟨j, by simp; omega⟩
    rcases List.mem_cons.mp hmem with heq | hmem
    · omega
    · have := h.sizes _ hmem; omega
  numOfNeurons := by have := h.sizes _ (List.getElem_mem hj); omega
  accepts := by
    have hj' : j < args.layerActivations.length := by rw [h.activations]; exact hj
    have hget : args.layerActivations.getD j "" = args.layerActivations.get ⟨j, hj'⟩ := by
      simp [List.getD, List.getElem?_eq_getElem hj']
    rw [hget]
    exact h.accepts _ (List.get_mem _ _)

/-- **Well-formed arguments build layers of the shape they ask for**, where
the sums of their sizes fit and there is memory. -/
theorem pushLayers_wellFormed {noise : ℕ → Noise α} {next : ℕ} {args : HyperParameters α}
    (h : args.WellFormed) (hsums : args.SumsFit) (hmemory : HasMemory noise next args) :
    ∃ layers, pushLayers noise args next args.layerSizes 0 args.inputSize = (layers, .ok ())
      ∧ layers.map (fun layer => (layer.outputSize : ℤ)) = args.layerSizes
      ∧ Chained args.inputSize.toNat layers args.outputSize.toNat := by
  obtain ⟨layers, hrun, hlayers⟩ :=
    pushLayers_areRequested fun j hj => ⟨turnOk_of_wellFormed h hj (hsums j hj), hmemory j hj⟩
  exact ⟨layers, hrun, hlayers.chained h.sizes⟩

/-- A turn of the loop over well-formed arguments that builds no layer has an
overflow in the sum of its sizes or finds no memory. -/
theorem newLayer_stops {noise : ℕ → Noise α} {next : ℕ} {args : HyperParameters α}
    (h : args.WellFormed) {j : ℕ} (hj : j < args.layerSizes.length)
    (hstop : ¬ BuildsAt noise next args j hj) {e : Fault}
    (he : newLayer noise args (next + j) j
      ((args.inputSize :: args.layerSizes).get ⟨j, Nat.lt_succ_of_lt hj⟩) args.layerSizes[j]
      = .error e) : e = .overflow ∨ e = .badAlloc := by
  have hpos := hasPositions_of_wellFormed h hj
  obtain ⟨kp, lam, -, -, hreads⟩ := newLayer_eq noise (next + j) hpos
  rw [hreads] at he
  by_cases hsum : Initializer.SumFits (args.layerActivations.getD j "")
      ((args.inputSize :: args.layerSizes).get ⟨j, Nat.lt_succ_of_lt hj⟩) args.layerSizes[j]
  · -- the layer can be built, so it is memory that is missing
    have hturn := turnOk_of_wellFormed h hj hsum
    obtain ⟨n, hn⟩ := Int.eq_ofNat_of_zero_le hturn.inputSize
    obtain ⟨k, hk⟩ := Int.eq_ofNat_of_zero_le hturn.numOfNeurons
    have hmemory : ¬ (noise (next + j)).Allocates n k := fun hmemory =>
      hstop ⟨hturn, by rw [hn, hk]; exact hmemory⟩
    rw [hn, hk] at he hsum
    rw [DenseLayer.new_badAlloc _ _ _ _ _ hsum hmemory] at he
    exact Or.inr (Except.error.inj he).symm
  · rw [DenseLayer.new_overflow _ _ _ _ _ hsum] at he
    exact Or.inl (Except.error.inj he).symm

/-- **Nothing else keeps well-formed arguments from building their
network.** -/
theorem stops_without_network {noise : ℕ → Noise α} {next : ℕ} {args : HyperParameters α}
    (h : args.WellFormed) (hstop : ¬ (args.SumsFit ∧ HasMemory noise next args)) :
    ∃ e, (e = .overflow ∨ e = .badAlloc) ∧ NeuralNetwork.new noise next args = .error e
      ∧ ∀ before : NeuralNetwork α,
        ∃ nn, before.setModelHyperParameters noise next args = (nn, .error e) := by
  have hturns : ¬ ∀ j hj, BuildsAt noise next args j hj := fun hturns =>
    hstop ⟨fun j hj => (hturns j hj).sum, fun j hj => (hturns j hj).memory⟩
  obtain ⟨k, layers, e, hpush, -, -, hk, hbad, he⟩ := pushLayers_not_turns noise next hturns
  refine ⟨e, newLayer_stops h hk hbad he, ?_, fun before => ⟨{ before with layers }, ?_⟩⟩
  · rw [NeuralNetwork.new, hpush]
    rfl
  · rw [setModelHyperParameters, hpush]

/-! ## The jobs -/

omit [Double α] in
/-- What a network of that shape is for the training loops. -/
theorem HasShape.sound {args : HyperParameters α} {nn : NeuralNetwork α} (h : HasShape args nn) :
    Sound args.inputSize.toNat args.outputSize.toNat (args.layerSizes.map Int.toNat)
      nn.lossFunction nn := by
  obtain ⟨N, hN⟩ := Network.chained_iff.mp h.chained
  refine ⟨⟨N, hN, ?_⟩, rfl⟩
  rw [← hN.outputSizes, ← h.outputSizes, List.map_map]
  exact List.map_congr_left fun layer _ => (Int.toNat_natCast _).symm

omit [Double α] in
theorem Sound.hasShape {args : HyperParameters α} {nn : NeuralNetwork α}
    {lossFunction : LossFunction} (hsizes : ∀ size ∈ args.layerSizes, 1 ≤ size)
    (h : Sound args.inputSize.toNat args.outputSize.toNat (args.layerSizes.map Int.toNat)
      lossFunction nn) : HasShape args nn := by
  obtain ⟨N, hN, hNsizes⟩ := h.network
  refine ⟨?_, Network.chained_iff.mpr ⟨N, hN⟩⟩
  have hmap : nn.layers.map (·.outputSize) = args.layerSizes.map Int.toNat := by
    rw [hN.outputSizes, hNsizes]
  have hcast := congrArg (List.map (fun k : ℕ => (k : ℤ))) hmap
  rw [List.map_map, List.map_map] at hcast
  refine hcast.trans ((List.map_congr_left fun size hsize => ?_).trans (List.map_id _))
  have := hsizes size hsize
  exact Int.toNat_of_nonneg (by omega)

/-- The targets of a well-formed job have a row, and the loss can read
them. -/
theorem exists_targets {job : Job α} {args : HyperParameters α} {lossFunction : LossFunction}
    {m : ℕ} (hargs : args.WellFormed) (h : job.WellFormed args lossFunction m) :
    0 < job.targets.length ∧ ∃ T : Fin job.targets.length → Fin m → α,
      job.targets = Grid.ofFn T ∧ lossFunction.Fits args.outputSize.toNat T := by
  obtain ⟨T, hT⟩ := Grid.exists_ofFn h.targets
  have hfit : lossFunction.Fits args.outputSize.toNat T := by
    have := h.fit
    rw [hT] at this
    exact this.fits
  refine ⟨?_, T, hT, hfit⟩
  cases lossFunction with
  | sigmoidCrossEntropy =>
    have hout : 1 ≤ args.outputSize := by
      rw [HyperParameters.outputSize, List.getLast?_eq_getLast_of_ne_nil hargs.nonempty]
      exact hargs.sizes _ (List.getLast_mem hargs.nonempty)
    have hlen : args.outputSize.toNat ≤ job.targets.length := hfit
    omega
  | categoricalCrossEntropy => exact hfit.1

/-- **A well-formed job goes through**, and leaves a network of the same
shape and with the same loss. -/
theorem train_wellFormed {args : HyperParameters α} (hargs : args.WellFormed)
    {lossFunction : LossFunction} {fuel m : ℕ} {job : Job α}
    (hjob : job.WellFormed args lossFunction m) (hm : m ≤ fuel) {nn : NeuralNetwork α}
    (rand : ℕ → α) (hshape : HasShape args nn) (hloss : nn.lossFunction = lossFunction) :
    ∃ accuracy nn' rand' sent,
      nn.train fuel rand job.inputLayer job.targets job.epochNum job.miniBatchSize job.ws_conn
        = .ok (accuracy, nn', rand', sent)
      ∧ HasShape args nn' ∧ nn'.lossFunction = lossFunction := by
  have hn : 0 < args.inputSize.toNat := by have := hargs.inputSize; omega
  obtain ⟨X, hX⟩ := Grid.exists_ofFn hjob.inputLayer
  obtain ⟨ht, T, hT, hfit⟩ := exists_targets hargs hjob
  have hsound := hshape.sound
  rw [hloss] at hsound
  obtain ⟨accuracy, nn', rand', sent, hrun, hsound'⟩ := train_ok hsound rand X T hn
    hjob.samples ht hfit job.epochNum hjob.miniBatchSize job.ws_conn hm
  rw [hX, hT]
  exact ⟨accuracy, nn', rand', sent, hrun, hsound'.hasShape hargs.sizes, hsound'.lossFunction⟩

/-- **Any number of well-formed jobs goes through**, and leaves a network of
the same shape. -/
theorem runJobs_ok {args : HyperParameters α} (hargs : args.WellFormed)
    {lossFunction : LossFunction} {fuel : ℕ} {jobs : List (Job α)}
    (hjobs : ∀ job ∈ jobs, ∃ m ≤ fuel, job.WellFormed args lossFunction m)
    {nn : NeuralNetwork α} (rand : ℕ → α) (hshape : HasShape args nn)
    (hloss : nn.lossFunction = lossFunction) :
    ∃ nn' rand', runJobs fuel nn rand jobs = .ok (nn', rand') ∧ HasShape args nn' := by
  induction jobs generalizing nn rand with
  | nil => exact ⟨nn, rand, rfl, hshape⟩
  | cons job jobs ih =>
    obtain ⟨m, hm, hjob⟩ := hjobs job List.mem_cons_self
    obtain ⟨accuracy, nn₁, rand₁, sent, hrun, hshape₁, hloss₁⟩ :=
      train_wellFormed hargs hjob hm rand hshape hloss
    obtain ⟨nn₂, rand₂, hrun', hshape₂⟩ :=
      ih (fun j hj => hjobs j (List.mem_cons_of_mem _ hj)) rand₁ hshape₁ hloss₁
    refine ⟨nn₂, rand₂, ?_, hshape₂⟩
    rw [runJobs, hrun, Checked.ok_bind]
    exact hrun'

/-- **A well-formed training job never goes out of range**: the constructor
builds a network from well-formed arguments, and so does
`setModelHyperParameters` on whatever network there was; any number of
well-formed jobs then goes through, within as many turns of the mini-batch
loop as a job has samples, and keeps the shapes of the layers. This is so
whenever there is memory for the layers and no two sizes overflow when they
are added; otherwise no network is built, for one of these two reasons, and
no job is sent. -/
theorem jobs_never_out_of_range (noise : ℕ → Noise α) (next : ℕ) {args : HyperParameters α}
    (hargs : args.WellFormed) {lossFunction : LossFunction}
    (hloss : LossFactory.getLossClass args.lossFunc = .ok lossFunction) {fuel : ℕ}
    {jobs : List (Job α)} (hjobs : ∀ job ∈ jobs, ∃ m ≤ fuel, job.WellFormed args lossFunction m)
    (rand : ℕ → α) :
    (args.SumsFit ∧ HasMemory noise next args →
      (∃ nn, NeuralNetwork.new noise next args = .ok nn ∧ HasShape args nn
        ∧ ∃ nn' rand', runJobs fuel nn rand jobs = .ok (nn', rand') ∧ HasShape args nn')
      ∧ ∀ before : NeuralNetwork α,
        ∃ nn, before.setModelHyperParameters noise next args = (nn, .ok ()) ∧ HasShape args nn
          ∧ ∃ nn' rand', runJobs fuel nn rand jobs = .ok (nn', rand') ∧ HasShape args nn')
    ∧ (¬ (args.SumsFit ∧ HasMemory noise next args) →
      ∃ e, (e = .overflow ∨ e = .badAlloc) ∧ NeuralNetwork.new noise next args = .error e
        ∧ ∀ before : NeuralNetwork α,
          ∃ nn, before.setModelHyperParameters noise next args = (nn, .error e)) := by
  refine ⟨fun hbuilds => ?_, stops_without_network hargs⟩
  obtain ⟨layers, hpush, hmap, hchain⟩ := pushLayers_wellFormed hargs hbuilds.1 hbuilds.2
  constructor
  · have hshape : HasShape args ⟨lossFunction, layers, [], []⟩ := ⟨hmap, hchain⟩
    refine ⟨⟨lossFunction, layers, [], []⟩, ?_, hshape,
      runJobs_ok hargs hjobs rand hshape rfl⟩
    rw [NeuralNetwork.new, hpush, hloss]
    rfl
  · intro before
    have hshape : HasShape args { before with layers, lossFunction } := ⟨hmap, hchain⟩
    refine ⟨{ before with layers, lossFunction }, ?_, hshape,
      runJobs_ok hargs hjobs rand hshape rfl⟩
    rw [setModelHyperParameters, hpush, hloss]

/-- One relu layer and a softmax layer on two features, and a job of one
sample. -/
def exampleArgs : HyperParameters ℝ where
  layerSizes := [3, 2]
  layerActivations := ["relu", "softmax"]
  lossFunc := "categorical cross entropy"
  learningRates := [1, 1]
  keyProbValues := []
  lambdaValues := []
  inputSize := 2

def exampleJob : Job ℝ where
  inputLayer := [[1], [0]]
  targets := [[1]]
  epochNum := 5
  miniBatchSize := 1
  ws_conn := none

theorem exampleArgs_wellFormed : exampleArgs.WellFormed where
  inputSize := by decide
  nonempty := by decide
  sizes := by decide
  activations := rfl
  accepts name hname := by
    rcases List.mem_cons.mp hname with rfl | hname
    · exact ⟨.relu, rfl⟩
    · obtain rfl := List.mem_singleton.mp hname
      exact ⟨.softmax, rfl⟩
  learningRates := rfl
  keyProbValues := Or.inl rfl
  lambdaValues := Or.inl rfl

/-- The softmax layer adds `3` and `2`, and the relu layer adds nothing. -/
theorem exampleArgs_sumsFit : exampleArgs.SumsFit := by
  intro j hj
  have hj' : j < 2 := hj
  obtain rfl | rfl : j = 0 ∨ j = 1 := by omega
  · exact Or.inl rfl
  · exact Or.inr (show (-2 ^ 31 : ℤ) ≤ 3 + 2 ∧ (3 + 2 : ℤ) < 2 ^ 31 by decide)

/-- Draws of `0`, and memory for everything. -/
def exampleNoise : Noise ℝ := ⟨fun _ _ _ _ => 0, fun _ _ _ _ => 0, fun _ => true, fun _ _ => true⟩

theorem exampleJob_wellFormed : exampleJob.WellFormed exampleArgs .categoricalCrossEntropy 1 where
  samples := le_rfl
  inputLayer := ⟨rfl, by simp [exampleJob]⟩
  targets := ⟨rfl, by simp [exampleJob]⟩
  fit := ⟨[1], [], rfl, fun label hlabel => by
    obtain rfl := List.mem_singleton.mp hlabel
    have := Double.toInt_natCast 1
    rw [Nat.cast_one] at this
    rw [this]
    decide⟩
  miniBatchSize := le_rfl

theorem exampleJob_never_out_of_range :
    (∃ nn, NeuralNetwork.new (fun _ => exampleNoise) 0 exampleArgs = .ok nn
      ∧ HasShape exampleArgs nn
      ∧ ∃ nn' rand', runJobs 1 nn (fun _ => 0) [exampleJob, exampleJob] = .ok (nn', rand')
        ∧ HasShape exampleArgs nn')
    ∧ ∀ before : NeuralNetwork ℝ, ∃ nn,
      before.setModelHyperParameters (fun _ => exampleNoise) 0 exampleArgs = (nn, .ok ())
        ∧ HasShape exampleArgs nn
        ∧ ∃ nn' rand', runJobs 1 nn (fun _ => 0) [exampleJob, exampleJob] = .ok (nn', rand')
          ∧ HasShape exampleArgs nn' :=
  (jobs_never_out_of_range (fun _ => exampleNoise) 0 exampleArgs_wellFormed
    (show LossFactory.getLossClass exampleArgs.lossFunc = .ok .categoricalCrossEntropy from rfl)
    (fun job hjob => ⟨1, le_rfl, by
      obtain rfl : job = exampleJob := by simpa using hjob
      exact exampleJob_wellFormed⟩)
    (fun _ => 0)).1
    ⟨exampleArgs_sumsFit, hasMemory_of_unbounded (fun _ _ => rfl) (fun _ _ _ => rfl) 0 exampleArgs⟩

end NeuralNetwork
