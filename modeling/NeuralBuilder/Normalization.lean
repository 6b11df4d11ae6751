import NeuralBuilder.Draws
import NeuralBuilder.Library.Runs
import NeuralBuilder.TrainingJobs

/-!
# The statistics `normalize` keeps

`normalize(input, true)` appends the mean and the standard deviation of
every feature to `means` and `stdevs`, and nothing ever clears the two. So
after any sequence of calls they are those of all the training sets, one
after the other (`run_statistics`), and `normalize(input, false)` reads the
first entries: it uses the statistics of the most recent training set as
long as that is the only one.

A sequence of calls is a list of `Call`s, of the two kinds in any order. Only
the training sets of the sequence count (`trainingSets`), since a call at
inference changes nothing. `normalizes_by_last_iff` says for which sequences the
statistics in use are those of the last training set; the arithmetic is any.
-/

open Runs

variable {α : Type} [Double α]

namespace NeuralNetwork

/-- A call that may change a network after it is constructed. -/
inductive Call (α : Type)
  | setModelHyperParameters (noise : ℕ → Noise α) (next : ℕ) (args : HyperParameters α)
  | train (job : Job α)
  | trainVal (inputLayer targets inputsVal targetsVal : Mat α) (epochNum miniBatchSize : ℤ)

namespace Call

/-- **A call that leaves the object usable**: `setModelHyperParameters` also
where it throws. The object goes together with the calls of `rand()` to
come. -/
def Step (s : NeuralNetwork α × (ℕ → α)) (call : Call α) (s' : NeuralNetwork α × (ℕ → α)) :
    Prop :=
  match call with
  | setModelHyperParameters noise next args =>
    ∃ result, s.1.setModelHyperParameters noise next args = (s'.1, result)
      ∧ (∀ e, result = .error e → e.isException) ∧ s'.2 = s.2
  | train job => ∃ fuel accuracy sent,
    s.1.train fuel s.2 job.inputLayer job.targets job.epochNum job.miniBatchSize job.ws_conn
      = .ok (accuracy, s'.1, s'.2, sent)
  | trainVal inputLayer targets inputsVal targetsVal epochNum miniBatchSize => ∃ fuel costVal,
    s.1.trainVal fuel s.2 inputLayer targets inputsVal targetsVal epochNum miniBatchSize
      = .ok (costVal, s'.1, s'.2)

/-- The training set of a call. -/
def input : Call α → Option (Mat α)
  | setModelHyperParameters _ _ _ => none
  | train job => some job.inputLayer
  | trainVal inputLayer _ _ _ _ _ => some inputLayer

end Call

/-- The training sets of a sequence of calls. -/
def trainingSets (calls : List (Call α)) : List (Mat α) :=
  calls.filterMap Call.input

/-- **`normalize(Y, false)` uses the statistics of `X`**: there is an entry
per feature, and feature `i` of any `Y` is mapped with the mean and the
standard deviation of feature `i` of `X`. -/
structure NormalizesBy (nn : NeuralNetwork α) (X : Mat α) : Prop where
  /-- There is a mean for each feature. -/
  means : nn.means.length = X.length
  /-- And a deviation. -/
  stdevs : nn.stdevs.length = X.length
  /-- Feature `i` is mapped with those of feature `i` of `X`. -/
  normalize : ∀ Y : Mat α, Y.length ≤ X.length → nn.normalizeWith Y
    = .ok (List.zipWith (fun feature row =>
        row.map (rescale (mean feature.length feature) (stdev feature.length feature))) X Y)

/-! ## What a call does to the statistics -/

/-- The statistics of an object. -/
def statistics (nn : NeuralNetwork α) : Vec α × Vec α := (nn.means, nn.stdevs)

theorem forwardPropagation_statistics {nn nn' : NeuralNetwork α} {rand rand' : ℕ → α}
    {input predictions : Mat α}
    (h : nn.forwardPropagation rand input = .ok (predictions, nn', rand')) :
    nn'.statistics = nn.statistics := by
  rw [forwardPropagation, Checked.bind_eq_ok_iff] at h
  obtain ⟨result, -, hreturn⟩ := h
  obtain rfl := (Prod.ext_iff.mp (Prod.ext_iff.mp (Except.ok.inj hreturn)).2).1
  rfl

theorem backwardPropagation_statistics {nn nn' : NeuralNetwork α} {da da' : Mat α}
    (h : nn.backwardPropagation da = .ok (da', nn')) : nn'.statistics = nn.statistics := by
  rw [backwardPropagation, Checked.bind_eq_ok_iff] at h
  obtain ⟨result, -, hreturn⟩ := h
  obtain rfl := (Prod.ext_iff.mp (Except.ok.inj hreturn)).2
  rfl

/-- A batch of `train` leaves the statistics alone. -/
theorem trainBatch_statistics {s s' : Training α} {batch : Mat α × Mat α}
    (h : trainBatch s batch = .ok s') : s'.nn.statistics = s.nn.statistics := by
  simp only [trainBatch, Checked.bind_eq_ok_iff] at h
  obtain ⟨-, -, ⟨_, nn₁, _⟩, hforward, _, -, _, -, _, -, ⟨_, nn₂⟩, hbackward, hreturn⟩ := h
  rw [← Except.ok.inj hreturn]
  exact (backwardPropagation_statistics hbackward).trans (forwardPropagation_statistics hforward)

/-- A batch of `trainVal` leaves the statistics alone. -/
theorem trainValBatch_statistics {predictionsVal targetsVal : Mat α}
    {s s' : Option α × NeuralNetwork α × (ℕ → α)} {batch : Mat α × Mat α}
    (h : trainValBatch predictionsVal targetsVal s batch = .ok s') :
    s'.2.1.statistics = s.2.1.statistics := by
  simp only [trainValBatch, Checked.bind_eq_ok_iff] at h
  obtain ⟨⟨_, nn₁, _⟩, hforward, _, -, _, -, _, -, _, -, _, -, ⟨_, nn₂⟩, hbackward, hreturn⟩ := h
  rw [← Except.ok.inj hreturn]
  exact (backwardPropagation_statistics hbackward).trans (forwardPropagation_statistics hforward)

theorem trainEpoch_statistics {s s' : Training α} {batches : List (Mat α × Mat α)}
    (h : trainEpoch batches s = .ok s') : s'.nn.statistics = s.nn.statistics := by
  rw [trainEpoch, Checked.bind_eq_ok_iff] at h
  obtain ⟨t, hfold, hreturn⟩ := h
  rw [← Except.ok.inj hreturn]
  exact Checked.foldlM_keeps (P := fun t => t.nn.statistics = s.nn.statistics)
    (fun c x d hc hd => (trainBatch_statistics hd).trans hc) rfl hfold

theorem trainEpochs_statistics {Conn : Type} {ws_conn : Option Conn}
    {batches : List (Mat α × Mat α)} {epochNum : ℕ} {s s' : Training α}
    {sent : List (Conn × Progress α)}
    (h : trainEpochs ws_conn batches epochNum s = .ok (s', sent)) :
    s'.nn.statistics = s.nn.statistics := by
  refine Checked.loop_keeps (P := fun _ t => t.1.nn.statistics = s.nn.statistics)
    (fun i c d _ hc hd => ?_) rfl h
  rw [Checked.bind_eq_ok_iff] at hd
  obtain ⟨t, hepoch, hreturn⟩ := hd
  rw [← Except.ok.inj hreturn]
  exact (trainEpoch_statistics hepoch).trans hc

/-- What a training set adds to the statistics. -/
def statisticsOf (X : Mat α) : Vec α × Vec α :=
  (X.map fun feature => mean feature.length feature,
    X.map fun feature => stdev feature.length feature)

/-- **`normalize(input, true)` appends** a mean and a standard deviation for
every feature, of which there is one. -/
theorem normalizeTraining_statistics {nn nn' : NeuralNetwork α} {input Z : Mat α} {n m : ℕ}
    (hrect : Grid.IsRect n m input) (h : nn.normalizeTraining input = .ok (Z, nn')) :
    0 < input.length ∧ nn'.statistics
      = (nn.means ++ (statisticsOf input).1, nn.stdevs ++ (statisticsOf input).2) := by
  rw [normalizeTraining, Checked.bind_eq_ok_iff] at h
  obtain ⟨front, hfront, hreturn⟩ := h
  obtain rfl := (Prod.ext_iff.mp (Except.ok.inj hreturn)).2
  cases input with
  | nil => simp [Vec.at] at hfront
  | cons row rows =>
    obtain rfl : row = front := Except.ok.inj hfront
    have hrow : ∀ feature ∈ row :: rows, feature.length = row.length := fun feature hfeature => by
      rw [hrect.2 feature hfeature, hrect.2 row List.mem_cons_self]
    have hmeans : (row :: rows).map (mean row.length)
        = (row :: rows).map fun feature => mean feature.length feature := by
      refine List.map_congr_left fun feature hfeature => ?_
      rw [hrow feature hfeature]
    have hstdevs : (row :: rows).map (stdev row.length)
        = (row :: rows).map fun feature => stdev feature.length feature := by
      refine List.map_congr_left fun feature hfeature => ?_
      rw [hrow feature hfeature]
    refine ⟨Nat.succ_pos _, ?_⟩
    rw [statisticsOf, ← hmeans, ← hstdevs]
    rfl

/-- A new network has no statistics. -/
theorem new_statistics {noise : ℕ → Noise α} {next : ℕ} {args : HyperParameters α}
    {nn : NeuralNetwork α} (h : NeuralNetwork.new noise next args = .ok nn) :
    nn.means = [] ∧ nn.stdevs = [] := by
  simp only [NeuralNetwork.new, Checked.bind_eq_ok_iff] at h
  obtain ⟨-, -, lossFunction, -, hreturn⟩ := h
  obtain rfl := Except.ok.inj hreturn
  exact ⟨rfl, rfl⟩

/-- `setModelHyperParameters` leaves the statistics alone. -/
theorem setModelHyperParameters_statistics (nn : NeuralNetwork α) (noise : ℕ → Noise α) (next : ℕ)
    (args : HyperParameters α) :
    (nn.setModelHyperParameters noise next args).1.statistics = nn.statistics := by
  unfold setModelHyperParameters
  dsimp only
  split
  · rfl
  · split <;> rfl

/-! ## What a sequence of calls does to them -/

/-- The training set of a call is rectangular. -/
def Call.Rectangular (call : Call α) : Prop :=
  ∀ X ∈ call.input, ∃ n m, Grid.IsRect n m X

/-- **A call appends the statistics of its training set**, if it has one. -/
theorem Call.Step.statistics {s s' : NeuralNetwork α × (ℕ → α)} {call : Call α}
    (h : call.Step s s') (hrect : call.Rectangular) :
    (∀ X ∈ call.input, 0 < X.length)
    ∧ s'.1.statistics = (s.1.means ++ call.input.toList.flatMap fun X => (statisticsOf X).1,
        s.1.stdevs ++ call.input.toList.flatMap fun X => (statisticsOf X).2) := by
  obtain ⟨nn', rand'⟩ := s'
  cases call with
  | setModelHyperParameters noise next args =>
    obtain ⟨result, hrun, -, -⟩ := h
    obtain rfl : (s.1.setModelHyperParameters noise next args).1 = nn' := congrArg Prod.fst hrun
    have hkeeps := setModelHyperParameters_statistics s.1 noise next args
    refine ⟨fun X hX => absurd hX (by simp [input]), hkeeps.trans ?_⟩
    simp [input, NeuralNetwork.statistics]
  | train job =>
    obtain ⟨fuel, accuracy, sent, hrun⟩ := h
    rw [NeuralNetwork.train, Checked.bind_eq_ok_iff] at hrun
    obtain ⟨⟨inputNormalized, nn⟩, hnormalize, hrun⟩ := hrun
    simp only [Checked.bind_eq_ok_iff] at hrun
    obtain ⟨batches, -, ⟨t, sent'⟩, hepochs, hreturn⟩ := hrun
    obtain rfl : t.nn = nn' := congrArg (·.2.1) (Except.ok.inj hreturn)
    obtain ⟨n, m, hX⟩ := hrect _ rfl
    obtain ⟨hpos, hstatistics⟩ := normalizeTraining_statistics hX hnormalize
    refine ⟨fun X hX => ?_, (trainEpochs_statistics hepochs).trans ?_⟩
    · obtain rfl := Option.some.inj hX
      exact hpos
    · simpa [input] using hstatistics
  | trainVal inputLayer targets inputsVal targetsVal epochNum miniBatchSize =>
    obtain ⟨fuel, costVal, hrun⟩ := h
    rw [NeuralNetwork.trainVal, Checked.bind_eq_ok_iff] at hrun
    obtain ⟨⟨inputNormalized, nn⟩, hnormalize, hrun⟩ := hrun
    simp only [Checked.bind_eq_ok_iff] at hrun
    obtain ⟨inputValCopy, -, batches, -, _, -, _, -, t, hloop, hreturn⟩ := hrun
    obtain ⟨n, m, hX⟩ := hrect _ rfl
    obtain ⟨hpos, hstatistics⟩ := normalizeTraining_statistics hX hnormalize
    have hkeeps : t.2.1.statistics = nn.statistics := by
      refine Checked.loop_keeps (P := fun _ t => t.2.1.statistics = nn.statistics)
        (fun i c d _ hc hd => ?_) rfl hloop
      rw [Checked.bind_eq_ok_iff] at hd
      obtain ⟨predictionsVal, -, hfold⟩ := hd
      exact Checked.foldlM_keeps (P := fun t => t.2.1.statistics = nn.statistics)
        (fun c x d hc hd => (trainValBatch_statistics hd).trans hc) hc hfold
    refine ⟨fun X hX => ?_, ?_⟩
    · obtain rfl := Option.some.inj hX
      exact hpos
    · cases hcost : t.1 with
      | none =>
        rw [hcost] at hreturn
        cases hreturn
      | some cost =>
        rw [hcost] at hreturn
        obtain rfl : t.2.1 = nn' := congrArg (·.2.1) (Except.ok.inj hreturn)
        refine hkeeps.trans ?_
        simpa [input] using hstatistics

/-- **After a run the statistics are those of all its training sets**, one
after the other. -/
theorem run_statistics {s s' : NeuralNetwork α × (ℕ → α)} {calls : List (Call α)}
    (hrun : Run Call.Step s calls s')
    (hrect : ∀ call ∈ calls, call.Rectangular) :
    (∀ X ∈ trainingSets calls, 0 < X.length)
    ∧ s'.1.statistics = (s.1.means ++ (trainingSets calls).flatMap fun X => (statisticsOf X).1,
        s.1.stdevs ++ (trainingSets calls).flatMap fun X => (statisticsOf X).2) := by
  induction hrun with
  | nil s =>
    exact ⟨fun X hX => absurd hX (by simp [trainingSets]), by simp [trainingSets, statistics]⟩
  | @cons s s₁ s' call calls hstep _ ih =>
    obtain ⟨hpos, hstatistics⟩ := hstep.statistics (hrect call List.mem_cons_self)
    obtain ⟨hpos', hstatistics'⟩ := ih fun c hc => hrect c (List.mem_cons_of_mem _ hc)
    have hmeans : s₁.1.means = _ := congrArg Prod.fst hstatistics
    have hstdevs : s₁.1.stdevs = _ := congrArg Prod.snd hstatistics
    have hsets : trainingSets (call :: calls) = call.input.toList ++ trainingSets calls := by
      unfold trainingSets
      rw [List.filterMap_cons]
      cases call.input <;> rfl
    rw [hsets]
    refine ⟨fun X hX => ?_, ?_⟩
    · rcases List.mem_append.mp hX with hX | hX
      · exact hpos X (Option.mem_toList.mp hX)
      · exact hpos' X hX
    · rw [hstatistics', hmeans, hstdevs, List.flatMap_append, List.flatMap_append,
        List.append_assoc, List.append_assoc]

/-! ## Whose statistics `normalize` uses -/

/-- **`normalize(Y, false)` uses the statistics that come first**: whatever
was appended after those of `X` is not read, as long as `Y` has no more
features than `X`. -/
theorem normalizeWith_of_statistics {nn : NeuralNetwork α} {X Y : Mat α} (means stdevs : Vec α)
    (h : nn.statistics = ((statisticsOf X).1 ++ means, (statisticsOf X).2 ++ stdevs))
    (hY : Y.length ≤ X.length) :
    nn.normalizeWith Y = .ok (List.zipWith (fun feature row =>
      row.map (rescale (mean feature.length feature) (stdev feature.length feature))) X Y) := by
  have hmeans : nn.means = (statisticsOf X).1 ++ means := congrArg Prod.fst h
  have hstdevs : nn.stdevs = (statisticsOf X).2 ++ stdevs := congrArg Prod.snd h
  have hrow : ∀ i : Fin Y.length, (do
      let feature ← Vec.at Y i
      Checked.fill feature.length fun j => do
        return rescale (← Vec.at nn.means i) (← Vec.at nn.stdevs i) (← Vec.at feature j))
      = .ok (Y[i].map (rescale (mean X[i].length X[i]) (stdev X[i].length X[i]))) := fun i => by
    have hi : (i : ℕ) < X.length := i.isLt.trans_le hY
    have hmean : Vec.at nn.means i = .ok (mean X[i].length X[i]) := by
      rw [hmeans, Vec.at, Checked.read,
        List.getElem?_append_left (by simpa [statisticsOf] using hi)]
      simp [statisticsOf, hi]
    have hstdev : Vec.at nn.stdevs i = .ok (stdev X[i].length X[i]) := by
      rw [hstdevs, Vec.at, Checked.read,
        List.getElem?_append_left (by simpa [statisticsOf] using hi)]
      simp [statisticsOf, hi]
    rw [Vec.at, Checked.read_of_lt _ _ i.isLt, Checked.ok_bind]
    simp only [hmean, hstdev, Checked.ok_bind]
    refine (Checked.fill_ok (g := fun j => rescale (mean X[i].length X[i]) (stdev X[i].length X[i])
      Y[i][j]) fun j => ?_).trans (congrArg Except.ok ?_)
    · rw [Vec.at, Checked.read_of_lt _ _ j.isLt]
      rfl
    · exact List.ext_getElem (by simp) fun j h₁ h₂ => by simp
  rw [normalizeWith, Checked.fill_ok hrow]
  exact congrArg Except.ok (List.ext_getElem (by simpa using hY) fun i h₁ h₂ => by simp)

/-- The statistics of `X` alone are what `normalize(Y, false)` should
use. -/
theorem normalizesBy_of_statistics {nn : NeuralNetwork α} {X : Mat α}
    (h : nn.statistics = statisticsOf X) : nn.NormalizesBy X := by
  have hmeans : nn.means = (statisticsOf X).1 := congrArg Prod.fst h
  have hstdevs : nn.stdevs = (statisticsOf X).2 := congrArg Prod.snd h
  refine ⟨by rw [hmeans]; simp [statisticsOf], by rw [hstdevs]; simp [statisticsOf], fun Y hY => ?_⟩
  exact normalizeWith_of_statistics [] []
    (by rw [List.append_nil, List.append_nil]; exact h) hY

/-- **After a run `normalize(Y, false)` uses the statistics of the first
training set.** -/
theorem run_normalizes_by_first {noise : ℕ → Noise α} {next : ℕ} {args : HyperParameters α}
    {nn : NeuralNetwork α} (hnew : NeuralNetwork.new noise next args = .ok nn) {rand : ℕ → α}
    {calls : List (Call α)} {s : NeuralNetwork α × (ℕ → α)}
    (hrun : Run Call.Step (nn, rand) calls s)
    (hrect : ∀ call ∈ calls, call.Rectangular) {X Y : Mat α}
    (hfirst : (trainingSets calls).head? = some X) (hY : Y.length ≤ X.length) :
    s.1.normalizeWith Y = .ok (List.zipWith (fun feature row =>
      row.map (rescale (mean feature.length feature) (stdev feature.length feature))) X Y) := by
  obtain ⟨-, hstatistics⟩ := run_statistics hrun hrect
  obtain ⟨hmeans₀, hstdevs₀⟩ := new_statistics hnew
  obtain ⟨later, hsets⟩ := List.head?_eq_some_iff.mp hfirst
  dsimp only at hstatistics
  rw [hmeans₀, hstdevs₀, hsets, List.flatMap_cons, List.flatMap_cons] at hstatistics
  exact normalizeWith_of_statistics _ _ hstatistics hY

/-- **`normalize(Y, false)` uses the statistics of the last training set if
and only if that is the only one**, after every run of calls from the
construction of a network. -/
theorem normalizes_by_last_iff {noise : ℕ → Noise α} {next : ℕ} {args : HyperParameters α}
    {nn : NeuralNetwork α} (hnew : NeuralNetwork.new noise next args = .ok nn) {rand : ℕ → α}
    {calls : List (Call α)} {s : NeuralNetwork α × (ℕ → α)}
    (hrun : Run Call.Step (nn, rand) calls s)
    (hrect : ∀ call ∈ calls, call.Rectangular) :
    (∀ X, (trainingSets calls).getLast? = some X → s.1.NormalizesBy X)
      ↔ (trainingSets calls).length ≤ 1 := by
  obtain ⟨hpos, hstatistics⟩ := run_statistics hrun hrect
  obtain ⟨hmeans₀, hstdevs₀⟩ := new_statistics hnew
  dsimp only at hstatistics
  rw [hmeans₀, hstdevs₀, List.nil_append, List.nil_append] at hstatistics
  constructor
  · intro h
    by_contra hlen
    obtain ⟨earlier, X, hsets⟩ : ∃ earlier X, trainingSets calls = earlier ++ [X] :=
      ⟨_, _, (List.dropLast_append_getLast (List.ne_nil_of_length_pos (by omega))).symm⟩
    have hearlier : earlier ≠ [] := by
      rintro rfl
      simp [hsets] at hlen
    obtain ⟨X₀, before, rfl⟩ := List.exists_cons_of_ne_nil hearlier
    -- the entries of an earlier training set are still there
    have hmeans := (h X (by rw [hsets, List.getLast?_concat])).means
    have hlength := congrArg (fun v => v.1.length) hstatistics
    dsimp only at hlength
    rw [hsets] at hlength hpos
    have hX₀ := hpos X₀ (by simp)
    have hcounts : s.1.means.length
        = X₀.length + (before.flatMap fun X => (statisticsOf X).1).length + X.length := by
      refine hlength.trans ?_
      simp [statisticsOf]
      omega
    omega
  · intro hlen X hlast
    have hsets : trainingSets calls = [X] := by
      obtain ⟨earlier, hsets⟩ := List.getLast?_eq_some_iff.mp hlast
      rw [hsets, List.length_append, List.length_singleton] at hlen
      rw [hsets, List.eq_nil_of_length_eq_zero (by omega : earlier.length = 0), List.nil_append]
    rw [hsets] at hstatistics
    exact normalizesBy_of_statistics (by simpa using hstatistics)

/-- A network that is built from well-formed arguments, and a well-formed
job sent to it. -/
theorem exists_run_train {args : HyperParameters α} (hargs : args.WellFormed)
    {lossFunction : LossFunction} {m : ℕ} {job : Job α}
    (hjob : job.WellFormed args lossFunction m) {nn : NeuralNetwork α} (rand : ℕ → α)
    (hshape : HasShape args nn) (hloss : nn.lossFunction = lossFunction) :
    ∃ s, (Call.train job).Step (nn, rand) s ∧ HasShape args s.1
      ∧ s.1.lossFunction = lossFunction := by
  obtain ⟨accuracy, nn', rand', sent, hrun, hshape', hloss'⟩ :=
    train_wellFormed hargs hjob le_rfl rand hshape hloss
  exact ⟨(nn', rand'), ⟨m, accuracy, sent, hrun⟩, hshape', hloss'⟩

theorem exists_exampleNetwork :
    ∃ nn : NeuralNetwork ℝ, NeuralNetwork.new (fun _ => Noise.zero) 0 exampleArgs = .ok nn
      ∧ HasShape exampleArgs nn ∧ nn.lossFunction = .categoricalCrossEntropy := by
  obtain ⟨layers, hpush, hmap, hchain⟩ :=
    pushLayers_wellFormed exampleArgs_wellFormed exampleArgs_sumsFit (hasMemory_zero 0 exampleArgs)
  refine ⟨⟨.categoricalCrossEntropy, layers, [], []⟩, ?_, ⟨hmap, hchain⟩, rfl⟩
  rw [NeuralNetwork.new, hpush]
  rfl

theorem exampleJob_normalizes :
    ∃ nn s, NeuralNetwork.new (fun _ => Noise.zero) 0 exampleArgs = .ok nn
      ∧ Run Call.Step (nn, fun _ => 0) [Call.train exampleJob] s
      ∧ ((∀ X, (trainingSets [Call.train exampleJob]).getLast? = some X → s.1.NormalizesBy X)
        ↔ (trainingSets [Call.train exampleJob]).length ≤ 1) := by
  obtain ⟨nn, hnew, hshape, hloss⟩ := exists_exampleNetwork
  obtain ⟨s, hstep, -, -⟩ :=
    exists_run_train exampleArgs_wellFormed exampleJob_wellFormed (fun _ => 0) hshape hloss
  refine ⟨nn, s, hnew, Run.single hstep, normalizes_by_last_iff hnew (Run.single hstep) ?_⟩
  intro call hcall X hX
  obtain rfl := List.mem_singleton.mp hcall
  obtain rfl := Option.some.inj hX
  exact ⟨2, 1, exampleJob_wellFormed.inputLayer⟩

/-- The job of the example with the two features swapped. -/
def swappedJob : Job ℝ where
  inputLayer := [[0], [1]]
  targets := [[1]]
  epochNum := 5
  miniBatchSize := 1
  ws_conn := none

theorem swappedJob_wellFormed : swappedJob.WellFormed exampleArgs .categoricalCrossEntropy 1 where
  samples := le_rfl
  inputLayer := ⟨rfl, by simp [swappedJob]⟩
  targets := ⟨rfl, by simp [swappedJob]⟩
  fit := exampleJob_wellFormed.fit
  miniBatchSize := le_rfl

/-- **The second training set does not count**: after training on a sample
and then on another one, the second sample is normalised with the
statistics of the first. -/
theorem second_training_set_ignored :
    ∃ nn s, NeuralNetwork.new (fun _ => Noise.zero) 0 exampleArgs = .ok nn
      ∧ Run Call.Step (nn, fun _ => 0)
          [Call.train exampleJob, Call.train swappedJob] s
      ∧ s.1.means.length = 4 ∧ s.1.normalizeWith swappedJob.inputLayer = .ok [[-1], [1]]
      ∧ ¬ s.1.NormalizesBy swappedJob.inputLayer := by
  obtain ⟨nn, hnew, hshape, hloss⟩ := exists_exampleNetwork
  obtain ⟨s₁, hstep₁, hshape₁, hloss₁⟩ :=
    exists_run_train exampleArgs_wellFormed exampleJob_wellFormed (fun _ => 0) hshape hloss
  obtain ⟨s, hstep, -, -⟩ :=
    exists_run_train exampleArgs_wellFormed swappedJob_wellFormed s₁.2 hshape₁ hloss₁
  have hrun := Run.cons hstep₁ (Run.single hstep)
  have hrect : ∀ call ∈ [Call.train exampleJob, Call.train swappedJob], call.Rectangular := by
    intro call hcall X hX
    rcases List.mem_cons.mp hcall with rfl | hcall
    · obtain rfl := Option.some.inj hX
      exact ⟨2, 1, exampleJob_wellFormed.inputLayer⟩
    · obtain rfl := List.mem_singleton.mp hcall
      obtain rfl := Option.some.inj hX
      exact ⟨2, 1, swappedJob_wellFormed.inputLayer⟩
  -- both calls have appended the statistics of two features
  have hlength : s.1.means.length = 4 := by
    obtain ⟨-, hstatistics⟩ := run_statistics hrun hrect
    have hmeans : s.1.means = _ := congrArg Prod.fst hstatistics
    dsimp only at hmeans
    rw [hmeans, (new_statistics hnew).1]
    rfl
  refine ⟨nn, s, hnew, hrun, hlength, ?_, fun h => ?_⟩
  · rw [run_normalizes_by_first hnew hrun hrect (X := exampleJob.inputLayer) rfl (le_refl 2)]
    norm_num [exampleJob, swappedJob, mean, stdev, rescale]
  · have hmeans := h.means
    rw [hlength] at hmeans
    cases hmeans

end NeuralNetwork
