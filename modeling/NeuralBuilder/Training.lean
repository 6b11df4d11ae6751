import NeuralBuilder.Network

/-!
# A training call on rectangular data

What `normalize` and `miniBatchGenerator` return on a rectangular data set,
and that a batch, an epoch and a training call go through on a network
whose sizes match: every mini-batch is a rectangular block of columns with
the targets of the same columns, and a pass over one leaves a network whose
sizes match.

The invariant of all the loops is `Sound`: the objects hold a network of
the given sizes, and the loss object is the given one.

Each loop has its rule: a batch keeps `Sound` (`trainBatch_ok`), so an epoch
does, so all epochs do, and the call returns (`train_ok`). The generator needs
some turns; fuel for as many turns as there are samples is always enough,
whatever the size of the mini-batches.
-/

variable {α : Type} [Double α]

/-! ## Slices -/

section Slices

variable {r m c s : ℕ}

/-- The block of `c` columns from column `s` on. -/
def Grid.block {β : Type} (A : Fin r → Fin m → β) (s c : ℕ) (h : s + c ≤ m) :
    Fin r → Fin c → β :=
  fun i j => A i ⟨s + j, by omega⟩

theorem Vec.slice_ofFn {β : Type} (v : Fin m → β) {startCol endCol : ℤ}
    (hs : startCol = s) (he : endCol = s + c) (h : s + c ≤ m) :
    Vec.slice (List.ofFn v) startCol endCol
      = .ok (List.ofFn fun j : Fin c => v ⟨s + j, by omega⟩) := by
  subst hs he
  rw [Vec.slice, if_pos (by rw [List.length_ofFn]; omega), add_sub_cancel_left, Int.toNat_natCast,
    Int.toNat_natCast, Grid.take_drop_ofFn v h]

omit [Double α] in
theorem NeuralNetwork.slices_ofFn (A : Fin r → Fin m → α) {startCol endCol : ℤ}
    (hs : startCol = s) (he : endCol = s + c) (h : s + c ≤ m) :
    slices (Grid.ofFn A) startCol endCol = .ok (Grid.ofFn (Grid.block A s c h)) := by
  rw [slices, Grid.length_ofFn]
  refine Checked.fill_ok fun i => ?_
  rw [Vec.at_row_ofFn, Checked.ok_bind, Vec.slice_ofFn (A i) hs he h]
  rfl

/-- The labels of a block are labels of the whole. -/
theorem LossFunction.Fits.block {lossFunction : LossFunction} {k t : ℕ} {T : Fin t → Fin m → α}
    (hfit : lossFunction.Fits k T) (h : s + c ≤ m) : lossFunction.Fits k (Grid.block T s c h) := by
  cases lossFunction with
  | sigmoidCrossEntropy => exact hfit
  | categoricalCrossEntropy => exact ⟨hfit.1, fun j => hfit.2 ⟨s + j, by omega⟩⟩

end Slices

namespace NeuralNetwork

variable {n p t m : ℕ}

/-! ## Normalisation -/

/-- **`normalize(input, true)`** on `n ≥ 1` features: each is normalised
with its own statistics, and these are appended. -/
theorem normalizeTraining_ofFn (nn : NeuralNetwork α) (X : Fin n → Fin m → α) (hn : 0 < n) :
    nn.normalizeTraining (Grid.ofFn X)
      = .ok (Grid.ofFn fun i j =>
            rescale (mean m (List.ofFn (X i))) (stdev m (List.ofFn (X i))) (X i j),
          { nn with
            means := nn.means ++ List.ofFn fun i => mean m (List.ofFn (X i))
            stdevs := nn.stdevs ++ List.ofFn fun i => stdev m (List.ofFn (X i)) }) := by
  rw [normalizeTraining, Vec.at_row_zero X hn, Checked.ok_bind]
  simp only [List.length_ofFn]
  simp [Grid.ofFn, List.map_ofFn, Function.comp_def]

/-! ## Mini-batches -/

/-- **A mini-batch a pass can digest**: a block of at least one sample, and
targets the loss can read. -/
def GoodBatch (n p : ℕ) (lossFunction : LossFunction) (batch : Mat α × Mat α) : Prop :=
  ∃ (c t : ℕ) (X : Fin n → Fin c → α) (T : Fin t → Fin c → α),
    batch = (Grid.ofFn X, Grid.ofFn T) ∧ 0 < c ∧ 0 < t ∧ lossFunction.Fits p T

/-- The samples of `c` columns from column `s` on, with their targets. -/
def batchAt (X : Fin n → Fin m → α) (T : Fin t → Fin m → α) (s c : ℕ) (h : s + c ≤ m) :
    Mat α × Mat α :=
  (Grid.ofFn (Grid.block X s c h), Grid.ofFn (Grid.block T s c h))

/-- **The batches cut up the samples** from column `s` on: each is a block of
at least one column, and every column is in one. -/
structure CutsUp (X : Fin n → Fin m → α) (T : Fin t → Fin m → α) (s : ℕ)
    (batches : List (Mat α × Mat α)) : Prop where
  /-- A batch is a block of columns. -/
  block : ∀ batch ∈ batches, ∃ s' c h, 0 < c ∧ batch = batchAt X T s' c h
  /-- Every column is in one. -/
  cover : ∀ j, s ≤ j → j < m → ∃ s' c h, batchAt X T s' c h ∈ batches ∧ s' ≤ j ∧ j < s' + c

omit [Double α] in
/-- **The loop of `miniBatchGenerator` from column `s` on** cuts up the
samples, or runs out of turns. -/
theorem batchesFrom_cases (X : Fin n → Fin m → α) (T : Fin t → Fin m → α) {miniBatchSize : ℕ}
    (hsize : 0 < miniBatchSize) (fuel : ℕ) {s : ℕ} (hs : s < m) :
    (∃ batches, batchesFrom (Grid.ofFn X) (Grid.ofFn T) m miniBatchSize fuel s
        ((s : ℤ) + miniBatchSize) = .ok batches ∧ CutsUp X T s batches)
    ∨ batchesFrom (Grid.ofFn X) (Grid.ofFn T) m miniBatchSize fuel s ((s : ℤ) + miniBatchSize)
        = .error .outOfFuel ∧ s + fuel < m := by
  induction fuel generalizing s with
  | zero => exact Or.inr ⟨rfl, hs⟩
  | succ fuel ih =>
    rw [batchesFrom]
    by_cases hend : s + miniBatchSize < m
    · have hblock : s + miniBatchSize ≤ m := hend.le
      rw [if_pos (by exact_mod_cast hend), slices_ofFn X rfl rfl hblock, Checked.ok_bind,
        slices_ofFn T rfl rfl hblock, Checked.ok_bind]
      rcases ih hend with ⟨batches, hrun, hcuts⟩ | ⟨hrun, hfuel⟩
      · push_cast at hrun
        rw [hrun, Checked.ok_bind]
        refine Or.inl ⟨_, rfl, fun batch hbatch => ?_, fun j hj hjm => ?_⟩
        · rcases List.mem_cons.mp hbatch with rfl | hbatch
          · exact ⟨s, miniBatchSize, hblock, hsize, rfl⟩
          · exact hcuts.block batch hbatch
        · by_cases hlt : j < s + miniBatchSize
          · exact ⟨s, miniBatchSize, hblock, List.mem_cons_self, hj, hlt⟩
          · obtain ⟨s', c, h, hmem, hin⟩ := hcuts.cover j (by omega) hjm
            exact ⟨s', c, h, List.mem_cons_of_mem _ hmem, hin⟩
      · push_cast at hrun
        rw [hrun, Checked.error_bind]
        exact Or.inr ⟨rfl, by omega⟩
    · have hblock : s + (m - s) ≤ m := by omega
      rw [if_neg (by exact_mod_cast hend), slices_ofFn X rfl (by omega) hblock, Checked.ok_bind,
        slices_ofFn T rfl (by omega) hblock, Checked.ok_bind]
      refine Or.inl ⟨_, rfl, fun batch hbatch => ?_, fun j hj hjm => ?_⟩
      · obtain rfl := List.mem_singleton.mp hbatch
        exact ⟨s, m - s, hblock, by omega, rfl⟩
      · exact ⟨s, m - s, hblock, List.mem_singleton.mpr rfl, hj, by omega⟩

omit [Double α] in
/-- **`miniBatchGenerator` cuts up the samples**, within as many turns as
there are samples. -/
theorem miniBatchGenerator_cases (X : Fin n → Fin m → α) (T : Fin t → Fin m → α) (hn : 0 < n)
    (hm : 0 < m) {miniBatchSize : ℤ} (hsize : 1 ≤ miniBatchSize) (fuel : ℕ) :
    (∃ batches, miniBatchGenerator fuel (Grid.ofFn T) (Grid.ofFn X) miniBatchSize = .ok batches
        ∧ CutsUp X T 0 batches)
    ∨ miniBatchGenerator fuel (Grid.ofFn T) (Grid.ofFn X) miniBatchSize = .error .outOfFuel
      ∧ fuel < m := by
  obtain ⟨size, rfl⟩ := Int.eq_ofNat_of_zero_le (by omega : 0 ≤ miniBatchSize)
  rw [miniBatchGenerator, Vec.at_row_zero X hn, Checked.ok_bind]
  simpa only [List.length_ofFn, Nat.cast_zero, zero_add] using
    batchesFrom_cases X T (show 0 < size by omega) fuel (s := 0) hm

omit [Double α] in
/-- A mini-batch size that is not smaller than the data set makes one
mini-batch of it. -/
theorem miniBatchGenerator_whole (X : Fin n → Fin m → α) (T : Fin t → Fin m → α) (hn : 0 < n)
    {miniBatchSize : ℤ} (hsize : m ≤ miniBatchSize) (fuel : ℕ) :
    miniBatchGenerator (fuel + 1) (Grid.ofFn T) (Grid.ofFn X) miniBatchSize
      = .ok [(Grid.ofFn X, Grid.ofFn T)] := by
  have hblock : ∀ {r : ℕ} (A : Fin r → Fin m → α),
      slices (Grid.ofFn A) 0 m = .ok (Grid.ofFn A) := by
    intro r A
    refine (slices_ofFn A (s := 0) (c := m) rfl (by simp) (by omega)).trans
      (congrArg (fun B => Except.ok (Grid.ofFn B)) ?_)
    funext i j
    exact congrArg (A i) (Fin.ext (Nat.zero_add j))
  rw [miniBatchGenerator, Vec.at_row_zero X hn, Checked.ok_bind, List.length_ofFn, batchesFrom,
    if_neg (by omega), hblock X, Checked.ok_bind, hblock T]
  rfl

/-- A batch that was cut out of digestible samples is digestible. -/
theorem CutsUp.goodBatch {lossFunction : LossFunction} {X : Fin n → Fin m → α}
    {T : Fin t → Fin m → α} {batches : List (Mat α × Mat α)} (h : CutsUp X T 0 batches)
    (ht : 0 < t) (hfit : lossFunction.Fits p T) :
    ∀ batch ∈ batches, GoodBatch n p lossFunction batch := by
  intro batch hbatch
  obtain ⟨s, c, hblock, hc, rfl⟩ := h.block batch hbatch
  exact ⟨_, _, _, _, rfl, hc, ht, hfit.block hblock⟩

/-- **`miniBatchGenerator` returns mini-batches a pass can digest**, within
as many turns as there are samples. -/
theorem miniBatchGenerator_ok {lossFunction : LossFunction} (X : Fin n → Fin m → α)
    (T : Fin t → Fin m → α) (hn : 0 < n) (hm : 0 < m) (ht : 0 < t)
    (hfit : lossFunction.Fits p T) {miniBatchSize : ℤ} (hsize : 1 ≤ miniBatchSize) {fuel : ℕ}
    (hfuel : m ≤ fuel) :
    ∃ batches, miniBatchGenerator fuel (Grid.ofFn T) (Grid.ofFn X) miniBatchSize = .ok batches
      ∧ ∀ batch ∈ batches, GoodBatch n p lossFunction batch := by
  rcases miniBatchGenerator_cases X T hn hm hsize fuel with ⟨batches, hrun, hcuts⟩ | ⟨-, hlt⟩
  · exact ⟨batches, hrun, hcuts.goodBatch ht hfit⟩
  · omega

/-! ## A pass over a batch, an epoch, a call -/

/-- **The invariant of training**: the objects hold a network of the given
sizes, and the loss object is the given one. -/
structure Sound (n p : ℕ) (sizes : List ℕ) (lossFunction : LossFunction)
    (nn : NeuralNetwork α) : Prop where
  /-- The layers hold a network of these sizes. -/
  network : ∃ N : Network α n p, N.HeldBy nn.layers ∧ N.sizes = sizes
  /-- The loss does not change. -/
  lossFunction : nn.lossFunction = lossFunction

variable {sizes : List ℕ} {lossFunction : LossFunction}

/-- Every loss returns on targets it can read. -/
theorem calculateLoss_ok {c : ℕ} (P : Fin p → Fin c → α) (T : Fin t → Fin c → α) (hp : 0 < p)
    (hfit : lossFunction.Fits p T) :
    ∃ cost, lossFunction.calculateLoss (Grid.ofFn P) (Grid.ofFn T) = .ok cost := by
  cases lossFunction with
  | sigmoidCrossEntropy => exact ⟨_, SigmoidCrossEntropy.calculateLoss_ofFn P T hp hfit⟩
  | categoricalCrossEntropy =>
    exact ⟨_, CategoricalCrossEntropy.calculateLossWith_ofFn epsilon P T hp hfit⟩

/-- **What a turn of the loop over the batches computes**, in terms of the
network that the layers hold. -/
theorem trainBatch_heldBy {s : Training α} {N : Network α n p} (hN : N.HeldBy s.nn.layers)
    (hloss : s.nn.lossFunction = lossFunction) (X : Fin n → Fin m → α) (T : Fin t → Fin m → α)
    (hn : 0 < n) (hm : 0 < m) (ht : 0 < t) (hfit : lossFunction.Fits p T) {P : Fin p → Fin m → α}
    (hP : N.forward s.rand X = P) {accuracy cost : α}
    (haccuracy : ModelEvaluator.accuracy (Grid.ofFn P) (Grid.ofFn T) lossFunction = .ok accuracy)
    (hcost : lossFunction.calculateLoss (Grid.ofFn P) (Grid.ofFn T) = .ok cost) :
    ∃ layers, trainBatch s (Grid.ofFn X, Grid.ofFn T)
        = .ok ⟨s.accuracyRate + accuracy, s.costValue + cost, { s.nn with layers },
            N.randAfter m s.rand⟩
      ∧ (N.update s.rand X (lossFunction.onGrid P T hfit)).HeldBy layers := by
  subst hP hloss
  obtain ⟨layers, hforward, hheld, hcached⟩ := Network.forwardPropagation_heldBy hN s.rand X hn
  obtain ⟨layers', hbackward, hheld'⟩ := Network.backwardPropagation_heldBy s.nn hheld hcached
    (s.nn.lossFunction.onGrid (N.forward s.rand X) T hfit) hn hm
  refine ⟨layers', ?_, hheld'⟩
  rw [trainBatch, Vec.at_row_zero T ht, Checked.ok_bind, hforward, Checked.ok_bind]
  dsimp only
  rw [haccuracy, Checked.ok_bind, hcost, Checked.ok_bind,
    LossFunction.derivative_ofFn _ T (N.out_pos hn) hfit, Checked.ok_bind, hbackward]
  rfl

/-- **A batch goes through**, and makes an update of the network that the layers
hold. -/
theorem exists_trainBatch {s : Training α} {N : Network α n p} (hN : N.HeldBy s.nn.layers)
    (hloss : s.nn.lossFunction = lossFunction) (hn : 0 < n) {batch : Mat α × Mat α}
    (hbatch : GoodBatch n p lossFunction batch) :
    ∃ (s' : Training α) (c : ℕ) (X : Fin n → Fin c → α) (da : Fin p → Fin c → α),
      trainBatch s batch = .ok s' ∧ (N.update s.rand X da).HeldBy s'.nn.layers
      ∧ s'.nn.lossFunction = lossFunction := by
  obtain ⟨c, t, X, T, rfl, hc, ht, hfit⟩ := hbatch
  have hp : 0 < p := N.out_pos hn
  have haccuracy := ModelEvaluator.accuracy_ofFn (N.forward s.rand X) T lossFunction hp ht
  obtain ⟨cost, hcost⟩ := calculateLoss_ok (N.forward s.rand X) T hp hfit
  obtain ⟨layers, hrun, hheld⟩ :=
    trainBatch_heldBy hN hloss X T hn hc ht hfit rfl haccuracy hcost
  exact ⟨_, c, X, _, hrun, hheld, hloss⟩

/-- **It keeps the invariant.** -/
theorem trainBatch_ok {s : Training α} (h : Sound n p sizes lossFunction s.nn) (hn : 0 < n)
    {batch : Mat α × Mat α} (hbatch : GoodBatch n p lossFunction batch) :
    ∃ s', trainBatch s batch = .ok s' ∧ Sound n p sizes lossFunction s'.nn := by
  obtain ⟨⟨N, hN, hsizes⟩, hloss⟩ := h
  obtain ⟨s', c, X, da, hrun, hheld, hloss'⟩ := exists_trainBatch hN hloss hn hbatch
  exact ⟨s', hrun, ⟨N.update s.rand X da, hheld, by rw [Network.sizes_update, hsizes]⟩, hloss'⟩

/-- **An epoch goes through, and keeps the invariant.** -/
theorem trainEpoch_ok {s : Training α} (h : Sound n p sizes lossFunction s.nn) (hn : 0 < n)
    {batches : List (Mat α × Mat α)}
    (hbatches : ∀ batch ∈ batches, GoodBatch n p lossFunction batch) :
    ∃ s', trainEpoch batches s = .ok s' ∧ Sound n p sizes lossFunction s'.nn := by
  obtain ⟨s', hrun, hs'⟩ := Checked.foldlM_invariant (f := trainBatch)
    (b := { s with accuracyRate := 0, costValue := 0 })
    (fun s => Sound n p sizes lossFunction s.nn) h
    fun batch hbatch s hs => trainBatch_ok hs hn (hbatches batch hbatch)
  rw [trainEpoch, hrun, Checked.ok_bind]
  exact ⟨_, rfl, hs'⟩

/-- **The epochs go through, and keep the invariant.** -/
theorem trainEpochs_ok {Conn : Type} {s : Training α} (h : Sound n p sizes lossFunction s.nn)
    (hn : 0 < n) {batches : List (Mat α × Mat α)}
    (hbatches : ∀ batch ∈ batches, GoodBatch n p lossFunction batch) (ws_conn : Option Conn)
    (epochNum : ℕ) :
    ∃ s' sent, trainEpochs ws_conn batches epochNum s = .ok (s', sent)
      ∧ Sound n p sizes lossFunction s'.nn := by
  obtain ⟨s', hrun, hs'⟩ := Checked.loop_invariant (n := epochNum)
    (f := fun (s : Training α × List (Conn × Progress α)) epoch => do
      let t ← trainEpoch batches s.1
      return (t, s.2 ++ ws_conn.toList.map (·, ⟨epoch + 1, t.costValue, t.accuracyRate⟩)))
    (b := (s, []))
    (fun _ s => Sound n p sizes lossFunction s.1.nn) h
    (fun i s _ hs => by
      obtain ⟨t, ht, hsound⟩ := trainEpoch_ok hs hn hbatches
      exact ⟨_, by rw [ht, Checked.ok_bind]; rfl, hsound⟩)
  exact ⟨s'.1, s'.2, hrun, hs'⟩

/-- **A training call goes through, and keeps the invariant.** -/
theorem train_ok {Conn : Type} {nn : NeuralNetwork α} (h : Sound n p sizes lossFunction nn)
    (rand : ℕ → α) (X : Fin n → Fin m → α) (T : Fin t → Fin m → α) (hn : 0 < n) (hm : 0 < m)
    (ht : 0 < t) (hfit : lossFunction.Fits p T) (epochNum : ℤ) {miniBatchSize : ℤ}
    (hsize : 1 ≤ miniBatchSize) (ws_conn : Option Conn) {fuel : ℕ} (hfuel : m ≤ fuel) :
    ∃ accuracy nn' rand' sent,
      train fuel nn rand (Grid.ofFn X) (Grid.ofFn T) epochNum miniBatchSize ws_conn
        = .ok (accuracy, nn', rand', sent) ∧ Sound n p sizes lossFunction nn' := by
  rw [train, normalizeTraining_ofFn nn X hn, Checked.ok_bind]
  dsimp only
  obtain ⟨batches, hgen, hgood⟩ := miniBatchGenerator_ok (fun i j =>
    rescale (mean m (List.ofFn (X i))) (stdev m (List.ofFn (X i))) (X i j)) T hn hm ht hfit
    hsize hfuel
  rw [hgen, Checked.ok_bind]
  obtain ⟨s, sent, hrun, hs⟩ := trainEpochs_ok (s := ⟨0, 0, { nn with
      means := nn.means ++ List.ofFn fun i => mean m (List.ofFn (X i))
      stdevs := nn.stdevs ++ List.ofFn fun i => stdev m (List.ofFn (X i)) }, rand⟩)
    ⟨h.network, h.lossFunction⟩ hn hgood ws_conn epochNum.toNat
  rw [hrun, Checked.ok_bind]
  exact ⟨_, _, _, _, rfl, hs⟩

end NeuralNetwork
