import NeuralBuilder.Library.Chunks
import NeuralBuilder.TrainingMessage

/-!
# The mini-batches

`miniBatchGenerator` cuts the samples into chunks of the mini-batch size:
`miniBatchGenerator_eq` says what it returns, `miniBatches_partition` that
this is a partition of the samples, in order. Its loop has a first mini-batch
size it can be called with, `1`; no one checks that it is called with one,
and `splits_iff` says what follows for the messages of the web socket.

The generator is run with fuel, and `m ⌈/⌉ s` turns are enough. What it returns
are chunks in the sense of the library, so that every sample is in one batch, no
batch is empty, and the batches put together are the data set again
(`Partition`). The second part looks at the turns themselves: their slices go
forward within the data set (`Advance`) if the size is positive, and do not for
any other.
-/

variable {α : Type} [Double α]

namespace NeuralNetwork

variable {n t m s : ℕ}

/-! ## What the generator returns -/

/-- **The mini-batches of a data set**: its chunks of `s` samples. -/
def miniBatches (X : Fin n → Fin m → α) (T : Fin t → Fin m → α) (s : ℕ) :
    List (Mat α × Mat α) :=
  List.ofFn fun k : Fin (m ⌈/⌉ s) => batchAt X T (k * s) (Chunks.size m s k) (Chunks.fits k.isLt)

omit [Double α] in
@[simp] theorem length_miniBatches (X : Fin n → Fin m → α) (T : Fin t → Fin m → α) :
    (miniBatches X T s).length = m ⌈/⌉ s := List.length_ofFn

omit [Double α] in
theorem getElem_miniBatches (X : Fin n → Fin m → α) (T : Fin t → Fin m → α) {k : ℕ}
    (hk : k < (miniBatches X T s).length) :
    (miniBatches X T s)[k] = batchAt X T (k * s) (Chunks.size m s k)
      (Chunks.fits (hk.trans_eq (length_miniBatches X T))) := by
  simp only [miniBatches, List.getElem_ofFn]

omit [Double α] in
/-- **The loop of `miniBatchGenerator` from chunk `k` on** returns the
chunks from there on. -/
theorem batchesFrom_eq (X : Fin n → Fin m → α) (T : Fin t → Fin m → α) (hs : 0 < s) (fuel : ℕ)
    {k : ℕ} (hk : k * s < m) (hfuel : m ⌈/⌉ s ≤ k + fuel) :
    batchesFrom (Grid.ofFn X) (Grid.ofFn T) m s fuel (k * s : ℕ) ((k + 1) * s : ℕ)
      = .ok ((miniBatches X T s).drop k) := by
  induction fuel generalizing k with
  | zero => exact absurd ((Chunks.lt_count_iff hs).mpr hk) (not_lt.mpr hfuel)
  | succ fuel ih =>
    have hlen : k < (miniBatches X T s).length := by
      rw [length_miniBatches, Chunks.lt_count_iff hs]
      exact hk
    have hfirst : (miniBatches X T s).drop k
        = batchAt X T (k * s) (Chunks.size m s k) (Chunks.start_add_size_le hk.le)
          :: (miniBatches X T s).drop (k + 1) := by
      rw [List.drop_eq_getElem_cons hlen, getElem_miniBatches]
    have hblock : k * s + Chunks.size m s k ≤ m := Chunks.start_add_size_le hk.le
    rw [batchesFrom, hfirst]
    by_cases hend : (k + 1) * s < m
    · -- a full chunk, and the turns after it
      have hstop : (((k + 1) * s : ℕ) : ℤ) = (k * s : ℕ) + Chunks.size m s k := by
        rw [Chunks.size_full hend.le, Nat.succ_mul, Nat.cast_add]
      have hnext : (((k + 1) * s : ℕ) : ℤ) + s = ((k + 1 + 1) * s : ℕ) := by
        rw [Nat.succ_mul (k + 1), Nat.cast_add]
      rw [if_pos (by exact_mod_cast hend), slices_ofFn X rfl hstop hblock, Checked.ok_bind,
        slices_ofFn T rfl hstop hblock, Checked.ok_bind, hnext, ih hend (by omega),
        Checked.ok_bind]
      rfl
    · -- what is left after the loop
      have hstop : (m : ℤ) = (k * s : ℕ) + Chunks.size m s k := by
        rw [← Nat.cast_add, Chunks.start_add_size hk.le, min_eq_right (not_lt.mp hend)]
      have hrest : (miniBatches X T s).drop (k + 1) = [] := by
        refine List.drop_of_length_le ?_
        rw [length_miniBatches]
        exact (ceilDiv_le_iff_le_mul hs).mpr (by rw [mul_comm]; exact not_lt.mp hend)
      rw [if_neg (by exact_mod_cast hend), slices_ofFn X rfl hstop hblock, Checked.ok_bind,
        slices_ofFn T rfl hstop hblock, Checked.ok_bind, hrest]
      rfl

omit [Double α] in
/-- **`miniBatchGenerator` returns the chunks of the samples**, within as
many turns as there are chunks. -/
theorem miniBatchGenerator_eq (X : Fin n → Fin m → α) (T : Fin t → Fin m → α) (hn : 0 < n)
    (hm : 0 < m) (hs : 0 < s) {fuel : ℕ} (hfuel : m ⌈/⌉ s ≤ fuel) :
    miniBatchGenerator fuel (Grid.ofFn T) (Grid.ofFn X) s = .ok (miniBatches X T s) := by
  have hloop := batchesFrom_eq X T hs fuel (k := 0) (by rwa [zero_mul]) (by rwa [zero_add])
  rw [zero_mul, zero_add, one_mul, List.drop_zero] at hloop
  rw [miniBatchGenerator, Vec.at_row_zero X hn, Checked.ok_bind, List.length_ofFn]
  exact hloop

/-! ## The partition -/

/-- **The batches partition the samples** into runs of `s` columns: batch `k`
holds the columns `k * s` up to `(k + 1) * s`, or up to the last one, of all
rows, with the targets of the same columns. No batch is empty, every batch
but the last has `s` columns, every column is in one batch, and the batches
one after the other are the rows of the data set. -/
structure Partition (X : Fin n → Fin m → α) (T : Fin t → Fin m → α) (s : ℕ)
    (batches : List (Mat α × Mat α)) : Prop where
  /-- There are `m / s` batches, rounded up. -/
  length : batches.length = m ⌈/⌉ s
  /-- Batch `k` is cut out of the rows and of the targets alike. -/
  batch : ∀ k < batches.length, ∃ h,
    batches[k]? = some (batchAt X T (k * s) (min ((k + 1) * s) m - k * s) h)
  /-- No batch is empty. -/
  nonempty : ∀ k < batches.length, k * s < min ((k + 1) * s) m
  /-- Every batch but the last has `s` columns. -/
  full : ∀ k, k + 1 < batches.length → min ((k + 1) * s) m - k * s = s
  /-- Every sample is in one batch. -/
  once : ∀ j < m, ∃! k, k < batches.length ∧ k * s ≤ j ∧ j < min ((k + 1) * s) m
  /-- Put together, the batches are the rows again. -/
  inputs : ∀ i : Fin n, (batches.map fun batch => batch.1.getD i []).flatten = List.ofFn (X i)
  /-- So are their targets. -/
  targets : ∀ i : Fin t, (batches.map fun batch => batch.2.getD i []).flatten = List.ofFn (T i)

omit [Double α] in
/-- A row of the batches, put together again. -/
theorem flatten_blocks {r : ℕ} (A : Fin r → Fin m → α) (hs : 0 < s) (i : Fin r) :
    (List.ofFn fun k : Fin (m ⌈/⌉ s) => (Grid.ofFn (Grid.block A (k * s) (Chunks.size m s k)
      (Chunks.fits k.isLt))).getD i []).flatten = List.ofFn (A i) := by
  have hrow : ∀ k : Fin (m ⌈/⌉ s), (Grid.ofFn (Grid.block A (k * s) (Chunks.size m s k)
      (Chunks.fits k.isLt))).getD i []
        = ((List.ofFn (A i)).drop (k * s)).take (Chunks.size m s k) := by
    intro k
    have hi : (i : ℕ) < (Grid.ofFn (Grid.block A (k * s) (Chunks.size m s k)
        (Chunks.fits k.isLt))).length := by
      rw [Grid.length_ofFn]
      exact i.isLt
    rw [Grid.take_drop_ofFn (A i) (Chunks.fits k.isLt), List.getD_eq_getElem?_getD,
      List.getElem?_eq_getElem hi, Option.getD_some]
    simp only [Grid.ofFn, List.getElem_ofFn]
    rfl
  have hflatten := Chunks.flatten_chunks (List.ofFn (A i)) hs
  rw [List.length_ofFn, ← List.map_coe_finRange_eq_range, List.map_map] at hflatten
  rw [funext hrow, List.ofFn_eq_map]
  exact hflatten

omit [Double α] in
/-- **The chunks partition the samples.** -/
theorem miniBatches_partition (X : Fin n → Fin m → α) (T : Fin t → Fin m → α) (hs : 0 < s) :
    Partition X T s (miniBatches X T s) := by
  have hlength : (miniBatches X T s).length = m ⌈/⌉ s := length_miniBatches X T
  have hstart : ∀ {k}, k < (miniBatches X T s).length → k * s < m := by
    intro k hk
    rw [hlength] at hk
    exact (Chunks.lt_count_iff hs).mp hk
  refine ⟨hlength, fun k hk => ?_, fun k hk => ?_, fun k hk => ?_, fun j hj => ?_, fun i => ?_,
    fun i => ?_⟩
  · have hsize : min ((k + 1) * s) m - k * s = Chunks.size m s k := by
      rw [← Chunks.start_add_size (hstart hk).le, Nat.add_sub_cancel_left]
    rw [hsize]
    refine ⟨Chunks.start_add_size_le (hstart hk).le, ?_⟩
    rw [List.getElem?_eq_getElem hk, getElem_miniBatches]
  · exact lt_min (Nat.mul_lt_mul_of_pos_right (Nat.lt_succ_self k) hs) (hstart hk)
  · rw [min_eq_left (hstart hk).le, Nat.succ_mul, Nat.add_sub_cancel_left]
  · obtain ⟨k, ⟨hle, hlt⟩, hunique⟩ := Chunks.existsUnique_chunk hs hj
    rw [Chunks.start_add_size (hle.trans hj.le)] at hlt
    refine ⟨k, ⟨?_, hle, hlt⟩, fun k' ⟨_, hle', hlt'⟩ => hunique k' ⟨hle', ?_⟩⟩
    · rw [hlength, Chunks.lt_count_iff hs]
      exact hle.trans_lt hj
    · rwa [Chunks.start_add_size (hle'.trans hj.le)]
  · rw [miniBatches, List.map_ofFn]
    exact flatten_blocks X hs i
  · rw [miniBatches, List.map_ofFn]
    exact flatten_blocks T hs i

omit [Double α] in
/-- **`miniBatchGenerator` partitions the samples**, for every mini-batch
size from `1` on. The column numbers are integers here; with at most `2 ^ 30`
samples no `int` of the loop overflows. -/
theorem miniBatchGenerator_partition (X : Fin n → Fin m → α) (T : Fin t → Fin m → α) (hn : 0 < n)
    (hm : 0 < m) (hs : 1 ≤ s) {fuel : ℕ} (hfuel : m ⌈/⌉ s ≤ fuel) :
    ∃ batches, miniBatchGenerator fuel (Grid.ofFn T) (Grid.ofFn X) s = .ok batches
      ∧ Partition X T s batches :=
  ⟨miniBatches X T s, miniBatchGenerator_eq X T hn hm hs hfuel, miniBatches_partition X T hs⟩

theorem fiveSamples_partition :
    ∃ batches, miniBatchGenerator 3 [[0, 1, 0, 1, 1]] [[1, 2, 3, 4, 5]] 2 = .ok batches
      ∧ Partition (fun (_ : Fin 1) (j : Fin 5) => (j : ℕ) + 1)
        (fun (_ : Fin 1) (j : Fin 5) => [0, 1, 0, 1, 1].get j) 2 batches :=
  miniBatchGenerator_partition (fun (_ : Fin 1) (j : Fin 5) => (j : ℕ) + 1)
    (fun (_ : Fin 1) (j : Fin 5) => [0, 1, 0, 1, 1].get j) one_pos (by decide)
    (show 1 ≤ 2 by decide) (by decide)

/-! ## The turns of the loop -/

/-- The bounds `startCol` and `endCol` of the slices that the loop of
`miniBatchGenerator` takes, for at most `fuel` turns, and of those taken
after it. -/
def sliceBounds (m miniBatchSize : ℤ) : ℕ → ℤ → ℤ → Option (List (ℤ × ℤ))
  | 0, _, _ => none
  | fuel + 1, startCol, endCol =>
    if endCol < m then
      (sliceBounds m miniBatchSize fuel endCol (endCol + miniBatchSize)).map
        ((startCol, endCol) :: ·)
    else some [(startCol, m)]

/-- The batch is the slices within these bounds. -/
def CutAt (inputLayer targets : Mat α) (bounds : ℤ × ℤ) (batch : Mat α × Mat α) : Prop :=
  slices inputLayer bounds.1 bounds.2 = .ok batch.1 ∧ slices targets bounds.1 bounds.2 = .ok batch.2

omit [Double α] in
/-- **The loop returns what its slices are**: the turns are those of
`sliceBounds`, and each batch is the slices of its turn. -/
theorem batchesFrom_eq_ok_iff {inputLayer targets : Mat α} {m miniBatchSize : ℤ} {fuel : ℕ}
    {startCol endCol : ℤ} {batches : List (Mat α × Mat α)} :
    batchesFrom inputLayer targets m miniBatchSize fuel startCol endCol = .ok batches
      ↔ ∃ bounds, sliceBounds m miniBatchSize fuel startCol endCol = some bounds
        ∧ List.Forall₂ (CutAt inputLayer targets) bounds batches := by
  induction fuel generalizing startCol endCol batches with
  | zero => simp [batchesFrom, sliceBounds]
  | succ fuel ih =>
    unfold batchesFrom sliceBounds
    by_cases hend : endCol < m
    · -- a turn of the loop, and the turns after it
      rw [if_pos hend, if_pos hend]
      simp only [Checked.bind_eq_ok_iff, ih]
      constructor
      · rintro ⟨A, hA, T, hT, rest, ⟨bounds, hbounds, hcut⟩, heq⟩
        obtain rfl := Except.ok.inj heq
        exact ⟨(startCol, endCol) :: bounds, by rw [hbounds]; rfl, .cons ⟨hA, hT⟩ hcut⟩
      · rintro ⟨bounds, hbounds, hcut⟩
        obtain ⟨rest, hrest, rfl⟩ := Option.map_eq_some_iff.mp hbounds
        cases hcut with
        | cons hfirst hcut => exact ⟨_, hfirst.1, _, hfirst.2, _, ⟨rest, hrest, hcut⟩, rfl⟩
    · -- the last slice, after the loop
      rw [if_neg hend, if_neg hend]
      simp only [Checked.bind_eq_ok_iff]
      constructor
      · rintro ⟨A, hA, T, hT, heq⟩
        obtain rfl := Except.ok.inj heq
        exact ⟨_, rfl, .cons ⟨hA, hT⟩ .nil⟩
      · rintro ⟨bounds, hbounds, hcut⟩
        obtain rfl := Option.some.inj hbounds
        cases hcut with
        | cons hfirst hcut =>
          cases hcut
          exact ⟨_, hfirst.1, _, hfirst.2, rfl⟩

/-- **The turns go forward within the data set**: every slice starts where it
can and ends before the data set does, and each ends after the one before
it. -/
structure Advance (m startCol : ℤ) (bounds : List (ℤ × ℤ)) : Prop where
  /-- `endCol` strictly increases. -/
  ends : (bounds.map Prod.snd).Pairwise (· < ·)
  /-- Every slice lies within the data set. -/
  inRange : ∀ b ∈ bounds, startCol ≤ b.1 ∧ b.1 ≤ b.2 ∧ b.2 ≤ m

/-- With a positive mini-batch size the turns go forward. -/
theorem sliceBounds_advance {m miniBatchSize : ℤ} (hsize : 0 < miniBatchSize) {fuel : ℕ}
    {startCol : ℤ} (hstart : startCol < m) {bounds : List (ℤ × ℤ)}
    (h : sliceBounds m miniBatchSize fuel startCol (startCol + miniBatchSize) = some bounds) :
    Advance m startCol bounds ∧ ∀ b ∈ bounds, startCol < b.2 := by
  induction fuel generalizing startCol bounds with
  | zero => cases h
  | succ fuel ih =>
    rw [sliceBounds] at h
    by_cases hend : startCol + miniBatchSize < m
    · rw [if_pos hend] at h
      obtain ⟨rest, hrest, rfl⟩ := Option.map_eq_some_iff.mp h
      obtain ⟨⟨hends, hrange⟩, hafter⟩ := ih hend hrest
      refine ⟨⟨?_, ?_⟩, ?_⟩
      · refine List.pairwise_cons.mpr ⟨fun e he => ?_, hends⟩
        obtain ⟨b, hb, rfl⟩ := List.mem_map.mp he
        exact hafter b hb
      · refine List.forall_mem_cons.mpr ⟨⟨le_refl _, by omega, hend.le⟩, fun b hb => ?_⟩
        have hle := (hrange b hb).1
        exact ⟨by omega, (hrange b hb).2⟩
      · refine List.forall_mem_cons.mpr ⟨by omega, fun b hb => ?_⟩
        have hlt := hafter b hb
        omega
    · rw [if_neg hend] at h
      obtain rfl := Option.some.inj h
      exact ⟨⟨List.pairwise_singleton _ _,
        List.forall_mem_singleton.mpr ⟨le_refl _, hstart.le, le_refl _⟩⟩,
        List.forall_mem_singleton.mpr hstart⟩

/-- A mini-batch size of `0` does not get away from the first column. -/
theorem sliceBounds_zero {m : ℤ} (hm : 0 < m) (fuel : ℕ) : sliceBounds m 0 fuel 0 0 = none := by
  induction fuel with
  | zero => rfl
  | succ fuel ih =>
    rw [sliceBounds, if_pos hm, add_zero, ih]
    rfl

/-- A negative mini-batch size ends the first slice before it starts. -/
theorem sliceBounds_negative {m miniBatchSize : ℤ} (hm : 0 < m) (hsize : miniBatchSize < 0)
    {fuel : ℕ} {bounds : List (ℤ × ℤ)}
    (h : sliceBounds m miniBatchSize fuel 0 miniBatchSize = some bounds) :
    (0, miniBatchSize) ∈ bounds := by
  cases fuel with
  | zero => cases h
  | succ fuel =>
    rw [sliceBounds, if_pos (hsize.trans hm)] at h
    obtain ⟨rest, -, rfl⟩ := Option.map_eq_some_iff.mp h
    exact List.mem_cons_self

end NeuralNetwork

namespace RouteHandlers

open NeuralNetwork

/-- **The features of the request can be split**: the loop of
`miniBatchGenerator` ends, its slices go forward within the columns of the
features, and with targets of as many columns the batches are returned. -/
def Splits (request : TrainingRequest α) : Prop :=
  ∃ fuel bounds,
    sliceBounds request.samples.length request.batchSize fuel 0 request.batchSize = some bounds
    ∧ Advance request.samples.length 0 bounds
    ∧ ∀ (t : ℕ) (T : Fin t → Fin request.samples.length → α), ∃ batches,
      miniBatchGenerator fuel (Grid.ofFn T) request.features request.batchSize = .ok batches
        ∧ List.Forall₂ (CutAt request.features (Grid.ofFn T)) bounds batches

omit [Double α] in
/-- **Which mini-batch sizes split the data set**: those from `1` on. Neither
the page nor the handler keeps the others from being sent. The column numbers are
integers here; with at most `2 ^ 30` samples no `int` of the loop overflows. -/
theorem splits_iff {message : RValue α} {request : TrainingRequest α}
    (haccept : readTraining message = .ok request) (hsamples : request.samples ≠ [])
    (hfeatures : request.features ≠ []) : Splits request ↔ 1 ≤ request.batchSize := by
  obtain ⟨m, n, X, hm, hX, hX'⟩ :=
    exists_ofFn_of_transpose (readTraining_transposes haccept).1 hsamples
  have hlen : request.samples.length = m := by rw [hX, Grid.length_ofFn]
  have hn : 0 < n := by
    refine Nat.pos_of_ne_zero fun h => hfeatures ?_
    subst h
    exact hX'
  unfold Splits
  rw [hlen, hX']
  constructor
  · rintro ⟨fuel, bounds, hbounds, hadvance, -⟩
    by_contra hsize
    -- a negative size cuts backwards, and a size of zero never ends
    rcases lt_or_eq_of_le (show request.batchSize ≤ 0 by omega) with hneg | hzero
    · have hfirst := hadvance.inRange _ (sliceBounds_negative (by exact_mod_cast hm) hneg hbounds)
      exact absurd hfirst.2.1 (not_le.mpr hneg)
    · rw [hzero, sliceBounds_zero (by exact_mod_cast hm)] at hbounds
      cases hbounds
  · intro hsize
    obtain ⟨s, hs⟩ := Int.eq_ofNat_of_zero_le (zero_le_one.trans hsize)
    have hpos : 0 < s := by omega
    rw [hs]
    -- the bounds are the same for the features and for the targets
    have hreturns : ∀ (t : ℕ) (T : Fin t → Fin m → α), ∃ bounds,
        sliceBounds m s (m ⌈/⌉ s) 0 s = some bounds
        ∧ List.Forall₂ (CutAt (Grid.ofFn X) (Grid.ofFn T)) bounds (miniBatches X T s) := by
      intro t T
      have hgen := miniBatchGenerator_eq X T hn hm hpos le_rfl
      rw [miniBatchGenerator, Vec.at_row_zero X hn, Checked.ok_bind, List.length_ofFn] at hgen
      exact batchesFrom_eq_ok_iff.mp hgen
    obtain ⟨bounds, hbounds, -⟩ := hreturns n X
    refine ⟨m ⌈/⌉ s, bounds, hbounds, ?_, fun t T => ?_⟩
    · have hstart : sliceBounds m s (m ⌈/⌉ s) 0 (0 + s) = some bounds := by rw [zero_add, hbounds]
      exact (sliceBounds_advance (by exact_mod_cast hpos) (by exact_mod_cast hm) hstart).1
    · obtain ⟨bounds', hbounds', hcut⟩ := hreturns t T
      obtain rfl := Option.some.inj (hbounds.symm.trans hbounds')
      exact ⟨_, miniBatchGenerator_eq X T hn hm hpos le_rfl, hcut⟩

theorem sampleMessage_splits : Splits (sampleRequest 1 1) :=
  (splits_iff (readTraining_sampleMessage 1 1) (List.cons_ne_nil _ _)
    (List.cons_ne_nil _ _)).mpr (le_refl 1)

/-- **A message with the mini-batch size `0`** is accepted, and the loop never
ends. -/
theorem zeroMessage_never_splits : ∃ request,
    readTraining (sizedMessage 1 1 0 0) = .ok request ∧ request.samples.length = 1
      ∧ (∀ fuel, miniBatchGenerator fuel request.target request.features request.batchSize
        = .error .outOfFuel) ∧ ¬ Splits request := by
  have hread := readTraining_sizedMessage 1 1 0 0
  refine ⟨_, hread, rfl, fun fuel => ?_, fun h => ?_⟩
  · exact miniBatchGenerator_zero (fun _ _ : Fin 1 => (1 : ℝ)) (fun _ _ : Fin 1 => 1) one_pos
      one_pos fuel
  · obtain ⟨fuel, bounds, hbounds, -⟩ := h
    exact Option.some_ne_none _ (hbounds.symm.trans (sliceBounds_zero one_pos fuel))

end RouteHandlers
