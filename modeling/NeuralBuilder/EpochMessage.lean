import NeuralBuilder.EpochMetrics
import NeuralBuilder.Library.Decimal

/-!
# The messages of the epochs on the chart

At the end of an epoch `train` sends a text with the number of the epoch, its
cost and its accuracy, and `TrainingChart` looks for the three of them in the
text with one regular expression each. The expressions for the cost and the
accuracy read digits and points, and no sign: a text with a negative cost, as
the categorical loss of a prediction of `1` is, becomes a data point without a
loss (`messages_read_iff`).

Numbers are printed as `std::to_string` prints a `double`, with six decimals,
and read with `parseInt` and `parseFloat`, so that what comes back is an exact
decimal. Each expression looks for its label anywhere in the text. That it finds
its own number and no other is shown once for a label and a run of characters
(`Scan.search_label`); that it finds none in a text with a minus sign by the
other half of the same lemma. The costs are real numbers, and what the engine
prints of `nan` and of infinities is not modelled.
-/

/-! ## What the engine writes -/

section Writer

variable {K : Type} [Field K] [LinearOrder K] [FloorRing K]

/-- `std::to_string` of a `double`: fixed notation with six decimals. -/
def stdToString (x : K) : String :=
  (if x < 0 then "-" else "")
    ++ String.ofList (Decimal.fixed 6 (Decimal.roundEven (|x| * 10 ^ 6)).toNat)

/-- **The text of an epoch.** -/
def Progress.message (p : Progress K) : String :=
  "For epoch " ++ toString p.epoch ++ " cost: " ++ stdToString p.cost ++ ", accuracy: "
    ++ stdToString p.accuracy

end Writer

/-! ## What the chart reads -/

namespace TrainingChart

/-- A number of a data point. -/
inductive Reading
  | null
  | nan
  | number (x : ℚ)
  deriving DecidableEq

structure DataPoint where
  /-- What `parseInt` makes of the first match. -/
  epoch : ℕ
  /-- The cost that was read, or null where none was found. -/
  loss : Reading
  /-- The accuracy in percent, or null. -/
  accuracy : Reading
  deriving DecidableEq

/-- `\s` of a regular expression. -/
def isSpace (c : Char) : Bool :=
  c.toNat ∈ [9, 10, 11, 12, 13, 32, 0xa0, 0x1680, 0x2028, 0x2029, 0x202f, 0x205f, 0x3000, 0xfeff]
    || (0x2000 ≤ c.toNat && c.toNat ≤ 0x200a)

/-- `[\d.]`. -/
def isDecimal (c : Char) : Bool :=
  c.isDigit || c == '.'

/-- `log.match(/cost:\s*([\d.]+)/)`, with what the brackets hold. -/
def costMatch (log : String) : Option (List Char) :=
  Scan.search "cost:".toList isSpace isDecimal log.toList

/-- `log.match(/accuracy:\s*([\d.]+)/)`. -/
def accuracyMatch (log : String) : Option (List Char) :=
  Scan.search "accuracy:".toList isSpace isDecimal log.toList

/-- `log.match(/epoch\s*(\d+)/)`. -/
def epochMatch (log : String) : Option (List Char) :=
  Scan.search "epoch".toList isSpace Char.isDigit log.toList

/-- `parseFloat` of a text of digits and points. -/
def parseFloat (text : List Char) : Reading :=
  match Decimal.value text with
  | some x => .number x
  | none => .nan

/-- `x * 100`. -/
def Reading.percent : Reading → Reading
  | number x => number (x * 100)
  | x => x

/-- The data point of a log. -/
def dataPoint (log : String) (index : ℕ) : DataPoint where
  epoch := match epochMatch log with
    | some digits => Nat.ofDigitChars 10 digits 0
    | none => index + 1
  loss := match costMatch log with
    | some text => parseFloat text
    | none => .null
  accuracy := match accuracyMatch log with
    | some text => (parseFloat text).percent
    | none => .null

/-- **The data of the chart.** -/
def data (epochLogs : List String) : List DataPoint :=
  (epochLogs.mapIdx fun index log => dataPoint log index).filter fun data =>
    data.loss ≠ .null || data.accuracy ≠ .null

/-! ## The matches in a message -/

section Reader

variable {K : Type} [Field K] [LinearOrder K] [FloorRing K]

theorem toList_message (p : Progress K) : p.message.toList
    = "For epoch ".toList ++ (Nat.toDigits 10 p.epoch ++ (" cost: ".toList
      ++ ((stdToString p.cost).toList ++ (", accuracy: ".toList
      ++ (stdToString p.accuracy).toList)))) := by
  rw [Progress.message, String.toList_append, String.toList_append, String.toList_append,
    String.toList_append, String.toList_append, List.append_assoc, List.append_assoc,
    List.append_assoc, List.append_assoc]
  exact congrArg (fun digits => _ ++ (digits ++ _)) Nat.toList_repr

/-- A number that is not negative is written without a sign. -/
theorem toList_stdToString {x : K} (hx : 0 ≤ x) : (stdToString x).toList
    = Decimal.fixed 6 (Decimal.roundEven (|x| * 10 ^ 6)).toNat := by
  rw [stdToString, if_neg hx.not_gt, String.empty_append, String.toList_ofList]

/-- A negative one starts with a minus sign. -/
theorem toList_stdToString_neg {x : K} (hx : x < 0) : (stdToString x).toList
    = '-' :: Decimal.fixed 6 (Decimal.roundEven (|x| * 10 ^ 6)).toNat := by
  rw [stdToString, if_pos hx, String.toList_append, String.toList_ofList, String.toList_ofList]
  rfl

theorem notMem_toDigits {l : Char} (hl : l.isDigit = false) (n : ℕ) :
    l ∉ Nat.toDigits 10 n := by
  intro h
  exact absurd (hl.symm.trans (Decimal.isDigit_toDigits l h)) Bool.false_ne_true

theorem isDecimal_of_mem_fixed {k u : ℕ} {c : Char} (hc : c ∈ Decimal.fixed k u) :
    isDecimal c = true := by
  rcases Decimal.mem_fixed hc with hdigit | rfl
  · rw [isDecimal, hdigit, Bool.true_or]
  · rfl

/-- A number has no letter. -/
theorem notMem_stdToString {l : Char} (hl : isDecimal l = false) (hsign : l ≠ '-') (x : K) :
    l ∉ (stdToString x).toList := by
  have hfixed : l ∉ Decimal.fixed 6 (Decimal.roundEven (|x| * 10 ^ 6)).toNat := by
    intro h
    exact absurd (hl.symm.trans (isDecimal_of_mem_fixed h)) Bool.false_ne_true
  rcases lt_or_ge x 0 with hx | hx
  · rw [toList_stdToString_neg hx]
    exact fun h => (List.mem_cons.mp h).elim hsign hfixed
  · rwa [toList_stdToString hx]

/-- A digit is no blank. -/
theorem isSpace_of_isDigit {c : Char} (hc : c.isDigit = true) : isSpace c = false := by
  rw [Char.isDigit, Bool.and_eq_true, decide_eq_true_iff, decide_eq_true_iff] at hc
  have hle : 48 ≤ c.toNat := UInt32.le_iff_toNat_le.mp hc.1
  have hge : c.toNat ≤ 57 := UInt32.le_iff_toNat_le.mp hc.2
  rw [isSpace, Bool.or_eq_false_iff, Bool.and_eq_false_iff]
  simp only [decide_eq_false_iff_not, List.mem_cons, List.not_mem_nil, or_false]
  omega

/-- One blank. -/
theorem isSpace_blank : ∀ c ∈ [' '], isSpace c = true :=
  List.forall_mem_singleton.mpr rfl

/-- A run that starts with a digit starts with no blank. -/
theorem isSpace_head {run : List Char} (h : ∀ c ∈ run.head?, c.isDigit = true) :
    ∀ c ∈ run.head?, isSpace c = false :=
  fun c hc => isSpace_of_isDigit (h c hc)

/-- The digits of the epoch are found. -/
theorem epochMatch_message (p : Progress K) :
    epochMatch p.message = some (Nat.toDigits 10 p.epoch) := by
  rw [epochMatch, toList_message]
  show Scan.search ('e' :: "poch".toList) isSpace Char.isDigit ("For ".toList
    ++ ('e' :: "poch".toList ++ ([' '] ++ (Nat.toDigits 10 p.epoch ++ _)))) = _
  rw [Scan.search_append_of_notMem (by decide)]
  refine Scan.search_label isSpace_blank Nat.toDigits_ne_nil Decimal.isDigit_toDigits
    (isSpace_head fun c hc => Decimal.isDigit_toDigits c (List.mem_of_mem_head? hc)) ?_
  rintro c ⟨⟩
  rfl

/-- The search for the cost comes to its label. -/
theorem costMatch_message (p : Progress K) : costMatch p.message
    = Scan.search ('c' :: "ost:".toList) isSpace isDecimal ('c' :: "ost:".toList
      ++ ([' '] ++ ((stdToString p.cost).toList ++ (", accuracy: ".toList
      ++ (stdToString p.accuracy).toList)))) := by
  rw [costMatch, toList_message]
  -- the `c` of `epoch` is not that of `cost`
  show Scan.search ('c' :: "ost:".toList) isSpace isDecimal ("For epo".toList
    ++ ('c' :: ("h ".toList ++ (Nat.toDigits 10 p.epoch ++ ([' '] ++ ('c' :: "ost:".toList
      ++ ([' '] ++ ((stdToString p.cost).toList ++ (", accuracy: ".toList
      ++ (stdToString p.accuracy).toList))))))))) = _
  rw [Scan.search_append_of_notMem (by decide), Scan.search_cons_of_not_prefix rfl,
    Scan.search_append_of_notMem (by decide),
    Scan.search_append_of_notMem (notMem_toDigits rfl _), Scan.search_append_of_notMem (by decide)]

theorem costMatch_message_of_nonneg (p : Progress K) (hcost : 0 ≤ p.cost) :
    costMatch p.message
      = some (Decimal.fixed 6 (Decimal.roundEven (|p.cost| * 10 ^ 6)).toNat) := by
  rw [costMatch_message, toList_stdToString hcost]
  refine Scan.search_label isSpace_blank (Decimal.fixed_ne_nil _ _) (fun c hc => ?_)
    (isSpace_head Decimal.isDigit_head_fixed) ?_
  · exact isDecimal_of_mem_fixed hc
  · rintro c ⟨⟩
    rfl

/-- The minus sign ends the match, and there is no other label. -/
theorem costMatch_message_of_neg (p : Progress K) (hcost : p.cost < 0) :
    costMatch p.message = none := by
  have hnumber := notMem_stdToString (l := 'c') rfl (by decide) p.cost
  have hlast := notMem_stdToString (l := 'c') rfl (by decide) p.accuracy
  rw [toList_stdToString_neg hcost] at hnumber
  rw [costMatch_message, toList_stdToString_neg hcost,
    Scan.search_label_of_no_run isSpace_blank (by rintro c ⟨⟩; rfl) (by rintro c ⟨⟩; rfl)]
  -- the three `c` of `accuracy` are not that of `cost`
  show Scan.search ('c' :: "ost:".toList) isSpace isDecimal ("ost: ".toList
    ++ ('-' :: Decimal.fixed 6 _ ++ (", a".toList ++ ('c' :: 'c' :: ("ura".toList
      ++ ('c' :: ("y: ".toList ++ (stdToString p.accuracy).toList))))))) = _
  rw [Scan.search_append_of_notMem (by decide), Scan.search_append_of_notMem hnumber,
    Scan.search_append_of_notMem (by decide), Scan.search_cons_of_not_prefix rfl,
    Scan.search_cons_of_not_prefix rfl, Scan.search_append_of_notMem (by decide),
    Scan.search_cons_of_not_prefix rfl, Scan.search_append_of_notMem (by decide),
    ← List.append_nil (stdToString p.accuracy).toList, Scan.search_append_of_notMem hlast]
  rfl

/-- The accuracy is found. -/
theorem accuracyMatch_message (p : Progress K) (haccuracy : 0 ≤ p.accuracy) :
    accuracyMatch p.message
      = some (Decimal.fixed 6 (Decimal.roundEven (|p.accuracy| * 10 ^ 6)).toNat) := by
  set text := Decimal.fixed 6 (Decimal.roundEven (|p.accuracy| * 10 ^ 6)).toNat with htext
  have hmatch : Scan.search ('a' :: "ccuracy:".toList) isSpace isDecimal
      ('a' :: "ccuracy:".toList ++ ([' '] ++ (text ++ []))) = some text :=
    Scan.search_label isSpace_blank (Decimal.fixed_ne_nil _ _)
      (fun c hc => isDecimal_of_mem_fixed hc) (isSpace_head Decimal.isDigit_head_fixed)
      (fun c hc => by cases hc)
  rw [List.append_nil] at hmatch
  rw [accuracyMatch, toList_message, toList_stdToString haccuracy, ← htext]
  show Scan.search ('a' :: "ccuracy:".toList) isSpace isDecimal ("For epoch ".toList
    ++ (Nat.toDigits 10 p.epoch ++ (" cost: ".toList ++ ((stdToString p.cost).toList
      ++ (", ".toList ++ ('a' :: "ccuracy:".toList ++ ([' '] ++ text))))))) = _
  rw [Scan.search_append_of_notMem (by decide),
    Scan.search_append_of_notMem (notMem_toDigits rfl _), Scan.search_append_of_notMem (by decide),
    Scan.search_append_of_notMem (notMem_stdToString rfl (by decide) _),
    Scan.search_append_of_notMem (by decide)]
  exact hmatch

/-! ## The data point of a message -/

/-- **A number to six decimals.** -/
def sixDecimals (x : K) : ℚ :=
  (Decimal.roundEven (x * 10 ^ 6) : ℚ) / 10 ^ 6

/-- **The data point an epoch should have.** -/
def pointOf (p : Progress K) : DataPoint :=
  ⟨p.epoch, .number (sixDecimals p.cost), .number (sixDecimals p.accuracy * 100)⟩

/-- A number that is not negative is read as it was written. -/
theorem parseFloat_fixed [IsStrictOrderedRing K] {x : K} (hx : 0 ≤ x) :
    parseFloat (Decimal.fixed 6 (Decimal.roundEven (|x| * 10 ^ 6)).toNat)
      = .number (sixDecimals x) := by
  have hunits : ((Decimal.roundEven (x * 10 ^ 6)).toNat : ℤ) = Decimal.roundEven (x * 10 ^ 6) :=
    Int.toNat_of_nonneg (Decimal.roundEven_nonneg (by positivity))
  have hcast : ((Decimal.roundEven (x * 10 ^ 6)).toNat : ℚ) = Decimal.roundEven (x * 10 ^ 6) := by
    exact_mod_cast hunits
  rw [parseFloat, abs_of_nonneg hx, Decimal.value_fixed (by decide), hcast]
  rfl

/-- **A message is read back exactly when its cost is not negative.** -/
theorem data_message_iff [IsStrictOrderedRing K] (p : Progress K) (haccuracy : 0 ≤ p.accuracy) :
    data [p.message] = [pointOf p] ↔ 0 ≤ p.cost := by
  have hepoch : (dataPoint p.message 0).epoch = p.epoch := by
    rw [dataPoint, epochMatch_message]
    exact Nat.ofDigitChars_ten_toDigits
  have haccuracy' : (dataPoint p.message 0).accuracy = .number (sixDecimals p.accuracy * 100) := by
    rw [dataPoint, accuracyMatch_message p haccuracy]
    exact congrArg Reading.percent (parseFloat_fixed haccuracy)
  have hdata : data [p.message] = [dataPoint p.message 0] := by
    refine List.filter_eq_self.mpr fun d hd => ?_
    obtain rfl := List.mem_singleton.mp hd
    show (_ || decide ((dataPoint p.message 0).accuracy ≠ .null)) = true
    rw [haccuracy']
    exact Bool.or_true _
  rw [hdata, List.singleton_inj]
  constructor
  · intro hpoint
    by_contra hneg
    have hloss := congrArg DataPoint.loss hpoint
    rw [dataPoint, costMatch_message_of_neg p (not_le.mp hneg)] at hloss
    cases hloss
  · intro hcost
    have hloss : (dataPoint p.message 0).loss = .number (sixDecimals p.cost) := by
      rw [dataPoint, costMatch_message_of_nonneg p hcost]
      exact parseFloat_fixed hcost
    have hparts : ∀ d : DataPoint, d = ⟨d.epoch, d.loss, d.accuracy⟩ := fun d => rfl
    rw [hparts (dataPoint p.message 0), hepoch, hloss, haccuracy', pointOf]

example : Progress.message ⟨12, (-1 / 2 : ℚ), 7 / 8⟩
    = "For epoch 12 cost: -0.500000, accuracy: 0.875000" := by decide +kernel

end Reader

end TrainingChart

/-! ## What `train` sends -/

namespace NeuralNetwork

theorem trainBatch_accuracyRate_nonneg {s s' : Training ℝ} {batch : Mat ℝ × Mat ℝ}
    (hs : 0 ≤ s.accuracyRate) (h : trainBatch s batch = .ok s') : 0 ≤ s'.accuracyRate := by
  unfold trainBatch at h
  obtain ⟨_, -, h⟩ := (Checked.bind_eq_ok_iff _ _ _).mp h
  obtain ⟨_, -, h⟩ := (Checked.bind_eq_ok_iff _ _ _).mp h
  obtain ⟨accuracy, haccuracy, h⟩ := (Checked.bind_eq_ok_iff _ _ _).mp h
  obtain ⟨_, -, h⟩ := (Checked.bind_eq_ok_iff _ _ _).mp h
  obtain ⟨_, -, h⟩ := (Checked.bind_eq_ok_iff _ _ _).mp h
  obtain ⟨_, -, h⟩ := (Checked.bind_eq_ok_iff _ _ _).mp h
  cases h
  exact add_nonneg hs (ModelEvaluator.accuracy_mem_Icc haccuracy).1

theorem trainEpoch_accuracyRate_nonneg {s s' : Training ℝ} {batches : List (Mat ℝ × Mat ℝ)}
    (h : trainEpoch batches s = .ok s') : 0 ≤ s'.accuracyRate := by
  unfold trainEpoch at h
  obtain ⟨r, hr, h⟩ := (Checked.bind_eq_ok_iff _ _ _).mp h
  cases h
  refine div_nonneg ?_ (Nat.cast_nonneg _)
  exact Checked.foldlM_keeps (P := fun r : Training ℝ => 0 ≤ r.accuracyRate)
    (fun _ _ _ hc hd => trainBatch_accuracyRate_nonneg hc hd) (le_refl 0) hr

/-- **Each text of a call** has a number of an epoch from `1` on, and an
accuracy that is not negative. -/
theorem train_sent {Conn : Type} {fuel : ℕ} {nn nn' : NeuralNetwork ℝ} {rand rand' : ℕ → ℝ}
    {inputLayer targets : Mat ℝ} {epochNum miniBatchSize : ℤ} {ws_conn : Option Conn}
    {accuracy : ℝ} {sent : List (Conn × Progress ℝ)}
    (h : train fuel nn rand inputLayer targets epochNum miniBatchSize ws_conn
      = .ok (accuracy, nn', rand', sent)) :
    ∀ e ∈ sent, 1 ≤ e.2.epoch ∧ 0 ≤ e.2.accuracy := by
  unfold train at h
  obtain ⟨_, -, h⟩ := (Checked.bind_eq_ok_iff _ _ _).mp h
  obtain ⟨batches, -, h⟩ := (Checked.bind_eq_ok_iff _ _ _).mp h
  obtain ⟨⟨s, texts⟩, hepochs, h⟩ := (Checked.bind_eq_ok_iff _ _ _).mp h
  cases h
  refine Checked.loop_keeps (P := fun _ (r : Training ℝ × List (Conn × Progress ℝ)) =>
    ∀ e ∈ r.2, 1 ≤ e.2.epoch ∧ 0 ≤ e.2.accuracy) ?_ (fun e he => by cases he) hepochs
  intro epoch c d _ hc hd
  obtain ⟨t, ht, hd⟩ := (Checked.bind_eq_ok_iff _ _ _).mp hd
  cases hd
  intro e he
  rcases List.mem_append.mp he with he | he
  · exact hc e he
  · obtain ⟨conn, -, rfl⟩ := List.mem_map.mp he
    exact ⟨Nat.succ_le_succ (Nat.zero_le _), trainEpoch_accuracyRate_nonneg ht⟩

end NeuralNetwork

/-! ## A prediction of one -/

namespace NeuralNetwork

/-- A network with one class, of which it is certain. -/
noncomputable def certainNetwork : NeuralNetwork ℝ :=
  ⟨.categoricalCrossEntropy, [DenseLayer.unit 0 0 0 0 .softmax "softmax"], [], []⟩

/-- The parameters of the certain network. -/
noncomputable def certain : Network ℝ 1 1 := .cons (.unit 0 0 0 .softmax) .nil

theorem certain_heldBy : certain.HeldBy certainNetwork.layers :=
  ⟨_, _, rfl, DenseLayer.unit_holds 0 0 0 0 _ _ rfl, rfl⟩

theorem certain_forward {m : ℕ} (rand : ℕ → ℝ) (X : Fin 1 → Fin m → ℝ) :
    certain.forward rand X = fun _ _ => 1 := by
  have hkeep : (DenseParams.unit (0 : ℝ) 0 0 .softmax).drops = false :=
    decide_eq_false (lt_irrefl (1 : ℝ))
  show (DenseParams.unit (0 : ℝ) 0 0 .softmax).forward rand X = _
  rw [DenseParams.forward_eq_act hkeep]
  funext i j
  have hsum := Softmax.sum_column
    (fun q => (DenseParams.unit (0 : ℝ) 0 0 .softmax).preact X q j) one_pos
  rw [Fin.sum_univ_one] at hsum
  rw [Subsingleton.elim i 0]
  exact hsum

/-- The data of one sample, of the only class. -/
theorem certain_fits :
    certainNetwork.lossFunction.Fits 1 fun (_ : Fin 1) (_ : Fin 1) => (0 : ℝ) := by
  have hzero : Double.toInt (0 : ℝ) = 0 := by
    have := Double.toInt_natCast 0
    rwa [Nat.cast_zero] at this
  refine ⟨one_pos, fun _ => ?_⟩
  rw [hzero]
  exact ⟨le_rfl, one_pos⟩

/-- **The loss of a certain prediction is negative.** -/
theorem certain_loss_neg : Chunks.meanOfMeans 1 (certainNetwork.lossFunction.sampleLoss
    (fun (_ : Fin 1) (_ : Fin 1) => (1 : ℝ)) (fun (_ : Fin 1) _ => 0) certain_fits) < 0 := by
  rw [Chunks.meanOfMeans_eq (.inl (dvd_refl 1)) one_pos one_pos, Chunks.mean, Fin.sum_univ_one,
    Nat.cast_one, div_one]
  show -Real.log (1 + epsilon) < 0
  rw [Left.neg_neg_iff]
  have hepsilon : (0 : ℝ) < epsilon := by
    show (0 : ℝ) < 1e-10
    norm_num
  exact Real.log_pos (lt_add_of_pos_right 1 hepsilon)

/-- The first batch is predicted before the network has learnt. -/
theorem certain_ownPredictions {s : Training ℝ} (hN : certain.HeldBy s.nn.layers)
    (X T : Fin 1 → Fin 1 → ℝ) {Q : Fin 1 → Fin 1 → ℝ}
    (hQ : OwnPredictions (miniBatches X T 1) 1 s Q) : Q = fun _ _ => 1 := by
  funext i j
  obtain ⟨k, q, rfl⟩ := Chunks.exists_position one_pos j
  have hk : (k : ℕ) < (miniBatches X T 1).length := k.isLt.trans_eq (length_miniBatches X T).symm
  have hfirst : (k : ℕ) = 0 := Nat.lt_one_iff.mp (hk.trans_eq (length_miniBatches X T))
  obtain ⟨batch, r, nn, rand, hbatch, hr, hrun⟩ := hQ k
  rw [hfirst, List.take_zero] at hr
  obtain rfl := Except.ok.inj hr
  obtain rfl := Option.some.inj (hbatch.symm.trans (List.getElem?_eq_getElem hk))
  obtain ⟨layers, hforward, -⟩ := Network.forwardPropagation_heldBy hN s.rand
    (Grid.block X (k * 1) (Chunks.size 1 1 k) (Chunks.fits k.isLt)) one_pos
  rw [getElem_miniBatches, batchAt] at hrun
  obtain ⟨hpred, -⟩ := Prod.mk.inj (Except.ok.inj (hforward.symm.trans hrun))
  rw [certain_forward] at hpred
  exact (congrFun (congrFun (Grid.ofFn_injective hpred) i) q).symm

/-- **One epoch of the certain network** costs less than nothing. -/
theorem train_certain : ∃ (accuracy : ℝ) (nn : NeuralNetwork ℝ) (rand : ℕ → ℝ)
    (progress : Progress ℝ), train 1 certainNetwork (fun _ => 0) [[0]] [[0]] 1 1 (some ())
      = .ok (accuracy, nn, rand, [((), progress)]) ∧ progress.cost < 0 := by
  have hreports : Reports (Chunks.meanOfMeans 1) 1 certainNetwork (fun _ => 0)
      (fun (_ : Fin 1) (_ : Fin 1) => 0) (fun (_ : Fin 1) _ => 0) one_pos one_pos certain_fits 1 1
      (some ()) :=
    train_reports (Network.chained_iff.mpr ⟨certain, certain_heldBy⟩) _ _ _ one_pos one_pos
      one_pos one_pos certain_fits 1 one_pos _ (by decide)
  obtain ⟨inputs, start, batches, Q, accuracy, nn, rand, sent, hinputs, hbatches, hown, hrun,
    hsent, -⟩ := hreports
  obtain ⟨rfl, rfl⟩ := Prod.mk.inj (Except.ok.inj
    ((normalizeTraining_ofFn certainNetwork _ one_pos).symm.trans hinputs))
  obtain rfl := Except.ok.inj ((miniBatchGenerator_eq _ _ one_pos one_pos one_pos le_rfl).symm.trans
    hbatches)
  obtain ⟨s, hs, hQ⟩ := hown 0 Nat.one_pos
  obtain rfl := Except.ok.inj ((epochs_zero _ _).symm.trans hs)
  have hcertain : Q 0 = fun _ _ => 1 := certain_ownPredictions certain_heldBy _ _ hQ
  rw [hsent] at hrun
  refine ⟨accuracy, nn, rand, _, hrun, ?_⟩
  show Chunks.meanOfMeans 1 (certainNetwork.lossFunction.sampleLoss (Q 0) _ certain_fits) < 0
  rw [hcertain]
  exact certain_loss_neg

end NeuralNetwork

/-! ## Reading what `train` sends -/

namespace TrainingChart

/-- **Messages are read back exactly where the cost is not negative.** The text
of an epoch makes one data point, and it is the point with the epoch, the cost
to six decimals and a hundred times the accuracy to six decimals if and only if
the cost is not negative. This holds for every text a call of `train` sends, as
it does for every epoch, cost and rate of right predictions.

The cost is a real number here. Where the engine takes the logarithm of a number
that is not positive, as on a page whose last layer is relu, its cost is no
number, while the logarithm of the reals is one; of the first half nothing is
claimed for such a call. -/
theorem messages_read_iff {Conn : Type} {fuel : ℕ} {nn nn' : NeuralNetwork ℝ} {rand rand' : ℕ → ℝ}
    {inputLayer targets : Mat ℝ} {epochNum miniBatchSize : ℤ} {ws_conn : Option Conn}
    {accuracy : ℝ} {sent : List (Conn × Progress ℝ)}
    (hrun : NeuralNetwork.train fuel nn rand inputLayer targets epochNum miniBatchSize ws_conn
      = .ok (accuracy, nn', rand', sent)) :
    (∀ e ∈ sent, 1 ≤ e.2.epoch ∧ 0 ≤ e.2.accuracy
      ∧ (data [e.2.message] = [pointOf e.2] ↔ 0 ≤ e.2.cost))
    ∧ ∀ progress : Progress ℝ, 0 ≤ progress.accuracy →
      (data [progress.message] = [pointOf progress] ↔ 0 ≤ progress.cost) := by
  refine ⟨fun e he => ?_, data_message_iff⟩
  obtain ⟨hepoch, haccuracy⟩ := NeuralNetwork.train_sent hrun e he
  exact ⟨hepoch, haccuracy, data_message_iff e.2 haccuracy⟩

/-- The message of the certain network, and one with a cost of a half. -/
theorem messages_read_certain : ∃ progress : Progress ℝ,
    (∃ accuracy nn rand, NeuralNetwork.train 1 NeuralNetwork.certainNetwork (fun _ => 0)
      [[0]] [[0]] 1 1 (some ()) = .ok (accuracy, nn, rand, [((), progress)]))
    ∧ 1 ≤ progress.epoch
    ∧ (data [progress.message] = [pointOf progress] ↔ 0 ≤ progress.cost)
    ∧ data [Progress.message ⟨1, (1 / 2 : ℝ), 1⟩] = [pointOf ⟨1, (1 / 2 : ℝ), 1⟩] := by
  obtain ⟨accuracy, nn, rand, progress, hrun, -⟩ := NeuralNetwork.train_certain
  obtain ⟨hsent, hread⟩ := messages_read_iff hrun
  obtain ⟨hepoch, -, hcertain⟩ := hsent ((), progress) (List.mem_singleton_self _)
  exact ⟨progress, ⟨accuracy, nn, rand, hrun⟩, hepoch, hcertain,
    (hread ⟨1, 1 / 2, 1⟩ zero_le_one).mpr one_half_pos.le⟩

/-- **Its cost is not read**: the data point of the message has no loss. -/
theorem cost_not_read : ∃ (accuracy : ℝ) (nn : NeuralNetwork ℝ) (rand : ℕ → ℝ)
    (progress : Progress ℝ),
    NeuralNetwork.train 1 NeuralNetwork.certainNetwork (fun _ => 0) [[0]] [[0]] 1 1 (some ())
      = .ok (accuracy, nn, rand, [((), progress)])
    ∧ (dataPoint progress.message 0).loss = .null
    ∧ data [progress.message] ≠ [pointOf progress] := by
  obtain ⟨accuracy, nn, rand, progress, hrun, hcost⟩ := NeuralNetwork.train_certain
  have haccuracy := (NeuralNetwork.train_sent hrun _ (List.mem_singleton_self _)).2
  refine ⟨accuracy, nn, rand, progress, hrun, ?_, fun hread => ?_⟩
  · rw [dataPoint, costMatch_message_of_neg progress hcost]
  · exact hcost.not_ge ((data_message_iff progress haccuracy).mp hread)

end TrainingChart
