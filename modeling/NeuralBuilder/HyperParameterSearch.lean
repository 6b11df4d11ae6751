import NeuralBuilder.Compile
import NeuralBuilder.EpochMessage

/-!
# The search over hyperparameters

`hyperParameterTry` trains a network for each combination of its eight lists
and returns a text for each. The loops go through the product of the lists in
lexicographic order, with one result for each combination
(`hyperParameterTry_eq`). The texts are another matter. The number of the
training is never increased, and an `int` added to a literal moves the pointer
to its first character instead of appending digits: `"\nminibatch size: " +
miniBatchSize` is the end of the literal from that position on. No text states
the number of its epochs (`resultText_ne_report`).

What follows a literal in memory is not for the model to say, so a pointer moved
past its end is undefined (`pointerOffset`), and a search with such a number
stops. For searches that go through, `hyperParameterTry_reports_iff` says when
the texts are the reports they are meant to be: where there is no combination,
and so no text.
-/

namespace HyperParameterSearch

variable {α Conn : Type}

/-- **What is searched**: the eight lists of the arguments. -/
structure SearchSpace (α : Type) where
  /-- The sizes of the layers, one list for each network to be tried. -/
  numOfNeurons : List (List ℤ)
  /-- The names of their activations. -/
  activations : List (List String)
  /-- Their learning rates. -/
  learningRates : List (List α)
  /-- The names of the losses. -/
  lossFunctions : List String
  /-- The numbers of epochs. -/
  epochNums : List ℤ
  /-- The mini-batch sizes. -/
  miniBatchSizes : List ℤ
  /-- What dropout keeps of the layers. -/
  keyProbValues : List (List α)
  /-- The weight decays. -/
  lambdaValues : List (List α)

/-- The variables of the eight loops. -/
structure Combination (α : Type) where
  /-- The sizes of the layers. -/
  numOfNeuron : List ℤ
  /-- The names of their activations. -/
  activation : List String
  /-- Their learning rates. -/
  learningRate : List α
  /-- What dropout keeps of them. -/
  keyProbVal : List α
  /-- Their weight decays. -/
  lambdaVal : List α
  /-- The name of the loss. -/
  lossFunction : String
  /-- How many epochs are run. -/
  epochNum : ℤ
  /-- How many samples a mini-batch has. -/
  miniBatchSize : ℤ

/-- **What a search works with**: the data, the connection in `g_ws_conn`, what
`std::to_string` makes of a number, the noise at each address, and a bound on
the turns of a loop. -/
structure Search (α Conn : Type) where
  /-- The features to train on. -/
  inputTrain : Mat α
  /-- The features to test on. -/
  inputTest : Mat α
  /-- The labels to train on. -/
  targetsTrain : Mat α
  /-- The connection that texts are sent over, if there is one. -/
  g_ws_conn : Option Conn
  /-- `std::to_string`. -/
  to_string : α → String
  /-- What is drawn and allocated for a layer at each address. -/
  noise : ℕ → Noise α
  /-- Enough turns for the loops that have no bound. -/
  fuel : ℕ

/-- What a training changes: the next free address, the calls of `rand()` to
come, and the texts sent. -/
structure Progression (α Conn : Type) where
  /-- Where the next layer is allocated. -/
  next : ℕ
  /-- The numbers to come from `rand()`. -/
  rand : ℕ → α
  /-- The texts sent, with the connection of each. -/
  sent : List (Conn × Progress α)

/-! ## The texts -/

/-- `literal + n`, as the text from there on: undefined outside the literal. -/
def pointerOffset (literal : String) (n : ℤ) : Except Fault String :=
  if 0 ≤ n ∧ n ≤ literal.length then .ok (String.ofList (literal.toList.drop n.toNat))
  else .error .outOfRange

namespace Search

variable (S : Search α Conn)

/-- The text up to the loss function. -/
def description (i : ℕ) (c : Combination α) : String :=
  let result := "result of train number " ++ toString i ++ ":\n"
  let result := result ++ "number of neurons: "
  let result := c.numOfNeuron.foldl (fun result non => result ++ (toString non ++ ", "))
    result
  let result := result ++ "\nactivation functions: "
  let result := c.activation.foldl (fun result act => result ++ (act ++ ", ")) result
  let result := result ++ "\nlearning rates: "
  let result := c.learningRate.foldl (fun result lr => result ++ (S.to_string lr ++ ", ")) result
  result ++ ("\nloss func: " ++ c.lossFunction)

/-- The text from the cost on. -/
def conclusion (cost : α) : String :=
  "\ncost score was: " ++ S.to_string cost ++ "\n" ++ "\n\n"

/-- **The text of a result**, as the code puts it together. -/
def resultText (i : ℕ) (c : Combination α) (cost : α) : Except Fault String := do
  let result := S.description i c
  let result := result ++ (← pointerOffset "\nnumber of epochs trained: " c.epochNum)
  let result := result ++ (← pointerOffset "\nminibatch size: " c.miniBatchSize)
  return result ++ S.conclusion cost

/-- **The text that states the training**: with its number, its epochs and the
size of its mini-batches. -/
def report (k : ℕ) (c : Combination α) (cost : α) : String :=
  S.description k c ++ ("\nnumber of epochs trained: " ++ toString c.epochNum)
    ++ ("\nminibatch size: " ++ toString c.miniBatchSize) ++ S.conclusion cost

end Search

/-! ## The loops -/

variable [Double α] (S : Search α Conn)

/-- The training of a combination. -/
def trainCombination (s : Progression α Conn) (c : Combination α) :
    Except Fault (α × Progression α Conn) := do
  let nn ← NeuralNetwork.new S.noise s.next {
    layerSizes := c.numOfNeuron
    layerActivations := c.activation
    lossFunc := c.lossFunction
    learningRates := c.learningRate
    keyProbValues := c.keyProbVal
    lambdaValues := c.lambdaVal
    inputSize := S.inputTest.length }
  let (cost, _, rand, sent) ← nn.train S.fuel s.rand S.inputTrain S.targetsTrain c.epochNum
    c.miniBatchSize S.g_ws_conn
  return (cost, ⟨s.next + c.numOfNeuron.length, rand, s.sent ++ sent⟩)

/-- The body of the innermost loop. -/
def tryCombination (i : ℕ) (r : List String × Progression α Conn) (c : Combination α) :
    Except Fault (List String × Progression α Conn) := do
  let (cost, s) ← trainCombination S r.2 c
  let result ← S.resultText i c cost
  return (r.1 ++ [result], s)

/-- **`hyperParameterTry`**, with what the trainings change. -/
def hyperParameterTry (L : SearchSpace α) (s : Progression α Conn) :
    Except Fault (List String × Progression α Conn) :=
  let i := 1
  L.numOfNeurons.foldlM (fun r numOfNeuron =>
    L.activations.foldlM (fun r activation =>
      L.learningRates.foldlM (fun r learningRate =>
        L.keyProbValues.foldlM (fun r keyProbVal =>
          L.lambdaValues.foldlM (fun r lambdaVal =>
            L.lossFunctions.foldlM (fun r lossFunction =>
              L.epochNums.foldlM (fun r epochNum =>
                L.miniBatchSizes.foldlM (fun r miniBatchSize =>
                  tryCombination S i r ⟨numOfNeuron, activation, learningRate, keyProbVal,
                    lambdaVal, lossFunction, epochNum, miniBatchSize⟩) r) r) r) r) r) r) r)
    ([], s)

/-! ## One result for each combination -/

/-- **The product of the lists**, in lexicographic order of the loops. -/
def SearchSpace.combinations (L : SearchSpace α) : List (Combination α) :=
  L.numOfNeurons.flatMap fun numOfNeuron =>
    L.activations.flatMap fun activation =>
      L.learningRates.flatMap fun learningRate =>
        L.keyProbValues.flatMap fun keyProbVal =>
          L.lambdaValues.flatMap fun lambdaVal =>
            L.lossFunctions.flatMap fun lossFunction =>
              L.epochNums.flatMap fun epochNum =>
                L.miniBatchSizes.map fun miniBatchSize =>
                  ⟨numOfNeuron, activation, learningRate, keyProbVal, lambdaVal, lossFunction,
                    epochNum, miniBatchSize⟩

/-- The trainings of a list of combinations, with the values they return. -/
def trainAll : List (Combination α) → Progression α Conn →
    Except Fault (List α × Progression α Conn)
  | [], s => .ok ([], s)
  | c :: cs, s => do
    let (value, s) ← trainCombination S s c
    let (values, s) ← trainAll cs s
    return (value :: values, s)

/-- The eight loops are one loop over the product. -/
theorem hyperParameterTry_eq_foldlM (L : SearchSpace α) (s : Progression α Conn) :
    hyperParameterTry S L s = L.combinations.foldlM (tryCombination S 1) ([], s) := by
  simp only [hyperParameterTry, SearchSpace.combinations, Checked.foldlM_flatMap, List.foldlM_map]

/-- Where the trainings succeed, the loop appends a text for each combination. -/
theorem foldlM_tryCombination {i : ℕ} {cs : List (Combination α)} {s s' : Progression α Conn}
    {values : List α} (h : trainAll S cs s = .ok (values, s')) (results : List String) :
    cs.foldlM (tryCombination S i) (results, s) = (do
      let texts ← (cs.zip values).mapM fun x => S.resultText i x.1 x.2
      return (results ++ texts, s')) := by
  induction cs generalizing s values results with
  | nil =>
    obtain ⟨rfl, rfl⟩ := Prod.mk.inj (Except.ok.inj h)
    rw [List.zip_nil_left, List.mapM_nil, Checked.pure_eq_ok, Checked.ok_bind, List.append_nil]
    rfl
  | cons c cs ih =>
    obtain ⟨⟨value, s₁⟩, htrain, h⟩ := (Checked.bind_eq_ok_iff _ _ _).mp h
    obtain ⟨⟨values, s₂⟩, hrest, h⟩ := (Checked.bind_eq_ok_iff _ _ _).mp h
    obtain ⟨rfl, rfl⟩ := Prod.mk.inj (Except.ok.inj h)
    rw [List.foldlM_cons, List.zip_cons_cons, List.mapM_cons, tryCombination, htrain,
      Checked.ok_bind]
    dsimp only
    cases S.resultText i c value with
    | error e => rfl
    | ok text =>
      simp only [Checked.ok_bind, Checked.pure_eq_ok, ih hrest]
      cases (cs.zip values).mapM fun x => S.resultText i x.1 x.2 with
      | error e => rfl
      | ok texts => simp

/-- **The results are the texts of the combinations, one each, in the order of
the loops**, each with the value of its training and the number `1`. -/
theorem hyperParameterTry_eq {L : SearchSpace α} {s s' : Progression α Conn} {values : List α}
    (h : trainAll S L.combinations s = .ok (values, s')) :
    hyperParameterTry S L s = (do
      let texts ← (L.combinations.zip values).mapM fun x => S.resultText 1 x.1 x.2
      return (texts, s')) := by
  rw [hyperParameterTry_eq_foldlM, foldlM_tryCombination S h]
  rfl

/-! ## What the texts do not state -/

omit [Double α] in
/-- What is left of a literal is no longer than it. -/
theorem length_pointerOffset_le {literal text : String} {n : ℤ}
    (h : pointerOffset literal n = .ok text) : text.length ≤ literal.length := by
  unfold pointerOffset at h
  split at h
  · cases h
    rw [String.length_ofList, List.length_drop, String.length_toList]
    exact Nat.sub_le _ _
  · cases h

/-- A number has a digit. -/
theorem length_toString_pos (n : ℤ) : 0 < (toString n).length := by
  cases n with
  | ofNat n =>
    show 0 < n.repr.length
    rw [← String.length_toList, Nat.toList_repr]
    exact Nat.length_toDigits_pos
  | negSucc n =>
    show 0 < ("-" ++ (n + 1).repr).length
    rw [String.length_append]
    exact Nat.add_pos_left (by decide) _

omit [Double α] in
/-- **No text states its training**: where the code puts the number of the
epochs, it puts a part of the literal before it at most. -/
theorem resultText_ne_report (k : ℕ) (c : Combination α) (cost : α) :
    S.resultText k c cost ≠ .ok (S.report k c cost) := by
  intro h
  obtain ⟨epochs, hepochs, h⟩ := (Checked.bind_eq_ok_iff _ _ _).mp h
  obtain ⟨size, hsize, h⟩ := (Checked.bind_eq_ok_iff _ _ _).mp h
  have hlength := congrArg String.length (Except.ok.inj h)
  have hepochs' := length_pointerOffset_le hepochs
  have hsize' := length_pointerOffset_le hsize
  have hdigits := length_toString_pos c.epochNum
  simp only [Search.report, String.length_append] at hlength
  omega

/-- The reports of the trainings, numbered from `1` on. -/
def reports (S : Search α Conn) (cs : List (Combination α)) (values : List α) : List String :=
  (cs.zip values).mapIdx fun k x => S.report (k + 1) x.1 x.2

/-- One of the lists has no entry. -/
def SearchSpace.IsEmpty (L : SearchSpace α) : Prop :=
  L.numOfNeurons = [] ∨ L.activations = [] ∨ L.learningRates = [] ∨ L.keyProbValues = []
    ∨ L.lambdaValues = [] ∨ L.lossFunctions = [] ∨ L.epochNums = [] ∨ L.miniBatchSizes = []

/-- A loop over nothing, or of nothing, is over nothing. -/
theorem flatMap_const_eq_nil_iff {β γ : Type} {l : List β} {f : β → List γ} {P : Prop}
    (h : ∀ x, f x = [] ↔ P) : l.flatMap f = [] ↔ l = [] ∨ P := by
  cases l with
  | nil => simp
  | cons x l =>
    rw [List.flatMap_eq_nil_iff]
    constructor
    · exact fun hall => .inr ((h x).mp (hall x List.mem_cons_self))
    · rintro (hnil | hP)
      · cases hnil
      · exact fun y _ => (h y).mpr hP

omit [Double α] in
/-- The product is empty where one of the lists is. -/
theorem combinations_eq_nil_iff (L : SearchSpace α) : L.combinations = [] ↔ L.IsEmpty := by
  refine flatMap_const_eq_nil_iff fun _ => flatMap_const_eq_nil_iff fun _ =>
    flatMap_const_eq_nil_iff fun _ => flatMap_const_eq_nil_iff fun _ =>
    flatMap_const_eq_nil_iff fun _ => flatMap_const_eq_nil_iff fun _ =>
    flatMap_const_eq_nil_iff fun _ => ?_
  exact List.map_eq_nil_iff

/-- **The search reports every combination exactly when there is none.** Where
every training succeeds, `hyperParameterTry` returns the reports of the
combinations if and only if one of its lists is empty. -/
theorem hyperParameterTry_reports_iff {L : SearchSpace α} {s s' : Progression α Conn}
    {values : List α} (h : trainAll S L.combinations s = .ok (values, s')) :
    hyperParameterTry S L s = .ok (reports S L.combinations values, s') ↔ L.IsEmpty := by
  rw [hyperParameterTry_eq S h, ← combinations_eq_nil_iff]
  constructor
  · intro hreports
    cases hcs : L.combinations with
    | nil => rfl
    | cons c cs =>
      -- the first text is not the report of the first training
      rw [hcs] at h hreports
      obtain ⟨⟨value, s₁⟩, -, h⟩ := (Checked.bind_eq_ok_iff _ _ _).mp h
      obtain ⟨⟨values, s₂⟩, -, h⟩ := (Checked.bind_eq_ok_iff _ _ _).mp h
      obtain ⟨rfl, rfl⟩ := Prod.mk.inj (Except.ok.inj h)
      obtain ⟨texts, htexts, hreports⟩ := (Checked.bind_eq_ok_iff _ _ _).mp hreports
      rw [List.zip_cons_cons, List.mapM_cons] at htexts
      obtain ⟨text, htext, htexts⟩ := (Checked.bind_eq_ok_iff _ _ _).mp htexts
      obtain ⟨rest, -, htexts⟩ := (Checked.bind_eq_ok_iff _ _ _).mp htexts
      obtain rfl := Except.ok.inj htexts
      have hlist := (Prod.mk.inj (Except.ok.inj hreports)).1
      rw [reports, List.zip_cons_cons, List.mapIdx_cons] at hlist
      rw [(List.cons.inj hlist).1] at htext
      exact absurd htext (resultText_ne_report S 1 c value)
  · intro hnil
    rw [hnil]
    rfl

/-! ## A search for one network -/

/-- One sample of one feature, and no connection. -/
noncomputable def unitSearch : Search ℝ Unit :=
  ⟨[[0]], [[0]], [[1]], none, stdToString, fun _ => Noise.zero, 1⟩

/-- One unit, five epochs, mini-batches of one. -/
noncomputable def unitSpace : SearchSpace ℝ :=
  ⟨[[1]], [["sigmoid"]], [[0.5]], ["sigmoid cross entropy"], [5], [1], [[]], [[]]⟩

/-- Before the search. -/
def beforeSearch : Progression ℝ Unit :=
  ⟨0, fun _ => 0, []⟩

/-- Its training succeeds. -/
theorem trainAll_unit : ∃ value s',
    trainAll unitSearch unitSpace.combinations beforeSearch = .ok ([value], s') := by
  obtain ⟨nn, hnew, hlayers, hloss⟩ := NeuralNetwork.new_ok
    (RouteHandlers.unitRequest_builds (show ActivationFactory.Accepts "sigmoid" from ⟨_, rfl⟩))
    (NeuralNetwork.hasMemory_zero 0 _)
  have hloss' : LossFunction.sigmoidCrossEntropy = nn.lossFunction := Except.ok.inj hloss
  have hfit : nn.lossFunction.Fits 1 fun (_ : Fin 1) (_ : Fin 1) => (1 : ℝ) := by
    rw [← hloss']
    exact le_refl 1
  obtain ⟨-, -, -, -, value, nn', rand', sent, -, -, -, htrain, -⟩ :=
    NeuralNetwork.train_reports (hlayers.chained (by decide)).2 beforeSearch.rand
      (fun (_ : Fin 1) (_ : Fin 1) => 0) (fun (_ : Fin 1) _ => 1) one_pos one_pos one_pos one_pos
      hfit 5 one_pos (none : Option Unit) (le_refl 1)
  refine ⟨value, ⟨1, rand', sent⟩, ?_⟩
  have hone : trainCombination unitSearch beforeSearch
      ⟨[1], ["sigmoid"], [0.5], [], [], "sigmoid cross entropy", 5, 1⟩
      = .ok (value, ⟨1, rand', sent⟩) := by
    rw [trainCombination]
    show (NeuralNetwork.new (fun _ => Noise.zero) 0 (RouteHandlers.unitRequest "sigmoid").args
      >>= _) = _
    rw [hnew, Checked.ok_bind]
    refine (congrArg (· >>= _) htrain).trans ?_
    rw [Checked.ok_bind]
    rfl
  show trainAll unitSearch [_] beforeSearch = _
  rw [trainAll, hone]
  rfl

/-- The search for it does not return its report. -/
theorem unitSearch_reports_iff : ∃ (value : ℝ) (s' : Progression ℝ Unit),
    trainAll unitSearch unitSpace.combinations beforeSearch = .ok ([value], s')
    ∧ (hyperParameterTry unitSearch unitSpace beforeSearch
      = .ok (reports unitSearch unitSpace.combinations [value], s') ↔ unitSpace.IsEmpty) := by
  obtain ⟨value, s', htrain⟩ := trainAll_unit
  exact ⟨value, s', htrain, hyperParameterTry_reports_iff unitSearch htrain⟩

/-- **What it returns instead**: the number of the epochs, five, has taken the
first five characters off the line it belongs on. -/
theorem unitSearch_result : ∃ (c : Combination ℝ) (value : ℝ) (s' : Progression ℝ Unit),
    unitSpace.combinations = [c] ∧ c.epochNum = 5 ∧ c.miniBatchSize = 1
    ∧ trainAll unitSearch unitSpace.combinations beforeSearch = .ok ([value], s')
    ∧ hyperParameterTry unitSearch unitSpace beforeSearch
      = .ok ([unitSearch.description 1 c ++ "er of epochs trained: " ++ "minibatch size: "
        ++ unitSearch.conclusion value], s')
    ∧ hyperParameterTry unitSearch unitSpace beforeSearch
      ≠ .ok (reports unitSearch unitSpace.combinations [value], s') := by
  obtain ⟨value, s', htrain⟩ := trainAll_unit
  set c : Combination ℝ := ⟨[1], ["sigmoid"], [0.5], [], [], "sigmoid cross entropy", 5, 1⟩ with hc
  have htext : unitSearch.resultText 1 c value = .ok (unitSearch.description 1 c
      ++ "er of epochs trained: " ++ "minibatch size: " ++ unitSearch.conclusion value) := rfl
  have hresult : hyperParameterTry unitSearch unitSpace beforeSearch
      = .ok ([unitSearch.description 1 c ++ "er of epochs trained: " ++ "minibatch size: "
        ++ unitSearch.conclusion value], s') := by
    rw [hyperParameterTry_eq unitSearch htrain]
    rfl
  refine ⟨c, value, s', rfl, rfl, rfl, htrain, hresult, fun h => ?_⟩
  have hlist := (Prod.mk.inj (Except.ok.inj (hresult.symm.trans h))).1
  have hreport : unitSearch.description 1 c ++ "er of epochs trained: " ++ "minibatch size: "
      ++ unitSearch.conclusion value = unitSearch.report 1 c value := (List.cons.inj hlist).1
  rw [hreport] at htext
  exact resultText_ne_report unitSearch 1 c value htext

end HyperParameterSearch
