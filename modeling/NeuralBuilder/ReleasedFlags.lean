import NeuralBuilder.CsvUpload
import NeuralBuilder.Uploads

/-!
# What a failure leaves behind

While a request or a training is under way the page sets `modelInProcess`,
with `isTesting` for a test and `isTraining` for a training, and its buttons
are disabled. `sendHyperparametersCrow` and `sendTestRequest` clear the flags
when the request succeeds and not when it fails, `handlePredict` clears its own
in both cases, and `onclose` clears those of a training, which every socket
comes to. `flags_released_iff` says after which failures nothing is left to
clear a flag.

The steps here are those of the page with its tests and predictions told
apart, and with what their sections hold. Each of them is a step of the page or
leaves its state (`ComponentStep.refines`).
-/

namespace ProcessPage

open Runs

variable {α Id Token : Type}

/-! ## The tests and the predictions -/

inductive InputMethod
  | manual
  | csv
  deriving DecidableEq, Repr

/-- A file of the test or prediction section that is being parsed. -/
structure Upload (α : Type) where
  /-- Whose input it was chosen in. -/
  handler : UploadHandler
  /-- Its name. -/
  file : String
  /-- The data files when it was chosen. -/
  read : DataFiles α

/-- **The whole component**: the page at work with its sections for tests and
for predictions. The last two fields count the requests that are waited for. -/
structure Component (α Id : Type) extends State α Id where
  /-- Whether Test shows that it is at work. -/
  isTesting : Bool
  /-- What tests are given. -/
  testDataset : TrainDataset α
  /-- Where predictions read their features. -/
  inputMethod : InputMethod
  /-- What is typed in. -/
  manualInput : List String
  /-- The file that was chosen. -/
  predictionFile : String
  /-- Its matrix, if it was parsed. -/
  predictionData : Option (Mat α)
  /-- The files that are being parsed. -/
  uploads : ℕ → Option (Upload α)
  /-- The tests. -/
  tests : ℕ
  /-- The predictions. -/
  predictions : ℕ

namespace Component

/-- The files of the page. -/
def files (c : Component α Id) : DataFiles α :=
  ⟨c.page.trainDataset, c.testDataset, c.predictionFile, c.predictionData⟩

def canPredict (c : Component α Id) : Bool :=
  match c.inputMethod with
  | .manual => c.manualInput.any fun val => val != ""
  | .csv => c.predictionFile != ""

/-- The start of an upload; `handlePredictionFileUpload` sets the name of its
file at once. -/
def startUpload (c : Component α Id) (t : ℕ) (handler : UploadHandler) (file : String) :
    Component α Id :=
  { c with
    predictionFile := if handler = .handlePredictionFileUpload then file else c.predictionFile
    uploads := Function.update c.uploads t (some ⟨handler, file, c.files⟩) }

/-- The end of an upload. -/
def endUpload (c : Component α Id) (number : String → α) (t : ℕ) (upload : Upload α)
    (data : List (List String)) : Component α Id :=
  let files := upload.handler.complete number upload.read upload.file data c.files
  { c with
    testDataset := files.testDataset
    predictionData := files.predictionData
    uploads := Function.update c.uploads t none }

/-- A step of the page, with the effect on `[inputSize]`. -/
def withPage (c : Component α Id) (s : State α Id) : Component α Id :=
  { c with
    toState := s
    manualInput :=
      if s.page.inputSize = c.page.inputSize then c.manualInput
      else List.replicate s.page.inputSize "" }

/-- `handleTest` up to its request, after a step of the page. -/
def startTest (c : Component α Id) (s : State α Id) : Component α Id :=
  { c with toState := s, isTesting := true, tests := c.tests + 1 }

end Component

/-- The buttons that send something to the engine. -/
inductive Button
  | compile
  | train
  | test
  | predict
  deriving DecidableEq, Repr

/-- `disabled` of a button. -/
def Component.disabled (c : Component α Id) : Button → Bool
  | .compile => c.page.modelInProcess
  | .train => !c.page.isCompiled || c.page.modelInProcess
  | .test => !c.page.isCompiled || c.page.modelInProcess
  | .predict => !c.page.isCompiled || c.page.modelInProcess || !c.canPredict

/-- What happens to the component: what happens to the page, with a test or a
prediction for each request, and what the user enters in the two sections. -/
inductive Event (α : Type)
  | page (a : Action α)
  | uploadFile (t : ℕ) (handler : UploadHandler) (file : String)
  | fileParsed (t : ℕ) (data : List (List String))
  | setInputMethod (method : InputMethod)
  | setManualInput (idx : ℕ) (value : String)
  | clearManualInput
  | test
  | testAnswered
  | testFailed
  | predict
  | predictAnswered
  | predictFailed

/-- Requests are tests or predictions, and the training files are uploaded by
the page. -/
def Action.isRequest : Action α → Bool
  | .request => true
  | .reply => true
  | .loseReply => true
  | _ => false

def UploadHandler.isTraining : UploadHandler → Bool
  | .handleTrainFeaturesUpload => true
  | .handleTrainLabelsUpload => true
  | _ => false

variable [Double α] [DecidableEq Id]

/-- **One step of the component.** A prediction that fails is one that is
answered, for the flag: the `finally` of `handlePredict` clears it. -/
inductive ComponentStep (E : Setting α Id Token) :
    Component α Id → Event α → Component α Id → Prop
  | page {c a s} : a.isRequest = false → Step E c.toState a s →
    ComponentStep E c (.page a) (c.withPage s)
  | uploadFile {c t handler file} : c.page.loading = false → handler.isTraining = false →
    c.uploads t = none → ComponentStep E c (.uploadFile t handler file)
      (c.startUpload t handler file)
  | fileParsed {c t upload data} : c.uploads t = some upload →
    ComponentStep E c (.fileParsed t data) (c.endUpload E.number t upload data)
  | setInputMethod {c method} : c.page.loading = false →
    ComponentStep E c (.setInputMethod method) { c with inputMethod := method }
  | setManualInput {c idx value} : c.page.loading = false → idx < c.page.inputSize →
    ComponentStep E c (.setManualInput idx value)
      { c with manualInput := c.manualInput.set idx value }
  | clearManualInput {c} : c.page.loading = false →
    ComponentStep E c .clearManualInput
      { c with manualInput := List.replicate c.page.inputSize "" }
  | test {c s} : c.testDataset.features ≠ none → c.testDataset.labels ≠ none →
    Step E c.toState .request s → ComponentStep E c .test (c.startTest s)
  | testAnswered {c s n} : c.tests = n + 1 → Step E c.toState .reply s →
    ComponentStep E c .testAnswered { c with toState := s, isTesting := false, tests := n }
  | testFailed {c s n} : c.tests = n + 1 → Step E c.toState .loseReply s →
    ComponentStep E c .testFailed { c with toState := s, tests := n }
  | predict {c s} : c.canPredict = true → Step E c.toState .request s →
    ComponentStep E c .predict { c with toState := s, predictions := c.predictions + 1 }
  | predictAnswered {c s n} : c.predictions = n + 1 → Step E c.toState .reply s →
    ComponentStep E c .predictAnswered { c with toState := s, predictions := n }
  | predictFailed {c s n} : c.predictions = n + 1 → Step E c.toState .reply s →
    ComponentStep E c .predictFailed { c with toState := s, predictions := n }

/-- **The start**: the page is mounted. -/
structure ComponentStart (E : Setting α Id Token) (c : Component α Id) : Prop where
  /-- The page is mounted. -/
  page : Start E c.toState
  /-- No test is at work. -/
  isTesting : c.isTesting = false
  /-- No test files were chosen. -/
  testDataset : c.testDataset = ⟨⟨"No file selected", "No file selected"⟩, none, none⟩
  /-- Features are typed in at first. -/
  inputMethod : c.inputMethod = .manual
  /-- There is an empty input for each feature. -/
  manualInput : c.manualInput = List.replicate c.page.inputSize ""
  /-- No file was chosen. -/
  predictionFile : c.predictionFile = ""
  /-- None was parsed. -/
  predictionData : c.predictionData = none
  /-- None is being parsed. -/
  uploads : ∀ t, c.uploads t = none
  /-- No test is waited for. -/
  tests : c.tests = 0
  /-- No prediction either. -/
  predictions : c.predictions = 0

variable {E : Setting α Id Token} {c c₀ c' : Component α Id} {a : Event α} {as : List (Event α)}

/-- **Each step is a step of the page**, or leaves its state. -/
theorem ComponentStep.refines (h : ComponentStep E c a c') :
    ∃ as, Run (Step E) c.toState as c'.toState := by
  cases h with
  | page _ hstep => exact ⟨_, .single hstep⟩
  | test _ _ hstep | predict _ hstep => exact ⟨_, .single hstep⟩
  | testAnswered _ hstep | testFailed _ hstep => exact ⟨_, .single hstep⟩
  | predictAnswered _ hstep | predictFailed _ hstep => exact ⟨_, .single hstep⟩
  | _ => exact ⟨[], .nil _⟩

/-! ## What is outstanding -/

/-- Some compile, test or prediction is waited for, or some socket is not
closed. -/
def Component.Outstanding (c : Component α Id) : Prop :=
  (∃ t, c.compiles t ≠ none) ∨ c.requests ≠ 0 ∨ ∃ t, c.sessions t ≠ none

/-- **The flags are going to be cleared**: for each one that is set something
is outstanding that clears it when it ends well. -/
structure Released (c : Component α Id) : Prop where
  /-- The requests waited for are those of tests and predictions. -/
  requests : c.requests = c.tests + c.predictions
  /-- The buttons are disabled for something that is waited for. -/
  modelInProcess : c.page.modelInProcess = true → c.Outstanding
  /-- Test shows that a test is waited for. -/
  isTesting : c.isTesting = true → c.tests ≠ 0
  /-- Train shows that a socket is open. -/
  isTraining : c.page.isTraining = true → ∃ t, c.sessions t ≠ none

/-- **What a step may do**: a compile fails only if `modelInProcess` is not set
or something else is outstanding, and a test only if so, and if `isTesting` is
not set or another test is outstanding. -/
def Releases (c : Component α Id) : Event α → Prop
  | .page (.compileFailed t) => c.page.modelInProcess = true →
      (∃ t' ≠ t, c.compiles t' ≠ none) ∨ c.requests ≠ 0 ∨ ∃ t', c.sessions t' ≠ none
  | .testFailed =>
      (c.page.modelInProcess = true →
        (∃ t, c.compiles t ≠ none) ∨ c.requests ≠ 1 ∨ ∃ t, c.sessions t ≠ none)
      ∧ (c.isTesting = true → c.tests ≠ 1)
  | _ => True

omit [DecidableEq Id] in
theorem ComponentStart.released (h : ComponentStart E c) : Released c where
  requests := by rw [h.page.requests, h.tests, h.predictions]
  modelInProcess hset := by
    rw [h.page.page] at hset
    cases hset
  isTesting hset := absurd (h.isTesting.symm.trans hset) Bool.false_ne_true
  isTraining hset := by
    rw [h.page.page] at hset
    cases hset

/-- What is waited for beside one of several things. -/
theorem exists_update_none_iff {β : Type} {f : ℕ → Option β} {t : ℕ} :
    (∃ t', Function.update f t none t' ≠ none) ↔ ∃ t' ≠ t, f t' ≠ none := by
  refine exists_congr fun t' => ?_
  by_cases ht : t' = t
  · rw [ht, Function.update_self]
    simp
  · rw [Function.update_of_ne ht, and_iff_right ht]

/-- What is started is waited for. -/
theorem exists_update_some {β : Type} (f : ℕ → Option β) (t : ℕ) (x : β) :
    ∃ t', Function.update f t (some x) t' ≠ none :=
  ⟨t, by rw [Function.update_self]; exact Option.some_ne_none x⟩

/-! ## One step -/

/-- **A step of the page keeps the promise exactly when it does what it may.** -/
theorem released_page_iff {s : State α Id} {a : Action α} (h : Released c)
    (ha : a.isRequest = false) (hstep : Step E c.toState a s) :
    Released (c.withPage s) ↔ Releases c (.page a) := by
  cases hstep with
  | request _ _ _ | reply _ | loseReply _ => cases ha
  | @compile t _ _ _ _ =>
    refine iff_of_true ⟨h.requests, fun _ => .inl ?_, h.isTesting, h.isTraining⟩ trivial
    exact exists_update_some _ t _
  | @compiled t sent parameters _ =>
    refine iff_of_true ⟨h.requests, fun hset => ?_, h.isTesting, h.isTraining⟩ trivial
    exact absurd (hset.symm.trans (Bool.and_false _)) Bool.noConfusion
  | @compileFailed t sent _ =>
    have hflag : (c.withPage
        { c.toState with
          page := c.page.compiled none
          compiles := Function.update c.compiles t none
          origin := none
          compileCount := c.compileCount + 1 }).page.modelInProcess = c.page.modelInProcess :=
      Bool.and_true _
    constructor
    · intro h' hset
      exact (h'.modelInProcess (hflag.trans hset)).imp_left exists_update_none_iff.mp
    · intro hother
      refine ⟨h.requests, fun hset => ?_, h.isTesting, h.isTraining⟩
      exact (hother (hflag.symm.trans hset)).imp_left exists_update_none_iff.mpr
  | @train t _ _ _ _ _ _ _ _ =>
    have hopen := exists_update_some c.sessions t c.compileCount
    exact iff_of_true
      ⟨h.requests, fun _ => .inr (.inr hopen), h.isTesting, fun _ => hopen⟩ trivial
  | close _ | stopTraining _ _ =>
    exact iff_of_true ⟨h.requests, nofun, h.isTesting,
      nofun⟩ trivial
  | _ => exact iff_of_true ⟨h.requests, h.modelInProcess, h.isTesting, h.isTraining⟩ trivial

/-- **A step keeps the promise exactly when it does what it may.** -/
theorem released_step_iff (h : Released c) (hstep : ComponentStep E c a c') :
    Released c' ↔ Releases c a := by
  cases hstep with
  | page ha hstep => exact released_page_iff h ha hstep
  | test _ _ hstep =>
    cases hstep
    refine iff_of_true ⟨?_, fun _ => .inr (.inl (Nat.succ_ne_zero _)),
      fun _ => Nat.succ_ne_zero _, h.isTraining⟩ trivial
    show c.requests + 1 = c.tests + 1 + c.predictions
    rw [h.requests, Nat.add_right_comm]
  | @testAnswered _ n htests hstep =>
    cases hstep with
    | @reply m hrequests =>
      refine iff_of_true ⟨?_, nofun, nofun,
        h.isTraining⟩ trivial
      show m = n + c.predictions
      have hcount := h.requests
      omega
  | @testFailed _ n htests hstep =>
    cases hstep with
    | @loseReply m hrequests =>
      have hcount := h.requests
      have hpending : m ≠ 0 ↔ c.requests ≠ 1 := by omega
      have hothers : n ≠ 0 ↔ c.tests ≠ 1 := by omega
      constructor
      · intro h'
        exact ⟨fun hset => (h'.modelInProcess hset).imp_right (Or.imp_left hpending.mp),
          fun hset => hothers.mp (h'.isTesting hset)⟩
      · rintro ⟨hprocess, htesting⟩
        refine ⟨?_, fun hset => ?_, fun hset => hothers.mpr (htesting hset), h.isTraining⟩
        · show m = n + c.predictions
          omega
        · exact (hprocess hset).imp_right (Or.imp_left hpending.mpr)
  | predict _ hstep =>
    cases hstep
    exact iff_of_true ⟨congrArg Nat.succ h.requests, fun _ => .inr (.inl (Nat.succ_ne_zero _)),
      h.isTesting, h.isTraining⟩ trivial
  | @predictAnswered _ n hpredictions hstep | @predictFailed _ n hpredictions hstep =>
    cases hstep with
    | @reply m hrequests =>
      refine iff_of_true ⟨?_, nofun, h.isTesting, h.isTraining⟩ trivial
      show m = c.tests + n
      have hcount := h.requests
      omega
  | _ => exact iff_of_true ⟨h.requests, h.modelInProcess, h.isTesting, h.isTraining⟩ trivial

/-! ## Runs -/

/-- A step after which the flags are going to be cleared. -/
def ReleasingStep (E : Setting α Id Token) (c : Component α Id) (a : Event α)
    (c' : Component α Id) : Prop :=
  Releases c a ∧ ComponentStep E c a c'

/-- **No flag stays set**: in every state of a run whose steps do what they may
in which nothing is outstanding the three flags are false, and no button is
disabled but for want of a compiled model or of something to predict. A step
that does not do what it may leaves a flag that nothing outstanding clears. -/
theorem flags_released_iff (hstart : ComponentStart E c₀)
    (hrun : Run (ReleasingStep E) c₀ as c) :
    (¬ c.Outstanding → c.page.modelInProcess = false ∧ c.isTesting = false
      ∧ c.page.isTraining = false
      ∧ ∀ button, c.disabled button = true →
        c.page.isCompiled = false ∨ (button = .predict ∧ c.canPredict = false))
    ∧ ∀ a c', ComponentStep E c a c' → (Released c' ↔ Releases c a) := by
  have h : Released c := by
    refine hrun.invariant ?_ hstart.released
    rintro c a c' h ⟨hreleases, hstep⟩
    exact (released_step_iff h hstep).mpr hreleases
  refine ⟨fun hnone => ?_, fun a c' hstep => released_step_iff h hstep⟩
  have hprocess : c.page.modelInProcess = false :=
    Bool.eq_false_iff.mpr fun hset => hnone (h.modelInProcess hset)
  have htesting : c.isTesting = false := by
    refine Bool.eq_false_iff.mpr fun hset => hnone (.inr (.inl ?_))
    have hcount := h.requests
    have htests := h.isTesting hset
    omega
  have htraining : c.page.isTraining = false :=
    Bool.eq_false_iff.mpr fun hset => hnone (.inr (.inr (h.isTraining hset)))
  refine ⟨hprocess, htesting, htraining, fun button hdisabled => ?_⟩
  cases button with
  | compile => exact absurd (hprocess.symm.trans hdisabled) Bool.false_ne_true
  | train | test =>
    rw [Component.disabled, hprocess, Bool.or_false, Bool.not_eq_true'] at hdisabled
    exact .inl hdisabled
  | predict =>
    rw [Component.disabled, hprocess, Bool.or_false, Bool.or_eq_true, Bool.not_eq_true',
      Bool.not_eq_true'] at hdisabled
    exact hdisabled.imp_right fun hcan => ⟨rfl, hcan⟩

/-! ## A compile -/

/-- The component when it is mounted. -/
def mountedComponent : Component Float ℕ where
  toState := mountedState createDefaultModelInfo
  isTesting := false
  testDataset := ⟨⟨"No file selected", "No file selected"⟩, none, none⟩
  inputMethod := .manual
  manualInput := List.replicate 40 ""
  predictionFile := ""
  predictionData := none
  uploads _ := none
  tests := 0
  predictions := 0

theorem mountedComponent_start : ComponentStart oneModelSetting mountedComponent :=
  ⟨mountedState_start createDefaultModelInfo, rfl, rfl, rfl, rfl, rfl, rfl, fun _ => rfl, rfl, rfl⟩

/-- The events up to a compile. -/
def compileEvents : List (Event Float) :=
  [.page .loadFailed, .page (.uploadFeatures 0 "X.csv"), .page (.featuresParsed 0 parsedOne),
    .page (.compile 0)]

/-- A compile that succeeds. -/
theorem compile_released : ∃ c : Component Float ℕ,
    Run (ReleasingStep oneModelSetting) mountedComponent
      (compileEvents ++ [.page (.compiled 0 [])]) c
    ∧ (¬ c.Outstanding → c.page.modelInProcess = false) := by
  have hrun : Run (ReleasingStep oneModelSetting) mountedComponent
      (compileEvents ++ [.page (.compiled 0 [])]) _ :=
    .cons ⟨trivial, .page rfl step_loadFailed⟩
      (.cons ⟨trivial, .page rfl (.uploadFeatures (t := 0) rfl rfl)⟩
        (.cons ⟨trivial, .page rfl (.featuresParsed (t := 0) rfl)⟩
          (.cons ⟨trivial, .page rfl (.compile (t := 0) rfl rfl nofun rfl)⟩
            (.single ⟨trivial, .page rfl (.compiled (t := 0) rfl)⟩))))
  exact ⟨_, hrun, fun h => ((flags_released_iff mountedComponent_start hrun).1 h).1⟩

/-- **A compile that fails** leaves `modelInProcess` set with nothing
outstanding, and every button disabled. -/
theorem compile_not_released : ∃ c : Component Float ℕ,
    ComponentStart oneModelSetting mountedComponent
    ∧ Run (ComponentStep oneModelSetting) mountedComponent
      (compileEvents ++ [.page (.compileFailed 0)]) c
    ∧ ¬ c.Outstanding ∧ c.page.modelInProcess = true
    ∧ ∀ button, c.disabled button = true := by
  have hrun : Run (ComponentStep oneModelSetting) mountedComponent
      (compileEvents ++ [.page (.compileFailed 0)]) _ :=
    .cons (.page rfl step_loadFailed)
      (.cons (.page rfl (.uploadFeatures (t := 0) rfl rfl))
        (.cons (.page rfl (.featuresParsed (t := 0) rfl))
          (.cons (.page rfl (.compile (t := 0) rfl rfl nofun rfl))
            (.single (.page rfl (.compileFailed (t := 0) rfl))))))
  refine ⟨_, mountedComponent_start, hrun, ?_, rfl, fun button => by cases button <;> rfl⟩
  rintro (⟨t, ht⟩ | hrequests | ⟨t, ht⟩)
  · exact ht (update_pending_none (fun _ => rfl) t)
  · exact hrequests rfl
  · exact ht rfl

end ProcessPage
