import NeuralBuilder.ProcessPage

/-!
# The compiled flag and the trained flag

`isCompiled` promises that the parameters of the page are those of a network
with its layers and its input size, and `isTrained` that a training of that
network has sent its parameters. Most handlers that change one side clear the
flag: saving and deleting a layer, and uploading features. Some do not.
`flags_truthful` says which steps keep the flags truthful, and that every
other step makes one of them lie.

The model remembers what no code reads: which layers the parameters of the page
were computed for (`origin`), and for each training how many compiles there had
been when it was started. `truthful_step_iff` is exact for one step, from any
truthful state, whatever has been waited for. The engine does not say which
network its parameters belong to, so that the message of a training comes with
it here.
-/

namespace ProcessPage

open ExpressServer Runs

variable {α Id Token : Type}

/-- **The flags tell the truth.** -/
structure Truthful (s : State α Id) : Prop where
  /-- The parameters are those of the layers that are shown. -/
  isCompiled : s.page.isCompiled = true → s.origin = some s.page.architecture
  /-- A training started since the last compile has ended. -/
  isTrained : s.page.isTrained = true →
    s.page.isCompiled = true ∧ s.compileCount ∈ s.finished

/-- **What a step may do**: a layer is added only to a page that is not
compiled; a file that has been parsed brings other features only to a page
that is not compiled; a compile succeeds, for the layers and the input size
the page still has, and on a page that is not trained; the parameters a
training sends to a compiled page are of the network of the page; and a socket
is closed only when the page is compiled and a training started since has sent
its parameters. -/
def KeepsTruth (E : Setting α Id Token) (s : State α Id) : Action α → Prop
  | .addLayer => s.page.isCompiled = false
  | .featuresParsed _ data => s.page.isCompiled = true →
      ∀ row ∈ (parsedMatrix E.number data).head?, row.length = s.page.inputSize
  | .compiled t _ => s.compiles t = some s.page.architecture ∧ s.page.isTrained = false
  | .compileFailed _ => False
  | .finalParams _ _ _ network => s.page.isCompiled = true → network = s.page.architecture
  | .close _ => s.page.isCompiled = true ∧ s.compileCount ∈ s.finished
  | _ => True

/-- What holds of every state: nothing is trained while the page is loading,
and no training has been started after a compile to come. -/
structure Consistent (s : State α Id) : Prop where
  /-- Nothing is trained while the page is loading. -/
  isTrained : s.page.loading = true → s.page.isTrained = false
  /-- No socket is open then. -/
  notOpen : s.page.loading = true → ∀ t, s.sessions t = none
  /-- A socket was opened before any compile to come. -/
  sessions : ∀ t startedAt, s.sessions t = some startedAt → startedAt ≤ s.compileCount
  /-- So was the one of a training that has ended. -/
  finished : ∀ startedAt ∈ s.finished, startedAt ≤ s.compileCount

theorem Start.consistent [Double α] {E : Setting α Id Token} {s : State α Id} (h : Start E s) :
    Consistent s where
  isTrained _ := by
    rw [h.page]
    rfl
  notOpen _ := h.sessions
  sessions t startedAt ht := by cases (h.sessions t).symm.trans ht
  finished startedAt hmem := by
    rw [h.finished] at hmem
    cases hmem

theorem Start.truthful [Double α] {E : Setting α Id Token} {s : State α Id} (h : Start E s) :
    Truthful s where
  isCompiled hcompiled := by
    rw [h.page] at hcompiled
    cases hcompiled
  isTrained htrained := by
    rw [h.page] at htrained
    cases htrained

/-! ## What a change of the page does to the flags -/

/-- Where the flags were right, a page whose `isCompiled` is cleared is not
trained. -/
theorem Truthful.isTrained_clearIsCompiled {s : State α Id} (h : Truthful s) :
    s.page.clearIsCompiled.isTrained = false := by
  unfold Page.clearIsCompiled
  dsimp only
  split
  · rfl
  · next hnot => exact Bool.eq_false_iff.mpr fun htrained => hnot (h.isTrained htrained).1

/-- Where both flags are false they tell the truth. -/
theorem truthful_of_false {s : State α Id} (hcompiled : s.page.isCompiled = false)
    (htrained : s.page.isTrained = false) : Truthful s where
  isCompiled h := absurd (hcompiled.symm.trans h) Bool.false_ne_true
  isTrained h := absurd (htrained.symm.trans h) Bool.false_ne_true

/-- Another architecture than the one of the parameters makes the compiled
flag lie. -/
theorem Truthful.truthful_iff_of_architecture {s s' : State α Id} (h : Truthful s)
    (horigin : s'.origin = s.origin) (hcompiled : s'.page.isCompiled = s.page.isCompiled)
    (htrained : s'.page.isTrained = s.page.isTrained) (hcount : s'.compileCount = s.compileCount)
    (hfinished : s'.finished = s.finished) :
    Truthful s' ↔ (s.page.isCompiled = true → s'.page.architecture = s.page.architecture) := by
  constructor
  · intro h' hcomp
    have hold := h.isCompiled hcomp
    have hnew := h'.isCompiled (hcompiled.trans hcomp)
    exact Option.some.inj (hnew.symm.trans (horigin.trans hold))
  · intro harch
    constructor
    · intro hcomp
      have hcomp' := hcompiled.symm.trans hcomp
      rw [horigin, harch hcomp', h.isCompiled hcomp']
    · rw [htrained, hcompiled, hcount, hfinished]
      exact h.isTrained

/-! ## One step -/

variable [Double α] [DecidableEq Id] {E : Setting α Id Token} {s s₀ s' : State α Id}
  {a : Action α} {as : List (Action α)}

theorem consistent_step (h : Consistent s) (hstep : Step E s a s') : Consistent s' := by
  have hsucc : ∀ startedAt, startedAt ≤ s.compileCount → startedAt ≤ s.compileCount + 1 :=
    fun startedAt hle => Nat.le_succ_of_le hle
  -- a page that is loading is not trained, so a reset leaves it so
  have hclear : s.page.loading = true → s.page.clearIsCompiled.isTrained = false := by
    intro hloading
    unfold Page.clearIsCompiled
    dsimp only
    rw [h.isTrained hloading, ite_self]
  have hloaded : ∀ {P : Prop}, s.page.loading = false → s.page.loading = true → P :=
    fun hfalse htrue => absurd (hfalse.symm.trans htrue) Bool.false_ne_true
  cases hstep with
  | loaded _ _ =>
    exact ⟨fun hloading => (Bool.false_ne_true hloading).elim,
      fun hloading => (Bool.false_ne_true hloading).elim,
      fun t n ht => hsucc n (h.sessions t n ht), fun n hn => hsucc n (h.finished n hn)⟩
  | loadFailed _ =>
    exact ⟨fun hloading => (Bool.false_ne_true hloading).elim,
      fun hloading => (Bool.false_ne_true hloading).elim, h.sessions, h.finished⟩
  | saveLayer _ _ | deleteLayer _ _ | uploadFeatures _ _ =>
    exact ⟨hclear, h.notOpen, h.sessions, h.finished⟩
  | compiled _ | compileFailed _ =>
    exact ⟨h.isTrained, h.notOpen, fun t n ht => hsucc n (h.sessions t n ht),
      fun n hn => hsucc n (h.finished n hn)⟩
  | train hloading _ _ _ _ _ _ _ =>
    refine ⟨h.isTrained, hloaded hloading, fun t n ht => ?_, h.finished⟩
    rcases update_eq_some ht with ⟨-, heq⟩ | ⟨-, hold⟩
    · exact (Option.some.inj heq).ge
    · exact h.sessions t n hold
  | @finalParams t startedAt _ _ _ hsession =>
    refine ⟨h.isTrained, h.notOpen, h.sessions, fun n hn => ?_⟩
    rcases List.mem_cons.mp hn with rfl | hn
    · exact h.sessions t n hsession
    · exact h.finished n hn
  | @close t startedAt hsession =>
    have hopen : ∀ {P : Prop}, s.page.loading = true → P := fun hloading => by
      cases (h.notOpen hloading t).symm.trans hsession
    refine ⟨hopen, hopen, fun t' n ht => ?_, h.finished⟩
    rcases update_eq_some ht with ⟨-, heq⟩ | ⟨-, hold⟩
    · cases heq
    · exact h.sessions t' n hold
  | _ => exact ⟨h.isTrained, h.notOpen, h.sessions, h.finished⟩

/-- **A step keeps the flags truthful exactly when it does what it may.** -/
theorem truthful_step_iff (h : Truthful s) (hcons : Consistent s) (hstep : Step E s a s') :
    Truthful s' ↔ KeepsTruth E s a := by
  cases hstep with
  | loaded hloading _ =>
    refine iff_of_true ⟨fun _ => rfl, fun htrained => ?_⟩ trivial
    exact absurd ((hcons.isTrained hloading).symm.trans htrained) Bool.false_ne_true
  | addLayer =>
    refine Iff.trans (h.truthful_iff_of_architecture rfl rfl rfl rfl rfl) ?_
    -- the list of layers has become longer
    have hne : s.page.addLayer.architecture ≠ s.page.architecture := by
      intro heq
      have hlength := congrArg (fun network => network.layers.length) heq
      simp [Page.addLayer, Fields.architecture] at hlength
    exact ⟨fun harch => Bool.eq_false_iff.mpr fun hcompiled => hne (harch hcompiled),
      fun hfalse hcompiled => absurd (hfalse.symm.trans hcompiled) Bool.false_ne_true⟩
  | saveLayer _ _ | deleteLayer _ _ | uploadFeatures _ _ =>
    exact iff_of_true (truthful_of_false rfl h.isTrained_clearIsCompiled) trivial
  | @featuresParsed t parse data _ =>
    refine Iff.trans (h.truthful_iff_of_architecture rfl rfl rfl rfl rfl)
      (imp_congr_right fun _ => ?_)
    cases parsedMatrix E.number data with
    | nil => exact iff_of_true rfl fun row hrow => by cases hrow
    | cons row rows =>
      constructor
      · rintro harch row' hrow'
        obtain rfl := Option.some.inj hrow'
        exact congrArg Architecture.inputSize harch
      · intro hlength
        exact congrArg (Architecture.mk s.page.layers) (hlength row rfl)
  | @compiled t sent parameters hsent =>
    constructor
    · intro h'
      refine ⟨?_, Bool.eq_false_iff.mpr fun htrained => ?_⟩
      · rw [hsent]
        exact h'.isCompiled rfl
      · -- no training can have been started after this compile
        exact absurd (hcons.finished _ (h'.isTrained htrained).2) (Nat.not_succ_le_self _)
    · rintro ⟨harch, htrained⟩
      exact ⟨fun _ => hsent.symm.trans harch,
        fun htrue => absurd (htrained.symm.trans htrue) Bool.false_ne_true⟩
  | compileFailed _ =>
    exact iff_of_false (fun h' => by cases h'.isCompiled rfl) id
  | finalParams _ =>
    constructor
    · exact fun h' hcompiled => Option.some.inj (h'.isCompiled hcompiled)
    · intro hnetwork
      exact ⟨fun hcompiled => congrArg some (hnetwork hcompiled), fun htrained =>
        ⟨(h.isTrained htrained).1, List.mem_cons_of_mem _ (h.isTrained htrained).2⟩⟩
  | close _ =>
    exact ⟨fun h' => h'.isTrained rfl, fun hclose => ⟨h.isCompiled, fun _ => hclose⟩⟩
  | _ => exact iff_of_true ⟨h.isCompiled, h.isTrained⟩ trivial

/-! ## Runs -/

/-- A step that keeps the flags truthful. -/
def TruthfulStep (E : Setting α Id Token) (s : State α Id) (a : Action α) (s' : State α Id) :
    Prop :=
  KeepsTruth E s a ∧ Step E s a s'

/-- **The flags tell the truth in every state** of a run whose steps do what
they may, and a step that does not makes one of them lie. -/
theorem flags_truthful (hstart : Start E s₀) (hrun : Run (TruthfulStep E) s₀ as s) :
    Truthful s ∧ ∀ a s', Step E s a s' → (Truthful s' ↔ KeepsTruth E s a) := by
  have hboth : Truthful s ∧ Consistent s := by
    refine hrun.invariant (P := fun s => Truthful s ∧ Consistent s) ?_
      ⟨hstart.truthful, hstart.consistent⟩
    rintro s a s' ⟨h, hcons⟩ ⟨hkeeps, hstep⟩
    exact ⟨(truthful_step_iff h hcons hstep).mpr hkeeps, consistent_step hcons hstep⟩
  exact ⟨hboth.1, fun a s' hstep => truthful_step_iff hboth.1 hboth.2 hstep⟩

/-! ## A compiled model -/

/-- A document of a compiled model. -/
def compiledInfo : ModelInfo Float :=
  { createDefaultModelInfo with inputSize := 1, isCompiled := true }

/-- The page loads a compiled model. -/
theorem loaded_truthful : (loadedState compiledInfo).page.isCompiled = true
    ∧ Truthful (loadedState compiledInfo) := by
  have hserve : TruthfulStep oneModelSetting (mountedState compiledInfo) .serveLoad _ :=
    ⟨trivial, step_serveLoad compiledInfo⟩
  have hloaded : TruthfulStep oneModelSetting _ .loaded (loadedState compiledInfo) :=
    ⟨trivial, step_loaded compiledInfo⟩
  exact ⟨rfl, (flags_truthful (mountedState_start compiledInfo) (.cons hserve (.single hloaded))).1⟩

/-- **A layer added to a compiled model** leaves it compiled, with the
parameters of the one layer there was. -/
theorem addLayer_lies : ∃ (s₀ s : State Float ℕ) (as : List (Action Float)),
    Start oneModelSetting s₀ ∧ Run (Step oneModelSetting) s₀ as s
    ∧ s.page.isCompiled = true ∧ s.page.layers.length = 2
    ∧ s.page.parameters.map List.length = some 1 ∧ ¬ Truthful s := by
  refine ⟨_, _, _, mountedState_start compiledInfo, .cons (step_serveLoad compiledInfo)
    (.cons (step_loaded compiledInfo) (.single .addLayer)), rfl, rfl, rfl, fun h => ?_⟩
  have hlength := congrArg (Option.map fun network => network.layers.length) (h.isCompiled rfl)
  cases hlength

end ProcessPage
