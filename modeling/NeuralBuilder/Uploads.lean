import NeuralBuilder.ProcessPage

/-!
# Two files at once

When a file has been parsed, its upload handler builds the whole
`trainDataset` anew and takes the other matrix and its name from the
`trainDataset` of the render the upload was started in. What has been parsed
in between is lost then: `features_lost` uploads both files before either has
been parsed. `uploads_kept_iff` says that this is the only way to lose one.

A run is read as the uploads it makes: which files are being parsed, and which
file of each kind was parsed last (`Uploaded`). The data set of the page should
be those two files. The condition is about when an upload is started, and not
about which parse ends first; files and their order are arbitrary, a file that
is chosen twice included.
-/

namespace ProcessPage

open Runs

variable {α Id Token : Type}

/-- **The uploads of a run**: the names of the files that are being parsed, and
the file of each kind that has been parsed last, with its matrix. -/
structure Uploaded (α : Type) where
  /-- The files of features that are being parsed. -/
  featureFiles : ℕ → Option String
  /-- Those of labels. -/
  labelFiles : ℕ → Option String
  /-- The last file of features that was parsed, with its matrix. -/
  features : Option (String × Mat α)
  /-- The last one of labels. -/
  labels : Option (String × Mat α)

namespace Uploaded

/-- Before the first upload. -/
def empty : Uploaded α :=
  ⟨fun _ => none, fun _ => none, none, none⟩

/-- What an action adds. -/
def after (number : String → α) (u : Uploaded α) : Action α → Uploaded α
  | .uploadFeatures t file =>
    { u with featureFiles := Function.update u.featureFiles t (some file) }
  | .featuresParsed t data =>
    { u with
      featureFiles := Function.update u.featureFiles t none
      features := (u.featureFiles t).map fun file => (file, parsedMatrix number data) }
  | .uploadLabels t file =>
    { u with labelFiles := Function.update u.labelFiles t (some file) }
  | .labelsParsed t data =>
    { u with
      labelFiles := Function.update u.labelFiles t none
      labels := (u.labelFiles t).map fun file => (file, parsedMatrix number data) }
  | _ => u

/-- **The data set of the files parsed last.** -/
def dataset (u : Uploaded α) : TrainDataset α where
  fileNames :=
    ⟨(u.features.map Prod.fst).getD "No file selected",
      (u.labels.map Prod.fst).getD "No file selected"⟩
  features := u.features.map Prod.snd
  labels := u.labels.map Prod.snd

end Uploaded

/-- The uploads of the actions of a run. -/
def uploaded (number : String → α) (as : List (Action α)) : Uploaded α :=
  as.foldl (Uploaded.after number) .empty

theorem uploaded_append (number : String → α) (as : List (Action α)) (a : Action α) :
    uploaded number (as ++ [a]) = (uploaded number as).after number a := by
  rw [uploaded, List.foldl_append]
  rfl

/-- The features with their name. -/
def TrainDataset.featuresPart (d : TrainDataset α) : String × Option (Mat α) :=
  (d.fileNames.features, d.features)

/-- The labels with their name. -/
def TrainDataset.labelsPart (d : TrainDataset α) : String × Option (Mat α) :=
  (d.fileNames.labels, d.labels)

theorem TrainDataset.eq_iff {d d' : TrainDataset α} :
    d = d' ↔ d.featuresPart = d'.featuresPart ∧ d.labelsPart = d'.labelsPart := by
  constructor
  · rintro rfl
    exact ⟨rfl, rfl⟩
  · obtain ⟨⟨fname, lname⟩, features, labels⟩ := d
    obtain ⟨⟨fname', lname'⟩, features', labels'⟩ := d'
    rintro ⟨hf, hl⟩
    cases hf
    cases hl
    rfl

/-- What a file that has been parsed makes of the features. -/
theorem Uploaded.featuresPart_after (number : String → α) (u : Uploaded α) (t : ℕ)
    (data : List (List String)) :
    (u.after number (.featuresParsed t data)).dataset.featuresPart
      = ((u.featureFiles t).getD "No file selected",
        (u.featureFiles t).map fun _ => parsedMatrix number data) := by
  show (((u.featureFiles t).map _).map _ |>.getD _, ((u.featureFiles t).map _).map _) = _
  rw [Option.map_map, Option.map_map]
  cases u.featureFiles t <;> rfl

/-- What a file that has been parsed makes of the labels. -/
theorem Uploaded.labelsPart_after (number : String → α) (u : Uploaded α) (t : ℕ)
    (data : List (List String)) :
    (u.after number (.labelsParsed t data)).dataset.labelsPart
      = ((u.labelFiles t).getD "No file selected",
        (u.labelFiles t).map fun _ => parsedMatrix number data) := by
  show (((u.labelFiles t).map _).map _ |>.getD _, ((u.labelFiles t).map _).map _) = _
  rw [Option.map_map, Option.map_map]
  cases u.labelFiles t <;> rfl

/-- **What a step may do**: a file is parsed while the other matrix is the one
its upload has read. -/
def KeepsOther (s : State α Id) : Action α → Prop
  | .featuresParsed t _ => ∀ parse ∈ s.featureParses t,
      parse.trainDataset.labelsPart = s.page.trainDataset.labelsPart
  | .labelsParsed t _ => ∀ parse ∈ s.labelParses t,
      parse.trainDataset.featuresPart = s.page.trainDataset.featuresPart
  | _ => True

/-- The files the state waits for are those of the uploads. -/
structure Awaits (u : Uploaded α) (s : State α Id) : Prop where
  /-- The files are those the page waits for. -/
  featureFiles : ∀ t, u.featureFiles t = (s.featureParses t).map Parse.file
  /-- Those of labels likewise. -/
  labelFiles : ∀ t, u.labelFiles t = (s.labelParses t).map Parse.file

/-- A change of what is waited for is a change of the files. -/
theorem update_map_file {files : ℕ → Option String} {parses : ℕ → Option (Parse α)}
    (h : ∀ t, files t = (parses t).map Parse.file) (t : ℕ) (parse : Option (Parse α)) (t' : ℕ) :
    Function.update files t (parse.map Parse.file) t'
      = (Function.update parses t parse t').map Parse.file := by
  by_cases ht : t' = t
  · rw [ht, Function.update_self, Function.update_self]
  · rw [Function.update_of_ne ht, Function.update_of_ne ht, h]

/-- One file is waited for under an address. -/
theorem forall_mem_of_eq_some {β : Type} {o : Option β} {x : β} (h : o = some x) {P : β → Prop} :
    (∀ y ∈ o, P y) ↔ P x := by
  subst h
  simp only [Option.mem_some_iff, forall_eq']

/-! ## One step -/

variable [Double α] [DecidableEq Id] {E : Setting α Id Token} {s s₀ s' : State α Id}
  {a : Action α} {as : List (Action α)} {u : Uploaded α}

omit [DecidableEq Id] in
theorem Start.awaits (h : Start E s) : Awaits (.empty : Uploaded α) s where
  featureFiles t := by
    rw [h.featureParses]
    rfl
  labelFiles t := by
    rw [h.labelParses]
    rfl

omit [DecidableEq Id] in
theorem Start.dataset (h : Start E s) :
    s.page.trainDataset = (.empty : Uploaded α).dataset := by
  rw [h.page]
  rfl

theorem awaits_step (h : Awaits u s) (hstep : Step E s a s') :
    Awaits (u.after E.number a) s' := by
  cases hstep with
  | @uploadFeatures t file _ _ =>
    exact ⟨update_map_file h.featureFiles t (some ⟨file, s.page.trainDataset⟩), h.labelFiles⟩
  | featuresParsed _ => exact ⟨update_map_file h.featureFiles _ none, h.labelFiles⟩
  | @uploadLabels t file _ _ =>
    exact ⟨h.featureFiles, update_map_file h.labelFiles t (some ⟨file, s.page.trainDataset⟩)⟩
  | labelsParsed _ => exact ⟨h.featureFiles, update_map_file h.labelFiles _ none⟩
  | _ => exact ⟨h.featureFiles, h.labelFiles⟩

/-- **A step keeps both files exactly when it does what it may.** -/
theorem dataset_step_iff (hawaits : Awaits u s) (h : s.page.trainDataset = u.dataset)
    (hstep : Step E s a s') :
    s'.page.trainDataset = (u.after E.number a).dataset ↔ KeepsOther s a := by
  cases hstep with
  | @featuresParsed t parse data hparse =>
    have hfile : u.featureFiles t = some parse.file := by
      rw [hawaits.featureFiles, hparse]
      rfl
    have hfeatures : (u.after E.number (.featuresParsed t data)).dataset.featuresPart
        = (parse.file, some (parsedMatrix E.number data)) := by
      rw [Uploaded.featuresPart_after, hfile]
      rfl
    have hlabels : (u.after E.number (.featuresParsed t data)).dataset.labelsPart
        = s.page.trainDataset.labelsPart := by
      rw [h]
      rfl
    have hkeeps : KeepsOther s (.featuresParsed t data)
        ↔ parse.trainDataset.labelsPart = s.page.trainDataset.labelsPart :=
      forall_mem_of_eq_some hparse
    rw [TrainDataset.eq_iff, hfeatures, hlabels, hkeeps]
    exact and_iff_right rfl
  | @labelsParsed t parse data hparse =>
    have hfile : u.labelFiles t = some parse.file := by
      rw [hawaits.labelFiles, hparse]
      rfl
    have hlabels : (u.after E.number (.labelsParsed t data)).dataset.labelsPart
        = (parse.file, some (parsedMatrix E.number data)) := by
      rw [Uploaded.labelsPart_after, hfile]
      rfl
    have hfeatures : (u.after E.number (.labelsParsed t data)).dataset.featuresPart
        = s.page.trainDataset.featuresPart := by
      rw [h]
      rfl
    have hkeeps : KeepsOther s (.labelsParsed t data)
        ↔ parse.trainDataset.featuresPart = s.page.trainDataset.featuresPart :=
      forall_mem_of_eq_some hparse
    rw [TrainDataset.eq_iff, hlabels, hfeatures, hkeeps]
    exact and_iff_left rfl
  | _ => exact iff_of_true h trivial

/-! ## Runs -/

/-- A step that keeps what has been uploaded. -/
def KeepingStep (E : Setting α Id Token) (s : State α Id) (a : Action α) (s' : State α Id) :
    Prop :=
  KeepsOther s a ∧ Step E s a s'

/-- **The data set is that of the files parsed last** in every state of a run
whose steps do what they may, and a step that does not makes it another. -/
theorem uploads_kept_iff (hstart : Start E s₀) (hrun : Run (KeepingStep E) s₀ as s) :
    s.page.trainDataset = (uploaded E.number as).dataset
      ∧ ∀ a s', Step E s a s' →
        (s'.page.trainDataset = (uploaded E.number (as ++ [a])).dataset ↔ KeepsOther s a) := by
  have hboth : Awaits (uploaded E.number as) s
      ∧ s.page.trainDataset = (uploaded E.number as).dataset := by
    refine hrun.history (P := fun as s => Awaits (uploaded E.number as) s
      ∧ s.page.trainDataset = (uploaded E.number as).dataset) ?_ ⟨hstart.awaits, hstart.dataset⟩
    rintro as s a s' ⟨hawaits, h⟩ ⟨hkeeps, hstep⟩
    rw [uploaded_append]
    exact ⟨awaits_step hawaits hstep, (dataset_step_iff hawaits h hstep).mpr hkeeps⟩
  refine ⟨hboth.2, fun a s' hstep => ?_⟩
  rw [uploaded_append]
  exact dataset_step_iff hboth.1 hboth.2 hstep

/-! ## Two files of one number -/

/-- What `Papa.parse` makes of a file with the line `x` and the line `1`. -/
def parsedOne : List (List String) :=
  [["x"], ["1"], [""]]

/-- The document of the page cannot be read. -/
theorem step_loadFailed : Step oneModelSetting (mountedState createDefaultModelInfo) .loadFailed
    { mountedState createDefaultModelInfo with page.loading := false } :=
  .loadFailed rfl

/-- One file after the other. -/
theorem uploads_kept_in_turn : ∃ (s : State Float ℕ) (as : List (Action Float)),
    Run (KeepingStep oneModelSetting) (mountedState createDefaultModelInfo) as s
    ∧ as = [.loadFailed, .uploadFeatures 0 "X.csv", .featuresParsed 0 parsedOne,
      .uploadLabels 0 "y.csv", .labelsParsed 0 parsedOne]
    ∧ s.page.trainDataset = (uploaded oneModelSetting.number as).dataset := by
  have hrun : Run (KeepingStep oneModelSetting) (mountedState createDefaultModelInfo)
      [.loadFailed, .uploadFeatures 0 "X.csv", .featuresParsed 0 parsedOne,
        .uploadLabels 0 "y.csv", .labelsParsed 0 parsedOne] _ :=
    .cons ⟨trivial, step_loadFailed⟩
      (.cons ⟨trivial, .uploadFeatures (t := 0) rfl rfl⟩
        (.cons ⟨fun parse hparse => by cases hparse; rfl, .featuresParsed (t := 0) rfl⟩
          (.cons ⟨trivial, .uploadLabels (t := 0) rfl rfl⟩
            (.single ⟨fun parse hparse => by cases hparse; rfl, .labelsParsed (t := 0) rfl⟩))))
  exact ⟨_, _, hrun, rfl, (uploads_kept_iff (mountedState_start createDefaultModelInfo) hrun).1⟩

/-- **Both files at once**: the features have been parsed, the labels have been
parsed after them, and the data set has no features. -/
theorem features_lost : ∃ (s₀ s : State Float ℕ) (as : List (Action Float)),
    Start oneModelSetting s₀ ∧ Run (Step oneModelSetting) s₀ as s
    ∧ (∀ t, s.featureParses t = none) ∧ (∀ t, s.labelParses t = none)
    ∧ as = [.loadFailed, .uploadFeatures 0 "X.csv", .uploadLabels 0 "y.csv",
      .featuresParsed 0 parsedOne, .labelsParsed 0 parsedOne]
    ∧ (uploaded oneModelSetting.number as).dataset.fileNames = ⟨"X.csv", "y.csv"⟩
    ∧ (uploaded oneModelSetting.number as).dataset.features.isSome
    ∧ s.page.trainDataset.fileNames = ⟨"No file selected", "y.csv"⟩
    ∧ s.page.trainDataset.features = none := by
  have hrun : Run (Step oneModelSetting) (mountedState createDefaultModelInfo)
      [.loadFailed, .uploadFeatures 0 "X.csv", .uploadLabels 0 "y.csv",
        .featuresParsed 0 parsedOne, .labelsParsed 0 parsedOne] _ :=
    .cons step_loadFailed
      (.cons (.uploadFeatures (t := 0) rfl rfl)
        (.cons (.uploadLabels (t := 0) rfl rfl)
          (.cons (.featuresParsed (t := 0) rfl)
            (.single (.labelsParsed (t := 0) rfl)))))
  refine ⟨_, _, _, mountedState_start createDefaultModelInfo, hrun, fun t => ?_, fun t => ?_,
    rfl, rfl, rfl, rfl, rfl⟩
  · exact update_pending_none (fun _ => rfl) t
  · exact update_pending_none (fun _ => rfl) t

end ProcessPage
