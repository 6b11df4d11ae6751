import NeuralBuilder.ProcessPage

/-!
# The saved flag

Where `saved` is true the user may leave without a warning, so the fields of
the page should be those of the document. Handlers that change a field clear
the flag, or forget to; and `handleSaveModel` sets it whatever has become of
its first request, and whatever the page has become while it waited.
`saved_synced` says under which steps the flag can be believed.

Its condition on the end of a save speaks of the document: what was last read
or written of it is what the page holds. `inOrder_synced` says when that is so
by what happens alone. It is enough that Save is pressed for fields that can be
stored, that the server serves the first request before the second one is sent,
and that nothing changes a field in the meantime.
-/

namespace ProcessPage

open ExpressServer Runs

variable {α Id Token : Type}

/-- **Nothing unsaved is shown as saved**: once the page has loaded, it holds
the fields of the document wherever `saved` is true. -/
def Synced (E : Setting α Id Token) [DecidableEq Id] (s : State α Id) : Prop :=
  s.page.loading = false → s.page.saved = true →
    ∃ info, E.info s.db = some info ∧ s.page.toFields = info.fields

/-- **Fields the document was last read with or set to**, and keeps as they
are. -/
def State.Keeps (E : Setting α Id Token) [DecidableEq Id] (s : State α Id) (fields : Fields α) :
    Prop :=
  s.stored = some fields ∧ ∃ info, E.info s.db = some info ∧ Storable fields info

/-- **What a step may do.** On a page that is shown as saved, the load does
not fail, no layer is deleted, and no setting, no parsed file and no message
of a training changes a field; the first request of a save is served only if
it is refused, or has what the page holds and the document keeps. And a save
ends only when the document was last read with or set to what the page
holds, and keeps it as it is. -/
def KeepsSynced (E : Setting α Id Token) [DecidableEq Id] (s : State α Id) : Action α → Prop
  | .loadFailed => s.page.saved = false
  | .deleteLayer _ => s.page.saved = false
  | .setHyperparameters edit => s.page.saved = true →
      s.page.trainingHyperparameters.edit E.number edit = s.page.trainingHyperparameters
  | .featuresParsed _ data => s.page.saved = true →
      ∀ row ∈ (parsedMatrix E.number data).head?, row.length = s.page.inputSize
  | .finalParams _ modelParams normalizerParams _ => s.page.saved = true →
      s.page.parameters = some modelParams
        ∧ s.page.normalizerParameters = .parameters normalizerParams
  | .serveSave t => s.page.saved = true → ∀ saving, s.saves t = some saving →
      saving.fields.set E.casts = none
        ∨ saving.fields = s.page.toFields
          ∧ ∀ info, E.info s.db = some info → Storable saving.fields info
  | .saveDone _ => s.Keeps E s.page.toFields
  | _ => True

variable [DecidableEq Id] {E : Setting α Id Token} {s s₀ s' : State α Id} {a : Action α}
  {as : List (Action α)}

/-! ## What the document holds -/

/-- The document holds the fields it was last read with or set to, if they
are such as it keeps. -/
def State.Holds (E : Setting α Id Token) (s : State α Id) : Prop :=
  ∀ fields info, s.stored = some fields → E.info s.db = some info → Storable fields info →
    info.fields = fields

theorem State.Keeps.info {fields : Fields α} (h : s.Keeps E fields) (hholds : s.Holds E) :
    ∃ info, E.info s.db = some info ∧ fields = info.fields := by
  obtain ⟨hstored, info, hinfo, hstorable⟩ := h
  exact ⟨info, hinfo, (hholds fields info hstored hinfo hstorable).symm⟩

variable [Double α]

theorem holds_step (h : s.Holds E) (hstep : Step E s a s') : s'.Holds E := by
  cases hstep with
  | serveLoad _ _ hreply =>
    rintro fields info hfields hinfo -
    obtain rfl := Option.some.inj ((E.info_of_fetchModelData hreply).symm.trans hinfo)
    exact Option.some.inj hfields
  | @serveSave t saving _ _ =>
    intro fields info hfields hinfo hstorable
    dsimp only at hfields hinfo
    cases hset : saving.fields.set E.casts with
    | none =>
      rw [hset] at hfields
      rw [E.serve_saveModelInfo_of_none s.db hset] at hinfo
      exact h fields info hfields hinfo hstorable
    | some f =>
      rw [hset, Option.isSome_some, if_pos rfl] at hfields
      obtain rfl := Option.some.inj hfields
      rw [E.serve_saveModelInfo s.db hset, E.info_updateInfo] at hinfo
      obtain ⟨info, -, rfl⟩ := Option.map_eq_some_iff.mp hinfo
      exact (set_fields_iff hset info).mpr ((storable_set_iff hset info).mp hstorable)
  | @serveStatus t saving db reply _ _ hserve =>
    have hinfo : E.info db = E.info s.db := by
      rw [← E.info_updateStatue s.db saving.fields.isCompiled saving.isTrained, hserve]
    intro fields info hfields hinfo'
    exact h fields info hfields (hinfo.symm.trans hinfo')
  | _ => exact h

/-! ## While the page is loading -/

/-- **While the page is loading**, its settings are those no document keeps;
and as long as it is shown as saved, no save has been asked for, and the
document is the one that has been read. -/
structure Loading (E : Setting α Id Token) (s : State α Id) : Prop where
  /-- The settings have a `learningRate`, as those of a document never do. -/
  learningRate : s.page.loading = true →
    s.page.trainingHyperparameters.learningRate ≠ none
  /-- Save has not been pressed. -/
  saves : s.page.loading = true → s.page.saved = true → ∀ t, s.saves t = none
  /-- A reply brings the document as it is. -/
  fetched : s.page.loading = true → s.page.saved = true → ∀ info, s.fetched = some info →
    E.info s.db = some info

theorem Start.loading (h : Start E s) : Loading E s where
  learningRate _ := by
    rw [h.page]
    exact Option.some_ne_none _
  saves _ _ := h.saves
  fetched _ _ info hinfo := by cases h.fetched.symm.trans hinfo

theorem loading_step (h : Loading E s) (hkeeps : KeepsSynced E s a) (hstep : Step E s a s') :
    Loading E s' := by
  have habsurd : ∀ {b : Bool} {P : Prop}, b = false → b = true → P :=
    fun hfalse htrue => absurd (hfalse.symm.trans htrue) Bool.false_ne_true
  -- a page that waits for a save is not shown as saved while it is loading
  have hwaits : ∀ {t saving P}, s.saves t = some saving → s.page.loading = true →
      s.page.saved = true → P := fun hsaving hloading hsaved => by
    cases (h.saves hloading hsaved _).symm.trans hsaving
  cases hstep with
  | serveLoad _ _ hreply =>
    exact ⟨h.learningRate, h.saves, fun _ _ info hinfo =>
      (E.info_of_fetchModelData hreply).trans hinfo⟩
  | loaded _ _ => exact ⟨habsurd rfl, habsurd rfl, habsurd rfl⟩
  | loadFailed _ => exact ⟨habsurd rfl, habsurd rfl, habsurd rfl⟩
  | addLayer => exact ⟨h.learningRate, fun _ => habsurd rfl, fun _ => habsurd rfl⟩
  | setHyperparameters hloading =>
    exact ⟨habsurd hloading, habsurd hloading, habsurd hloading⟩
  | saveLayer _ _ | uploadFeatures _ _ | compiled _ | compileFailed _ =>
    exact ⟨h.learningRate, fun _ => habsurd rfl, fun _ => habsurd rfl⟩
  | save hsaved _ => exact ⟨h.learningRate, fun _ => habsurd hsaved, fun _ => habsurd hsaved⟩
  | serveSave hsaving _ | sendStatus hsaving _ | serveStatus hsaving _ _ | saveFailed hsaving _ =>
    exact ⟨h.learningRate, hwaits hsaving, hwaits hsaving⟩
  | saveDone _ _ _ =>
    obtain ⟨-, info, -, hstorable⟩ := hkeeps
    have hnot : ∀ {P : Prop}, s.page.loading = true → P := fun hloading =>
      absurd hstorable.learningRate (h.learningRate hloading)
    exact ⟨h.learningRate, hnot, hnot⟩
  | _ => exact ⟨h.learningRate, h.saves, h.fetched⟩

/-! ## One step -/

omit [Double α] in
/-- A page that is not shown as saved promises nothing. -/
theorem synced_of_not_saved (h : s.page.saved = false) : Synced E s := fun _ hsaved =>
  absurd (h.symm.trans hsaved) Bool.false_ne_true

omit [Double α] in
/-- A page whose fields have not changed is as right as it was. -/
theorem Synced.of_fields (h : Synced E s) (hinfo : E.info s'.db = E.info s.db)
    (hloading : s'.page.loading = s.page.loading) (hsaved : s'.page.saved = s.page.saved)
    (hfields : s.page.saved = true → s'.page.toFields = s.page.toFields) : Synced E s' := by
  intro hloading' hsaved'
  have hsaved'' := hsaved.symm.trans hsaved'
  rw [hinfo, hfields hsaved'']
  exact h (hloading.symm.trans hloading') hsaved''

theorem synced_step (h : Synced E s) (hholds : s.Holds E) (hload : Loading E s)
    (hkeeps : KeepsSynced E s a) (hstep : Step E s a s') : Synced E s' := by
  cases hstep with
  | loaded hloading hfetched =>
    exact fun _ hsaved => ⟨_, hload.fetched hloading hsaved _ hfetched, rfl⟩
  | loadFailed _ | deleteLayer _ _ => exact synced_of_not_saved hkeeps
  | addLayer | saveLayer _ _ | uploadFeatures _ _ | compiled _ | compileFailed _ =>
    exact synced_of_not_saved rfl
  | setHyperparameters _ =>
    refine h.of_fields rfl rfl rfl fun hsaved => ?_
    rw [hkeeps hsaved]
  | @featuresParsed t parse data _ =>
    refine h.of_fields rfl rfl rfl fun hsaved => ?_
    have hsize : ((parsedMatrix E.number data).head?.map List.length).getD s.page.inputSize
        = s.page.inputSize := by
      cases hrow : (parsedMatrix E.number data).head? with
      | none => rfl
      | some row => exact hkeeps hsaved row hrow
    unfold Page.featuresParsed
    dsimp only
    rw [hsize]
  | finalParams _ =>
    refine h.of_fields rfl rfl rfl fun hsaved => ?_
    obtain ⟨hparameters, hnormalizer⟩ := hkeeps hsaved
    unfold Page.onFinalParams
    dsimp only
    rw [← hparameters, ← hnormalizer]
  | @serveSave t saving hsaving _ =>
    cases hset : saving.fields.set E.casts with
    | none =>
      refine h.of_fields ?_ rfl rfl fun _ => rfl
      rw [E.serve_saveModelInfo_of_none s.db hset]
    | some f =>
      intro hloading hsaved
      obtain ⟨info, hinfo, hfields⟩ := h hloading hsaved
      rcases hkeeps hsaved saving hsaving with hnone | ⟨hsame, hstorable⟩
      · cases hnone.symm.trans hset
      · rw [E.serve_saveModelInfo s.db hset, E.info_updateInfo, hinfo]
        refine ⟨f info, rfl, ?_⟩
        rw [(set_fields_iff hset info).mpr (hstorable info hinfo)]
        exact hsame.symm
  | serveStatus _ _ hserve =>
    refine h.of_fields ?_ rfl rfl fun _ => rfl
    rw [← E.info_updateStatue s.db, hserve]
  | saveDone _ _ _ => exact fun _ _ => hkeeps.info hholds
  | _ => exact h

/-! ## Runs -/

/-- A step that keeps the page and the document together. -/
def SyncedStep (E : Setting α Id Token) (s : State α Id) (a : Action α) (s' : State α Id) : Prop :=
  KeepsSynced E s a ∧ Step E s a s'

theorem Start.invariant (hstart : Start E s₀) : Synced E s₀ ∧ s₀.Holds E ∧ Loading E s₀ := by
  refine ⟨fun hloading => ?_, fun fields info hstored => ?_, hstart.loading⟩
  · rw [hstart.page] at hloading
    cases hloading
  · cases hstart.stored.symm.trans hstored

/-- **In every state of a run whose steps do what they may, nothing unsaved is
shown as saved**: once the page has loaded, its fields are those of the document
wherever the flag is set. Requests may fail, and any number of saves may wait at
a time. -/
theorem saved_synced (hstart : Start E s₀) (hrun : Run (SyncedStep E) s₀ as s) : Synced E s := by
  refine (hrun.invariant (P := fun s => Synced E s ∧ s.Holds E ∧ Loading E s) ?_
    hstart.invariant).1
  rintro s a s' ⟨h, hholds, hload⟩ ⟨hkeeps, hstep⟩
  exact ⟨synced_step h hholds hload hkeeps hstep, holds_step hholds hstep,
    loading_step hload hkeeps hstep⟩

/-! ## Saving in order -/

/-- A call of `handleSaveModel` waits for a reply. -/
def State.SaveWaits (s : State α Id) : Prop :=
  ∃ t saving, s.saves t = some saving ∧ saving.stage ≠ .ended

/-- **Saving in order**: what may happen, whatever the document holds by then.
Save is pressed for fields that the document keeps, its second request is sent
when the first one has been served, and while it waits, no field is changed and
Save is not pressed again. Nothing that forgets to clear the flag changes a
field while it is set. -/
def SavesInOrder (E : Setting α Id Token) (s : State α Id) : Action α → Prop
  | .loadFailed => s.page.saved = false
  | .addLayer | .saveLayer _ _ | .uploadFeatures _ _ | .compiled _ _ | .compileFailed _ =>
    ¬ s.SaveWaits
  | .deleteLayer _ | .setHyperparameters _ | .featuresParsed _ _ | .finalParams _ _ _ _ =>
    s.page.saved = false ∧ ¬ s.SaveWaits
  | .save _ => ¬ s.SaveWaits ∧ ∃ info, E.info s.db = some info ∧ Storable s.page.toFields info
  | .sendStatus t => ∀ saving, s.saves t = some saving → saving.modelInfoInFlight = false
  | _ => True

/-- **A save that waits is one of what the page holds.** -/
structure Saving.InOrder (E : Setting α Id Token) (s : State α Id) (saving : Saving α) : Prop where
  /-- The page has not changed since Save was pressed. -/
  fields : saving.fields = s.page.toFields
  /-- The document keeps what is sent. -/
  keeps : ∃ info, E.info s.db = some info ∧ Storable saving.fields info
  /-- Once it is served, it is the last thing that was done to the document. -/
  stored : saving.modelInfoInFlight = false → s.stored = some saving.fields

/-- **The invariant of saving in order.** -/
structure InOrder (E : Setting α Id Token) (s : State α Id) : Prop where
  /-- What waits is in order. -/
  waiting : ∀ t saving, s.saves t = some saving → saving.stage ≠ .ended → saving.InOrder E s
  /-- The server has served the first request before the second one is sent. -/
  served : ∀ t saving, s.saves t = some saving → saving.stage ≠ .modelInfo →
    saving.modelInfoInFlight = false
  /-- One save waits at a time. -/
  single : ∀ t t' saving saving', s.saves t = some saving → s.saves t' = some saving' →
    saving.stage ≠ .ended → saving'.stage ≠ .ended → t = t'

section Order

variable {t : ℕ} {saving saving' : Saving α}

omit [Double α] in
theorem Saving.InOrder.of_eq (h : saving.InOrder E s) (hfields : s'.page.toFields = s.page.toFields)
    (hinfo : E.info s'.db = E.info s.db) (hstored : s'.stored = s.stored) :
    saving.InOrder E s' where
  fields := h.fields.trans hfields.symm
  keeps := by
    rw [hinfo]
    exact h.keeps
  stored hserved := hstored.trans (h.stored hserved)

omit [Double α] in
theorem InOrder.of_eq (h : InOrder E s) (hsaves : s'.saves = s.saves)
    (hfields : s'.page.toFields = s.page.toFields) (hdb : s'.db = s.db)
    (hstored : s'.stored = s.stored) : InOrder E s' where
  waiting t saving hsaving hwaits :=
    (h.waiting t saving (hsaves ▸ hsaving) hwaits).of_eq hfields (congrArg E.info hdb) hstored
  served t saving hsaving := h.served t saving (hsaves ▸ hsaving)
  single t t' saving saving' hsaving hsaving' :=
    h.single t t' saving saving' (hsaves ▸ hsaving) (hsaves ▸ hsaving')

omit [Double α] in
/-- While no save waits, anything may change. -/
theorem InOrder.of_not_waits (h : InOrder E s) (hsaves : s'.saves = s.saves)
    (hwaits : ¬ s.SaveWaits) : InOrder E s' where
  waiting t saving hsaving hstage := absurd ⟨t, saving, hsaves ▸ hsaving, hstage⟩ hwaits
  served t saving hsaving := h.served t saving (hsaves ▸ hsaving)
  single t _ saving _ hsaving _ hstage :=
    absurd ⟨t, saving, hsaves ▸ hsaving, hstage⟩ hwaits

omit [Double α] in
/-- **One save goes on**, and the others stay where they are. -/
theorem InOrder.moved (h : InOrder E s) (hsaving : s.saves t = some saving)
    (hsaves : s'.saves = Function.update s.saves t (some saving'))
    (hstage : saving'.stage ≠ .ended → saving.stage ≠ .ended)
    (hserved : saving'.stage ≠ .modelInfo → saving'.modelInfoInFlight = false)
    (hthis : saving'.stage ≠ .ended → saving'.InOrder E s')
    (hothers : ∀ t' other, t' ≠ t → s.saves t' = some other → other.stage ≠ .ended →
      other.InOrder E s') : InOrder E s' := by
  have hcases : ∀ {t' other}, s'.saves t' = some other →
      t' = t ∧ other = saving' ∨ t' ≠ t ∧ s.saves t' = some other := by
    intro t' other hother
    rw [hsaves] at hother
    by_cases ht : t' = t
    · subst ht
      rw [Function.update_self] at hother
      exact .inl ⟨rfl, (Option.some.inj hother).symm⟩
    · rw [Function.update_of_ne ht] at hother
      exact .inr ⟨ht, hother⟩
  constructor
  · intro t' other hother hwaits
    obtain ⟨rfl, rfl⟩ | ⟨ht, hother⟩ := hcases hother
    · exact hthis hwaits
    · exact hothers t' other ht hother hwaits
  · intro t' other hother
    obtain ⟨rfl, rfl⟩ | ⟨-, hother⟩ := hcases hother
    · exact hserved
    · exact h.served t' other hother
  · intro t₁ t₂ one two hone htwo hwaits hwaits'
    obtain ⟨rfl, rfl⟩ | ⟨-, hone⟩ := hcases hone
    · obtain ⟨rfl, -⟩ | ⟨-, htwo⟩ := hcases htwo
      · rfl
      · exact h.single _ _ saving two hsaving htwo (hstage hwaits) hwaits'
    · obtain ⟨rfl, rfl⟩ | ⟨-, htwo⟩ := hcases htwo
      · exact h.single _ _ one saving hone hsaving hwaits (hstage hwaits')
      · exact h.single _ _ one two hone htwo hwaits hwaits'

omit [Double α] in
/-- **A save that is pressed while none waits** is the only one that does. -/
theorem InOrder.pressed (h : InOrder E s) (hwaits : ¬ s.SaveWaits)
    (hsaves : s'.saves = Function.update s.saves t (some saving))
    (hserved : saving.stage ≠ .modelInfo → saving.modelInfoInFlight = false)
    (hthis : saving.InOrder E s') : InOrder E s' := by
  have hcases : ∀ {t' other}, s'.saves t' = some other →
      t' = t ∧ other = saving ∨ s.saves t' = some other := by
    intro t' other hother
    rw [hsaves] at hother
    by_cases ht : t' = t
    · subst ht
      rw [Function.update_self] at hother
      exact .inl ⟨rfl, (Option.some.inj hother).symm⟩
    · rw [Function.update_of_ne ht] at hother
      exact .inr hother
  have honly : ∀ {t' other}, s'.saves t' = some other → other.stage ≠ .ended →
      t' = t ∧ other = saving := fun hother hstage =>
    (hcases hother).resolve_right fun hold => hwaits ⟨_, _, hold, hstage⟩
  constructor
  · intro t' other hother hstage
    obtain ⟨-, rfl⟩ := honly hother hstage
    exact hthis
  · intro t' other hother
    obtain ⟨-, rfl⟩ | hother := hcases hother
    · exact hserved
    · exact h.served t' other hother
  · intro t₁ t₂ one two hone htwo hstage hstage'
    exact (honly hone hstage).1.trans (honly htwo hstage').1.symm

omit [Double α] in
/-- While its first request is on its way, a save waits. -/
theorem InOrder.not_ended (h : InOrder E s) (hsaving : s.saves t = some saving)
    (hflight : saving.modelInfoInFlight = true) : saving.stage ≠ .ended := by
  intro hended
  have hserved := h.served t saving hsaving (hended ▸ nofun)
  exact Bool.false_ne_true (hserved.symm.trans hflight)

omit [Double α] in
/-- While the page is loading, its settings are none that a save may send. -/
theorem InOrder.not_waits (h : InOrder E s) (hload : Loading E s)
    (hloading : s.page.loading = true) : ¬ s.SaveWaits := by
  rintro ⟨t, saving, hsaving, hstage⟩
  obtain ⟨hfields, ⟨info, -, hstorable⟩, -⟩ := h.waiting t saving hsaving hstage
  rw [hfields] at hstorable
  exact hload.learningRate hloading hstorable.learningRate

/-- **Saving in order keeps the page and the document together.** -/
theorem keepsSynced_of_order (h : InOrder E s) (horder : SavesInOrder E s a)
    (hstep : Step E s a s') : KeepsSynced E s a := by
  have hnot : ∀ {P : Prop}, s.page.saved = false → s.page.saved = true → P :=
    fun hfalse htrue => absurd (hfalse.symm.trans htrue) Bool.false_ne_true
  cases hstep with
  | loadFailed _ => exact horder
  | deleteLayer _ _ => exact horder.1
  | setHyperparameters _ | featuresParsed _ | finalParams _ => exact hnot horder.1
  | @serveSave t saving hsaving hflight =>
    intro _ saving' hsaving'
    obtain rfl := Option.some.inj (hsaving.symm.trans hsaving')
    obtain ⟨hfields, ⟨info, hinfo, hstorable⟩, -⟩ :=
      h.waiting t saving hsaving (h.not_ended hsaving hflight)
    refine Or.inr ⟨hfields, fun info' hinfo' => ?_⟩
    obtain rfl := Option.some.inj (hinfo.symm.trans hinfo')
    exact hstorable
  | @saveDone t saving hsaving hstage _ =>
    obtain ⟨hfields, hkeeps, hstored⟩ := h.waiting t saving hsaving (hstage ▸ nofun)
    have hsent : s.Keeps E saving.fields :=
      ⟨hstored (h.served t saving hsaving (hstage ▸ nofun)), hkeeps⟩
    rwa [hfields] at hsent
  | _ => trivial

theorem inOrder_step (h : InOrder E s) (hload : Loading E s) (horder : SavesInOrder E s a)
    (hstep : Step E s a s') : InOrder E s' := by
  cases hstep with
  | serveLoad hloading _ _ | loaded hloading _ =>
    exact h.of_not_waits rfl (h.not_waits hload hloading)
  | addLayer | saveLayer _ _ | uploadFeatures _ _ | compiled _ | compileFailed _ =>
    exact h.of_not_waits rfl horder
  | deleteLayer _ _ | setHyperparameters _ | featuresParsed _ | finalParams _ =>
    exact h.of_not_waits rfl horder.2
  | save _ _ =>
    exact h.pressed horder.1 rfl (absurd rfl) ⟨rfl, horder.2, nofun⟩
  | @serveSave t saving hsaving hflight =>
    have hstage : saving.stage ≠ .ended := h.not_ended hsaving hflight
    obtain ⟨hfields, ⟨info, hinfo, hstorable⟩, -⟩ := h.waiting t saving hsaving hstage
    obtain ⟨f, hset⟩ : ∃ f, saving.fields.set E.casts = some f := hstorable.exists_set
    refine h.moved hsaving rfl id (fun _ => rfl) (fun _ => ⟨hfields, ⟨f info, ?_, ?_⟩, fun _ => ?_⟩)
      fun t' other ht hother hwaits =>
        absurd (h.single t' t other saving hother hsaving hwaits hstage) ht
    · show E.info (E.serve s.db (E.saveModelInfo saving.fields)).1 = _
      rw [E.serve_saveModelInfo s.db hset, E.info_updateInfo, hinfo]
      rfl
    · exact (storable_set_iff hset info).mpr hstorable
    · show (if (saving.fields.set E.casts).isSome then some saving.fields else s.stored) = _
      rw [hset]
      rfl
  | @sendStatus t saving hsaving hstage =>
    have hthis := h.waiting t saving hsaving (hstage ▸ nofun)
    exact h.moved hsaving rfl (fun _ => hstage ▸ nofun) (fun _ => horder saving hsaving)
      (fun _ => ⟨hthis.fields, hthis.keeps, hthis.stored⟩)
      fun t' other _ hother hwaits => (h.waiting t' other hother hwaits).of_eq rfl rfl rfl
  | @serveStatus t saving db reply hsaving _ hserve =>
    have hinfo : E.info db = E.info s.db := by
      rw [← E.info_updateStatue s.db saving.fields.isCompiled saving.isTrained, hserve]
    exact h.moved hsaving rfl id (h.served t saving hsaving)
      (fun hwaits =>
        have hthis : saving.InOrder E { s with db := db } :=
          (h.waiting t saving hsaving hwaits).of_eq rfl hinfo rfl
        ⟨hthis.fields, hthis.keeps, hthis.stored⟩)
      fun t' other _ hother hwaits => (h.waiting t' other hother hwaits).of_eq rfl hinfo rfl
  | @saveDone t saving hsaving hstage _ =>
    exact h.moved hsaving rfl (absurd rfl) (fun _ => h.served t saving hsaving (hstage ▸ nofun))
      (absurd rfl)
      fun t' other _ hother hwaits => (h.waiting t' other hother hwaits).of_eq rfl rfl rfl
  | @saveFailed t saving hsaving hstage =>
    exact h.moved hsaving rfl (absurd rfl) (fun _ => h.served t saving hsaving (hstage ▸ nofun))
      (absurd rfl)
      fun t' other _ hother hwaits => (h.waiting t' other hother hwaits).of_eq rfl rfl rfl
  | _ => exact h.of_eq rfl rfl rfl rfl

/-- **A page that is saved in order shows nothing unsaved as saved**: a
condition on what happens is enough for the one on the document. -/
theorem inOrder_synced (hstart : Start E s₀)
    (hrun : Run (fun s a s' => SavesInOrder E s a ∧ Step E s a s') s₀ as s) : Synced E s := by
  refine (hrun.invariant (P := fun s => (Synced E s ∧ s.Holds E ∧ Loading E s) ∧ InOrder E s)
    ?_ ?_).1.1
  · rintro s a s' ⟨⟨h, hholds, hload⟩, hin⟩ ⟨horder, hstep⟩
    have hkeeps := keepsSynced_of_order hin horder hstep
    exact ⟨⟨synced_step h hholds hload hkeeps hstep, holds_step hholds hstep,
      loading_step hload hkeeps hstep⟩, inOrder_step hin hload horder hstep⟩
  · have hnone : ∀ {t saving} {P : Prop}, s₀.saves t = some saving → P := fun {t _ _} hsaving => by
      cases (hstart.saves t).symm.trans hsaving
    exact ⟨hstart.invariant, fun _ _ hsaving _ => hnone hsaving, fun _ _ hsaving _ => hnone hsaving,
      fun _ _ _ _ hsaving => hnone hsaving⟩

end Order

/-! ## A layer is added, and a layer is deleted -/

/-- The page of a new model when a layer has been added. -/
def addedState : State Float ℕ :=
  { loadedState createDefaultModelInfo with
    page := (loadedState createDefaultModelInfo).page.addLayer }

/-- A layer is added and saved. -/
theorem addedLayer_synced : ∃ s : State Float ℕ, s.page.saved = true
    ∧ s.page.layers.length = 2 ∧ Synced oneModelSetting s := by
  have hstorable : ∀ info : ModelInfo Float, info.normalizerParameters = none →
      Storable addedState.page.toFields info := by
    intro info hinfo
    refine ⟨fun layer hlayer => ?_, rfl, Option.some_ne_none _, hinfo⟩
    rcases List.mem_cons.mp hlayer with rfl | hlayer
    · trivial
    · obtain rfl := List.mem_singleton.mp hlayer
      trivial
  have hrun : Run (SyncedStep oneModelSetting) (mountedState createDefaultModelInfo)
      [.serveLoad, .loaded, .addLayer, .save 0, .serveSave 0, .sendStatus 0, .serveStatus 0,
        .saveDone 0] _ :=
    .cons ⟨trivial, step_serveLoad _⟩ <| .cons ⟨trivial, step_loaded _⟩ <|
    .cons ⟨trivial, .addLayer⟩ <| .cons ⟨trivial, .save rfl rfl⟩ <|
    .cons ⟨fun hsaved => (Bool.false_ne_true hsaved).elim, .serveSave rfl rfl⟩ <|
    .cons ⟨trivial, .sendStatus rfl rfl⟩ <| .cons ⟨trivial, .serveStatus rfl rfl rfl⟩ <|
    .single ⟨⟨rfl, _, rfl, hstorable _ rfl⟩, .saveDone rfl rfl rfl⟩
  exact ⟨_, rfl, rfl, saved_synced (mountedState_start createDefaultModelInfo) hrun⟩

/-- **A deleted layer is shown as saved**: the page has no layer left, and the
document still has one. -/
theorem deleteLayer_not_synced : ∃ (s₀ s : State Float ℕ) (as : List (Action Float)),
    Start oneModelSetting s₀ ∧ Run (Step oneModelSetting) s₀ as s
    ∧ s.page.saved = true ∧ s.page.layers = []
    ∧ (oneModelSetting.info s.db).map (fun info => info.layers.length) = some 1
    ∧ ¬ Synced oneModelSetting s := by
  have hdelete : Step oneModelSetting (loadedState createDefaultModelInfo) (.deleteLayer 0) _ :=
    .deleteLayer rfl (Nat.lt_succ_self 0)
  refine ⟨_, _, _, mountedState_start createDefaultModelInfo,
    .cons (step_serveLoad _) (.cons (step_loaded _) (.single hdelete)), rfl, rfl, rfl, fun h => ?_⟩
  obtain ⟨info, hinfo, hfields⟩ := h rfl rfl
  obtain rfl := Option.some.inj hinfo
  cases congrArg Fields.layers hfields

end ProcessPage
