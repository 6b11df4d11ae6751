import NeuralBuilder.SavedList

/-!
# Runs that keep the list equal to the database

The last step of the invariant is the one that the position is for: a save
goes on and writes back its own list. From there the induction over runs, what
a deletion that fails does to the list (`Coherent.not_synced_of_loseDelete`),
and a run with three models in which a deletion moves the edited card.

Of three models one is edited and saved while another one is deleted after it,
which is a run of the condition. The other way round it is not: the position of
the card in edit mode is not moved when a card before it is deleted, and Save
writes the edited card over another one (`delete_moves_edited`).
-/

namespace MyModels

open ExpressServer Runs

variable {Id Data Token : Type} [DecidableEq Id] {user : Id} {s s' : State Id Data} {t : ℕ}
  {saving : Saving Id}

/-! ## A save goes on -/

theorem Saving.Placed.lt (h : saving.Placed) : saving.index < saving.modelCards.length := by
  obtain ⟨card, hcard, -⟩ := h.card
  exact (List.getElem?_eq_some_iff.mp hcard).1

theorem Saving.Placed.updatedModels_edited (h : saving.Placed) {id : Id}
    (hid : saving.editedCard._id = some id) (reply : Option (ModelCard Id)) :
    saving.updatedModels reply = saving.modelCards.set saving.index saving.editedCard := by
  unfold Saving.updatedModels
  rw [hid]
  exact assign_of_lt h.lt _

theorem Saving.Placed.updatedModels_new (h : saving.Placed)
    (hnone : saving.editedCard._id = none) (card : ModelCard Id) :
    saving.updatedModels (some card) = saving.modelCards.set saving.index card := by
  unfold Saving.updatedModels
  rw [hnone]
  exact assign_of_lt h.lt _

/-- **A save goes on**: if the list it writes has the saved model once and
every other model as the list has it, and the saved model is as in the
database, the page stays coherent. -/
theorem Coherent.resumed (h : Coherent user s) (hsaving : s.saves t = some saving) {page : Page Id}
    (hedited : page.editedCard = s.page.editedCard) (hindex : page.editingIndex = none)
    {id₀ : Id} (card : ModelCard Id)
    (habout : ∀ id, saving.About id → id = id₀)
    (hself : cardsOf id₀ page.modelCards = [card])
    (hothers : ∀ id, id ≠ id₀ → cardsOf id page.modelCards = cardsOf id s.page.modelCards)
    (hids : id₀ ∈ s.ids)
    (hstored : ∃ row, userRow user s.db id₀ = some row ∧ card.text = (ModelCard.ofRow row).text)
    (halone : ∀ t' saving', t' ≠ t → s.saves t' = some saving' →
      saving'.editedCard._id ≠ some id₀)
    (hcreated : ∀ t' saving' row, t' ≠ t → s.saves t' = some saving' →
      saving'.editedCard._id = none → saving'.reply = some (some (.ofRow row)) → row._id ≠ id₀)
    (hkept : ∀ t' served, s.deletes t' ≠ some ⟨some id₀, served⟩) :
    Coherent user { s with page := page, saves := Function.update s.saves t none } := by
  have hholds : ∀ id,
      State.Holds { s with page := page, saves := Function.update s.saves t none } id →
        id = id₀ ∨ s.Holds id := by
    rintro id (hmem | hedit | ⟨t', saving', hsaving', hid⟩ | hdelete)
    · by_cases heq : id = id₀
      · exact Or.inl heq
      · refine Or.inr (Or.inl ?_)
        rw [← hothers id heq]
        exact hmem
    · exact Or.inr (Or.inr (Or.inl (hedited ▸ hedit)))
    · exact Or.inr (Or.inr (Or.inr (Or.inl ⟨t', saving', (of_update_none hsaving').2, hid⟩)))
    · exact Or.inr (Or.inr (Or.inr (Or.inr hdelete)))
  have hother : ∀ t' saving', t' ≠ t → s.saves t' = some saving' →
      Function.update s.saves t none t' = some saving' :=
    fun t' saving' ht hsaving' => (Function.update_of_ne ht ..).trans hsaving'
  refine ⟨fun id hid => ?_, fun id => ?_,
    fun t' saving' hsaving' => h.placed t' saving' (of_update_none hsaving').2, ?_, ?_, ?_, ?_, ?_,
    fun hediting => absurd hindex hediting⟩
  · -- the saved model is as in the database
    unfold Agrees
    by_cases heq : id = id₀
    · subst heq
      obtain ⟨row, hrow, htext⟩ := hstored
      rw [hself, hrow, List.map_singleton, htext]
      rfl
    · rw [hothers id heq]
      refine h.agree id (fun hflight => hid ?_)
      rcases hflight with ⟨t', saving', hsaving', hsame⟩ | hdelete
      · have ht : t' ≠ t := by
          rintro rfl
          obtain rfl := Option.some.inj (hsaving.symm.trans hsaving')
          exact heq (habout id hsame)
        exact Or.inl ⟨t', saving', hother t' saving' ht hsaving', hsame⟩
      · exact Or.inr hdelete
  · -- it has one card, and every other model as many as before
    by_cases heq : id = id₀
    · rw [heq, hself]
      exact Nat.le_refl 1
    · rw [hothers id heq]
      exact h.unique id
  · -- no creation that is still in flight has its id
    intro t' saving' card' hsaving' hnone hreply
    obtain ⟨ht, hsaving'⟩ := of_update_none hsaving'
    obtain ⟨row, hcard, hrow, hnot, honly⟩ := h.created t' saving' card' hsaving' hnone hreply
    refine ⟨row, hcard, hrow, fun hid => ?_,
      fun t'' saving'' hsaving'' => honly t'' saving'' (of_update_none hsaving'').2⟩
    rcases hholds _ hid with heq | hheld
    · exact hcreated t' saving' row ht hsaving' hnone (hcard ▸ hreply) heq
    · exact hnot hheld
  · -- no deletion is about it
    intro t' id served hdelete
    have hne : id ≠ id₀ := by
      rintro rfl
      exact hkept t' served hdelete
    rw [hothers id hne]
    exact h.gone t' id served hdelete
  · intro id hid
    rcases hid with hheld | hfound
    · rcases hholds id hheld with rfl | hold
      · exact hids
      · exact h.ids id (Or.inl hold)
    · exact h.ids id (Or.inr hfound)
  · -- the saves that are left are about other models
    intro t' saving' id hsaving' hid
    obtain ⟨ht, hold⟩ := of_update_none hsaving'
    have hne : id ≠ id₀ := by
      rintro rfl
      exact halone t' saving' ht hold hid
    rw [hothers id hne]
    exact h.edits t' saving' id hold hid
  · exact fun t₁ t₂ saving₁ saving₂ id h₁ h₂ hid₁ hid₂ => h.single t₁ t₂ saving₁ saving₂ id
      (of_update_none h₁).2 (of_update_none h₂).2 hid₁ hid₂

theorem Coherent.resumed_edited (h : Coherent user s) (hsaving : s.saves t = some saving)
    {id₀ : Id} (hid₀ : saving.editedCard._id = some id₀) (hreply : saving.reply ≠ none)
    (hkeeps : KeepsList s (.resume t)) {page : Page Id}
    (hcards : page.modelCards = saving.modelCards.set saving.index saving.editedCard)
    (hedited : page.editedCard = s.page.editedCard) (hindex : page.editingIndex = none) :
    Coherent user { s with page := page, saves := Function.update s.saves t none } := by
  obtain ⟨hothers, hthis⟩ := hkeeps saving hsaving
  have hin := hthis id₀ hid₀
  obtain ⟨row, hrow, hwrites⟩ := (h.edits t saving id₀ hsaving hid₀).resolve_left hin
  have hplaced := h.placed t saving hsaving
  obtain ⟨old, hold, holdId⟩ := hplaced.card
  have hheld : s.Holds id₀ := Or.inr (Or.inr (Or.inl ⟨t, saving, hsaving, hid₀⟩))
  have hne : ∀ id, id ≠ id₀ → saving.editedCard._id ≠ some id := by
    intro id hne heq
    exact hne (Option.some.inj (heq.symm.trans hid₀))
  refine h.resumed hsaving hedited hindex saving.editedCard ?_ ?_ ?_ (h.ids id₀ (Or.inl hheld))
    ⟨row, hrow, hwrites.text hreply⟩ ?_ ?_ ?_
  · rintro id (hid | ⟨hnone, -⟩)
    · exact Option.some.inj (hid.symm.trans hid₀)
    · cases hnone.symm.trans hid₀
  · rw [hcards]
    exact cardsOf_set_self hold (holdId.trans hid₀) (hplaced.unique id₀) hid₀
  · intro id hid
    rw [hcards, cardsOf_set hold (holdId ▸ hne id hid) (hne id hid)]
    exact hothers id (hne id hid)
  · exact fun t' saving' ht hsaving' hid =>
      ht (h.single t' t saving' saving id₀ hsaving' hsaving hid hid₀)
  · rintro t' saving' row - hsaving' hnone hcreated rfl
    obtain ⟨row', hcard, -, hnot, -⟩ := h.created t' saving' _ hsaving' hnone hcreated
    have hsame : row._id = row'._id := Option.some.inj (congrArg ModelCard._id hcard)
    exact hnot (hsame ▸ hheld)
  · intro t' served hdelete
    exact hin (h.gone t' id₀ served hdelete).1

theorem Coherent.resumed_new (h : Coherent user s) (hsaving : s.saves t = some saving)
    (hnone : saving.editedCard._id = none) {card : ModelCard Id}
    (hreply : saving.reply = some (some card)) (hkeeps : KeepsList s (.resume t))
    {page : Page Id} (hcards : page.modelCards = saving.modelCards.set saving.index card)
    (hedited : page.editedCard = s.page.editedCard) (hindex : page.editingIndex = none) :
    Coherent user { s with page := page, saves := Function.update s.saves t none } := by
  obtain ⟨hothers, -⟩ := hkeeps saving hsaving
  obtain ⟨row, rfl, hrow, hnot, honly⟩ := h.created t saving card hsaving hnone hreply
  obtain ⟨old, hold, holdId⟩ := (h.placed t saving hsaving).card
  have hsnapshot : ∀ id, cardsOf id saving.modelCards = cardsOf id s.page.modelCards := by
    intro id
    refine hothers id (fun hid => ?_)
    cases hnone.symm.trans hid
  have hnil : cardsOf row._id s.page.modelCards = [] := by
    by_contra hne
    exact hnot (Or.inl hne)
  refine h.resumed hsaving hedited hindex (.ofRow row) ?_ ?_ ?_ (h.mem_ids_of_userRow hrow)
    ⟨row, hrow, rfl⟩ ?_ ?_ ?_
  · rintro id (hid | ⟨-, card', hcard', hid⟩)
    · cases hnone.symm.trans hid
    · obtain rfl := Option.some.inj (Option.some.inj (hreply.symm.trans hcard'))
      exact (Option.some.inj hid).symm
  · rw [hcards]
    exact cardsOf_set_new hold ((hsnapshot _).trans hnil) rfl
  · intro id hid
    rw [hcards, ← hsnapshot id]
    refine cardsOf_set hold ?_ (fun heq => hid (Option.some.inj heq).symm)
    rw [holdId, hnone]
    exact (Option.some_ne_none id).symm
  · exact fun t' saving' _ hsaving' hid =>
      hnot (Or.inr (Or.inr (Or.inl ⟨t', saving', hsaving', hid⟩)))
  · intro t' saving' row' ht hsaving' hnone' hreply' heq
    exact ht (honly t' saving' hsaving' (Or.inr ⟨hnone', _, hreply', congrArg some heq⟩))
  · intro t' served hdelete
    exact hnot (Or.inr (Or.inr (Or.inr ⟨t', served, hdelete⟩)))

/-! ## Every step -/

variable {toLowerCase : String → String} {verify : Token → Option Id} {token : Token}
  {defData : Data} {a : Action Id}

/-- Edit shows the title and the description that the list has. -/
theorem Coherent.editsListed_edit (h : Coherent user s) {index : ℕ} {filtered : List (ModelCard Id)}
    (htitle : ∀ card ∈ s.page.modelCards, card.title ≠ none) :
    Page.EditsListed { s.page with
      filteredModels := filtered
      editingIndex := some index
      editedCard := s.page.modelCards[index]?.getD .undefined } := by
  intro _ id hid
  cases hcard : s.page.modelCards[index]? with
  | none =>
    simp only [hcard, Option.getD_none] at hid
    cases hid
  | some card =>
    simp only [hcard, Option.getD_some] at hid ⊢
    have hmem := List.mem_of_getElem? hcard
    refine ⟨htitle card hmem, fun hnone card' hcard' => ?_⟩
    -- the list has one card of the model
    have hcardOf : card ∈ cardsOf id s.page.modelCards :=
      List.mem_filter.mpr ⟨hmem, decide_eq_true hid⟩
    obtain ⟨only, honly⟩ := List.length_eq_one_iff.mp
      (Nat.le_antisymm (h.unique id) (List.length_pos_of_mem hcardOf))
    rw [honly] at hcardOf hcard'
    rw [List.mem_singleton.mp hcard', ← List.mem_singleton.mp hcardOf]
    exact hnone

/-- **A step that keeps the list right keeps the invariant.** -/
theorem Coherent.step (h : Coherent user s) (huser : verify token = some user)
    (hsucceed : SavesSucceed verify token defData s a) (hkeeps : KeepsList s a)
    (hstep : Step toLowerCase verify token defData s a s') : Coherent user s' := by
  have hedited : ∀ id, s.page.editedCard._id = some id → s.Holds id :=
    fun id hid => Or.inr (Or.inl hid)
  cases hstep with
  | search heffect =>
    obtain ⟨filtered, -, rfl⟩ := Page.filterEffect_eq_some heffect
    exact h.of_page (fun _ => rfl) hedited h.editing
  | add _ heffect =>
    obtain ⟨filtered, ⟨-, -, newCase, hnew, rfl⟩ | ⟨-, rfl⟩⟩ := Page.handleAddCase_cases heffect
    · refine h.of_page (cardsOf_append_new hnew) (fun id hid => ?_) (fun _ id hid => ?_)
      · cases hnew.symm.trans hid
      · cases hnew.symm.trans hid
    · exact h.of_page (fun _ => rfl) hedited h.editing
  | @edit index _ _ _ _ heffect =>
    obtain ⟨filtered, ⟨hediting, -, rfl⟩ | ⟨-, rfl⟩⟩ := Page.handleEditClick_cases heffect
    · refine h.of_page (fun _ => rfl) (fun id hid => ?_)
        (h.editsListed_edit (Page.title_of_handleEditClick hediting heffect))
      cases hcard : s.page.modelCards[index]? with
      | none =>
        simp only [hcard, Option.getD_none] at hid
        cases hid
      | some card =>
        simp only [hcard, Option.getD_some] at hid
        exact State.holds_of_mem (List.mem_of_getElem? hcard) hid
    · exact h.of_page (fun _ => rfl) hedited h.editing
  | inputTitle _ =>
    exact h.of_page (fun _ => rfl) hedited fun hediting id hid =>
      ⟨Option.some_ne_none _, (h.editing hediting id hid).2⟩
  | inputDescription _ =>
    exact h.of_page (fun _ => rfl) hedited fun hediting id hid =>
      ⟨(h.editing hediting id hid).1, fun hnone => absurd hnone (Option.some_ne_none _)⟩
  | save hshows hfree hdisplayed =>
    obtain ⟨⟨card, displayed, hcard, hcardId, hdisplayed', hdisplayedId⟩, hnone⟩ := hkeeps
    obtain rfl := Option.some.inj (hdisplayed.symm.trans hdisplayed')
    refine h.save hfree rfl rfl ⟨⟨card, hcard, hcardId⟩, hdisplayedId, h.unique,
      (Option.some_ne_none none).symm⟩ ?_ hnone
    rw [hshows.editing]
    exact Option.some_ne_none _
  | @cancel index _ hshows heffect =>
    obtain ⟨cards, filtered, rfl, ⟨hnone, rfl⟩ | ⟨-, rfl⟩⟩ :=
      Page.handleCancelEdit_cases hshows.editing heffect
    · obtain ⟨card, hcard, hcardId⟩ := hkeeps hnone
      refine h.of_page (fun id => cardsOf_eraseIdx hcard ?_) (fun id hid => by cases hid)
        (fun hediting => absurd rfl hediting)
      rw [hcardId]
      exact (Option.some_ne_none id).symm
    · exact h.of_page (fun _ => rfl) (fun id hid => by cases hid)
        (fun hediting => absurd rfl hediting)
  | delete _ _ => exact h.of_page (fun _ => rfl) hedited h.editing
  | confirm hshows _ hfree heffect =>
    obtain ⟨hcall, filtered, rfl⟩ := Page.handleDeleteModel_eq hshows.not_editing heffect
    rw [hcall]
    exact h.confirm hfree rfl rfl rfl
  | @serveSave t saving newId db reply hsaving hreply hnew hserve =>
    obtain ⟨rfl, rfl⟩ := Prod.ext_iff.mp hserve.symm
    obtain ⟨card, hcard⟩ := Option.ne_none_iff_exists'.mp (hsucceed saving hsaving)
    rw [hcard]
    cases hid : saving.editedCard._id with
    | some id₀ =>
      refine h.replied_edited hsaving hid (fun id hne => findById_serve_save ?_ ?_)
        (findById_serve_save_none hid) newId
        (fun old hrow hwrites => exists_written huser hid hrow hwrites hcard)
      · rw [hid]
        exact fun heq => hne (Option.some.inj heq).symm
      · exact fun hnone => by cases hnone.symm.trans hid
    | none =>
      obtain ⟨row, rfl, rfl, hrow, hfind⟩ := serve_save_new huser hid hcard
      refine h.replied_new hsaving hid hreply hrow hnew hfind
        (fun id hne => findById_serve_save ?_ (fun _ => Ne.symm hne))
      rw [hid]
      exact (Option.some_ne_none id).symm
  | loseSave _ => exact hsucceed.elim
  | @resume t saving reply page hsaving hreply heffect =>
    obtain ⟨filtered, -, rfl⟩ := Page.filterEffect_eq_some heffect
    have hplaced := h.placed t saving hsaving
    cases reply with
    | none => exact absurd hreply hplaced.replied
    | some card =>
      cases hid : saving.editedCard._id with
      | some id₀ =>
        refine h.resumed_edited hsaving hid ?_ hkeeps (hplaced.updatedModels_edited hid _) rfl rfl
        rw [hreply]
        exact Option.some_ne_none _
      | none =>
        exact h.resumed_new hsaving hid hreply hkeeps (hplaced.updatedModels_new hid card) rfl rfl
  | @serveDelete t id hdelete =>
    refine h.served hdelete (fun id' => ?_)
    cases id with
    | none => rw [serve_delete_undefined huser, if_neg (Option.some_ne_none id').symm]
    | some id₀ =>
      rw [findById_serve_delete huser]
      by_cases heq : id' = id₀
      · rw [if_pos heq, if_pos (congrArg some heq.symm)]
      · rw [if_neg heq, if_neg (fun hsome => heq (Option.some.inj hsome).symm)]
  | settleDelete hdelete => exact h.settled hdelete fun _ _ => rfl
  | @loseDelete t id hdelete =>
    refine h.settled hdelete fun id' hid => ?_
    exact absurd (hid ▸ hdelete) (hkeeps id')
  | timeout hcards heffect =>
    obtain ⟨filtered, -, rfl⟩ := Page.filterEffect_eq_some heffect
    refine h.of_page (hkeeps _ hcards) hedited (h.editing.of_subset rfl rfl fun id card hcard => ?_)
    exact hkeeps _ hcards id ▸ hcard

/-! ## Runs -/

theorem cardsOf_map_ofRow (id : Id) (db : Database Id Data) (user : Id) :
    cardsOf id ((db.models.docs.filter fun row => row.userId = user).map .ofRow)
      = (userRow user db id).toList.map .ofRow := by
  have hkey : (fun row : ModelDoc Id => decide ((ModelCard.ofRow row)._id = some id))
      = fun row => decide (row._id = id) :=
    funext fun row => decide_eq_decide.mpr Option.some_inj
  unfold cardsOf
  rw [List.filter_map, Function.comp_def, hkey]
  refine congrArg (List.map ModelCard.ofRow) ?_
  exact ((db.models.select fun row => row.userId = user).filter_key id).trans
    (congrArg Option.toList Collection.findById_select)

/-- The page that has loaded the models is coherent. -/
theorem Start.coherent (h : Start toLowerCase user s) : Coherent user s := by
  obtain ⟨filtered, -, hpage⟩ := Page.filterEffect_eq_some h.page
  have hcards : ∀ id, cardsOf id s.page.modelCards = (userRow user s.db id).toList.map .ofRow := by
    intro id
    rw [hpage]
    exact cardsOf_map_ofRow id s.db user
  refine ⟨fun id _ => ?_, fun id => ?_, ?_, ?_, ?_, ?_, ?_, ?_, ?_⟩
  · unfold Agrees
    rw [hcards, List.map_map]
    rfl
  · rw [hcards, List.length_map]
    cases userRow user s.db id with
    | none => exact Nat.zero_le 1
    | some row => exact Nat.le_refl 1
  · intro t saving hsaving
    cases (h.saves t).symm.trans hsaving
  · intro t saving card hsaving
    cases (h.saves t).symm.trans hsaving
  · intro t id served hdelete
    cases (h.deletes t).symm.trans hdelete
  · have hrow : ∀ id, s.db.models.findById id ≠ none → id ∈ s.ids := by
      intro id hfound
      obtain ⟨row, hfind⟩ := Option.ne_none_iff_exists'.mp hfound
      obtain ⟨hmem, rfl⟩ := Collection.findById_eq_some_iff.mp hfind
      exact h.ids row hmem
    rintro id ((hmem | hedit | ⟨t, saving, hsaving, -⟩ | ⟨t, served, hdelete⟩) | hfound)
    · refine hrow id (fun hnone => hmem ?_)
      rw [hcards, userRow, hnone]
      rfl
    · rw [hpage] at hedit
      cases hedit
    · cases (h.saves t).symm.trans hsaving
    · cases (h.deletes t).symm.trans hdelete
    · exact hrow id hfound
  · intro t saving id hsaving
    cases (h.saves t).symm.trans hsaving
  · intro t t' saving saving' id hsaving
    cases (h.saves t).symm.trans hsaving
  · rw [hpage]
    exact fun hediting => absurd rfl hediting

/-- A step of a network on which saves succeed, that keeps the list right. -/
def KeepingListStep (toLowerCase : String → String) (verify : Token → Option Id) (token : Token)
    (defData : Data) (s : State Id Data) (a : Action Id) (s' : State Id Data) : Prop :=
  SavesSucceed verify token defData s a ∧ KeepsList s a
    ∧ Step toLowerCase verify token defData s a s'

/-- No request is in flight. -/
def State.Quiet (s : State Id Data) : Prop :=
  (∀ t, s.saves t = none) ∧ ∀ t, s.deletes t = none

/-- **A save changes the displayed card's model and no other**: served, it
writes the edited card to the row of that model, or adds a row; and when it
goes on, the list has the edited card for that model, and the cards of the
others are as before. -/
def ChangesDisplayed (s : State Id Data) (a : Action Id) (s' : State Id Data) : Prop :=
  match a with
  | .serveSave t newId => ∀ saving, s.saves t = some saving →
    (∀ id, saving.displayed._id = some id → ∃ row, s'.db.models.findById id = some row
      ∧ (∀ title, saving.editedCard.title = some title → row.title = title)
      ∧ ∀ description, saving.editedCard.description = some description →
        row.description = some description)
    ∧ ∀ id, saving.displayed._id ≠ some id → (saving.displayed._id = none → newId ≠ id) →
      s'.db.models.findById id = s.db.models.findById id
  | .resume t => ∀ saving, s.saves t = some saving →
    (∀ id, saving.displayed._id = some id → cardsOf id s'.page.modelCards = [saving.editedCard])
    ∧ ∀ id, ¬ saving.About id → cardsOf id s'.page.modelCards = cardsOf id s.page.modelCards
  | _ => True

theorem Coherent.changesDisplayed (h : Coherent user s) (huser : verify token = some user)
    (hstep : KeepingListStep toLowerCase verify token defData s a s') :
    ChangesDisplayed s a s' := by
  obtain ⟨hsucceed, hkeeps, hstep⟩ := hstep
  cases hstep with
  | @serveSave t saving newId db reply hsaving hreply hnew hserve =>
    obtain ⟨rfl, rfl⟩ := Prod.ext_iff.mp hserve.symm
    intro saving' hsaving'
    obtain rfl := Option.some.inj (hsaving.symm.trans hsaving')
    rw [(h.placed t saving hsaving).displayed]
    obtain ⟨card, hcard⟩ := Option.ne_none_iff_exists'.mp (hsucceed saving hsaving)
    refine ⟨fun id hid => ?_, fun id hid hnewId => findById_serve_save hid hnewId⟩
    obtain ⟨row, -, hrow, htitle, hdescription, -⟩ := serve_save_edited huser hid hcard
    exact ⟨row, hrow, htitle, hdescription⟩
  | @resume t saving reply page hsaving hreply heffect =>
    obtain ⟨filtered, -, rfl⟩ := Page.filterEffect_eq_some heffect
    intro saving' hsaving'
    obtain rfl := Option.some.inj (hsaving.symm.trans hsaving')
    have hplaced := h.placed t saving hsaving
    obtain ⟨old, hold, holdId⟩ := hplaced.card
    obtain ⟨hothers, -⟩ := hkeeps saving hsaving
    rw [hplaced.displayed]
    refine ⟨fun id hid => ?_, fun id hid => ?_⟩
    · show cardsOf id (saving.updatedModels reply) = _
      rw [hplaced.updatedModels_edited hid]
      exact cardsOf_set_self hold (holdId.trans hid) (hplaced.unique id) hid
    · have hne : saving.editedCard._id ≠ some id := fun heq => hid (Or.inl heq)
      refine Eq.trans ?_ (hothers id hne)
      show cardsOf id (saving.updatedModels reply) = _
      cases hedited : saving.editedCard._id with
      | some id₀ =>
        rw [hplaced.updatedModels_edited hedited]
        exact cardsOf_set hold (holdId ▸ hne) hne
      | none =>
        cases reply with
        | none => exact absurd hreply hplaced.replied
        | some card =>
          rw [hplaced.updatedModels_new hedited]
          exact cardsOf_set hold (holdId ▸ hne)
            (fun heq => hid (Or.inr ⟨hedited, card, hreply, heq⟩))
  | _ => trivial

/-- **The list stays that of the database**: after every run whose steps keep
the list right, on a network on which saves succeed, the list is that of the
database once no request is in flight, and every save is one for the model of
the card it was started from, and changes that model and no other. A deletion
that fails is not a step that keeps the list right. -/
theorem list_synced {s₀ : State Id Data} {as : List (Action Id)} (huser : verify token = some user)
    (hstart : Start toLowerCase user s₀)
    (hrun : Runs.Run (KeepingListStep toLowerCase verify token defData) s₀ as s) :
    (s.Quiet → s.Synced user)
    ∧ (∀ t saving, s.saves t = some saving → saving.editedCard._id = saving.displayed._id)
    ∧ ∀ a s', KeepingListStep toLowerCase verify token defData s a s' →
      ChangesDisplayed s a s' := by
  have h : Coherent user s := hrun.invariant (P := Coherent user)
    (fun s a s' h hs => h.step huser hs.1 hs.2.1 hs.2.2) hstart.coherent
  refine ⟨fun hquiet => synced_of_agrees (fun id => h.agree id ?_),
    fun t saving hsaving => (h.placed t saving hsaving).displayed.symm,
    fun a s' hs => h.changesDisplayed huser hs⟩
  rintro (⟨t, saving, hsaving, -⟩ | ⟨t, served, hdelete⟩)
  · cases (hquiet.1 t).symm.trans hsaving
  · cases (hquiet.2 t).symm.trans hdelete

/-- **A deletion that fails leaves a model without a card**: the list is not
that of the database any more, however coherent the page was. -/
theorem Coherent.not_synced_of_loseDelete (h : Coherent user s) {id : Id}
    (hdelete : s.deletes t = some ⟨some id, false⟩) {row : ModelDoc Id}
    (hrow : userRow user s.db id = some row)
    (hstep : Step toLowerCase verify token defData s (.loseDelete t) s') : ¬ s'.Synced user := by
  obtain ⟨hfind, hmine⟩ := Option.filter_eq_some_iff.mp hrow
  obtain ⟨hmem, rfl⟩ := Collection.findById_eq_some_iff.mp hfind
  cases hstep with
  | loseDelete _ =>
    intro hsynced
    obtain ⟨card, hcard, -⟩ := hsynced.row_card row hmem (of_decide_eq_true hmine)
    have hgone : cardsOf row._id s.page.modelCards = [] := (h.gone t row._id false hdelete).1
    rw [hgone] at hcard
    cases hcard

/-! ## Three models -/

/-- Three models of the user `7`, and the page that has loaded them. -/
def threeModelsState : State ℕ Unit where
  page := ⟨[⟨some 1, some "a", some "", some "draft"⟩, ⟨some 2, some "b", some "", some "draft"⟩,
      ⟨some 3, some "c", some "", some "draft"⟩],
    [⟨some 1, some "a", some "", some "draft"⟩, ⟨some 2, some "b", some "", some "draft"⟩,
      ⟨some 3, some "c", some "", some "draft"⟩], "", none, emptyCard, none⟩
  saves _ := none
  deletes _ := none
  warnings _ := none
  db := ⟨⟨[⟨1, "a", some "", "draft", 7⟩, ⟨2, "b", some "", "draft", 7⟩,
    ⟨3, "c", some "", "draft", 7⟩], by decide⟩, []⟩
  ids := [1, 2, 3]
  pressed := none

/-- A cookie of the user `7`. -/
def userSeven : Unit → Option ℕ := fun _ => some 7

theorem threeModels_start : Start id 7 threeModelsState :=
  ⟨rfl, fun _ => rfl, fun _ => rfl, fun _ => rfl, by decide, rfl⟩

omit [DecidableEq Id] in
theorem call_of_ne {deletes : ℕ → Option (Deleting Id)} {t' : ℕ} (h : t' ≠ t)
    (id : Option (Option Id)) : call deletes t id t' = deletes t' := by
  unfold call
  split
  · rfl
  · exact Function.update_of_ne h _ _

theorem quiet_of_done {s : State ℕ Unit} {t : ℕ} (hsaves : ∀ t' ≠ t, s.saves t' = none)
    (hsave : s.saves t = none) (hdeletes : ∀ t' ≠ t, s.deletes t' = none)
    (hdelete : s.deletes t = none) : s.Quiet := by
  refine ⟨fun t' => ?_, fun t' => ?_⟩
  · by_cases ht : t' = t
    · exact ht ▸ hsave
    · exact hsaves t' ht
  · by_cases ht : t' = t
    · exact ht ▸ hdelete
    · exact hdeletes t' ht

/-- Edit, Save and its reply, on the second card; then Delete and Confirm on the
first one, which the server serves. -/
theorem threeModels_synced : ∃ s : State ℕ Unit,
    Runs.Run (KeepingListStep id userSeven () ()) threeModelsState
      [.edit 1 0, .save 1 0, .serveSave 0 9, .resume 0, .delete 0, .confirm 0 0, .serveDelete 0,
        .settleDelete 0] s
    ∧ s.Quiet ∧ s.db.models.docs.map ModelDoc._id = [2, 3] ∧ s.Synced 7 := by
  obtain ⟨s, hrun, hquiet, hdocs⟩ : ∃ s : State ℕ Unit,
      Runs.Run (KeepingListStep id userSeven () ()) threeModelsState
        [.edit 1 0, .save 1 0, .serveSave 0 9, .resume 0, .delete 0, .confirm 0 0, .serveDelete 0,
          .settleDelete 0] s
      ∧ s.Quiet ∧ s.db.models.docs.map ModelDoc._id = [2, 3] := by
    refine ⟨_,
      .cons ⟨trivial, trivial, .edit ⟨by decide, by decide⟩ rfl rfl⟩ <|
      .cons ⟨trivial, ⟨⟨_, _, rfl, rfl, rfl, rfl⟩, fun _ _ _ _ hsaving => by cases hsaving⟩,
        .save ⟨by decide, by decide⟩ rfl rfl⟩ <|
      .cons ⟨fun saving hsaving => ?succeeds, trivial, .serveSave rfl rfl (by decide) rfl⟩ <|
      .cons ⟨trivial, fun saving hsaving => ?keeps, .resume rfl rfl rfl⟩ <|
      .cons ⟨trivial, trivial, .delete ⟨by decide, by decide⟩ (by decide)⟩ <|
      .cons ⟨trivial, trivial, .confirm ⟨by decide, by decide⟩ rfl rfl rfl⟩ <|
      .cons ⟨trivial, trivial, .serveDelete rfl⟩ <|
      .single ⟨trivial, trivial, .settleDelete rfl⟩, ?quiet, rfl⟩
    case succeeds =>
      cases hsaving
      exact Option.some_ne_none _
    case keeps =>
      cases hsaving
      refine ⟨fun _ _ => rfl, fun id hid => ?_⟩
      cases hid
      decide
    case quiet =>
      refine quiet_of_done (t := 0) (fun t ht => ?_) rfl (fun t ht => ?_) rfl
      · simp [Function.update_of_ne ht, threeModelsState]
      · simp [Function.update_of_ne ht, call_of_ne ht, threeModelsState]
  have huser : userSeven () = some 7 := rfl
  exact ⟨s, hrun, hquiet, hdocs, (list_synced huser threeModels_start hrun).1 hquiet⟩

/-- **Deleting a model before the edited one moves the position**: the save of
`b` is pressed where `c` now is, and `c` is lost from the list. -/
theorem delete_moves_edited : ∃ (s₀ s : State ℕ Unit) (as : List (Action ℕ)),
    Start id 7 s₀
    ∧ Runs.Run (Step id userSeven () ()) s₀ as s
    ∧ s.Quiet
    ∧ s.page.modelCards.map ModelCard._id = [some 2, some 2]
    ∧ s.db.models.docs.map ModelDoc._id = [2, 3]
    ∧ ¬ s.Synced 7 := by
  refine ⟨threeModelsState, _, [.edit 1 0, .delete 0, .confirm 0 0, .serveDelete 0, .settleDelete 0,
      .save 1 0, .serveSave 0 9, .resume 0], threeModels_start,
    .cons (.edit ⟨by decide, by decide⟩ rfl rfl) <|
    .cons (.delete ⟨by decide, by decide⟩ (by decide)) <|
    .cons (.confirm ⟨by decide, by decide⟩ rfl rfl rfl) <|
    .cons (.serveDelete rfl) <|
    .cons (.settleDelete rfl) <|
    .cons (.save ⟨by decide, by decide⟩ rfl rfl) <|
    .cons (.serveSave rfl rfl (by decide) rfl) <|
    .single (.resume rfl rfl rfl), ?quiet, ?cards, ?docs, ?lost⟩
  case quiet =>
    refine quiet_of_done (t := 0) (fun t ht => ?_) rfl (fun t ht => ?_) rfl
    · simp [Function.update_of_ne ht, threeModelsState]
    · simp [Function.update_of_ne ht, call_of_ne ht, threeModelsState]
  case cards => rfl
  case docs => rfl
  case lost =>
    intro hsynced
    obtain ⟨card, hcard, -⟩ := hsynced.row_card ⟨3, "c", some "", "draft", 7⟩ (by decide) rfl
    cases hcard

end MyModels
