import NeuralBuilder.MyModels

/-!
# Which model a confirmed deletion removes

The Delete button stores the position of its card on the screen, and Confirm
passes the position on the screen to a handler that reads it as a position of
the whole list. The two agree while the search hides no card before the
position. And a position stays the same card's only as long as no card before
it leaves the list, and no handler that had to wait writes a list back that
has another card there.

`AtPosition` is the invariant: the card whose Delete button was pressed is the
one at the position that Confirm will read. `KeepsPosition` says what a step may
do without breaking it, and the condition is about the step alone. A deletion
that is refused or lost removes nothing from the database and is no step that
has to be left out.
-/

namespace MyModels

open ExpressServer

variable {Id Data Token : Type}

/-- Two cards of one model: they have the same id, or they are the same card
that has none yet. -/
def ModelCard.SameModel (card card' : ModelCard Id) : Prop :=
  card._id = card'._id ∧ (card._id = none → card = card')

theorem ModelCard.SameModel.refl (card : ModelCard Id) : card.SameModel card :=
  ⟨rfl, fun _ => rfl⟩

theorem ModelCard.SameModel.trans {card card' card'' : ModelCard Id} (h : card.SameModel card')
    (h' : card'.SameModel card'') : card.SameModel card'' := by
  refine ⟨h.1.trans h'.1, fun hnone => ?_⟩
  rw [h.2 hnone]
  exact h'.2 (h.1 ▸ hnone)

/-- Two lists have cards of one model at a position. -/
def SameAt (cards cards' : List (ModelCard Id)) (index : ℕ) : Prop :=
  ∃ card card', cards[index]? = some card ∧ cards'[index]? = some card' ∧ card.SameModel card'

/-- **What Confirm is to do**: of the list, one card of the model goes whose
Delete button was pressed last, and `deleteModel` is called with its id. -/
def RemovesPressed (s s' : State Id Data) (t : ℕ) : Prop :=
  ∃ pressed card index, s.pressed = some pressed
    ∧ s.page.modelCards[index]? = some card ∧ card.SameModel pressed
    ∧ s'.page.modelCards = s.page.modelCards.eraseIdx index
    ∧ s'.deletes t = some ⟨pressed._id, false⟩

/-- **The steps that keep the positions right.** Delete is pressed where the
search hides no card before; and between Delete and Confirm no new card before
the position is given up, and a list that comes back from a save or a warning
has the same model there. -/
def KeepsPosition (s : State Id Data) : Action Id → Prop
  | .delete index => s.page.modelCards[index]? = s.page.filteredModels[index]?
  | .cancel index => s.page.editedCard._id = none →
    ∀ asked, s.page.deleteConfirm = some asked → asked < index
  | .resume t => ∀ saving asked, s.saves t = some saving → s.page.deleteConfirm = some asked →
    SameAt saving.modelCards s.page.modelCards asked
    ∧ (asked = saving.index → ∃ id card, saving.editedCard._id = some id
      ∧ s.page.modelCards[asked]? = some card ∧ card._id = some id)
  | .timeout t => ∀ cards asked, s.warnings t = some cards → s.page.deleteConfirm = some asked →
    SameAt cards s.page.modelCards asked
  | _ => True

/-- **The invariant**: the position of the pressed button is that of the
pressed card in the whole list. -/
def AtPosition (page : Page Id) (pressed : Option (ModelCard Id)) : Prop :=
  ∀ asked, page.deleteConfirm = some asked → ∃ card card', page.modelCards[asked]? = some card
    ∧ pressed = some card' ∧ card.SameModel card'

/-- A page that has the card of the position still there keeps the
invariant. -/
theorem AtPosition.of_sameAt {page page' : Page Id} {pressed : Option (ModelCard Id)}
    (h : AtPosition page pressed) (hasked : page'.deleteConfirm = page.deleteConfirm)
    (hsame : ∀ asked, page.deleteConfirm = some asked →
      SameAt page'.modelCards page.modelCards asked) : AtPosition page' pressed := by
  intro asked hconfirm
  rw [hasked] at hconfirm
  obtain ⟨card, pressedCard, hcard, hpressed, hmodel⟩ := h asked hconfirm
  obtain ⟨card', card'', hcard', hcard'', hmodel'⟩ := hsame asked hconfirm
  obtain rfl := Option.some.inj (hcard.symm.trans hcard'')
  exact ⟨card', pressedCard, hcard', hpressed, hmodel'.trans hmodel⟩

/-! ## Every step keeps it -/

/-- The three ways the list can stay as far as the position is concerned. -/
theorem sameAt_self {page : Page Id} {pressed : Option (ModelCard Id)} (h : AtPosition page pressed)
    {asked : ℕ} (hasked : page.deleteConfirm = some asked) {cards : List (ModelCard Id)}
    (hcards : cards[asked]? = page.modelCards[asked]?) : SameAt cards page.modelCards asked := by
  obtain ⟨card, -, hcard, -, -⟩ := h asked hasked
  exact ⟨card, card, hcards.trans hcard, hcard, .refl card⟩

variable [DecidableEq Id] {toLowerCase : String → String} {verify : Token → Option Id}
  {token : Token} {defData : Data} {s s' : State Id Data} {a : Action Id}

omit [DecidableEq Id] in
/-- The list that a save writes back has the position's model, if the list it
was pressed with has. -/
theorem sameAt_updatedModels {saving : Saving Id} {reply : Option (ModelCard Id)}
    {cards : List (ModelCard Id)} {asked : ℕ} (hsame : SameAt saving.modelCards cards asked)
    (hsaved : asked = saving.index → ∃ id card, saving.editedCard._id = some id
      ∧ cards[asked]? = some card ∧ card._id = some id) :
    SameAt (saving.updatedModels reply) cards asked := by
  have hassign : ∀ card',
      (asked = saving.index → ∃ card, cards[asked]? = some card ∧ card'.SameModel card) →
        SameAt (assign saving.modelCards saving.index card') cards asked := by
    intro card' hcard'
    obtain ⟨old, card, hold, hcard, hmodel⟩ := hsame
    have hlt : asked < saving.modelCards.length := (List.getElem?_eq_some_iff.mp hold).1
    unfold assign
    split
    · rw [SameAt]
      by_cases hindex : asked = saving.index
      · obtain ⟨card, hcard, hmodel⟩ := hcard' hindex
        refine ⟨card', card, ?_, hcard, hmodel⟩
        rw [← hindex, List.getElem?_set_self hlt]
      · -- the save writes another position
        refine ⟨old, card, ?_, hcard, hmodel⟩
        rw [List.getElem?_set_ne (Ne.symm hindex), hold]
    · refine ⟨old, card, ?_, hcard, hmodel⟩
      rw [List.append_assoc, List.getElem?_append_left hlt, hold]
  unfold Saving.updatedModels
  split
  · next hnone =>
    -- a created model is not the one at the position
    refine hassign _ (fun hindex => ?_)
    obtain ⟨id, card, hid, -, -⟩ := hsaved hindex
    cases hnone.symm.trans hid
  · next id hsome =>
    -- an edited model keeps its id
    refine hassign _ (fun hindex => ?_)
    obtain ⟨id', card, hid, hcard, hcardId⟩ := hsaved hindex
    refine ⟨card, hcard, hid.trans hcardId.symm, fun hnone => ?_⟩
    cases hnone.symm.trans hid

/-- **A step that keeps positions right keeps the invariant.** -/
theorem atPosition_step (h : AtPosition s.page s.pressed) (hkeeps : KeepsPosition s a)
    (hstep : Step toLowerCase verify token defData s a s') : AtPosition s'.page s'.pressed := by
  cases hstep with
  | search heffect =>
    obtain ⟨filtered, -, rfl⟩ := Page.filterEffect_eq_some heffect
    exact h
  | add _ heffect =>
    obtain ⟨filtered, ⟨-, -, newCase, -, rfl⟩ | ⟨-, rfl⟩⟩ := Page.handleAddCase_cases heffect
    · refine h.of_sameAt rfl (fun asked hasked => sameAt_self h hasked ?_)
      obtain ⟨card, -, hcard, -, -⟩ := h asked hasked
      exact List.getElem?_append_left (List.getElem?_eq_some_iff.mp hcard).1
    · exact h
  | edit _ _ heffect =>
    obtain ⟨filtered, ⟨-, -, rfl⟩ | ⟨-, rfl⟩⟩ := Page.handleEditClick_cases heffect
    · exact h
    · exact h
  | inputTitle _ => exact h
  | inputDescription _ => exact h
  | save _ _ _ => exact h
  | cancel hshows heffect =>
    obtain ⟨cards, filtered, rfl, ⟨hnone, rfl⟩ | ⟨-, rfl⟩⟩ :=
      Page.handleCancelEdit_cases hshows.editing heffect
    · -- a new card is given up, and it is behind the position
      refine h.of_sameAt rfl (fun asked hasked => sameAt_self h hasked ?_)
      exact List.getElem?_eraseIdx_of_lt (hkeeps hnone asked hasked)
    · exact h
  | @delete index hshows _ =>
    intro asked hasked
    obtain rfl := Option.some.inj hasked
    have hcard := List.getElem?_eq_getElem hshows.1
    exact ⟨_, _, (show s.page.modelCards[index]? = _ from hkeeps).trans hcard, hcard, .refl _⟩
  | confirm hshows _ _ heffect =>
    obtain ⟨-, filtered, rfl⟩ := Page.handleDeleteModel_eq hshows.not_editing heffect
    intro asked hasked
    cases hasked
  | serveSave _ _ _ _ => exact h
  | loseSave _ => exact h
  | resume hsaving _ heffect =>
    obtain ⟨filtered, -, rfl⟩ := Page.filterEffect_eq_some heffect
    refine h.of_sameAt rfl (fun asked hasked => ?_)
    obtain ⟨hsame, hsaved⟩ := hkeeps _ asked hsaving hasked
    exact sameAt_updatedModels hsame hsaved
  | serveDelete _ => exact h
  | settleDelete _ => exact h
  | loseDelete _ => exact h
  | timeout hcards heffect =>
    obtain ⟨filtered, -, rfl⟩ := Page.filterEffect_eq_some heffect
    exact h.of_sameAt rfl (fun asked hasked => hkeeps _ asked hcards hasked)

/-- A step that keeps the positions right. -/
def KeepingStep (toLowerCase : String → String) (verify : Token → Option Id) (token : Token)
    (defData : Data) (s : State Id Data) (a : Action Id) (s' : State Id Data) : Prop :=
  KeepsPosition s a ∧ Step toLowerCase verify token defData s a s'

/-- **Confirm removes the model whose Delete was pressed**, and asks the server
to delete that one, after every run whose steps keep the positions right. Saves
and deletions of the run may be answered in any order, be refused or be lost. -/
theorem confirm_removesPressed {user : Id} {s₀ : State Id Data} {as : List (Action Id)}
    {index t : ℕ} (hstart : Start toLowerCase user s₀)
    (hrun : Runs.Run (KeepingStep toLowerCase verify token defData) s₀ as s)
    (hstep : Step toLowerCase verify token defData s (.confirm index t) s') :
    RemovesPressed s s' t := by
  have hpos : AtPosition s.page s.pressed := by
    refine hrun.invariant (P := fun s => AtPosition s.page s.pressed)
      (fun s a s' h hs => atPosition_step h hs.1 hs.2) ?_
    obtain ⟨filtered, -, hpage⟩ := Page.filterEffect_eq_some hstart.page
    rw [hpage]
    exact fun asked hasked => by cases hasked
  cases hstep with
  | confirm hshows hasked _ heffect =>
    obtain ⟨hcall, filtered, rfl⟩ := Page.handleDeleteModel_eq hshows.not_editing heffect
    obtain ⟨card, pressed, hcard, hpressed, hmodel⟩ := hpos index hasked
    refine ⟨pressed, card, index, hpressed, hcard, hmodel, rfl, ?_⟩
    rw [hcall, hcard, Option.bind_some, hmodel.1]
    exact Function.update_self ..

/-! ## Two models and a search -/

/-- Two models of the user `7`. -/
def twoModels : Database ℕ Unit :=
  ⟨⟨[⟨1, "a", some "", "draft", 7⟩, ⟨2, "b", some "", "draft", 7⟩], by decide⟩, []⟩

/-- Their cards. -/
def cardA : ModelCard ℕ := ⟨some 1, some "a", some "", some "draft"⟩

def cardB : ModelCard ℕ := ⟨some 2, some "b", some "", some "draft"⟩

/-- The page when it has loaded them. -/
def twoModelsState : State ℕ Unit where
  page := ⟨[cardA, cardB], [cardA, cardB], "", none, emptyCard, none⟩
  saves _ := none
  deletes _ := none
  warnings _ := none
  db := twoModels
  ids := [1, 2]
  pressed := none

theorem twoModels_start : Start id 7 twoModelsState :=
  ⟨rfl, fun _ => rfl, fun _ => rfl, fun _ => rfl, by decide, rfl⟩

/-- Delete and Confirm on the second card of the screen. -/
theorem twoModels_removesPressed : ∃ s s' : State ℕ Unit, s.pressed = some cardB
    ∧ RemovesPressed s s' 0 := by
  have hdelete : KeepingStep id (fun _ : Unit => some 7) () () twoModelsState (.delete 1) _ :=
    ⟨rfl, .delete ⟨by decide, by decide⟩ (by decide)⟩
  have hconfirm : Step id (fun _ : Unit => some 7) () () _ (.confirm 1 0) _ :=
    .confirm (s := { twoModelsState with page.deleteConfirm := some 1, pressed := some cardB })
      ⟨by decide, by decide⟩ rfl rfl rfl
  exact ⟨_, _, rfl, confirm_removesPressed twoModels_start (.single hdelete) hconfirm⟩

/-- **After a search the wrong model goes**: with `b` in the search field the
screen has one card, and deleting it removes and deletes the model `a`. -/
theorem search_removes_other : ∃ (s₀ s s' : State ℕ Unit) (as : List (Action ℕ)),
    Start id 7 s₀
    ∧ Runs.Run (Step id (fun _ : Unit => some 7) () ()) s₀ as s
    ∧ Step id (fun _ : Unit => some 7) () () s (.confirm 0 0) s'
    ∧ s.pressed = some cardB
    ∧ s'.deletes 0 = some ⟨cardA._id, false⟩
    ∧ s'.page.modelCards = [cardB]
    ∧ ¬ RemovesPressed s s' 0 := by
  have hsearch : Step id (fun _ : Unit => some 7) () () twoModelsState (.search "b") _ :=
    .search rfl
  have hdelete : Step id (fun _ : Unit => some 7) () () _ (.delete 0) _ :=
    .delete (s := { twoModelsState with
      page.searchQuery := "b", page.filteredModels := [cardB] }) ⟨by decide, by decide⟩ (by decide)
  have hconfirm : Step id (fun _ : Unit => some 7) () () _ (.confirm 0 0) _ :=
    .confirm (s := { twoModelsState with
      page.searchQuery := "b", page.filteredModels := [cardB], page.deleteConfirm := some 0,
      pressed := some cardB }) ⟨by decide, by decide⟩ rfl rfl rfl
  refine ⟨_, _, _, _, twoModels_start, .cons hsearch (.single hdelete), hconfirm, rfl, rfl, rfl, ?_⟩
  rintro ⟨pressed, card, index, hpressed, -, -, -, hcall⟩
  cases hpressed
  cases hcall

end MyModels
