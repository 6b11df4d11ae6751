import NeuralBuilder.MyModels
import NeuralBuilder.Ownership

/-!
# The list of models and the database

While no request is in flight the list is to hold every model of the user
once, as the database has it. A save writes back the whole list that it read
when it was pressed, at the position it was pressed at; so do the timers of
the warnings. The list and the database therefore agree as long as the
position is still that of the edited card, and the other models have not
changed in the list since.

The invariant speaks of one id at a time: the page and the database agree on
every model no request in flight is about.

`Coherent` also says what is in flight: a save has the card of its position, a
model just created is on no card, a deleted one is on none either. Steps of the
user, of the server and of the handlers that go on are separate lemmas; the last
of these, and the runs, are in `EditedList`.
-/

namespace MyModels

open ExpressServer Runs

variable {Id Data Token : Type} [DecidableEq Id]

/-! ## The cards of a model -/

/-- The cards of a model in a list. -/
def cardsOf (id : Id) (cards : List (ModelCard Id)) : List (ModelCard Id) :=
  cards.filter (fun card => card._id = some id)

variable {id : Id} {cards : List (ModelCard Id)} {index : ℕ} {card old : ModelCard Id}

theorem cardsOf_ne_nil (h : card ∈ cards) (hid : card._id = some id) : cardsOf id cards ≠ [] :=
  List.ne_nil_of_mem (List.mem_filter.mpr ⟨h, decide_eq_true hid⟩)

theorem cardsOf_append_new (h : card._id = none) (id : Id) :
    cardsOf id (cards ++ [card]) = cardsOf id cards := by
  unfold cardsOf
  rw [List.filter_append, List.filter_singleton, h]
  exact List.append_nil _

theorem cardsOf_eraseIdx (h : cards[index]? = some card) (hid : card._id ≠ some id) :
    cardsOf id (cards.eraseIdx index) = cardsOf id cards :=
  List.filter_eraseIdx_of_neg h (decide_eq_false hid)

theorem cardsOf_set (h : cards[index]? = some old) (hold : old._id ≠ some id)
    (hid : card._id ≠ some id) : cardsOf id (cards.set index card) = cardsOf id cards :=
  List.filter_set_of_neg h (decide_eq_false hold) (decide_eq_false hid)

theorem cardsOf_set_self (h : cards[index]? = some old) (hold : old._id = some id)
    (hunique : (cardsOf id cards).length ≤ 1) (hid : card._id = some id) :
    cardsOf id (cards.set index card) = [card] :=
  (List.filter_set_of_single h (decide_eq_true hold) hunique (decide_eq_true hid)).1

theorem cardsOf_eraseIdx_self (h : cards[index]? = some card) (hid : card._id = some id)
    (hunique : (cardsOf id cards).length ≤ 1) : cardsOf id (cards.eraseIdx index) = [] :=
  (List.filter_set_of_single h (decide_eq_true hid) hunique (decide_eq_true hid)).2

theorem cardsOf_set_new (h : cards[index]? = some old) (hnone : cardsOf id cards = [])
    (hid : card._id = some id) : cardsOf id (cards.set index card) = [card] :=
  List.filter_set_of_nil h hnone (decide_eq_true hid)

/-! ## The agreement -/

/-- What a card shows of its model. -/
def ModelCard.text (card : ModelCard Id) : Option String × Option String :=
  (card.title, card.description)

/-- The user's model with an id. -/
def userRow (user : Id) (db : Database Id Data) (id : Id) : Option (ModelDoc Id) :=
  (db.models.findById id).filter (fun row => row.userId = user)

/-- **The page and the database agree on a model**: the list has one card
with its title and description if the user has the model, and none if not. -/
def Agrees (user : Id) (s : State Id Data) (id : Id) : Prop :=
  (cardsOf id s.page.modelCards).map ModelCard.text
    = (userRow user s.db id).toList.map (fun row => (ModelCard.ofRow row).text)

/-- **The list is that of the database**: every model of the user has exactly
one card, with its title and description, and no card is that of another. -/
structure State.Synced (user : Id) (s : State Id Data) : Prop where
  /-- A model of the user has one card, with its text. -/
  row_card : ∀ row ∈ s.db.models.docs, row.userId = user →
    ∃ card, cardsOf row._id s.page.modelCards = [card]
      ∧ card.title = some row.title ∧ card.description = row.description
  /-- A card with an id is that of a model of the user. -/
  card_row : ∀ card ∈ s.page.modelCards, ∀ id, card._id = some id →
    ∃ row ∈ s.db.models.docs, row._id = id ∧ row.userId = user

theorem synced_of_agrees {user : Id} {s : State Id Data} (h : ∀ id, Agrees user s id) :
    s.Synced user := by
  refine ⟨fun row hrow huser => ?_, fun card hcard id hid => ?_⟩
  · have hagrees := h row._id
    unfold Agrees userRow at hagrees
    rw [Collection.findById_of_mem hrow, Option.filter_some, if_pos (decide_eq_true huser),
      Option.toList_some, List.map_singleton, List.map_eq_singleton_iff] at hagrees
    obtain ⟨card, hcard, htext⟩ := hagrees
    exact ⟨card, hcard, congrArg Prod.fst htext, congrArg Prod.snd htext⟩
  · cases hrow : userRow user s.db id with
    | none =>
      have hagrees := h id
      unfold Agrees at hagrees
      rw [hrow, Option.toList_none, List.map_nil, List.map_eq_nil_iff] at hagrees
      exact absurd hagrees (cardsOf_ne_nil hcard hid)
    | some row =>
      obtain ⟨hfind, huser⟩ := Option.filter_eq_some_iff.mp hrow
      obtain ⟨hmem, hkey⟩ := Collection.findById_eq_some_iff.mp hfind
      exact ⟨row, hmem, hkey, of_decide_eq_true huser⟩

/-! ## What the requests of the page write -/

section Server

variable {verify : Token → Option Id} {token : Token} {user : Id} {defData : Data}
  {db : Database Id Data} {saving : Saving Id} {newId : Id}

/-- A write changes no model but its target. -/
theorem findById_apply_of_ne {w : Write Id Data} (h : w.target ≠ id) :
    (w.apply defData db).models.findById id = db.models.findById id := by
  cases w with
  | create row =>
    by_cases hfree : db.models.findById row._id = none
    · obtain ⟨models, hinsert, -, happly⟩ := apply_create defData hfree
      rw [happly]
      exact (Collection.findById_insert hinsert id).trans (if_neg h)
    · rw [apply_create_of_taken hfree]
  | change id' f hid hown =>
    show (db.models.update id' f hid).findById id = _
    rw [Collection.findById_update]
    have hne : id ≠ id' := Ne.symm h
    simp only [hne, if_false, Option.map_id']
  | remove id' =>
    cases hrow : db.models.findById id' with
    | none => rw [apply_remove_of_none hrow]
    | some row =>
      rw [apply_remove_of_some hrow]
      exact (Collection.findById_remove id).trans (if_neg (Ne.symm h))
  | save modelId set => rfl

/-- A write that is not a creation creates no model. -/
theorem findById_apply_none {w : Write Id Data} (hw : ∀ row, w ≠ .create row)
    (hnone : db.models.findById id = none) :
    (w.apply defData db).models.findById id = none := by
  cases w with
  | create row => exact absurd rfl (hw row)
  | change id' f hid hown =>
    show (db.models.update id' f hid).findById id = none
    rw [Collection.findById_update, hnone, Option.map_none]
  | remove id' =>
    by_cases heq : id' = id
    · rw [heq, apply_remove_of_none hnone, hnone]
    · exact (findById_apply_of_ne (show (Write.remove id').target ≠ id from heq)).trans hnone
  | save modelId set => exact hnone

/-- **A save writes to the edited card's model alone**, or to the one it
creates. -/
theorem findById_serve_save (hid : saving.editedCard._id ≠ some id)
    (hnew : saving.editedCard._id = none → newId ≠ id) :
    (serve verify defData db (saving.request token newId)).1.models.findById id
      = db.models.findById id := by
  rw [serve_write]
  cases hwrite : Request.write verify (saving.request token newId : Request Token Id Data) with
  | none => rfl
  | some w =>
    refine findById_apply_of_ne ?_
    unfold Saving.request at hwrite
    split at hwrite
    · next hnone =>
      simp only [Request.write, bind, pure, Option.bind_eq_some_iff] at hwrite
      obtain ⟨_, -, _, -, _, -, _, -, hw⟩ := hwrite
      obtain rfl := Option.some.inj hw
      exact hnew hnone
    · next id' hsome =>
      simp only [Request.write, bind, pure, Option.bind_eq_some_iff] at hwrite
      obtain ⟨_, -, _, hid', _, -, _, -, hw⟩ := hwrite
      obtain rfl := Option.some.inj hw
      obtain rfl := Option.some.inj hid'
      exact fun heq => hid (hsome.trans (congrArg some heq))

/-- It creates none under the id of an edited card. -/
theorem findById_serve_save_none (hid : saving.editedCard._id = some id)
    (hnone : db.models.findById id = none) :
    (serve verify defData db (saving.request token newId)).1.models.findById id = none := by
  rw [serve_write]
  cases hwrite : Request.write verify (saving.request token newId : Request Token Id Data) with
  | none => exact hnone
  | some w =>
    unfold Saving.request at hwrite
    rw [hid] at hwrite
    simp only [Request.write, bind, pure, Option.bind_eq_some_iff] at hwrite
    obtain ⟨_, -, _, -, _, -, _, -, hw⟩ := hwrite
    refine findById_apply_none (fun row hcreate => ?_) hnone
    rw [hcreate] at hw
    cases hw

/-- **The reply to a creation is the row** that the database then has for the
user. -/
theorem serve_save_new (huser : verify token = some user) (hnone : saving.editedCard._id = none)
    (h : replyCard (serve verify defData db (saving.request token newId)).2 = some card) :
    ∃ row, card = .ofRow row ∧ row._id = newId ∧ row.userId = user
      ∧ (serve verify defData db (saving.request token newId)).1.models.findById newId
        = some row := by
  have hauth : (authenticateUser verify (some token) : Except (Reply Id Data) Id) = .ok user :=
    authenticateUser_eq_ok_iff.mpr huser
  unfold Saving.request at h ⊢
  rw [hnone] at h ⊢
  simp only [serve, entry, hauth, bind, Except.bind, pure, Except.pure, finish, perform] at h ⊢
  cases htitle : (field saving.editedCard.title).required with
  | none =>
    rw [htitle] at h
    cases h
  | some title =>
    cases hdescription : (field saving.editedCard.description).optional with
    | none =>
      rw [htitle, hdescription] at h
      cases h
    | some description =>
      cases hstatus : (field saving.editedCard.status).required with
      | none =>
        rw [htitle, hdescription, hstatus] at h
        cases h
      | some status =>
        rw [htitle, hdescription, hstatus] at h
        dsimp only at h ⊢
        cases hinsert : db.models.insert ⟨newId, title, description, status, user⟩ with
        | none =>
          simp only [Database.createModel, hinsert, Option.map_none] at h
          cases h
        | some models =>
          simp only [Database.createModel, hinsert, Option.map_some] at h ⊢
          obtain rfl := Option.some.inj h
          exact ⟨_, rfl, rfl, rfl, (Collection.findById_insert hinsert newId).trans (if_pos rfl)⟩

/-- What an edit that replies with a row has done. -/
theorem perform_updateModelById_model {title description : ExpressServer.Field String}
    {db' : Database Id Data}
    {code : ℕ} {row : ModelDoc Id}
    (h : perform defData db (.updateModelById (some id) title description)
      = (db', .inr ⟨code, .model row⟩)) :
    db'.models.findById id = some row ∧ (∀ text, title = .value text → row.title = text)
      ∧ (∀ text, description = .value text → row.description = some text)
      ∧ ∃ old, db.models.findById id = some old ∧ row.userId = old.userId
        ∧ (description = .absent → row.description = old.description) := by
  simp only [perform] at h
  split at h
  · next id' setTitle' setDescription' hid htitle hdescription =>
    obtain rfl := Option.some.inj hid
    split at h
    · next row' hfind =>
      cases h
      have hrow := hfind
      change (db.models.update id (setTitle setTitle' setDescription') fun _ => rfl).findById id = _
        at hfind
      obtain ⟨old, hold, rfl⟩ :=
        Option.map_eq_some_iff.mp ((Collection.findById_update id).symm.trans hfind)
      rw [if_pos rfl] at hrow ⊢
      refine ⟨hrow, fun text htext => ?_, fun text htext => ?_, old, hold, rfl, fun habsent => ?_⟩
      · subst htext
        simp only [Field.setRequired, Field.required, Option.map_eq_some_iff] at htitle
        obtain ⟨text', htext', rfl⟩ := htitle
        split at htext'
        · cases htext'
        · exact (Option.some.inj htext').symm
      · subst htext
        simp only [Field.setOptional, Field.optional, Option.map_some] at hdescription
        obtain rfl := Option.some.inj hdescription
        rfl
      · subst habsent
        obtain rfl := Option.some.inj hdescription
        rfl
    · cases h
  · cases h

/-- **The reply to an edit is the row** with the title and the description of
the edited card; without a description the row keeps its own. -/
theorem serve_save_edited (huser : verify token = some user)
    (hid : saving.editedCard._id = some id)
    (h : replyCard (serve verify defData db (saving.request token newId)).2 = some card) :
    ∃ row old, (serve verify defData db (saving.request token newId)).1.models.findById id
        = some row
      ∧ (∀ title, saving.editedCard.title = some title → row.title = title)
      ∧ (∀ description, saving.editedCard.description = some description →
        row.description = some description)
      ∧ db.models.findById id = some old ∧ row.userId = old.userId
      ∧ (saving.editedCard.description = none → row.description = old.description) := by
  have hauth : (authenticateUser verify (some token) : Except (Reply Id Data) Id) = .ok user :=
    authenticateUser_eq_ok_iff.mpr huser
  unfold Saving.request at h ⊢
  rw [hid] at h ⊢
  simp only [serve, entry, hauth, bind, Except.bind, pure, Except.pure] at h ⊢
  rcases hperform : perform defData db (.updateModelById (some id)
    (field saving.editedCard.title) (field saving.editedCard.description)) with ⟨db', op | reply⟩
  · exact absurd (left_of_perform hperform) (by cases op <;> simp [Operation.left])
  · simp only [finish, hperform] at h ⊢
    obtain ⟨code, body⟩ := reply
    cases body with
    | model row =>
      obtain ⟨hfind, htitle, hdescription, old, hold, howner, hkept⟩ :=
        perform_updateModelById_model hperform
      refine ⟨row, old, hfind, fun title heq => htitle title ?_,
        fun description heq => hdescription description ?_, hold, howner, fun heq => hkept ?_⟩
      · rw [heq]
        rfl
      · rw [heq]
        rfl
      · rw [heq]
        rfl
    | _ => cases h

/-- **A deletion removes its model** and no other. -/
theorem findById_serve_delete (huser : verify token = some user) (id' : Id) :
    (serve verify defData db (deleteRequest token (some id'))).1.models.findById id
      = if id = id' then none else db.models.findById id := by
  rw [serve_write]
  have hwrite : Request.write verify (deleteRequest token (some id') : Request Token Id Data)
      = some (.remove id') := by
    simp [Request.write, deleteRequest, Request.user, huser]
  rw [hwrite, Option.map_some, Option.getD_some]
  cases hrow : db.models.findById id' with
  | none =>
    rw [apply_remove_of_none hrow]
    split
    · next heq => rw [heq, hrow]
    · rfl
  | some row =>
    rw [apply_remove_of_some hrow]
    exact Collection.findById_remove id

theorem serve_delete_undefined (huser : verify token = some user) :
    (serve verify defData db (deleteRequest token none)).1 = db := by
  rw [serve_write]
  simp [Request.write, deleteRequest, Request.user, huser]

end Server

/-! ## What the page waits for -/

/-- The model a save is about: the edited card's, or the one that the reply
says is created. -/
def Saving.About (saving : Saving Id) (id : Id) : Prop :=
  saving.editedCard._id = some id
    ∨ saving.editedCard._id = none ∧ ∃ card, saving.reply = some (some card) ∧ card._id = some id

/-- A request about the model is in flight. -/
def State.InFlight (s : State Id Data) (id : Id) : Prop :=
  (∃ t saving, s.saves t = some saving ∧ saving.About id)
    ∨ ∃ t served, s.deletes t = some ⟨some id, served⟩

/-- The page has the id: in its list, in the card being edited, or in a
request it has made. -/
def State.Holds (s : State Id Data) (id : Id) : Prop :=
  cardsOf id s.page.modelCards ≠ [] ∨ s.page.editedCard._id = some id
    ∨ (∃ t saving, s.saves t = some saving ∧ saving.editedCard._id = some id)
    ∨ ∃ t served, s.deletes t = some ⟨some id, served⟩

/-- **What the page assumes of the network**: every save succeeds. -/
def SavesSucceed (verify : Token → Option Id) (token : Token) (defData : Data)
    (s : State Id Data) : Action Id → Prop
  | .serveSave t newId => ∀ saving, s.saves t = some saving →
    replyCard (serve verify defData s.db (saving.request token newId)).2 ≠ none
  | .loseSave _ => False
  | _ => True

/-- **The steps that keep the list right.**

Save is pressed where the whole list and the screen both have the edited card
at the position, and while no save of that model is still pending; and Cancel
of a new card where the whole list has a new card. When a save goes on, the
other models have in the list the cards that they had when it was pressed, and
an edited model is still in the list. No deletion is refused or lost. When a
warning ends, every model has the cards that it had when it began. -/
def KeepsList (s : State Id Data) : Action Id → Prop
  | .save index _ => (∃ card displayed, s.page.modelCards[index]? = some card
      ∧ card._id = s.page.editedCard._id ∧ s.page.filteredModels[index]? = some displayed
      ∧ displayed._id = s.page.editedCard._id)
    ∧ ∀ id, s.page.editedCard._id = some id →
      ∀ t saving, s.saves t = some saving → saving.editedCard._id ≠ some id
  | .cancel index => s.page.editedCard._id = none →
    ∃ card, s.page.modelCards[index]? = some card ∧ card._id = none
  | .resume t => ∀ saving, s.saves t = some saving →
    (∀ id, saving.editedCard._id ≠ some id →
      cardsOf id saving.modelCards = cardsOf id s.page.modelCards)
    ∧ ∀ id, saving.editedCard._id = some id → cardsOf id s.page.modelCards ≠ []
  | .loseDelete t => ∀ id, s.deletes t ≠ some ⟨some id, false⟩
  | .timeout t => ∀ cards, s.warnings t = some cards →
    ∀ id, cardsOf id cards = cardsOf id s.page.modelCards
  | _ => True

/-! ## The invariant -/

/-- What every save has read: a list with the edited card at the position of
the button. -/
structure Saving.Placed (saving : Saving Id) : Prop where
  /-- The list has the card at the position. -/
  card : ∃ card, saving.modelCards[saving.index]? = some card
    ∧ card._id = saving.editedCard._id
  /-- So has the screen. -/
  displayed : saving.displayed._id = saving.editedCard._id
  /-- The list has every model once. -/
  unique : ∀ id, (cardsOf id saving.modelCards).length ≤ 1
  /-- The reply was a success. -/
  replied : saving.reply ≠ some none

/-- **The row is the one that the save of an edited model writes**: the card
has a title; where it has no description, neither has the row; and once there
is a reply, the row has what the card has. -/
structure Saving.Writes (saving : Saving Id) (row : ModelDoc Id) : Prop where
  /-- A title is sent. -/
  title : saving.editedCard.title ≠ none
  /-- A description is sent, unless the row has none. -/
  description : saving.editedCard.description = none → row.description = none
  /-- Once there is a reply, the row has what was sent. -/
  text : saving.reply ≠ none → saving.editedCard.text = (ModelCard.ofRow row).text

/-- The card in edit mode has a title, and a description unless its model has
none in the list. -/
def Page.EditsListed (page : Page Id) : Prop :=
  page.editingIndex ≠ none → ∀ id, page.editedCard._id = some id → page.editedCard.title ≠ none
    ∧ (page.editedCard.description = none →
      ∀ card ∈ cardsOf id page.modelCards, card.description = none)

/-- A list with no other cards keeps it. -/
theorem Page.EditsListed.of_subset {page page' : Page Id} (h : page.EditsListed)
    (hindex : page'.editingIndex = page.editingIndex) (hcard : page'.editedCard = page.editedCard)
    (hcards : ∀ id, ∀ card ∈ cardsOf id page'.modelCards, card ∈ cardsOf id page.modelCards) :
    page'.EditsListed := by
  intro hediting id hid
  rw [hindex] at hediting
  rw [hcard] at hid ⊢
  obtain ⟨htitle, hdescription⟩ := h hediting id hid
  exact ⟨htitle, fun hnone card hmem => hdescription hnone card (hcards id card hmem)⟩

/-- **The invariant of the page**: it agrees with the database on every model
that no request in flight is about; and of those in flight, a created model is
in the database and not yet on the page, a deleted one is off the page, and an
edited one is off the page or has the row that its one save writes. -/
structure Coherent (user : Id) (s : State Id Data) : Prop where
  /-- The page and the database agree on every other model. -/
  agree : ∀ id, ¬ s.InFlight id → Agrees user s id
  /-- The list has no model twice. -/
  unique : ∀ id, (cardsOf id s.page.modelCards).length ≤ 1
  /-- Every save is one for the card at its position. -/
  placed : ∀ t saving, s.saves t = some saving → saving.Placed
  /-- A created model is not on the page yet, and one save is about it. -/
  created : ∀ t saving card, s.saves t = some saving → saving.editedCard._id = none →
    saving.reply = some (some card) → ∃ row, card = .ofRow row
      ∧ userRow user s.db row._id = some row ∧ ¬ s.Holds row._id
      ∧ ∀ t' saving', s.saves t' = some saving' → saving'.About row._id → t' = t
  /-- A deleted model is off the page, and out of the database once that is
  served. -/
  gone : ∀ t id served, s.deletes t = some ⟨some id, served⟩ →
    cardsOf id s.page.modelCards = [] ∧ (served = true → s.db.models.findById id = none)
  /-- The page and the database know no id that was not given out. -/
  ids : ∀ id, s.Holds id ∨ s.db.models.findById id ≠ none → id ∈ s.ids
  /-- An edited model has the row that its save writes, unless it is off the
  page. -/
  edits : ∀ t saving id, s.saves t = some saving → saving.editedCard._id = some id →
    cardsOf id s.page.modelCards = [] ∨ ∃ row, userRow user s.db id = some row ∧ saving.Writes row
  /-- No model has two saves waiting. -/
  single : ∀ t t' saving saving' id, s.saves t = some saving → s.saves t' = some saving' →
    saving.editedCard._id = some id → saving'.editedCard._id = some id → t = t'
  /-- The inputs show what the list has. -/
  editing : s.page.EditsListed

variable {user : Id} {s : State Id Data}

/-- A card of the list makes the page have its id. -/
theorem State.holds_of_mem (h : card ∈ s.page.modelCards) (hid : card._id = some id) :
    s.Holds id :=
  Or.inl (cardsOf_ne_nil h hid)

/-- **A change of the page that leaves every model's cards alone.** -/
theorem Coherent.of_page (h : Coherent user s) {page : Page Id}
    {warnings : ℕ → Option (List (ModelCard Id))} {pressed : Option (ModelCard Id)}
    (hcards : ∀ id, cardsOf id page.modelCards = cardsOf id s.page.modelCards)
    (hedited : ∀ id, page.editedCard._id = some id → s.Holds id) (hediting : page.EditsListed) :
    Coherent user { s with page := page, warnings := warnings, pressed := pressed } := by
  have hholds : ∀ id,
      State.Holds { s with page := page, warnings := warnings, pressed := pressed } id →
        s.Holds id := by
    rintro id (hmem | hedit | hrequest)
    · exact Or.inl (hcards id ▸ hmem)
    · exact hedited id hedit
    · exact Or.inr (Or.inr hrequest)
  refine ⟨fun id hid => ?_, fun id => ?_, h.placed, ?_, ?_, ?_, fun t saving id hsaving hid => ?_,
    h.single, hediting⟩
  · unfold Agrees
    rw [hcards]
    exact h.agree id hid
  · rw [hcards]
    exact h.unique id
  · intro t saving card hsaving hnone hreply
    obtain ⟨row, hcard, hrow, hnot, honly⟩ := h.created t saving card hsaving hnone hreply
    exact ⟨row, hcard, hrow, fun hid => hnot (hholds _ hid), honly⟩
  · intro t id served hdelete
    rw [hcards]
    exact h.gone t id served hdelete
  · intro id hid
    exact h.ids id (hid.imp_left (hholds id))
  · rw [hcards]
    exact h.edits t saving id hsaving hid

/-- **No save in flight is about a model of the list** that no pending save
edits: a created model is not on the list yet, and a deleted one not any
more. -/
theorem Coherent.not_inFlight (h : Coherent user s) (hlisted : cardsOf id s.page.modelCards ≠ [])
    (hnone : ∀ t saving, s.saves t = some saving → saving.editedCard._id ≠ some id) :
    ¬ s.InFlight id := by
  rintro (⟨t, saving, hsaving, hid | ⟨hnew, card, hreply, hid⟩⟩ | ⟨t, served, hdelete⟩)
  · exact hnone t saving hsaving hid
  · obtain ⟨row, rfl, -, hnot, -⟩ := h.created t saving card hsaving hnew hreply
    obtain rfl : row._id = id := Option.some.inj hid
    exact hnot (Or.inl hlisted)
  · exact hlisted (h.gone t id served hdelete).1

/-- **The row of the card in edit mode**, when Save is pressed. -/
theorem Coherent.exists_row (h : Coherent user s) (hediting : s.page.editingIndex ≠ none)
    (hid : s.page.editedCard._id = some id) (hlisted : cardsOf id s.page.modelCards ≠ [])
    (hnone : ∀ t saving, s.saves t = some saving → saving.editedCard._id ≠ some id)
    {saving : Saving Id} (hedited : saving.editedCard = s.page.editedCard)
    (hreply : saving.reply = none) :
    ∃ row, userRow user s.db id = some row ∧ saving.Writes row := by
  have hagree := h.agree id (h.not_inFlight hlisted hnone)
  obtain ⟨htitle, hdescription⟩ := h.editing hediting id hid
  unfold Agrees at hagree
  cases hrow : userRow user s.db id with
  | none =>
    rw [hrow, Option.toList_none, List.map_nil, List.map_eq_nil_iff] at hagree
    exact absurd hagree hlisted
  | some row =>
    rw [hrow, Option.toList_some, List.map_singleton, List.map_eq_singleton_iff] at hagree
    obtain ⟨card, hcards, htext⟩ := hagree
    refine ⟨row, rfl, hedited ▸ htitle, fun hno => ?_, fun hreplied => absurd hreply hreplied⟩
    have hcard : card.description = none := by
      refine hdescription (hedited ▸ hno) card ?_
      rw [hcards]
      exact List.mem_singleton_self card
    exact (congrArg Prod.snd htext).symm.trans hcard

/-- **A save is pressed.** -/
theorem Coherent.save (h : Coherent user s) {t : ℕ} (hfree : s.saves t = none) {saving : Saving Id}
    (hedited : saving.editedCard = s.page.editedCard)
    (hreply : saving.reply = none) (hplaced : saving.Placed)
    (hediting : s.page.editingIndex ≠ none)
    (hnone : ∀ id, saving.editedCard._id = some id →
      ∀ t' saving', s.saves t' = some saving' → saving'.editedCard._id ≠ some id) :
    Coherent user { s with saves := Function.update s.saves t (some saving) } := by
  have hholds : ∀ id, State.Holds { s with saves := Function.update s.saves t (some saving) } id →
      s.Holds id := by
    rintro id (hmem | hedit | ⟨t', saving', hsaving', hid⟩ | hdelete)
    · exact Or.inl hmem
    · exact Or.inr (Or.inl hedit)
    · rcases update_eq_some hsaving' with ⟨-, heq⟩ | ⟨-, hold⟩
      · obtain rfl := Option.some.inj heq
        exact Or.inr (Or.inl (hedited ▸ hid))
      · exact Or.inr (Or.inr (Or.inl ⟨t', saving', hold, hid⟩))
    · exact Or.inr (Or.inr (Or.inr hdelete))
  refine ⟨fun id hid => ?_, h.unique, ?_, ?_, h.gone,
    fun id hid => h.ids id (hid.imp_left (hholds id)), ?_, ?_, h.editing⟩
  · -- a model that is not in flight after the press was not in flight before it
    refine h.agree id (fun hflight => hid ?_)
    rcases hflight with ⟨t', saving', hsaving', habout⟩ | hdelete
    · have ht : t' ≠ t := by
        rintro rfl
        cases hfree.symm.trans hsaving'
      exact Or.inl ⟨t', saving', (Function.update_of_ne ht ..).trans hsaving', habout⟩
    · exact Or.inr hdelete
  · intro t' saving' hsaving'
    rcases update_eq_some hsaving' with ⟨-, heq⟩ | ⟨-, hold⟩
    · obtain rfl := Option.some.inj heq
      exact hplaced
    · exact h.placed t' saving' hold
  · -- the new save has no reply, so it has created nothing yet
    intro t' saving' card hsaving' hnone hcard
    rcases update_eq_some hsaving' with ⟨-, heq⟩ | ⟨-, hold⟩
    · obtain rfl := Option.some.inj heq
      cases hreply.symm.trans hcard
    · obtain ⟨row, hrowCard, hrow, hnot, honly⟩ := h.created t' saving' card hold hnone hcard
      refine ⟨row, hrowCard, hrow, fun hid => hnot (hholds _ hid),
        fun t'' saving'' hsaving'' habout => ?_⟩
      rcases update_eq_some hsaving'' with ⟨-, heq⟩ | ⟨-, hold''⟩
      · obtain rfl := Option.some.inj heq
        rcases habout with hid | ⟨-, card', hcard', -⟩
        · exact absurd (Or.inr (Or.inl (hedited ▸ hid))) hnot
        · cases hreply.symm.trans hcard'
      · exact honly t'' saving'' hold'' habout
  · -- the card in edit mode is in the list or not, and no other save is about it
    intro t' saving' id hsaving' hid
    rcases update_eq_some hsaving' with ⟨-, heq⟩ | ⟨-, hold⟩
    · obtain rfl := Option.some.inj heq
      by_cases hlisted : cardsOf id s.page.modelCards = []
      · exact Or.inl hlisted
      · exact Or.inr (h.exists_row hediting (hedited ▸ hid) hlisted (hnone id hid) hedited hreply)
    · exact h.edits t' saving' id hold hid
  · intro t₁ t₂ saving₁ saving₂ id hsaving₁ hsaving₂ hid₁ hid₂
    rcases update_eq_some hsaving₁ with ⟨ht₁, heq₁⟩ | ⟨-, hold₁⟩
    · obtain rfl := Option.some.inj heq₁
      rcases update_eq_some hsaving₂ with ⟨ht₂, -⟩ | ⟨-, hold₂⟩
      · exact ht₁.trans ht₂.symm
      · exact absurd hid₂ (hnone id hid₁ t₂ saving₂ hold₂)
    · rcases update_eq_some hsaving₂ with ⟨-, heq₂⟩ | ⟨-, hold₂⟩
      · obtain rfl := Option.some.inj heq₂
        exact absurd hid₁ (hnone id hid₂ t₁ saving₁ hold₁)
      · exact h.single t₁ t₂ saving₁ saving₂ id hold₁ hold₂ hid₁ hid₂

/-- A reply that arrives tells the page no id. -/
theorem State.holds_of_reply {t : ℕ} {saving : Saving Id} (hsaving : s.saves t = some saving)
    {reply : Option (Option (ModelCard Id))} {db : Database Id Data} {ids : List Id}
    (h : State.Holds { s with
      saves := Function.update s.saves t (some { saving with reply := reply })
      db := db
      ids := ids } id) : s.Holds id := by
  rcases h with hmem | hedit | ⟨t', saving', hsaving', hid⟩ | hdelete
  · exact Or.inl hmem
  · exact Or.inr (Or.inl hedit)
  · rcases update_eq_some hsaving' with ⟨-, heq⟩ | ⟨-, hold⟩
    · obtain rfl := Option.some.inj heq
      exact Or.inr (Or.inr (Or.inl ⟨t, saving, hsaving, hid⟩))
    · exact Or.inr (Or.inr (Or.inl ⟨t', saving', hold, hid⟩))
  · exact Or.inr (Or.inr (Or.inr hdelete))

omit [DecidableEq Id] in
theorem Saving.Placed.of_reply [DecidableEq Id] {saving : Saving Id} (h : saving.Placed)
    (card : ModelCard Id) : ({ saving with reply := some (some card) } : Saving Id).Placed :=
  ⟨h.card, h.displayed, h.unique, fun hnone => Option.some_ne_none card (Option.some.inj hnone)⟩

/-- A reply leaves every save with what it has read. -/
theorem Coherent.placed_of_reply (h : Coherent user s) {t : ℕ} {saving : Saving Id}
    (hsaving : s.saves t = some saving) (card : ModelCard Id) {t' : ℕ} {saving' : Saving Id}
    (hsaving' : Function.update s.saves t (some { saving with reply := some (some card) }) t'
      = some saving') : saving'.Placed := by
  rcases update_eq_some hsaving' with ⟨-, heq⟩ | ⟨-, hold⟩
  · obtain rfl := Option.some.inj heq
    exact (h.placed t saving hsaving).of_reply card
  · exact h.placed t' saving' hold

theorem userRow_congr {db : Database Id Data}
    (h : db.models.findById id = s.db.models.findById id) :
    userRow user db id = userRow user s.db id := by
  unfold userRow
  rw [h]

theorem Coherent.mem_ids_of_userRow (h : Coherent user s) {row : ModelDoc Id}
    (hrow : userRow user s.db id = some row) : id ∈ s.ids := by
  refine h.ids id (Or.inr ?_)
  rw [(Option.filter_eq_some_iff.mp hrow).1]
  exact Option.some_ne_none row

/-- **The server has written the row of an edited model.** -/
theorem exists_written {verify : Token → Option Id} {token : Token} {defData : Data}
    (huser : verify token = some user) {saving : Saving Id} {newId : Id}
    (hid : saving.editedCard._id = some id) {old : ModelDoc Id}
    (hold : userRow user s.db id = some old) (hwrites : saving.Writes old)
    (h : replyCard (serve verify defData s.db (saving.request token newId)).2 = some card) :
    ∃ row, userRow user (serve verify defData s.db (saving.request token newId)).1 id = some row
      ∧ ({ saving with reply := some (some card) } : Saving Id).Writes row := by
  obtain ⟨row, old', hrow, htitle, hdescription, hfind, howner, hkept⟩ :=
    serve_save_edited huser hid h
  obtain ⟨hfound, hmine⟩ := Option.filter_eq_some_iff.mp hold
  obtain rfl := Option.some.inj (hfind.symm.trans hfound)
  have hnone : saving.editedCard.description = none → row.description = none :=
    fun hno => (hkept hno).trans (hwrites.description hno)
  refine ⟨row, Option.filter_eq_some_iff.mpr ⟨hrow, ?_⟩, hwrites.title, hnone, fun _ => ?_⟩
  · rw [decide_eq_true_eq, howner]
    exact of_decide_eq_true hmine
  · -- the title is the card's, and so is the description
    obtain ⟨title, htext⟩ := Option.ne_none_iff_exists'.mp hwrites.title
    have hdesc : saving.editedCard.description = row.description := by
      cases hcase : saving.editedCard.description with
      | none => exact (hnone hcase).symm
      | some description => exact (hdescription description hcase).symm
    show (saving.editedCard.title, saving.editedCard.description)
      = (some row.title, row.description)
    rw [htext, htitle title htext, hdesc]

/-- A reply leaves one save for each edited model. -/
theorem Coherent.single_of_reply (h : Coherent user s) {t : ℕ} {saving : Saving Id}
    (hsaving : s.saves t = some saving) (reply : Option (Option (ModelCard Id)))
    {t₁ t₂ : ℕ} {saving₁ saving₂ : Saving Id} {id : Id}
    (hsaving₁ : Function.update s.saves t (some { saving with reply := reply }) t₁ = some saving₁)
    (hsaving₂ : Function.update s.saves t (some { saving with reply := reply }) t₂ = some saving₂)
    (hid₁ : saving₁.editedCard._id = some id) (hid₂ : saving₂.editedCard._id = some id) :
    t₁ = t₂ := by
  have hold : ∀ t' saving',
      Function.update s.saves t (some { saving with reply := reply }) t' = some saving' →
        ∃ old, s.saves t' = some old ∧ old.editedCard = saving'.editedCard := by
    intro t' saving' hsaving'
    rcases update_eq_some hsaving' with ⟨rfl, heq⟩ | ⟨-, hold⟩
    · obtain rfl := Option.some.inj heq
      exact ⟨saving, hsaving, rfl⟩
    · exact ⟨saving', hold, rfl⟩
  obtain ⟨old₁, hold₁, hcard₁⟩ := hold t₁ saving₁ hsaving₁
  obtain ⟨old₂, hold₂, hcard₂⟩ := hold t₂ saving₂ hsaving₂
  exact h.single t₁ t₂ old₁ old₂ id hold₁ hold₂ (hcard₁ ▸ hid₁) (hcard₂ ▸ hid₂)

/-- A model that the reply is not about is as it was on either side. -/
theorem Coherent.agrees_of_reply (h : Coherent user s) {t : ℕ} {saving : Saving Id}
    (hsaving : s.saves t = some saving) {reply : Option (Option (ModelCard Id))}
    {db : Database Id Data} {ids : List Id}
    (hid : ¬ State.InFlight { s with
      saves := Function.update s.saves t (some { saving with reply := reply })
      db := db
      ids := ids } id)
    (habout : saving.About id → ({ saving with reply := reply } : Saving Id).About id)
    (hfind : db.models.findById id = s.db.models.findById id) :
    Agrees user { s with
      saves := Function.update s.saves t (some { saving with reply := reply })
      db := db
      ids := ids } id := by
  have hagree : Agrees user s id := by
    refine h.agree id (fun hflight => hid ?_)
    rcases hflight with ⟨t', saving', hsaving', hsame⟩ | hdelete
    · by_cases ht : t' = t
      · subst ht
        obtain rfl := Option.some.inj (hsaving.symm.trans hsaving')
        exact Or.inl ⟨t', _, Function.update_self .., habout hsame⟩
      · exact Or.inl ⟨t', saving', (Function.update_of_ne ht ..).trans hsaving', hsame⟩
    · exact Or.inr hdelete
  unfold Agrees at hagree ⊢
  rw [userRow_congr hfind]
  exact hagree

/-- **The server has changed an edited model.** -/
theorem Coherent.replied_edited (h : Coherent user s) {t : ℕ} {saving : Saving Id}
    (hsaving : s.saves t = some saving) {id₀ : Id} (hid₀ : saving.editedCard._id = some id₀)
    {db : Database Id Data}
    (hframe : ∀ id, id ≠ id₀ → db.models.findById id = s.db.models.findById id)
    (hnone : s.db.models.findById id₀ = none → db.models.findById id₀ = none)
    {card : ModelCard Id} (newId : Id)
    (hwritten : ∀ old, userRow user s.db id₀ = some old → saving.Writes old →
      ∃ row, userRow user db id₀ = some row
        ∧ ({ saving with reply := some (some card) } : Saving Id).Writes row) :
    Coherent user { s with
      saves := Function.update s.saves t (some { saving with reply := some (some card) })
      db := db
      ids := newId :: s.ids } := by
  have hheld : s.Holds id₀ := Or.inr (Or.inr (Or.inl ⟨t, saving, hsaving, hid₀⟩))
  have hdb : ∀ id, s.db.models.findById id = none → db.models.findById id = none := by
    intro id hid
    by_cases heq : id = id₀
    · rw [heq] at hid ⊢
      exact hnone hid
    · rw [hframe id heq, hid]
  refine ⟨fun id hid => ?_, h.unique, ?_, ?_, ?_, ?_, ?_, ?_, h.editing⟩
  · -- off the saved model nothing has changed on either side
    have hne : id ≠ id₀ := by
      rintro rfl
      exact hid (Or.inl ⟨t, _, Function.update_self .., Or.inl hid₀⟩)
    refine h.agrees_of_reply hsaving hid (fun habout => ?_) (hframe id hne)
    rcases habout with hsome | ⟨hedited, -⟩
    · exact Or.inl hsome
    · cases hedited.symm.trans hid₀
  · exact fun t' saving' hsaving' => h.placed_of_reply hsaving card hsaving'
  · -- the saved model has an id, so it is not one that is being created
    intro t' saving' card' hsaving' hedited hreply
    rcases update_eq_some hsaving' with ⟨-, heq⟩ | ⟨-, hold⟩
    · obtain rfl := Option.some.inj heq
      cases hedited.symm.trans hid₀
    · obtain ⟨row, hcard, hrow, hnot, honly⟩ := h.created t' saving' card' hold hedited hreply
      have hne : row._id ≠ id₀ := fun heq => hnot (heq ▸ hheld)
      refine ⟨row, hcard, (userRow_congr (hframe _ hne)).trans hrow,
        fun hid => hnot (State.holds_of_reply hsaving hid), fun t'' saving'' hsaving'' habout => ?_⟩
      rcases update_eq_some hsaving'' with ⟨-, heq⟩ | ⟨-, hold''⟩
      · obtain rfl := Option.some.inj heq
        rcases habout with hsome | ⟨hedited', -⟩
        · exact absurd (Option.some.inj (hsome.symm.trans hid₀)) hne
        · cases hedited'.symm.trans hid₀
      · exact honly t'' saving'' hold'' habout
  · -- what was gone from the database is still gone
    intro t' id served hdelete
    obtain ⟨hcards, hserved⟩ := h.gone t' id served hdelete
    exact ⟨hcards, fun hs => hdb id (hserved hs)⟩
  · intro id hid
    refine List.mem_cons_of_mem _ (h.ids id ?_)
    rcases hid with hheld | hfound
    · exact Or.inl (State.holds_of_reply hsaving hheld)
    · exact Or.inr (fun hnone' => hfound (hdb id hnone'))
  · -- the row has been written, and the other saves are about other rows
    intro t' saving' id hsaving' hid
    rcases update_eq_some hsaving' with ⟨-, heq⟩ | ⟨ht, hold⟩
    · obtain rfl := Option.some.inj heq
      obtain rfl : id₀ = id := Option.some.inj (hid₀.symm.trans hid)
      refine (h.edits t saving id₀ hsaving hid₀).imp_right ?_
      rintro ⟨old, hrow, hwrites⟩
      exact hwritten old hrow hwrites
    · have hne : id ≠ id₀ := by
        rintro rfl
        exact ht (h.single t' t saving' saving id hold hsaving hid hid₀)
      rw [userRow_congr (hframe id hne)]
      exact h.edits t' saving' id hold hid
  · exact fun t₁ t₂ saving₁ saving₂ id h₁ h₂ hid₁ hid₂ =>
      h.single_of_reply hsaving _ h₁ h₂ hid₁ hid₂

/-- **The server has created a model.** -/
theorem Coherent.replied_new (h : Coherent user s) {t : ℕ} {saving : Saving Id}
    (hsaving : s.saves t = some saving) (hedited : saving.editedCard._id = none)
    (hreply : saving.reply = none) {row : ModelDoc Id} (hrow : row.userId = user)
    (hfresh : row._id ∉ s.ids) {db : Database Id Data}
    (hfind : db.models.findById row._id = some row)
    (hframe : ∀ id, id ≠ row._id → db.models.findById id = s.db.models.findById id) :
    Coherent user { s with
      saves := Function.update s.saves t (some { saving with reply := some (some (.ofRow row)) })
      db := db
      ids := row._id :: s.ids } := by
  have hnot : ¬ s.Holds row._id := fun hheld => hfresh (h.ids _ (Or.inl hheld))
  have hne : ∀ id, id ∈ s.ids → id ≠ row._id := by
    rintro id hid rfl
    exact hfresh hid
  refine ⟨fun id hid => ?_, h.unique, ?_, ?_, ?_, ?_, ?_, ?_, h.editing⟩
  · -- the new model is in flight, and every other one is as before
    have hother : id ≠ row._id := by
      rintro rfl
      exact hid (Or.inl ⟨t, _, Function.update_self .., Or.inr ⟨hedited, _, rfl, rfl⟩⟩)
    refine h.agrees_of_reply hsaving hid (fun habout => ?_) (hframe id hother)
    rcases habout with hsome | ⟨-, card, hcard, -⟩
    · cases hedited.symm.trans hsome
    · cases hreply.symm.trans hcard
  · exact fun t' saving' hsaving' => h.placed_of_reply hsaving _ hsaving'
  · -- the row is the one the reply is about, and the page has no card with its id
    intro t' saving' card' hsaving' hedited' hreply'
    rcases update_eq_some hsaving' with ⟨ht', heq⟩ | ⟨-, hold⟩
    · obtain rfl := Option.some.inj heq
      obtain rfl := Option.some.inj (Option.some.inj hreply')
      refine ⟨row, rfl, ?_, fun hid => hnot (State.holds_of_reply hsaving hid),
        fun t'' saving'' hsaving'' habout => ?_⟩
      · unfold userRow
        rw [hfind, Option.filter_some, if_pos (decide_eq_true hrow)]
      · rcases update_eq_some hsaving'' with ⟨ht'', -⟩ | ⟨-, hold''⟩
        · exact ht''.trans ht'.symm
        · rcases habout with hsome | ⟨hnone, card, hcard, hid⟩
          · exact absurd (Or.inr (Or.inr (Or.inl ⟨t'', saving'', hold'', hsome⟩))) hnot
          · -- no other creation has been given the id
            obtain ⟨row', rfl, hrow', -, -⟩ := h.created t'' saving'' card hold'' hnone hcard
            exact absurd (Option.some.inj hid) (hne _ (h.mem_ids_of_userRow hrow'))
    · obtain ⟨row', hcard, hrow', hnot', honly⟩ := h.created t' saving' card' hold hedited' hreply'
      have hother : row'._id ≠ row._id := hne _ (h.mem_ids_of_userRow hrow')
      refine ⟨row', hcard, (userRow_congr (hframe _ hother)).trans hrow',
        fun hid => hnot' (State.holds_of_reply hsaving hid),
        fun t'' saving'' hsaving'' habout => ?_⟩
      rcases update_eq_some hsaving'' with ⟨-, heq⟩ | ⟨-, hold''⟩
      · obtain rfl := Option.some.inj heq
        rcases habout with hsome | ⟨-, card, hcard', hid⟩
        · cases hedited.symm.trans hsome
        · obtain rfl := Option.some.inj (Option.some.inj hcard')
          exact absurd (Option.some.inj hid).symm hother
      · exact honly t'' saving'' hold'' habout
  · -- a model that is being deleted has an id that was given out before
    intro t' id served hdelete
    obtain ⟨hcards, hserved⟩ := h.gone t' id served hdelete
    have hid : id ∈ s.ids := h.ids id (Or.inl (Or.inr (Or.inr (Or.inr ⟨t', served, hdelete⟩))))
    exact ⟨hcards, fun hs => (hframe id (hne id hid)).trans (hserved hs)⟩
  · intro id hid
    rcases hid with hheld | hfound
    · exact List.mem_cons_of_mem _ (h.ids id (Or.inl (State.holds_of_reply hsaving hheld)))
    · by_cases heq : id = row._id
      · exact heq ▸ List.mem_cons_self
      · rw [hframe id heq] at hfound
        exact List.mem_cons_of_mem _ (h.ids id (Or.inr hfound))
  · -- an edited model has an id that was given out before
    intro t' saving' id hsaving' hid
    rcases update_eq_some hsaving' with ⟨-, heq⟩ | ⟨-, hold⟩
    · obtain rfl := Option.some.inj heq
      cases hedited.symm.trans hid
    · have hheld : s.Holds id := Or.inr (Or.inr (Or.inl ⟨t', saving', hold, hid⟩))
      rw [userRow_congr (hframe id (hne id (h.ids id (Or.inl hheld))))]
      exact h.edits t' saving' id hold hid
  · exact fun t₁ t₂ saving₁ saving₂ id h₁ h₂ hid₁ hid₂ =>
      h.single_of_reply hsaving _ h₁ h₂ hid₁ hid₂

/-! ## Deletions -/

theorem cardsOf_eraseIdx_eq (hunique : (cardsOf id cards).length ≤ 1) :
    cardsOf id (cards.eraseIdx index)
      = if cards[index]?.bind ModelCard._id = some id then [] else cardsOf id cards := by
  cases hcard : cards[index]? with
  | none =>
    rw [Option.bind_none, if_neg (Option.some_ne_none id).symm,
      List.eraseIdx_of_length_le (List.getElem?_eq_none_iff.mp hcard)]
  | some card =>
    rw [Option.bind_some]
    split
    · next hid => exact cardsOf_eraseIdx_self hcard hid hunique
    · next hid => exact cardsOf_eraseIdx hcard hid

/-- **Confirm is pressed**: the model at the position leaves the list and is
in flight. -/
theorem Coherent.confirm (h : Coherent user s) {t index : ℕ} (hfree : s.deletes t = none)
    {page : Page Id} (hcards : page.modelCards = s.page.modelCards.eraseIdx index)
    (hedited : page.editedCard = s.page.editedCard)
    (hindex : page.editingIndex = s.page.editingIndex) :
    Coherent user { s with
      page := page
      deletes := Function.update s.deletes t
        (some ⟨s.page.modelCards[index]?.bind ModelCard._id, false⟩) } := by
  have hcardsOf : ∀ id, cardsOf id page.modelCards
      = if s.page.modelCards[index]?.bind ModelCard._id = some id then []
        else cardsOf id s.page.modelCards := by
    intro id
    rw [hcards]
    exact cardsOf_eraseIdx_eq (h.unique id)
  have hheld : ∀ id, s.page.modelCards[index]?.bind ModelCard._id = some id → s.Holds id := by
    intro id hid
    obtain ⟨card, hcard, hcardId⟩ := Option.bind_eq_some_iff.mp hid
    exact State.holds_of_mem (List.mem_of_getElem? hcard) hcardId
  have hholds : ∀ id, State.Holds { s with
      page := page
      deletes := Function.update s.deletes t
        (some ⟨s.page.modelCards[index]?.bind ModelCard._id, false⟩) } id → s.Holds id := by
    rintro id (hmem | hedit | hsave | ⟨t', served, hdelete⟩)
    · refine Or.inl (fun hnil => hmem ?_)
      show cardsOf id page.modelCards = []
      rw [hcardsOf, hnil, ite_self]
    · exact Or.inr (Or.inl (hedited ▸ hedit))
    · exact Or.inr (Or.inr (Or.inl hsave))
    · rcases update_eq_some hdelete with ⟨-, heq⟩ | ⟨-, hold⟩
      · exact hheld id (congrArg Deleting.id (Option.some.inj heq))
      · exact Or.inr (Or.inr (Or.inr ⟨t', served, hold⟩))
  refine ⟨fun id hid => ?_, fun id => ?_, h.placed, ?_, ?_,
    fun id hid => h.ids id (hid.imp_left (hholds id)), fun t' saving id hsaving hid => ?_, h.single,
    h.editing.of_subset hindex hedited fun id card hcard => ?_⟩
  · -- the model at the position is in flight from now on
    have hother : s.page.modelCards[index]?.bind ModelCard._id ≠ some id := by
      intro heq
      refine hid (Or.inr ⟨t, false, ?_⟩)
      rw [← heq]
      exact Function.update_self ..
    unfold Agrees
    rw [hcardsOf, if_neg hother]
    refine h.agree id (fun hflight => hid ?_)
    rcases hflight with hsave | ⟨t', served, hdelete⟩
    · exact Or.inl hsave
    · have ht : t' ≠ t := by
        rintro rfl
        cases hfree.symm.trans hdelete
      exact Or.inr ⟨t', served, (Function.update_of_ne ht ..).trans hdelete⟩
  · rw [hcardsOf]
    split
    · exact Nat.zero_le 1
    · exact h.unique id
  · intro t' saving card hsaving hnone hreply
    obtain ⟨row, hcard, hrow, hnot, honly⟩ := h.created t' saving card hsaving hnone hreply
    exact ⟨row, hcard, hrow, fun hid => hnot (hholds _ hid), honly⟩
  · -- and its card is off the page
    intro t' id served hdelete
    rw [hcardsOf]
    rcases update_eq_some hdelete with ⟨-, heq⟩ | ⟨-, hold⟩
    · obtain ⟨hid, rfl⟩ := Deleting.mk.inj (Option.some.inj heq)
      exact ⟨if_pos hid, fun hserved => absurd hserved Bool.false_ne_true⟩
    · obtain ⟨hnil, hserved⟩ := h.gone t' id served hold
      exact ⟨by rw [hnil, ite_self], hserved⟩
  · rw [hcardsOf]
    split
    · exact Or.inl rfl
    · exact h.edits t' saving id hsaving hid
  · rw [hcardsOf] at hcard
    split at hcard
    · cases hcard
    · exact hcard

/-- **The server has served a deletion.** -/
theorem Coherent.served (h : Coherent user s) {t : ℕ} {id₀ : Option Id}
    (hdelete : s.deletes t = some ⟨id₀, false⟩) {db : Database Id Data}
    (hfind : ∀ id, db.models.findById id
      = if id₀ = some id then none else s.db.models.findById id) :
    Coherent user { s with
      deletes := Function.update s.deletes t (some ⟨id₀, true⟩)
      db := db } := by
  have hheld : ∀ id, id₀ = some id → s.Holds id := by
    rintro id rfl
    exact Or.inr (Or.inr (Or.inr ⟨t, false, hdelete⟩))
  have hholds : ∀ id, State.Holds { s with
      deletes := Function.update s.deletes t (some ⟨id₀, true⟩), db := db } id → s.Holds id := by
    rintro id (hmem | hedit | hsave | ⟨t', served, hdelete'⟩)
    · exact Or.inl hmem
    · exact Or.inr (Or.inl hedit)
    · exact Or.inr (Or.inr (Or.inl hsave))
    · rcases update_eq_some hdelete' with ⟨-, heq⟩ | ⟨-, hold⟩
      · exact hheld id (congrArg Deleting.id (Option.some.inj heq))
      · exact Or.inr (Or.inr (Or.inr ⟨t', served, hold⟩))
  refine ⟨fun id hid => ?_, h.unique, h.placed, ?_, ?_, ?_, fun t' saving id hsaving hid => ?_,
    h.single, h.editing⟩
  · -- the deleted model is in flight, and every other one is as before
    have hother : id₀ ≠ some id := by
      rintro rfl
      exact hid (Or.inr ⟨t, true, Function.update_self ..⟩)
    have hagree : Agrees user s id := by
      refine h.agree id (fun hflight => hid ?_)
      rcases hflight with hsave | ⟨t', served, hdelete'⟩
      · exact Or.inl hsave
      · have ht : t' ≠ t := by
          rintro rfl
          exact hother (congrArg Deleting.id (Option.some.inj (hdelete.symm.trans hdelete')))
        exact Or.inr ⟨t', served, (Function.update_of_ne ht ..).trans hdelete'⟩
    unfold Agrees at hagree ⊢
    rw [userRow_congr ((hfind id).trans (if_neg hother))]
    exact hagree
  · -- a created model is not on the page, so it is not the deleted one
    intro t' saving card hsaving hnone hreply
    obtain ⟨row, hcard, hrow, hnot, honly⟩ := h.created t' saving card hsaving hnone hreply
    have hother : id₀ ≠ some row._id := fun heq => hnot (hheld _ heq)
    exact ⟨row, hcard, (userRow_congr ((hfind _).trans (if_neg hother))).trans hrow,
      fun hid => hnot (hholds _ hid), honly⟩
  · -- the deleted model is out of the database
    intro t' id served hdelete'
    rcases update_eq_some hdelete' with ⟨-, heq⟩ | ⟨-, hold⟩
    · obtain ⟨rfl, -⟩ := Deleting.mk.inj (Option.some.inj heq)
      exact ⟨(h.gone t id false hdelete).1, fun _ => (hfind id).trans (if_pos rfl)⟩
    · obtain ⟨hnil, hserved⟩ := h.gone t' id served hold
      refine ⟨hnil, fun hs => ?_⟩
      rw [hfind, hserved hs, ite_self]
  · intro id hid
    rcases hid with hheld' | hfound
    · exact h.ids id (Or.inl (hholds id hheld'))
    · refine h.ids id (Or.inr (fun hnone => hfound ?_))
      rw [hfind, hnone, ite_self]
  · -- a save that is still pending finds its model off the page
    by_cases hthis : id₀ = some id
    · exact Or.inl (h.gone t id false (hthis ▸ hdelete)).1
    · rw [userRow_congr ((hfind id).trans (if_neg hthis))]
      exact h.edits t' saving id hsaving hid

/-- **A deletion is over**: it was served, or there was no model to delete. -/
theorem Coherent.settled (h : Coherent user s) {t : ℕ} {id₀ : Option Id} {served₀ : Bool}
    (hdelete : s.deletes t = some ⟨id₀, served₀⟩) (hdone : ∀ id, id₀ = some id → served₀ = true) :
    Coherent user { s with deletes := Function.update s.deletes t none } := by
  have hdeletes : ∀ t' x, Function.update s.deletes t none t' = some x →
      s.deletes t' = some x := by
    intro t' x hx
    rcases update_eq_some hx with ⟨-, heq⟩ | ⟨-, hold⟩
    · cases heq
    · exact hold
  have hholds : ∀ id, State.Holds { s with deletes := Function.update s.deletes t none } id →
      s.Holds id := by
    rintro id (hmem | hedit | hsave | ⟨t', served, hdelete'⟩)
    · exact Or.inl hmem
    · exact Or.inr (Or.inl hedit)
    · exact Or.inr (Or.inr (Or.inl hsave))
    · exact Or.inr (Or.inr (Or.inr ⟨t', served, hdeletes t' _ hdelete'⟩))
  refine ⟨fun id hid => ?_, h.unique, h.placed, ?_,
    fun t' id served hdelete' => h.gone t' id served (hdeletes t' _ hdelete'),
    fun id hid => h.ids id (hid.imp_left (hholds id)), h.edits, h.single, h.editing⟩
  · by_cases hthis : id₀ = some id
    · -- the model is off the page and out of the database
      obtain ⟨hnil, hserved⟩ := h.gone t id served₀ (hthis ▸ hdelete)
      show (cardsOf id s.page.modelCards).map ModelCard.text = _
      unfold userRow
      rw [hnil, hserved (hdone id hthis)]
      rfl
    · refine h.agree id (fun hflight => hid ?_)
      rcases hflight with hsave | ⟨t', served, hdelete'⟩
      · exact Or.inl hsave
      · have ht : t' ≠ t := by
          rintro rfl
          exact hthis (congrArg Deleting.id (Option.some.inj (hdelete.symm.trans hdelete')))
        exact Or.inr ⟨t', served, (Function.update_of_ne ht ..).trans hdelete'⟩
  · intro t' saving card hsaving hnone hreply
    obtain ⟨row, hcard, hrow, hnot, honly⟩ := h.created t' saving card hsaving hnone hreply
    exact ⟨row, hcard, hrow, fun hid => hnot (hholds _ hid), honly⟩

end MyModels
