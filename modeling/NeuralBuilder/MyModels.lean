import Mathlib.Data.List.Infix
import NeuralBuilder.ExpressServer
import NeuralBuilder.Library.Runs

/-!
# The page with the list of models

The page keeps the whole list (`modelCards`) and the cards the search leaves
(`filteredModels`); the cards on the screen, and with them the positions that
the buttons pass to the handlers, are those of the second list. A handler
reads the state of the render it belongs to. Where it waits – for the reply of
a save, or for the two seconds of a warning – it goes on later with the list it
read before, and writes it back whole. The handler of a deletion does not wait
at all: the card is off the list before the request is on its way, and no code
looks at what becomes of it, so that a deletion that is refused or lost leaves
the model in the database without a card.

`toLowerCase` is the function of the language. What a step leaves out is the
colour of a card (`highlight`).
-/

namespace MyModels

open ExpressServer

/-! ## Cards -/

/-- A card of the list; a field is none when it is undefined. -/
structure ModelCard (Id : Type) where
  /-- The id of the model; a card that was added has none. -/
  _id : Option Id
  /-- The title. -/
  title : Option String
  /-- The description. -/
  description : Option String
  /-- How far the model has been brought. -/
  status : Option String
  deriving DecidableEq

variable {Id Data Token : Type}

/-- An object with none of the fields, such as the copy of an `AxiosError`. -/
def ModelCard.undefined : ModelCard Id := ⟨none, none, none, none⟩

/-- A row as the page receives it. -/
def ModelCard.ofRow (row : ModelDoc Id) : ModelCard Id :=
  ⟨some row._id, some row.title, row.description, some row.status⟩

/-- `updatedCases[index] = card`, on a copy of the list; past the end the
array grows. -/
def assign (cards : List (ModelCard Id)) (index : ℕ) (card : ModelCard Id) :
    List (ModelCard Id) :=
  if index < cards.length then cards.set index card
  else cards ++ List.replicate (index - cards.length) .undefined ++ [card]

theorem assign_of_lt {cards : List (ModelCard Id)} {index : ℕ} (h : index < cards.length)
    (card : ModelCard Id) : assign cards index card = cards.set index card :=
  if_pos h

/-! ## The search -/

section Search

variable (toLowerCase : String → String)

/-- `text.includes(query)`. -/
def includes (text query : String) : Bool :=
  query.toList <:+: text.toList

/-- Whether the search leaves a card; none when the title or the description
it reads is undefined, where reading `toLowerCase` of it throws. -/
def ModelCard.matches (searchQuery : String) (model : ModelCard Id) : Option Bool := do
  let title ← model.title
  if includes (toLowerCase title) (toLowerCase searchQuery) then
    return true
  else
    let description ← model.description
    return includes (toLowerCase description) (toLowerCase searchQuery)

/-- `modelCards.filter` under the search. -/
def filterModels (searchQuery : String) : List (ModelCard Id) → Option (List (ModelCard Id))
  | [] => some []
  | model :: models => do
    let keep ← model.matches toLowerCase searchQuery
    let filtered ← filterModels searchQuery models
    return if keep then model :: filtered else filtered

end Search

/-! ## The page -/

/-- The state of the component, once the models are loaded. -/
structure Page (Id : Type) where
  /-- All cards. -/
  modelCards : List (ModelCard Id)
  /-- Those on the screen. -/
  filteredModels : List (ModelCard Id)
  /-- The text of the search. -/
  searchQuery : String
  /-- The position on the screen that is in edit mode. -/
  editingIndex : Option ℕ
  /-- The card that its inputs show. -/
  editedCard : ModelCard Id
  /-- The position that asks for a confirmation. -/
  deleteConfirm : Option ℕ

/-- `{ title: "", description: "" }`. -/
def emptyCard : ModelCard Id := ⟨none, some "", some "", none⟩

/-- The page when `fetchModels` has returned. -/
def Page.loaded (cases : List (ModelCard Id)) : Page Id :=
  ⟨cases, [], "", none, emptyCard, none⟩

namespace Page

/-- **The effect on `[searchQuery, modelCards]`**; none when it throws, which
unmounts the page. -/
def filterEffect (toLowerCase : String → String) (page : Page Id) : Option (Page Id) := do
  let filtered ← filterModels toLowerCase page.searchQuery page.modelCards
  return { page with filteredModels := filtered }

/-- `notSavedWarning`: the list it sets, now and once more when its timer has
run out. -/
def notSavedWarning (page : Page Id) (index : ℕ) : List (ModelCard Id) :=
  assign page.modelCards index (page.modelCards[index]?.getD .undefined)

/-- `handleAddCase`, and the list for the timer if it warns. -/
def handleAddCase (page : Page Id) : Page Id × Option (List (ModelCard Id)) :=
  match page.editingIndex with
  | none =>
    let newCase : ModelCard Id :=
      ⟨none, some ("Model " ++ toString (page.modelCards.length + 1)), some "", some "draft"⟩
    let updatedCases := page.modelCards ++ [newCase]
    ({ page with
      modelCards := updatedCases
      filteredModels := updatedCases
      editingIndex := some (updatedCases.length - 1)
      editedCard := newCase }, none)
  | some editingIndex =>
    ({ page with modelCards := page.notSavedWarning editingIndex },
      some (page.notSavedWarning editingIndex))

/-- `handleDeleteModel`, and the id it calls `deleteModel` with, if it
does. -/
def handleDeleteModel (page : Page Id) (index : ℕ) : Page Id × Option (Option Id) :=
  let deletedModelId := page.modelCards[index]?.bind ModelCard._id
  let updatedCases := page.modelCards.eraseIdx index
  let page' := { page with
    modelCards := updatedCases
    filteredModels := updatedCases
    deleteConfirm := none }
  if page.editingIndex = some index then
    ({ page' with editingIndex := none, editedCard := emptyCard }, none)
  else (page', some deletedModelId)

/-- `handleEditClick`, and the list for the timer if it warns. -/
def handleEditClick (page : Page Id) (index : ℕ) : Page Id × Option (List (ModelCard Id)) :=
  match page.editingIndex with
  | none =>
    ({ page with
      editingIndex := some index
      editedCard := page.modelCards[index]?.getD .undefined }, none)
  | some editingIndex =>
    ({ page with modelCards := page.notSavedWarning editingIndex },
      some (page.notSavedWarning editingIndex))

/-- `handleCancelEdit`. -/
def handleCancelEdit (page : Page Id) : Page Id :=
  let page' :=
    match page.editedCard._id, page.editingIndex with
    | none, some editingIndex =>
      let updatedModels := page.modelCards.eraseIdx editingIndex
      { page with modelCards := updatedModels, filteredModels := updatedModels }
    | _, _ => page
  { page' with editingIndex := none, editedCard := emptyCard }

end Page

/-- **A call of `handleSaveClick` that waits for its reply**: what it has
read. -/
structure Saving (Id : Type) where
  /-- The position of the button. -/
  index : ℕ
  /-- The list when it was pressed. -/
  modelCards : List (ModelCard Id)
  /-- The card that is sent. -/
  editedCard : ModelCard Id
  /-- The card on the screen whose button was pressed. No code reads it. -/
  displayed : ModelCard Id
  /-- The reply, when it is there: none for one that is not a success, which
  `createModel` returns like a row and which `updateModel` throws. -/
  reply : Option (Option (ModelCard Id))

/-- The list that `handleSaveClick` sets after its `await`. -/
def Saving.updatedModels (saving : Saving Id) (reply : Option (ModelCard Id)) :
    List (ModelCard Id) :=
  match saving.editedCard._id with
  | none => assign saving.modelCards saving.index (reply.getD .undefined)
  | some _ => assign saving.modelCards saving.index saving.editedCard

/-- The rest of `handleSaveClick`. -/
def Page.saved (page : Page Id) (updatedModels : List (ModelCard Id)) : Page Id :=
  { page with
    filteredModels := updatedModels
    modelCards := updatedModels
    editingIndex := none }

/-! ## The effect -/

section Effect

variable {toLowerCase : String → String}

/-- A search that does not throw has read a title in every card. -/
theorem title_ne_none_of_filterModels {searchQuery : String}
    {models filtered : List (ModelCard Id)}
    (h : filterModels toLowerCase searchQuery models = some filtered) :
    ∀ model ∈ models, model.title ≠ none := by
  induction models generalizing filtered with
  | nil => exact fun model hmodel => absurd hmodel List.not_mem_nil
  | cons first models ih =>
    obtain ⟨keep, hkeep, hrest⟩ := Option.bind_eq_some_iff.mp h
    obtain ⟨rest, hrest, -⟩ := Option.bind_eq_some_iff.mp hrest
    intro model hmodel
    rcases List.mem_cons.mp hmodel with rfl | hmodel
    · intro hnone
      unfold ModelCard.matches at hkeep
      rw [hnone] at hkeep
      cases hkeep
    · exact ih hrest model hmodel

/-- The effect changes what is on the screen alone. -/
theorem Page.filterEffect_eq_some {page page' : Page Id}
    (h : page.filterEffect toLowerCase = some page') :
    ∃ filtered, filterModels toLowerCase page.searchQuery page.modelCards = some filtered
      ∧ page' = { page with filteredModels := filtered } := by
  obtain ⟨filtered, hfiltered, hpage⟩ := Option.bind_eq_some_iff.mp h
  exact ⟨filtered, hfiltered, (Option.some.inj hpage).symm⟩

/-- **A warning sets the list as it is**: where the position is past its end,
the effect throws. -/
theorem Page.notSavedWarning_eq (page : Page Id) {page' : Page Id} {index : ℕ}
    (h : ({ page with modelCards := page.notSavedWarning index } : Page Id).filterEffect
      toLowerCase = some page') : page.notSavedWarning index = page.modelCards := by
  obtain ⟨filtered, hfiltered, -⟩ := Page.filterEffect_eq_some h
  unfold Page.notSavedWarning at hfiltered ⊢
  by_cases hindex : index < page.modelCards.length
  · rw [assign_of_lt hindex, List.getElem?_eq_getElem hindex, Option.getD_some,
      List.set_getElem_self]
  · refine absurd rfl (title_ne_none_of_filterModels hfiltered .undefined ?_)
    rw [List.getElem?_eq_none (Nat.le_of_not_lt hindex), Option.getD_none, assign, if_neg hindex]
    exact List.mem_append_right _ List.mem_cons_self

/-! ## What the handlers leave once the effect has run -/

namespace Page

variable {page page' : Page Id} {index : ℕ}

/-- A warning leaves everything but what is filtered. -/
theorem notSavedWarning_cases (page : Page Id)
    (h : ({ page with modelCards := page.notSavedWarning index } : Page Id).filterEffect
      toLowerCase = some page') :
    page.notSavedWarning index = page.modelCards
      ∧ ∃ filtered, page' = { page with filteredModels := filtered } := by
  have hcards := notSavedWarning_eq page h
  rw [hcards] at h
  obtain ⟨filtered, -, rfl⟩ := filterEffect_eq_some h
  exact ⟨hcards, filtered, rfl⟩

theorem handleAddCase_cases (h : page.handleAddCase.1.filterEffect toLowerCase = some page') :
    ∃ filtered,
      (page.editingIndex = none ∧ page.handleAddCase.2 = none ∧ ∃ newCase : ModelCard Id,
        newCase._id = none ∧ page' = { page with
          modelCards := page.modelCards ++ [newCase]
          filteredModels := filtered
          editingIndex := some page.modelCards.length
          editedCard := newCase })
      ∨ (page.handleAddCase.2 = some page.modelCards
        ∧ page' = { page with filteredModels := filtered }) := by
  unfold handleAddCase at h ⊢
  cases hediting : page.editingIndex with
  | none =>
    rw [hediting] at h
    obtain ⟨filtered, -, rfl⟩ := filterEffect_eq_some h
    refine ⟨filtered, Or.inl ⟨rfl, rfl,
      ⟨none, some ("Model " ++ toString (page.modelCards.length + 1)), some "", some "draft"⟩,
      rfl, ?_⟩⟩
    dsimp only
    rw [List.length_append, List.length_singleton, Nat.add_sub_cancel]
  | some editingIndex =>
    rw [hediting] at h
    obtain ⟨hcards, filtered, hpage⟩ :=
      notSavedWarning_cases { page with editingIndex := some editingIndex } h
    exact ⟨filtered, Or.inr ⟨congrArg some hcards, hpage⟩⟩

theorem handleEditClick_cases
    (h : (page.handleEditClick index).1.filterEffect toLowerCase = some page') :
    ∃ filtered,
      (page.editingIndex = none ∧ (page.handleEditClick index).2 = none ∧ page' = { page with
        filteredModels := filtered
        editingIndex := some index
        editedCard := page.modelCards[index]?.getD .undefined })
      ∨ ((page.handleEditClick index).2 = some page.modelCards
        ∧ page' = { page with filteredModels := filtered }) := by
  unfold handleEditClick at h ⊢
  cases hediting : page.editingIndex with
  | none =>
    rw [hediting] at h
    obtain ⟨filtered, -, rfl⟩ := filterEffect_eq_some h
    exact ⟨filtered, Or.inl ⟨rfl, rfl, rfl⟩⟩
  | some editingIndex =>
    rw [hediting] at h
    obtain ⟨hcards, filtered, hpage⟩ :=
      notSavedWarning_cases { page with editingIndex := some editingIndex } h
    exact ⟨filtered, Or.inr ⟨congrArg some hcards, hpage⟩⟩

/-- Edit has taken a card with a title. -/
theorem title_of_handleEditClick (hediting : page.editingIndex = none)
    (h : (page.handleEditClick index).1.filterEffect toLowerCase = some page') :
    ∀ card ∈ page.modelCards, card.title ≠ none := by
  obtain ⟨filtered, hfiltered, -⟩ := filterEffect_eq_some h
  unfold handleEditClick at hfiltered
  rw [hediting] at hfiltered
  exact title_ne_none_of_filterModels hfiltered

theorem handleCancelEdit_cases (hediting : page.editingIndex = some index)
    (h : page.handleCancelEdit.filterEffect toLowerCase = some page') :
    ∃ cards filtered, page' = { page with
        modelCards := cards
        filteredModels := filtered
        editingIndex := none
        editedCard := emptyCard }
      ∧ ((page.editedCard._id = none ∧ cards = page.modelCards.eraseIdx index)
        ∨ (page.editedCard._id ≠ none ∧ cards = page.modelCards)) := by
  obtain ⟨filtered, -, rfl⟩ := filterEffect_eq_some h
  unfold handleCancelEdit
  rw [hediting]
  cases hid : page.editedCard._id with
  | none => exact ⟨_, filtered, rfl, Or.inl ⟨rfl, rfl⟩⟩
  | some id => exact ⟨_, filtered, rfl, Or.inr ⟨Option.some_ne_none id, rfl⟩⟩

theorem handleDeleteModel_eq (hediting : page.editingIndex ≠ some index)
    (h : (page.handleDeleteModel index).1.filterEffect toLowerCase = some page') :
    (page.handleDeleteModel index).2 = some (page.modelCards[index]?.bind ModelCard._id)
      ∧ ∃ filtered, page' = { page with
        modelCards := page.modelCards.eraseIdx index
        filteredModels := filtered
        deleteConfirm := none } := by
  obtain ⟨filtered, -, rfl⟩ := filterEffect_eq_some h
  unfold handleDeleteModel
  rw [if_neg hediting]
  exact ⟨rfl, filtered, rfl⟩

end Page

end Effect

/-! ## Requests -/

/-- A field of a JSON body: `JSON.stringify` leaves out what is undefined. -/
def field : Option String → ExpressServer.Field String
  | none => .absent
  | some text => .value text

/-- The request of a save: `createModel(editedCard)` or
`updateModel(editedCard._id, editedCard)`. -/
def Saving.request (token : Token) (newId : Id) (saving : Saving Id) : Request Token Id Data :=
  match saving.editedCard._id with
  | none => ⟨some token, .postModel (field saving.editedCard.title)
      (field saving.editedCard.description) (field saving.editedCard.status) newId⟩
  | some id => ⟨some token, .putModel (some id) (field saving.editedCard.title)
      (field saving.editedCard.description)⟩

/-- The request of `deleteModel`; `/models/undefined` does not cast to an
ObjectId. -/
def deleteRequest (token : Token) (id : Option Id) : Request Token Id Data :=
  ⟨some token, .deleteModel id⟩

/-- The data of a reply that axios resolves. -/
def replyCard : Operation Id Data ⊕ Reply Id Data → Option (ModelCard Id)
  | .inr ⟨_, .model row⟩ => some (.ofRow row)
  | _ => none

/-! ## Steps -/

/-- **A call of `deleteModel`** and whether the server has served it. -/
structure Deleting (Id : Type) where
  /-- The id it sends. -/
  id : Option Id
  /-- Whether the server has deleted the model. -/
  served : Bool

/-- **The page at work**: its state, what it waits for, and the database. -/
structure State (Id Data : Type) where
  /-- The state of the component. -/
  page : Page Id
  /-- The calls of `handleSaveClick` that wait. -/
  saves : ℕ → Option (Saving Id)
  /-- The calls of `deleteModel`, which nothing waits for. -/
  deletes : ℕ → Option (Deleting Id)
  /-- The lists that the timers of `notSavedWarning` will set. -/
  warnings : ℕ → Option (List (ModelCard Id))
  /-- The database. -/
  db : Database Id Data
  /-- The ObjectIds given out so far. -/
  ids : List Id
  /-- The card whose Delete button was pressed last. No code reads it. -/
  pressed : Option (ModelCard Id)

/-- What the user does, and what happens while a handler waits. The number `t`
is that of a call or timer, and a fresh one where it starts. -/
inductive Action (Id : Type)
  | search (query : String)
  | add (t : ℕ)
  | edit (index t : ℕ)
  | inputTitle (value : String)
  | inputDescription (value : String)
  | save (index t : ℕ)
  | cancel (index : ℕ)
  | delete (index : ℕ)
  | confirm (index t : ℕ)
  /-- The server serves the request of a save. -/
  | serveSave (t : ℕ) (newId : Id)
  /-- The request of a save, or its reply, is lost. -/
  | loseSave (t : ℕ)
  /-- The handler of a save goes on with the reply. -/
  | resume (t : ℕ)
  | serveDelete (t : ℕ)
  /-- The promise of `deleteModel` settles, and no code looks at it. -/
  | settleDelete (t : ℕ)
  /-- A deletion is refused or lost, and no code looks at that either. -/
  | loseDelete (t : ℕ)
  /-- The two seconds of a warning are over. -/
  | timeout (t : ℕ)

/-- Whether the card at a position of the screen shows Save and Cancel, or
Edit and Delete. -/
def Page.Shows (page : Page Id) (index : ℕ) (editing : Bool) : Prop :=
  index < page.filteredModels.length ∧ (page.editingIndex = some index ↔ editing = true)

theorem Page.Shows.editing {page : Page Id} {index : ℕ} (h : page.Shows index true) :
    page.editingIndex = some index :=
  h.2.mpr rfl

theorem Page.Shows.not_editing {page : Page Id} {index : ℕ} (h : page.Shows index false) :
    page.editingIndex ≠ some index :=
  fun hediting => Bool.false_ne_true (h.2.mp hediting)

/-- The list for the timer, if there is one. -/
def schedule (warnings : ℕ → Option (List (ModelCard Id))) (t : ℕ)
    (timer : Option (List (ModelCard Id))) : ℕ → Option (List (ModelCard Id)) :=
  match timer with
  | none => warnings
  | some cards => Function.update warnings t (some cards)

/-- The call of `deleteModel`, if there is one. -/
def call (deletes : ℕ → Option (Deleting Id)) (t : ℕ) (id : Option (Option Id)) :
    ℕ → Option (Deleting Id) :=
  match id with
  | none => deletes
  | some id => Function.update deletes t (some ⟨id, false⟩)

variable [DecidableEq Id]

/-- **One step.** A button is pressed only where the page shows it, and the
effect has run when the next step begins; where its dependencies have not
changed it would find what `filteredModels` holds already. The page's cookie
is `token`, and an ObjectId is generated once. -/
inductive Step (toLowerCase : String → String) (verify : Token → Option Id) (token : Token)
    (defData : Data) : State Id Data → Action Id → State Id Data → Prop
  | search {s query page} :
    ({ s.page with searchQuery := query } : Page Id).filterEffect toLowerCase = some page →
    Step toLowerCase verify token defData s (.search query) { s with page := page }
  | add {s t page} : s.warnings t = none →
    s.page.handleAddCase.1.filterEffect toLowerCase = some page →
    Step toLowerCase verify token defData s (.add t)
      { s with page := page, warnings := schedule s.warnings t s.page.handleAddCase.2 }
  | edit {s index t page} : s.page.Shows index false → s.warnings t = none →
    (s.page.handleEditClick index).1.filterEffect toLowerCase = some page →
    Step toLowerCase verify token defData s (.edit index t)
      { s with
        page := page
        warnings := schedule s.warnings t (s.page.handleEditClick index).2 }
  | inputTitle {s index value} : s.page.Shows index true →
    Step toLowerCase verify token defData s (.inputTitle value)
      { s with page.editedCard.title := some value }
  | inputDescription {s index value} : s.page.Shows index true →
    Step toLowerCase verify token defData s (.inputDescription value)
      { s with page.editedCard.description := some value }
  | save {s index t displayed} : s.page.Shows index true → s.saves t = none →
    s.page.filteredModels[index]? = some displayed →
    Step toLowerCase verify token defData s (.save index t)
      { s with
        saves := Function.update s.saves t
          (some ⟨index, s.page.modelCards, s.page.editedCard, displayed, none⟩) }
  | cancel {s index page} : s.page.Shows index true →
    s.page.handleCancelEdit.filterEffect toLowerCase = some page →
    Step toLowerCase verify token defData s (.cancel index) { s with page := page }
  | delete {s index} : s.page.Shows index false → s.page.deleteConfirm ≠ some index →
    Step toLowerCase verify token defData s (.delete index)
      { s with
        page.deleteConfirm := some index
        pressed := s.page.filteredModels[index]? }
  | confirm {s index t page} : s.page.Shows index false → s.page.deleteConfirm = some index →
    s.deletes t = none →
    (s.page.handleDeleteModel index).1.filterEffect toLowerCase = some page →
    Step toLowerCase verify token defData s (.confirm index t)
      { s with page := page, deletes := call s.deletes t (s.page.handleDeleteModel index).2 }
  | serveSave {s t saving newId db reply} : s.saves t = some saving → saving.reply = none →
    newId ∉ s.ids → serve verify defData s.db (saving.request token newId) = (db, reply) →
    Step toLowerCase verify token defData s (.serveSave t newId)
      { s with
        saves := Function.update s.saves t (some { saving with reply := some (replyCard reply) })
        db := db
        ids := newId :: s.ids }
  | loseSave {s t saving} : s.saves t = some saving →
    Step toLowerCase verify token defData s (.loseSave t)
      { s with saves := Function.update s.saves t (some { saving with reply := some none }) }
  | resume {s t saving reply page} : s.saves t = some saving → saving.reply = some reply →
    (s.page.saved (saving.updatedModels reply)).filterEffect toLowerCase = some page →
    Step toLowerCase verify token defData s (.resume t)
      { s with page := page, saves := Function.update s.saves t none }
  | serveDelete {s t id} : s.deletes t = some ⟨id, false⟩ →
    Step toLowerCase verify token defData s (.serveDelete t)
      { s with
        deletes := Function.update s.deletes t (some ⟨id, true⟩)
        db := (serve verify defData s.db (deleteRequest token id)).1 }
  | settleDelete {s t id} : s.deletes t = some ⟨id, true⟩ →
    Step toLowerCase verify token defData s (.settleDelete t)
      { s with deletes := Function.update s.deletes t none }
  | loseDelete {s t id} : s.deletes t = some ⟨id, false⟩ →
    Step toLowerCase verify token defData s (.loseDelete t)
      { s with deletes := Function.update s.deletes t none }
  | timeout {s t cards page} : s.warnings t = some cards →
    ({ s.page with modelCards := cards } : Page Id).filterEffect toLowerCase = some page →
    Step toLowerCase verify token defData s (.timeout t)
      { s with page := page, warnings := Function.update s.warnings t none }

/-- **The start**: the page has loaded what `GET /api/models` returns to the
user, and the database has no id that was not given out. -/
structure Start (toLowerCase : String → String) (user : Id) (s : State Id Data) : Prop where
  /-- The page shows the models of the user, and no button has been pressed. -/
  page :
    (Page.loaded ((s.db.models.docs.filter fun row => row.userId = user).map .ofRow)).filterEffect
      toLowerCase = some s.page
  /-- No save waits. -/
  saves : ∀ t, s.saves t = none
  /-- No deletion is on its way. -/
  deletes : ∀ t, s.deletes t = none
  /-- No timer runs. -/
  warnings : ∀ t, s.warnings t = none
  /-- The ids of the models were given out. -/
  ids : ∀ row ∈ s.db.models.docs, row._id ∈ s.ids
  /-- No Delete button was pressed. -/
  pressed : s.pressed = none

end MyModels
