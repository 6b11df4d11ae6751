import NeuralBuilder.ProcessPage

/-!
# Saving and loading a model

`handleSaveModel` sends the fields of the page to the document of the model,
and then its status, which it derives from two flags. Mounting the page again
reads the document. `restored_iff` says for which pages the way through the
document and back is the identity: the document has no place for `isTrained`
and for `learningRate`, and it turns the text of an input into a number.

The page after loading is computed from the database (`mount`), and the page
before is any page whose save succeeds, so that the condition is exact
(`restored_iff`): the page is not trained, since the document does not say so,
and its fields come back from the document, as `ModelInfo` has it. That a second
save changes nothing is part of what restoring means, and holds after every save
that succeeds.
-/

namespace ProcessPage

open ExpressServer

variable {α Id Token : Type} [Double α] [DecidableEq Id]

/-- **Fields that mounting the page again brings back**: fields that the
document of the model keeps as they are or, where there is no document, those
the page is mounted with. -/
def Fields.ComesBack (fields : Fields α) : Option (ModelInfo α) → Prop
  | some info => Storable fields info
  | none => fields = (Page.mounted true).toFields

namespace Setting

variable (E : Setting α Id Token)

/-- **A call of `handleSaveModel` that no other request comes between**: the
database it leaves, none when one of its requests fails. -/
def handleSaveModel (page : Page α) (db : Database Id (ModelInfo α)) :
    Option (Database Id (ModelInfo α)) :=
  let saved := E.serve db (E.saveModelInfo page.toFields)
  let updated := E.serve saved.1 (E.updateStatue page.isCompiled page.isTrained)
  if resolves saved.2 ∧ resolves updated.2 then some updated.1 else none

/-- The page when it has been mounted and the load effect has ended. -/
def mount (db : Database Id (ModelInfo α)) : Page α :=
  match (E.serve db E.fetchModelData).2 with
  | .inr ⟨200, .modelInfo (some info)⟩ => (Page.mounted true).loaded info.data
  | _ => { Page.mounted true with loading := false }

/-- The status of the model. -/
def status (db : Database Id (ModelInfo α)) : Option String :=
  (db.models.findById E.modelId).map ModelDoc.status

/-- **The page is restored** from the database that saving it has left: it is
mounted with the fields it had, and saving it again writes the same document
and the same status. -/
structure Restored (page : Page α) (db : Database Id (ModelInfo α)) : Prop where
  /-- The fields that are saved come back. -/
  fields : (E.mount db).toFields = page.toFields
  /-- So does the flag, which is read off the status. -/
  isTrained : (E.mount db).isTrained = page.isTrained
  /-- Saving once more changes nothing. -/
  again : ∃ db', E.handleSaveModel (E.mount db) db = some db' ∧ E.info db' = E.info db
    ∧ E.status db' = E.status db

variable {E} {page : Page α} {db db' : Database Id (ModelInfo α)}

/-- **What a save writes**: it succeeds when every field can be cast and the
user is logged in. -/
theorem handleSaveModel_eq_some_iff :
    E.handleSaveModel page db = some db' ↔ ∃ f user, page.toFields.set E.casts = some f
      ∧ E.token.bind E.verify = some user
      ∧ db' = (db.updateInfo E.modelId f).updateModel E.modelId
        (setStatus fun _ => statusOf page.isCompiled page.isTrained) fun _ => rfl := by
  unfold handleSaveModel
  cases hset : page.toFields.set E.casts with
  | none =>
    rw [E.serve_saveModelInfo_of_none db hset, if_neg fun h => Bool.false_ne_true h.1]
    exact iff_of_false (fun h => by cases h) fun ⟨f, user, hf, _⟩ => by cases hf
  | some f =>
    rw [E.serve_saveModelInfo db hset]
    dsimp only
    cases huser : E.token.bind E.verify with
    | none =>
      obtain ⟨reply, hserve, hreply⟩ := E.serve_updateStatue_of_none
        (db.updateInfo E.modelId f) huser page.isCompiled page.isTrained
      rw [hserve, if_neg fun h => Bool.false_ne_true (hreply.symm.trans h.2)]
      exact iff_of_false (fun h => by cases h) fun ⟨_, user, _, hu, _⟩ => by cases hu
    | some user =>
      rw [E.serve_updateStatue _ huser, if_pos ⟨rfl, rfl⟩]
      constructor
      · intro h
        exact ⟨f, user, rfl, rfl, (Option.some.inj h).symm⟩
      · rintro ⟨f', _, hf', _, rfl⟩
        obtain rfl := Option.some.inj hf'
        rfl

/-- What the page is mounted with. -/
theorem mount_eq (E : Setting α Id Token) (db : Database Id (ModelInfo α)) :
    E.mount db = match E.info db with
      | some info => (Page.mounted true).loaded info
      | none => { Page.mounted true with loading := false } := by
  unfold mount info
  rw [E.serve_fetchModelData]
  cases db.findInfo E.modelId <;> rfl

theorem isTrained_mount (E : Setting α Id Token) (db : Database Id (ModelInfo α)) :
    (E.mount db).isTrained = false := by
  rw [E.mount_eq]
  cases E.info db <;> rfl

/-- The status a save writes. -/
theorem status_of_handleSaveModel (h : E.handleSaveModel page db = some db') :
    E.status db' = (E.status db).map fun _ => statusOf page.isCompiled page.isTrained := by
  obtain ⟨f, user, -, -, rfl⟩ := handleSaveModel_eq_some_iff.mp h
  have hrow := (db.updateInfo E.modelId f).findById_updateModel E.modelId
    (setStatus fun _ => statusOf page.isCompiled page.isTrained) fun _ => rfl
  refine (congrArg (Option.map ModelDoc.status) hrow).trans ?_
  unfold status
  rw [Option.map_map, Option.map_map]
  rfl

theorem info_of_handleSaveModel {f : ModelInfo α → ModelInfo α}
    (hset : page.toFields.set E.casts = some f) (h : E.handleSaveModel page db = some db') :
    E.info db' = (E.info db).map f := by
  obtain ⟨f', user, hset', -, rfl⟩ := handleSaveModel_eq_some_iff.mp h
  obtain rfl := Option.some.inj (hset.symm.trans hset')
  exact E.info_updateInfo db f

/-- **The same fields and flags are saved to the same document and status.** -/
theorem handleSaveModel_again {page' : Page α} (h : E.handleSaveModel page db = some db')
    (hfields : page'.toFields = page.toFields) (htrained : page'.isTrained = page.isTrained) :
    ∃ db'', E.handleSaveModel page' db' = some db'' ∧ E.info db'' = E.info db'
      ∧ E.status db'' = E.status db' := by
  obtain ⟨f, user, hset, huser, -⟩ := handleSaveModel_eq_some_iff.mp h
  have hset' : page'.toFields.set E.casts = some f := hfields ▸ hset
  have hcompiled : page'.isCompiled = page.isCompiled := congrArg Fields.isCompiled hfields
  have hagain : E.handleSaveModel page' db' = some _ :=
    handleSaveModel_eq_some_iff.mpr ⟨f, user, hset', huser, rfl⟩
  refine ⟨_, hagain, ?_, ?_⟩
  · rw [info_of_handleSaveModel hset' hagain, info_of_handleSaveModel hset h, Option.map_map]
    exact congrArg (fun g => Option.map g _) (funext fun info => set_set hset info)
  · rw [status_of_handleSaveModel hagain, status_of_handleSaveModel h, Option.map_map, hcompiled,
      htrained]
    rfl

/-- **Saving and loading is the identity** for a page that is not trained and
whose fields come back, and for no other. The page is any one whose save
succeeds, on any database. -/
theorem restored_iff (h : E.handleSaveModel page db = some db') :
    E.Restored page db' ↔ page.isTrained = false ∧ page.toFields.ComesBack (E.info db) := by
  obtain ⟨f, user, hset, -, -⟩ := handleSaveModel_eq_some_iff.mp h
  have hfields : (E.mount db').toFields = page.toFields ↔ page.toFields.ComesBack (E.info db) := by
    rw [E.mount_eq, info_of_handleSaveModel hset h]
    cases E.info db with
    | some info => exact set_fields_iff hset info
    | none => exact eq_comm
  have htrained : (E.mount db').isTrained = page.isTrained ↔ page.isTrained = false := by
    rw [E.isTrained_mount]
    exact eq_comm
  rw [← hfields, ← htrained]
  constructor
  · exact fun hrestored => ⟨hrestored.isTrained, hrestored.fields⟩
  · exact fun ⟨htrained, hfields⟩ => ⟨hfields, htrained, handleSaveModel_again h hfields htrained⟩

/-- The page of a model that has just been created, saved as it is. -/
theorem created_restored : ∃ db', oneModelSetting.handleSaveModel
      (loadedState createDefaultModelInfo).page (oneModel createDefaultModelInfo) = some db'
    ∧ oneModelSetting.Restored (loadedState createDefaultModelInfo).page db' := by
  have hsave : oneModelSetting.handleSaveModel (loadedState createDefaultModelInfo).page
      (oneModel createDefaultModelInfo) = some _ := rfl
  refine ⟨_, hsave, (restored_iff hsave).mpr ⟨rfl, ?_, rfl, Option.some_ne_none _, rfl⟩⟩
  intro layer hlayer
  obtain rfl := List.mem_singleton.mp hlayer
  trivial

/-- **An edited learning rate comes back as another value**: it is saved as a
text and loaded as a number. -/
theorem editedRate_not_restored : ∃ (s₀ s : State Float ℕ) (as : List (Action Float))
    (db' : Database ℕ (ModelInfo Float)), Start oneModelSetting s₀
    ∧ Runs.Run (Step oneModelSetting) s₀ as s
    ∧ oneModelSetting.handleSaveModel s.page s.db = some db'
    ∧ s.page.layers.map Layer.lr = [.text "1"]
    ∧ (oneModelSetting.mount db').layers.map Layer.lr = [.number 1]
    ∧ ¬ oneModelSetting.Restored s.page db' := by
  have hedit : Step oneModelSetting (loadedState createDefaultModelInfo)
      (.saveLayer 0 [.lr "1"]) _ := .saveLayer rfl rfl
  refine ⟨_, _, _, _, mountedState_start createDefaultModelInfo,
    .cons (step_serveLoad _) (.cons (step_loaded _) (.single hedit)), rfl, rfl, rfl, fun h => ?_⟩
  cases congrArg (fun fields => fields.layers.map Layer.lr) h.fields

end Setting

end ProcessPage
