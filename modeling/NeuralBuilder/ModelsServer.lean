import NeuralBuilder.ExpressServer
import NeuralBuilder.Library.Linearizable

/-!
# The server under many requests

The routes under `/api/models` write two collections, one after the other, and a
request of another may see one write without the other. Of the collection
`models` alone there is nothing to see of that: its rows and all that is
answered about them are those of requests served alone, one after the other
(`simulation`). Each row belongs to the user who asked for it (`exists_owner`).

The documents of `modelInfo` are not part of that order: a save between the two
writes of a creation finds none, and no order of the two requests says the same.
What is answered depends on them in one route only, `GET /api/process/:modelId`
(`serve_infos`), and of the document that it answers with nothing is said.
-/

namespace ExpressServer

open Linearizable Runs

variable {Id Data Token : Type} [DecidableEq Id]

section
variable (verify : ℕ → Token → Option Id) (defData : Data)

/-- **The routes** under `/api/models` and `/api/process`. A request comes with
the second at which its token is verified. -/
def handler : Handler (Database Id Data) (ℕ × Request Token Id Data)
    (Operation Id Data ⊕ Reply Id Data) (Reply Id Data) where
  start req :=
    match entry (verify req.1) req.2 with
    | .ok op => .inl op
    | .error reply => .inr reply
  act db := Sum.elim (perform defData db) fun reply => (db, .inr reply)
  answer := Sum.getRight?

/-- A request served alone, on a database with these models and documents. -/
def ServedWith (infos : List (InfoDoc Id Data)) (models : Collection (@ModelDoc._id Id))
    (req : ℕ × Request Token Id Data) (models' : Collection (@ModelDoc._id Id))
    (reply : Reply Id Data) : Prop :=
  ∃ infos', serve (verify req.1) defData ⟨models, infos⟩ req.2 = (⟨models', infos'⟩, .inr reply)

/-- **A request served alone**, on a database with these models: with whatever
documents in `modelInfo`, unless it asks for one of them. -/
structure Alone (models : Collection (@ModelDoc._id Id)) (req : ℕ × Request Token Id Data)
    (models' : Collection (@ModelDoc._id Id)) (reply : Reply Id Data) : Prop where
  /-- With some documents the answer is this one. -/
  exists_infos : ∃ infos, ServedWith verify defData infos models req models' reply
  /-- Only `GET /api/process/:modelId` looks at them. -/
  forall_infos : (∀ modelId, req.2.route ≠ .getProcess modelId) →
    ∀ infos, ServedWith verify defData infos models req models' reply

/-- The operations before which a request has done nothing to the models. -/
inductive Before : ℕ × Request Token Id Data → Operation Id Data ⊕ Reply Id Data → Prop
  | first {req : ℕ × Request Token Id Data} {op : Operation Id Data}
    (h : entry (verify req.1) req.2 = .ok op) : Before req (.inl op)
  | deleteModelInfo {req : ℕ × Request Token Id Data} {id : Id}
    (h : entry (verify req.1) req.2 = .ok (.preFindOneAndDelete (some id))) :
    Before req (.inl (.deleteModelInfo id))
  | deleteModelById {req : ℕ × Request Token Id Data} {id : Id}
    (h : entry (verify req.1) req.2 = .ok (.preFindOneAndDelete (some id))) :
    Before req (.inl (.deleteModelById id))

/-- What is left when the answer is settled. -/
inductive After : Reply Id Data → Operation Id Data ⊕ Reply Id Data → Prop
  | created (row : ModelDoc Id) : After ⟨201, .model row⟩ (.inl (.createDefaultModelInfo row))
  | reply (reply : Reply Id Data) : After reply (.inr reply)

end

variable {verify : ℕ → Token → Option Id} {defData : Data} {req : ℕ × Request Token Id Data}
  {db db' : Database Id Data} {op : Operation Id Data} {reply : Reply Id Data}

omit [DecidableEq Id] in
theorem Operation.left_pos (op : Operation Id Data) : 0 < op.left := by
  cases op <;> exact Nat.succ_pos _

omit [DecidableEq Id] in
/-- No request begins with the deletion itself. -/
theorem entry_ne_deleteModelInfo {modelId : Id} {req : Request Token Id Data}
    {verify : Token → Option Id} : entry verify req ≠ .ok (.deleteModelInfo modelId) := by
  unfold entry
  split <;> cases (authenticateUser verify req.token : Except (Reply Id Data) Id) <;>
    simp [bind, Except.bind, pure, Except.pure]

/-- **What a request goes on with** after one of its operations. -/
theorem next_of_perform {op' : Operation Id Data} (h : perform defData db op = (db', .inl op')) :
    (∃ row, op' = .createDefaultModelInfo row) ∨ (∃ id, op' = .deleteModelInfo id)
      ∨ ∃ id, op' = .deleteModelById id := by
  cases op with
  | createModel title description status userId newId =>
    simp only [perform] at h
    split at h
    · split at h
      · cases h
        exact .inl ⟨_, rfl⟩
      · cases h
    · cases h
  | preFindOneAndDelete id =>
    simp only [perform] at h
    split at h
    · cases h
    · split at h
      · cases h
        exact .inr (.inl ⟨_, rfl⟩)
      · cases h
        exact .inr (.inr ⟨_, rfl⟩)
  | deleteModelInfo modelId =>
    cases h
    exact .inr (.inr ⟨_, rfl⟩)
  -- the others answer at once
  | _ => exact absurd op'.left_pos (Nat.not_lt.mpr (Nat.lt_succ_iff.mp (left_of_perform h)))

/-- **One operation alone looks at the documents of `modelInfo`.** -/
theorem perform_infos (defData : Data) (models : Collection (@ModelDoc._id Id))
    (infos infos' : List (InfoDoc Id Data)) (hop : ∀ modelId, op ≠ .getModelInfoByModelId modelId) :
    (perform defData ⟨models, infos⟩ op).1.models = (perform defData ⟨models, infos'⟩ op).1.models
      ∧ (perform defData ⟨models, infos⟩ op).2 = (perform defData ⟨models, infos'⟩ op).2 := by
  cases op with
  | createModel title description status userId newId =>
    simp only [perform, Database.createModel]
    split
    · next title description status _ _ _ =>
      cases models.insert ⟨newId, title, description, status, userId⟩ with
      | none => exact ⟨rfl, rfl⟩
      | some models' => exact ⟨rfl, rfl⟩
    · exact ⟨rfl, rfl⟩
  | updateModelById id title description =>
    simp only [perform, Database.updateModel]
    split
    · split <;> exact ⟨rfl, rfl⟩
    · exact ⟨rfl, rfl⟩
  | updateStatusById id status =>
    simp only [perform]
    split <;> exact ⟨rfl, rfl⟩
  | preFindOneAndDelete id =>
    simp only [perform]
    split
    · exact ⟨rfl, rfl⟩
    · split <;> exact ⟨rfl, rfl⟩
  | deleteModelById id =>
    simp only [perform]
    split <;> exact ⟨rfl, rfl⟩
  | getModelInfoByModelId modelId => exact absurd rfl (hop modelId)
  | updateModelInfoByModelId updatedData =>
    simp only [perform]
    split <;> exact ⟨rfl, rfl⟩
  | _ => exact ⟨rfl, rfl⟩

theorem finish_infos (defData : Data) (fuel : ℕ) (models : Collection (@ModelDoc._id Id))
    (infos infos' : List (InfoDoc Id Data)) (hop : ∀ modelId, op ≠ .getModelInfoByModelId modelId) :
    (finish defData fuel ⟨models, infos⟩ op).1.models
        = (finish defData fuel ⟨models, infos'⟩ op).1.models
      ∧ (finish defData fuel ⟨models, infos⟩ op).2
        = (finish defData fuel ⟨models, infos'⟩ op).2 := by
  induction fuel generalizing models infos infos' op with
  | zero => exact ⟨rfl, rfl⟩
  | succ fuel ih =>
    obtain ⟨hmodels, hnext⟩ := perform_infos defData models infos infos' hop
    simp only [finish]
    rcases hperform : perform defData ⟨models, infos⟩ op with ⟨⟨models₁, infos₁⟩, op' | reply⟩
    · rcases hperform' : perform defData ⟨models, infos'⟩ op with ⟨⟨models₂, infos₂⟩, op₂ | reply'⟩
      · rw [hperform, hperform'] at hmodels hnext
        obtain rfl : models₁ = models₂ := hmodels
        obtain rfl := Sum.inl.inj hnext
        refine ih models₁ infos₁ infos₂ fun modelId heq => ?_
        obtain ⟨row, h⟩ | ⟨id, h⟩ | ⟨id, h⟩ := next_of_perform hperform
          <;> rw [h] at heq <;> cases heq
      · rw [hperform, hperform'] at hnext
        cases hnext
    · rcases hperform' : perform defData ⟨models, infos'⟩ op with ⟨⟨models₂, infos₂⟩, op₂ | reply'⟩
      · rw [hperform, hperform'] at hnext
        cases hnext
      · rw [hperform, hperform'] at hmodels hnext
        exact ⟨hmodels, hnext⟩

/-- **What is answered about models does not depend on the documents of
`modelInfo`.** -/
theorem serve_infos (verify : Token → Option Id) (defData : Data)
    (models : Collection (@ModelDoc._id Id)) (infos infos' : List (InfoDoc Id Data))
    {req : Request Token Id Data} (hroute : ∀ modelId, req.route ≠ .getProcess modelId) :
    (serve verify defData ⟨models, infos⟩ req).1.models
        = (serve verify defData ⟨models, infos'⟩ req).1.models
      ∧ (serve verify defData ⟨models, infos⟩ req).2
        = (serve verify defData ⟨models, infos'⟩ req).2 := by
  unfold serve
  cases hentry : entry verify req with
  | error reply => exact ⟨rfl, rfl⟩
  | ok op =>
    refine finish_infos defData 3 models infos infos' fun modelId heq => ?_
    subst heq
    unfold entry at hentry
    split at hentry
    all_goals
      first
        | exact hroute _ ‹_›
        | (cases hauth : (authenticateUser verify req.token : Except (Reply Id Data) Id) <;>
            rw [hauth] at hentry <;> cases hentry)
        | cases hentry

/-- What is answered once is answered with all documents. -/
theorem alone_of_serve (h : serve (verify req.1) defData db req.2 = (db', .inr reply)) :
    Alone verify defData db.models req db'.models reply := by
  refine ⟨⟨db.infos, db'.infos, h⟩, fun hroute infos => ?_⟩
  obtain ⟨hmodels, hreply⟩ := serve_infos (verify req.1) defData db.models infos db.infos hroute
  rw [show (⟨db.models, db.infos⟩ : Database Id Data) = db from rfl, h] at hmodels hreply
  exact ⟨(serve (verify req.1) defData ⟨db.models, infos⟩ req.2).1.infos,
    Prod.ext (Database.ext hmodels rfl) hreply⟩

/-- An operation that answers the request. -/
theorem alone_of_perform (h : entry (verify req.1) req.2 = .ok op)
    (hperform : perform defData db op = (db', .inr reply)) :
    Alone verify defData db.models req db'.models reply := by
  refine alone_of_serve ?_
  rw [serve, h]
  show finish defData 3 db op = _
  rw [finish, hperform]

/-- A deletion served alone. -/
theorem alone_of_delete (defData : Data) (db : Database Id Data) {id : Id}
    (h : entry (verify req.1) req.2 = .ok (.preFindOneAndDelete (some id))) :
    ∃ reply, (perform defData db (.deleteModelById id)).2 = .inr reply
      ∧ Alone verify defData db.models req (perform defData db (.deleteModelById id)).1.models
        reply := by
  cases hfind : db.models.findById id with
  | none =>
    refine ⟨⟨404, .text "Model not found"⟩, by simp only [perform, hfind], ?_⟩
    have halone : Alone verify defData db.models req db.models ⟨404, .text "Model not found"⟩ := by
      refine alone_of_serve ?_
      rw [serve, h]
      simp only [finish, perform, hfind]
    simpa only [perform, hfind] using halone
  | some doc =>
    have hid := (Collection.findById_eq_some_iff.mp hfind).2
    refine ⟨⟨200, .deleted id⟩, by simp only [perform, hfind], ?_⟩
    have halone : Alone verify defData db.models req (db.deleteModel id).models
        ⟨200, .deleted id⟩ := by
      have hserve : serve (verify req.1) defData db req.2
          = ((db.deleteInfo id).deleteModel id, .inr ⟨200, .deleted id⟩) := by
        rw [serve, h]
        have hfind' : (db.deleteInfo id).models.findById id = some doc := hfind
        simp only [finish, perform, hfind, hid, hfind']
      have halone := alone_of_serve hserve
      exact halone
    simpa only [perform, hfind] using halone

/-- **A creation takes effect at its first write**, an update at its only one. -/
theorem act_first (h : entry (verify req.1) req.2 = .ok op) :
    ((perform defData db op).1.models = db.models ∧ Before verify req (perform defData db op).2)
      ∨ ∃ reply, Alone verify defData db.models req (perform defData db op).1.models reply
        ∧ After reply (perform defData db op).2 := by
  rcases hperform : perform defData db op with ⟨db', op' | reply⟩
  · cases op with
    | createModel title description status userId newId =>
      rw [perform] at hperform
      split at hperform
      · next title' description' status' _ _ _ =>
        dsimp only at hperform
        split at hperform
        · next db₁ hcreate =>
          obtain ⟨rfl, hop⟩ := Prod.mk.inj hperform
          obtain rfl := Sum.inl.inj hop
          have hserve : serve (verify req.1) defData db req.2
              = (db₁.createInfo newId defData,
                .inr ⟨201, .model ⟨newId, title', description', status', userId⟩⟩) := by
            rw [serve, h]
            simp only [finish, perform, *]
          have halone := alone_of_serve hserve
          exact .inr ⟨_, halone, .created _⟩
        · cases hperform
      · cases hperform
    | preFindOneAndDelete id =>
      cases id with
      | none => cases hperform
      | some id =>
        simp only [perform] at hperform
        split at hperform
        · next doc hfind =>
          obtain ⟨rfl, hop⟩ := Prod.mk.inj hperform
          obtain rfl := Sum.inl.inj hop
          rw [(Collection.findById_eq_some_iff.mp hfind).2]
          exact .inl ⟨rfl, .deleteModelInfo h⟩
        · obtain ⟨rfl, hop⟩ := Prod.mk.inj hperform
          obtain rfl := Sum.inl.inj hop
          exact .inl ⟨rfl, .deleteModelById h⟩
    | deleteModelInfo modelId => exact absurd h entry_ne_deleteModelInfo
    -- the others answer at once
    | _ =>
      exact absurd op'.left_pos (Nat.not_lt.mpr (Nat.lt_succ_iff.mp (left_of_perform hperform)))
  · exact .inr ⟨reply, alone_of_perform h hperform, .reply reply⟩

section
variable (verify : ℕ → Token → Option Id) (defData : Data)

/-- **Every request takes effect on the models at one of its operations**: a
creation at its first, a deletion at its last. -/
def simulation : Simulation (handler verify defData) Database.models (Alone verify defData) where
  before := Before verify
  after := After
  start req := by
    cases h : entry (verify req.1) req.2 with
    | ok op =>
      have hstart : (handler verify defData).start req = .inl op := by simp only [handler, h]
      rw [hstart]
      exact .inl (.first h)
    | error reply =>
      have hstart : (handler verify defData).start req = .inr reply := by simp only [handler, h]
      rw [hstart]
      refine .inr ⟨reply, fun models => ?_, .reply reply⟩
      have hserve : serve (verify req.1) defData ⟨models, []⟩ req.2
          = (⟨models, []⟩, .inr reply) := by
        rw [serve, h]
      exact alone_of_serve hserve
  act_before db req k h _ := by
    cases h with
    | first h => exact act_first h
    | deleteModelInfo h => exact .inl ⟨rfl, .deleteModelById h⟩
    | @deleteModelById id h =>
      obtain ⟨reply, hreply, halone⟩ := alone_of_delete defData db h
      refine .inr ⟨reply, halone, ?_⟩
      show After reply (perform defData db (.deleteModelById id)).2
      rw [hreply]
      exact .reply reply
  act_after db reply k h hk := by
    cases h with
    | created row => exact ⟨rfl, .reply _⟩
    | reply => cases hk
  answer_before req k h := by
    cases h <;> rfl
  answer_after reply reply' k h hk := by
    cases h with
    | created row => cases hk
    | reply => exact Option.some.inj hk

end

/-! ## Owners -/

/-- For whom an operation creates a model. -/
def Operation.owner : Operation Id Data → Option Id
  | createModel _ _ _ userId _ => some userId
  | _ => none

omit [DecidableEq Id] in
/-- A request creates models for its own user. -/
theorem owner_of_entry {verify : Token → Option Id} {req : Request Token Id Data} {user : Id}
    (h : entry verify req = .ok op) (howner : op.owner = some user) :
    req.user verify = some user := by
  unfold entry at h
  cases hauth : (authenticateUser verify req.token : Except (Reply Id Data) Id) with
  | error reply =>
    rw [hauth] at h
    split at h <;> cases h <;> cases howner
  | ok user' =>
    rw [hauth] at h
    split at h <;> cases h <;> cases howner
    exact authenticateUser_eq_ok_iff.mp hauth

/-- An update leaves every row with its owner. -/
theorem exists_of_update {models : Collection (@ModelDoc._id Id)} {id : Id}
    {f : ModelDoc Id → ModelDoc Id} {row : ModelDoc Id} (hf : ∀ row, (f row)._id = row._id)
    (howner : ∀ row, (f row).userId = row.userId) (h : row ∈ (models.update id f hf).docs) :
    ∃ row' ∈ models.docs, row'._id = row._id ∧ row'.userId = row.userId := by
  rw [Collection.docs_update] at h
  obtain ⟨row', hrow', rfl⟩ := List.mem_map.mp h
  refine ⟨row', hrow', ?_⟩
  split
  · exact ⟨(hf row').symm, (howner row').symm⟩
  · exact ⟨rfl, rfl⟩

/-- **An operation leaves every row with its owner**, or creates one for its own. -/
theorem owner_of_perform {row : ModelDoc Id} (h : row ∈ (perform defData db op).1.models.docs) :
    (∃ row' ∈ db.models.docs, row'._id = row._id ∧ row'.userId = row.userId)
      ∨ op.owner = some row.userId := by
  have hsame : row ∈ db.models.docs →
      ∃ row' ∈ db.models.docs, row'._id = row._id ∧ row'.userId = row.userId :=
    fun hrow => ⟨row, hrow, rfl, rfl⟩
  cases op with
  | createModel title description status userId newId =>
    simp only [perform] at h
    split at h
    · split at h
      · next db' hcreate =>
        obtain ⟨models, hinsert, rfl⟩ := Option.map_eq_some_iff.mp hcreate
        rw [(Collection.docs_of_insert hinsert).2, List.mem_append, List.mem_singleton] at h
        exact h.imp hsame fun hrow => by rw [hrow]; rfl
      · exact .inl (hsame h)
    · exact .inl (hsame h)
  | updateModelById id title description =>
    simp only [perform] at h
    split at h
    · split at h <;> exact .inl (exists_of_update (setTitle_id _ _) (setTitle_userId _ _) h)
    · exact .inl (hsame h)
  | updateStatusById id status =>
    simp only [perform] at h
    split at h
    · exact .inl (exists_of_update (setStatus_id _) (setStatus_userId _) h)
    · exact .inl (hsame h)
  | deleteModelById id =>
    simp only [perform] at h
    split at h
    · exact .inl (hsame (Collection.mem_remove.mp h).1)
    · exact .inl (hsame h)
  | preFindOneAndDelete id =>
    simp only [perform] at h
    split at h
    · exact .inl (hsame h)
    · split at h <;> exact .inl (hsame h)
  | getModelInfoByModelId modelId =>
    simp only [perform] at h
    split at h <;> exact .inl (hsame h)
  | updateModelInfoByModelId updatedData =>
    simp only [perform] at h
    split at h <;> exact .inl (hsame h)
  | _ => exact .inl (hsame h)

/-- Only the first operation of a request creates a row. -/
theorem owner_of_next {op' : Operation Id Data} (h : perform defData db op = (db', .inl op')) :
    op'.owner = none := by
  obtain ⟨row, rfl⟩ | ⟨id, rfl⟩ | ⟨id, rfl⟩ := next_of_perform h <;> rfl

theorem owner_of_finish (fuel : ℕ) {row : ModelDoc Id}
    (h : row ∈ (finish defData fuel db op).1.models.docs) :
    (∃ row' ∈ db.models.docs, row'._id = row._id ∧ row'.userId = row.userId)
      ∨ op.owner = some row.userId := by
  induction fuel generalizing db op with
  | zero => exact .inl ⟨row, h, rfl, rfl⟩
  | succ fuel ih =>
    rw [finish] at h
    rcases hperform : perform defData db op with ⟨db', op' | reply⟩
    · rw [hperform] at h
      obtain ⟨row', hrow', hid, howner⟩ | hnext := ih h
      · rw [← hid, ← howner]
        exact owner_of_perform (by rwa [hperform])
      · rw [owner_of_next hperform] at hnext
        cases hnext
    · rw [hperform] at h
      exact owner_of_perform (by rwa [hperform])

/-- What a request served alone does to the owners. -/
theorem owner_of_alone {models models' : Collection (@ModelDoc._id Id)} {row : ModelDoc Id}
    (h : Alone verify defData models req models' reply) (hrow : row ∈ models'.docs) :
    (∃ row' ∈ models.docs, row'._id = row._id ∧ row'.userId = row.userId)
      ∨ req.2.user (verify req.1) = some row.userId := by
  obtain ⟨infos, infos', hserve⟩ := h.exists_infos
  rw [serve] at hserve
  split at hserve
  · obtain ⟨hdb, -⟩ := Prod.mk.inj hserve
    obtain ⟨rfl, -⟩ := Database.mk.inj hdb
    exact .inl ⟨row, hrow, rfl, rfl⟩
  · next op hentry =>
    have hfinish : (finish defData 3 ⟨models, infos⟩ op).1.models = models' :=
      congrArg (fun result => result.1.models) hserve
    rw [← hfinish] at hrow
    exact (owner_of_finish 3 hrow).imp_right (owner_of_entry hentry)

/-- **Every row was there, or was created for the user of a request.** -/
theorem exists_owner {models models' : Collection (@ModelDoc._id Id)}
    {ds : List (Done (ℕ × Request Token Id Data) (Reply Id Data))}
    (h : Legal (Alone verify defData) models ds models') {row : ModelDoc Id}
    (hrow : row ∈ models'.docs) :
    (∃ row' ∈ models.docs, row'._id = row._id ∧ row'.userId = row.userId)
      ∨ ∃ d ∈ ds, d.request.2.user (verify d.request.1) = some row.userId := by
  induction ds generalizing models with
  | nil => exact .inl ⟨row, h ▸ hrow, rfl, rfl⟩
  | cons d ds ih =>
    obtain ⟨models₁, halone, hlegal⟩ := h
    obtain ⟨row', hrow', hid, howner⟩ | ⟨d', hd', huser⟩ := ih hlegal
    · rw [← hid, ← howner]
      exact (owner_of_alone halone hrow').imp_right fun huser => ⟨d, List.mem_cons_self, huser⟩
    · exact .inr ⟨d', List.mem_cons_of_mem d hd', huser⟩

end ExpressServer
