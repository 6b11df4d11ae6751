import Mathlib.Logic.Function.Basic
import Mathlib.Data.List.Count
import NeuralBuilder.ExpressServer
import NeuralBuilder.Library.Runs

/-!
# Models and their ModelInfo documents

A creation writes the model first and its `ModelInfo` document second; a
deletion removes them in the other order, the `ModelInfo` in a hook. Between
the two writes of one request the other requests go on, and when a write fails
the one before it stays. This module runs the requests operation by operation
and says which failures and which orders of operations leave a model without
its `ModelInfo`, or the other way round.

A run is a list of arrivals, of operations that succeed and of operations that
fail, in any order. `Server.Coherent` is what holds while requests are in
flight: what is missing is about to be written by some request, or about to go.
The condition on a run (`Careful`) is about its events alone, and when no
request is in flight the invariant is the pairing itself
(`paired_of_careful_run`).
-/

namespace ExpressServer

variable {Id Data Token : Type} [DecidableEq Id]

/-! ## How many of each -/

namespace Database

/-- The `ModelInfo` documents of a model, counted. -/
def infoCount (db : Database Id Data) (id : Id) : ℕ :=
  (db.infos.map InfoDoc.modelId).count id

/-- Whether a model has the id. -/
def HasModel (db : Database Id Data) (id : Id) : Prop :=
  db.models.findById id ≠ none

variable (db : Database Id Data) (id id' : Id)

@[simp]
theorem hasModel_updateModel {f : ModelDoc Id → ModelDoc Id}
    (hf : ∀ row, (f row)._id = row._id) :
    (db.updateModel id f hf).HasModel id' ↔ db.HasModel id' := by
  unfold HasModel updateModel
  rw [Collection.findById_update, ne_eq, Option.map_eq_none_iff]

theorem hasModel_createModel {db' : Database Id Data} {row : ModelDoc Id}
    (h : db.createModel row = some db') :
    ¬ db.HasModel row._id ∧ (∀ id, db'.HasModel id ↔ row._id = id ∨ db.HasModel id)
      ∧ ∀ id, db'.infoCount id = db.infoCount id := by
  obtain ⟨models, hinsert, rfl⟩ := Option.map_eq_some_iff.mp h
  refine ⟨fun hfound => hfound (Collection.docs_of_insert hinsert).1, fun id => ?_, fun _ => rfl⟩
  unfold HasModel
  rw [Collection.findById_insert hinsert]
  by_cases hid : row._id = id <;> simp [hid]

theorem hasModel_deleteModel : (db.deleteModel id).HasModel id' ↔ id' ≠ id ∧ db.HasModel id' := by
  unfold HasModel deleteModel
  rw [Collection.findById_remove]
  by_cases hid : id' = id <;> simp [hid]

@[simp]
theorem infoCount_createInfo (data : Data) :
    (db.createInfo id data).infoCount id' = db.infoCount id' + if id = id' then 1 else 0 := by
  unfold infoCount createInfo
  rw [List.map_append, List.count_append]
  simp [List.count_singleton]

@[simp]
theorem infoCount_updateInfo (set : Data → Data) :
    (db.updateInfo id set).infoCount id' = db.infoCount id' := by
  unfold infoCount
  rw [map_modelId_updateInfo]

@[simp]
theorem infoCount_deleteInfo :
    (db.deleteInfo id).infoCount id' = db.infoCount id' - if id = id' then 1 else 0 := by
  have hmap : (db.deleteInfo id).infos.map InfoDoc.modelId
      = (db.infos.map InfoDoc.modelId).erase id := by
    unfold deleteInfo
    induction db.infos with
    | nil => rfl
    | cons info infos ih =>
      by_cases hinfo : info.modelId = id
      · simp [hinfo]
      · simp [hinfo, ih]
  unfold infoCount
  rw [hmap, List.count_erase]
  by_cases hid : id = id' <;> simp [hid]

/-- **The pairing**: every model has exactly one `ModelInfo` document, and
every `ModelInfo` document a model. -/
structure Paired : Prop where
  /-- A model has one document, and not two. -/
  model : ∀ row ∈ db.models.docs, db.infoCount row._id = 1
  /-- No document is left of a model that is gone. -/
  info : ∀ info ∈ db.infos, ∃ row ∈ db.models.docs, row._id = info.modelId

end Database

/-! ## Requests in flight -/

/-- **The server at work**: the database, and for each request in flight the
operation it performs next. -/
structure Server (Id Data : Type) where
  /-- The database. -/
  db : Database Id Data
  /-- What each request is about to do, none for one that is not there. -/
  inFlight : ℕ → Option (Operation Id Data)

/-- What happens next: a request arrives, or the next operation of a request
in flight is performed or fails. -/
inductive Event (Token Id Data : Type)
  | request (t : ℕ) (req : Request Token Id Data)
  | operation (t : ℕ)
  | failure (t : ℕ)

/-- The id of the model an operation is in the course of creating. -/
def Operation.creates : Operation Id Data → Option Id
  | createModel _ _ _ _ newId => some newId
  | createDefaultModelInfo createdRow => some createdRow._id
  | _ => none

/-- An id that no document has and no request in flight is creating a model
under. -/
def Server.Fresh (s : Server Id Data) (id : Id) : Prop :=
  ¬ s.db.HasModel id ∧ s.db.infoCount id = 0
    ∧ ∀ t op, s.inFlight t = some op → op.creates ≠ some id

/-- What a request performs next, if it is not answered. -/
@[simp]
def continuation : Operation Id Data ⊕ Reply Id Data → Option (Operation Id Data)
  | .inl op => some op
  | .inr _ => none

/-- **One step.** The ObjectId generated for a creation is fresh. An operation
that fails leaves the database as it is, and its handler answers with an
error. -/
inductive Step (verify : Token → Option Id) (defData : Data) :
    Server Id Data → Event Token Id Data → Server Id Data → Prop
  | rejected {s t req reply} : entry verify req = .error reply →
    Step verify defData s (.request t req) s
  | request {s t req op} : s.inFlight t = none → entry verify req = .ok op →
    (∀ id, op.creates = some id → s.Fresh id) →
    Step verify defData s (.request t req)
      { s with inFlight := Function.update s.inFlight t (some op) }
  | operation {s t op} : s.inFlight t = some op →
    Step verify defData s (.operation t)
      { db := (perform defData s.db op).1,
        inFlight := Function.update s.inFlight t (continuation (perform defData s.db op).2) }
  | failure {s t op} : s.inFlight t = some op →
    Step verify defData s (.failure t) { s with inFlight := Function.update s.inFlight t none }

/-- A request in flight that has created the model and not its `ModelInfo`. -/
def Server.HalfCreated (s : Server Id Data) (id : Id) : Prop :=
  ∃ t row, s.inFlight t = some (.createDefaultModelInfo row) ∧ row._id = id

/-- **A careful step**: the second write of a creation does not fail, a model
goes only when its `ModelInfo` is gone and none is about to be written, and
the removal of a model whose `ModelInfo` is gone does not fail. -/
def Careful (s : Server Id Data) : Event Token Id Data → Prop
  | .request _ _ => True
  | .operation t => ∀ id, s.inFlight t = some (.deleteModelById id) → s.db.HasModel id →
    s.db.infoCount id = 0 ∧ ¬ s.HalfCreated id
  | .failure t => (∀ row, s.inFlight t ≠ some (.createDefaultModelInfo row))
    ∧ ∀ id, s.inFlight t = some (.deleteModelById id) → s.db.HasModel id →
      0 < s.db.infoCount id ∨ s.HalfCreated id

/-- A step that is careful. -/
def CarefulStep (verify : Token → Option Id) (defData : Data) (s : Server Id Data)
    (e : Event Token Id Data) (s' : Server Id Data) : Prop :=
  Careful s e ∧ Step verify defData s e s'

/-- No request is in flight. -/
def Server.Idle (s : Server Id Data) : Prop :=
  ∀ t, s.inFlight t = none

/-! ## The invariant -/

/-- **The pairing while requests are in flight**: what is missing is about to
be written, or about to go as well. -/
structure Server.Coherent (s : Server Id Data) : Prop where
  /-- A document has its model. -/
  info_model : ∀ id, 0 < s.db.infoCount id → s.db.HasModel id
  /-- No model has two. -/
  info_unique : ∀ id, s.db.infoCount id ≤ 1
  /-- A model without one has just been created, or is being deleted. -/
  model_info : ∀ id, s.db.HasModel id → 0 < s.db.infoCount id ∨ s.HalfCreated id
    ∨ ∃ t, s.inFlight t = some (.deleteModelById id)
  /-- A model that has just been created has no document yet. -/
  half_created : ∀ id, s.HalfCreated id → s.db.HasModel id ∧ s.db.infoCount id = 0
  /-- A model to be created is not there yet. -/
  creating : ∀ t title description status userId newId,
    s.inFlight t = some (.createModel title description status userId newId) →
      ¬ s.db.HasModel newId
  /-- Two requests create different models. -/
  creates_unique : ∀ t t' op op' id, s.inFlight t = some op → s.inFlight t' = some op' →
    op.creates = some id → op'.creates = some id → t = t'

/-! ## One request moves on -/

/-- The server after the request `t` has moved on to `next`. -/
def Server.moved (s : Server Id Data) (t : ℕ) (db : Database Id Data)
    (next : Option (Operation Id Data)) : Server Id Data :=
  { db := db, inFlight := Function.update s.inFlight t next }

variable {s : Server Id Data} {t : ℕ} {db : Database Id Data} {op : Operation Id Data}
  {next : Option (Operation Id Data)}

omit [DecidableEq Id] in
@[simp]
theorem db_moved : (s.moved t db next).db = db := rfl

omit [DecidableEq Id] in
theorem inFlight_moved_self : (s.moved t db next).inFlight t = next :=
  Function.update_self ..

omit [DecidableEq Id] in
theorem inFlight_moved_of_ne {t' : ℕ} (ht : t' ≠ t) :
    (s.moved t db next).inFlight t' = s.inFlight t' :=
  Function.update_of_ne ht _ _

omit [DecidableEq Id] in
theorem inFlight_moved {t' : ℕ} {op' : Operation Id Data}
    (h : (s.moved t db next).inFlight t' = some op') :
    (t' = t ∧ next = some op') ∨ (t' ≠ t ∧ s.inFlight t' = some op') := by
  by_cases ht : t' = t
  · rw [ht, inFlight_moved_self] at h
    exact Or.inl ⟨ht, h⟩
  · rw [inFlight_moved_of_ne ht] at h
    exact Or.inr ⟨ht, h⟩

omit [DecidableEq Id] in
theorem creates_unique_moved (hs : ∀ t t' op op' id, s.inFlight t = some op →
      s.inFlight t' = some op' → op.creates = some id → op'.creates = some id → t = t')
    (hnext : ∀ op' id, next = some op' → op'.creates = some id →
      ∀ t' op, s.inFlight t' = some op → op.creates = some id → t' = t) :
    ∀ t₁ t₂ op₁ op₂ id, (s.moved t db next).inFlight t₁ = some op₁ →
      (s.moved t db next).inFlight t₂ = some op₂ → op₁.creates = some id →
      op₂.creates = some id → t₁ = t₂ := by
  intro t₁ t₂ op₁ op₂ id h₁ h₂ hc₁ hc₂
  rcases inFlight_moved h₁ with ⟨rfl, hop₁⟩ | ⟨ht₁, hop₁⟩
  · rcases inFlight_moved h₂ with ⟨rfl, -⟩ | ⟨-, hop₂⟩
    · rfl
    · exact (hnext op₁ id hop₁ hc₁ t₂ op₂ hop₂ hc₂).symm
  · rcases inFlight_moved h₂ with ⟨rfl, hop₂⟩ | ⟨-, hop₂⟩
    · exact hnext op₂ id hop₂ hc₂ t₁ op₁ hop₁ hc₁
    · exact hs t₁ t₂ op₁ op₂ id hop₁ hop₂ hc₁ hc₂

omit [DecidableEq Id] in
/-- A request that was not, and is not now, half way through a creation. -/
theorem halfCreated_moved (hop : ∀ row, s.inFlight t ≠ some (.createDefaultModelInfo row))
    (hnext : ∀ row, next ≠ some (.createDefaultModelInfo row)) {id : Id} :
    (s.moved t db next).HalfCreated id ↔ s.HalfCreated id := by
  constructor
  · rintro ⟨t', row, hrow, hid⟩
    rcases inFlight_moved hrow with ⟨-, hnow⟩ | ⟨-, hold⟩
    · exact absurd hnow (hnext row)
    · exact ⟨t', row, hold, hid⟩
  · rintro ⟨t', row, hrow, hid⟩
    have ht : t' ≠ t := by
      rintro rfl
      exact hop row hrow
    exact ⟨t', row, (inFlight_moved_of_ne ht).trans hrow, hid⟩

/-- **A move that leaves both collections as they are**: the request neither
starts nor gives up the second half of a creation or of a deletion. -/
theorem Server.Coherent.moved_same (hs : s.Coherent)
    (hmodel : ∀ id, db.HasModel id ↔ s.db.HasModel id)
    (hinfo : ∀ id, db.infoCount id = s.db.infoCount id)
    (hop : ∀ row, s.inFlight t ≠ some (.createDefaultModelInfo row))
    (hdelete : ∀ id, s.inFlight t = some (.deleteModelById id) → s.db.HasModel id →
      0 < s.db.infoCount id ∨ s.HalfCreated id)
    (hnext : ∀ op', next = some op' → op'.creates = none) :
    (s.moved t db next).Coherent := by
  have hnextDefault : ∀ row, next ≠ some (.createDefaultModelInfo row) :=
    fun row h => Option.some_ne_none _ (hnext _ h)
  have hhalf : ∀ id, (s.moved t db next).HalfCreated id ↔ s.HalfCreated id :=
    fun id => halfCreated_moved hop hnextDefault
  refine ⟨?_, ?_, ?_, ?_, ?_, ?_⟩
  · intro id hcount
    rw [db_moved, hinfo] at hcount
    exact (hmodel id).mpr (hs.info_model id hcount)
  · intro id
    rw [db_moved, hinfo]
    exact hs.info_unique id
  · -- a model without a document is still half way through its creation or its deletion
    intro id hid
    rw [hhalf, db_moved, hinfo]
    rcases hs.model_info id ((hmodel id).mp hid) with hcount | hcreated | ⟨t', ht'⟩
    · exact Or.inl hcount
    · exact Or.inr (Or.inl hcreated)
    · by_cases ht : t' = t
      · subst ht
        exact (hdelete id ht' ((hmodel id).mp hid)).imp_right Or.inl
      · exact Or.inr (Or.inr ⟨t', (inFlight_moved_of_ne ht).trans ht'⟩)
  · intro id hid
    obtain ⟨hid', hcount⟩ := hs.half_created id ((hhalf id).mp hid)
    exact ⟨(hmodel id).mpr hid', (hinfo id).trans hcount⟩
  · -- a creation that is to write is another request than this one
    intro t' title description status userId newId hcreate
    rcases inFlight_moved hcreate with ⟨-, hnow⟩ | ⟨-, hold⟩
    · cases hnext _ hnow
    · rw [db_moved, hmodel]
      exact hs.creating t' title description status userId newId hold
  · refine creates_unique_moved hs.creates_unique (fun op' id hop' hcreates => ?_)
    rw [hnext op' hop'] at hcreates
    cases hcreates

/-- The operations that are no second write of a creation and do not end a
deletion. -/
def Operation.isAside : Operation Id Data → Bool
  | createDefaultModelInfo _ | deleteModelById _ => false
  | _ => true

omit [DecidableEq Id] in
theorem Operation.ne_of_isAside (h : op.isAside = true) :
    (∀ row, op ≠ .createDefaultModelInfo row) ∧ ∀ id, op ≠ .deleteModelById id := by
  constructor
  · rintro row rfl
    cases h
  · rintro id rfl
    cases h

/-- The first write of a creation. -/
theorem Server.Coherent.moved_createModel (hs : s.Coherent) {row : ModelDoc Id}
    (hop : s.inFlight t = some op) (hcreates : op.creates = some row._id)
    (haside : op.isAside = true) (hrow : s.db.createModel row = some db) :
    (s.moved t db (some (.createDefaultModelInfo row))).Coherent := by
  obtain ⟨hdefault, hdelete⟩ := Operation.ne_of_isAside haside
  obtain ⟨hnew, hmodel, hinfo⟩ := Database.hasModel_createModel s.db hrow
  have hhalf : ∀ id, s.HalfCreated id →
      (s.moved t db (some (.createDefaultModelInfo row))).HalfCreated id := by
    rintro id ⟨t', row', hrow', hid⟩
    have ht : t' ≠ t := by
      rintro rfl
      exact hdefault row' (Option.some.inj (hop.symm.trans hrow'))
    exact ⟨t', row', (inFlight_moved_of_ne ht).trans hrow', hid⟩
  refine ⟨?_, ?_, ?_, ?_, ?_, ?_⟩
  · intro id hcount
    rw [db_moved, hinfo] at hcount
    exact (hmodel id).mpr (Or.inr (hs.info_model id hcount))
  · intro id
    rw [db_moved, hinfo]
    exact hs.info_unique id
  · -- the new row has no document yet, and its request is the one that creates it
    intro id hid
    rcases (hmodel id).mp hid with rfl | hid
    · exact Or.inr (Or.inl ⟨t, row, inFlight_moved_self, rfl⟩)
    · rw [db_moved, hinfo]
      rcases hs.model_info id hid with hcount | hcreated | ⟨t', ht'⟩
      · exact Or.inl hcount
      · exact Or.inr (Or.inl (hhalf id hcreated))
      · have ht : t' ≠ t := by
          rintro rfl
          exact hdelete id (Option.some.inj (hop.symm.trans ht'))
        exact Or.inr (Or.inr ⟨t', (inFlight_moved_of_ne ht).trans ht'⟩)
  · -- an id that is new has no document, or it would have a model
    rintro id ⟨t', row', hrow', rfl⟩
    rw [db_moved, hmodel, hinfo]
    rcases inFlight_moved hrow' with ⟨-, hnow⟩ | ⟨-, hold⟩
    · cases hnow
      refine ⟨Or.inl rfl, Nat.eq_zero_of_not_pos (fun hcount => hnew ?_)⟩
      exact hs.info_model row._id hcount
    · exact (hs.half_created row'._id ⟨t', row', hold, rfl⟩).imp_left Or.inr
  · -- no other request creates the same id
    intro t' title description status userId newId hcreate
    rcases inFlight_moved hcreate with ⟨-, hnow⟩ | ⟨ht', hold⟩
    · cases hnow
    · rw [db_moved, hmodel]
      rintro (hid | hid)
      · exact ht'
          (hs.creates_unique t' t _ op newId hold hop rfl (hcreates.trans (congrArg some hid)))
      · exact hs.creating t' title description status userId newId hold hid
  · refine creates_unique_moved hs.creates_unique (fun op' id hop' hid t' op'' hop'' hid'' => ?_)
    cases hop'
    cases hid
    exact hs.creates_unique t' t op'' op row._id hop'' hop hid'' hcreates

/-- The second write of a creation. -/
theorem Server.Coherent.moved_createInfo (hs : s.Coherent) {row : ModelDoc Id} {data : Data}
    (hop : s.inFlight t = some (.createDefaultModelInfo row)) :
    (s.moved t (s.db.createInfo row._id data) none).Coherent := by
  obtain ⟨hrow, hcount⟩ := hs.half_created row._id ⟨t, row, hop, rfl⟩
  have hhalf : ∀ id, (s.moved t (s.db.createInfo row._id data) none).HalfCreated id →
      s.HalfCreated id ∧ row._id ≠ id := by
    rintro id ⟨t', row', hrow', rfl⟩
    rcases inFlight_moved hrow' with ⟨-, hnow⟩ | ⟨ht', hold⟩
    · cases hnow
    · refine ⟨⟨t', row', hold, rfl⟩, fun hid => ht' ?_⟩
      exact hs.creates_unique t' t _ _ row._id hold hop (congrArg some hid.symm) rfl
  refine ⟨?_, ?_, ?_, ?_, ?_, ?_⟩
  · -- the new document belongs to the row that the request has written
    intro id hid
    rw [db_moved, Database.infoCount_createInfo] at hid
    by_cases hrowId : row._id = id
    · exact hrowId ▸ hrow
    · rw [if_neg hrowId] at hid
      exact hs.info_model id hid
  · -- it is the only one, since the row had none
    intro id
    rw [db_moved, Database.infoCount_createInfo]
    by_cases hrowId : row._id = id
    · refine Nat.le_of_eq ?_
      rw [if_pos hrowId, ← hrowId, hcount]
    · rw [if_neg hrowId]
      exact hs.info_unique id
  · -- every other model is accounted for as before
    intro id hid
    rw [db_moved, Database.infoCount_createInfo]
    by_cases hrowId : row._id = id
    · rw [if_pos hrowId]
      exact Or.inl (Nat.succ_pos _)
    · rw [if_neg hrowId]
      rcases hs.model_info id hid with hcount | ⟨t', row', hrow', rfl⟩ | ⟨t', ht'⟩
      · exact Or.inl hcount
      · have ht : t' ≠ t := by
          rintro rfl
          cases hop.symm.trans hrow'
          exact hrowId rfl
        exact Or.inr (Or.inl ⟨t', row', (inFlight_moved_of_ne ht).trans hrow', rfl⟩)
      · have ht : t' ≠ t := by
          rintro rfl
          cases hop.symm.trans ht'
        exact Or.inr (Or.inr ⟨t', (inFlight_moved_of_ne ht).trans ht'⟩)
  · -- the creation of this row is over
    intro id hid
    obtain ⟨hold, hne⟩ := hhalf id hid
    rw [db_moved, Database.infoCount_createInfo, if_neg hne]
    exact hs.half_created id hold
  · intro t' title description status userId newId hcreate
    rcases inFlight_moved hcreate with ⟨-, hnow⟩ | ⟨-, hold⟩
    · cases hnow
    · exact hs.creating t' title description status userId newId hold
  · exact creates_unique_moved hs.creates_unique (fun op' id hop' => by cases hop')

/-- The hook's deletion: the model it is for goes next. -/
theorem Server.Coherent.moved_deleteInfo (hs : s.Coherent) {id : Id}
    (hop : s.inFlight t = some (.deleteModelInfo id)) :
    (s.moved t (s.db.deleteInfo id) (some (.deleteModelById id))).Coherent := by
  have hhalf : ∀ id', (s.moved t (s.db.deleteInfo id) (some (.deleteModelById id))).HalfCreated id'
      ↔ s.HalfCreated id' := by
    refine fun id' => halfCreated_moved ?_ ?_
    · intro row hrow
      cases hop.symm.trans hrow
    · intro row hrow
      cases hrow
  have hle : ∀ id', (s.db.deleteInfo id).infoCount id' ≤ s.db.infoCount id' := by
    intro id'
    rw [Database.infoCount_deleteInfo]
    exact Nat.sub_le _ _
  refine ⟨?_, ?_, ?_, ?_, ?_, ?_⟩
  · -- there are at most as many documents as before
    intro id' hid
    exact hs.info_model id' (Nat.lt_of_lt_of_le hid (hle id'))
  · intro id'
    exact Nat.le_trans (hle id') (hs.info_unique id')
  · -- the model has no document now, and its own removal is next
    intro id' hid
    rw [hhalf]
    by_cases hne : id = id'
    · exact Or.inr (Or.inr ⟨t, hne ▸ inFlight_moved_self⟩)
    rw [db_moved, Database.infoCount_deleteInfo, if_neg hne]
    rcases hs.model_info id' hid with hcount | hcreated | ⟨t', ht'⟩
    · exact Or.inl hcount
    · exact Or.inr (Or.inl hcreated)
    · have ht : t' ≠ t := by
        rintro rfl
        cases hop.symm.trans ht'
      exact Or.inr (Or.inr ⟨t', (inFlight_moved_of_ne ht).trans ht'⟩)
  · intro id' hid
    obtain ⟨hmodel, hcount⟩ := hs.half_created id' ((hhalf id').mp hid)
    exact ⟨hmodel, Nat.le_zero.mp (hcount ▸ hle id')⟩
  · intro t' title description status userId newId hcreate
    rcases inFlight_moved hcreate with ⟨-, hnow⟩ | ⟨-, hold⟩
    · cases hnow
    · exact hs.creating t' title description status userId newId hold
  · refine creates_unique_moved hs.creates_unique (fun op' id hop' hid => ?_)
    cases hop'
    cases hid

/-- The removal of a model whose `ModelInfo` is gone for good. -/
theorem Server.Coherent.moved_deleteModel (hs : s.Coherent) {id : Id}
    (hop : s.inFlight t = some (.deleteModelById id)) (hcount : s.db.infoCount id = 0)
    (hcreated : ¬ s.HalfCreated id) :
    (s.moved t (s.db.deleteModel id) none).Coherent := by
  have hhalf : ∀ id', (s.moved t (s.db.deleteModel id) none).HalfCreated id'
      ↔ s.HalfCreated id' := by
    refine fun id' => halfCreated_moved ?_ ?_
    · intro row hrow
      cases hop.symm.trans hrow
    · intro row hrow
      cases hrow
  refine ⟨?_, hs.info_unique, ?_, ?_, ?_, ?_⟩
  · -- the model that goes has no document
    intro id' hid
    refine (Database.hasModel_deleteModel s.db id id').mpr ⟨?_, hs.info_model id' hid⟩
    rintro rfl
    exact Nat.lt_irrefl 0 (hcount ▸ hid)
  · intro id' hid
    obtain ⟨hne, hid⟩ := (Database.hasModel_deleteModel s.db id id').mp hid
    rw [hhalf]
    rcases hs.model_info id' hid with hcount | hcreated | ⟨t', ht'⟩
    · exact Or.inl hcount
    · exact Or.inr (Or.inl hcreated)
    · have ht : t' ≠ t := by
        rintro rfl
        cases hop.symm.trans ht'
        exact hne rfl
      exact Or.inr (Or.inr ⟨t', (inFlight_moved_of_ne ht).trans ht'⟩)
  · -- nor is it half way through its creation
    intro id' hid
    have hold := (hhalf id').mp hid
    obtain ⟨hmodel, hcount'⟩ := hs.half_created id' hold
    refine ⟨(Database.hasModel_deleteModel s.db id id').mpr ⟨?_, hmodel⟩, hcount'⟩
    rintro rfl
    exact hcreated hold
  · intro t' title description status userId newId hcreate hmodel
    rcases inFlight_moved hcreate with ⟨-, hnow⟩ | ⟨-, hold⟩
    · cases hnow
    · exact hs.creating t' title description status userId newId hold
        ((Database.hasModel_deleteModel s.db id newId).mp hmodel).2
  · exact creates_unique_moved hs.creates_unique (fun op' id hop' => by cases hop')

/-- The arrival of a request. -/
theorem Server.Coherent.moved_request (hs : s.Coherent) (hfree : s.inFlight t = none)
    (hdefault : ∀ row, op ≠ .createDefaultModelInfo row)
    (hfresh : ∀ id, op.creates = some id → s.Fresh id) :
    (s.moved t s.db (some op)).Coherent := by
  have hhalf : ∀ id, (s.moved t s.db (some op)).HalfCreated id ↔ s.HalfCreated id := by
    refine fun id => halfCreated_moved ?_ ?_
    · intro row hrow
      cases hfree.symm.trans hrow
    · intro row hrow
      exact hdefault row (Option.some.inj hrow)
  refine ⟨hs.info_model, hs.info_unique, ?_, ?_, ?_, ?_⟩
  · intro id hid
    rw [hhalf]
    refine (hs.model_info id hid).imp_right (Or.imp_right ?_)
    rintro ⟨t', ht'⟩
    have ht : t' ≠ t := by
      rintro rfl
      cases hfree.symm.trans ht'
    exact ⟨t', (inFlight_moved_of_ne ht).trans ht'⟩
  · intro id hid
    exact hs.half_created id ((hhalf id).mp hid)
  · -- the id of a creation is that of no model
    intro t' title description status userId newId hcreate
    rcases inFlight_moved hcreate with ⟨-, hnow⟩ | ⟨-, hold⟩
    · cases hnow
      exact (hfresh newId rfl).1
    · exact hs.creating t' title description status userId newId hold
  · -- and no other request creates it
    refine creates_unique_moved hs.creates_unique
      (fun op' id hop' hid t' op'' hop'' hid'' => ?_)
    cases hop'
    exact absurd hid'' ((hfresh id hid).2.2 t' op'' hop'')

/-! ## Steps and runs -/

omit [DecidableEq Id] in
theorem entry_ne_createDefaultModelInfo {verify : Token → Option Id}
    {req : Request Token Id Data} (h : entry verify req = .ok op) (row : ModelDoc Id) :
    op ≠ .createDefaultModelInfo row := by
  rintro rfl
  obtain ⟨token, route⟩ := req
  cases route with
  | getProcess | postProcess => cases h
  | _ =>
    cases hauth : (authenticateUser verify token : Except (Reply Id Data) Id) with
    | error reply => simp [entry, hauth, bind, Except.bind] at h
    | ok user =>
      simp only [entry, hauth, bind, Except.bind] at h
      cases h

/-- An operation that is no part of a creation or of a deletion's end, and
after which the request creates nothing. -/
theorem Server.Coherent.moved_aside (hs : s.Coherent) (hop : s.inFlight t = some op)
    (haside : op.isAside = true) (hmodel : ∀ id, db.HasModel id ↔ s.db.HasModel id)
    (hinfo : ∀ id, db.infoCount id = s.db.infoCount id)
    (hnext : ∀ op', next = some op' → op'.creates = none) :
    (s.moved t db next).Coherent := by
  obtain ⟨hdefault, hdelete⟩ := Operation.ne_of_isAside haside
  refine hs.moved_same hmodel hinfo ?_ ?_ hnext
  · intro row hrow
    exact hdefault row (Option.some.inj (hop.symm.trans hrow))
  · intro id hid
    exact absurd (Option.some.inj (hop.symm.trans hid)) (hdelete id)

/-- The same at the end of a request. -/
theorem Server.Coherent.moved_last (hs : s.Coherent) (hop : s.inFlight t = some op)
    (haside : op.isAside = true) (hmodel : ∀ id, db.HasModel id ↔ s.db.HasModel id)
    (hinfo : ∀ id, db.infoCount id = s.db.infoCount id) : (s.moved t db none).Coherent :=
  hs.moved_aside hop haside hmodel hinfo (fun op' hop' => by cases hop')

/-- A request that ends and writes nothing. -/
theorem Server.Coherent.moved_unchanged (hs : s.Coherent) (hop : s.inFlight t = some op)
    (haside : op.isAside = true) : (s.moved t s.db none).Coherent :=
  hs.moved_last hop haside (fun _ => Iff.rfl) (fun _ => rfl)

/-- `createModel` writes a row where every field it needs is there and the id
is new, and nothing otherwise. -/
theorem Server.Coherent.operation_createModel (hs : s.Coherent) (defData : Data)
    {title description status : Field String} {userId newId : Id}
    (hop : s.inFlight t = some (.createModel title description status userId newId)) :
    (s.moved t (perform defData s.db (.createModel title description status userId newId)).1
      (continuation (perform defData s.db
        (.createModel title description status userId newId)).2)).Coherent := by
  have hsame : (s.moved t s.db none).Coherent := hs.moved_unchanged hop rfl
  cases htitle : title.required with
  | none => simpa [perform, htitle] using hsame
  | some title' =>
    cases hdescription : description.optional with
    | none => simpa [perform, htitle, hdescription] using hsame
    | some description' =>
      cases hstatus : status.required with
      | none => simpa [perform, htitle, hdescription, hstatus] using hsame
      | some status' =>
        cases hrow : s.db.createModel ⟨newId, title', description', status', userId⟩ with
        | none => simpa [perform, htitle, hdescription, hstatus, hrow] using hsame
        | some db' =>
          have hmoved := hs.moved_createModel hop rfl rfl hrow
          simpa [perform, htitle, hdescription, hstatus, hrow] using hmoved

/-- `updateModelById` keeps the id of the row it writes. -/
theorem Server.Coherent.operation_updateModelById (hs : s.Coherent) (defData : Data)
    {id : Option Id} {title description : Field String}
    (hop : s.inFlight t = some (.updateModelById id title description)) :
    (s.moved t (perform defData s.db (.updateModelById id title description)).1
      (continuation (perform defData s.db
        (.updateModelById id title description)).2)).Coherent := by
  have hsame : (s.moved t s.db none).Coherent := hs.moved_unchanged hop rfl
  cases id with
  | none => exact hsame
  | some id =>
    cases htitle : title.setRequired with
    | none => simpa [perform, htitle] using hsame
    | some title' =>
      cases hdescription : description.setOptional with
      | none => simpa [perform, htitle, hdescription] using hsame
      | some description' =>
        have hmoved : (s.moved t
            (s.db.updateModel id (setTitle title' description') (fun _ => rfl)) none).Coherent :=
          hs.moved_last hop rfl (fun id' => s.db.hasModel_updateModel id id' _) (fun _ => rfl)
        simp only [perform, htitle, hdescription]
        cases Collection.findById _ id with
        | none => exact hmoved
        | some row => exact hmoved

/-- `deleteModelById` takes the row out, which by then has no document. -/
theorem Server.Coherent.operation_deleteModelById (hs : s.Coherent) (defData : Data) {id : Id}
    (hop : s.inFlight t = some (.deleteModelById id))
    (hcareful : s.db.HasModel id → s.db.infoCount id = 0 ∧ ¬ s.HalfCreated id) :
    (s.moved t (perform defData s.db (.deleteModelById id)).1
      (continuation (perform defData s.db (.deleteModelById id)).2)).Coherent := by
  simp only [perform]
  cases hfind : s.db.models.findById id with
  | none =>
    -- a second deletion of the same model finds no row
    refine hs.moved_same (fun _ => Iff.rfl) (fun _ => rfl) ?_ ?_ (fun op' hop' => by cases hop')
    · intro row hrow
      cases hop.symm.trans hrow
    · intro id' hid hmodel
      cases hop.symm.trans hid
      exact absurd hfind hmodel
  | some row =>
    have hmodel : s.db.HasModel id := fun hnone => by
      rw [hfind] at hnone
      cases hnone
    obtain ⟨hcount, hcreated⟩ := hcareful hmodel
    exact hs.moved_deleteModel hop hcount hcreated

/-- **A careful operation keeps the pairing.** -/
theorem Server.Coherent.operation (hs : s.Coherent) (defData : Data)
    (hop : s.inFlight t = some op)
    (hcareful : ∀ id, op = .deleteModelById id → s.db.HasModel id →
      s.db.infoCount id = 0 ∧ ¬ s.HalfCreated id) :
    (s.moved t (perform defData s.db op).1
      (continuation (perform defData s.db op).2)).Coherent := by
  cases op with
  | getAllModelsByUserId userId => exact hs.moved_unchanged hop rfl
  | createModel title description status userId newId =>
    exact hs.operation_createModel defData hop
  | createDefaultModelInfo createdRow => exact hs.moved_createInfo hop
  | updateModelById id title description => exact hs.operation_updateModelById defData hop
  | updateStatusById id status =>
    cases id with
    | none => exact hs.moved_unchanged hop rfl
    | some id =>
      cases hstatus : status.setRequired with
      | none => simpa [perform, hstatus] using hs.moved_unchanged hop rfl
      | some status' =>
        simp only [perform, hstatus]
        exact hs.moved_last hop rfl (fun id' => s.db.hasModel_updateModel id id' _) (fun _ => rfl)
  | preFindOneAndDelete id =>
    cases id with
    | none => exact hs.moved_unchanged hop rfl
    | some id =>
      have hnext : ∀ op', op'.creates = none → (s.moved t s.db (some op')).Coherent :=
        fun op' hcreates => hs.moved_aside hop rfl (fun _ => Iff.rfl) (fun _ => rfl)
          (fun op'' hop'' => by cases hop''; exact hcreates)
      simp only [perform]
      cases s.db.models.findById id with
      | none => exact hnext _ rfl
      | some doc => exact hnext _ rfl
  | deleteModelInfo modelId => exact hs.moved_deleteInfo hop
  | deleteModelById id => exact hs.operation_deleteModelById defData hop (hcareful id rfl)
  | getModelInfoByModelId modelId => cases modelId <;> exact hs.moved_unchanged hop rfl
  | updateModelInfoByModelId updatedData =>
    obtain ⟨modelId, set⟩ := updatedData
    cases modelId with
    | value modelId =>
      cases set with
      | none => exact hs.moved_unchanged hop rfl
      | some set =>
        have hmoved : (s.moved t (s.db.updateInfo modelId set) none).Coherent :=
          hs.moved_last hop rfl (fun _ => Iff.rfl)
            (fun id' => s.db.infoCount_updateInfo modelId id' set)
        exact hmoved
    | absent => cases set <;> exact hs.moved_unchanged hop rfl
    | null | uncastable => exact hs.moved_unchanged hop rfl

theorem coherent_of_carefulStep {verify : Token → Option Id} {defData : Data}
    {s s' : Server Id Data} {e : Event Token Id Data} (hs : s.Coherent)
    (h : CarefulStep verify defData s e s') : s'.Coherent := by
  obtain ⟨hcareful, hstep⟩ := h
  cases hstep with
  | rejected _ => exact hs
  | request hfree hentry hfresh =>
    exact hs.moved_request hfree (entry_ne_createDefaultModelInfo hentry) hfresh
  | operation hop =>
    refine hs.operation defData hop ?_
    rintro id rfl hid
    exact hcareful id hop hid
  | failure hop =>
    exact hs.moved_same (fun _ => Iff.rfl) (fun _ => rfl) hcareful.1 hcareful.2
      (fun op' hop' => by cases hop')

/-- With no request in flight the pairing is complete. -/
theorem Server.Coherent.paired (hs : s.Coherent) (hidle : s.Idle) : s.db.Paired := by
  constructor
  · intro row hrow
    have hmodel : s.db.HasModel row._id := by
      unfold Database.HasModel
      rw [Collection.findById_of_mem hrow]
      exact Option.some_ne_none row
    refine Nat.le_antisymm (hs.info_unique row._id) ?_
    rcases hs.model_info row._id hmodel with hcount | ⟨t, _, ht, -⟩ | ⟨t, ht⟩
    · exact hcount
    · cases (hidle t).symm.trans ht
    · cases (hidle t).symm.trans ht
  · intro info hinfo
    have hcount : 0 < s.db.infoCount info.modelId :=
      List.count_pos_iff.mpr (List.mem_map_of_mem hinfo)
    obtain ⟨row, hrow⟩ := Option.ne_none_iff_exists'.mp (hs.info_model info.modelId hcount)
    exact ⟨row, Collection.findById_eq_some_iff.mp hrow⟩

theorem coherent_of_paired (hidle : s.Idle) (hpaired : s.db.Paired) : s.Coherent := by
  have hnone : ∀ t op, s.inFlight t ≠ some op := by
    intro t op hop
    cases (hidle t).symm.trans hop
  have hcount : ∀ id, s.db.HasModel id → s.db.infoCount id = 1 := by
    intro id hid
    obtain ⟨row, hrow⟩ := Option.ne_none_iff_exists'.mp hid
    obtain ⟨hmem, rfl⟩ := Collection.findById_eq_some_iff.mp hrow
    exact hpaired.model row hmem
  have hmodel : ∀ id, 0 < s.db.infoCount id → s.db.HasModel id := by
    intro id hid
    obtain ⟨info, hinfo, rfl⟩ := List.mem_map.mp (List.count_pos_iff.mp hid)
    obtain ⟨row, hrow, hrowId⟩ := hpaired.info info hinfo
    rw [Database.HasModel, ← hrowId, Collection.findById_of_mem hrow]
    exact Option.some_ne_none row
  refine ⟨hmodel, ?_, ?_, ?_, ?_, ?_⟩
  · intro id
    rcases Nat.eq_zero_or_pos (s.db.infoCount id) with hzero | hpos
    · exact hzero ▸ Nat.zero_le 1
    · exact Nat.le_of_eq (hcount id (hmodel id hpos))
  · intro id hid
    exact Or.inl (Nat.lt_of_lt_of_eq Nat.one_pos (hcount id hid).symm)
  · rintro id ⟨t, row, ht, -⟩
    exact absurd ht (hnone t _)
  · intro t title description status userId newId ht
    exact absurd ht (hnone t _)
  · intro t t' op op' id ht
    exact absurd ht (hnone t _)

/-- **Careful runs keep models and ModelInfo documents paired.** From a server
with no request in flight and every model paired, any careful run, with its
requests interleaved in any way, leads to such a server whenever no request is
in flight again. -/
theorem paired_of_careful_run (verify : Token → Option Id) (defData : Data)
    {s s' : Server Id Data} {events : List (Event Token Id Data)}
    (hidle : s.Idle) (hpaired : s.db.Paired)
    (hrun : Runs.Run (CarefulStep verify defData) s events s') (hidle' : s'.Idle) :
    s'.db.Paired := by
  refine Server.Coherent.paired (hrun.invariant ?_ (coherent_of_paired hidle hpaired)) hidle'
  intro s e s' hs hstep
  exact coherent_of_carefulStep hs hstep

/-- A server without documents and without requests. -/
def emptyServer : Server ℕ ℕ where
  db := ⟨Collection.empty, []⟩
  inFlight := fun _ => none

/-- User 1 creates a model. -/
def createXor : Request ℕ ℕ ℕ :=
  ⟨some 1, .postModel (.value "xor") .absent (.value "draft") 0⟩

theorem emptyServer_paired : emptyServer.db.Paired :=
  ⟨nofun, nofun⟩

theorem createXor_fresh (op : Operation ℕ ℕ) (id : ℕ) (_ : op.creates = some id) :
    emptyServer.Fresh id :=
  ⟨fun hid => hid rfl, rfl, fun _ _ hop => by cases hop⟩

theorem createXor_paired :
    ∃ s', Runs.Run (CarefulStep some 400) emptyServer
        [.request 0 createXor, .operation 0, .operation 0] s'
      ∧ s'.db.infos = [⟨0, 400⟩] ∧ s'.db.Paired := by
  have hrun : Runs.Run (CarefulStep some 400) emptyServer
      [.request 0 createXor, .operation 0, .operation 0] _ :=
    .cons ⟨trivial, .request rfl rfl (createXor_fresh _)⟩
      (.cons ⟨nofun, .operation rfl⟩ (.cons ⟨nofun, .operation rfl⟩ (.nil _)))
  refine ⟨_, hrun, rfl, paired_of_careful_run some 400 (fun _ => rfl) emptyServer_paired hrun ?_⟩
  intro t
  cases t <;> rfl

/-- **A failed second write leaves a model without its ModelInfo**: the
handler answers that it could not create the model, and the model stays. -/
theorem not_paired_createDefaultModelInfo_fails :
    emptyServer.Idle ∧ emptyServer.db.Paired
    ∧ ∃ s', Runs.Run (Step some 400) emptyServer
        [.request 0 createXor, .operation 0, .failure 0] s'
      ∧ s'.Idle ∧ ¬ s'.db.Paired := by
  refine ⟨fun _ => rfl, emptyServer_paired, _,
    .cons (.request rfl rfl (createXor_fresh _)) (.cons (.operation rfl)
      (.cons (.failure rfl) (.nil _))), ?_, ?_⟩
  · intro t
    cases t <;> rfl
  · intro hpaired
    exact absurd (hpaired.model ⟨0, "xor", none, "draft", 1⟩ (by decide)) (by decide)

end ExpressServer
