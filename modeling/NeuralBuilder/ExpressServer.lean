import Mathlib.Data.List.Lookmap
import NeuralBuilder.Library.Collection

/-!
# The Express server

The routes under `/api/models` and `/api/process`, at the granularity of
single database operations. A request that its middleware lets through is an
`Operation` on the `Database`; performing it either answers the request or
leaves the next operation of the same request to be performed, so that
operations of other requests may come in between. There is no transaction
over two operations and no rollback.

What a `ModelInfo` document holds beside its `modelId` is a type of its own
here (`Data`): the routes pass it through.
-/

namespace ExpressServer

/-! ## Documents -/

/-- A document of the collection `models`. -/
structure ModelDoc (Id : Type) where
  /-- The `ObjectId` of the model. -/
  _id : Id
  /-- The title, which the schema requires. -/
  title : String
  /-- The description, none where there is none. -/
  description : Option String
  /-- How far the model has been brought, as its page says. -/
  status : String
  /-- The user it belongs to. -/
  userId : Id
  deriving DecidableEq

/-- A document of the collection `modelInfo`; `modelId` is not unique there. -/
structure InfoDoc (Id Data : Type) where
  /-- The model it is about. -/
  modelId : Id
  /-- Its other fields. -/
  data : Data
  deriving DecidableEq

/-- The database: the key `_id` is unique. -/
@[ext]
structure Database (Id Data : Type) where
  /-- The collection `models`, with its index on `_id`. -/
  models : Collection (@ModelDoc._id Id)
  /-- The collection `modelInfo`, in the order of insertion. -/
  infos : List (InfoDoc Id Data)

/-- **A field of a JSON body, as Mongoose casts it** to the type its schema
declares. -/
inductive Field (β : Type)
  | absent
  | null
  | value (b : β)
  | uncastable
  deriving DecidableEq

namespace Field

/-- The value a new document gets in a field `{ type: String, required: true }`,
none when validation or the cast fails. The empty string fails `required`. -/
def required : Field String → Option String
  | value text => if text = "" then none else some text
  | _ => none

/-- The value a new document gets in a field `{ type: String }`. -/
def optional {β : Type} : Field β → Option (Option β)
  | absent | null => some none
  | value b => some (some b)
  | uncastable => none

/-- What `$set` with `runValidators` does to a required field: Mongoose drops
an absent one from the update. -/
def setRequired : Field String → Option (String → String)
  | absent => some id
  | f => f.required.map (fun text _ => text)

/-- What `$set` does to an optional field. -/
def setOptional {β : Type} : Field β → Option (Option β → Option β)
  | absent => some id
  | f => f.optional.map (fun b _ => b)

end Field

/-! ## Requests and replies -/

/-- The body of `POST /api/process`: its `modelId`, and what `$set` of the
other fields does to a document, none when a cast or a validator fails. -/
structure InfoBody (Id Data : Type) where
  /-- The model to be written to. -/
  modelId : Field Id
  /-- What is written. -/
  set : Option (Data → Data)

/-- The mounted routes with what they read of a request. A path parameter is
none when it does not cast to an ObjectId; `newId` is the ObjectId Mongoose
generates for the document a request creates. -/
inductive Route (Id Data : Type)
  | getModels
  | postModel (title description status : Field String) (newId : Id)
  | putModel (id : Option Id) (title description : Field String)
  | deleteModel (id : Option Id)
  | updateStatus (id : Option Id) (status : Field String)
  | getProcess (modelId : Option Id)
  | postProcess (modelInfo : InfoBody Id Data)

/-- A request: the cookie `token`, if there is one, and the route. -/
structure Request (Token Id Data : Type) where
  /-- What the cookie `token` holds. -/
  token : Option Token
  /-- The route, with what it reads of the request. -/
  route : Route Id Data

/-- The body of a reply; `error` is what Express sends for an exception that
the handler does not catch. -/
inductive Body (Id Data : Type)
  | message (text : String)
  | text (text : String)
  | deleted (id : Id)
  | model (row : ModelDoc Id)
  | models (rows : List (ModelDoc Id))
  | modelInfo (info : Option (InfoDoc Id Data))
  | error

/-- A reply: the status code and the body. -/
structure Reply (Id Data : Type) where
  /-- The status code. -/
  code : ℕ
  /-- What is sent with it. -/
  body : Body Id Data

/-! ## Operations -/

/-- **The database operation a request is about to perform.** -/
inductive Operation (Id Data : Type)
  | getAllModelsByUserId (userId : Id)
  | createModel (title description status : Field String) (userId newId : Id)
  /-- The second write of a creation. -/
  | createDefaultModelInfo (createdRow : ModelDoc Id)
  | updateModelById (id : Option Id) (title description : Field String)
  | updateStatusById (id : Option Id) (status : Field String)
  /-- The `findOne` of the `findOneAndDelete` hook. -/
  | preFindOneAndDelete (id : Option Id)
  /-- The `ModelInfo.deleteOne` of the hook, for the document it found. -/
  | deleteModelInfo (modelId : Id)
  /-- The `findOneAndDelete` itself. -/
  | deleteModelById (id : Id)
  | getModelInfoByModelId (modelId : Option Id)
  | updateModelInfoByModelId (updatedData : InfoBody Id Data)

variable {Id Data Token : Type}

/-- The reply when the operation throws. -/
def Operation.onError : Operation Id Data → Reply Id Data
  | getAllModelsByUserId _ => ⟨500, .error⟩
  | createModel .. | createDefaultModelInfo _ => ⟨500, .text "Error creating case"⟩
  | updateModelById .. => ⟨500, .text "Error updating case"⟩
  | updateStatusById .. => ⟨500, .text "Error updating status!"⟩
  | preFindOneAndDelete _ | deleteModelInfo _ | deleteModelById _ =>
    ⟨500, .text "Error deleting case"⟩
  | getModelInfoByModelId _ => ⟨500, .error⟩
  | updateModelInfoByModelId _ => ⟨500, .text "Error creating case"⟩

/-- What `updateModelById` sets of a row. -/
def setTitle (title : String → String) (description : Option String → Option String)
    (row : ModelDoc Id) : ModelDoc Id :=
  { row with title := title row.title, description := description row.description }

/-- What `updateStatusById` sets of a row. -/
def setStatus (status : String → String) (row : ModelDoc Id) : ModelDoc Id :=
  { row with status := status row.status }

theorem setTitle_id (title : String → String) (description : Option String → Option String)
    (row : ModelDoc Id) : (setTitle title description row)._id = row._id := rfl

theorem setTitle_userId (title : String → String) (description : Option String → Option String)
    (row : ModelDoc Id) : (setTitle title description row).userId = row.userId := rfl

theorem setStatus_id (status : String → String) (row : ModelDoc Id) :
    (setStatus status row)._id = row._id := rfl

theorem setStatus_userId (status : String → String) (row : ModelDoc Id) :
    (setStatus status row).userId = row.userId := rfl

section
variable [DecidableEq Id]

namespace Database

/-- `ModelInfo.findOne({ modelId })`. -/
def findInfo (db : Database Id Data) (modelId : Id) : Option (InfoDoc Id Data) :=
  db.infos.find? (fun info => info.modelId = modelId)

/-- `Models.create` of a row that passed validation; none for a duplicate key. -/
def createModel (db : Database Id Data) (row : ModelDoc Id) : Option (Database Id Data) :=
  (db.models.insert row).map (fun models => { db with models })

/-- `ModelInfo.create`. -/
def createInfo (db : Database Id Data) (modelId : Id) (data : Data) : Database Id Data :=
  { db with infos := db.infos ++ [⟨modelId, data⟩] }

/-- `Models.findByIdAndUpdate` with what `$set` does to a row. -/
def updateModel (db : Database Id Data) (id : Id) (f : ModelDoc Id → ModelDoc Id)
    (hf : ∀ row, (f row)._id = row._id) : Database Id Data :=
  { db with models := db.models.update id f hf }

theorem findById_updateModel (db : Database Id Data) (id : Id) (f : ModelDoc Id → ModelDoc Id)
    (hf : ∀ row, (f row)._id = row._id) :
    (db.updateModel id f hf).models.findById id = (db.models.findById id).map f := by
  unfold updateModel
  rw [Collection.findById_update]
  simp only [if_true]

/-- `Models.findOneAndDelete`, without its hook. -/
def deleteModel (db : Database Id Data) (id : Id) : Database Id Data :=
  { db with models := db.models.remove id }

/-- `ModelInfo.deleteOne({ modelId })`: the first match. -/
def deleteInfo (db : Database Id Data) (modelId : Id) : Database Id Data :=
  { db with infos := db.infos.eraseP (fun info => info.modelId = modelId) }

/-- `ModelInfo.findOneAndUpdate({ modelId })`: the first match. -/
def updateInfo (db : Database Id Data) (modelId : Id) (set : Data → Data) : Database Id Data :=
  { db with infos := db.infos.lookmap (fun info =>
      if info.modelId = modelId then some { info with data := set info.data } else none) }

/-- Saving a document keeps which models have one. -/
theorem map_modelId_updateInfo (db : Database Id Data) (modelId : Id) (set : Data → Data) :
    (db.updateInfo modelId set).infos.map InfoDoc.modelId = db.infos.map InfoDoc.modelId := by
  refine List.lookmap_map_eq _ InfoDoc.modelId (fun info info' h => ?_) db.infos
  split at h
  · cases h
    rfl
  · cases h

/-- Saving a document changes the one `findOne` finds. -/
theorem findInfo_updateInfo (db : Database Id Data) (modelId : Id) (set : Data → Data) :
    (db.updateInfo modelId set).findInfo modelId
      = (db.findInfo modelId).map fun info => { info with data := set info.data } := by
  unfold findInfo updateInfo
  refine Eq.trans ?_ (List.find?_lookmap_of_pos (p := fun info => info.modelId = modelId)
    (g := fun info => { info with data := set info.data }) (fun _ h => h) db.infos)
  simp only [decide_eq_true_eq]

end Database

/-- **One database operation**: the new database, and the next operation of
the request or its reply. -/
def perform (defData : Data) (db : Database Id Data) (op : Operation Id Data) :
    Database Id Data × (Operation Id Data ⊕ Reply Id Data) :=
  match op with
  | .getAllModelsByUserId userId =>
    (db, .inr ⟨200, .models (db.models.docs.filter (fun row => row.userId = userId))⟩)
  | .createModel title description status userId newId =>
    match title.required, description.optional, status.required with
    | some title, some description, some status =>
      let row : ModelDoc Id := ⟨newId, title, description, status, userId⟩
      match db.createModel row with
      | some db' => (db', .inl (.createDefaultModelInfo row))
      | none => (db, .inr op.onError)
    | _, _, _ => (db, .inr op.onError)
  | .createDefaultModelInfo createdRow =>
    (db.createInfo createdRow._id defData, .inr ⟨201, .model createdRow⟩)
  | .updateModelById id title description =>
    match id, title.setRequired, description.setOptional with
    | some id, some title, some description =>
      let db' := db.updateModel id (setTitle title description) (setTitle_id title description)
      match db'.models.findById id with
      | some row => (db', .inr ⟨200, .model row⟩)
      | none => (db', .inr ⟨404, .text "Case not found"⟩)
    | _, _, _ => (db, .inr op.onError)
  | .updateStatusById id status =>
    match id, status.setRequired with
    | some id, some status =>
      -- the handler does not look at what the update found
      (db.updateModel id (setStatus status) (setStatus_id status),
        .inr ⟨200, .text "status updated!"⟩)
    | _, _ => (db, .inr op.onError)
  | .preFindOneAndDelete id =>
    match id with
    | none => (db, .inr op.onError)
    | some id =>
      match db.models.findById id with
      | some doc => (db, .inl (.deleteModelInfo doc._id))
      | none => (db, .inl (.deleteModelById id))
  | .deleteModelInfo modelId => (db.deleteInfo modelId, .inl (.deleteModelById modelId))
  | .deleteModelById id =>
    match db.models.findById id with
    | some _ => (db.deleteModel id, .inr ⟨200, .deleted id⟩)
    | none => (db, .inr ⟨404, .text "Model not found"⟩)
  | .getModelInfoByModelId modelId =>
    match modelId with
    | some modelId => (db, .inr ⟨200, .modelInfo (db.findInfo modelId)⟩)
    | none => (db, .inr op.onError)
  | .updateModelInfoByModelId updatedData =>
    match updatedData.modelId, updatedData.set with
    | .value modelId, some set =>
      (db.updateInfo modelId set, .inr ⟨200, .text "Model saved successfully"⟩)
    -- no document lacks its modelId, so this filter matches none
    | .absent, some _ => (db, .inr ⟨200, .text "Model saved successfully"⟩)
    | _, _ => (db, .inr op.onError)

end

/-! ## Routes -/

/-- The middleware: the user of the cookie's token, or the reply of a request
that it does not pass on. `verify` is `jwt.verify` under the server's secret
with the `id` it decodes. -/
def authenticateUser (verify : Token → Option Id) (token : Option Token) :
    Except (Reply Id Data) Id :=
  match token with
  | none => .error ⟨401, .message "Unauthorized"⟩
  | some token =>
    match verify token with
    | none => .error ⟨403, .message "Invalid token"⟩
    | some id => .ok id

/-- **The routers**: the reply of the middleware, or the first operation of
the handler. The two routes of `/api/process` have no middleware. -/
def entry (verify : Token → Option Id) (req : Request Token Id Data) :
    Except (Reply Id Data) (Operation Id Data) :=
  match req.route with
  | .getModels => do
    let userId ← authenticateUser verify req.token
    return .getAllModelsByUserId userId
  | .postModel title description status newId => do
    let userId ← authenticateUser verify req.token
    return .createModel title description status userId newId
  | .putModel id title description => do
    let _ ← authenticateUser verify req.token
    return .updateModelById id title description
  | .deleteModel id => do
    let _ ← authenticateUser verify req.token
    return .preFindOneAndDelete id
  | .updateStatus id status => do
    let _ ← authenticateUser verify req.token
    return .updateStatusById id status
  | .getProcess modelId => .ok (.getModelInfoByModelId modelId)
  | .postProcess modelInfo => .ok (.updateModelInfoByModelId modelInfo)

/-- The user of a request: the one its token verifies to. -/
def Request.user (verify : Token → Option Id) (req : Request Token Id Data) : Option Id :=
  req.token.bind verify

theorem authenticateUser_eq_ok_iff {verify : Token → Option Id} {token : Option Token}
    {user : Id} :
    (authenticateUser verify token : Except (Reply Id Data) Id) = .ok user
      ↔ token.bind verify = some user := by
  unfold authenticateUser
  cases token with
  | none => simp
  | some token =>
    rw [Option.bind_some]
    cases h : verify token with
    | none => simp [h]
    | some id => simp [h]

/-! ## Requests one after the other -/

variable [DecidableEq Id]

/-- The operations of one request, at most `fuel` of them, with no other
request in between. -/
def finish (defData : Data) :
    ℕ → Database Id Data → Operation Id Data →
      Database Id Data × (Operation Id Data ⊕ Reply Id Data)
  | 0, db, op => (db, .inl op)
  | fuel + 1, db, op =>
    match perform defData db op with
    | (db', .inl op') => finish defData fuel db' op'
    | (db', .inr reply) => (db', .inr reply)

/-- **A request served alone.** No handler performs more than three
operations (`serve_replies`). -/
def serve (verify : Token → Option Id) (defData : Data) (db : Database Id Data)
    (req : Request Token Id Data) : Database Id Data × (Operation Id Data ⊕ Reply Id Data) :=
  match entry verify req with
  | .error reply => (db, .inr reply)
  | .ok op => finish defData 3 db op

/-- The database after a sequence of requests. -/
def serveAll (verify : Token → Option Id) (defData : Data) (db : Database Id Data)
    (reqs : List (Request Token Id Data)) : Database Id Data :=
  reqs.foldl (fun db req => (serve verify defData db req).1) db

/-- How many operations a request still performs, this one included, at most. -/
def Operation.left : Operation Id Data → ℕ
  | preFindOneAndDelete _ => 3
  | createModel .. | deleteModelInfo _ => 2
  | _ => 1

theorem left_of_perform {defData : Data} {db db' : Database Id Data} {op op' : Operation Id Data}
    (h : perform defData db op = (db', .inl op')) : op'.left < op.left := by
  cases op with
  | createModel title description status userId newId =>
    simp only [perform] at h
    split at h
    · split at h
      · cases h
        exact Nat.lt_succ_self 1
      · cases h
    · cases h
  | preFindOneAndDelete id =>
    simp only [perform] at h
    split at h
    · cases h
    · split at h
      · cases h
        exact Nat.lt_succ_self 2
      · cases h
        exact Nat.lt_of_lt_of_le (Nat.lt_succ_self 1) (Nat.le_succ 2)
  | deleteModelInfo modelId =>
    cases h
    exact Nat.lt_succ_self 1
  | updateModelById id title description =>
    simp only [perform] at h
    split at h
    · split at h <;> cases h
    · cases h
  | _ =>
    simp only [perform] at h
    first
      | cases h
      | split at h <;> cases h

theorem finish_replies (defData : Data) (fuel : ℕ) (db : Database Id Data) (op : Operation Id Data)
    (h : op.left ≤ fuel) : ∃ reply, (finish defData fuel db op).2 = .inr reply := by
  induction fuel generalizing db op with
  | zero =>
    cases op <;> exact absurd h (by simp [Operation.left])
  | succ fuel ih =>
    simp only [finish]
    rcases hperform : perform defData db op with ⟨db', op' | reply⟩
    · exact ih db' op' (Nat.le_of_lt_succ (Nat.lt_of_lt_of_le (left_of_perform hperform) h))
    · exact ⟨reply, rfl⟩

/-- **Every request is answered** within the operations `serve` allows it. -/
theorem serve_replies (verify : Token → Option Id) (defData : Data) (db : Database Id Data)
    (req : Request Token Id Data) :
    ∃ reply, (serve verify defData db req).2 = .inr reply := by
  unfold serve
  split
  · next reply _ => exact ⟨reply, rfl⟩
  · next op _ =>
    refine finish_replies defData 3 db op ?_
    cases op <;> simp [Operation.left]

end ExpressServer
