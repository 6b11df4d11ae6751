import NeuralBuilder.ExpressServer
import NeuralBuilder.Library.Runs

/-!
# Who changes a model

`GET /api/models` shows a user the models whose `userId` is theirs. The routes
that write do not ask whose model they write to: `PUT`, `DELETE` and
`update-status` need a valid token of any user, and `POST /api/process` needs
none.

What a request writes, if it writes at all, is a `Write` with a target. As
long as no write has another user's model for its target, a user's documents
are what the user's own requests alone make of them.

`serve_write` says that serving a request is applying its write, if it has one,
to the database, and `onlyOwnersChange_of_allOwnerOnly` follows by induction
over sequences of requests: the documents of a user after all the requests are
those after the requests of the user alone. ObjectIds that Mongoose generates
come with the requests and are new (`NewIds`). The counterexamples are one
request each, for every route that does not ask.
-/

namespace ExpressServer

variable {Id Data Token : Type} [DecidableEq Id]

/-! ## What a request writes -/

/-- A change of the database by one request. -/
inductive Write (Id Data : Type)
  | create (row : ModelDoc Id)
  | change (id : Id) (f : ModelDoc Id → ModelDoc Id) (hid : ∀ row, (f row)._id = row._id)
    (hown : ∀ row, (f row).userId = row.userId)
  | remove (id : Id)
  | save (modelId : Id) (set : Data → Data)

/-- The model a write is for. -/
def Write.target : Write Id Data → Id
  | create row => row._id
  | change id .. => id
  | remove id => id
  | save modelId _ => modelId

/-- The database after a write. -/
def Write.apply (defData : Data) (db : Database Id Data) : Write Id Data → Database Id Data
  | create row =>
    match db.createModel row with
    | some db' => db'.createInfo row._id defData
    | none => db
  | change id f hid _ => db.updateModel id f hid
  | remove id =>
    match db.models.findById id with
    | some _ => (db.deleteInfo id).deleteModel id
    | none => db
  | save modelId set => db.updateInfo modelId set

theorem apply_create_of_taken {defData : Data} {db : Database Id Data} {row : ModelDoc Id}
    (h : db.models.findById row._id ≠ none) : (Write.create row).apply defData db = db := by
  simp only [Write.apply, Database.createModel, Collection.insert_eq_none_iff.mpr h,
    Option.map_none]

/-- A creation under a new id adds one document to each collection. -/
theorem apply_create (defData : Data) {db : Database Id Data} {row : ModelDoc Id}
    (h : db.models.findById row._id = none) :
    ∃ models, db.models.insert row = some models
      ∧ models.docs = db.models.docs ++ [row]
      ∧ (Write.create row).apply defData db = ⟨models, db.infos ++ [⟨row._id, defData⟩]⟩ := by
  obtain ⟨models, hinsert, hdocs⟩ := Collection.insert_of_findById h
  refine ⟨models, hinsert, hdocs, ?_⟩
  simp only [Write.apply, Database.createModel, hinsert, Option.map_some, Database.createInfo]

theorem apply_remove_of_none {defData : Data} {db : Database Id Data} {id : Id}
    (h : db.models.findById id = none) : (Write.remove id).apply defData db = db := by
  simp only [Write.apply, h]

theorem apply_remove_of_some {defData : Data} {db : Database Id Data} {id : Id}
    {row : ModelDoc Id} (h : db.models.findById id = some row) :
    (Write.remove id).apply defData db = (db.deleteInfo id).deleteModel id := by
  simp only [Write.apply, h]

/-- **What a request writes**: nothing when the middleware stops it or its
fields do not cast or validate. -/
def Request.write (verify : Token → Option Id) (req : Request Token Id Data) :
    Option (Write Id Data) :=
  match req.route with
  | .getModels | .getProcess _ => none
  | .postModel title description status newId => do
    let userId ← req.user verify
    return .create ⟨newId, ← title.required, ← description.optional, ← status.required, userId⟩
  | .putModel id title description => do
    let _ ← req.user verify
    return .change (← id) (setTitle (← title.setRequired) (← description.setOptional))
      (setTitle_id _ _) (setTitle_userId _ _)
  | .deleteModel id => do
    let _ ← req.user verify
    return .remove (← id)
  | .updateStatus id status => do
    let _ ← req.user verify
    return .change (← id) (setStatus (← status.setRequired)) (setStatus_id _) (setStatus_userId _)
  | .postProcess modelInfo =>
    match modelInfo.modelId with
    | .value modelId => modelInfo.set.map (.save modelId)
    | _ => none

theorem serve_of_error {verify : Token → Option Id} {defData : Data} {db : Database Id Data}
    {req : Request Token Id Data} {reply : Reply Id Data} (h : entry verify req = .error reply) :
    (serve verify defData db req).1 = db := by
  simp only [serve, h]

theorem serve_of_ok {verify : Token → Option Id} {defData : Data} {db : Database Id Data}
    {req : Request Token Id Data} {op : Operation Id Data} (h : entry verify req = .ok op) :
    (serve verify defData db req).1 = (finish defData 3 db op).1 := by
  simp only [serve, h]

omit [DecidableEq Id] in
theorem exists_authenticateUser_error {verify : Token → Option Id} {token : Option Token}
    (h : token.bind verify = none) :
    ∃ reply, (authenticateUser verify token : Except (Reply Id Data) Id) = .error reply := by
  cases hauth : (authenticateUser verify token : Except (Reply Id Data) Id) with
  | error reply => exact ⟨reply, rfl⟩
  | ok user =>
    rw [authenticateUser_eq_ok_iff.mp hauth] at h
    cases h

/-- Whether the middleware is in front of the handler. -/
def Route.guarded : Route Id Data → Bool
  | .getProcess _ | .postProcess _ => false
  | _ => true

omit [DecidableEq Id] in
theorem write_of_no_user {verify : Token → Option Id} {req : Request Token Id Data}
    (hguarded : req.route.guarded = true) (huser : req.user verify = none) :
    req.write verify = none := by
  obtain ⟨token, route⟩ := req
  cases route with
  | getProcess | postProcess => cases hguarded
  | _ => simp [Request.write, huser]

/-- A request that the middleware stops changes nothing. -/
theorem serve_of_no_user {verify : Token → Option Id} {defData : Data} {db : Database Id Data}
    {req : Request Token Id Data} (hguarded : req.route.guarded = true)
    (huser : req.user verify = none) : (serve verify defData db req).1 = db := by
  obtain ⟨token, route⟩ := req
  obtain ⟨reply, hauth⟩ : ∃ reply,
      (authenticateUser verify token : Except (Reply Id Data) Id) = .error reply :=
    exists_authenticateUser_error huser
  cases route with
  | getProcess | postProcess => cases hguarded
  | _ =>
    exact serve_of_error (show _ = Except.error reply by simp [entry, hauth, bind, Except.bind])

theorem finish_createModel (defData : Data) (db : Database Id Data)
    (title description status : Field String) (userId newId : Id) :
    (finish defData 3 db (.createModel title description status userId newId)).1
      = ((do return Write.create ⟨newId, ← title.required, ← description.optional,
          ← status.required, userId⟩ : Option (Write Id Data)).map
            (Write.apply defData db)).getD db := by
  rw [finish]
  simp only [perform]
  cases title.required with
  | none => rfl
  | some title =>
    cases description.optional with
    | none => rfl
    | some description =>
      cases status.required with
      | none => rfl
      | some status =>
        cases hrow : db.createModel ⟨newId, title, description, status, userId⟩ with
        | none => simp [Write.apply, hrow]
        | some db' => simp [Write.apply, hrow, finish, perform]

theorem finish_updateModelById (defData : Data) (db : Database Id Data) (id : Option Id)
    (title description : Field String) :
    (finish defData 3 db (.updateModelById id title description)).1
      = ((do return Write.change (← id) (setTitle (← title.setRequired)
          (← description.setOptional)) (fun _ => rfl) (fun _ => rfl) :
            Option (Write Id Data)).map (Write.apply defData db)).getD db := by
  rw [finish]
  simp only [perform]
  cases id with
  | none => rfl
  | some id =>
    cases title.setRequired with
    | none => rfl
    | some title =>
      cases description.setOptional with
      | none => rfl
      | some description =>
        simp only
        cases Collection.findById _ id <;> rfl

theorem finish_updateStatusById (defData : Data) (db : Database Id Data) (id : Option Id)
    (status : Field String) :
    (finish defData 3 db (.updateStatusById id status)).1
      = ((do return Write.change (← id) (setStatus (← status.setRequired)) (fun _ => rfl)
              (fun _ => rfl) : Option (Write Id Data)).map (Write.apply defData db)).getD db := by
  simp only [finish, perform]
  cases id with
  | none => rfl
  | some id => cases status.setRequired <;> rfl

/-- The hook and the deletion: both documents go, or there was no model. -/
theorem finish_preFindOneAndDelete (defData : Data) (db : Database Id Data) (id : Option Id) :
    (finish defData 3 db (.preFindOneAndDelete id)).1
      = ((do return Write.remove (← id) : Option (Write Id Data)).map
          (Write.apply defData db)).getD db := by
  cases id with
  | none => rfl
  | some id =>
    simp only [finish, perform]
    cases hdoc : db.models.findById id with
    | none => simp [Write.apply, hdoc]
    | some doc =>
      have hid : doc._id = id := (Collection.findById_eq_some_iff.mp hdoc).2
      simp [Write.apply, hdoc, hid, Database.deleteInfo]

/-- **A request served alone performs its write** and nothing else. -/
theorem serve_write (verify : Token → Option Id) (defData : Data) (db : Database Id Data)
    (req : Request Token Id Data) :
    (serve verify defData db req).1
      = ((req.write verify).map (Write.apply defData db)).getD db := by
  cases hguarded : req.route.guarded with
  | false =>
    obtain ⟨token, route⟩ := req
    cases route with
    | getProcess modelId =>
      rw [serve_of_ok rfl]
      cases modelId <;> rfl
    | postProcess modelInfo =>
      obtain ⟨modelId, set⟩ := modelInfo
      rw [serve_of_ok rfl]
      cases modelId <;> cases set <;> rfl
    | _ => cases hguarded
  | true =>
    cases huser : req.user verify with
    | none =>
      -- a guarded route without a user writes nothing
      rw [serve_of_no_user hguarded huser, write_of_no_user hguarded huser]
      rfl
    | some user =>
      obtain ⟨token, route⟩ := req
      have hauth : (authenticateUser verify token : Except (Reply Id Data) Id) = .ok user :=
        authenticateUser_eq_ok_iff.mpr huser
      cases route with
      | getModels => simp [serve, entry, hauth, finish, perform, Request.write]
      | postModel title description status newId =>
        rw [serve_of_ok (by simp [entry, hauth]; rfl), finish_createModel]
        simp only [Request.write, huser]
        rfl
      | putModel id title description =>
        rw [serve_of_ok (by simp [entry, hauth]; rfl), finish_updateModelById]
        simp only [Request.write, huser]
        rfl
      | deleteModel id =>
        rw [serve_of_ok (by simp [entry, hauth]; rfl), finish_preFindOneAndDelete]
        simp only [Request.write, huser]
        rfl
      | updateStatus id status =>
        rw [serve_of_ok (by simp [entry, hauth]; rfl), finish_updateStatusById]
        simp only [Request.write, huser]
        rfl
      | getProcess | postProcess => cases hguarded

/-! ## The documents of a user -/

/-- Whether a `ModelInfo` document belongs to a model of the user. -/
def Database.ownsInfo (db : Database Id Data) (user : Id) (info : InfoDoc Id Data) : Bool :=
  (db.models.findById info.modelId).any (fun row => row.userId = user)

/-- **The documents a user owns**: the models with the user's id and the
`ModelInfo` documents of these. -/
def Database.owned (db : Database Id Data) (user : Id) : Database Id Data where
  models := db.models.select (fun row => row.userId = user)
  infos := db.infos.filter (db.ownsInfo user)

theorem ownsInfo_eq {db : Database Id Data} {user : Id} {info : InfoDoc Id Data} :
    db.ownsInfo user info = ((db.owned user).models.findById info.modelId).isSome := by
  unfold Database.ownsInfo Database.owned
  rw [Collection.findById_select]
  cases db.models.findById info.modelId with
  | none => rfl
  | some row => by_cases h : row.userId = user <;> simp [h]

/-- Two databases in which the user owns the same models, and the same
`ModelInfo` documents up to the choice of these models. -/
theorem owned_congr {db db' : Database Id Data} {user : Id}
    (hmodels : (db'.owned user).models = (db.owned user).models)
    (hinfos : db'.infos.filter (db.ownsInfo user) = db.infos.filter (db.ownsInfo user)) :
    db'.owned user = db.owned user := by
  refine Database.ext hmodels ?_
  have howns : db'.ownsInfo user = db.ownsInfo user := by
    funext info
    rw [ownsInfo_eq, ownsInfo_eq, hmodels]
  show db'.infos.filter (db'.ownsInfo user) = _
  rw [howns]
  exact hinfos

theorem owned_owned (db : Database Id Data) (user : Id) :
    (db.owned user).owned user = db.owned user := by
  have hmodels : ((db.owned user).owned user).models = (db.owned user).models := by
    ext1
    simp [Database.owned]
  refine owned_congr hmodels ?_
  show List.filter _ (List.filter _ _) = List.filter _ _
  rw [List.filter_filter]
  simp

theorem models_owned_updateModel {db : Database Id Data} {user id : Id}
    {f : ModelDoc Id → ModelDoc Id} (hid : ∀ row, (f row)._id = row._id)
    (hown : ∀ row, (f row).userId = row.userId) :
    ((db.updateModel id f hid).owned user).models = (db.owned user).models.update id f hid :=
  Collection.select_update (fun row => by rw [hown])

theorem models_owned_deleteModel {db : Database Id Data} {user id : Id} :
    ((db.deleteModel id).owned user).models = (db.owned user).models.remove id :=
  Collection.select_remove

/-- A write whose target is not a model of the user, and which does not
create one for them. -/
def Write.Foreign (db : Database Id Data) (user : Id) (w : Write Id Data) : Prop :=
  (∀ row, db.models.findById w.target = some row → row.userId ≠ user)
    ∧ ∀ row, w = .create row → row.userId ≠ user

theorem ownsInfo_of_foreign {db : Database Id Data} {user : Id} {w : Write Id Data}
    (h : w.Foreign db user) {info : InfoDoc Id Data} (hinfo : info.modelId = w.target) :
    db.ownsInfo user info = false := by
  unfold Database.ownsInfo
  rw [hinfo]
  cases hrow : db.models.findById w.target with
  | none => rfl
  | some row => simpa using h.1 row hrow

theorem findById_select_of_foreign {models : Collection (@ModelDoc._id Id)} {user id : Id}
    (h : ∀ row, models.findById id = some row → row.userId ≠ user) :
    (models.select (fun row => row.userId = user)).findById id = none := by
  rw [Collection.findById_select, Option.filter_eq_none_iff]
  intro row hrow
  simpa using h row hrow

/-- **A foreign write leaves the user's documents as they are.** -/
theorem owned_apply_of_foreign (defData : Data) {db : Database Id Data} {user : Id}
    {w : Write Id Data} (h : w.Foreign db user) :
    (w.apply defData db).owned user = db.owned user := by
  have howns : ∀ info : InfoDoc Id Data, info.modelId = w.target → db.ownsInfo user info = false :=
    fun info hinfo => ownsInfo_of_foreign h hinfo
  cases w with
  | create row =>
    have hrow : row.userId ≠ user := h.2 row rfl
    by_cases hfree : db.models.findById row._id = none
    · obtain ⟨models, -, hdocs, happly⟩ := apply_create defData hfree
      rw [happly]
      refine owned_congr ?_ ?_
      · ext1
        simp [Database.owned, hdocs, hrow]
      · simp [List.filter_append, howns ⟨row._id, defData⟩ rfl]
    · rw [apply_create_of_taken hfree]
  | change id f hid hown =>
    have hforeign : (db.owned user).models.findById id = none := findById_select_of_foreign h.1
    refine owned_congr ?_ rfl
    exact (models_owned_updateModel hid hown).trans
      (Collection.update_of_findById_none hforeign)
  | remove id =>
    cases hfind : db.models.findById id with
    | none => rw [apply_remove_of_none hfind]
    | some found =>
      rw [apply_remove_of_some hfind]
      refine owned_congr ?_ ?_
      · have hforeign : (db.owned user).models.findById id = none :=
          findById_select_of_foreign h.1
        exact models_owned_deleteModel.trans (Collection.remove_of_findById_none hforeign)
      · exact List.filter_eraseP_of_not
          (fun info hinfo => howns info (of_decide_eq_true hinfo)) db.infos
  | save modelId set =>
    refine owned_congr rfl (List.filter_lookmap_of_not ?_ db.infos)
    intro info info' hset
    split at hset
    · next hinfo =>
      obtain rfl := Option.some.inj hset
      exact ⟨howns info hinfo, howns _ hinfo⟩
    · cases hset

theorem exists_own_target {db : Database Id Data} {user : Id} {w : Write Id Data}
    (h : ¬ w.Foreign db user) (hcreate : ∀ row, w ≠ .create row) :
    ∃ row, db.models.findById w.target = some row ∧ row.userId = user := by
  by_contra hnone
  refine h ⟨fun row hfind hrow => hnone ⟨row, hfind, hrow⟩, fun row hw => ?_⟩
  exact absurd hw (hcreate row)

/-- Whether a document has the id as its `_id` or `modelId`. -/
def Database.Known (db : Database Id Data) (id : Id) : Prop :=
  db.models.findById id ≠ none ∨ ∃ info ∈ db.infos, info.modelId = id

theorem owned_apply_create (defData : Data) {db : Database Id Data} {user : Id}
    {row : ModelDoc Id} (hnew : ¬ db.Known row._id) :
    ((Write.create row).apply defData db).owned user
      = ((Write.create row).apply defData (db.owned user)).owned user := by
  have hfree : db.models.findById row._id = none := by
    by_contra hfound
    exact hnew (Or.inl hfound)
  have hfree' : (db.owned user).models.findById row._id = none := by
    rw [Database.owned, Collection.findById_select, hfree, Option.filter_none]
  obtain ⟨models, hinsert, hdocs, happly⟩ := apply_create defData hfree
  obtain ⟨models', -, hdocs', happly'⟩ := apply_create defData hfree'
  have hmodels : models.select (fun row => row.userId = user)
      = models'.select (fun row => row.userId = user) := by
    ext1
    simp [hdocs, hdocs', Database.owned]
  rw [happly, happly']
  have hview : ∀ infos : List (InfoDoc Id Data), (Database.owned ⟨models', infos⟩ user).models
      = (Database.owned ⟨models, db.infos ++ [⟨row._id, defData⟩]⟩ user).models :=
    fun _ => hmodels.symm
  refine (owned_congr (hview _) ?_).symm
  show List.filter _ (db.infos.filter (db.ownsInfo user) ++ _) = List.filter _ (db.infos ++ _)
  rw [List.filter_append, List.filter_append, List.filter_filter]
  congr 1
  refine List.filter_congr (fun info hmem => ?_)
  -- the new model owns none of the documents that are there
  have hne : row._id ≠ info.modelId := fun h => hnew (Or.inr ⟨info, hmem, h.symm⟩)
  have howns : Database.ownsInfo ⟨models, db.infos ++ [⟨row._id, defData⟩]⟩ user info
      = db.ownsInfo user info := by
    unfold Database.ownsInfo
    rw [Collection.findById_insert hinsert, if_neg hne]
  rw [howns, Bool.and_self]

theorem filter_infos_owned {db : Database Id Data} {user : Id} {q : InfoDoc Id Data → Bool}
    (h : ∀ info, q info = true → db.ownsInfo user info = true) :
    (db.owned user).infos.filter q = db.infos.filter q := by
  show (db.infos.filter (db.ownsInfo user)).filter q = _
  rw [List.filter_filter]
  refine List.filter_congr (fun info _ => ?_)
  cases hq : q info with
  | true => simp [h info hq]
  | false => simp

theorem findById_owned {db : Database Id Data} {user id : Id} {row : ModelDoc Id}
    (h : db.models.findById id = some row) (hrow : row.userId = user) :
    (db.owned user).models.findById id = some row := by
  rw [Database.owned, Collection.findById_select, h]
  exact Option.filter_eq_some_iff.mpr ⟨rfl, by simpa using hrow⟩

theorem owned_apply_change (defData : Data) {db : Database Id Data} {user id : Id}
    {f : ModelDoc Id → ModelDoc Id} (hid : ∀ row, (f row)._id = row._id)
    (hown : ∀ row, (f row).userId = row.userId) :
    ((Write.change id f hid hown).apply defData db).owned user
      = ((Write.change id f hid hown).apply defData (db.owned user)).owned user := by
  have howns : (db.updateModel id f hid).ownsInfo user = db.ownsInfo user := by
    funext info
    unfold Database.ownsInfo Database.updateModel
    rw [Collection.findById_update]
    cases db.models.findById info.modelId with
    | none => rfl
    | some row =>
      simp only [Option.map_some, Option.any_some]
      split
      · rw [hown row]
      · rfl
  refine (owned_congr ?_ ?_).symm
  · show (((db.owned user).updateModel id f hid).owned user).models
      = ((db.updateModel id f hid).owned user).models
    rw [models_owned_updateModel hid hown, models_owned_updateModel hid hown, owned_owned]
  · refine filter_infos_owned (fun info hinfo => ?_)
    rwa [show (Write.change id f hid hown).apply defData db = db.updateModel id f hid from rfl,
      howns] at hinfo

theorem owned_apply_remove (defData : Data) {db : Database Id Data} {user id : Id}
    {row : ModelDoc Id} (hfind : db.models.findById id = some row) (hrow : row.userId = user) :
    ((Write.remove id).apply defData db).owned user
      = ((Write.remove id).apply defData (db.owned user)).owned user := by
  rw [apply_remove_of_some hfind, apply_remove_of_some (findById_owned hfind hrow)]
  have howns : ∀ info, ((db.deleteInfo id).deleteModel id).ownsInfo user info = true →
      info.modelId ≠ id ∧ db.ownsInfo user info = true := by
    intro info hinfo
    unfold Database.ownsInfo Database.deleteModel at hinfo
    rw [Collection.findById_remove] at hinfo
    split at hinfo
    · simp at hinfo
    · next hne => exact ⟨hne, hinfo⟩
  have herase : ∀ info : InfoDoc Id Data, decide (info.modelId = id) = true →
      ((db.deleteInfo id).deleteModel id).ownsInfo user info = false := by
    intro info hinfo
    refine Bool.eq_false_iff.mpr (fun htrue => ?_)
    exact (howns info htrue).1 (of_decide_eq_true hinfo)
  have hmodels := congrArg Database.models (owned_owned db user)
  refine (owned_congr ?_ ?_).symm
  · rw [models_owned_deleteModel, models_owned_deleteModel]
    exact congrArg (fun c => Collection.remove c id) hmodels
  · exact (List.filter_eraseP_of_not herase (db.owned user).infos).trans
      ((filter_infos_owned (fun info hinfo => (howns info hinfo).2)).trans
        (List.filter_eraseP_of_not herase db.infos).symm)

theorem owned_apply_save (defData : Data) {db : Database Id Data} {user modelId : Id}
    {set : Data → Data} {row : ModelDoc Id} (hfind : db.models.findById modelId = some row)
    (hrow : row.userId = user) :
    ((Write.save modelId set).apply defData db).owned user
      = ((Write.save modelId set).apply defData (db.owned user)).owned user := by
  have hown : ∀ info : InfoDoc Id Data, info.modelId = modelId →
      db.ownsInfo user info = true := by
    intro info hinfo
    unfold Database.ownsInfo
    rw [hinfo, hfind]
    simpa using hrow
  have hset : ∀ info info' : InfoDoc Id Data,
      (if info.modelId = modelId then some { info with data := set info.data } else none)
        = some info' → db.ownsInfo user info = true ∧ db.ownsInfo user info' = true := by
    intro info info' h
    split at h
    · next hinfo =>
      obtain rfl := Option.some.inj h
      exact ⟨hown info hinfo, hown _ hinfo⟩
    · cases h
  have hmodels := congrArg Database.models (owned_owned db user)
  refine (owned_congr ?_ ?_).symm
  · exact hmodels
  · exact (List.filter_lookmap_comm hset (db.owned user).infos).trans
      ((congrArg (List.lookmap _) (filter_infos_owned (fun _ => id))).trans
        (List.filter_lookmap_comm hset db.infos).symm)

/-- **What a write of the user makes of their documents depends on these
alone.** -/
theorem owned_apply_of_own (defData : Data) {db : Database Id Data} {user : Id}
    {w : Write Id Data} (hnew : ∀ row, w = .create row → ¬ db.Known row._id) :
    (w.apply defData db).owned user = (w.apply defData (db.owned user)).owned user := by
  by_cases hforeign : w.Foreign db user
  · have hforeign' : w.Foreign (db.owned user) user := by
      refine ⟨fun row hfind => ?_, hforeign.2⟩
      rw [Database.owned, Collection.findById_select, Option.filter_eq_some_iff] at hfind
      exact hforeign.1 row hfind.1
    rw [owned_apply_of_foreign defData hforeign, owned_apply_of_foreign defData hforeign',
      owned_owned]
  cases w with
  | create row => exact owned_apply_create defData (hnew row rfl)
  | change id f hid hown => exact owned_apply_change defData hid hown
  | remove id =>
    obtain ⟨row, hfind, hrow⟩ := exists_own_target hforeign (fun row h => by cases h)
    exact owned_apply_remove defData hfind hrow
  | save modelId set =>
    obtain ⟨row, hfind, hrow⟩ := exists_own_target hforeign (fun row h => by cases h)
    exact owned_apply_save defData hfind hrow

/-! ## Sequences of requests -/

/-- The ObjectId generated for the document a request creates. -/
def Request.newId (req : Request Token Id Data) : Option Id :=
  match req.route with
  | .postModel _ _ _ newId => some newId
  | _ => none

/-- **Generated ObjectIds are new**: the requests to come bring ids that are
distinct and that the database does not know. -/
structure NewIds (db : Database Id Data) (reqs : List (Request Token Id Data)) : Prop where
  /-- No two requests bring the same id. -/
  distinct : (reqs.filterMap Request.newId).Nodup
  /-- None is the id of a model, or of what is left of one. -/
  unknown : ∀ req ∈ reqs, ∀ id, req.newId = some id → ¬ db.Known id

/-- **Only the owner**: a request whose write would reach an existing model
carries a token of that model's user. -/
def OwnerOnly (verify : Token → Option Id) (db : Database Id Data)
    (req : Request Token Id Data) : Prop :=
  ∀ w, req.write verify = some w → ∀ row, db.models.findById w.target = some row →
    req.user verify = some row.userId

/-- Every request of the sequence meets `OwnerOnly` in the state it finds. -/
def AllOwnerOnly (verify : Token → Option Id) (defData : Data) (db : Database Id Data)
    (reqs : List (Request Token Id Data)) : Prop :=
  ∀ earlier req later, reqs = earlier ++ req :: later →
    OwnerOnly verify (serveAll verify defData db earlier) req

/-- **Documents change by their owners' requests only**: a request without a
token of the user leaves the user's documents as they are, and the sequence
leaves them as the user's own requests alone would have. -/
def OnlyOwnersChange (verify : Token → Option Id) (defData : Data) (db : Database Id Data)
    (reqs : List (Request Token Id Data)) : Prop :=
  ∀ user,
    (∀ earlier req later, reqs = earlier ++ req :: later → req.user verify ≠ some user →
      (serveAll verify defData db (earlier ++ [req])).owned user
        = (serveAll verify defData db earlier).owned user)
    ∧ (serveAll verify defData db reqs).owned user
      = (serveAll verify defData db
          (reqs.filter (fun req => req.user verify = some user))).owned user

variable {verify : Token → Option Id} {defData : Data} {db : Database Id Data}
  {req : Request Token Id Data} {reqs : List (Request Token Id Data)}

omit [DecidableEq Id] in
/-- A creation is under the request's new id and for the request's user. -/
theorem write_create {row : ModelDoc Id} (h : req.write verify = some (.create row)) :
    req.newId = some row._id ∧ req.user verify = some row.userId := by
  obtain ⟨token, route⟩ := req
  cases route with
  | postModel title description status newId =>
    simp only [Request.write, bind, Option.bind_eq_some_iff, pure] at h
    obtain ⟨userId, huser, _, _, _, _, _, _, hrow⟩ := h
    cases hrow
    exact ⟨rfl, huser⟩
  | postProcess modelInfo =>
    obtain ⟨modelId, set⟩ := modelInfo
    cases modelId <;> cases set <;> cases h
  | _ => simp [Request.write, Option.bind_eq_some_iff] at h

theorem known_of_known_apply {w : Write Id Data} {id : Id} (h : (w.apply defData db).Known id) :
    db.Known id ∨ ∃ row, w = .create row ∧ row._id = id := by
  cases w with
  | create row =>
    by_cases hfree : db.models.findById row._id = none
    · obtain ⟨models, hinsert, -, happly⟩ := apply_create defData hfree
      rw [happly] at h
      by_cases hid : row._id = id
      · exact Or.inr ⟨row, rfl, hid⟩
      -- an id other than the new one was known before
      refine Or.inl ?_
      rcases h with hfound | ⟨info, hinfo, hmodelId⟩
      · rw [Collection.findById_insert hinsert, if_neg hid] at hfound
        exact Or.inl hfound
      · rcases List.mem_append.mp hinfo with hold | hadded
        · exact Or.inr ⟨info, hold, hmodelId⟩
        · obtain rfl := List.mem_singleton.mp hadded
          exact absurd hmodelId hid
    · rw [apply_create_of_taken hfree] at h
      exact Or.inl h
  | change target f hid hown =>
    refine Or.inl (h.imp_left (fun hfound hnone => hfound ?_))
    show (db.models.update target f hid).findById id = none
    rw [Collection.findById_update, hnone, Option.map_none]
  | remove target =>
    cases hfind : db.models.findById target with
    | none =>
      rw [apply_remove_of_none hfind] at h
      exact Or.inl h
    | some row =>
      rw [apply_remove_of_some hfind] at h
      rcases h with hfound | ⟨info, hinfo, hmodelId⟩
      · refine Or.inl (Or.inl (fun hnone => hfound ?_))
        show (db.models.remove target).findById id = none
        rw [Collection.findById_remove, hnone, ite_self]
      · exact Or.inl (Or.inr ⟨info, List.mem_of_mem_eraseP hinfo, hmodelId⟩)
  | save modelId set =>
    refine Or.inl (h.imp_right (fun hinfo => ?_))
    have hmem := List.mem_map.mpr hinfo
    rw [show (Write.save modelId set).apply defData db = db.updateInfo modelId set from rfl,
      Database.map_modelId_updateInfo] at hmem
    exact List.mem_map.mp hmem

/-- A request makes no id known but the one it brings. -/
theorem known_of_known_serve {id : Id} (h : (serve verify defData db req).1.Known id) :
    db.Known id ∨ req.newId = some id := by
  rw [serve_write] at h
  cases hw : req.write verify with
  | none =>
    rw [hw] at h
    exact Or.inl h
  | some w =>
    rw [hw] at h
    refine (known_of_known_apply h).imp_right ?_
    rintro ⟨row, rfl, rfl⟩
    exact (write_create hw).1

theorem NewIds.serve (h : NewIds db (req :: reqs)) :
    NewIds (serve verify defData db req).1 reqs := by
  have hdistinct := h.distinct
  rw [List.filterMap_cons] at hdistinct
  refine ⟨?_, ?_⟩
  · split at hdistinct
    · exact hdistinct
    · exact hdistinct.of_cons
  · intro later hlater id hid hknown
    rcases known_of_known_serve hknown with hold | hnew
    · exact h.unknown later (List.mem_cons_of_mem _ hlater) id hid hold
    · rw [hnew] at hdistinct
      exact (List.nodup_cons.mp hdistinct).1 (List.mem_filterMap.mpr ⟨later, hlater, hid⟩)

theorem NewIds.filter (h : NewIds db reqs) (p : Request Token Id Data → Bool) :
    NewIds db (reqs.filter p) := by
  refine ⟨h.distinct.sublist (List.filter_sublist.filterMap _), fun req hreq => ?_⟩
  exact h.unknown req (List.mem_of_mem_filter hreq)

theorem AllOwnerOnly.head (h : AllOwnerOnly verify defData db (req :: reqs)) :
    OwnerOnly verify db req :=
  h [] req reqs rfl

theorem AllOwnerOnly.tail (h : AllOwnerOnly verify defData db (req :: reqs)) :
    AllOwnerOnly verify defData (serve verify defData db req).1 reqs := by
  intro earlier later rest hreqs
  exact h (req :: earlier) later rest (by rw [hreqs, List.cons_append])

/-- **Others leave a user's documents alone.** -/
theorem owned_serve_of_other (h : OwnerOnly verify db req) {user : Id}
    (hother : req.user verify ≠ some user) :
    (serve verify defData db req).1.owned user = db.owned user := by
  rw [serve_write]
  cases hw : req.write verify with
  | none => rfl
  | some w =>
    refine owned_apply_of_foreign defData ⟨?_, ?_⟩
    · rintro row hrow rfl
      exact hother (h w hw row hrow)
    · rintro row rfl rfl
      exact hother (write_create hw).2

/-- **A request makes the same of equal views**, whatever else the databases
hold. -/
theorem owned_serve_congr {db' : Database Id Data} {reqs' : List (Request Token Id Data)}
    {user : Id} (h : NewIds db (req :: reqs)) (h' : NewIds db' (req :: reqs'))
    (hview : db.owned user = db'.owned user) :
    (serve verify defData db req).1.owned user = (serve verify defData db' req).1.owned user := by
  rw [serve_write, serve_write]
  cases hw : req.write verify with
  | none => exact hview
  | some w =>
    have hnew : ∀ row, w = .create row → ¬ db.Known row._id ∧ ¬ db'.Known row._id := by
      rintro row rfl
      have hid := (write_create hw).1
      exact ⟨h.unknown req List.mem_cons_self _ hid, h'.unknown req List.mem_cons_self _ hid⟩
    show (w.apply defData db).owned user = (w.apply defData db').owned user
    rw [owned_apply_of_own defData (fun row hrow => (hnew row hrow).1), hview,
      ← owned_apply_of_own defData (fun row hrow => (hnew row hrow).2)]

/-- **When every write that reaches a model is its owner's, documents change by
their owners' requests only**: after any sequence of requests, a user's models
and their documents are what the requests of that user alone would have made of
them. -/
theorem onlyOwnersChange_of_allOwnerOnly (verify : Token → Option Id) (defData : Data)
    (db : Database Id Data) (reqs : List (Request Token Id Data)) (hnew : NewIds db reqs)
    (hown : AllOwnerOnly verify defData db reqs) : OnlyOwnersChange verify defData db reqs := by
  intro user
  constructor
  · rintro earlier req later hreqs hother
    rw [serveAll, List.foldl_append]
    exact owned_serve_of_other (hown earlier req later hreqs) hother
  · refine Runs.view_foldl_filter (fun db => db.owned user) _
      (fun db reqs => NewIds db reqs ∧ AllOwnerOnly verify defData db reqs) NewIds
      ?_ ?_ ?_ ?_ reqs ⟨hnew, hown⟩ (hnew.filter _) rfl
    · rintro db req reqs ⟨hnew, hown⟩
      exact ⟨hnew.serve, hown.tail⟩
    · intro db req reqs hnew
      exact hnew.serve
    · rintro db req reqs ⟨-, hown⟩ hmine
      exact owned_serve_of_other hown.head (of_decide_eq_false hmine)
    · rintro db db' req reqs reqs' ⟨hnew, -⟩ hnew' - hview
      exact owned_serve_congr hnew hnew' hview

/-- One model of user 1, with its `ModelInfo` document. -/
def oneModel : Database ℕ ℕ where
  models := ⟨[⟨0, "xor", none, "draft", 1⟩], by decide⟩
  infos := [⟨0, 400⟩]

/-- User 1 renames their model, and user 2 creates one. -/
def ownRequests : List (Request ℕ ℕ ℕ) :=
  [⟨some 1, .putModel (some 0) (.value "parity") .absent⟩,
    ⟨some 2, .postModel (.value "mnist") .absent (.value "draft") 5⟩]

theorem onlyOwnersChange_ownRequests : OnlyOwnersChange some 400 oneModel ownRequests := by
  refine onlyOwnersChange_of_allOwnerOnly some 400 oneModel ownRequests ⟨by decide, ?_⟩ ?_
  · intro req hreq id hid
    simp only [ownRequests, List.mem_cons, List.not_mem_nil, or_false] at hreq
    rcases hreq with rfl | rfl
    · cases hid
    · cases hid
      rintro (hfound | ⟨info, hinfo, hmodelId⟩)
      · exact hfound rfl
      · simp only [oneModel, List.mem_singleton] at hinfo
        rw [hinfo] at hmodelId
        cases hmodelId
  · intro earlier req later hreqs w hw row hrow
    cases earlier with
    | nil =>
      cases hreqs
      cases hw
      cases hrow
      rfl
    | cons first earlier =>
      cases earlier with
      | nil =>
        cases hreqs
        cases hw
        cases hrow
      | cons second earlier => cases earlier <;> cases hreqs

/-- **Other users' requests change a model**: user 2 renames the model of user
1, and a request without a token replaces what is saved of it. -/
theorem not_onlyOwnersChange_foreign_requests :
    ¬ OnlyOwnersChange some 400 oneModel [⟨some 2, .putModel (some 0) (.value "gone") .absent⟩]
    ∧ ¬ OnlyOwnersChange some 400 oneModel
      [(⟨none, .postProcess ⟨.value 0, some (fun _ => 0)⟩⟩ : Request ℕ ℕ ℕ)] := by
  constructor
  · intro h
    have hkept := (h 1).1 [] _ [] rfl (by decide)
    exact absurd (congrArg (fun db => db.models.docs) hkept) (by decide)
  · intro h
    have hkept := (h 1).1 [] _ [] rfl (by decide)
    exact absurd (congrArg Database.infos hkept) (by decide)

end ExpressServer
