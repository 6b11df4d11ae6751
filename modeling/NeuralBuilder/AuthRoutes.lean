import NeuralBuilder.Library.Linearizable

/-!
# Registering and logging in

The routes under `/api/auth`, at the granularity of what they wait for. A
request waits for a lookup, for `bcrypt`, for an insertion, and requests of
others are served in between. `bcrypt` and `jsonwebtoken` are parameters, and
so are their random and their timely parts: the salt, the `ObjectId` of a new
document and the second at which a token is signed come with the request.

Between its two lookups and its insertion a registration may lose its name to
another. The unique indexes of the collection are what keeps two users apart
then, and all that such a registration gets to see is another error: the routes
look as if every request were served alone (`simulation`), only that a
registration which is refused may be refused in another way (`Served.alone`).

Left out are a database that fails for reasons of its own and a `jwt.sign` that
throws; both end in `serverError`.
-/

namespace AuthRoutes

open Linearizable Runs

/-! ## Users -/

/-- A document of the collection `users`. -/
structure UserDoc (Id Hash : Type) where
  /-- The `ObjectId` that Mongoose gives to a new document. -/
  _id : Id
  /-- The name to log in with, unique in the collection. -/
  username : String
  /-- The mail, unique as well. -/
  email : String
  /-- What `bcrypt` made of the password; the password itself is not kept. -/
  password : Hash

/-- **The collection `users`**, with its unique indexes. -/
structure Users (Id Hash : Type) where
  /-- The documents, in the order of their insertion. -/
  docs : List (UserDoc Id Hash)
  /-- The index every collection has. -/
  ids_nodup : (docs.map UserDoc._id).Nodup
  /-- `unique: true` of the username. -/
  usernames_nodup : (docs.map UserDoc.username).Nodup
  /-- `unique: true` of the email. -/
  emails_nodup : (docs.map UserDoc.email).Nodup

variable {Id Hash Salt Token : Type}

/-- Two users differ in everything that has an index. -/
structure UserDoc.Apart (d d' : UserDoc Id Hash) : Prop where
  /-- The index every collection has tells them apart. -/
  _id : d._id ≠ d'._id
  /-- So does the one on names. -/
  username : d.username ≠ d'.username
  /-- And the one on mails. -/
  email : d.email ≠ d'.email

/-- Without users. -/
def Users.empty : Users Id Hash := ⟨[], List.nodup_nil, List.nodup_nil, List.nodup_nil⟩

/-- A unique index of the documents is one of the documents and a new one. -/
theorem nodup_concat {κ : Type} {docs : List (UserDoc Id Hash)} {key : UserDoc Id Hash → κ}
    {doc : UserDoc Id Hash} (h : (docs.map key).Nodup) (hnew : ∀ d ∈ docs, key d ≠ key doc) :
    ((docs ++ [doc]).map key).Nodup := by
  rw [List.map_append, List.map_singleton, ← List.concat_eq_append]
  refine h.concat fun hin => ?_
  obtain ⟨d, hd, heq⟩ := List.mem_map.mp hin
  exact hnew d hd heq

/-- **A field of a JSON body**, as Mongoose reads it for a field of type
`String`. An object or an array may be a condition in a query, with what a
template literal shows of it. -/
inductive BodyField
  | absent
  | null
  | value (text : String)
  | query (shown : String) (holds : String → Bool)
  | uncastable

namespace BodyField

/-- The condition that the field is in a query, none when the cast fails. No
document lacks the field. -/
def condition : BodyField → Option (String → Bool)
  | absent | null => some fun _ => false
  | value text => some fun s => s = text
  | query _ holds => some holds
  | uncastable => none

/-- The value of a new document with `required: true`, none when validation or
the cast fails. -/
def required : BodyField → Option String
  | value text => if text = "" then none else some text
  | _ => none

/-- What a template literal shows of the field; nothing is shown of one whose
cast fails. -/
def shown : BodyField → String
  | absent => "undefined"
  | null => "null"
  | value text => text
  | query shown _ => shown
  | uncastable => ""

theorem required_of_condition {field : BodyField} (h : field.condition = none) :
    field.required = none := by
  cases field with
  | uncastable => rfl
  | _ => cases h

theorem eq_value_of_required {field : BodyField} {text : String}
    (h : field.required = some text) : field = value text := by
  cases field with
  | value text' =>
    rw [required] at h
    split at h
    · cases h
    · rw [Option.some.inj h]
  | _ => cases h

end BodyField

/-- The body of a registration, with what `bcrypt`, Mongoose and the clock add. -/
structure Registration (Id Salt : Type) where
  /-- The name, which is also the condition of the first lookup. -/
  username : BodyField
  /-- The mail, the condition of the second. -/
  email : BodyField
  /-- None when it is not a string; `bcrypt` throws then. -/
  password : Option String
  /-- The salt `bcrypt.hash` draws. -/
  salt : Salt
  /-- The identity of the document, if it comes to one. -/
  newId : Id
  /-- The second at which the token is signed. -/
  now : ℕ

/-- The body of a login. -/
structure Login where
  /-- The name, or a condition on it. -/
  username : BodyField
  /-- None when it is not a string; `bcrypt` throws then. -/
  password : Option String
  /-- The second at which the token is signed. -/
  now : ℕ

/-- **A request**: its body is none when there is none that `express.json` reads. -/
inductive Request (Id Salt Token : Type)
  | register (body : Option (Registration Id Salt))
  | login (body : Option Login)
  | logout
  | getProtected (token : Option Token) (now : ℕ)

/-- What a reply does to the cookie `token`. -/
inductive Cookie (Token : Type)
  | kept
  | set (token : Token)
  | cleared

/-- A reply: the status code, the `message` of its body, and the cookie. -/
structure Reply (Token : Type) where
  /-- The status code. -/
  code : ℕ
  /-- The text under `message`. -/
  message : String
  /-- What the browser is told to do with its cookie. -/
  cookie : Cookie Token

/-- The functions of `bcrypt`. -/
structure Bcrypt (Salt Hash : Type) where
  /-- The hash of a password, with the salt that was drawn for it. -/
  hash : Salt → String → Hash
  /-- Whether a password belongs to a hash. -/
  compare : String → Hash → Bool

/-- The functions of `jsonwebtoken` under the secret of the server. -/
structure Jwt (Id Token : Type) where
  /-- The token for a user, signed in a second to expire an hour later. -/
  sign : ℕ → Id → Token
  /-- The user of a token that is presented in a second, none where `jwt.verify`
  throws. -/
  verify : ℕ → Token → Option Id

/-! ## The database -/

section
variable (users : Users Id Hash)

/-- `User.findOne` with a condition on one field: the first match, none when the
cast fails. -/
def Users.findOne (key : UserDoc Id Hash → String) (field : BodyField) :
    Option (Option (UserDoc Id Hash)) :=
  field.condition.map fun holds => users.docs.find? fun d => holds (key d)

def Users.getUserByUsername (username : BodyField) : Option (Option (UserDoc Id Hash)) :=
  users.findOne UserDoc.username username

def Users.getUserByEmail (email : BodyField) : Option (Option (UserDoc Id Hash)) :=
  users.findOne UserDoc.email email

variable [DecidableEq Id]

/-- `User.create` of a document that passed validation; none for a duplicate key. -/
def Users.create (doc : UserDoc Id Hash) : Option (Users Id Hash) :=
  if h : ∀ d ∈ users.docs,
      d._id ≠ doc._id ∧ d.username ≠ doc.username ∧ d.email ≠ doc.email then
    some ⟨users.docs ++ [doc], nodup_concat users.ids_nodup fun d hd => (h d hd).1,
      nodup_concat users.usernames_nodup fun d hd => (h d hd).2.1,
      nodup_concat users.emails_nodup fun d hd => (h d hd).2.2⟩
  else none

/-- **`createUser`**: none when it throws. -/
def Users.createUser (username email : BodyField) (hashedPassword : Hash) (newId : Id) :
    Option (Users Id Hash) :=
  match username.required, email.required with
  | some username, some email => users.create ⟨newId, username, email, hashedPassword⟩
  | _, _ => none

end

/-- A user that is found has what was asked for. -/
theorem Users.findOne_eq_some {users : Users Id Hash} {key : UserDoc Id Hash → String}
    {field : BodyField} {d : UserDoc Id Hash} (h : users.findOne key field = some (some d)) :
    d ∈ users.docs ∧ ∃ holds, field.condition = some holds ∧ holds (key d) = true := by
  obtain ⟨holds, hholds, hfind⟩ := Option.map_eq_some_iff.mp h
  have hfound := List.find?_some hfind
  exact ⟨List.mem_of_find?_eq_some hfind, holds, hholds, hfound⟩

/-- What creating a user does. -/
theorem Users.of_createUser [DecidableEq Id] {users users' : Users Id Hash}
    {username email : BodyField} {hashedPassword : Hash} {newId : Id}
    (h : users.createUser username email hashedPassword newId = some users') :
    ∃ doc : UserDoc Id Hash, username = .value doc.username ∧ email = .value doc.email
      ∧ doc._id = newId ∧ doc.password = hashedPassword ∧ users'.docs = users.docs ++ [doc]
      ∧ ∀ d ∈ users.docs, d.Apart doc := by
  unfold createUser at h
  split at h
  · next username' email' husername hemail =>
    unfold create at h
    split at h
    · next hnew =>
      obtain rfl := Option.some.inj h
      exact ⟨⟨newId, username', email', hashedPassword⟩,
        BodyField.eq_value_of_required husername, BodyField.eq_value_of_required hemail,
        rfl, rfl, rfl, fun d hd => ⟨(hnew d hd).1, (hnew d hd).2.1, (hnew d hd).2.2⟩⟩
    · cases h
  · cases h

/-! ## The routes -/

/-- **What a request is about to do.** -/
inductive Stage (Id Hash Salt Token : Type)
  | getUserByUsername (body : Registration Id Salt)
  | getUserByEmail (body : Registration Id Salt)
  | hash (body : Registration Id Salt)
  | createUser (body : Registration Id Salt) (hashedPassword : Hash)
  /-- The lookup of a login. -/
  | findUser (body : Login)
  | compare (body : Login) (user : UserDoc Id Hash)
  | respond (reply : Reply Token)

/-- What both routes answer to an exception. -/
def serverError : Reply Token := ⟨500, "Server error", .kept⟩

def invalidCredentials : Reply Token := ⟨401, "Invalid credentials", .kept⟩

section
variable (B : Bcrypt Salt Hash) (J : Jwt Id Token)

def usernameRegistered (body : Registration Id Salt) : Reply Token :=
  ⟨409, "Username " ++ body.username.shown ++ " already registered.", .kept⟩

def emailRegistered (body : Registration Id Salt) : Reply Token :=
  ⟨409, "Email " ++ body.email.shown ++ " already registered.", .kept⟩

def registrationSuccessful (body : Registration Id Salt) : Reply Token :=
  ⟨201, "Registration successful", .set (J.sign body.now body.newId)⟩

/-- The answer to a login of a user who exists. -/
def loginReply (body : Login) (user : UserDoc Id Hash) : Reply Token :=
  match body.password with
  | none => serverError
  | some password =>
    if B.compare password user.password then
      ⟨200, "Login successful", .set (J.sign body.now user._id)⟩
    else invalidCredentials

/-- `GET /protected`. -/
def protectedReply (token : Option Token) (now : ℕ) : Reply Token :=
  match token with
  | none => ⟨401, "No token found", .kept⟩
  | some token =>
    match J.verify now token with
    | none => ⟨403, "Invalid or expired token", .kept⟩
    | some _ => ⟨200, "Protected data", .kept⟩

/-- What a request does before it waits. -/
def start : Request Id Salt Token → Stage Id Hash Salt Token
  | .register (some body) => .getUserByUsername body
  | .login (some body) => .findUser body
  | .register none | .login none => .respond serverError
  | .logout => .respond ⟨200, "Logged out", .cleared⟩
  | .getProtected token now => .respond (protectedReply J token now)

def answer : Stage Id Hash Salt Token → Option (Reply Token)
  | .respond reply => some reply
  | _ => none

/-- The stages at which a request has had no effect. -/
inductive Before : Request Id Salt Token → Stage Id Hash Salt Token → Prop
  | getUserByUsername (body : Registration Id Salt) :
    Before (.register (some body)) (.getUserByUsername body)
  | getUserByEmail (body : Registration Id Salt) :
    Before (.register (some body)) (.getUserByEmail body)
  | hash (body : Registration Id Salt) : Before (.register (some body)) (.hash body)
  | createUser (body : Registration Id Salt) {password : String}
    (h : body.password = some password) :
    Before (.register (some body)) (.createUser body (B.hash body.salt password))
  | findUser (body : Login) : Before (.login (some body)) (.findUser body)

/-- The stages at which its answer is settled. -/
inductive After : Reply Token → Stage Id Hash Salt Token → Prop
  | compare (body : Login) (user : UserDoc Id Hash) :
    After (loginReply B J body user) (.compare body user)
  | respond (reply : Reply Token) : After reply (.respond reply)

variable [DecidableEq Id]

/-- **What a request waits for, and does until it waits again.** -/
def act (users : Users Id Hash) :
    Stage Id Hash Salt Token → Users Id Hash × Stage Id Hash Salt Token
  | .getUserByUsername body =>
    match users.getUserByUsername body.username with
    | none => (users, .respond serverError)
    | some (some _) => (users, .respond (usernameRegistered body))
    | some none => (users, .getUserByEmail body)
  | .getUserByEmail body =>
    match users.getUserByEmail body.email with
    | none => (users, .respond serverError)
    | some (some _) => (users, .respond (emailRegistered body))
    | some none => (users, .hash body)
  | .hash body =>
    match body.password with
    | none => (users, .respond serverError)
    | some password => (users, .createUser body (B.hash body.salt password))
  | .createUser body hashedPassword =>
    match users.createUser body.username body.email hashedPassword body.newId with
    | none => (users, .respond serverError)
    | some users' => (users', .respond (registrationSuccessful J body))
  | .findUser body =>
    match users.getUserByUsername body.username with
    | none => (users, .respond serverError)
    | some none => (users, .respond invalidCredentials)
    | some (some user) => (users, .compare body user)
  | .compare body user => (users, .respond (loginReply B J body user))
  | .respond reply => (users, .respond reply)

/-- **The routes.** -/
def handler :
    Handler (Users Id Hash) (Request Id Salt Token) (Stage Id Hash Salt Token) (Reply Token) where
  start := start J
  act := act B J
  answer := answer

/-! ## Requests one after the other -/

/-- The next steps of a request, with no other request in between. -/
def finish :
    ℕ → Users Id Hash → Stage Id Hash Salt Token → Users Id Hash × Stage Id Hash Salt Token
  | 0, users, stage => (users, stage)
  | n + 1, users, stage => finish n (act B J users stage).1 (act B J users stage).2

/-- **A request served alone**; a registration has four steps, no request more. -/
def serve (users : Users Id Hash) (request : Request Id Salt Token) :
    Users Id Hash × Stage Id Hash Salt Token :=
  finish B J 4 users (start J request)

/-- **A registration that is not possible is refused**: for its name, for its
mail, or as a server error. -/
inductive Refuses (body : Registration Id Salt) : Reply Token → Prop
  | usernameRegistered : Refuses body (usernameRegistered body)
  | emailRegistered : Refuses body (emailRegistered body)
  | serverError : Refuses body serverError

/-- **The answers of a request served alone**. A registration that is refused
alone may also be refused in another way. -/
inductive Alone :
    Users Id Hash → Request Id Salt Token → Users Id Hash → Reply Token → Prop
  | served {users users' : Users Id Hash} {request : Request Id Salt Token} {reply : Reply Token}
    (h : serve B J users request = (users', .respond reply)) : Alone users request users' reply
  | refused {users : Users Id Hash} {body : Registration Id Salt} {reply reply' : Reply Token}
    (h : serve B J users (.register (some body)) = (users, .respond reply'))
    (halone : Refuses body reply') (hreply : Refuses body reply) :
    Alone users (.register (some body)) users reply

/-! ## Accounts -/

/-- A registration that is done at once: none when it is not possible. -/
def Users.register (users : Users Id Hash) (body : Registration Id Salt) :
    Option (Users Id Hash) :=
  body.password.bind fun password =>
    users.createUser body.username body.email (B.hash body.salt password) body.newId

/-- **What a request may be answered when it is done at once.** A registration
that is not possible may be told so in more than one way. -/
inductive Served :
    Users Id Hash → Request Id Salt Token → Users Id Hash → Reply Token → Prop
  | registered {users users' : Users Id Hash} {body : Registration Id Salt}
    (h : users.register B body = some users') :
    Served users (.register (some body)) users' (registrationSuccessful J body)
  | usernameTaken {users : Users Id Hash} {body : Registration Id Salt} {user : UserDoc Id Hash}
    (h : users.getUserByUsername body.username = some (some user)) :
    Served users (.register (some body)) users (usernameRegistered body)
  | emailTaken {users : Users Id Hash} {body : Registration Id Salt} {user : UserDoc Id Hash}
    (h : users.getUserByEmail body.email = some (some user)) :
    Served users (.register (some body)) users (emailRegistered body)
  | notRegistered {users : Users Id Hash} {body : Registration Id Salt}
    (h : users.register B body = none) : Served users (.register (some body)) users serverError
  | found {users : Users Id Hash} {body : Login} {user : UserDoc Id Hash}
    (h : users.getUserByUsername body.username = some (some user)) :
    Served users (.login (some body)) users (loginReply B J body user)
  | notFound {users : Users Id Hash} {body : Login}
    (h : users.getUserByUsername body.username = some none) :
    Served users (.login (some body)) users invalidCredentials
  | notRead {users : Users Id Hash} {body : Login}
    (h : users.getUserByUsername body.username = none) :
    Served users (.login (some body)) users serverError
  | registerWithoutBody {users : Users Id Hash} :
    Served users (.register none) users serverError
  | loginWithoutBody {users : Users Id Hash} : Served users (.login none) users serverError
  | logout {users : Users Id Hash} : Served users .logout users ⟨200, "Logged out", .cleared⟩
  | getProtected {users : Users Id Hash} (token : Option Token) (now : ℕ) :
    Served users (.getProtected token now) users (protectedReply J token now)

variable {B J}

theorem register_of_unread {users : Users Id Hash} {body : Registration Id Salt}
    (h : users.getUserByUsername body.username = none ∨ users.getUserByEmail body.email = none
      ∨ body.password = none) : users.register B body = none := by
  refine Option.bind_eq_none_iff.mpr fun password hpassword => ?_
  unfold Users.createUser
  rcases h with husername | hemail | hnone
  · rw [BodyField.required_of_condition (Option.map_eq_none_iff.mp husername)]
  · rw [BodyField.required_of_condition (Option.map_eq_none_iff.mp hemail)]
    cases body.username.required <;> rfl
  · rw [hnone] at hpassword
    cases hpassword

/-- A registration with a password is the insertion of its hash. -/
theorem register_of_password (users : Users Id Hash) {body : Registration Id Salt}
    {password : String} (h : body.password = some password) :
    users.register B body
      = users.createUser body.username body.email (B.hash body.salt password) body.newId := by
  rw [Users.register, h, Option.bind_some]

/-- A step before the effect of a request is without effect, or it is the effect. -/
theorem act_before {users : Users Id Hash} {request : Request Id Salt Token}
    {stage : Stage Id Hash Salt Token} (h : Before B request stage) :
    ((act B J users stage).1 = users ∧ Before B request (act B J users stage).2)
      ∨ ∃ reply, Served B J users request (act B J users stage).1 reply
        ∧ After B J reply (act B J users stage).2 := by
  cases h with
  | getUserByUsername body =>
    rw [act]
    match hfind : users.getUserByUsername body.username with
    | none => exact .inr ⟨_, .notRegistered (register_of_unread (.inl hfind)), .respond _⟩
    | some (some user) => exact .inr ⟨_, .usernameTaken hfind, .respond _⟩
    | some none => exact .inl ⟨rfl, .getUserByEmail body⟩
  | getUserByEmail body =>
    rw [act]
    match hfind : users.getUserByEmail body.email with
    | none => exact .inr ⟨_, .notRegistered (register_of_unread (.inr (.inl hfind))), .respond _⟩
    | some (some user) => exact .inr ⟨_, .emailTaken hfind, .respond _⟩
    | some none => exact .inl ⟨rfl, .hash body⟩
  | hash body =>
    rw [act]
    match hpassword : body.password with
    | none =>
      exact .inr ⟨_, .notRegistered (register_of_unread (.inr (.inr hpassword))), .respond _⟩
    | some password => exact .inl ⟨rfl, .createUser body hpassword⟩
  | @createUser body password hpassword =>
    have hregister := register_of_password users hpassword (B := B)
    rw [act]
    match hcreate : users.createUser body.username body.email (B.hash body.salt password)
        body.newId with
    -- another has taken the name in the meantime, or the document is not valid
    | none => exact .inr ⟨_, .notRegistered (hregister.trans hcreate), .respond _⟩
    | some users' => exact .inr ⟨_, .registered (hregister.trans hcreate), .respond _⟩
  | findUser body =>
    rw [act]
    match hfind : users.getUserByUsername body.username with
    | none => exact .inr ⟨_, .notRead hfind, .respond _⟩
    | some none => exact .inr ⟨_, .notFound hfind, .respond _⟩
    | some (some user) => exact .inr ⟨_, .found hfind, .compare body user⟩

variable (B J)

/-- **Every request takes effect at one of its steps**: a registration at its
insertion or at what refuses it, a login at its lookup. -/
def simulation : Simulation (handler B J) id (Served B J) where
  before := Before B
  after := After B J
  start request := by
    match request with
    | .register (some body) => exact .inl (.getUserByUsername body)
    | .login (some body) => exact .inl (.findUser body)
    | .register none => exact .inr ⟨_, fun _ => .registerWithoutBody, .respond _⟩
    | .login none => exact .inr ⟨_, fun _ => .loginWithoutBody, .respond _⟩
    | .logout => exact .inr ⟨_, fun _ => .logout, .respond _⟩
    | .getProtected token now => exact .inr ⟨_, fun _ => .getProtected token now, .respond _⟩
  act_before users request stage h _ := act_before h
  act_after users reply stage h hstage := by
    cases h with
    | compare body user => exact ⟨rfl, .respond _⟩
    | respond reply => cases hstage
  answer_before request stage h := by
    cases h <;> rfl
  answer_after reply reply' stage h hstage := by
    cases h with
    | compare body user => cases hstage
    | respond reply => exact Option.some.inj hstage

end

end AuthRoutes
