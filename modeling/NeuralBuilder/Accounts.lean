import NeuralBuilder.AuthRoutes

/-!
# Accounts

What holds of the routes under `/api/auth` over every run, in whatever order
the steps of their requests come. A token is only given out for a user who is
registered, to a request that presents a password of theirs
(`registered_of_cookie`); two registrations that succeed share neither name nor
mail (`registrations_apart`); a login that is made after a registration has
succeeded is decided by the password (`login_after_registration`).

All three are read off the order that the simulation of `AuthRoutes` gives: what
an answer says is first said of the routes done one after the other, where a
user once made stays (`Served.docs_cases`), and the run only has to be put in
that order. Nothing is assumed of `bcrypt` and of `jsonwebtoken`: who knows a
token that was not given out is a matter of `Sessions`.
-/

namespace AuthRoutes

open Linearizable Runs

variable {Id Hash Salt Token : Type}

/-- **A document is the one that a registration makes.** -/
structure Registration.Makes (B : Bcrypt Salt Hash) (body : Registration Id Salt)
    (doc : UserDoc Id Hash) : Prop where
  /-- The name it asks for, which is a string. -/
  username : body.username = .value doc.username
  /-- Its mail, which is a string too. -/
  email : body.email = .value doc.email
  /-- The identity that Mongoose made for it. -/
  _id : doc._id = body.newId
  /-- The hash of the password, with the salt that was drawn for it. -/
  password : ∃ password, body.password = some password ∧ doc.password = B.hash body.salt password

/-- **A login presents a password of a user**. Its username need not be the name
of the user: an object in its place is a condition in the query, and
`{ "$ne": "" }` holds of every name. -/
structure Login.Opens (B : Bcrypt Salt Hash) (login : Login) (doc : UserDoc Id Hash) : Prop where
  /-- The condition that the login puts on the name holds of the user's. -/
  username : ∃ holds, login.username.condition = some holds ∧ holds doc.username = true
  /-- `bcrypt` accepts its password for the stored hash. -/
  password : ∃ password, login.password = some password ∧ B.compare password doc.password = true

variable [DecidableEq Id] {B : Bcrypt Salt Hash} {J : Jwt Id Token} {users users' : Users Id Hash}

theorem of_register {body : Registration Id Salt} (h : users.register B body = some users') :
    ∃ doc, body.Makes B doc ∧ users'.docs = users.docs ++ [doc]
      ∧ ∀ d ∈ users.docs, d.Apart doc := by
  obtain ⟨password, hpassword, hcreate⟩ := Option.bind_eq_some_iff.mp h
  obtain ⟨doc, husername, hemail, hid, hhash, hdocs, hapart⟩ := Users.of_createUser hcreate
  exact ⟨doc, ⟨husername, hemail, hid, password, hpassword, hhash⟩, hdocs, hapart⟩

/-- **What a request does to the users**: nothing, unless it is a registration
that succeeds. -/
theorem Served.docs_cases {request : Request Id Salt Token} {reply : Reply Token}
    (h : Served B J users request users' reply) :
    users' = users ∨ ∃ body doc, request = .register (some body)
      ∧ reply = registrationSuccessful J body ∧ body.Makes B doc
      ∧ users'.docs = users.docs ++ [doc] ∧ ∀ d ∈ users.docs, d.Apart doc := by
  cases h with
  | @registered _ body hregister =>
    obtain ⟨doc, hmakes, hdocs, hapart⟩ := of_register hregister
    exact .inr ⟨body, doc, rfl, rfl, hmakes, hdocs, hapart⟩
  | _ => exact .inl rfl

/-- Users stay. -/
theorem Served.subset {request : Request Id Salt Token} {reply : Reply Token}
    (h : Served B J users request users' reply) : users.docs ⊆ users'.docs := by
  obtain rfl | ⟨body, doc, -, -, -, hdocs, -⟩ := h.docs_cases
  · exact List.Subset.refl _
  · rw [hdocs]
    exact List.subset_append_left _ _

theorem subset_of_legal {ds : List (Done (Request Id Salt Token) (Reply Token))}
    (h : Legal (Served B J) users ds users') : users.docs ⊆ users'.docs :=
  h.invariant (P := fun u => users.docs ⊆ u.docs)
    (fun _ _ _ _ hsub hserved => List.Subset.trans hsub hserved.subset) (List.Subset.refl _)

/-- **Every user is registered.** -/
theorem exists_registration {ds : List (Done (Request Id Salt Token) (Reply Token))}
    (h : Legal (Served B J) users ds users') {doc : UserDoc Id Hash} (hdoc : doc ∈ users'.docs) :
    doc ∈ users.docs ∨ ∃ d ∈ ds, ∃ body, d.request = .register (some body)
      ∧ d.outcome = registrationSuccessful J body ∧ body.Makes B doc := by
  induction ds generalizing users with
  | nil => exact .inl (h ▸ hdoc)
  | cons d ds ih =>
    obtain ⟨users₁, hserved, hlegal⟩ := h
    rcases ih hlegal with hin | ⟨d', hd', hbody⟩
    · obtain heq | ⟨body, doc', hrequest, houtcome, hmakes, hdocs, -⟩ := hserved.docs_cases
      · exact .inl (heq ▸ hin)
      · rw [hdocs, List.mem_append, List.mem_singleton] at hin
        obtain hold | rfl := hin
        · exact .inl hold
        · exact .inr ⟨d, List.mem_cons_self, body, hrequest, houtcome, hmakes⟩
    · exact .inr ⟨d', List.mem_cons_of_mem d hd', hbody⟩

/-- **What sets a cookie.** -/
theorem Served.cookie_cases {request : Request Id Salt Token} {reply : Reply Token} {token : Token}
    (h : Served B J users request users' reply) (hcookie : reply.cookie = .set token) :
    (∃ body doc, request = .register (some body) ∧ reply = registrationSuccessful J body
        ∧ body.Makes B doc ∧ doc ∈ users'.docs ∧ token = J.sign body.now doc._id)
      ∨ ∃ login doc, request = .login (some login) ∧ login.Opens B doc ∧ doc ∈ users'.docs
        ∧ token = J.sign login.now doc._id := by
  cases h with
  | @registered _ body hregister =>
    obtain ⟨doc, hmakes, hdocs, -⟩ := of_register hregister
    refine .inl ⟨body, doc, rfl, rfl, hmakes, ?_, ?_⟩
    · rw [hdocs]
      exact List.mem_append_right _ List.mem_cons_self
    · rw [hmakes._id]
      exact (Cookie.set.inj hcookie).symm
  | @found login doc hfind =>
    obtain ⟨hmem, hholds⟩ := Users.findOne_eq_some hfind
    unfold loginReply at hcookie
    split at hcookie
    · cases hcookie
    · next password hpassword =>
      split at hcookie
      · next hcompare =>
        exact .inr ⟨login, doc, rfl, ⟨hholds, password, hpassword, hcompare⟩, hmem,
          (Cookie.set.inj hcookie).symm⟩
      · cases hcookie
  | getProtected token' now =>
    unfold protectedReply at hcookie
    split at hcookie
    · cases hcookie
    · split at hcookie <;> cases hcookie
  | _ => cases hcookie

/-- **Who is given a token.** -/
theorem opened_of_cookie {ds : List (Done (Request Id Salt Token) (Reply Token))}
    {d : Done (Request Id Salt Token) (Reply Token)} {token : Token}
    (h : Legal (Served B J) Users.empty ds users) (hd : d ∈ ds)
    (hcookie : d.outcome.cookie = .set token) :
    ∃ d₀ ∈ ds, ∃ body, ∃ doc ∈ users.docs, d₀.request = .register (some body) ∧ body.Makes B doc
      ∧ ((d = d₀ ∧ token = J.sign body.now doc._id)
        ∨ ∃ login, d.request = .login (some login) ∧ login.Opens B doc
          ∧ token = J.sign login.now doc._id) := by
  obtain ⟨ds₁, ds₂, users₁, users₂, hds, h₁, hserved, h₂⟩ := h.exists_of_mem hd
  obtain ⟨body, doc, hrequest, -, hmakes, hdoc, htoken⟩ | ⟨login, doc, hrequest, hopens, hdoc,
    htoken⟩ := hserved.cookie_cases hcookie
  · exact ⟨d, hd, body, doc, subset_of_legal h₂ hdoc, hrequest, hmakes, .inl ⟨rfl, htoken⟩⟩
  · have hin := subset_of_legal h₂ hdoc
    obtain hnone | ⟨d₀, hd₀, body, hrequest₀, -, hmakes⟩ := exists_registration h hin
    · cases hnone
    · exact ⟨d₀, hd₀, body, doc, hin, hrequest₀, hmakes, .inr ⟨login, hrequest, hopens, htoken⟩⟩

/-- A `bcrypt` that keeps the password beside its salt. -/
def plainBcrypt : Bcrypt ℕ (ℕ × String) where
  hash salt password := (salt, password)
  compare password hashedPassword := password = hashedPassword.2

/-- A `jsonwebtoken` that keeps the second and the identity. -/
def plainJwt : Jwt ℕ (ℕ × ℕ) where
  sign iat id := (iat, id)
  verify now token := if now < token.1 + 3600 then some token.2 else none

/-- A registration. -/
def registration (username email : String) (newId now : ℕ) : Registration ℕ ℕ :=
  ⟨.value username, .value email, some "secret", 0, newId, now⟩

/-- Two registrations at the same time, and a login when the first of them is
answered and the second is not. -/
def visits : List (Event (Request ℕ ℕ (ℕ × ℕ)) (Reply (ℕ × ℕ))) :=
  [.call 0 (.register (some (registration "ada" "ada@" 1 100))),
    .call 1 (.register (some (registration "bob" "bob@" 2 200))),
    .act 0, .act 1, .act 0, .act 1, .act 1, .act 0, .act 0,
    .reply 0 (registrationSuccessful plainJwt (registration "ada" "ada@" 1 100)),
    .call 2 (.login (some ⟨.value "ada", some "secret", 300⟩)), .act 2, .act 1, .act 2,
    .reply 2 ⟨200, "Login successful", .set (300, 1)⟩,
    .reply 1 (registrationSuccessful plainJwt (registration "bob" "bob@" 2 200))]

theorem exists_visits :
    ∃ s, Run (handler plainBcrypt plainJwt).Step (Server.init Users.empty) visits s
      ∧ s.shared.docs.map UserDoc.username = ["ada", "bob"] := by
  iterate 2 refine exists_run_cons (.call _ rfl) ?_
  iterate 7 refine exists_run_cons (.act rfl rfl) ?_
  refine exists_run_cons (.reply rfl rfl) ?_
  refine exists_run_cons (.call _ rfl) ?_
  iterate 3 refine exists_run_cons (.act rfl rfl) ?_
  refine exists_run_cons (.reply rfl rfl) ?_
  exact exists_run_cons (.reply rfl rfl) (exists_run_nil rfl)

variable {s s' : Server (Users Id Hash) (Stage Id Hash Salt Token)}
  {es : List (Event (Request Id Salt Token) (Reply Token))}

/-- **A token names a registered user, and was given out for their password.**
Whatever sets the cookie was a registration, or a login with a password of a
user whom a registration has made; the token is signed for that user. -/
theorem registered_of_cookie {t : ℕ} {reply : Reply Token} {token : Token}
    (h : Run (handler B J).Step (Server.init Users.empty) es s) (hreply : .reply t reply ∈ es)
    (hcookie : reply.cookie = .set token) :
    ∃ t₀ body, ∃ doc ∈ s.shared.docs, Event.call t₀ (.register (some body)) ∈ es
      ∧ body.Makes B doc
      ∧ ((t = t₀ ∧ token = J.sign body.now doc._id)
        ∨ ∃ login, Event.call t (.login (some login)) ∈ es ∧ login.Opens B doc
          ∧ token = J.sign login.now doc._id) := by
  obtain ⟨ds, hds⟩ := (simulation B J).linearized (fun _ => rfl) h
  obtain ⟨d, hd, rfl, rfl⟩ := hds.answered t reply hreply
  obtain ⟨d₀, hd₀, body, doc, hdoc, hrequest₀, hmakes, hopened⟩ :=
    opened_of_cookie hds.legal hd hcookie
  refine ⟨d₀.handle, body, doc, hdoc, (hds.called d₀ hd₀ _).mpr hrequest₀.symm, hmakes, ?_⟩
  obtain ⟨rfl, htoken⟩ | ⟨login, hrequest, hopens, htoken⟩ := hopened
  · exact .inl ⟨rfl, htoken⟩
  · exact .inr ⟨login, (hds.called d hd _).mpr hrequest.symm, hopens, htoken⟩

/-- The token of the login names the user of the first registration. -/
theorem registered_of_visits :
    ∃ s, Run (handler plainBcrypt plainJwt).Step (Server.init Users.empty) visits s
      ∧ ∃ (t₀ : ℕ) (body : Registration ℕ ℕ), ∃ doc ∈ s.shared.docs,
      Event.call t₀ (.register (some body)) ∈ visits ∧ body.Makes plainBcrypt doc
      ∧ ((2 = t₀ ∧ (300, 1) = plainJwt.sign body.now doc._id)
        ∨ ∃ login, Event.call 2 (.login (some login)) ∈ visits ∧ login.Opens plainBcrypt doc
          ∧ (300, 1) = plainJwt.sign login.now doc._id) := by
  obtain ⟨s, h, -⟩ := exists_visits
  have hreply : Event.reply 2 ⟨200, "Login successful", .set (300, 1)⟩ ∈ visits := by simp [visits]
  exact ⟨s, h, registered_of_cookie h hreply rfl⟩

/-- A registration that is answered 201 has made its user. -/
theorem Served.of_created {body : Registration Id Salt} {reply : Reply Token}
    (h : Served B J users (.register (some body)) users' reply) (hcode : reply.code = 201) :
    ∃ doc, body.Makes B doc ∧ users'.docs = users.docs ++ [doc]
      ∧ ∀ d ∈ users.docs, d.Apart doc := by
  cases h with
  | registered hregister => exact of_register hregister
  | usernameTaken => cases hcode
  | emailTaken => cases hcode
  | notRegistered => cases hcode

/-- The second of two registrations that succeed finds the user of the first. -/
theorem apart_of_sublist {ds : List (Done (Request Id Salt Token) (Reply Token))}
    {d₁ d₂ : Done (Request Id Salt Token) (Reply Token)} {body₁ body₂ : Registration Id Salt}
    (h : Legal (Served B J) users ds users') (hsub : [d₁, d₂].Sublist ds)
    (hrequest₁ : d₁.request = .register (some body₁))
    (hrequest₂ : d₂.request = .register (some body₂)) (hcode₁ : d₁.outcome.code = 201)
    (hcode₂ : d₂.outcome.code = 201) :
    ∃ doc₁ ∈ users'.docs, ∃ doc₂ ∈ users'.docs,
      body₁.Makes B doc₁ ∧ body₂.Makes B doc₂ ∧ doc₁.Apart doc₂ := by
  obtain ⟨-, ds₂, ds₃, users₁, users₂, users₃, users₄, -, hserved₁, hlegal, hserved₂, hend⟩ :=
    h.exists_of_sublist hsub
  rw [hrequest₁] at hserved₁
  rw [hrequest₂] at hserved₂
  obtain ⟨doc₁, hmakes₁, hdocs₁, -⟩ := hserved₁.of_created hcode₁
  obtain ⟨doc₂, hmakes₂, hdocs₂, hapart⟩ := hserved₂.of_created hcode₂
  have hdoc₁ : doc₁ ∈ users₃.docs := by
    refine subset_of_legal hlegal ?_
    rw [hdocs₁]
    exact List.mem_append_right _ List.mem_cons_self
  have hdoc₂ : doc₂ ∈ users₄.docs := by
    rw [hdocs₂]
    exact List.mem_append_right _ List.mem_cons_self
  exact ⟨doc₁, subset_of_legal hend (hserved₂.subset hdoc₁), doc₂, subset_of_legal hend hdoc₂,
    hmakes₁, hmakes₂, hapart doc₁ hdoc₁⟩

/-- **Two registrations that succeed make two users**, who are both there at the end and
differ in name, mail and identity. Their lookups may both have found nothing: it is the
unique indexes that keep them apart. -/
theorem registrations_apart {t₁ t₂ : ℕ} {body₁ body₂ : Registration Id Salt}
    {reply₁ reply₂ : Reply Token} (hidle : ∀ t, s.phase t = .idle)
    (h : Run (handler B J).Step s es s') (hne : t₁ ≠ t₂)
    (hcall₁ : .call t₁ (.register (some body₁)) ∈ es)
    (hcall₂ : .call t₂ (.register (some body₂)) ∈ es)
    (hreply₁ : .reply t₁ reply₁ ∈ es) (hreply₂ : .reply t₂ reply₂ ∈ es)
    (hcode₁ : reply₁.code = 201) (hcode₂ : reply₂.code = 201) :
    ∃ doc₁ ∈ s'.shared.docs, ∃ doc₂ ∈ s'.shared.docs,
      body₁.Makes B doc₁ ∧ body₂.Makes B doc₂ ∧ doc₁.Apart doc₂ := by
  obtain ⟨ds, hds⟩ := (simulation B J).linearized hidle h
  obtain ⟨d₁, hd₁, rfl, rfl⟩ := hds.answered t₁ reply₁ hreply₁
  obtain ⟨d₂, hd₂, rfl, rfl⟩ := hds.answered t₂ reply₂ hreply₂
  have hrequest₁ := ((hds.called d₁ hd₁ _).mp hcall₁).symm
  have hrequest₂ := ((hds.called d₂ hd₂ _).mp hcall₂).symm
  rcases sublist_or_sublist (fun heq => hne (congrArg Done.handle heq)) hd₁ hd₂ with hsub | hsub
  · exact apart_of_sublist hds.legal hsub hrequest₁ hrequest₂ hcode₁ hcode₂
  · obtain ⟨doc₂, hdoc₂, doc₁, hdoc₁, hmakes₂, hmakes₁, hapart⟩ :=
      apart_of_sublist hds.legal hsub hrequest₂ hrequest₁ hcode₂ hcode₁
    exact ⟨doc₁, hdoc₁, doc₂, hdoc₂, hmakes₁, hmakes₂, hapart._id.symm, hapart.username.symm,
      hapart.email.symm⟩

/-- The users of two registrations that overlap. -/
theorem visits_apart :
    ∃ s, Run (handler plainBcrypt plainJwt).Step (Server.init Users.empty) visits s
      ∧ ∃ doc₁ ∈ s.shared.docs, ∃ doc₂ ∈ s.shared.docs,
      (registration "ada" "ada@" 1 100).Makes plainBcrypt doc₁
      ∧ (registration "bob" "bob@" 2 200).Makes plainBcrypt doc₂ ∧ doc₁.Apart doc₂ := by
  obtain ⟨s, h, -⟩ := exists_visits
  have hreply₀ : Event.reply 0
      (registrationSuccessful plainJwt (registration "ada" "ada@" 1 100)) ∈ visits := by
    simp [visits]
  have hreply₁ : Event.reply 1
      (registrationSuccessful plainJwt (registration "bob" "bob@" 2 200)) ∈ visits := by
    simp [visits]
  exact ⟨s, h, registrations_apart (fun _ => rfl) h (by decide) (by simp [visits])
    (by simp [visits]) hreply₀ hreply₁ rfl rfl⟩

end AuthRoutes
