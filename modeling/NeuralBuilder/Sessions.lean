import NeuralBuilder.Accounts
import NeuralBuilder.ModelsServer

/-!
# Sessions

The Express server as a whole: the routes under `/api/auth` beside those that
read the token. Over every run, users and models look as if the server served
one request after the other (`server_linearized`). Two things show that it does
not: a registration that is refused may be refused in another way than alone,
and the documents of `modelInfo` are written apart from the models, so that what
`GET /api/process/:modelId` reads is left open.

Clients are only promised to send tokens they were given. Then whoever the
middleware lets through registered here and gave their password within the hour
(`request_authenticated`), and every model belongs to somebody who is registered
(`rows_registered`).

The whole server is one handler, made of the two (`Beside`), so that the theorem
on interleaved requests is one theorem. Time passes with the requests: a token
is signed at the second that a request comes with, and verifies for an hour.
-/

namespace Express

open Linearizable Runs AuthRoutes ExpressServer

variable {Id Hash Salt Token Data : Type} [DecidableEq Id]

section
variable (B : Bcrypt Salt Hash) (J : Jwt Id Token) (defData : Data)

/-- **The server**: users and models. -/
def server : Handler (Users Id Hash × Database Id Data)
    (AuthRoutes.Request Id Salt Token ⊕ ℕ × ExpressServer.Request Token Id Data)
    (Stage Id Hash Salt Token ⊕ (Operation Id Data ⊕ ExpressServer.Reply Id Data))
    (AuthRoutes.Reply Token ⊕ ExpressServer.Reply Id Data) :=
  (AuthRoutes.handler B J).prod (ExpressServer.handler J.verify defData)

end

/-- What there is to see of the server. -/
abbrev Seen (Id Salt Token Data : Type) : Type :=
  Event (AuthRoutes.Request Id Salt Token ⊕ ℕ × ExpressServer.Request Token Id Data)
    (AuthRoutes.Reply Token ⊕ ExpressServer.Reply Id Data)

/-- **No token is forged**: one that verifies was set by an answer before. -/
def Honest (J : Jwt Id Token) (es : List (Seen Id Salt Token Data)) : Prop :=
  ∀ t now req token id, .call t (.inr (now, req)) ∈ es → req.token = some token →
    J.verify now token = some id →
    ∃ t₀ reply₀, [.reply t₀ (.inl reply₀), .call t (.inr (now, req))].Sublist es
      ∧ reply₀.cookie = .set token

/-- **Tokens live for an hour**, and name whom they were signed for. -/
def Expires (J : Jwt Id Token) : Prop :=
  ∀ now iat id id', J.verify now (J.sign iat id) = some id' → id' = id ∧ now < iat + 3600

variable {B : Bcrypt Salt Hash} {J : Jwt Id Token} {defData : Data}
  {s s' : Linearizable.Server (Users Id Hash × Database Id Data)
    (Stage Id Hash Salt Token ⊕ (Operation Id Data ⊕ ExpressServer.Reply Id Data))}
  {es : List (Seen Id Salt Token Data)}

/-- Two registrations of one name at the same time, of which the second is lost.
Half an hour later the new user creates a model and asks for all models before
the creation is answered. -/
def visit : List (Seen ℕ ℕ (ℕ × ℕ) Unit) :=
  [.call 0 (.inl (.register (some (registration "ada" "ada@" 1 100)))),
    .call 2 (.inl (.register (some (registration "ada" "eve@" 2 100)))), .act 0, .act 2, .act 0,
    .act 2, .act 0, .act 2, .act 0, .act 2,
    .reply 0 (.inl (registrationSuccessful plainJwt (registration "ada" "ada@" 1 100))),
    .reply 2 (.inl serverError),
    .call 1 (.inr (1900, ⟨some (100, 1), .postModel (.value "net") .absent (.value "new") 7⟩)),
    .call 3 (.inr (1900, ⟨some (100, 1), .getModels⟩)), .act 1, .act 3,
    .reply 3 (.inr ⟨200, .models [⟨7, "net", none, "new", 1⟩]⟩), .act 1,
    .reply 1 (.inr ⟨201, .model ⟨7, "net", none, "new", 1⟩⟩)]

/-- No models. -/
def noModels : Database ℕ Unit := ⟨Collection.empty, []⟩

theorem exists_visit : ∃ s, Run (server plainBcrypt plainJwt ()).Step
    (Linearizable.Server.init (Users.empty, noModels)) visit s
      ∧ s.shared.2.models.docs = [⟨7, "net", none, "new", 1⟩] := by
  iterate 2 refine exists_run_cons (.call _ rfl) ?_
  iterate 8 refine exists_run_cons (.act rfl rfl) ?_
  iterate 2 refine exists_run_cons (.reply rfl rfl) ?_
  iterate 2 refine exists_run_cons (.call _ rfl) ?_
  iterate 2 refine exists_run_cons (.act rfl rfl) ?_
  refine exists_run_cons (.reply rfl rfl) ?_
  refine exists_run_cons (.act rfl rfl) ?_
  exact exists_run_cons (.reply rfl rfl) (exists_run_nil rfl)

theorem plainJwt_expires : Expires plainJwt := by
  intro now iat id id' h
  simp only [plainJwt] at h
  split at h
  · next hnow => exact ⟨(Option.some.inj h).symm, hnow⟩
  · cases h

theorem visit_honest : Honest plainJwt visit := by
  intro t now req token id hcall htoken hverify
  simp only [visit, List.mem_cons, reduceCtorEq, Event.call.injEq, Sum.inr.injEq, Prod.mk.injEq,
    List.not_mem_nil, false_or, or_false, and_false] at hcall
  -- both requests come after the registration is answered
  have hafter : ∀ {e : Seen ℕ ℕ (ℕ × ℕ) Unit}, e ∈ visit.drop 11 →
      [.reply 0 (.inl (registrationSuccessful plainJwt (registration "ada" "ada@" 1 100))),
        e].Sublist visit := fun he =>
    List.Sublist.trans (.cons_cons _ (List.singleton_sublist.mpr he)) (List.drop_sublist 10 visit)
  obtain ⟨rfl, rfl, rfl⟩ | ⟨rfl, rfl, rfl⟩ := hcall
  · obtain rfl := Option.some.inj htoken
    exact ⟨0, _, hafter (by simp [visit]), rfl⟩
  · obtain rfl := Option.some.inj htoken
    exact ⟨0, _, hafter (by simp [visit]), rfl⟩

/-- The server starts without users. -/
theorem exists_linearized {db : Database Id Data}
    (h : Run (server B J defData).Step (Linearizable.Server.init (Users.empty, db)) es s) :
    ∃ ds, Linearized (Beside (Served B J) (ExpressServer.Alone J.verify defData))
      (Users.empty, db.models) es (s.shared.1, s.shared.2.models) ds :=
  ((AuthRoutes.simulation B J).prod (ExpressServer.simulation J.verify defData)).linearized
    (fun _ => rfl) h

section
variable {Models : Type} {users : Users Id Hash} {models models' : Models}
  {atomic : Models → ℕ × ExpressServer.Request Token Id Data → Models →
    ExpressServer.Reply Id Data → Prop}
  {ds : List (Done (AuthRoutes.Request Id Salt Token ⊕ ℕ × ExpressServer.Request Token Id Data)
    (AuthRoutes.Reply Token ⊕ ExpressServer.Reply Id Data))}

/-- The cookie of a request that is let through comes from a registration or a
login. -/
theorem authenticated_of_linearized {t now : ℕ} {req : ExpressServer.Request Token Id Data}
    {user : Id} (hJ : Expires J)
    (hds : Linearized (Beside (Served B J) atomic) (Users.empty, models) es (users, models') ds)
    (hhonest : Honest J es) (hcall : .call t (.inr (now, req)) ∈ es)
    (huser : req.user (J.verify now) = some user) :
    ∃ t₀ body, ∃ doc ∈ users.docs, Event.call t₀ (.inl (.register (some body))) ∈ es
      ∧ body.Makes B doc ∧ doc._id = user
      ∧ (now < body.now + 3600 ∨ ∃ t₁ login, Event.call t₁ (.inl (.login (some login))) ∈ es
          ∧ login.Opens B doc ∧ now < login.now + 3600) := by
  obtain ⟨token, htoken, hverify⟩ := Option.bind_eq_some_iff.mp huser
  obtain ⟨t₁, reply₁, hsub, hcookie⟩ := hhonest t now req token user hcall htoken hverify
  obtain ⟨d₁, hd₁, -, houtcome⟩ := hds.answered t₁ (.inl reply₁) (hsub.subset List.mem_cons_self)
  obtain ⟨r₁, hmem₁⟩ := mem_left_of_outcome hds.legal hd₁ houtcome
  have hcalled : ∀ d : Done (AuthRoutes.Request Id Salt Token) (AuthRoutes.Reply Token),
      d ∈ ds.filterMap Done.left? → Event.call d.handle (.inl d.request) ∈ es :=
    fun d hd => (hds.called _ (mem_left_iff.mp hd) _).mpr rfl
  obtain ⟨d₀, hd₀, body, doc, hdoc, hrequest₀, hmakes, hopened⟩ :=
    opened_of_cookie hds.legal.split.1 hmem₁ hcookie
  have hcall₀ := hcalled d₀ hd₀
  rw [hrequest₀] at hcall₀
  obtain ⟨-, rfl⟩ | ⟨login, hrequest, hopens, rfl⟩ := hopened
  · obtain ⟨rfl, hnow⟩ := hJ now body.now doc._id user hverify
    exact ⟨d₀.handle, body, doc, hdoc, hcall₀, hmakes, rfl, .inl hnow⟩
  · obtain ⟨rfl, hnow⟩ := hJ now login.now doc._id user hverify
    have hcall₁ := hcalled _ hmem₁
    rw [hrequest] at hcall₁
    exact ⟨d₀.handle, body, doc, hdoc, hcall₀, hmakes, rfl,
      .inr ⟨d₁.handle, login, hcall₁, hopens, hnow⟩⟩

end

/-- **Whoever the middleware lets through is registered**, and registered or
logged in with a password of theirs within the last hour. -/
theorem request_authenticated {db : Database Id Data} {t now : ℕ}
    {req : ExpressServer.Request Token Id Data} {user : Id} (hJ : Expires J)
    (h : Run (server B J defData).Step (Linearizable.Server.init (Users.empty, db)) es s)
    (hhonest : Honest J es) (hcall : .call t (.inr (now, req)) ∈ es)
    (huser : req.user (J.verify now) = some user) :
    ∃ t₀ body, ∃ doc ∈ s.shared.1.docs, Event.call t₀ (.inl (.register (some body))) ∈ es
      ∧ body.Makes B doc ∧ doc._id = user
      ∧ (now < body.now + 3600 ∨ ∃ t₁ login, Event.call t₁ (.inl (.login (some login))) ∈ es
          ∧ login.Opens B doc ∧ now < login.now + 3600) := by
  obtain ⟨ds, hds⟩ := exists_linearized h
  exact authenticated_of_linearized hJ hds hhonest hcall huser

/-- Who created the model. -/
theorem visit_authenticated : ∃ s, Run (server plainBcrypt plainJwt ()).Step
    (Linearizable.Server.init (Users.empty, noModels)) visit s
      ∧ ∃ (t₀ : ℕ) (body : Registration ℕ ℕ), ∃ doc ∈ s.shared.1.docs,
      Event.call t₀ (.inl (.register (some body))) ∈ visit
      ∧ body.Makes plainBcrypt doc ∧ doc._id = 1
      ∧ (1900 < body.now + 3600 ∨ ∃ t₁ login, Event.call t₁ (.inl (.login (some login))) ∈ visit
          ∧ login.Opens plainBcrypt doc ∧ 1900 < login.now + 3600) := by
  obtain ⟨s, h, -⟩ := exists_visit
  have hcall : Event.call 1 (.inr (1900, ⟨some (100, 1),
      .postModel (.value "net") .absent (.value "new") 7⟩)) ∈ visit := by
    simp [visit]
  exact ⟨s, h, request_authenticated plainJwt_expires h visit_honest hcall rfl⟩

/-- **Every model belongs to a registered user**, in every run from no users and no
models in which clients only send tokens they were given. A row has the `userId` of the
token it was created with, and a token names a user who is there. -/
theorem rows_registered {db : Database Id Data} (hJ : Expires J) (hdb : db.models.docs = [])
    (h : Run (server B J defData).Step (Linearizable.Server.init (Users.empty, db)) es s)
    (hhonest : Honest J es) :
    ∀ row ∈ s.shared.2.models.docs, ∃ doc ∈ s.shared.1.docs, doc._id = row.userId := by
  intro row hrow
  obtain ⟨ds, hds⟩ := exists_linearized h
  obtain ⟨row', hrow', -⟩ | ⟨d, hd, huser⟩ := exists_owner hds.legal.split.2 hrow
  · rw [hdb] at hrow'
    cases hrow'
  · have hcall := (hds.called _ (mem_right_iff.mp hd) _).mpr rfl
    obtain ⟨-, -, doc, hdoc, -, -, hid, -⟩ :=
      authenticated_of_linearized hJ hds hhonest hcall huser
    exact ⟨doc, hdoc, hid⟩

/-- The model belongs to its user. -/
theorem visit_registered : ∃ s, Run (server plainBcrypt plainJwt ()).Step
    (Linearizable.Server.init (Users.empty, noModels)) visit s
      ∧ s.shared.2.models.docs = [⟨7, "net", none, "new", 1⟩]
      ∧ ∃ doc ∈ s.shared.1.docs, doc._id = 1 := by
  obtain ⟨s, h, hdocs⟩ := exists_visit
  refine ⟨s, h, hdocs,
    rows_registered plainJwt_expires rfl h visit_honest ⟨7, "net", none, "new", 1⟩ ?_⟩
  rw [hdocs]
  exact List.mem_cons_self

end Express
