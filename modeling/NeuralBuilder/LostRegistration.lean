import NeuralBuilder.Accounts

/-!
# Registrations that lose their name

Interleaving shows in one answer only. A registration finds neither its name nor
its mail taken, and its insertion fails all the same; it is then told of a
server error instead of the conflict. `serverError_lost` says that nothing else
is behind a server error to a valid registration, where the database and
`jwt.sign` do their work: at a moment after it was requested the name or the mail
was free, and at a later one, before its answer, it was taken.

The order of the routes cannot say this, since it puts a refused registration
where nothing shows of it. The proof follows the run itself: what a registration
has learnt from a lookup was so at a moment after its call (`Free`), and when
its insertion fails, one of the three indexes holds something that was not there
at that moment. `Keeps` is the invariant, with the prefix of the run as the
witness. The example is a race of two registrations of one name.
-/

namespace AuthRoutes

open Linearizable Runs

variable {Id Hash Salt Token : Type}

/-- **A body that is accepted** wherever name, mail and identity are free. -/
structure Registration.Valid (body : Registration Id Salt) : Prop where
  /-- The name is a string that is not empty, as the schema requires. -/
  username : ∃ text, text ≠ "" ∧ body.username = .value text
  /-- So is the mail. -/
  email : ∃ text, text ≠ "" ∧ body.email = .value text
  /-- The password is a string, which `bcrypt` requires. -/
  password : body.password ≠ none

/-- Somebody has the name. -/
def Users.HasUsername (users : Users Id Hash) (username : BodyField) : Prop :=
  ∃ doc ∈ users.docs, username = .value doc.username

/-- Somebody has the mail. -/
def Users.HasEmail (users : Users Id Hash) (email : BodyField) : Prop :=
  ∃ doc ∈ users.docs, email = .value doc.email

/-- A lookup of what somebody has finds somebody. -/
theorem findOne_value_ne {users : Users Id Hash} {key : UserDoc Id Hash → String}
    {doc : UserDoc Id Hash} (hdoc : doc ∈ users.docs) :
    users.findOne key (.value (key doc)) ≠ some none := by
  rw [Users.findOne, BodyField.condition, Option.map_some, ne_eq, Option.some.injEq,
    List.find?_eq_none]
  exact fun h => h doc hdoc (decide_eq_true rfl)

theorem not_hasUsername {users : Users Id Hash} {username : BodyField}
    (h : users.getUserByUsername username = some none) : ¬ users.HasUsername username := by
  rintro ⟨doc, hdoc, rfl⟩
  exact findOne_value_ne hdoc h

theorem not_hasEmail {users : Users Id Hash} {email : BodyField}
    (h : users.getUserByEmail email = some none) : ¬ users.HasEmail email := by
  rintro ⟨doc, hdoc, rfl⟩
  exact findOne_value_ne hdoc h

/-- What is read of a field of a valid body. -/
theorem Registration.Valid.read {body : Registration Id Salt} (h : body.Valid)
    (users : Users Id Hash) : users.getUserByUsername body.username ≠ none
      ∧ users.getUserByEmail body.email ≠ none := by
  obtain ⟨username, -, husername⟩ := h.username
  obtain ⟨email, -, hemail⟩ := h.email
  rw [husername, hemail]
  exact ⟨Option.some_ne_none _, Option.some_ne_none _⟩

variable [DecidableEq Id] {B : Bcrypt Salt Hash} {J : Jwt Id Token} {users : Users Id Hash}
  {s₀ s s' s₁ : Server (Users Id Hash) (Stage Id Hash Salt Token)}
  {es : List (Event (Request Id Salt Token) (Reply Token))}
  {e : Event (Request Id Salt Token) (Reply Token)} {t : ℕ}

/-- A valid registration that is not inserted. -/
theorem taken_of_createUser {body : Registration Id Salt} {hashedPassword : Hash}
    (hvalid : body.Valid)
    (h : users.createUser body.username body.email hashedPassword body.newId = none) :
    users.HasUsername body.username ∨ users.HasEmail body.email
      ∨ ∃ doc ∈ users.docs, doc._id = body.newId := by
  obtain ⟨username, husername, heq⟩ := hvalid.username
  obtain ⟨email, hemail, heq'⟩ := hvalid.email
  simp only [Users.createUser, heq, heq', BodyField.required, if_neg husername, if_neg hemail,
    Users.create, dite_eq_right_iff, reduceCtorEq, imp_false, not_forall] at h
  obtain ⟨doc, hdoc, hnot⟩ := h
  unfold Users.HasUsername Users.HasEmail
  by_cases hname : doc.username = username
  · exact .inl ⟨doc, hdoc, by rw [heq, hname]⟩
  by_cases hmail : doc.email = email
  · exact .inr (.inl ⟨doc, hdoc, by rw [heq', hmail]⟩)
  · exact .inr (.inr ⟨doc, hdoc, by tauto⟩)

/-! ## What a registration knows -/

/-- Since the request was made, there was a moment at which the users were so. -/
def Free (B : Bcrypt Salt Hash) (J : Jwt Id Token)
    (s₀ : Server (Users Id Hash) (Stage Id Hash Salt Token))
    (es : List (Event (Request Id Salt Token) (Reply Token)))
    (s : Server (Users Id Hash) (Stage Id Hash Salt Token)) (t : ℕ)
    (body : Registration Id Salt) (P : Users Id Hash → Prop) : Prop :=
  Since (handler B J).Step s₀ es s (.call t (.register (some body))) fun s => P s.shared

/-- **A registration is lost**: its name or its mail was free after it was
requested and is taken now, or the identity of its document is taken. -/
def Lost (B : Bcrypt Salt Hash) (J : Jwt Id Token)
    (s₀ : Server (Users Id Hash) (Stage Id Hash Salt Token))
    (es : List (Event (Request Id Salt Token) (Reply Token)))
    (s : Server (Users Id Hash) (Stage Id Hash Salt Token)) (t : ℕ)
    (body : Registration Id Salt) : Prop :=
  (Free B J s₀ es s t body (fun users => ¬ users.HasUsername body.username)
      ∧ s.shared.HasUsername body.username)
    ∨ (Free B J s₀ es s t body (fun users => ¬ users.HasEmail body.email)
      ∧ s.shared.HasEmail body.email)
    ∨ ∃ doc ∈ s.shared.docs, doc._id = body.newId

/-- **An answer is explained**: a server error to a valid registration has a
moment before it at which the registration was lost. -/
def Explained (B : Bcrypt Salt Hash) (J : Jwt Id Token)
    (s₀ : Server (Users Id Hash) (Stage Id Hash Salt Token))
    (es : List (Event (Request Id Salt Token) (Reply Token)))
    (s : Server (Users Id Hash) (Stage Id Hash Salt Token)) (t : ℕ) (reply : Reply Token) : Prop :=
  ∀ body, Event.call t (.register (some body)) ∈ es → body.Valid → reply.code = 500 →
    ∃ es₁ s₁ es₂, es = es₁ ++ es₂ ∧ Run (handler B J).Step s₀ es₁ s₁
      ∧ Run (handler B J).Step s₁ es₂ s ∧ Lost B J s₀ es₁ s₁ t body

/-- What a request knows from its lookups. -/
def Knows (B : Bcrypt Salt Hash) (J : Jwt Id Token)
    (s₀ : Server (Users Id Hash) (Stage Id Hash Salt Token))
    (es : List (Event (Request Id Salt Token) (Reply Token)))
    (s : Server (Users Id Hash) (Stage Id Hash Salt Token)) (t : ℕ) :
    Stage Id Hash Salt Token → Prop
  | .getUserByUsername _ => True
  | .getUserByEmail body => Free B J s₀ es s t body fun users => ¬ users.HasUsername body.username
  | .hash body | .createUser body _ =>
    Free B J s₀ es s t body (fun users => ¬ users.HasUsername body.username)
      ∧ Free B J s₀ es s t body fun users => ¬ users.HasEmail body.email
  | .findUser _ | .compare _ _ => ∀ body, Event.call t (.register (some body)) ∉ es
  | .respond reply => Explained B J s₀ es s t reply

omit [DecidableEq Id] in
/-- A call is not new when the event is none of that request. -/
theorem mem_of_mem_snoc {request : Request Id Salt Token} (he : ∀ request, e ≠ .call t request)
    (h : Event.call t request ∈ es ++ [e]) : Event.call t request ∈ es :=
  (List.mem_append.mp h).resolve_right fun hlast => he request (List.mem_singleton.mp hlast).symm

theorem Explained.snoc {reply : Reply Token} (h : Explained B J s₀ es s t reply)
    (hstep : (handler B J).Step s e s') (he : ∀ request, e ≠ .call t request) :
    Explained B J s₀ (es ++ [e]) s' t reply := by
  intro body hcall hvalid hcode
  obtain ⟨es₁, s₁, es₂, rfl, h₁, h₂, hlost⟩ := h body (mem_of_mem_snoc he hcall) hvalid hcode
  exact ⟨es₁, s₁, es₂ ++ [e], List.append_assoc _ _ _, h₁, h₂.append (.single hstep), hlost⟩

/-- What was known stays so. -/
theorem Knows.snoc {stage : Stage Id Hash Salt Token} (h : Knows B J s₀ es s t stage)
    (hstep : (handler B J).Step s e s') (he : ∀ request, e ≠ .call t request) :
    Knows B J s₀ (es ++ [e]) s' t stage := by
  cases stage with
  | getUserByUsername body => trivial
  | getUserByEmail body => exact Since.snoc h hstep
  | hash body => exact ⟨h.1.snoc hstep, h.2.snoc hstep⟩
  | createUser body hashedPassword => exact ⟨h.1.snoc hstep, h.2.snoc hstep⟩
  | findUser body => exact fun body' hcall => h body' (mem_of_mem_snoc he hcall)
  | compare body user => exact fun body' hcall => h body' (mem_of_mem_snoc he hcall)
  | respond reply => exact Explained.snoc h hstep he

/-- **A step of a request lets it know what it needs to**, still before the step. -/
theorem knows_act {request : Request Id Salt Token} {stage : Stage Id Hash Salt Token}
    (hrun : Run (handler B J).Step s₀ es s) (hcall : ∀ r, .call t r ∈ es ↔ r = request)
    (hwhere : Before B request stage ∨ ∃ reply, After B J reply stage)
    (h : Knows B J s₀ es s t stage) (hstage : answer stage = none) :
    Knows B J s₀ es s t (act B J s.shared stage).2 := by
  -- the body at a stage is the one that was sent
  have hsent : ∀ {body : Registration Id Salt}, request = .register (some body) →
      Event.call t (.register (some body)) ∈ es := fun heq => (hcall _).mpr heq.symm
  have hbody : ∀ {body body' : Registration Id Salt}, request = .register (some body) →
      .call t (.register (some body')) ∈ es → body' = body := fun heq hin =>
    Option.some.inj (Request.register.inj (((hcall _).mp hin).trans heq))
  have hother : ∀ {reply : Reply Token}, reply.code ≠ 500 → Explained B J s₀ es s t reply :=
    fun hcode _ _ _ hcode' => absurd hcode' hcode
  cases stage with
  | getUserByUsername body =>
    obtain hbefore | ⟨-, ⟨⟩⟩ := hwhere
    cases hbefore
    rw [act]
    cases hfind : s.shared.getUserByUsername body.username with
    | none =>
      intro body' hin hvalid
      obtain rfl := hbody rfl hin
      exact absurd hfind (hvalid.read s.shared).1
    | some found =>
      cases found with
      | none => exact .now hrun (hsent rfl) (not_hasUsername hfind)
      | some user => exact hother (show 409 ≠ 500 by decide)
  | getUserByEmail body =>
    obtain hbefore | ⟨-, ⟨⟩⟩ := hwhere
    cases hbefore
    rw [act]
    cases hfind : s.shared.getUserByEmail body.email with
    | none =>
      intro body' hin hvalid
      obtain rfl := hbody rfl hin
      exact absurd hfind (hvalid.read s.shared).2
    | some found =>
      cases found with
      | none => exact ⟨h, .now hrun (hsent rfl) (not_hasEmail hfind)⟩
      | some user => exact hother (show 409 ≠ 500 by decide)
  | hash body =>
    obtain hbefore | ⟨-, ⟨⟩⟩ := hwhere
    cases hbefore
    rw [act]
    cases hpassword : body.password with
    | none =>
      intro body' hin hvalid
      obtain rfl := hbody rfl hin
      exact absurd hpassword hvalid.password
    | some password => exact h
  | createUser body hashedPassword =>
    obtain hbefore | ⟨-, ⟨⟩⟩ := hwhere
    cases hbefore
    rw [act]
    cases hcreate : s.shared.createUser body.username body.email _ body.newId with
    | none =>
      intro body' hin hvalid hcode
      obtain rfl := hbody rfl hin
      refine ⟨es, s, [], (List.append_nil es).symm, hrun, .nil s, ?_⟩
      exact (taken_of_createUser hvalid hcreate).imp (fun hname => ⟨h.1, hname⟩)
        (Or.imp_left fun hmail => ⟨h.2, hmail⟩)
    | some users' => exact hother (show 201 ≠ 500 by decide)
  | findUser body =>
    rw [act]
    cases hfind : s.shared.getUserByUsername body.username with
    | none => exact fun body' hin => absurd hin (h body')
    | some found =>
      cases found with
      | none => exact fun body' hin => absurd hin (h body')
      | some user => exact h
  | compare body user => exact fun body' hin => absurd hin (h body')
  | respond reply => cases hstage

/-- **What a run keeps.** -/
structure Keeps (B : Bcrypt Salt Hash) (J : Jwt Id Token)
    (s₀ : Server (Users Id Hash) (Stage Id Hash Salt Token))
    (es : List (Event (Request Id Salt Token) (Reply Token)))
    (s : Server (Users Id Hash) (Stage Id Hash Salt Token)) : Prop where
  /-- The events lead here. -/
  run : Run (handler B J).Step s₀ es s
  /-- The requests can be put in order. -/
  linearized : ∃ ds, (simulation B J).Keeps s₀.shared es s ds
  /-- What a request has found was so at a moment after its call. -/
  knows : ∀ t stage, s.phase t = .busy stage → Knows B J s₀ es s t stage

/-- What a request knows when it comes in. -/
theorem knows_start {request : Request Id Salt Token}
    (hcall : ∀ r, .call t r ∈ es ↔ r = request) : Knows B J s₀ es s t (start J request) := by
  have hother : (∀ body, request ≠ .register (some body)) →
      ∀ body, Event.call t (.register (some body)) ∉ es :=
    fun hne body hin => hne body ((hcall _).mp hin).symm
  rcases request with (_ | body) | (_ | body) | _ | ⟨token, now⟩
  · exact fun body hin => absurd hin (hother (by simp) body)
  · trivial
  · exact fun body hin => absurd hin (hother (by simp) body)
  · exact hother (by simp)
  · exact fun body hin => absurd hin (hother (by simp) body)
  · exact fun body hin => absurd hin (hother (by simp) body)

/-- **The step lemma.** -/
theorem Keeps.step (h : Keeps B J s₀ es s) (hstep : (handler B J).Step s e s') :
    Keeps B J s₀ (es ++ [e]) s' := by
  obtain ⟨ds, hds⟩ := h.linearized
  refine ⟨h.run.append (.single hstep), hds.step hstep, fun t' stage hbusy => ?_⟩
  have hstep' := hstep
  cases hstep with
  | @call t r hidle =>
    by_cases hsame : t' = t
    · subst hsame
      rw [Server.phase_moved] at hbusy
      obtain rfl := Phase.busy.inj hbusy
      refine knows_start fun r' => ?_
      rw [List.mem_append, List.mem_singleton, or_iff_right (hds.idle t' r' hidle)]
      exact ⟨fun heq => (Event.call.inj heq).2, fun heq => by rw [heq]⟩
    · rw [Server.phase_moved_of_ne _ hsame] at hbusy
      exact (h.knows t' stage hbusy).snoc hstep' fun r' heq =>
        hsame (Event.call.inj heq).1.symm
  | @act t k hk hanswer =>
    by_cases hsame : t' = t
    · subst hsame
      rw [Server.phase_moved] at hbusy
      obtain rfl := Phase.busy.inj hbusy
      obtain ⟨r, hr, hwhere⟩ := hds.busy t' k hk
      have hknows := knows_act h.run hr
        (hwhere.imp And.right fun ⟨reply, _, hafter⟩ => ⟨reply, hafter⟩) (h.knows t' k hk) hanswer
      exact hknows.snoc hstep' fun r' heq => by cases heq
    · rw [Server.phase_moved_of_ne _ hsame] at hbusy
      exact (h.knows t' stage hbusy).snoc hstep' fun r' heq => by cases heq
  | @reply t k o hk hanswer =>
    by_cases hsame : t' = t
    · subst hsame
      rw [Server.phase_moved] at hbusy
      cases hbusy
    · rw [Server.phase_moved_of_ne _ hsame] at hbusy
      exact (h.knows t' stage hbusy).snoc hstep' fun r' heq => by cases heq

/-- **The run lemma.** -/
theorem keeps_of_run (hidle : ∀ t, s₀.phase t = .idle) (h : Run (handler B J).Step s₀ es s) :
    Keeps B J s₀ es s := by
  refine h.history (P := Keeps B J s₀) (fun _ _ _ _ hkeeps hstep => hkeeps.step hstep) ?_
  refine ⟨.nil s₀, ⟨[], ?_⟩, fun t stage hbusy => ?_⟩
  · refine ⟨⟨List.nodup_nil, rfl, by simp, by simp, by simp⟩, by simp, fun t k hk => ?_⟩
    rw [hidle t] at hk
    cases hk
  · rw [hidle t] at hbusy
    cases hbusy

/-- What is answered was about to be. -/
theorem explained_of_reply {reply : Reply Token} (h : Keeps B J s₀ es s)
    (hstep : (handler B J).Step s (.reply t reply) s') : Explained B J s₀ es s t reply := by
  cases hstep with
  | @reply _ k _ hk hanswer =>
    cases k with
    | respond reply' =>
      obtain rfl := Option.some.inj hanswer
      exact h.knows t _ hk
    | _ => cases hanswer

/-- A request is made before it is answered. -/
theorem call_before {request : Request Id Salt Token} {reply : Reply Token}
    {es' : List (Event (Request Id Salt Token) (Reply Token))} (h : Keeps B J s₀ es s)
    (hstep : (handler B J).Step s (.reply t reply) s') (hrun : Run (handler B J).Step s' es' s₁)
    (hidle : ∀ t, s₀.phase t = .idle)
    (hcall : .call t request ∈ es ++ .reply t reply :: es') : .call t request ∈ es := by
  obtain ⟨ds, hds⟩ := h.linearized
  obtain ⟨r, hr⟩ : ∃ r, Event.call t r ∈ es := by
    cases hstep with
    | reply hk hanswer =>
      obtain ⟨r, hr, -⟩ := hds.busy t _ hk
      exact ⟨r, (hr r).mpr rfl⟩
  -- in the whole run it is made once
  obtain ⟨ds', hds'⟩ := (simulation B J).linearized hidle (h.run.append (.cons hstep hrun))
  obtain ⟨d, hd, rfl, -⟩ := hds'.answered t reply (List.mem_append_right es List.mem_cons_self)
  have hsame := (hds'.called d hd request).mp hcall
  rw [← (hds'.called d hd r).mp (List.mem_append_left _ hr)] at hsame
  rwa [hsame]

/-- **A valid registration is told of a server error only when it is lost.** At a
moment between its request and its answer the name or the mail was taken, and
had been free at an earlier one since the request; or its document has an
identity that exists. -/
theorem serverError_lost {body : Registration Id Salt} {reply : Reply Token}
    (hidle : ∀ t, s.phase t = .idle) (h : Run (handler B J).Step s es s')
    (hcall : .call t (.register (some body)) ∈ es) (hreply : .reply t reply ∈ es)
    (hvalid : body.Valid) (hcode : reply.code = 500) :
    ∃ es₁ s₁ es₂, es = es₁ ++ es₂ ∧ Run (handler B J).Step s es₁ s₁
      ∧ Run (handler B J).Step s₁ es₂ s' ∧ .reply t reply ∈ es₂ ∧ Lost B J s es₁ s₁ t body := by
  obtain ⟨past, later, rfl⟩ := List.append_of_mem hreply
  obtain ⟨s₁, hpast, hlater⟩ := h.exists_of_append
  have hkeeps := keeps_of_run hidle hpast
  cases hlater with
  | cons hstep hrun =>
    have hcall := call_before hkeeps hstep hrun hidle hcall
    obtain ⟨es₁, s₁, es₂, rfl, h₁, h₂, hlost⟩ :=
      explained_of_reply hkeeps hstep body hcall hvalid hcode
    refine ⟨es₁, s₁, es₂ ++ .reply t reply :: later, List.append_assoc _ _ _, h₁,
      h₂.append (.cons hstep hrun), List.mem_append_right _ List.mem_cons_self, hlost⟩

/-- Two registrations of one name, step by step at the same time. -/
def race : List (Event (Request ℕ ℕ (ℕ × ℕ)) (Reply (ℕ × ℕ))) :=
  [.call 0 (.register (some (registration "ada" "ada@" 1 100))),
    .call 1 (.register (some (registration "ada" "eve@" 2 100))), .act 0, .act 1, .act 0, .act 1,
    .act 0, .act 1, .act 0, .act 1, .reply 1 serverError]

theorem exists_race :
    ∃ s, Run (handler plainBcrypt plainJwt).Step (Server.init Users.empty) race s
      ∧ s.shared.docs.map UserDoc.email = ["ada@"] := by
  iterate 2 refine exists_run_cons (.call _ rfl) ?_
  iterate 8 refine exists_run_cons (.act rfl rfl) ?_
  exact exists_run_cons (.reply rfl rfl) (exists_run_nil rfl)

/-- The second of them is lost. -/
theorem race_lost : ∃ es₁ s₁, ∃ s : Server (Users ℕ (ℕ × String)) (Stage ℕ (ℕ × String) ℕ (ℕ × ℕ)),
    ∃ es₂, race = es₁ ++ es₂
      ∧ Run (handler plainBcrypt plainJwt).Step (Server.init Users.empty) es₁ s₁
      ∧ Run (handler plainBcrypt plainJwt).Step s₁ es₂ s ∧ .reply 1 serverError ∈ es₂
      ∧ Lost plainBcrypt plainJwt (Server.init Users.empty) es₁ s₁ 1
        (registration "ada" "eve@" 2 100) := by
  obtain ⟨s, h, -⟩ := exists_race
  have hreply : Event.reply 1 serverError ∈ race := by simp [race]
  have hvalid : (registration "ada" "eve@" 2 100).Valid :=
    ⟨⟨"ada", by decide, rfl⟩, ⟨"eve@", by decide, rfl⟩, Option.some_ne_none _⟩
  obtain ⟨es₁, s₁, es₂, hes, h₁, h₂, hafter, hlost⟩ :=
    serverError_lost (fun _ => rfl) h (by simp [race]) hreply hvalid rfl
  exact ⟨es₁, s₁, s, es₂, hes, h₁, h₂, hafter, hlost⟩

end AuthRoutes
