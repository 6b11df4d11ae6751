import Mathlib.Data.List.Nodup
import NeuralBuilder.Library.Runs

/-!
# Requests that take effect at once

A server works on many requests at a time: each waits between its steps, and
steps of others come in between. To its clients it may still look as if it did
one request after the other. `Linearized` says so of what clients see of a run,
against any description `atomic` of a request done at once: there is an order of
the requests in which their answers are those of `atomic`, and no request comes
in it before one that was answered when it was made.

A `Simulation` names the step at which each request takes effect, and
`Simulation.linearized` is the rule: it says what one step does, and the runs
follow.
-/

namespace Linearizable

open Runs

variable {σ σ' α α' ρ ρ' κ κ' ο ο' : Type}

/-! ## Servers -/

/-- **What there is to see of a server**: the request `t` is made, does a step,
is answered. -/
inductive Event (ρ ο : Type)
  | call (t : ℕ) (r : ρ)
  | act (t : ℕ)
  | reply (t : ℕ) (o : ο)

/-- **A handler**: what a request is about to do first, what a step of it does to
the state that requests share, and what it is answered when it has done all. -/
structure Handler (σ ρ κ ο : Type) where
  /-- Where a request stands when it comes in. -/
  start : ρ → κ
  /-- Its next step, and where it stands then. -/
  act : σ → κ → σ × κ
  /-- What it is answered, once it has nothing left to do. -/
  answer : κ → Option ο

/-- Where a request is. -/
inductive Phase (κ : Type)
  | idle
  | busy (k : κ)
  | over

/-- **A server**: the state requests share, and every request. -/
structure Server (σ κ : Type) where
  /-- What all requests read and write. -/
  shared : σ
  /-- Where the request of each number is. -/
  phase : ℕ → Phase κ

/-- A server before its first request. -/
def Server.init (a : σ) : Server σ κ := ⟨a, fun _ => .idle⟩

/-- Where the request `t` is next. -/
def Server.moved (s : Server σ κ) (t : ℕ) (p : Phase κ) : Server σ κ :=
  { s with phase := Function.update s.phase t p }

theorem Server.phase_moved (s : Server σ κ) (t : ℕ) (p : Phase κ) : (s.moved t p).phase t = p := by
  simp only [Server.moved, Function.update_self]

theorem Server.phase_moved_of_ne (s : Server σ κ) {t t' : ℕ} (h : t' ≠ t) (p : Phase κ) :
    (s.moved t p).phase t' = s.phase t' := by
  simp only [Server.moved, Function.update_of_ne h]

/-- **A step of the server** is a step of one request. -/
inductive Handler.Step (H : Handler σ ρ κ ο) : Server σ κ → Event ρ ο → Server σ κ → Prop
  | call {s : Server σ κ} {t : ℕ} (r : ρ) (h : s.phase t = .idle) :
    Step H s (.call t r) (s.moved t (.busy (H.start r)))
  | act {s : Server σ κ} {t : ℕ} {k : κ} (h : s.phase t = .busy k) (hk : H.answer k = none) :
    Step H s (.act t)
      ({ s with shared := (H.act s.shared k).1 }.moved t (.busy (H.act s.shared k).2))
  | reply {s : Server σ κ} {t : ℕ} {k : κ} {o : ο} (h : s.phase t = .busy k)
    (hk : H.answer k = some o) :
    Step H s (.reply t o) (s.moved t .over)

/-! ## One request after the other -/

/-- A request with its answer. -/
structure Done (ρ ο : Type) where
  /-- The number of the request. -/
  handle : ℕ
  /-- What was asked for. -/
  request : ρ
  /-- What was answered. -/
  outcome : ο

/-- **The requests, done at once one after the other**, take the first state to
the second. -/
def Legal (atomic : α → ρ → α → ο → Prop) : α → List (Done ρ ο) → α → Prop
  | a, [], b => a = b
  | a, d :: ds, b => ∃ c, atomic a d.request c d.outcome ∧ Legal atomic c ds b

variable {atomic : α → ρ → α → ο → Prop} {a b c : α} {d : Done ρ ο} {ds ds' : List (Done ρ ο)}

theorem legal_append :
    Legal atomic a (ds ++ ds') b ↔ ∃ c, Legal atomic a ds c ∧ Legal atomic c ds' b := by
  induction ds generalizing a with
  | nil => simp [Legal]
  | cons d ds ih =>
    simp only [List.cons_append, Legal, ih]
    exact ⟨fun ⟨c, hc, e, he, hb⟩ => ⟨e, ⟨c, hc, he⟩, hb⟩,
      fun ⟨e, ⟨c, hc, he⟩, hb⟩ => ⟨c, hc, e, he, hb⟩⟩

theorem Legal.concat (h : Legal atomic a ds b) (hd : atomic b d.request c d.outcome) :
    Legal atomic a (ds ++ [d]) c :=
  legal_append.mpr ⟨b, h, c, hd, rfl⟩

/-- What is legal of some descriptions of a request is legal of more. -/
theorem Legal.mono {atomic' : α → ρ → α → ο → Prop}
    (hatomic : ∀ a r b o, atomic a r b o → atomic' a r b o) (h : Legal atomic a ds b) :
    Legal atomic' a ds b := by
  induction ds generalizing a with
  | nil => exact h
  | cons d ds ih =>
    obtain ⟨c, hc, hb⟩ := h
    exact ⟨c, hatomic a d.request c d.outcome hc, ih hb⟩

/-- **The invariant rule.** -/
theorem Legal.invariant {P : α → Prop} (hstep : ∀ a r b o, P a → atomic a r b o → P b)
    (h : Legal atomic a ds b) (ha : P a) : P b := by
  induction ds generalizing a with
  | nil => exact h ▸ ha
  | cons d ds ih =>
    obtain ⟨c, hc, hb⟩ := h
    exact ih hb (hstep a d.request c d.outcome ha hc)

/-- A request is done in a state, with some requests before it. -/
theorem Legal.exists_of_mem (h : Legal atomic a ds b) (hd : d ∈ ds) :
    ∃ ds₁ ds₂ c c', ds = ds₁ ++ d :: ds₂ ∧ Legal atomic a ds₁ c
      ∧ atomic c d.request c' d.outcome ∧ Legal atomic c' ds₂ b := by
  obtain ⟨ds₁, ds₂, rfl⟩ := List.append_of_mem hd
  obtain ⟨c, hc, c', hd', hb⟩ := legal_append.mp h
  exact ⟨ds₁, ds₂, c, c', rfl, hc, hd', hb⟩

/-- Of two requests, one is done before the other. -/
theorem sublist_or_sublist {d' : Done ρ ο} (hne : d ≠ d') (hd : d ∈ ds) (hd' : d' ∈ ds) :
    [d, d'].Sublist ds ∨ [d', d].Sublist ds := by
  obtain ⟨ds₁, ds₂, rfl⟩ := List.append_of_mem hd
  rcases List.mem_append.mp hd' with hbefore | hafter
  · exact .inr ((List.singleton_sublist.mpr hbefore).append
      (List.singleton_sublist.mpr List.mem_cons_self))
  · refine .inl (List.Sublist.trans ?_ (List.sublist_append_right _ _))
    exact (List.singleton_sublist.mpr ((List.mem_cons.mp hafter).resolve_left hne.symm)).cons_cons d

/-- Of two requests, the second is done in a state that comes after the first. -/
theorem Legal.exists_of_sublist {d' : Done ρ ο} (h : Legal atomic a ds b)
    (hd : [d, d'].Sublist ds) :
    ∃ ds₁ ds₂ ds₃ c₁ c₂ c₃ c₄, Legal atomic a ds₁ c₁ ∧ atomic c₁ d.request c₂ d.outcome
      ∧ Legal atomic c₂ ds₂ c₃ ∧ atomic c₃ d'.request c₄ d'.outcome ∧ Legal atomic c₄ ds₃ b := by
  obtain ⟨l₁, l₂, rfl, hmem, hsub⟩ := List.cons_sublist_iff.mp hd
  obtain ⟨e, he, hb⟩ := legal_append.mp h
  obtain ⟨ds₁, ds₂, c₁, c₂, -, h₁, h₂, h₃⟩ := he.exists_of_mem hmem
  obtain ⟨ds₃, ds₄, c₃, c₄, -, h₄, h₅, h₆⟩ := hb.exists_of_mem (List.singleton_sublist.mp hsub)
  exact ⟨ds₁, ds₂ ++ ds₃, ds₄, c₁, c₂, c₃, c₄, h₁, h₂, legal_append.mpr ⟨e, h₃, h₄⟩, h₅, h₆⟩

/-! ## What clients see -/

/-- **The order is one that clients may believe in.** -/
structure Linearized (atomic : α → ρ → α → ο → Prop) (a : α) (es : List (Event ρ ο)) (b : α)
    (ds : List (Done ρ ο)) : Prop where
  /-- Every request is done once. -/
  nodup : (ds.map Done.handle).Nodup
  /-- The answers are those of requests done at once. -/
  legal : Legal atomic a ds b
  /-- What is done is what was asked for. -/
  called : ∀ d ∈ ds, ∀ r, Event.call d.handle r ∈ es ↔ r = d.request
  /-- A request that is answered is done. -/
  answered : ∀ t o, Event.reply t o ∈ es → ∃ d ∈ ds, d.handle = t ∧ d.outcome = o
  /-- A request that is answered is done before one that is made later. -/
  ordered : ∀ t o, ∀ d ∈ ds, [Event.reply t o, .call d.handle d.request].Sublist es →
    [t, d.handle].Sublist (ds.map Done.handle)

variable {es : List (Event ρ ο)} {e : Event ρ ο}

namespace Linearized

theorem mono {atomic' : α → ρ → α → ο → Prop}
    (hatomic : ∀ a r b o, atomic a r b o → atomic' a r b o) (h : Linearized atomic a es b ds) :
    Linearized atomic' a es b ds where
  nodup := h.nodup
  legal := h.legal.mono hatomic
  called := h.called
  answered := h.answered
  ordered := h.ordered

/-- Nothing is done by what is no answer and no request that is done. -/
theorem snoc (h : Linearized atomic a es b ds) (hcall : ∀ d ∈ ds, ∀ r, e ≠ .call d.handle r)
    (hreply : ∀ t o, e = .reply t o → ∃ d ∈ ds, d.handle = t ∧ d.outcome = o) :
    Linearized atomic a (es ++ [e]) b ds where
  nodup := h.nodup
  legal := h.legal
  called d hd r := by
    rw [← h.called d hd r, List.mem_append, List.mem_singleton]
    exact or_iff_left fun heq => hcall d hd r heq.symm
  answered t o ho := by
    rcases List.mem_append.mp ho with hmem | hlast
    · exact h.answered t o hmem
    · exact hreply t o (List.mem_singleton.mp hlast).symm
  ordered t o d hd hsub := by
    refine h.ordered t o d hd ?_
    obtain ⟨l₁, l₂, hl, hl₁, hl₂⟩ := List.sublist_append_iff.mp hsub
    rcases List.sublist_singleton.mp hl₂ with rfl | rfl
    · rw [List.append_nil] at hl
      exact hl ▸ hl₁
    · -- the last of the two would be `e`
      have hlast := congrArg List.getLast? hl
      rw [List.getLast?_concat] at hlast
      exact absurd (Option.some.inj hlast).symm (hcall d hd d.request)

/-- One more request is done. -/
theorem done (h : Linearized atomic a es b ds) (hnew : d.handle ∉ ds.map Done.handle)
    (hcall : ∀ r, Event.call d.handle r ∈ es ↔ r = d.request)
    (hd : atomic b d.request c d.outcome) :
    Linearized atomic a es c (ds ++ [d]) where
  nodup := by
    rw [List.map_append, List.map_singleton, ← List.concat_eq_append]
    exact h.nodup.concat hnew
  legal := h.legal.concat hd
  called d' hd' := by
    rcases List.mem_append.mp hd' with hold | hlast
    · exact h.called d' hold
    · rwa [List.mem_singleton.mp hlast]
  answered t o ho := by
    obtain ⟨d', hd', hsame⟩ := h.answered t o ho
    exact ⟨d', List.mem_append_left _ hd', hsame⟩
  ordered t o d' hd' hsub := by
    rw [List.map_append, List.map_singleton]
    rcases List.mem_append.mp hd' with hold | hlast
    · exact (h.ordered t o d' hold hsub).trans (List.sublist_append_left _ _)
    · obtain ⟨d₀, hd₀, hsame, -⟩ := h.answered t o (hsub.subset List.mem_cons_self)
      rw [List.mem_singleton.mp hlast, ← hsame]
      exact (List.singleton_sublist.mpr (List.mem_map_of_mem hd₀)).append (List.Sublist.refl _)

end Linearized

/-! ## The rule -/

/-- **A simulation**: every request takes effect at one of its steps. Before it,
a request changes nothing of what `view` shows of the state; at it, the request
is done at once and its answer settled. -/
structure Simulation (H : Handler σ ρ κ ο) (view : σ → α) (atomic : α → ρ → α → ο → Prop) where
  /-- What a request is about to do while it is without effect. -/
  before : ρ → κ → Prop
  /-- What it is about to do when its answer is settled. -/
  after : ο → κ → Prop
  /-- A request comes in without effect, or has its whole effect, which is none,
  at once. -/
  start : ∀ r, before r (H.start r)
    ∨ ∃ o, (∀ a, atomic a r a o) ∧ after o (H.start r)
  /-- A step leaves it without effect, or is the one at which it takes effect. -/
  act_before : ∀ s r k, before r k → H.answer k = none →
    (view (H.act s k).1 = view s ∧ before r (H.act s k).2)
    ∨ ∃ o, atomic (view s) r (view (H.act s k).1) o ∧ after o (H.act s k).2
  /-- Steps after that change nothing of what is shown. -/
  act_after : ∀ s o k, after o k → H.answer k = none →
    view (H.act s k).1 = view s ∧ after o (H.act s k).2
  /-- Nothing is answered without effect. -/
  answer_before : ∀ r k, before r k → H.answer k = none
  /-- What is answered is what was settled. -/
  answer_after : ∀ o o' k, after o k → H.answer k = some o' → o = o'

namespace Simulation

variable {H : Handler σ ρ κ ο} {view : σ → α} {s s' : Server σ κ}

/-- **What a run keeps** of the events so far and the server they lead to. -/
structure Keeps (S : Simulation H view atomic) (a : α) (es : List (Event ρ ο)) (s : Server σ κ)
    (ds : List (Done ρ ο)) : Prop where
  /-- The requests that have taken effect are an order of the events so far. -/
  linearized : Linearized atomic a es (view s.shared) ds
  /-- A number that is not in use was not called. -/
  idle : ∀ t r, s.phase t = .idle → Event.call t r ∉ es
  /-- One that is in use was called once, and has taken effect or not. -/
  busy : ∀ t k, s.phase t = .busy k → ∃ r, (∀ r', Event.call t r' ∈ es ↔ r' = r)
    ∧ ((t ∉ ds.map Done.handle ∧ S.before r k) ∨ ∃ o, ⟨t, r, o⟩ ∈ ds ∧ S.after o k)

variable {S : Simulation H view atomic} {t : ℕ} {p : Phase κ} {x : σ}

/-- A step of the request `t` leaves the others where they are. -/
theorem Keeps.moved (h : S.Keeps a es s ds) (he : ∀ t' r, e = .call t' r → t' = t)
    (hlinearized : Linearized atomic a (es ++ [e]) (view x) ds') (hp : p ≠ .idle)
    (hmore : ds ⊆ ds') (hnew : ∀ d ∈ ds', d ∈ ds ∨ d.handle = t)
    (hbusy : ∀ k, p = .busy k → ∃ r, (∀ r', Event.call t r' ∈ es ++ [e] ↔ r' = r)
      ∧ ((t ∉ ds'.map Done.handle ∧ S.before r k) ∨ ∃ o, ⟨t, r, o⟩ ∈ ds' ∧ S.after o k)) :
    S.Keeps a (es ++ [e]) ({ s with shared := x }.moved t p) ds' where
  linearized := hlinearized
  idle t' r ht' := by
    by_cases hsame : t' = t
    · subst hsame
      rw [Server.phase_moved] at ht'
      exact absurd ht' hp
    · rw [Server.phase_moved_of_ne _ hsame] at ht'
      intro hmem
      rcases List.mem_append.mp hmem with hold | hlast
      · exact h.idle t' r ht' hold
      · exact hsame (he t' r (List.mem_singleton.mp hlast).symm)
  busy t' k ht' := by
    by_cases hsame : t' = t
    · subst hsame
      rw [Server.phase_moved] at ht'
      exact hbusy k ht'
    · rw [Server.phase_moved_of_ne _ hsame] at ht'
      obtain ⟨r, hr, hwhere⟩ := h.busy t' k ht'
      refine ⟨r, fun r' => ?_, hwhere.imp (fun ⟨hnot, hbefore⟩ =>
        ⟨fun hin => ?_, hbefore⟩) fun ⟨o, ho, hafter⟩ => ⟨o, hmore ho, hafter⟩⟩
      · rw [← hr r', List.mem_append, List.mem_singleton]
        exact or_iff_left fun heq => hsame (he t' r' heq.symm)
      obtain ⟨d, hd, rfl⟩ := List.mem_map.mp hin
      exact (hnew d hd).elim (fun hold => hnot (List.mem_map_of_mem hold)) hsame

/-- A request that was not made is not done. -/
theorem Keeps.notMem (h : S.Keeps a es s ds) (hidle : s.phase t = .idle) :
    t ∉ ds.map Done.handle := by
  intro hin
  obtain ⟨d, hd, rfl⟩ := List.mem_map.mp hin
  exact h.idle d.handle d.request hidle ((h.linearized.called d hd d.request).mpr rfl)

variable {b : α} {r : ρ} {o : ο} {k : κ}

/-- The request `t` goes on, and what is done stays the same. -/
theorem Keeps.goesOn (h : S.Keeps a es s ds) (he : ∀ t' r, e = .call t' r → t' = t)
    (hlinearized : Linearized atomic a (es ++ [e]) (view x) ds)
    (hcall : ∀ r', Event.call t r' ∈ es ++ [e] ↔ r' = r)
    (hwhere : (t ∉ ds.map Done.handle ∧ S.before r k) ∨ ∃ o, ⟨t, r, o⟩ ∈ ds ∧ S.after o k) :
    S.Keeps a (es ++ [e]) ({ s with shared := x }.moved t (.busy k)) ds := by
  refine h.moved he hlinearized (by simp) (List.Subset.refl ds) (fun d hd => .inl hd)
    fun k' hk' => ?_
  obtain rfl := Phase.busy.inj hk'
  exact ⟨r, hcall, hwhere⟩

/-- The request `t` is done. -/
theorem Keeps.takesEffect (h : S.Keeps a es s ds) (he : ∀ t' r, e = .call t' r → t' = t)
    (hlinearized : Linearized atomic a (es ++ [e]) b ds) (hnot : t ∉ ds.map Done.handle)
    (hcall : ∀ r', Event.call t r' ∈ es ++ [e] ↔ r' = r) (ho : atomic b r (view x) o)
    (hafter : S.after o k) :
    S.Keeps a (es ++ [e]) ({ s with shared := x }.moved t (.busy k)) (ds ++ [⟨t, r, o⟩]) := by
  refine h.moved he (hlinearized.done hnot hcall ho) (by simp) (List.subset_append_left ds _)
    (fun d hd => ?_) fun k' hk' => ?_
  · rcases List.mem_append.mp hd with hold | hlast
    · exact .inl hold
    · exact .inr (by rw [List.mem_singleton.mp hlast])
  · obtain rfl := Phase.busy.inj hk'
    exact ⟨r, hcall, .inr ⟨o, List.mem_append_right _ List.mem_cons_self, hafter⟩⟩

/-- **The step lemma.** -/
theorem Keeps.step (h : S.Keeps a es s ds) (hstep : H.Step s e s') :
    ∃ ds', S.Keeps a (es ++ [e]) s' ds' := by
  cases hstep with
  | @call t r hidle =>
    have hnot := h.notMem hidle
    have hself : ∀ r', Event.call t r' ∈ es ++ [Event.call t r] ↔ r' = r := fun r' => by
      rw [List.mem_append, List.mem_singleton, or_iff_right (h.idle t r' hidle)]
      exact ⟨fun heq => (Event.call.inj heq).2, fun heq => by rw [heq]⟩
    have hlinearized : Linearized atomic a (es ++ [.call t r]) (view s.shared) ds := by
      refine h.linearized.snoc (fun d hd r' heq => ?_) (fun t' o heq => by cases heq)
      obtain ⟨rfl, -⟩ := Event.call.inj heq
      exact hnot (List.mem_map_of_mem hd)
    have hhandle : ∀ t' r', Event.call (ο := ο) t r = .call t' r' → t' = t :=
      fun t' r' heq => (Event.call.inj heq).1.symm
    rcases S.start r with hbefore | ⟨o, ho, hafter⟩
    · exact ⟨ds, h.goesOn hhandle hlinearized hself (.inl ⟨hnot, hbefore⟩)⟩
    · -- answered without a step
      exact ⟨_, h.takesEffect hhandle hlinearized hnot hself (ho _) hafter⟩
  | @act t k hbusy hk =>
    have hhandle : ∀ t' r, (Event.act t : Event ρ ο) = .call t' r → t' = t := fun _ _ heq => by
      cases heq
    have hlinearized : Linearized atomic a (es ++ [.act t]) (view s.shared) ds :=
      h.linearized.snoc (fun d hd r heq => by cases heq) (fun t' o heq => by cases heq)
    obtain ⟨r, hr, hwhere⟩ := h.busy t k hbusy
    have hcall : ∀ r', Event.call t r' ∈ es ++ [Event.act t] ↔ r' = r := fun r' => by
      rw [← hr r', List.mem_append, List.mem_singleton]
      exact or_iff_left fun heq => by cases heq
    rcases hwhere with ⟨hnot, hbefore⟩ | ⟨o, ho, hafter⟩
    · rcases S.act_before s.shared r k hbefore hk with ⟨hview, hbefore'⟩ | ⟨o, ho, hafter⟩
      · exact ⟨ds, h.goesOn hhandle (by rwa [hview]) hcall (.inl ⟨hnot, hbefore'⟩)⟩
      · -- the step at which the request takes effect
        exact ⟨_, h.takesEffect hhandle hlinearized hnot hcall ho hafter⟩
    · obtain ⟨hview, hafter'⟩ := S.act_after s.shared o k hafter hk
      exact ⟨ds, h.goesOn hhandle (by rwa [hview]) hcall (.inr ⟨o, ho, hafter'⟩)⟩
  | @reply t k o hbusy hk =>
    refine ⟨ds, h.moved (fun _ _ heq => by cases heq) ?_ (by simp) (List.Subset.refl ds)
      (fun d hd => .inl hd) fun k' hk' => by cases hk'⟩
    refine h.linearized.snoc (fun d hd r heq => by cases heq) fun t' o' heq => ?_
    obtain ⟨rfl, rfl⟩ := Event.reply.inj heq
    obtain ⟨r, -, ⟨-, hbefore⟩ | ⟨o', ho', hafter⟩⟩ := h.busy t k hbusy
    · rw [S.answer_before r k hbefore] at hk
      cases hk
    · exact ⟨_, ho', rfl, S.answer_after o' o k hafter hk⟩

/-- **Every run looks like requests done at once**, one after the other. -/
theorem linearized (S : Simulation H view atomic) (hidle : ∀ t, s.phase t = .idle)
    (h : Run H.Step s es s') :
    ∃ ds, Linearized atomic (view s.shared) es (view s'.shared) ds := by
  obtain ⟨ds, hkeeps⟩ : ∃ ds, S.Keeps (view s.shared) es s' ds := by
    refine h.history (P := fun es s' => ∃ ds, S.Keeps (view s.shared) es s' ds)
      (fun past s e s' ⟨ds, hds⟩ hstep => hds.step hstep) ⟨[], ?_⟩
    refine ⟨⟨List.nodup_nil, rfl, by simp, by simp, by simp⟩, by simp, fun t k hk => ?_⟩
    rw [hidle t] at hk
    cases hk
  exact ⟨ds, hkeeps.linearized⟩

end Simulation

/-! ## Two handlers side by side -/

/-- **Two handlers on a server**, each with a state of its own. -/
def Handler.prod (H : Handler σ ρ κ ο) (H' : Handler σ' ρ' κ' ο') :
    Handler (σ × σ') (ρ ⊕ ρ') (κ ⊕ κ') (ο ⊕ ο') where
  start := Sum.map H.start H'.start
  act s := Sum.elim (fun k => (((H.act s.1 k).1, s.2), .inl (H.act s.1 k).2))
    fun k => ((s.1, (H'.act s.2 k).1), .inr (H'.act s.2 k).2)
  answer := Sum.elim (fun k => (H.answer k).map .inl) fun k => (H'.answer k).map .inr

/-- A request of one of them, done at once. -/
inductive Beside (atomic : α → ρ → α → ο → Prop) (atomic' : α' → ρ' → α' → ο' → Prop) :
    α × α' → ρ ⊕ ρ' → α × α' → ο ⊕ ο' → Prop
  | left {a b : α} {r : ρ} {o : ο} (c : α') (h : atomic a r b o) :
    Beside atomic atomic' (a, c) (.inl r) (b, c) (.inl o)
  | right {a b : α'} {r : ρ'} {o : ο'} (c : α) (h : atomic' a r b o) :
    Beside atomic atomic' (c, a) (.inr r) (c, b) (.inr o)

/-- The requests of the first may be described with less. -/
theorem Beside.mono_left {atomic₁ atomic₂ : α → ρ → α → ο → Prop}
    {atomic' : α' → ρ' → α' → ο' → Prop} (hatomic : ∀ a r b o, atomic₁ a r b o → atomic₂ a r b o)
    (a : α × α') (r : ρ ⊕ ρ') (b : α × α') (o : ο ⊕ ο') (h : Beside atomic₁ atomic' a r b o) :
    Beside atomic₂ atomic' a r b o := by
  cases h with
  | left c h => exact .left c (hatomic _ _ _ _ h)
  | right c h => exact .right c h

/-- A request of the first. -/
def Done.left? : Done (ρ ⊕ ρ') (ο ⊕ ο') → Option (Done ρ ο)
  | ⟨t, .inl r, .inl o⟩ => some ⟨t, r, o⟩
  | _ => none

/-- A request of the second. -/
def Done.right? : Done (ρ ⊕ ρ') (ο ⊕ ο') → Option (Done ρ' ο')
  | ⟨t, .inr r, .inr o⟩ => some ⟨t, r, o⟩
  | _ => none

theorem mem_left_iff {ds : List (Done (ρ ⊕ ρ') (ο ⊕ ο'))} :
    d ∈ ds.filterMap Done.left? ↔ ⟨d.handle, .inl d.request, .inl d.outcome⟩ ∈ ds := by
  rw [List.mem_filterMap]
  refine ⟨fun ⟨d', hd', heq⟩ => ?_, fun h => ⟨_, h, rfl⟩⟩
  obtain ⟨t, r | r, o | o⟩ := d'
  · obtain rfl := Option.some.inj heq
    exact hd'
  all_goals cases heq

theorem mem_right_iff {d : Done ρ' ο'} {ds : List (Done (ρ ⊕ ρ') (ο ⊕ ο'))} :
    d ∈ ds.filterMap Done.right? ↔ ⟨d.handle, .inr d.request, .inr d.outcome⟩ ∈ ds := by
  rw [List.mem_filterMap]
  refine ⟨fun ⟨d', hd', heq⟩ => ?_, fun h => ⟨_, h, rfl⟩⟩
  obtain ⟨t, r | r, o | o⟩ := d'
  case inr.inr =>
    obtain rfl := Option.some.inj heq
    exact hd'
  all_goals cases heq

/-- An answer of the first is to a request of the first. -/
theorem mem_left_of_outcome {atomic' : α' → ρ' → α' → ο' → Prop} {a b : α × α'}
    {d : Done (ρ ⊕ ρ') (ο ⊕ ο')} {ds : List (Done (ρ ⊕ ρ') (ο ⊕ ο'))} {o : ο}
    (h : Legal (Beside atomic atomic') a ds b) (hd : d ∈ ds) (ho : d.outcome = .inl o) :
    ∃ r, (⟨d.handle, r, o⟩ : Done ρ ο) ∈ ds.filterMap Done.left? := by
  obtain ⟨-, -, c, c', -, -, hstep, -⟩ := h.exists_of_mem hd
  obtain ⟨t, request, outcome⟩ := d
  cases hstep with
  | left _ h =>
    obtain rfl := Sum.inl.inj ho
    exact ⟨_, mem_left_iff.mpr hd⟩
  | right => cases ho

/-- **Each of the two has its own requests done one after the other.** -/
theorem Legal.split {atomic' : α' → ρ' → α' → ο' → Prop} {a b : α × α'}
    {ds : List (Done (ρ ⊕ ρ') (ο ⊕ ο'))} (h : Legal (Beside atomic atomic') a ds b) :
    Legal atomic a.1 (ds.filterMap Done.left?) b.1
      ∧ Legal atomic' a.2 (ds.filterMap Done.right?) b.2 := by
  induction ds generalizing a with
  | nil => exact ⟨congrArg Prod.fst h, congrArg Prod.snd h⟩
  | cons d ds ih =>
    obtain ⟨t, request, outcome⟩ := d
    obtain ⟨c, hstep, hlegal⟩ := h
    obtain ⟨hleft, hright⟩ := ih hlegal
    cases hstep with
    | left _ h => exact ⟨⟨_, h, hleft⟩, hright⟩
    | right _ h => exact ⟨hleft, _, h, hright⟩

/-- **Side by side, both still do their requests at once.** -/
def Simulation.prod {H : Handler σ ρ κ ο} {H' : Handler σ' ρ' κ' ο'} {view : σ → α}
    {view' : σ' → α'} {atomic' : α' → ρ' → α' → ο' → Prop} (S : Simulation H view atomic)
    (S' : Simulation H' view' atomic') :
    Simulation (H.prod H') (Prod.map view view') (Beside atomic atomic') where
  before := Sum.LiftRel S.before S'.before
  after := Sum.LiftRel S.after S'.after
  start r := by
    cases r with
    | inl r => exact (S.start r).imp .inl fun ⟨o, ho, hafter⟩ =>
        ⟨.inl o, fun a => .left a.2 (ho a.1), .inl hafter⟩
    | inr r => exact (S'.start r).imp .inr fun ⟨o, ho, hafter⟩ =>
        ⟨.inr o, fun a => .right a.1 (ho a.2), .inr hafter⟩
  act_before s r k h hk := by
    cases h with
    | @inl r k h =>
      exact (S.act_before s.1 r k h (Option.map_eq_none_iff.mp hk)).imp
        (fun ⟨hview, hbefore⟩ => ⟨Prod.ext hview rfl, .inl hbefore⟩)
        fun ⟨o, ho, hafter⟩ => ⟨.inl o, .left _ ho, .inl hafter⟩
    | @inr r k h =>
      exact (S'.act_before s.2 r k h (Option.map_eq_none_iff.mp hk)).imp
        (fun ⟨hview, hbefore⟩ => ⟨Prod.ext rfl hview, .inr hbefore⟩)
        fun ⟨o, ho, hafter⟩ => ⟨.inr o, .right _ ho, .inr hafter⟩
  act_after s o k h hk := by
    cases h with
    | @inl o k h =>
      obtain ⟨hview, hafter⟩ := S.act_after s.1 o k h (Option.map_eq_none_iff.mp hk)
      exact ⟨Prod.ext hview rfl, .inl hafter⟩
    | @inr o k h =>
      obtain ⟨hview, hafter⟩ := S'.act_after s.2 o k h (Option.map_eq_none_iff.mp hk)
      exact ⟨Prod.ext rfl hview, .inr hafter⟩
  answer_before r k h := by
    cases h with
    | @inl r k h => exact Option.map_eq_none_iff.mpr (S.answer_before r k h)
    | @inr r k h => exact Option.map_eq_none_iff.mpr (S'.answer_before r k h)
  answer_after o o' k h hk := by
    cases h with
    | @inl o k h =>
      obtain ⟨o', ho', rfl⟩ := Option.map_eq_some_iff.mp hk
      rw [S.answer_after o o' k h ho']
    | @inr o k h =>
      obtain ⟨o', ho', rfl⟩ := Option.map_eq_some_iff.mp hk
      rw [S'.answer_after o o' k h ho']

end Linearizable
