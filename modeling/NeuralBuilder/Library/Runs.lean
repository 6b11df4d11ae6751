import Mathlib.Data.List.Basic
import Mathlib.Logic.Function.Basic

/-!
# Runs of a labelled transition system

A system is a relation `step : σ → ε → σ → Prop`: in a state, an event takes
it to another state. `Run step s es s'` says that the events `es`, in this
order, take the system from `s` to `s'`. The rules below are the inductions
every safety proof over runs starts with: an invariant of the states, an
invariant that looks at the history, and a run of which every step meets a
guard.

`Run.invariant` is for what holds of states, `Run.history` for what holds of the
events so far and the state they lead to, and `Since` for what was so at some
moment after an event. The last part compares two runs of a deterministic system
of which one leaves out events that the other has.
-/

namespace Runs

variable {σ ε : Type}

/-- **A run**: the events take the system from one state to another. -/
inductive Run (step : σ → ε → σ → Prop) : σ → List ε → σ → Prop
  | nil (s : σ) : Run step s [] s
  | cons {s s' s'' : σ} {e : ε} {es : List ε} :
    step s e s' → Run step s' es s'' → Run step s (e :: es) s''

variable {step : σ → ε → σ → Prop} {s s' s'' : σ} {e : ε} {es es' : List ε}

theorem Run.single (h : step s e s') : Run step s [e] s' :=
  .cons h (.nil s')

theorem Run.append (h : Run step s es s') (h' : Run step s' es' s'') :
    Run step s (es ++ es') s'' := by
  induction h with
  | nil s => exact h'
  | cons hstep _ ih => exact .cons hstep (ih h')

/-- A run of events before others comes to a state between them. -/
theorem Run.exists_of_append (h : Run step s (es ++ es') s'') :
    ∃ s', Run step s es s' ∧ Run step s' es' s'' := by
  induction es generalizing s with
  | nil => exact ⟨s, .nil s, h⟩
  | cons e es ih =>
    cases h with
    | cons hstep hrun =>
      obtain ⟨s', hes, hes'⟩ := ih hrun
      exact ⟨s', .cons hstep hes, hes'⟩

/-- A run that is given step by step. -/
theorem exists_run_nil {P : σ → Prop} (h : P s) : ∃ s', Run step s [] s' ∧ P s' :=
  ⟨s, .nil s, h⟩

theorem exists_run_cons {P : σ → Prop} (hstep : step s e s')
    (h : ∃ s'', Run step s' es s'' ∧ P s'') : ∃ s'', Run step s (e :: es) s'' ∧ P s'' := by
  obtain ⟨s'', hrun, hP⟩ := h
  exact ⟨s'', .cons hstep hrun, hP⟩

/-- A run of some of the steps is a run of all of them. -/
theorem Run.mono {step' : σ → ε → σ → Prop} (hstep : ∀ s e s', step s e s' → step' s e s')
    (h : Run step s es s') : Run step' s es s' := by
  induction h with
  | nil s => exact .nil s
  | cons hs _ ih => exact .cons (hstep _ _ _ hs) ih

/-- **The invariant rule.** -/
theorem Run.invariant {P : σ → Prop} (hstep : ∀ s e s', P s → step s e s' → P s')
    (h : Run step s es s') (h₀ : P s) : P s' := by
  induction h with
  | nil s => exact h₀
  | cons hs _ ih => exact ih (hstep _ _ _ h₀ hs)

/-- **The invariant rule with the history**: an invariant that holds of the
events so far and the state they lead to. -/
theorem Run.history {P : List ε → σ → Prop}
    (hstep : ∀ es s e s', P es s → step s e s' → P (es ++ [e]) s') (h : Run step s es s')
    (h₀ : P [] s) : P es s' := by
  suffices hgen : ∀ past, P past s → P (past ++ es) s' from hgen [] h₀
  clear h₀
  induction h with
  | nil s =>
    intro past hpast
    rwa [List.append_nil]
  | cons hs _ ih =>
    intro past hpast
    have := ih _ (hstep _ _ _ _ hpast hs)
    rwa [List.append_assoc] at this

/-- **Since an event there was a moment** of the run at which the state was so. -/
def Since (step : σ → ε → σ → Prop) (s₀ : σ) (es : List ε) (s : σ) (e : ε) (P : σ → Prop) : Prop :=
  ∃ es₁ s₁ es₂, es = es₁ ++ es₂ ∧ Run step s₀ es₁ s₁ ∧ Run step s₁ es₂ s ∧ e ∈ es₁ ∧ P s₁

variable {s₀ : σ} {e' : ε} {P : σ → Prop}

theorem Since.now (h : Run step s₀ es s) (he : e ∈ es) (hP : P s) : Since step s₀ es s e P :=
  ⟨es, s, [], (List.append_nil es).symm, h, .nil s, he, hP⟩

theorem Since.snoc (h : Since step s₀ es s e P) (hstep : step s e' s') :
    Since step s₀ (es ++ [e']) s' e P := by
  obtain ⟨es₁, s₁, es₂, rfl, h₁, h₂, he, hP⟩ := h
  exact ⟨es₁, s₁, es₂ ++ [e'], List.append_assoc es₁ es₂ [e'], h₁, h₂.append (.single hstep), he,
    hP⟩

/-! ## What is waited for

A state that waits for several things keeps them in a table `ℕ → Option β`,
under a number each. -/

theorem update_eq_some {β : Type} {f : ℕ → Option β} {t t' : ℕ} {x : Option β} {y : β}
    (h : Function.update f t x t' = some y) : (t' = t ∧ x = some y) ∨ (t' ≠ t ∧ f t' = some y) := by
  by_cases ht : t' = t
  · rw [ht, Function.update_self] at h
    exact Or.inl ⟨ht, h⟩
  · rw [Function.update_of_ne ht] at h
    exact Or.inr ⟨ht, h⟩

/-- What is over is not waited for. -/
theorem of_update_none {β : Type} {f : ℕ → Option β} {t t' : ℕ} {y : β}
    (h : Function.update f t none t' = some y) : t' ≠ t ∧ f t' = some y := by
  rcases update_eq_some h with ⟨-, heq⟩ | hold
  · cases heq
  · exact hold

/-- What was waited for alone and is over leaves nothing that is waited for. -/
theorem update_pending_none {β : Type} {f : ℕ → Option β} (h : ∀ t, f t = none) {t : ℕ}
    {x : Option β} (t' : ℕ) : Function.update (Function.update f t x) t none t' = none := by
  rw [Function.update_idem]
  by_cases ht : t' = t
  · rw [ht, Function.update_self]
  · rw [Function.update_of_ne ht, h]

/-! ## Two runs of a deterministic system -/

/-- **The unwinding rule.** What an observer sees of the state at the end of a
run is what it sees at the end of its own events alone, when the events of
others never change its view and its own events take equal views to equal
views. `ok` and `ok'` are what the two runs are promised about the events to
come. -/
theorem view_foldl_filter {ν : Type} {next : σ → ε → σ} (view : σ → ν) (mine : ε → Bool)
    (ok ok' : σ → List ε → Prop)
    (hok : ∀ s e es, ok s (e :: es) → ok (next s e) es)
    (hok' : ∀ s e es, ok' s (e :: es) → ok' (next s e) es)
    (hothers : ∀ s e es, ok s (e :: es) → mine e = false → view (next s e) = view s)
    (hmine : ∀ s s' e es es', ok s (e :: es) → ok' s' (e :: es') → mine e = true →
      view s = view s' → view (next s e) = view (next s' e))
    {s s' : σ} (es : List ε) (h : ok s es) (h' : ok' s' (es.filter mine))
    (hview : view s = view s') :
    view (es.foldl next s) = view ((es.filter mine).foldl next s') := by
  induction es generalizing s s' with
  | nil => exact hview
  | cons e es ih =>
    cases he : mine e with
    | true =>
      rw [List.filter_cons_of_pos he] at h' ⊢
      exact ih (hok s e es h) (hok' s' e _ h') (hmine s s' e es _ h h' he hview)
    | false =>
      have hneg : ¬ mine e = true := by simp [he]
      rw [List.filter_cons_of_neg hneg] at h' ⊢
      exact ih (hok s e es h) h' ((hothers s e es h he).trans hview)

end Runs
