import Mathlib.Data.List.OfFn
import Mathlib.Data.Fin.Tuple.Basic
import Mathlib.Algebra.BigOperators.Fin

/-!
# Checked loops over lists

A program over growable arrays reads and writes by position, and a
position outside the array is a fault. This module holds the reads, the
writes and the counting loops of such programs, as computations in
`Except ε`, with one rule for each: what the loop returns when its body
returns, and an invariant rule for the loops that carry a state.

A loop that fills an array is `List.ofFnM`, a loop that carries an
accumulator is `Fin.foldlM`; both count upwards from `0`. The fault a
position outside the array raises is a parameter, so that the same rules
serve programs that throw and programs whose behaviour is undefined.
-/

namespace Checked

variable {ε α β : Type}

/-! ## Sequencing -/

@[simp] theorem ok_bind (a : α) (f : α → Except ε β) :
    (Except.ok a >>= f) = f a := rfl

@[simp] theorem error_bind (e : ε) (f : α → Except ε β) :
    (Except.error e >>= f) = Except.error e := rfl

@[simp] theorem pure_eq_ok (a : α) : (pure a : Except ε α) = Except.ok a := rfl

/-- A sequence returns exactly where its two halves do. -/
theorem bind_eq_ok_iff (x : Except ε α) (f : α → Except ε β) (b : β) :
    (x >>= f) = Except.ok b ↔ ∃ a, x = Except.ok a ∧ f a = Except.ok b := by
  cases x with
  | error e => simp
  | ok a => simp

/-- A sequence faults where its first half does, or where its second half
does on what the first half returned. -/
theorem bind_eq_error_iff (x : Except ε α) (f : α → Except ε β) (e : ε) :
    (x >>= f) = Except.error e
      ↔ x = Except.error e ∨ ∃ a, x = Except.ok a ∧ f a = Except.error e := by
  cases x with
  | error e' => simp
  | ok a => simp

theorem toOption_eq_some_iff {x : Except ε α} {a : α} :
    x.toOption = some a ↔ x = Except.ok a := by
  cases x with
  | error e => simp [Except.toOption]
  | ok b => simp [Except.toOption]

/-! ## Reading and writing a position -/

/-- The value at position `i`, or the fault `e` when there is none. -/
def read (e : ε) (l : List α) (i : ℕ) : Except ε α :=
  match l[i]? with
  | some x => .ok x
  | none => .error e

/-- The list with position `i` overwritten, or the fault `e` when there is
no such position. -/
def write (e : ε) (l : List α) (i : ℕ) (x : α) : Except ε (List α) :=
  if i < l.length then .ok (l.set i x) else .error e

@[simp] theorem read_ofFn (e : ε) {n : ℕ} (f : Fin n → α) (i : Fin n) :
    read e (List.ofFn f) i = .ok (f i) := by
  simp [read]

/-- What is read is there. -/
theorem read_eq_ok_iff {e : ε} {l : List α} {i : ℕ} {x : α} :
    read e l i = .ok x ↔ l[i]? = some x := by
  unfold read
  cases l[i]? <;> simp

theorem read_of_lt (e : ε) (l : List α) {i : ℕ} (h : i < l.length) :
    read e l i = .ok l[i] := by
  simp [read, h]

@[simp] theorem read_nil (e : ε) (i : ℕ) : read e ([] : List α) i = .error e := by
  simp [read]

@[simp] theorem write_ofFn (e : ε) {n : ℕ} (f : Fin n → α) (i : Fin n) (x : α) :
    write e (List.ofFn f) i x = .ok (List.ofFn (Function.update f i x)) := by
  rw [write, if_pos (by simp)]
  refine congrArg Except.ok (List.ext_getElem (by simp) (fun j h₁ h₂ => ?_))
  rw [List.getElem_set]
  simp only [List.getElem_ofFn, Function.update_apply, Fin.ext_iff]
  split_ifs with h h' h' <;> first | rfl | omega

/-! ## Loops

The body of a loop is given every position as a number and not as a
position known to be in range, since the bound of a loop of the program is
the length of some list and the body reads others. -/

/-- **A filling loop**: the list of what the body returns at `0, …, n - 1`,
computed in this order. -/
def fill (n : ℕ) (f : ℕ → Except ε α) : Except ε (List α) :=
  List.ofFnM fun i : Fin n => f i

/-- **A counting loop**: the value `b` sent through the body at
`0, …, n - 1`, in this order. -/
def loop {m : Type → Type} [Monad m] (n : ℕ) (f : β → ℕ → m β) (b : β) : m β :=
  Fin.foldlM n (fun b i => f b i) b

/-- **A filling loop returns what its body returns**, position by
position. -/
theorem fill_ok {n : ℕ} {f : ℕ → Except ε α} {g : Fin n → α}
    (h : ∀ i : Fin n, f i = .ok (g i)) : fill n f = .ok (List.ofFn g) := by
  rw [fill, show (fun i : Fin n => f i) = fun i => pure (g i) from funext h,
    List.ofFnM_pure]
  rfl

/-- **A loop over a list returns what its body returns.** -/
theorem mapM_ok {f : β → Except ε α} {g : β → α} {l : List β} (h : ∀ b ∈ l, f b = .ok (g b)) :
    l.mapM f = .ok (l.map g) := by
  induction l with
  | nil => rfl
  | cons b l ih =>
    rw [List.mapM_cons, h b List.mem_cons_self, ok_bind,
      ih fun b' hb' => h b' (List.mem_cons_of_mem b hb'), ok_bind]
    rfl

@[simp] theorem fill_zero (f : ℕ → Except ε α) : fill 0 f = .ok [] := by
  simp [fill]

theorem fill_succ (n : ℕ) (f : ℕ → Except ε α) :
    fill (n + 1) f = (do
      let as ← fill n f
      let a ← f n
      return as ++ [a]) := by
  rw [fill, List.ofFnM_succ_last]
  rfl

/-- **A filling loop that returns** has returned the list of what its body
returned. -/
theorem exists_of_fill_ok {n : ℕ} {f : ℕ → Except ε α} {l : List α}
    (h : fill n f = .ok l) :
    ∃ g : Fin n → α, l = List.ofFn g ∧ ∀ i : Fin n, f i = .ok (g i) := by
  induction n generalizing l with
  | zero =>
    rw [fill_zero] at h
    obtain rfl := Except.ok.inj h
    exact ⟨Fin.elim0, rfl, fun i => i.elim0⟩
  | succ n ih =>
    rw [fill_succ] at h
    obtain ⟨as, has, hrest⟩ := (bind_eq_ok_iff _ _ _).mp h
    obtain ⟨a, ha, hl⟩ := (bind_eq_ok_iff _ _ _).mp hrest
    obtain rfl := Except.ok.inj hl
    obtain ⟨g, rfl, hg⟩ := ih has
    refine ⟨Fin.snoc g a, ?_, fun i => ?_⟩
    · rw [List.ofFn_succ_last]
      simp
    · refine Fin.lastCases ?_ (fun i => ?_) i
      · simpa using ha
      · simpa using hg i

@[simp] theorem loop_zero {m : Type → Type} [Monad m] (f : β → ℕ → m β) (b : β) :
    loop 0 f b = pure b := by
  simp [loop]

/-- One more turn of a loop is run last. -/
theorem loop_succ {m : Type → Type} [Monad m] [LawfulMonad m] (n : ℕ)
    (f : β → ℕ → m β) (b : β) :
    loop (n + 1) f b = (do
      let c ← loop n f b
      f c n) := by
  rw [loop, Fin.foldlM_succ_last]
  rfl

/-- **A counting loop with a total body is a fold.** -/
theorem loop_ok {n : ℕ} {f : β → ℕ → Except ε β} {g : β → Fin n → β}
    (h : ∀ b (i : Fin n), f b i = .ok (g b i)) (b : β) :
    loop n f b = .ok (Fin.foldl n g b) := by
  rw [loop, show (fun b (i : Fin n) => f b i) = fun b i => pure (g b i) from funext₂ h,
    Fin.foldlM_pure]
  rfl

/-- **The invariant rule of a counting loop**: where a turn of the loop
returns and carries the invariant one position further, the loop returns
and the invariant holds at its end. -/
theorem loop_invariant {n : ℕ} {f : β → ℕ → Except ε β} {b : β}
    (P : ℕ → β → Prop) (h₀ : P 0 b)
    (hstep : ∀ i c, i < n → P i c → ∃ d, f c i = .ok d ∧ P (i + 1) d) :
    ∃ d, loop n f b = .ok d ∧ P n d := by
  induction n with
  | zero => exact ⟨b, by simp, h₀⟩
  | succ n ih =>
    obtain ⟨c, hc, hPc⟩ := ih (fun i c hi hc => hstep i c (by omega) hc)
    obtain ⟨d, hd, hPd⟩ := hstep n c (by omega) hPc
    refine ⟨d, ?_, hPd⟩
    rw [loop_succ, hc, ok_bind, hd]

/-- **What every turn that returns carries on, a loop that returns carries
to its end.** -/
theorem loop_keeps {n : ℕ} {f : β → ℕ → Except ε β} {b d : β} {P : ℕ → β → Prop}
    (hstep : ∀ i c d, i < n → P i c → f c i = .ok d → P (i + 1) d) (h₀ : P 0 b)
    (h : loop n f b = .ok d) : P n d := by
  induction n generalizing d with
  | zero =>
    obtain rfl : b = d := by simpa using h
    exact h₀
  | succ n ih =>
    rw [loop_succ, bind_eq_ok_iff] at h
    obtain ⟨c, hc, hd⟩ := h
    exact hstep n c d (Nat.lt_succ_self n)
      (ih (fun i c d hi => hstep i c d (Nat.lt_succ_of_lt hi)) hc) hd

/-- What every turn keeps, a loop over a list that returns keeps. -/
theorem foldlM_keeps {γ : Type} {f : β → γ → Except ε β} {l : List γ} {b d : β} {P : β → Prop}
    (hstep : ∀ c x d, P c → f c x = .ok d → P d) (h₀ : P b) (h : l.foldlM f b = .ok d) : P d := by
  induction l generalizing b with
  | nil =>
    obtain rfl : b = d := by simpa using h
    exact h₀
  | cons x l ih =>
    rw [List.foldlM_cons, bind_eq_ok_iff] at h
    obtain ⟨c, hc, hd⟩ := h
    exact ih (hstep b x c h₀ hc) hd

/-- **Nested loops over lists** are one loop over the list of what the inner
ones run over. -/
theorem foldlM_flatMap {γ δ : Type} {m : Type → Type} [Monad m] [LawfulMonad m] (l : List γ)
    (f : γ → List δ) (g : β → δ → m β) (b : β) :
    (l.flatMap f).foldlM g b = l.foldlM (fun b x => (f x).foldlM g b) b := by
  induction l generalizing b with
  | nil => rfl
  | cons x l ih =>
    rw [List.flatMap_cons, List.foldlM_append, List.foldlM_cons]
    exact bind_congr fun c => ih c

/-- One more entry of a list is folded in last. -/
theorem foldlM_take_succ {γ : Type} (f : β → γ → Except ε β) (l : List γ) (b : β) {k : ℕ}
    (hk : k < l.length) :
    (l.take (k + 1)).foldlM f b = (l.take k).foldlM f b >>= fun c => f c l[k] := by
  rw [List.take_succ_eq_append_getElem hk, List.foldlM_append]
  refine congrArg (_ >>= ·) (funext fun c => ?_)
  rw [List.foldlM_cons]
  cases f c l[k] with
  | error e => rfl
  | ok d => rfl

/-- **The invariant rule of a loop over a list**, at each of its positions. -/
theorem foldlM_take_invariant {γ : Type} {f : β → γ → Except ε β} {l : List γ} {b : β}
    (P : ℕ → β → Prop) (h₀ : P 0 b)
    (hstep : ∀ (k : ℕ) (hk : k < l.length) c, P k c → ∃ d, f c l[k] = .ok d ∧ P (k + 1) d)
    {k : ℕ} (hk : k ≤ l.length) : ∃ d, (l.take k).foldlM f b = .ok d ∧ P k d := by
  induction k with
  | zero => exact ⟨b, rfl, h₀⟩
  | succ k ih =>
    obtain ⟨c, hc, hPc⟩ := ih (Nat.le_of_succ_le hk)
    obtain ⟨d, hd, hPd⟩ := hstep k hk c hPc
    exact ⟨d, by rw [foldlM_take_succ f l b hk, hc, ok_bind, hd], hPd⟩

/-- The invariant rule of a whole loop over a list. -/
theorem foldlM_invariant {γ : Type} {f : β → γ → Except ε β} {l : List γ} {b : β} (P : β → Prop)
    (h₀ : P b) (hstep : ∀ x ∈ l, ∀ c, P c → ∃ d, f c x = .ok d ∧ P d) :
    ∃ d, l.foldlM f b = .ok d ∧ P d := by
  obtain ⟨d, hd, hPd⟩ := foldlM_take_invariant (b := b) (fun _ => P) h₀
    (fun k hk => hstep l[k] (List.getElem_mem hk)) (le_refl l.length)
  rw [List.take_length] at hd
  exact ⟨d, hd, hPd⟩

/-- **The invariant rule of two loops** over one list, for a relation of their
states. -/
theorem foldlM_relates {γ δ : Type} {f : β → δ → Except ε β} {g : γ → δ → Except ε γ} {l : List δ}
    (R : β → γ → Prop)
    (hstep : ∀ x ∈ l, ∀ b c, R b c → ∃ b' c', f b x = .ok b' ∧ g c x = .ok c' ∧ R b' c')
    {b : β} {c : γ} (h₀ : R b c) :
    ∃ b' c', l.foldlM f b = .ok b' ∧ l.foldlM g c = .ok c' ∧ R b' c' := by
  induction l generalizing b c with
  | nil => exact ⟨b, c, rfl, rfl, h₀⟩
  | cons x l ih =>
    obtain ⟨b₁, c₁, hb, hc, hR⟩ := hstep x List.mem_cons_self b c h₀
    obtain ⟨b₂, c₂, hb', hc', hR'⟩ := ih (fun y hy => hstep y (List.mem_cons_of_mem _ hy)) hR
    refine ⟨b₂, c₂, ?_, ?_, hR'⟩
    · rw [List.foldlM_cons, hb, ok_bind, hb']
    · rw [List.foldlM_cons, hc, ok_bind, hc']

/-- **The simulation rule**: where a turn of one loop that returns has a turn
of the other one that returns, and related states stay related, the one loop
simulates the other. -/
theorem loop_simulates {γ : Type} {n : ℕ} {f : β → ℕ → Except ε β} {g : γ → ℕ → Except ε γ}
    (R : β → γ → Prop)
    (hstep : ∀ i b c b', R b c → f b i = .ok b' → ∃ c', g c i = .ok c' ∧ R b' c')
    {b b' : β} {c : γ} (hR : R b c) (h : loop n f b = .ok b') :
    ∃ c', loop n g c = .ok c' ∧ R b' c' := by
  induction n generalizing b' with
  | zero =>
    obtain rfl : b = b' := by simpa using h
    exact ⟨c, by simp, hR⟩
  | succ n ih =>
    rw [loop_succ, bind_eq_ok_iff] at h
    obtain ⟨d, hd, hb'⟩ := h
    obtain ⟨d', hd', hRd⟩ := ih hd
    obtain ⟨c', hc', hRc⟩ := hstep n d d' b' hRd hb'
    exact ⟨c', by rw [loop_succ, hd', ok_bind, hc'], hRc⟩

/-- The simulation rule of loops over a list. -/
theorem foldlM_simulates {γ δ : Type} {f : β → δ → Except ε β} {g : γ → δ → Except ε γ}
    (R : β → γ → Prop)
    (hstep : ∀ x b c b', R b c → f b x = .ok b' → ∃ c', g c x = .ok c' ∧ R b' c')
    {l : List δ} {b b' : β} {c : γ} (hR : R b c) (h : l.foldlM f b = .ok b') :
    ∃ c', l.foldlM g c = .ok c' ∧ R b' c' := by
  induction l generalizing b c with
  | nil =>
    obtain rfl : b = b' := by simpa using h
    exact ⟨c, rfl, hR⟩
  | cons x l ih =>
    rw [List.foldlM_cons, bind_eq_ok_iff] at h
    obtain ⟨d, hd, hb'⟩ := h
    obtain ⟨d', hd', hRd⟩ := hstep x b c d hR hd
    obtain ⟨c', hc', hRc⟩ := ih hRd hb'
    exact ⟨c', by rw [List.foldlM_cons, hd', ok_bind, hc'], hRc⟩

/-- **A pass over a list that writes every position once**, by its place and
by what the position held before the pass, and carries a value along. -/
theorem writePass_ok {σ : Type} {n : ℕ} {body : β → ℕ → Except ε β}
    (st : (Fin n → α) → σ → β) (init g : Fin n → α) (acc : σ → Fin n → σ)
    (h : ∀ v s (i : Fin n), v i = init i →
      body (st v s) i = .ok (st (Function.update v i (g i)) (acc s i))) (s : σ) :
    loop n body (st init s) = .ok (st g (Fin.foldl n acc s)) := by
  -- the positions before `k` are written, those from `k` on are still the old ones
  obtain ⟨d, hrun, hd⟩ := loop_invariant (n := n) (f := body) (b := st init s)
    (fun k d => ∀ hk : k ≤ n, d = st (fun i => if (i : ℕ) < k then g i else init i)
      (Fin.foldl k (fun s i => acc s (i.castLE hk)) s))
    (fun _ => by simp)
    (fun k d hk hd => by
      refine ⟨_, (congrArg (body · k) (hd hk.le)).trans (h _ _ ⟨k, hk⟩ (if_neg (lt_irrefl k))),
        fun hk' => ?_⟩
      rw [Fin.foldl_succ_last]
      refine congrArg₂ st (funext fun i => ?_) rfl
      by_cases hi : i = ⟨k, hk⟩
      · subst hi
        rw [Function.update_self, if_pos (Nat.lt_succ_self k)]
      · have hne : (i : ℕ) ≠ k := fun h => hi (Fin.ext h)
        rw [Function.update_of_ne hi]
        exact if_congr (by omega) rfl rfl)
  rw [hrun, hd le_rfl]
  refine congrArg Except.ok (congrArg₂ st (funext fun i => if_pos i.isLt) ?_)
  rfl

/-- **A counting loop faults where its body first does.** -/
theorem loop_error {n : ℕ} {f : β → ℕ → Except ε β} {b c : β} {k : ℕ} {e : ε}
    (hk : k < n) (hok : loop k f b = .ok c) (he : f c k = .error e) :
    loop n f b = .error e := by
  induction n with
  | zero => omega
  | succ n ih =>
    rw [loop_succ]
    by_cases hkn : k < n
    · rw [ih hkn, error_bind]
    · obtain rfl : k = n := by omega
      rw [hok, ok_bind, he]

/-- **An entry of one kind comes first**: none of the other kind stands before
it. -/
def ComesFirst {γ : Type} (P Q : γ → Prop) (l : List γ) : Prop :=
  ∃ before x after, l = before ++ x :: after ∧ P x ∧ ∀ y ∈ before, ¬ Q y

theorem ComesFirst.exists_mem {γ : Type} {P Q : γ → Prop} {l : List γ} (h : ComesFirst P Q l) :
    ∃ x ∈ l, P x := by
  obtain ⟨before, x, after, rfl, hx, -⟩ := h
  exact ⟨x, List.mem_append_right before List.mem_cons_self, hx⟩

theorem comesFirst_cons_iff {γ : Type} {P Q : γ → Prop} {x : γ} {l : List γ} :
    ComesFirst P Q (x :: l) ↔ P x ∨ ¬ Q x ∧ ComesFirst P Q l := by
  constructor
  · rintro ⟨before, y, after, hl, hy, hbefore⟩
    cases before with
    | nil =>
      obtain ⟨rfl, -⟩ := List.cons.inj hl
      exact .inl hy
    | cons z before =>
      obtain ⟨rfl, rfl⟩ := List.cons.inj hl
      obtain ⟨hz, hbefore⟩ := List.forall_mem_cons.mp hbefore
      exact .inr ⟨hz, before, y, after, rfl, hy, hbefore⟩
  · rintro (hx | ⟨hx, before, y, after, rfl, hy, hbefore⟩)
    · exact ⟨[], x, l, rfl, hx, nofun⟩
    · exact ⟨x :: before, y, after, rfl, hy, List.forall_mem_cons.mpr ⟨hx, hbefore⟩⟩

/-- **The first entry of either kind decides** which comes first. -/
theorem comesFirst_append_iff {γ : Type} {P Q : γ → Prop} {before after : List γ} {x : γ}
    (hbefore : ∀ y ∈ before, ¬ P y ∧ ¬ Q y) (hx : P x ∨ Q x) :
    ComesFirst P Q (before ++ x :: after) ↔ P x := by
  induction before with
  | nil =>
    rw [List.nil_append, comesFirst_cons_iff]
    exact ⟨fun h => h.elim id fun h => hx.resolve_right h.1, .inl⟩
  | cons y before ih =>
    obtain ⟨⟨hP, hQ⟩, hbefore⟩ := List.forall_mem_cons.mp hbefore
    rw [List.cons_append, comesFirst_cons_iff, ih hbefore, or_iff_right hP, and_iff_right hQ]

/-- A list with a bad entry has a first one. -/
theorem exists_first {γ : Type} {good : γ → Prop} {l : List γ} (h : ¬ ∀ x ∈ l, good x) :
    ∃ before x after, l = before ++ x :: after ∧ (∀ y ∈ before, good y) ∧ ¬ good x := by
  induction l with
  | nil => exact absurd nofun h
  | cons x l ih =>
    by_cases hx : good x
    · obtain ⟨before, y, after, rfl, hbefore, hy⟩ :=
        ih fun hl => h (List.forall_mem_cons.mpr ⟨hx, hl⟩)
      exact ⟨x :: before, y, after, rfl, List.forall_mem_cons.mpr ⟨hx, hbefore⟩, hy⟩
    · exact ⟨[], x, l, rfl, nofun, hx⟩

/-- **A counting loop over the entries of a list** returns where all of them are
good, and otherwise comes to the first one that is not. -/
theorem loop_entries {γ : Type} {l : List γ} {f : β → ℕ → Except ε β} {b : β} (I : β → Prop)
    (good : γ → Prop) (h₀ : I b)
    (hgood : ∀ c k x, l[k]? = some x → I c → good x → ∃ d, f c k = .ok d ∧ I d) :
    ((∀ x ∈ l, good x) ∧ ∃ c, loop l.length f b = .ok c ∧ I c)
    ∨ ∃ before x after c, l = before ++ x :: after ∧ (∀ y ∈ before, good y) ∧ ¬ good x ∧ I c
      ∧ ∀ e, f c before.length = .error e → loop l.length f b = .error e := by
  -- the turns for the first entries, all of them good
  have hrun : ∀ before after : List γ, l = before ++ after → (∀ y ∈ before, good y) →
      ∃ c, loop before.length f b = .ok c ∧ I c := by
    rintro before after rfl hbefore
    refine loop_invariant (fun _ => I) h₀ fun k c hk hc => ?_
    refine hgood c k before[k] ?_ hc (hbefore _ (List.getElem_mem hk))
    rw [List.getElem?_append_left hk, List.getElem?_eq_getElem hk]
  by_cases hall : ∀ x ∈ l, good x
  · exact .inl ⟨hall, hrun l [] (List.append_nil l).symm hall⟩
  · obtain ⟨before, x, after, hl, hbefore, hx⟩ := exists_first hall
    obtain ⟨c, hc, hI⟩ := hrun before (x :: after) hl hbefore
    refine .inr ⟨before, x, after, c, hl, hbefore, hx, hI, fun e he => loop_error ?_ hc he⟩
    rw [hl, List.length_append, List.length_cons]
    omega

/-! ## The faults of a computation -/

/-- The faults of a computation are of a kind. -/
def FailsOnly (P : ε → Prop) (x : Except ε α) : Prop := ∀ e, x = .error e → P e

namespace FailsOnly

variable {P : ε → Prop}

theorem ok (a : α) : FailsOnly P (.ok a : Except ε α) := fun e he => by cases he

theorem error {e : ε} (h : P e) : FailsOnly P (.error e : Except ε α) := fun e' he => by
  obtain rfl := Except.error.inj he
  exact h

theorem bind {x : Except ε α} {f : α → Except ε β} (hx : FailsOnly P x)
    (hf : ∀ a, FailsOnly P (f a)) : FailsOnly P (x >>= f) := by
  intro e he
  rcases (bind_eq_error_iff x f e).mp he with hxe | ⟨a, -, hfe⟩
  · exact hx e hxe
  · exact hf a e hfe

theorem fill {n : ℕ} {f : ℕ → Except ε α} (hf : ∀ k, FailsOnly P (f k)) :
    FailsOnly P (Checked.fill n f) := by
  induction n with
  | zero =>
    rw [fill_zero]
    exact ok []
  | succ n ih =>
    rw [fill_succ]
    exact ih.bind fun as => (hf n).bind fun a => ok _

theorem loop {n : ℕ} {f : β → ℕ → Except ε β} (hf : ∀ b k, FailsOnly P (f b k)) (b : β) :
    FailsOnly P (Checked.loop n f b) := by
  induction n with
  | zero =>
    rw [loop_zero]
    exact ok b
  | succ n ih =>
    rw [loop_succ]
    exact ih.bind fun c => hf c n

theorem read {e : ε} (h : P e) (l : List α) (i : ℕ) : FailsOnly P (Checked.read e l i) := by
  unfold Checked.read
  split
  · exact ok _
  · exact error h

end FailsOnly

/-! ## Accumulated sums -/

/-- **A sum accumulated from zero is the sum**, where addition is that of
a monoid. -/
theorem foldl_add_eq_sum {M : Type} [AddCommMonoid M] {n : ℕ} (f : Fin n → M) :
    Fin.foldl n (fun s i => s + f i) 0 = ∑ i, f i := by
  induction n with
  | zero => simp
  | succ n ih =>
    rw [Fin.foldl_succ_last, ih, Fin.sum_univ_castSucc]

/-- A number that starts at zero and grows by a term a turn ends as the sum
of the terms. -/
theorem eq_sum_of_steps {M : Type} [AddCommMonoid M] {n : ℕ} {f : ℕ → M} {a : Fin n → M}
    (h₀ : f 0 = 0) (hstep : ∀ k : Fin n, f (k + 1) = f k + a k) : f n = ∑ k, a k := by
  induction n with
  | zero => rw [h₀, Finset.univ_eq_empty, Finset.sum_empty]
  | succ n ih =>
    rw [Fin.sum_univ_castSucc, ← ih fun k => hstep k.castSucc]
    exact hstep (Fin.last n)

/-- Folding the values of a function is folding its positions. -/
theorem foldl_ofFn {σ : Type} {n : ℕ} (f : σ → α → σ) (g : Fin n → α) (s : σ) :
    (List.ofFn g).foldl f s = Fin.foldl n (fun s i => f s (g i)) s := by
  induction n generalizing s with
  | zero => rw [List.ofFn_zero, List.foldl_nil, Fin.foldl_zero]
  | succ n ih => rw [List.ofFn_succ, List.foldl_cons, ih, Fin.foldl_succ]

/-- **A fold whose turns add a term each** ends as the value it started with
and the sum of the terms. -/
theorem foldl_ofFn_eq_add_sum {M : Type} [AddCommMonoid M] {n : ℕ} {g : Fin n → β}
    {f : M → β → M} {a : Fin n → M} (hstep : ∀ s i, f s (g i) = s + a i) (s : M) :
    (List.ofFn g).foldl f s = s + ∑ i, a i := by
  induction n generalizing s with
  | zero => rw [List.ofFn_zero, List.foldl_nil, Finset.univ_eq_empty, Finset.sum_empty, add_zero]
  | succ n ih =>
    rw [List.ofFn_succ, List.foldl_cons, ih (fun s i => hstep s i.succ), hstep, Fin.sum_univ_succ,
      add_assoc]

/-- A difference accumulated from a value is the value less the sum. -/
theorem foldl_sub_eq_sub_sum {M : Type} [AddCommGroup M] {n : ℕ} (f : Fin n → M) (s : M) :
    Fin.foldl n (fun s i => s - f i) s = s - ∑ i, f i := by
  induction n with
  | zero => simp
  | succ n ih =>
    rw [Fin.foldl_succ_last, ih, Fin.sum_univ_castSucc, sub_sub]

end Checked
