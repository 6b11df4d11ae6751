import NeuralBuilder.Library.Checked

/-!
# Rectangular lists of lists

A program that keeps a matrix as a list of rows has to live with ragged
ones. This module separates the two: `Grid.ofFn` writes a function of a
row and a column out as a list of rows, which is then rectangular by
construction, and `exists_ofFn` says every rectangular list of rows is one
of these. Below such a function nothing can be out of range, and what
reads, writes and fills a list of rows is computed by what it does to the
function.

There are rules for the passes that such a program makes: over all entries, down
one column, along one row, and for two matrices set side by side. Each says what
a pass returns on a function; that it reads nothing out of range is part of what
it says, since it returns.
-/

namespace Grid

variable {ε α β : Type} {r c : ℕ}

/-- The rows of a function of a row and a column. -/
def ofFn (f : Fin r → Fin c → α) : List (List α) := List.ofFn fun i => List.ofFn (f i)

/-- The rows of a function of two numbers, up to the given sizes. -/
def tabulate (r c : ℕ) (f : ℕ → ℕ → α) : List (List α) :=
  ofFn fun (i : Fin r) (j : Fin c) => f i j

/-- `r` rows of `c` entries each. -/
def IsRect (r c : ℕ) (A : List (List α)) : Prop :=
  A.length = r ∧ ∀ row ∈ A, row.length = c

instance (r c : ℕ) (A : List (List α)) : Decidable (IsRect r c A) :=
  inferInstanceAs (Decidable (_ ∧ _))

@[simp] theorem length_ofFn (f : Fin r → Fin c → α) : (ofFn f).length = r := by
  simp [ofFn]

theorem isRect_ofFn (f : Fin r → Fin c → α) : IsRect r c (ofFn f) := by
  refine ⟨length_ofFn f, fun row hrow => ?_⟩
  obtain ⟨i, rfl⟩ := List.mem_ofFn.mp hrow
  exact List.length_ofFn

/-- **Every rectangular list of rows is the rows of a function.** -/
theorem exists_ofFn {A : List (List α)} (h : IsRect r c A) :
    ∃ f : Fin r → Fin c → α, A = ofFn f := by
  obtain ⟨rfl, hrow⟩ := h
  have hlen : ∀ i : Fin A.length, A[i].length = c := fun i => hrow _ (List.getElem_mem _)
  refine ⟨fun i j => A[i][Fin.cast (hlen i).symm j], ?_⟩
  refine List.ext_getElem (by simp) (fun i h₁ h₂ => ?_)
  refine List.ext_getElem (by simpa [ofFn] using hlen ⟨i, h₁⟩) (fun j h₃ h₄ => ?_)
  simp [ofFn]

/-- A list of length `n` is the list of a function on `n` positions. -/
theorem exists_list_ofFn {n : ℕ} {l : List α} (h : l.length = n) :
    ∃ f : Fin n → α, l = List.ofFn f := by
  subst h
  exact ⟨fun i => l[i], List.ofFn_getElem.symm⟩

/-- The function behind a list of rows is determined by it. -/
theorem ofFn_injective : Function.Injective (ofFn : (Fin r → Fin c → α) → _) := by
  intro f g h
  exact funext fun i => List.ofFn_injective (congrFun (List.ofFn_injective h) i)

theorem ofFn_inj {f g : Fin r → Fin c → α} : ofFn f = ofFn g ↔ f = g :=
  ofFn_injective.eq_iff

/-- The row after a row that is not the last one. -/
theorem succ_lt (i : Fin (r - 1)) : (i : ℕ) + 1 < r := by omega

/-! ## Ragged lists of rows -/

/-- The length of the first row. -/
def width (A : List (List α)) : ℕ := (A.headD []).length

/-- All rows have the length of the first. -/
def IsUniform (A : List (List α)) : Prop := ∀ row ∈ A, row.length = width A

theorem IsUniform.isRect {A : List (List α)} (h : IsUniform A) : IsRect A.length (width A) A :=
  ⟨rfl, h⟩

/-- The number of columns is the length of the first row, if there is one. -/
theorem IsRect.width_eq {A : List (List α)} (h : IsRect r c A) (hA : A ≠ []) : width A = c := by
  obtain ⟨row, rest, rfl⟩ := List.exists_cons_of_ne_nil hA
  exact h.2 row List.mem_cons_self

theorem IsRect.isUniform {A : List (List α)} (h : IsRect r c A) : IsUniform A := by
  intro row hrow
  rw [h.width_eq (List.ne_nil_of_mem hrow)]
  exact h.2 row hrow

theorem exists_isRect_iff {A : List (List α)} : (∃ r c, IsRect r c A) ↔ IsUniform A :=
  ⟨fun ⟨_, _, h⟩ => h.isUniform, fun h => ⟨_, _, h.isRect⟩⟩

/-- A rectangular list of rows with a row has a positive number of them. -/
theorem IsRect.pos {A : List (List α)} (h : IsRect r c A) (hA : A ≠ []) : 0 < r := by
  rw [← h.1]
  exact List.length_pos_iff.mpr hA

/-! ## Reads and writes -/

/-- The entry in row `i` and column `j`, or the fault `e`. -/
def read (e : ε) (A : List (List α)) (i j : ℕ) : Except ε α := do
  Checked.read e (← Checked.read e A i) j

/-- The rows with the entry in row `i` and column `j` overwritten, or the
fault `e`. -/
def write (e : ε) (A : List (List α)) (i j : ℕ) (x : α) : Except ε (List (List α)) := do
  Checked.write e A i (← Checked.write e (← Checked.read e A i) j x)

@[simp] theorem read_row_ofFn (e : ε) (f : Fin r → Fin c → α) (i : Fin r) :
    Checked.read e (ofFn f) i = .ok (List.ofFn (f i)) :=
  Checked.read_ofFn e _ i

theorem read_row_zero (e : ε) (f : Fin r → Fin c → α) (hr : 0 < r) :
    Checked.read e (ofFn f) 0 = .ok (List.ofFn (f ⟨0, hr⟩)) :=
  Checked.read_ofFn e _ ⟨0, hr⟩

@[simp] theorem read_ofFn (e : ε) (f : Fin r → Fin c → α) (i : Fin r) (j : Fin c) :
    read e (ofFn f) i j = .ok (f i j) := by
  simp [read]

@[simp] theorem write_ofFn (e : ε) (f : Fin r → Fin c → α) (i : Fin r) (j : Fin c)
    (x : α) :
    write e (ofFn f) i j x
      = .ok (ofFn (Function.update f i (Function.update (f i) j x))) := by
  rw [write, read_row_ofFn, Checked.ok_bind, Checked.write_ofFn, Checked.ok_bind, ofFn,
    Checked.write_ofFn]
  refine congrArg Except.ok (congrArg List.ofFn (funext fun i' => ?_))
  by_cases h : i' = i
  · subst h; simp
  · simp [h]

theorem zipWith_ofFn {γ : Type} {n : ℕ} (op : α → β → γ) (f : Fin n → α) (g : Fin n → β) :
    List.zipWith op (List.ofFn f) (List.ofFn g) = List.ofFn fun i => op (f i) (g i) := by
  refine List.ext_getElem (by simp) fun i h₁ h₂ => ?_
  simp

/-- Two lists of rows side by side. -/
def append (A B : List (List α)) : List (List α) := List.zipWith (· ++ ·) A B

theorem append_ofFn {m₁ m₂ : ℕ} (f : Fin r → Fin m₁ → α) (g : Fin r → Fin m₂ → α) :
    append (ofFn f) (ofFn g) = ofFn fun i => Fin.append (f i) (g i) := by
  rw [append, ofFn, ofFn, zipWith_ofFn]
  exact congrArg List.ofFn (funext fun i => (List.ofFn_fin_append (f i) (g i)).symm)

/-! ## Filling -/

/-- **Filling every row returns the rows of what the body returns.** -/
theorem fill_ok {f : ℕ → ℕ → Except ε α} {g : Fin r → Fin c → α}
    (h : ∀ (i : Fin r) (j : Fin c), f i j = .ok (g i j)) :
    (Checked.fill r fun i => Checked.fill c (f i)) = .ok (ofFn g) :=
  Checked.fill_ok fun i => Checked.fill_ok (h i)

/-- A loop that fills rows and returns has returned the rows of what its
body returned. -/
theorem exists_of_fill_ok {r c : ℕ} {f : ℕ → ℕ → Except ε α} {A : List (List α)}
    (h : (Checked.fill r fun i => Checked.fill c (f i)) = .ok A) :
    ∃ g : Fin r → Fin c → α, A = ofFn g ∧ ∀ (i : Fin r) (j : Fin c), f i j = .ok (g i j) := by
  obtain ⟨rows, rfl, hrows⟩ := Checked.exists_of_fill_ok h
  choose g hg hentry using fun i => Checked.exists_of_fill_ok (hrows i)
  exact ⟨g, congrArg List.ofFn (funext hg), hentry⟩

/-- Mapping every entry is mapping the function. -/
theorem map_ofFn (f : Fin r → Fin c → α) (g : α → β) :
    (ofFn f).map (List.map g) = ofFn fun i j => g (f i j) := by
  simp [ofFn, List.map_ofFn, Function.comp_def]

/-- Mapping every position of a list is mapping the function. -/
theorem mapIdx_ofFn {n : ℕ} (f : Fin n → α) (g : ℕ → α → β) :
    (List.ofFn f).mapIdx g = List.ofFn fun i => g i (f i) := by
  refine List.ext_getElem (by simp) fun i h₁ h₂ => ?_
  simp

/-- A slice of a list is the slice of the function. -/
theorem take_drop_ofFn {m s c : ℕ} (v : Fin m → α) (h : s + c ≤ m) :
    ((List.ofFn v).drop s).take c
      = List.ofFn fun j : Fin c => v ⟨s + j, (Nat.add_lt_add_left j.isLt s).trans_le h⟩ := by
  refine List.ext_getElem ?_ fun j h₁ h₂ => ?_
  · simp only [List.length_take, List.length_drop, List.length_ofFn]
    exact min_eq_left (Nat.le_sub_of_add_le' h)
  · simp

/-- A grid with one entry overwritten, entry by entry. -/
theorem update_update_apply (f : Fin r → Fin c → α) (i : Fin r) (j : Fin c) (x : α) :
    Function.update f i (Function.update (f i) j x)
      = fun i' j' => if j' = j then (if i' = i then x else f i' j') else f i' j' := by
  funext i' j'
  by_cases hi : i' = i
  · subst hi
    rw [Function.update_self, Function.update_apply, if_pos rfl]
  · rw [Function.update_of_ne hi, if_neg hi, ite_self]

/-! ## One pass down a column -/

/-- The entries of a column, from the top down. -/
def column (A : Fin r → Fin c → α) (j : Fin c) : List α := List.ofFn fun i => A i j

/-- Taking one more entry off a column is folding it in last. -/
theorem foldl_take_column_succ {σ : Type} (A : Fin r → Fin c → α) (j : Fin c)
    (acc : σ → α → σ) (s : σ) (i : Fin r) :
    ((column A j).take (i + 1)).foldl acc s
      = acc (((column A j).take i).foldl acc s) (A i j) := by
  have hi : (i : ℕ) < (column A j).length := by simp [column]
  rw [← List.take_concat_get' _ _ hi, List.foldl_append]
  simp [column]

/-- The grid whose column `j` has been rewritten by `g` in its first `k`
rows. -/
def rewriteAbove (A : Fin r → Fin c → α) (j : Fin c) (g : α → α) (k : ℕ) :
    Fin r → Fin c → α :=
  fun i j' => if j' = j ∧ (i : ℕ) < k then g (A i j') else A i j'

theorem rewriteAbove_zero (A : Fin r → Fin c → α) (j : Fin c) (g : α → α) :
    rewriteAbove A j g 0 = A := by
  funext i j'
  simp [rewriteAbove]

theorem rewriteAbove_full (A : Fin r → Fin c → α) (j : Fin c) (g : α → α) :
    rewriteAbove A j g r = fun i j' => if j' = j then g (A i j') else A i j' := by
  funext i j'
  simp [rewriteAbove]

/-- Rewriting one more entry of the column. -/
theorem update_rewriteAbove (A : Fin r → Fin c → α) (j : Fin c) (g : α → α) (i : Fin r) :
    Function.update (rewriteAbove A j g i) i
        (Function.update (rewriteAbove A j g i i) j (g (A i j)))
      = rewriteAbove A j g (i + 1) := by
  funext i' j'
  by_cases hi : i' = i
  · subst hi
    by_cases hj : j' = j
    · subst hj; simp [rewriteAbove]
    · simp [rewriteAbove, hj]
  · have : (i' : ℕ) ≠ i := fun h => hi (Fin.ext h)
    simp only [Function.update_of_ne hi, rewriteAbove]
    refine if_congr (and_congr_right fun _ => ?_) rfl rfl
    omega

/-- **A pass that rewrites a column from top to bottom**, reading each entry
just before overwriting it and carrying a value along: every entry is
rewritten by its own old value, and the rest of the grid is untouched. -/
theorem columnPass_ok {σ : Type} (e : ε) (A : Fin r → Fin c → α) (j : Fin c)
    (g : α → α) (acc : σ → α → σ) (s : σ) :
    Checked.loop (m := Except ε) r (fun (p : List (List α) × σ) (i : ℕ) => do
        let x ← read e p.1 i j
        let A' ← write e p.1 i j (g x)
        return (A', acc p.2 x)) (ofFn A, s)
      = .ok (ofFn (fun i j' => if j' = j then g (A i j') else A i j'),
          (column A j).foldl acc s) := by
  -- the rows above `k` are rewritten, those from `k` on are still the old ones
  obtain ⟨⟨B, t⟩, hrun, hB, ht⟩ := Checked.loop_invariant (n := r)
    (f := fun (p : List (List α) × σ) (i : ℕ) => do
        let x ← read e p.1 i j
        let A' ← write e p.1 i j (g x)
        return (A', acc p.2 x)) (b := (ofFn A, s))
    (fun k p => p.1 = ofFn (rewriteAbove A j g k)
      ∧ p.2 = ((column A j).take k).foldl acc s)
    (by simp [rewriteAbove_zero])
    (fun i p hi ⟨hp, ht⟩ => by
      lift i to Fin r using hi
      have hval : rewriteAbove A j g i i j = A i j := by simp [rewriteAbove]
      refine ⟨(ofFn (rewriteAbove A j g (i + 1)), acc p.2 (A i j)), ?_, rfl, ?_⟩
      · rw [hp, read_ofFn, Checked.ok_bind, write_ofFn, Checked.ok_bind, hval,
          update_rewriteAbove]
        rfl
      · rw [foldl_take_column_succ, ht])
  rw [hrun]
  have hlen : (column A j).length ≤ r := by simp [column]
  exact congrArg Except.ok (Prod.ext (hB.trans (congrArg ofFn (rewriteAbove_full A j g)))
    (ht.trans (by rw [List.take_of_length_le hlen])))

/-- **A pass that only rewrites a column.** -/
theorem columnMap_ok (e : ε) (A : Fin r → Fin c → α) (j : Fin c) (g : α → α) :
    Checked.loop (m := Except ε) r (fun (B : List (List α)) (i : ℕ) => do
        let x ← read e B i j
        write e B i j (g x)) (ofFn A)
      = .ok (ofFn fun i j' => if j' = j then g (A i j') else A i j') := by
  obtain ⟨B, hrun, hB⟩ := Checked.loop_invariant (n := r)
    (f := fun (B : List (List α)) (i : ℕ) => do
        let x ← read e B i j
        write e B i j (g x)) (b := ofFn A)
    (fun k B => B = ofFn (rewriteAbove A j g k))
    (by simp [rewriteAbove_zero])
    (fun i B hi hB => by
      lift i to Fin r using hi
      have hval : rewriteAbove A j g i i j = A i j := by simp [rewriteAbove]
      refine ⟨ofFn (rewriteAbove A j g (i + 1)), ?_, rfl⟩
      rw [hB, read_ofFn, Checked.ok_bind, write_ofFn, hval, update_rewriteAbove])
  rw [hrun, hB, rewriteAbove_full]

/-- **A loop over the columns that rewrites one column a turn**, each by a
function of the grid as it stands that reads that column only: all columns
are rewritten as they were before the loop. -/
theorem columnLoop_ok (A : Fin r → Fin c → α) (f : List (List α) → ℕ → Except ε (List (List α)))
    (g : (Fin r → α) → Fin c → Fin r → α)
    (hf : ∀ (B : Fin r → Fin c → α) (j : Fin c),
      f (ofFn B) j = .ok (ofFn fun i j' => if j' = j then g (fun i => B i j) j i else B i j')) :
    Checked.loop c f (ofFn A) = .ok (ofFn fun i j => g (fun i => A i j) j i) := by
  obtain ⟨B, hrun, hB⟩ := Checked.loop_invariant (n := c) (f := f) (b := ofFn A)
    (fun k B => B = ofFn fun i j => if (j : ℕ) < k then g (fun i => A i j) j i else A i j)
    (by simp)
    (fun k B hk hB => by
      lift k to Fin c using hk
      refine ⟨_, (congrArg (f · k) hB).trans (hf _ k), congrArg ofFn ?_⟩
      funext i j
      have hcol : (fun i : Fin r => if (k : ℕ) < k then g (fun i => A i k) k i else A i k)
          = fun i => A i k := funext fun i => if_neg (lt_irrefl _)
      by_cases hjk : j = k
      · subst hjk
        rw [if_pos rfl, if_pos (Nat.lt_succ_self _), hcol]
      · have hne : (j : ℕ) ≠ k := fun h => hjk (Fin.ext h)
        rw [if_neg hjk]
        exact if_congr (by omega) rfl rfl)
  rw [hrun, hB]
  refine congrArg Except.ok (congrArg ofFn ?_)
  funext i j
  exact if_pos j.isLt

end Grid
