import Mathlib.Data.List.Lookmap
import Mathlib.Data.List.Nodup

/-!
# Collections of documents under a unique key

A collection keeps its documents in the order of their insertion and never
holds two under one key. Its operations address one document by its key, and
each is described by what a lookup of any key finds afterwards. The last part
is about collections without a unique key, where an operation takes the first
match.

The key is a function of the document, and the collection is a list with a proof
that no key occurs twice. So a lookup after an operation is a lookup before it,
but for one key: `findById_insert`, `findById_update` and `findById_remove` are
the rules that a proof about a store works with. `select` is what a query by
another field returns, in the order of insertion.
-/

/-- **A collection**: documents no two of which share their key. -/
@[ext]
structure Collection {δ ι : Type} (key : δ → ι) where
  /-- The documents, oldest first. -/
  docs : List δ
  /-- The key is unique. -/
  keys_nodup : (docs.map key).Nodup

namespace Collection

variable {δ ι : Type} {key : δ → ι} [DecidableEq ι]

/-- The collection without documents. -/
def empty : Collection key := ⟨[], List.nodup_nil⟩

/-- The document under a key. -/
def findById (c : Collection key) (i : ι) : Option δ :=
  c.docs.find? (fun d => key d = i)

theorem findById_eq_some_iff {c : Collection key} {i : ι} {d : δ} :
    c.findById i = some d ↔ d ∈ c.docs ∧ key d = i := by
  unfold findById
  constructor
  · intro h
    exact ⟨List.mem_of_find?_eq_some h, by simpa using List.find?_some h⟩
  · rintro ⟨hd, rfl⟩
    cases h : c.docs.find? (fun e => key e = key d) with
    | none => simpa using List.find?_eq_none.mp h d hd
    | some e =>
      have hkey : key e = key d := by simpa using List.find?_some h
      rw [List.inj_on_of_nodup_map c.keys_nodup (List.mem_of_find?_eq_some h) hd hkey]

theorem findById_eq_none_iff {c : Collection key} {i : ι} :
    c.findById i = none ↔ ∀ d ∈ c.docs, key d ≠ i := by
  simp [findById]

theorem findById_of_mem {c : Collection key} {d : δ} (h : d ∈ c.docs) :
    c.findById (key d) = some d :=
  findById_eq_some_iff.mpr ⟨h, rfl⟩

/-- The key leaves one document of a collection at most. -/
theorem filter_key (c : Collection key) (i : ι) :
    c.docs.filter (fun d => key d = i) = (c.findById i).toList := by
  have hle : ∀ l : List δ, (l.map key).Nodup →
      l.filter (fun d => key d = i) = (l.find? (fun d => key d = i)).toList := by
    intro l hl
    induction l with
    | nil => rfl
    | cons d l ih =>
      rw [List.map_cons, List.nodup_cons] at hl
      by_cases hd : key d = i
      · have hrest : l.filter (fun d => key d = i) = [] := by
          refine List.filter_eq_nil_iff.mpr (fun e he heq => hl.1 ?_)
          rw [hd, ← of_decide_eq_true heq]
          exact List.mem_map_of_mem he
        rw [List.filter_cons_of_pos (by simpa using hd), List.find?_cons_of_pos (by simpa using hd),
          hrest, Option.toList_some]
      · rw [List.filter_cons_of_neg (by simpa using hd),
          List.find?_cons_of_neg (by simpa using hd), ih hl.2]
  exact hle c.docs c.keys_nodup

/-- A new document, unless its key is taken. -/
def insert (c : Collection key) (d : δ) : Option (Collection key) :=
  if h : c.findById (key d) = none then
    some ⟨c.docs ++ [d], by
      rw [List.map_append, List.map_singleton, List.nodup_append]
      refine ⟨c.keys_nodup, List.nodup_singleton _, ?_⟩
      intro a ha b hb
      obtain ⟨e, he, rfl⟩ := List.mem_map.mp ha
      rw [List.mem_singleton.mp hb]
      exact findById_eq_none_iff.mp h e he⟩
  else none

theorem insert_eq_none_iff {c : Collection key} {d : δ} :
    c.insert d = none ↔ c.findById (key d) ≠ none := by
  unfold insert
  split <;> simp [*]

theorem docs_of_insert {c c' : Collection key} {d : δ} (h : c.insert d = some c') :
    c.findById (key d) = none ∧ c'.docs = c.docs ++ [d] := by
  unfold insert at h
  split at h
  · next hnone =>
    obtain rfl := Option.some.inj h
    exact ⟨hnone, rfl⟩
  · cases h

theorem insert_of_findById {c : Collection key} {d : δ} (h : c.findById (key d) = none) :
    ∃ c', c.insert d = some c' ∧ c'.docs = c.docs ++ [d] := by
  cases h' : c.insert d with
  | none => exact absurd h (insert_eq_none_iff.mp h')
  | some c' => exact ⟨c', rfl, (docs_of_insert h').2⟩

theorem findById_insert {c c' : Collection key} {d : δ} (h : c.insert d = some c') (i : ι) :
    c'.findById i = if key d = i then some d else c.findById i := by
  obtain ⟨hnone, hdocs⟩ := docs_of_insert h
  have happend : c'.findById i
      = (c.findById i).or (if key d = i then some d else none) := by
    unfold findById
    rw [hdocs, List.find?_append]
    congr 1
    by_cases hi : key d = i <;> simp [hi]
  rw [happend]
  split
  · next hi => rw [← hi, hnone, Option.none_or]
  · rw [Option.or_none]

/-- A change to the document under a key. -/
def update (c : Collection key) (i : ι) (f : δ → δ) (hf : ∀ d, key (f d) = key d) :
    Collection key :=
  ⟨c.docs.map (fun d => if key d = i then f d else d), by
    have hkeys : key ∘ (fun d => if key d = i then f d else d) = key := by
      funext d
      simp only [Function.comp]
      split
      · exact hf d
      · rfl
    rw [List.map_map, hkeys]
    exact c.keys_nodup⟩

variable {c : Collection key} {i : ι} {f : δ → δ} {hf : ∀ d, key (f d) = key d}

@[simp]
theorem docs_update :
    (c.update i f hf).docs = c.docs.map (fun d => if key d = i then f d else d) := rfl

theorem findById_update (j : ι) :
    (c.update i f hf).findById j = (c.findById j).map (fun d => if j = i then f d else d) := by
  have hpred : (fun d => decide (key (if key d = i then f d else d) = j))
      = fun d => decide (key d = j) := by
    funext d
    split
    · rw [hf d]
    · rfl
  unfold findById
  rw [docs_update, List.find?_map]
  simp only [Function.comp_def, hpred]
  cases h : c.docs.find? (fun d => key d = j) with
  | none => rfl
  | some d =>
    have hd : key d = j := by simpa using List.find?_some h
    simp only [Option.map_some, hd]

theorem update_of_findById_none (h : c.findById i = none) : c.update i f hf = c := by
  ext1
  rw [docs_update]
  conv_rhs => rw [← List.map_id c.docs]
  refine List.map_congr_left (fun d hd => ?_)
  rw [if_neg (findById_eq_none_iff.mp h d hd), id]

/-- The collection without the document under a key. -/
def remove (c : Collection key) (i : ι) : Collection key :=
  ⟨c.docs.filter (fun d => key d ≠ i),
    c.keys_nodup.sublist (List.filter_sublist.map key)⟩

@[simp]
theorem docs_remove : (c.remove i).docs = c.docs.filter (fun d => key d ≠ i) := rfl

theorem mem_remove {d : δ} : d ∈ (c.remove i).docs ↔ d ∈ c.docs ∧ key d ≠ i := by
  simp

theorem findById_remove (j : ι) :
    (c.remove i).findById j = if j = i then none else c.findById j := by
  split
  · next h =>
    rw [findById_eq_none_iff, h]
    intro d hd
    exact (mem_remove.mp hd).2
  · next h =>
    ext d
    rw [findById_eq_some_iff, findById_eq_some_iff, mem_remove]
    constructor
    · rintro ⟨⟨hd, -⟩, hkey⟩
      exact ⟨hd, hkey⟩
    · rintro ⟨hd, rfl⟩
      exact ⟨⟨hd, h⟩, rfl⟩

theorem remove_of_findById_none (h : c.findById i = none) : c.remove i = c := by
  ext1
  rw [docs_remove, List.filter_eq_self]
  intro d hd
  simpa using findById_eq_none_iff.mp h d hd

/-- The documents a predicate selects, as a collection of their own. -/
def select (c : Collection key) (p : δ → Bool) : Collection key :=
  ⟨c.docs.filter p, c.keys_nodup.sublist (List.filter_sublist.map key)⟩

omit [DecidableEq ι] in
@[simp]
theorem docs_select {p : δ → Bool} : (c.select p).docs = c.docs.filter p := rfl

theorem findById_select {p : δ → Bool} :
    (c.select p).findById i = (c.findById i).filter p := by
  ext d
  rw [findById_eq_some_iff, docs_select, List.mem_filter, Option.filter_eq_some_iff,
    findById_eq_some_iff]
  constructor
  · rintro ⟨⟨hd, hp⟩, hkey⟩
    exact ⟨⟨hd, hkey⟩, hp⟩
  · rintro ⟨⟨hd, hkey⟩, hp⟩
    exact ⟨⟨hd, hp⟩, hkey⟩

theorem select_update {p : δ → Bool} (hp : ∀ d, p (f d) = p d) :
    (c.update i f hf).select p = (c.select p).update i f hf := by
  ext1
  simp only [docs_select, docs_update, List.filter_map]
  congr 1
  refine List.filter_congr (fun d _ => ?_)
  simp only [Function.comp]
  split
  · exact hp d
  · rfl

theorem select_remove {p : δ → Bool} : (c.remove i).select p = (c.select p).remove i := by
  ext1
  simp only [docs_select, docs_remove, List.filter_filter, Bool.and_comm]

end Collection

/-! ## The first match of a list -/

namespace List

variable {δ : Type} {p q : δ → Bool} {f : δ → Option δ}

theorem filter_eraseP_of_not (h : ∀ d, p d = true → q d = false) (l : List δ) :
    (l.eraseP p).filter q = l.filter q := by
  induction l with
  | nil => rfl
  | cons d l ih =>
    cases hp : p d with
    | true => rw [eraseP_cons_of_pos hp, filter_cons_of_neg (by simp [h d hp])]
    | false =>
      rw [eraseP_cons_of_neg (by simp [hp]), filter_cons, filter_cons, ih]

theorem filter_lookmap_of_not (h : ∀ d e, f d = some e → q d = false ∧ q e = false)
    (l : List δ) : (l.lookmap f).filter q = l.filter q := by
  induction l with
  | nil => rfl
  | cons d l ih =>
    cases hf : f d with
    | some e =>
      obtain ⟨hd, he⟩ := h d e hf
      rw [lookmap_cons_some _ _ hf, filter_cons_of_neg (by simp [he]),
        filter_cons_of_neg (by simp [hd])]
    | none => rw [lookmap_cons_none _ _ hf, filter_cons, filter_cons, ih]

theorem filter_lookmap_comm (h : ∀ d e, f d = some e → q d = true ∧ q e = true)
    (l : List δ) : (l.lookmap f).filter q = (l.filter q).lookmap f := by
  induction l with
  | nil => rfl
  | cons d l ih =>
    cases hf : f d with
    | some e =>
      obtain ⟨hd, he⟩ := h d e hf
      rw [lookmap_cons_some _ _ hf, filter_cons_of_pos he, filter_cons_of_pos hd,
        lookmap_cons_some _ _ hf]
    | none =>
      rw [lookmap_cons_none _ _ hf, filter_cons, filter_cons, ih]
      cases q d with
      | true => exact (lookmap_cons_none _ _ hf).symm
      | false => rfl

/-- The first match, where the first match has been changed and still
matches. -/
theorem find?_lookmap_of_pos {g : δ → δ} (h : ∀ d, p d = true → p (g d) = true) (l : List δ) :
    (l.lookmap fun d => if p d then some (g d) else none).find? p = (l.find? p).map g := by
  induction l with
  | nil => rfl
  | cons d l ih =>
    rw [lookmap_cons]
    by_cases hp : p d = true
    · rw [if_pos hp, find?_cons_of_pos (h d hp), find?_cons_of_pos hp, Option.map_some]
    · rw [if_neg hp, find?_cons_of_neg hp, find?_cons_of_neg hp, ih]

/-! ## Around a position -/

/-- A list around one of its positions. -/
theorem exists_around {l : List δ} {i : ℕ} {d : δ} (h : l[i]? = some d) :
    ∃ before after, l = before ++ d :: after ∧ l.eraseIdx i = before ++ after
      ∧ ∀ e, l.set i e = before ++ e :: after := by
  obtain ⟨hi, rfl⟩ := getElem?_eq_some_iff.mp h
  refine ⟨l.take i, l.drop (i + 1), ?_, eraseIdx_eq_take_drop_succ l i, fun e => ?_⟩
  · rw [getElem_cons_drop, take_append_drop]
  · rw [set_eq_take_append_cons_drop, if_pos hi]

/-- A position that a filter passes over, before and after. -/
theorem filter_set_of_neg {l : List δ} {i : ℕ} {d e : δ} (h : l[i]? = some d) (hd : q d = false)
    (he : q e = false) : (l.set i e).filter q = l.filter q := by
  obtain ⟨before, after, hl, -, hset⟩ := exists_around h
  rw [hset, hl, filter_append, filter_append, filter_cons_of_neg (by simp [he]),
    filter_cons_of_neg (by simp [hd])]

theorem filter_eraseIdx_of_neg {l : List δ} {i : ℕ} {d : δ} (h : l[i]? = some d)
    (hd : q d = false) : (l.eraseIdx i).filter q = l.filter q := by
  obtain ⟨before, after, hl, herase, -⟩ := exists_around h
  rw [herase, hl, filter_append, filter_append, filter_cons_of_neg (by simp [hd])]

/-- The only element a filter leaves, replaced or removed. -/
theorem filter_set_of_single {l : List δ} {i : ℕ} {d e : δ} (h : l[i]? = some d)
    (hd : q d = true) (hl : (l.filter q).length ≤ 1) (he : q e = true) :
    (l.set i e).filter q = [e] ∧ (l.eraseIdx i).filter q = [] := by
  obtain ⟨before, after, rfl, herase, hset⟩ := exists_around h
  rw [filter_append, filter_cons_of_pos hd, length_append, length_cons] at hl
  have hbefore : before.filter q = [] := length_eq_zero_iff.mp (by omega)
  have hafter : after.filter q = [] := length_eq_zero_iff.mp (by omega)
  rw [hset, herase, filter_append, filter_append, filter_cons_of_pos he, hbefore, hafter]
  exact ⟨rfl, rfl⟩

/-- A new element, where the filter left none. -/
theorem filter_set_of_nil {l : List δ} {i : ℕ} {d e : δ} (h : l[i]? = some d)
    (hl : l.filter q = []) (he : q e = true) : (l.set i e).filter q = [e] := by
  obtain ⟨before, after, rfl, -, hset⟩ := exists_around h
  rw [filter_append, append_eq_nil_iff] at hl
  have hafter : after.filter q = [] := by
    refine filter_eq_nil_iff.mpr (fun x hx => ?_)
    exact filter_eq_nil_iff.mp hl.2 x (mem_cons_of_mem _ hx)
  rw [hset, filter_append, filter_cons_of_pos he, hl.1, hafter, nil_append]

end List
