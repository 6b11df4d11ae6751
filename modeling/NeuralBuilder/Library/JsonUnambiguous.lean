import NeuralBuilder.Library.JsonGrammar

/-!
# A text has one reading

A dialect is lexical when one can tell where a number and a string end: its
numbers have the characters of numerals only, and a quote or a backslash does
not stand in a string as it is. A text of such a dialect spells one value
(`Text.unique`).

The induction is over the first of two derivations, with what follows the value
in the text left open: two values that begin the same text end at the same
place, for otherwise one would go on with a character that the other cannot be
followed by.
-/

namespace JsonGrammar

/-- **Numbers and strings can be told from what follows them.** -/
structure Dialect.IsLexical (D : Dialect) : Prop where
  /-- A number has a text. -/
  number_ne : ∀ s, D.number s → s ≠ []
  /-- It ends where another character follows. -/
  number_chars : ∀ s, D.number s → ∀ c ∈ s, isNumberChar c = true
  /-- A string ends at the next quote that no backslash escapes. -/
  plain_ne : ∀ c, D.plain c → c ≠ '\"' ∧ c ≠ '\\'

/-! ## Blanks and first characters -/

theorem isNumberChar_of_isBlank {c : Char} (h : isBlank c = true) : isNumberChar c = false := by
  simp only [isBlank, Bool.or_eq_true, beq_iff_eq] at h
  rcases h with ((rfl | rfl) | rfl) | rfl <;> rfl

/-- Blanks and then a character that is in no number. -/
theorem stops_append {w rest : List Char} (hw : Blank w) (hrest : Stops rest) :
    Stops (w ++ rest) := by
  cases w with
  | nil => exact hrest
  | cons c w =>
    rintro d ⟨⟩
    exact isNumberChar_of_isBlank (hw c List.mem_cons_self)

theorem stops_cons {c : Char} (h : isNumberChar c = false) (rest : List Char) :
    Stops (c :: rest) := by
  rintro d ⟨⟩
  exact h

/-- Blanks end where something else starts. -/
theorem blank_unique {w w' s s' : List Char} (hw : Blank w) (hw' : Blank w')
    (hs : ∀ c ∈ s.head?, isBlank c = false) (hs' : ∀ c ∈ s'.head?, isBlank c = false)
    (h : w ++ s = w' ++ s') : w = w' ∧ s = s' := by
  have htake := congrArg (List.takeWhile isBlank) h
  have hdrop := congrArg (List.dropWhile isBlank) h
  rw [Scan.takeWhile_append hw hs, Scan.takeWhile_append hw' hs'] at htake
  rw [Scan.dropWhile_append hw hs, Scan.dropWhile_append hw' hs'] at hdrop
  exact ⟨htake, hdrop⟩

theorem blank_unique_cons {w w' s s' : List Char} {c d : Char} (hw : Blank w) (hw' : Blank w')
    (hc : isBlank c = false) (hd : isBlank d = false) (h : w ++ c :: s = w' ++ d :: s') :
    w = w' ∧ c = d ∧ s = s' := by
  obtain ⟨hw, hs⟩ := blank_unique hw hw' (by rintro _ ⟨⟩; exact hc) (by rintro _ ⟨⟩; exact hd) h
  exact ⟨hw, List.cons.inj hs⟩

/-- What a phrase starts with. -/
def IsFirst (c : Char) : Prop := isBlank c = false ∧ c ≠ ']' ∧ c ≠ '}'

theorem isFirst_of_isNumberChar {c : Char} (h : isNumberChar c = true) : IsFirst c := by
  refine ⟨?_, ?_, ?_⟩
  · by_contra hblank
    rw [isNumberChar_of_isBlank (Bool.not_eq_false _ ▸ hblank)] at h
    cases h
  · rintro rfl
    exact absurd h (by decide)
  · rintro rfl
    exact absurd h (by decide)

namespace Dialect.IsLexical

variable {D : Dialect}

theorem head_number (hD : D.IsLexical) {s rest x : List Char} {c : Char} (h : D.number s)
    (heq : s ++ rest = c :: x) : isNumberChar c = true := by
  obtain ⟨d, s, rfl⟩ := List.exists_cons_of_ne_nil (hD.number_ne s h)
  obtain ⟨rfl, -⟩ := List.cons.inj heq
  exact hD.number_chars _ h _ List.mem_cons_self

theorem first_of_spells (hD : D.IsLexical) {n : ℕ} {p : Phrase} {s : List Char}
    (h : Spells D n p s) : ∃ c s', s = c :: s' ∧ IsFirst c := by
  induction h with
  | @number _ s h =>
    obtain ⟨c, s, rfl⟩ := List.exists_cons_of_ne_nil (hD.number_ne s h)
    exact ⟨c, s, rfl, isFirst_of_isNumberChar (hD.number_chars _ h c List.mem_cons_self)⟩
  | item _ _ ih =>
    obtain ⟨c, s, rfl, hc⟩ := ih
    exact ⟨c, _, rfl, hc⟩
  | items _ _ _ _ ih _ =>
    obtain ⟨c, s, rfl, hc⟩ := ih
    exact ⟨c, _, rfl, hc⟩
  | _ => exact ⟨_, _, rfl, by decide, by decide, by decide⟩

end Dialect.IsLexical

/-! ## Strings and numbers -/

/-- A string ends at its quote. -/
theorem Raw.unique {plain : Char → Prop} (hplain : ∀ c, plain c → c ≠ '\"' ∧ c ≠ '\\')
    {raw raw' rest rest' : List Char} (h : Raw plain raw) (h' : Raw plain raw')
    (heq : raw ++ '\"' :: rest = raw' ++ '\"' :: rest') : raw = raw' ∧ rest = rest' := by
  induction h generalizing raw' with
  | nil =>
    cases h' with
    | nil => exact ⟨rfl, (List.cons.inj heq).2⟩
    | plain hc => exact absurd (List.cons.inj heq).1.symm (hplain _ hc).1
    | escape | unicode => exact absurd (List.cons.inj heq).1 (by decide)
  | plain hc _ ih =>
    cases h' with
    | nil => exact absurd (List.cons.inj heq).1 (hplain _ hc).1
    | plain hc' h' =>
      obtain ⟨rfl, htail⟩ := List.cons.inj heq
      obtain ⟨rfl, hrest⟩ := ih h' htail
      exact ⟨rfl, hrest⟩
    | escape | unicode => exact absurd (List.cons.inj heq).1 (hplain _ hc).2
  | escape he _ ih =>
    cases h' with
    | nil => exact absurd (List.cons.inj heq).1 (by decide)
    | plain hc' => exact absurd (List.cons.inj heq).1.symm (hplain _ hc').2
    | escape he' h' =>
      obtain ⟨rfl, htail⟩ := List.cons.inj (List.cons.inj heq).2
      obtain ⟨rfl, hrest⟩ := ih h' htail
      exact ⟨rfl, hrest⟩
    | unicode =>
      obtain ⟨rfl, -⟩ := List.cons.inj (List.cons.inj heq).2
      exact absurd he (by decide)
  | unicode _ _ _ _ _ ih =>
    cases h' with
    | nil => exact absurd (List.cons.inj heq).1 (by decide)
    | plain hc' => exact absurd (List.cons.inj heq).1.symm (hplain _ hc').2
    | escape he' =>
      obtain ⟨rfl, -⟩ := List.cons.inj (List.cons.inj heq).2
      exact absurd he' (by decide)
    | unicode _ _ _ _ h' =>
      simp only [List.cons_append, List.cons.injEq, true_and] at heq
      obtain ⟨rfl, rfl, rfl, rfl, heq⟩ := heq
      obtain ⟨rfl, hrest⟩ := ih h' heq
      exact ⟨rfl, hrest⟩

/-- A number ends where a character comes that is in no number. -/
theorem number_unique {s s' rest rest' : List Char} (hs : ∀ c ∈ s, isNumberChar c = true)
    (hs' : ∀ c ∈ s', isNumberChar c = true) (hrest : Stops rest) (hrest' : Stops rest')
    (heq : s ++ rest = s' ++ rest') : s = s' := by
  have htake := congrArg (List.takeWhile isNumberChar) heq
  rwa [Scan.takeWhile_append hs hrest, Scan.takeWhile_append hs' hrest'] at htake

/-- A key, its colon and the blanks around it end where the value starts. -/
theorem key_unique {D : Dialect} (hD : D.IsLexical) {n m : ℕ} {raw raw' w w' v v' : List Char}
    {p p' : Phrase} {s s' x x' : List Char} (hraw : Raw D.plain raw) (hraw' : Raw D.plain raw')
    (hw : Blank w) (hw' : Blank w') (hv : Blank v) (hv' : Blank v') (h : Spells D n p s)
    (h' : Spells D m p' s')
    (heq : '\"' :: (raw ++ '\"' :: (w ++ ':' :: (v ++ (s ++ x))))
      = '\"' :: (raw' ++ '\"' :: (w' ++ ':' :: (v' ++ (s' ++ x'))))) :
    raw = raw' ∧ w = w' ∧ v = v' ∧ s ++ x = s' ++ x' := by
  obtain ⟨c, t, rfl, hc⟩ := hD.first_of_spells h
  obtain ⟨d, t', rfl, hd⟩ := hD.first_of_spells h'
  obtain ⟨rfl, hcolon⟩ := hraw.unique hD.plain_ne hraw' (List.cons.inj heq).2
  obtain ⟨rfl, -, hvalue⟩ := blank_unique_cons hw hw' rfl rfl hcolon
  obtain ⟨rfl, rfl, htail⟩ := blank_unique_cons hv hv' hc.1 hd.1 hvalue
  exact ⟨rfl, rfl, rfl, congrArg (c :: ·) htail⟩

/-! ## Values -/

/-- **One reading**: a phrase is the only one of its kind that is spelled there.
The items of a list are taken with the bracket that closes it, and the members
of an object with their brace. -/
def HasOneReading (D : Dialect) (p : Phrase) (s : List Char) : Prop :=
  ∀ {m s' rest rest'},
    match p with
    | .value t => ∀ t', Spells D m (.value t') s' → s ++ rest = s' ++ rest' → Stops rest →
        Stops rest' → t = t' ∧ s = s'
    | .items ts => ∀ ts', Spells D m (.items ts') s' → s ++ ']' :: rest = s' ++ ']' :: rest' →
        ts = ts' ∧ s = s'
    | .members ms => ∀ ms', Spells D m (.members ms') s' → s ++ '}' :: rest = s' ++ '}' :: rest' →
        ms = ms' ∧ s = s'

theorem hasOneReading_of_spells {D : Dialect} (hD : D.IsLexical) {n : ℕ} {p : Phrase}
    {s : List Char} (h : Spells D n p s) : HasOneReading D p s := by
  induction h with
  | null =>
    intro m s' rest rest' t' h' heq _ _
    cases h' with
    | null => exact ⟨rfl, rfl⟩
    | number h => exact absurd (hD.head_number h heq.symm) (by decide)
    | _ => simp at heq
  | true =>
    intro m s' rest rest' t' h' heq _ _
    cases h' with
    | true => exact ⟨rfl, rfl⟩
    | number h => exact absurd (hD.head_number h heq.symm) (by decide)
    | _ => simp at heq
  | false =>
    intro m s' rest rest' t' h' heq _ _
    cases h' with
    | false => exact ⟨rfl, rfl⟩
    | number h => exact absurd (hD.head_number h heq.symm) (by decide)
    | _ => simp at heq
  | number h =>
    intro m s' rest rest' t' h' heq hrest hrest'
    cases h' with
    | number h' =>
      have hs := number_unique (hD.number_chars _ h) (hD.number_chars _ h') hrest hrest' heq
      exact ⟨by rw [hs], hs⟩
    | _ => exact absurd (hD.head_number h heq) (by decide)
  | string h =>
    intro m s' rest rest' t' h' heq _ _
    cases h' with
    | string h' =>
      simp only [List.cons_append, List.append_assoc, List.nil_append, List.cons.injEq,
        true_and] at heq
      obtain ⟨rfl, -⟩ := h.unique hD.plain_ne h' heq
      exact ⟨rfl, rfl⟩
    | number h => exact absurd (hD.head_number h heq.symm) (by decide)
    | _ => simp at heq
  | emptyList hw =>
    intro m s' rest rest' t' h' heq _ _
    cases h' with
    | emptyList hw' =>
      simp only [List.cons_append, List.append_assoc, List.nil_append, List.cons.injEq,
        true_and] at heq
      obtain ⟨rfl, -⟩ := blank_unique_cons hw hw' rfl rfl heq
      exact ⟨rfl, rfl⟩
    | list hw' h' =>
      obtain ⟨c, s, rfl, hc⟩ := hD.first_of_spells h'
      simp only [List.cons_append, List.append_assoc, List.nil_append, List.cons.injEq,
        true_and] at heq
      exact absurd (blank_unique_cons hw hw' rfl hc.1 heq).2.1.symm hc.2.1
    | number h => exact absurd (hD.head_number h heq.symm) (by decide)
    | _ => simp at heq
  | list hw h ih =>
    obtain ⟨c, s, rfl, hc⟩ := hD.first_of_spells h
    intro m s' rest rest' t' h' heq _ _
    cases h' with
    | emptyList hw' =>
      simp only [List.cons_append, List.append_assoc, List.nil_append, List.cons.injEq,
        true_and] at heq
      exact absurd (blank_unique_cons hw hw' hc.1 rfl heq).2.1 hc.2.1
    | list hw' h' =>
      obtain ⟨d, s', rfl, hd⟩ := hD.first_of_spells h'
      simp only [List.cons_append, List.append_assoc, List.nil_append, List.cons.injEq,
        true_and] at heq
      obtain ⟨rfl, rfl, htail⟩ := blank_unique_cons hw hw' hc.1 hd.1 heq
      obtain ⟨rfl, hs⟩ := ih _ h' (congrArg (c :: ·) htail)
      rw [hs]
      exact ⟨rfl, rfl⟩
    | number h => exact absurd (hD.head_number h heq.symm) (by decide)
    | _ => simp at heq
  | emptyObject hw =>
    intro m s' rest rest' t' h' heq _ _
    cases h' with
    | emptyObject hw' =>
      simp only [List.cons_append, List.append_assoc, List.nil_append, List.cons.injEq,
        true_and] at heq
      obtain ⟨rfl, -⟩ := blank_unique_cons hw hw' rfl rfl heq
      exact ⟨rfl, rfl⟩
    | object hw' h' =>
      obtain ⟨c, s, rfl, hc⟩ := hD.first_of_spells h'
      simp only [List.cons_append, List.append_assoc, List.nil_append, List.cons.injEq,
        true_and] at heq
      exact absurd (blank_unique_cons hw hw' rfl hc.1 heq).2.1.symm hc.2.2
    | number h => exact absurd (hD.head_number h heq.symm) (by decide)
    | _ => simp at heq
  | object hw h ih =>
    obtain ⟨c, s, rfl, hc⟩ := hD.first_of_spells h
    intro m s' rest rest' t' h' heq _ _
    cases h' with
    | emptyObject hw' =>
      simp only [List.cons_append, List.append_assoc, List.nil_append, List.cons.injEq,
        true_and] at heq
      exact absurd (blank_unique_cons hw hw' hc.1 rfl heq).2.1 hc.2.2
    | object hw' h' =>
      obtain ⟨d, s', rfl, hd⟩ := hD.first_of_spells h'
      simp only [List.cons_append, List.append_assoc, List.nil_append, List.cons.injEq,
        true_and] at heq
      obtain ⟨rfl, rfl, htail⟩ := blank_unique_cons hw hw' hc.1 hd.1 heq
      obtain ⟨rfl, hs⟩ := ih _ h' (congrArg (c :: ·) htail)
      rw [hs]
      exact ⟨rfl, rfl⟩
    | number h => exact absurd (hD.head_number h heq.symm) (by decide)
    | _ => simp at heq
  | item h hw ih =>
    intro m s' rest rest' ts' h' heq
    cases h' with
    | item h' hw' =>
      simp only [List.append_assoc] at heq
      obtain ⟨rfl, rfl⟩ := ih _ h' heq (stops_append hw (stops_cons rfl _))
        (stops_append hw' (stops_cons rfl _))
      obtain ⟨rfl, -⟩ := blank_unique_cons hw hw' rfl rfl (List.append_cancel_left heq)
      exact ⟨rfl, rfl⟩
    | items h' hw' _ _ =>
      simp only [List.append_assoc, List.cons_append] at heq
      obtain ⟨rfl, rfl⟩ := ih _ h' heq (stops_append hw (stops_cons rfl _))
        (stops_append hw' (stops_cons rfl _))
      exact absurd (blank_unique_cons hw hw' rfl rfl (List.append_cancel_left heq)).2.1 (by decide)
  | items h hw hv hrest ih ih' =>
    intro m s' rest rest' ts' h' heq
    cases h' with
    | item h' hw' =>
      simp only [List.append_assoc, List.cons_append] at heq
      obtain ⟨rfl, rfl⟩ := ih _ h' heq (stops_append hw (stops_cons rfl _))
        (stops_append hw' (stops_cons rfl _))
      exact absurd (blank_unique_cons hw hw' rfl rfl (List.append_cancel_left heq)).2.1 (by decide)
    | items h' hw' hv' hrest' =>
      obtain ⟨c, s, rfl, hc⟩ := hD.first_of_spells hrest
      obtain ⟨d, s', rfl, hd⟩ := hD.first_of_spells hrest'
      simp only [List.append_assoc, List.cons_append] at heq
      obtain ⟨rfl, rfl⟩ := ih _ h' heq (stops_append hw (stops_cons rfl _))
        (stops_append hw' (stops_cons rfl _))
      obtain ⟨rfl, -, hcomma⟩ := blank_unique_cons hw hw' rfl rfl (List.append_cancel_left heq)
      obtain ⟨rfl, rfl, htail⟩ := blank_unique_cons hv hv' hc.1 hd.1 hcomma
      obtain ⟨rfl, hs⟩ := ih' _ hrest' (congrArg (c :: ·) htail)
      rw [hs]
      exact ⟨rfl, rfl⟩
  | member hraw hw hv h hw₂ ih =>
    intro m s' rest rest' ms' h' heq
    cases h' with
    | member hraw' hw' hv' h' hw₂' =>
      simp only [List.append_assoc, List.cons_append] at heq
      obtain ⟨rfl, rfl, rfl, hvalue⟩ := key_unique hD hraw hraw' hw hw' hv hv' h h' heq
      obtain ⟨rfl, rfl⟩ := ih _ h' hvalue (stops_append hw₂ (stops_cons rfl _))
        (stops_append hw₂' (stops_cons rfl _))
      obtain ⟨rfl, -⟩ := blank_unique_cons hw₂ hw₂' rfl rfl (List.append_cancel_left hvalue)
      exact ⟨rfl, rfl⟩
    | members hraw' hw' hv' h' hw₂' _ _ =>
      simp only [List.append_assoc, List.cons_append] at heq
      obtain ⟨rfl, rfl, rfl, hvalue⟩ := key_unique hD hraw hraw' hw hw' hv hv' h h' heq
      obtain ⟨rfl, rfl⟩ := ih _ h' hvalue (stops_append hw₂ (stops_cons rfl _))
        (stops_append hw₂' (stops_cons rfl _))
      exact absurd (blank_unique_cons hw₂ hw₂' rfl rfl (List.append_cancel_left hvalue)).2.1
        (by decide)
  | members hraw hw hv h hw₂ hv₂ hrest ih ih' =>
    intro m s' rest rest' ms' h' heq
    cases h' with
    | member hraw' hw' hv' h' hw₂' =>
      simp only [List.append_assoc, List.cons_append] at heq
      obtain ⟨rfl, rfl, rfl, hvalue⟩ := key_unique hD hraw hraw' hw hw' hv hv' h h' heq
      obtain ⟨rfl, rfl⟩ := ih _ h' hvalue (stops_append hw₂ (stops_cons rfl _))
        (stops_append hw₂' (stops_cons rfl _))
      exact absurd (blank_unique_cons hw₂ hw₂' rfl rfl (List.append_cancel_left hvalue)).2.1
        (by decide)
    | members hraw' hw' hv' h' hw₂' hv₂' hrest' =>
      obtain ⟨c, s, rfl, hc⟩ := hD.first_of_spells hrest
      obtain ⟨d, s', rfl, hd⟩ := hD.first_of_spells hrest'
      simp only [List.append_assoc, List.cons_append] at heq
      obtain ⟨rfl, rfl, rfl, hvalue⟩ := key_unique hD hraw hraw' hw hw' hv hv' h h' heq
      obtain ⟨rfl, rfl⟩ := ih _ h' hvalue (stops_append hw₂ (stops_cons rfl _))
        (stops_append hw₂' (stops_cons rfl _))
      obtain ⟨rfl, -, hcomma⟩ := blank_unique_cons hw₂ hw₂' rfl rfl (List.append_cancel_left hvalue)
      obtain ⟨rfl, rfl, htail⟩ := blank_unique_cons hv₂ hv₂' hc.1 hd.1 hcomma
      obtain ⟨rfl, hs⟩ := ih' _ hrest' (congrArg (c :: ·) htail)
      rw [hs]
      exact ⟨rfl, rfl⟩

/-- **A text has one reading.** -/
theorem Text.unique {D : Dialect} (hD : D.IsLexical) {n m : ℕ} {t t' : Tree} {s : List Char}
    (h : Text D n t s) (h' : Text D m t' s) : t = t' := by
  obtain ⟨w, v, w₂, hw, hv, hw₂, rfl⟩ := h
  obtain ⟨w', v', w₂', hw', hv', hw₂', heq⟩ := h'
  obtain ⟨c, v, rfl, hc⟩ := hD.first_of_spells hv
  obtain ⟨d, v', rfl, hd⟩ := hD.first_of_spells hv'
  obtain ⟨rfl, rfl, htail⟩ := blank_unique_cons hw hw' hc.1 hd.1 heq
  have hnil : Stops [] := fun c hc => absurd hc (Option.not_mem_none c)
  have hstops := stops_append hw₂ hnil
  have hstops' := stops_append hw₂' hnil
  rw [List.append_nil] at hstops hstops'
  exact (hasOneReading_of_spells hD hv _ hv' (congrArg (c :: ·) htail) hstops hstops').1

end JsonGrammar
