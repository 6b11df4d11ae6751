import NeuralBuilder.JsonLoad
import NeuralBuilder.JsonPrint

/-!
# What the engine writes

`crow::json::wvalue`, the value a response is built from, and `dump`, which
writes it with or without indentation. What is written is standard JSON
(`text_dump`), and the parser of the engine reads it back: every list and object
in its order, every text as it was, and of a double what is left of its digits
(`load_dump`).

A double is printed with `snprintf` into a buffer of 128 characters. What
`%.*g` prints fits in it, but `%f` writes all digits of a large number, and the
buffer keeps 127 of them. Both results are about values whose floating numbers
have their point and a digit behind it in the buffer (`WValue.FitsBuffer`), as
all below `10 ^ 124` do. Of the others some are written as another number, and
those with the point as the last character in the buffer as no JSON.
-/

namespace JsonDump

open JsonGrammar JsonLoad

/-- **What is used of `snprintf`**: which doubles are numbers, and what it
prints of them with `%.*g` and with `%f` where the buffer is long enough. -/
structure Printf (α : Type) where
  /-- Neither `isnan` nor `isinf`. -/
  isFinite : α → Bool
  /-- What `%.*g` prints. -/
  g : α → Numeral
  /-- What `%f` prints, the digits before the point all of them. -/
  f : α → Numeral
  /-- `%.*g` leaves no zeros at the end of a fraction. -/
  general : ∀ x, isFinite x = true → (g x).IsGeneral
  /-- `%f` writes a point with digits behind it, and no exponent. -/
  fixed : ∀ x, isFinite x = true → (f x).IsFixed

/-- `outbuf`: of a longer text `snprintf` keeps the first 127 characters, and
the last place of the buffer is for the zero character. -/
def outbuf (s : List Char) : List Char := s.take 127

/-- **`crow::json::wvalue`**, without functions. A number of type
`Double_precision_floating_point` is a `double`, one of type `Floating_point` a
`floating`. The fields of an object stand in the order the map goes through
them. -/
inductive WValue (α : Type)
  | null
  | bool (b : Bool)
  | double (x : α)
  | floating (x : α)
  | signed (n : ℤ)
  | unsigned (n : ℕ)
  | string (s : List Char)
  | list (items : List (WValue α))
  | object (fields : List (List Char × WValue α))

/-! ## Strings -/

/-- `to_hex`. -/
def toHex (c : ℕ) : Char :=
  let c := c % 16
  if c < 10 then Char.ofNat ('0'.toNat + c) else Char.ofNat ('a'.toNat + c - 10)

/-- What `escape` writes for a character. -/
def escapeChar (c : Char) : List Char :=
  if c = '\"' then ['\\', '\"']
  else if c = '\\' then ['\\', '\\']
  else if c = '\n' then ['\\', 'n']
  else if c = Char.ofNat 8 then ['\\', 'b']
  else if c = Char.ofNat 12 then ['\\', 'f']
  else if c = '\r' then ['\\', 'r']
  else if c = '\t' then ['\\', 't']
  else if c.toNat < 0x20 then ['\\', 'u', '0', '0', toHex (c.toNat / 16), toHex (c.toNat % 16)]
  else [c]

/-- **`escape`**. -/
def escape (s : List Char) : List Char := s.flatMap escapeChar

/-- `dump_string`. -/
def dumpString (s : List Char) : List Char := '\"' :: (escape s ++ ['\"'])

/-! ## Values -/

variable {α : Type}

/-- `dump_indentation_part`; none is no indentation. -/
def indentationPart (indent : Option (ℕ × Char)) (level : ℕ) : List Char :=
  match indent with
  | none => []
  | some (indent, separator) => '\n' :: List.replicate (level * indent) separator

/-- `std::to_string` of an integer. -/
def intText (n : ℤ) : List Char :=
  (if n < 0 then ['-'] else []) ++ Nat.toDigits 10 n.natAbs

mutual

/-- **`dump_internal`**. The `DECIMAL_DIG` digits that `%.*g` prints of a double
always fit in `outbuf`. -/
def dumpInternal (P : Printf α) (indent : Option (ℕ × Char)) : ℕ → WValue α → List Char
  | _, .null => ['n', 'u', 'l', 'l']
  | _, .bool false => ['f', 'a', 'l', 's', 'e']
  | _, .bool true => ['t', 'r', 'u', 'e']
  | _, .double x => if P.isFinite x then trimZeros (P.g x).text else ['n', 'u', 'l', 'l']
  | _, .floating x =>
    if P.isFinite x then trimZeros (outbuf (P.f x).text) else ['n', 'u', 'l', 'l']
  | _, .signed n => intText n
  | _, .unsigned n => intText n
  | _, .string s => dumpString s
  | level, .list items =>
    '[' :: (indentationPart indent (level + 1)
      ++ (dumpItems P indent level true items ++ (indentationPart indent level ++ [']'])))
  | level, .object fields =>
    '{' :: (indentationPart indent (level + 1)
      ++ (dumpFields P indent level true fields ++ (indentationPart indent level ++ ['}'])))

/-- The loop over a list. -/
def dumpItems (P : Printf α) (indent : Option (ℕ × Char)) :
    ℕ → Bool → List (WValue α) → List Char
  | _, _, [] => []
  | level, first, x :: items =>
    (if first then [] else ',' :: indentationPart indent (level + 1))
      ++ (dumpInternal P indent (level + 1) x ++ dumpItems P indent level false items)

/-- The loop over an object. -/
def dumpFields (P : Printf α) (indent : Option (ℕ × Char)) :
    ℕ → Bool → List (List Char × WValue α) → List Char
  | _, _, [] => []
  | level, first, (key, x) :: fields =>
    (if first then [] else ',' :: indentationPart indent (level + 1))
      ++ (dumpString key ++ ':' :: ((if indent.isSome then [' '] else [])
        ++ (dumpInternal P indent (level + 1) x ++ dumpFields P indent level false fields)))

end

/-- **`dump`**. -/
def dump (P : Printf α) (indent : Option (ℕ × Char)) (v : WValue α) : List Char :=
  dumpInternal P indent 0 v

/-! ## What is written -/

mutual

/-- The value that a reader finds in what is written. -/
def WValue.tree (P : Printf α) : WValue α → Tree
  | .null => .null
  | .bool b => .bool b
  | .double x => if P.isFinite x then .number (trimZeros (P.g x).text) else .null
  | .floating x => if P.isFinite x then .number (trimZeros (outbuf (P.f x).text)) else .null
  | .signed n => .number (intText n)
  | .unsigned n => .number (intText n)
  | .string s => .string (escape s)
  | .list items => .list (treeItems P items)
  | .object fields => .object (treeFields P fields)

def treeItems (P : Printf α) : List (WValue α) → List Tree
  | [] => []
  | x :: items => x.tree P :: treeItems P items

def treeFields (P : Printf α) : List (List Char × WValue α) → List (List Char × Tree)
  | [] => []
  | (key, x) :: fields => (key, x.tree P) :: treeFields P fields

end

mutual

/-- How many lists and objects are inside each other. -/
def WValue.depth : WValue α → ℕ
  | .list items => depthItems items + 1
  | .object fields => depthFields fields + 1
  | _ => 0

def depthItems : List (WValue α) → ℕ
  | [] => 0
  | x :: items => max x.depth (depthItems items)

def depthFields : List (List Char × WValue α) → ℕ
  | [] => 0
  | (_, x) :: fields => max x.depth (depthFields fields)

end

mutual

/-- Every floating number of a value has its sign, the digits before the point,
the point and one digit more in `outbuf`. -/
def WValue.FitsBuffer (P : Printf α) : WValue α → Prop
  | .floating x => P.isFinite x = true → (P.f x).signText.length + (P.f x).whole.length + 2 ≤ 127
  | .list items => FitsItems P items
  | .object fields => FitsFields P fields
  | _ => True

def FitsItems (P : Printf α) : List (WValue α) → Prop
  | [] => True
  | x :: items => x.FitsBuffer P ∧ FitsItems P items

def FitsFields (P : Printf α) : List (List Char × WValue α) → Prop
  | [] => True
  | (_, x) :: fields => x.FitsBuffer P ∧ FitsFields P fields

end

/-- **The part of standard JSON that the parser reads too.** -/
def common : Dialect where
  number s := ∃ x : Numeral, x.IsStandard ∧ IsAccepted x ∧ s = x.text
  plain := (standard unescape).plain
  key := unescape

/-! ### Strings -/

theorem hex_ok : ∀ n < 0x20, isHex (toHex (n / 16)) = true ∧ isHex (toHex (n % 16)) = true
    ∧ encode (fromHex '0' <<< 12 + fromHex '0' <<< 8 + fromHex (toHex (n / 16)) <<< 4
      + fromHex (toHex (n % 16))) = [Char.ofNat n] := by
  decide

theorem escapeChar_ok (c : Char) :
    Raw common.plain (escapeChar c) ∧ ∀ s, unescape (escapeChar c ++ s) = c :: unescape s := by
  unfold escapeChar
  split_ifs with hquote hback hn hb hf hr ht hlow
  · exact ⟨.escape rfl .nil, fun s => by rw [hquote, List.cons_append, unescape.eq_def]; rfl⟩
  · exact ⟨.escape rfl .nil, fun s => by rw [hback, List.cons_append, unescape.eq_def]; rfl⟩
  · exact ⟨.escape rfl .nil, fun s => by rw [hn, List.cons_append, unescape.eq_def]; rfl⟩
  · exact ⟨.escape rfl .nil, fun s => by rw [hb, List.cons_append, unescape.eq_def]; rfl⟩
  · exact ⟨.escape rfl .nil, fun s => by rw [hf, List.cons_append, unescape.eq_def]; rfl⟩
  · exact ⟨.escape rfl .nil, fun s => by rw [hr, List.cons_append, unescape.eq_def]; rfl⟩
  · exact ⟨.escape rfl .nil, fun s => by rw [ht, List.cons_append, unescape.eq_def]; rfl⟩
  · obtain ⟨hhigh, hlow', hcode⟩ := hex_ok c.toNat hlow
    refine ⟨.unicode rfl rfl hhigh hlow' .nil, fun s => ?_⟩
    simp only [List.cons_append, List.nil_append]
    rw [unescape.eq_def]
    simp only [if_true, hcode, Char.ofNat_toNat]
    rfl
  · refine ⟨.plain ⟨hquote, hback, not_lt.mp hlow⟩ .nil, fun s => ?_⟩
    rw [List.singleton_append, unescape.eq_def]
    simp only [if_neg hback]

theorem raw_escape (s : List Char) : Raw common.plain (escape s) := by
  induction s with
  | nil => exact .nil
  | cons c s ih => exact (escapeChar_ok c).1.append ih

/-- **A text is read as it was.** -/
theorem unescape_escape (s : List Char) : unescape (escape s) = s := by
  induction s with
  | nil => rfl
  | cons c s ih => exact ((escapeChar_ok c).2 (escape s)).trans (by rw [ih])

/-! ### Numbers -/

theorem number_of_isGeneral {x : Numeral} (h : x.IsGeneral) : common.number (trimZeros x.text) := by
  refine ⟨x.trim, ⟨?_, ?_⟩, ?_, trimZeros_text h.digits_ne_zero⟩
  · intro hfraction
    rw [Numeral.trim_fraction] at hfraction
    split at hfraction
    · obtain ⟨ds, hds, hnil⟩ := Option.map_eq_some_iff.mp hfraction
      rw [trimFraction_eq_self (h.fraction_ne ds hds) (h.fraction_last ds hds)] at hnil
      exact h.fraction_ne ds hds hnil
    · exact h.fraction_ne [] hfraction rfl
  · intro e he
    rw [Numeral.trim_exponent] at he
    have htrim : ∀ e' ∈ x.exponent, e'.digits ≠ [] ∧ e'.trim.digits ≠ [] := by
      intro e' he'
      obtain ⟨d, hd, hzero⟩ := h.digits_ne_zero e' he'
      have hne : stripZeros e'.digits ≠ [] :=
        fun hnil => hzero (stripZeros_eq_nil_iff.mp hnil d hd)
      rw [Exponent.trim, dif_neg hne]
      exact ⟨List.ne_nil_of_mem hd, hne⟩
    split at he
    · exact (htrim e he).1
    · obtain ⟨e', he', rfl⟩ := Option.map_eq_some_iff.mp he
      exact (htrim e' he').2
  · intro hwhole _
    have hexponent : x.exponent = none := by
      by_contra hne
      exact h.whole_ne_zero hne hwhole
    simp only [Numeral.trim, hexponent, Option.map_none, ite_self]

theorem number_of_isFixed {x : Numeral} (h : x.IsFixed) : common.number (trimZeros x.text) := by
  obtain ⟨ds, hds, hne⟩ := h.fraction_ne
  have hexponent : x.trim.exponent = none := by
    simp only [Numeral.trim, h.exponent_eq, Option.map_none, ite_self]
  refine ⟨x.trim, ⟨?_, ?_⟩, fun _ _ => hexponent,
    trimZeros_text fun e he => absurd (h.exponent_eq ▸ he) (Option.not_mem_none e)⟩
  · simp only [Numeral.trim, h.exponent_eq, if_true, hds, Option.map_some]
    intro hnil
    have hnil := Option.some.inj hnil
    unfold trimFraction at hnil
    split at hnil
    · cases hnil
    · next hhead =>
      obtain ⟨c, ds', rfl⟩ := List.exists_cons_of_ne_nil hne
      exact hhead ds' (by rw [stripZeros_eq_nil_iff.mp hnil c List.mem_cons_self])
  · exact fun e he => absurd (hexponent ▸ he) (Option.not_mem_none e)

/-- A number that was cut behind its point is a number. -/
theorem number_outbuf {x : Numeral} (h : x.IsFixed)
    (hfits : x.signText.length + x.whole.length + 2 ≤ 127) :
    common.number (trimZeros (outbuf x.text)) := by
  obtain ⟨k, hk⟩ := Nat.exists_eq_add_of_le hfits
  have hcut : outbuf x.text = (x.cutFraction (k + 1)).text := by
    rw [outbuf, hk, ← h.text_take (k + 1)]
    congr 1
    omega
  rw [hcut]
  exact number_of_isFixed (h.cutFraction k.succ_ne_zero)

theorem intText_eq (n : ℤ) : intText n = (Numeral.ofInt n).text := by
  simp only [intText, Numeral.text, Numeral.signText, Numeral.fractionText, Numeral.exponentText,
    Numeral.ofInt, Option.elim_none, List.append_nil, decide_eq_true_eq]

theorem number_intText (n : ℤ) : common.number (intText n) :=
  ⟨Numeral.ofInt n, ⟨by simp [Numeral.ofInt], by simp [Numeral.ofInt]⟩, fun _ _ => rfl,
    intText_eq n⟩

/-! ### Values -/

/-- An indentation of blanks. -/
def BlankIndent (indent : Option (ℕ × Char)) : Prop := ∀ p ∈ indent, isBlank p.2 = true

theorem blank_indentationPart {indent : Option (ℕ × Char)} (h : BlankIndent indent) (level : ℕ) :
    Blank (indentationPart indent level) := by
  unfold indentationPart
  split
  · exact Blank.nil
  · next n separator =>
    intro c hc
    rcases List.mem_cons.mp hc with rfl | hc
    · rfl
    · rw [List.eq_of_mem_replicate hc]
      exact h (n, separator) rfl

theorem blank_space (indent : Option (ℕ × Char)) :
    Blank (if indent.isSome then [' '] else []) := by
  intro c hc
  split at hc
  · rw [List.mem_singleton.mp hc]
    rfl
  · cases hc

mutual

/-- **What is written spells the value** in standard JSON. -/
theorem spells_dumpInternal (P : Printf α) {indent : Option (ℕ × Char)} (h : BlankIndent indent) :
    ∀ (v : WValue α) (level n : ℕ), v.FitsBuffer P → v.depth ≤ n →
      Spells common n (.value (v.tree P)) (dumpInternal P indent level v)
  | .null, _, _, _, _ => by
    rw [dumpInternal, WValue.tree]
    exact .null
  | .bool false, _, _, _, _ => by
    rw [dumpInternal, WValue.tree]
    exact .false
  | .bool true, _, _, _, _ => by
    rw [dumpInternal, WValue.tree]
    exact .true
  | .double x, _, _, _, _ => by
    rw [dumpInternal, WValue.tree]
    split_ifs with hfinite
    · exact .number (number_of_isGeneral (P.general x hfinite))
    · exact .null
  | .floating x, _, _, hfits, _ => by
    rw [WValue.FitsBuffer] at hfits
    rw [dumpInternal, WValue.tree]
    split_ifs with hfinite
    · exact .number (number_outbuf (P.fixed x hfinite) (hfits hfinite))
    · exact .null
  | .signed n, _, _, _, _ => by
    rw [dumpInternal, WValue.tree]
    exact .number (number_intText n)
  | .unsigned n, _, _, _, _ => by
    rw [dumpInternal, WValue.tree]
    exact .number (number_intText n)
  | .string s, _, _, _, _ => by
    rw [dumpInternal, WValue.tree]
    exact .string (raw_escape s)
  | .list items, level, n, hfits, hdepth => by
    rw [WValue.FitsBuffer] at hfits
    rw [WValue.depth] at hdepth
    obtain ⟨n, rfl⟩ := Nat.exists_eq_add_of_le' hdepth
    have hopen := blank_indentationPart h (level + 1)
    have hclose := blank_indentationPart h level
    rw [dumpInternal, WValue.tree]
    cases items with
    | nil =>
      have hblank : Blank (indentationPart indent (level + 1) ++ indentationPart indent level) :=
        List.forall_mem_append.mpr ⟨hopen, hclose⟩
      rw [dumpItems, treeItems, List.nil_append, ← List.append_assoc]
      exact .emptyList hblank
    | cons x items =>
      rw [← List.append_assoc (dumpItems _ _ _ _ _)]
      exact .list hopen
        (spells_dumpItems P h (x :: items) level _ _ (List.cons_ne_nil x items) hclose hfits
          (Nat.le_add_left _ n))
  | .object fields, level, n, hfits, hdepth => by
    rw [WValue.FitsBuffer] at hfits
    rw [WValue.depth] at hdepth
    obtain ⟨n, rfl⟩ := Nat.exists_eq_add_of_le' hdepth
    have hopen := blank_indentationPart h (level + 1)
    have hclose := blank_indentationPart h level
    rw [dumpInternal, WValue.tree]
    cases fields with
    | nil =>
      have hblank : Blank (indentationPart indent (level + 1) ++ indentationPart indent level) :=
        List.forall_mem_append.mpr ⟨hopen, hclose⟩
      rw [dumpFields, treeFields, List.nil_append, ← List.append_assoc]
      exact .emptyObject hblank
    | cons field fields =>
      rw [← List.append_assoc (dumpFields _ _ _ _ _)]
      exact .object hopen
        (spells_dumpFields P h (field :: fields) level _ _ (List.cons_ne_nil field fields) hclose
          hfits (Nat.le_add_left _ n))

/-- The items of a list, and the blanks before its bracket. -/
theorem spells_dumpItems (P : Printf α) {indent : Option (ℕ × Char)} (h : BlankIndent indent) :
    ∀ (items : List (WValue α)) (level n : ℕ) (w : List Char), items ≠ [] → Blank w →
      FitsItems P items → depthItems items ≤ n →
      Spells common n (.items (treeItems P items)) (dumpItems P indent level true items ++ w)
  | [], _, _, _, hne, _, _, _ => absurd rfl hne
  | [x], level, n, w, _, hw, hfits, hdepth => by
    rw [FitsItems] at hfits
    rw [depthItems, max_le_iff] at hdepth
    have hx := spells_dumpInternal P h x (level + 1) n hfits.1 hdepth.1
    simp only [dumpItems, treeItems, if_true, List.nil_append, List.append_nil]
    exact .item hx hw
  | x :: y :: items, level, n, w, _, hw, hfits, hdepth => by
    rw [FitsItems] at hfits
    rw [depthItems, max_le_iff] at hdepth
    have hx := spells_dumpInternal P h x (level + 1) n hfits.1 hdepth.1
    have hrest := spells_dumpItems P h (y :: items) level n w (List.cons_ne_nil y items) hw
      hfits.2 hdepth.2
    have hsplit := Spells.items hx Blank.nil (blank_indentationPart h (level + 1)) hrest
    simp only [dumpItems, treeItems, if_true, List.nil_append, Bool.false_eq_true, if_false,
      List.append_assoc, List.cons_append] at hsplit ⊢
    exact hsplit

/-- The members of an object, and the blanks before its brace. -/
theorem spells_dumpFields (P : Printf α) {indent : Option (ℕ × Char)} (h : BlankIndent indent) :
    ∀ (fields : List (List Char × WValue α)) (level n : ℕ) (w : List Char), fields ≠ [] → Blank w →
      FitsFields P fields → depthFields fields ≤ n →
      Spells common n (.members (treeFields P fields)) (dumpFields P indent level true fields ++ w)
  | [], _, _, _, hne, _, _, _ => absurd rfl hne
  | [(key, x)], level, n, w, _, hw, hfits, hdepth => by
    rw [FitsFields] at hfits
    rw [depthFields, max_le_iff] at hdepth
    have hx := spells_dumpInternal P h x (level + 1) n hfits.1 hdepth.1
    have hmember := Spells.member (raw_escape key) Blank.nil (blank_space indent) hx hw
    rw [show common.key (escape key) = key from unescape_escape key] at hmember
    simp only [dumpFields, treeFields, dumpString, if_true, List.nil_append, List.append_nil,
      List.append_assoc, List.cons_append] at hmember ⊢
    exact hmember
  | (key, x) :: (key', y) :: fields, level, n, w, _, hw, hfits, hdepth => by
    rw [FitsFields] at hfits
    rw [depthFields, max_le_iff] at hdepth
    have hx := spells_dumpInternal P h x (level + 1) n hfits.1 hdepth.1
    have hrest := spells_dumpFields P h ((key', y) :: fields) level n w (List.cons_ne_nil _ fields)
      hw hfits.2 hdepth.2
    have hmembers := Spells.members (raw_escape key) Blank.nil (blank_space indent) hx Blank.nil
      (blank_indentationPart h (level + 1)) hrest
    rw [show common.key (escape key) = key from unescape_escape key] at hmembers
    simp only [dumpFields, treeFields, dumpString, if_true, List.nil_append, Bool.false_eq_true,
      if_false, List.append_assoc, List.cons_append] at hmembers ⊢
    exact hmembers

end

/-- **What is written is standard JSON**: for every value, of any depth, the
text spells the tree of the value, without indentation or with any blank one.
Floating numbers have to fit in the buffer, since one that is cut at its point
is no numeral. -/
theorem text_dump (P : Printf α) {indent : Option (ℕ × Char)} (h : BlankIndent indent)
    (v : WValue α) (hfits : v.FitsBuffer P) :
    Text (standard unescape) v.depth (v.tree P) (dump P indent v) := by
  refine ⟨[], dump P indent v, [], Blank.nil, ?_, Blank.nil, by rw [List.append_nil]; rfl⟩
  refine (spells_dumpInternal P h v 0 v.depth hfits le_rfl).of_le ?_ (fun _ hc => hc) rfl
  rintro s ⟨x, hx, -, rfl⟩
  exact ⟨x, hx, rfl⟩

/-- **What is written is read back**: the value with every list and object in
its order, and of a double what is left of its digits, where at most 5000 lists
and objects are inside each other. -/
theorem load_dump (P : Printf α) {indent : Option (ℕ × Char)} (h : BlankIndent indent)
    (v : WValue α) (hfits : v.FitsBuffer P) (hdepth : v.depth ≤ 5000) :
    load (dump P indent v) = some (v.tree P) := by
  have hspells : Spells dialect 5000 (.value (v.tree P)) (dump P indent v) :=
    (spells_dumpInternal P h v 0 5000 hfits hdepth).of_le ?_ ?_ rfl
  · have hload := load_text Blank.nil hspells Blank.nil
      (show IsEnd [] from fun c hc => absurd hc (Option.not_mem_none c))
    rwa [List.append_nil, List.append_nil, List.nil_append] at hload
  · rintro s ⟨x, -, hx, rfl⟩
    exact ⟨x, hx, rfl⟩
  · rintro c ⟨hquote, hback, hlow⟩
    refine ⟨hquote, hback, ?_⟩
    rintro rfl
    exact absurd hlow (by decide)

end JsonDump
