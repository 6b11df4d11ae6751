import NeuralBuilder.JsonNumber
import NeuralBuilder.Library.JsonUnambiguous

/-!
# The parser of the web framework

`crow::json::load`, which every request body and every message of the engine
goes through: a recursive descent over the text, ended by a zero character. It
counts how deep it is and stops at `max_depth`, where every list or object
counts twice.

The parser accepts a grammar that is not quite the one of standard JSON, and it
accepts all of it: `load_eq_some_iff`. No text has two readings.

The five functions that call each other are one mutual recursion with fuel,
since the source recurses on a pointer. Enough fuel is the length of the text,
and more changes nothing. The two directions are separate: what the functions
return is spelled by what they read (`sound`), and a text that spells a value is
read as that value, whatever follows it (`isRead_of_spells`). The strings are
kept as they stand in the text, and `unescape` is applied when a key or a string
is asked for, as `rvalue` does.
-/

namespace JsonLoad

open JsonGrammar

/-- The character that ends a text. -/
def nul : Char := Char.ofNat 0

/-! ## Strings -/

/-- The loop of `decode_string`: what stands before the closing quote, and what
follows it. -/
def scanString : List Char → Option (List Char × List Char)
  | [] => none
  | c :: data =>
    if c = '\"' then some ([], data)
    else if c = '\\' then
      match data with
      | [] => none
      | e :: data =>
        if e = 'u' then
          match data with
          | h₁ :: h₂ :: h₃ :: h₄ :: data =>
            if isHex h₁ && isHex h₂ && isHex h₃ && isHex h₄ then
              (scanString data).map (prepend ['\\', 'u', h₁, h₂, h₃, h₄])
            else none
          | _ => none
        else if isEscape e then (scanString data).map (prepend ['\\', e])
        else none
    else if c = nul then none
    else (scanString data).map (prepend [c])

/-- `consume`. -/
def consume (c : Char) : List Char → Option (List Char)
  | [] => none
  | d :: data => if d = c then some data else none

/-- **`decode_string`**: the text between the quotes as it is. -/
def decodeString (data : List Char) : Option (List Char × List Char) := do
  scanString (← consume '\"' data)

/-- `from_hex`. -/
def fromHex (c : Char) : ℕ :=
  if 'a' ≤ c then c.toNat - 'a'.toNat + 10
  else if 'A' ≤ c then c.toNat - 'A'.toNat + 10
  else c.toNat - '0'.toNat

/-- The bytes `unescape` writes for a code unit. -/
def encode (code : ℕ) : List Char :=
  if 0x800 ≤ code then
    [Char.ofNat (0xE0 ||| (code >>> 12)), Char.ofNat (0x80 ||| ((code >>> 6) &&& 0x3F)),
      Char.ofNat (0x80 ||| (code &&& 0x3F))]
  else if 0x80 ≤ code then
    [Char.ofNat (0xC0 ||| (code >>> 6)), Char.ofNat (0x80 ||| (code &&& 0x3F))]
  else [Char.ofNat code]

/-- What `unescape` writes for a character after a backslash. -/
def unescapeChar (e : Char) : List Char :=
  if e = '\"' then ['\"']
  else if e = '\\' then ['\\']
  else if e = '/' then ['/']
  else if e = 'b' then [Char.ofNat 8]
  else if e = 'f' then [Char.ofNat 12]
  else if e = 'n' then ['\n']
  else if e = 'r' then ['\r']
  else if e = 't' then ['\t']
  else []

/-- **`unescape`**, on the text between two quotes. -/
def unescape : List Char → List Char
  | [] => []
  | c :: raw =>
    if c = '\\' then
      match raw with
      | [] => []
      | e :: raw =>
        if e = 'u' then
          match raw with
          | h₁ :: h₂ :: h₃ :: h₄ :: raw =>
            encode (fromHex h₁ <<< 12 + fromHex h₂ <<< 8 + fromHex h₃ <<< 4 + fromHex h₄)
              ++ unescape raw
          | _ => []
        else unescapeChar e ++ unescape raw
    else c :: unescape raw

/-! ## Values -/

/-- `ws_skip`. -/
def wsSkip (data : List Char) : List Char := data.dropWhile isBlank

/-- `max_depth`. -/
def maxDepth : ℕ := 10000

/-- The rest of a literal, after its first character. -/
def literal (t : Tree) (tail data : List Char) : Option (Tree × List Char) :=
  if tail.isPrefixOf data then some (t, data.drop tail.length) else none

mutual

/-- **`decode_value`**: the value at the start of a text and what follows it. -/
def decodeValue : ℕ → ℕ → List Char → Option (Tree × List Char)
  | 0, _, _ => none
  | fuel + 1, depth, data =>
    match data with
    | [] => (decodeNumber .minus data).map (Prod.map .number id)
    | c :: rest =>
      if c = '[' then decodeList fuel (depth + 1) data
      else if c = '{' then decodeObject fuel (depth + 1) data
      else if c = '\"' then (decodeString data).map (Prod.map .string id)
      else if c = 't' then literal (.bool true) ['r', 'u', 'e'] rest
      else if c = 'f' then literal (.bool false) ['a', 'l', 's', 'e'] rest
      else if c = 'n' then literal .null ['u', 'l', 'l'] rest
      else (decodeNumber .minus data).map (Prod.map .number id)

/-- `decode_list`. -/
def decodeList : ℕ → ℕ → List Char → Option (Tree × List Char)
  | 0, _, _ => none
  | fuel + 1, depth, data => do
    let data ← consume '[' data
    if maxDepth < depth then none else
      match consume ']' (wsSkip data) with
      | some data => some (.list [], data)
      | none => (decodeItems fuel depth (wsSkip data)).map (Prod.map .list id)

/-- The loop of `decode_list`. -/
def decodeItems : ℕ → ℕ → List Char → Option (List Tree × List Char)
  | 0, _, _ => none
  | fuel + 1, depth, data => do
    let (v, data) ← decodeValue fuel (depth + 1) data
    match consume ']' (wsSkip data) with
    | some data => some ([v], data)
    | none => do
      let data ← consume ',' (wsSkip data)
      let (vs, data) ← decodeItems fuel depth (wsSkip data)
      some (v :: vs, data)

/-- `decode_object`. -/
def decodeObject : ℕ → ℕ → List Char → Option (Tree × List Char)
  | 0, _, _ => none
  | fuel + 1, depth, data => do
    let data ← consume '{' data
    if maxDepth < depth then none else
      match consume '}' (wsSkip data) with
      | some data => some (.object [], data)
      | none => (decodeMembers fuel depth (wsSkip data)).map (Prod.map .object id)

/-- The loop of `decode_object`. -/
def decodeMembers : ℕ → ℕ → List Char → Option (List (List Char × Tree) × List Char)
  | 0, _, _ => none
  | fuel + 1, depth, data => do
    let (raw, data) ← decodeString data
    let data ← consume ':' (wsSkip data)
    let (v, data) ← decodeValue fuel (depth + 1) (wsSkip data)
    match consume '}' (wsSkip data) with
    | some data => some ([(unescape raw, v)], data)
    | none => do
      let data ← consume ',' (wsSkip data)
      let (members, data) ← decodeMembers fuel depth (wsSkip data)
      some ((unescape raw, v) :: members, data)

end

/-- **`crow::json::load`**: the value of the whole text, up to its first zero
character. A call takes at most three nested calls for a character. -/
def load (text : List Char) : Option Tree := do
  let (t, rest) ← decodeValue (3 * text.length + 1) 0 (wsSkip text)
  match wsSkip rest with
  | [] => some t
  | c :: _ => if c = nul then some t else none

/-! ## The grammar -/

/-- **The dialect of the parser.** -/
def dialect : Dialect where
  number s := ∃ x : Numeral, IsAccepted x ∧ s = x.text
  plain c := c ≠ '\"' ∧ c ≠ '\\' ∧ c ≠ nul
  key := unescape

/-- How many lists and objects a value may still have inside each other. -/
def levels (depth : ℕ) : ℕ := (maxDepth + 1 - depth) / 2

theorem levels_succ_iff {n depth : ℕ} :
    n + 1 ≤ levels depth ↔ depth + 1 ≤ maxDepth ∧ n ≤ levels (depth + 2) := by
  unfold levels
  omega

/-! ### Strings -/

theorem scanString_raw {raw : List Char} (h : Raw dialect.plain raw) (rest : List Char) :
    scanString (raw ++ '\"' :: rest) = some (raw, rest) := by
  induction h with
  | nil => exact scanString.eq_def ('\"' :: rest)
  | plain hc _ ih =>
    rw [List.cons_append, scanString.eq_def]
    simp only [if_neg hc.1, if_neg hc.2.1, if_neg hc.2.2, ih]
    rfl
  | @escape e raw he _ ih =>
    have hu : e ≠ 'u' := by
      rintro rfl
      exact absurd he (by decide)
    rw [List.cons_append, List.cons_append, scanString.eq_def]
    simp only [if_neg hu, if_pos he, ih]
    rfl
  | unicode ha hb hc hd _ ih =>
    simp only [List.cons_append]
    rw [scanString.eq_def]
    simp only [if_true, ha, hb, hc, hd, Bool.and_self, ih]
    rfl

theorem scanString_sound {data raw rest : List Char} (h : scanString data = some (raw, rest)) :
    data = raw ++ '\"' :: rest ∧ Raw dialect.plain raw := by
  fun_induction scanString data generalizing raw with
  | case1 => cases h
  | case2 data =>
    cases h
    exact ⟨rfl, .nil⟩
  | case3 => cases h
  | case4 h₁ h₂ h₃ h₄ data hhex _ ih =>
    obtain ⟨raw', rfl, hrun⟩ := exists_of_map_prepend h
    obtain ⟨rfl, hraw⟩ := ih hrun
    simp only [Bool.and_eq_true] at hhex
    exact ⟨rfl, .unicode hhex.1.1.1 hhex.1.1.2 hhex.1.2 hhex.2 hraw⟩
  | case5 => cases h
  | case6 => cases h
  | case7 e data hu he _ ih =>
    obtain ⟨raw', rfl, hrun⟩ := exists_of_map_prepend h
    obtain ⟨rfl, hraw⟩ := ih hrun
    exact ⟨rfl, .escape he hraw⟩
  | case8 => cases h
  | case9 => cases h
  | case10 c data hquote hback hnul ih =>
    obtain ⟨raw', rfl, hrun⟩ := exists_of_map_prepend h
    obtain ⟨rfl, hraw⟩ := ih hrun
    exact ⟨rfl, .plain ⟨hquote, hback, hnul⟩ hraw⟩

theorem consume_eq_some_iff {c : Char} {data rest : List Char} :
    consume c data = some rest ↔ data = c :: rest := by
  cases data with
  | nil => simp [consume]
  | cons d data =>
    rw [consume]
    split
    · next h => simp [h]
    · next h => simp [h]

theorem decodeString_eq_some_iff {data raw rest : List Char} :
    decodeString data = some (raw, rest)
      ↔ data = '\"' :: (raw ++ '\"' :: rest) ∧ Raw dialect.plain raw := by
  unfold decodeString
  rw [Option.bind_eq_bind, Option.bind_eq_some_iff]
  constructor
  · rintro ⟨data', hconsume, hscan⟩
    obtain ⟨rfl, hraw⟩ := scanString_sound hscan
    exact ⟨consume_eq_some_iff.mp hconsume, hraw⟩
  · rintro ⟨rfl, hraw⟩
    exact ⟨_, consume_eq_some_iff.mpr rfl, scanString_raw hraw rest⟩

/-! ### Blanks -/

theorem wsSkip_append {w rest : List Char} (hw : Blank w)
    (hrest : ∀ c ∈ rest.head?, isBlank c = false) : wsSkip (w ++ rest) = rest :=
  Scan.dropWhile_append hw hrest

theorem exists_wsSkip (data : List Char) : ∃ w, Blank w ∧ data = w ++ wsSkip data :=
  ⟨data.takeWhile isBlank, fun _ hc => List.mem_takeWhile_imp hc,
    List.takeWhile_append_dropWhile.symm⟩

/-- A numeral starts with a minus or a digit. -/
theorem numeral_first (x : Numeral) :
    ∃ c s, x.text = c :: s ∧ (c = '-' ∨ c.isDigit = true) := by
  obtain ⟨c, ds, hwhole⟩ := List.exists_cons_of_ne_nil x.whole_ne
  unfold Numeral.text Numeral.signText
  cases x.minus with
  | true => exact ⟨'-', _, rfl, .inl rfl⟩
  | false =>
    refine ⟨c, ds ++ (x.fractionText ++ x.exponentText), ?_,
      .inr (x.whole_digits c (hwhole ▸ List.mem_cons_self))⟩
    rw [hwhole]
    rfl

theorem isLexical_dialect : dialect.IsLexical where
  number_ne := by
    rintro s ⟨x, -, rfl⟩
    exact x.text_ne_nil
  number_chars := by
    rintro s ⟨x, -, rfl⟩
    exact x.isNumberChar_of_mem
  plain_ne := fun _ h => ⟨h.1, h.2.1⟩

/-! ### Everything the grammar has is read -/

/-- **A phrase is read to its end**, with fuel for its characters. The items of
a list are read with the bracket that closes it, and the members of an object
with their brace. -/
def IsRead (n : ℕ) (p : Phrase) (s : List Char) : Prop :=
  ∀ fuel depth rest,
    match p with
    | .value t => 3 * s.length ≤ fuel → n ≤ levels depth → Stops rest →
        decodeValue fuel depth (s ++ rest) = some (t, rest)
    | .items ts => 3 * s.length + 1 ≤ fuel → n ≤ levels (depth + 1) →
        decodeItems fuel depth (s ++ ']' :: rest) = some (ts, rest)
    | .members ms => 3 * s.length + 1 ≤ fuel → n ≤ levels (depth + 1) →
        decodeMembers fuel depth (s ++ '}' :: rest) = some (ms, rest)

section Complete

variable {fuel depth n : ℕ} {w data rest : List Char}

theorem decodeValue_number {c : Char} (hc : c = '-' ∨ c.isDigit = true) :
    decodeValue (fuel + 1) depth (c :: data)
      = (decodeNumber .minus (c :: data)).map (Prod.map .number id) := by
  have hne : c ≠ '[' ∧ c ≠ '{' ∧ c ≠ '\"' ∧ c ≠ 't' ∧ c ≠ 'f' ∧ c ≠ 'n' := by
    rcases hc with rfl | hc
    · decide
    · refine ⟨?_, ?_, ?_, ?_, ?_, ?_⟩ <;> rintro rfl <;> exact absurd hc (by decide)
  obtain ⟨h₁, h₂, h₃, h₄, h₅, h₆⟩ := hne
  rw [decodeValue]
  simp only [if_neg h₁, if_neg h₂, if_neg h₃, if_neg h₄, if_neg h₅, if_neg h₆]

theorem consume_self (c : Char) (data : List Char) : consume c (c :: data) = some data :=
  consume_eq_some_iff.mpr rfl

theorem consume_of_ne {c d : Char} (h : d ≠ c) (data : List Char) : consume c (d :: data) = none :=
  if_neg h

theorem decodeValue_list (hdepth : depth + 1 ≤ maxDepth) :
    decodeValue (fuel + 2) depth ('[' :: data)
      = match consume ']' (wsSkip data) with
        | some data => some (.list [], data)
        | none => (decodeItems fuel (depth + 1) (wsSkip data)).map (Prod.map .list id) := by
  rw [decodeValue]
  simp only [if_true]
  rw [decodeList, consume_self, Option.bind_eq_bind, Option.bind_some,
    if_neg (Nat.not_lt.mpr hdepth)]

theorem decodeValue_object (hdepth : depth + 1 ≤ maxDepth) :
    decodeValue (fuel + 2) depth ('{' :: data)
      = match consume '}' (wsSkip data) with
        | some data => some (.object [], data)
        | none => (decodeMembers fuel (depth + 1) (wsSkip data)).map (Prod.map .object id) := by
  rw [decodeValue]
  simp only [if_neg (show '{' ≠ '[' by decide), if_true]
  rw [decodeObject, consume_self, Option.bind_eq_bind, Option.bind_some,
    if_neg (Nat.not_lt.mpr hdepth)]

/-- The blanks before a phrase are skipped. -/
theorem wsSkip_phrase {p : Phrase} {s : List Char} (hw : Blank w) (h : Spells dialect n p s)
    (rest : List Char) : wsSkip (w ++ (s ++ rest)) = s ++ rest := by
  obtain ⟨c, s', rfl, hc⟩ := isLexical_dialect.first_of_spells h
  exact wsSkip_append hw (by rintro d ⟨⟩; exact hc.1)

/-- The blanks before a character that is none. -/
theorem wsSkip_cons {c : Char} (hw : Blank w) (hc : isBlank c = false) (rest : List Char) :
    wsSkip (w ++ c :: rest) = c :: rest :=
  wsSkip_append hw (by rintro d ⟨⟩; exact hc)

/-- A phrase does not start with the bracket that would close it. -/
theorem consume_phrase {p : Phrase} {s : List Char} (h : Spells dialect n p s) {c : Char}
    (hc : c = ']' ∨ c = '}') (rest : List Char) : consume c (s ++ rest) = none := by
  obtain ⟨d, s', rfl, hd⟩ := isLexical_dialect.first_of_spells h
  refine consume_of_ne ?_ _
  rcases hc with rfl | rfl
  · exact hd.2.1
  · exact hd.2.2

/-- **Whatever the grammar has is read.** -/
theorem isRead_of_spells {p : Phrase} {s : List Char} (h : Spells dialect n p s) :
    IsRead n p s := by
  induction h with
  | null =>
    intro fuel depth rest hfuel _ _
    obtain ⟨fuel, rfl⟩ := Nat.exists_eq_succ_of_ne_zero (by simp at hfuel; omega : fuel ≠ 0)
    rw [List.cons_append, decodeValue]
    rfl
  | true =>
    intro fuel depth rest hfuel _ _
    obtain ⟨fuel, rfl⟩ := Nat.exists_eq_succ_of_ne_zero (by simp at hfuel; omega : fuel ≠ 0)
    rw [List.cons_append, decodeValue]
    rfl
  | false =>
    intro fuel depth rest hfuel _ _
    obtain ⟨fuel, rfl⟩ := Nat.exists_eq_succ_of_ne_zero (by simp at hfuel; omega : fuel ≠ 0)
    rw [List.cons_append, decodeValue]
    rfl
  | number h =>
    obtain ⟨x, hx, rfl⟩ := h
    intro fuel depth rest hfuel _ hstops
    obtain ⟨c, s, htext, hc⟩ := numeral_first x
    obtain ⟨fuel, rfl⟩ := Nat.exists_eq_succ_of_ne_zero
      (by rw [htext] at hfuel; simp at hfuel; omega : fuel ≠ 0)
    have hrun := decodeNumber_text hx hstops
    rw [htext, List.cons_append] at hrun ⊢
    rw [decodeValue_number hc, hrun]
    rfl
  | @string _ raw h =>
    intro fuel depth rest hfuel _ _
    obtain ⟨fuel, rfl⟩ := Nat.exists_eq_succ_of_ne_zero (by simp at hfuel; omega : fuel ≠ 0)
    have hrun : decodeString ('\"' :: (raw ++ '\"' :: rest)) = some (raw, rest) :=
      decodeString_eq_some_iff.mpr ⟨rfl, h⟩
    rw [List.cons_append, List.append_assoc, List.singleton_append, decodeValue]
    simp only [if_neg (show '\"' ≠ '[' by decide), if_neg (show '\"' ≠ '{' by decide), if_true,
      hrun]
    rfl
  | emptyList hw =>
    intro fuel depth rest hfuel hlevels _
    obtain ⟨fuel, rfl⟩ := Nat.exists_eq_add_of_le' (by simp at hfuel; omega : 2 ≤ fuel)
    rw [List.cons_append, List.append_assoc, List.singleton_append,
      decodeValue_list (levels_succ_iff.mp hlevels).1, wsSkip_cons hw rfl, consume_self]
  | list hw h ih =>
    intro fuel depth rest hfuel hlevels _
    simp only [List.length_cons, List.length_append, List.length_nil] at hfuel
    obtain ⟨fuel, rfl⟩ := Nat.exists_eq_add_of_le' (by omega : 2 ≤ fuel)
    obtain ⟨hdepth, hlevels⟩ := levels_succ_iff.mp hlevels
    simp only [List.cons_append, List.append_assoc, List.nil_append]
    rw [decodeValue_list hdepth, wsSkip_phrase hw h, consume_phrase h (.inl rfl)]
    simp only [ih fuel (depth + 1) rest (by omega) hlevels, Option.map_some, Prod.map_apply, id]
  | emptyObject hw =>
    intro fuel depth rest hfuel hlevels _
    obtain ⟨fuel, rfl⟩ := Nat.exists_eq_add_of_le' (by simp at hfuel; omega : 2 ≤ fuel)
    rw [List.cons_append, List.append_assoc, List.singleton_append,
      decodeValue_object (levels_succ_iff.mp hlevels).1, wsSkip_cons hw rfl, consume_self]
  | object hw h ih =>
    intro fuel depth rest hfuel hlevels _
    simp only [List.length_cons, List.length_append, List.length_nil] at hfuel
    obtain ⟨fuel, rfl⟩ := Nat.exists_eq_add_of_le' (by omega : 2 ≤ fuel)
    obtain ⟨hdepth, hlevels⟩ := levels_succ_iff.mp hlevels
    simp only [List.cons_append, List.append_assoc, List.nil_append]
    rw [decodeValue_object hdepth, wsSkip_phrase hw h, consume_phrase h (.inr rfl)]
    simp only [ih fuel (depth + 1) rest (by omega) hlevels, Option.map_some, Prod.map_apply, id]
  | item h hw ih =>
    intro fuel depth rest hfuel hlevels
    obtain ⟨fuel, rfl⟩ := Nat.exists_eq_succ_of_ne_zero (by omega : fuel ≠ 0)
    simp only [List.length_append] at hfuel
    have hvalue := ih fuel (depth + 1) _ (by omega) hlevels
      (stops_append hw (stops_cons (c := ']') rfl rest))
    rw [List.append_assoc, decodeItems, hvalue, Option.bind_eq_bind, Option.bind_some]
    simp only [wsSkip_cons (c := ']') hw rfl, consume_self]
  | items h hw hw' h' ih ih' =>
    intro fuel depth rest hfuel hlevels
    obtain ⟨fuel, rfl⟩ := Nat.exists_eq_succ_of_ne_zero (by omega : fuel ≠ 0)
    simp only [List.length_append, List.length_cons] at hfuel
    have hvalue := fun data => ih fuel (depth + 1) _ (by omega) hlevels
      (stops_append hw (stops_cons (c := ',') rfl data))
    simp only [List.append_assoc, List.cons_append]
    rw [decodeItems, hvalue, Option.bind_eq_bind, Option.bind_some]
    simp only [wsSkip_cons (c := ',') hw rfl, consume_self,
      consume_of_ne (show ',' ≠ ']' by decide), Option.bind_some, wsSkip_phrase hw' h',
      ih' fuel depth rest (by omega) hlevels,
      Option.bind_eq_bind]
  | @member _ raw _ w v _ w' hraw hw hv h hw' ih =>
    intro fuel depth rest hfuel hlevels
    obtain ⟨fuel, rfl⟩ := Nat.exists_eq_succ_of_ne_zero (by omega : fuel ≠ 0)
    simp only [List.length_append, List.length_cons] at hfuel
    have hvalue := ih fuel (depth + 1) _ (by omega) hlevels
      (stops_append hw' (stops_cons (c := '}') rfl rest))
    simp only [List.append_assoc, List.cons_append]
    rw [decodeMembers, decodeString_eq_some_iff.mpr ⟨rfl, hraw⟩, Option.bind_eq_bind,
      Option.bind_some]
    simp only [wsSkip_cons (c := ':') hw rfl, consume_self, Option.bind_some, wsSkip_phrase hv h,
      hvalue, wsSkip_cons (c := '}') hw' rfl, Option.bind_eq_bind]
    rfl
  | @members _ raw _ _ w v _ w' v' _ hraw hw hv h hw' hv' h' ih ih' =>
    intro fuel depth rest hfuel hlevels
    obtain ⟨fuel, rfl⟩ := Nat.exists_eq_succ_of_ne_zero (by omega : fuel ≠ 0)
    simp only [List.length_append, List.length_cons] at hfuel
    have hvalue := fun data => ih fuel (depth + 1) _ (by omega) hlevels
      (stops_append hw' (stops_cons (c := ',') rfl data))
    simp only [List.append_assoc, List.cons_append]
    rw [decodeMembers, decodeString_eq_some_iff.mpr ⟨rfl, hraw⟩, Option.bind_eq_bind,
      Option.bind_some]
    simp only [wsSkip_cons (c := ':') hw rfl, consume_self, Option.bind_some, wsSkip_phrase hv h,
      hvalue, wsSkip_cons (c := ',') hw' rfl, consume_of_ne (show ',' ≠ '}' by decide),
      wsSkip_phrase hv' h', ih' fuel depth rest (by omega) hlevels, Option.bind_eq_bind]
    rfl

end Complete

/-! ### Nothing else is read -/

theorem levels_eq {depth : ℕ} (h : depth + 1 ≤ maxDepth) :
    levels depth = levels (depth + 2) + 1 := by
  unfold levels
  omega

theorem literal_eq_some {t t' : Tree} {tail data rest : List Char}
    (h : literal t tail data = some (t', rest)) : t' = t ∧ data = tail ++ rest := by
  unfold literal at h
  split at h
  · next hpre =>
    obtain ⟨rest', rfl⟩ := List.isPrefixOf_iff_prefix.mp hpre
    rw [List.drop_left] at h
    cases h
    exact ⟨rfl, rfl⟩
  · cases h

/-- **What the five functions return with some fuel is spelled** by the text
they read. -/
structure Sound (fuel : ℕ) : Prop where
  /-- Of `decodeValue`, which reads any value. -/
  value : ∀ {depth data t rest}, decodeValue fuel depth data = some (t, rest) →
    ∃ s, data = s ++ rest ∧ Spells dialect (levels depth) (.value t) s
  /-- Of `decodeList`, which has entered the list. -/
  list : ∀ {depth data t rest}, decodeList fuel (depth + 1) data = some (t, rest) →
    ∃ s, data = s ++ rest ∧ Spells dialect (levels depth) (.value t) s
  /-- Of `decodeItems`, which reads up to the bracket. -/
  items : ∀ {depth data ts rest}, decodeItems fuel depth data = some (ts, rest) →
    ∃ s, data = s ++ ']' :: rest ∧ Spells dialect (levels (depth + 1)) (.items ts) s
  /-- Of `decodeObject`, which has entered the object. -/
  object : ∀ {depth data t rest}, decodeObject fuel (depth + 1) data = some (t, rest) →
    ∃ s, data = s ++ rest ∧ Spells dialect (levels depth) (.value t) s
  /-- Of `decodeMembers`, which reads up to the brace. -/
  members : ∀ {depth data ms rest}, decodeMembers fuel depth data = some (ms, rest) →
    ∃ s, data = s ++ '}' :: rest ∧ Spells dialect (levels (depth + 1)) (.members ms) s

namespace Sound

variable {fuel depth : ℕ} {data rest : List Char}

theorem number_sound {t : Tree}
    (h : (decodeNumber .minus data).map (Prod.map Tree.number id) = some (t, rest)) :
    ∃ s, data = s ++ rest ∧ Spells dialect (levels depth) (.value t) s := by
  rw [Option.map_eq_some_iff] at h
  obtain ⟨⟨text, rest'⟩, hrun, heq⟩ := h
  cases heq
  obtain ⟨x, hx, rfl, rfl, -⟩ := decodeNumber_sound hrun
  exact ⟨_, rfl, .number ⟨x, hx, rfl⟩⟩

theorem value_succ (ih : Sound fuel) {t : Tree}
    (h : decodeValue (fuel + 1) depth data = some (t, rest)) :
    ∃ s, data = s ++ rest ∧ Spells dialect (levels depth) (.value t) s := by
  cases data with
  | nil =>
    rw [decodeValue] at h
    exact number_sound h
  | cons c data =>
    rw [decodeValue] at h
    split_ifs at h with hlist hobject hstring ht hf hn
    · exact ih.list h
    · exact ih.object h
    · rw [Option.map_eq_some_iff] at h
      obtain ⟨⟨raw, rest'⟩, hrun, heq⟩ := h
      cases heq
      obtain ⟨hdata, hraw⟩ := decodeString_eq_some_iff.mp hrun
      refine ⟨_, ?_, .string hraw⟩
      rw [hdata, List.cons_append, List.append_assoc, List.singleton_append]
      rfl
    · obtain ⟨rfl, rfl⟩ := literal_eq_some h
      exact ⟨_, by rw [ht]; rfl, .true⟩
    · obtain ⟨rfl, rfl⟩ := literal_eq_some h
      exact ⟨_, by rw [hf]; rfl, .false⟩
    · obtain ⟨rfl, rfl⟩ := literal_eq_some h
      exact ⟨_, by rw [hn]; rfl, .null⟩
    · exact number_sound h

theorem list_succ (ih : Sound fuel) {t : Tree}
    (h : decodeList (fuel + 1) (depth + 1) data = some (t, rest)) :
    ∃ s, data = s ++ rest ∧ Spells dialect (levels depth) (.value t) s := by
  rw [decodeList, Option.bind_eq_bind, Option.bind_eq_some_iff] at h
  obtain ⟨data', hopen, h⟩ := h
  obtain rfl := consume_eq_some_iff.mp hopen
  split_ifs at h with hdepth
  obtain ⟨w, hw, hdata⟩ := exists_wsSkip data'
  rw [levels_eq (Nat.not_lt.mp hdepth)]
  split at h
  · next _ hclose =>
    cases h
    refine ⟨'[' :: (w ++ [']']), ?_, .emptyList hw⟩
    rw [hdata, consume_eq_some_iff.mp hclose]
    simp only [List.cons_append, List.append_assoc, List.nil_append]
  · rw [Option.map_eq_some_iff] at h
    obtain ⟨⟨ts, rest'⟩, hrun, heq⟩ := h
    cases heq
    obtain ⟨s, hs, hspells⟩ := ih.items hrun
    refine ⟨'[' :: (w ++ (s ++ [']'])), ?_, .list hw hspells⟩
    rw [hdata, hs]
    simp only [List.cons_append, List.append_assoc, List.nil_append]
    rfl

theorem object_succ (ih : Sound fuel) {t : Tree}
    (h : decodeObject (fuel + 1) (depth + 1) data = some (t, rest)) :
    ∃ s, data = s ++ rest ∧ Spells dialect (levels depth) (.value t) s := by
  rw [decodeObject, Option.bind_eq_bind, Option.bind_eq_some_iff] at h
  obtain ⟨data', hopen, h⟩ := h
  obtain rfl := consume_eq_some_iff.mp hopen
  split_ifs at h with hdepth
  obtain ⟨w, hw, hdata⟩ := exists_wsSkip data'
  rw [levels_eq (Nat.not_lt.mp hdepth)]
  split at h
  · next _ hclose =>
    cases h
    refine ⟨'{' :: (w ++ ['}']), ?_, .emptyObject hw⟩
    rw [hdata, consume_eq_some_iff.mp hclose]
    simp only [List.cons_append, List.append_assoc, List.nil_append]
  · rw [Option.map_eq_some_iff] at h
    obtain ⟨⟨ms, rest'⟩, hrun, heq⟩ := h
    cases heq
    obtain ⟨s, hs, hspells⟩ := ih.members hrun
    refine ⟨'{' :: (w ++ (s ++ ['}'])), ?_, .object hw hspells⟩
    rw [hdata, hs]
    simp only [List.cons_append, List.append_assoc, List.nil_append]
    rfl

theorem items_succ (ih : Sound fuel) {ts : List Tree}
    (h : decodeItems (fuel + 1) depth data = some (ts, rest)) :
    ∃ s, data = s ++ ']' :: rest ∧ Spells dialect (levels (depth + 1)) (.items ts) s := by
  simp only [decodeItems, Option.bind_eq_bind, Option.bind_eq_some_iff, Prod.exists] at h
  obtain ⟨v, data', hvalue, h⟩ := h
  obtain ⟨s, rfl, hs⟩ := ih.value hvalue
  obtain ⟨w, hw, hdata⟩ := exists_wsSkip data'
  split at h
  · next _ hclose =>
    cases h
    refine ⟨s ++ w, ?_, .item hs hw⟩
    rw [hdata, consume_eq_some_iff.mp hclose, List.append_assoc]
  · simp only [Option.bind_eq_some_iff, Prod.exists] at h
    obtain ⟨data'', hcomma, vs, rest', hrun, heq⟩ := h
    cases heq
    obtain ⟨w', hw', hdata'⟩ := exists_wsSkip data''
    obtain ⟨s', hs', hspells⟩ := ih.items hrun
    refine ⟨s ++ (w ++ (',' :: (w' ++ s'))), ?_, .items hs hw hw' hspells⟩
    rw [hdata, consume_eq_some_iff.mp hcomma, hdata', hs']
    simp only [List.append_assoc, List.cons_append]

theorem members_succ (ih : Sound fuel) {ms : List (List Char × Tree)}
    (h : decodeMembers (fuel + 1) depth data = some (ms, rest)) :
    ∃ s, data = s ++ '}' :: rest ∧ Spells dialect (levels (depth + 1)) (.members ms) s := by
  simp only [decodeMembers, Option.bind_eq_bind, Option.bind_eq_some_iff, Prod.exists] at h
  obtain ⟨raw, data₁, hkey, data₂, hcolon, v, data₃, hvalue, h⟩ := h
  obtain ⟨rfl, hraw⟩ := decodeString_eq_some_iff.mp hkey
  obtain ⟨w, hw, hdata₁⟩ := exists_wsSkip data₁
  obtain ⟨w₂, hw₂, hdata₂⟩ := exists_wsSkip data₂
  obtain ⟨w₃, hw₃, hdata₃⟩ := exists_wsSkip data₃
  obtain ⟨s, hs, hspells⟩ := ih.value hvalue
  split at h
  · next _ hclose =>
    cases h
    refine ⟨_, ?_, .member hraw hw hw₂ hspells hw₃⟩
    rw [hdata₁, consume_eq_some_iff.mp hcolon, hdata₂, hs, hdata₃, consume_eq_some_iff.mp hclose]
    simp only [List.append_assoc, List.cons_append]
  · simp only [Option.bind_eq_some_iff, Prod.exists] at h
    obtain ⟨data₄, hcomma, ms', rest', hrun, heq⟩ := h
    cases heq
    obtain ⟨w₄, hw₄, hdata₄⟩ := exists_wsSkip data₄
    obtain ⟨s', hs', hspells'⟩ := ih.members hrun
    refine ⟨_, ?_, .members hraw hw hw₂ hspells hw₃ hw₄ hspells'⟩
    rw [hdata₁, consume_eq_some_iff.mp hcolon, hdata₂, hs, hdata₃, consume_eq_some_iff.mp hcomma,
      hdata₄, hs']
    simp only [List.append_assoc, List.cons_append]

end Sound

/-- **Whatever is read is in the grammar**, whatever the fuel. -/
theorem sound (fuel : ℕ) : Sound fuel := by
  induction fuel with
  | zero =>
    refine ⟨?_, ?_, ?_, ?_, ?_⟩ <;> intro _ _ _ _ h <;>
      simp only [decodeValue, decodeList, decodeItems, decodeObject, decodeMembers,
        reduceCtorEq] at h
  | succ fuel ih =>
    exact ⟨ih.value_succ, ih.list_succ, ih.items_succ, ih.object_succ, ih.members_succ⟩

/-! ### Whole texts -/

theorem ne_nul_of_isNumberChar {c : Char} (h : isNumberChar c = true) : c ≠ nul := by
  rintro rfl
  exact absurd h (by decide)

theorem ne_nul_of_blank {w : List Char} (hw : Blank w) : ∀ c ∈ w, c ≠ nul := by
  rintro c hc rfl
  exact absurd (hw _ hc) (by decide)

theorem ne_nul_of_isHex {c : Char} (h : isHex c = true) : c ≠ nul := by
  rintro rfl
  exact absurd h (by decide)

theorem ne_nul_of_raw {plain : Char → Prop} (hplain : ∀ c, plain c → c ≠ nul) {raw : List Char}
    (h : Raw plain raw) : ∀ c ∈ raw, c ≠ nul := by
  induction h with
  | nil => exact fun _ hc => absurd hc List.not_mem_nil
  | plain hc _ ih => exact List.forall_mem_cons.mpr ⟨hplain _ hc, ih⟩
  | escape he _ ih =>
    refine List.forall_mem_cons.mpr ⟨by decide, List.forall_mem_cons.mpr ⟨?_, ih⟩⟩
    rintro rfl
    exact absurd he (by decide)
  | unicode ha hb hc hd _ ih =>
    simp only [List.forall_mem_cons]
    exact ⟨by decide, by decide, ne_nul_of_isHex ha, ne_nul_of_isHex hb, ne_nul_of_isHex hc,
      ne_nul_of_isHex hd, ih⟩

theorem ne_nul_of_all {s : List Char} (h : s.all (· ≠ nul) = true) : ∀ c ∈ s, c ≠ nul := by
  simpa only [List.all_eq_true, decide_eq_true_eq] using h

/-- No phrase has a zero character, unless a string has one as it is. -/
theorem ne_nul_of_spells {D : Dialect} (hD : D.IsLexical) (hplain : ∀ c, D.plain c → c ≠ nul)
    {n : ℕ} {p : Phrase} {s : List Char} (h : Spells D n p s) : ∀ c ∈ s, c ≠ nul := by
  have hraw : ∀ raw, Raw D.plain raw → ∀ c ∈ raw, c ≠ nul := fun _ => ne_nul_of_raw hplain
  induction h with
  | null => exact ne_nul_of_all (by decide)
  | true => exact ne_nul_of_all (by decide)
  | false => exact ne_nul_of_all (by decide)
  | number h => exact fun c hc => ne_nul_of_isNumberChar (hD.number_chars _ h c hc)
  | string h =>
    simp only [List.forall_mem_cons, List.forall_mem_append, List.not_mem_nil, false_imp_iff,
      implies_true, and_true]
    exact ⟨by decide, hraw _ h, by decide⟩
  | emptyList hw | emptyObject hw =>
    simp only [List.forall_mem_cons, List.forall_mem_append, List.not_mem_nil, false_imp_iff,
      implies_true, and_true]
    exact ⟨by decide, ne_nul_of_blank hw, by decide⟩
  | list hw _ ih | object hw _ ih =>
    simp only [List.forall_mem_cons, List.forall_mem_append, List.not_mem_nil, false_imp_iff,
      implies_true, and_true]
    exact ⟨by decide, ne_nul_of_blank hw, ih, by decide⟩
  | item _ hw ih => exact List.forall_mem_append.mpr ⟨ih, ne_nul_of_blank hw⟩
  | items _ hw hw' _ ih ih' =>
    simp only [List.forall_mem_cons, List.forall_mem_append]
    exact ⟨ih, ne_nul_of_blank hw, by decide, ne_nul_of_blank hw', ih'⟩
  | member h hw hv _ hw' ih =>
    simp only [List.forall_mem_cons, List.forall_mem_append]
    exact ⟨by decide, hraw _ h, by decide, ne_nul_of_blank hw, by decide, ne_nul_of_blank hv, ih,
      ne_nul_of_blank hw'⟩
  | members h hw hv _ hw' hv' _ ih ih' =>
    simp only [List.forall_mem_cons, List.forall_mem_append]
    exact ⟨by decide, hraw _ h, by decide, ne_nul_of_blank hw, by decide, ne_nul_of_blank hv, ih,
      ne_nul_of_blank hw', by decide, ne_nul_of_blank hv', ih'⟩

theorem ne_nul_of_text {D : Dialect} (hD : D.IsLexical) (hplain : ∀ c, D.plain c → c ≠ nul)
    {n : ℕ} {t : Tree} {s : List Char} (h : Text D n t s) : ∀ c ∈ s, c ≠ nul := by
  obtain ⟨w, v, w', hw, hv, hw', rfl⟩ := h
  simp only [List.forall_mem_append]
  exact ⟨ne_nul_of_blank hw, ne_nul_of_spells hD hplain hv, ne_nul_of_blank hw'⟩

/-- The end of a text: its last character was read, or a zero character
follows. -/
def IsEnd (rest : List Char) : Prop := ∀ c ∈ rest.head?, c = nul

theorem load_text {t : Tree} {w s w' rest : List Char} (hw : Blank w)
    (h : Spells dialect 5000 (.value t) s) (hw' : Blank w') (hrest : IsEnd rest) :
    load (w ++ (s ++ (w' ++ rest))) = some t := by
  have hblank : ∀ c ∈ rest.head?, isBlank c = false := by
    intro c hc
    rw [hrest c hc]
    decide
  have hstops : Stops (w' ++ rest) := by
    refine stops_append hw' fun c hc => ?_
    rw [hrest c hc]
    decide
  have hread := isRead_of_spells h (3 * (w ++ (s ++ (w' ++ rest))).length + 1) 0 (w' ++ rest)
    (by simp only [List.length_append]; omega) (by decide) hstops
  unfold load
  rw [wsSkip_phrase hw h, hread, Option.bind_eq_bind, Option.bind_some]
  simp only [wsSkip_append hw' hblank]
  cases rest with
  | nil => rfl
  | cons c rest => exact if_pos (hrest c rfl)

theorem exists_of_load {text : List Char} {t : Tree} (h : load text = some t) :
    ∃ w s w' rest, text = w ++ (s ++ (w' ++ rest)) ∧ Blank w
      ∧ Spells dialect 5000 (.value t) s ∧ Blank w' ∧ IsEnd rest := by
  unfold load at h
  simp only [Option.bind_eq_bind, Option.bind_eq_some_iff, Prod.exists] at h
  obtain ⟨t', rest, hvalue, h⟩ := h
  obtain ⟨s, hs, hspells⟩ := (sound _).value hvalue
  obtain ⟨w, hw, htext⟩ := exists_wsSkip text
  obtain ⟨w', hw', hrest⟩ := exists_wsSkip rest
  have hend : t' = t ∧ IsEnd (wsSkip rest) := by
    split at h
    · next hnil =>
      cases h
      rw [hnil]
      exact ⟨rfl, fun c hc => absurd hc (Option.not_mem_none c)⟩
    · next c _ hcons =>
      split_ifs at h with hc
      cases h
      rw [hcons]
      exact ⟨rfl, by rintro d ⟨⟩; exact hc⟩
  obtain ⟨rfl, hend⟩ := hend
  exact ⟨w, s, w', wsSkip rest, by rw [← hrest, ← hs, ← htext], hw, hspells, hw', hend⟩

/-- What is read before a zero character is a text of the dialect. -/
theorem text_of_load {text : List Char} {t : Tree} (h : load text = some t) :
    Text dialect 5000 t (text.takeWhile (· ≠ nul)) := by
  obtain ⟨w, s, w', rest, rfl, hw, hs, hw', hrest⟩ := exists_of_load h
  refine ⟨w, s, w', hw, hs, hw', ?_⟩
  have hne : ∀ c ∈ w ++ (s ++ w'), decide (c ≠ nul) = true := fun c hc =>
    decide_eq_true (ne_nul_of_text isLexical_dialect (fun _ h => h.2.2)
      ⟨w, s, w', hw, hs, hw', rfl⟩ c hc)
  rw [← Scan.takeWhile_append hne (fun c hc => by simp [hrest c hc]), List.append_assoc,
    List.append_assoc]

/-- **The parser accepts its grammar**: the texts, up to their first zero
character, that spell a value in the dialect with at most 5000 lists and
objects inside each other, and it returns that value. -/
theorem load_eq_some_iff {text : List Char} {t : Tree} :
    load text = some t ↔ Text dialect 5000 t (text.takeWhile (· ≠ nul)) := by
  refine ⟨text_of_load, ?_⟩
  rintro ⟨w, s, w', hw, hs, hw', htext⟩
  have hsplit := (List.takeWhile_append_dropWhile (p := (· ≠ nul)) (l := text)).symm
  rw [htext] at hsplit
  rw [hsplit, List.append_assoc, List.append_assoc]
  refine load_text hw hs hw' fun c hc => ?_
  have hhead := List.head?_dropWhile_not (· ≠ nul) text
  rw [Option.mem_def] at hc
  rw [hc] at hhead
  simpa using hhead

end JsonLoad
