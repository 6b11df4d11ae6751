import Mathlib.Algebra.Order.Field.Power
import Mathlib.Data.List.DropRight
import Mathlib.Tactic.FieldSimp
import Mathlib.Tactic.Linarith
import Mathlib.Tactic.Positivity
import Mathlib.Tactic.Ring
import NeuralBuilder.Library.Scan

/-!
# Numerals

A decimal numeral is a sign, the digits before the point, the digits after it
if there is a point, and an exponent if there is one. Its parts are kept rather
than its text, with what every notation asks of them. `Numeral.value` is the
number it is a numeral of.

A notation is a predicate on numerals: what standard JSON allows (`IsStandard`),
what `%g` prints (`IsGeneral`) and what `%f` prints (`IsFixed`). The text of a
numeral determines it (`text_injective`), which is what lets a program that
works on texts be proved about the parts. Zeros at the end of a fraction do not
change the value.
-/

/-- The digits of a text only. -/
def AllDigits (ds : List Char) : Prop := ∀ c ∈ ds, c.isDigit = true

theorem AllDigits.nil : AllDigits [] := fun _ hc => absurd hc List.not_mem_nil

theorem AllDigits.cons {c : Char} {ds : List Char} (hc : c.isDigit = true) (h : AllDigits ds) :
    AllDigits (c :: ds) := by
  intro d hd
  rcases List.mem_cons.mp hd with rfl | hd
  · exact hc
  · exact h d hd

theorem AllDigits.initial {ds ds' : List Char} (h : AllDigits ds') (hpre : ds <+: ds') :
    AllDigits ds := fun c hc => h c (hpre.subset hc)

/-- The characters of numerals. -/
def isNumberChar (c : Char) : Bool :=
  c.isDigit || c == '.' || c == '-' || c == '+' || c == 'e' || c == 'E'

/-- Nothing that would go on with a numeral. -/
def Stops (rest : List Char) : Prop := ∀ c ∈ rest.head?, isNumberChar c = false

theorem isNumberChar_of_isDigit {c : Char} (h : c.isDigit = true) : isNumberChar c = true := by
  simp [isNumberChar, h]

theorem isDigit_of_stops {rest : List Char} (h : Stops rest) :
    ∀ c ∈ rest.head?, c.isDigit = false :=
  fun c hc => by
    by_contra hdigit
    exact absurd (isNumberChar_of_isDigit (Bool.not_eq_false _ ▸ hdigit)) (by simp [h c hc])

/-- What the first character of an append is not. -/
theorem forall_head?_append {p : Char → Bool} {s s' : List Char} (h : ∀ c ∈ s.head?, p c = false)
    (h' : ∀ c ∈ s'.head?, p c = false) : ∀ c ∈ (s ++ s').head?, p c = false := by
  cases s with
  | nil => exact h'
  | cons c s => exact h

/-- Digits that are not all zeros. -/
theorem AllDigits.ofDigitChars_ne_zero {ds : List Char} (h : AllDigits ds)
    (hne : ∃ d ∈ ds, d ≠ '0') : Nat.ofDigitChars 10 ds 0 ≠ 0 := by
  induction ds with
  | nil =>
    obtain ⟨d, hd, -⟩ := hne
    exact absurd hd List.not_mem_nil
  | cons c ds ih =>
    rw [Nat.ofDigitChars_cons, Nat.ofDigitChars_eq_ofDigitChars_zero]
    by_cases hc : c = '0'
    · have htail : ∃ d ∈ ds, d ≠ '0' := by
        obtain ⟨d, hd, hzero⟩ := hne
        rcases List.mem_cons.mp hd with rfl | hd
        · exact absurd hc hzero
        · exact ⟨d, hd, hzero⟩
      have hpos := ih (fun d hd => h d (List.mem_cons_of_mem c hd)) htail
      exact fun hsum => hpos (Nat.add_eq_zero_iff.mp hsum).2
    · have hdigit : 0 < c.toNat - '0'.toNat := by
        have hle := h c List.mem_cons_self
        have hchar : c.toNat ≠ '0'.toNat := fun heq => hc (Char.toNat_inj.mp heq)
        simp only [Char.isDigit, ge_iff_le, Bool.and_eq_true, decide_eq_true_eq,
          UInt32.le_iff_toNat_le] at hle
        exact Nat.sub_pos_of_lt (lt_of_le_of_ne hle.1 (Ne.symm hchar))
      positivity

/-! ## Zeros at the end -/

/-- The zeros at the end of a text are cut off. -/
def stripZeros (s : List Char) : List Char := s.rdropWhile (· == '0')

theorem stripZeros_cons (c : Char) (s : List Char) :
    stripZeros (c :: s) = if stripZeros s = [] ∧ c = '0' then [] else c :: stripZeros s := by
  unfold stripZeros List.rdropWhile
  rw [List.reverse_cons, List.dropWhile_append]
  by_cases hs : s.reverse.dropWhile (· == '0') = []
  · by_cases hc : c = '0'
    · simp [hs, hc]
    · simp [hs, hc]
  · simp [hs]

theorem stripZeros_append_of_ne {s s' : List Char} (h : stripZeros s' ≠ []) :
    stripZeros (s ++ s') = s ++ stripZeros s' := by
  induction s with
  | nil => rfl
  | cons c s ih =>
    rw [List.cons_append, stripZeros_cons, ih, if_neg, List.cons_append]
    exact fun hnil => h (List.append_eq_nil_iff.mp hnil.1).2

theorem isPrefix_stripZeros (s : List Char) : stripZeros s <+: s :=
  List.rdropWhile_prefix _ s

theorem stripZeros_eq_nil_iff {s : List Char} : stripZeros s = [] ↔ ∀ c ∈ s, c = '0' := by
  unfold stripZeros
  simp only [List.rdropWhile_eq_nil_iff, beq_iff_eq]

theorem stripZeros_eq_self_iff {s : List Char} : stripZeros s = s ↔ s.getLast? ≠ some '0' := by
  unfold stripZeros
  rw [List.rdropWhile_eq_self_iff]
  cases s with
  | nil => simp
  | cons c s =>
    rw [List.getLast?_eq_some_getLast (List.cons_ne_nil c s)]
    simp

/-- What was cut off. -/
theorem exists_replicate (s : List Char) :
    ∃ k, s = stripZeros s ++ List.replicate k '0' := by
  refine ⟨(s.rtakeWhile (· == '0')).length, ?_⟩
  have hzeros : s.rtakeWhile (· == '0') = List.replicate (s.rtakeWhile (· == '0')).length '0' :=
    List.eq_replicate_of_mem fun c hc => by simpa using List.mem_rtakeWhile_imp hc
  rw [← hzeros]
  exact List.rdropWhile_append_rtakeWhile.symm

theorem AllDigits.stripZeros {ds : List Char} (h : AllDigits ds) : AllDigits (stripZeros ds) :=
  h.initial (isPrefix_stripZeros ds)

/-! ## Numerals -/

/-- Digits make less than the next power of ten. -/
theorem AllDigits.ofDigitChars_lt {ds : List Char} (h : AllDigits ds) :
    Nat.ofDigitChars 10 ds 0 < 10 ^ ds.length := by
  induction ds with
  | nil => exact Nat.one_pos
  | cons c ds ih =>
    have hc : c.toNat - '0'.toNat ≤ 9 := by
      have hle := h c List.mem_cons_self
      simp only [Char.isDigit, ge_iff_le, Bool.and_eq_true, decide_eq_true_eq,
        UInt32.le_iff_toNat_le] at hle
      have hnine : c.toNat ≤ 57 := hle.2
      have hzero : '0'.toNat = 48 := rfl
      omega
    have htail := ih fun d hd => h d (List.mem_cons_of_mem c hd)
    rw [Nat.ofDigitChars_cons, Nat.ofDigitChars_eq_ofDigitChars_zero, List.length_cons, pow_succ]
    nlinarith [Nat.mul_le_mul_left (10 ^ ds.length) hc]

/-- **The exponent of a numeral**: its mark, its sign if it has one, and its
digits, one at least unless there is a sign. -/
@[ext]
structure Exponent where
  /-- The letter in front. -/
  mark : Char
  /-- The sign, if it is written. -/
  sign : Option Char
  /-- The digits after it. -/
  digits : List Char
  /-- Either letter will do. -/
  mark_ok : mark = 'e' ∨ mark = 'E'
  /-- So will either sign. -/
  sign_ok : ∀ c ∈ sign, c = '+' ∨ c = '-'
  /-- They are digits. -/
  digits_ok : AllDigits digits
  /-- Without a sign there is a digit. -/
  digits_ne : sign = none → digits ≠ []

namespace Exponent

def text (e : Exponent) : List Char :=
  e.mark :: (e.sign.toList ++ e.digits)

def value (e : Exponent) : ℤ :=
  if e.sign = some '-' then -(Nat.ofDigitChars 10 e.digits 0) else Nat.ofDigitChars 10 e.digits 0

theorem isDigit_sign {e : Exponent} {c : Char} (h : c ∈ e.sign) : c.isDigit = false := by
  rcases e.sign_ok c h with rfl | rfl <;> rfl

/-- The text of an exponent determines it. -/
theorem text_injective {e e' : Exponent} (h : e.text = e'.text) : e = e' := by
  obtain ⟨hmark, htail⟩ := List.cons.inj h
  -- a sign is no digit, so both have one or neither
  have hsign : e.sign = e'.sign ∧ e.digits = e'.digits := by
    cases hs : e.sign with
    | none =>
      obtain ⟨c, ds, hds⟩ := List.exists_cons_of_ne_nil (e.digits_ne hs)
      cases hs' : e'.sign with
      | none =>
        rw [hs, hs'] at htail
        exact ⟨rfl, htail⟩
      | some c' =>
        rw [hs, hs', hds] at htail
        obtain ⟨rfl, -⟩ := List.cons.inj htail
        have hdigit := e.digits_ok c (hds ▸ List.mem_cons_self)
        rw [isDigit_sign hs'] at hdigit
        cases hdigit
    | some c =>
      cases hs' : e'.sign with
      | none =>
        obtain ⟨c', ds, hds⟩ := List.exists_cons_of_ne_nil (e'.digits_ne hs')
        rw [hs, hs', hds] at htail
        obtain ⟨rfl, -⟩ := List.cons.inj htail
        have hdigit := e'.digits_ok c (hds ▸ List.mem_cons_self)
        rw [isDigit_sign hs] at hdigit
        cases hdigit
      | some c' =>
        rw [hs, hs'] at htail
        obtain ⟨rfl, hdigits⟩ := List.cons.inj htail
        exact ⟨rfl, hdigits⟩
  exact Exponent.ext hmark hsign.1 hsign.2

end Exponent

/-- **A decimal numeral**, without a leading zero. -/
@[ext]
structure Numeral where
  /-- Whether there is a minus sign in front. -/
  minus : Bool
  /-- The digits before the point. -/
  whole : List Char
  /-- Those after it, if there is one. -/
  fraction : Option (List Char)
  /-- The exponent, if there is one. -/
  exponent : Option Exponent
  /-- They are digits. -/
  whole_digits : AllDigits whole
  /-- There is one at least. -/
  whole_ne : whole ≠ []
  /-- A zero in front stands alone. -/
  whole_zero : ∀ ds, whole = '0' :: ds → ds = []
  /-- There may be none after a point. -/
  fraction_digits : ∀ ds ∈ fraction, AllDigits ds

namespace Numeral

/-- The sign in front. -/
def signText (x : Numeral) : List Char := if x.minus then ['-'] else []

/-- The point and the digits after it. -/
def fractionText (x : Numeral) : List Char := x.fraction.elim [] ('.' :: ·)

/-- The exponent with its mark. -/
def exponentText (x : Numeral) : List Char := x.exponent.elim [] Exponent.text

def text (x : Numeral) : List Char :=
  x.signText ++ (x.whole ++ (x.fractionText ++ x.exponentText))

/-- A numeral has no other characters. -/
theorem isNumberChar_of_mem (x : Numeral) : ∀ c ∈ x.text, isNumberChar c = true := by
  intro c hc
  rw [text, List.mem_append, List.mem_append, List.mem_append] at hc
  rcases hc with hc | hc | hc | hc
  · unfold signText at hc
    split at hc
    · rw [List.mem_singleton.mp hc]
      rfl
    · cases hc
  · exact isNumberChar_of_isDigit (x.whole_digits c hc)
  · unfold fractionText at hc
    cases hfraction : x.fraction with
    | none =>
      rw [hfraction] at hc
      cases hc
    | some ds =>
      rw [hfraction, Option.elim_some, List.mem_cons] at hc
      rcases hc with rfl | hc
      · rfl
      · exact isNumberChar_of_isDigit (x.fraction_digits ds hfraction c hc)
  · unfold exponentText at hc
    cases hexponent : x.exponent with
    | none =>
      rw [hexponent] at hc
      cases hc
    | some e =>
      rw [hexponent, Option.elim_some, Exponent.text, List.mem_cons, List.mem_append,
        Option.mem_toList] at hc
      rcases hc with rfl | hc | hc
      · rcases e.mark_ok with h | h <;> rw [h] <;> rfl
      · rcases e.sign_ok c hc with rfl | rfl <;> rfl
      · exact isNumberChar_of_isDigit (e.digits_ok c hc)

theorem text_ne_nil (x : Numeral) : x.text ≠ [] := by
  intro h
  rw [text, List.append_eq_nil_iff, List.append_eq_nil_iff] at h
  exact x.whole_ne h.2.1

theorem isDigit_exponentText (x : Numeral) : ∀ c ∈ x.exponentText.head?, c.isDigit = false := by
  unfold exponentText
  cases x.exponent with
  | none => exact fun c hc => absurd hc (Option.not_mem_none c)
  | some e =>
    rintro c ⟨⟩
    rcases e.mark_ok with h | h <;> rw [h] <;> rfl

theorem point_notMem_exponentText (x : Numeral) (s : List Char) : x.exponentText ≠ '.' :: s := by
  unfold exponentText
  cases x.exponent with
  | none => exact fun h => by cases h
  | some e =>
    intro h
    have hmark := (List.cons.inj h).1
    rcases e.mark_ok with h | h <;> rw [h] at hmark <;> exact absurd hmark (by decide)

theorem isDigit_fractionText (x : Numeral) :
    ∀ c ∈ (x.fractionText ++ x.exponentText).head?, c.isDigit = false := by
  refine forall_head?_append ?_ (isDigit_exponentText x)
  unfold fractionText
  cases x.fraction with
  | none => exact fun c hc => absurd hc (Option.not_mem_none c)
  | some ds =>
    rintro c ⟨⟩
    rfl

/-- The sign is read off the text. -/
theorem minus_eq_of_text {x y : Numeral} (h : x.text = y.text) : x.minus = y.minus := by
  obtain ⟨c, ds, hx⟩ := List.exists_cons_of_ne_nil x.whole_ne
  obtain ⟨d, es, hy⟩ := List.exists_cons_of_ne_nil y.whole_ne
  have hc := x.whole_digits c (hx ▸ List.mem_cons_self)
  have hd := y.whole_digits d (hy ▸ List.mem_cons_self)
  unfold text signText at h
  cases hmx : x.minus <;> cases hmy : y.minus
  · rfl
  · rw [hmx, hmy, hx] at h
    rw [(List.cons.inj h).1] at hc
    exact absurd hc (by decide)
  · rw [hmx, hmy, hy] at h
    rw [← (List.cons.inj h).1] at hd
    exact absurd hd (by decide)
  · rfl

/-- So is the fraction, off what follows the whole part. -/
theorem fraction_eq_of_text {x y : Numeral}
    (h : x.fractionText ++ x.exponentText = y.fractionText ++ y.exponentText) :
    x.fraction = y.fraction ∧ x.exponentText = y.exponentText := by
  unfold fractionText at h
  cases hfx : x.fraction with
  | none =>
    cases hfy : y.fraction with
    | none =>
      rw [hfx, hfy] at h
      exact ⟨rfl, h⟩
    | some ds =>
      rw [hfx, hfy] at h
      exact absurd h (point_notMem_exponentText x _)
  | some ds =>
    cases hfy : y.fraction with
    | none =>
      rw [hfx, hfy] at h
      exact absurd h.symm (point_notMem_exponentText y _)
    | some es =>
      rw [hfx, hfy, Option.elim_some, Option.elim_some, List.cons_append, List.cons_append] at h
      have htail := (List.cons.inj h).2
      have htake := congrArg (List.takeWhile Char.isDigit) htail
      have hdrop := congrArg (List.dropWhile Char.isDigit) htail
      rw [Scan.takeWhile_append (x.fraction_digits ds hfx) (isDigit_exponentText x),
        Scan.takeWhile_append (y.fraction_digits es hfy) (isDigit_exponentText y)] at htake
      rw [Scan.dropWhile_append (x.fraction_digits ds hfx) (isDigit_exponentText x),
        Scan.dropWhile_append (y.fraction_digits es hfy) (isDigit_exponentText y)] at hdrop
      exact ⟨by rw [htake], hdrop⟩

theorem exponent_eq_of_text {x y : Numeral} (h : x.exponentText = y.exponentText) :
    x.exponent = y.exponent := by
  unfold exponentText at h
  cases hex : x.exponent <;> cases hey : y.exponent <;> rw [hex, hey] at h
  · cases h
  · cases h
  · rw [Exponent.text_injective h]

/-- **The text of a numeral determines it.** -/
theorem text_injective {x y : Numeral} (h : x.text = y.text) : x = y := by
  have hminus := minus_eq_of_text h
  have hbody : x.whole ++ (x.fractionText ++ x.exponentText)
      = y.whole ++ (y.fractionText ++ y.exponentText) := by
    unfold text signText at h
    rw [hminus] at h
    exact List.append_cancel_left h
  have hwhole : x.whole = y.whole := by
    have htake := congrArg (List.takeWhile Char.isDigit) hbody
    rwa [Scan.takeWhile_append x.whole_digits (isDigit_fractionText x),
      Scan.takeWhile_append y.whole_digits (isDigit_fractionText y)] at htake
  rw [hwhole] at hbody
  obtain ⟨hfraction, htail⟩ := fraction_eq_of_text (List.append_cancel_left hbody)
  exact Numeral.ext hminus hwhole hfraction (exponent_eq_of_text htail)

/-- The digits of the numeral read as one number. -/
def significand (x : Numeral) : ℕ :=
  Nat.ofDigitChars 10 (x.whole ++ x.fraction.getD []) 0

/-- The power of ten the last digit counts. -/
def scale (x : Numeral) : ℤ :=
  x.exponent.elim 0 Exponent.value - (x.fraction.getD []).length

/-- What a sign multiplies with. -/
def sign (minus : Bool) : ℚ := if minus then -1 else 1

theorem sign_ne_zero (minus : Bool) : sign minus ≠ 0 := by
  cases minus <;> simp [sign]

/-- **The number of a numeral.** -/
def value (x : Numeral) : ℚ :=
  sign x.minus * x.significand * 10 ^ x.scale

/-- **The numerals of standard JSON**: a digit at least after a point, and in
an exponent. -/
def IsStandard (x : Numeral) : Prop :=
  x.fraction ≠ some [] ∧ ∀ e ∈ x.exponent, e.digits ≠ []

/-- **General notation** (`%g`): no zeros at the end of a
fraction, and an exponent with a sign that is not zero, after a number that is
not zero. -/
structure IsGeneral (x : Numeral) : Prop where
  /-- A point has digits after it. -/
  fraction_ne : ∀ ds ∈ x.fraction, ds ≠ []
  /-- The last of them is no zero. -/
  fraction_last : ∀ ds ∈ x.fraction, ds.getLast? ≠ some '0'
  /-- An exponent has its sign. -/
  sign_ne : ∀ e ∈ x.exponent, e.sign ≠ none
  /-- It is not zero. -/
  digits_ne_zero : ∀ e ∈ x.exponent, ∃ d ∈ e.digits, d ≠ '0'
  /-- With an exponent the first digit is no zero. -/
  whole_ne_zero : x.exponent ≠ none → x.whole ≠ ['0']

/-- **Fixed notation** (`%f`): a fraction, and no exponent. -/
structure IsFixed (x : Numeral) : Prop where
  /-- There are decimals. -/
  fraction_ne : ∃ ds, x.fraction = some ds ∧ ds ≠ []
  /-- And nothing after them. -/
  exponent_eq : x.exponent = none

/-- The digits of a number have no zero in front. -/
theorem toDigits_eq_zero_cons {n : ℕ} {ds : List Char} (h : Nat.toDigits 10 n = '0' :: ds) :
    ds = [] := by
  induction n using Nat.base_induction 10 (by decide) generalizing ds with
  | single m hm =>
    rw [Nat.toDigits_of_lt_base hm] at h
    exact (List.cons.inj h).2.symm
  | digit m k hk hm ih =>
    rw [← Nat.toDigits_append_toDigits (by decide) hm hk] at h
    obtain ⟨c, cs, hcs⟩ := List.exists_cons_of_ne_nil (Nat.toDigits_ne_nil (n := m) (b := 10))
    rw [hcs, List.cons_append] at h
    obtain ⟨rfl, -⟩ := List.cons.inj h
    obtain rfl := ih hcs
    have hzero : Nat.ofDigitChars 10 (Nat.toDigits 10 m) 0 = 0 := by
      rw [hcs]
      rfl
    rw [Nat.ofDigitChars_ten_toDigits] at hzero
    omega

/-- The numeral of an integer. -/
def ofInt (n : ℤ) : Numeral where
  minus := decide (n < 0)
  whole := Nat.toDigits 10 n.natAbs
  fraction := none
  exponent := none
  whole_digits := fun _ hc => Nat.isDigit_of_mem_toDigits (by decide) (by decide) hc
  whole_ne := Nat.toDigits_ne_nil
  whole_zero := fun _ h => toDigits_eq_zero_cons h
  fraction_digits := fun _ h => absurd h (Option.not_mem_none _)

/-- Two numerals with the same digits and different powers of ten. -/
theorem value_eq_iff_scale_eq {x y : Numeral} (hminus : x.minus = y.minus)
    (hdigits : x.significand = y.significand) (hne : x.significand ≠ 0) :
    x.value = y.value ↔ x.scale = y.scale := by
  have hsig : (y.significand : ℚ) ≠ 0 := Nat.cast_ne_zero.mpr (hdigits ▸ hne)
  unfold value
  rw [hminus, hdigits, mul_right_inj' (mul_ne_zero (sign_ne_zero _) hsig)]
  exact zpow_right_inj₀ (by norm_num) (by norm_num)

end Numeral
