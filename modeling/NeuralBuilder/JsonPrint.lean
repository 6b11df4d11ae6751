import NeuralBuilder.Library.Numeral

/-!
# How the engine writes a double

`dump_internal` prints a double with `snprintf` and cuts the zeros off the end
of what was printed, from the first one of the last run of zeros after the
point on. With `%f` these are zeros of the fraction. With `%.*g` the text may
have an exponent, and then they are zeros of the exponent: a number of the size
of `1.5e-10` is written as `1.5e-1`. When the number survives is
`value_trim_iff`.

The scan of the source remembers the position of the first zero of a run and
forgets it at the next other character. It is run here as the source has it
(`scanZeros`), and then said in terms of the parts of a numeral: which part the
zeros are the end of, and what they leave (`trimZeros_text`). A fraction that is
left without digits keeps one zero, as the source does after a point. The
results are about texts of numerals, whatever number they were printed for.
-/

/-! ## Zeros at the end -/

/-- The fraction of a text keeps its first digit. -/
def trimFraction : List Char → List Char
  | '0' :: ds => '0' :: stripZeros ds
  | ds => stripZeros ds

theorem isPrefix_trimFraction (ds : List Char) : trimFraction ds <+: ds := by
  unfold trimFraction
  split
  · exact (List.cons_prefix_cons).mpr ⟨rfl, isPrefix_stripZeros _⟩
  · exact isPrefix_stripZeros _

namespace Exponent

/-- An exponent without its zeros at the end. -/
def trim (e : Exponent) : Exponent :=
  if h : stripZeros e.digits = [] then e
  else { e with
    digits := stripZeros e.digits
    digits_ok := e.digits_ok.stripZeros
    digits_ne := fun _ => h }

end Exponent

namespace Numeral

/-- **What is left of a numeral**: after a point the zeros of the exponent are
cut off, and those of the fraction where there is no exponent. -/
def trim (x : Numeral) : Numeral :=
  { x with
    fraction := if x.exponent = none then x.fraction.map trimFraction else x.fraction
    exponent := if x.fraction = none then x.exponent else x.exponent.map Exponent.trim
    fraction_digits := by
      intro ds hds
      split at hds
      · obtain ⟨ds', hds', rfl⟩ := Option.map_eq_some_iff.mp hds
        exact (x.fraction_digits ds' hds').initial (isPrefix_trimFraction ds')
      · exact x.fraction_digits ds hds }

theorem trim_fraction (x : Numeral) :
    x.trim.fraction = if x.exponent = none then x.fraction.map trimFraction else x.fraction := rfl

theorem trim_exponent (x : Numeral) :
    x.trim.exponent = if x.fraction = none then x.exponent else x.exponent.map Exponent.trim := rfl

/-- A numeral with the first `k` digits of its fraction only. -/
def cutFraction (x : Numeral) (k : ℕ) : Numeral :=
  { x with
    fraction := x.fraction.map (List.take k)
    fraction_digits := by
      intro ds hds
      obtain ⟨ds', hds', rfl⟩ := Option.map_eq_some_iff.mp hds
      exact (x.fraction_digits ds' hds').initial (List.take_prefix k ds') }

theorem cutFraction_fraction (x : Numeral) (k : ℕ) :
    (x.cutFraction k).fraction = x.fraction.map (List.take k) := rfl

theorem IsFixed.cutFraction {x : Numeral} (h : x.IsFixed) {k : ℕ} (hk : k ≠ 0) :
    (x.cutFraction k).IsFixed := by
  obtain ⟨ds, hds, hne⟩ := h.fraction_ne
  refine ⟨⟨ds.take k, ?_, ?_⟩, h.exponent_eq⟩
  · rw [cutFraction_fraction, hds, Option.map_some]
  · rw [Ne, List.take_eq_nil_iff, not_or]
    exact ⟨hk, hne⟩

/-- **Where a numeral is cut behind its point**, digits of its fraction are lost
and it stays a numeral. -/
theorem IsFixed.text_take {x : Numeral} (h : x.IsFixed) (k : ℕ) :
    x.text.take (x.signText.length + x.whole.length + 1 + k) = (x.cutFraction k).text := by
  obtain ⟨ds, hds, -⟩ := h.fraction_ne
  have hcut : (x.cutFraction k).text = x.signText ++ (x.whole ++ '.' :: ds.take k) := by
    simp only [text, fractionText, exponentText, signText, Numeral.cutFraction, hds, h.exponent_eq,
      Option.map_some, Option.elim_some, Option.elim_none, List.append_nil]
  have htext : x.text = x.signText ++ (x.whole ++ '.' :: ds) := by
    simp only [text, fractionText, exponentText, hds, h.exponent_eq, Option.elim_some,
      Option.elim_none, List.append_nil]
  rw [hcut, htext, show x.signText.length + x.whole.length + 1 + k
      = x.signText.length + (x.whole.length + (k + 1)) by omega,
    List.take_length_add_append, List.take_length_add_append, List.take_succ_cons]

end Numeral

namespace JsonDump

/-! ## The scan -/

/-- `f_state`. -/
inductive FState
  | start
  | decp
  | zero

/-- **The loop over what was printed**, from a position on:
`pos_first_trailing_0` after it. -/
def scanZeros : FState → ℕ → Option ℕ → List Char → Option ℕ
  | _, _, pos, [] => pos
  | .start, p, pos, '.' :: '0' :: s => scanZeros .decp (p + 2) pos s
  | .start, p, pos, ch :: s => scanZeros (if ch = '.' then .decp else .start) (p + 1) pos s
  | .decp, p, pos, ch :: s =>
    if ch = '0' then scanZeros .zero (p + 1) (some p) s else scanZeros .decp (p + 1) pos s
  | .zero, p, pos, ch :: s =>
    if ch = '0' then scanZeros .zero (p + 1) pos s else scanZeros .decp (p + 1) none s

/-- **What `dump_internal` makes of the text of a double.** -/
def trimZeros (outbuf : List Char) : List Char :=
  match scanZeros .start 0 none outbuf with
  | none => outbuf
  | some pos => outbuf.take pos

example : trimZeros ['1', '.', '5', 'e', '-', '1', '0'] = ['1', '.', '5', 'e', '-', '1'] := rfl

/-- After the point the scan finds where the zeros at the end start. -/
theorem scanZeros_decp (p : ℕ) (s : List Char) :
    (scanZeros .decp p none s
        = if stripZeros s = s then none else some (p + (stripZeros s).length))
      ∧ ∀ q, scanZeros .zero p (some q) s
        = if stripZeros s = [] then some q
          else if stripZeros s = s then none else some (p + (stripZeros s).length) := by
  induction s generalizing p with
  | nil => exact ⟨rfl, fun _ => rfl⟩
  | cons c s ih =>
    obtain ⟨hdecp, hzero⟩ := ih (p + 1)
    by_cases hc : c = '0'
    · subst hc
      -- the run of zeros starts here, or goes on
      have hrun : ∀ q, scanZeros .zero (p + 1) (some q) s
          = if stripZeros ('0' :: s) = [] then some q
            else if stripZeros ('0' :: s) = '0' :: s then none
            else some (p + (stripZeros ('0' :: s)).length) := by
        intro q
        rw [hzero, stripZeros_cons]
        by_cases hnil : stripZeros s = []
        · simp [hnil]
        · simp [hnil, Nat.add_assoc, Nat.add_comm 1]
      refine ⟨?_, fun q => ?_⟩
      · rw [scanZeros, if_pos rfl, hrun]
        by_cases hnil : stripZeros ('0' :: s) = []
        · rw [if_pos hnil, hnil, if_neg (by simp)]
          rfl
        · rw [if_neg hnil]
      · rw [scanZeros, if_pos rfl, hrun]
    · have hstrip : stripZeros (c :: s) = c :: stripZeros s := by
        rw [stripZeros_cons, if_neg fun h => hc h.2]
      have hrun : scanZeros .decp (p + 1) none s
          = if stripZeros (c :: s) = c :: s then none
            else some (p + (stripZeros (c :: s)).length) := by
        rw [hdecp, hstrip]
        simp [Nat.add_assoc, Nat.add_comm 1]
      refine ⟨?_, fun q => ?_⟩
      · rw [scanZeros, if_neg hc, hrun]
      · rw [scanZeros, if_neg hc, hrun, hstrip, if_neg (List.cons_ne_nil _ _)]

/-- Before a point. -/
theorem scanZeros_start {a : List Char} (h : '.' ∉ a) (p : ℕ) (b : List Char) :
    scanZeros .start p none (a ++ b) = scanZeros .start (p + a.length) none b := by
  induction a generalizing p with
  | nil => rfl
  | cons c a ih =>
    rw [List.mem_cons, not_or] at h
    have hstep : scanZeros .start p none (c :: (a ++ b))
        = scanZeros .start (p + 1) none (a ++ b) := by
      rw [scanZeros, if_neg (Ne.symm h.1)]
      exact fun _ heq => absurd heq (Ne.symm h.1)
    rw [List.cons_append, hstep, ih h.2, List.length_cons, Nat.add_assoc, Nat.add_comm 1]

/-- **A text without a point is kept.** -/
theorem trimZeros_of_notMem {s : List Char} (h : '.' ∉ s) : trimZeros s = s := by
  have hscan := scanZeros_start h 0 []
  rw [List.append_nil] at hscan
  rw [trimZeros, hscan]
  rfl

/-- Once the scan is past a front, the zeros at the end are cut off. -/
theorem trimZeros_of_decp {front s : List Char}
    (h : scanZeros .start 0 none (front ++ s) = scanZeros .decp front.length none s) :
    trimZeros (front ++ s) = front ++ stripZeros s := by
  rw [trimZeros, h, (scanZeros_decp _ s).1]
  by_cases hself : stripZeros s = s
  · rw [if_pos hself, hself]
  · rw [if_neg hself]
    simp only
    rw [List.take_length_add_append, ← List.prefix_iff_eq_take.mp (isPrefix_stripZeros s)]

/-- **After a point the zeros at the end are cut off**, but not the first
digit. -/
theorem trimZeros_point {a : List Char} (h : '.' ∉ a) (b : List Char) :
    trimZeros (a ++ '.' :: b) = a ++ '.' :: trimFraction b := by
  by_cases hzero : ∃ b', b = '0' :: b'
  · obtain ⟨b', rfl⟩ := hzero
    have hscan : scanZeros .start 0 none ((a ++ ['.', '0']) ++ b')
        = scanZeros .decp (a ++ ['.', '0']).length none b' := by
      rw [List.append_assoc, scanZeros_start h, List.length_append, Nat.zero_add]
      rfl
    have htrim := trimZeros_of_decp hscan
    rw [List.append_assoc, List.append_assoc] at htrim
    exact htrim
  · have hscan : scanZeros .start 0 none ((a ++ ['.']) ++ b)
        = scanZeros .decp (a ++ ['.']).length none b := by
      rw [List.append_assoc, scanZeros_start h, List.length_append, Nat.zero_add,
        List.singleton_append, scanZeros, if_pos rfl]
      · rfl
      · exact fun s _ heq => hzero ⟨s, heq⟩
    have htrim := trimZeros_of_decp hscan
    rw [List.append_assoc, List.append_assoc] at htrim
    rw [trimFraction]
    · exact htrim
    · exact fun s heq => hzero ⟨s, heq⟩

/-! ## Numerals -/

theorem point_notMem_of_allDigits {ds : List Char} (h : AllDigits ds) : '.' ∉ ds :=
  fun hmem => absurd (h _ hmem) (by decide)

theorem point_notMem_exponent (e : Exponent) : '.' ∉ e.text := by
  rw [Exponent.text, List.mem_cons, List.mem_append, Option.mem_toList]
  rintro (hmark | hsign | hdigits)
  · rcases e.mark_ok with h | h <;> rw [h] at hmark <;> exact absurd hmark (by decide)
  · rcases e.sign_ok _ hsign with h | h <;> exact absurd h (by decide)
  · exact point_notMem_of_allDigits e.digits_ok hdigits

/-- The sign and the digits before the point. -/
theorem point_notMem_front (x : Numeral) : '.' ∉ x.signText ++ x.whole := by
  rw [List.mem_append, not_or]
  refine ⟨?_, point_notMem_of_allDigits x.whole_digits⟩
  unfold Numeral.signText
  split <;> decide

/-- An exponent with a digit that is not zero loses the zeros at its end. -/
theorem stripZeros_exponent {e : Exponent} (h : ∃ d ∈ e.digits, d ≠ '0') (s : List Char) :
    stripZeros (s ++ e.text) = s ++ e.trim.text := by
  have hne : stripZeros e.digits ≠ [] := by
    obtain ⟨d, hd, hzero⟩ := h
    exact fun hnil => hzero (stripZeros_eq_nil_iff.mp hnil d hd)
  have htext : e.trim.text = e.mark :: (e.sign.toList ++ stripZeros e.digits) := by
    rw [Exponent.trim, dif_neg hne]
    rfl
  have hsplit : s ++ e.text = (s ++ e.mark :: e.sign.toList) ++ e.digits := by
    rw [Exponent.text, List.append_assoc, List.cons_append]
  rw [hsplit, stripZeros_append_of_ne hne, htext, List.append_assoc, List.cons_append]

/-- In front of an exponent a fraction keeps its zeros. -/
theorem trimFraction_exponent {e : Exponent} (h : ∃ d ∈ e.digits, d ≠ '0') (ds : List Char) :
    trimFraction (ds ++ e.text) = ds ++ e.trim.text := by
  cases ds with
  | nil =>
    have hmark : e.mark ≠ '0' := by
      rcases e.mark_ok with h | h <;> rw [h] <;> decide
    have hhead : trimFraction e.text = stripZeros e.text := by
      rw [Exponent.text, trimFraction]
      exact fun _ heq => hmark (List.cons.inj heq).1
    rw [List.nil_append, hhead]
    exact stripZeros_exponent h []
  | cons c ds =>
    by_cases hc : c = '0'
    · rw [hc, List.cons_append, trimFraction, stripZeros_exponent h]
      rfl
    · have hhead : trimFraction ((c :: ds) ++ e.text) = stripZeros ((c :: ds) ++ e.text) := by
        rw [List.cons_append, trimFraction]
        exact fun _ heq => hc (List.cons.inj heq).1
      rw [hhead, stripZeros_exponent h]

/-- **The text of a numeral is cut to the text of a numeral.** -/
theorem trimZeros_text {x : Numeral} (h : ∀ e ∈ x.exponent, ∃ d ∈ e.digits, d ≠ '0') :
    trimZeros x.text = x.trim.text := by
  have hfront := point_notMem_front x
  unfold Numeral.text
  cases hfraction : x.fraction with
  | none =>
    have htrim : x.trim.text = x.text := by
      simp only [Numeral.text, Numeral.signText, Numeral.fractionText, Numeral.exponentText,
        Numeral.trim, hfraction, if_true, Option.map_none, ite_self]
    have hpoint : '.' ∉ x.exponentText := by
      unfold Numeral.exponentText
      cases x.exponent with
      | none => exact List.not_mem_nil
      | some e => exact point_notMem_exponent e
    have hnone : x.fractionText = [] := by
      rw [Numeral.fractionText, hfraction]
      rfl
    rw [← Numeral.text, ← Numeral.text, htrim, trimZeros_of_notMem]
    rw [Numeral.text, hnone, List.nil_append, ← List.append_assoc, List.mem_append, not_or]
    exact ⟨hfront, hpoint⟩
  | some ds =>
    have hsome : x.fractionText = '.' :: ds := by
      rw [Numeral.fractionText, hfraction]
      rfl
    rw [hsome, ← List.append_assoc, List.cons_append, trimZeros_point hfront]
    cases hexponent : x.exponent with
    | none =>
      simp only [Numeral.exponentText, Numeral.fractionText, Numeral.signText, Numeral.trim,
        hfraction, hexponent, if_true, Option.elim_none, Option.map_none, Option.map_some,
        Option.elim_some, List.append_nil, List.append_assoc, reduceCtorEq, if_false]
    | some e =>
      simp only [Numeral.exponentText, Numeral.fractionText, Numeral.signText, Numeral.trim,
        hfraction, hexponent, Option.elim_some, Option.map_some, reduceCtorEq, if_false,
        List.append_assoc, trimFraction_exponent (h e hexponent), List.cons_append]

/-! ## Which numbers survive -/

/-- Zeros at the end of a fraction do not count. -/
theorem value_trim_of_exponent_eq {x : Numeral} (h : x.exponent = none) :
    x.trim.value = x.value := by
  cases hfraction : x.fraction with
  | none =>
    simp only [Numeral.value, Numeral.significand, Numeral.scale, Numeral.trim, hfraction, h,
      if_true, Option.map_none]
  | some ds =>
    -- the fraction is what was kept of it and some zeros
    obtain ⟨k, hk⟩ : ∃ k, ds = trimFraction ds ++ List.replicate k '0' := by
      unfold trimFraction
      split
      · next ds =>
        obtain ⟨k, hk⟩ := exists_replicate ds
        exact ⟨k, by rw [List.cons_append, ← hk]⟩
      · exact exists_replicate ds
    have hlength : ds.length = (trimFraction ds).length + k := by
      conv_lhs => rw [hk]
      rw [List.length_append, List.length_replicate]
    have hdigits : Nat.ofDigitChars 10 (x.whole ++ ds) 0
        = 10 ^ k * Nat.ofDigitChars 10 (x.whole ++ trimFraction ds) 0 := by
      conv_lhs => rw [hk]
      rw [← List.append_assoc, Nat.ofDigitChars_append, Nat.ofDigitChars_replicate_zero]
    have hten : (10 : ℚ) ≠ 0 := by norm_num
    simp only [Numeral.value, Numeral.significand, Numeral.scale, Numeral.trim, hfraction, h,
      if_true, Option.map_some, Option.getD_some, Option.elim_none, hlength, hdigits, zero_sub,
      reduceCtorEq, if_false, Option.map_none, Nat.cast_mul, Nat.cast_pow, Nat.cast_ofNat,
      Nat.cast_add, neg_add, zpow_add₀ hten, zpow_neg, zpow_natCast]
    field_simp

/-- A digit in front that is not zero. -/
theorem significand_ne_zero {x : Numeral} (h : x.whole ≠ ['0']) : x.significand ≠ 0 := by
  obtain ⟨c, ds, hwhole⟩ := List.exists_cons_of_ne_nil x.whole_ne
  have hc : c ≠ '0' := by
    rintro rfl
    exact h (hwhole.trans (by rw [x.whole_zero ds hwhole]))
  have hfraction : AllDigits (x.fraction.getD []) := by
    cases hfraction : x.fraction with
    | none => exact AllDigits.nil
    | some ds => exact x.fraction_digits ds hfraction
  have hall : AllDigits (x.whole ++ x.fraction.getD []) := by
    intro d hd
    rcases List.mem_append.mp hd with hd | hd
    · exact x.whole_digits d hd
    · exact hfraction d hd
  exact hall.ofDigitChars_ne_zero
    ⟨c, List.mem_append_left _ (hwhole ▸ List.mem_cons_self), hc⟩

/-- An exponent that loses a zero is another one. -/
theorem value_exponent_trim_iff {e : Exponent} (h : ∃ d ∈ e.digits, d ≠ '0') :
    e.trim.value = e.value ↔ e.digits.getLast? ≠ some '0' := by
  have hne : stripZeros e.digits ≠ [] := by
    obtain ⟨d, hd, hzero⟩ := h
    exact fun hnil => hzero (stripZeros_eq_nil_iff.mp hnil d hd)
  have htrim : e.trim.value = if e.sign = some '-'
      then -(Nat.ofDigitChars 10 (stripZeros e.digits) 0 : ℤ)
      else (Nat.ofDigitChars 10 (stripZeros e.digits) 0 : ℤ) := by
    rw [Exponent.trim, dif_neg hne]
    rfl
  rw [← stripZeros_eq_self_iff]
  constructor
  · intro heq
    have hdigits :
        Nat.ofDigitChars 10 (stripZeros e.digits) 0 = Nat.ofDigitChars 10 e.digits 0 := by
      rw [htrim, Exponent.value] at heq
      split at heq <;> omega
    obtain ⟨k, hk⟩ := exists_replicate e.digits
    have hpos := e.digits_ok.ofDigitChars_ne_zero h
    rw [hk, Nat.ofDigitChars_append, Nat.ofDigitChars_replicate_zero] at hpos
    have hfull : Nat.ofDigitChars 10 e.digits 0
        = 10 ^ k * Nat.ofDigitChars 10 (stripZeros e.digits) 0 := by
      conv_lhs => rw [hk]
      rw [Nat.ofDigitChars_append, Nat.ofDigitChars_replicate_zero]
    have hone : 10 ^ k = 1 := by
      have hstrip : Nat.ofDigitChars 10 (stripZeros e.digits) 0 ≠ 0 :=
        fun hzero => hpos (by rw [hzero, Nat.mul_zero])
      exact Nat.eq_of_mul_eq_mul_right (Nat.pos_of_ne_zero hstrip) (by omega)
    have hzero : k = 0 := by
      by_contra hk
      exact absurd hone (Nat.ne_of_gt (Nat.one_lt_pow hk (by decide)))
    rw [hzero, List.replicate_zero, List.append_nil] at hk
    exact hk.symm
  · intro hself
    rw [htrim, hself]
    rfl

theorem trimFraction_eq_self {ds : List Char} (hne : ds ≠ []) (h : ds.getLast? ≠ some '0') :
    trimFraction ds = ds := by
  unfold trimFraction
  split
  · next ds =>
    cases ds with
    | nil => exact absurd rfl h
    | cons d ds => rw [stripZeros_eq_self_iff.mpr (by simpa using h)]
  · exact stripZeros_eq_self_iff.mpr h

/-- **Which numbers survive the cut**: those without a point, and those whose
exponent does not end with a zero. -/
theorem value_trim_iff {x : Numeral} (h : x.IsGeneral) :
    x.trim.value = x.value
      ↔ x.fraction = none ∨ ∀ e ∈ x.exponent, e.digits.getLast? ≠ some '0' := by
  cases hexponent : x.exponent with
  | none =>
    exact iff_of_true (value_trim_of_exponent_eq hexponent)
      (.inr fun e he => absurd he (Option.not_mem_none e))
  | some e =>
    cases hfraction : x.fraction with
    | none =>
      refine iff_of_true ?_ (.inl rfl)
      simp only [Numeral.value, Numeral.significand, Numeral.scale, Numeral.trim, hfraction,
        hexponent, if_true, Option.map_none, ite_self]
    | some ds =>
      have hsignificand : x.trim.significand = x.significand := by
        simp only [Numeral.significand, Numeral.trim, hexponent, reduceCtorEq, if_false]
      have hne := significand_ne_zero (h.whole_ne_zero (by rw [hexponent]; simp))
      have hscale : x.trim.scale = x.scale ↔ e.trim.value = e.value := by
        simp only [Numeral.scale, Numeral.trim, hfraction, hexponent, reduceCtorEq, if_false,
          Option.map_some, Option.elim_some, sub_left_inj]
      rw [Numeral.value_eq_iff_scale_eq (show x.trim.minus = x.minus from rfl) hsignificand
        (hsignificand ▸ hne), hscale,
        value_exponent_trim_iff (h.digits_ne_zero e hexponent)]
      simp

end JsonDump
