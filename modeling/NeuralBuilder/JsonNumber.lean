import NeuralBuilder.Library.Numeral

/-!
# The numbers of a message

`decode_number` of the web framework scans the text of a number with a state
machine. What it takes for a number is not quite what standard JSON does: the
digits after a point or in a signed exponent may be missing, and a zero is not
followed by an exponent (`decodeNumber_eq_some_iff`). The text ends where a
character comes that is in no number.

The states of the machine are those of the source, with the character they wait
for. Reading is proved along the parts of a numeral, with what follows as a
hypothesis on one character; that nothing else is read, by taking the accepted
text apart state by state (`decodeNumber_sound`). Both meet in
`decodeNumber_eq_some_iff`, from which the modules on lists and objects work.
-/

namespace JsonLoad

/-- `NumberParsingState`. -/
inductive NumberParsingState
  | minus
  | afterMinus
  | zeroFirst
  | digits
  | digitsAfterPoints
  | e
  | digitsAfterE
  | invalid
  deriving DecidableEq

/-- The cases '1' to '9' of the switch. -/
def isOneToNine (c : Char) : Bool := '1' ≤ c && c ≤ '9'

namespace NumberParsingState

def onZero : NumberParsingState → NumberParsingState
  | minus | afterMinus => zeroFirst
  | digits => digits
  | digitsAfterPoints => digitsAfterPoints
  | e | digitsAfterE => digitsAfterE
  | zeroFirst | invalid => invalid

def onDigit : NumberParsingState → NumberParsingState
  | minus | afterMinus | digits => digits
  | digitsAfterPoints => digitsAfterPoints
  | e | digitsAfterE => digitsAfterE
  | zeroFirst | invalid => invalid

def onPoint : NumberParsingState → NumberParsingState
  | zeroFirst | digits => digitsAfterPoints
  | _ => invalid

def onMinus : NumberParsingState → NumberParsingState
  | minus => afterMinus
  | e => digitsAfterE
  | _ => invalid

def onPlus : NumberParsingState → NumberParsingState
  | e => digitsAfterE
  | _ => invalid

def onE : NumberParsingState → NumberParsingState
  | digits | digitsAfterPoints => e
  | _ => invalid

/-- The switch on a character; none is its default case. -/
def next (state : NumberParsingState) (c : Char) : Option NumberParsingState :=
  if c = '0' then some state.onZero
  else if isOneToNine c then some state.onDigit
  else if c = '.' then some state.onPoint
  else if c = '-' then some state.onMinus
  else if c = '+' then some state.onPlus
  else if c = 'e' ∨ c = 'E' then some state.onE
  else none

/-- Whether a number may end in the state. -/
def isFinal : NumberParsingState → Bool
  | zeroFirst | digits | digitsAfterPoints | digitsAfterE => true
  | _ => false

end NumberParsingState

open NumberParsingState

/-- **`decode_number`**: the text of the number and what follows it. After one
of the digits 1 to 9 the source runs over the digits that follow. -/
def decodeNumber (state : NumberParsingState) (data : List Char) :
    Option (List Char × List Char) :=
  match data with
  | [] => if state.isFinal then some ([], []) else none
  | c :: data =>
    match state.next c with
    | none => if state.isFinal then some ([], c :: data) else none
    | some .invalid => none
    | some state =>
      let run := if isOneToNine c then data.takeWhile Char.isDigit else []
      (decodeNumber state (data.drop run.length)).map fun (text, rest) => (c :: (run ++ text), rest)
termination_by data.length
decreasing_by
  simp only [List.length_drop, List.length_cons]
  omega

/-- **What the reader takes for a number**: no exponent directly after a zero. -/
def IsAccepted (x : Numeral) : Prop :=
  x.whole = ['0'] → x.fraction = none → x.exponent = none

/-! ## Characters -/

theorem isDigit_iff {c : Char} : c.isDigit = true ↔ c = '0' ∨ isOneToNine c = true := by
  unfold isOneToNine
  simp only [Char.isDigit, ge_iff_le, Bool.and_eq_true, decide_eq_true_eq, Char.le_def,
    UInt32.le_iff_toNat_le, Char.ext_iff, ← UInt32.toNat_inj]
  have h0 : ('0' : Char).val.toNat = 48 := rfl
  have h1 : ('1' : Char).val.toNat = 49 := rfl
  have h9 : ('9' : Char).val.toNat = 57 := rfl
  omega

theorem next_eq_none_iff {state : NumberParsingState} {c : Char} :
    state.next c = none ↔ isNumberChar c = false := by
  unfold NumberParsingState.next isNumberChar
  by_cases hdigit : c.isDigit = true
  · rcases isDigit_iff.mp hdigit with rfl | hnine
    · simp
    · by_cases h0 : c = '0'
      · simp [h0]
      · simp [h0, hnine, hdigit]
  · have h0 : c ≠ '0' := fun h => hdigit (isDigit_iff.mpr (.inl h))
    have hnine : isOneToNine c = false := by
      by_contra h
      exact hdigit (isDigit_iff.mpr (.inr (Bool.not_eq_false _ ▸ h)))
    simp only [h0, hnine, hdigit, if_false, Bool.false_eq_true, Bool.false_or]
    split_ifs with hpoint hminus hplus he
    · simp [hpoint]
    · simp [hminus]
    · simp [hplus]
    · rcases he with rfl | rfl <;> simp
    · rw [not_or] at he
      simp [hpoint, hminus, hplus, he]

/-! ## The machine -/

/-- What is put in front of the text of a number. -/
def prepend (s : List Char) : List Char × List Char → List Char × List Char :=
  Prod.map (s ++ ·) id

theorem decodeNumber_stop {state : NumberParsingState} {rest : List Char} (h : Stops rest) :
    decodeNumber state rest = if state.isFinal then some ([], rest) else none := by
  rw [decodeNumber.eq_def]
  cases rest with
  | nil => rfl
  | cons c rest => simp only [next_eq_none_iff.mpr (h c rfl)]

/-- A character that is no digit from 1 to 9. -/
theorem decodeNumber_cons {state state' : NumberParsingState} {c : Char} (data : List Char)
    (hc : isOneToNine c = false) (hnext : state.next c = some state') (hvalid : state' ≠ .invalid) :
    decodeNumber state (c :: data) = (decodeNumber state' data).map (prepend [c]) := by
  rw [decodeNumber.eq_def]
  cases state' with
  | invalid => exact absurd rfl hvalid
  | _ =>
    simp only [hnext, hc, Bool.false_eq_true, if_false, List.length_nil, List.drop_zero]
    rfl

theorem decodeNumber_invalid {state : NumberParsingState} {c : Char} (data : List Char)
    (hnext : state.next c = some .invalid) : decodeNumber state (c :: data) = none := by
  rw [decodeNumber.eq_def]
  simp only [hnext]

/-- **A run of digits** that the machine goes on with in the same state. -/
theorem decodeNumber_digits {state state' : NumberParsingState} {c : Char} {ds data : List Char}
    (hc : isOneToNine c = true) (hds : AllDigits ds) (hdata : ∀ c ∈ data.head?, c.isDigit = false)
    (hstate : state.onDigit = state') (hvalid : state' ≠ .invalid) :
    decodeNumber state (c :: (ds ++ data))
      = (decodeNumber state' data).map (prepend (c :: ds)) := by
  have hzero : c ≠ '0' := by
    rintro rfl
    exact absurd hc (by decide)
  have hnext : state.next c = some state' := by
    rw [NumberParsingState.next, if_neg hzero, if_pos hc, hstate]
  have hrun : (ds ++ data).takeWhile Char.isDigit = ds := Scan.takeWhile_append hds hdata
  rw [decodeNumber.eq_def]
  cases state' with
  | invalid => exact absurd rfl hvalid
  | _ =>
    simp only [hnext, hc, if_true, hrun, List.drop_left]
    rfl

/-- A run of digits in a state that they do not change. -/
theorem decodeNumber_run {state : NumberParsingState} (hdigit : state.onDigit = state)
    (hzero : state.onZero = state) (hvalid : state ≠ .invalid) {ds data : List Char}
    (hds : AllDigits ds) (hdata : ∀ c ∈ data.head?, c.isDigit = false) :
    decodeNumber state (ds ++ data) = (decodeNumber state data).map (prepend ds) := by
  induction ds with
  | nil =>
    have hid : prepend [] = id := rfl
    rw [hid, Option.map_id]
    rfl
  | cons c ds ih =>
    have htail : AllDigits ds := fun d hd => hds d (List.mem_cons_of_mem c hd)
    rcases isDigit_iff.mp (hds c List.mem_cons_self) with rfl | hc
    · have hnext : state.next '0' = some state := by
        rw [NumberParsingState.next, if_pos rfl, hzero]
      rw [List.cons_append, decodeNumber_cons _ (by decide) hnext hvalid, ih htail, Option.map_map]
      rfl
    · exact decodeNumber_digits hc htail hdata hdigit hvalid

/-- Digits, one at least, that lead to such a state. -/
theorem decodeNumber_enter {state state' : NumberParsingState} (hstate : state.onDigit = state')
    (hstate' : state.onZero = state') (hdigit : state'.onDigit = state')
    (hzero : state'.onZero = state') (hvalid : state' ≠ .invalid) {ds data : List Char}
    (hds : AllDigits ds) (hne : ds ≠ []) (hdata : ∀ c ∈ data.head?, c.isDigit = false) :
    decodeNumber state (ds ++ data) = (decodeNumber state' data).map (prepend ds) := by
  cases ds with
  | nil => exact absurd rfl hne
  | cons c ds =>
    have htail : AllDigits ds := fun d hd => hds d (List.mem_cons_of_mem c hd)
    rcases isDigit_iff.mp (hds c List.mem_cons_self) with rfl | hc
    · have hnext : state.next '0' = some state' := by
        rw [NumberParsingState.next, if_pos rfl, hstate']
      rw [List.cons_append, decodeNumber_cons _ (by decide) hnext hvalid,
        decodeNumber_run hdigit hzero hvalid htail hdata, Option.map_map]
      rfl
    · exact decodeNumber_digits hc htail hdata hstate hvalid

/-! ## Every accepted numeral is read -/

section Complete

variable {rest : List Char}

theorem decodeNumber_exponent {state : NumberParsingState} (hstate : state.onE = .e)
    (e : Exponent) (hrest : Stops rest) :
    decodeNumber state (e.text ++ rest) = some (e.text, rest) := by
  have hmark : state.next e.mark = some .e := by
    rcases e.mark_ok with h | h <;> rw [h, ← hstate] <;> rfl
  have hnine : isOneToNine e.mark = false := by
    rcases e.mark_ok with h | h <;> rw [h] <;> rfl
  have hdata := isDigit_of_stops hrest
  rw [Exponent.text, List.cons_append, decodeNumber_cons _ hnine hmark (by decide)]
  cases hsign : e.sign with
  | none =>
    rw [Option.toList_none, List.nil_append,
      decodeNumber_enter (show NumberParsingState.e.onDigit = .digitsAfterE from rfl) rfl rfl rfl
        (by decide) e.digits_ok (e.digits_ne hsign) hdata, decodeNumber_stop hrest]
    simp [prepend, isFinal]
  | some c =>
    have hc : NumberParsingState.e.next c = some .digitsAfterE ∧ isOneToNine c = false := by
      rcases e.sign_ok c hsign with rfl | rfl <;> exact ⟨rfl, rfl⟩
    rw [Option.toList_some, List.singleton_append, List.cons_append,
      decodeNumber_cons _ hc.2 hc.1 (by decide),
      decodeNumber_run rfl rfl (by decide) e.digits_ok hdata, decodeNumber_stop hrest]
    simp [prepend, isFinal]

theorem decodeNumber_exponentText {state : NumberParsingState} (hstate : state.onE = .e)
    (hfinal : state.isFinal = true) (x : Numeral) (hrest : Stops rest) :
    decodeNumber state (x.exponentText ++ rest) = some (x.exponentText, rest) := by
  unfold Numeral.exponentText
  cases x.exponent with
  | none => exact (decodeNumber_stop hrest).trans (if_pos hfinal)
  | some e => exact decodeNumber_exponent hstate e hrest

/-- An exponent does not start with a digit. -/
theorem isDigit_exponentText (x : Numeral) (hrest : Stops rest) :
    ∀ c ∈ (x.exponentText ++ rest).head?, c.isDigit = false :=
  forall_head?_append x.isDigit_exponentText (isDigit_of_stops hrest)

theorem decodeNumber_point {state : NumberParsingState}
    (hstate : state.onPoint = .digitsAfterPoints) {x : Numeral} {ds : List Char}
    (hx : x.fraction = some ds) (hrest : Stops rest) :
    decodeNumber state (x.fractionText ++ (x.exponentText ++ rest))
      = some (x.fractionText ++ x.exponentText, rest) := by
  have hnext : state.next '.' = some .digitsAfterPoints := by
    rw [← hstate]
    rfl
  unfold Numeral.fractionText
  rw [hx, Option.elim_some, List.cons_append, decodeNumber_cons _ (by decide) hnext (by decide),
    decodeNumber_run rfl rfl (by decide) (x.fraction_digits ds hx) (isDigit_exponentText x hrest),
    decodeNumber_exponentText rfl rfl x hrest]
  simp [prepend]

theorem isDigit_fractionText (x : Numeral) (hrest : Stops rest) :
    ∀ c ∈ (x.fractionText ++ (x.exponentText ++ rest)).head?, c.isDigit = false := by
  rw [← List.append_assoc]
  exact forall_head?_append x.isDigit_fractionText (isDigit_of_stops hrest)

/-- The digits before the point, and the rest of the numeral. -/
theorem decodeNumber_whole {state : NumberParsingState} (hdigit : state.onDigit = .digits)
    (hzero : state.onZero = .zeroFirst) {x : Numeral} (hx : IsAccepted x) (hrest : Stops rest) :
    decodeNumber state (x.whole ++ (x.fractionText ++ (x.exponentText ++ rest)))
      = some (x.whole ++ (x.fractionText ++ x.exponentText), rest) := by
  obtain ⟨c, ds, hwhole⟩ := List.exists_cons_of_ne_nil x.whole_ne
  have hc : c.isDigit = true := x.whole_digits c (hwhole ▸ List.mem_cons_self)
  rcases isDigit_iff.mp hc with rfl | hnine
  · obtain rfl := x.whole_zero ds hwhole
    have hnext : state.next '0' = some .zeroFirst := by
      rw [← hzero]
      rfl
    rw [hwhole, List.singleton_append, decodeNumber_cons _ (by decide) hnext (by decide)]
    cases hfraction : x.fraction with
    | none =>
      have htext : x.fractionText = [] ∧ x.exponentText = [] := by
        rw [Numeral.fractionText, Numeral.exponentText, hfraction, hx hwhole hfraction]
        exact ⟨rfl, rfl⟩
      rw [htext.1, htext.2, List.nil_append, List.nil_append, decodeNumber_stop hrest]
      simp [prepend, isFinal]
    | some fraction =>
      rw [decodeNumber_point rfl hfraction hrest]
      simp [prepend]
  · have hds : AllDigits ds := fun d hd => x.whole_digits d (hwhole ▸ List.mem_cons_of_mem c hd)
    rw [hwhole, List.cons_append,
      decodeNumber_digits hnine hds (isDigit_fractionText x hrest) hdigit (by decide)]
    cases hfraction : x.fraction with
    | none =>
      have htext : x.fractionText = [] := by
        rw [Numeral.fractionText, hfraction]
        rfl
      rw [htext, List.nil_append, decodeNumber_exponentText rfl rfl x hrest]
      simp [prepend]
    | some fraction =>
      rw [decodeNumber_point rfl hfraction hrest]
      simp [prepend]

/-- **An accepted numeral is read to its end.** -/
theorem decodeNumber_text {x : Numeral} (hx : IsAccepted x) (hrest : Stops rest) :
    decodeNumber .minus (x.text ++ rest) = some (x.text, rest) := by
  unfold Numeral.text Numeral.signText
  cases x.minus with
  | false =>
    simp only [Bool.false_eq_true, if_false, List.nil_append, List.append_assoc]
    exact decodeNumber_whole rfl rfl hx hrest
  | true =>
    simp only [if_true, List.cons_append, List.nil_append, List.append_assoc]
    rw [decodeNumber_cons _ (by decide)
        (show NumberParsingState.minus.next '-' = some .afterMinus from rfl) (by decide),
      decodeNumber_whole rfl rfl hx hrest]
    simp [prepend]

end Complete

/-! ## Nothing else is read -/

section Sound

variable {data text rest : List Char}

theorem isDigit_dropWhile (data : List Char) :
    ∀ c ∈ (data.dropWhile Char.isDigit).head?, c.isDigit = false := by
  intro c hc
  have hhead := List.head?_dropWhile_not Char.isDigit data
  rw [Option.mem_def] at hc
  rw [hc] at hhead
  exact hhead

theorem allDigits_takeWhile (data : List Char) : AllDigits (data.takeWhile Char.isDigit) :=
  fun _ hc => List.mem_takeWhile_imp hc

theorem exists_of_map_prepend {s : List Char} {o : Option (List Char × List Char)}
    (h : o.map (prepend s) = some (text, rest)) :
    ∃ text', text = s ++ text' ∧ o = some (text', rest) := by
  rw [Option.map_eq_some_iff] at h
  obtain ⟨⟨text', rest'⟩, ho, heq⟩ := h
  cases heq
  exact ⟨text', rfl, ho⟩

/-- The digits that come first in a state that they do not change. -/
theorem decodeNumber_split {state : NumberParsingState} (hdigit : state.onDigit = state)
    (hzero : state.onZero = state) (hvalid : state ≠ .invalid)
    (h : decodeNumber state data = some (text, rest)) :
    ∃ ds data' text', AllDigits ds ∧ data = ds ++ data' ∧ (∀ c ∈ data'.head?, c.isDigit = false)
      ∧ text = ds ++ text' ∧ decodeNumber state data' = some (text', rest) := by
  have hsplit := (List.takeWhile_append_dropWhile (p := Char.isDigit) (l := data)).symm
  have hnon := isDigit_dropWhile data
  rw [hsplit, decodeNumber_run hdigit hzero hvalid (allDigits_takeWhile data) hnon] at h
  obtain ⟨text', htext, hrun⟩ := exists_of_map_prepend h
  exact ⟨_, _, text', allDigits_takeWhile data, hsplit, hnon, htext, hrun⟩

/-- Where no digit comes first, the number ends, or a sign, a point or the mark
of an exponent is next. -/
theorem decodeNumber_of_isDigit_false {state : NumberParsingState}
    (h : decodeNumber state data = some (text, rest))
    (hdata : ∀ c ∈ data.head?, c.isDigit = false) :
    (Stops rest ∧ state.isFinal = true ∧ text = [] ∧ rest = data)
      ∨ ∃ c data' state' text', data = c :: data' ∧ c.isDigit = false ∧ state.next c = some state'
        ∧ state' ≠ .invalid ∧ text = c :: text'
        ∧ decodeNumber state' data' = some (text', rest) := by
  have hend : Stops data → decodeNumber state data = some (text, rest) →
      Stops rest ∧ state.isFinal = true ∧ text = [] ∧ rest = data := by
    intro hstops hrun
    rw [decodeNumber_stop hstops] at hrun
    split at hrun
    · next hfinal =>
      cases hrun
      exact ⟨hstops, hfinal, rfl, rfl⟩
    · cases hrun
  cases data with
  | nil => exact .inl (hend (fun c hc => absurd hc (Option.not_mem_none c)) h)
  | cons c data =>
    have hc := hdata c rfl
    have hnine : isOneToNine c = false := by
      by_contra hnine
      exact absurd (isDigit_iff.mpr (.inr (Bool.not_eq_false _ ▸ hnine))) (by simp [hc])
    cases hnext : state.next c with
    | none =>
      refine .inl (hend (fun d hd => ?_) h)
      cases hd
      exact next_eq_none_iff.mp hnext
    | some state' =>
      by_cases hvalid : state' = .invalid
      · rw [decodeNumber_invalid data (hvalid ▸ hnext)] at h
        cases h
      · rw [decodeNumber_cons data hnine hnext hvalid] at h
        obtain ⟨text', htext, hrun⟩ := exists_of_map_prepend h
        exact .inr ⟨c, data, state', text', rfl, hc, hnext, hvalid, htext, hrun⟩

/-- What the switch does to a character that is no digit. -/
theorem next_of_isDigit_false {state state' : NumberParsingState} {c : Char}
    (hc : c.isDigit = false) (h : state.next c = some state') :
    (c = '.' ∧ state.onPoint = state') ∨ (c = '-' ∧ state.onMinus = state')
      ∨ (c = '+' ∧ state.onPlus = state') ∨ ((c = 'e' ∨ c = 'E') ∧ state.onE = state') := by
  have hzero : c ≠ '0' := fun h0 => absurd (isDigit_iff.mpr (.inl h0)) (by simp [hc])
  have hnine : ¬ isOneToNine c = true := fun h1 => absurd (isDigit_iff.mpr (.inr h1)) (by simp [hc])
  rw [NumberParsingState.next, if_neg hzero, if_neg hnine] at h
  split_ifs at h with hpoint hminus hplus he
  · exact .inl ⟨hpoint, Option.some.inj h⟩
  · exact .inr (.inl ⟨hminus, Option.some.inj h⟩)
  · exact .inr (.inr (.inl ⟨hplus, Option.some.inj h⟩))
  · exact .inr (.inr (.inr ⟨he, Option.some.inj h⟩))

/-- The digits of an exponent. -/
theorem digitsAfterE_sound (h : decodeNumber .digitsAfterE data = some (text, rest)) :
    AllDigits text ∧ data = text ++ rest ∧ Stops rest := by
  obtain ⟨ds, data', text', hds, rfl, hdata', rfl, hrun⟩ :=
    decodeNumber_split rfl rfl (by decide) h
  rcases decodeNumber_of_isDigit_false hrun hdata' with
    ⟨hstops, -, rfl, rfl⟩ | ⟨c, _, _, _, rfl, hc, hnext, hvalid, -, -⟩
  · rw [List.append_nil]
    exact ⟨hds, rfl, hstops⟩
  · rcases next_of_isDigit_false hc hnext with ⟨-, rfl⟩ | ⟨-, rfl⟩ | ⟨-, rfl⟩ | ⟨-, rfl⟩ <;>
      exact absurd rfl hvalid

/-- An exponent after its mark. -/
theorem e_sound (h : decodeNumber .e data = some (text, rest)) {mark : Char}
    (hmark : mark = 'e' ∨ mark = 'E') :
    (∃ e : Exponent, e.text = mark :: text) ∧ data = text ++ rest ∧ Stops rest := by
  by_cases hdigits : data.takeWhile Char.isDigit = []
  · -- no digit comes first: it is a sign
    have hdata : ∀ c ∈ data.head?, c.isDigit = false := by
      have hsplit := List.takeWhile_append_dropWhile (p := Char.isDigit) (l := data)
      rw [hdigits, List.nil_append] at hsplit
      rw [← hsplit]
      exact isDigit_dropWhile data
    rcases decodeNumber_of_isDigit_false h hdata with
      ⟨-, hfinal, -, -⟩ | ⟨c, data', state', text', rfl, hc, hnext, hvalid, rfl, hrun⟩
    · cases hfinal
    · have hsign : (c = '+' ∨ c = '-') ∧ state' = .digitsAfterE := by
        rcases next_of_isDigit_false hc hnext with ⟨-, rfl⟩ | ⟨h, rfl⟩ | ⟨h, rfl⟩ | ⟨-, rfl⟩
        · exact absurd rfl hvalid
        · exact ⟨.inr h, rfl⟩
        · exact ⟨.inl h, rfl⟩
        · exact absurd rfl hvalid
      rw [hsign.2] at hrun
      obtain ⟨hds, rfl, hstops⟩ := digitsAfterE_sound hrun
      exact ⟨⟨⟨mark, some c, text', hmark, fun _ hd => Option.mem_some_iff.mp hd ▸ hsign.1, hds,
        fun h => absurd h (by simp)⟩, rfl⟩, rfl, hstops⟩
  · have hnon := isDigit_dropWhile data
    rw [← List.takeWhile_append_dropWhile (p := Char.isDigit) (l := data),
      decodeNumber_enter (show NumberParsingState.e.onDigit = .digitsAfterE from rfl) rfl rfl rfl
        (by decide) (allDigits_takeWhile data) hdigits hnon] at h
    obtain ⟨text', rfl, hrun⟩ := exists_of_map_prepend h
    obtain ⟨hds, hdata, hstops⟩ := digitsAfterE_sound hrun
    have hall : AllDigits (data.takeWhile Char.isDigit ++ text') := by
      intro c hc
      rcases List.mem_append.mp hc with hc | hc
      · exact allDigits_takeWhile data c hc
      · exact hds c hc
    refine ⟨⟨⟨mark, none, _, hmark, fun _ hd => absurd hd (Option.not_mem_none _), hall,
      fun _ hnil => hdigits (List.append_eq_nil_iff.mp hnil).1⟩, rfl⟩, ?_, hstops⟩
    rw [List.append_assoc, ← hdata, List.takeWhile_append_dropWhile]

/-- The digits after a point, and an exponent if there is one. -/
theorem digitsAfterPoints_sound (h : decodeNumber .digitsAfterPoints data = some (text, rest)) :
    ∃ ds, ∃ exponent : Option Exponent, AllDigits ds
      ∧ text = ds ++ exponent.elim [] Exponent.text ∧ data = text ++ rest ∧ Stops rest := by
  obtain ⟨ds, data', text', hds, rfl, hdata', rfl, hrun⟩ :=
    decodeNumber_split rfl rfl (by decide) h
  rcases decodeNumber_of_isDigit_false hrun hdata' with
    ⟨hstops, -, rfl, rfl⟩ | ⟨c, data', _, text', rfl, hc, hnext, hvalid, rfl, hrun⟩
  · exact ⟨ds, none, hds, rfl, by rw [List.append_nil], hstops⟩
  · rcases next_of_isDigit_false hc hnext with ⟨-, rfl⟩ | ⟨-, rfl⟩ | ⟨-, rfl⟩ | ⟨he, rfl⟩
    · exact absurd rfl hvalid
    · exact absurd rfl hvalid
    · exact absurd rfl hvalid
    · obtain ⟨⟨e, he⟩, rfl, hstops⟩ := e_sound hrun he
      refine ⟨ds, some e, hds, ?_, ?_, hstops⟩
      · rw [Option.elim_some, he]
      · rw [List.append_assoc, List.cons_append]

/-- After a zero comes a point or nothing. -/
theorem zeroFirst_sound (h : decodeNumber .zeroFirst data = some (text, rest)) :
    ∃ fraction : Option (List Char), ∃ exponent : Option Exponent,
      (∀ ds ∈ fraction, AllDigits ds) ∧ (fraction = none → exponent = none)
      ∧ text = fraction.elim [] ('.' :: ·) ++ exponent.elim [] Exponent.text
      ∧ data = text ++ rest ∧ Stops rest := by
  by_cases hdigit : ∃ c data', data = c :: data' ∧ c.isDigit = true
  · obtain ⟨c, data', rfl, hc⟩ := hdigit
    have hnext : NumberParsingState.zeroFirst.next c = some .invalid := by
      rcases isDigit_iff.mp hc with rfl | hnine
      · rfl
      · by_cases hzero : c = '0'
        · rw [hzero]
          rfl
        · rw [NumberParsingState.next, if_neg hzero, if_pos hnine]
          rfl
    rw [decodeNumber_invalid data' hnext] at h
    cases h
  · have hdata : ∀ c ∈ data.head?, c.isDigit = false := by
      intro c hc
      cases data with
      | nil => cases hc
      | cons d data =>
        cases hc
        by_contra hd
        exact hdigit ⟨c, data, rfl, Bool.not_eq_false _ ▸ hd⟩
    rcases decodeNumber_of_isDigit_false h hdata with
      ⟨hstops, -, rfl, rfl⟩ | ⟨c, data', _, text', rfl, hc, hnext, hvalid, rfl, hrun⟩
    · exact ⟨none, none, fun _ hd => absurd hd (Option.not_mem_none _), fun _ => rfl, rfl, rfl,
        hstops⟩
    · rcases next_of_isDigit_false hc hnext with ⟨rfl, rfl⟩ | ⟨-, rfl⟩ | ⟨-, rfl⟩ | ⟨-, rfl⟩
      · obtain ⟨ds, exponent, hds, rfl, rfl, hstops⟩ := digitsAfterPoints_sound hrun
        exact ⟨some ds, exponent, fun _ hd => Option.mem_some_iff.mp hd ▸ hds,
          fun h => absurd h (by simp), rfl, rfl, hstops⟩
      · exact absurd rfl hvalid
      · exact absurd rfl hvalid
      · exact absurd rfl hvalid

/-- The digits of a number that does not start with a zero, and what may follow
them. -/
theorem digits_sound (h : decodeNumber .digits data = some (text, rest)) :
    ∃ ds, ∃ fraction : Option (List Char), ∃ exponent : Option Exponent,
      AllDigits ds ∧ (∀ ds ∈ fraction, AllDigits ds)
      ∧ text = ds ++ (fraction.elim [] ('.' :: ·) ++ exponent.elim [] Exponent.text)
      ∧ data = text ++ rest ∧ Stops rest := by
  obtain ⟨ds, data', text', hds, rfl, hdata', rfl, hrun⟩ :=
    decodeNumber_split rfl rfl (by decide) h
  have hnone : ∀ es ∈ (none : Option (List Char)), AllDigits es :=
    fun _ hd => absurd hd (Option.not_mem_none _)
  rcases decodeNumber_of_isDigit_false hrun hdata' with
    ⟨hstops, -, rfl, rfl⟩ | ⟨c, data', _, text', rfl, hc, hnext, hvalid, rfl, hrun⟩
  · exact ⟨ds, none, none, hds, hnone, rfl, by rw [List.append_nil], hstops⟩
  · rcases next_of_isDigit_false hc hnext with ⟨rfl, rfl⟩ | ⟨-, rfl⟩ | ⟨-, rfl⟩ | ⟨he, rfl⟩
    · obtain ⟨es, exponent, hes, rfl, rfl, hstops⟩ := digitsAfterPoints_sound hrun
      refine ⟨ds, some es, exponent, hds, fun _ hd => Option.mem_some_iff.mp hd ▸ hes, rfl, ?_,
        hstops⟩
      simp only [List.append_assoc, List.cons_append]
    · exact absurd rfl hvalid
    · exact absurd rfl hvalid
    · obtain ⟨⟨e, he⟩, rfl, hstops⟩ := e_sound hrun he
      refine ⟨ds, none, some e, hds, hnone, ?_, ?_, hstops⟩
      · rw [Option.elim_some, he]
        rfl
      · rw [List.append_assoc, List.cons_append]

/-- A number without its sign. -/
theorem whole_sound {state : NumberParsingState} (hdigit : state.onDigit = .digits)
    (hzero : state.onZero = .zeroFirst) {c : Char} {data : List Char} (hc : c.isDigit = true)
    (h : decodeNumber state (c :: data) = some (text, rest)) (minus : Bool) :
    ∃ x : Numeral, IsAccepted x ∧ x.minus = minus
      ∧ text = x.whole ++ (x.fractionText ++ x.exponentText) ∧ c :: data = text ++ rest
      ∧ Stops rest := by
  rcases isDigit_iff.mp hc with rfl | hnine
  · have hnext : state.next '0' = some .zeroFirst := by
      rw [← hzero]
      rfl
    rw [decodeNumber_cons data (by decide) hnext (by decide)] at h
    obtain ⟨text', rfl, hrun⟩ := exists_of_map_prepend h
    obtain ⟨fraction, exponent, hfraction, himp, rfl, rfl, hstops⟩ := zeroFirst_sound hrun
    exact ⟨⟨minus, ['0'], fraction, exponent, AllDigits.nil.cons rfl, by simp,
      fun ds hds => (List.cons.inj hds).2.symm, hfraction⟩, fun _ => himp, rfl, rfl, rfl, hstops⟩
  · have hhead : c ≠ '0' := by
      rintro rfl
      exact absurd hnine (by decide)
    have hsplit := (List.takeWhile_append_dropWhile (p := Char.isDigit) (l := data)).symm
    rw [hsplit, decodeNumber_digits hnine (allDigits_takeWhile data) (isDigit_dropWhile data) hdigit
      (by decide)] at h
    obtain ⟨text', rfl, hrun⟩ := exists_of_map_prepend h
    obtain ⟨ds, fraction, exponent, hds, hfraction, rfl, hdata, hstops⟩ := digits_sound hrun
    have hall : AllDigits (c :: (data.takeWhile Char.isDigit ++ ds)) := by
      refine AllDigits.cons hc fun d hd => ?_
      rcases List.mem_append.mp hd with hd | hd
      · exact allDigits_takeWhile data d hd
      · exact hds d hd
    refine ⟨⟨minus, _, fraction, exponent, hall, by simp,
      fun _ h => absurd (List.cons.inj h).1 hhead, hfraction⟩,
      fun h => absurd (List.cons.inj h).1 hhead, rfl, ?_, ?_, hstops⟩
    · simp only [Numeral.fractionText, Numeral.exponentText, List.cons_append, List.append_assoc]
    · rw [List.cons_append, List.cons_append, List.append_assoc, ← hdata,
        List.takeWhile_append_dropWhile]

/-- **What is read is an accepted numeral.** -/
theorem decodeNumber_sound (h : decodeNumber .minus data = some (text, rest)) :
    ∃ x : Numeral, IsAccepted x ∧ text = x.text ∧ data = text ++ rest ∧ Stops rest := by
  cases data with
  | nil =>
    rw [decodeNumber.eq_def] at h
    cases h
  | cons c data =>
    cases hc : c.isDigit with
    | true =>
      obtain ⟨x, hx, hminus, htext, hdata, hstops⟩ := whole_sound rfl rfl hc h false
      refine ⟨x, hx, ?_, hdata, hstops⟩
      rw [Numeral.text, Numeral.signText, hminus, htext]
      rfl
    | false =>
      rcases decodeNumber_of_isDigit_false h (by rintro d ⟨⟩; exact hc) with
        ⟨-, hfinal, -, -⟩ | ⟨_, _, _, text', heq, -, hnext, hvalid, rfl, hrun⟩
      · cases hfinal
      · cases heq
        rcases next_of_isDigit_false hc hnext with ⟨-, rfl⟩ | ⟨rfl, rfl⟩ | ⟨-, rfl⟩ | ⟨-, rfl⟩
        · exact absurd rfl hvalid
        · -- a minus, and a digit after it
          cases data with
          | nil =>
            rw [decodeNumber.eq_def] at hrun
            cases hrun
          | cons d data =>
            cases hd : d.isDigit with
            | true =>
              obtain ⟨x, hx, hminus, rfl, hdata, hstops⟩ := whole_sound rfl rfl hd hrun true
              refine ⟨x, hx, ?_, ?_, hstops⟩
              · rw [Numeral.text, Numeral.signText, hminus]
                rfl
              · rw [hdata, List.cons_append]
            | false =>
              rcases decodeNumber_of_isDigit_false hrun (by rintro e ⟨⟩; exact hd) with
                ⟨-, hfinal, -, -⟩ | ⟨_, _, _, _, heq, -, hnext', hvalid', -, -⟩
              · cases hfinal
              · cases heq
                rcases next_of_isDigit_false hd hnext' with
                  ⟨-, rfl⟩ | ⟨-, rfl⟩ | ⟨-, rfl⟩ | ⟨-, rfl⟩ <;> exact absurd rfl hvalid'
        · exact absurd rfl hvalid
        · exact absurd rfl hvalid

end Sound

/-- **`decode_number` reads the accepted numerals**, each to its end, where
nothing follows that would go on with it. -/
theorem decodeNumber_eq_some_iff {data text rest : List Char} :
    decodeNumber .minus data = some (text, rest)
      ↔ ∃ x : Numeral, IsAccepted x ∧ text = x.text ∧ data = text ++ rest ∧ Stops rest := by
  refine ⟨decodeNumber_sound, ?_⟩
  rintro ⟨x, hx, rfl, rfl, hstops⟩
  exact decodeNumber_text hx hstops

end JsonLoad
