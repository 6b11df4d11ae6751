import NeuralBuilder.JsonLoad
import NeuralBuilder.Library.GeneralNotation

/-!
# Standard JSON and the parser

A text of standard JSON is read as what it spells, or it is refused: where more
than 5000 lists and objects are inside each other, and where a zero is followed
by an exponent (`load_standard_iff`).

Both halves come from the grammar. The dialect of the parser is read as the one
of standard JSON with other numerals, a text spells one value at most
(`Text.unique`), and so the parser either refuses a text or returns what
standard JSON says. The numerals that it refuses are those of `IsAccepted`.
-/

namespace JsonLoad

open JsonGrammar

/-- A dialect that has the texts of both. -/
def loose : Dialect where
  number s := ∃ x : Numeral, s = x.text
  plain c := c ≠ '\"' ∧ c ≠ '\\'
  key := unescape

theorem isLexical_loose : loose.IsLexical where
  number_ne := by
    rintro s ⟨x, rfl⟩
    exact x.text_ne_nil
  number_chars := by
    rintro s ⟨x, rfl⟩
    exact x.isNumberChar_of_mem
  plain_ne := fun _ h => h

theorem isLexical_standard (key : List Char → List Char) : (standard key).IsLexical where
  number_ne := by
    rintro s ⟨x, -, rfl⟩
    exact x.text_ne_nil
  number_chars := by
    rintro s ⟨x, -, rfl⟩
    exact x.isNumberChar_of_mem
  plain_ne := fun _ h => ⟨h.1, h.2.1⟩

theorem ne_nul_of_plain {key : List Char → List Char} {c : Char} (h : (standard key).plain c) :
    c ≠ nul := by
  rintro rfl
  exact absurd h.2.2 (by decide)

/-- **Which standard texts are read**: those with at most 5000 lists and objects
inside each other and without an exponent directly after a zero. No standard
text is read as anything but what it spells. -/
theorem load_standard_iff {n : ℕ} {t : Tree} {s : List Char}
    (h : Text (standard unescape) n t s) :
    (load s = some t ↔ t.depth ≤ 5000 ∧ ∀ x : Numeral, x.text ∈ t.numbers → IsAccepted x)
      ∧ ∀ t', load s = some t' → t' = t := by
  have hwhole : s.takeWhile (· ≠ nul) = s := by
    refine List.takeWhile_eq_self_iff.mpr fun c hc => decide_eq_true ?_
    exact ne_nul_of_text (isLexical_standard unescape) (fun _ => ne_nul_of_plain) h c hc
  have hread : ∀ t', load s = some t' → Text dialect 5000 t' s := fun t' hsome => by
    rw [← hwhole]
    exact text_of_load hsome
  refine ⟨⟨fun hsome => ?_, fun ⟨hdepth, hnumbers⟩ => ?_⟩, fun t' hsome => ?_⟩
  · obtain ⟨w, v, w', -, hv, -, -⟩ := hread t hsome
    refine ⟨hv.depth_le, fun x hx => ?_⟩
    obtain ⟨y, hy, htext⟩ := hv.number_of_mem x.text hx
    rwa [Numeral.text_injective htext]
  · obtain ⟨w, v, w', hw, hv, hw', hs⟩ := h
    have hspells : Spells dialect 5000 (.value t) v := by
      refine hv.transfer hdepth (fun text htext => ?_) (fun c hc => ?_) rfl
      · obtain ⟨x, -, rfl⟩ := hv.number_of_mem text htext
        exact ⟨x, hnumbers x htext, rfl⟩
      · exact ⟨hc.1, hc.2.1, ne_nul_of_plain hc⟩
    have hend : IsEnd [] := fun c hc => absurd hc (Option.not_mem_none c)
    rw [hs, ← load_text hw hspells hw' hend, List.append_nil]
  · -- both readings are readings in the loose dialect
    obtain ⟨w, v, w', hw, hv, hw', hs⟩ := hread t' hsome
    obtain ⟨u, r, u', hu, hr, hu', hs'⟩ := h
    have hloose : Text loose 5000 t' s := by
      refine ⟨w, v, w', hw, hv.of_le ?_ (fun c hc => ⟨hc.1, hc.2.1⟩) rfl, hw', hs⟩
      rintro text ⟨x, -, rfl⟩
      exact ⟨x, rfl⟩
    have hloose' : Text loose n t s := by
      refine ⟨u, r, u', hu, hr.of_le ?_ (fun c hc => ⟨hc.1, hc.2.1⟩) rfl, hu', hs'⟩
      rintro text ⟨x, -, rfl⟩
      exact ⟨x, rfl⟩
    exact hloose.unique isLexical_loose hloose'

/-- The numeral with an exponent behind it. -/
def withExponent (x : Numeral) (X : ℤ) : Numeral :=
  { x with exponent := some (GeneralNotation.exponent X) }

theorem withExponent_isStandard (n X : ℤ) : (withExponent (Numeral.ofInt n) X).IsStandard := by
  refine ⟨(fun hfraction => by cases hfraction), fun e he => ?_⟩
  obtain rfl := Option.some.inj he
  have hdigits : 0 < (Nat.toDigits 10 X.natAbs).length :=
    List.length_pos_of_ne_nil Nat.toDigits_ne_nil
  exact List.ne_nil_of_length_pos (by simp [GeneralNotation.exponent, hdigits])

/-- A number in an object in a list. -/
def nestedTree (number : List Char) : Tree :=
  .list [.number ['1'], .object [(['k'], .number number)]]

/-- Its text, with a blank after the colon. -/
def nestedText (number : List Char) : List Char :=
  ['[', '1', ',', '{', '\"', 'k', '\"', ':', ' '] ++ number ++ ['}', ']']

theorem nested_text {x : Numeral} (hx : x.IsStandard) :
    Text (standard unescape) 2 (nestedTree x.text) (nestedText x.text) := by
  have hone : (standard unescape).number ['1'] :=
    ⟨Numeral.ofInt 1, ⟨by simp [Numeral.ofInt], by simp [Numeral.ofInt]⟩, rfl⟩
  have hkey : Raw (standard unescape).plain ['k'] :=
    .plain ⟨by decide, by decide, by decide⟩ .nil
  have hblank : Blank [' '] := fun c hc => by rw [List.mem_singleton.mp hc]; rfl
  have hmember := Spells.member hkey Blank.nil hblank (n := 0)
    (.number (D := standard unescape) ⟨x, hx, rfl⟩) Blank.nil
  have hlist := Spells.list Blank.nil (.items (.number hone) Blank.nil Blank.nil
    (.item (.object Blank.nil hmember) Blank.nil))
  refine ⟨[], _, [], Blank.nil, hlist, Blank.nil, ?_⟩
  simp [nestedText]

/-- A standard text that is refused for a number within it, and one that is not. -/
theorem load_zeroExponent :
    (load (nestedText ['0', 'e', '+', '0', '5']) ≠ some (nestedTree ['0', 'e', '+', '0', '5'])
      ∧ ∀ t', load (nestedText ['0', 'e', '+', '0', '5']) = some t' →
          t' = nestedTree ['0', 'e', '+', '0', '5'])
    ∧ load (nestedText ['7', 'e', '+', '0', '5'])
        = some (nestedTree ['7', 'e', '+', '0', '5']) := by
  obtain ⟨hiff, hunique⟩ := load_standard_iff (nested_text (withExponent_isStandard 0 5))
  obtain ⟨hiff', -⟩ := load_standard_iff (nested_text (withExponent_isStandard 7 5))
  refine ⟨⟨fun hload => ?_, hunique⟩, hiff'.mpr ⟨by decide, fun x hx => ?_⟩⟩
  · have haccepted := (hiff.mp hload).2 (withExponent (Numeral.ofInt 0) 5)
      (List.mem_cons_of_mem _ List.mem_cons_self)
    cases haccepted rfl rfl
  · intro hzero hpoint
    -- neither `1` nor `7e+05` begins with a zero
    rcases List.mem_cons.mp hx with hone | hseven
    · have hone : x.text = (Numeral.ofInt 1).text := hone
      rw [Numeral.text_injective hone] at hzero
      exact absurd hzero (by decide)
    · have hseven := List.mem_singleton.mp hseven
      rw [Numeral.text_injective hseven] at hzero
      exact absurd hzero (by decide)

end JsonLoad
