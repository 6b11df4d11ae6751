import NeuralBuilder.Library.Numeral

/-!
# The grammar of JSON texts

What a JSON text spells is a `Tree`, which keeps the text of a number and what
stands between the quotes of a string. Two programs that read or write JSON
differ in what they take for a number and in what may stand between two quotes
as it is: that is a `Dialect`, and `Spells` is the grammar over one. It counts
how many lists and objects are inside each other, since a reader may have a
limit there.

A dialect that allows more spells more (`Spells.of_le`).

Blanks are allowed where JSON has them and nowhere else. The tree keeps lists of
members, so that a key may come twice and the order is kept, since that is what
a text has; what a reader makes of two members under one key is another matter.
-/

namespace JsonGrammar

/-- **A JSON value as a text holds it.** -/
inductive Tree
  | null
  | bool (b : Bool)
  | number (text : List Char)
  | string (raw : List Char)
  | list (items : List Tree)
  | object (members : List (List Char × Tree))

mutual

/-- How many lists and objects are inside each other. -/
def Tree.depth : Tree → ℕ
  | .list items => depthItems items + 1
  | .object members => depthMembers members + 1
  | _ => 0

def depthItems : List Tree → ℕ
  | [] => 0
  | t :: ts => max t.depth (depthItems ts)

def depthMembers : List (List Char × Tree) → ℕ
  | [] => 0
  | (_, t) :: ms => max t.depth (depthMembers ms)

end

mutual

/-- The texts of the numbers, in their order. -/
def Tree.numbers : Tree → List (List Char)
  | .number text => [text]
  | .list items => numbersItems items
  | .object members => numbersMembers members
  | _ => []

def numbersItems : List Tree → List (List Char)
  | [] => []
  | t :: ts => t.numbers ++ numbersItems ts

def numbersMembers : List (List Char × Tree) → List (List Char)
  | [] => []
  | (_, t) :: ms => t.numbers ++ numbersMembers ms

end

/-! ## Characters -/

/-- The blanks between the parts of a text. -/
def isBlank (c : Char) : Bool :=
  c == ' ' || c == '\t' || c == '\r' || c == '\n'

/-- The hexadecimal digits. -/
def isHex (c : Char) : Bool :=
  c.isDigit || ('a' ≤ c && c ≤ 'f') || ('A' ≤ c && c ≤ 'F')

/-- What may follow a backslash. -/
def isEscape (c : Char) : Bool :=
  c == '\"' || c == '\\' || c == '/' || c == 'b' || c == 'f' || c == 'n' || c == 'r' || c == 't'

/-- Blanks only. -/
def Blank (w : List Char) : Prop := ∀ c ∈ w, isBlank c = true

theorem Blank.nil : Blank [] := fun _ hc => absurd hc List.not_mem_nil

theorem Blank.tail {c : Char} {w : List Char} (h : Blank (c :: w)) : Blank w :=
  fun d hd => h d (List.mem_cons_of_mem c hd)

/-- **What stands between two quotes.** -/
inductive Raw (plain : Char → Prop) : List Char → Prop
  | nil : Raw plain []
  | plain {c : Char} {raw : List Char} (hc : plain c) (h : Raw plain raw) : Raw plain (c :: raw)
  | escape {e : Char} {raw : List Char} (he : isEscape e = true) (h : Raw plain raw) :
      Raw plain ('\\' :: e :: raw)
  | unicode {a b c d : Char} {raw : List Char} (ha : isHex a = true) (hb : isHex b = true)
      (hc : isHex c = true) (hd : isHex d = true) (h : Raw plain raw) :
      Raw plain ('\\' :: 'u' :: a :: b :: c :: d :: raw)

namespace Raw

variable {plain plain' : Char → Prop} {raw raw' : List Char}

theorem of_le (hle : ∀ c, plain c → plain' c) (h : Raw plain raw) : Raw plain' raw := by
  induction h with
  | nil => exact .nil
  | plain hc _ ih => exact .plain (hle _ hc) ih
  | escape he _ ih => exact .escape he ih
  | unicode ha hb hc hd _ ih => exact .unicode ha hb hc hd ih

theorem append (h : Raw plain raw) (h' : Raw plain raw') : Raw plain (raw ++ raw') := by
  induction h with
  | nil => exact h'
  | plain hc _ ih => exact .plain hc ih
  | escape he _ ih => exact .escape he ih
  | unicode ha hb hc hd _ ih => exact .unicode ha hb hc hd ih

end Raw

/-! ## Texts -/

/-- **What dialects differ in**: the texts of numbers, the characters that may
stand in a string as they are, and what the text of a key is read as. -/
structure Dialect where
  /-- Whether a text is a number. -/
  number : List Char → Prop
  /-- Whether a character stands for itself in a string. -/
  plain : Char → Prop
  /-- What the text of a key stands for. -/
  key : List Char → List Char

/-- **Standard JSON**, with what the text of a key is read as. -/
def standard (key : List Char → List Char) : Dialect where
  number s := ∃ x : Numeral, x.IsStandard ∧ s = x.text
  plain c := c ≠ '\"' ∧ c ≠ '\\' ∧ 0x20 ≤ c.toNat
  key := key

/-- A phrase of the grammar: a value, the items of a list after its bracket, or
the members of an object after its brace. -/
inductive Phrase
  | value (t : Tree)
  | items (ts : List Tree)
  | members (ms : List (List Char × Tree))

def Phrase.depth : Phrase → ℕ
  | value t => t.depth
  | items ts => depthItems ts
  | members ms => depthMembers ms

def Phrase.numbers : Phrase → List (List Char)
  | value t => t.numbers
  | items ts => numbersItems ts
  | members ms => numbersMembers ms

/-- **The text spells the phrase**, with at most `n` lists and objects inside
each other. Blanks belong to what they follow. -/
inductive Spells (D : Dialect) : ℕ → Phrase → List Char → Prop
  | null {n : ℕ} : Spells D n (.value .null) ['n', 'u', 'l', 'l']
  | true {n : ℕ} : Spells D n (.value (.bool true)) ['t', 'r', 'u', 'e']
  | false {n : ℕ} : Spells D n (.value (.bool false)) ['f', 'a', 'l', 's', 'e']
  | number {n : ℕ} {s : List Char} (h : D.number s) : Spells D n (.value (.number s)) s
  | string {n : ℕ} {raw : List Char} (h : Raw D.plain raw) :
      Spells D n (.value (.string raw)) ('\"' :: (raw ++ ['\"']))
  | emptyList {n : ℕ} {w : List Char} (hw : Blank w) :
      Spells D (n + 1) (.value (.list [])) ('[' :: (w ++ [']']))
  | list {n : ℕ} {w s : List Char} {ts : List Tree} (hw : Blank w) (h : Spells D n (.items ts) s) :
      Spells D (n + 1) (.value (.list ts)) ('[' :: (w ++ (s ++ [']'])))
  | emptyObject {n : ℕ} {w : List Char} (hw : Blank w) :
      Spells D (n + 1) (.value (.object [])) ('{' :: (w ++ ['}']))
  | object {n : ℕ} {w s : List Char} {ms : List (List Char × Tree)} (hw : Blank w)
      (h : Spells D n (.members ms) s) :
      Spells D (n + 1) (.value (.object ms)) ('{' :: (w ++ (s ++ ['}'])))
  | item {n : ℕ} {t : Tree} {s w : List Char} (h : Spells D n (.value t) s) (hw : Blank w) :
      Spells D n (.items [t]) (s ++ w)
  | items {n : ℕ} {t : Tree} {ts : List Tree} {s w w' s' : List Char}
      (h : Spells D n (.value t) s) (hw : Blank w) (hw' : Blank w')
      (h' : Spells D n (.items ts) s') :
      Spells D n (.items (t :: ts)) (s ++ (w ++ (',' :: (w' ++ s'))))
  | member {n : ℕ} {raw : List Char} {t : Tree} {w v s w' : List Char} (hraw : Raw D.plain raw)
      (hw : Blank w) (hv : Blank v) (h : Spells D n (.value t) s) (hw' : Blank w') :
      Spells D n (.members [(D.key raw, t)])
        ('\"' :: (raw ++ ('\"' :: (w ++ (':' :: (v ++ (s ++ w')))))))
  | members {n : ℕ} {raw : List Char} {t : Tree} {ms : List (List Char × Tree)}
      {w v s w' v' s' : List Char} (hraw : Raw D.plain raw) (hw : Blank w) (hv : Blank v)
      (h : Spells D n (.value t) s) (hw' : Blank w') (hv' : Blank v')
      (h' : Spells D n (.members ms) s') :
      Spells D n (.members ((D.key raw, t) :: ms))
        ('\"' :: (raw ++ ('\"' :: (w ++ (':' :: (v ++ (s ++ (w' ++ (',' :: (v' ++ s'))))))))))

/-- **A text**: one value, and blanks around it. -/
def Text (D : Dialect) (n : ℕ) (t : Tree) (s : List Char) : Prop :=
  ∃ w s' w', Blank w ∧ Spells D n (.value t) s' ∧ Blank w' ∧ s = w ++ (s' ++ w')

namespace Spells

variable {D D' : Dialect} {n m : ℕ} {p : Phrase} {s : List Char}

theorem depth_le (h : Spells D n p s) : p.depth ≤ n := by
  induction h with
  | list _ _ ih | object _ _ ih => exact Nat.succ_le_succ ih
  | item _ _ ih | member _ _ _ _ _ ih => exact max_le ih (Nat.zero_le _)
  | items _ _ _ _ ih ih' | members _ _ _ _ _ _ _ ih ih' => exact max_le ih ih'
  | emptyList | emptyObject => exact Nat.succ_le_succ (Nat.zero_le _)
  | _ => exact Nat.zero_le _

theorem number_of_mem (h : Spells D n p s) : ∀ text ∈ p.numbers, D.number text := by
  induction h with
  | number h => exact fun text htext => List.mem_singleton.mp htext ▸ h
  | list _ _ ih | object _ _ ih => exact ih
  | item _ _ ih | member _ _ _ _ _ ih =>
    exact fun text htext => ih text (by simpa [Phrase.numbers, numbersItems, numbersMembers]
      using htext)
  | items _ _ _ _ ih ih' | members _ _ _ _ _ _ _ ih ih' =>
    intro text htext
    rcases List.mem_append.mp htext with htext | htext
    · exact ih text htext
    · exact ih' text htext
  | _ => exact fun text htext => absurd htext List.not_mem_nil

/-- **The same phrase in another dialect**, which need not have more numbers
than those of the phrase, nor more depth than it takes. -/
theorem transfer (h : Spells D n p s) (hdepth : p.depth ≤ m)
    (hnumber : ∀ text ∈ p.numbers, D'.number text) (hplain : ∀ c, D.plain c → D'.plain c)
    (hkey : D.key = D'.key) : Spells D' m p s := by
  induction h generalizing m with
  | null => exact .null
  | true => exact .true
  | false => exact .false
  | number h => exact .number (hnumber _ (List.mem_singleton.mpr rfl))
  | string h => exact .string (h.of_le hplain)
  | emptyList hw =>
    obtain ⟨m, rfl⟩ := Nat.exists_eq_add_of_le' (Nat.le_trans (Nat.succ_pos _) hdepth)
    exact .emptyList hw
  | list hw _ ih =>
    obtain ⟨m, rfl⟩ := Nat.exists_eq_add_of_le' (Nat.le_trans (Nat.succ_pos _) hdepth)
    exact .list hw (ih (Nat.le_of_succ_le_succ hdepth) hnumber)
  | emptyObject hw =>
    obtain ⟨m, rfl⟩ := Nat.exists_eq_add_of_le' (Nat.le_trans (Nat.succ_pos _) hdepth)
    exact .emptyObject hw
  | object hw _ ih =>
    obtain ⟨m, rfl⟩ := Nat.exists_eq_add_of_le' (Nat.le_trans (Nat.succ_pos _) hdepth)
    exact .object hw (ih (Nat.le_of_succ_le_succ hdepth) hnumber)
  | item _ hw ih =>
    refine .item (ih (max_le_iff.mp hdepth).1 fun text h => ?_) hw
    exact hnumber text (List.mem_append_left _ h)
  | items _ hw hw' _ ih ih' =>
    exact .items (ih (max_le_iff.mp hdepth).1 fun text h => hnumber text (List.mem_append_left _ h))
      hw hw' (ih' (max_le_iff.mp hdepth).2 fun text h => hnumber text (List.mem_append_right _ h))
  | member hraw hw hv _ hw' ih =>
    rw [hkey]
    exact .member (hraw.of_le hplain) hw hv
      (ih (max_le_iff.mp hdepth).1 fun text h => hnumber text (List.mem_append_left _ h)) hw'
  | members hraw hw hv _ hw' hv' _ ih ih' =>
    rw [hkey]
    exact .members (hraw.of_le hplain) hw hv
      (ih (max_le_iff.mp hdepth).1 fun text h => hnumber text (List.mem_append_left _ h)) hw' hv'
      (ih' (max_le_iff.mp hdepth).2 fun text h => hnumber text (List.mem_append_right _ h))

/-- **A dialect that allows more spells more.** -/
theorem of_le (h : Spells D n p s) (hnumber : ∀ s, D.number s → D'.number s)
    (hplain : ∀ c, D.plain c → D'.plain c) (hkey : D.key = D'.key) : Spells D' n p s :=
  h.transfer h.depth_le (fun text htext => hnumber text (h.number_of_mem text htext)) hplain hkey

end Spells

end JsonGrammar
