import Mathlib.Algebra.Order.Field.Rat
import Mathlib.Data.Fintype.Card
import NeuralBuilder.Library.HalfSpaces

/-!
# Clipping a connection to the viewport

The page draws the part of each connection that is on screen. `clipLine`
gives each end a code with one bit for each side of the viewport the end is
beyond, and moves an end to a side until either both codes are zero or they
share a bit.

The viewport is the intersection of four half-planes, and the code of a point
is the set of those it is outside of (`code_side`). A turn of the loop
moves an end to where the segment crosses the side of one of its bits. That end
may gain bits by it, but only bits of the other end's code, and then the next
turn rejects the segment. Otherwise the codes have fewer bits together, so that
the loop ends within five turns. The divisions are checked, over any ordered
field.
-/

open HalfSpaces

namespace ClipLine

/-- The bounds of the part of the canvas on screen, with `y` growing
downwards. -/
structure Viewport (K : Type) where
  /-- The least `x` on screen. -/
  viewportLeft : K
  /-- The greatest. -/
  viewportRight : K
  /-- The least `y`, which is at the top. -/
  viewportTop : K
  /-- The greatest. -/
  viewportBottom : K

def INSIDE : ℕ := 0

def LEFT : ℕ := 1

def RIGHT : ℕ := 2

def BOTTOM : ℕ := 4

def TOP : ℕ := 8

/-- How a call can fail to return. -/
inductive Halt where
  /-- A division by zero. -/
  | divisionByZero
  /-- The point of a turn was not assigned. -/
  | unassigned
  /-- The loop has not ended within the number of turns the model was
  given. -/
  | running
  deriving DecidableEq, Repr

/-- What `clipLine` returns: the ends with `visible: true`, or `visible:
false`. -/
inductive Clipped (K : Type) where
  | visible (x1 y1 x2 y2 : K)
  | invisible
  deriving DecidableEq, Repr

/-- The variables of the loop. -/
structure Ends (K : Type) where
  /-- The start of what is left of the line. -/
  x1 : K
  /-- Its second coordinate. -/
  y1 : K
  /-- The end of what is left. -/
  x2 : K
  /-- Its second coordinate. -/
  y2 : K
  /-- Which bounds the start is beyond, one bit for each. -/
  outcode1 : ℕ
  /-- Which bounds the end is beyond. -/
  outcode2 : ℕ

variable {K : Type} [Field K] [LinearOrder K] (v : Viewport K)

def computeOutCode (x y : K) : ℕ :=
  let code := INSIDE
  let code :=
    if x < v.viewportLeft then code ||| LEFT
    else if x > v.viewportRight then code ||| RIGHT
    else code
  if y < v.viewportTop then code ||| BOTTOM
  else if y > v.viewportBottom then code ||| TOP
  else code

/-- A checked division. -/
def divide (a b : K) : Except Halt K :=
  if b = 0 then .error .divisionByZero else .ok (a / b)

/-- The point `x`, `y` of a turn. -/
def cut (outcodeOut : ℕ) (x1 y1 x2 y2 : K) : Except Halt (K × K) :=
  if outcodeOut &&& TOP ≠ 0 then do
    let quotient ← divide ((x2 - x1) * (v.viewportBottom - y1)) (y2 - y1)
    return (x1 + quotient, v.viewportBottom)
  else if outcodeOut &&& BOTTOM ≠ 0 then do
    let quotient ← divide ((x2 - x1) * (v.viewportTop - y1)) (y2 - y1)
    return (x1 + quotient, v.viewportTop)
  else if outcodeOut &&& RIGHT ≠ 0 then do
    let quotient ← divide ((y2 - y1) * (v.viewportRight - x1)) (x2 - x1)
    return (v.viewportRight, y1 + quotient)
  else if outcodeOut &&& LEFT ≠ 0 then do
    let quotient ← divide ((y2 - y1) * (v.viewportLeft - x1)) (x2 - x1)
    return (v.viewportLeft, y1 + quotient)
  else .error .unassigned

/-- **One turn of the loop**: a result, or the variables for the next turn. -/
def turn (s : Ends K) : Except Halt (Clipped K ⊕ Ends K) :=
  if s.outcode1 ||| s.outcode2 = 0 then
    return .inl (.visible s.x1 s.y1 s.x2 s.y2)
  else if s.outcode1 &&& s.outcode2 ≠ 0 then
    return .inl .invisible
  else do
    let outcodeOut := if s.outcode1 ≠ 0 then s.outcode1 else s.outcode2
    let (x, y) ← cut v outcodeOut s.x1 s.y1 s.x2 s.y2
    if outcodeOut = s.outcode1 then
      return .inr { s with x1 := x, y1 := y, outcode1 := computeOutCode v x y }
    else
      return .inr { s with x2 := x, y2 := y, outcode2 := computeOutCode v x y }

/-- `while (true)`. -/
def clipLoop : ℕ → Ends K → Except Halt (Clipped K)
  | 0, _ => .error .running
  | fuel + 1, s => do
    match ← turn v s with
    | .inl result => return result
    | .inr s => clipLoop fuel s

/-- **The part of a segment on screen.** -/
def clipLine (fuel : ℕ) (x1 y1 x2 y2 : K) : Except Halt (Clipped K) :=
  clipLoop v fuel
    { x1, y1, x2, y2, outcode1 := computeOutCode v x1 y1, outcode2 := computeOutCode v x2 y2 }

/-! ## The four sides -/

/-- The sides of a viewport. -/
inductive Side where
  | left
  | right
  | bottom
  | top
  deriving DecidableEq, Repr

instance instFintypeSide : Fintype Side where
  elems := {.left, .right, .bottom, .top}
  complete i := by cases i <;> decide

/-- The bit of a side in a code. -/
def Side.bit : Side → ℕ
  | .left => LEFT
  | .right => RIGHT
  | .bottom => BOTTOM
  | .top => TOP

/-- **The half-plane on the inner side of a side.** -/
def halfPlane : Side → HalfSpace K (K × K)
  | .left => ⟨-LinearMap.fst K K K, -v.viewportLeft⟩
  | .right => ⟨LinearMap.fst K K K, v.viewportRight⟩
  | .bottom => ⟨-LinearMap.snd K K K, -v.viewportTop⟩
  | .top => ⟨LinearMap.snd K K K, v.viewportBottom⟩

/-- The points on screen. -/
def Viewport.box : Set (K × K) :=
  Set.Icc (v.viewportLeft, v.viewportTop) (v.viewportRight, v.viewportBottom)

/-- The code of a point. -/
def code (p : K × K) : ℕ :=
  computeOutCode v p.1 p.2

omit [Field K] in
/-- A code has four bits. -/
theorem code_lt (p : K × K) : code v p < 16 := by
  unfold code computeOutCode
  split_ifs <;> decide

/-- The comparison the code makes for a side. -/
def Side.beyond (p : K × K) : Side → Prop
  | .left => p.1 < v.viewportLeft
  | .right => p.1 > v.viewportRight
  | .bottom => p.2 < v.viewportTop
  | .top => p.2 > v.viewportBottom

theorem mem_outside_halfPlane [IsStrictOrderedRing K] {p : K × K} {i : Side} :
    i ∈ outside (halfPlane v) p ↔ i.beyond v p := by
  rw [mem_outside_iff]
  cases i with
  | left => exact neg_lt_neg_iff
  | right => exact Iff.rfl
  | bottom => exact neg_lt_neg_iff
  | top => exact Iff.rfl

/-- **A code is a set of sides**: those of the half-planes the point is outside
of. -/
theorem code_side [IsStrictOrderedRing K] (hx : v.viewportLeft ≤ v.viewportRight)
    (hy : v.viewportTop ≤ v.viewportBottom) (p : K × K) (i : Side) :
    code v p &&& i.bit ≠ 0 ↔ i ∈ outside (halfPlane v) p := by
  rw [mem_outside_halfPlane]
  -- a point beyond the left side is not beyond the right one, and so on
  have hright : p.1 < v.viewportLeft → ¬ p.1 > v.viewportRight :=
    fun h => (h.trans_le hx).le.not_gt
  have hbottom : p.2 < v.viewportTop → ¬ p.2 > v.viewportBottom :=
    fun h => (h.trans_le hy).le.not_gt
  unfold code computeOutCode
  cases i <;> split_ifs <;>
    simp_all [Side.beyond, Side.bit, INSIDE, LEFT, RIGHT, BOTTOM, TOP]

/-- A code without a bit is zero. -/
theorem eq_zero_iff_bit : ∀ {n : ℕ}, n < 16 → (n = 0 ↔ ∀ i : Side, n &&& i.bit = 0) := by
  decide

/-- Two codes share a bit where they share a side. -/
theorem and_ne_zero_iff_bit : ∀ {n : ℕ}, n < 16 → ∀ {m : ℕ}, m < 16 →
    (n &&& m ≠ 0 ↔ ∃ i : Side, n &&& i.bit ≠ 0 ∧ m &&& i.bit ≠ 0) := by
  decide

theorem box_eq [IsStrictOrderedRing K] : v.box = polyhedron (halfPlane v) := by
  ext p
  constructor
  · rintro ⟨⟨hleft, htop⟩, hright, hbottom⟩ i
    cases i with
    | left => exact neg_le_neg hleft
    | right => exact hright
    | bottom => exact neg_le_neg htop
    | top => exact hbottom
  · intro h
    exact ⟨⟨neg_le_neg_iff.mp (h .left), neg_le_neg_iff.mp (h .bottom)⟩, h .right, h .top⟩

/-! ## One turn -/

theorem divide_of_ne {a b : K} (hb : b ≠ 0) : divide a b = .ok (a / b) :=
  if_neg hb

omit [LinearOrder K] in
/-- Where a line through two points meets a horizontal one. -/
theorem crossing_snd (b : K) {p q : K × K} (hne : p.2 ≠ q.2) :
    (⟨LinearMap.snd K K K, b⟩ : HalfSpace K (K × K)).crossing p q
      = (p.1 + (q.1 - p.1) * (b - p.2) / (q.2 - p.2), b) := by
  have hbound := HalfSpace.functional_crossing ⟨LinearMap.snd K K K, b⟩ hne
  refine Prod.ext ?_ hbound
  show p.1 + (b - p.2) / (q.2 - p.2) * (q.1 - p.1) = _
  ring

omit [LinearOrder K] in
/-- Where a line through two points meets a vertical one. -/
theorem crossing_fst (b : K) {p q : K × K} (hne : p.1 ≠ q.1) :
    (⟨LinearMap.fst K K K, b⟩ : HalfSpace K (K × K)).crossing p q
      = (b, p.2 + (q.2 - p.2) * (b - p.1) / (q.1 - p.1)) := by
  have hbound := HalfSpace.functional_crossing ⟨LinearMap.fst K K K, b⟩ hne
  refine Prod.ext hbound ?_
  show p.2 + (b - p.1) / (q.1 - p.1) * (q.2 - p.2) = _
  ring

/-- **The point of a turn** is the crossing with the side of a bit of the code. -/
theorem cut_eq {n : ℕ} (hn : n < 16) (h0 : n ≠ 0) :
    ∃ i : Side, n &&& i.bit ≠ 0 ∧ ∀ p q : K × K,
      (halfPlane v i).functional p ≠ (halfPlane v i).functional q →
      cut v n p.1 p.2 q.1 q.2 = .ok ((halfPlane v i).crossing p q) := by
  -- the bits are tried in this order
  by_cases htop : n &&& TOP ≠ 0
  · refine ⟨.top, htop, fun p q hne => ?_⟩
    have hne' : p.2 ≠ q.2 := hne
    rw [cut, if_pos htop, divide_of_ne (sub_ne_zero.mpr hne'.symm), halfPlane,
      crossing_snd _ hne']
    rfl
  by_cases hbottom : n &&& BOTTOM ≠ 0
  · refine ⟨.bottom, hbottom, fun p q hne => ?_⟩
    have hne' : p.2 ≠ q.2 := fun h => hne (congrArg Neg.neg h)
    rw [cut, if_neg htop, if_pos hbottom, divide_of_ne (sub_ne_zero.mpr hne'.symm), halfPlane,
      HalfSpace.crossing_neg, crossing_snd _ hne']
    rfl
  by_cases hright : n &&& RIGHT ≠ 0
  · refine ⟨.right, hright, fun p q hne => ?_⟩
    have hne' : p.1 ≠ q.1 := hne
    rw [cut, if_neg htop, if_neg hbottom, if_pos hright,
      divide_of_ne (sub_ne_zero.mpr hne'.symm), halfPlane, crossing_fst _ hne']
    rfl
  by_cases hleft : n &&& LEFT ≠ 0
  · refine ⟨.left, hleft, fun p q hne => ?_⟩
    have hne' : p.1 ≠ q.1 := fun h => hne (congrArg Neg.neg h)
    rw [cut, if_neg htop, if_neg hbottom, if_neg hright, if_pos hleft,
      divide_of_ne (sub_ne_zero.mpr hne'.symm), halfPlane, HalfSpace.crossing_neg,
      crossing_fst _ hne']
    rfl
  rw [not_ne_iff] at htop hbottom hright hleft
  refine absurd ((eq_zero_iff_bit hn).mpr fun i => ?_) h0
  cases i with
  | left => exact hleft
  | right => exact hright
  | bottom => exact hbottom
  | top => exact htop

/-- The variables with the codes of the ends. -/
def ends (p q : K × K) : Ends K where
  x1 := p.1
  y1 := p.2
  x2 := q.1
  y2 := q.2
  outcode1 := code v p
  outcode2 := code v q

section Turn

variable [IsStrictOrderedRing K] {v} (hx : v.viewportLeft ≤ v.viewportRight)
  (hy : v.viewportTop ≤ v.viewportBottom) {p q : K × K}
include hx hy

theorem code_eq_zero_iff : code v p = 0 ↔ outside (halfPlane v) p = ∅ := by
  rw [eq_zero_iff_bit (code_lt v p), Finset.eq_empty_iff_forall_notMem]
  refine forall_congr' fun i => ?_
  rw [← code_side v hx hy, not_not]

theorem code_and_ne_zero_iff : code v p &&& code v q ≠ 0
    ↔ ¬ Disjoint (outside (halfPlane v) p) (outside (halfPlane v) q) := by
  rw [and_ne_zero_iff_bit (code_lt v p) (code_lt v q), Finset.not_disjoint_iff]
  refine exists_congr fun i => ?_
  rw [code_side v hx hy, code_side v hx hy]

/-- A turn with both ends on screen returns them. -/
theorem turn_inside (hp : outside (halfPlane v) p = ∅) (hq : outside (halfPlane v) q = ∅) :
    turn v (ends v p q) = .ok (.inl (.visible p.1 p.2 q.1 q.2)) := by
  have hzero : code v p ||| code v q = 0 := by
    rw [(code_eq_zero_iff hx hy).mpr hp, (code_eq_zero_iff hx hy).mpr hq]
    rfl
  exact if_pos hzero

/-- A turn with both ends beyond a common side returns that nothing is on
screen. -/
theorem turn_common
    (hcommon : ¬ Disjoint (outside (halfPlane v) p) (outside (halfPlane v) q)) :
    turn v (ends v p q) = .ok (.inl .invisible) := by
  have hand := (code_and_ne_zero_iff hx hy).mpr hcommon
  have hor : ¬ code v p ||| code v q = 0 := by
    intro h
    rw [(Nat.or_eq_zero_iff.mp h).1, Nat.zero_and] at hand
    exact hand rfl
  exact (if_neg hor).trans (if_pos hand)

/-- **Any other turn is a clipping step.** -/
theorem turn_move (hdisjoint : Disjoint (outside (halfPlane v) p) (outside (halfPlane v) q))
    (hout : ¬ (outside (halfPlane v) p = ∅ ∧ outside (halfPlane v) q = ∅)) :
    ∃ p' q', Move (halfPlane v) p q p' q'
      ∧ turn v (ends v p q) = .ok (.inr (ends v p' q')) := by
  have hor : ¬ code v p ||| code v q = 0 := by
    rwa [Nat.or_eq_zero_iff, code_eq_zero_iff hx hy, code_eq_zero_iff hx hy]
  have hand : ¬ code v p &&& code v q ≠ 0 := by
    rwa [code_and_ne_zero_iff hx hy, not_not]
  have hturn : turn v (ends v p q) = (do
      let outcodeOut := if code v p ≠ 0 then code v p else code v q
      let (x, y) ← cut v outcodeOut p.1 p.2 q.1 q.2
      if outcodeOut = code v p then
        return .inr { ends v p q with x1 := x, y1 := y, outcode1 := computeOutCode v x y }
      else
        return .inr { ends v p q with x2 := x, y2 := y, outcode2 := computeOutCode v x y }) :=
    (if_neg hor).trans (if_neg hand)
  rw [hturn]
  by_cases hp : code v p ≠ 0
  · obtain ⟨i, hi, hcut⟩ := cut_eq v (code_lt v p) hp
    have hip := (code_side v hx hy p i).mp hi
    have hiq := Finset.disjoint_left.mp hdisjoint hip
    have hne : (halfPlane v i).functional p ≠ (halfPlane v i).functional q :=
      (((notMem_outside_iff _).mp hiq).trans_lt ((mem_outside_iff _).mp hip)).ne'
    refine ⟨_, _, .first i hip hiq, ?_⟩
    simp only [if_pos hp, hcut p q hne, if_true]
    rfl
  · -- the first end is on screen, so that it is the second one that moves
    have hzero : code v p = 0 := not_ne_iff.mp hp
    have hq : code v q ≠ 0 := fun h => hor (Nat.or_eq_zero_iff.mpr ⟨hzero, h⟩)
    obtain ⟨i, hi, hcut⟩ := cut_eq v (code_lt v q) hq
    have hiq := (code_side v hx hy q i).mp hi
    have hip := Finset.disjoint_right.mp hdisjoint hiq
    have hne : (halfPlane v i).functional p ≠ (halfPlane v i).functional q :=
      (((notMem_outside_iff _).mp hip).trans_lt ((mem_outside_iff _).mp hiq)).ne
    refine ⟨_, _, .second i hip hiq, ?_⟩
    have hother : ¬ code v q = code v p := fun h => hq (h.trans hzero)
    simp only [if_neg hp, hcut p q hne, if_neg hother, ← (halfPlane v i).crossing_comm hne]
    rfl

end Turn

/-! ## The loop -/

/-- What a result says of the part of the segment on screen. -/
def Clipped.Shows (S : Set (K × K)) : Clipped K → Prop
  | .visible x1 y1 x2 y2 => segment K (x1, y1) (x2, y2) = S
  | .invisible => S = ∅

/-- **The loop ends**, with the part of the segment on screen. -/
theorem clipLoop_shows [IsStrictOrderedRing K] (hx : v.viewportLeft ≤ v.viewportRight)
    (hy : v.viewportTop ≤ v.viewportBottom) (n : ℕ) (p q : K × K)
    (hn : Disjoint (outside (halfPlane v) p) (outside (halfPlane v) q) →
      (outside (halfPlane v) p).card + (outside (halfPlane v) q).card ≤ n) :
    ∃ result : Clipped K, (∀ fuel > n, clipLoop v fuel (ends v p q) = .ok result)
      ∧ result.Shows (segment K p q ∩ v.box) := by
  rw [box_eq]
  refine clipping_induction (P := fun n p q => ∃ result : Clipped K,
    (∀ fuel > n, clipLoop v fuel (ends v p q) = .ok result)
      ∧ result.Shows (segment K p q ∩ polyhedron (halfPlane v))) ?_ ?_ ?_ n p q hn
  · intro n p q hp hq
    refine ⟨.visible p.1 p.2 q.1 q.2, fun fuel hfuel => ?_,
      (segment_inter_of_inside _ hp hq).symm⟩
    obtain ⟨fuel, rfl⟩ := Nat.exists_eq_succ_of_ne_zero (Nat.ne_zero_of_lt hfuel)
    rw [clipLoop, turn_inside hx hy hp hq]
    rfl
  · intro n p q hcommon
    obtain ⟨i, hp, hq⟩ := Finset.not_disjoint_iff.mp hcommon
    refine ⟨.invisible, fun fuel hfuel => ?_, segment_inter_of_common _ hp hq⟩
    obtain ⟨fuel, rfl⟩ := Nat.exists_eq_succ_of_ne_zero (Nat.ne_zero_of_lt hfuel)
    rw [clipLoop, turn_common hx hy hcommon]
    rfl
  · intro p q hdisjoint hout
    obtain ⟨p', q', hmove, hturn⟩ := turn_move hx hy hdisjoint hout
    refine ⟨p', q', hmove, ?_⟩
    rintro n ⟨result, hloop, hshows⟩
    refine ⟨result, fun fuel hfuel => ?_, ?_⟩
    · obtain ⟨fuel, rfl⟩ := Nat.exists_eq_succ_of_ne_zero (Nat.ne_zero_of_lt hfuel)
      rw [clipLoop, hturn]
      exact hloop fuel (Nat.lt_of_succ_lt_succ hfuel)
    · rwa [hmove.segment_inter] at hshows

/-- The ends are beyond four sides at most, unless they share one. -/
theorem card_outside_add_le (p q : K × K)
    (h : Disjoint (outside (halfPlane v) p) (outside (halfPlane v) q)) :
    (outside (halfPlane v) p).card + (outside (halfPlane v) q).card ≤ 4 := by
  rw [← Finset.card_union_of_disjoint h]
  exact Finset.card_le_univ _

/-- **Clipping is exact and ends.** For a viewport with its sides in order and
any segment, the loop ends within five turns without dividing by zero. It
returns that nothing is visible exactly where the segment does not meet the
viewport, and else two ends between which the segment is what the two have in
common. -/
theorem clipLine_exact [IsStrictOrderedRing K] (hx : v.viewportLeft ≤ v.viewportRight)
    (hy : v.viewportTop ≤ v.viewportBottom) (x1 y1 x2 y2 : K) :
    ∃ result : Clipped K, (∀ fuel ≥ 5, clipLine v fuel x1 y1 x2 y2 = .ok result)
      ∧ (result = .invisible ↔ segment K (x1, y1) (x2, y2)
        ∩ Set.Icc (v.viewportLeft, v.viewportTop) (v.viewportRight, v.viewportBottom) = ∅)
      ∧ ∀ a b c d, result = .visible a b c d →
        segment K (a, b) (c, d) = segment K (x1, y1) (x2, y2)
          ∩ Set.Icc (v.viewportLeft, v.viewportTop) (v.viewportRight, v.viewportBottom) := by
  obtain ⟨result, hloop, hshows⟩ := clipLoop_shows v hx hy 4 (x1, y1) (x2, y2)
    (card_outside_add_le v (x1, y1) (x2, y2))
  refine ⟨result, hloop, ?_, ?_⟩
  · cases result with
    | visible a b c d =>
      have hpart : segment K (a, b) (c, d) = segment K (x1, y1) (x2, y2) ∩ v.box := hshows
      refine iff_of_false nofun fun hempty => ?_
      have hmem := left_mem_segment K (a, b) (c, d)
      rw [hpart] at hmem
      exact (Set.eq_empty_iff_forall_notMem.mp hempty) _ hmem
    | invisible => exact iff_of_true rfl hshows
  · rintro a b c d rfl
    exact hshows

/-- A segment from beyond one corner of the viewport to beyond another. -/
theorem clipLine_exact_diagonal :
    ∃ result : Clipped ℚ,
      (∀ fuel ≥ 5, clipLine ⟨0, 10, 0, 10⟩ fuel (-5) (-10) 20 30 = .ok result)
      ∧ (result = .invisible ↔
        segment ℚ ((-5 : ℚ), (-10 : ℚ)) (20, 30) ∩ Set.Icc (0, 0) (10, 10) = ∅)
      ∧ ∀ a b c d, result = .visible a b c d →
        segment ℚ (a, b) (c, d)
          = segment ℚ ((-5 : ℚ), (-10 : ℚ)) (20, 30) ∩ Set.Icc (0, 0) (10, 10) :=
  clipLine_exact (⟨0, 10, 0, 10⟩ : Viewport ℚ) (by decide) (by decide) (-5) (-10) 20 30

example : clipLine (⟨0, 10, 0, 10⟩ : Viewport ℚ) 5 (-5) (-10) 20 30
    = .ok (.visible (5 / 4) 0 (15 / 2) 10) := by decide +kernel

end ClipLine
