import Mathlib.Analysis.Convex.Segment
import Mathlib.Analysis.Convex.Basic
import Mathlib.Data.Finset.Card
import Mathlib.Tactic.FieldSimp
import Mathlib.Tactic.Linarith

/-!
# Clipping a segment at half-spaces

A half-space is given by a linear functional and a bound. A segment with one
end outside a half-space and the other one inside crosses its boundary at one
point, and what is left of it inside is the part from that point on
(`segment_crossing`). For a family of half-spaces, moving an end to a crossing
leaves the part inside all of them as it is, and the end is outside fewer
half-spaces than before, unless both ends are outside a common one then
(`card_outside_crossing_lt`). In that case nothing of the segment is inside.
A clipping algorithm makes such moves (`Move`) until both ends are inside or
outside a common half-space, and `clipping_induction` is the rule for its loop.
-/

namespace HalfSpaces

variable {K E ι : Type} [Field K] [LinearOrder K] [IsStrictOrderedRing K] [AddCommGroup E]
  [Module K E]

/-- A half-space: the points at which the functional is at most the bound. -/
structure HalfSpace (K E : Type) [Field K] [AddCommGroup E] [Module K E] where
  /-- What is measured of a point. -/
  functional : E →ₗ[K] K
  /-- What it may come to. -/
  bound : K

namespace HalfSpace

variable (h : HalfSpace K E) {p q x : E}

/-- The points inside. -/
def inside : Set E := {x | h.functional x ≤ h.bound}

/-- Where the line through two points meets the boundary. -/
def crossing (p q : E) : E :=
  p + ((h.bound - h.functional p) / (h.functional q - h.functional p)) • (q - p)

omit [LinearOrder K] [IsStrictOrderedRing K] in
/-- The crossing lies on the boundary. -/
theorem functional_crossing (hne : h.functional p ≠ h.functional q) :
    h.functional (h.crossing p q) = h.bound := by
  have hsub : h.functional q - h.functional p ≠ 0 := sub_ne_zero.mpr hne.symm
  rw [crossing, map_add, map_smul, map_sub, smul_eq_mul, div_mul_cancel₀ _ hsub]
  exact add_sub_cancel _ _

omit [LinearOrder K] [IsStrictOrderedRing K] in
/-- The boundary has no side. -/
theorem crossing_neg (f : E →ₗ[K] K) (b : K) (p q : E) :
    (⟨-f, -b⟩ : HalfSpace K E).crossing p q = (⟨f, b⟩ : HalfSpace K E).crossing p q := by
  have hratio : (-b - (-f) p) / ((-f) q - (-f) p) = (b - f p) / (f q - f p) := by
    rw [LinearMap.neg_apply, LinearMap.neg_apply, neg_sub_neg, neg_sub_neg, ← neg_sub b,
      ← neg_sub (f q), neg_div_neg_eq]
  show p + _ • (q - p) = p + _ • (q - p)
  rw [hratio]

omit [LinearOrder K] [IsStrictOrderedRing K] in
/-- The line has no direction. -/
theorem crossing_comm (hne : h.functional p ≠ h.functional q) :
    h.crossing p q = h.crossing q p := by
  have hsub : h.functional q - h.functional p ≠ 0 := sub_ne_zero.mpr hne.symm
  have hsub' : h.functional p - h.functional q ≠ 0 := sub_ne_zero.mpr hne
  have hratio : (h.bound - h.functional q) / (h.functional p - h.functional q)
      = 1 - (h.bound - h.functional p) / (h.functional q - h.functional p) := by
    rw [← neg_sub (h.functional q) (h.functional p)]
    field_simp
    ring
  rw [crossing, crossing, hratio, sub_smul, one_smul, ← neg_sub q p, smul_neg]
  abel

/-- **The crossing of a segment that leaves the half-space** is one of its
points. -/
theorem crossing_mem_segment (hp : h.bound < h.functional p) (hq : h.functional q ≤ h.bound) :
    h.crossing p q ∈ segment K p q := by
  rw [segment_eq_image']
  refine ⟨_, ⟨?_, ?_⟩, rfl⟩
  · exact div_nonneg_of_nonpos (by linarith) (by linarith)
  · rw [div_le_one_of_neg (by linarith)]
    linarith

theorem convex_inside : Convex K h.inside :=
  convex_halfSpace_le h.functional.isLinear h.bound

/-- **What is left of the segment** is the part from the crossing on. -/
theorem segment_crossing (hp : h.bound < h.functional p) (hq : h.functional q ≤ h.bound) :
    segment K (h.crossing p q) q = segment K p q ∩ h.inside := by
  have hne : h.functional p ≠ h.functional q := (hq.trans_lt hp).ne'
  have hneg : h.functional q - h.functional p < 0 := by linarith
  refine Set.Subset.antisymm ?_ ?_
  · refine ((convex_segment p q).inter h.convex_inside).segment_subset ?_ ?_
    · exact ⟨h.crossing_mem_segment hp hq, (h.functional_crossing hne).le⟩
    · exact ⟨right_mem_segment K p q, hq⟩
  · rintro x ⟨hx, hinside⟩
    rw [segment_eq_image'] at hx
    obtain ⟨θ, ⟨-, hθ⟩, rfl⟩ := hx
    set t := (h.bound - h.functional p) / (h.functional q - h.functional p) with ht
    -- the point comes after the crossing
    have hle : t ≤ θ := by
      have hvalue : h.functional p + θ * (h.functional q - h.functional p) ≤ h.bound := by
        have : h.functional (p + θ • (q - p)) ≤ h.bound := hinside
        rwa [map_add, map_smul, map_sub, smul_eq_mul] at this
      rw [ht, div_le_iff_of_neg hneg]
      linarith
    rw [segment_eq_image']
    refine ⟨(θ - t) / (1 - t), ⟨div_nonneg (by linarith) (by linarith),
      div_le_one_of_le₀ (by linarith) (by linarith)⟩, ?_⟩
    have hfactor : t + (θ - t) / (1 - t) * (1 - t) = θ := by
      by_cases hone : 1 - t = 0
      · rw [hone, mul_zero]
        linarith
      · rw [div_mul_cancel₀ _ hone, add_sub_cancel]
    have hrest : q - h.crossing p q = (1 - t) • (q - p) := by
      rw [crossing, ← ht, sub_smul, one_smul]
      abel
    show h.crossing p q + ((θ - t) / (1 - t)) • (q - h.crossing p q) = p + θ • (q - p)
    rw [hrest, smul_smul, crossing, ← ht, add_assoc, ← add_smul, hfactor]

end HalfSpace

/-! ## Families of half-spaces -/

variable [Fintype ι] (H : ι → HalfSpace K E) {p q : E}

/-- The points inside all half-spaces. -/
def polyhedron : Set E := {x | ∀ i, x ∈ (H i).inside}

/-- The half-spaces a point is outside of. -/
def outside (p : E) : Finset ι :=
  Finset.univ.filter fun i => (H i).bound < (H i).functional p

omit [IsStrictOrderedRing K] in
theorem mem_outside_iff {i : ι} : i ∈ outside H p ↔ (H i).bound < (H i).functional p := by
  rw [outside, Finset.mem_filter, and_iff_right (Finset.mem_univ i)]

omit [IsStrictOrderedRing K] in
theorem notMem_outside_iff {i : ι} : i ∉ outside H p ↔ (H i).functional p ≤ (H i).bound := by
  rw [mem_outside_iff, not_lt]

omit [IsStrictOrderedRing K] in
theorem outside_eq_empty_iff : outside H p = ∅ ↔ p ∈ polyhedron H := by
  rw [Finset.eq_empty_iff_forall_notMem]
  exact forall_congr' fun i => notMem_outside_iff H

omit [Fintype ι] in
theorem convex_polyhedron : Convex K (polyhedron H) := by
  have h : polyhedron H = ⋂ i, (H i).inside := by
    ext x
    exact Set.mem_iInter.symm
  rw [h]
  exact convex_iInter fun i => (H i).convex_inside

/-- A segment with both ends inside is inside. -/
theorem segment_inter_of_inside (hp : outside H p = ∅) (hq : outside H q = ∅) :
    segment K p q ∩ polyhedron H = segment K p q :=
  Set.inter_eq_left.mpr ((convex_polyhedron H).segment_subset
    ((outside_eq_empty_iff H).mp hp) ((outside_eq_empty_iff H).mp hq))

/-- **A segment with both ends outside a half-space** has no point inside all
of them. -/
theorem segment_inter_of_common {i : ι} (hp : i ∈ outside H p) (hq : i ∈ outside H q) :
    segment K p q ∩ polyhedron H = ∅ := by
  rw [mem_outside_iff] at hp hq
  have hout := (convex_halfSpace_gt (H i).functional.isLinear (H i).bound).segment_subset hp hq
  rw [Set.eq_empty_iff_forall_notMem]
  rintro x ⟨hx, hinside⟩
  exact (hout hx).not_ge (hinside i)

/-- **Moving an end to a crossing** leaves what is inside. -/
theorem segment_crossing_inter {i : ι} (hp : i ∈ outside H p) (hq : i ∉ outside H q) :
    segment K ((H i).crossing p q) q ∩ polyhedron H = segment K p q ∩ polyhedron H := by
  rw [mem_outside_iff] at hp
  rw [notMem_outside_iff] at hq
  rw [(H i).segment_crossing hp hq, Set.inter_assoc]
  refine congrArg (segment K p q ∩ ·) (Set.inter_eq_right.mpr ?_)
  exact fun x hx => hx i

/-- The crossing is not outside its half-space, and outside another one only
with one of the ends. -/
theorem outside_crossing_subset [DecidableEq ι] {i : ι} (hp : i ∈ outside H p)
    (hq : i ∉ outside H q) :
    outside H ((H i).crossing p q) ⊆ (outside H p ∪ outside H q).erase i := by
  intro k hk
  have hp' := (mem_outside_iff H).mp hp
  have hq' := (notMem_outside_iff H).mp hq
  refine Finset.mem_erase.mpr ⟨?_, ?_⟩
  · rintro rfl
    rw [mem_outside_iff, (H k).functional_crossing (hq'.trans_lt hp').ne'] at hk
    exact lt_irrefl _ hk
  · by_contra hnot
    rw [Finset.mem_union, not_or, notMem_outside_iff, notMem_outside_iff] at hnot
    have hmem := (H k).convex_inside.segment_subset hnot.1 hnot.2
      ((H i).crossing_mem_segment hp' hq')
    exact ((mem_outside_iff H).mp hk).not_ge hmem

/-- **The end is outside fewer half-spaces**, unless it is outside one of those
the other end is outside of. -/
theorem card_outside_crossing_lt [DecidableEq ι] {i : ι} (hp : i ∈ outside H p)
    (hq : i ∉ outside H q)
    (hdisjoint : Disjoint (outside H ((H i).crossing p q)) (outside H q)) :
    (outside H ((H i).crossing p q)).card < (outside H p).card := by
  refine Finset.card_lt_card ((Finset.ssubset_iff_of_subset fun k hk => ?_).mpr ⟨i, hp, ?_⟩)
  · have hmem := (Finset.mem_erase.mp (outside_crossing_subset H hp hq hk)).2
    exact (Finset.mem_union.mp hmem).resolve_right (Finset.disjoint_left.mp hdisjoint hk)
  · exact fun hmem => (Finset.mem_erase.mp (outside_crossing_subset H hp hq hmem)).1 rfl

/-! ## Clipping -/

/-- **A clipping step** moves the end that is outside a half-space, the other
end being inside it, to the crossing. -/
inductive Move (p q : E) : E → E → Prop
  | first (i : ι) (hp : i ∈ outside H p) (hq : i ∉ outside H q) :
      Move p q ((H i).crossing p q) q
  | second (i : ι) (hp : i ∉ outside H p) (hq : i ∈ outside H q) :
      Move p q p ((H i).crossing q p)

variable {H} {p' q' : E}

/-- **A step leaves what is inside.** -/
theorem Move.segment_inter (h : Move H p q p' q') :
    segment K p' q' ∩ polyhedron H = segment K p q ∩ polyhedron H := by
  cases h with
  | first i hp hq => exact segment_crossing_inter H hp hq
  | second i hp hq =>
    rw [segment_symm, segment_crossing_inter H hq hp, segment_symm]

/-- **A step makes the ends outside of fewer half-spaces**, or leaves nothing
inside. -/
theorem Move.card_lt (h : Move H p q p' q') (hdisjoint : Disjoint (outside H p') (outside H q')) :
    (outside H p').card + (outside H q').card < (outside H p).card + (outside H q).card := by
  classical
  cases h with
  | first i hp hq => exact Nat.add_lt_add_right (card_outside_crossing_lt H hp hq hdisjoint) _
  | second i hp hq =>
    exact Nat.add_lt_add_left (card_outside_crossing_lt H hq hp hdisjoint.symm) _

/-- **The rule for a clipping loop.** What holds of ends that are inside, of
ends with a common half-space, and of ends that some step takes to ends it
holds of, holds of all ends, within as many steps as there are half-spaces the
ends are outside of. -/
theorem clipping_induction {P : ℕ → E → E → Prop}
    (inside : ∀ n p q, outside H p = ∅ → outside H q = ∅ → P n p q)
    (common : ∀ n p q, ¬ Disjoint (outside H p) (outside H q) → P n p q)
    (move : ∀ p q, Disjoint (outside H p) (outside H q) →
      ¬ (outside H p = ∅ ∧ outside H q = ∅) →
      ∃ p' q', Move H p q p' q' ∧ ∀ n, P n p' q' → P (n + 1) p q)
    (n : ℕ) (p q : E) (hn : Disjoint (outside H p) (outside H q) →
      (outside H p).card + (outside H q).card ≤ n) : P n p q := by
  induction n generalizing p q with
  | zero =>
    by_cases hdisjoint : Disjoint (outside H p) (outside H q)
    · have hcard := hn hdisjoint
      exact inside 0 p q (Finset.card_eq_zero.mp (by omega)) (Finset.card_eq_zero.mp (by omega))
    · exact common 0 p q hdisjoint
  | succ n ih =>
    by_cases hdisjoint : Disjoint (outside H p) (outside H q)
    · by_cases hinside : outside H p = ∅ ∧ outside H q = ∅
      · exact inside (n + 1) p q hinside.1 hinside.2
      · obtain ⟨p', q', hmove, hstep⟩ := move p q hdisjoint hinside
        refine hstep n (ih p' q' fun hdisjoint' => ?_)
        have hlt := hmove.card_lt hdisjoint'
        have hle := hn hdisjoint
        omega
    · exact common (n + 1) p q hdisjoint

end HalfSpaces
