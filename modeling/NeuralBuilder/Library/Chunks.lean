import Mathlib.Algebra.BigOperators.Field
import Mathlib.Algebra.BigOperators.Fin
import Mathlib.Algebra.Order.Floor.Div

/-!
# Cutting a range into chunks

`m` positions are cut into chunks of `s` positions each, in order, and the
last chunk takes what is left. There are `m ⌈/⌉ s` chunks, chunk `k` starts
at position `k * s`, and `size m s k` positions are in it.

Every position is in exactly one chunk, so that a sum over the positions is
the sum of the sums over the chunks (`sum_chunks`), and a list is its chunks
put together again (`flatten_chunks`). The mean over the positions is the
mean of the means over the chunks for chunks of equal size only
(`meanOfMeans_eq`, `meanOfMeans_last_ne`).
-/

namespace Chunks

variable {m s k : ℕ}

/-- The number of positions in chunk `k`. -/
def size (m s k : ℕ) : ℕ := min s (m - k * s)

/-- The chunks are those that start at a position. -/
theorem lt_count_iff (hs : 0 < s) : k < m ⌈/⌉ s ↔ k * s < m := by
  rw [← not_le, ceilDiv_le_iff_le_mul hs, not_le, mul_comm]

theorem count_pos (hs : 0 < s) (hm : 0 < m) : 0 < m ⌈/⌉ s := by
  rw [lt_count_iff hs, zero_mul]
  exact hm

/-- The chunks reach the last position. -/
theorem le_count_mul (hs : 0 < s) : m ≤ (m ⌈/⌉ s) * s := by
  rw [mul_comm]
  exact le_smul_ceilDiv hs

theorem start_add_size (h : k * s ≤ m) : k * s + size m s k = min ((k + 1) * s) m := by
  unfold size
  rw [Nat.succ_mul]
  omega

theorem start_add_size_le (h : k * s ≤ m) : k * s + size m s k ≤ m :=
  (start_add_size h).trans_le (min_le_right _ _)

theorem start_le (h : k < m ⌈/⌉ s) : k * s ≤ m := by
  rcases Nat.eq_zero_or_pos s with rfl | hs
  · exact Nat.zero_le m
  · exact ((lt_count_iff hs).mp h).le

theorem fits (h : k < m ⌈/⌉ s) : k * s + size m s k ≤ m := start_add_size_le (start_le h)

/-- A chunk that starts at a position is not empty. -/
theorem size_pos (hs : 0 < s) (h : k * s < m) : 0 < size m s k :=
  lt_min hs (Nat.sub_pos_of_lt h)

/-- A chunk that ends at a position or before is full. -/
theorem size_full (h : (k + 1) * s ≤ m) : size m s k = s := by
  rw [Nat.succ_mul] at h
  exact min_eq_left (Nat.le_sub_of_add_le' h)

/-- The last chunk takes what is left. -/
theorem size_rest (h : m ≤ (k + 1) * s) : size m s k = m - k * s := by
  rw [Nat.succ_mul] at h
  exact min_eq_right (Nat.sub_le_iff_le_add'.mpr h)

/-- **Every position is in exactly one chunk.** -/
theorem existsUnique_chunk (hs : 0 < s) {j : ℕ} (hj : j < m) :
    ∃! k, k * s ≤ j ∧ j < k * s + size m s k := by
  have hstart : j / s * s ≤ j := Nat.div_mul_le_self j s
  refine ⟨j / s, ⟨hstart, ?_⟩, fun k ⟨hle, hlt⟩ => ?_⟩
  · rw [start_add_size (hstart.trans hj.le)]
    exact lt_min ((Nat.div_lt_iff_lt_mul hs).mp (Nat.lt_succ_self _)) hj
  · rw [start_add_size (hle.trans hj.le)] at hlt
    refine le_antisymm ((Nat.le_div_iff_mul_le hs).mpr hle) (Nat.lt_succ_iff.mp ?_)
    exact (Nat.div_lt_iff_lt_mul hs).mpr (hlt.trans_le (min_le_left _ _))

/-- A position has one chunk and one place in it. -/
theorem place_unique (hs : 0 < s) {k' : ℕ} {q q' : ℕ} (hq : q < s) (hq' : q' < s)
    (h : k * s + q = k' * s + q') : k = k' ∧ q = q' := by
  have hk : k = k' := by
    have hdiv : (k * s + q) / s = (k' * s + q') / s := congrArg (· / s) h
    rwa [mul_comm k, mul_comm k', Nat.mul_add_div hs, Nat.mul_add_div hs, Nat.div_eq_of_lt hq,
      Nat.div_eq_of_lt hq', add_zero, add_zero] at hdiv
  subst hk
  exact ⟨rfl, Nat.add_left_cancel h⟩

/-- Position `q` of chunk `k`. -/
def position (k : Fin (m ⌈/⌉ s)) (q : Fin (size m s k)) : Fin m :=
  ⟨k * s + q, (Nat.add_lt_add_left q.isLt _).trans_le (fits k.isLt)⟩

/-- Every position is a position of a chunk. -/
theorem exists_position (hs : 0 < s) (j : Fin m) :
    ∃ (k : Fin (m ⌈/⌉ s)) (q : Fin (size m s k)), position k q = j := by
  obtain ⟨k, ⟨hle, hlt⟩, -⟩ := existsUnique_chunk hs j.isLt
  exact ⟨⟨k, (lt_count_iff hs).mpr (hle.trans_lt j.isLt)⟩,
    ⟨j - k * s, Nat.sub_lt_left_of_lt_add hle hlt⟩, Fin.ext (Nat.add_sub_cancel' hle)⟩

theorem position_bijective (hs : 0 < s) :
    Function.Bijective fun x : Σ k : Fin (m ⌈/⌉ s), Fin (size m s k) => position x.1 x.2 := by
  refine ⟨fun x y h => ?_, fun j => ?_⟩
  · obtain ⟨k, q⟩ := x
    obtain ⟨k', q'⟩ := y
    obtain ⟨hk, hq⟩ := place_unique hs (q.isLt.trans_le (min_le_left _ _))
      (q'.isLt.trans_le (min_le_left _ _)) (congrArg Fin.val h)
    obtain rfl := Fin.ext hk
    obtain rfl := Fin.ext hq
    rfl
  · obtain ⟨k, q, hj⟩ := exists_position hs j
    exact ⟨⟨k, q⟩, hj⟩

/-- **Functions on the chunks are the parts of one function.** -/
theorem exists_glue {β : Type*} (hs : 0 < s) (P : ∀ k : Fin (m ⌈/⌉ s), Fin (size m s k) → β) :
    ∃ f : Fin m → β, ∀ k q, f (position k q) = P k q := by
  obtain ⟨place, hplace, -⟩ := Function.bijective_iff_has_inverse.mp (position_bijective hs)
  refine ⟨fun j => P (place j).1 (place j).2, fun k q => ?_⟩
  exact congrArg (fun x : Σ k : Fin (m ⌈/⌉ s), Fin (size m s k) => P x.1 x.2) (hplace ⟨k, q⟩)

/-- **A sum over the positions is the sum of the sums over the chunks.** -/
theorem sum_chunks {M : Type*} [AddCommMonoid M] (f : Fin m → M) (hs : 0 < s) :
    ∑ k : Fin (m ⌈/⌉ s), ∑ q, f (position k q) = ∑ j, f j := by
  rw [← Fintype.sum_sigma' fun (k : Fin (m ⌈/⌉ s)) (q : Fin (size m s k)) => f (position k q)]
  exact Fintype.sum_bijective _ (position_bijective hs) _ _ fun _ => rfl

/-! ## Lists -/

section Lists

variable {α : Type*}

/-- The chunks before chunk `k` are the entries before it. -/
theorem flatten_chunks_before (l : List α) (s k : ℕ) :
    ((List.range k).map fun i => (l.drop (i * s)).take (size l.length s i)).flatten
      = l.take (k * s) := by
  induction k with
  | zero => simp
  | succ k ih =>
    rw [List.range_succ, List.map_append, List.flatten_append, ih, Nat.succ_mul, List.take_add]
    refine congrArg (List.append _) ?_
    rw [List.map_singleton, List.flatten_singleton, size, ← List.length_drop,
      ← List.take_eq_take_min]

/-- **A list is its chunks put together again.** -/
theorem flatten_chunks (l : List α) (hs : 0 < s) :
    ((List.range (l.length ⌈/⌉ s)).map fun k =>
      (l.drop (k * s)).take (size l.length s k)).flatten = l := by
  rw [flatten_chunks_before, List.take_of_length_le (le_count_mul hs)]

end Lists

/-! ## Means -/

section Means

/-- The chunks are equal where the last one is full, and where there is one
only. -/
def Even (m s : ℕ) : Prop := s ∣ m ∨ m ≤ s

/-- **Equal chunks** have the same number of positions each. -/
theorem Even.exists_size (h : Even m s) (hs : 0 < s) (hm : 0 < m) :
    ∃ c, m ⌈/⌉ s * c = m ∧ ∀ k < m ⌈/⌉ s, size m s k = c := by
  rcases h with ⟨d, rfl⟩ | h
  · have hcount : (s * d) ⌈/⌉ s = d := smul_ceilDiv hs d
    refine ⟨s, by rw [hcount, mul_comm], fun k hk => size_full ?_⟩
    rw [hcount] at hk
    rw [mul_comm s d]
    exact Nat.mul_le_mul_right s hk
  · have hcount : m ⌈/⌉ s = 1 :=
      le_antisymm ((ceilDiv_le_iff_le_mul hs).mpr (by rwa [mul_one])) (count_pos hs hm)
    refine ⟨m, by rw [hcount, one_mul], fun k hk => ?_⟩
    obtain rfl : k = 0 := Nat.lt_one_iff.mp (hcount ▸ hk)
    rw [size_rest (by rwa [zero_add, one_mul]), zero_mul, Nat.sub_zero]

variable {K : Type*} [Field K]

/-- The mean over the positions. -/
def mean (f : Fin m → K) : K := (∑ j, f j) / (m : K)

theorem mul_mean [CharZero K] (hm : 0 < m) (f : Fin m → K) : (m : K) * mean f = ∑ j, f j :=
  mul_div_cancel₀ _ (Nat.cast_ne_zero.mpr hm.ne')

/-- **The mean over two parts** is that of their means, weighted with the number
of their positions. -/
theorem mean_parts [CharZero K] {m₁ m₂ : ℕ} (h₁ : 0 < m₁) (h₂ : 0 < m₂)
    (f : Fin (m₁ + m₂) → K) :
    mean f * ((m₁ : K) + m₂)
      = m₁ * mean (fun j => f (Fin.castAdd m₂ j)) + m₂ * mean fun j => f (Fin.natAdd m₁ j) := by
  rw [mul_mean h₁, mul_mean h₂, ← Fin.sum_univ_add, mul_comm, ← Nat.cast_add,
    mul_mean (Nat.add_pos_left h₁ m₂)]

/-- The mean over a chunk. -/
def chunkMean (s : ℕ) (f : Fin m → K) (k : Fin (m ⌈/⌉ s)) : K :=
  mean fun q => f (position k q)

/-- The mean of the means over the chunks. -/
def meanOfMeans (s : ℕ) (f : Fin m → K) : K := mean (chunkMean s f)

/-- **Over equal chunks the mean of the means is the mean.** -/
theorem meanOfMeans_eq (h : Even m s) (hs : 0 < s) (hm : 0 < m) (f : Fin m → K) :
    meanOfMeans s f = mean f := by
  obtain ⟨c, hcm, hsize⟩ := h.exists_size hs hm
  have hsum : ∑ k, chunkMean s f k = (∑ j, f j) / (c : K) := by
    rw [← sum_chunks f hs, Finset.sum_div]
    refine Finset.sum_congr rfl fun k _ => ?_
    exact congrArg (fun c : ℕ => (∑ q, f (position k q)) / (c : K)) (hsize k k.isLt)
  rw [meanOfMeans, mean, hsum, mean, div_div, mul_comm, ← Nat.cast_mul, hcm]

/-- The function that counts the last position only. -/
def last (j : Fin m) : K := if (j : ℕ) + 1 = m then 1 else 0

theorem mean_last (hm : 0 < m) : mean (last : Fin m → K) = 1 / (m : K) := by
  obtain ⟨m, rfl⟩ := Nat.exists_eq_add_one.mpr hm
  refine congrArg (· / _) ?_
  rw [Fintype.sum_eq_single (Fin.last m)]
  · exact if_pos rfl
  intro j hj
  exact if_neg fun h => hj (Fin.ext (Nat.succ_injective h))

/-- The last position of uneven chunks is the last one of the chunk that is
not full. -/
theorem meanOfMeans_last (hs : 0 < s) (h : ¬ s ∣ m) :
    meanOfMeans s (last : Fin m → K) = 1 / (((m % s) * (m / s + 1) : ℕ) : K) := by
  have hrest : 0 < m % s := Nat.pos_of_ne_zero fun h0 => h (Nat.dvd_of_mod_eq_zero h0)
  have hm : m / s * s + m % s = m := Nat.div_add_mod' m s
  have hcount : m ⌈/⌉ s = m / s + 1 := by
    refine eq_of_forall_lt_iff fun k => ?_
    rw [lt_count_iff hs, Nat.lt_succ_iff, Nat.le_div_iff_mul_le hs]
    exact ⟨le_of_lt, fun hle => hle.lt_of_ne fun heq => h (heq ▸ Nat.dvd_mul_left s k)⟩
  have hk : m / s < m ⌈/⌉ s := hcount ▸ Nat.lt_succ_self _
  have hsize : size m s (m / s) = m % s := by
    rw [size_rest (hcount ▸ le_count_mul hs)]
    omega
  -- the last position is the last one of the last chunk
  have hlast : chunkMean s (last : Fin m → K) ⟨m / s, hk⟩ = 1 / ((m % s : ℕ) : K) := by
    have hin : ∀ q : Fin (size m s (m / s)),
        (last (position ⟨m / s, hk⟩ q) : K) = last q := by
      intro q
      refine if_congr ?_ rfl rfl
      show m / s * s + q + 1 = m ↔ (q : ℕ) + 1 = size m s (m / s)
      omega
    rw [chunkMean, funext hin, mean_last (hsize ▸ hrest), hsize]
  -- and lies in no other chunk
  have hfull : ∀ k : Fin (m ⌈/⌉ s), k ≠ ⟨m / s, hk⟩ → chunkMean s (last : Fin m → K) k = 0 := by
    intro k hne
    have hbefore : (k : ℕ) < m / s :=
      (Nat.lt_succ_iff.mp (k.isLt.trans_eq hcount)).lt_of_ne fun heq => hne (Fin.ext heq)
    have hend : (k + 1) * s ≤ m / s * s := Nat.mul_le_mul_right s hbefore
    rw [Nat.succ_mul] at hend
    rw [chunkMean, mean, Finset.sum_eq_zero, zero_div]
    intro q _
    have hq : (q : ℕ) < s := q.isLt.trans_le (min_le_left _ _)
    refine if_neg ?_
    show ¬ (k : ℕ) * s + q + 1 = m
    omega
  rw [meanOfMeans, mean, Fintype.sum_eq_single _ hfull, hlast, hcount, div_div, ← Nat.cast_mul]

/-- **Over uneven chunks** the mean of the means can be another number. -/
theorem meanOfMeans_last_ne [CharZero K] (hs : 0 < s) (hm : 0 < m) (h : ¬ Even m s) :
    meanOfMeans s (last : Fin m → K) ≠ mean (last : Fin m → K) := by
  obtain ⟨hdvd, hlt⟩ := not_or.mp h
  intro heq
  rw [meanOfMeans_last hs hdvd, mean_last hm, one_div, one_div, inv_inj, Nat.cast_inj] at heq
  -- the chunk that is not full would have to be as large as the others
  have hrest : m % s < s := Nat.mod_lt m hs
  have hchunks : 0 < m / s := Nat.div_pos (not_le.mp hlt).le hs
  have hless : m % s * (m / s + 1) < s * (m / s) + m % s := by
    rw [Nat.mul_succ]
    exact Nat.add_lt_add_right (Nat.mul_lt_mul_of_pos_right hrest hchunks) _
  rw [Nat.div_add_mod] at hless
  exact hless.ne heq

end Means

end Chunks
