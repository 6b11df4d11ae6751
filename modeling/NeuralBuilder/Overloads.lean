import NeuralBuilder.RealActivation

/-!
# The overloads of the activations

Each activation class has `activate` and `derivative` three times, on a
number, on a vector and on a matrix, written out by hand. The vector overloads
of softmax treat their argument as one sample, those of the others treat every
entry by itself.

The overloads of `activate` agree whatever the arithmetic
(`overloads_of_activate_agree`). Those of `derivative` agree for tanh and the
two rectifiers. The vector overload of sigmoid applies the sigmoid to its
argument first, which the others take to be a sigmoid already, and that of
softmax applies softmax to an argument that the matrix overload returns as it
is; `overloadsAgree_iff` says for which matrices this makes no difference.

`Agree` compares the matrix overload on a grid with the vector overload on its
columns, for softmax, and for the others with the vector overload on its rows
and the scalar one on its entries. A matrix without rows is refused by the
matrix overloads alone, which read row `0`.
-/

variable {α : Type} [Double α]

/-! ## The vector overloads -/

/-- `*std::max_element(v.begin(), v.end())`; an empty vector has no element to
read. -/
def stdMaxElement (v : Vec α) : Except Fault α :=
  match v with
  | [] => .error .outOfRange
  | first :: rest =>
    .ok (rest.foldl (fun largest x => if Double.lt largest x then x else largest) first)

namespace Sigmoid

def activateVec (input : Vec α) : Vec α := input.map fun x => 1 / (1 + Double.exp (-x))

def derivativeVec (a : Vec α) : Vec α :=
  a.map fun x =>
    let sigmoid_x := 1 / (1 + Double.exp (-x))
    sigmoid_x * (1 - sigmoid_x)

end Sigmoid

namespace Tanh

def activateVec (a : Vec α) : Vec α := a.map fun x => Double.tanh x

def derivativeVec (a : Vec α) : Vec α := a.map fun x => 1 - x * x

end Tanh

namespace Relu

def activateVec (input : Vec α) : Vec α := input.map fun x => stdMax 0 x

def derivativeVec (a : Vec α) : Vec α := a.map fun x => Double.ofBool (Double.lt 0 x)

end Relu

namespace LeakyRelu

def activateVec (input : Vec α) : Vec α := input.map fun x => stdMax (0.01 * x) x

def derivativeVec (a : Vec α) : Vec α := a.map fun x => if Double.lt 0 x then 1 else 0.01

end LeakyRelu

namespace Softmax

def activateVec (input : Vec α) : Except Fault (Vec α) := do
  let maxVal ← stdMaxElement input
  let (results, sumExp) ← Checked.loop input.length (fun (p : Vec α × α) i => do
    let val := Double.exp ((← Vec.at input i) - maxVal)
    return (← Vec.set p.1 i val, p.2 + val)) (List.replicate input.length 0, 0)
  Checked.loop input.length (fun results i => do
    Vec.set results i ((← Vec.at results i) / sumExp)) results

/-- Not meaningful for a number. -/
def derivative (_input : α) : α := 0

def derivativeVec (input : Vec α) : Except Fault (Vec α) := do
  let softmaxOutput ← activateVec input
  Checked.fill input.length fun i => do
    return (← Vec.at softmaxOutput i) * (1 - (← Vec.at softmaxOutput i))

end Softmax

namespace ActivationFunction

/-- `activate` on a vector. -/
def activateVec : ActivationFunction → Vec α → Except Fault (Vec α)
  | sigmoid => fun input => .ok (Sigmoid.activateVec input)
  | tanh => fun a => .ok (Tanh.activateVec a)
  | relu => fun input => .ok (Relu.activateVec input)
  | leakyRelu => fun input => .ok (LeakyRelu.activateVec input)
  | softmax => Softmax.activateVec

/-- `derivative` on a number. -/
def derivative : ActivationFunction → α → α
  | sigmoid => Sigmoid.derivative
  | tanh => Tanh.derivative
  | relu => Relu.derivative
  | leakyRelu => LeakyRelu.derivative
  | softmax => Softmax.derivative

/-- `derivative` on a vector. -/
def derivativeVec : ActivationFunction → Vec α → Except Fault (Vec α)
  | sigmoid => fun a => .ok (Sigmoid.derivativeVec a)
  | tanh => fun a => .ok (Tanh.derivativeVec a)
  | relu => fun a => .ok (Relu.derivativeVec a)
  | leakyRelu => fun a => .ok (LeakyRelu.derivativeVec a)
  | softmax => Softmax.derivativeVec

end ActivationFunction

/-! ## Softmax of a vector -/

namespace Softmax

variable {r : ℕ}

/-- The largest element is the one that the search down a column finds. -/
theorem stdMaxElement_ofFn (v : Fin r → α) (hr : 0 < r) :
    stdMaxElement (List.ofFn v) = .ok (columnMax v hr) := by
  obtain ⟨n, rfl⟩ := Nat.exists_eq_succ_of_ne_zero hr.ne'
  rw [List.ofFn_succ, stdMaxElement, Checked.foldl_ofFn]
  rfl

/-- **Softmax of a vector is softmax of a column**, computed in the same
order. -/
theorem activateVec_ofFn (v : Fin r → α) (hr : 0 < r) :
    activateVec (List.ofFn v) = .ok (List.ofFn (column v hr)) := by
  set max := columnMax v hr with hmax
  set sumExp := Fin.foldl r (fun s i => s + Double.exp (v i - max)) 0 with hsum
  have hexp : Checked.loop r (fun (p : Vec α × α) i => do
        let val := Double.exp ((← Vec.at (List.ofFn v) i) - max)
        return (← Vec.set p.1 i val, p.2 + val)) (List.ofFn fun _ : Fin r => 0, 0)
      = .ok (List.ofFn fun i => Double.exp (v i - max), sumExp) := by
    refine Checked.writePass_ok (fun w s => (List.ofFn w, s)) (fun _ => 0)
      (fun i => Double.exp (v i - max)) (fun s i => s + Double.exp (v i - max)) ?_ 0
    intro w s i _
    rw [Vec.at_ofFn, Checked.ok_bind]
    dsimp only
    rw [Vec.set_ofFn]
    rfl
  have hdiv : Checked.loop r (fun results i => do
        Vec.set results i ((← Vec.at results i) / sumExp))
        (List.ofFn fun i => Double.exp (v i - max))
      = .ok (List.ofFn fun i => Double.exp (v i - max) / sumExp) := by
    refine Checked.writePass_ok (fun w _ => List.ofFn w) (fun i => Double.exp (v i - max))
      (fun i => Double.exp (v i - max) / sumExp) (fun (_ : Unit) _ => ()) ?_ ()
    intro w _ i hw
    rw [Vec.at_ofFn, Checked.ok_bind, Vec.set_ofFn, hw]
  rw [activateVec, stdMaxElement_ofFn v hr, Checked.ok_bind, List.length_ofFn,
    ← List.ofFn_const, hexp, Checked.ok_bind]
  refine hdiv.trans (congrArg Except.ok (congrArg List.ofFn (funext fun i => ?_)))
  rw [column, Checked.foldl_ofFn]

theorem derivativeVec_ofFn (v : Fin r → α) (hr : 0 < r) :
    derivativeVec (List.ofFn v)
      = .ok (List.ofFn fun i => column v hr i * (1 - column v hr i)) := by
  rw [derivativeVec, activateVec_ofFn v hr, Checked.ok_bind, List.length_ofFn]
  exact Checked.fill_ok fun i => by rw [Vec.at_ofFn, Checked.ok_bind, Checked.ok_bind]; rfl

end Softmax

/-! ## When the overloads agree -/

namespace ActivationFunction

variable {r c : ℕ}

/-- **Three overloads agree on a matrix**: the one on matrices returns, and
what it returns has the results of the one on vectors as its rows and those of
the one on numbers as its entries. Softmax takes the columns, and has no
meaning for a number. -/
def Agree (act : ActivationFunction) (onMat : Mat α → Except Fault (Mat α))
    (onVec : Vec α → Except Fault (Vec α)) (onNum : α → α) (A : Fin r → Fin c → α) : Prop :=
  ∃ B : Fin r → Fin c → α, onMat (Grid.ofFn A) = .ok (Grid.ofFn B)
    ∧ if act = softmax then ∀ j, onVec (Grid.column A j) = .ok (Grid.column B j)
      else (∀ i, onVec (List.ofFn (A i)) = .ok (List.ofFn (B i)))
        ∧ ∀ i j, B i j = onNum (A i j)

/-- **The overloads of a class agree on a matrix**, those of `activate` and
those of `derivative`. -/
def OverloadsAgree (act : ActivationFunction) (A : Fin r → Fin c → α) : Prop :=
  act.Agree act.activateMat act.activateVec act.activate A
    ∧ act.Agree act.derivativeMat act.derivativeVec act.derivative A

section Agree

variable {act : ActivationFunction} {onMat : Mat α → Except Fault (Mat α)}
  {onVec : Vec α → Except Fault (Vec α)} {onNum f g : α → α} {A : Fin r → Fin c → α}

omit [Double α] in
/-- Overloads that treat every entry by itself agree where they do the same to
the entries. -/
theorem agree_iff_of_ne_softmax (hact : act ≠ softmax)
    (hmat : onMat (Grid.ofFn A) = .ok (Grid.ofFn fun i j => f (A i j)))
    (hvec : ∀ v, onVec v = .ok (v.map g)) :
    act.Agree onMat onVec onNum A
      ↔ (∀ i j, g (A i j) = f (A i j)) ∧ ∀ i j, f (A i j) = onNum (A i j) := by
  unfold Agree
  simp only [if_neg hact, hvec, List.map_ofFn, Except.ok.injEq, List.ofFn_inj]
  constructor
  · rintro ⟨B, hB, hrows, hentries⟩
    obtain rfl := Grid.ofFn_inj.mp (Except.ok.inj (hmat.symm.trans hB))
    exact ⟨fun i j => congrFun (hrows i) j, hentries⟩
  · rintro ⟨hrows, hentries⟩
    exact ⟨_, hmat, fun i => funext (hrows i), hentries⟩

omit [Double α] in
/-- The overloads of softmax agree where the columns do. -/
theorem agree_softmax_iff {B B' : Fin r → Fin c → α}
    (hmat : onMat (Grid.ofFn A) = .ok (Grid.ofFn B))
    (hvec : ∀ j, onVec (Grid.column A j) = .ok (Grid.column B' j)) :
    softmax.Agree onMat onVec onNum A ↔ ∀ i j, B' i j = B i j := by
  unfold Agree Grid.column at *
  simp only [if_pos, hvec, Except.ok.injEq, List.ofFn_inj]
  constructor
  · rintro ⟨B₀, hB, hcolumns⟩ i j
    obtain rfl := Grid.ofFn_inj.mp (Except.ok.inj (hmat.symm.trans hB))
    exact congrFun (hcolumns j) i
  · exact fun h => ⟨B, hmat, fun j => funext fun i => h i j⟩

end Agree

/-- The vector overloads of the other classes apply the one on numbers to every
entry. -/
theorem activateVec_of_ne_softmax {act : ActivationFunction} (hact : act ≠ softmax) (v : Vec α) :
    act.activateVec v = .ok (v.map act.activate) := by
  cases act <;> first | rfl | exact absurd rfl hact

/-- **The overloads of `activate` agree**, whatever the arithmetic. -/
theorem overloads_of_activate_agree (act : ActivationFunction) (A : Fin r → Fin c → α)
    (hr : 0 < r) : act.Agree act.activateMat act.activateVec act.activate A := by
  have hmat := act.activateMat_ofFn A hr
  by_cases hact : act = softmax
  · subst hact
    have hcolumns : ∀ j, softmax.activateVec (Grid.column A j)
        = .ok (Grid.column (fun i j => Softmax.column (fun i => A i j) hr i) j) :=
      fun j => Softmax.activateVec_ofFn (fun i => A i j) hr
    refine (agree_softmax_iff hmat hcolumns).mpr ?_
    intro i j
    rfl
  · rw [onGrid_of_ne_softmax hact] at hmat
    exact (agree_iff_of_ne_softmax hact hmat fun v => activateVec_of_ne_softmax hact v).mpr
      ⟨fun i j => rfl, fun i j => rfl⟩

/-- **The overloads of `derivative` agree** for tanh and the rectifiers,
whatever the arithmetic. -/
theorem overloads_of_derivative_agree {act : ActivationFunction}
    (hact : act = tanh ∨ act = relu ∨ act = leakyRelu) (A : Fin r → Fin c → α) (hr : 0 < r) :
    act.Agree act.derivativeMat act.derivativeVec act.derivative A := by
  have hmat := act.derivativeMat_ofFn A hr
  obtain rfl | rfl | rfl := hact <;>
  · refine (agree_iff_of_ne_softmax (by decide) hmat fun v => rfl).mpr ⟨?_, ?_⟩ <;>
    · intro i j
      rfl

/-- A matrix without rows has no first row, and no overload of `activate` on
it returns. -/
theorem pos_of_overloadsAgree {act : ActivationFunction} {A : Fin r → Fin c → α}
    (h : act.OverloadsAgree A) : 0 < r := by
  obtain ⟨⟨B, hB, -⟩, -⟩ := h
  rcases Nat.eq_zero_or_pos r with rfl | hr
  · rw [Grid.ofFn, List.ofFn_zero] at hB
    cases act <;> cases hB
  · exact hr

/-! ### Where the arguments of `derivative` make no difference -/

/-- The slope of the sigmoid at a number. -/
theorem slope_sigmoid_eq (x : ℝ) :
    1 / (1 + Real.exp (-x)) * (1 - 1 / (1 + Real.exp (-x)))
      = Real.exp x / (1 + Real.exp x) ^ 2 := by
  have hpos := Real.exp_pos x
  rw [Real.exp_neg]
  field_simp
  ring

/-- The numbers that are the output of a sigmoid with the slope that the
sigmoid has at themselves. -/
theorem slope_sigmoid_eq_iff (x : ℝ) :
    1 / (1 + Real.exp (-x)) * (1 - 1 / (1 + Real.exp (-x))) = x * (1 - x)
      ↔ x * (1 - x) * (1 + Real.exp x) ^ 2 = Real.exp x := by
  have hpos := Real.exp_pos x
  rw [slope_sigmoid_eq, div_eq_iff (by positivity)]
  exact eq_comm

/-- **A column on which softmax and its slope cancel is constant.** -/
theorem column_mul_one_sub_eq_iff (v : Fin r → ℝ) (hr : 0 < r) :
    (∀ i, Softmax.column v hr i * (1 - Softmax.column v hr i) = v i)
      ↔ ∀ i, v i = ((r : ℝ) - 1) / r ^ 2 := by
  have hr0 : (r : ℝ) ≠ 0 := Nat.cast_ne_zero.mpr hr.ne'
  constructor
  · intro h
    -- the larger of two entries would be larger by less than it is
    have hle : ∀ i k, v k ≤ v i := by
      intro i k
      by_contra hlt
      push Not at hlt
      have hs := (Softmax.column_lt_iff v hr i k).mpr hlt
      have hsi := Softmax.column_pos v hr i
      have hsk := Softmax.column_le_one v hr k
      have hratio : Softmax.column v hr k * (1 - (v k - v i)) ≤ Softmax.column v hr i := by
        rw [Softmax.column_eq_exp_mul v hr k i, mul_comm]
        refine mul_le_mul_of_nonneg_right ?_ (hsi.le.trans hs.le)
        have := Real.add_one_le_exp (v i - v k)
        linarith
      have hd : v k - v i = (Softmax.column v hr k - Softmax.column v hr i)
          * (1 - Softmax.column v hr k - Softmax.column v hr i) := by
        rw [← h k, ← h i]
        ring
      nlinarith
    have hconst : v = fun _ => v ⟨0, hr⟩ := funext fun i => le_antisymm (hle _ _) (hle _ _)
    intro i
    rw [← h i, hconst, Softmax.column_const]
    field_simp
  · intro h i
    have hconst : v = fun _ => ((r : ℝ) - 1) / r ^ 2 := funext h
    rw [h i, hconst, Softmax.column_const]
    field_simp

/-- **The matrices on which the arguments of `derivative` make no
difference**: for sigmoid, entries that are the slope of the sigmoid at
themselves, and for softmax, columns of one number. -/
def DerivativesMeet (act : ActivationFunction) (A : Fin r → Fin c → ℝ) : Prop :=
  match act with
  | sigmoid => ∀ i j, A i j * (1 - A i j) * (1 + Real.exp (A i j)) ^ 2 = Real.exp (A i j)
  | softmax => ∀ i j, A i j = ((r : ℝ) - 1) / r ^ 2
  | _ => True

/-- When the overloads of `derivative` agree, class by class. -/
theorem overloads_of_derivative_agree_iff (act : ActivationFunction) (A : Fin r → Fin c → ℝ)
    (hr : 0 < r) :
    act.Agree act.derivativeMat act.derivativeVec act.derivative A ↔ act.DerivativesMeet A := by
  have hmat := act.derivativeMat_ofFn A hr
  cases act with
  | sigmoid =>
    refine (agree_iff_of_ne_softmax (by decide) hmat fun v => rfl).trans ?_
    refine (and_iff_left fun i j => rfl).trans ?_
    exact forall_congr' fun i => forall_congr' fun j => slope_sigmoid_eq_iff (A i j)
  | softmax =>
    have hcolumns : ∀ j, softmax.derivativeVec (Grid.column A j)
        = .ok (Grid.column (fun i j => Softmax.column (fun i => A i j) hr i
          * (1 - Softmax.column (fun i => A i j) hr i)) j) :=
      fun j => Softmax.derivativeVec_ofFn (fun i => A i j) hr
    refine (agree_softmax_iff hmat hcolumns).trans ?_
    rw [forall_comm]
    refine (forall_congr' fun j => column_mul_one_sub_eq_iff (fun i => A i j) hr).trans ?_
    exact forall_comm
  | tanh => exact iff_of_true (overloads_of_derivative_agree (.inl rfl) A hr) trivial
  | relu => exact iff_of_true (overloads_of_derivative_agree (.inr (.inl rfl)) A hr) trivial
  | leakyRelu => exact iff_of_true (overloads_of_derivative_agree (.inr (.inr rfl)) A hr) trivial

/-- **When the overloads of a class agree** on a matrix: it has a row, and all
overloads of `derivative` take their argument for the same quantity, or the
matrix is one on which this makes no difference. -/
theorem overloadsAgree_iff (act : ActivationFunction) (A : Fin r → Fin c → ℝ) :
    act.OverloadsAgree A ↔ 0 < r ∧ act.DerivativesMeet A := by
  constructor
  · intro h
    have hr := pos_of_overloadsAgree h
    exact ⟨hr, (act.overloads_of_derivative_agree_iff A hr).mp h.2⟩
  · rintro ⟨hr, h⟩
    exact ⟨act.overloads_of_activate_agree A hr,
      (act.overloads_of_derivative_agree_iff A hr).mpr h⟩

/-- **The vector overload of the sigmoid's `derivative` differs** at `1 / 2`,
the sigmoid of `0`: the other overloads return `1 / 4`, and it returns less. -/
theorem sigmoid_overloads_disagree :
    ¬ sigmoid.OverloadsAgree (fun (_ : Fin 1) (_ : Fin 1) => (1 / 2 : ℝ))
      ∧ sigmoid.activate (0 : ℝ) = 1 / 2
      ∧ sigmoid.derivativeMat [[(1 / 2 : ℝ)]] = .ok [[1 / 4]]
      ∧ sigmoid.derivative (1 / 2 : ℝ) = 1 / 4
      ∧ ∃ x : ℝ, x < 1 / 4 ∧ sigmoid.derivativeVec [(1 / 2 : ℝ)] = .ok [x] := by
  have hquarter : (1 / 2 : ℝ) * (1 - 1 / 2) = 1 / 4 := by norm_num
  have hexp : 1 < Real.exp (1 / 2) := Real.one_lt_exp_iff.mpr (by norm_num)
  refine ⟨fun h => ?_, ?_, ?_, hquarter, _, ?_, rfl⟩
  · have hmeet := (overloads_of_derivative_agree_iff _ _ one_pos).mp h.2 0 0
    rw [hquarter] at hmeet
    -- the slope of the sigmoid is `1 / 4` at `0` only
    have hsq : (Real.exp (1 / 2) - 1) ^ 2 = 0 := by linarith
    have hzero := pow_eq_zero_iff two_ne_zero |>.mp hsq
    linarith
  · show 1 / (1 + Real.exp (-0)) = 1 / 2
    rw [neg_zero, Real.exp_zero]
    norm_num
  · rw [← hquarter]
    exact sigmoid.derivativeMat_ofFn (fun (_ : Fin 1) (_ : Fin 1) => (1 / 2 : ℝ)) one_pos
  · have hne : Real.exp (1 / 2) - 1 ≠ 0 := (sub_pos.mpr hexp).ne'
    have hslope : 1 / (1 + Real.exp (-(1 / 2 : ℝ))) * (1 - 1 / (1 + Real.exp (-(1 / 2 : ℝ))))
        = Real.exp (1 / 2) / (1 + Real.exp (1 / 2)) ^ 2 := slope_sigmoid_eq (1 / 2)
    show 1 / (1 + Real.exp (-(1 / 2 : ℝ))) * (1 - 1 / (1 + Real.exp (-(1 / 2 : ℝ)))) < 1 / 4
    rw [hslope, div_lt_iff₀ (by positivity)]
    have := sq_pos_of_ne_zero hne
    linarith

end ActivationFunction
