import NeuralBuilder.MathUtils

/-!
# Activation functions

Each activation class overloads `activate` and `derivative` on a number,
on a vector and on a matrix. Training goes through the matrix overloads,
inference through the scalar `activate`. For sigmoid, tanh, relu and leaky
relu a matrix is handled entry by entry, and `derivative` takes the
*output* of the activation. Softmax is a function of a whole column: its
matrix overload normalises column by column, its scalar overload returns
the number unchanged, and its matrix `derivative` returns its argument.

The definitions have the loops of the overloads, with their reads, so that a
call on a ragged or an empty matrix stops where the source does. On rectangular
operands a call of a matrix overload goes through and returns `onGrid` or
`derivativeOnGrid`, which is what the modules on the layers work with. The slope
of leaky relu and the places of the comparisons are those of the source: `0`
belongs to the flat side of both rectifiers.
-/

/-- The activation objects `ActivationFactory` builds. -/
inductive ActivationFunction where
  | sigmoid
  | tanh
  | relu
  | leakyRelu
  | softmax
  deriving DecidableEq, Repr

variable {α : Type} [Double α]

/-- `std::max(a, b)`. -/
def stdMax (a b : α) : α := if Double.lt a b then b else a

/-- The double loop of the matrix overloads that treat every entry by
itself. -/
def entrywise (f : α → α) (input : Mat α) : Except Fault (Mat α) := do
  let front ← Vec.at input 0
  Checked.fill input.length fun i => Checked.fill front.length fun j => do
    return f (← Mat.at input i j)

namespace Sigmoid

def activate (input : α) : α := 1 / (1 + Double.exp (-input))

def activateMat (input : Mat α) : Except Fault (Mat α) := entrywise activate input

def derivative (a : α) : α := a * (1 - a)

def derivativeMat (a : Mat α) : Except Fault (Mat α) := entrywise derivative a

end Sigmoid

namespace Tanh

def activate (a : α) : α := Double.tanh a

def activateMat (a : Mat α) : Except Fault (Mat α) := entrywise activate a

def derivative (a : α) : α := 1 - a * a

def derivativeMat (a : Mat α) : Except Fault (Mat α) := entrywise derivative a

end Tanh

namespace Relu

def activate (input : α) : α := stdMax 0 input

def activateMat (input : Mat α) : Except Fault (Mat α) := entrywise activate input

def derivative (a : α) : α := Double.ofBool (Double.lt 0 a)

def derivativeMat (a : Mat α) : Except Fault (Mat α) := entrywise derivative a

end Relu

namespace LeakyRelu

def activate (input : α) : α := stdMax (0.01 * input) input

def activateMat (input : Mat α) : Except Fault (Mat α) := entrywise activate input

def derivative (a : α) : α := if Double.lt 0 a then 1 else 0.01

def derivativeMat (a : Mat α) : Except Fault (Mat α) := entrywise derivative a

end LeakyRelu

namespace Softmax

/-- Not applicable to a number, which is returned unchanged. -/
def activate (input : α) : α := input

/-- One turn of the loop over the columns: the largest entry, the scaled
exponentials with their sum, and the division by the sum. -/
def activateColumn (results : Mat α) (j : ℕ) : Except Fault (Mat α) := do
  let n := results.length
  let max ← Checked.loop (n - 1) (fun max i => do
    let x ← Mat.at results (i + 1) j
    return if Double.lt max x then x else max) (← Mat.at results 0 j)
  let (results, sum) ← Checked.loop n (fun (p : Mat α × α) i => do
    let val := Double.exp ((← Mat.at p.1 i j) - max)
    let results ← Mat.set p.1 i j val
    return (results, p.2 + val)) (results, 0)
  Checked.loop n (fun results i => do
    let x ← Mat.at results i j
    Mat.set results i j (x / sum)) results

def activateMat (input : Mat α) : Except Fault (Mat α) := do
  let front ← Vec.at input 0
  Checked.loop front.length activateColumn input

def derivativeMat (input : Mat α) : Except Fault (Mat α) := .ok input

end Softmax

namespace ActivationFunction

/-- `activate` on a number. -/
def activate : ActivationFunction → α → α
  | sigmoid => Sigmoid.activate
  | tanh => Tanh.activate
  | relu => Relu.activate
  | leakyRelu => LeakyRelu.activate
  | softmax => Softmax.activate

/-- `activate` on a matrix. -/
def activateMat : ActivationFunction → Mat α → Except Fault (Mat α)
  | sigmoid => Sigmoid.activateMat
  | tanh => Tanh.activateMat
  | relu => Relu.activateMat
  | leakyRelu => LeakyRelu.activateMat
  | softmax => Softmax.activateMat

/-- `derivative` on a matrix. -/
def derivativeMat : ActivationFunction → Mat α → Except Fault (Mat α)
  | sigmoid => Sigmoid.derivativeMat
  | tanh => Tanh.derivativeMat
  | relu => Relu.derivativeMat
  | leakyRelu => LeakyRelu.derivativeMat
  | softmax => Softmax.derivativeMat

end ActivationFunction

/-- `ActivationFactory::getActivationClass`. -/
def ActivationFactory.getActivationClass (name : String) : Except Fault ActivationFunction :=
  if name = "sigmoid" then .ok .sigmoid
  else if name = "tanh" then .ok .tanh
  else if name = "relu" then .ok .relu
  else if name = "leaky relu" then .ok .leakyRelu
  else if name = "softmax" then .ok .softmax
  else .error (.invalidArgument ("Unknown activation function: " ++ name))

/-- The factory builds a softmax object for the name softmax only, so that
the layer's test on the name is a test on the object. -/
theorem ActivationFactory.eq_softmax_iff {name : String} {f : ActivationFunction}
    (h : getActivationClass name = .ok f) : name = "softmax" ↔ f = .softmax := by
  unfold getActivationClass at h
  split_ifs at h <;> simp_all <;> subst h <;> simp

/-- The factory throws where it builds nothing. -/
theorem ActivationFactory.isException_of_error {name : String} {e : Fault}
    (h : getActivationClass name = .error e) : e.isException := by
  unfold getActivationClass at h
  split_ifs at h
  obtain rfl := Except.error.inj h
  rfl

/-- The names the factory builds an object for. -/
def ActivationFactory.Accepts (name : String) : Prop :=
  ∃ act, getActivationClass name = .ok act

/-! ## On rectangular operands -/

section Rect

variable {r c : ℕ}

omit [Double α] in
theorem entrywise_ofFn (f : α → α) (A : Fin r → Fin c → α) (hr : 0 < r) :
    entrywise f (Grid.ofFn A) = .ok (Grid.ofFn fun i j => f (A i j)) := by
  rw [entrywise, Vec.at_row_zero A hr, Checked.ok_bind, Grid.length_ofFn, List.length_ofFn]
  exact Grid.fill_ok fun i j => by rw [Mat.at_ofFn, Checked.ok_bind]; rfl

namespace Softmax

/-- The largest entry of a column, as the search of the source finds it. -/
def columnMax (v : Fin r → α) (hr : 0 < r) : α :=
  Fin.foldl (r - 1) (fun max i => if Double.lt max (v ⟨i + 1, Grid.succ_lt i⟩)
    then v ⟨i + 1, Grid.succ_lt i⟩ else max) (v ⟨0, hr⟩)

/-- **Softmax of a column**: the exponentials of the entries scaled by the
largest, divided by their sum. -/
def column (v : Fin r → α) (hr : 0 < r) (i : Fin r) : α :=
  Double.exp (v i - columnMax v hr)
    / (List.ofFn v).foldl (fun s x => s + Double.exp (x - columnMax v hr)) 0

/-- The first part of a turn of the loop over the columns: the scaled
exponentials, and the sum that they are divided by. -/
def expColumn (results : Mat α) (j : ℕ) : Except Fault (Mat α × α) := do
  let n := results.length
  let max ← Checked.loop (n - 1) (fun max i => do
    let x ← Mat.at results (i + 1) j
    return if Double.lt max x then x else max) (← Mat.at results 0 j)
  Checked.loop n (fun (p : Mat α × α) i => do
    let val := Double.exp ((← Mat.at p.1 i j) - max)
    let results ← Mat.set p.1 i j val
    return (results, p.2 + val)) (results, 0)

/-- The second part divides by that sum. -/
theorem activateColumn_eq (results : Mat α) (j : ℕ) :
    activateColumn results j = (do
      let (scaled, sum) ← expColumn results j
      Checked.loop results.length (fun scaled i => do
        let x ← Mat.at scaled i j
        Mat.set scaled i j (x / sum)) scaled) := by
  unfold activateColumn expColumn
  simp only [bind_assoc]

theorem expColumn_ofFn (A : Fin r → Fin c → α) (hr : 0 < r) (j : Fin c) :
    expColumn (Grid.ofFn A) j
      = .ok (Grid.ofFn fun i j' => if j' = j
            then Double.exp (A i j' - columnMax (fun i => A i j) hr) else A i j',
          (Grid.column A j).foldl
            (fun s x => s + Double.exp (x - columnMax (fun i => A i j) hr)) 0) := by
  have hmax : Checked.loop (m := Except Fault) (r - 1) (fun max i => do
      let x ← Mat.at (Grid.ofFn A) (i + 1) j
      return if Double.lt max x then x else max) (A ⟨0, hr⟩ j)
      = .ok (columnMax (fun i => A i j) hr) := by
    refine Checked.loop_ok (fun max i => ?_) _
    have hlt : (i : ℕ) + 1 < r := Grid.succ_lt i
    rw [show Mat.at (Grid.ofFn A) (i + 1) j = .ok (A ⟨i + 1, hlt⟩ j) from
      Mat.at_ofFn A ⟨i + 1, hlt⟩ j, Checked.ok_bind]
    rfl
  rw [expColumn, Grid.length_ofFn, show Mat.at (Grid.ofFn A) 0 j = .ok (A ⟨0, hr⟩ j) from
    Mat.at_ofFn A ⟨0, hr⟩ j, Checked.ok_bind, hmax, Checked.ok_bind]
  exact Grid.columnPass_ok Fault.outOfRange A j _ (fun s x => s + Double.exp (x - _)) 0

theorem activateColumn_ofFn (A : Fin r → Fin c → α) (hr : 0 < r) (j : Fin c) :
    activateColumn (Grid.ofFn A) j
      = .ok (Grid.ofFn fun i j' => if j' = j then column (fun i => A i j) hr i
          else A i j') := by
  rw [activateColumn_eq, expColumn_ofFn A hr, Checked.ok_bind, Grid.length_ofFn]
  refine (Grid.columnMap_ok Fault.outOfRange _ j _).trans ?_
  refine congrArg Except.ok (congrArg Grid.ofFn ?_)
  funext i j'
  by_cases hj : j' = j
  · subst hj
    simp [column, Grid.column]
  · simp [hj]

theorem activateMat_ofFn (A : Fin r → Fin c → α) (hr : 0 < r) :
    activateMat (Grid.ofFn A) = .ok (Grid.ofFn fun i j => column (fun i => A i j) hr i) := by
  rw [activateMat, Vec.at_row_zero A hr, Checked.ok_bind, List.length_ofFn]
  exact Grid.columnLoop_ok A activateColumn (fun v _ i => column v hr i)
    (fun B j => activateColumn_ofFn B hr j)

end Softmax

namespace ActivationFunction

/-- **The function a layer applies to its pre-activations**, as a function
of the whole grid. -/
def onGrid (act : ActivationFunction) (hr : 0 < r) (A : Fin r → Fin c → α) :
    Fin r → Fin c → α :=
  match act with
  | softmax => fun i j => Softmax.column (fun i => A i j) hr i
  | act => fun i j => act.activate (A i j)

/-- **The factors a layer multiplies the incoming derivatives with**, as a
function of the activations. -/
def slope : ActivationFunction → α → α
  | sigmoid => Sigmoid.derivative
  | tanh => Tanh.derivative
  | relu => Relu.derivative
  | leakyRelu => LeakyRelu.derivative
  | softmax => id

theorem onGrid_of_ne_softmax {act : ActivationFunction} (h : act ≠ softmax) (hr : 0 < r)
    (A : Fin r → Fin c → α) : act.onGrid hr A = fun i j => act.activate (A i j) := by
  cases act <;> first | rfl | exact absurd rfl h

theorem activateMat_ofFn (act : ActivationFunction) (A : Fin r → Fin c → α) (hr : 0 < r) :
    act.activateMat (Grid.ofFn A) = .ok (Grid.ofFn (act.onGrid hr A)) := by
  cases act with
  | softmax => exact Softmax.activateMat_ofFn A hr
  | _ => exact entrywise_ofFn _ A hr

theorem derivativeMat_ofFn (act : ActivationFunction) (A : Fin r → Fin c → α) (hr : 0 < r) :
    act.derivativeMat (Grid.ofFn A) = .ok (Grid.ofFn fun i j => act.slope (A i j)) := by
  cases act with
  | softmax => rfl
  | _ => exact entrywise_ofFn _ A hr

end ActivationFunction

end Rect
