import NeuralBuilder.MathUtils

/-!
# The JSON values of the web framework

`RValue` is `crow::json::rvalue`, the value a request body or a message is
parsed to, with the accessors the route handlers call. Every accessor checks
the type of the value and throws a `std::runtime_error` where it is another
one.

The accessors return an `Except`, and what they throw ends the handler
(`OnlyThrows`): no accessor has undefined behaviour on a value of another type.
A number is kept with what `i()` and `d()` make of its text, and a string with
what `i()` makes of it, since the accessors convert the text each time. A field
of an object is found by its key, the first one under it.
-/

/-- **A parsed JSON value.** The framework keeps the text of a number and
reads it when it is asked to; what is kept here is what `i()` and `d()` read
from it. `i()` reads the text of a string as well. -/
inductive RValue (α : Type) where
  | null
  | bool (b : Bool)
  | number (i : Int64) (d : α)
  | string (s : String) (i : Int64)
  | list (items : List (RValue α))
  | object (fields : List (String × RValue α))

namespace RValue

variable {α : Type}

/-- `get_type_str`, which has no text for `Null`. -/
def typeStr : RValue α → String
  | null => "Unknown"
  | bool b => if b then "True" else "False"
  | number _ _ => "Number"
  | string _ _ => "String"
  | list _ => "List"
  | object _ => "Object"

/-- The integer value. -/
def i (v : RValue α) : Except Fault Int64 :=
  match v with
  | number i _ => .ok i
  | string _ i => .ok i
  | v => .error (.runtimeError ("expected number, got: " ++ v.typeStr))

/-- The double precision floating-point number value. -/
def d : RValue α → Except Fault α
  | number _ d => .ok d
  | _ => .error (.runtimeError "value is not number")

/-- The string value. -/
def s : RValue α → Except Fault String
  | string s _ => .ok s
  | _ => .error (.runtimeError "value is not string")

/-- `size()`, which a string has too. -/
def size : RValue α → Except Fault ℕ
  | string s _ => .ok s.utf8ByteSize
  | list items => .ok items.length
  | object fields => .ok fields.length
  | _ => .error (.runtimeError "value is not a container")

/-- `operator[](int)`. -/
def item (v : RValue α) (index : ℕ) : Except Fault (RValue α) :=
  match v with
  | list items => Checked.read (.runtimeError "list out of bound") items index
  | _ => .error (.runtimeError "value is not a list")

/-- `operator[](const std::string&)`. -/
def field (v : RValue α) (key : String) : Except Fault (RValue α) :=
  match v with
  | object fields =>
    match fields.lookup key with
    | some value => .ok value
    | none => .error (.runtimeError ("cannot find key: " ++ key))
  | _ => .error (.runtimeError "value is not an object")

/-- What `for (const auto& x : v)` goes through. -/
def elements : RValue α → Except Fault (List (RValue α))
  | list items => .ok items
  | object fields => .ok (fields.map (·.2))
  | _ => .error (.runtimeError "value is not a container")

/-- The loop over the positions of `v`, with `read` applied to what is at
each. -/
def readAll {β : Type} (v : RValue α) (read : RValue α → Except Fault β) :
    Except Fault (List β) := do
  Checked.fill (← v.size) fun index => do read (← v.item index)

/-- **Reading a list back**: where `read` makes `g b` of `mk b`, the loop makes
the list of the `g b` of the list of the `mk b`. -/
theorem readAll_map_of_mem {β γ : Type} {read : RValue α → Except Fault γ} (mk : β → RValue α)
    (g : β → γ) {bs : List β} (h : ∀ b ∈ bs, read (mk b) = .ok (g b)) :
    (list (bs.map mk)).readAll read = .ok (bs.map g) := by
  have hsize : (list (bs.map mk)).size = .ok bs.length := by
    rw [size, List.length_map]
  rw [readAll, hsize, Checked.ok_bind]
  have hlist : List.ofFn (g ∘ fun k : Fin bs.length => bs[k]) = bs.map g := by
    rw [← List.map_ofFn]
    exact congrArg (List.map g) List.ofFn_getElem
  rw [← hlist]
  refine Checked.fill_ok fun k => ?_
  have hk : (k : ℕ) < (bs.map mk).length := by
    rw [List.length_map]
    exact k.isLt
  rw [item, Checked.read_of_lt _ _ hk, Checked.ok_bind, List.getElem_map]
  exact h _ (List.getElem_mem _)

/-- Where `read` undoes `mk`, the loop undoes the list of what `mk` makes. -/
theorem readAll_map {β : Type} {read : RValue α → Except Fault β} (mk : β → RValue α)
    (h : ∀ b, read (mk b) = .ok b) (bs : List β) :
    (list (bs.map mk)).readAll read = .ok bs := by
  rw [readAll_map_of_mem mk id fun b _ => h b, List.map_id]

end RValue

/-! ## The accessors only throw -/

/-- **Where a computation stops, it stops with an exception.** -/
def OnlyThrows {β : Type} (x : Except Fault β) : Prop := ∀ e, x = .error e → e.isException

namespace OnlyThrows

variable {α β γ : Type}

theorem ok (b : β) : OnlyThrows (.ok b) := Checked.FailsOnly.ok b

theorem runtimeError (what : String) : OnlyThrows (.error (.runtimeError what) : Except Fault β) :=
  Checked.FailsOnly.error (P := fun e : Fault => e.isException = true) rfl

theorem bind {x : Except Fault β} {f : β → Except Fault γ} (hx : OnlyThrows x)
    (hf : ∀ b, OnlyThrows (f b)) : OnlyThrows (x >>= f) :=
  Checked.FailsOnly.bind hx hf

theorem fill {n : ℕ} {f : ℕ → Except Fault β} (hf : ∀ k, OnlyThrows (f k)) :
    OnlyThrows (Checked.fill n f) :=
  Checked.FailsOnly.fill hf

variable (v : RValue α)

theorem i : OnlyThrows v.i := by
  cases v <;> first | exact ok _ | exact runtimeError _

theorem d : OnlyThrows v.d := by
  cases v <;> first | exact ok _ | exact runtimeError _

theorem s : OnlyThrows v.s := by
  cases v <;> first | exact ok _ | exact runtimeError _

theorem size : OnlyThrows v.size := by
  cases v <;> first | exact ok _ | exact runtimeError _

theorem elements : OnlyThrows v.elements := by
  cases v <;> first | exact ok _ | exact runtimeError _

theorem item (index : ℕ) : OnlyThrows (v.item index) := by
  unfold RValue.item
  split
  · unfold Checked.read
    split
    · exact ok _
    · exact runtimeError _
  · exact runtimeError _

theorem field (key : String) : OnlyThrows (v.field key) := by
  unfold RValue.field
  split
  · split
    · exact ok _
    · exact runtimeError _
  · exact runtimeError _

theorem readAll {read : RValue α → Except Fault β} (hread : ∀ v, OnlyThrows (read v)) :
    OnlyThrows (v.readAll read) :=
  (size v).bind fun _ => fill fun index => (item v index).bind hread

end OnlyThrows

/-- An `int64_t` stored in an `int`. -/
def Int64.narrow (x : Int64) : ℤ := x.toInt32.toInt
