import Mathlib.Algebra.Order.Group.Nat
import Mathlib.Tactic.Ring

/-!
# Messages in frames

A message travels over a stream of bytes in one or more frames. A frame begins
with two bytes that hold a flag for the last frame of a message, the kind of the
frame, a flag for a mask and a short length; two or eight bytes of length may
follow, then a mask of four bytes, then the payload under the mask. Frames that
are no part of a message, which close the stream, ask for a sign of life or give
one, may come between those of a message.

`Sends` says which messages a list of frames carries, and `signs` what is asked
for.
-/

namespace Frames

/-! ## Numbers in bytes -/

/-- The last `k` digits of a number to the base 256, most significant first. -/
def bigEndian : ℕ → ℕ → List UInt8
  | 0, _ => []
  | k + 1, n => UInt8.ofNat (n / 256 ^ k) :: bigEndian k n

/-- The number that bytes are the digits of. -/
def ofBigEndian (bytes : List UInt8) : ℕ :=
  bytes.foldl (fun n byte => n * 256 + byte.toNat) 0

@[simp]
theorem length_bigEndian (k n : ℕ) : (bigEndian k n).length = k := by
  induction k with
  | zero => rfl
  | succ k ih => rw [bigEndian, List.length_cons, ih]

theorem foldl_bigEndian (k n m : ℕ) :
    (bigEndian k n).foldl (fun n byte => n * 256 + byte.toNat) m = m * 256 ^ k + n % 256 ^ k := by
  induction k generalizing m with
  | zero => simp [bigEndian, Nat.mod_one]
  | succ k ih =>
    have hbyte : (UInt8.ofNat (n / 256 ^ k)).toNat = n / 256 ^ k % 256 := UInt8.toNat_ofNat'
    have hmod : n % 256 ^ (k + 1) = n % 256 ^ k + 256 ^ k * (n / 256 ^ k % 256) := by
      rw [pow_succ, Nat.mod_mul]
    rw [bigEndian, List.foldl_cons, ih, hbyte, hmod]
    ring

/-- **A number is read as it was written.** -/
theorem ofBigEndian_bigEndian {k n : ℕ} (h : n < 256 ^ k) : ofBigEndian (bigEndian k n) = n := by
  rw [ofBigEndian, foldl_bigEndian, zero_mul, zero_add, Nat.mod_eq_of_lt h]

/-! ## Masks -/

/-- A payload under a mask of four bytes, which is repeated. -/
def mask (key payload : List UInt8) : List UInt8 :=
  payload.mapIdx fun i byte => byte ^^^ key.getD (i % 4) 0

@[simp]
theorem length_mask (key payload : List UInt8) : (mask key payload).length = payload.length :=
  List.length_mapIdx

/-- **What is masked twice is as it was.** -/
theorem mask_mask (key payload : List UInt8) : mask key (mask key payload) = payload := by
  refine List.ext_getElem (by simp) fun i hi hi' => ?_
  simp only [mask, List.getElem_mapIdx, UInt8.xor_assoc, UInt8.xor_self, UInt8.xor_zero]

/-! ## Frames -/

/-- **A frame.** -/
structure Frame where
  /-- Whether it is the last of its message. -/
  fin : Bool
  /-- Its kind. -/
  opcode : ℕ
  /-- The mask, if there is one. -/
  key : Option (List UInt8)
  /-- What it carries, before it is masked. -/
  payload : List UInt8
  /-- The kind has four bits. -/
  opcode_lt : opcode < 16
  /-- A mask has four bytes. -/
  key_length : ∀ bytes ∈ key, bytes.length = 4
  /-- The length has eight bytes at most. -/
  payload_lt : payload.length < 2 ^ 64

namespace Frame

variable (F : Frame)

/-- The length in the header. -/
def shortLength : ℕ :=
  if F.payload.length < 126 then F.payload.length
  else if F.payload.length < 65536 then 126 else 127

/-- The bytes of length that follow the header. -/
def extendedLength : List UInt8 :=
  if F.payload.length < 126 then []
  else if F.payload.length < 65536 then bigEndian 2 F.payload.length
  else bigEndian 8 F.payload.length

/-- The two bytes of the header, as one number. -/
def header : ℕ :=
  (128 * F.fin.toNat + F.opcode) * 256 + (128 * F.key.isSome.toNat + F.shortLength)

/-- The payload under the mask. -/
def masked : List UInt8 :=
  match F.key with
  | none => F.payload
  | some key => mask key F.payload

/-- **The bytes of a frame.** -/
def encode : List UInt8 :=
  bigEndian 2 F.header ++ (F.extendedLength ++ (F.key.getD [] ++ F.masked))

theorem shortLength_lt : F.shortLength < 128 := by
  unfold shortLength
  split_ifs <;> omega

theorem header_lt : F.header < 256 ^ 2 := by
  have hshort := F.shortLength_lt
  have hopcode := F.opcode_lt
  have hfin : F.fin.toNat ≤ 1 := F.fin.toNat_le
  have hkey : F.key.isSome.toNat ≤ 1 := F.key.isSome.toNat_le
  unfold header
  omega

@[simp]
theorem length_masked : F.masked.length = F.payload.length := by
  unfold masked
  cases F.key with
  | none => rfl
  | some key => exact length_mask key F.payload

end Frame

/-! ## Messages -/

/-- **A frame that is no part of a message.** -/
def Frame.IsControl (F : Frame) : Prop := 8 ≤ F.opcode

/-- A message: whether it is binary, and its bytes. -/
abbrev Message := Bool × List UInt8

/-- The kind of the first frame of a message. -/
def kind (binary : Bool) : ℕ := if binary then 2 else 1

/-- **The frames carry the messages**, the first of which may have begun. -/
inductive Sends : Option Message → List Frame → List Message → Prop
  | nil : Sends none [] []
  | control {opened : Option Message} {F : Frame} {Fs : List Frame} {ms : List Message}
    (hF : F.IsControl) (h : Sends opened Fs ms) : Sends opened (F :: Fs) ms
  | whole {binary : Bool} {F : Frame} {Fs : List Frame} {ms : List Message}
    (hF : F.opcode = kind binary) (hfin : F.fin = true) (h : Sends none Fs ms) :
    Sends none (F :: Fs) ((binary, F.payload) :: ms)
  | first {binary : Bool} {F : Frame} {Fs : List Frame} {ms : List Message}
    (hF : F.opcode = kind binary) (hfin : F.fin = false)
    (h : Sends (some (binary, F.payload)) Fs ms) : Sends none (F :: Fs) ms
  | next {binary : Bool} {data : List UInt8} {F : Frame} {Fs : List Frame} {ms : List Message}
    (hF : F.opcode = 0) (hfin : F.fin = false)
    (h : Sends (some (binary, data ++ F.payload)) Fs ms) :
    Sends (some (binary, data)) (F :: Fs) ms
  | last {binary : Bool} {data : List UInt8} {F : Frame} {Fs : List Frame} {ms : List Message}
    (hF : F.opcode = 0) (hfin : F.fin = true) (h : Sends none Fs ms) :
    Sends (some (binary, data)) (F :: Fs) ((binary, data ++ F.payload) :: ms)

/-- What is asked for. -/
def signs (Fs : List Frame) : List (List UInt8) :=
  (Fs.filter fun F => F.opcode = 9).map Frame.payload

end Frames
