import NeuralBuilder.Library.Frames
import NeuralBuilder.Library.Runs

/-!
# The web socket connection of the engine

How `crow::websocket::Connection` reads what a client sends. It asks for some
bytes, for what it is to do next, and is called back with as many as have
arrived: the network may cut the stream anywhere. A connection is between two
frames or within one, whatever it has read of it, and what every read comes to
is said in these terms: `reads_between` and `reads_within`.

Lengths and the header are numbers here, with the masks and shifts of the source
written as divisions. A failed read, which closes the connection, is left out.
-/

namespace Crow

open Frames Runs

/-! ## The connection -/

/-- `WebSocketReadState`: what of a frame is read next. -/
inductive WebSocketReadState
  | miniHeader
  | len16
  | len64
  | mask
  | payload
  deriving DecidableEq

/-- **A connection**, with the fields that reading uses. -/
structure Connection where
  /-- Whether the message that has begun is binary. -/
  is_binary_ : Bool
  /-- The parts of that message whose frames were read. -/
  message_ : List UInt8
  /-- What was read of the payload of the frame, under its mask. -/
  fragment_ : List UInt8
  /-- Which part of a frame is read next. -/
  state_ : WebSocketReadState
  /-- How much of the payload is still to be read. -/
  remaining_length_ : ℕ
  /-- Frames with more are refused. -/
  max_payload_bytes_ : ℕ
  /-- Whether the payload of the frame is masked. -/
  has_mask_ : Bool
  /-- The mask of the frame, in its four bytes. -/
  mask_ : List UInt8
  /-- The header of the frame, in the order of the machine. -/
  mini_header_ : ℕ
  /-- Set where the connection is to end. -/
  close_connection_ : Bool
  /-- Whether a closing frame was sent. -/
  has_sent_close_ : Bool
  /-- Whether one was received. -/
  has_recv_close_ : Bool
  /-- Set by a pong, and read by nothing. -/
  pong_received_ : Bool
  /-- The handler of the end is called once. -/
  is_close_handler_called_ : Bool
  /-- The connection is gone: `check_destroy` deletes it. -/
  destroyed : Bool

/-- A connection that was opened. -/
def Connection.init : Connection where
  is_binary_ := false
  message_ := []
  fragment_ := []
  state_ := .miniHeader
  remaining_length_ := 0
  max_payload_bytes_ := 2 ^ 64 - 1
  has_mask_ := false
  mask_ := []
  mini_header_ := 0
  close_connection_ := false
  has_sent_close_ := false
  has_recv_close_ := false
  pong_received_ := false
  is_close_handler_called_ := false
  destroyed := false

/-- **What a connection does** beside reading: the calls of the handlers, and
what it writes. -/
inductive Output
  | message_handler (message : List UInt8) (is_binary : Bool)
  | close_handler (message : List UInt8) (status_code : ℕ)
  | error_handler (text : String)
  | send_data (bytes : List UInt8)
  | write_close (bytes : List UInt8)

/-- The codes of `CloseStatusCode` that the connection uses itself. -/
def closedAbnormally : ℕ := 1006
def messageTooBig : ℕ := 1009
def noStatusCodePresent : ℕ := 1005

/-- **The header of what is sent.** -/
def build_header (opcode size : ℕ) : List UInt8 :=
  if size < 126 then [UInt8.ofNat (128 + opcode), UInt8.ofNat size]
  else if size < 65536 then
    [UInt8.ofNat (128 + opcode), UInt8.ofNat 126] ++ bigEndian 2 size
  else [UInt8.ofNat (128 + opcode), UInt8.ofNat 127] ++ bigEndian 8 size

namespace Connection

variable (c : Connection)

/-- The header is the last for its message. -/
def is_FIN : Bool := c.mini_header_ / 32768 % 2 = 1

def opcode : ℕ := c.mini_header_ / 256 % 16

/-- Destroys the connection. -/
def check_destroy (code : ℕ) : Connection × List Output :=
  ({ c with destroyed := true },
    if c.is_close_handler_called_ then []
    else [.close_handler "uncleanly".toUTF8.toList code])

/-- `close`, run at once. -/
def close (msg : List UInt8) (status_code : ℕ) : Connection × List Output :=
  let writes := [.write_close
    (build_header 8 (msg.length + 2) ++ bigEndian 2 status_code ++ msg)]
  if c.has_recv_close_ && !c.is_close_handler_called_ then
    ({ c with has_sent_close_ := true, is_close_handler_called_ := true },
      .close_handler msg status_code :: writes)
  else ({ c with has_sent_close_ := true }, writes)

/-- A part of a message, which may be its last. -/
def append (is_binary : Bool) (fragment : List UInt8) : Connection × List Output :=
  let message := c.message_ ++ fragment
  if c.is_FIN then
    ({ c with is_binary_ := is_binary, message_ := [], fragment_ := [] },
      [.message_handler message is_binary])
  else ({ c with is_binary_ := is_binary, message_ := message, fragment_ := [] }, [])

/-- The frame that closes. -/
def receive_close (fragment : List UInt8) : Connection × List Output :=
  let status_code := if 2 ≤ fragment.length then ofBigEndian (fragment.take 2)
    else noStatusCodePresent
  let message := if 2 ≤ fragment.length then fragment.drop 2 else fragment
  if c.has_sent_close_ then
    ({ c with has_recv_close_ := true, fragment_ := fragment, close_connection_ := true,
              is_close_handler_called_ := true, destroyed := true },
      if c.is_close_handler_called_ then [] else [.close_handler message status_code])
  else
    let closed := { c with has_recv_close_ := true }.close message status_code
    ({ closed.1 with fragment_ := [] }, closed.2)

/-- **`handle_fragment`**; reading goes on unless it destroys the connection. -/
def handle_fragment : Connection × List Output :=
  let fragment := if c.has_mask_ then Frames.mask c.mask_ c.fragment_ else c.fragment_
  match c.opcode with
  | 0 => c.append c.is_binary_ fragment
  | 1 => c.append false fragment
  | 2 => c.append true fragment
  | 8 => c.receive_close fragment
  | 9 => ({ c with fragment_ := [] },
      [.send_data (build_header 10 fragment.length ++ fragment)])
  | 10 => ({ c with fragment_ := [], pong_received_ := true }, [])
  | _ => ({ c with fragment_ := [] }, [])

/-- What `do_read` asks the socket for: some bytes, at most so many, or exactly
so many; or it closes. -/
inductive Reading
  | async_read_some (c : Connection) (size : ℕ)
  | async_read (c : Connection) (size : ℕ)
  | closes (c : Connection) (outputs : List Output)

/-- The `switch` of `do_read`. -/
def do_read_in : WebSocketReadState → Reading
  | .miniHeader => .async_read_some { c with mini_header_ := 0 } 2
  | .len16 => .async_read { c with remaining_length_ := 0 } 2
  | .len64 => .async_read c 8
  | .mask =>
    if c.max_payload_bytes_ < c.remaining_length_ then
      let destroyed := { c with close_connection_ := true }.check_destroy messageTooBig
      .closes destroyed.1
        (.error_handler "Message length exceeds maximum payload." :: destroyed.2)
    else if c.has_mask_ then .async_read c 4
    else .async_read_some { c with state_ := .payload } (min 4096 c.remaining_length_)
  | .payload => .async_read_some c (min 4096 c.remaining_length_)

/-- **`do_read`**, up to the socket. -/
def do_read : Reading :=
  if c.has_sent_close_ && c.has_recv_close_ then
    let destroyed := { c with close_connection_ := true }.check_destroy closedAbnormally
    .closes destroyed.1 destroyed.2
  else c.do_read_in c.state_

/-- **The callbacks of `do_read`** without an error. A header of which one byte
is missing has a zero there. -/
def on_read (bytes : List UInt8) : Connection × List Output :=
  match c.state_ with
  | .miniHeader =>
    let mini_header := (bytes.getD 0 0).toNat * 256 + (bytes.getD 1 0).toNat
    let c := { c with mini_header_ := mini_header, has_mask_ := mini_header / 128 % 2 = 1 }
    if mini_header % 128 = 127 then ({ c with state_ := .len64 }, [])
    else if mini_header % 128 = 126 then ({ c with state_ := .len16 }, [])
    else ({ c with remaining_length_ := mini_header % 128, state_ := .mask }, [])
  | .len16 | .len64 => ({ c with remaining_length_ := ofBigEndian bytes, state_ := .mask }, [])
  | .mask => ({ c with mask_ := bytes, state_ := .payload }, [])
  | .payload =>
    let c := { c with
      fragment_ := c.fragment_ ++ bytes, remaining_length_ := c.remaining_length_ - bytes.length }
    if c.remaining_length_ = 0 then
      let handled := c.handle_fragment
      ({ handled.1 with state_ := .miniHeader }, handled.2)
    else (c, [])

end Connection

/-! ## Runs -/

/-- What happens: a read, with the bytes it is given, or a call of `close`. -/
inductive Event
  | read (bytes : List UInt8) (outputs : List Output)
  | close (outputs : List Output)

def Event.outputs : Event → List Output
  | read _ outputs | close outputs => outputs

/-- What `async_read_some` may give: some bytes, none only when none are asked for. -/
def SomeOf (size : ℕ) (bytes : List UInt8) : Prop :=
  bytes.length ≤ size ∧ (size ≠ 0 → bytes ≠ [])

open Connection in
/-- **A read**, of a stream of which any part may have arrived. -/
inductive Reads : Connection × List UInt8 → Event → Connection × List UInt8 → Prop
  | some {c c' : Connection} {size : ℕ} {bytes rest : List UInt8} (h : c.destroyed = false)
    (hread : c.do_read = .async_read_some c' size) (hsome : SomeOf size bytes) :
    Reads (c, bytes ++ rest) (.read bytes (c'.on_read bytes).2) ((c'.on_read bytes).1, rest)
  | exactly {c c' : Connection} {size : ℕ} {bytes rest : List UInt8} (h : c.destroyed = false)
    (hread : c.do_read = .async_read c' size) (hlength : bytes.length = size) :
    Reads (c, bytes ++ rest) (.read bytes (c'.on_read bytes).2) ((c'.on_read bytes).1, rest)
  | closes {c c' : Connection} {outputs : List Output} {rest : List UInt8}
    (h : c.destroyed = false) (hread : c.do_read = .closes c' outputs) :
    Reads (c, rest) (.read [] outputs) (c', rest)

/-- **A step**: a read, or a call of `close` by the program. -/
inductive Step : Connection × List UInt8 → Event → Connection × List UInt8 → Prop
  | reads {s s' : Connection × List UInt8} {e : Event} (h : Reads s e s') : Step s e s'
  | close {c : Connection} {rest : List UInt8} (msg : List UInt8) (status_code : ℕ)
    (h : c.destroyed = false) :
    Step (c, rest) (.close (c.close msg status_code).2) ((c.close msg status_code).1, rest)

theorem Step.open {s s' : Connection × List UInt8} {e : Event} (h : Step s e s') :
    s.1.destroyed = false := by
  cases h with
  | reads h => cases h <;> assumption
  | close _ _ h => exact h

/-- **No header is split**: a read in the state of a header gives both bytes. -/
def Unsplit (s : Connection × List UInt8) (e : Event) : Prop :=
  ∀ bytes outputs, e = .read bytes outputs → s.1.state_ = .miniHeader → bytes.length ≠ 1

/-- A step that splits no header. -/
def Careful (s : Connection × List UInt8) (e : Event) (s' : Connection × List UInt8) : Prop :=
  Step s e s' ∧ Unsplit s e

/-- What is handed to the route, and what a sign of life is answered. -/
def Output.isData : Output → Bool
  | message_handler .. | send_data .. => true
  | _ => false

/-- What there is of that in an event. -/
def Event.data (e : Event) : List Output := e.outputs.filter Output.isData

/-! ## Whole frames -/

/-- A part of a message, and the message if it is the last. -/
def part (m : Message) (F : Frame) (binary : Bool) : Message × List Output :=
  if F.fin then ((binary, []), [.message_handler (m.2 ++ F.payload) binary])
  else ((binary, m.2 ++ F.payload), [])

/-- **What a frame is answered**, and the message that it leaves begun. -/
def answer (m : Message) (F : Frame) : Message × List Output :=
  match F.opcode with
  | 0 => part m F m.1
  | 1 => part m F false
  | 2 => part m F true
  | 9 => (m, [.send_data (build_header 10 F.payload.length ++ F.payload)])
  | _ => (m, [])

/-- The message that frames leave begun. -/
def begun (m : Message) : List Frame → Message
  | [] => m
  | F :: Fs => begun (answer m F).1 Fs

/-- What they are answered. -/
def answers (m : Message) : List Frame → List Output
  | [] => []
  | F :: Fs => (answer m F).2 ++ answers (answer m F).1 Fs

theorem answers_append (m : Message) (Fs Fs' : List Frame) :
    answers m (Fs ++ Fs') = answers m Fs ++ answers (begun m Fs) Fs' := by
  induction Fs generalizing m with
  | nil => rfl
  | cons F Fs ih => rw [List.cons_append, answers, answers, ih, begun, List.append_assoc]

/-! ## Where a connection is -/

/-- The connection has begun a message. -/
structure Connection.Begun (c : Connection) (m : Message) : Prop where
  /-- The kind that the first frame of the message had. -/
  is_binary : c.is_binary_ = m.1
  /-- What its frames have brought so far. -/
  message : c.message_ = m.2
  /-- No frame is too long: nothing sets another limit. -/
  max_payload : c.max_payload_bytes_ = 2 ^ 64 - 1

/-- **Between two frames.** -/
structure Between (m : Message) (c : Connection) : Prop where
  /-- The message goes on with the next frame. -/
  begun : c.Begun m
  /-- The next bytes read are a header. -/
  state : c.state_ = .miniHeader
  /-- No payload is held. -/
  fragment : c.fragment_ = []

/-- The connection has read the header of a frame. -/
structure Connection.HasHeader (c : Connection) (m : Message) (F : Frame) : Prop where
  /-- The message stays as it was before the frame. -/
  begun : c.Begun m
  /-- The two bytes that were read. -/
  mini_header : c.mini_header_ = F.header
  /-- The mask bit of the header. -/
  has_mask : c.has_mask_ = F.key.isSome

/-- Reading goes on, and the program may close. -/
theorem Connection.HasHeader.update {c : Connection} {m : Message} {F : Frame}
    (h : c.HasHeader m F) {fragment mask : List UInt8} {state : WebSocketReadState}
    {remaining : ℕ} {sent called : Bool} :
    Connection.HasHeader { c with
      fragment_ := fragment, state_ := state, remaining_length_ := remaining, mask_ := mask,
      has_sent_close_ := sent, is_close_handler_called_ := called } m F :=
  ⟨⟨h.begun.is_binary, h.begun.message, h.begun.max_payload⟩, h.mini_header, h.has_mask⟩

/-- **In a frame**, of which some bytes are still to come. -/
inductive Within (m : Message) (F : Frame) : Connection → List UInt8 → Prop
  | len16 {c : Connection} (h : c.HasHeader m F) (hstate : c.state_ = .len16)
    (hfragment : c.fragment_ = []) (hlt : F.payload.length < 256 ^ 2) :
    Within m F c (bigEndian 2 F.payload.length ++ (F.key.getD [] ++ F.masked))
  | len64 {c : Connection} (h : c.HasHeader m F) (hstate : c.state_ = .len64)
    (hfragment : c.fragment_ = []) :
    Within m F c (bigEndian 8 F.payload.length ++ (F.key.getD [] ++ F.masked))
  | mask {c : Connection} (h : c.HasHeader m F) (hstate : c.state_ = .mask)
    (hfragment : c.fragment_ = []) (hremaining : c.remaining_length_ = F.payload.length) :
    Within m F c (F.key.getD [] ++ F.masked)
  | payload {c : Connection} {todo : List UInt8} (h : c.HasHeader m F)
    (hstate : c.state_ = .payload) (hmask : ∀ key ∈ F.key, c.mask_ = key)
    (hmasked : F.masked = c.fragment_ ++ todo) (hremaining : c.remaining_length_ = todo.length) :
    Within m F c todo

/-! ## The end of a frame -/

/-- The fields of a header. -/
theorem header_fields (F : Frame) : (F.header / 32768 % 2 = 1 ↔ F.fin = true)
    ∧ F.header / 256 % 16 = F.opcode ∧ (F.header / 128 % 2 = 1 ↔ F.key.isSome = true)
    ∧ F.header % 128 = F.shortLength := by
  have hshort := F.shortLength_lt
  have hopcode := F.opcode_lt
  unfold Frame.header
  cases F.fin <;> cases F.key.isSome <;> simp only [Bool.toNat_true, Bool.toNat_false] <;>
    refine ⟨?_, by omega, ?_, by omega⟩ <;> simp <;> omega

/-- What was read of a frame, under its mask. -/
theorem unmasked {m : Message} {F : Frame} {c : Connection} (h : c.HasHeader m F)
    (hmask : ∀ key ∈ F.key, c.mask_ = key) (hfragment : c.fragment_ = F.masked) :
    (if c.has_mask_ then Frames.mask c.mask_ c.fragment_ else c.fragment_) = F.payload := by
  rw [h.has_mask, hfragment, Frame.masked]
  cases hkey : F.key with
  | none => rfl
  | some key =>
    rw [hmask key hkey]
    exact mask_mask key F.payload

/-- A part of a message that was read. -/
theorem append_part {m : Message} {F : Frame} {c : Connection} (h : c.HasHeader m F)
    (binary : Bool) : (c.append binary F.payload).2.filter Output.isData = (part m F binary).2
      ∧ Between (part m F binary).1
        { (c.append binary F.payload).1 with state_ := .miniHeader } := by
  have hfin : c.is_FIN = F.fin := by
    rw [Bool.eq_iff_iff, ← (header_fields F).1, ← h.mini_header]
    exact decide_eq_true_iff
  rw [part, Connection.append, hfin, h.begun.message]
  split
  · exact ⟨rfl, ⟨rfl, rfl, h.begun.max_payload⟩, rfl, rfl⟩
  · exact ⟨rfl, ⟨rfl, rfl, h.begun.max_payload⟩, rfl, rfl⟩

/-- Closing sends no data, and leaves what was begun. -/
theorem close_data {c : Connection} (msg : List UInt8) (status_code : ℕ) :
    (c.close msg status_code).2.filter Output.isData = []
      ∧ ∃ called, (c.close msg status_code).1
        = { c with has_sent_close_ := true, is_close_handler_called_ := called } := by
  unfold Connection.close
  split
  · exact ⟨rfl, _, rfl⟩
  · exact ⟨rfl, _, rfl⟩

/-- So does being closed. -/
theorem receive_close_data {m : Message} {c : Connection} (h : c.Begun m)
    (fragment : List UInt8) : (c.receive_close fragment).2.filter Output.isData = []
      ∧ ((c.receive_close fragment).1.destroyed = true
        ∨ Between m { (c.receive_close fragment).1 with state_ := .miniHeader }) := by
  unfold Connection.receive_close
  dsimp only
  split
  · refine ⟨?_, .inl rfl⟩
    dsimp only
    split <;> rfl
  · obtain ⟨houtputs, called, hclose⟩ := close_data (c := { c with has_recv_close_ := true })
      (if 2 ≤ fragment.length then fragment.drop 2 else fragment)
      (if 2 ≤ fragment.length then ofBigEndian (fragment.take 2) else noStatusCodePresent)
    refine ⟨houtputs, .inr ?_⟩
    rw [hclose]
    exact ⟨⟨h.is_binary, h.message, h.max_payload⟩, rfl, rfl⟩

/-- **A frame that was read is answered.** -/
theorem handle_fragment_answer {m : Message} {F : Frame} {c : Connection} (h : c.HasHeader m F)
    (hmask : ∀ key ∈ F.key, c.mask_ = key) (hfragment : c.fragment_ = F.masked) :
    c.handle_fragment.2.filter Output.isData = (answer m F).2
      ∧ (c.handle_fragment.1.destroyed = true
        ∨ Between (answer m F).1 { c.handle_fragment.1 with state_ := .miniHeader }) := by
  have hopcode : c.opcode = F.opcode := by
    rw [Connection.opcode, h.mini_header, (header_fields F).2.1]
  have hpayload := unmasked h hmask hfragment
  have hbegun := h.begun
  unfold Connection.handle_fragment answer
  simp only [hpayload, hopcode]
  generalize F.opcode = opcode
  match opcode with
  | 0 =>
    rw [hbegun.is_binary]
    exact (append_part h m.1).imp_right .inr
  | 1 => exact (append_part h false).imp_right .inr
  | 2 => exact (append_part h true).imp_right .inr
  | 8 => exact receive_close_data hbegun F.payload
  | 3 | 4 | 5 | 6 | 7 | 9 | 10 | n + 11 =>
    exact ⟨rfl, .inr ⟨⟨hbegun.is_binary, hbegun.message, hbegun.max_payload⟩, rfl, rfl⟩⟩

/-! ## The reads -/

theorem check_destroy_data (c : Connection) (code : ℕ) : (c.check_destroy code).1.destroyed = true
    ∧ (c.check_destroy code).2.filter Output.isData = [] := by
  unfold Connection.check_destroy
  refine ⟨rfl, ?_⟩
  dsimp only
  split <;> rfl

/-- Destroying a connection sends no data. -/
theorem closes_data {c c' : Connection} {outputs : List Output}
    (h : c.do_read = .closes c' outputs) :
    c'.destroyed = true ∧ outputs.filter Output.isData = [] := by
  unfold Connection.do_read at h
  split at h
  · obtain ⟨rfl, rfl⟩ := Connection.Reading.closes.inj h
    exact check_destroy_data _ _
  generalize c.state_ = state at h
  cases state with
  | mask =>
    rw [Connection.do_read_in] at h
    split at h
    · obtain ⟨rfl, rfl⟩ := Connection.Reading.closes.inj h
      exact check_destroy_data _ _
    · split at h <;> cases h
  | _ => cases h

/-- What the connection is when it is called back, and which bytes it may be
given then. -/
def Connection.Asks (c c' : Connection) (bytes : List UInt8) : WebSocketReadState → Prop
  | .miniHeader => c' = { c with mini_header_ := 0 } ∧ SomeOf 2 bytes
  | .len16 => c' = { c with remaining_length_ := 0 } ∧ bytes.length = 2
  | .len64 => c' = c ∧ bytes.length = 8
  | .mask =>
    if c.has_mask_ then c' = c ∧ bytes.length = 4
    else c' = { c with state_ := .payload } ∧ SomeOf (min 4096 c.remaining_length_) bytes
  | .payload => c' = c ∧ SomeOf (min 4096 c.remaining_length_) bytes

/-- Some bytes. -/
theorem some_iff {c₁ c₂ : Connection} {bytes : List UInt8} {n : ℕ} :
    (c₁ = c₂ ∧ SomeOf n bytes)
      ↔ (∃ size, Connection.Reading.async_read_some c₂ n = .async_read_some c₁ size
          ∧ SomeOf size bytes)
        ∨ Connection.Reading.async_read_some c₂ n = .async_read c₁ bytes.length := by
  constructor
  · rintro ⟨rfl, hsome⟩
    exact .inl ⟨_, rfl, hsome⟩
  · rintro (⟨size, heq, hsome⟩ | heq)
    · obtain ⟨rfl, rfl⟩ := Connection.Reading.async_read_some.inj heq
      exact ⟨rfl, hsome⟩
    · cases heq

/-- All the bytes of a number. -/
theorem all_iff {c₁ c₂ : Connection} {bytes : List UInt8} {n : ℕ} :
    (c₁ = c₂ ∧ bytes.length = n)
      ↔ (∃ size, Connection.Reading.async_read c₂ n = .async_read_some c₁ size
          ∧ SomeOf size bytes)
        ∨ Connection.Reading.async_read c₂ n = .async_read c₁ bytes.length := by
  constructor
  · rintro ⟨rfl, rfl⟩
    exact .inr rfl
  · rintro (⟨size, heq, -⟩ | heq)
    · cases heq
    · obtain ⟨rfl, rfl⟩ := Connection.Reading.async_read.inj heq
      exact ⟨rfl, rfl⟩

/-- What is asked for in a state. -/
theorem asks_iff {c c₁ : Connection} {bytes : List UInt8} {state : WebSocketReadState}
    (h : ∀ c' outputs, c.do_read_in state ≠ .closes c' outputs) :
    c.Asks c₁ bytes state ↔ (∃ size, c.do_read_in state = .async_read_some c₁ size
        ∧ SomeOf size bytes)
      ∨ c.do_read_in state = .async_read c₁ bytes.length := by
  cases state with
  | miniHeader => exact some_iff
  | len16 => exact all_iff
  | len64 => exact all_iff
  | mask =>
    rw [Connection.do_read_in] at h ⊢
    split at h
    · exact absurd rfl (h _ _)
    · next hle =>
      rw [Connection.Asks, if_neg hle]
      split
      · exact all_iff
      · exact some_iff
  | payload => exact some_iff

theorem do_read_of_open {c : Connection} (h : ∀ c' outputs, c.do_read ≠ .closes c' outputs) :
    c.do_read = c.do_read_in c.state_ := by
  unfold Connection.do_read at h ⊢
  split at h
  · exact absurd rfl (h _ _)
  · next hopen => rw [if_neg hopen]

/-- **What a read is**: the end of the connection, or what was asked for. -/
theorem reads_iff {c c' : Connection} {stream rest : List UInt8} {e : Event} :
    Reads (c, stream) e (c', rest) ↔ c.destroyed = false
      ∧ ((∃ outputs, c.do_read = .closes c' outputs ∧ stream = rest ∧ e = .read [] outputs)
        ∨ (∀ c₁ outputs, c.do_read ≠ .closes c₁ outputs)
          ∧ ∃ c₁ bytes, c.Asks c₁ bytes c.state_ ∧ stream = bytes ++ rest
            ∧ e = .read bytes (c₁.on_read bytes).2 ∧ c' = (c₁.on_read bytes).1) := by
  constructor
  · intro h
    cases h with
    | @some _ c₁ size bytes _ hdestroyed hread hsome =>
      have hopen : ∀ c' outputs, c.do_read ≠ .closes c' outputs := by simp [hread]
      have hsame := do_read_of_open hopen
      refine ⟨hdestroyed, .inr ⟨hopen, c₁, bytes, (asks_iff ?_).mpr ?_, rfl, rfl, rfl⟩⟩
      · rwa [← hsame]
      · rw [← hsame]
        exact .inl ⟨size, hread, hsome⟩
    | @exactly _ c₁ size bytes _ hdestroyed hread hlength =>
      have hopen : ∀ c' outputs, c.do_read ≠ .closes c' outputs := by simp [hread]
      have hsame := do_read_of_open hopen
      refine ⟨hdestroyed, .inr ⟨hopen, c₁, bytes, (asks_iff ?_).mpr ?_, rfl, rfl, rfl⟩⟩
      · rwa [← hsame]
      · rw [← hsame, hlength]
        exact .inr hread
    | closes hdestroyed hread => exact ⟨hdestroyed, .inl ⟨_, hread, rfl, rfl⟩⟩
  · rintro ⟨hdestroyed, ⟨outputs, hread, rfl, rfl⟩ | ⟨hopen, c₁, bytes, hasks, rfl, rfl, rfl⟩⟩
    · exact .closes hdestroyed hread
    · have hsame := do_read_of_open hopen
      rw [asks_iff (by rwa [← hsame]), ← hsame] at hasks
      obtain ⟨size, hread, hsome⟩ | hread := hasks
      · exact .some hdestroyed hread hsome
      · exact .exactly hdestroyed hread rfl

/-- The bytes of a header are its number. -/
theorem toNat_header (F : Frame) : ((bigEndian 2 F.header).getD 0 0).toNat * 256
    + ((bigEndian 2 F.header).getD 1 0).toNat = F.header := by
  have hvalue := ofBigEndian_bigEndian F.header_lt
  simp only [ofBigEndian, bigEndian, List.foldl_cons, List.foldl_nil, zero_mul, zero_add] at hvalue
  exact hvalue

/-- **The callback of a header.** -/
theorem on_read_header {m : Message} {F : Frame} {c : Connection} (h : c.Begun m)
    (hstate : c.state_ = .miniHeader) (hfragment : c.fragment_ = []) :
    (c.on_read (bigEndian 2 F.header)).2 = []
      ∧ Within m F (c.on_read (bigEndian 2 F.header)).1
        (F.extendedLength ++ (F.key.getD [] ++ F.masked)) := by
  obtain ⟨-, -, hkey, hshort⟩ := header_fields F
  have hmask : decide (F.header / 128 % 2 = 1) = F.key.isSome := by
    rw [Bool.eq_iff_iff, decide_eq_true_iff]
    exact hkey
  unfold Connection.on_read
  rw [hstate]
  dsimp only
  rw [toNat_header, hshort, hmask]
  unfold Frame.shortLength Frame.extendedLength
  by_cases hsmall : F.payload.length < 126
  · rw [if_pos hsmall, if_pos hsmall, if_neg (by omega), if_neg (by omega)]
    exact ⟨rfl, .mask ⟨⟨h.is_binary, h.message, h.max_payload⟩, rfl, rfl⟩ rfl hfragment rfl⟩
  rw [if_neg hsmall, if_neg hsmall]
  by_cases hmiddle : F.payload.length < 65536
  · rw [if_pos hmiddle, if_pos hmiddle, if_neg (by decide), if_pos rfl]
    exact ⟨rfl, .len16 ⟨⟨h.is_binary, h.message, h.max_payload⟩, rfl, rfl⟩ rfl hfragment hmiddle⟩
  · rw [if_neg hmiddle, if_neg hmiddle, if_pos rfl]
    exact ⟨rfl, .len64 ⟨⟨h.is_binary, h.message, h.max_payload⟩, rfl, rfl⟩ rfl hfragment⟩

/-- **A read at the beginning of a frame.** -/
theorem reads_between {m : Message} {F : Frame} {c c' : Connection} {rest rest' : List UInt8}
    {e : Event} (h : Between m c) (hreads : Reads (c, F.encode ++ rest) e (c', rest'))
    (hunsplit : Unsplit (c, F.encode ++ rest) e) :
    e.data = []
      ∧ (c'.destroyed = true ∨ ∃ todo, Within m F c' todo ∧ rest' = todo ++ rest) := by
  obtain ⟨-, ⟨outputs, hcloses, -, rfl⟩ | ⟨-, c₁, bytes, hasks, hstream, rfl, rfl⟩⟩ :=
    reads_iff.mp hreads
  · exact ⟨(closes_data hcloses).2, .inl (closes_data hcloses).1⟩
  rw [h.state] at hasks
  obtain ⟨rfl, hle, hne⟩ := hasks
  have hpos := List.length_pos_of_ne_nil (hne (by decide))
  have hone := hunsplit bytes _ rfl h.state
  rw [Frame.encode, List.append_assoc] at hstream
  obtain ⟨rfl, rfl⟩ := List.append_inj hstream (by rw [length_bigEndian]; omega)
  obtain ⟨houtputs, hwithin⟩ := on_read_header (F := F) (c := { c with mini_header_ := 0 })
    ⟨h.begun.is_binary, h.begun.message, h.begun.max_payload⟩ h.state h.fragment
  exact ⟨by rw [Event.data, Event.outputs, houtputs]; rfl, .inr ⟨_, hwithin, rfl⟩⟩

/-- What a read within a frame comes to: it is still in the frame, or it has
answered it. -/
def Reached (m : Message) (F : Frame) (rest : List UInt8) (e : Event)
    (s : Connection × List UInt8) : Prop :=
  (e.data = [] ∧ ∃ todo, Within m F s.1 todo ∧ s.2 = todo ++ rest)
    ∨ e.data = (answer m F).2 ∧ s.2 = rest
      ∧ (s.1.destroyed = true ∨ Between (answer m F).1 s.1)

/-- **The callback of a payload**, which may have come in part. -/
theorem on_read_payload {m : Message} {F : Frame} {c : Connection}
    {bytes todo rest rest' : List UInt8} (h : c.HasHeader m F) (hstate : c.state_ = .payload)
    (hmask : ∀ key ∈ F.key, c.mask_ = key) (hmasked : F.masked = c.fragment_ ++ todo)
    (hremaining : c.remaining_length_ = todo.length)
    (hsome : SomeOf (min 4096 c.remaining_length_) bytes)
    (hstream : todo ++ rest = bytes ++ rest') :
    Reached m F rest (.read bytes (c.on_read bytes).2) ((c.on_read bytes).1, rest') := by
  obtain ⟨todo', rfl, rfl⟩ : ∃ todo', todo = bytes ++ todo' ∧ rest' = todo' ++ rest := by
    have hle : bytes.length ≤ todo.length := by
      have := hsome.1
      omega
    obtain ⟨todo', hprefix⟩ : bytes <+: todo :=
      List.prefix_of_prefix_length_le ⟨rest', hstream.symm⟩ ⟨rest, rfl⟩ hle
    rw [← hprefix, List.append_assoc] at hstream
    exact ⟨todo', hprefix.symm, (List.append_cancel_left hstream).symm⟩
  rw [List.length_append] at hremaining
  have hleft : c.remaining_length_ - bytes.length = todo'.length := by omega
  rw [← List.append_assoc] at hmasked
  unfold Connection.on_read
  rw [hstate]
  dsimp only
  rw [hleft]
  split
  · next hzero =>
    obtain rfl := List.length_eq_zero_iff.mp hzero
    rw [List.append_nil] at hmasked
    obtain ⟨houtputs, hnext⟩ := handle_fragment_answer
      (c := { c with
        fragment_ := c.fragment_ ++ bytes, state_ := .payload, remaining_length_ := 0 })
      h.update hmask hmasked.symm
    exact .inr ⟨houtputs, rfl, hnext⟩
  · exact .inl ⟨rfl, todo', .payload h.update rfl hmask hmasked rfl, rfl⟩

/-- **The callback of a length.** -/
theorem on_read_length {m : Message} {F : Frame} {c : Connection} {k : ℕ}
    (h : c.HasHeader m F) (hstate : c.state_ = .len16 ∨ c.state_ = .len64)
    (hfragment : c.fragment_ = []) (hlt : F.payload.length < 256 ^ k) :
    (c.on_read (bigEndian k F.payload.length)).2 = []
      ∧ Within m F (c.on_read (bigEndian k F.payload.length)).1 (F.key.getD [] ++ F.masked) := by
  have hread : c.on_read (bigEndian k F.payload.length)
      = ({ c with remaining_length_ := F.payload.length, state_ := .mask }, []) := by
    unfold Connection.on_read
    obtain hstate | hstate := hstate
    · rw [hstate]
      dsimp only
      rw [ofBigEndian_bigEndian hlt]
    · rw [hstate]
      dsimp only
      rw [ofBigEndian_bigEndian hlt]
  rw [hread]
  exact ⟨rfl, .mask h.update rfl hfragment rfl⟩

/-- **The callback of a mask**, or of the payload where there is none. -/
theorem on_read_mask {m : Message} {F : Frame} {c c₁ : Connection}
    {bytes rest rest' : List UInt8} (h : c.HasHeader m F) (hstate : c.state_ = .mask)
    (hfragment : c.fragment_ = []) (hremaining : c.remaining_length_ = F.payload.length)
    (hasks : c.Asks c₁ bytes .mask)
    (hstream : F.key.getD [] ++ F.masked ++ rest = bytes ++ rest') :
    Reached m F rest (.read bytes (c₁.on_read bytes).2) ((c₁.on_read bytes).1, rest') := by
  rw [Connection.Asks] at hasks
  cases hkey : F.key with
  | none =>
    have hnot : ¬ c.has_mask_ = true := by
      rw [h.has_mask, hkey]
      exact Bool.false_ne_true
    rw [if_neg hnot] at hasks
    obtain ⟨rfl, hsome⟩ := hasks
    rw [hkey, Option.getD_none, List.nil_append] at hstream
    refine on_read_payload (c := { c with state_ := .payload }) h.update rfl ?_ ?_ ?_ hsome
      hstream
    · rw [hkey]
      exact fun key hmem => absurd hmem (Option.not_mem_none key)
    · show F.masked = c.fragment_ ++ F.masked
      rw [hfragment, List.nil_append]
    · rw [Frame.length_masked]
      exact hremaining
  | some key =>
    have hmask : c.has_mask_ = true := by rw [h.has_mask, hkey, Option.isSome_some]
    rw [if_pos hmask] at hasks
    obtain ⟨rfl, hlength⟩ := hasks
    rw [hkey, Option.getD_some, List.append_assoc] at hstream
    obtain ⟨rfl, rfl⟩ := List.append_inj hstream (by rw [F.key_length key hkey, hlength])
    refine .inl ?_
    unfold Connection.on_read
    rw [hstate]
    refine ⟨rfl, F.masked, .payload h.update rfl ?_ ?_ ?_, rfl⟩
    · rw [hkey]
      exact fun key' hmem => Option.some.inj hmem
    · show F.masked = c₁.fragment_ ++ F.masked
      rw [hfragment, List.nil_append]
    · rw [Frame.length_masked]
      exact hremaining

/-- **A read within a frame.** -/
theorem reads_within {m : Message} {F : Frame} {c c' : Connection}
    {todo rest rest' : List UInt8} {e : Event} (h : Within m F c todo)
    (hreads : Reads (c, todo ++ rest) e (c', rest')) :
    (e.data = [] ∧ c'.destroyed = true) ∨ Reached m F rest e (c', rest') := by
  obtain ⟨-, ⟨outputs, hcloses, -, rfl⟩ | ⟨-, c₁, bytes, hasks, hstream, rfl, rfl⟩⟩ :=
    reads_iff.mp hreads
  · exact .inl ⟨(closes_data hcloses).2, (closes_data hcloses).1⟩
  refine .inr ?_
  cases h with
  | len16 h hstate hfragment hlt =>
    rw [hstate] at hasks
    obtain ⟨rfl, hlength⟩ := hasks
    rw [List.append_assoc] at hstream
    obtain ⟨rfl, rfl⟩ := List.append_inj hstream (by rw [length_bigEndian, hlength])
    obtain ⟨houtputs, hwithin⟩ := on_read_length (c := { c with remaining_length_ := 0 })
      h.update (.inl hstate) hfragment hlt
    exact .inl ⟨by rw [Event.data, Event.outputs, houtputs]; rfl, _, hwithin, rfl⟩
  | len64 h hstate hfragment =>
    rw [hstate] at hasks
    obtain ⟨rfl, hlength⟩ := hasks
    rw [List.append_assoc] at hstream
    obtain ⟨rfl, rfl⟩ := List.append_inj hstream (by rw [length_bigEndian, hlength])
    obtain ⟨houtputs, hwithin⟩ := on_read_length h (.inr hstate) hfragment
      (F.payload_lt.trans_eq (show 2 ^ 64 = 256 ^ 8 by norm_num))
    exact .inl ⟨by rw [Event.data, Event.outputs, houtputs]; rfl, _, hwithin, rfl⟩
  | mask h hstate hfragment hremaining =>
    rw [hstate] at hasks
    exact on_read_mask h hstate hfragment hremaining hasks hstream
  | payload h hstate hmask hmasked hremaining =>
    rw [hstate] at hasks
    obtain ⟨rfl, hsome⟩ := hasks
    exact on_read_payload h hstate hmask hmasked hremaining hsome hstream

end Crow
