import NeuralBuilder.CrowConnection

/-!
# What the web socket hands over

The handler of the route is given the messages of the client, each once, whole
and in order, wherever no read ends between the two bytes of a header
(`messages_delivered`). The header is the one thing that is asked for with
`async_read_some` and taken as complete; what happens when it is not is
`split_header`.

A run is followed by where in the stream the connection is (`At`): which frames
were read, and how much of the next one. One step keeps it, whichever way the
network cuts the bytes, and the outputs so far are those of the frames read
(`run_answers`). Progress is counted in bytes and headers: the stream is read at
most `2 n + 1` times for `n` bytes (`reads_bounded`), and a run that has not
read everything can go on (`exists_stuck`).
-/

namespace Crow

open Frames Runs

/-! ## What a run has answered -/

/-- What was answered and handed over in a run. -/
def data (es : List Event) : List Output := es.flatMap Event.data

theorem answers_snoc (m : Message) (Fs : List Frame) (F : Frame) :
    answers m (Fs ++ [F]) = answers m Fs ++ (answer (begun m Fs) F).2 := by
  rw [answers_append, answers, answers, List.append_nil]

theorem begun_snoc (m : Message) (Fs : List Frame) (F : Frame) :
    begun m (Fs ++ [F]) = (answer (begun m Fs) F).1 := by
  induction Fs generalizing m with
  | nil => rfl
  | cons G Fs ih => rw [List.cons_append, begun, begun, ih]

/-- **Where a connection is in the stream** of the frames that are still to be
answered. -/
inductive At (m : Message) : List Frame → Connection × List UInt8 → Prop
  | between {c : Connection} {Fs : List Frame} (h : Between m c) :
    At m Fs (c, Fs.flatMap Frame.encode)
  | within {c : Connection} {F : Frame} {Fs : List Frame} {todo : List UInt8}
    (h : Within m F c todo) : At m (F :: Fs) (c, todo ++ Fs.flatMap Frame.encode)

/-- A call of `close` leaves a connection where it is. -/
theorem At.close {m : Message} {Fs : List Frame} {c : Connection} {rest : List UInt8}
    (h : At m Fs (c, rest)) (sent called : Bool) :
    At m Fs ({ c with has_sent_close_ := sent, is_close_handler_called_ := called }, rest) := by
  cases h with
  | between h => exact .between ⟨⟨h.begun.1, h.begun.2, h.begun.3⟩, h.state, h.fragment⟩
  | within h =>
    refine .within ?_
    cases h with
    | len16 h hstate hfragment hlt => exact .len16 h.update hstate hfragment hlt
    | len64 h hstate hfragment => exact .len64 h.update hstate hfragment
    | mask h hstate hfragment hremaining => exact .mask h.update hstate hfragment hremaining
    | payload h hstate hmask hmasked hremaining =>
      exact .payload h.update hstate hmask hmasked hremaining

/-- **A step answers a frame or none**, and the connection is in the stream
still unless it is closed. -/
theorem At.step {m : Message} {Fs : List Frame} {s s' : Connection × List UInt8} {e : Event}
    (h : At m Fs s) (hstep : Careful s e s') :
    (e.data = [] ∧ (s'.1.destroyed = true ∨ At m Fs s'))
      ∨ ∃ F Fs', Fs = F :: Fs' ∧ e.data = (answer m F).2
        ∧ (s'.1.destroyed = true ∨ At (answer m F).1 Fs' s') := by
  obtain ⟨hstep, hunsplit⟩ := hstep
  cases hstep with
  | @close c rest msg status_code hopen =>
    obtain ⟨houtputs, called, hclose⟩ := close_data (c := c) msg status_code
    refine .inl ⟨houtputs, .inr ?_⟩
    rw [hclose]
    exact h.close true called
  | @reads _ s' e hreads =>
    obtain ⟨c', rest'⟩ := s'
    cases h with
    | @between c Fs h =>
      cases Fs with
      | nil =>
        -- no bytes have come
        obtain ⟨-, ⟨outputs, hcloses, -, rfl⟩ | ⟨-, c₁, bytes, hasks, hstream, -, -⟩⟩ :=
          reads_iff.mp hreads
        · exact .inl ⟨(closes_data hcloses).2, .inl (closes_data hcloses).1⟩
        · rw [h.state] at hasks
          exact absurd (List.append_eq_nil_iff.mp hstream.symm).1 (hasks.2.2 two_ne_zero)
      | cons F Fs =>
        obtain ⟨hdata, hdestroyed | ⟨todo, hwithin, rfl⟩⟩ := reads_between h hreads hunsplit
        · exact .inl ⟨hdata, .inl hdestroyed⟩
        · exact .inl ⟨hdata, .inr (.within hwithin)⟩
    | @within c F Fs todo h =>
      obtain ⟨hdata, hdestroyed⟩ | ⟨hdata, todo', hwithin, hrest⟩ | ⟨hdata, hrest, hnext⟩ :=
        reads_within h hreads
      · exact .inl ⟨hdata, .inl hdestroyed⟩
      · obtain rfl : rest' = _ := hrest
        exact .inl ⟨hdata, .inr (.within hwithin)⟩
      · obtain rfl : rest' = _ := hrest
        exact .inr ⟨F, Fs, rfl, hdata, hnext.imp_right .between⟩

/-- **A run has answered the first of the frames**, each once and in order. -/
theorem run_answers {m : Message} {Fs : List Frame} {s s' : Connection × List UInt8}
    {es : List Event} (h : Run Careful s es s') (hat : At m Fs s) :
    ∃ done todo, Fs = done ++ todo ∧ data es = answers m done
      ∧ (s'.1.destroyed = true ∨ At (begun m done) todo s') := by
  refine h.history (P := fun es s' => ∃ done todo, Fs = done ++ todo ∧ data es = answers m done
    ∧ (s'.1.destroyed = true ∨ At (begun m done) todo s')) ?_ ⟨[], Fs, rfl, rfl, .inr hat⟩
  rintro es s e s' ⟨done, todo, rfl, hdata, hat⟩ hstep
  obtain hdestroyed | hat := hat
  · exact absurd hdestroyed (by rw [hstep.1.open]; exact Bool.false_ne_true)
  have hsnoc : data (es ++ [e]) = answers m done ++ e.data := by
    rw [data, List.flatMap_append, List.flatMap_singleton, ← data, hdata]
  obtain ⟨hnone, hat'⟩ | ⟨F, todo', rfl, hanswer, hat'⟩ := hat.step hstep
  · exact ⟨done, todo, rfl, by rw [hsnoc, hnone, List.append_nil], hat'⟩
  · refine ⟨done ++ [F], todo', List.append_cons done F todo', ?_, ?_⟩
    · rw [hsnoc, hanswer, answers_snoc]
    · rwa [begun_snoc]

/-- As many bytes as are there, up to a bound. -/
theorem someOf_take {size : ℕ} {bytes : List UInt8} (h : size ≤ bytes.length) :
    SomeOf size (bytes.take size) := by
  refine ⟨List.length_take_le size bytes, fun hsize hnil => hsize ?_⟩
  rw [← List.length_take_of_le h, hnil, List.length_nil]

/-- The bytes that are asked for are there. -/
theorem Within.exists_asks {m : Message} {F : Frame} {c : Connection} {todo : List UInt8}
    (h : Within m F c todo) : ∃ c₁ bytes rest, c.Asks c₁ bytes c.state_ ∧ todo = bytes ++ rest
      ∧ c.state_ ≠ .miniHeader := by
  cases h with
  | len16 h hstate hfragment hlt =>
    rw [hstate]
    exact ⟨_, _, _, ⟨rfl, length_bigEndian 2 _⟩, rfl, by decide⟩
  | len64 h hstate hfragment =>
    rw [hstate]
    exact ⟨_, _, _, ⟨rfl, length_bigEndian 8 _⟩, rfl, by decide⟩
  | mask h hstate hfragment hremaining =>
    rw [hstate]
    cases hkey : F.key with
    | none =>
      have hnot : ¬ c.has_mask_ = true := by
        rw [h.has_mask, hkey]
        exact Bool.false_ne_true
      have hle : min 4096 c.remaining_length_ ≤ F.masked.length := by
        rw [Frame.length_masked, ← hremaining]
        exact Nat.min_le_right 4096 _
      refine ⟨{ c with state_ := .payload }, F.masked.take (min 4096 c.remaining_length_), _, ?_,
        (List.take_append_drop _ F.masked).symm, by decide⟩
      rw [Connection.Asks, if_neg hnot]
      exact ⟨rfl, someOf_take hle⟩
    | some key =>
      have hmask : c.has_mask_ = true := by rw [h.has_mask, hkey, Option.isSome_some]
      refine ⟨c, key, F.masked, ?_, rfl, by decide⟩
      rw [Connection.Asks, if_pos hmask]
      exact ⟨rfl, F.key_length key hkey⟩
  | payload h hstate hmask hmasked hremaining =>
    rw [hstate]
    have hle : min 4096 c.remaining_length_ ≤ todo.length := by
      rw [hremaining]
      exact Nat.min_le_right 4096 _
    exact ⟨_, _, _, ⟨rfl, someOf_take hle⟩, (List.take_append_drop _ todo).symm, by decide⟩

/-- **Nothing is waited for** that the stream does not have: where frames are
still to be answered, something can be read. -/
theorem At.exists_read {m : Message} {F : Frame} {Fs : List Frame} {c : Connection}
    {stream : List UInt8} (h : At m (F :: Fs) (c, stream)) (hopen : c.destroyed = false) :
    ∃ e s', Reads (c, stream) e s' ∧ Unsplit (c, stream) e := by
  by_cases hcloses : ∃ c' outputs, c.do_read = .closes c' outputs
  · obtain ⟨c', outputs, hread⟩ := hcloses
    refine ⟨_, _, .closes hopen hread, fun bytes outputs' heq _ => ?_⟩
    obtain ⟨rfl, -⟩ := Event.read.inj heq
    exact zero_ne_one
  simp only [not_exists] at hcloses
  obtain ⟨c₁, bytes, rest, hasks, rfl, htwo⟩ : ∃ c₁ bytes rest, c.Asks c₁ bytes c.state_
      ∧ stream = bytes ++ rest ∧ (c.state_ = .miniHeader → bytes.length ≠ 1) := by
    cases h with
    | between h =>
      have hasks : c.Asks { c with mini_header_ := 0 } (bigEndian 2 F.header) .miniHeader :=
        ⟨rfl, (length_bigEndian 2 _).le, fun _ => List.cons_ne_nil _ _⟩
      rw [← h.state] at hasks
      refine ⟨_, _, F.extendedLength ++ (F.key.getD [] ++ F.masked) ++ Fs.flatMap Frame.encode,
        hasks, ?_, ?_⟩
      · rw [List.flatMap_cons, Frame.encode, List.append_assoc]
      · rw [length_bigEndian]
        exact fun _ => by decide
    | within h =>
      obtain ⟨c₁, bytes, rest, hasks, rfl, hstate⟩ := h.exists_asks
      exact ⟨c₁, bytes, _, hasks, List.append_assoc _ _ _, fun heq => absurd heq hstate⟩
  refine ⟨_, _, reads_iff.mpr ⟨hopen, .inr ⟨hcloses, c₁, bytes, hasks, rfl, rfl, rfl⟩⟩,
    fun bytes' outputs heq hstate => ?_⟩
  obtain ⟨rfl, -⟩ := Event.read.inj heq
  exact htwo hstate

/-! ## How often is read -/

/-- What is left to do: two reads for a byte, one for a payload without bytes,
and one that closes. -/
def work (s : Connection × List UInt8) : ℕ :=
  if s.1.destroyed then 0
  else 2 * s.2.length + (if s.1.state_ = .miniHeader then 0 else 1) + 1

/-- A read that is given no bytes ends a frame. -/
theorem state_of_asks {c c₁ : Connection} (h : c.Asks c₁ [] c.state_) :
    c.state_ ≠ .miniHeader ∧ (c₁.on_read []).1.state_ = .miniHeader := by
  have hend : ∀ {c₁ : Connection}, c₁.state_ = .payload →
      SomeOf (min 4096 c₁.remaining_length_) [] → (c₁.on_read []).1.state_ = .miniHeader := by
    intro c₁ hstate hsome
    have hzero : c₁.remaining_length_ - ([] : List UInt8).length = 0 := by
      by_contra hpos
      rw [List.length_nil] at hpos
      exact hsome.2 (by omega) rfl
    unfold Connection.on_read
    rw [hstate]
    dsimp only
    rw [if_pos hzero]
  cases hstate : c.state_ with
  | miniHeader =>
    rw [hstate] at h
    exact absurd rfl (h.2.2 two_ne_zero)
  | len16 =>
    rw [hstate] at h
    cases h.2
  | len64 =>
    rw [hstate] at h
    cases h.2
  | mask =>
    rw [hstate, Connection.Asks] at h
    split at h
    · cases h.2
    · obtain ⟨rfl, hsome⟩ := h
      exact ⟨by decide, hend rfl hsome⟩
  | payload =>
    rw [hstate] at h
    obtain ⟨rfl, hsome⟩ := h
    exact ⟨by decide, hend hstate hsome⟩

/-- **Every read takes from what is left.** -/
theorem work_reads {s s' : Connection × List UInt8} {e : Event} (h : Reads s e s') :
    work s' < work s := by
  obtain ⟨c, stream⟩ := s
  obtain ⟨c', rest⟩ := s'
  obtain ⟨hopen, hread⟩ := reads_iff.mp h
  have hwork : work (c, stream)
      = 2 * stream.length + (if c.state_ = .miniHeader then 0 else 1) + 1 :=
    if_neg (by rw [hopen]; exact Bool.false_ne_true)
  rw [hwork]
  obtain ⟨outputs, hcloses, -, -⟩ | ⟨-, c₁, bytes, hasks, rfl, -, rfl⟩ := hread
  · rw [work, if_pos (closes_data hcloses).1]
    exact Nat.succ_pos _
  · have hle : work ((c₁.on_read bytes).1, rest)
        ≤ 2 * rest.length + (if (c₁.on_read bytes).1.state_ = .miniHeader then 0 else 1) + 1 := by
      rw [work]
      split
      · exact Nat.zero_le _
      · exact le_rfl
    refine hle.trans_lt ?_
    rw [List.length_append]
    cases bytes with
    | nil =>
      obtain ⟨hstate, hstate'⟩ := state_of_asks hasks
      rw [if_neg hstate, if_pos hstate', List.length_nil]
      omega
    | cons byte bytes =>
      rw [List.length_cons]
      split <;> split <;> omega

theorem work_close {c : Connection} {rest : List UInt8} {msg : List UInt8} {status_code : ℕ} :
    work ((c.close msg status_code).1, rest) = work (c, rest) := by
  obtain ⟨-, called, hclose⟩ := close_data (c := c) msg status_code
  rw [hclose]
  rfl

/-- Whether an event is a read. -/
def Event.isRead : Event → Bool
  | read .. => true
  | close .. => false

/-- **Reading ends**, however the stream is cut and whatever it holds. -/
theorem reads_bounded {s s' : Connection × List UInt8} {es : List Event} (h : Run Step s es s') :
    es.countP Event.isRead + work s' ≤ work s := by
  refine h.history (P := fun es s' => es.countP Event.isRead + work s' ≤ work s) ?_
    (Nat.zero_add _).le
  intro es s₁ e s₂ hle hstep
  rw [List.countP_append, List.countP_singleton]
  cases hstep with
  | reads hreads =>
    have hless := work_reads hreads
    split <;> omega
  | @close c rest msg status_code hopen =>
    have hsame : work ((c.close msg status_code).1, rest) = work (c, rest) := work_close
    rw [hsame]
    exact hle

/-- **Every run can go on until nothing more is read.** -/
theorem exists_stuck (s : Connection × List UInt8) : ∃ es s', Run Careful s es s'
    ∧ ¬ ∃ e s'', Reads s' e s'' ∧ Unsplit s' e := by
  induction hwork : work s using Nat.strong_induction_on generalizing s with
  | _ n ih =>
    by_cases hread : ∃ e s', Reads s e s' ∧ Unsplit s e
    · obtain ⟨e, s', hread, hunsplit⟩ := hread
      obtain ⟨es, s'', hrun, hstuck⟩ := ih (work s') (hwork ▸ work_reads hread) s' rfl
      exact ⟨e :: es, s'', .cons ⟨.reads hread, hunsplit⟩ hrun, hstuck⟩
    · exact ⟨[], s, .nil s, hread⟩

/-! ## What is handed over -/

/-- The messages handed to the route. -/
def messages (outputs : List Output) : List Message :=
  outputs.filterMap fun
    | .message_handler message is_binary => some (is_binary, message)
    | _ => none

/-- The answers to what asks for a sign of life. -/
def pongs (outputs : List Output) : List (List UInt8) :=
  outputs.filterMap fun
    | .send_data bytes => some bytes
    | _ => none

theorem messages_append (outputs outputs' : List Output) :
    messages (outputs ++ outputs') = messages outputs ++ messages outputs' :=
  List.filterMap_append

theorem pongs_append (outputs outputs' : List Output) :
    pongs (outputs ++ outputs') = pongs outputs ++ pongs outputs' :=
  List.filterMap_append

/-- The frames of a message. -/
theorem answer_part {m : Message} {F : Frame} {binary : Bool}
    (h : F.opcode = kind binary ∨ F.opcode = 0 ∧ binary = m.1) :
    answer m F = part m F binary := by
  obtain h | ⟨h, rfl⟩ := h
  · rw [answer, h]
    cases binary <;> rfl
  · rw [answer, h]
    rfl

theorem answer_control {m : Message} {F : Frame} (h : F.IsControl) :
    (answer m F).1 = m ∧ messages (answer m F).2 = [] := by
  obtain ⟨n, hn⟩ := Nat.exists_eq_add_of_le' h
  rw [answer, hn]
  match n with
  | 0 | 1 | 2 | n + 3 => exact ⟨rfl, rfl⟩

theorem part_last (m : Message) {F : Frame} (binary : Bool) (hfin : F.fin = true) :
    part m F binary = ((binary, []), [.message_handler (m.2 ++ F.payload) binary]) := by
  rw [part, if_pos hfin]

theorem part_next (m : Message) {F : Frame} (binary : Bool) (hfin : F.fin = false) :
    part m F binary = ((binary, m.2 ++ F.payload), []) := by
  rw [part, if_neg (by rw [hfin]; exact Bool.false_ne_true)]

/-- **The messages that frames carry are handed over.** -/
theorem messages_answers {opened : Option Message} {Fs : List Frame} {ms : List Message}
    (h : Sends opened Fs ms) : ∀ {m : Message}, (∀ m' ∈ opened, m = m') →
      (opened = none → m.2 = []) → messages (answers m Fs) = ms := by
  induction h with
  | nil => exact fun _ _ => rfl
  | @control opened F Fs ms hF _ ih =>
    intro m hopened hnone
    obtain ⟨hbegun, hnothing⟩ := answer_control (m := m) hF
    rw [answers, messages_append, hnothing, hbegun, List.nil_append, ih hopened hnone]
  | @whole binary F Fs ms hF hfin _ ih =>
    intro m _ hnone
    rw [answers, answer_part (.inl hF), part_last m binary hfin, messages_append, hnone rfl,
      ih (fun _ hm => absurd hm (Option.not_mem_none _)) fun _ => rfl]
    rfl
  | @first binary F Fs ms hF hfin _ ih =>
    intro m _ hnone
    rw [answers, answer_part (.inl hF), part_next m binary hfin, hnone rfl, List.nil_append]
    exact ih (fun _ hm => Option.some.inj hm) fun heq => by cases heq
  | @next binary data F Fs ms hF hfin _ ih =>
    intro m hopened _
    obtain rfl := hopened _ rfl
    rw [answers, answer_part (.inr ⟨hF, rfl⟩), part_next _ binary hfin, List.nil_append]
    exact ih (fun _ hm => Option.some.inj hm) fun heq => by cases heq
  | @last binary data F Fs ms hF hfin _ ih =>
    intro m hopened _
    obtain rfl := hopened _ rfl
    rw [answers, answer_part (.inr ⟨hF, rfl⟩), part_last _ binary hfin, messages_append,
      ih (fun _ hm => absurd hm (Option.not_mem_none _)) fun _ => rfl]
    rfl

/-- What is answered to a sign that is asked for. -/
def pong (payload : List UInt8) : List UInt8 := build_header 10 payload.length ++ payload

/-- **Whoever asks for a sign of life is given one.** -/
theorem pongs_answers (m : Message) (Fs : List Frame) :
    pongs (answers m Fs) = (signs Fs).map pong := by
  induction Fs generalizing m with
  | nil => rfl
  | cons F Fs ih =>
    have hF : pongs (answer m F).2 = if F.opcode = 9 then [pong F.payload] else [] := by
      have hpart : ∀ binary, pongs (part m F binary).2 = [] := fun binary => by
        unfold part
        split <;> rfl
      unfold answer
      generalize F.opcode = opcode
      match opcode with
      | 0 => exact hpart m.1
      | 1 => exact hpart false
      | 2 => exact hpart true
      | 9 => rfl
      | 3 | 4 | 5 | 6 | 7 | 8 | n + 10 => rfl
    rw [answers, pongs_append, ih, hF, signs, signs, List.filter_cons]
    by_cases h9 : F.opcode = 9
    · rw [if_pos h9, if_pos (decide_eq_true h9), List.map_cons, List.map_cons]
      rfl
    · rw [if_neg h9, if_neg (by rwa [decide_eq_true_iff]), List.nil_append]

theorem between_init : Between (false, []) Connection.init := ⟨⟨rfl, rfl, rfl⟩, rfl, rfl⟩

/-- **The route is handed the messages of the client**, however the stream is
cut, as long as no header is: at any time the first of them, each once, whole
and in order. Reading ends, and all of them are handed over then, unless the
connection is closed before. -/
theorem messages_delivered {Fs : List Frame} {ms : List Message} (hsends : Sends none Fs ms)
    {es : List Event} {s : Connection × List UInt8}
    (h : Run Careful (Connection.init, Fs.flatMap Frame.encode) es s) :
    (messages (data es) <+: ms ∧ pongs (data es) <+: (signs Fs).map pong)
      ∧ es.countP Event.isRead ≤ 2 * (Fs.flatMap Frame.encode).length + 1
      ∧ (∃ es' s', Run Careful s es' s' ∧ ¬ ∃ e s'', Reads s' e s'' ∧ Unsplit s' e)
      ∧ ((¬ ∃ e s', Reads s e s' ∧ Unsplit s e) → s.1.destroyed = true
        ∨ messages (data es) = ms ∧ pongs (data es) = (signs Fs).map pong) := by
  obtain ⟨done, todo, rfl, hdata, hat⟩ := run_answers h (.between between_init)
  have hms := messages_answers hsends (m := (false, []))
    (fun _ hm => absurd hm (Option.not_mem_none _)) fun _ => rfl
  have hpongs := pongs_answers (false, []) (done ++ todo)
  have hbounded := reads_bounded (h.mono fun _ _ _ hcareful => hcareful.1)
  rw [answers_append, ← hdata] at hms hpongs
  rw [← hms, ← hpongs, messages_append, pongs_append]
  refine ⟨⟨List.prefix_append _ _, List.prefix_append _ _⟩, (Nat.le_add_right _ _).trans hbounded,
    exists_stuck s, fun hstuck => ?_⟩
  obtain hdestroyed | hat := hat
  · exact .inl hdestroyed
  cases todo with
  | nil => exact .inr ⟨(List.append_nil _).symm, (List.append_nil _).symm⟩
  | cons F todo =>
    cases hopen : s.1.destroyed with
    | true => exact .inl rfl
    | false => exact absurd (hat.exists_read hopen) hstuck

/-- A frame of a client, under a mask. -/
def maskedFrame (fin : Bool) (opcode : ℕ) (payload : List UInt8) (hopcode : opcode < 16)
    (hlt : payload.length < 2 ^ 64) : Frame where
  fin := fin
  opcode := opcode
  key := some [1, 2, 3, 4]
  payload := payload
  opcode_lt := hopcode
  key_length := fun _ h => Option.some.inj h ▸ rfl
  payload_lt := hlt

/-- The text "hi!" in two parts, and a ping between them. -/
def hello : List Frame :=
  [maskedFrame false 1 [104] (by decide) (by decide),
    maskedFrame true 9 [7] (by decide) (by decide),
    maskedFrame true 0 [105, 33] (by decide) (by decide)]

theorem hello_sends : Sends none hello [(false, [104, 105, 33])] :=
  @Sends.first false _ _ _ rfl rfl (.control (show 8 ≤ 9 by decide) (.last rfl rfl .nil))

theorem hello_encode : hello.flatMap Frame.encode
    = [1, 129, 1, 2, 3, 4, 105, 137, 129, 1, 2, 3, 4, 6, 128, 130, 1, 2, 3, 4, 104, 35] := by
  decide +kernel

/-- A run is given read by read, where no header is split. -/
theorem exists_run_read {P : Connection × List UInt8 → Prop} {s s' : Connection × List UInt8}
    {bytes : List UInt8} {outputs : List Output} (h : Reads s (.read bytes outputs) s')
    (hsplit : bytes.length ≠ 1 ∨ s.1.state_ ≠ .miniHeader)
    (hrun : ∃ es s'', Run Careful s' es s'' ∧ P s'') :
    ∃ es s'', Run Careful s es s'' ∧ P s'' := by
  obtain ⟨es, s'', hes, hP⟩ := hrun
  refine ⟨_, s'', .cons ⟨.reads h, fun bytes' outputs' heq hstate => ?_⟩ hes, hP⟩
  obtain ⟨rfl, -⟩ := Event.read.inj heq
  exact hsplit.resolve_right (not_not_intro hstate)

/-- `hello` comes in ten parts; its last payload is cut. -/
theorem exists_hello : ∃ es s, Run Careful (Connection.init, hello.flatMap Frame.encode) es s
    ∧ s.2 = [] ∧ Between (false, []) s.1 ∧ s.1.destroyed = false
    ∧ s.1.has_sent_close_ = false := by
  rw [hello_encode]
  refine exists_run_read (@Reads.some _ _ _ [1, 129] _ rfl rfl ⟨le_rfl, by simp⟩)
    (.inl (by simp)) ?_
  refine exists_run_read (@Reads.exactly _ _ _ [1, 2, 3, 4] _ rfl rfl rfl) (.inl (by simp)) ?_
  refine exists_run_read (@Reads.some _ _ _ [105] _ rfl rfl ⟨by decide, by simp⟩)
    (.inr (by decide)) ?_
  refine exists_run_read (@Reads.some _ _ _ [137, 129] _ rfl rfl ⟨le_rfl, by simp⟩)
    (.inl (by simp)) ?_
  refine exists_run_read (@Reads.exactly _ _ _ [1, 2, 3, 4] _ rfl rfl rfl) (.inl (by simp)) ?_
  refine exists_run_read (@Reads.some _ _ _ [6] _ rfl rfl ⟨by decide, by simp⟩)
    (.inr (by decide)) ?_
  refine exists_run_read (@Reads.some _ _ _ [128, 130] _ rfl rfl ⟨le_rfl, by simp⟩)
    (.inl (by simp)) ?_
  refine exists_run_read (@Reads.exactly _ _ _ [1, 2, 3, 4] _ rfl rfl rfl) (.inl (by simp)) ?_
  refine exists_run_read (@Reads.some _ _ _ [104] _ rfl rfl ⟨by decide, by simp⟩)
    (.inr (by decide)) ?_
  refine exists_run_read (@Reads.some _ _ _ [35] [] rfl rfl ⟨by decide, by simp⟩)
    (.inr (by decide)) ?_
  exact ⟨[], _, .nil _, rfl, ⟨⟨rfl, rfl, rfl⟩, rfl, rfl⟩, rfl, rfl⟩

/-- Between two frames, nothing can be read of nothing. -/
theorem Between.not_reads {m : Message} {c : Connection} (h : Between m c)
    (hclose : c.has_sent_close_ = false) : ¬ ∃ e s', Reads (c, []) e s' ∧ Unsplit (c, []) e := by
  have hread : c.do_read = .async_read_some { c with mini_header_ := 0 } 2 := by
    have hnot : ¬ (c.has_sent_close_ && c.has_recv_close_) = true := by
      rw [hclose, Bool.false_and]
      exact Bool.false_ne_true
    rw [Connection.do_read, if_neg hnot]
    exact congrArg c.do_read_in h.state
  rintro ⟨e, ⟨c', rest'⟩, hreads, -⟩
  obtain ⟨-, ⟨outputs, hcloses, -, -⟩ | ⟨-, c₁, bytes, hasks, hstream, -, -⟩⟩ :=
    reads_iff.mp hreads
  · rw [hread] at hcloses
    cases hcloses
  · rw [h.state] at hasks
    exact hasks.2.2 two_ne_zero (List.append_eq_nil_iff.mp hstream.symm).1

/-- The text is handed over in one piece, and the ping is answered. -/
theorem hello_delivered : ∃ es s,
    Run Careful (Connection.init, hello.flatMap Frame.encode) es s ∧ s.1.destroyed = false
      ∧ messages (data es) = [(false, [104, 105, 33])] ∧ pongs (data es) = [[138, 1, 7]] := by
  obtain ⟨es, ⟨c, rest⟩, hrun, hrest, hbetween, hopen, hclose⟩ := exists_hello
  obtain rfl : rest = [] := hrest
  obtain ⟨-, -, -, hall⟩ := messages_delivered hello_sends hrun
  refine ⟨es, (c, []), hrun, hopen, (hall (hbetween.not_reads hclose)).resolve_left ?_⟩
  rw [hopen]
  exact Bool.false_ne_true

/-! ## A header that is split -/

/-- The first byte of a message in one frame. -/
theorem encode_first {F : Frame} {binary : Bool} (hopcode : F.opcode = kind binary)
    (hfin : F.fin = true) : ∃ stream, F.encode = UInt8.ofNat (128 + kind binary) :: stream := by
  have hfirst : F.header / 256 ^ 1 = 128 + kind binary := by
    have hshort := F.shortLength_lt
    have hkey : F.key.isSome.toNat ≤ 1 := F.key.isSome.toNat_le
    rw [Frame.header, hfin, hopcode, Bool.toNat_true]
    omega
  rw [Frame.encode, bigEndian, hfirst]
  exact ⟨_, rfl⟩

/-- The connection that has taken the first byte for a header. -/
def splitConnection (binary : Bool) : Connection :=
  { Connection.init with mini_header_ := (128 + kind binary) * 256, state_ := .mask }

theorem on_read_first (binary : Bool) :
    { Connection.init with mini_header_ := 0 }.on_read [UInt8.ofNat (128 + kind binary)]
      = (splitConnection binary, []) := by
  cases binary <;> simp [Connection.on_read, splitConnection, kind, Connection.init]

theorem on_read_empty (binary : Bool) :
    { splitConnection binary with state_ := .payload }.on_read []
      = ({ splitConnection binary with is_binary_ := binary, state_ := .miniHeader },
        [.message_handler [] binary]) := by
  cases binary <;> simp [Connection.on_read, Connection.handle_fragment, Connection.append,
    Connection.is_FIN, Connection.opcode, splitConnection, kind, Connection.init]

/-- **A header of which one byte is read is taken for a whole one**: when the
first byte of a message in one frame comes alone, the route is handed an empty
message that was not sent. -/
theorem split_header {F : Frame} {binary : Bool} (hopcode : F.opcode = kind binary)
    (hfin : F.fin = true) (rest : List UInt8) : ∃ byte stream c,
      F.encode ++ rest = byte :: stream ∧ Run Step (Connection.init, F.encode ++ rest)
        [.read [byte] [], .read [] [.message_handler [] binary]] (c, stream) := by
  obtain ⟨stream, hencode⟩ := encode_first hopcode hfin
  rw [hencode, List.cons_append]
  have hheader := @Reads.some Connection.init _ 2 [UInt8.ofNat (128 + kind binary)]
    (stream ++ rest) rfl rfl ⟨one_le_two, fun _ => List.cons_ne_nil _ _⟩
  have hpayload := @Reads.some (splitConnection binary) _ 0 [] (stream ++ rest) rfl rfl
    ⟨le_rfl, fun h => absurd rfl h⟩
  rw [on_read_first] at hheader
  rw [on_read_empty] at hpayload
  exact ⟨_, _, _, rfl, .cons (.reads hheader) (.single (.reads hpayload))⟩

end Crow
