import NeuralBuilder.TrainingMessage

/-!
# The web socket

The connections of the server share one pointer, `g_ws_conn`: opening a
connection overwrites it, closing the connection it points to clears it, and
the training threads read it, once when they call `train`, which sends the
progress on the connection it is given, and again for the final message.

The handlers are atomic here, and so is a statement of a thread that reads
the pointer or calls a method of a connection; anything may happen between
two of them. What the threads train is left open: the numbers they send are
given with the step. A connection object is deleted after its `onclose`, and
`none` is the null pointer.

`careful_run_delivers` says under which condition on the events every message
of a training reaches the client that asked for it, and
`careful_iff_threads_deliver` that nothing weaker will do.
-/

open Runs

namespace RouteHandlers

/-! ## The handlers and the threads -/

/-- The texts that are sent. -/
inductive Text (α : Type) where
  | welcome
  | malformed
  | progress (progress : Progress α)
  | finalAccuracy (final_accuracy : α)

/-- **A call of a method of a connection.** -/
inductive Call (α Conn : Type) where
  | send_text (conn : Option Conn) (text : Text α)
  | close (conn : Option Conn)

/-- **Where a training thread stands**: before its check of the pointer,
before its call of `train`, in `train` with some epochs done, before its
second check, before the final message, and before the call of `close`. -/
inductive Phase (α Conn : Type) where
  | starting
  | calling
  | training (ws_conn : Option Conn) (epoch : ℕ)
  | trained (final_accuracy : α)
  | sending (final_accuracy : α)
  | closing
  | ended

/-- **A training thread.** It does not keep the connection its request came
in on, which is recorded here to say what it should do. -/
structure TrainingThread (α Conn : Type) where
  /-- The connection its request came in on. -/
  conn : Conn
  /-- What it trains on. -/
  request : TrainingRequest α
  /-- Where it stands. -/
  phase : Phase α Conn

/-- The pointer, the connections that were opened, those whose `onclose` has
run, and the threads that were started. -/
structure Hub (α Conn : Type) where
  /-- The pointer that every thread sends through. -/
  g_ws_conn : Option Conn
  /-- Every connection there has been. -/
  opened : List Conn
  /-- Those whose `onclose` has run. -/
  closed : List Conn
  /-- The threads, in the order of their requests. -/
  threads : List (TrainingThread α Conn)

variable {α Conn : Type}

/-- The server before its first connection. -/
def Hub.init : Hub α Conn := ⟨none, [], [], []⟩

/-- **The next statement of a thread**: where it stands then, and what it
calls. The network is never null. -/
def TrainingThread.next (g_ws_conn : Option Conn) (cost accuracy : α)
    (thread : TrainingThread α Conn) : Option (Phase α Conn × List (Call α Conn)) :=
  match thread.phase with
  | .starting => some (if g_ws_conn.isNone then .ended else .calling, [])
  | .calling => some (.training g_ws_conn 0, [])
  | .training ws_conn epoch =>
    if epoch < thread.request.epochs.toNat then
      some (.training ws_conn (epoch + 1), ws_conn.toList.map fun conn =>
        .send_text (some conn) (.progress ⟨epoch + 1, cost, accuracy⟩))
    else some (.trained accuracy, [])
  | .trained final_accuracy =>
    some (if g_ws_conn.isNone then .ended else .sending final_accuracy, [])
  | .sending final_accuracy =>
    some (.closing, [.send_text g_ws_conn (.finalAccuracy final_accuracy)])
  | .closing => some (.ended, [.close g_ws_conn])
  | .ended => none

section Next

variable (thread : TrainingThread α Conn) {g_ws_conn ws_conn : Option Conn} {epoch : ℕ}
  {cost accuracy : α}

/-- An epoch, and its text. -/
theorem TrainingThread.next_epoch (hphase : thread.phase = .training ws_conn epoch)
    (h : epoch < thread.request.epochs.toNat) :
    thread.next g_ws_conn cost accuracy = some (.training ws_conn (epoch + 1),
      ws_conn.toList.map fun conn =>
        .send_text (some conn) (.progress ⟨epoch + 1, cost, accuracy⟩)) := by
  rw [TrainingThread.next, hphase]
  exact if_pos h

/-- The end of the epochs. -/
theorem TrainingThread.next_last (hphase : thread.phase = .training ws_conn epoch)
    (h : ¬ epoch < thread.request.epochs.toNat) :
    thread.next g_ws_conn cost accuracy = some (.trained accuracy, []) := by
  rw [TrainingThread.next, hphase]
  exact if_neg h

/-- The final message, on what the pointer holds now. -/
theorem TrainingThread.next_sending {final_accuracy : α}
    (hphase : thread.phase = .sending final_accuracy) :
    thread.next g_ws_conn cost accuracy
      = some (.closing, [.send_text g_ws_conn (.finalAccuracy final_accuracy)]) := by
  rw [TrainingThread.next, hphase]

theorem TrainingThread.next_closing (hphase : thread.phase = .closing) :
    thread.next g_ws_conn cost accuracy = some (.ended, [.close g_ws_conn]) := by
  rw [TrainingThread.next, hphase]

end Next

/-! ## What `train` sends -/

/-- The next statements of a thread, with the pointer as it is. -/
def TrainingThread.runs (g_ws_conn : Option Conn) (thread : TrainingThread α Conn) :
    List (α × α) → Option (Phase α Conn × List (Call α Conn))
  | [] => some (thread.phase, [])
  | (cost, accuracy) :: numbers => do
    let (phase, calls) ← thread.next g_ws_conn cost accuracy
    let (last, calls') ← TrainingThread.runs g_ws_conn { thread with phase } numbers
    return (last, calls ++ calls')

/-- One statement more. -/
theorem TrainingThread.runs_concat {g_ws_conn : Option Conn} {thread : TrainingThread α Conn}
    {numbers : List (α × α)} {phase phase' : Phase α Conn} {calls calls' : List (Call α Conn)}
    (h : thread.runs g_ws_conn numbers = some (phase, calls)) {cost accuracy : α}
    (hnext : TrainingThread.next g_ws_conn cost accuracy { thread with phase }
      = some (phase', calls')) :
    thread.runs g_ws_conn (numbers ++ [(cost, accuracy)]) = some (phase', calls ++ calls') := by
  induction numbers generalizing thread calls with
  | nil =>
    obtain ⟨rfl, rfl⟩ := Prod.mk.inj (Option.some.inj h)
    simp [TrainingThread.runs, hnext]
  | cons number numbers ih =>
    obtain ⟨c, a⟩ := number
    simp only [TrainingThread.runs, Option.bind_eq_bind, Option.bind_eq_some_iff] at h
    obtain ⟨⟨phase₁, calls₁⟩, h₁, ⟨last, calls₂⟩, h₂, hreturn⟩ := h
    obtain ⟨rfl, rfl⟩ := Prod.mk.inj (Option.some.inj hreturn)
    have hrest := ih h₂ hnext
    simp [TrainingThread.runs, h₁, hrest]

/-- **What a thread sends in `train` is what `train` sends**, where it returns:
a text after every epoch on the connection it was given. -/
theorem TrainingThread.runs_train [Double α] {nn nn' : NeuralNetwork α} {fuel : ℕ}
    {rand rand' : ℕ → α} {thread : TrainingThread α Conn} {ws_conn : Option Conn} {accuracy : α}
    {sent : List (Conn × Progress α)}
    (h : nn.train fuel rand thread.request.features thread.request.target thread.request.epochs
      thread.request.batchSize ws_conn = .ok (accuracy, nn', rand', sent))
    (hphase : thread.phase = .calling) :
    ∃ numbers, thread.runs ws_conn numbers = some (.trained accuracy,
      sent.map fun message => .send_text (some message.1) (.progress message.2)) := by
  simp only [NeuralNetwork.train, Checked.bind_eq_ok_iff] at h
  obtain ⟨⟨inputNormalized, nn₁⟩, -, batches, -, ⟨s, sent'⟩, hepochs, hreturn⟩ := h
  obtain ⟨rfl, -, -, rfl⟩ :
      s.accuracyRate = accuracy ∧ s.nn = nn' ∧ s.rand = rand' ∧ sent' = sent := by
    simpa using hreturn
  -- after `epoch` epochs the texts so far are out
  have hloop : ∃ numbers, thread.runs ws_conn numbers
      = some (.training ws_conn thread.request.epochs.toNat,
        sent'.map fun message => .send_text (some message.1) (.progress message.2)) := by
    refine Checked.loop_keeps (P := fun epoch t => ∃ numbers, thread.runs ws_conn numbers
      = some (.training ws_conn epoch,
        t.2.map fun message => .send_text (some message.1) (.progress message.2))) ?_ ?_ hepochs
    · rintro epoch t t' hepoch ⟨numbers, hruns⟩ hturn
      rw [Checked.bind_eq_ok_iff] at hturn
      obtain ⟨u, -, hreturn⟩ := hturn
      obtain rfl := Except.ok.inj hreturn
      refine ⟨numbers ++ [(u.costValue, u.accuracyRate)], ?_⟩
      rw [List.map_append]
      refine TrainingThread.runs_concat hruns ?_
      rw [TrainingThread.next_epoch { thread with phase := .training ws_conn epoch } rfl hepoch,
        List.map_map]
      rfl
    · refine ⟨[(s.costValue, s.accuracyRate)], ?_⟩
      simp [TrainingThread.runs, TrainingThread.next, hphase]
  obtain ⟨numbers, hruns⟩ := hloop
  refine ⟨numbers ++ [(s.costValue, s.accuracyRate)], ?_⟩
  rw [← List.append_nil (sent'.map _)]
  exact TrainingThread.runs_concat hruns (TrainingThread.next_last { thread with
    phase := .training ws_conn thread.request.epochs.toNat } rfl (lt_irrefl _))

namespace Hub

def onopen (hub : Hub α Conn) (conn : Conn) : Hub α Conn × List (Call α Conn) :=
  ({ hub with g_ws_conn := some conn, opened := conn :: hub.opened },
    [.send_text (some conn) .welcome])

/-- `onmessage`, with what was parsed from the message if it is a text that
can be parsed. -/
def onmessage (hub : Hub α Conn) (conn : Conn) (parsed_data : Option (RValue α)) :
    Hub α Conn × List (Call α Conn) :=
  match parsed_data with
  | none => (hub, [])
  | some parsed_data =>
    match readTraining parsed_data with
    | .ok request => ({ hub with threads := hub.threads ++ [⟨conn, request, .starting⟩] }, [])
    | .error _ => (hub, [.send_text (some conn) .malformed])

variable [DecidableEq Conn]

def onclose (hub : Hub α Conn) (conn : Conn) : Hub α Conn × List (Call α Conn) :=
  ({ hub with
    g_ws_conn := if hub.g_ws_conn = some conn then none else hub.g_ws_conn
    closed := conn :: hub.closed }, [])

/-- Between the two handlers of a connection. -/
def IsOpen (hub : Hub α Conn) (conn : Conn) : Prop := conn ∈ hub.opened ∧ conn ∉ hub.closed

instance (hub : Hub α Conn) (conn : Conn) : Decidable (hub.IsOpen conn) :=
  inferInstanceAs (Decidable (_ ∧ _))

/-- Thread `i` runs its next statement. -/
def runThread (hub : Hub α Conn) (i : ℕ) (cost accuracy : α) :
    Option (Hub α Conn × List (Call α Conn)) := do
  let thread ← hub.threads[i]?
  let (phase, calls) ← thread.next hub.g_ws_conn cost accuracy
  return ({ hub with threads := hub.threads.set i { thread with phase } }, calls)

end Hub

/-- What can happen. -/
inductive Event (α Conn : Type) where
  | onopen (conn : Conn)
  | onmessage (conn : Conn) (parsed_data : Option (RValue α))
  | onclose (conn : Conn)
  | thread (i : ℕ) (cost accuracy : α)

variable [DecidableEq Conn]

/-- **A step of the server.** The framework calls `onopen` once for a
connection and `onclose` once after it, and `onmessage` in between only. -/
def Hub.step (hub : Hub α Conn) (event : Event α Conn) :
    Option (Hub α Conn × List (Call α Conn)) :=
  match event with
  | .onopen conn => if conn ∈ hub.opened then none else some (hub.onopen conn)
  | .onmessage conn parsed_data =>
    if hub.IsOpen conn then some (hub.onmessage conn parsed_data) else none
  | .onclose conn => if hub.IsOpen conn then some (hub.onclose conn) else none
  | .thread i cost accuracy => hub.runThread i cost accuracy

/-! ## What should happen -/

/-- The connection an event is about: for a thread the one its request came
in on. -/
def Hub.asker (hub : Hub α Conn) (event : Event α Conn) : Option Conn :=
  match event with
  | .onopen conn => some conn
  | .onmessage conn _ => some conn
  | .onclose conn => some conn
  | .thread i _ _ => hub.threads[i]?.map (·.conn)

/-- **A call as it should be**: a text goes to the connection it is about,
and neither a text nor a `close` to a connection whose `onclose` has run. -/
def Call.Delivered (hub : Hub α Conn) (asker : Option Conn) (call : Call α Conn) : Prop :=
  match call with
  | .send_text conn _ => ∃ c, conn = some c ∧ asker = some c ∧ c ∉ hub.closed
  | .close conn => ∃ c, conn = some c ∧ c ∉ hub.closed

/-- **Every call of every step from `hub` is as it should be.** -/
def Hub.Delivers (hub : Hub α Conn) : Prop :=
  ∀ event hub' calls, hub.step event = some (hub', calls) →
    ∀ call ∈ calls, call.Delivered hub (hub.asker event)

/-- The message starts a thread. -/
def Accepted (parsed_data : Option (RValue α)) (request : TrainingRequest α) : Prop :=
  ∃ message, parsed_data = some message ∧ readTraining message = .ok request

/-- The final message of the thread is out. -/
def TrainingThread.HasSent (thread : TrainingThread α Conn) : Prop :=
  thread.phase = .closing ∨ thread.phase = .ended

/-- The next call of the thread is one on `conn`. -/
def TrainingThread.Needs (thread : TrainingThread α Conn) (g_ws_conn : Option Conn)
    (conn : Conn) : Prop :=
  match thread.phase with
  | .training ws_conn epoch => ws_conn = some conn ∧ epoch < thread.request.epochs.toNat
  | .sending _ => g_ws_conn = some conn
  | .closing => g_ws_conn = some conn
  | _ => False

/-- **An event that keeps the messages on their way**: no connection is
opened before the final message of every training is out, a training is only
asked for on the connection that was opened last, if that is still open, and
no connection is closed that a thread is about to use. -/
def Hub.Careful (hub : Hub α Conn) (event : Event α Conn) : Prop :=
  match event with
  | .onopen _ => ∀ thread ∈ hub.threads, thread.HasSent
  | .onmessage conn parsed_data =>
    ∀ request, Accepted parsed_data request → ∀ c ∈ hub.g_ws_conn, c = conn
  | .onclose conn => ∀ thread ∈ hub.threads, ¬ thread.Needs hub.g_ws_conn conn
  | .thread _ _ _ => True

/-- A step, whatever it calls. -/
def Moves (hub : Hub α Conn) (event : Event α Conn) (hub' : Hub α Conn) : Prop :=
  ∃ calls, hub.step event = some (hub', calls)

/-- A careful step. -/
def CarefulStep (hub : Hub α Conn) (event : Event α Conn) (hub' : Hub α Conn) : Prop :=
  hub.Careful event ∧ Moves hub event hub'

/-- A step of a thread. -/
def ThreadStep (hub : Hub α Conn) (event : Event α Conn) (hub' : Hub α Conn) : Prop :=
  (∃ i cost accuracy, event = .thread i cost accuracy) ∧ Moves hub event hub'

/-! ## What a step does -/

section Steps

variable {hub hub' : Hub α Conn} {conn : Conn} {calls : List (Call α Conn)}

theorem Hub.step_onopen (h : hub.step (.onopen conn) = some (hub', calls)) :
    conn ∉ hub.opened ∧ hub' = { hub with g_ws_conn := some conn, opened := conn :: hub.opened }
      ∧ calls = [.send_text (some conn) .welcome] := by
  simp only [Hub.step] at h
  split_ifs at h with hopened
  obtain ⟨rfl, rfl⟩ := Prod.mk.inj (Option.some.inj h)
  exact ⟨hopened, rfl, rfl⟩

/-- A message starts a thread, or leaves the server as it was. -/
theorem Hub.step_onmessage {parsed_data : Option (RValue α)}
    (h : hub.step (.onmessage conn parsed_data) = some (hub', calls)) :
    hub.IsOpen conn
      ∧ ((∃ request, Accepted parsed_data request
          ∧ hub' = { hub with threads := hub.threads ++ [⟨conn, request, .starting⟩] }
          ∧ calls = [])
        ∨ (∀ request, ¬ Accepted parsed_data request) ∧ hub' = hub
          ∧ ∀ call ∈ calls, call = .send_text (some conn) .malformed) := by
  simp only [Hub.step] at h
  split_ifs at h with hopen
  refine ⟨hopen, ?_⟩
  unfold Hub.onmessage at h
  split at h
  · obtain ⟨rfl, rfl⟩ := Prod.mk.inj (Option.some.inj h)
    refine Or.inr ⟨?_, rfl, fun call hcall => absurd hcall List.not_mem_nil⟩
    rintro request ⟨message, heq, -⟩
    cases heq
  · rename_i message
    split at h
    · rename_i request hread
      obtain ⟨rfl, rfl⟩ := Prod.mk.inj (Option.some.inj h)
      exact Or.inl ⟨request, ⟨message, rfl, hread⟩, rfl, rfl⟩
    · rename_i e hread
      obtain ⟨rfl, rfl⟩ := Prod.mk.inj (Option.some.inj h)
      refine Or.inr ⟨?_, rfl, fun call hcall => List.mem_singleton.mp hcall⟩
      rintro request ⟨message', heq, hread'⟩
      obtain rfl := Option.some.inj heq
      exact absurd (hread.symm.trans hread') (by simp)

theorem Hub.step_onclose (h : hub.step (.onclose conn) = some (hub', calls)) :
    hub.IsOpen conn ∧ calls = []
      ∧ hub' = { hub with
        g_ws_conn := if hub.g_ws_conn = some conn then none else hub.g_ws_conn
        closed := conn :: hub.closed } := by
  simp only [Hub.step] at h
  split_ifs at h with hopen
  obtain ⟨rfl, rfl⟩ := Prod.mk.inj (Option.some.inj h)
  exact ⟨hopen, rfl, rfl⟩

/-- A step of thread `i`. -/
theorem Hub.step_thread {i : ℕ} {cost accuracy : α}
    (h : hub.step (.thread i cost accuracy) = some (hub', calls)) :
    ∃ thread phase, hub.threads[i]? = some thread
      ∧ thread.next hub.g_ws_conn cost accuracy = some (phase, calls)
      ∧ hub' = { hub with threads := hub.threads.set i { thread with phase } } := by
  simp only [Hub.step, Hub.runThread, Option.bind_eq_bind, Option.bind_eq_some_iff] at h
  obtain ⟨thread, hthread, ⟨phase, calls'⟩, hnext, hreturn⟩ := h
  obtain ⟨rfl, rfl⟩ := Prod.mk.inj (Option.some.inj hreturn)
  exact ⟨thread, phase, hthread, hnext, rfl⟩

end Steps

/-! ## The invariant of careful runs -/

/-- **A thread whose messages are on their way**: as long as it has to read
the pointer, the pointer is null or its own connection, and the connection
`train` was given is not closed before the last epoch. -/
def TrainingThread.Routed (hub : Hub α Conn) (thread : TrainingThread α Conn) : Prop :=
  thread.conn ∈ hub.opened ∧
  match thread.phase with
  | .training ws_conn epoch => (∀ c ∈ hub.g_ws_conn, c = thread.conn)
      ∧ ∀ c ∈ ws_conn, c = thread.conn ∧ (epoch < thread.request.epochs.toNat → c ∉ hub.closed)
  | .sending _ => hub.g_ws_conn = some thread.conn
  | .closing => ∃ c, hub.g_ws_conn = some c
  | .ended => True
  | _ => ∀ c ∈ hub.g_ws_conn, c = thread.conn

/-- **The invariant**: only connections that were opened are closed, the
pointer is null or an open connection, and the messages of every thread are
on their way. -/
structure Hub.Routed (hub : Hub α Conn) : Prop where
  /-- Only a connection that was opened is closed. -/
  opened : ∀ c ∈ hub.closed, c ∈ hub.opened
  /-- The pointer is null or an open connection. -/
  current : ∀ c ∈ hub.g_ws_conn, hub.IsOpen c
  /-- The messages of every thread are on their way. -/
  threads : ∀ thread ∈ hub.threads, thread.Routed hub

omit [DecidableEq Conn] in
theorem Hub.routed_init : (Hub.init : Hub α Conn).Routed where
  opened c hc := absurd hc List.not_mem_nil
  current c hc := by cases hc
  threads thread hthread := absurd hthread List.not_mem_nil

omit [DecidableEq Conn] in
/-- **What a statement of a routed thread does**: it stays routed, and calls
what it should. -/
theorem TrainingThread.Routed.next {hub : Hub α Conn} (hhub : hub.Routed)
    {thread : TrainingThread α Conn} (h : thread.Routed hub) {cost accuracy : α}
    {phase : Phase α Conn} {calls : List (Call α Conn)}
    (hnext : thread.next hub.g_ws_conn cost accuracy = some (phase, calls)) :
    TrainingThread.Routed hub { thread with phase }
      ∧ ∀ call ∈ calls, call.Delivered hub (some thread.conn) := by
  obtain ⟨conn, request, phase₀⟩ := thread
  obtain ⟨hopened, hphase⟩ := h
  cases phase₀ with
  | starting =>
    obtain ⟨rfl, rfl⟩ := Prod.mk.inj (Option.some.inj hnext)
    refine ⟨⟨hopened, ?_⟩, fun call hcall => absurd hcall List.not_mem_nil⟩
    dsimp only
    split_ifs
    · trivial
    · exact hphase
  | calling =>
    obtain ⟨rfl, rfl⟩ := Prod.mk.inj (Option.some.inj hnext)
    refine ⟨⟨hopened, hphase, fun c hc => ⟨hphase c hc, fun _ => (hhub.current c hc).2⟩⟩,
      fun call hcall => absurd hcall List.not_mem_nil⟩
  | training ws_conn epoch =>
    obtain ⟨hg, hws⟩ := hphase
    by_cases hepoch : epoch < request.epochs.toNat
    · rw [TrainingThread.next_epoch ⟨conn, request, .training ws_conn epoch⟩ rfl hepoch] at hnext
      obtain ⟨rfl, rfl⟩ := Prod.mk.inj (Option.some.inj hnext)
      refine ⟨⟨hopened, hg, fun c hc => ⟨(hws c hc).1, fun _ => (hws c hc).2 hepoch⟩⟩, ?_⟩
      intro call hcall
      obtain ⟨c, hc, rfl⟩ := List.mem_map.mp hcall
      obtain ⟨rfl, hclosed⟩ := hws c (Option.mem_toList.mp hc)
      exact ⟨c, rfl, rfl, hclosed hepoch⟩
    · rw [TrainingThread.next_last ⟨conn, request, .training ws_conn epoch⟩ rfl hepoch] at hnext
      obtain ⟨rfl, rfl⟩ := Prod.mk.inj (Option.some.inj hnext)
      exact ⟨⟨hopened, hg⟩, fun call hcall => absurd hcall List.not_mem_nil⟩
  | trained final_accuracy =>
    obtain ⟨rfl, rfl⟩ := Prod.mk.inj (Option.some.inj hnext)
    refine ⟨⟨hopened, ?_⟩, fun call hcall => absurd hcall List.not_mem_nil⟩
    dsimp only
    cases hg : hub.g_ws_conn with
    | none => trivial
    | some c => exact congrArg some (hphase c hg)
  | sending final_accuracy =>
    obtain ⟨rfl, rfl⟩ := Prod.mk.inj (Option.some.inj hnext)
    refine ⟨⟨hopened, conn, hphase⟩, fun call hcall => ?_⟩
    obtain rfl := List.mem_singleton.mp hcall
    exact ⟨conn, hphase, rfl, (hhub.current conn hphase).2⟩
  | closing =>
    obtain ⟨rfl, rfl⟩ := Prod.mk.inj (Option.some.inj hnext)
    obtain ⟨c, hc⟩ := hphase
    refine ⟨⟨hopened, trivial⟩, fun call hcall => ?_⟩
    obtain rfl := List.mem_singleton.mp hcall
    exact ⟨c, hc, (hhub.current c hc).2⟩
  | ended => cases hnext

/-- Where the invariant holds, every call is as it should be. -/
theorem Hub.Routed.delivers {hub : Hub α Conn} (h : hub.Routed) : hub.Delivers := by
  intro event hub' calls hstep call hcall
  cases event with
  | onopen conn =>
    obtain ⟨hopened, -, rfl⟩ := Hub.step_onopen hstep
    obtain rfl := List.mem_singleton.mp hcall
    exact ⟨conn, rfl, rfl, fun hclosed => hopened (h.opened conn hclosed)⟩
  | onmessage conn parsed_data =>
    obtain ⟨hopen, ⟨_, -, -, rfl⟩ | ⟨-, -, hcalls⟩⟩ := Hub.step_onmessage hstep
    · exact absurd hcall List.not_mem_nil
    · obtain rfl := hcalls call hcall
      exact ⟨conn, rfl, rfl, hopen.2⟩
  | onclose conn =>
    obtain ⟨-, rfl, -⟩ := Hub.step_onclose hstep
    exact absurd hcall List.not_mem_nil
  | thread i cost accuracy =>
    obtain ⟨thread, phase, hthread, hnext, -⟩ := Hub.step_thread hstep
    have hasker : hub.asker (.thread i cost accuracy) = some thread.conn := by
      rw [Hub.asker, hthread]
      rfl
    rw [hasker]
    exact ((h.threads thread (List.mem_of_getElem? hthread)).next h hnext).2 call hcall

/-- **A careful step keeps the invariant.** -/
theorem Hub.Routed.step {hub hub' : Hub α Conn} (h : hub.Routed) {event : Event α Conn}
    (hcareful : hub.Careful event) {calls : List (Call α Conn)}
    (hstep : hub.step event = some (hub', calls)) : hub'.Routed := by
  cases event with
  | onopen conn =>
    obtain ⟨hopened, rfl, -⟩ := Hub.step_onopen hstep
    refine ⟨fun c hc => List.mem_cons_of_mem _ (h.opened c hc), fun c hc => ?_,
      fun thread hthread => ?_⟩
    · obtain rfl := Option.some.inj hc
      exact ⟨List.mem_cons_self, fun hclosed => hopened (h.opened _ hclosed)⟩
    · -- a thread whose final message is out does not mind which connection there is
      obtain ⟨hconn, -⟩ := h.threads thread hthread
      refine ⟨List.mem_cons_of_mem _ hconn, ?_⟩
      rcases hcareful thread hthread with hphase | hphase
      · rw [hphase]
        exact ⟨conn, rfl⟩
      · rw [hphase]
        trivial
  | onmessage conn parsed_data =>
    obtain ⟨hopen, ⟨request, haccepted, rfl, -⟩ | ⟨-, rfl, -⟩⟩ := Hub.step_onmessage hstep
    · refine ⟨h.opened, h.current, fun thread hthread => ?_⟩
      rcases List.mem_append.mp hthread with hthread | hthread
      · exact h.threads thread hthread
      · obtain rfl := List.mem_singleton.mp hthread
        exact ⟨hopen.1, hcareful request haccepted⟩
    · exact h
  | onclose conn =>
    obtain ⟨hopen, -, rfl⟩ := Hub.step_onclose hstep
    have hcleared : ∀ c, (if hub.g_ws_conn = some conn then none else hub.g_ws_conn) = some c
        ↔ hub.g_ws_conn = some c ∧ c ≠ conn := by
      intro c
      split_ifs with hg
      · rw [hg]
        simp [eq_comm]
      · exact ⟨fun hc => ⟨hc, fun heq => hg (heq ▸ hc)⟩, fun hc => hc.1⟩
    refine ⟨fun c hc => ?_, fun c hc => ?_, fun thread hthread => ?_⟩
    · -- only what is closed has been opened
      rcases List.mem_cons.mp hc with rfl | hc
      · exact hopen.1
      · exact h.opened c hc
    · -- the pointer is not left on the closed connection
      obtain ⟨hc, hne⟩ := (hcleared c).mp hc
      exact ⟨(h.current c hc).1, fun hmem => by
        rcases List.mem_cons.mp hmem with rfl | hmem
        · exact hne rfl
        · exact (h.current c hc).2 hmem⟩
    · -- no thread needs the closed connection
      have hneeds := hcareful thread hthread
      obtain ⟨conn₀, request, phase⟩ := thread
      obtain ⟨hconn, hphase⟩ := h.threads _ hthread
      refine ⟨hconn, ?_⟩
      cases phase with
      | starting => exact fun c hc => hphase c ((hcleared c).mp hc).1
      | calling => exact fun c hc => hphase c ((hcleared c).mp hc).1
      | training ws_conn epoch =>
        refine ⟨fun c hc => hphase.1 c ((hcleared c).mp hc).1, fun c hc => ?_⟩
        obtain ⟨rfl, hclosed⟩ := hphase.2 c hc
        refine ⟨rfl, fun hepoch hmem => ?_⟩
        rcases List.mem_cons.mp hmem with rfl | hmem
        · exact hneeds ⟨hc, hepoch⟩
        · exact hclosed hepoch hmem
      | trained final_accuracy => exact fun c hc => hphase c ((hcleared c).mp hc).1
      | sending final_accuracy =>
        refine (hcleared conn₀).mpr ⟨hphase, ?_⟩
        rintro rfl
        exact hneeds hphase
      | closing =>
        obtain ⟨c, hc⟩ := hphase
        refine ⟨c, (hcleared c).mpr ⟨hc, ?_⟩⟩
        rintro rfl
        exact hneeds hc
      | ended => trivial
  | thread i cost accuracy =>
    obtain ⟨thread, phase, hthread, hnext, rfl⟩ := Hub.step_thread hstep
    have hrouted := h.threads thread (List.mem_of_getElem? hthread)
    refine ⟨h.opened, h.current, fun other hother => ?_⟩
    rcases List.mem_or_eq_of_mem_set hother with hother | rfl
    · exact h.threads other hother
    · exact (hrouted.next h hnext).1

/-- The invariant holds after every careful run. -/
theorem routed_of_careful {events : List (Event α Conn)} {hub : Hub α Conn}
    (hrun : Run CarefulStep Hub.init events hub) : hub.Routed :=
  hrun.invariant (fun _ _ _ h ⟨hcareful, _, hstep⟩ => h.step hcareful hstep) Hub.routed_init

/-- **A careful run delivers every message**: after any number of events in
any order, each of which was careful, whatever happens next sends the
messages of a training to the client that asked for it, and none to a client
that is gone. -/
theorem careful_run_delivers {events : List (Event α Conn)} {hub : Hub α Conn}
    (hrun : Run CarefulStep Hub.init events hub) : hub.Delivers :=
  (routed_of_careful hrun).delivers

/-- The server with one thread, whose request came in on connection `0`. -/
def oneThread (g_ws_conn : Option ℕ) (opened : List ℕ) (phase : Phase ℝ ℕ) : Hub ℝ ℕ :=
  ⟨g_ws_conn, opened, [], [⟨0, sampleRequest 1 1, phase⟩]⟩

/-- The first client asks for a training. -/
theorem step_sampleMessage :
    (⟨some 0, [0], [], []⟩ : Hub ℝ ℕ).step (.onmessage 0 (some (sampleMessage 1 1)))
      = some (oneThread (some 0) [0] .starting, []) := by
  simp only [Hub.step, Hub.onmessage, readTraining_sampleMessage]
  rfl

/-- **A second client opens a connection before the training of the first has
started**, and is sent its messages. -/
theorem progress_sent_to_other_client :
    Run Moves Hub.init [.onopen 0, .onmessage 0 (some (sampleMessage 1 1)), .onopen 1,
        .thread 0 0 0, .thread 0 0 0] (oneThread (some 1) [1, 0] (.training (some 1) 0))
      ∧ (oneThread (some 1) [1, 0] (.training (some 1) 0)).asker (.thread 0 0 0) = some 0
      ∧ (oneThread (some 1) [1, 0] (.training (some 1) 0)).step (.thread 0 0 0)
        = some (oneThread (some 1) [1, 0] (.training (some 1) 1),
          [.send_text (some 1) (.progress ⟨1, 0, 0⟩)])
      ∧ ¬ (oneThread (some 1) [1, 0] (.training (some 1) 0)).Delivers := by
  refine ⟨?_, rfl, rfl, ?_⟩
  · exact .cons ⟨_, rfl⟩ <| .cons ⟨_, step_sampleMessage⟩ <| .cons ⟨_, rfl⟩ <|
      .cons ⟨_, rfl⟩ <| .cons ⟨_, rfl⟩ <| .nil _
  · intro h
    obtain ⟨c, hc, hasker, -⟩ := h (.thread 0 0 0) _ _ rfl _ (List.mem_singleton.mpr rfl)
    obtain rfl := Option.some.inj hc
    cases hasker

/-- One client that waits for its final message. -/
theorem single_client_delivers : (oneThread (some 0) [0] (.sending 0)).Delivers := by
  have hrun : Run CarefulStep Hub.init [.onopen 0, .onmessage 0 (some (sampleMessage 1 1)),
      .thread 0 0 0, .thread 0 0 0, .thread 0 0 0, .thread 0 0 0, .thread 0 0 0]
      (oneThread (some 0) [0] (.sending 0)) :=
    .cons ⟨fun _ h => absurd h List.not_mem_nil, _, rfl⟩ <|
    .cons ⟨fun _ _ _ h => (Option.some.inj h).symm, _, step_sampleMessage⟩ <|
    .cons ⟨trivial, _, rfl⟩ <| .cons ⟨trivial, _, rfl⟩ <| .cons ⟨trivial, _, rfl⟩ <|
    .cons ⟨trivial, _, rfl⟩ <| .cons ⟨trivial, _, rfl⟩ <| .nil _
  exact careful_run_delivers hrun

/-! ## Nothing weaker will do -/

/-- Thread `i` can get to its final message, with the pointer as it is. -/
def Hub.CanSend (hub : Hub α Conn) (i : ℕ) (conn c : Conn) : Prop :=
  ∃ events hub' thread final_accuracy, Run ThreadStep hub events hub' ∧ hub'.g_ws_conn = some c
    ∧ hub'.threads[i]? = some thread ∧ thread.conn = conn ∧ thread.phase = .sending final_accuracy

section CanSend

variable {hub : Hub α Conn} {i : ℕ} {conn c : Conn} {thread : TrainingThread α Conn}

theorem Hub.runThread_eq {cost accuracy : α} {phase : Phase α Conn} {calls : List (Call α Conn)}
    (hthread : hub.threads[i]? = some thread)
    (hnext : thread.next hub.g_ws_conn cost accuracy = some (phase, calls)) :
    hub.step (.thread i cost accuracy)
      = some ({ hub with threads := hub.threads.set i { thread with phase } }, calls) := by
  simp only [Hub.step, Hub.runThread, hthread, Option.bind_eq_bind, Option.bind_some, hnext]
  rfl

/-- One statement on the way there. -/
theorem Hub.CanSend.step (cost accuracy : α) {phase : Phase α Conn} {calls : List (Call α Conn)}
    (hthread : hub.threads[i]? = some thread)
    (hnext : thread.next hub.g_ws_conn cost accuracy = some (phase, calls))
    (h : ({ hub with threads := hub.threads.set i { thread with phase } } : Hub α Conn).CanSend i
      conn c) : hub.CanSend i conn c := by
  obtain ⟨events, hub', thread', final_accuracy, hrun, hlast⟩ := h
  exact ⟨_, hub', thread', final_accuracy,
    .cons ⟨⟨i, cost, accuracy, rfl⟩, calls, hub.runThread_eq hthread hnext⟩ hrun, hlast⟩

omit [DecidableEq Conn] in
/-- The thread after its statement. -/
theorem getElem?_set_thread (hthread : hub.threads[i]? = some thread)
    (thread' : TrainingThread α Conn) : (hub.threads.set i thread')[i]? = some thread' :=
  List.getElem?_set_self (List.getElem?_eq_some_iff.mp hthread).1

theorem Hub.canSend_trained (thread : TrainingThread α Conn)
    (hthread : hub.threads[i]? = some thread) (hg : hub.g_ws_conn = some c)
    {final_accuracy : α} (hphase : thread.phase = .trained final_accuracy) :
    hub.CanSend i thread.conn c := by
  have hnext : thread.next hub.g_ws_conn final_accuracy final_accuracy
      = some (.sending final_accuracy, []) := by
    rw [TrainingThread.next, hphase, hg]
    rfl
  exact .step final_accuracy final_accuracy hthread hnext
    ⟨[], _, _, final_accuracy, .nil _, hg, getElem?_set_thread hthread _, rfl, rfl⟩

/-- The epochs that are left lead to the end of `train`. -/
theorem Hub.canSend_training (thread : TrainingThread α Conn) (a : α)
    (hthread : hub.threads[i]? = some thread) (hg : hub.g_ws_conn = some c)
    {ws_conn : Option Conn} {epoch left : ℕ} (hphase : thread.phase = .training ws_conn epoch)
    (hleft : thread.request.epochs.toNat - epoch = left) : hub.CanSend i thread.conn c := by
  induction left generalizing hub thread epoch with
  | zero =>
    refine .step a a hthread (thread.next_last hphase (by omega)) ?_
    exact Hub.canSend_trained { thread with phase := .trained a }
      (getElem?_set_thread hthread _) hg rfl
  | succ left ih =>
    refine .step a a hthread (thread.next_epoch hphase (by omega)) ?_
    exact ih { thread with phase := .training ws_conn (epoch + 1) }
      (getElem?_set_thread hthread _) hg rfl (by dsimp only; omega)

theorem Hub.canSend_calling (thread : TrainingThread α Conn) (a : α)
    (hthread : hub.threads[i]? = some thread) (hg : hub.g_ws_conn = some c)
    (hphase : thread.phase = .calling) : hub.CanSend i thread.conn c := by
  have hnext : thread.next hub.g_ws_conn a a = some (.training (some c) 0, []) := by
    rw [TrainingThread.next, hphase, hg]
  exact .step a a hthread hnext
    (Hub.canSend_training { thread with phase := .training (some c) 0 } a
      (getElem?_set_thread hthread _) hg rfl rfl)

/-- **A thread whose final message is not out can send it** on whatever
connection there is now. -/
theorem Hub.canSend (a : α) (hthread : hub.threads[i]? = some thread)
    (hg : hub.g_ws_conn = some c) (hsent : ¬ thread.HasSent) : hub.CanSend i thread.conn c := by
  cases hphase : thread.phase with
  | starting =>
    have hnext : thread.next hub.g_ws_conn a a = some (.calling, []) := by
      rw [TrainingThread.next, hphase, hg]
      rfl
    exact .step a a hthread hnext (Hub.canSend_calling { thread with phase := .calling } a
      (getElem?_set_thread hthread _) hg rfl)
  | calling => exact Hub.canSend_calling thread a hthread hg hphase
  | training ws_conn epoch => exact Hub.canSend_training thread a hthread hg hphase rfl
  | trained final_accuracy => exact Hub.canSend_trained thread hthread hg hphase
  | sending final_accuracy =>
    exact ⟨[], hub, thread, final_accuracy, .nil hub, hg, hthread, rfl, hphase⟩
  | closing => exact absurd (Or.inl hphase) hsent
  | ended => exact absurd (Or.inr hphase) hsent

/-- A call that is not as it should be. -/
theorem Hub.not_delivers (cost accuracy : α) {phase : Phase α Conn} {calls : List (Call α Conn)}
    (hthread : hub.threads[i]? = some thread)
    (hnext : thread.next hub.g_ws_conn cost accuracy = some (phase, calls))
    (hbad : ∃ call ∈ calls, ¬ call.Delivered hub (some thread.conn)) : ¬ hub.Delivers := by
  intro h
  obtain ⟨call, hcall, hbad⟩ := hbad
  refine hbad ?_
  have hdelivered := h _ _ _ (hub.runThread_eq hthread hnext) call hcall
  rw [Hub.asker, hthread] at hdelivered
  exact hdelivered

/-- **A thread with another connection ahead of it** can end up sending its
final message there. -/
theorem Hub.exists_not_delivers (a : α) (hthread : hub.threads[i]? = some thread)
    (hg : hub.g_ws_conn = some c) (hsent : ¬ thread.HasSent) (hne : thread.conn ≠ c) :
    ∃ events hub', Run ThreadStep hub events hub' ∧ ¬ hub'.Delivers := by
  obtain ⟨events, hub', thread', final_accuracy, hrun, hg', hthread', hconn, hphase⟩ :=
    hub.canSend a hthread hg hsent
  refine ⟨events, hub', hrun, Hub.not_delivers a a hthread' (thread'.next_sending hphase)
    ⟨_, List.mem_singleton.mpr rfl, ?_⟩⟩
  rintro ⟨c', hc', hasker, -⟩
  rw [hconn] at hasker
  exact hne ((Option.some.inj hasker).trans (Option.some.inj (hc'.symm.trans hg')))

end CanSend

/-- **Nothing weaker will do**: where the invariant holds, an event is careful
exactly if the threads deliver their messages after it, in whatever order
they run. -/
theorem careful_iff_threads_deliver [Nonempty α] {hub hub' : Hub α Conn} (h : hub.Routed)
    {event : Event α Conn} {calls : List (Call α Conn)}
    (hstep : hub.step event = some (hub', calls)) :
    hub.Careful event ↔ ∀ events hub'', Run ThreadStep hub' events hub'' → hub''.Delivers := by
  obtain ⟨a⟩ := ‹Nonempty α›
  constructor
  · intro hcareful events hub'' hrun
    refine Hub.Routed.delivers (hrun.invariant (fun s e s' hs hstep => ?_) (h.step hcareful hstep))
    obtain ⟨⟨i, cost, accuracy, rfl⟩, calls', hcalls⟩ := hstep
    exact hs.step (show s.Careful (.thread i cost accuracy) from trivial) hcalls
  · intro hdeliver
    have hsafe : ¬ ∃ events hub'', Run ThreadStep hub' events hub'' ∧ ¬ hub''.Delivers :=
      fun ⟨events, hub'', hrun, hbad⟩ => hbad (hdeliver events hub'' hrun)
    cases event with
    | onopen conn =>
      obtain ⟨hopened, rfl, -⟩ := Hub.step_onopen hstep
      intro thread hthread
      by_contra hsent
      obtain ⟨i, hi⟩ := List.getElem?_of_mem hthread
      have hne : thread.conn ≠ conn := by
        rintro rfl
        exact hopened (h.threads thread hthread).1
      exact hsafe (Hub.exists_not_delivers a hi rfl hsent hne)
    | onmessage conn parsed_data =>
      intro request haccepted c hc
      obtain ⟨-, ⟨request', -, rfl, -⟩ | ⟨hrefused, -⟩⟩ := Hub.step_onmessage hstep
      · by_contra hne
        have hnew : (hub.threads ++ [⟨conn, request', .starting⟩])[hub.threads.length]?
            = some ⟨conn, request', .starting⟩ := List.getElem?_concat_length
        exact hsafe (Hub.exists_not_delivers a hnew hc (by simp [TrainingThread.HasSent])
          (Ne.symm hne))
      · exact absurd haccepted (hrefused request)
    | onclose conn =>
      obtain ⟨hopen, -, rfl⟩ := Hub.step_onclose hstep
      intro thread hthread hneeds
      obtain ⟨i, hi⟩ := List.getElem?_of_mem hthread
      refine hsafe ⟨[], _, .nil _, ?_⟩
      unfold TrainingThread.Needs at hneeds
      split at hneeds
      · rename_i ws_conn epoch hphase
        obtain ⟨rfl, hepoch⟩ := hneeds
        refine Hub.not_delivers a a hi
          (thread.next_epoch hphase hepoch) ⟨_, List.mem_singleton.mpr rfl, ?_⟩
        rintro ⟨c, hc, -, hclosed⟩
        obtain rfl := Option.some.inj hc
        exact hclosed List.mem_cons_self
      · rename_i final_accuracy hphase
        refine Hub.not_delivers a a hi (thread.next_sending hphase)
          ⟨_, List.mem_singleton.mpr rfl, ?_⟩
        rintro ⟨c, hc, -⟩
        dsimp only at hc
        rw [if_pos hneeds] at hc
        cases hc
      · rename_i hphase
        refine Hub.not_delivers a a hi (thread.next_closing hphase)
          ⟨_, List.mem_singleton.mpr rfl, ?_⟩
        rintro ⟨c, hc, -⟩
        dsimp only at hc
        rw [if_pos hneeds] at hc
        cases hc
      · exact hneeds.elim
    | thread i cost accuracy => trivial

end RouteHandlers
