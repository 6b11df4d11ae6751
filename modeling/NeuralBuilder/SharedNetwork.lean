import NeuralBuilder.TrainingMessage

/-!
# One network for all threads

The training threads and the handler of `/compile` share one network, and
nothing keeps them apart. The passes through the layers and
`setModelHyperParameters` are atomic here, in any order that keeps the order
of every thread; a thread computes the derivative of the loss just before it
goes back through the layers. A forward pass leaves in the layers what the
backward pass of the same mini-batch reads: the outputs, the inputs and the
dropout mask. `backward_acts_on_own_caches` says what has to be kept apart
for the backward pass to find them there.

A thread is the loop of `train` cut at the passes through the layers, and its
stages put together are that loop (`steps_trainBatch`). The invariant says of
every thread between its two passes that the layers hold the caches of its own
forward pass, as long as no other thread and no request has come in between.
-/

open Runs

variable {α : Type} [Double α]

/-- **What `backward` reads of what `forward` wrote**, and the object it is
in. -/
def DenseLayer.caches (layer : DenseLayer α) : ℕ × Mat α × Mat α × Mat α :=
  (layer.addr, layer.a, layer.aPrev, layer.dropoutMask)

def NeuralNetwork.caches (nn : NeuralNetwork α) : List (ℕ × Mat α × Mat α × Mat α) :=
  nn.layers.map DenseLayer.caches

namespace SharedNetwork

open RouteHandlers NeuralNetwork

/-- **Where a training thread stands**: before `train`, before the forward
pass of the first mini-batch to do, or between the two passes of a
mini-batch. What the forward pass left in the layers is recorded to say what
the backward pass should find. -/
inductive Stage (α : Type) where
  | waiting
  | forward (todo : List (Mat α × Mat α))
  | backward (batch : Mat α × Mat α) (predictions : Mat α)
    (caches : List (ℕ × Mat α × Mat α × Mat α)) (todo : List (Mat α × Mat α))

structure Thread (α : Type) where
  /-- What it was started with. -/
  request : TrainingRequest α
  /-- Where it stands. -/
  stage : Stage α

/-- The network, the calls of `rand()` to come, the address of the next
layer, and the threads that were started. -/
structure Server (α : Type) where
  /-- The one network. -/
  nn : NeuralNetwork α
  /-- The calls of `rand()` to come. -/
  rand : ℕ → α
  /-- Where the next layer is allocated. -/
  next : ℕ
  /-- The threads, in the order of their messages. -/
  threads : List (Thread α)

/-- What can happen. `fuel` bounds the loop of `miniBatchGenerator`. -/
inductive Event (α : Type) where
  | message (parsed_data : RValue α)
  | compile (noise : ℕ → Noise α) (responds : Bool) (body : RValue α)
  | start (i fuel : ℕ)
  | forward (i : ℕ)
  | backward (i : ℕ)

namespace Server

/-- The server with thread `i` in another stage. -/
def setStage (server : Server α) (i : ℕ) (thread : Thread α) (stage : Stage α) : Server α :=
  { server with threads := server.threads.set i { thread with stage } }

/-- A message that is accepted starts a thread. -/
def message (server : Server α) (parsed_data : RValue α) : Option (Server α) := do
  let request ← (readTraining parsed_data).toOption
  return { server with threads := server.threads ++ [⟨request, .waiting⟩] }

/-- `/compile`, also where it ends in an exception. -/
def compile (server : Server α) (noise : ℕ → Noise α) (responds : Bool) (body : RValue α) :
    Option (Server α) :=
  match RouteHandlers.compile noise responds server.next server.nn body with
  | (nn, .ok _) => some { server with nn, next := server.next + nn.layers.length }
  | (nn, .error e) =>
    if e.isException then some { server with nn, next := server.next + nn.layers.length } else none

/-- `train` up to its loop over the epochs, each of which goes through all
mini-batches. -/
def start (server : Server α) (i fuel : ℕ) : Option (Server α) := do
  let thread ← server.threads[i]?
  match thread.stage with
  | .waiting => do
    let (inputNormalized, nn) ← (server.nn.normalizeTraining thread.request.features).toOption
    let batches ← (miniBatchGenerator fuel thread.request.target inputNormalized
      thread.request.batchSize).toOption
    return { server with nn }.setStage i thread
      (.forward (List.replicate thread.request.epochs.toNat batches).flatten)
  | _ => none

/-- The forward pass of a mini-batch. -/
def forward (server : Server α) (i : ℕ) : Option (Server α) := do
  let thread ← server.threads[i]?
  match thread.stage with
  | .forward (batch :: todo) => do
    let (predictions, nn, rand) ← (do
      let _miniBatchSize := (← Vec.at batch.2 0).length
      server.nn.forwardPropagation server.rand batch.1).toOption
    return { server with nn, rand }.setStage i thread
      (.backward batch predictions nn.caches todo)
  | _ => none

/-- The rest of the body of the loop over the mini-batches. -/
def backward (server : Server α) (i : ℕ) : Option (Server α) := do
  let thread ← server.threads[i]?
  match thread.stage with
  | .backward batch predictions _ todo => do
    let (_, nn) ← (do
      let _accuracy ← ModelEvaluator.accuracy predictions batch.2 server.nn.lossFunction
      let _cost ← server.nn.lossFunction.calculateLoss predictions batch.2
      let da ← server.nn.lossFunction.derivative predictions batch.2
      server.nn.backwardPropagation da).toOption
    return { server with nn }.setStage i thread (.forward todo)
  | _ => none

/-- **A step of the server.** A fault ends the program, so that only steps
without one are followed by others. -/
def step (server : Server α) (event : Event α) : Option (Server α) :=
  match event with
  | .message parsed_data => server.message parsed_data
  | .compile noise responds body => server.compile noise responds body
  | .start i fuel => server.start i fuel
  | .forward i => server.forward i
  | .backward i => server.backward i

end Server

/-- The server before its first request. -/
def Server.init (rand : ℕ → α) : Server α := ⟨initialNetwork, rand, 0, []⟩

def Moves (server : Server α) (event : Event α) (server' : Server α) : Prop :=
  server.step event = some server'

/-- **A backward pass from here acts on what the forward pass of the same
mini-batch left**: on the same objects, with the same caches. -/
def Server.ActsOnOwn (server : Server α) : Prop :=
  ∀ i server', server.step (.backward i) = some server' →
    ∃ thread batch predictions todo, server.threads[i]? = some thread
      ∧ thread.stage = .backward batch predictions server.nn.caches todo

/-- The thread is between the two passes of a mini-batch. -/
def Thread.HalfWay (thread : Thread α) : Prop :=
  ∃ batch predictions caches todo, thread.stage = .backward batch predictions caches todo

/-- **An event that keeps the mini-batches apart**: there is no forward pass
and no rebuilding of the layers between the two passes of a mini-batch. -/
def Server.Apart (server : Server α) (event : Event α) : Prop :=
  match event with
  | .compile _ _ body => (∃ request, readRequest body = .ok request) →
      ∀ thread ∈ server.threads, ¬ thread.HalfWay
  | .forward _ => ∀ thread ∈ server.threads, ¬ thread.HalfWay
  | _ => True

/-- A step that keeps the mini-batches apart. -/
def ApartStep (server : Server α) (event : Event α) (server' : Server α) : Prop :=
  server.Apart event ∧ Moves server event server'

/-! ## What the steps leave alone -/

/-- `backward` leaves the caches alone. -/
theorem backward_caches {layer layer' : DenseLayer α} {da da' : Mat α}
    (h : layer.backward da = .ok (da', layer')) : layer'.caches = layer.caches := by
  obtain ⟨w, b, dw, db, rfl⟩ := DenseLayer.backward_writes h
  rfl

theorem backwardLayers_caches {layers layers' : List (DenseLayer α)} {da da' : Mat α}
    (h : backwardLayers layers da = .ok (da', layers')) :
    layers'.map DenseLayer.caches = layers.map DenseLayer.caches := by
  induction layers generalizing da' layers' with
  | nil =>
    obtain ⟨-, rfl⟩ := Prod.mk.inj (Except.ok.inj h)
    rfl
  | cons layer layers ih =>
    simp only [backwardLayers, Checked.bind_eq_ok_iff] at h
    obtain ⟨⟨da₁, layers₁⟩, hrest, ⟨da₂, layer₂⟩, hlayer, hreturn⟩ := h
    obtain ⟨-, rfl⟩ := Prod.mk.inj (Except.ok.inj hreturn)
    rw [List.map_cons, List.map_cons, ih hrest, backward_caches hlayer]

theorem backwardPropagation_caches {nn nn' : NeuralNetwork α} {da da' : Mat α}
    (h : nn.backwardPropagation da = .ok (da', nn')) : nn'.caches = nn.caches := by
  simp only [backwardPropagation, Checked.bind_eq_ok_iff] at h
  obtain ⟨⟨da₁, layers⟩, hrun, hreturn⟩ := h
  obtain ⟨-, rfl⟩ := Prod.mk.inj (Except.ok.inj hreturn)
  exact backwardLayers_caches hrun

theorem normalizeTraining_caches {nn nn' : NeuralNetwork α} {input input' : Mat α}
    (h : nn.normalizeTraining input = .ok (input', nn')) : nn'.caches = nn.caches := by
  simp only [normalizeTraining, Checked.bind_eq_ok_iff] at h
  obtain ⟨_, -, hreturn⟩ := h
  obtain ⟨-, rfl⟩ := Prod.mk.inj (Except.ok.inj hreturn)
  rfl

section Steps

variable {server server' : Server α} {i : ℕ}

theorem step_message {parsed_data : RValue α}
    (h : server.step (.message parsed_data) = some server') :
    ∃ request, server' = { server with threads := server.threads ++ [⟨request, .waiting⟩] } := by
  simp only [Server.step, Server.message, Option.bind_eq_bind, Option.bind_eq_some_iff] at h
  obtain ⟨request, -, hreturn⟩ := h
  exact ⟨request, (Option.some.inj hreturn).symm⟩

/-- A body that is refused leaves the layers as they are. -/
theorem step_compile {noise : ℕ → Noise α} {responds : Bool} {body : RValue α}
    (h : server.step (.compile noise responds body) = some server') :
    server'.threads = server.threads
      ∧ ((∃ request, readRequest body = .ok request) ∨ server'.nn.caches = server.nn.caches) := by
  have hkept : (∃ request, readRequest body = .ok request)
      ∨ (RouteHandlers.compile noise responds server.next server.nn body).1 = server.nn := by
    cases hread : readRequest body with
    | ok request => exact Or.inl ⟨request, rfl⟩
    | error e =>
      refine Or.inr ?_
      rw [RouteHandlers.compile, hread]
  simp only [Server.step, Server.compile] at h
  split at h
  · rename_i nn parameters heq
    obtain rfl := Option.some.inj h
    rw [heq] at hkept
    exact ⟨rfl, hkept.imp_right fun hnn => congrArg NeuralNetwork.caches hnn⟩
  · rename_i nn e heq
    split_ifs at h
    obtain rfl := Option.some.inj h
    rw [heq] at hkept
    exact ⟨rfl, hkept.imp_right fun hnn => congrArg NeuralNetwork.caches hnn⟩

theorem step_start {fuel : ℕ} (h : server.step (.start i fuel) = some server') :
    ∃ (thread : Thread α) (todo : _), server'.nn.caches = server.nn.caches
      ∧ server'.threads = server.threads.set i { thread with stage := .forward todo } := by
  simp only [Server.step, Server.start, Option.bind_eq_bind, Option.bind_eq_some_iff] at h
  obtain ⟨thread, -, h⟩ := h
  split at h
  · simp only [Option.bind_eq_some_iff, Checked.toOption_eq_some_iff] at h
    obtain ⟨⟨inputNormalized, nn⟩, hnormalize, batches, -, hreturn⟩ := h
    obtain rfl := Option.some.inj hreturn
    exact ⟨thread, _, normalizeTraining_caches hnormalize, rfl⟩
  · cases h

theorem step_forward (h : server.step (.forward i) = some server') :
    ∃ (thread : Thread α) (batch : _) (predictions : _) (todo : _),
      server'.threads = server.threads.set i
        { thread with stage := .backward batch predictions server'.nn.caches todo } := by
  simp only [Server.step, Server.forward, Option.bind_eq_bind, Option.bind_eq_some_iff] at h
  obtain ⟨thread, -, h⟩ := h
  split at h
  · rename_i batch todo hstage
    simp only [Option.bind_eq_some_iff, Checked.toOption_eq_some_iff] at h
    obtain ⟨⟨predictions, nn, rand⟩, -, hreturn⟩ := h
    obtain rfl := Option.some.inj hreturn
    exact ⟨thread, batch, predictions, todo, rfl⟩
  · cases h

theorem step_backward (h : server.step (.backward i) = some server') :
    ∃ thread batch predictions caches todo, server.threads[i]? = some thread
      ∧ thread.stage = .backward batch predictions caches todo
      ∧ server'.nn.caches = server.nn.caches
      ∧ server'.threads = server.threads.set i { thread with stage := .forward todo } := by
  simp only [Server.step, Server.backward, Option.bind_eq_bind, Option.bind_eq_some_iff] at h
  obtain ⟨thread, hthread, h⟩ := h
  split at h
  · rename_i batch predictions caches todo hstage
    simp only [Option.bind_eq_some_iff, Checked.toOption_eq_some_iff, Checked.bind_eq_ok_iff] at h
    obtain ⟨⟨da', nn⟩, ⟨accuracy, -, cost, -, da, -, hbackward⟩, hreturn⟩ := h
    obtain rfl := Option.some.inj hreturn
    exact ⟨thread, batch, predictions, caches, todo, hthread, hstage,
      backwardPropagation_caches hbackward, rfl⟩
  · cases h

end Steps

/-- **The two steps of a mini-batch are the body of the loop of `train`**,
where nothing comes in between. -/
theorem steps_trainBatch {server : Server α} {i : ℕ} {thread : Thread α} {batch : Mat α × Mat α}
    {todo : List (Mat α × Mat α)} (hthread : server.threads[i]? = some thread)
    (hstage : thread.stage = .forward (batch :: todo)) {accuracyRate costValue : α}
    {s : Training α}
    (h : trainBatch ⟨accuracyRate, costValue, server.nn, server.rand⟩ batch = .ok s) :
    ∃ server₁ server₂, server.step (.forward i) = some server₁
      ∧ server₁.step (.backward i) = some server₂ ∧ server₂.nn = s.nn ∧ server₂.rand = s.rand := by
  simp only [trainBatch, Checked.bind_eq_ok_iff] at h
  obtain ⟨row, hrow, ⟨predictions, nn, rand⟩, hforward, accuracy, haccuracy, cost, hcost, da, hda,
    ⟨da', nn'⟩, hbackward, hreturn⟩ := h
  obtain rfl := Except.ok.inj hreturn
  have hi : i < server.threads.length := (List.getElem?_eq_some_iff.mp hthread).1
  refine ⟨{ server with nn, rand }.setStage i thread (.backward batch predictions nn.caches todo),
    { server with nn := nn', rand }.setStage i thread (.forward todo), ?_, ?_, rfl, rfl⟩
  · simp only [Server.step, Server.forward, hthread, Option.bind_eq_bind, Option.bind_some, hstage,
      hrow, Checked.ok_bind, hforward]
    rfl
  · simp only [Server.step, Server.backward, Server.setStage, List.getElem?_set_self hi,
      Option.bind_eq_bind, Option.bind_some, haccuracy, Checked.ok_bind, hcost, hda, hbackward,
      List.set_set]
    rfl

/-! ## The invariant -/

/-- **A thread half way finds its caches in the layers.** -/
def Thread.Finds (nn : NeuralNetwork α) (thread : Thread α) : Prop :=
  ∀ batch predictions caches todo, thread.stage = .backward batch predictions caches todo →
    nn.caches = caches

omit [Double α] in
theorem Thread.finds_of_not_halfWay {nn : NeuralNetwork α} {thread : Thread α}
    (h : ¬ thread.HalfWay) : thread.Finds nn :=
  fun batch predictions caches todo hstage => absurd ⟨batch, predictions, caches, todo, hstage⟩ h

omit [Double α] in
theorem Thread.Finds.congr {nn nn' : NeuralNetwork α} {thread : Thread α} (h : thread.Finds nn)
    (heq : nn'.caches = nn.caches) : thread.Finds nn' :=
  fun batch predictions caches todo hstage => heq.trans (h batch predictions caches todo hstage)

/-- **A step that keeps the mini-batches apart keeps the invariant.** -/
theorem finds_step {server server' : Server α} {event : Event α}
    (h : ∀ thread ∈ server.threads, thread.Finds server.nn) (hapart : server.Apart event)
    (hstep : server.step event = some server') :
    ∀ thread ∈ server'.threads, thread.Finds server'.nn := by
  intro thread hthread
  cases event with
  | message parsed_data =>
    obtain ⟨request, rfl⟩ := step_message hstep
    rcases List.mem_append.mp hthread with hthread | hthread
    · exact h thread hthread
    · obtain rfl := List.mem_singleton.mp hthread
      exact fun _ _ _ _ hstage => by cases hstage
  | compile noise responds body =>
    obtain ⟨hthreads, hread | hcaches⟩ := step_compile hstep
    · exact Thread.finds_of_not_halfWay (hapart hread thread (hthreads ▸ hthread))
    · exact (h thread (hthreads ▸ hthread)).congr hcaches
  | start i fuel =>
    obtain ⟨thread', todo, hcaches, hthreads⟩ := step_start hstep
    rw [hthreads] at hthread
    rcases List.mem_or_eq_of_mem_set hthread with hthread | rfl
    · exact (h thread hthread).congr hcaches
    · exact fun _ _ _ _ hstage => by cases hstage
  | forward i =>
    -- the only thread half way is the one that has just gone forward
    obtain ⟨thread', batch, predictions, todo, hthreads⟩ := step_forward hstep
    rw [hthreads] at hthread
    rcases List.mem_or_eq_of_mem_set hthread with hthread | rfl
    · exact Thread.finds_of_not_halfWay (hapart thread hthread)
    · intro _ _ _ _ hstage
      injection hstage
  | backward i =>
    obtain ⟨thread', batch, predictions, caches, todo, -, -, hcaches, hthreads⟩ :=
      step_backward hstep
    rw [hthreads] at hthread
    rcases List.mem_or_eq_of_mem_set hthread with hthread | rfl
    · exact (h thread hthread).congr hcaches
    · exact fun _ _ _ _ hstage => by cases hstage

/-- **Every backward pass acts on what the forward pass of the same
mini-batch left**, after any number of steps of any number of threads and of
`/compile` that kept the mini-batches apart. -/
theorem backward_acts_on_own_caches {rand : ℕ → α} {events : List (Event α)} {server : Server α}
    (hrun : Run ApartStep (Server.init rand) events server) : server.ActsOnOwn := by
  have hfinds : ∀ thread ∈ server.threads, thread.Finds server.nn :=
    hrun.invariant (fun _ _ _ h ⟨hapart, hstep⟩ => finds_step h hapart hstep)
      (fun thread hthread => absurd hthread List.not_mem_nil)
  intro i server' hstep
  obtain ⟨thread, batch, predictions, caches, todo, hthread, hstage, -⟩ := step_backward hstep
  obtain rfl := hfinds thread (List.mem_of_getElem? hthread) _ _ _ _ hstage
  exact ⟨thread, batch, predictions, todo, hthread, hstage⟩

/-! ## What a forward pass overwrites -/

/-- The first layer keeps the input of the pass. -/
theorem forwardPropagation_input {nn nn' : NeuralNetwork α} {rand rand' : ℕ → α}
    {input predictions : Mat α}
    (h : nn.forwardPropagation rand input = .ok (predictions, nn', rand')) :
    ∀ layer ∈ nn'.layers.head?, layer.aPrev = input := by
  simp only [forwardPropagation, Checked.bind_eq_ok_iff] at h
  obtain ⟨⟨_, layers', _⟩, hlayers, hreturn⟩ := h
  obtain ⟨-, hreturn⟩ := Prod.mk.inj (Except.ok.inj hreturn)
  obtain ⟨rfl, -⟩ := Prod.mk.inj hreturn
  cases hnil : nn.layers with
  | nil =>
    rw [hnil] at hlayers
    obtain ⟨-, hrest⟩ := Prod.mk.inj (Except.ok.inj hlayers)
    obtain ⟨rfl, -⟩ := Prod.mk.inj hrest
    exact fun layer hlayer => by cases hlayer
  | cons first rest =>
    rw [hnil] at hlayers
    -- the first layer caches what the pass was given, with and without dropout
    simp only [forwardLayers, Checked.bind_eq_ok_iff] at hlayers
    obtain ⟨⟨_, first', _⟩, hfirst, ⟨_, rest', _⟩, -, hreturn⟩ := hlayers
    obtain ⟨-, hreturn⟩ := Prod.mk.inj (Except.ok.inj hreturn)
    obtain ⟨rfl, -⟩ := Prod.mk.inj hreturn
    intro layer hlayer
    obtain rfl := Option.some.inj hlayer
    simp only [DenseLayer.forward, Checked.bind_eq_ok_iff] at hfirst
    obtain ⟨_, -, _, -, _, -, _, -, hbranch⟩ := hfirst
    split_ifs at hbranch
    · simp only [Checked.bind_eq_ok_iff] at hbranch
      obtain ⟨_, -, hreturn⟩ := hbranch
      obtain ⟨-, hreturn⟩ := Prod.mk.inj (Except.ok.inj hreturn)
      obtain ⟨rfl, -⟩ := Prod.mk.inj hreturn
      rfl
    · obtain ⟨-, hreturn⟩ := Prod.mk.inj (Except.ok.inj hbranch)
      obtain ⟨rfl, -⟩ := Prod.mk.inj hreturn
      rfl

/-- **A forward pass on another input overwrites the caches** of the one
before it. -/
theorem forwardPropagation_caches_ne {nn nn₁ nn₂ nn₂' : NeuralNetwork α} {rand r₁ r₂ r₂' : ℕ → α}
    {X₁ X₂ P₁ P₂ : Mat α} (h₁ : nn.forwardPropagation rand X₁ = .ok (P₁, nn₁, r₁))
    (h₂ : nn₂.forwardPropagation r₂ X₂ = .ok (P₂, nn₂', r₂')) (hne : nn₂'.layers ≠ [])
    (hX : X₁ ≠ X₂) : nn₂'.caches ≠ nn₁.caches := by
  intro heq
  obtain ⟨layer₂, rest₂, hlayers₂⟩ := List.exists_cons_of_ne_nil hne
  have hmap : layer₂.caches :: rest₂.map DenseLayer.caches = nn₁.layers.map DenseLayer.caches := by
    rw [← List.map_cons, ← hlayers₂]
    exact heq
  cases hlayers₁ : nn₁.layers with
  | nil =>
    rw [hlayers₁] at hmap
    cases hmap
  | cons layer₁ rest₁ =>
    rw [hlayers₁, List.map_cons] at hmap
    have hcaches : layer₂.caches = layer₁.caches := (List.cons.inj hmap).1
    have haPrev : layer₂.aPrev = layer₁.aPrev := congrArg (fun c => c.2.2.1) hcaches
    rw [forwardPropagation_input h₁ layer₁ (by rw [hlayers₁]; rfl),
      forwardPropagation_input h₂ layer₂ (by rw [hlayers₂]; rfl)] at haPrev
    exact hX haPrev.symm

/-! ## Two trainings at once -/

section Steps

variable {server : Server α} {i n p t c : ℕ} {thread : Thread α} {N : Network α n p}
  {todo : List (Mat α × Mat α)}

/-- The forward pass of a mini-batch on a network whose sizes match. -/
theorem exists_step_forward (hthread : server.threads[i]? = some thread) (X : Fin n → Fin c → α)
    (T : Fin t → Fin c → α) (hstage : thread.stage = .forward ((Grid.ofFn X, Grid.ofFn T) :: todo))
    (hN : N.HeldBy server.nn.layers) (hn : 0 < n) (ht : 0 < t) :
    ∃ server', server.step (.forward i) = some server'
      ∧ server.nn.forwardPropagation server.rand (Grid.ofFn X)
        = .ok (Grid.ofFn (N.forward server.rand X), server'.nn, server'.rand)
      ∧ server'.nn.lossFunction = server.nn.lossFunction
      ∧ N.HeldBy server'.nn.layers ∧ N.CachedBy server'.nn.layers server.rand X
      ∧ server'.threads = server.threads.set i { thread with
        stage := .backward (Grid.ofFn X, Grid.ofFn T) (Grid.ofFn (N.forward server.rand X))
          server'.nn.caches todo } := by
  obtain ⟨layers, hrun, hheld, hcached⟩ := Network.forwardPropagation_heldBy hN server.rand X hn
  refine ⟨{ server with
    nn := { server.nn with layers }
    rand := N.randAfter c server.rand }.setStage i thread (.backward (Grid.ofFn X, Grid.ofFn T)
      (Grid.ofFn (N.forward server.rand X)) (layers.map DenseLayer.caches) todo),
    ?_, hrun, rfl, hheld, hcached, rfl⟩
  simp only [Server.step, Server.forward, hthread, Option.bind_eq_bind, Option.bind_some, hstage,
    Vec.at_row_zero T ht, Checked.ok_bind, hrun]
  rfl

/-- The rest of its turn, whatever mini-batch of the same size the caches are
of. -/
theorem exists_step_backward (hthread : server.threads[i]? = some thread) {X : Fin n → Fin c → α}
    {T : Fin t → Fin c → α} {P : Fin p → Fin c → α}
    {caches : List (ℕ × Mat α × Mat α × Mat α)}
    (hstage : thread.stage = .backward (Grid.ofFn X, Grid.ofFn T) (Grid.ofFn P) caches todo)
    (hN : N.HeldBy server.nn.layers) {rand : ℕ → α} {Y : Fin n → Fin c → α}
    (hcached : N.CachedBy server.nn.layers rand Y) (hn : 0 < n) (ht : 0 < t) (hc : 0 < c)
    (hfit : server.nn.lossFunction.Fits p T) :
    ∃ server', server.step (.backward i) = some server' := by
  have hp : 0 < p := N.out_pos hn
  obtain ⟨cost, hcost⟩ := calculateLoss_ok P T hp hfit
  have hda := LossFunction.derivative_ofFn P T hp hfit
  obtain ⟨layers, hbackward, -⟩ := Network.backwardLayers_heldBy hN hcached
    (server.nn.lossFunction.onGrid P T hfit) hn hc
  simp only [Server.step, Server.backward, hthread, Option.bind_eq_bind, Option.bind_some, hstage,
    ModelEvaluator.accuracy_ofFn _ T _ hp ht, Checked.ok_bind, hcost, hda, backwardPropagation,
    hbackward]
  exact ⟨_, rfl⟩

end Steps

/-- A message with two samples of one feature. -/
noncomputable def pairMessage (x y : ℝ) : RValue ℝ := .object [
  ("features", .list [.list [.number 0 x], .list [.number 0 y]]),
  ("target", .list [.list [.number 1 1], .list [.number 1 1]]),
  ("epochNum", .number 1 1),
  ("minibatchSize", .number 2 (1 + 1))]

/-- What is read from it. -/
def pairRequest (x y : ℝ) : TrainingRequest ℝ :=
  ⟨[[x], [y]], [[1], [1]], [[x, y]], [[1, 1]], 1, 2⟩

theorem readTraining_pairMessage (x y : ℝ) :
    readTraining (pairMessage x y) = .ok (pairRequest x y) := by
  have htranspose : ∀ x y : ℝ, MathUtils.transpose [[x], [y]] = .ok [[x, y]] := fun x y =>
    MathUtils.transpose_ofFn (fun (j : Fin 2) (_ : Fin 1) => (![x, y] : Fin 2 → ℝ) j) two_pos
  have hrows : ∀ (i j : Int64) (x y : ℝ),
      readRows (.list [.list [.number i x], .list [.number j y]]) = .ok [[x], [y]] :=
    fun _ _ _ _ => rfl
  have hfields : (pairMessage x y).field "features"
        = .ok (.list [.list [.number 0 x], .list [.number 0 y]])
      ∧ (pairMessage x y).field "target"
        = .ok (.list [.list [.number 1 1], .list [.number 1 1]])
      ∧ (pairMessage x y).field "epochNum" = .ok (.number 1 1)
      ∧ (pairMessage x y).field "minibatchSize" = .ok (.number 2 (1 + 1)) :=
    ⟨rfl, rfl, rfl, rfl⟩
  exact readTraining_of_fields hfields (hrows 0 0 x y) (hrows 1 1 1 1) (htranspose x y)
    (htranspose 1 1)

/-- Its features after `normalize`. -/
noncomputable def normalized (x y : ℝ) : Fin 1 → Fin 2 → ℝ := fun _ j =>
  rescale (mean 2 [x, y]) (stdev 2 [x, y]) ((![x, y] : Fin 2 → ℝ) j)

theorem rescale_injective (m s : ℝ) : Function.Injective (rescale m s) := by
  intro x y h
  unfold rescale at h
  split_ifs at h with hzero
  · exact sub_left_inj.mp h
  · have hs : s ≠ 0 := fun hs => hzero (by simpa using hs)
    exact sub_left_inj.mp ((div_left_inj' hs).mp h)

/-- The order of the samples matters. -/
theorem normalized_ne : normalized 0 1 ≠ normalized 1 0 := by
  intro h
  have hmean : mean 2 [(1 : ℝ), 0] = mean 2 [0, 1] := by norm_num [mean]
  have hstdev : stdev 2 [(1 : ℝ), 0] = stdev 2 [0, 1] := by
    norm_num [stdev, hmean, mean]
  have hentry : rescale (mean 2 [(0 : ℝ), 1]) (stdev 2 [0, 1]) 0
      = rescale (mean 2 [(1 : ℝ), 0]) (stdev 2 [1, 0]) 1 := congrFun (congrFun h 0) 0
  rw [hmean, hstdev] at hentry
  exact zero_ne_one (rescale_injective _ _ hentry)

/-- The request of the message starts its training. -/
theorem step_start_pair {server : Server ℝ} {i : ℕ} {thread : Thread ℝ} {x y : ℝ}
    (hthread : server.threads[i]? = some thread) (hrequest : thread.request = pairRequest x y)
    (hstage : thread.stage = .waiting) :
    ∃ nn, nn.layers = server.nn.layers ∧ nn.lossFunction = server.nn.lossFunction
      ∧ server.step (.start i 1) = some ({ server with nn }.setStage i thread (.forward
        [(Grid.ofFn (normalized x y), Grid.ofFn fun (_ : Fin 1) (_ : Fin 2) => (1 : ℝ))])) := by
  have hfeatures : thread.request.features = Grid.ofFn fun _ : Fin 1 => (![x, y] : Fin 2 → ℝ) := by
    rw [hrequest]
    rfl
  have htarget : thread.request.target = Grid.ofFn fun (_ : Fin 1) (_ : Fin 2) => (1 : ℝ) := by
    rw [hrequest]
    rfl
  have hbatch : miniBatchGenerator 1 thread.request.target (Grid.ofFn (normalized x y))
      thread.request.batchSize = .ok [(Grid.ofFn (normalized x y),
        Grid.ofFn fun (_ : Fin 1) (_ : Fin 2) => (1 : ℝ))] := by
    rw [htarget, hrequest]
    exact miniBatchGenerator_whole _ _ one_pos (show ((2 : ℕ) : ℤ) ≤ 2 by decide) 0
  have hnormalize : ∃ nn : NeuralNetwork ℝ, nn.layers = server.nn.layers
      ∧ nn.lossFunction = server.nn.lossFunction
      ∧ server.nn.normalizeTraining thread.request.features
        = .ok (Grid.ofFn (normalized x y), nn) := by
    rw [hfeatures]
    have hrun := normalizeTraining_ofFn server.nn (fun _ : Fin 1 => (![x, y] : Fin 2 → ℝ)) one_pos
    refine ⟨_, ?_, ?_, hrun⟩ <;> rfl
  obtain ⟨nn, hlayers, hloss, hnormalize⟩ := hnormalize
  have hepochs : thread.request.epochs.toNat = 1 := by
    rw [hrequest]
    rfl
  refine ⟨nn, hlayers, hloss, ?_⟩
  simp only [Server.step, Server.start, hthread, Option.bind_eq_bind, Option.bind_some, hstage,
    hnormalize, Except.toOption, hbatch, hepochs]
  rfl

/-- The targets of the messages. -/
def ones : Fin 1 → Fin 2 → ℝ := fun _ _ => 1

/-- **Two trainings, the first of which is half way**: its forward pass was
the last one through the network `N`. -/
structure FirstHalfWay (server : Server ℝ) (N : Network ℝ 1 1) : Prop where
  /-- The layers hold `N`. -/
  held : N.HeldBy server.nn.layers
  /-- The loss reads the labels `1`. -/
  lossFunction : server.nn.lossFunction = .sigmoidCrossEntropy
  /-- There is a layer. -/
  nonempty : server.nn.layers ≠ []
  /-- The first thread has been through the network and the second one has not. -/
  forward : ∃ (nn : NeuralNetwork ℝ) (rand : ℕ → ℝ) (P : Fin 1 → Fin 2 → ℝ) (rand' : ℕ → ℝ),
    nn.forwardPropagation rand (Grid.ofFn (normalized 0 1))
        = .ok (Grid.ofFn P, server.nn, rand')
      ∧ N.CachedBy server.nn.layers rand (normalized 0 1)
      ∧ server.threads = [⟨pairRequest 0 1, .backward (Grid.ofFn (normalized 0 1), Grid.ofFn ones)
          (Grid.ofFn P) server.nn.caches []⟩,
        ⟨pairRequest 1 0, .forward [(Grid.ofFn (normalized 1 0), Grid.ofFn ones)]⟩]

/-- A client has the server build one relu unit. -/
theorem exists_unit_network : ∃ (nn : NeuralNetwork ℝ) (N : Network ℝ 1 1) (parameters : _),
    compile (fun _ => Noise.zero) true 0 initialNetwork (unitBody "relu") = (nn, .ok parameters)
      ∧ N.HeldBy nn.layers ∧ nn.layers ≠ [] ∧ nn.lossFunction = .sigmoidCrossEntropy := by
  obtain ⟨nn, layer, parameters, hcompile, hlayers, hin, hout, hloss⟩ := exists_compiled_unit
  obtain ⟨n, hlinked⟩ := exists_linked (Run.single ⟨_, _, _, _, hcompile, fun e he => by cases he⟩ :
    Run CompileStep initialNetwork [unitBody "relu"] nn)
  obtain ⟨rfl, hne⟩ := linked_head hlinked (show layer ∈ nn.layers.head? by rw [hlayers]; rfl)
  obtain ⟨sizes, hsound⟩ := exists_sound hlinked hne fun l hl => by
    rw [hlayers] at hl
    obtain rfl := List.mem_singleton.mp hl
    omega
  have houtputs : outputs nn = 1 := by
    rw [outputs, hlayers]
    exact hout
  rw [hin, houtputs] at hsound
  obtain ⟨N, hN, -⟩ := hsound.network
  exact ⟨nn, N, parameters, hcompile, hN, hne, hloss⟩

/-- Two clients get there. -/
theorem exists_firstHalfWay : ∃ (server : Server ℝ) (N : Network ℝ 1 1),
    Run ApartStep (Server.init fun _ => 0) [.compile (fun _ => Noise.zero) true (unitBody "relu"),
      .message (pairMessage 0 1), .message (pairMessage 1 0), .start 0 1, .start 1 1,
      .forward 0] server ∧ FirstHalfWay server N := by
  obtain ⟨nn, N, parameters, hcompile, hN, hne, hloss⟩ := exists_unit_network
  let thread₀ : Thread ℝ := ⟨pairRequest 0 1, .waiting⟩
  let thread₁ : Thread ℝ := ⟨pairRequest 1 0, .waiting⟩
  let started (x y : ℝ) : Thread ℝ :=
    ⟨pairRequest x y, .forward [(Grid.ofFn (normalized x y), Grid.ofFn ones)]⟩
  let compiled (threads : List (Thread ℝ)) : Server ℝ :=
    ⟨nn, fun _ => 0, 0 + nn.layers.length, threads⟩
  have h₁ : (Server.init fun _ => 0).step (.compile (fun _ => Noise.zero) true (unitBody "relu"))
      = some (compiled []) := by
    simp only [Server.step, Server.compile, Server.init, hcompile]
    rfl
  have h₂ : (compiled []).step (.message (pairMessage 0 1)) = some (compiled [thread₀]) := by
    simp only [Server.step, Server.message, readTraining_pairMessage]
    rfl
  have h₃ : (compiled [thread₀]).step (.message (pairMessage 1 0))
      = some (compiled [thread₀, thread₁]) := by
    simp only [Server.step, Server.message, readTraining_pairMessage]
    rfl
  have hthread₀ : (compiled [thread₀, thread₁]).threads[0]? = some thread₀ := rfl
  obtain ⟨nn₄, hlayers₄, hloss₄, h₄⟩ := step_start_pair hthread₀ rfl rfl
  have hthread₁ : ({ compiled [started 0 1, thread₁] with nn := nn₄ } : Server ℝ).threads[1]?
      = some thread₁ := rfl
  obtain ⟨nn₅, hlayers₅, hloss₅, h₅⟩ := step_start_pair hthread₁ rfl rfl
  have hN₅ : N.HeldBy nn₅.layers := by
    rw [hlayers₅, hlayers₄]
    exact hN
  have hstarted : ({ compiled [started 0 1, started 1 0] with nn := nn₅ } : Server ℝ).threads[0]?
      = some (started 0 1) := rfl
  obtain ⟨server, h₆, hforward, hloss₆, hheld, hcached, hthreads⟩ :=
    exists_step_forward hstarted (normalized 0 1) ones rfl hN₅ one_pos one_pos
  refine ⟨server, N, .cons ⟨?_, h₁⟩ <| .cons ⟨trivial, h₂⟩ <| .cons ⟨trivial, h₃⟩ <|
    .cons ⟨trivial, h₄⟩ <| .cons ⟨trivial, h₅⟩ <| .cons ⟨?_, h₆⟩ <| .nil _, ?_⟩
  · exact fun _ thread hthread => absurd hthread List.not_mem_nil
  · rintro thread hthread ⟨_, _, _, _, hstage⟩
    rcases List.mem_cons.mp hthread with rfl | hthread
    · cases hstage
    · obtain rfl := List.mem_singleton.mp hthread
      cases hstage
  · refine ⟨hheld, hloss₆.trans (hloss₅.trans (hloss₄.trans hloss)), fun hnil => ?_,
      nn₅, _, N.forward (fun _ => 0) (normalized 0 1), _, hforward, hcached, hthreads⟩
    have hsizes := hheld.outputSizes.trans hN.outputSizes.symm
    rw [hnil] at hsizes
    exact hne (List.map_eq_nil_iff.mp hsizes.symm)

/-- The second training goes forward on its own mini-batch before the first
goes back. -/
theorem backward_mixed : ∃ server : Server ℝ,
    Run Moves (Server.init fun _ => 0) [.compile (fun _ => Noise.zero) true (unitBody "relu"),
      .message (pairMessage 0 1), .message (pairMessage 1 0), .start 0 1, .start 1 1,
      .forward 0, .forward 1] server
    ∧ (∃ server', server.step (.backward 0) = some server') ∧ ¬ server.ActsOnOwn := by
  obtain ⟨server, N, hrun, h⟩ := exists_firstHalfWay
  obtain ⟨nn₀, rand, P, rand', hforward₀, -, hthreads⟩ := h.forward
  have hthread₁ : server.threads[1]? = some ⟨pairRequest 1 0,
      .forward [(Grid.ofFn (normalized 1 0), Grid.ofFn ones)]⟩ := by
    rw [hthreads]
    rfl
  -- the second thread makes its forward pass before the first one's backward pass
  obtain ⟨server₂, hstep, hforward, hloss, hheld, hcached, hthreads₂⟩ :=
    exists_step_forward hthread₁ (normalized 1 0) ones rfl h.held one_pos one_pos
  have hne : server₂.nn.layers ≠ [] := by
    intro hnil
    have hsizes := hheld.outputSizes.trans h.held.outputSizes.symm
    rw [hnil] at hsizes
    exact h.nonempty (List.map_eq_nil_iff.mp hsizes.symm)
  have hmixed : server₂.nn.caches ≠ server.nn.caches :=
    forwardPropagation_caches_ne hforward₀ hforward hne fun heq =>
      normalized_ne (Grid.ofFn_injective heq)
  have hthread₀ : server₂.threads[0]? = some ⟨pairRequest 0 1,
      .backward (Grid.ofFn (normalized 0 1), Grid.ofFn ones) (Grid.ofFn P) server.nn.caches
        []⟩ := by
    rw [hthreads₂, hthreads]
    rfl
  have hfit : server₂.nn.lossFunction.Fits 1 ones := by
    rw [hloss, h.lossFunction]
    exact le_refl 1
  obtain ⟨server₃, hback⟩ :=
    exists_step_backward hthread₀ rfl hheld hcached one_pos one_pos two_pos hfit
  have hmoves := hrun.mono fun _ _ _ (hstep : ApartStep _ _ _) => hstep.2
  refine ⟨server₂, hmoves.append (.single hstep), ⟨server₃, hback⟩, fun hown => ?_⟩
  obtain ⟨thread, batch, predictions, todo, hthread, hstage⟩ := hown 0 server₃ hback
  obtain rfl := Option.some.inj (hthread₀.symm.trans hthread)
  injection hstage with _ _ hcaches _
  exact hmixed hcaches.symm

/-- The first training alone: its backward pass can be next. -/
theorem first_acts_on_own : ∃ server : Server ℝ,
    (∃ server', server.step (.backward 0) = some server') ∧ server.ActsOnOwn := by
  obtain ⟨server, N, hrun, h⟩ := exists_firstHalfWay
  obtain ⟨nn₀, rand, P, rand', -, hcached, hthreads⟩ := h.forward
  have hthread₀ : server.threads[0]? = some ⟨pairRequest 0 1,
      .backward (Grid.ofFn (normalized 0 1), Grid.ofFn ones) (Grid.ofFn P) server.nn.caches
        []⟩ := by
    rw [hthreads]
    rfl
  refine ⟨server, exists_step_backward hthread₀ rfl h.held hcached one_pos one_pos two_pos ?_,
    backward_acts_on_own_caches hrun⟩
  rw [h.lossFunction]
  exact le_refl 1

end SharedNetwork
