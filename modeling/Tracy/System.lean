import Tracy.Engine

/-!
# The agent as a system

The embedding API of `lib.rs` runs on producer threads and talks to the engine thread through
the channel and the shared atomics. A `World` holds both sides: the producer handle
`TracerNg`, the `tracy_submit` calls in progress, the engine's context, and whether the
engine thread still runs. One step is one access of a producer to shared memory, one
`event_handler` call on a batch of events, or the collector acting on its end of the
connection. `tracy_submit` makes three such accesses (the load of `client_connected`, the
load of its tracepoint's flag, and `send_to_tracer`), so the engine may run between them;
`tracy_register` writes only the handle before its send, which it owns (`&mut`). An
`event_handler` call is one step: producers see the atomics as they are between two calls.
Arguments reach the model as the `String` that `to_string_lossy` made of them.
-/

namespace Tracy

/-- `TracerNg`, the handle given to the application: its registry. Its channel sender writes
to the engine's `receiver`, its `client_connected` is the engine's. -/
structure TracerNg where
  tracepoints : List (List UInt8 × Cell)
  deriving DecidableEq, Repr

/-- `fix_tracepoint_str`: reject a name that is not ASCII, keep its first 32 bytes, and
lower-case it (`to_lowercase` of an ASCII string is its ASCII lower-casing). -/
def fixTracepointStr (tracepoint : List UInt8) : Except Unit (List UInt8) :=
  if !isAscii tracepoint then .error ()
  else
    let tracepoint := if tracepoint.length > maxTracepointNameLen then
      tracepoint.take maxTracepointNameLen else tracepoint
    .ok (tracepoint.map toAsciiLowercase)

/-- A name that `fix_tracepoint_str` accepts fits `MAX_TRACEPOINT_NAME_LEN`. -/
theorem fixTracepointStr_length {tracepoint fixed : List UInt8}
    (h : fixTracepointStr tracepoint = .ok fixed) : fixed.length ≤ maxTracepointNameLen := by
  unfold fixTracepointStr at h
  split at h
  · cases h
  · cases h
    simp only [List.length_map]
    split
    · simp
    · omega

/-- `tracepoint_enabled`: the flag of a registered name, `false` for an unknown one. -/
def tracepointEnabled (tracey : TracerNg) (flags : Cell → Bool) (tracepoint : List UInt8) :
    Bool :=
  match tracey.tracepoints.lookup tracepoint with
  | some truth => flags truth
  | none => false

/-- How far the engine thread got. -/
inductive Status
  /-- Between two `event_handler` calls. -/
  | running
  /-- `tracer_thread_main` returned after `Terminate`. -/
  | exited
  /-- The thread stopped inside a handler. -/
  | halted (h : Halt)
  deriving DecidableEq, Repr

/-- The engine's `Receiver` still exists: the thread runs, or spins inside a handler. It is
dropped when `tracer_thread_main` returns and when the thread unwinds from a panic. -/
def Status.receiverAlive : Status → Bool
  | .running | .halted .spin => true
  | .exited | .halted .panic => false

/-- A `tracy_submit` call between two of its accesses to shared memory, with the element it
built: the name as `fix_tracepoint_str` made it and data of `1..=MAX_SUBMIT_LEN` bytes. -/
structure Submit where
  element : BufferElement
  bounded : element.Bounded
  /-- `tracepoint_enabled` has returned `true`: only `send_to_tracer` is left. -/
  enabled : Bool

/-- The agent: the producer side, the engine side and the shared memory between them. -/
structure World where
  handle : TracerNg
  /-- The `tracy_submit` calls in progress, in the order they started. -/
  submits : List Submit
  ctx : TracerContext
  status : Status
  /-- The `announce` argument of `tracer_thread_main`. -/
  announce : Bool
  /-- The handle has not been released by `tracy_finit`. -/
  alive : Bool
  /-- The next `Arc<AtomicBool>` to allocate. -/
  nextCell : Cell

namespace World

variable (w : World)

/-- `send_to_tracer`: the send fails, and the message is lost, once the engine's receiver is
gone. -/
def sendToTracer (msg : ChannelMessage) : World :=
  if w.status.receiverAlive then
    { w with ctx := { w.ctx with receiver := w.ctx.receiver ++ [msg] } }
  else w

/-- `tracy_register`: allocate a fresh flag, and register the normalized name with it on both
sides unless it is already in the handle's registry. Returns `0` or `-1`. -/
def tracyRegister (tpName : List UInt8) : World × Int :=
  let tracepointState := w.nextCell
  let w := { w with nextCell := w.nextCell + 1,
                    ctx := { w.ctx with flags := setFlag w.ctx.flags tracepointState false } }
  match fixTracepointStr tpName with
  | .error _ => (w, -1)
  | .ok tpNameRepaired =>
    if !hasKey w.handle.tracepoints tpNameRepaired then
      let w := { w with handle := ⟨insertKey w.handle.tracepoints tpNameRepaired tracepointState⟩ }
      (w.sendToTracer (.newTracepoint ⟨tpNameRepaired, tracepointState⟩), 0)
    else (w, -1)

/-- `tracy_submit` up to its load of `client_connected`: it returns if the data length is out
of bounds, if no collector is connected, or if `fix_tracepoint_str` rejects the name, and
goes on otherwise, holding its element (`now` is what its `SystemTime::now()` returns). -/
def tracySubmit (tpName data : List UInt8) (now : SystemTime) : World :=
  if hlen : data.length = 0 ∨ data.length > maxSubmitLen then w
  else if !w.ctx.clientConnected then w
  else
    match hfix : fixTracepointStr tpName with
    | .error _ => w
    | .ok tracepointRepaired =>
      { w with submits := w.submits ++ [⟨⟨tracepointRepaired, now, data⟩,
        ⟨fixTracepointStr_length hfix, by dsimp only; omega, by dsimp only; omega⟩, false⟩] }

/-- The next access of the `i`-th `tracy_submit` in progress: `tracepoint_enabled`, after which
the call returns if the flag is clear, then `send_to_tracer` of its `Payload`, after which it
returns. -/
def resume (i : Nat) : World :=
  match w.submits[i]? with
  | none => w
  | some s =>
    if s.enabled then { w.sendToTracer (.payload s.element) with submits := w.submits.eraseIdx i }
    else if tracepointEnabled w.handle w.ctx.flags s.element.tracepoint then
      { w with submits := w.submits.set i { s with enabled := true } }
    else { w with submits := w.submits.eraseIdx i }

/-- `tracy_tracepoint_enabled`: a query of the shared flags, under the name as it was passed
(it is not normalized by `fix_tracepoint_str`). -/
def tracyTracepointEnabled (tpName : List UInt8) : Bool :=
  tracepointEnabled w.handle w.ctx.flags tpName

/-- `tracy_finit`: send `Terminate` and release the handle. -/
def tracyFinit : World :=
  { w.sendToTracer .terminate with alive := false }

/-- One turn of the loop of `tracer_thread_main`: `event_handler` on a batch of events. -/
def poll (events : List Event) : World :=
  if w.status ≠ .running then w
  else
    match eventHandler events w.ctx with
    | .ok (ctx, .terminate) => { w with ctx := ctx, status := .exited }
    | .ok (ctx, _) => { w with ctx := ctx }
    | .error (h, ctx) => { w with ctx := ctx, status := .halted h }

/-- The collector's end of the connection, while the engine holds one: it sends `bytes`,
later reads find `rxEnd`, and the agent's next writes have the outcomes `tx`. -/
def peer (bytes : List UInt8) (rxEnd : ReadEnd) (tx : List WriteResult) : World :=
  match w.status, w.ctx.connection with
  | .running, some con =>
    { w with ctx := { w.ctx with
        connection := some { con with rx := con.rx ++ bytes, rxEnd := rxEnd, tx := tx } } }
  | _, _ => w

@[simp] theorem sendToTracer_handle (msg : ChannelMessage) : (w.sendToTracer msg).handle = w.handle := by
  unfold sendToTracer; split <;> rfl

@[simp] theorem sendToTracer_status (msg : ChannelMessage) : (w.sendToTracer msg).status = w.status := by
  unfold sendToTracer; split <;> rfl

theorem sendToTracer_ctx (msg : ChannelMessage) :
    (w.sendToTracer msg).ctx =
      if w.status.receiverAlive then { w.ctx with receiver := w.ctx.receiver ++ [msg] }
      else w.ctx := by
  unfold sendToTracer; split <;> rfl

theorem sendToTracer_ctx_eq (msg : ChannelMessage) :
    ∃ receiver, (w.sendToTracer msg).ctx = { w.ctx with receiver := receiver } ∧
      ∀ m ∈ receiver, m ∈ w.ctx.receiver ∨ m = msg := by
  rw [sendToTracer_ctx]
  split
  · exact ⟨_, rfl, fun m hm => by simpa using hm⟩
  · exact ⟨_, rfl, fun m hm => .inl hm⟩

/-- `tracy_register` changes the engine's context only in the channel and the flags, and
sends no `Payload`. -/
theorem tracyRegister_ctx (tpName : List UInt8) :
    ∃ receiver flags, (w.tracyRegister tpName).1.ctx =
      { w.ctx with receiver := receiver, flags := flags } ∧
      (w.tracyRegister tpName).1.status = w.status ∧
      ∀ e, .payload e ∈ receiver → .payload e ∈ w.ctx.receiver := by
  unfold tracyRegister
  dsimp only
  split
  · exact ⟨_, _, rfl, rfl, fun _ h => h⟩
  · split
    · obtain ⟨receiver, h, hmem⟩ :=
        World.sendToTracer_ctx_eq _ (.newTracepoint ⟨‹_›, w.nextCell⟩)
      exact ⟨receiver, _, h, by simp, fun e he => (hmem _ he).resolve_right nofun⟩
    · exact ⟨_, _, rfl, rfl, fun _ h => h⟩

/-- The start of `tracy_submit` changes only the calls in progress: it adds one that has not
loaded its flag, whose name `fix_tracepoint_str` made, or none. -/
theorem tracySubmit_eq (tpName data : List UInt8) (now : SystemTime) :
    w.tracySubmit tpName data now = w ∨
    ∃ s : Submit, s.enabled = false ∧ fixTracepointStr tpName = .ok s.element.tracepoint ∧
      w.tracySubmit tpName data now = { w with submits := w.submits ++ [s] } := by
  unfold tracySubmit
  split
  · exact .inl rfl
  · split
    · exact .inl rfl
    · split
      · exact .inl rfl
      · rename_i hfix
        exact .inr ⟨_, rfl, hfix, rfl⟩

/-- What the next access of a call in progress does: nothing if there is no such call; send
its `Payload` and end it; or, after loading the flag, mark it enabled or end it. -/
theorem resume_cases (i : Nat) :
    (∃ submits, w.resume i = { w with submits := submits } ∧ ∀ s ∈ submits, s ∈ w.submits) ∨
    (∃ s, w.submits[i]? = some s ∧ s.enabled = true ∧
      w.resume i = { w.sendToTracer (.payload s.element) with submits := w.submits.eraseIdx i }) ∨
    (∃ s, w.submits[i]? = some s ∧ s.enabled = false ∧
      tracepointEnabled w.handle w.ctx.flags s.element.tracepoint = true ∧
      w.resume i = { w with submits := w.submits.set i { s with enabled := true } }) := by
  unfold resume
  split
  · exact .inl ⟨_, rfl, fun _ h => h⟩
  · rename_i s _
    split
    · exact .inr (.inl ⟨s, ‹_›, ‹_›, rfl⟩)
    · split
      · exact .inr (.inr ⟨s, ‹_›, by simpa using ‹¬s.enabled = true›, ‹_›, rfl⟩)
      · exact .inl ⟨_, rfl, fun _ h => List.mem_of_mem_eraseIdx h⟩

/-- What `event_handler` makes of the agent: nothing once the thread has stopped, and
otherwise its result, a stop, or an exit after `Terminate`. -/
theorem poll_cases (events : List Event) :
    (w.status ≠ .running ∧ w.poll events = w) ∨
    (w.status = .running ∧ ∃ ctx state, eventHandler events w.ctx = .ok (ctx, state) ∧
      w.poll events =
        { w with ctx := ctx, status := if state = .terminate then .exited else .running }) ∨
    (w.status = .running ∧ ∃ h ctx, eventHandler events w.ctx = .error (h, ctx) ∧
      w.poll events = { w with ctx := ctx, status := .halted h }) := by
  unfold poll
  by_cases hrun : w.status = .running
  · simp only [hrun, ne_eq, not_true_eq_false, false_and, true_and, false_or, ite_false]
    split
    · exact .inl ⟨_, _, ‹_›, by simp⟩
    · rename_i hne heq
      exact .inl ⟨_, _, heq, by rw [if_neg hne]⟩
    · exact .inr ⟨_, _, ‹_›, rfl⟩
  · exact .inl ⟨hrun, by simp [hrun]⟩

/-- What the collector can do: give the connection more bytes, a new end and new write
outcomes, while the engine runs and holds one. -/
theorem peer_cases (bytes : List UInt8) (rxEnd : ReadEnd) (tx : List WriteResult) :
    w.peer bytes rxEnd tx = w ∨
    ∃ con, w.status = .running ∧ w.ctx.connection = some con ∧
      w.peer bytes rxEnd tx = { w with ctx := { w.ctx with
        connection := some { con with rx := con.rx ++ bytes, rxEnd := rxEnd, tx := tx } } } := by
  unfold peer
  split
  · exact .inr ⟨_, ‹_›, ‹_›, rfl⟩
  · exact .inl rfl

end World

/-- A step of the agent. -/
inductive Action
  | register (name : List UInt8)
  /-- A producer thread calls `tracy_submit`. -/
  | submit (name data : List UInt8) (now : SystemTime)
  /-- The `i`-th `tracy_submit` in progress makes its next access. -/
  | resume (i : Nat)
  | finit
  | poll (events : List Event)
  | peer (bytes : List UInt8) (rxEnd : ReadEnd) (tx : List WriteResult)
  deriving DecidableEq, Repr

/-- The effect of one step. The API may only be called while the handle is alive, and
`tracy_finit`, which frees the handle, only once no `tracy_submit` is in progress. -/
def World.step (w : World) : Action → World
  | .register name => if w.alive then (w.tracyRegister name).1 else w
  | .submit name data now => if w.alive then w.tracySubmit name data now else w
  | .resume i => w.resume i
  | .finit => if w.alive && w.submits.isEmpty then w.tracyFinit else w
  | .poll events => w.poll events
  | .peer bytes rxEnd tx => w.peer bytes rxEnd tx

/-- Steps in order. -/
def World.run (w : World) (actions : List Action) : World :=
  actions.foldl World.step w

/-- The agent right after `tracy_init` spawned the engine thread. -/
def World.init (appCfg : InitData) (listenerPort : Nat) (announce udpBound : Bool) : World where
  handle := ⟨[]⟩
  submits := []
  ctx := tracerThreadMain appCfg listenerPort announce udpBound
  status := .running
  announce := announce
  alive := true
  nextCell := 0

/-- `tracy_init`, with each C string as `rawpt_to_str` makes it (`none` for a null pointer)
and the announce address as whether `rawpt_to_addr` could parse it. A null name or a flush
interval of `0` gives a null handle. The tracer announces when an interval, an interface and
an address are given; `udpBound` is whether `udp_beacon::init` then binds, and
`listenerPort` the port that `tcp_handler::init` bound. -/
def tracyInit (hostname processName : Option String) (bufferFlushInterval announceInterval : Nat)
    (announceIface : Option String) (announceAddr : Bool) (listenerPort : Nat) (udpBound : Bool) :
    Option World :=
  match hostname, processName with
  | some hostname, some processName =>
    if bufferFlushInterval = 0 then none
    else
      let announce := decide (announceInterval > 0) && announceIface.isSome && announceAddr
      some (World.init ⟨hostname, processName, announceInterval⟩ listenerPort announce udpBound)
  | _, _ => none

/-- The states the agent can reach. -/
inductive Reachable : World → Prop
  | init (appCfg : InitData) (listenerPort : Nat) (announce udpBound : Bool) :
      Reachable (World.init appCfg listenerPort announce udpBound)
  | step {w : World} (a : Action) : Reachable w → Reachable (w.step a)

/-- What a step can do: a producer's step changes the engine's context only in the channel,
with `Payload`s within the bounds of `tracy_submit`, and in the flags, and leaves the
thread's status; the rest is `event_handler` or the collector. -/
theorem World.step_cases (w : World) (a : Action) :
    (∃ receiver flags, (w.step a).ctx = { w.ctx with receiver := receiver, flags := flags } ∧
      (w.step a).status = w.status ∧
      ∀ e, .payload e ∈ receiver → .payload e ∈ w.ctx.receiver ∨ e.Bounded) ∨
    (∃ events, w.step a = w.poll events) ∨
    (∃ bytes rxEnd tx, w.step a = w.peer bytes rxEnd tx) := by
  cases a with
  | register name =>
    simp only [World.step]
    split
    · obtain ⟨receiver, flags, h, hst, hmem⟩ := w.tracyRegister_ctx name
      exact .inl ⟨receiver, flags, h, hst, fun e he => .inl (hmem e he)⟩
    · exact .inl ⟨_, _, rfl, rfl, fun _ h => .inl h⟩
  | submit name data now =>
    simp only [World.step]
    split
    · rcases w.tracySubmit_eq name data now with h | ⟨s, -, -, h⟩ <;> rw [h] <;>
        exact .inl ⟨_, _, rfl, rfl, fun _ h => .inl h⟩
    · exact .inl ⟨_, _, rfl, rfl, fun _ h => .inl h⟩
  | resume i =>
    rcases w.resume_cases i with ⟨submits, h, -⟩ | ⟨s, -, -, h⟩ | ⟨s, -, -, -, h⟩ <;>
      rw [World.step, h]
    · exact .inl ⟨_, _, rfl, rfl, fun _ h => .inl h⟩
    · obtain ⟨receiver, hctx, hmem⟩ := w.sendToTracer_ctx_eq (.payload s.element)
      exact .inl ⟨receiver, _, hctx, by simp, fun e he => (hmem _ he).imp id fun heq => by
        cases heq; exact s.bounded⟩
    · exact .inl ⟨_, _, rfl, rfl, fun _ h => .inl h⟩
  | finit =>
    simp only [World.step, World.tracyFinit]
    split
    · obtain ⟨receiver, h, hmem⟩ := w.sendToTracer_ctx_eq .terminate
      exact .inl ⟨receiver, _, h, by simp, fun e he => .inl ((hmem _ he).resolve_right nofun)⟩
    · exact .inl ⟨_, _, rfl, rfl, fun _ h => .inl h⟩
  | poll events => exact .inr (.inl ⟨events, rfl⟩)
  | peer bytes rxEnd tx => exact .inr (.inr ⟨bytes, rxEnd, tx, rfl⟩)

theorem Reachable.run {w : World} (h : Reachable w) (actions : List Action) :
    Reachable (w.run actions) := by
  induction actions generalizing w with
  | nil => exact h
  | cons a actions ih => exact ih (h.step a)

end Tracy
