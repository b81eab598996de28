import Tracy.Wire

/-!
# The engine's context

`TracerContext` is the state of the engine thread (`lib.rs`). Its `Arc<AtomicBool>` fields
point to atomics that producer threads read; the model keeps their values in the context:
`clientConnected`, and `flags` for the cells that the tracepoint registry points to. A
connected `TcpStream` is modelled by what the agent's reads and writes on it will see. Four
history fields, `taken`, `sent`, `announced` and `udpExpiries`, record what the engine took
from the channel, what it handed to its sockets and how often the announce timer expired;
no code reads them.
-/

namespace Tracy

/-- An `Arc<AtomicBool>`, named by the order in which it was allocated. -/
abbrev Cell := Nat

/-- What a read finds once the bytes the peer has sent so far are consumed. -/
inductive ReadEnd
  /-- The peer may still send: the read fails with `ErrorKind::WouldBlock`. -/
  | wouldBlock
  /-- The peer closed its side: `read` returns `Ok(0)`, `read_exact` fails with
  `UnexpectedEof`. -/
  | eof
  /-- Any other error, such as a reset connection. -/
  | error
  deriving DecidableEq, Repr

/-- The outcome of one `write_all`. -/
inductive WriteResult
  | ok
  /-- The peer's window is full; `send_slices` treats this as success. -/
  | wouldBlock
  | error
  deriving DecidableEq, Repr

/-- A connected `TcpStream` as the agent sees it. -/
structure TcpStream where
  /-- The bytes the peer has sent and the agent has not read. -/
  rx : List UInt8
  /-- What a read past `rx` returns. -/
  rxEnd : ReadEnd
  /-- The outcomes of the next `write_all` calls; every later write succeeds. -/
  tx : List WriteResult
  deriving DecidableEq, Repr

/-- The `io::ErrorKind`s that the engine tells apart. -/
inductive ErrorKind
  | wouldBlock
  | unexpectedEof
  | other
  deriving DecidableEq, Repr

/-- The error of a read that finds no more bytes. -/
def ReadEnd.kind : ReadEnd → ErrorKind
  | .wouldBlock => .wouldBlock
  | .eof => .unexpectedEof
  | .error => .other

/-- `read_exact` through a `BufReader`: `n` bytes, or an error once every byte the peer sent
has been consumed (what a failed `read_exact` read is lost). -/
def TcpStream.readExact (s : TcpStream) (n : Nat) : Except ErrorKind (List UInt8) × TcpStream :=
  if n ≤ s.rx.length then (.ok (s.rx.take n), { s with rx := s.rx.drop n })
  else (.error s.rxEnd.kind, { s with rx := [] })

/-- `write_all`: the outcome of the next write. -/
def TcpStream.writeAll (s : TcpStream) : WriteResult × TcpStream :=
  match s.tx with
  | [] => (.ok, s)
  | r :: rest => (r, { s with tx := rest })

/-- `Tracepoint`: a registered name and its shared flag. -/
structure Tracepoint where
  name : List UInt8
  state : Cell
  deriving DecidableEq, Repr

/-- `ChannelMessage`, sent from producer threads to the engine. -/
inductive ChannelMessage
  | payload (e : BufferElement)
  | newTracepoint (t : Tracepoint)
  | terminate
  deriving DecidableEq, Repr

/-- `TracerState`, what `channel_handler` reports to the loop. -/
inductive TracerState
  | normal
  | terminate
  | dataProcessed
  deriving DecidableEq, Repr

/-- `InitData`, the part of it that the engine reads. -/
structure InitData where
  hostname : String
  processName : String
  /-- `announce_interval`, in milliseconds. -/
  announceInterval : Nat
  deriving DecidableEq, Repr

/-- `TracerContext`. The timer wheel is represented by the two pending timeouts, the
listener by its port. -/
structure TracerContext where
  appCfg : InitData
  buffer : List BufferElement
  /-- `buffer_occupancy`, a `usize`. -/
  bufferOccupancy : Nat
  /-- `rec`: the messages in the channel, oldest first. -/
  receiver : List ChannelMessage
  /-- `queue_timeout.is_some()`. -/
  queueTimeout : Bool
  /-- `udp_timeout.is_some()`. -/
  udpTimeout : Bool
  /-- `udp_sock.is_some()`. -/
  udpSock : Bool
  /-- The local port of `listener`. -/
  listenerPort : Nat
  connection : Option TcpStream
  /-- The value of the shared `client_connected`. -/
  clientConnected : Bool
  /-- The engine's registry `HashMap<String, Arc<AtomicBool>>`, as its entries. -/
  tracepoints : List (List UInt8 × Cell)
  /-- The values of the shared flags. -/
  flags : Cell → Bool
  /-- `sequence_no`, a `u64`. -/
  sequenceNo : Nat
  /-- History: every `Payload` element `channel_handler` took, in order. -/
  taken : List BufferElement
  /-- History: every byte string handed to `send_slices`, in order. -/
  sent : List (List UInt8)
  /-- History: every datagram handed to the UDP socket's `send_to`, in order. -/
  announced : List (List UInt8)
  /-- History: how many timeouts of the announce timer `timer.poll()` has returned. -/
  udpExpiries : Nat

/-- How the engine thread stops for good inside a handler. -/
inductive Halt
  /-- `Option::unwrap` on an absent `ctx.connection`: the thread panics. -/
  | panic
  /-- `send_trace_data` loops forever on an element that no frame can hold. -/
  | spin
  deriving DecidableEq, Repr

/-- Engine code either returns, or stops the thread in the state reached at that point
(what it wrote to shared atomics and sockets stays written). -/
abbrev Engine (α : Type) := Except (Halt × TracerContext) α

@[simp] theorem Engine.pure_eq {α : Type} (a : α) : (pure a : Engine α) = .ok a := rfl

@[simp] theorem Engine.throw_eq {α : Type} (e : Halt × TracerContext) :
    (throw e : Engine α) = .error e := rfl

@[simp] theorem Engine.ok_bind {α β : Type} (a : α) (f : α → Engine β) :
    ((Except.ok a : Engine α) >>= f) = f a := rfl

@[simp] theorem Engine.error_bind {α β : Type} (e : Halt × TracerContext) (f : α → Engine β) :
    ((Except.error e : Engine α) >>= f) = .error e := rfl

/-- What engine code `m` does: it returns satisfying `P`, or the thread panics in a context
satisfying `Q`, or it is caught in the endless loop of `send_trace_data` in a context
satisfying `S`. `S` says which halts a statement admits: `Ensures` admits both, and
`Terminates` rules the endless loop out. -/
def Engine.Holds {α : Type} (S : TracerContext → Prop) (m : Engine α) (P : α → Prop)
    (Q : TracerContext → Prop) : Prop :=
  match m with
  | .ok a => P a
  | .error (.panic, ctx) => Q ctx
  | .error (.spin, ctx) => S ctx

/-- `m` satisfies `P` if it returns and leaves a context satisfying `Q` if it halts. -/
abbrev Engine.Ensures {α : Type} (m : Engine α) (P : α → Prop) (Q : TracerContext → Prop) :
    Prop :=
  Engine.Holds Q m P Q

/-- `m` does not run forever: it returns satisfying `P`, or the thread panics in a context
satisfying `Q`. -/
abbrev Engine.Terminates {α : Type} (m : Engine α) (P : α → Prop) (Q : TracerContext → Prop) :
    Prop :=
  Engine.Holds (fun _ => False) m P Q

namespace Engine

variable {α β : Type} {S S' : TracerContext → Prop} {P P' : α → Prop}
  {Q Q' : TracerContext → Prop}

@[simp] theorem holds_ok (a : α) : Holds S (.ok a) P Q ↔ P a := Iff.rfl

theorem Holds.bind {m : Engine α} {f : α → Engine β} {R : β → Prop} (hm : Holds S m P Q)
    (hf : ∀ a, P a → Holds S (f a) R Q) : Holds S (m >>= f) R Q := by
  match m, hm with
  | .ok a, hm => exact hf a hm
  | .error (.panic, _), hm => exact hm
  | .error (.spin, _), hm => exact hm

theorem Holds.mono {m : Engine α} (hm : Holds S m P Q) (hP : ∀ a, P a → P' a)
    (hQ : ∀ ctx, Q ctx → Q' ctx) (hS : ∀ ctx, S ctx → S' ctx) : Holds S' m P' Q' := by
  match m, hm with
  | .ok a, hm => exact hP a hm
  | .error (.panic, ctx), hm => exact hQ ctx hm
  | .error (.spin, ctx), hm => exact hS ctx hm

/-- What holds on return, whatever happens on a halt, can be added. -/
theorem Holds.and_ensures {m : Engine α} (hm : Holds S m P Q) (hm' : Ensures m P' Q') :
    Holds S m (fun a => P a ∧ P' a) Q := by
  match m, hm, hm' with
  | .ok _, hm, hm' => exact ⟨hm, hm'⟩
  | .error (.panic, _), hm, _ => exact hm
  | .error (.spin, _), hm, _ => exact hm

theorem Ensures.mono {m : Engine α} (hm : Ensures m P Q) (hP : ∀ a, P a → P' a)
    (hQ : ∀ ctx, Q ctx → Q' ctx) : Ensures m P' Q' :=
  Holds.mono hm hP hQ hQ

theorem Ensures.and {m : Engine α} (hm : Ensures m P Q) (hm' : Ensures m P' Q') :
    Ensures m (fun a => P a ∧ P' a) (fun ctx => Q ctx ∧ Q' ctx) := by
  match m, hm, hm' with
  | .ok _, hm, hm' => exact ⟨hm, hm'⟩
  | .error (.panic, _), hm, hm' => exact ⟨hm, hm'⟩
  | .error (.spin, _), hm, hm' => exact ⟨hm, hm'⟩

/-- A halt, whichever it is, ends where `Ensures` says. -/
theorem Holds.of_error {h : Halt} {ctx : TracerContext} (hm : Holds Q (.error (h, ctx)) P Q) :
    Q ctx := by
  cases h <;> exact hm

theorem ensures_true (m : Engine α) : Ensures m (fun _ => True) (fun _ => True) := by
  match m with
  | .ok _ => trivial
  | .error (.panic, _) => trivial
  | .error (.spin, _) => trivial

theorem Terminates.mono {m : Engine α} (hm : Terminates m P Q) (hP : ∀ a, P a → P' a)
    (hQ : ∀ ctx, Q ctx → Q' ctx) : Terminates m P' Q' :=
  Holds.mono hm hP hQ fun _ h => h

/-- Code that does not run forever meets any demand on the endless loop. -/
theorem Terminates.holds {m : Engine α} (hm : Terminates m P Q) : Holds S m P Q :=
  Holds.mono hm (fun _ h => h) (fun _ h => h) fun _ h => h.elim

end Engine

/-- `flag.store(b)` on one cell. -/
def setFlag (flags : Cell → Bool) (c : Cell) (b : Bool) : Cell → Bool :=
  fun c' => if c' = c then b else flags c'

@[simp] theorem setFlag_apply (flags : Cell → Bool) (c c' : Cell) (b : Bool) :
    setFlag flags c b c' = if c' = c then b else flags c' := rfl

/-- `for value in tracepoints.values() { value.store(false) }`. -/
def storeAllFalse (entries : List (List UInt8 × Cell)) (flags : Cell → Bool) : Cell → Bool :=
  entries.foldl (fun f entry => setFlag f entry.2 false) flags

@[simp] theorem storeAllFalse_apply (entries : List (List UInt8 × Cell)) (flags : Cell → Bool)
    (c : Cell) :
    storeAllFalse entries flags c = if c ∈ entries.map Prod.snd then false else flags c := by
  induction entries generalizing flags with
  | nil => simp [storeAllFalse]
  | cons entry entries ih =>
    simp only [storeAllFalse, List.foldl_cons] at ih ⊢
    rw [ih]
    by_cases h : c = entry.2
    · simp [h]
    · simp [h, beq_eq_false_iff_ne.mpr h]

/-- `HashMap::contains_key`. -/
def hasKey (entries : List (List UInt8 × Cell)) (k : List UInt8) : Bool :=
  entries.any (·.1 == k)

/-- `HashMap::insert`: replace the value of a present key, or add the entry. A `HashMap` is
iterated in an order its hasher fixes, not in insertion order; the model keeps its entries in
insertion order. The one iteration whose order shows is the `TracepointListReply` of
`send_tracepoint_list`, and what is proved about a reply holds for the entries in any
order. -/
def insertKey (entries : List (List UInt8 × Cell)) (k : List UInt8) (v : Cell) :
    List (List UInt8 × Cell) :=
  if hasKey entries k then entries.map (fun e => if e.1 = k then (k, v) else e)
  else entries ++ [(k, v)]

namespace TracerContext

variable (ctx : TracerContext)

/-- `TracerContext::append`. -/
def append (element : BufferElement) : TracerContext :=
  { ctx with bufferOccupancy := (ctx.bufferOccupancy + element.len) % 2 ^ 64,
             buffer := ctx.buffer ++ [element] }

/-- `check_start_queue_timer`. -/
def checkStartQueueTimer : TracerContext :=
  if !ctx.queueTimeout then { ctx with queueTimeout := true } else ctx

/-- `check_stop_queue_timer`. -/
def checkStopQueueTimer : TracerContext := { ctx with queueTimeout := false }

/-- `check_start_udp_timer`. -/
def checkStartUdpTimer : TracerContext :=
  if !ctx.udpTimeout then { ctx with udpTimeout := true } else ctx

/-- `check_stop_udp_timer`. -/
def checkStopUdpTimer : TracerContext := { ctx with udpTimeout := false }

/-- `close_and_clean_connection`: clear `client_connected`, drop the connection (panicking
if there is none), stop the flush timer, force every registry flag to `false` and start
the announce timer. -/
def closeAndCleanConnection : Engine TracerContext :=
  let ctx := { ctx with clientConnected := false }
  match ctx.connection with
  | none => throw (.panic, ctx)
  | some _ =>
    let ctx := { ctx with connection := none }.checkStopQueueTimer
    let ctx := { ctx with flags := storeAllFalse ctx.tracepoints ctx.flags }
    pure ctx.checkStartUdpTimer

/-- `insert_tracepoint`. -/
def insertTracepoint (tracepoint : Tracepoint) : TracerContext :=
  { ctx with tracepoints := insertKey ctx.tracepoints tracepoint.name tracepoint.state }

@[simp] theorem checkStartQueueTimer_eq :
    ctx.checkStartQueueTimer = { ctx with queueTimeout := true } := by
  unfold checkStartQueueTimer; cases ctx; cases h : ‹Bool› <;> simp_all

end TracerContext

end Tracy
