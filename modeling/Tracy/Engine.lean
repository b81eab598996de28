import Tracy.Receive

/-!
# The engine's handlers

The reactor of `lib.rs`: `event_handler` dispatches one batch of readiness events to
`channel_handler`, `timer_handler`, `establish_connection` and `receive`. The timer wheel is
represented by the two pending timeouts of the context: a timer event carries the
identifiers that `timer.poll()` returns, and `poll` returns a timeout only while it is set.
-/

namespace Tracy

/-- `SERVER_VERSION`. -/
def serverVersion : String := "1.1.0"

/-- `PROTOCOLL_VERSION`. -/
def protocollVersion : String := "1.1.0"

/-- `QUEUE_TIMEOUT_IDENT`. -/
def queueTimeoutIdent : Nat := 42

/-- `UDP_TIMEOUT_IDENT`. -/
def udpTimeoutIdent : Nat := 9001

/-- `format_json`. The interval is `as_secs() + subsec_millis()` of the configured
duration, and the strings are inserted as they are. -/
def formatJson (ctx : TracerContext) : String :=
  let announceInterval := ctx.appCfg.announceInterval / 1000 + ctx.appCfg.announceInterval % 1000
  "\x7b \"sequence_nr\": " ++ toString ctx.sequenceNo ++
    ",\"server_version\": \"" ++ serverVersion ++
    "\", \"protocoll_version\": \"" ++ protocollVersion ++
    "\",\"update_interval_msecs\": " ++ toString announceInterval ++
    ",\"hostname\": \"" ++ ctx.appCfg.hostname ++
    "\", \"process_name\": \"" ++ ctx.appCfg.processName ++
    "\",\"port\": " ++ toString ctx.listenerPort ++ "\x7d"

/-- The datagram of `announce_tracer`: the magic number, then the JSON text. -/
def announceDatagram (ctx : TracerContext) : List UInt8 :=
  magicNumb ++ (formatJson ctx).toUTF8.toList

/-- `announce_tracer`: send `announceDatagram ctx` when there is a UDP socket, ignoring the
outcome, and count the announcement in the `u64` `sequence_no`. -/
def announceTracer (ctx : TracerContext) : TracerContext :=
  let ctx := if ctx.udpSock then { ctx with announced := ctx.announced ++ [announceDatagram ctx] }
    else ctx
  { ctx with sequenceNo := (ctx.sequenceNo + 1) % 2 ^ 64 }

/-- `establish_connection`, given what `listener.accept()` returned. -/
def establishConnection (accepted : Option TcpStream) (ctx : TracerContext) : TracerContext :=
  match accepted with
  | some socket => { ctx with connection := some socket, clientConnected := true }
  | none => ctx

/-- `channel_data_handler`: append the element, then flush at once if the occupancy counter
passed `QUEUE_TOTAL_SIZE`, or else make sure the flush timer is set. -/
def channelDataHandler (ctx : TracerContext) (data : BufferElement) : Engine TracerContext :=
  let ctx := ctx.append data
  if ctx.bufferOccupancy > queueTotalSize then sendTraceData ctx.checkStopQueueTimer
  else pure ctx.checkStartQueueTimer

/-- The `while let Ok(data) = ctx.rec.try_recv()` loop of `channel_handler`; `msgs` is
`ctx.receiver`. -/
def channelHandlerLoop :
    List ChannelMessage → TracerState → TracerContext → Engine (TracerContext × TracerState)
  | [], ret, ctx => pure (ctx, ret)
  | msg :: rest, _, ctx =>
    let ctx := { ctx with receiver := rest }
    match msg with
    | .payload payload => do
      let ctx ← channelDataHandler { ctx with taken := ctx.taken ++ [payload] } payload
      channelHandlerLoop rest .dataProcessed ctx
    | .newTracepoint tracepoint =>
      channelHandlerLoop rest .dataProcessed (ctx.insertTracepoint tracepoint)
    | .terminate => do
      let ctx ← if ctx.connection.isSome then sendTraceData ctx else pure ctx
      pure (ctx, .terminate)

/-- `channel_handler`. -/
def channelHandler (ctx : TracerContext) : Engine (TracerContext × TracerState) :=
  channelHandlerLoop ctx.receiver .normal ctx

/-- `timer_handler`; `expired` lists what `ctx.timer.poll()` returns, in order. A timeout
that is not set (never started, cancelled, or already returned) is not returned. Each
announce timeout returned is counted in the history field `udpExpiries`. -/
def timerHandler : List Nat → TracerContext → Engine TracerContext
  | [], ctx => pure ctx
  | timeout :: rest, ctx =>
    if timeout = queueTimeoutIdent ∧ ctx.queueTimeout then do
      let ctx ← sendTraceData { ctx with queueTimeout := false }
      timerHandler rest ctx
    else if timeout = udpTimeoutIdent ∧ ctx.udpTimeout then
      let ctx := announceTracer { ctx with udpTimeout := false, udpExpiries := ctx.udpExpiries + 1 }
      timerHandler rest ctx.checkStartUdpTimer
    else timerHandler rest ctx

/-- A readiness event, with what the handler will find: the timeouts `timer.poll()` returns,
or the result of `listener.accept()`. -/
inductive Event
  /-- `CHAN`. -/
  | chan
  /-- `TIMER`. -/
  | timer (expired : List Nat)
  /-- `CON_NEW`. -/
  | conNew (accepted : Option TcpStream)
  /-- `CON_DATA`. -/
  | conData
  deriving DecidableEq, Repr

/-- The `for event in events.iter()` loop of `event_handler`. -/
def eventHandlerLoop :
    List Event → TracerState → TracerContext → Engine (TracerContext × TracerState)
  | [], ret, ctx => pure (ctx, ret)
  | event :: rest, ret, ctx =>
    match event with
    | .chan => do
      let (ctx, state) ← channelHandler ctx
      match state with
      | .terminate => pure (ctx, .terminate)
      | state => eventHandlerLoop rest state ctx
    | .timer expired => do
      let ctx ← timerHandler expired ctx
      eventHandlerLoop rest ret ctx
    | .conNew accepted =>
      if ctx.connection.isNone then
        eventHandlerLoop rest ret (establishConnection accepted ctx).checkStopUdpTimer
      else eventHandlerLoop rest ret ctx
    | .conData => do
      let ctx ← receive ctx
      eventHandlerLoop rest ret ctx

/-- `event_handler`. -/
def eventHandler (events : List Event) (ctx : TracerContext) :
    Engine (TracerContext × TracerState) :=
  eventHandlerLoop events .normal ctx

/-- The context of `tracer_thread_main` before its loop: nothing buffered, no connection, an
empty registry; with announcing, the UDP socket (if it could be bound) and the announce
timer. -/
def tracerThreadMain (appCfg : InitData) (listenerPort : Nat) (announce udpBound : Bool) :
    TracerContext :=
  let ctx : TracerContext :=
    { appCfg := appCfg, buffer := [], bufferOccupancy := 0, receiver := [],
      queueTimeout := false, udpTimeout := false, udpSock := false,
      listenerPort := listenerPort, connection := none, clientConnected := false,
      tracepoints := [], flags := fun _ => false, sequenceNo := 0, taken := [], sent := [],
      announced := [], udpExpiries := 0 }
  if announce then { ctx with udpSock := udpBound }.checkStartUdpTimer else ctx

@[simp] theorem tracerThreadMain_eq (appCfg : InitData) (listenerPort : Nat)
    (announce udpBound : Bool) :
    tracerThreadMain appCfg listenerPort announce udpBound =
      { appCfg := appCfg, buffer := [], bufferOccupancy := 0, receiver := [],
        queueTimeout := false, udpTimeout := announce, udpSock := announce && udpBound,
        listenerPort := listenerPort, connection := none, clientConnected := false,
        tracepoints := [], flags := fun _ => false, sequenceNo := 0, taken := [], sent := [],
        announced := [], udpExpiries := 0 } := by
  unfold tracerThreadMain TracerContext.checkStartUdpTimer
  cases announce <;> rfl

end Tracy
