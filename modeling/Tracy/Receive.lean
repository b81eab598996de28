import Tracy.Send

/-!
# Receiving requests

The receive path of `tcp_handler.rs`. `receive` wraps a clone of the connection in a fresh
`BufReader` and reads frames until a read would block or fails: a header is checked by
`check_parse_header`, and `execute_command` answers a list request or applies the items of
an enable or disable request through `set_tracepoints`. The reader is a clone: it goes on
reading the socket after `close_and_clean_connection` has dropped `ctx.connection`.
-/

namespace Tracy

/-- `std::str::from_utf8(bytes).unwrap_or_default()`: bytes that are not UTF-8 give the
empty name. -/
def fromUtf8OrDefault (bytes : List UInt8) : List UInt8 :=
  if utf8Valid bytes then bytes else []

/-- `if let Some(val_ref) = ctx.tracepoints.get_mut(tp_name) { val_ref.store(state) }`. -/
def TracerContext.storeTracepoint (ctx : TracerContext) (tpName : List UInt8) (state : Bool) :
    TracerContext :=
  match ctx.tracepoints.lookup tpName with
  | some c => { ctx with flags := setFlag ctx.flags c state }
  | none => ctx

/-- The `while i < len` loop of `set_tracepoints`: items `u16 name_len | name` read from
`reader`, each name's flag set to `state`. `i` is a `u32`, and wraps as in a release build.
Each pass reads at least two bytes, so `fuel` beyond the unread bytes is never used up. -/
def setTracepointsLoop (len : Nat) (state : Bool) :
    Nat → Nat → TcpStream → TracerContext → Engine (TracerContext × TcpStream)
  | 0, _, reader, ctx => pure (ctx, reader)
  | fuel + 1, i, reader, ctx =>
    if i < len then
      match reader.readExact 2 with
      | (.error _, reader) => do return (← ctx.closeAndCleanConnection, reader)
      | (.ok nameLenArr, reader) =>
        let nameLen := beValue nameLenArr
        let i := (i + 2) % 2 ^ 32
        if nameLen > maxTracepointNameLen then do return (← ctx.closeAndCleanConnection, reader)
        else
          match reader.readExact nameLen with
          | (.error _, reader) => do return (← ctx.closeAndCleanConnection, reader)
          | (.ok tpNameArr, reader) =>
            let i := (i + nameLen) % 2 ^ 32
            let tpName := fromUtf8OrDefault tpNameArr
            setTracepointsLoop len state fuel i reader (ctx.storeTracepoint tpName state)
    else pure (ctx, reader)

/-- `set_tracepoints`. -/
def setTracepoints (ctx : TracerContext) (len : Nat) (reader : TcpStream) (state : Bool) :
    Engine (TracerContext × TcpStream) :=
  setTracepointsLoop len state (reader.rx.length + 1) 0 reader ctx

/-- `read_empty`: read the socket in 64-byte chunks until it reports its end or would block,
dropping the bytes; any other error closes the connection. -/
def readEmpty (reader : TcpStream) (ctx : TracerContext) : Engine (TracerContext × TcpStream) :=
  let reader := { reader with rx := [] }
  match reader.rxEnd with
  | .error => do return (← ctx.closeAndCleanConnection, reader)
  | _ => pure (ctx, reader)

/-- `execute_command`. -/
def executeCommand (ctx : TracerContext) (cmd : Command) (len : Nat) (reader : TcpStream) :
    Engine (TracerContext × TcpStream) :=
  match cmd with
  | .tracepointListRequest => do return (← sendTracepointList ctx, reader)
  | .tracepointEnableRequest => setTracepoints ctx len reader true
  | .tracepointDisableRequest => setTracepoints ctx len reader false
  | _ => pure (ctx, reader)

/-- The `loop` of `receive`. Each pass that goes on has read a 12-byte header, so `fuel`
beyond the unread bytes is never used up. -/
def receiveLoop : Nat → TcpStream → TracerContext → Engine (TracerContext × TcpStream)
  | 0, reader, ctx => pure (ctx, reader)
  | fuel + 1, reader, ctx =>
    match reader.readExact headerLen with
    | (.error e, reader) =>
      if e ≠ .wouldBlock then do return (← ctx.closeAndCleanConnection, reader)
      else pure (ctx, reader)
    | (.ok header, reader) =>
      match checkParseHeader header with
      | .error _ => do
        let ctx ← ctx.closeAndCleanConnection
        readEmpty reader ctx
      | .ok (cmd, len) => do
        let (ctx, reader) ← executeCommand ctx cmd len reader
        receiveLoop fuel reader ctx

/-- The connection after the reader consumed its bytes: both are the same socket. -/
def TracerContext.withReader (ctx : TracerContext) (reader : TcpStream) : TracerContext :=
  { ctx with connection := ctx.connection.map fun con => { con with rx := reader.rx } }

/-- `receive`: read requests from a clone of the connection (panicking if there is none). -/
def receive (ctx : TracerContext) : Engine TracerContext :=
  match ctx.connection with
  | none => throw (.panic, ctx)
  | some con => do
    let (ctx, reader) ← receiveLoop (con.rx.length + 1) con ctx
    pure (ctx.withReader reader)

end Tracy
