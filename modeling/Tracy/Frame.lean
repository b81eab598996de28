import Tracy.System

/-!
# What the handlers keep

The invariants of the engine each concern a few fields of the context. Rather than follow
every handler once per invariant, this file says once what the handlers are made of: the
send path of teardowns, `TracePush` writes and moves of the buffer's head into the send
window (`SendKeeps`), the receive path of teardowns, list replies, flag stores and reads
(`ReceiveKeeps`), and `event_handler` of those two paths and a few updates of the context
(`EngineKeeps`). A property kept by the parts is kept by the handler, in the form of
`Engine.Holds S`: only the send path can end in the endless loop of `send_trace_data`, and
`S` says what is claimed of it. An instance with `S` the property itself keeps it whatever
the handler does (`Engine.Ensures`); one with `S` false also shows that the loop is never
reached (`Engine.Terminates`). Two instances are used throughout: every handler but
`channel_handler` keeps the channel, the registry, the taken elements and the occupancy
counter (`inputs`), and the receive path also keeps the buffer and the `TracePush` frames
sent (`Quiet`).
-/

namespace Tracy

namespace TracerContext

/-- The fields that only `channel_handler` writes. -/
def inputs (ctx : TracerContext) :
    List ChannelMessage × List (List UInt8 × Cell) × List BufferElement × Nat :=
  (ctx.receiver, ctx.tracepoints, ctx.taken, ctx.bufferOccupancy)

theorem receiver_eq_of_inputs {ctx ctx' : TracerContext} (h : ctx'.inputs = ctx.inputs) :
    ctx'.receiver = ctx.receiver :=
  congrArg Prod.fst h

theorem tracepoints_eq_of_inputs {ctx ctx' : TracerContext} (h : ctx'.inputs = ctx.inputs) :
    ctx'.tracepoints = ctx.tracepoints :=
  congrArg (·.2.1) h

theorem taken_eq_of_inputs {ctx ctx' : TracerContext} (h : ctx'.inputs = ctx.inputs) :
    ctx'.taken = ctx.taken :=
  congrArg (·.2.2.1) h

@[simp] theorem checkStartUdpTimer_eq (ctx : TracerContext) :
    ctx.checkStartUdpTimer = { ctx with udpTimeout := true } := by
  unfold checkStartUdpTimer; cases ctx; cases h : ‹Bool› <;> simp_all

/-- `close_and_clean_connection` with a connection. -/
theorem closeAndCleanConnection_of_some {ctx : TracerContext} {con : TcpStream}
    (hcon : ctx.connection = some con) :
    ctx.closeAndCleanConnection = .ok { ctx with
      clientConnected := false, connection := none, queueTimeout := false,
      flags := storeAllFalse ctx.tracepoints ctx.flags, udpTimeout := true } := by
  simp [closeAndCleanConnection, hcon, checkStopQueueTimer]

/-- `close_and_clean_connection` without a connection panics at the `unwrap`. -/
theorem closeAndCleanConnection_of_none {ctx : TracerContext} (hcon : ctx.connection = none) :
    ctx.closeAndCleanConnection = .error (.panic, { ctx with clientConnected := false }) := by
  simp [closeAndCleanConnection, hcon]

/-- What a teardown can do: drop the connection, or panic without one. -/
theorem closeAndCleanConnection_terminates {ctx : TracerContext} {P Q : TracerContext → Prop}
    (hsome : ∀ con, ctx.connection = some con → P { ctx with
      clientConnected := false, connection := none, queueTimeout := false,
      flags := storeAllFalse ctx.tracepoints ctx.flags, udpTimeout := true })
    (hnone : ctx.connection = none → Q { ctx with clientConnected := false }) :
    Engine.Terminates ctx.closeAndCleanConnection P Q := by
  cases hcon : ctx.connection with
  | none => rw [closeAndCleanConnection_of_none hcon]; exact hnone hcon
  | some con => rw [closeAndCleanConnection_of_some hcon]; exact hsome con hcon

end TracerContext

/-- What a write can do: append the frame to what was sent, with the connection's next
outcome, or panic without a connection. -/
theorem sendSlices_terminates {ctx : TracerContext} {que : List UInt8}
    {P : TracerContext × Bool → Prop} {Q : TracerContext → Prop}
    (hsome : ∀ con, ctx.connection = some con →
      P ({ ctx with connection := some con.writeAll.2, sent := ctx.sent ++ [que] },
        con.writeAll.1 == .error))
    (hnone : ctx.connection = none → Q ctx) :
    Engine.Terminates (sendSlices ctx que) P Q := by
  cases hcon : ctx.connection with
  | none => simpa [sendSlices, hcon] using hnone hcon
  | some con => rw [sendSlices_of_connection hcon]; exact hsome con hcon

/-- A write keeps the buffer. -/
theorem sendSlices_buffer (ctx : TracerContext) (que : List UInt8) :
    Engine.Ensures (sendSlices ctx que) (·.1.buffer = ctx.buffer) fun _ => True :=
  have h : Engine.Terminates (sendSlices ctx que) (·.1.buffer = ctx.buffer) fun _ => True :=
    sendSlices_terminates (fun _ _ => rfl) fun _ => trivial
  h.holds

/-! ### The send path -/

/-- The head of the buffer fits no send window, not even an empty one: `send_trace_data`
then sends frames without records until a write fails, or forever. -/
def FitsNoWindow (buffer : List BufferElement) : Prop :=
  ∃ front rest, buffer = front :: rest ∧ queueTotalSize ≤ front.len + headerLen

/-- A property of the context and of the elements in the send window that a teardown, the
write of the window (one that holds a record, or an empty one when the buffer's head fits no
window) and the move of the buffer's head into the window keep. A panic ends in `J`; the
endless loop, reached only when the head fits no window, in `S`. -/
structure SendKeeps (I : List BufferElement → TracerContext → Prop) (J S : TracerContext → Prop) :
    Prop where
  close : ∀ c, I [] c → Engine.Terminates c.closeAndCleanConnection (I []) J
  push : ∀ c pending, pending ≠ [] ∨ FitsNoWindow c.buffer → I pending c →
    Engine.Terminates (sendSlices c (frame .tracePush (pending.flatMap recordBytes))) (I [] ·.1) J
  pop : ∀ c pending front rest, I pending c → c.buffer = front :: rest →
    front.len + (pending.flatMap recordBytes).length + headerLen < queueTotalSize →
    I (pending ++ [front]) { c with buffer := rest }
  spin : ∀ c, I [] c → FitsNoWindow c.buffer → S c

/-- A property of the context alone that a teardown, every `TracePush` write and dropping the
buffer's head keep is kept by the send path, the endless loop included. -/
theorem SendKeeps.plain {I : TracerContext → Prop}
    (close : ∀ c, I c → Engine.Terminates c.closeAndCleanConnection I I)
    (push : ∀ c body, I c → Engine.Terminates (sendSlices c (frame .tracePush body)) (I ·.1) I)
    (pop : ∀ c rest, I c → I { c with buffer := rest }) : SendKeeps (fun _ => I) I I :=
  ⟨close, fun c _ _ hI => push c _ hI, fun c _ _ rest hI _ _ => pop c rest hI, fun _ hI _ => hI⟩

namespace SendKeeps

variable {I : List BufferElement → TracerContext → Prop} {J S : TracerContext → Prop}
  (h : SendKeeps I J S)
include h

/-- A write of the window, with the buffer it keeps. -/
theorem push_buffer {c : TracerContext} {pending : List BufferElement}
    (hpush : pending ≠ [] ∨ FitsNoWindow c.buffer) (hI : I pending c) :
    Engine.Terminates (sendSlices c (frame .tracePush (pending.flatMap recordBytes)))
      (fun r => I [] r.1 ∧ r.1.buffer = c.buffer) J :=
  (h.push c pending hpush hI).and_ensures (sendSlices_buffer _ _)

/-- The endless loop: frames without records, until a write fails. -/
theorem sendEmptyFrames : ∀ (script : List WriteResult) (ctx : TracerContext), I [] ctx →
    FitsNoWindow ctx.buffer → Engine.Holds S (Tracy.sendEmptyFrames script ctx) (I []) J
  | [], ctx, hI, hwide => by
    simp only [Tracy.sendEmptyFrames, pushFrontHeader_eq]
    exact (h.push_buffer (.inr hwide) hI).holds.bind fun _ h' => h.spin _ h'.1 (h'.2 ▸ hwide)
  | _ :: script, ctx, hI, hwide => by
    simp only [Tracy.sendEmptyFrames, pushFrontHeader_eq]
    refine (h.push_buffer (.inr hwide) hI).holds.bind fun ⟨ctx', isErr⟩ h' => ?_
    cases isErr
    · exact sendEmptyFrames script ctx' h'.1 (h'.2 ▸ hwide)
    · exact (h.close ctx' h'.1).holds

/-- The loop of `send_trace_data`, with the window `que` holding the records of `pending`. -/
theorem sendTraceDataLoop : ∀ (es : List BufferElement) (que : List UInt8) (last : Bool)
    (pending : List BufferElement) (ctx : TracerContext), ctx.buffer = es →
    que = pending.flatMap recordBytes → (last = true ↔ pending = []) → I pending ctx →
    Engine.Holds S (Tracy.sendTraceDataLoop es que last ctx) (I []) J
  | [], que, last, pending, ctx, _, hque, hlast, hI => by
    simp only [Tracy.sendTraceDataLoop, pushFrontHeader_eq]
    split
    · rename_i hl
      subst hque
      refine (h.push ctx pending (.inl fun hnil => by simp [hlast.mpr hnil] at hl) hI).holds.bind
        fun ⟨ctx', isErr⟩ h' => ?_
      cases isErr
      · exact h'
      · exact (h.close ctx' h').holds
    · rename_i hl
      obtain rfl : pending = [] := hlast.mp (by simpa using hl)
      exact hI
  | front :: rest, que, last, pending, ctx, hbuf, hque, _, hI => by
    have happend : ∀ pending : List BufferElement,
        encodeAppendTraceData (pending.flatMap recordBytes) front =
          (pending ++ [front]).flatMap recordBytes := by
      simp [encodeAppendTraceData_eq]
    simp only [Tracy.sendTraceDataLoop, pushFrontHeader_eq]
    split
    · rename_i hguard
      subst hque
      rw [happend]
      exact sendTraceDataLoop rest _ false _ _ rfl rfl (by simp)
        (h.pop ctx pending front rest hI hbuf hguard)
    · rename_i hfull
      subst hque
      have hpush : pending ≠ [] ∨ FitsNoWindow ctx.buffer := by
        rcases eq_or_ne pending [] with rfl | hne
        · exact .inr ⟨front, rest, hbuf, by simpa using Nat.le_of_not_lt hfull⟩
        · exact .inl hne
      refine (h.push_buffer hpush hI).holds.bind fun ⟨ctx', isErr⟩ h' => ?_
      cases isErr
      · simp only [Bool.false_eq_true, if_false, List.length_nil, Nat.add_zero]
        split
        · rename_i hfront
          rw [← List.flatMap_nil recordBytes, happend]
          exact sendTraceDataLoop rest _ false _ _ rfl rfl (by simp)
            (h.pop ctx' [] front rest h'.1 (h'.2.trans hbuf) (by simpa using hfront))
        · rename_i hwide
          exact h.sendEmptyFrames _ ctx' h'.1 ⟨front, rest, h'.2.trans hbuf, by omega⟩
      · exact (h.close ctx' h'.1).holds

/-- `send_trace_data` keeps what its parts keep. -/
theorem sendTraceData {ctx : TracerContext} (hI : I [] ctx) :
    Engine.Holds S (Tracy.sendTraceData ctx) (I []) J :=
  h.sendTraceDataLoop _ _ _ [] ctx rfl rfl (by simp) hI

end SendKeeps

/-! ### The receive path -/

/-- A property that a teardown, the list reply of the registry, a flag store and the reader's
progress keep; a panic ends in `J`. -/
structure ReceiveKeeps (I J : TracerContext → Prop) : Prop where
  close : ∀ c, I c → Engine.Terminates c.closeAndCleanConnection I J
  reply : ∀ c, I c → Engine.Terminates
    (sendSlices c (frame .tracepointListReply (tracepointListBody c.tracepoints))) (I ·.1) J
  store : ∀ c name state, I c → I (c.storeTracepoint name state)
  reader : ∀ c reader, I c → I (c.withReader reader)

namespace ReceiveKeeps

variable {I J : TracerContext → Prop} (h : ReceiveKeeps I J)
include h

theorem sendTracepointList {ctx : TracerContext} (hI : I ctx) :
    Engine.Terminates (Tracy.sendTracepointList ctx) I J := by
  simp only [Tracy.sendTracepointList, pushFrontHeader_eq]
  refine (h.reply ctx hI).bind fun ⟨ctx', isErr⟩ h' => ?_
  cases isErr
  · exact h'
  · exact h.close ctx' h'

/-- A teardown on the receive path, followed by returning the reader. -/
theorem closeThenReader {ctx : TracerContext} (reader : TcpStream) (hI : I ctx) :
    Engine.Terminates (do return (← ctx.closeAndCleanConnection, reader)) (I ·.1) J :=
  (h.close ctx hI).bind fun _ h' => h'

theorem setTracepointsLoop (len : Nat) (state : Bool) :
    ∀ (fuel i : Nat) (reader : TcpStream) (ctx : TracerContext), I ctx →
      Engine.Terminates (Tracy.setTracepointsLoop len state fuel i reader ctx) (I ·.1) J
  | 0, _, _, _, hI => hI
  | fuel + 1, i, reader, ctx, hI => by
    unfold Tracy.setTracepointsLoop
    split
    · split
      · exact h.closeThenReader _ hI
      · dsimp only
        split
        · exact h.closeThenReader _ hI
        · split
          · exact h.closeThenReader _ hI
          · exact setTracepointsLoop len state fuel _ _ _ (h.store ctx _ state hI)
    · exact hI

theorem readEmpty (reader : TcpStream) {ctx : TracerContext} (hI : I ctx) :
    Engine.Terminates (Tracy.readEmpty reader ctx) (I ·.1) J := by
  unfold Tracy.readEmpty
  dsimp only
  split
  · exact h.closeThenReader _ hI
  · exact hI

theorem executeCommand (cmd : Command) (len : Nat) (reader : TcpStream) {ctx : TracerContext}
    (hI : I ctx) : Engine.Terminates (Tracy.executeCommand ctx cmd len reader) (I ·.1) J := by
  unfold Tracy.executeCommand Tracy.setTracepoints
  split
  · exact (h.sendTracepointList hI).bind fun _ h' => h'
  · exact h.setTracepointsLoop len true _ _ reader ctx hI
  · exact h.setTracepointsLoop len false _ _ reader ctx hI
  · exact hI

theorem receiveLoop : ∀ (fuel : Nat) (reader : TcpStream) (ctx : TracerContext), I ctx →
    Engine.Terminates (Tracy.receiveLoop fuel reader ctx) (I ·.1) J
  | 0, _, _, hI => hI
  | fuel + 1, reader, ctx, hI => by
    unfold Tracy.receiveLoop
    split
    · split
      · exact h.closeThenReader _ hI
      · exact hI
    · split
      · exact (h.close ctx hI).bind fun ctx' h' => h.readEmpty _ h'
      · exact (h.executeCommand _ _ _ hI).bind fun ⟨ctx', reader'⟩ h' =>
          receiveLoop fuel reader' ctx' h'

/-- `receive` keeps what its parts keep, and ends; without a connection it panics at once. -/
theorem receive {ctx : TracerContext} (hI : I ctx) (hJ : J ctx) :
    Engine.Terminates (Tracy.receive ctx) I J := by
  unfold Tracy.receive
  split
  · exact hJ
  · exact (h.receiveLoop _ _ ctx hI).bind fun ⟨ctx', reader⟩ h' => h.reader ctx' reader h'

end ReceiveKeeps

/-! ### What the handlers leave alone -/

/-- `ctx'` keeps the inputs, the buffer and the `TracePush` frames sent of `ctx`. -/
def Quiet (ctx ctx' : TracerContext) : Prop :=
  ctx'.inputs = ctx.inputs ∧ ctx'.buffer = ctx.buffer ∧ pushBodies ctx'.sent = pushBodies ctx.sent

@[refl] theorem Quiet.refl (ctx : TracerContext) : Quiet ctx ctx := ⟨rfl, rfl, rfl⟩

theorem Quiet.trans {a b c : TracerContext} (hab : Quiet a b) (hbc : Quiet b c) : Quiet a c :=
  ⟨hbc.1.trans hab.1, hbc.2.1.trans hab.2.1, hbc.2.2.trans hab.2.2⟩

theorem closeAndCleanConnection_quiet (ctx : TracerContext) :
    Engine.Terminates ctx.closeAndCleanConnection (Quiet ctx) (Quiet ctx) :=
  TracerContext.closeAndCleanConnection_terminates (fun _ _ => ⟨rfl, rfl, rfl⟩)
    fun _ => ⟨rfl, rfl, rfl⟩

/-- The receive path keeps the inputs, the buffer and the `TracePush` frames sent. -/
theorem quiet_receiveKeeps (ctx : TracerContext) : ReceiveKeeps (Quiet ctx) (Quiet ctx) where
  close _ hc := (closeAndCleanConnection_quiet _).mono (fun _ => hc.trans) (fun _ => hc.trans)
  reply _ hc := sendSlices_terminates (fun _ _ => hc.trans ⟨rfl, rfl, by simp⟩) fun _ => hc
  store c name state hc := by
    unfold TracerContext.storeTracepoint
    split <;> exact hc
  reader _ _ hc := hc

/-- `receive` changes no input, no buffer, and sends no `TracePush` frame. -/
theorem receive_quiet (ctx : TracerContext) :
    Engine.Terminates (receive ctx) (Quiet ctx) (Quiet ctx) :=
  (quiet_receiveKeeps ctx).receive (Quiet.refl ctx) (Quiet.refl ctx)

theorem announceTracer_quiet (ctx : TracerContext) : Quiet ctx (announceTracer ctx) := by
  unfold announceTracer
  split <;> exact ⟨rfl, rfl, rfl⟩

theorem establishConnection_quiet (accepted : Option TcpStream) (ctx : TracerContext) :
    Quiet ctx (establishConnection accepted ctx) := by
  unfold establishConnection
  split <;> exact ⟨rfl, rfl, rfl⟩

/-- The send path keeps the inputs. -/
theorem inputs_sendKeeps (ctx : TracerContext) :
    SendKeeps (fun _ c => c.inputs = ctx.inputs) (·.inputs = ctx.inputs) (·.inputs = ctx.inputs) :=
  .plain (fun _ hc => TracerContext.closeAndCleanConnection_terminates (fun _ _ => hc) fun _ => hc)
    (fun _ _ hc => sendSlices_terminates (fun _ _ => hc) fun _ => hc) fun _ _ hc => hc

/-- `send_trace_data` changes no input. -/
theorem sendTraceData_inputs (ctx : TracerContext) :
    Engine.Ensures (sendTraceData ctx) (·.inputs = ctx.inputs) (·.inputs = ctx.inputs) :=
  (inputs_sendKeeps ctx).sendTraceData rfl

/-! ### `event_handler` -/

section Engine

variable {I J S : TracerContext → Prop}

/-- `timer_handler` keeps a property that taking an expired timeout, flush or announcement,
keeps, and that a flush with the flush timer taken keeps. -/
theorem timerHandler_keeps
    (hflush : ∀ c, I c → c.queueTimeout = false → Engine.Holds S (sendTraceData c) I J)
    (hqueue : ∀ c, I c → c.queueTimeout = true → I { c with queueTimeout := false })
    (hudp : ∀ c, I c → c.udpTimeout = true →
      I (announceTracer
        { c with udpTimeout := false, udpExpiries := c.udpExpiries + 1 }).checkStartUdpTimer) :
    ∀ (expired : List Nat) (ctx : TracerContext), I ctx →
      Engine.Holds S (timerHandler expired ctx) I J
  | [], _, hI => hI
  | timeout :: rest, ctx, hI => by
    unfold timerHandler
    split
    · rename_i hq
      exact (hflush _ (hqueue ctx hI hq.2) rfl).bind fun ctx' h' =>
        timerHandler_keeps hflush hqueue hudp rest ctx' h'
    · split
      · rename_i hu
        exact timerHandler_keeps hflush hqueue hudp rest _ (hudp ctx hI hu.2)
      · exact timerHandler_keeps hflush hqueue hudp rest ctx hI

/-- A property of the context that every part of `event_handler` keeps; a handler that panics
ends in `J`, one caught in the endless loop of `send_trace_data` in `S`. -/
structure EngineKeeps (I J S : TracerContext → Prop) : Prop where
  flush : ∀ c, I c → Engine.Holds S (sendTraceData c) I J
  receive : ∀ c, I c → Engine.Terminates (receive c) I J
  take : ∀ c e rest, I c → c.receiver = .payload e :: rest →
    I ({ c with receiver := rest, taken := c.taken ++ [e] }.append e)
  register : ∀ c t rest, I c → c.receiver = .newTracepoint t :: rest →
    I ({ c with receiver := rest }.insertTracepoint t)
  drop : ∀ c rest, I c → c.receiver = .terminate :: rest → I { c with receiver := rest }
  queueStart : ∀ c, I c → I c.checkStartQueueTimer
  queueStop : ∀ c, I c → I c.checkStopQueueTimer
  queueFire : ∀ c, I c → c.queueTimeout = true → I { c with queueTimeout := false }
  udpFire : ∀ c, I c → c.udpTimeout = true →
    I (announceTracer
      { c with udpTimeout := false, udpExpiries := c.udpExpiries + 1 }).checkStartUdpTimer
  accept : ∀ c accepted, I c → c.connection = none →
    I (establishConnection accepted c).checkStopUdpTimer

namespace EngineKeeps

variable (h : EngineKeeps I J S)
include h

theorem channelHandlerLoop : ∀ (msgs : List ChannelMessage) (ret : TracerState)
    (ctx : TracerContext), ctx.receiver = msgs → I ctx →
    Engine.Holds S (Tracy.channelHandlerLoop msgs ret ctx) (I ·.1) J
  | [], _, _, _, hI => hI
  | msg :: rest, _, ctx, hrec, hI => by
    unfold Tracy.channelHandlerLoop
    cases msg with
    | payload p =>
      have htake := h.take ctx p rest hI hrec
      unfold channelDataHandler
      dsimp only
      split
      · exact ((h.flush _ (h.queueStop _ htake)).and_ensures (sendTraceData_inputs _)).bind
          fun ctx' h' => channelHandlerLoop rest _ ctx' (congrArg Prod.fst h'.2) h'.1
      · exact channelHandlerLoop rest _ _ (by simp [TracerContext.append])
          (h.queueStart _ htake)
    | newTracepoint t => exact channelHandlerLoop rest _ _ rfl (h.register ctx t rest hI hrec)
    | terminate =>
      have hdrop := h.drop ctx rest hI hrec
      dsimp only
      split
      · exact (h.flush _ hdrop).bind fun _ h' => h'
      · exact hdrop

theorem eventHandlerLoop : ∀ (events : List Event) (ret : TracerState) (ctx : TracerContext),
    I ctx → Engine.Holds S (Tracy.eventHandlerLoop events ret ctx) (I ·.1) J
  | [], _, _, hI => hI
  | event :: rest, ret, ctx, hI => by
    unfold Tracy.eventHandlerLoop
    cases event with
    | chan =>
      refine (h.channelHandlerLoop ctx.receiver .normal ctx rfl hI).bind
        fun ⟨ctx', state⟩ h' => ?_
      cases state with
      | terminate => exact h'
      | normal => exact eventHandlerLoop rest _ ctx' h'
      | dataProcessed => exact eventHandlerLoop rest _ ctx' h'
    | timer expired =>
      exact (timerHandler_keeps (fun c hc _ => h.flush c hc) h.queueFire h.udpFire expired ctx
        hI).bind fun ctx' h' => eventHandlerLoop rest ret ctx' h'
    | conNew accepted =>
      dsimp only
      split
      · rename_i hnone
        exact eventHandlerLoop rest ret _ (h.accept ctx accepted hI (by simpa using hnone))
      · exact eventHandlerLoop rest ret ctx hI
    | conData =>
      exact (h.receive ctx hI).holds.bind fun ctx' h' => eventHandlerLoop rest ret ctx' h'

/-- `event_handler` keeps what its parts keep. -/
theorem eventHandler (events : List Event) {ctx : TracerContext} (hI : I ctx) :
    Engine.Holds S (Tracy.eventHandler events ctx) (I ·.1) J :=
  h.eventHandlerLoop events .normal ctx hI

end EngineKeeps

end Engine


/-! ### Over runs -/

/-- A property of the engine's context that every part of `event_handler` keeps, and that
the producers' steps (which touch only the channel and the flags) and the collector (which
touches only the connection's socket) keep, is kept by every step. -/
theorem World.step_ctx_of_keeps {I : TracerContext → Prop} (hengine : EngineKeeps I I I)
    (hapi : ∀ c receiver flags, I c → I { c with receiver := receiver, flags := flags })
    (hpeer : ∀ c con bytes rxEnd tx, I c → c.connection = some con →
      I { c with connection := some { con with rx := con.rx ++ bytes, rxEnd := rxEnd, tx := tx } })
    {w : World} (hI : I w.ctx) (a : Action) : I (w.step a).ctx := by
  rcases w.step_cases a with ⟨receiver, flags, hctx, -, -⟩ | ⟨events, heq⟩ |
    ⟨bytes, rxEnd, tx, heq⟩
  · rw [hctx]
    exact hapi _ _ _ hI
  · have hE := hengine.eventHandler events hI
    rw [heq]
    rcases w.poll_cases events with ⟨-, hpoll⟩ | ⟨-, ctx, state, hres, hpoll⟩ |
      ⟨-, h, ctx, hres, hpoll⟩ <;> rw [hpoll]
    · exact hI
    · rw [hres] at hE; exact hE
    · rw [hres] at hE; cases h <;> exact hE
  · rw [heq]
    rcases w.peer_cases bytes rxEnd tx with hpeer' | ⟨con, -, hcon, hpeer'⟩ <;> rw [hpeer']
    · exact hI
    · exact hpeer _ _ _ _ _ hI hcon

/-- The same property holds at every point of every run from a context that has it. -/
theorem World.run_ctx_of_keeps {I : TracerContext → Prop} (hengine : EngineKeeps I I I)
    (hapi : ∀ c receiver flags, I c → I { c with receiver := receiver, flags := flags })
    (hpeer : ∀ c con bytes rxEnd tx, I c → c.connection = some con →
      I { c with connection := some { con with rx := con.rx ++ bytes, rxEnd := rxEnd, tx := tx } })
    (actions : List Action) : ∀ {w : World}, I w.ctx → I (w.run actions).ctx := by
  induction actions with
  | nil => exact id
  | cons a actions ih => exact fun hI => ih (World.step_ctx_of_keeps hengine hapi hpeer hI a)

/-- A property of the engine's context that holds at its start, that every part of
`event_handler` keeps, and that the producers' steps (which touch only the channel and the
flags) and the collector (which touches only the connection's socket) keep, holds at every
point of every run. -/
theorem Reachable.ctx_of_keeps {I : TracerContext → Prop}
    (hinit : ∀ appCfg listenerPort announce udpBound,
      I (tracerThreadMain appCfg listenerPort announce udpBound))
    (hengine : EngineKeeps I I I)
    (hapi : ∀ c receiver flags, I c → I { c with receiver := receiver, flags := flags })
    (hpeer : ∀ c con bytes rxEnd tx, I c → c.connection = some con →
      I { c with connection := some { con with rx := con.rx ++ bytes, rxEnd := rxEnd, tx := tx } })
    {w : World} (hw : Reachable w) : I w.ctx := by
  induction hw with
  | init => exact hinit _ _ _ _
  | step a _ ih => exact World.step_ctx_of_keeps hengine hapi hpeer ih a

/-- A property of the engine's context that holds at its start, that `event_handler` keeps
unless it returns after `Terminate`, and that the producers' steps and the collector keep,
holds at every point of every run at which the engine runs. -/
theorem Reachable.running_of_keeps {I : TracerContext → Prop}
    (hinit : ∀ appCfg listenerPort announce udpBound,
      I (tracerThreadMain appCfg listenerPort announce udpBound))
    (hengine : ∀ events ctx, I ctx → Engine.Ensures (eventHandler events ctx)
      (fun r => r.2 ≠ .terminate → I r.1) fun _ => True)
    (hapi : ∀ c receiver flags, I c → I { c with receiver := receiver, flags := flags })
    (hpeer : ∀ c con bytes rxEnd tx, I c → c.connection = some con →
      I { c with connection := some { con with rx := con.rx ++ bytes, rxEnd := rxEnd, tx := tx } })
    {w : World} (hw : Reachable w) (hrun : w.status = .running) : I w.ctx := by
  induction hw with
  | init => exact hinit _ _ _ _
  | @step w a _ ih =>
    rcases w.step_cases a with ⟨receiver, flags, hctx, hst, -⟩ | ⟨events, heq⟩ |
      ⟨bytes, rxEnd, tx, heq⟩
    · rw [hctx]
      exact hapi _ _ _ (ih (hst ▸ hrun))
    · rw [heq] at hrun ⊢
      rcases w.poll_cases events with ⟨-, hpoll⟩ | ⟨hrun', ctx, state, hres, hpoll⟩ |
        ⟨-, h, ctx, hres, hpoll⟩ <;> rw [hpoll] at hrun ⊢
      · exact ih hrun
      · have hE := hengine events _ (ih hrun')
        rw [hres] at hE
        exact hE fun (hterm : state = .terminate) => by simp [hterm] at hrun
      · simp at hrun
    · rw [heq] at hrun ⊢
      rcases w.peer_cases bytes rxEnd tx with hpeer' | ⟨con, hrun', hcon, hpeer'⟩ <;>
        rw [hpeer'] at hrun ⊢
      · exact ih hrun
      · exact hpeer _ _ _ _ _ (ih hrun') hcon

end Tracy
