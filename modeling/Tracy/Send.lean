import Tracy.Context

/-!
# Sending frames

The send path of `tcp_handler.rs`: `send_slices` writes one frame, `send_trace_data` drains
the buffer into `TracePush` frames of at most one send window each, and
`send_tracepoint_list` answers a list request. The main result is that, when every write
succeeds, the frames of `send_trace_data` carry exactly the buffered records, in order.
-/

namespace Tracy

/-- `send_slices`: write `que` on the connection (panicking if there is none) and report
whether the write failed. A write that would block counts as a success. -/
def sendSlices (ctx : TracerContext) (que : List UInt8) : Engine (TracerContext × Bool) :=
  match ctx.connection with
  | none => throw (.panic, ctx)
  | some con =>
    let (res, con) := con.writeAll
    pure ({ ctx with connection := some con, sent := ctx.sent ++ [que] }, res == .error)

/-- `send_trace_data` once its head element fits no send window, not even an empty one: it
sends a frame without records and looks at the same element again, until a write fails.
`script` is the connection's list of write outcomes; once it is used up, every write
succeeds and the loop never ends. -/
def sendEmptyFrames : List WriteResult → TracerContext → Engine TracerContext
  | [], ctx => do
    let (ctx, _) ← sendSlices ctx (pushFrontHeader [] .tracePush)
    throw (.spin, ctx)
  | _ :: script, ctx => do
    let (ctx, isErr) ← sendSlices ctx (pushFrontHeader [] .tracePush)
    if isErr then ctx.closeAndCleanConnection else sendEmptyFrames script ctx

/-- The write outcomes left on the connection. -/
def TracerContext.writeScript (ctx : TracerContext) : List WriteResult :=
  (ctx.connection.map (·.tx)).getD []

/-- The `while let Some(front) = ctx.buffer.get(0)` loop of `send_trace_data`, then the send
of the last window. `buffer` is `ctx.buffer`, `que` the send window. After a window is sent
the loop finds `front` again with an empty window; that pass is written out. -/
def sendTraceDataLoop :
    List BufferElement → List UInt8 → Bool → TracerContext → Engine TracerContext
  | [], que, lastWasComplete, ctx =>
    if !lastWasComplete then do
      let (ctx, isErr) ← sendSlices ctx (pushFrontHeader que .tracePush)
      if isErr then ctx.closeAndCleanConnection else pure ctx
    else pure ctx
  | front :: rest, que, _, ctx =>
    if front.len + que.length + headerLen < queueTotalSize then
      sendTraceDataLoop rest (encodeAppendTraceData que front) false { ctx with buffer := rest }
    else do
      let (ctx, isErr) ← sendSlices ctx (pushFrontHeader que .tracePush)
      if isErr then ctx.closeAndCleanConnection
      else if front.len + ([] : List UInt8).length + headerLen < queueTotalSize then
        sendTraceDataLoop rest (encodeAppendTraceData [] front) false { ctx with buffer := rest }
      else sendEmptyFrames ctx.writeScript ctx

/-- `send_trace_data`. -/
def sendTraceData (ctx : TracerContext) : Engine TracerContext :=
  sendTraceDataLoop ctx.buffer [] true ctx

/-- The body of a `TracepointListReply`: every registry key as `u16 len | name`, in the
order of the registry's iteration. -/
def tracepointListBody (entries : List (List UInt8 × Cell)) : List UInt8 :=
  entries.foldl (fun msg entry => msg ++ beBytes 2 entry.1.length ++ entry.1) []

/-- `send_tracepoint_list`. -/
def sendTracepointList (ctx : TracerContext) : Engine TracerContext := do
  let msg := tracepointListBody ctx.tracepoints
  let (ctx, isErr) ← sendSlices ctx (pushFrontHeader msg .tracepointListReply)
  if isErr then ctx.closeAndCleanConnection else pure ctx

/-! ### Sending with a connection whose writes do not fail -/

/-- A connection none of whose next writes fails. -/
def TcpStream.WritesSucceed (con : TcpStream) : Prop := WriteResult.error ∉ con.tx

instance (con : TcpStream) : Decidable con.WritesSucceed :=
  inferInstanceAs (Decidable (_ ∉ _))

theorem sendSlices_of_connection {ctx : TracerContext} {con : TcpStream}
    (hcon : ctx.connection = some con) (que : List UInt8) :
    sendSlices ctx que =
      .ok ({ ctx with connection := some con.writeAll.2, sent := ctx.sent ++ [que] },
        con.writeAll.1 == .error) := by
  simp [sendSlices, hcon]

/-- A write on a connection whose writes succeed succeeds, and leaves such a connection. -/
theorem TcpStream.WritesSucceed.writeAll {con : TcpStream} (h : con.WritesSucceed) :
    (con.writeAll.1 == .error) = false ∧ con.writeAll.2.WritesSucceed := by
  unfold TcpStream.WritesSucceed at *
  unfold TcpStream.writeAll
  cases htx : con.tx with
  | nil => simpa using h
  | cons r rest =>
    rw [htx] at h
    simp only [List.mem_cons, not_or] at h
    simpa [beq_eq_false_iff_ne] using ⟨Ne.symm h.1, h.2⟩

/-- An element within the submission bounds fits an empty send window. -/
theorem BufferElement.Bounded.fits_window {e : BufferElement} (h : e.Bounded) :
    e.len + headerLen < queueTotalSize := by
  unfold BufferElement.Bounded maxTracepointNameLen maxSubmitLen at h
  unfold BufferElement.len timestampLen headerLen queueTotalSize
  omega

/-- The loop of `send_trace_data`, when every write succeeds: it empties the buffer, and
the bodies of the frames it sends are non-empty and hold the pending window followed by
the records of the buffer. -/
theorem sendTraceDataLoop_frames {es : List BufferElement} {que : List UInt8} {last : Bool}
    {ctx : TracerContext} {con : TcpStream} (hcon : ctx.connection = some con)
    (hok : con.WritesSucceed) (hbuf : ctx.buffer = es) (hbounded : ∀ e ∈ es, e.Bounded)
    (hlast : last = true ↔ que = []) :
    ∃ (bodies : List (List UInt8)) (ctx' : TracerContext),
      sendTraceDataLoop es que last ctx = .ok ctx' ∧ ctx'.buffer = [] ∧
      ctx'.sent = ctx.sent ++ bodies.map (frame .tracePush) ∧ (∀ b ∈ bodies, b ≠ []) ∧
      bodies.flatten = que ++ es.flatMap recordBytes := by
  induction es generalizing que last ctx con with
  | nil =>
    cases last
    · have hque : que ≠ [] := by simpa using hlast
      obtain ⟨herr, -⟩ := hok.writeAll
      refine ⟨[que],
        { ctx with
          connection := some con.writeAll.2
          sent := ctx.sent ++ [frame .tracePush que] },
        ?_, hbuf, by simp, by simpa using hque, by simp⟩
      simp [sendTraceDataLoop, sendSlices_of_connection hcon, herr]
    · have hque : que = [] := hlast.mp rfl
      exact ⟨[], ctx, by simp [sendTraceDataLoop], hbuf, by simp, by simp, by simp [hque]⟩
  | cons front rest ih =>
    have hfront := (hbounded front (List.mem_cons_self _ _)).fits_window
    have hrest : ∀ e ∈ rest, e.Bounded := fun e he => hbounded e (List.mem_cons_of_mem _ he)
    by_cases hfit : front.len + que.length + headerLen < queueTotalSize
    · obtain ⟨bodies, ctx', hrun, hbuf', hsent, hne, hflat⟩ :=
        @ih (encodeAppendTraceData que front) false { ctx with buffer := rest } con hcon hok rfl
          hrest (by simp [encodeAppendTraceData_eq, recordBytes_ne_nil])
      refine ⟨bodies, ctx', ?_, hbuf', hsent, hne, ?_⟩
      · simpa [sendTraceDataLoop, hfit] using hrun
      · simp [hflat, encodeAppendTraceData_eq]
    · have hque : que ≠ [] := by rintro rfl; simp at hfit; omega
      obtain ⟨herr, hok'⟩ := hok.writeAll
      obtain ⟨bodies, ctx', hrun, hbuf', hsent, hne, hflat⟩ :=
        @ih (encodeAppendTraceData [] front) false
          { ctx with
            connection := some con.writeAll.2
            sent := ctx.sent ++ [frame .tracePush que]
            buffer := rest }
          con.writeAll.2 rfl hok' rfl hrest
          (by simp [encodeAppendTraceData_eq, recordBytes_ne_nil])
      refine ⟨que :: bodies, ctx', ?_, hbuf', by simp [hsent], ?_, ?_⟩
      · simpa [sendTraceDataLoop, hfit, sendSlices_of_connection hcon, herr, hfront] using hrun
      · simpa [hque] using hne
      · simp [hflat, encodeAppendTraceData_eq]

/-- With a connection whose writes succeed and a buffer of elements within the bounds of
`tracy_submit`, `send_trace_data` hands the connection `TracePush` frames with non-empty
bodies whose concatenation decodes, under the record grammar, to the buffered records in
buffer order, and it leaves the buffer empty. -/
theorem sendTraceData_frames {ctx : TracerContext} {con : TcpStream}
    (hcon : ctx.connection = some con) (hok : con.WritesSucceed)
    (hbounded : ∀ e ∈ ctx.buffer, e.Bounded) :
    ∃ (bodies : List (List UInt8)) (ctx' : TracerContext),
      sendTraceData ctx = .ok ctx' ∧ ctx'.buffer = [] ∧
      ctx'.sent = ctx.sent ++ bodies.map (frame .tracePush) ∧ (∀ b ∈ bodies, b ≠ []) ∧
      decodeRecords bodies.flatten = some (ctx.buffer.map BufferElement.record) := by
  obtain ⟨bodies, ctx', hrun, hbuf, hsent, hne, hflat⟩ :=
    @sendTraceDataLoop_frames ctx.buffer [] true ctx con hcon hok rfl hbounded (by simp)
  refine ⟨bodies, ctx', hrun, hbuf, hsent, hne, ?_⟩
  rw [hflat, List.nil_append]
  exact decodeRecords_flatMap_recordBytes hbounded

/-- One buffered record, on a connection whose writes all succeed. -/
theorem sendTraceData_frames_single :
    let ctx : TracerContext :=
      { appCfg := ⟨"host", "app", 100⟩, buffer := [⟨[0x61], ⟨0, 0⟩, [1]⟩], bufferOccupancy := 0,
        receiver := [], queueTimeout := false, udpTimeout := false, udpSock := false,
        listenerPort := 61455, connection := some ⟨[], .wouldBlock, []⟩,
        clientConnected := true, tracepoints := [], flags := fun _ => false, sequenceNo := 0,
        taken := [], sent := [], announced := [], udpExpiries := 0 }
    ∃ (bodies : List (List UInt8)) (ctx' : TracerContext),
      sendTraceData ctx = .ok ctx' ∧ ctx'.buffer = [] ∧
      ctx'.sent = ctx.sent ++ bodies.map (frame .tracePush) ∧ (∀ b ∈ bodies, b ≠ []) ∧
      decodeRecords bodies.flatten = some (ctx.buffer.map BufferElement.record) :=
  sendTraceData_frames rfl (by decide) (by decide)

end Tracy
