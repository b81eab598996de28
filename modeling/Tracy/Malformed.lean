import Tracy.Requests

/-!
# Malformed requests

What the receive path of `tcp_handler.rs` does with frames outside the protocol. Two checks
that the code means to make are not made. `check_parse_header` reports a command that
`check_cmd_validity` rejects and goes on, so such a header reaches the `_` arm of
`execute_command`. `set_tracepoints` compares its counter with the length only before each
item, so the last item may reach past the body into the next frame.
-/

namespace Tracy

/-! ### Commands a client may not send -/

/-- A collector's `TracePush` header passes `check_parse_header` although
`check_cmd_validity` rejects it: the engine reads it, does nothing with it, and keeps the
connection. -/
theorem tracePush_header_kept :
    checkCmdValidity .tracePush 0 = .error () ∧
    ∃ w : World, Reachable w ∧ w.status = .running ∧
      w.ctx.connection = some ⟨[], .wouldBlock, []⟩ ∧
      ((w.step (.peer (frame .tracePush []) .wouldBlock [])).step (.poll [.conData])).ctx.connection =
        some ⟨[], .wouldBlock, []⟩ :=
  ⟨rfl, _, (Reachable.init ⟨"host", "app", 100⟩ 61455 false false).step
    (.poll [.conNew (some ⟨[], .wouldBlock, []⟩)]), by decide⟩

/-! ### Items past the body -/

/-- With a length of 1, `set_tracepoints` still reads a whole two-byte name length: it
reads two bytes, past the end of the body, and returns without a teardown. -/
theorem setTracepoints_reads_past_len (ctx : TracerContext) (state : Bool) (rest : List UInt8)
    (rxEnd : ReadEnd) (tx : List WriteResult) :
    setTracepoints ctx 1 ⟨[0, 0] ++ rest, rxEnd, tx⟩ state =
      .ok (ctx.storeTracepoint [] state, ⟨rest, rxEnd, tx⟩) := by
  simp [setTracepoints, setTracepointsLoop, TcpStream.readExact, beValue, fromUtf8OrDefault,
    utf8Valid, maxTracepointNameLen]

/-- The next frame is read as part of the body: an enable request whose length is 1 takes
the first byte of the list request behind it as the second byte of a name length, 82, and
tears the connection down; the list request is never answered, and the engine runs on. -/
theorem enable_len_one_swallows_next :
    ∃ w : World, Reachable w ∧ w.status = .running ∧
      w.ctx.connection = some ⟨[], .wouldBlock, []⟩ ∧
      let w' := (w.step (.peer (frame .tracepointEnableRequest [0] ++ Request.list.bytes)
        .wouldBlock [])).step (.poll [.conData])
      w'.status = .running ∧ w'.ctx.connection = none ∧ w'.ctx.sent = w.ctx.sent :=
  ⟨_, (Reachable.init ⟨"host", "app", 100⟩ 61455 false false).step
    (.poll [.conNew (some ⟨[], .wouldBlock, []⟩)]), by decide⟩

end Tracy
