import Tracy.Frame

/-!
# The send window

`send_trace_data` packs the buffer's records into `TracePush` frames: it appends the head
element while `front.len() + que.len() + HEADER_LEN < QUEUE_TOTAL_SIZE`, and sends the window
otherwise. The check counts `len()`, but a record takes four bytes more (its two `u16`
lengths), so a window may end three bytes past `QUEUE_TOTAL_SIZE`. When every element fits
an empty window, the loop ends whatever the writes return, and every frame it sends holds
a record.
-/

namespace Tracy

/-- The frames sent after `sent` are `TracePush` frames whose bodies satisfy `ok`. -/
def PushesAfter (sent : List (List UInt8)) (ok : List UInt8 → Prop) (ctx : TracerContext) :
    Prop :=
  ∃ bodies : List (List UInt8), ctx.sent = sent ++ bodies.map (frame .tracePush) ∧
    ∀ b ∈ bodies, ok b

theorem PushesAfter.mono {sent : List (List UInt8)} {ok ok' : List UInt8 → Prop}
    {ctx : TracerContext} (h : PushesAfter sent ok ctx) (hok : ∀ b, ok b → ok' b) :
    PushesAfter sent ok' ctx :=
  let ⟨bodies, hsent, hb⟩ := h
  ⟨bodies, hsent, fun b hmem => hok b (hb b hmem)⟩

/-- The send path over elements that each fit an empty window: every frame it writes holds a
record, and the endless loop is never reached. -/
theorem pushesAfter_sendKeeps (sent : List (List UInt8)) :
    SendKeeps (fun _ c => PushesAfter sent (· ≠ []) c ∧
        ∀ e ∈ c.buffer, e.len + headerLen < queueTotalSize)
      (PushesAfter sent (· ≠ [])) fun _ => False where
  close _ h := TracerContext.closeAndCleanConnection_terminates (fun _ _ => h) fun _ => h.1
  push c pending hpush h := by
    obtain ⟨⟨bodies, hsent, hb⟩, hfit⟩ := h
    have hne : pending.flatMap recordBytes ≠ [] := by
      rcases hpush with hne | ⟨front, rest, hbuf, hwide⟩
      · obtain ⟨e, es, rfl⟩ := List.exists_cons_of_ne_nil hne
        simp [recordBytes_ne_nil]
      · have := hfit front (by rw [hbuf]; exact List.mem_cons_self _ _)
        omega
    refine sendSlices_terminates (fun _ _ => ⟨⟨bodies ++ [pending.flatMap recordBytes],
      by simp [hsent], fun b hmem => ?_⟩, hfit⟩) fun _ => ⟨bodies, hsent, hb⟩
    rcases List.mem_append.mp hmem with hmem | hmem
    · exact hb b hmem
    · rw [List.mem_singleton.mp hmem]; exact hne
  pop _ _ _ _ h hbuf _ := ⟨h.1, fun e he => h.2 e (by rw [hbuf]; exact List.mem_cons_of_mem _ he)⟩
  spin _ h := fun ⟨front, _, hbuf, hwide⟩ => by
    have := h.2 front (by rw [hbuf]; exact List.mem_cons_self _ _)
    omega

/-- When every element fits an empty window (as every element that `tracy_submit` builds
does), `send_trace_data` ends whatever the writes return, returning or panicking for want of
a connection, and every `TracePush` frame it sends holds at least one record. -/
theorem sendTraceData_terminates {ctx : TracerContext}
    (hfit : ∀ e ∈ ctx.buffer, e.len + headerLen < queueTotalSize) :
    Engine.Terminates (sendTraceData ctx) (PushesAfter ctx.sent (· ≠ []))
      (PushesAfter ctx.sent (· ≠ [])) :=
  ((pushesAfter_sendKeeps ctx.sent).sendTraceData ⟨⟨[], by simp, nofun⟩, hfit⟩).mono
    (fun _ h => h.1) (fun _ h => h) fun _ h => h

/-- One element, on a connection whose first write fails. -/
theorem sendTraceData_terminates_failing_write :
    let ctx : TracerContext :=
      { tracerThreadMain ⟨"host", "app", 100⟩ 61455 false false with
        buffer := [⟨[0x61], ⟨0, 0⟩, [1]⟩], connection := some ⟨[], .wouldBlock, [.error]⟩ }
    (∀ e ∈ ctx.buffer, e.len + headerLen < queueTotalSize) ∧
      Engine.Terminates (sendTraceData ctx) (PushesAfter ctx.sent (· ≠ []))
        (PushesAfter ctx.sent (· ≠ [])) :=
  ⟨by decide, sendTraceData_terminates (by decide)⟩

/-- Two elements within the bounds of `tracy_submit` whose records take 2060 and 2027
bytes: the check passes for the second (`2023 + 2060 + 12 < 4096`), and `send_trace_data`
packs both into one `TracePush` frame of 4099 bytes. -/
theorem push_frame_exceeds_window :
    let a : BufferElement := ⟨[0x61], ⟨0, 0⟩, List.replicate 2047 0⟩
    let b : BufferElement := ⟨[0x61], ⟨0, 0⟩, List.replicate 2014 0⟩
    let ctx : TracerContext :=
      { tracerThreadMain ⟨"host", "app", 100⟩ 61455 false false with
        buffer := [a, b], connection := some ⟨[], .wouldBlock, []⟩, clientConnected := true }
    a.Bounded ∧ b.Bounded ∧ ∃ ctx', sendTraceData ctx = .ok ctx' ∧
      ctx'.sent = [frame .tracePush (recordBytes a ++ recordBytes b)] ∧
      (frame .tracePush (recordBytes a ++ recordBytes b)).length = 4099 := by
  intro a b ctx
  have ha : a.len = 2056 := by
    simp only [a, BufferElement.len, List.length_replicate, List.length_singleton, timestampLen]
  have hb : b.len = 2023 := by
    simp only [b, BufferElement.len, List.length_replicate, List.length_singleton, timestampLen]
  have hra : (recordBytes a).length = 2060 := by rw [length_recordBytes, ha]
  have hrb : (recordBytes b).length = 2027 := by rw [length_recordBytes, hb]
  refine ⟨by simp only [a, BufferElement.Bounded, List.length_replicate, List.length_singleton,
      maxTracepointNameLen, maxSubmitLen]; decide,
    by simp only [b, BufferElement.Bounded, List.length_replicate, List.length_singleton,
      maxTracepointNameLen, maxSubmitLen]; decide,
    { ctx with buffer := [], sent := [frame .tracePush (recordBytes a ++ recordBytes b)] }, ?_,
    rfl, by rw [length_frame, List.length_append, hra, hrb]; rfl⟩
  /- Both records pass the check, `2056 + 0 + 12 < 4096` and `2023 + 2060 + 12 < 4096`; the
  window of 4087 bytes is sent once the buffer is empty. -/
  simp only [sendTraceData, show ctx.buffer = [a, b] from rfl, sendTraceDataLoop,
    encodeAppendTraceData_eq, List.nil_append, List.length_nil, List.length_append, hra, ha, hb,
    headerLen, queueTotalSize, Nat.reduceAdd, Nat.reduceLT, if_true, Bool.not_false,
    pushFrontHeader_eq]
  rw [sendSlices_of_connection rfl]
  rfl

end Tracy
