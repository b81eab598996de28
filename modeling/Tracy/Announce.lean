import Tracy.Frame

/-!
# The announcements of a run

`timer_handler` calls `announce_tracer` on every expiry of the announce timer; it sends one
datagram when a UDP socket could be bound, and counts it in the `u64` `sequence_no` either
way. Nothing else writes the counter, and nothing writes the configuration, the port or the
socket that `format_json` and `announce_tracer` read. Over every run from `tracy_init`, after
`n` expiries (the history field `udpExpiries`) the counter is at `n` modulo `2^64` and the
datagrams sent are numbered `0, 1, …, n - 1` modulo `2^64`, in the order they were sent,
each reporting the configuration and port given at `tracy_init`.
-/

namespace Tracy

namespace TracerContext

/-- The fields that `announce_tracer` and `format_json` read or write, and the count of
expiries of the announce timer. -/
def beacon (ctx : TracerContext) : InitData × Nat × Bool × Nat × List (List UInt8) × Nat :=
  (ctx.appCfg, ctx.listenerPort, ctx.udpSock, ctx.sequenceNo, ctx.announced, ctx.udpExpiries)

end TracerContext

theorem announceTracer_eq (ctx : TracerContext) :
    announceTracer ctx = { ctx with
      announced := if ctx.udpSock then ctx.announced ++ [announceDatagram ctx] else ctx.announced,
      sequenceNo := (ctx.sequenceNo + 1) % 2 ^ 64 } := by
  unfold announceTracer
  split <;> rfl

/-- `format_json` reads the configuration, the port and the counter, nothing else. -/
theorem announceDatagram_congr {c c' : TracerContext} (ha : c'.appCfg = c.appCfg)
    (hp : c'.listenerPort = c.listenerPort) (hs : c'.sequenceNo = c.sequenceNo) :
    announceDatagram c' = announceDatagram c := by
  simp only [announceDatagram, formatJson, ha, hp, hs]

/-- The announcements of a context that started as `start`: it reports the configuration,
port and socket of `start`, and after `n` expiries of the announce timer its counter is at
`n` and, with a socket, it has sent `n` datagrams, the `i`-th with number `i`. -/
def BeaconLog (start ctx : TracerContext) : Prop :=
  ctx.appCfg = start.appCfg ∧ ctx.listenerPort = start.listenerPort ∧
    ctx.udpSock = start.udpSock ∧ ctx.sequenceNo = ctx.udpExpiries % 2 ^ 64 ∧ ctx.announced =
      if start.udpSock then
        (List.range ctx.udpExpiries).map fun i =>
          announceDatagram { start with sequenceNo := i % 2 ^ 64 }
      else []

variable {start : TracerContext}

/-- A context that agrees on the fields of the beacon keeps the log. -/
theorem BeaconLog.congr {c c' : TracerContext} (h : BeaconLog start c) (hb : c'.beacon = c.beacon) :
    BeaconLog start c' := by
  simp only [TracerContext.beacon, Prod.mk.injEq] at hb
  obtain ⟨ha, hp, hu, hs, hann, hn⟩ := hb
  rw [BeaconLog, ha, hp, hu, hs, hann, hn]
  exact h

/-- One expiry of the announce timer is counted, and `announce_tracer` sends the next
datagram and counts it. -/
theorem BeaconLog.expire {c : TracerContext} (h : BeaconLog start c) :
    BeaconLog start (announceTracer { c with udpExpiries := c.udpExpiries + 1 }) := by
  obtain ⟨ha, hp, hu, hseq, hlog⟩ := h
  rw [announceTracer_eq]
  refine ⟨ha, hp, hu, by simp only [hseq, Nat.mod_add_mod], ?_⟩
  dsimp only
  rw [hlog, hu]
  cases start.udpSock
  · rfl
  · simp only [if_true, List.range_succ, List.map_append, List.map_singleton]
    exact congrArg (_ ++ [·]) (announceDatagram_congr ha hp hseq)

/-- The send path writes none of the beacon's fields. -/
theorem beacon_sendKeeps (ctx : TracerContext) :
    SendKeeps (fun _ c => c.beacon = ctx.beacon) (·.beacon = ctx.beacon) (·.beacon = ctx.beacon) :=
  .plain (fun _ hc => TracerContext.closeAndCleanConnection_terminates (fun _ _ => hc) fun _ => hc)
    (fun _ _ hc => sendSlices_terminates (fun _ _ => hc) fun _ => hc) fun _ _ hc => hc

/-- The receive path writes none of the beacon's fields. -/
theorem beacon_receiveKeeps (ctx : TracerContext) :
    ReceiveKeeps (·.beacon = ctx.beacon) (·.beacon = ctx.beacon) where
  close _ hc := TracerContext.closeAndCleanConnection_terminates (fun _ _ => hc) fun _ => hc
  reply _ hc := sendSlices_terminates (fun _ _ => hc) fun _ => hc
  store c name state hc := by
    unfold TracerContext.storeTracepoint
    split <;> exact hc
  reader _ _ hc := hc

/-- Every part of `event_handler` keeps the log: only the announce timer's expiry touches
it, and it adds the next datagram. -/
theorem beaconLog_engineKeeps :
    EngineKeeps (BeaconLog start) (BeaconLog start) (BeaconLog start) where
  flush c h := ((beacon_sendKeeps c).sendTraceData rfl).mono (fun _ => h.congr) (fun _ => h.congr)
    fun _ => h.congr
  receive c h := ((beacon_receiveKeeps c).receive rfl rfl).mono (fun _ => h.congr) fun _ => h.congr
  take _ _ _ h _ := h.congr rfl
  register _ _ _ h _ := h.congr rfl
  drop _ _ h _ := h.congr rfl
  queueStart c h := by rw [TracerContext.checkStartQueueTimer_eq]; exact h.congr rfl
  queueStop _ h := h.congr rfl
  queueFire _ h _ := h.congr rfl
  udpFire c h _ := by
    rw [TracerContext.checkStartUdpTimer_eq]
    exact (BeaconLog.expire (c := { c with udpTimeout := false }) (h.congr rfl)).congr rfl
  accept c accepted h _ := by
    unfold establishConnection
    split <;> exact h.congr rfl

/-- Over every run from `tracy_init`, once the announce timer has expired `n` times the
counter `sequence_no` is at `n` modulo `2^64`, and the datagrams announced are the `n`
numbered `0, 1, …, n - 1` modulo `2^64` in the order they were sent, with no number skipped
or repeated, each reporting the configuration and port given at `tracy_init`. They are sent
only when the tracer announces and its UDP socket could be bound; the counter counts the
expiries either way. -/
theorem announcements_numbered (appCfg : InitData) (listenerPort : Nat) (announce udpBound : Bool)
    (actions : List Action) :
    let start := tracerThreadMain appCfg listenerPort announce udpBound
    let w := (World.init appCfg listenerPort announce udpBound).run actions
    w.ctx.sequenceNo = w.ctx.udpExpiries % 2 ^ 64 ∧ w.ctx.announced =
      if announce && udpBound then
        (List.range w.ctx.udpExpiries).map fun i =>
          announceDatagram { start with sequenceNo := i % 2 ^ 64 }
      else [] := by
  intro start w
  have hinit : BeaconLog start (World.init appCfg listenerPort announce udpBound).ctx :=
    ⟨rfl, rfl, rfl, by simp [start, World.init], by simp [start, World.init]⟩
  obtain ⟨-, -, -, hlog⟩ := World.run_ctx_of_keeps beaconLog_engineKeeps
    (fun _ _ _ h => h.congr rfl) (fun _ _ _ _ _ h _ => h.congr rfl) actions hinit
  simpa [start] using hlog

end Tracy
