import Tracy.Frame

/-!
# The connection and what follows it

`client_connected`, the flush timer, the announce timer and the registry's flags are meant
to follow the connection: set while a collector is connected, cleared by
`close_and_clean_connection`. This file proves what holds of them over every run of the
agent, and replays the runs in which the rest does not: the receive loop goes on reading its
clone of the stream after a teardown, a `Payload` that was in the channel at a teardown arms
the flush timer, and an accept that fails stops the announcements.
-/

namespace Tracy

/-! ### `client_connected` and the announce timer -/

/-- What holds of the connection's companions in every state of the engine. -/
structure ConnInv (ctx : TracerContext) : Prop where
  /-- `client_connected` tells whether a connection is held. -/
  clientConnected : ctx.clientConnected = ctx.connection.isSome
  /-- The announce timer is stopped while a connection is held. -/
  udpStopped : ctx.connection.isSome → ctx.udpTimeout = false

/-- A teardown leaves no connection and `client_connected` clear, whatever it starts from. -/
theorem connInv_close (ctx : TracerContext) :
    Engine.Terminates ctx.closeAndCleanConnection ConnInv ConnInv :=
  TracerContext.closeAndCleanConnection_terminates (fun _ _ => ⟨rfl, nofun⟩)
    fun hnone => ⟨by simp [hnone], by simp [hnone]⟩

theorem connInv_sendSlices {ctx : TracerContext} (que : List UInt8) (hI : ConnInv ctx) :
    Engine.Terminates (sendSlices ctx que) (ConnInv ·.1) ConnInv :=
  sendSlices_terminates (fun _ hcon => ⟨by simp [hI.1, hcon], fun _ => hI.2 (by simp [hcon])⟩)
    fun _ => hI

theorem connInv_receiveKeeps : ReceiveKeeps ConnInv ConnInv where
  close c _ := connInv_close c
  reply _ hI := connInv_sendSlices _ hI
  store c _ _ hI := by
    unfold TracerContext.storeTracepoint
    split <;> exact ⟨hI.1, hI.2⟩
  reader _ _ hI := ⟨by simp [TracerContext.withReader, hI.1],
    fun h => hI.2 (by simpa [TracerContext.withReader] using h)⟩

theorem connInv_engineKeeps : EngineKeeps ConnInv ConnInv ConnInv where
  flush _ hI := (SendKeeps.plain (fun c _ => connInv_close c) (fun _ _ => connInv_sendSlices _)
    fun _ _ hI => ⟨hI.1, hI.2⟩).sendTraceData hI
  receive _ hI := connInv_receiveKeeps.receive hI hI
  take _ _ _ hI _ := ⟨hI.1, hI.2⟩
  register _ _ _ hI _ := ⟨hI.1, hI.2⟩
  drop _ _ hI _ := ⟨hI.1, hI.2⟩
  queueStart c hI := by
    rw [TracerContext.checkStartQueueTimer_eq]
    exact ⟨hI.1, hI.2⟩
  queueStop _ hI := ⟨hI.1, hI.2⟩
  queueFire _ hI _ := ⟨hI.1, hI.2⟩
  udpFire c hI hudp := by
    have hnone : c.connection.isSome = false :=
      Bool.eq_false_iff.mpr fun hsome => by simp [hI.2 hsome] at hudp
    rw [TracerContext.checkStartUdpTimer_eq]
    unfold announceTracer
    split <;> exact ⟨hI.1, fun hsome => absurd hsome (by simpa using hnone)⟩
  accept c accepted hI _ := by
    unfold establishConnection
    split
    · exact ⟨rfl, fun _ => rfl⟩
    · exact ⟨hI.1, fun _ => rfl⟩

theorem reachable_connInv {w : World} (hw : Reachable w) : ConnInv w.ctx :=
  Reachable.ctx_of_keeps (fun _ _ _ _ => ⟨by simp, by simp⟩) connInv_engineKeeps
    (fun _ _ _ hI => ⟨hI.1, hI.2⟩)
    (fun _ _ _ _ _ hI hcon => ⟨by simp [hI.1, hcon], fun _ => hI.2 (by simp [hcon])⟩) hw

/-- `client_connected` tells whether a connection is held: the first field of `ConnInv`, on
its own. -/
def ClientTracked (ctx : TracerContext) : Prop := ctx.clientConnected = ctx.connection.isSome

theorem clientTracked_close (ctx : TracerContext) :
    Engine.Terminates ctx.closeAndCleanConnection ClientTracked ClientTracked :=
  TracerContext.closeAndCleanConnection_terminates (fun _ _ => rfl)
    fun hnone => by simp [ClientTracked, hnone]

theorem clientTracked_sendSlices {ctx : TracerContext} (que : List UInt8)
    (hI : ClientTracked ctx) :
    Engine.Terminates (sendSlices ctx que) (ClientTracked ·.1) ClientTracked :=
  sendSlices_terminates (fun _ hcon => hI.trans (by simp [hcon])) fun _ => hI

/-- Every part of `event_handler` keeps `client_connected` equal to whether a connection is
held: an accept sets both, a failed accept neither, and every teardown clears both, also
the one that panics. -/
theorem clientTracked_engineKeeps : EngineKeeps ClientTracked ClientTracked ClientTracked where
  flush _ hI := (SendKeeps.plain (fun c _ => clientTracked_close c)
    (fun _ _ => clientTracked_sendSlices _) fun _ _ hI => hI).sendTraceData hI
  receive _ hI := ReceiveKeeps.receive
    ⟨fun c _ => clientTracked_close c, fun _ => clientTracked_sendSlices _,
      fun c _ _ hI => by unfold TracerContext.storeTracepoint; split <;> exact hI,
      fun _ _ hI => by simpa [ClientTracked, TracerContext.withReader] using hI⟩ hI hI
  take _ _ _ hI _ := hI
  register _ _ _ hI _ := hI
  drop _ _ hI _ := hI
  queueStart c hI := by rw [TracerContext.checkStartQueueTimer_eq]; exact hI
  queueStop _ hI := hI
  queueFire _ hI _ := hI
  udpFire c hI _ := by
    rw [TracerContext.checkStartUdpTimer_eq]
    unfold announceTracer
    split <;> exact hI
  accept c accepted hI _ := by
    unfold establishConnection
    split
    · rfl
    · exact hI

/-- `client_connected` follows the connection: from any context where the two agree, every
batch of events leaves them agreeing, whether `event_handler` returns or the thread halts;
hence they agree at every point of every run. -/
theorem clientConnected_follows_connection :
    (∀ (events : List Event) (ctx : TracerContext), ClientTracked ctx →
      Engine.Ensures (eventHandler events ctx) (ClientTracked ·.1) ClientTracked) ∧
    ∀ w : World, Reachable w → w.ctx.clientConnected = w.ctx.connection.isSome :=
  ⟨fun events _ hI => clientTracked_engineKeeps.eventHandler events hI,
   fun _ hw => Reachable.ctx_of_keeps (fun _ _ _ _ => by simp [ClientTracked])
    clientTracked_engineKeeps (fun _ _ _ hI => hI)
    (fun _ _ _ _ _ hI hcon => hI.trans (by simp [hcon])) hw⟩

/-- After an accept. -/
theorem clientConnected_after_accept :
    let w := (World.init ⟨"host", "app", 100⟩ 61455 false false).step
      (.poll [.conNew (some ⟨[], .wouldBlock, []⟩)])
    w.ctx.clientConnected = w.ctx.connection.isSome :=
  clientConnected_follows_connection.2 _ ((Reachable.init _ _ _ _).step _)

/-- The announce timer is stopped while a connection is held. -/
theorem udpTimeout_of_connection {w : World} (hw : Reachable w)
    (hcon : w.ctx.connection.isSome) : w.ctx.udpTimeout = false :=
  (reachable_connInv hw).udpStopped hcon

/-- An announcing tracer right after an accept. -/
theorem udpTimeout_of_connection_accept :
    let w := (World.init ⟨"host", "app", 100⟩ 61455 true true).step
      (.poll [.conNew (some ⟨[], .wouldBlock, []⟩)])
    w.ctx.connection.isSome ∧ w.ctx.udpTimeout = false :=
  ⟨by decide, udpTimeout_of_connection ((Reachable.init _ _ _ _).step _) (by decide)⟩


/-- The announce timer does not follow the connection: an accept that fails after `CON_NEW`
stops it although no connection is held, so a tracer that announces stops announcing; and
a teardown starts it in a tracer that was started without announcing. -/
theorem udpTimeout_diverges :
    (∃ w : World, Reachable w ∧ w.announce = true ∧ w.ctx.connection = none ∧
      w.ctx.udpTimeout = false) ∧
    (∃ w : World, Reachable w ∧ w.announce = false ∧ w.ctx.udpTimeout = true) :=
  ⟨⟨_, (Reachable.init ⟨"host", "app", 100⟩ 61455 true true).step (.poll [.conNew none]),
    by decide⟩,
   ⟨_, (Reachable.init ⟨"host", "app", 100⟩ 61455 false false).run
      [.poll [.conNew (some ⟨[], .wouldBlock, []⟩)], .peer [] .eof [], .poll [.conData]],
    by decide⟩⟩

/-! ### The flags after a teardown -/

/-- The receive loop goes on reading its clone of the stream after `set_tracepoints` tore
the connection down: an enable request right behind an item whose name is too long sets a
flag with no connection held. -/
theorem flag_set_after_teardown :
    ∃ w : World, Reachable w ∧ w.ctx.connection = none ∧
      w.ctx.tracepoints.lookup [0x61] = some 0 ∧ w.ctx.flags 0 = true :=
  ⟨_, (Reachable.init ⟨"host", "app", 100⟩ 61455 false false).run
    [.register [0x61], .poll [.chan], .poll [.conNew (some ⟨[], .wouldBlock, []⟩)],
      .peer (frame .tracepointEnableRequest [0, 33] ++ (Request.enable [[0x61]]).bytes)
        .wouldBlock [],
      .poll [.conData]],
    by decide⟩

/-! ### Panics of the receive loop -/

/-- A `CON_DATA` event makes the engine panic: an item whose name is too long tears the
connection down inside `set_tracepoints`, and the end of the stream that the receive loop
reads next tears it down again. -/
theorem receive_panics_after_teardown :
    ∃ w : World, Reachable w ∧ w.status = .running ∧
      (w.step (.poll [.conData])).status = .halted .panic :=
  ⟨_, (Reachable.init ⟨"host", "app", 100⟩ 61455 false false).run
    [.poll [.conNew (some ⟨[], .wouldBlock, []⟩)],
      .peer (frame .tracepointEnableRequest [0, 33]) .eof []],
    by decide⟩

/-! ### The flush timer -/

/-- The flush timer is set only while records wait in the buffer. -/
def QueueArmed (ctx : TracerContext) : Prop := ctx.queueTimeout = true → ctx.buffer ≠ []

/-- The send path leaves a flush timer that is not set unset. -/
theorem queueIdle_sendKeeps :
    SendKeeps (fun _ c => c.queueTimeout = false) (·.queueTimeout = false)
      (·.queueTimeout = false) :=
  .plain (fun _ hI => TracerContext.closeAndCleanConnection_terminates (fun _ _ => rfl) fun _ => hI)
    (fun _ _ hI => sendSlices_terminates (fun _ _ => hI) fun _ => hI) fun _ _ hI => hI

theorem queueArmed_receiveKeeps : ReceiveKeeps QueueArmed QueueArmed where
  close _ hI := TracerContext.closeAndCleanConnection_terminates (fun _ _ => nofun) fun _ => hI
  reply _ hI := sendSlices_terminates (fun _ _ => hI) fun _ => hI
  store c _ _ hI := by
    unfold TracerContext.storeTracepoint
    split <;> exact hI
  reader _ _ hI := hI

/-- A flush with the flush timer unset leaves it unset. -/
theorem sendTraceData_queueArmed {ctx : TracerContext} (hidle : ctx.queueTimeout = false) :
    Engine.Ensures (sendTraceData ctx) QueueArmed fun _ => True :=
  (queueIdle_sendKeeps.sendTraceData hidle).mono (fun _ h hq => absurd (h.symm.trans hq) (by simp))
    (fun _ _ => trivial) fun _ _ => trivial

theorem channelHandlerLoop_queueArmed : ∀ (msgs : List ChannelMessage) (ret : TracerState)
    (ctx : TracerContext), QueueArmed ctx →
    Engine.Ensures (channelHandlerLoop msgs ret ctx) (fun r => r.2 ≠ .terminate → QueueArmed r.1)
      fun _ => True
  | [], _, _, hI => fun _ => hI
  | msg :: rest, _, ctx, hI => by
    unfold channelHandlerLoop
    cases msg with
    | payload p =>
      unfold channelDataHandler
      dsimp only
      split
      · exact (sendTraceData_queueArmed rfl).bind fun ctx' h =>
          channelHandlerLoop_queueArmed rest _ ctx' h
      · exact channelHandlerLoop_queueArmed rest _ _ fun _ => by simp [TracerContext.append]
    | newTracepoint t => exact channelHandlerLoop_queueArmed rest _ _ hI
    | terminate =>
      dsimp only
      split <;> exact (Engine.ensures_true _).bind fun _ _ h => absurd rfl h

theorem eventHandlerLoop_queueArmed : ∀ (events : List Event) (ret : TracerState)
    (ctx : TracerContext), QueueArmed ctx →
    Engine.Ensures (eventHandlerLoop events ret ctx) (fun r => r.2 ≠ .terminate → QueueArmed r.1)
      fun _ => True
  | [], _, _, hI => fun _ => hI
  | event :: rest, ret, ctx, hI => by
    unfold eventHandlerLoop
    cases event with
    | chan =>
      refine (channelHandlerLoop_queueArmed ctx.receiver .normal ctx hI).bind
        fun ⟨ctx', state⟩ h => ?_
      cases state with
      | terminate => exact fun hne => absurd rfl hne
      | normal => exact eventHandlerLoop_queueArmed rest _ ctx' (h nofun)
      | dataProcessed => exact eventHandlerLoop_queueArmed rest _ ctx' (h nofun)
    | timer expired =>
      refine (timerHandler_keeps (fun _ _ => sendTraceData_queueArmed) (fun _ _ _ => nofun)
        (fun c hI _ => ?_) expired ctx hI).bind
        fun ctx' h => eventHandlerLoop_queueArmed rest ret ctx' h
      rw [TracerContext.checkStartUdpTimer_eq]
      unfold announceTracer
      split <;> exact hI
    | conNew accepted =>
      dsimp only
      split
      · refine eventHandlerLoop_queueArmed rest ret _ ?_
        unfold establishConnection
        split <;> exact hI
      · exact eventHandlerLoop_queueArmed rest ret ctx hI
    | conData =>
      exact ((queueArmed_receiveKeeps.receive hI hI).mono (fun _ h => h) fun _ _ => trivial).holds.bind
        fun ctx' h => eventHandlerLoop_queueArmed rest ret ctx' h

/-- While the engine runs, the flush timer is set only while records wait in the buffer. -/
theorem buffer_of_queueTimeout {w : World} (hw : Reachable w) (hrun : w.status = .running)
    (hq : w.ctx.queueTimeout = true) : w.ctx.buffer ≠ [] :=
  Reachable.running_of_keeps (fun _ _ _ _ => by simp [QueueArmed])
    (fun events ctx hI => eventHandlerLoop_queueArmed events .normal ctx hI)
    (fun _ _ _ hI => hI) (fun _ _ _ _ _ hI _ => hI) hw hrun hq

/-- A record buffered while connected sets the flush timer. -/
theorem buffer_of_queueTimeout_armed :
    let w := (World.init ⟨"host", "app", 100⟩ 61455 false false).run
      [.register [0x61], .poll [.chan], .poll [.conNew (some ⟨[], .wouldBlock, []⟩)],
        .peer (Request.enable [[0x61]]).bytes .wouldBlock [], .poll [.conData],
        .submit [0x61] [1] ⟨0, 0⟩, .resume 0, .resume 0, .poll [.chan]]
    w.status = .running ∧ w.ctx.queueTimeout = true ∧ w.ctx.buffer ≠ [] :=
  ⟨by decide, by decide,
    buffer_of_queueTimeout ((Reachable.init _ _ _ _).run _) (by decide) (by decide)⟩

/-- The flush timer does not follow the connection: a `Payload` submitted while a collector
was connected and taken from the channel after a teardown sets it with no connection held. -/
theorem flush_timer_without_connection :
    ∃ w : World, Reachable w ∧ w.status = .running ∧ w.ctx.queueTimeout = true ∧
      w.ctx.connection = none :=
  ⟨_, (Reachable.init ⟨"host", "app", 100⟩ 61455 false false).run
    [.register [0x61], .poll [.chan], .poll [.conNew (some ⟨[], .wouldBlock, []⟩)],
      .peer (Request.enable [[0x61]]).bytes .wouldBlock [], .poll [.conData],
      .submit [0x61] [1] ⟨0, 0⟩, .resume 0, .resume 0, .peer [] .eof [], .poll [.conData],
      .poll [.chan]],
    by decide⟩

end Tracy
