import Tracy.Conformance

/-!
# Shutting down

`tracy_finit` sends `Terminate` and frees the handle, once no `tracy_submit` is in progress,
so no message follows it into the channel, and none precedes it: the handle is freed by no
one else. Until the engine wakes up on the channel, its handlers read neither the channel nor
the elements taken. `channel_handler` drains the channel in order and returns at
`Terminate`, after a last flush if a collector is connected, and `event_handler` returns at
once. So the first batch of events holding `CHAN` after `tracy_finit`, whatever the engine
handled before, ends the engine thread: `tracer_thread_main` returns with the channel empty
and every `Payload` submitted before taken, in order. The one other outcome is a panic on the
way; the endless loop of `send_trace_data` is excluded (`reachable_writesReadable`).
-/

namespace Tracy

/-- The element a `Payload` message carries. -/
def ChannelMessage.payload? : ChannelMessage → Option BufferElement
  | .payload e => some e
  | _ => none

/-- The elements of the `Payload` messages in the channel, oldest first. -/
def payloadsOf (msgs : List ChannelMessage) : List BufferElement :=
  msgs.filterMap ChannelMessage.payload?

/-! ### The engine side -/

/-- `channel_data_handler` neither reads the channel nor takes an element. -/
theorem channelDataHandler_inputs (c : TracerContext) (e : BufferElement) :
    Engine.Ensures (channelDataHandler c e)
      (fun c' => c'.receiver = c.receiver ∧ c'.taken = c.taken) fun _ => True := by
  unfold channelDataHandler
  dsimp only
  split
  · refine (sendTraceData_inputs _).mono (fun c' h => ?_) fun _ _ => trivial
    simp only [TracerContext.inputs, Prod.mk.injEq] at h
    exact ⟨h.1, h.2.2.1⟩
  · simp [TracerContext.append]

/-- With one `Terminate`, at the end of the channel, `channel_handler` reports it, having
emptied the channel and taken every `Payload` before it, in order. -/
theorem channelHandlerLoop_terminate : ∀ (msgs : List ChannelMessage) (ret : TracerState)
    (ctx : TracerContext), .terminate ∉ msgs → ctx.receiver = msgs ++ [.terminate] →
    Engine.Ensures (channelHandlerLoop (msgs ++ [.terminate]) ret ctx)
      (fun r => r.2 = .terminate ∧ r.1.receiver = [] ∧ r.1.taken = ctx.taken ++ payloadsOf msgs)
      fun _ => True
  | [], _, ctx, _, _ => by
    rw [List.nil_append, channelHandlerLoop]
    split
    · refine ((sendTraceData_inputs _).mono (fun _ h => h) fun _ _ => trivial).bind fun c h => ?_
      exact ⟨rfl, TracerContext.receiver_eq_of_inputs h,
        by simp [TracerContext.taken_eq_of_inputs h, payloadsOf]⟩
    · exact ⟨rfl, rfl, by simp [payloadsOf]⟩
  | msg :: msgs, _, ctx, hnot, hrec => by
    have hrest : .terminate ∉ msgs := fun h => hnot (List.mem_cons_of_mem _ h)
    simp only [List.cons_append, channelHandlerLoop]
    cases msg with
    | payload e =>
      refine (channelDataHandler_inputs _ e).bind fun c h => ?_
      refine (channelHandlerLoop_terminate msgs _ c hrest h.1).mono (fun r hr => ?_)
        fun _ _ => trivial
      refine ⟨hr.1, hr.2.1, ?_⟩
      rw [hr.2.2, h.2]
      simp [payloadsOf, ChannelMessage.payload?]
    | newTracepoint t =>
      refine (channelHandlerLoop_terminate msgs _ _ hrest rfl).mono (fun r hr => ?_)
        fun _ _ => trivial
      refine ⟨hr.1, hr.2.1, ?_⟩
      rw [hr.2.2]
      simp [TracerContext.insertTracepoint, payloadsOf, ChannelMessage.payload?]
    | terminate => exact absurd (List.mem_cons_self _ _) hnot

/-- `timer_handler` neither reads the channel nor takes an element. -/
theorem timerHandler_inputs (expired : List Nat) (ctx : TracerContext) :
    Engine.Ensures (timerHandler expired ctx) (·.inputs = ctx.inputs) fun _ => True :=
  timerHandler_keeps (fun c hc _ => (sendTraceData_inputs c).mono (fun _ h => h.trans hc)
    fun _ _ => trivial) (fun _ hc _ => hc)
    (fun c hc _ => by simpa using (announceTracer_quiet
      { c with udpTimeout := false, udpExpiries := c.udpExpiries + 1 }).1.trans hc)
    expired ctx rfl

/-- A batch of events without `CHAN` neither reads the channel nor takes an element, and
reports what it was given. -/
theorem eventHandlerLoop_no_chan : ∀ (events : List Event) (ret : TracerState)
    (ctx : TracerContext), .chan ∉ events →
    Engine.Ensures (eventHandlerLoop events ret ctx) (fun r => r.1.inputs = ctx.inputs ∧ r.2 = ret)
      fun _ => True
  | [], _, _, _ => ⟨rfl, rfl⟩
  | event :: rest, ret, ctx, hchan => by
    have hrest : .chan ∉ rest := fun h => hchan (List.mem_cons_of_mem _ h)
    unfold eventHandlerLoop
    cases event with
    | chan => exact absurd (List.mem_cons_self _ _) hchan
    | timer expired =>
      exact (timerHandler_inputs expired ctx).bind fun c hc =>
        (eventHandlerLoop_no_chan rest ret c hrest).mono (fun _ h => ⟨h.1.trans hc, h.2⟩)
          fun _ _ => trivial
    | conNew accepted =>
      dsimp only
      split
      · exact (eventHandlerLoop_no_chan rest ret _ hrest).mono
          (fun _ h => ⟨h.1.trans (establishConnection_quiet accepted ctx).1, h.2⟩)
          fun _ _ => trivial
      · exact eventHandlerLoop_no_chan rest ret ctx hrest
    | conData =>
      exact ((receive_quiet ctx).mono (fun _ h => h) fun _ _ => trivial).holds.bind fun c hc =>
        (eventHandlerLoop_no_chan rest ret c hrest).mono (fun _ h => ⟨h.1.trans hc.1, h.2⟩)
          fun _ _ => trivial

/-- With one `Terminate`, at the end of the channel, a batch of events that holds `CHAN`
reports `Terminate` at its first `CHAN`, having emptied the channel and taken every
`Payload` before it, in order. -/
theorem eventHandlerLoop_terminate (msgs : List ChannelMessage) (hnot : .terminate ∉ msgs) :
    ∀ (events : List Event) (ret : TracerState) (ctx : TracerContext), .chan ∈ events →
    ctx.receiver = msgs ++ [.terminate] →
    Engine.Ensures (eventHandlerLoop events ret ctx)
      (fun r => r.2 = .terminate ∧ r.1.receiver = [] ∧ r.1.taken = ctx.taken ++ payloadsOf msgs)
      fun _ => True
  | [], _, _, hchan, _ => absurd hchan (List.not_mem_nil _)
  | event :: rest, ret, ctx, hchan, hrec => by
    have hnext : ∀ c : TracerContext, c.inputs = ctx.inputs → .chan ∈ rest →
        Engine.Ensures (eventHandlerLoop rest ret c)
          (fun r => r.2 = .terminate ∧ r.1.receiver = [] ∧ r.1.taken = ctx.taken ++ payloadsOf msgs)
          fun _ => True := fun c hc hrest => by
      rw [← TracerContext.taken_eq_of_inputs hc]
      exact eventHandlerLoop_terminate msgs hnot rest ret c hrest
        ((TracerContext.receiver_eq_of_inputs hc).trans hrec)
    unfold eventHandlerLoop
    cases event with
    | chan =>
      dsimp only
      rw [channelHandler, hrec]
      refine (channelHandlerLoop_terminate msgs .normal ctx hnot hrec).bind
        fun ⟨c, state⟩ h => ?_
      obtain ⟨rfl, hc⟩ := h
      exact ⟨rfl, hc⟩
    | timer expired =>
      have hrest := (List.mem_cons.mp hchan).resolve_left nofun
      exact (timerHandler_inputs expired ctx).bind fun c hc => hnext c hc hrest
    | conNew accepted =>
      have hrest := (List.mem_cons.mp hchan).resolve_left nofun
      dsimp only
      split
      · exact hnext _ (establishConnection_quiet accepted ctx).1 hrest
      · exact hnext ctx rfl hrest
    | conData =>
      have hrest := (List.mem_cons.mp hchan).resolve_left nofun
      exact ((receive_quiet ctx).mono (fun _ h => h) fun _ _ => trivial).holds.bind
        fun c hc => hnext c hc.1 hrest

/-- The parts of `event_handler` read the channel only from its front. -/
theorem receiverSuffix_engineKeeps (msgs : List ChannelMessage) :
    EngineKeeps (·.receiver <:+ msgs) (·.receiver <:+ msgs) (·.receiver <:+ msgs) where
  flush c h := (sendTraceData_inputs c).mono
    (fun _ h' => TracerContext.receiver_eq_of_inputs h' ▸ h)
    fun _ h' => TracerContext.receiver_eq_of_inputs h' ▸ h
  receive c h := (receive_quiet c).mono
    (fun _ h' => TracerContext.receiver_eq_of_inputs h'.1 ▸ h)
    fun _ h' => TracerContext.receiver_eq_of_inputs h'.1 ▸ h
  take c _ rest h hrec := (List.suffix_cons _ rest).trans (hrec ▸ h)
  register c _ rest h hrec := (List.suffix_cons _ rest).trans (hrec ▸ h)
  drop c rest h hrec := (List.suffix_cons _ rest).trans (hrec ▸ h)
  queueStart c h := by rw [TracerContext.checkStartQueueTimer_eq]; exact h
  queueStop _ h := h
  queueFire _ h _ := h
  udpFire c h _ := by
    rw [TracerContext.checkStartUdpTimer_eq]
    rw [TracerContext.receiver_eq_of_inputs (announceTracer_quiet
      { c with udpTimeout := false, udpExpiries := c.udpExpiries + 1 }).1]
    exact h
  accept c accepted h _ :=
    TracerContext.receiver_eq_of_inputs (establishConnection_quiet accepted c).1 ▸ h

/-! ### Over runs -/

@[simp] theorem World.sendToTracer_alive (w : World) (msg : ChannelMessage) :
    (w.sendToTracer msg).alive = w.alive := by
  unfold World.sendToTracer; split <;> rfl

@[simp] theorem World.sendToTracer_submits (w : World) (msg : ChannelMessage) :
    (w.sendToTracer msg).submits = w.submits := by
  unfold World.sendToTracer; split <;> rfl

/-- `send_to_tracer` appends at most the message it sends. -/
theorem World.sendToTracer_receiver (w : World) (msg : ChannelMessage) :
    ∀ m ∈ (w.sendToTracer msg).ctx.receiver, m ∈ w.ctx.receiver ∨ m = msg := by
  obtain ⟨receiver, h, hmem⟩ := w.sendToTracer_ctx_eq msg
  rw [h]
  exact hmem

/-- A message other than `Terminate`, sent while the handle is alive, keeps `Terminate` out of
the channel. -/
theorem World.sendToTracer_no_terminate {w : World} {msg : ChannelMessage}
    (hmsg : msg ≠ .terminate) (h : w.alive = true → .terminate ∉ w.ctx.receiver) :
    (w.sendToTracer msg).alive = true → .terminate ∉ (w.sendToTracer msg).ctx.receiver :=
  fun halive hmem => by
    rw [World.sendToTracer_alive] at halive
    exact (w.sendToTracer_receiver msg _ hmem).elim (h halive) fun heq => hmsg heq.symm

/-- While the handle is alive, no `Terminate` is in the channel: only `tracy_finit` sends
one, and it releases the handle. -/
theorem alive_no_terminate {w : World} (hw : Reachable w) :
    w.alive = true → .terminate ∉ w.ctx.receiver := by
  induction hw with
  | init => simp [World.init]
  | @step w a _ ih =>
    cases a with
    | register name =>
      simp only [World.step]
      split
      · unfold World.tracyRegister
        dsimp only
        split
        · exact ih
        · split
          · exact World.sendToTracer_no_terminate nofun ih
          · exact ih
      · exact ih
    | submit name data now =>
      simp only [World.step]
      split
      · rcases w.tracySubmit_eq name data now with h | ⟨s, -, -, h⟩ <;> rw [h] <;> exact ih
      · exact ih
    | resume i =>
      rcases w.resume_cases i with ⟨submits, h, -⟩ | ⟨s, -, -, h⟩ | ⟨s, -, -, -, h⟩ <;>
        rw [World.step, h]
      · exact ih
      · exact World.sendToTracer_no_terminate nofun ih
      · exact ih
    | finit =>
      simp only [World.step, World.tracyFinit]
      split
      · simp
      · exact ih
    | poll events =>
      have hE := (receiverSuffix_engineKeeps w.ctx.receiver).eventHandler events
        (List.suffix_refl _)
      rcases w.poll_cases events with ⟨-, hpoll⟩ | ⟨-, ctx, state, hres, hpoll⟩ |
        ⟨-, h, ctx, hres, hpoll⟩ <;> simp only [World.step, hpoll]
      · exact ih
      · rw [hres] at hE
        exact fun halive hmem => ih halive (hE.subset hmem)
      · rw [hres] at hE
        exact fun halive hmem => ih halive (hE.of_error.subset hmem)
    | peer bytes rxEnd tx =>
      rcases w.peer_cases bytes rxEnd tx with hpeer | ⟨con, -, -, hpeer⟩ <;>
        simp only [World.step, hpeer] <;> exact ih

/-- After `tracy_finit`: the handle is released with no `tracy_submit` in progress, and either
the engine runs with the channel `msgs` and the elements `taken` as they were, or its thread
has stopped inside a handler. -/
def AfterFinit (msgs : List ChannelMessage) (taken : List BufferElement) (w : World) : Prop :=
  w.alive = false ∧ w.submits = [] ∧
    ((w.status = .running ∧ w.ctx.receiver = msgs ∧ w.ctx.taken = taken) ∨
      ∃ h, w.status = .halted h)

/-- Once the handle is released, a step other than a wakeup on the channel leaves the
channel and the elements taken as they are, unless the thread stops. -/
theorem AfterFinit.step {msgs : List ChannelMessage} {taken : List BufferElement} {w : World}
    (h : AfterFinit msgs taken w) (a : Action) (ha : ∀ events, a = .poll events → .chan ∉ events) :
    AfterFinit msgs taken (w.step a) := by
  obtain ⟨hdead, hidle, hst⟩ := h
  cases a with
  | register name =>
    simp only [World.step, hdead, Bool.false_eq_true, if_false]
    exact ⟨hdead, hidle, hst⟩
  | submit name data now =>
    simp only [World.step, hdead, Bool.false_eq_true, if_false]
    exact ⟨hdead, hidle, hst⟩
  | resume i =>
    rcases w.resume_cases i with ⟨submits, heq, hsub⟩ | ⟨s, hs, -, -⟩ | ⟨s, hs, -, -, -⟩
    · rw [World.step, heq]
      exact ⟨hdead, List.eq_nil_iff_forall_not_mem.mpr fun s hs => by simpa [hidle] using hsub s hs,
        hst⟩
    all_goals simp [hidle] at hs
  | finit =>
    simp only [World.step, hdead, Bool.false_and, Bool.false_eq_true, if_false]
    exact ⟨hdead, hidle, hst⟩
  | poll events =>
    have hchan := ha events rfl
    rcases w.poll_cases events with ⟨-, hpoll⟩ | ⟨hrun, ctx, state, hres, hpoll⟩ |
      ⟨-, h, ctx, hres, hpoll⟩ <;> simp only [World.step, hpoll]
    · exact ⟨hdead, hidle, hst⟩
    · have hE := eventHandlerLoop_no_chan events .normal w.ctx hchan
      rw [eventHandler] at hres
      rw [hres] at hE
      obtain ⟨hin, rfl⟩ := hE
      obtain ⟨-, hrec, htaken⟩ := hst.resolve_right (by simp [hrun])
      exact ⟨hdead, hidle, .inl ⟨by simp, (TracerContext.receiver_eq_of_inputs hin).trans hrec,
        (TracerContext.taken_eq_of_inputs hin).trans htaken⟩⟩
    · exact ⟨hdead, hidle, .inr ⟨h, rfl⟩⟩
  | peer bytes rxEnd tx =>
    rcases w.peer_cases bytes rxEnd tx with hpeer | ⟨con, -, -, hpeer⟩ <;>
      simp only [World.step, hpeer] <;> exact ⟨hdead, hidle, hst⟩

theorem AfterFinit.run {msgs : List ChannelMessage} {taken : List BufferElement} :
    ∀ (actions : List Action) {w : World}, AfterFinit msgs taken w →
      (∀ events, .poll events ∈ actions → .chan ∉ events) → AfterFinit msgs taken (w.run actions)
  | [], _, h, _ => h
  | a :: actions, _, h, hactions =>
    AfterFinit.run actions (h.step a fun events ha => hactions events (ha ▸ List.mem_cons_self _ _))
      fun events he => hactions events (List.mem_cons_of_mem _ he)

/-- `tracy_finit`, made once no `tracy_submit` is in progress, shuts the engine down at its
first wakeup on the channel, whatever it handles before: the thread returns from
`tracer_thread_main`, with the channel empty and every `Payload` that was in it taken, after
those taken before, in channel order. The one other outcome is a panic of the thread on the
way. -/
theorem finit_then_chan_exits {w : World} (hw : Reachable w) (halive : w.alive = true)
    (hidle : w.submits = []) (hrun : w.status = .running) (between : List Action)
    (hbetween : ∀ events, .poll events ∈ between → .chan ∉ events)
    (events : List Event) (hchan : .chan ∈ events) :
    let w' := ((w.step .finit).run between).step (.poll events)
    (w'.status = .exited ∧ w'.ctx.receiver = [] ∧
      w'.ctx.taken = w.ctx.taken ++ payloadsOf w.ctx.receiver) ∨
    w'.status = .halted .panic := by
  intro w'
  have hspin : w'.status ≠ .halted .spin :=
    (reachable_writesReadable (((hw.step .finit).run between).step (.poll events))).2
  have hfinit : w.step .finit = { w with
      ctx := { w.ctx with receiver := w.ctx.receiver ++ [.terminate] }, alive := false } := by
    simp [World.step, World.tracyFinit, World.sendToTracer, halive, hidle, hrun,
      Status.receiverAlive]
  obtain ⟨-, -, hst⟩ := AfterFinit.run between
    (show AfterFinit (w.ctx.receiver ++ [.terminate]) w.ctx.taken (w.step .finit) by
      rw [hfinit]; exact ⟨rfl, hidle, .inl ⟨hrun, rfl, rfl⟩⟩) hbetween
  rcases hst with ⟨hrun', hrec, htaken⟩ | ⟨h, hhalt⟩
  · have hE := eventHandlerLoop_terminate w.ctx.receiver (alive_no_terminate hw halive) events
      .normal _ hchan hrec
    rcases ((w.step .finit).run between).poll_cases events with ⟨hne, -⟩ |
      ⟨-, ctx, state, hres, hpoll⟩ | ⟨-, h, ctx, hres, hpoll⟩
    · exact absurd hrun' hne
    · rw [eventHandler] at hres
      rw [hres, htaken] at hE
      obtain ⟨rfl, hrec', htaken'⟩ := hE
      exact .inl (by rw [show w' = _ from hpoll]; exact ⟨rfl, hrec', htaken'⟩)
    · rw [show w' = _ from hpoll] at hspin ⊢
      cases h
      · exact .inr rfl
      · exact absurd rfl hspin
  · have hsame : w' = (w.step .finit).run between := by
      show ((w.step .finit).run between).poll events = _
      rw [World.poll, if_pos (by rw [hhalt]; exact nofun)]
    rw [hsame] at hspin ⊢
    cases h
    · exact .inr hhalt
    · exact absurd hhalt hspin

/-- A record still in the channel at `tracy_finit`, a flush of the timer before the next
wakeup, which holds `CHAN` behind a `CON_DATA`: the last wakeup takes the record. -/
theorem finit_then_chan_exits_pending :
    let w := (World.init ⟨"host", "app", 100⟩ 61455 false false).run
      [.register [0x61], .poll [.chan], .poll [.conNew (some ⟨[], .wouldBlock, []⟩)],
        .peer (Request.enable [[0x61]]).bytes .wouldBlock [], .poll [.conData],
        .submit [0x61] [1] ⟨0, 0⟩, .resume 0, .resume 0]
    Reachable w ∧ w.alive = true ∧ w.submits = [] ∧ w.status = .running ∧
    let w' := ((w.step .finit).run [.poll [.timer [queueTimeoutIdent]]]).step
      (.poll [.conData, .chan])
    (w'.status = .exited ∧ w'.ctx.receiver = [] ∧
      w'.ctx.taken = w.ctx.taken ++ payloadsOf w.ctx.receiver) ∨
    w'.status = .halted .panic :=
  ⟨(Reachable.init _ _ _ _).run _, by decide, rfl, by decide,
    finit_then_chan_exits ((Reachable.init _ _ _ _).run _) (by decide) (by rfl) (by decide)
      [.poll [.timer [queueTimeoutIdent]]] (by simp) [.conData, .chan] (by decide)⟩

end Tracy
