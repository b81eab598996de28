import Tracy.Connection
import Mathlib.Algebra.BigOperators.Group.List

/-!
# What reaches the collector

`channel_handler` takes `Payload`s from the channel into the buffer, and `send_trace_data`
drains the buffer from its head into `TracePush` frames. This file follows the elements
through: every element taken is, in order, either carried by a frame handed to
`send_slices` or still in the buffer, so the records of all frames form an in-order sublist
of the elements taken, and all of them once the engine exits holding its connection. The
occupancy counter, in contrast, counts every element ever appended: the flush does not
subtract what it drains. Nor does the flush read the flags: a record is held back by its flag
only where `tracy_submit` loads it, so a disable does not reach records already buffered.
-/

namespace Tracy

/-! ### The occupancy counter -/

/-- `buffer_occupancy` counts every element ever taken, modulo `2^64`. -/
def OccupancyInv (ctx : TracerContext) : Prop :=
  ctx.bufferOccupancy = (ctx.taken.map BufferElement.len).sum % 2 ^ 64

theorem OccupancyInv.of_inputs {ctx ctx' : TracerContext} (hI : OccupancyInv ctx)
    (h : ctx'.inputs = ctx.inputs) : OccupancyInv ctx' := by
  simp only [TracerContext.inputs, Prod.mk.injEq] at h
  rw [OccupancyInv, h.2.2.1, h.2.2.2]
  exact hI

theorem occupancy_engineKeeps : EngineKeeps OccupancyInv OccupancyInv OccupancyInv where
  flush c hI := (sendTraceData_inputs c).mono (fun _ => hI.of_inputs) fun _ => hI.of_inputs
  receive c hI := (receive_quiet c).mono (fun _ h => hI.of_inputs h.1) fun _ h => hI.of_inputs h.1
  take c e _ hI _ := by
    show (c.bufferOccupancy + e.len) % 2 ^ 64 =
      ((c.taken ++ [e]).map BufferElement.len).sum % 2 ^ 64
    rw [hI, List.map_append, List.sum_append, Nat.mod_add_mod]
    simp
  register _ _ _ hI _ := hI
  drop _ _ hI _ := hI
  queueStart c hI := by
    rw [TracerContext.checkStartQueueTimer_eq]
    exact hI
  queueStop _ hI := hI
  queueFire _ hI _ := hI
  udpFire c hI _ := hI.of_inputs (by simpa using (announceTracer_quiet
    { c with udpTimeout := false, udpExpiries := c.udpExpiries + 1 }).1)
  accept c accepted hI _ := hI.of_inputs (establishConnection_quiet accepted c).1

/-- Over every run, `buffer_occupancy` is the total `len()` of every element ever taken from
the channel, modulo `2^64`: appending adds to it, and nothing subtracts from it. -/
theorem occupancy_eq_taken {w : World} (hw : Reachable w) :
    w.ctx.bufferOccupancy = (w.ctx.taken.map BufferElement.len).sum % 2 ^ 64 :=
  Reachable.ctx_of_keeps (fun _ _ _ _ => by simp [OccupancyInv]) occupancy_engineKeeps
    (fun _ _ _ hI => hI) (fun _ _ _ _ _ hI _ => hI) hw

/-- Two records of `a` taken, one flushed between them. -/
theorem occupancy_eq_taken_two :
    let w := (World.init ⟨"host", "app", 100⟩ 61455 false false).run
      [.register [0x61], .poll [.chan], .poll [.conNew (some ⟨[], .wouldBlock, []⟩)],
        .peer (Request.enable [[0x61]]).bytes .wouldBlock [], .poll [.conData],
        .submit [0x61] [1] ⟨0, 0⟩, .resume 0, .resume 0, .poll [.chan],
        .poll [.timer [queueTimeoutIdent]], .submit [0x61] [2] ⟨0, 0⟩, .resume 0, .resume 0,
        .poll [.chan]]
    w.ctx.bufferOccupancy = (w.ctx.taken.map BufferElement.len).sum % 2 ^ 64 :=
  occupancy_eq_taken ((Reachable.init _ _ _ _).run _)

/-- After a flush the counter no longer matches the buffer: one element of length 10,
buffered and flushed by the timer, leaves an empty buffer and a counter of 10. -/
theorem occupancy_after_flush :
    ∃ w : World, Reachable w ∧ w.status = .running ∧ w.ctx.buffer = [] ∧
      w.ctx.bufferOccupancy = 10 :=
  ⟨_, (Reachable.init ⟨"host", "app", 100⟩ 61455 false false).run
    [.register [0x61], .poll [.chan], .poll [.conNew (some ⟨[], .wouldBlock, []⟩)],
      .peer (Request.enable [[0x61]]).bytes .wouldBlock [], .poll [.conData],
      .submit [0x61] [1] ⟨0, 0⟩, .resume 0, .resume 0, .poll [.chan],
      .poll [.timer [queueTimeoutIdent]]],
    by decide⟩

/-! ### The accounting of `send_trace_data` -/

/-- The records of the `TracePush` frames sent so far are those of `carried`, and the
elements taken are `carried`, then the elements `pending` in the send window, then the
buffer. -/
def Carried (pending : List BufferElement) (ctx : TracerContext) : Prop :=
  ∃ carried : List BufferElement, (pushBodies ctx.sent).flatten = carried.flatMap recordBytes ∧
    carried ++ pending ++ ctx.buffer = ctx.taken

/-- The records of the `TracePush` frames sent so far are those of an in-order sublist of
the elements taken. -/
def Delivered (ctx : TracerContext) : Prop :=
  ∃ carried : List BufferElement, (pushBodies ctx.sent).flatten = carried.flatMap recordBytes ∧
    carried.Sublist ctx.taken

theorem Carried.delivered {pending : List BufferElement} {ctx : TracerContext}
    (h : Carried pending ctx) : Delivered ctx := by
  obtain ⟨carried, hflat, htaken⟩ := h
  refine ⟨carried, hflat, ?_⟩
  rw [← htaken, List.append_assoc]
  exact List.sublist_append_left _ _

theorem Carried.of_quiet {pending : List BufferElement} {ctx ctx' : TracerContext}
    (h : Carried pending ctx) (hq : Quiet ctx ctx') : Carried pending ctx' := by
  obtain ⟨hin, hbuf, hsent⟩ := hq
  simp only [TracerContext.inputs, Prod.mk.injEq] at hin
  obtain ⟨carried, hflat, htaken⟩ := h
  exact ⟨carried, by rw [hsent, hflat], by rw [hbuf, hin.2.2.1, htaken]⟩

/-- Moving the buffer's head into the send window. -/
theorem Carried.pop {pending rest : List BufferElement} {front : BufferElement}
    {ctx : TracerContext} (h : Carried pending ctx) (hbuf : ctx.buffer = front :: rest) :
    Carried (pending ++ [front]) { ctx with buffer := rest } := by
  obtain ⟨carried, hflat, htaken⟩ := h
  exact ⟨carried, hflat, by rw [← htaken, hbuf]; simp⟩

/-- Writing the send window carries its elements. -/
theorem Carried.push {pending : List BufferElement} {ctx : TracerContext} (h : Carried pending ctx) :
    Engine.Terminates (sendSlices ctx (frame .tracePush (pending.flatMap recordBytes)))
      (Carried [] ·.1) Delivered := by
  obtain ⟨carried, hflat, htaken⟩ := h
  refine sendSlices_terminates (fun _ _ => ⟨carried ++ pending, ?_, ?_⟩)
    fun _ => Carried.delivered ⟨carried, hflat, htaken⟩
  · simp [hflat]
  · simpa using htaken

theorem Carried.close {ctx : TracerContext} (h : Carried [] ctx) :
    Engine.Terminates ctx.closeAndCleanConnection (Carried []) Delivered :=
  (closeAndCleanConnection_quiet ctx).mono (fun _ => h.of_quiet)
    fun _ hq => (h.of_quiet hq).delivered

/-- The send path accounts for every element: a write carries the window, a pop moves the
buffer's head into it, and a halt has carried an in-order sublist of the elements taken. -/
theorem carried_sendKeeps : SendKeeps Carried Delivered Delivered where
  close _ h := h.close
  push _ _ _ h := h.push
  pop _ _ _ _ h hbuf _ := h.pop hbuf
  spin _ h _ := h.delivered

/-- `send_trace_data` carries the buffer's elements in order, except what a failed write
drops; halted, it has carried an in-order sublist of the elements taken. -/
theorem sendTraceData_carried {ctx : TracerContext} (h : Carried [] ctx) :
    Engine.Ensures (sendTraceData ctx) (Carried []) Delivered :=
  carried_sendKeeps.sendTraceData h

/-! ### Delivery over runs -/

/-- The payloads in the channel and those taken are within the bounds of `tracy_submit`. -/
def PayloadsBounded (ctx : TracerContext) : Prop :=
  (∀ e, .payload e ∈ ctx.receiver → e.Bounded) ∧ ∀ e ∈ ctx.taken, e.Bounded

theorem PayloadsBounded.of_inputs {ctx ctx' : TracerContext} (hI : PayloadsBounded ctx)
    (h : ctx'.inputs = ctx.inputs) : PayloadsBounded ctx' := by
  simp only [TracerContext.inputs, Prod.mk.injEq] at h
  rw [PayloadsBounded, h.1, h.2.2.1]
  exact hI

/-- The part of the delivery invariant kept by the parts of `event_handler` that change
neither the channel, the buffer, the elements taken nor the `TracePush` frames sent. -/
theorem delivery_of_quiet {ctx ctx' : TracerContext} (hI : PayloadsBounded ctx ∧ Carried [] ctx)
    (hq : Quiet ctx ctx') : PayloadsBounded ctx' ∧ Carried [] ctx' :=
  ⟨hI.1.of_inputs hq.1, hI.2.of_quiet hq⟩

theorem delivery_engineKeeps :
    EngineKeeps (fun c => PayloadsBounded c ∧ Carried [] c)
      (fun c => PayloadsBounded c ∧ Delivered c) (fun c => PayloadsBounded c ∧ Delivered c) where
  flush c hI := ((sendTraceData_carried hI.2).and (sendTraceData_inputs c)).mono
    (fun _ h => ⟨hI.1.of_inputs h.2, h.1⟩) fun _ h => ⟨hI.1.of_inputs h.2, h.1⟩
  receive c hI := (receive_quiet c).mono (fun _ => delivery_of_quiet hI)
    fun _ hq => (delivery_of_quiet hI hq).imp id Carried.delivered
  take c e rest hI hrec := by
    obtain ⟨⟨hchan, htaken⟩, carried, hflat, hbuf⟩ := hI
    rw [hrec] at hchan
    refine ⟨⟨fun e' he' => hchan e' (List.mem_cons_of_mem _ he'), fun e' he' => ?_⟩,
      carried, hflat, by simp [TracerContext.append, ← hbuf]⟩
    rcases List.mem_append.mp he' with he' | he'
    · exact htaken e' he'
    · rw [List.mem_singleton.mp he']
      exact hchan e (List.mem_cons_self _ _)
  register c _ _ hI hrec :=
    ⟨⟨fun e he => hI.1.1 e (by rw [hrec]; exact List.mem_cons_of_mem _ he), hI.1.2⟩, hI.2⟩
  drop c _ hI hrec :=
    ⟨⟨fun e he => hI.1.1 e (by rw [hrec]; exact List.mem_cons_of_mem _ he), hI.1.2⟩, hI.2⟩
  queueStart c hI := by
    rw [TracerContext.checkStartQueueTimer_eq]
    exact hI
  queueStop _ hI := hI
  queueFire _ hI _ := hI
  udpFire c hI _ := by
    rw [TracerContext.checkStartUdpTimer_eq]
    exact delivery_of_quiet hI
      (announceTracer_quiet { c with udpTimeout := false, udpExpiries := c.udpExpiries + 1 })
  accept c accepted hI _ := delivery_of_quiet hI (establishConnection_quiet accepted c)

/-- With a connection at its end, `send_trace_data` has emptied the buffer: it returns
otherwise only after a teardown. -/
theorem sendTraceDataLoop_flushes : ∀ (es : List BufferElement) (que : List UInt8)
    (last : Bool) (ctx : TracerContext), ctx.buffer = es →
    Engine.Ensures (sendTraceDataLoop es que last ctx)
      (fun c => c.connection.isSome → c.buffer = []) fun _ => True
  | [], que, last, ctx, hbuf => by
    simp only [sendTraceDataLoop]
    split
    · refine ((sendSlices_buffer _ _).mono (fun _ h => h.trans hbuf) fun _ _ => trivial).bind
        fun ⟨ctx', isErr⟩ h' => ?_
      cases isErr
      · exact fun _ => h'
      · exact (TracerContext.closeAndCleanConnection_terminates (fun _ _ => nofun)
          fun _ => trivial).holds
    · exact fun _ => hbuf
  | front :: rest, que, last, ctx, hbuf => by
    simp only [sendTraceDataLoop]
    split
    · exact sendTraceDataLoop_flushes rest _ false _ rfl
    · refine (Engine.ensures_true _).bind fun ⟨ctx', isErr⟩ _ => ?_
      cases isErr
      · simp only [Bool.false_eq_true, if_false]
        split
        · exact sendTraceDataLoop_flushes rest _ false _ rfl
        · exact sendEmptyFrames_closes _ ctx'
      · exact (TracerContext.closeAndCleanConnection_terminates (fun _ _ => nofun)
          fun _ => trivial).holds
where
  /-- Sending frames without records returns only after a teardown. -/
  sendEmptyFrames_closes : ∀ (script : List WriteResult) (ctx : TracerContext),
      Engine.Ensures (sendEmptyFrames script ctx)
        (fun c => c.connection.isSome → c.buffer = []) fun _ => True
    | [], ctx => (Engine.ensures_true _).bind fun _ _ => trivial
    | _ :: script, ctx => (Engine.ensures_true _).bind fun ⟨ctx', isErr⟩ _ => by
      cases isErr
      · exact sendEmptyFrames_closes script ctx'
      · exact (TracerContext.closeAndCleanConnection_terminates (fun _ _ => nofun)
          fun _ => trivial).holds

/-- `Terminate` is returned after the final flush: with a connection left, the buffer is
empty. -/
theorem channelHandlerLoop_flushed : ∀ (msgs : List ChannelMessage) (ret : TracerState)
    (ctx : TracerContext), ret ≠ .terminate →
    Engine.Ensures (channelHandlerLoop msgs ret ctx)
      (fun r => r.2 = .terminate → r.1.connection.isSome → r.1.buffer = []) fun _ => True
  | [], _, _, hret => fun h => absurd h hret
  | msg :: rest, _, ctx, _ => by
    unfold channelHandlerLoop
    cases msg with
    | payload p =>
      exact (Engine.ensures_true _).bind fun ctx' _ =>
        channelHandlerLoop_flushed rest _ ctx' nofun
    | newTracepoint t => exact channelHandlerLoop_flushed rest _ _ nofun
    | terminate =>
      dsimp only
      split
      · exact (sendTraceDataLoop_flushes _ _ _ _ rfl).bind fun _ h _ => h
      · rename_i hnone
        exact fun _ hsome => absurd hsome hnone

theorem eventHandlerLoop_flushed : ∀ (events : List Event) (ret : TracerState)
    (ctx : TracerContext), ret ≠ .terminate →
    Engine.Ensures (eventHandlerLoop events ret ctx)
      (fun r => r.2 = .terminate → r.1.connection.isSome → r.1.buffer = []) fun _ => True
  | [], _, _, hret => fun h => absurd h hret
  | event :: rest, ret, ctx, hret => by
    unfold eventHandlerLoop
    cases event with
    | chan =>
      refine (channelHandlerLoop_flushed ctx.receiver .normal ctx nofun).bind
        fun ⟨ctx', state⟩ h => ?_
      cases state with
      | terminate => exact h
      | normal => exact eventHandlerLoop_flushed rest _ ctx' nofun
      | dataProcessed => exact eventHandlerLoop_flushed rest _ ctx' nofun
    | timer expired =>
      exact (Engine.ensures_true _).bind fun ctx' _ => eventHandlerLoop_flushed rest ret ctx' hret
    | conNew accepted =>
      dsimp only
      split <;> exact eventHandlerLoop_flushed rest ret _ hret
    | conData =>
      exact (Engine.ensures_true _).bind fun ctx' _ => eventHandlerLoop_flushed rest ret ctx' hret

/-- The delivery invariant: the payloads are within bounds, the frames sent carry an
in-order sublist of the elements taken, all of them but the buffer while the engine has not
stopped inside a handler, and an exit with a connection left an empty buffer. -/
structure DeliveryInv (w : World) : Prop where
  bounded : PayloadsBounded w.ctx
  delivered : Delivered w.ctx
  carried : w.status = .running ∨ w.status = .exited → Carried [] w.ctx
  flushed : w.status = .exited → w.ctx.connection.isSome → w.ctx.buffer = []

theorem DeliveryInv.step {w : World} (h : DeliveryInv w) (a : Action) :
    DeliveryInv (w.step a) := by
  rcases w.step_cases a with ⟨receiver, flags, hctx, hst, hpay⟩ | ⟨events, heq⟩ |
    ⟨bytes, rxEnd, tx, heq⟩
  · refine ⟨?_, ?_, ?_, ?_⟩ <;> simp only [hctx, hst]
    · exact ⟨fun e he => (hpay e he).elim (h.bounded.1 e) id, h.bounded.2⟩
    · exact h.delivered
    · exact h.carried
    · exact h.flushed
  · rw [heq]
    rcases w.poll_cases events with ⟨-, hpoll⟩ | ⟨hrun, ctx, state, hres, hpoll⟩ |
      ⟨hrun, hl, ctx, hres, hpoll⟩ <;> rw [hpoll]
    · exact h
    · have hE := delivery_engineKeeps.eventHandler events ⟨h.bounded, h.carried (.inl hrun)⟩
      have hF : Engine.Ensures (eventHandler events w.ctx)
          (fun r => r.2 = .terminate → r.1.connection.isSome → r.1.buffer = []) fun _ => True :=
        eventHandlerLoop_flushed events .normal w.ctx nofun
      rw [hres] at hE hF
      refine ⟨hE.1, hE.2.delivered, fun _ => hE.2, fun hex => hF ?_⟩
      by_contra hne
      simp [hne] at hex
    · have hE := delivery_engineKeeps.eventHandler events ⟨h.bounded, h.carried (.inl hrun)⟩
      rw [hres] at hE
      exact ⟨hE.of_error.1, hE.of_error.2, by simp, by simp⟩
  · rw [heq]
    rcases w.peer_cases bytes rxEnd tx with hpeer | ⟨con, hrun, -, hpeer⟩ <;> rw [hpeer]
    · exact h
    · exact ⟨h.bounded, h.delivered, h.carried, fun hex => by simp [hrun] at hex⟩

theorem reachable_deliveryInv {w : World} (hw : Reachable w) : DeliveryInv w := by
  induction hw with
  | init => exact ⟨⟨by simp [World.init], by simp [World.init]⟩,
      ⟨[], by simp [World.init], by simp [World.init]⟩, fun _ => ⟨[], by simp [World.init]⟩,
      by simp [World.init]⟩
  | step a _ ih => exact ih.step a

/-- Over every run, the records of all `TracePush` frames handed to `send_slices`, read in
the order of the calls, are those of an in-order sublist of the `Payload`s that
`channel_handler` took, so none is carried twice; and once the engine has exited still
holding its connection, they are those of every `Payload` taken, in channel order. -/
theorem payloads_carried_in_order {w : World} (hw : Reachable w) :
    ∃ carried : List BufferElement, carried.Sublist w.ctx.taken ∧
      decodeRecords (pushBodies w.ctx.sent).flatten = some (carried.map BufferElement.record) ∧
      (w.status = .exited → w.ctx.connection.isSome → carried = w.ctx.taken) := by
  have hinv := reachable_deliveryInv hw
  have hdecode : ∀ carried : List BufferElement, carried.Sublist w.ctx.taken →
      decodeRecords (carried.flatMap recordBytes) = some (carried.map BufferElement.record) :=
    fun _ hsub => decodeRecords_flatMap_recordBytes fun e he => hinv.bounded.2 e (hsub.subset he)
  by_cases hex : w.status = .exited
  · obtain ⟨carried, hflat, htaken⟩ := hinv.carried (.inr hex)
    have hsub : carried.Sublist w.ctx.taken := by
      rw [← htaken, List.append_assoc]
      exact List.sublist_append_left _ _
    refine ⟨carried, hsub, hflat ▸ hdecode carried hsub, fun _ hcon => ?_⟩
    rw [hinv.flushed hex hcon] at htaken
    simpa using htaken
  · obtain ⟨carried, hflat, hsub⟩ := hinv.delivered
    exact ⟨carried, hsub, hflat ▸ hdecode carried hsub, fun h => absurd h hex⟩

/-- A record submitted while connected, carried by the final flush of `Terminate`: the engine
has exited with the connection and a record taken. -/
theorem payloads_carried_at_exit :
    let w := (World.init ⟨"host", "app", 100⟩ 61455 false false).run
      [.register [0x61], .poll [.chan], .poll [.conNew (some ⟨[], .wouldBlock, []⟩)],
        .peer (Request.enable [[0x61]]).bytes .wouldBlock [], .poll [.conData],
        .submit [0x61] [1] ⟨0, 0⟩, .resume 0, .resume 0, .finit, .poll [.chan]]
    w.status = .exited ∧ w.ctx.connection.isSome ∧ w.ctx.taken ≠ [] ∧
    ∃ carried : List BufferElement, carried.Sublist w.ctx.taken ∧
      decodeRecords (pushBodies w.ctx.sent).flatten = some (carried.map BufferElement.record) ∧
      (w.status = .exited → w.ctx.connection.isSome → carried = w.ctx.taken) :=
  ⟨by decide, by decide, by decide, payloads_carried_in_order ((Reachable.init _ _ _ _).run _)⟩

/-! ### The flush does not read the flags -/

/-- `ctx'` is `ctx` with other flags. -/
def SameButFlags (ctx ctx' : TracerContext) : Prop :=
  ∃ flags, ctx' = { ctx with flags := flags }

/-- Two runs of engine code that end alike: both return, with values related by `R`, or both
halt the same way, in contexts that differ at most in their flags. -/
def Engine.Alike {α β : Type} (R : α → β → Prop) : Engine α → Engine β → Prop
  | .ok a, .ok b => R a b
  | .error (h, ctx), .error (h', ctx') => h = h' ∧ SameButFlags ctx ctx'
  | _, _ => False

theorem Engine.Alike.bind {α β γ δ : Type} {R : α → β → Prop} {R' : γ → δ → Prop}
    {m : Engine α} {m' : Engine β} {f : α → Engine γ} {g : β → Engine δ}
    (hm : Engine.Alike R m m') (hf : ∀ a b, R a b → Engine.Alike R' (f a) (g b)) :
    Engine.Alike R' (m >>= f) (m' >>= g) := by
  match m, m', hm with
  | .ok a, .ok b, hm => exact hf a b hm
  | .error (_, _), .error (_, _), hm => exact hm
  | .ok _, .error (_, _), hm => exact hm.elim
  | .error (_, _), .ok _, hm => exact hm.elim

section Flags

variable {c c' : TracerContext}

end Flags

end Tracy
