import Tracy.Window
import Tracy.Names
import Tracy.Registry

/-!
# What the collector reads

Every byte string the engine hands to `send_slices` is one frame that a collector can read:
a `TracePush` frame whose body holds the whole records of a run of consecutive elements
taken from the channel, at least one, or a `TracepointListReply` whose body lists names of
the registry, each once. The same invariant gives the elements in the buffer a size that
fits an empty send window, so the endless loop of `send_trace_data` is never entered: over
every run the engine thread never spins. Nothing here depends on the order in which the
registry's `HashMap` is iterated.
-/

namespace Tracy

/-- A byte string that a collector reads as one frame: a `TracePush` frame of the records of
a run of consecutive elements taken from the channel, at least one, that fits
`QUEUE_TOTAL_SIZE + 3` bytes, or a list reply of distinct names of the registry. -/
def ReadableWrite (taken : List BufferElement) (keys : List (List UInt8)) (m : List UInt8) :
    Prop :=
  (∃ es : List BufferElement, es ≠ [] ∧ es <:+: taken ∧
    (es.flatMap recordBytes).length + headerLen ≤ queueTotalSize + 3 ∧
    m = frame .tracePush (es.flatMap recordBytes)) ∨
  ∃ names : List (List UInt8), names.Nodup ∧ (∀ n ∈ names, n ∈ keys) ∧
    m = frame .tracepointListReply (names.flatMap requestItem)

/-- Elements taken later and names registered later keep a write readable. -/
theorem ReadableWrite.mono {taken taken' : List BufferElement} {keys keys' : List (List UInt8)}
    {m : List UInt8} (h : ReadableWrite taken keys m) (ht : taken <+: taken')
    (hk : ∀ k ∈ keys, k ∈ keys') : ReadableWrite taken' keys' m := by
  rcases h with ⟨es, hne, hinf, hfit, rfl⟩ | ⟨names, hnodup, hmem, rfl⟩
  · exact .inl ⟨es, hne, hinf.trans ht.isInfix, hfit, rfl⟩
  · exact .inr ⟨names, hnodup, fun n hn => hk n (hmem n hn), rfl⟩

/-- Every write so far is readable against the elements taken and the registry's names. -/
def WritesReadable (ctx : TracerContext) : Prop :=
  ∀ m ∈ ctx.sent, ReadableWrite ctx.taken (ctx.tracepoints.map Prod.fst) m

/-- `HashMap::insert` keeps the names of a map in their order and appends a new one. -/
theorem keys_insertKey (entries : List (List UInt8 × Cell)) (k : List UInt8) (v : Cell) :
    (insertKey entries k v).map Prod.fst =
      if hasKey entries k then entries.map Prod.fst else entries.map Prod.fst ++ [k] := by
  unfold insertKey
  split
  · rw [List.map_map]
    exact List.map_congr_left fun e _ => by by_cases he : e.1 = k <;> simp [he]
  · simp

/-- `HashMap::insert` keeps the names of a map distinct. -/
theorem nodup_keys_insertKey {entries : List (List UInt8 × Cell)} (k : List UInt8) (v : Cell)
    (h : (entries.map Prod.fst).Nodup) : ((insertKey entries k v).map Prod.fst).Nodup := by
  rw [keys_insertKey]
  split
  · exact h
  · rename_i hnew
    exact h.append (List.nodup_singleton k)
      (List.disjoint_singleton.mpr (by rwa [← hasKey_iff]))

/-- The engine's context as far as its writes are concerned, with the elements `pending` in
the send window: the payloads are within the bounds of `tracy_submit`, the registry's names
are distinct, the window fits `QUEUE_TOTAL_SIZE + 3` bytes with its header, the window and
the buffer are the last elements taken, in order, and every write so far is readable. -/
structure WriteInv (pending : List BufferElement) (ctx : TracerContext) : Prop where
  payloads : ∀ e, .payload e ∈ ctx.receiver → e.Bounded
  taken : ∀ e ∈ ctx.taken, e.Bounded
  keys : (ctx.tracepoints.map Prod.fst).Nodup
  fits : (pending.flatMap recordBytes).length + headerLen ≤ queueTotalSize + 3
  window : pending ++ ctx.buffer <:+ ctx.taken
  writes : WritesReadable ctx

/-- A context that agrees with one satisfying the invariant on the fields it reads. -/
theorem WriteInv.congr {pending : List BufferElement} {ctx ctx' : TracerContext}
    (h : WriteInv pending ctx) (hrec : ctx'.receiver = ctx.receiver) (htaken : ctx'.taken = ctx.taken)
    (hbuf : ctx'.buffer = ctx.buffer) (htp : ctx'.tracepoints = ctx.tracepoints)
    (hsent : ctx'.sent = ctx.sent) : WriteInv pending ctx' := by
  obtain ⟨hpay, htk, hkeys, hfit, hwin, hw⟩ := h
  refine ⟨?_, ?_, ?_, hfit, ?_, ?_⟩ <;>
    simp only [WritesReadable, hrec, htaken, hbuf, htp, hsent]
  exacts [hpay, htk, hkeys, hwin, hw]

/-- Every element in the buffer was taken within the bounds of `tracy_submit`, so it fits an
empty send window. -/
theorem WriteInv.not_fitsNoWindow {pending : List BufferElement} {ctx : TracerContext}
    (h : WriteInv pending ctx) : ¬FitsNoWindow ctx.buffer := fun ⟨front, _, hbuf, hwide⟩ => by
  have := (h.taken front (((List.suffix_append _ _).trans h.window).subset
    (by rw [hbuf]; exact List.mem_cons_self _ _))).fits_window
  omega

theorem WriteInv.close {ctx : TracerContext} (h : WriteInv [] ctx) :
    Engine.Terminates ctx.closeAndCleanConnection (WriteInv []) WritesReadable :=
  TracerContext.closeAndCleanConnection_terminates (fun _ _ => h.congr rfl rfl rfl rfl rfl)
    fun _ => h.writes

/-- The send loop keeps the invariant window by window, and never enters the endless loop. -/
theorem writeInv_sendKeeps : SendKeeps WriteInv WritesReadable fun _ => False where
  close _ h := h.close
  push c pending hpush h := sendSlices_terminates (fun _ _ => by
      have hne := hpush.resolve_right h.not_fitsNoWindow
      obtain ⟨hpay, htk, hkeys, hfit, hwin, hw⟩ := h
      refine ⟨hpay, htk, hkeys, by simp [headerLen, queueTotalSize],
        (List.suffix_append _ _).trans hwin, fun m hm => ?_⟩
      rcases List.mem_append.mp hm with hm | hm
      · exact hw m hm
      · rw [List.mem_singleton.mp hm]
        exact .inl ⟨pending, hne, (List.prefix_append _ _).isInfix.trans hwin.isInfix, hfit, rfl⟩)
    fun _ => h.writes
  pop c pending front rest h hbuf hguard := by
    obtain ⟨hpay, htk, hkeys, -, hwin, hw⟩ := h
    /- The check counts `len()`; the record takes four bytes more. -/
    have hfit : ((pending ++ [front]).flatMap recordBytes).length + headerLen ≤
        queueTotalSize + 3 := by
      simp only [List.flatMap_append, List.length_append, List.flatMap_singleton,
        length_recordBytes]
      unfold headerLen queueTotalSize at *
      omega
    exact ⟨hpay, htk, hkeys, hfit, by simpa [hbuf] using hwin, hw⟩
  spin _ h := h.not_fitsNoWindow

/-- The receive path keeps the invariant: a list reply lists the registry's names. -/
theorem writeInv_receiveKeeps : ReceiveKeeps (WriteInv []) WritesReadable where
  close _ h := h.close
  reply c h := sendSlices_terminates (fun _ _ => by
      refine ⟨h.payloads, h.taken, h.keys, h.fits, h.window, fun m hm => ?_⟩
      rcases List.mem_append.mp hm with hm | hm
      · exact h.writes m hm
      · rw [List.mem_singleton.mp hm, tracepointListBody_eq]
        exact .inr ⟨_, h.keys, fun _ hn => hn, rfl⟩)
    fun _ => h.writes
  store c name state h := by
    unfold TracerContext.storeTracepoint
    split
    · exact h.congr rfl rfl rfl rfl rfl
    · exact h
  reader _ _ h := h.congr rfl rfl rfl rfl rfl

/-- Every part of `event_handler` keeps the invariant, and the flushes and reads end. -/
theorem writeInv_engineKeeps : EngineKeeps (WriteInv []) WritesReadable fun _ => False where
  flush _ h := writeInv_sendKeeps.sendTraceData h
  receive _ h := writeInv_receiveKeeps.receive h h.writes
  take c e rest h hrec := by
    obtain ⟨hpay, htk, hkeys, hfit, ⟨older, hwin⟩, hw⟩ := h
    rw [hrec] at hpay
    have he : e.Bounded := hpay e (List.mem_cons_self _ _)
    refine ⟨fun e' he' => hpay e' (List.mem_cons_of_mem _ he'), fun e' he' => ?_, hkeys, hfit,
      ⟨older, by simp [TracerContext.append, ← hwin]⟩, fun m hm =>
      (hw m hm).mono (List.prefix_append _ _) fun _ hk => hk⟩
    rcases List.mem_append.mp he' with he' | he'
    · exact htk e' he'
    · rw [List.mem_singleton.mp he']; exact he
  register c t rest h hrec := by
    obtain ⟨hpay, htk, hkeys, hfit, hwin, hw⟩ := h
    rw [hrec] at hpay
    refine ⟨fun e he => hpay e (List.mem_cons_of_mem _ he), htk,
      nodup_keys_insertKey _ _ hkeys, hfit, hwin, fun m hm => (hw m hm).mono
        (List.prefix_refl _) fun k hk => ?_⟩
    rw [TracerContext.insertTracepoint, keys_insertKey]
    split
    · exact hk
    · exact List.mem_append_left _ hk
  drop c rest h hrec := by
    obtain ⟨hpay, htk, hkeys, hfit, hwin, hw⟩ := h
    rw [hrec] at hpay
    exact ⟨fun e he => hpay e (List.mem_cons_of_mem _ he), htk, hkeys, hfit, hwin, hw⟩
  queueStart c h := by rw [TracerContext.checkStartQueueTimer_eq]; exact h.congr rfl rfl rfl rfl rfl
  queueStop _ h := h.congr rfl rfl rfl rfl rfl
  queueFire _ h _ := h.congr rfl rfl rfl rfl rfl
  udpFire c h _ := by
    rw [TracerContext.checkStartUdpTimer_eq]
    unfold announceTracer
    split <;> exact h.congr rfl rfl rfl rfl rfl
  accept c accepted h _ := by
    unfold establishConnection
    split <;> exact h.congr rfl rfl rfl rfl rfl

/-! ### Over runs -/

/-- The handle's registry changes only by `tracy_register` inserting a name that
`fix_tracepoint_str` returned. -/
theorem World.step_handle (w : World) (a : Action) :
    (w.step a).handle = w.handle ∨ ∃ name fixed, fixTracepointStr name = .ok fixed ∧
      (w.step a).handle = ⟨insertKey w.handle.tracepoints fixed w.nextCell⟩ := by
  cases a with
  | register name =>
    simp only [World.step, World.tracyRegister]
    split
    · split
      · exact .inl rfl
      · split
        · exact .inr ⟨name, _, ‹_›, by simp⟩
        · exact .inl rfl
    · exact .inl rfl
  | submit name data now =>
    simp only [World.step]
    refine .inl ?_
    split
    · rcases w.tracySubmit_eq name data now with h | ⟨s, -, -, h⟩ <;> rw [h]
    · rfl
  | resume i =>
    refine .inl ?_
    rcases w.resume_cases i with ⟨submits, h, -⟩ | ⟨s, -, -, h⟩ | ⟨s, -, -, -, h⟩ <;>
      rw [World.step, h]
    simp
  | finit => simp only [World.step, World.tracyFinit]; split <;> simp
  | poll events =>
    refine .inl ?_
    simp only [World.step, World.poll]
    split <;> (try split) <;> rfl
  | peer bytes rxEnd tx => simp only [World.step, World.peer]; refine .inl ?_; split <;> rfl

/-- The names in the handle's registry fit `MAX_TRACEPOINT_NAME_LEN`. -/
theorem handle_names_fit {w : World} (hw : Reachable w) :
    ∀ k ∈ w.handle.tracepoints.map Prod.fst, k.length ≤ maxTracepointNameLen := by
  induction hw with
  | init => simp [World.init]
  | @step w a _ ih =>
    rcases w.step_handle a with h | ⟨name, fixed, hfix, h⟩ <;> rw [h]
    · exact ih
    · intro k hk
      rw [keys_insertKey] at hk
      split at hk
      · exact ih k hk
      · rcases List.mem_append.mp hk with hk | hk
        · exact ih k hk
        · rw [List.mem_singleton.mp hk]; exact fixTracepointStr_length hfix

/-- The engine's names are the first of the handle's. -/
theorem engine_keys_lead {w : World} (hw : Reachable w) :
    w.ctx.tracepoints.map Prod.fst <+: w.handle.tracepoints.map Prod.fst := by
  obtain ⟨lost, hlost⟩ := (reachable_registryInv hw).leads
  rw [← hlost, TracerContext.registrations, List.append_assoc, List.map_append]
  exact List.prefix_append _ _

/-- At a point where the engine runs, the delivery invariant gives the write invariant. -/
theorem writeInv_of_running {w : World} (hw : Reachable w) (hrun : w.status = .running)
    (h : WritesReadable w.ctx) : WriteInv [] w.ctx := by
  have hinv := reachable_deliveryInv hw
  obtain ⟨carried, -, htaken⟩ := hinv.carried (.inl hrun)
  have hkeys := (reachable_registryInv hw).nodup.sublist (engine_keys_lead hw).sublist
  exact ⟨hinv.bounded.1, hinv.bounded.2, hkeys, by simp [headerLen, queueTotalSize],
    ⟨carried, by simpa using htaken⟩, h⟩

/-- Writes are readable and the engine has not entered the endless loop, at every point of
every run: an `event_handler` call from a running engine returns or panics. -/
theorem reachable_writesReadable {w : World} (hw : Reachable w) :
    WritesReadable w.ctx ∧ w.status ≠ .halted .spin := by
  induction hw with
  | init => simp [World.init, WritesReadable]
  | @step w a hw ih =>
    rcases w.step_cases a with ⟨receiver, flags, hctx, hst, -⟩ | ⟨events, heq⟩ |
      ⟨bytes, rxEnd, tx, heq⟩
    · rw [hctx, hst]; exact ih
    · rw [heq]
      rcases w.poll_cases events with ⟨-, hpoll⟩ | ⟨hrun, ctx, state, hres, hpoll⟩ |
        ⟨hrun, h, ctx, hres, hpoll⟩ <;> rw [hpoll]
      · exact ih
      all_goals
        have hE := writeInv_engineKeeps.eventHandler events (writeInv_of_running hw hrun ih.1)
        rw [hres] at hE
      · exact ⟨hE.writes, by split <;> simp⟩
      · cases h with
        | panic => exact ⟨hE, by simp⟩
        | spin => exact hE.elim
    · rw [heq]
      rcases w.peer_cases bytes rxEnd tx with hpeer | ⟨con, -, -, hpeer⟩ <;> rw [hpeer] <;>
        exact ih

/-- Over every run, every byte string the engine has handed to `send_slices` is one frame
that the collector reads back. Either it is a `TracePush` frame of at most
`QUEUE_TOTAL_SIZE + 3` bytes whose body is the records of a run of consecutive `Payload`s
that `channel_handler` took, at least one, and decodes to exactly those records; or it is a
`TracepointListReply` frame whose body lists distinct names of the engine's registry and
decodes to exactly those names. -/
theorem frames_readable {w : World} (hw : Reachable w) : ∀ m ∈ w.ctx.sent,
    (∃ es : List BufferElement, es ≠ [] ∧ es <:+: w.ctx.taken ∧
      m = frame .tracePush (es.flatMap recordBytes) ∧ m.length ≤ queueTotalSize + 3 ∧
      decodeRecords (es.flatMap recordBytes) = some (es.map BufferElement.record)) ∨
    ∃ names : List (List UInt8), names.Nodup ∧ (∀ n ∈ names, n ∈ w.ctx.tracepoints.map Prod.fst) ∧
      m = frame .tracepointListReply (names.flatMap requestItem) ∧
      decodeItems (names.flatMap requestItem) = some names := by
  intro m hm
  rcases (reachable_writesReadable hw).1 m hm with ⟨es, hne, hinf, hfit, rfl⟩ |
    ⟨names, hnodup, hkeys, rfl⟩
  · refine .inl ⟨es, hne, hinf, rfl, by rwa [length_frame, Nat.add_comm], ?_⟩
    exact decodeRecords_flatMap_recordBytes fun e he =>
      (reachable_deliveryInv hw).bounded.2 e (hinf.subset he)
  · refine .inr ⟨names, hnodup, hkeys, rfl, decodeItems_requestItems fun n hn => ?_⟩
    have hfit := handle_names_fit hw n ((engine_keys_lead hw).subset (hkeys n hn))
    unfold maxTracepointNameLen at hfit
    omega

/-- A record flushed by the flush timer, then a list reply. -/
theorem frames_readable_flush_and_list :
    let w := (World.init ⟨"host", "app", 100⟩ 61455 false false).run
      [.register [0x61], .poll [.chan], .poll [.conNew (some ⟨[], .wouldBlock, []⟩)],
        .peer (Request.enable [[0x61]]).bytes .wouldBlock [], .poll [.conData],
        .submit [0x61] [1] ⟨0, 0⟩, .resume 0, .resume 0, .poll [.chan],
        .poll [.timer [queueTimeoutIdent]], .peer Request.list.bytes .wouldBlock [],
        .poll [.conData]]
    ∀ m ∈ w.ctx.sent,
      (∃ es : List BufferElement, es ≠ [] ∧ es <:+: w.ctx.taken ∧
        m = frame .tracePush (es.flatMap recordBytes) ∧ m.length ≤ queueTotalSize + 3 ∧
        decodeRecords (es.flatMap recordBytes) = some (es.map BufferElement.record)) ∨
      ∃ names : List (List UInt8), names.Nodup ∧
        (∀ n ∈ names, n ∈ w.ctx.tracepoints.map Prod.fst) ∧
        m = frame .tracepointListReply (names.flatMap requestItem) ∧
        decodeItems (names.flatMap requestItem) = some names :=
  frames_readable ((Reachable.init _ _ _ _).run _)

/-- Over every run, the engine thread never enters the endless loop of `send_trace_data`:
every element it buffers fits an empty send window, since `tracy_submit` bounds the data and
`fix_tracepoint_str` the name. -/
theorem engine_never_spins {w : World} (hw : Reachable w) : w.status ≠ .halted .spin :=
  (reachable_writesReadable hw).2

/-- The engine after a record of the largest size `tracy_submit` accepts was flushed. -/
theorem engine_never_spins_largest_record :
    let w := (World.init ⟨"host", "app", 100⟩ 61455 false false).run
      [.register (List.replicate 32 0x61), .poll [.chan],
        .poll [.conNew (some ⟨[], .wouldBlock, []⟩)],
        .peer (Request.enable [List.replicate 32 0x61]).bytes .wouldBlock [], .poll [.conData],
        .submit (List.replicate 32 0x61) (List.replicate 2048 7) ⟨0, 0⟩, .resume 0, .resume 0,
        .poll [.chan], .poll [.timer [queueTimeoutIdent]]]
    w.status ≠ .halted .spin :=
  engine_never_spins ((Reachable.init _ _ _ _).run _)

end Tracy
