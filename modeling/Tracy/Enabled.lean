import Tracy.Shutdown

/-!
# Records of registered tracepoints

`tracy_submit` enqueues a `Payload` only when the flag of its name is set. Each
`tracy_register` call allocates a fresh `Arc<AtomicBool>` and stores `false` in it, and only
the engine stores `true`, in `set_tracepoints`, and only in the flag of a name it holds. So a
set flag is the flag of a name of the engine's registry, and since the handle gives distinct
names distinct flags, that name is the one `tracy_submit` looked up. Every element the engine
takes therefore names a tracepoint of its own registry, which the list reply lists.
-/

namespace Tracy

/-- Every set flag is the flag of a name of the engine's registry. -/
def FlagsNamed (ctx : TracerContext) : Prop :=
  ∀ c, ctx.flags c = true → ∃ n, (n, c) ∈ ctx.tracepoints

/-- Every element taken, or in the channel, names a tracepoint of the engine's registry. -/
def PayloadsNamed (ctx : TracerContext) : Prop :=
  (∀ e ∈ ctx.taken, e.tracepoint ∈ ctx.tracepoints.map Prod.fst) ∧
    ∀ e, .payload e ∈ ctx.receiver → e.tracepoint ∈ ctx.tracepoints.map Prod.fst

theorem mem_of_lookup_eq_some {entries : List (List UInt8 × Cell)} {k : List UInt8} {c : Cell}
    (h : entries.lookup k = some c) : (k, c) ∈ entries := by
  obtain ⟨l₁, l₂, rfl, -⟩ := List.lookup_eq_some_iff.mp h
  simp

/-- A context whose flags were set no further, over the same registry, keeps them named. -/
theorem FlagsNamed.fall {c c' : TracerContext} (h : FlagsNamed c)
    (ht : c'.tracepoints = c.tracepoints) (hf : ∀ x, c'.flags x = true → c.flags x = true) :
    FlagsNamed c' := fun x hx => ht ▸ h x (hf x hx)

theorem PayloadsNamed.of_inputs {c c' : TracerContext} (h : PayloadsNamed c)
    (hin : c'.inputs = c.inputs) : PayloadsNamed c' := by
  rw [PayloadsNamed, TracerContext.receiver_eq_of_inputs hin,
    TracerContext.tracepoints_eq_of_inputs hin, TracerContext.taken_eq_of_inputs hin]
  exact h

/-- A teardown only clears flags. -/
theorem storeAllFalse_true {entries : List (List UInt8 × Cell)} {flags : Cell → Bool} {x : Cell}
    (h : storeAllFalse entries flags x = true) : flags x = true := by
  rw [storeAllFalse_apply] at h
  split at h
  · cases h
  · exact h

/-! ### The engine side -/

/-- `ctx'` has the inputs of `ctx` and no flag that `ctx` does not have. -/
def FlagsFall (ctx ctx' : TracerContext) : Prop :=
  ctx'.inputs = ctx.inputs ∧ ∀ x, ctx'.flags x = true → ctx.flags x = true

/-- `ctx'` has the inputs of `ctx`, and its set flags are named in its registry. -/
def FlagsKeptNamed (ctx ctx' : TracerContext) : Prop :=
  ctx'.inputs = ctx.inputs ∧ FlagsNamed ctx'

/-- The send path keeps the inputs and sets no flag. -/
theorem flagsFall_sendKeeps (ctx : TracerContext) :
    SendKeeps (fun _ => FlagsFall ctx) (FlagsFall ctx) (FlagsFall ctx) :=
  .plain (fun _ hc => TracerContext.closeAndCleanConnection_terminates
      (fun _ _ => ⟨hc.1, fun x hx => hc.2 x (storeAllFalse_true hx)⟩) fun _ => hc)
    (fun _ _ hc => sendSlices_terminates (fun _ _ => hc) fun _ => hc) fun _ _ hc => hc

/-- The receive path keeps the inputs and sets only flags of names the registry holds. -/
theorem flagsNamed_receiveKeeps (ctx : TracerContext) :
    ReceiveKeeps (FlagsKeptNamed ctx) (FlagsKeptNamed ctx) where
  close _ hc := TracerContext.closeAndCleanConnection_terminates
    (fun _ _ => ⟨hc.1, hc.2.fall rfl fun _ => storeAllFalse_true⟩) fun _ => hc
  reply _ hc := sendSlices_terminates (fun _ _ => hc) fun _ => hc
  store c name state hc := by
    unfold TracerContext.storeTracepoint
    split
    · rename_i cell hcell
      refine ⟨hc.1, fun x hx => ?_⟩
      by_cases hx' : x = cell
      · subst hx'
        exact ⟨name, mem_of_lookup_eq_some hcell⟩
      · exact hc.2 x (by simpa [hx'] using hx)
    · exact hc
  reader _ _ hc := hc

section Engine

variable {R : List (List UInt8 × Cell)} {K : List (List UInt8)}

/-- The engine's part of the invariant, with the registrations `R` fixed and `K` the names
that calls in progress found enabled. -/
def EngineNamed (R : List (List UInt8 × Cell)) (K : List (List UInt8)) (ctx : TracerContext) :
    Prop :=
  ctx.registrations = R ∧ FlagsNamed ctx ∧ PayloadsNamed ctx ∧ K ⊆ ctx.tracepoints.map Prod.fst

theorem EngineNamed.of_inputs {c c' : TracerContext} (h : EngineNamed R K c)
    (hin : c'.inputs = c.inputs) (hf : FlagsNamed c') : EngineNamed R K c' :=
  ⟨(registrations_eq_of_inputs hin).trans h.1, hf, h.2.2.1.of_inputs hin,
    (TracerContext.tracepoints_eq_of_inputs hin).symm ▸ h.2.2.2⟩

/-- A part of `event_handler` that changes no input and sets no flag. -/
theorem EngineNamed.fall {c c' : TracerContext} (h : EngineNamed R K c) (hc : FlagsFall c c') :
    EngineNamed R K c' :=
  h.of_inputs hc.1 (h.2.1.fall (TracerContext.tracepoints_eq_of_inputs hc.1) hc.2)

/-- With distinct names among the registrations, every part of `event_handler` keeps the
invariant: a registration appends a new name, and only `set_tracepoints` sets a flag. -/
theorem engineNamed_engineKeeps (hnodup : (R.map Prod.fst).Nodup) :
    EngineKeeps (EngineNamed R K) (EngineNamed R K) (EngineNamed R K) where
  flush c h := ((flagsFall_sendKeeps c).sendTraceData ⟨rfl, fun _ => id⟩).mono
    (fun _ => h.fall) (fun _ => h.fall) fun _ => h.fall
  receive c h := ((flagsNamed_receiveKeeps c).receive ⟨rfl, h.2.1⟩ ⟨rfl, h.2.1⟩).mono
    (fun _ hc => h.of_inputs hc.1 hc.2) fun _ hc => h.of_inputs hc.1 hc.2
  take c e rest h hrec := by
    obtain ⟨hreg, hflags, ⟨htaken, hchan⟩, hK⟩ := h
    rw [hrec] at hchan
    refine ⟨by rw [← hreg, TracerContext.registrations, TracerContext.registrations, hrec]; rfl,
      hflags, ⟨fun e' he' => ?_, fun e' he' => hchan e' (List.mem_cons_of_mem _ he')⟩, hK⟩
    rcases List.mem_append.mp he' with he' | he'
    · exact htaken e' he'
    · rw [List.mem_singleton.mp he']
      exact hchan e (List.mem_cons_self _ _)
  register c t rest h hrec := by
    obtain ⟨hreg, hflags, ⟨htaken, hchan⟩, hK⟩ := h
    have hsplit : c.registrations = c.tracepoints ++ (t.name, t.state) :: inflight rest := by
      rw [TracerContext.registrations, hrec]; rfl
    have hnew : t.name ∉ c.tracepoints.map Prod.fst := by
      rw [← hreg, hsplit, List.map_append] at hnodup
      exact fun hmem => List.disjoint_of_nodup_append hnodup hmem (by simp)
    rw [hrec] at hchan
    have hkeys : c.tracepoints.map Prod.fst ⊆
        ({ c with receiver := rest }.insertTracepoint t).tracepoints.map Prod.fst := by
      simp [TracerContext.insertTracepoint, insertKey_of_not_mem _ hnew]
    refine ⟨(registrations_engineKeeps hnodup).register c t rest hreg hrec, fun x hx => ?_,
      ⟨fun e he => hkeys (htaken e he), fun e he => hkeys (hchan e (List.mem_cons_of_mem _ he))⟩,
      hK.trans hkeys⟩
    obtain ⟨n, hn⟩ := hflags x hx
    exact ⟨n, by simp [TracerContext.insertTracepoint, insertKey_of_not_mem _ hnew, hn]⟩
  drop c rest h hrec := by
    refine ⟨(registrations_engineKeeps hnodup).drop c rest h.1 hrec, h.2.1,
      ⟨h.2.2.1.1, fun e he => h.2.2.1.2 e ?_⟩, h.2.2.2⟩
    rw [hrec]
    exact List.mem_cons_of_mem _ he
  queueStart c h := by rw [TracerContext.checkStartQueueTimer_eq]; exact h.fall ⟨rfl, fun _ => id⟩
  queueStop _ h := h.fall ⟨rfl, fun _ => id⟩
  queueFire _ h _ := h.fall ⟨rfl, fun _ => id⟩
  udpFire c h _ := by
    rw [TracerContext.checkStartUdpTimer_eq]
    unfold announceTracer
    split <;> exact h.fall ⟨rfl, fun _ => id⟩
  accept c accepted h _ := by
    unfold establishConnection
    split <;> exact h.fall ⟨rfl, fun _ => id⟩

end Engine

/-! ### Over runs -/

/-- The flags of the handle's names are allocated in order and are distinct, set flags are
named in the engine's registry, every element taken or in the channel names a tracepoint of
it, and so does every call in progress that found its flag set. -/
structure NamedInv (w : World) : Prop where
  cells_lt : ∀ p ∈ w.handle.tracepoints, p.2 < w.nextCell
  cells_nodup : (w.handle.tracepoints.map Prod.snd).Nodup
  flags : FlagsNamed w.ctx
  payloads : PayloadsNamed w.ctx
  enabled : ∀ s ∈ w.submits, s.enabled = true →
    s.element.tracepoint ∈ w.ctx.tracepoints.map Prod.fst

variable {w : World}

/-- The names that the calls in progress found enabled. -/
theorem NamedInv.enabled_subset (h : NamedInv w) :
    (w.submits.filter (·.enabled)).map (·.element.tracepoint) ⊆ w.ctx.tracepoints.map Prod.fst :=
  fun _ hn => by
    obtain ⟨s, hs, rfl⟩ := List.mem_map.mp hn
    exact h.enabled s (List.mem_filter.mp hs).1 (List.mem_filter.mp hs).2

/-- Ending calls in progress keeps the invariant. -/
theorem NamedInv.of_submits (h : NamedInv w) {submits : List Submit}
    (hsub : ∀ s ∈ submits, s ∈ w.submits) : NamedInv { w with submits := submits } :=
  ⟨h.cells_lt, h.cells_nodup, h.flags, h.payloads, fun s hs => h.enabled s (hsub s hs)⟩

/-- A flag that `tracepoint_enabled` finds set is the flag of the same name in the engine's
registry: the engine sets only flags of its names, and the handle gives distinct names
distinct flags. -/
theorem NamedInv.mem_of_enabled (hreg : RegistryInv w) (h : NamedInv w) {name : List UInt8}
    (hen : tracepointEnabled w.handle w.ctx.flags name = true) :
    name ∈ w.ctx.tracepoints.map Prod.fst := by
  obtain ⟨c, hlookup, hflag⟩ : ∃ c, w.handle.tracepoints.lookup name = some c ∧
      w.ctx.flags c = true := by
    unfold tracepointEnabled at hen
    split at hen
    · exact ⟨_, ‹_›, hen⟩
    · cases hen
  obtain ⟨n, hn⟩ := h.flags c hflag
  have hsub : w.ctx.tracepoints ⊆ w.handle.tracepoints := fun p hp =>
    hreg.leads.subset (List.mem_append_left _ hp)
  have hname : name = n :=
    (Prod.mk.inj (List.inj_on_of_nodup_map h.cells_nodup (mem_of_lookup_eq_some hlookup)
      (hsub hn) rfl)).1
  exact List.mem_map_of_mem _ (hname ▸ hn)

/-- A message keeps the invariant if it is a `Payload` only of a name the engine holds. -/
theorem NamedInv.sendToTracer (h : NamedInv w) {msg : ChannelMessage}
    (hmsg : ∀ e, msg = .payload e → e.tracepoint ∈ w.ctx.tracepoints.map Prod.fst) :
    NamedInv (w.sendToTracer msg) := by
  obtain ⟨receiver, hctx, hmem⟩ := w.sendToTracer_ctx_eq msg
  refine ⟨?_, ?_, ?_, ?_, ?_⟩ <;> simp only [World.sendToTracer_handle, hctx]
  · exact fun p hp => (by unfold World.sendToTracer; split <;> exact h.cells_lt p hp)
  · exact h.cells_nodup
  · exact h.flags
  · exact ⟨h.payloads.1, fun e he =>
      (hmem _ he).elim (h.payloads.2 e) fun heq => hmsg e heq.symm⟩
  · simpa using h.enabled

theorem NamedInv.register (h : NamedInv w) (name : List UInt8) :
    NamedInv (w.tracyRegister name).1 := by
  /- The fresh flag is cleared, and no name of the handle has it. -/
  have hbump : NamedInv { w with
      nextCell := w.nextCell + 1,
      ctx := { w.ctx with flags := setFlag w.ctx.flags w.nextCell false } } :=
    ⟨fun p hp => Nat.lt_succ_of_lt (h.cells_lt p hp), h.cells_nodup,
      fun x hx => h.flags x (by by_cases hx' : x = w.nextCell <;> simp_all), h.payloads, h.enabled⟩
  unfold World.tracyRegister
  dsimp only
  split
  · exact hbump
  · rename_i fixed _
    split
    · rename_i hnew
      have hnew' : fixed ∉ w.handle.tracepoints.map Prod.fst := by
        rw [← hasKey_iff]; simpa using hnew
      have hins : NamedInv { w with
          handle := ⟨insertKey w.handle.tracepoints fixed w.nextCell⟩, nextCell := w.nextCell + 1,
          ctx := { w.ctx with flags := setFlag w.ctx.flags w.nextCell false } } := by
        refine ⟨fun p hp => ?_, ?_, hbump.flags, hbump.payloads, h.enabled⟩
        · simp only [insertKey_of_not_mem _ hnew', List.mem_append, List.mem_singleton] at hp
          rcases hp with hp | rfl
          · exact Nat.lt_succ_of_lt (h.cells_lt p hp)
          · exact Nat.lt_succ_self _
        · rw [insertKey_of_not_mem _ hnew', List.map_append]
          exact h.cells_nodup.append (List.nodup_singleton _) (List.disjoint_singleton.mpr
            fun hmem => by
              obtain ⟨p, hp, hp2⟩ := List.mem_map.mp hmem
              exact absurd (h.cells_lt p hp) (by simp [hp2]))
      exact hins.sendToTracer fun _ h => nomatch h
    · exact hbump

/-- The start of `tracy_submit` adds a call that has not loaded its flag. -/
theorem NamedInv.submit (h : NamedInv w) (name data : List UInt8) (now : SystemTime) :
    NamedInv (w.tracySubmit name data now) := by
  rcases w.tracySubmit_eq name data now with heq | ⟨s, hoff, -, heq⟩ <;> rw [heq]
  · exact h
  · refine ⟨h.cells_lt, h.cells_nodup, h.flags, h.payloads, fun s' hs' hon => ?_⟩
    rcases List.mem_append.mp hs' with hs' | hs'
    · exact h.enabled s' hs' hon
    · rw [List.mem_singleton.mp hs', hoff] at hon
      cases hon

/-- A call that finds its flag set holds a name of the engine's registry, and the `Payload` it
then enqueues names it. -/
theorem NamedInv.resume (hreg : RegistryInv w) (h : NamedInv w) (i : Nat) :
    NamedInv (w.resume i) := by
  rcases w.resume_cases i with ⟨submits, heq, hsub⟩ | ⟨s, hs, hon, heq⟩ |
    ⟨s, hs, -, hflag, heq⟩ <;> rw [heq]
  · exact h.of_submits hsub
  · have hsend : NamedInv (w.sendToTracer (.payload s.element)) :=
      h.sendToTracer fun e he => by
        cases he
        exact h.enabled s (List.getElem?_mem hs) hon
    exact hsend.of_submits fun _ hs' => by simpa using List.mem_of_mem_eraseIdx hs'
  · refine ⟨h.cells_lt, h.cells_nodup, h.flags, h.payloads, fun s' hs' hon => ?_⟩
    rcases List.mem_or_eq_of_mem_set hs' with hs' | rfl
    · exact h.enabled s' hs' hon
    · exact h.mem_of_enabled hreg hflag

/-- The engine's part of the invariant, kept for the names the calls in progress found
enabled, makes the whole invariant again with the handle's side as it was. -/
theorem NamedInv.of_engine (h : NamedInv w) {R : List (List UInt8 × Cell)} {ctx : TracerContext}
    (hE : EngineNamed R ((w.submits.filter (·.enabled)).map (·.element.tracepoint)) ctx)
    (status : Status) : NamedInv { w with ctx := ctx, status := status } :=
  ⟨h.cells_lt, h.cells_nodup, hE.2.1, hE.2.2.1, fun _ hs hon =>
    hE.2.2.2 (List.mem_map_of_mem _ (List.mem_filter.mpr ⟨hs, hon⟩))⟩

theorem NamedInv.poll (hreg : RegistryInv w) (h : NamedInv w) (events : List Event) :
    NamedInv (w.poll events) := by
  rcases w.poll_cases events with ⟨-, hpoll⟩ | ⟨hrun, ctx, state, hres, hpoll⟩ |
    ⟨hrun, hl, ctx, hres, hpoll⟩ <;> rw [hpoll]
  · exact h
  all_goals
    have hnodup : (w.ctx.registrations.map Prod.fst).Nodup := by
      rw [← hreg.split (by simp [hrun, Status.receiverAlive])]
      exact hreg.nodup
    have hE := (engineNamed_engineKeeps hnodup).eventHandler events
      ⟨rfl, h.flags, h.payloads, h.enabled_subset⟩
    rw [hres] at hE
  · exact h.of_engine hE _
  · exact h.of_engine hE.of_error _

theorem NamedInv.step (hreg : RegistryInv w) (h : NamedInv w) (a : Action) :
    NamedInv (w.step a) := by
  cases a with
  | register name =>
    simp only [World.step]
    split
    · exact h.register name
    · exact h
  | submit name data now =>
    simp only [World.step]
    split
    · exact h.submit name data now
    · exact h
  | resume i => exact h.resume hreg i
  | finit =>
    simp only [World.step, World.tracyFinit]
    split
    · obtain ⟨hlt, hnodup, hflags, hpay, hen⟩ :=
        @NamedInv.sendToTracer w h .terminate fun _ h => nomatch h
      exact ⟨hlt, hnodup, hflags, hpay, hen⟩
    · exact h
  | poll events => exact h.poll hreg events
  | peer bytes rxEnd tx =>
    rcases w.peer_cases bytes rxEnd tx with hpeer | ⟨con, -, -, hpeer⟩ <;>
      simp only [World.step, hpeer]
    · exact h
    · exact ⟨h.cells_lt, h.cells_nodup, h.flags, h.payloads, h.enabled⟩

theorem reachable_namedInv (hw : Reachable w) : NamedInv w := by
  induction hw with
  | init => exact ⟨by simp [World.init], by simp [World.init], by simp [World.init, FlagsNamed],
      by simp [World.init, PayloadsNamed], by simp [World.init]⟩
  | step a hw ih => exact ih.step (reachable_registryInv hw) a

/-- Over every run, every `Payload` the engine has taken names a tracepoint of the engine's
registry: `tracy_submit` enqueues only under a set flag, and a flag is set only by the
engine, for a name it holds, while each registration has a flag of its own. -/
theorem taken_names_registered (hw : Reachable w) :
    ∀ e ∈ w.ctx.taken, e.tracepoint ∈ w.ctx.tracepoints.map Prod.fst :=
  (reachable_namedInv hw).payloads.1

/-- A record of `a` taken after the collector enabled `a`. -/
theorem taken_names_registered_enabled :
    let w := (World.init ⟨"host", "app", 100⟩ 61455 false false).run
      [.register [0x61], .poll [.chan], .poll [.conNew (some ⟨[], .wouldBlock, []⟩)],
        .peer (Request.enable [[0x61]]).bytes .wouldBlock [], .poll [.conData],
        .submit [0x61] [1] ⟨0, 0⟩, .resume 0, .resume 0, .poll [.chan]]
    ∀ e ∈ w.ctx.taken, e.tracepoint ∈ w.ctx.tracepoints.map Prod.fst :=
  taken_names_registered ((Reachable.init _ _ _ _).run _)

end Tracy
