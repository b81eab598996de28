import Tracy.Frame
import Mathlib.Data.List.Nodup

/-!
# The two registries agree

`tracy_register` inserts a name into the handle's registry and sends it, with its flag, to
the engine, which inserts it into its own registry when it drains the channel. The
invariant behind the agreement of the two maps: the handle's registry is the engine's
followed by the `NewTracepoint` entries still in the channel, in channel order, and its
names are distinct.
-/

namespace Tracy

/-- The entry a `NewTracepoint` message carries. -/
def ChannelMessage.newEntry? : ChannelMessage → Option (List UInt8 × Cell)
  | .newTracepoint t => some (t.name, t.state)
  | _ => none

/-- The `NewTracepoint` entries in the channel, oldest first. -/
def inflight (msgs : List ChannelMessage) : List (List UInt8 × Cell) :=
  msgs.filterMap ChannelMessage.newEntry?

/-- The engine's registry once it has drained the channel. -/
def TracerContext.registrations (ctx : TracerContext) : List (List UInt8 × Cell) :=
  ctx.tracepoints ++ inflight ctx.receiver

theorem registrations_eq_of_inputs {ctx ctx' : TracerContext} (h : ctx'.inputs = ctx.inputs) :
    ctx'.registrations = ctx.registrations := by
  simp only [TracerContext.inputs, Prod.mk.injEq] at h
  simp [TracerContext.registrations, h.1, h.2.1]

theorem hasKey_iff {entries : List (List UInt8 × Cell)} {k : List UInt8} :
    hasKey entries k = true ↔ k ∈ entries.map Prod.fst := by
  simp [hasKey]

/-- `HashMap::insert` of a new key adds the entry. -/
theorem insertKey_of_not_mem {entries : List (List UInt8 × Cell)} {k : List UInt8} (v : Cell)
    (h : k ∉ entries.map Prod.fst) : insertKey entries k v = entries ++ [(k, v)] := by
  rw [insertKey, if_neg (by rwa [hasKey_iff])]

/-- With distinct names, every part of `event_handler` keeps the registrations: draining the
channel moves each `NewTracepoint` entry from the channel to the registry, in order, so
`insert_tracepoint` only ever adds a new key, and nothing else touches either. -/
theorem registrations_engineKeeps {R : List (List UInt8 × Cell)}
    (hnodup : (R.map Prod.fst).Nodup) :
    EngineKeeps (·.registrations = R) (·.registrations = R) (·.registrations = R) where
  flush c hI := (sendTraceData_inputs c).mono (fun _ h => (registrations_eq_of_inputs h).trans hI)
    fun _ h => (registrations_eq_of_inputs h).trans hI
  receive c hI := (receive_quiet c).mono (fun _ h => (registrations_eq_of_inputs h.1).trans hI)
    fun _ h => (registrations_eq_of_inputs h.1).trans hI
  take c _ _ hI hrec := by
    rw [← hI, TracerContext.registrations, TracerContext.registrations, hrec]; rfl
  register c t rest hI hrec := by
    have hsplit : c.registrations = c.tracepoints ++ (t.name, t.state) :: inflight rest := by
      rw [TracerContext.registrations, hrec]; rfl
    have hnew : t.name ∉ c.tracepoints.map Prod.fst := by
      rw [← hI, hsplit, List.map_append] at hnodup
      exact fun hmem => List.disjoint_of_nodup_append hnodup hmem (by simp)
    rw [← hI, hsplit]
    simp [TracerContext.insertTracepoint, TracerContext.registrations, insertKey_of_not_mem _ hnew]
  drop c _ hI hrec := by
    rw [← hI, TracerContext.registrations, TracerContext.registrations, hrec]; rfl
  queueStart c hI := by rw [TracerContext.checkStartQueueTimer_eq]; exact hI
  queueStop _ hI := hI
  queueFire _ hI _ := hI
  udpFire c hI _ := (registrations_eq_of_inputs
    (by simpa using (announceTracer_quiet
      { c with udpTimeout := false, udpExpiries := c.udpExpiries + 1 }).1)).trans hI
  accept c accepted hI _ :=
    (registrations_eq_of_inputs (establishConnection_quiet accepted c).1).trans hI

/-! ### The invariant over runs -/

/-- The registry invariant: the handle's names are distinct, and the handle's registry is the
engine's registrations followed by the names registered after the receiver was dropped, of
which there are none while it exists. -/
structure RegistryInv (w : World) : Prop where
  nodup : (w.handle.tracepoints.map Prod.fst).Nodup
  leads : w.ctx.registrations <+: w.handle.tracepoints
  split : w.status.receiverAlive → w.handle.tracepoints = w.ctx.registrations

/-- A step that keeps the handle and the registrations, and drops no receiver it did not
have, keeps the invariant. -/
theorem RegistryInv.of_registrations {w w' : World} (h : RegistryInv w)
    (hhandle : w'.handle = w.handle) (hreg : w'.ctx.registrations = w.ctx.registrations)
    (halive : w'.status.receiverAlive → w.status.receiverAlive) : RegistryInv w' := by
  refine ⟨?_, ?_, fun ha => ?_⟩ <;> rw [hhandle]
  · exact h.nodup
  · rw [hreg]; exact h.leads
  · rw [hreg]; exact h.split (halive ha)

theorem registrations_sendToTracer (w : World) (msg : ChannelMessage) :
    (w.sendToTracer msg).ctx.registrations =
      if w.status.receiverAlive then w.ctx.registrations ++ inflight [msg]
      else w.ctx.registrations := by
  rw [World.sendToTracer_ctx]
  split <;> simp [TracerContext.registrations, inflight]

/-- A message that is not a registration keeps the invariant. -/
theorem RegistryInv.sendToTracer {w : World} (h : RegistryInv w) {msg : ChannelMessage}
    (hmsg : msg.newEntry? = none) : RegistryInv (w.sendToTracer msg) :=
  h.of_registrations (by simp)
    (by rw [registrations_sendToTracer]; split <;> simp [inflight, hmsg]) (by simp)

theorem RegistryInv.register {w : World} (h : RegistryInv w) (name : List UInt8) :
    RegistryInv (w.tracyRegister name).1 := by
  unfold World.tracyRegister
  dsimp only
  split
  · exact h.of_registrations rfl rfl id
  · rename_i n _
    split
    · rename_i hnew
      have hnew' : n ∉ w.handle.tracepoints.map Prod.fst := by
        rw [← hasKey_iff]; simpa using hnew
      refine ⟨?_, ?_, fun halive => ?_⟩
      · simpa [insertKey_of_not_mem _ hnew'] using h.nodup.append (List.nodup_singleton n)
          (by simpa [List.disjoint_singleton] using hnew')
      · simp only [World.sendToTracer_handle, insertKey_of_not_mem _ hnew',
          registrations_sendToTracer]
        split
        · rw [h.split ‹_›]
          exact List.prefix_refl _
        · exact h.leads.trans (List.prefix_append _ _)
      · simp only [World.sendToTracer_status, World.sendToTracer_handle] at halive ⊢
        rw [registrations_sendToTracer, if_pos halive, insertKey_of_not_mem _ hnew',
          h.split halive]
        rfl
    · exact h.of_registrations rfl rfl id

theorem RegistryInv.submit {w : World} (h : RegistryInv w) (name data : List UInt8)
    (now : SystemTime) : RegistryInv (w.tracySubmit name data now) := by
  rcases w.tracySubmit_eq name data now with heq | ⟨s, -, -, heq⟩ <;> rw [heq]
  · exact h
  · exact h.of_registrations rfl rfl id

theorem RegistryInv.resume {w : World} (h : RegistryInv w) (i : Nat) :
    RegistryInv (w.resume i) := by
  rcases w.resume_cases i with ⟨submits, heq, -⟩ | ⟨s, -, -, heq⟩ | ⟨s, -, -, -, heq⟩ <;>
    rw [heq]
  · exact h.of_registrations rfl rfl id
  · exact (@RegistryInv.sendToTracer w h (.payload s.element) rfl).of_registrations rfl rfl id
  · exact h.of_registrations rfl rfl id

theorem RegistryInv.poll {w : World} (h : RegistryInv w) (events : List Event) :
    RegistryInv (w.poll events) := by
  unfold World.poll
  split
  · exact h
  · rename_i hrun
    have halive : w.status.receiverAlive := by simp_all [Status.receiverAlive]
    have hnodup : (w.ctx.registrations.map Prod.fst).Nodup := by
      rw [← h.split halive]; exact h.nodup
    have hkeep := (registrations_engineKeeps hnodup).eventHandler events rfl
    split <;> rename_i hres <;> rw [hres] at hkeep
    · exact h.of_registrations rfl hkeep fun _ => halive
    · exact h.of_registrations rfl hkeep fun _ => halive
    · exact h.of_registrations rfl hkeep.of_error fun _ => halive

theorem RegistryInv.step {w : World} (h : RegistryInv w) (a : Action) :
    RegistryInv (w.step a) := by
  cases a with
  | register name =>
    simp only [World.step]
    split
    · exact h.register name
    · exact h
  | submit name data now =>
    simp only [World.step]
    split
    · exact h.submit name data now
    · exact h
  | resume i => exact h.resume i
  | finit =>
    simp only [World.step, World.tracyFinit]
    split
    · exact (@RegistryInv.sendToTracer w h .terminate rfl).of_registrations rfl rfl id
    · exact h
  | poll events => exact h.poll events
  | peer bytes rxEnd tx =>
    simp only [World.step, World.peer]
    split
    · exact h.of_registrations rfl rfl id
    · exact h

theorem reachable_registryInv {w : World} (hw : Reachable w) : RegistryInv w := by
  induction hw with
  | init => exact ⟨List.nodup_nil, by simp [World.init, TracerContext.registrations, inflight],
      fun _ => by simp [World.init, TracerContext.registrations, inflight]⟩
  | step a _ ih => exact ih.step a

/-- The agreement of the two registries at one point of a run. -/
structure RegistriesAgree (w : World) : Prop where
  /-- Every entry of the engine's registry is the handle's entry for that name. -/
  engine_in_handle :
    ∀ k c, w.ctx.tracepoints.lookup k = some c → w.handle.tracepoints.lookup k = some c
  /-- The names in flight are distinct. -/
  inflight_nodup : ((inflight w.ctx.receiver).map Prod.fst).Nodup
  /-- A name in flight is in the handle's registry and not yet in the engine's. -/
  inflight_fresh : ∀ e ∈ inflight w.ctx.receiver,
    hasKey w.handle.tracepoints e.1 = true ∧ hasKey w.ctx.tracepoints e.1 = false
  /-- While the engine's receiver exists, once nothing is in flight both registries bind
  every name to the same flag. -/
  drained_equal : w.status.receiverAlive → inflight w.ctx.receiver = [] →
    ∀ k, w.ctx.tracepoints.lookup k = w.handle.tracepoints.lookup k

/-- Over every interleaving of registrations with the engine's drains: the engine's registry
is contained in the handle's with the same flags, the `NewTracepoint` messages in flight
name distinct names that the handle has and the engine has not (so `insert_tracepoint` never
overwrites), and once they are drained both registries map every name to the same flag. -/
theorem registries_agree {w : World} (hw : Reachable w) : RegistriesAgree w := by
  have hinv := reachable_registryInv hw
  obtain ⟨lost, hlost⟩ := hinv.leads
  have hhandle : w.handle.tracepoints = w.ctx.tracepoints ++ (inflight w.ctx.receiver ++ lost) :=
    by rw [← hlost, TracerContext.registrations, List.append_assoc]
  have hnodup := hinv.nodup
  rw [hhandle, List.map_append, List.map_append] at hnodup
  refine ⟨fun k c hk => ?_, (List.nodup_append.mp hnodup).2.1.of_append_left,
    fun e he => ⟨?_, ?_⟩, fun halive hnil k => ?_⟩
  · rw [hhandle]
    exact (List.prefix_append _ _).lookup_eq_some hk
  · rw [hhandle, hasKey_iff, List.map_append, List.map_append]
    exact List.mem_append_right _ (List.mem_append_left _ (List.mem_map_of_mem _ he))
  · rw [Bool.eq_false_iff, ne_eq, hasKey_iff]
    exact fun hmem => List.disjoint_of_nodup_append hnodup hmem
      (List.mem_append_left _ (List.mem_map_of_mem _ he))
  · rw [hinv.split halive, TracerContext.registrations, hnil, List.append_nil]

/-- One registration in flight, right after `tracy_register`. -/
theorem registries_agree_after_register :
    RegistriesAgree ((World.init ⟨"host", "app", 100⟩ 61455 false false).step (.register [0x41])) :=
  registries_agree ((Reachable.init _ _ _ _).step _)

end Tracy
