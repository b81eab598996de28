import Tracy.Registry

/-!
# The producer's API

The calls an application makes on its handle. `tracy_register` and `tracy_submit` pass the
name through `fix_tracepoint_str` (ASCII only, the first 32 bytes, lower-cased), so names
that differ only in case or past their 32nd byte collide. `tracy_tracepoint_enabled` does
not: it looks the name up as it is given.
-/

namespace Tracy

/-- `N(s)`, a name as the registry keeps it: its first 32 bytes, ASCII lower-cased. -/
def normalizedName (s : List UInt8) : List UInt8 :=
  (s.take maxTracepointNameLen).map toAsciiLowercase

/-- `fix_tracepoint_str` rejects a name that is not ASCII and normalizes the others. -/
theorem fixTracepointStr_eq (s : List UInt8) :
    fixTracepointStr s = if isAscii s then .ok (normalizedName s) else .error () := by
  by_cases h : isAscii s = true
  · have htake : (if s.length > maxTracepointNameLen then s.take maxTracepointNameLen else s) =
        s.take maxTracepointNameLen := by
      split
      · rfl
      · exact (List.take_of_length_le (by omega)).symm
    simp [fixTracepointStr, h, htake, normalizedName]
  · simp [fixTracepointStr, h]

/-- A normalized name of an ASCII name is ASCII, lower-case and at most 32 bytes long. -/
theorem normalizedName_normal {s : List UInt8} (h : isAscii s = true) :
    isAscii (normalizedName s) = true ∧
      (normalizedName s).map toAsciiLowercase = normalizedName s ∧
      (normalizedName s).length ≤ maxTracepointNameLen := by
  refine ⟨?_, by simp [normalizedName, Function.comp_def], by simp [normalizedName]⟩
  simp only [isAscii, List.all_eq_true, decide_eq_true_eq] at h ⊢
  intro b hb
  obtain ⟨a, ha, rfl⟩ := List.mem_map.mp hb
  exact toAsciiLowercase_lt (h a (List.mem_of_mem_take ha))

/-! ### `tracy_tracepoint_enabled` -/

/-- The query does not normalize: with `a` registered and enabled, `tracy_tracepoint_enabled`
answers false for `A`, while `tracy_submit` under `A`, which `fix_tracepoint_str` maps to
`a`, enqueues a `Payload` once it has made its accesses. -/
theorem enabled_query_not_normalized :
    fixTracepointStr [0x41] = .ok [0x61] ∧
    ∃ w : World, Reachable w ∧ w.alive = true ∧ w.ctx.clientConnected = true ∧
      w.tracyTracepointEnabled [0x61] = true ∧ w.tracyTracepointEnabled [0x41] = false ∧
      (w.run [.submit [0x41] [1] ⟨0, 0⟩, .resume 0, .resume 0]).ctx.receiver =
        w.ctx.receiver ++ [.payload ⟨[0x61], ⟨0, 0⟩, [1]⟩] :=
  ⟨rfl, _, (Reachable.init ⟨"host", "app", 100⟩ 61455 false false).run
    [.register [0x61], .poll [.chan], .poll [.conNew (some ⟨[], .wouldBlock, []⟩)],
      .peer (Request.enable [[0x61]]).bytes .wouldBlock [], .poll [.conData]], by decide⟩

/-! ### Sequences of `tracy_register` -/

/-- One `tracy_register` call returns `0` exactly when the name is ASCII and its normalized
form is new to the handle. Then the handle gains that entry, with a fresh flag, and the
same entry goes to the engine as one `NewTracepoint`; otherwise nothing is registered or
sent. -/
theorem tracyRegister_spec (w : World) (s : List UInt8) (halive : w.status.receiverAlive = true) :
    ((w.tracyRegister s).2 = 0 ↔
      isAscii s = true ∧ normalizedName s ∉ w.handle.tracepoints.map Prod.fst) ∧
    (w.tracyRegister s).1.status = w.status ∧
    ∃ added : List (List UInt8 × Cell),
      (w.tracyRegister s).1.handle.tracepoints = w.handle.tracepoints ++ added ∧
      added.map Prod.fst = (if (w.tracyRegister s).2 = 0 then [normalizedName s] else []) ∧
      (w.tracyRegister s).1.ctx.receiver =
        w.ctx.receiver ++ added.map fun e => .newTracepoint ⟨e.1, e.2⟩ := by
  unfold World.tracyRegister
  rw [fixTracepointStr_eq]
  by_cases hascii : isAscii s = true
  · simp only [hascii, if_true]
    by_cases hnew : normalizedName s ∈ w.handle.tracepoints.map Prod.fst
    · have hkey : hasKey w.handle.tracepoints (normalizedName s) = true := hasKey_iff.mpr hnew
      simp [hkey, hnew]
    · have hkey : hasKey w.handle.tracepoints (normalizedName s) = false :=
        Bool.eq_false_iff.mpr fun h => hnew (hasKey_iff.mp h)
      refine ⟨by simp [hkey, hnew], by simp [hkey], [(normalizedName s, w.nextCell)], ?_⟩
      simp [hkey, insertKey_of_not_mem _ hnew, World.sendToTracer_ctx, halive]
  · simp [hascii]

/-- Calls of `tracy_register` on one handle, in order, with what each returns. -/
def World.registerAll : World → List (List UInt8) → World × List Int
  | w, [] => (w, [])
  | w, s :: ss =>
    let r := w.tracyRegister s
    let rs := r.1.registerAll ss
    (rs.1, r.2 :: rs.2)

/-- `N(s)` of every call that returned `0`, in order. -/
def registeredNames (calls : List (List UInt8 × Int)) : List (List UInt8) :=
  calls.filterMap fun call => if call.2 = 0 then some (normalizedName call.1) else none

/-- Calls of `tracy_register` from any handle whose engine is alive: each returns `0`
exactly when its name is ASCII and its normalized form is new, to the handle and to every
earlier call that returned `0`; the handle gains those names in order, and the engine one
`NewTracepoint` for each, carrying the same entry. -/
theorem registerAll_spec (names : List (List UInt8)) :
    ∀ w : World, w.status.receiverAlive = true →
    (w.registerAll names).2.length = names.length ∧
    (∀ pre s code post, names.zip (w.registerAll names).2 = pre ++ (s, code) :: post →
      (code = 0 ↔ isAscii s = true ∧ normalizedName s ∉ w.handle.tracepoints.map Prod.fst ∧
        ∀ p ∈ pre, p.2 = 0 → normalizedName p.1 ≠ normalizedName s)) ∧
    ∃ added : List (List UInt8 × Cell),
      (w.registerAll names).1.handle.tracepoints = w.handle.tracepoints ++ added ∧
      added.map Prod.fst = registeredNames (names.zip (w.registerAll names).2) ∧
      (w.registerAll names).1.ctx.receiver =
        w.ctx.receiver ++ added.map fun e => .newTracepoint ⟨e.1, e.2⟩ := by
  induction names with
  | nil =>
    intro w _
    refine ⟨rfl, fun pre s code post h => ?_, [], by simp [World.registerAll, registeredNames]⟩
    simp [World.registerAll] at h
  | cons s ss ih =>
    intro w halive
    obtain ⟨hcode, hstatus, added₀, hhandle₀, hkeys₀, hrecv₀⟩ := tracyRegister_spec w s halive
    obtain ⟨hlen, hcalls, added, hhandle, hkeys, hrecv⟩ :=
      ih (w.tracyRegister s).1 (by rw [hstatus]; exact halive)
    simp only [World.registerAll, List.zip_cons_cons, List.length_cons] at hlen hcalls hkeys ⊢
    refine ⟨by rw [hlen], fun pre s' code post h => ?_, added₀ ++ added, ?_⟩
    · rcases pre with _ | ⟨p, pre⟩
      · simp only [List.nil_append, List.cons.injEq, Prod.mk.injEq] at h
        obtain ⟨⟨rfl, rfl⟩, -⟩ := h
        simpa using hcode
      · simp only [List.cons_append, List.cons.injEq] at h
        obtain ⟨rfl, h⟩ := h
        rw [hcalls pre s' code post h, hhandle₀, List.map_append, hkeys₀]
        by_cases h0 : (w.tracyRegister s).2 = 0
        · simp only [h0, if_true, List.mem_append, List.mem_singleton, not_or,
            List.forall_mem_cons, forall_const, ne_eq, @eq_comm _ (normalizedName s), and_assoc]
        · simp [h0]
    · refine ⟨by rw [hhandle, hhandle₀, List.append_assoc], ?_, by simp [hrecv, hrecv₀]⟩
      rw [List.map_append, hkeys₀, hkeys]
      by_cases h0 : (w.tracyRegister s).2 = 0 <;> simp [registeredNames, h0]

/-- From a fresh handle, over every sequence of names: call `i` returns `0` exactly when
`s_i` is ASCII and `N(s_i)` differs from `N(s_j)` for every earlier call `j` that returned `0`;
the handle's keys are then those `N(s_j)`, in order, each ASCII, lower-case and at most 32
bytes long, and the engine has been sent one `NewTracepoint` per successful call, with its
name. -/
theorem register_sequence (appCfg : InitData) (listenerPort : Nat) (announce udpBound : Bool)
    (names : List (List UInt8)) :
    let r := (World.init appCfg listenerPort announce udpBound).registerAll names
    r.2.length = names.length ∧
    (∀ pre s code post, names.zip r.2 = pre ++ (s, code) :: post →
      (code = 0 ↔ isAscii s = true ∧ ∀ p ∈ pre, p.2 = 0 → normalizedName p.1 ≠ normalizedName s)) ∧
    r.1.handle.tracepoints.map Prod.fst = registeredNames (names.zip r.2) ∧
    (∀ k ∈ registeredNames (names.zip r.2),
      isAscii k = true ∧ k.map toAsciiLowercase = k ∧ k.length ≤ maxTracepointNameLen) ∧
    r.1.ctx.receiver = r.1.handle.tracepoints.map fun e => .newTracepoint ⟨e.1, e.2⟩ := by
  intro r
  obtain ⟨hlen, hcalls, added, hhandle, hkeys, hrecv⟩ :=
    registerAll_spec names (World.init appCfg listenerPort announce udpBound) rfl
  have hinit : (World.init appCfg listenerPort announce udpBound).handle.tracepoints = [] := rfl
  refine ⟨hlen, fun pre s code post h => ?_, ?_, fun k hk => ?_, ?_⟩
  · simpa [hinit] using hcalls pre s code post h
  · rw [hhandle, hinit, List.nil_append, hkeys]
  · obtain ⟨call, hcall, hk⟩ := List.mem_filterMap.mp hk
    split at hk
    · cases hk
      obtain ⟨pre, post, hsplit⟩ := List.append_of_mem hcall
      have hascii := ((hcalls pre call.1 call.2 post hsplit).mp ‹_›).1
      exact normalizedName_normal hascii
    · cases hk
  · rw [hrecv, hhandle, hinit]
    simp [World.init]

end Tracy
