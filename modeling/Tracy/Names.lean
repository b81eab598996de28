import Tracy.Requests

/-!
# Names on the wire

The collector names tracepoints in two places: the items of an enable or disable request,
which `set_tracepoints` applies, and the items of the list reply, which
`send_tracepoint_list` writes. Both use the grammar `u16 name_len | name`. An item's bytes go
through `std::str::from_utf8(..).unwrap_or_default()` before the lookup, so bytes that are
not UTF-8 name the empty name.
-/

namespace Tracy

/-! ### Setting flags by name -/

namespace TracerContext

variable (ctx : TracerContext) (state : Bool)

@[simp] theorem storeTracepoint_tracepoints (name : List UInt8) :
    (ctx.storeTracepoint name state).tracepoints = ctx.tracepoints := by
  unfold storeTracepoint
  split <;> rfl

theorem storeTracepoint_flags (name : List UInt8) (c : Cell) :
    (ctx.storeTracepoint name state).flags c =
      if ctx.tracepoints.lookup name = some c then state else ctx.flags c := by
  unfold storeTracepoint
  split <;> rename_i h <;> simp [h, eq_comm]

@[simp] theorem storeNames_tracepoints (names : List (List UInt8)) :
    (ctx.storeNames names state).tracepoints = ctx.tracepoints := by
  induction names generalizing ctx with
  | nil => rfl
  | cons name names ih =>
    simp only [storeNames, List.foldl_cons] at ih ⊢
    rw [ih, storeTracepoint_tracepoints]

/-- After the stores, a flag holds `state` if it is the flag of the name that some item
gives after `from_utf8`, and its old value otherwise. -/
theorem storeNames_flags (names : List (List UInt8)) (c : Cell) :
    (ctx.storeNames names state).flags c =
      if ∃ b ∈ names, ctx.tracepoints.lookup (fromUtf8OrDefault b) = some c then state
      else ctx.flags c := by
  induction names generalizing ctx with
  | nil => simp [storeNames]
  | cons name names ih =>
    simp only [storeNames, List.foldl_cons] at ih ⊢
    rw [ih, storeTracepoint_tracepoints, storeTracepoint_flags]
    by_cases hhead : ctx.tracepoints.lookup (fromUtf8OrDefault name) = some c <;>
      simp [hhead]

end TracerContext

theorem tracepointListBody_eq (entries : List (List UInt8 × Cell)) :
    tracepointListBody entries = (entries.map Prod.fst).flatMap requestItem := by
  have hfold : ∀ acc : List UInt8,
      entries.foldl (fun msg entry => msg ++ beBytes 2 entry.1.length ++ entry.1) acc =
        acc ++ (entries.map Prod.fst).flatMap requestItem := by
    induction entries with
    | nil => simp
    | cons e entries ih =>
      intro acc
      rw [List.foldl_cons, ih]
      simp [requestItem]
  exact hfold []

/-- With a connection, `send_tracepoint_list` returns after handing the list reply to
`send_slices`. -/
theorem sendTracepointList_sent {ctx : TracerContext} {con : TcpStream}
    (hcon : ctx.connection = some con) :
    ∃ ctx', sendTracepointList ctx = .ok ctx' ∧
      ctx'.sent = ctx.sent ++ [frame .tracepointListReply (tracepointListBody ctx.tracepoints)] := by
  simp only [sendTracepointList, pushFrontHeader_eq, sendSlices_of_connection hcon,
    Engine.ok_bind]
  split
  · exact ⟨_, TracerContext.closeAndCleanConnection_of_some rfl, rfl⟩
  · exact ⟨_, rfl, rfl⟩

/-- The list reply is the frame `MAGIC_NUMB | 0 0 | be16 2 | be32 len | body` of a body
that the item grammar reads as the registry's keys, each once as the registry holds it.
Sent back as the body of an enable or disable request, it is read exactly and sets the flag
of every registered name. -/
theorem tracepointList_round_trip {ctx : TracerContext} {con : TcpStream}
    (hcon : ctx.connection = some con)
    (hkeys : ∀ k ∈ ctx.tracepoints.map Prod.fst,
      k.length ≤ maxTracepointNameLen ∧ utf8Valid k = true)
    (hsize : (tracepointListBody ctx.tracepoints).length < 2 ^ 32) :
    let body := tracepointListBody ctx.tracepoints
    (∃ ctx', sendTracepointList ctx = .ok ctx' ∧
      ctx'.sent = ctx.sent ++ [magicNumb ++ [0, 0] ++ beBytes 2 2 ++ beBytes 4 body.length ++ body]) ∧
    decodeItems body = some (ctx.tracepoints.map Prod.fst) ∧
    ∀ (state : Bool) (reader : TcpStream) (rest : List UInt8), reader.rx = body ++ rest →
      ∃ ctx', setTracepoints ctx body.length reader state = .ok (ctx', { reader with rx := rest }) ∧
        ctx'.tracepoints = ctx.tracepoints ∧
        ∀ k c, ctx.tracepoints.lookup k = some c → ctx'.flags c = state := by
  intro body
  have hbody : body = (ctx.tracepoints.map Prod.fst).flatMap requestItem :=
    tracepointListBody_eq _
  have hlen : ∀ k ∈ ctx.tracepoints.map Prod.fst, k.length ≤ maxTracepointNameLen :=
    fun k hk => (hkeys k hk).1
  refine ⟨sendTracepointList_sent hcon, ?_, fun state reader rest hrx => ?_⟩
  · rw [hbody]
    exact decodeItems_requestItems fun k hk => by
      have := hlen k hk
      unfold maxTracepointNameLen at this
      omega
  · rw [hbody] at hrx ⊢
    refine ⟨_, setTracepoints_items state ctx hlen (by rwa [← tracepointListBody_eq]) hrx,
      ctx.storeNames_tracepoints state _, fun k c hk => ?_⟩
    have hmem : k ∈ ctx.tracepoints.map Prod.fst := by
      obtain ⟨l₁, l₂, hsplit, -⟩ := List.lookup_eq_some_iff.mp hk
      simp [hsplit]
    rw [ctx.storeNames_flags, if_pos ⟨k, hmem, by
      rw [fromUtf8OrDefault, if_pos (hkeys k hmem).2]; exact hk⟩]

/-- A registry of one name. -/
theorem tracepointList_round_trip_one :
    let ctx : TracerContext :=
      { tracerThreadMain ⟨"host", "app", 100⟩ 61455 false false with
        tracepoints := [([0x61], 0)], connection := some ⟨[], .wouldBlock, []⟩,
        clientConnected := true }
    ctx.connection = some ⟨[], .wouldBlock, []⟩ ∧
    (∀ k ∈ ctx.tracepoints.map Prod.fst, k.length ≤ maxTracepointNameLen ∧ utf8Valid k = true) ∧
    (tracepointListBody ctx.tracepoints).length < 2 ^ 32 ∧
    let body := tracepointListBody ctx.tracepoints
    (∃ ctx', sendTracepointList ctx = .ok ctx' ∧
      ctx'.sent = ctx.sent ++ [magicNumb ++ [0, 0] ++ beBytes 2 2 ++ beBytes 4 body.length ++ body]) ∧
    decodeItems body = some (ctx.tracepoints.map Prod.fst) ∧
    ∀ (state : Bool) (reader : TcpStream) (rest : List UInt8), reader.rx = body ++ rest →
      ∃ ctx', setTracepoints ctx body.length reader state = .ok (ctx', { reader with rx := rest }) ∧
        ctx'.tracepoints = ctx.tracepoints ∧
        ∀ k c, ctx.tracepoints.lookup k = some c → ctx'.flags c = state :=
  ⟨rfl, by decide, by decide, tracepointList_round_trip rfl (by decide) (by decide)⟩

end Tracy
