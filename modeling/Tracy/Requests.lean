import Tracy.Delivery

/-!
# Serving the collector's requests

What a request does, as the protocol describes it, is `Request.serve`: a list request is
answered with the names of the registry, an enable or disable request sets the flag of each
name it carries, in order. The receive path of `tcp_handler.rs` refines it: `receive`
serves, in order, the requests whose frames it finds whole. Hence frames delivered in chunks
cut at frame boundaries are served as if they came in one chunk. A frame cut anywhere else
is not: `read_exact` loses the bytes it read before `WouldBlock`, and `set_tracepoints`
takes `WouldBlock` for a failure.
-/

namespace Tracy

/-! ### Reading whole frames -/

theorem TcpStream.readExact_append {s : TcpStream} {xs ys : List UInt8} {n : Nat}
    (hrx : s.rx = xs ++ ys) (hn : xs.length = n) :
    s.readExact n = (.ok xs, { s with rx := ys }) := by
  subst hn
  simp [TcpStream.readExact, hrx]

theorem TcpStream.readExact_short {s : TcpStream} {n : Nat} (h : s.rx.length < n) :
    s.readExact n = (.error s.rxEnd.kind, { s with rx := [] }) := by
  simp [TcpStream.readExact, Nat.not_le.mpr h]

/-- The header of a frame passes `check_parse_header`, which reads its command and length. -/
theorem checkParseHeader_frame (cmd : Command) {body : List UInt8} (hlen : body.length < 2 ^ 32) :
    checkParseHeader (magicNumb ++ [0, 0] ++ beBytes 2 cmd.code ++ beBytes 4 body.length) =
      .ok (cmdNumberToEnum cmd.code, body.length) := by
  have hcode : cmd.code < 256 ^ 2 := by cases cmd <;> decide
  have hflags : beValue [0, 0] = 0 := rfl
  have hlen4 : (beBytes 4 body.length).take 4 = beBytes 4 body.length :=
    List.take_of_length_le (by simp)
  simp [checkParseHeader, checkMagicNumber, checkFlags, magicNumb, hflags, hlen4,
    List.take_left', List.drop_left', beValue_beBytes_of_lt hcode,
    beValue_beBytes_of_lt (show body.length < 256 ^ 4 by omega)]

/-! ### The requests -/

/-- A request within the protocol's bounds: each name fits `MAX_TRACEPOINT_NAME_LEN`, and the
body fits the `u32` length of the header. -/
def Request.WellFormed : Request → Prop
  | .list => True
  | .enable names | .disable names =>
    (∀ n ∈ names, n.length ≤ maxTracepointNameLen) ∧ (names.flatMap requestItem).length < 2 ^ 32

instance : DecidablePred Request.WellFormed := fun r =>
  match r with
  | .list => inferInstanceAs (Decidable True)
  | .enable _ | .disable _ => inferInstanceAs (Decidable (_ ∧ _))

/-- Set the flag of each name, in order. -/
def TracerContext.storeNames (ctx : TracerContext) (names : List (List UInt8)) (state : Bool) :
    TracerContext :=
  names.foldl (fun c name => c.storeTracepoint (fromUtf8OrDefault name) state) ctx

/-- What a request does, as the protocol describes it: a list request is answered with the
names of the registry, an enable or disable request sets the flag of each name it carries. -/
def Request.serve (ctx : TracerContext) : Request → TracerContext
  | .list => { ctx with
      sent := ctx.sent ++ [frame .tracepointListReply (tracepointListBody ctx.tracepoints)] }
  | .enable names => ctx.storeNames names true
  | .disable names => ctx.storeNames names false

theorem TracerContext.storeTracepoint_connection (ctx : TracerContext) (name : List UInt8)
    (state : Bool) (con : Option TcpStream) :
    TracerContext.storeTracepoint { ctx with connection := con } name state =
      { ctx.storeTracepoint name state with connection := con } := by
  unfold TracerContext.storeTracepoint
  cases ctx.tracepoints.lookup name <;> rfl

/-- Serving requests does not touch the connection. -/
theorem Request.serve_connection (r : Request) (ctx : TracerContext) (con : Option TcpStream) :
    Request.serve { ctx with connection := con } r = { Request.serve ctx r with connection := con } := by
  have hstore : ∀ (names : List (List UInt8)) (state : Bool) (ctx : TracerContext),
      TracerContext.storeNames { ctx with connection := con } names state =
        { ctx.storeNames names state with connection := con } := by
    intro names state
    induction names with
    | nil => intro _; rfl
    | cons name names ih =>
      intro ctx
      simp only [TracerContext.storeNames, List.foldl_cons] at ih ⊢
      rw [TracerContext.storeTracepoint_connection, ih]
  cases r with
  | list => rfl
  | enable names => exact hstore names true ctx
  | disable names => exact hstore names false ctx

theorem Request.foldl_serve_connection (rs : List Request) (ctx : TracerContext)
    (con : Option TcpStream) :
    rs.foldl Request.serve { ctx with connection := con } =
      { rs.foldl Request.serve ctx with connection := con } := by
  induction rs generalizing ctx with
  | nil => rfl
  | cons r rs ih => simp only [List.foldl_cons, Request.serve_connection, ih]

/-! ### `receive` refines `Request.serve` -/

/-- A list of pieces each at least one byte long has no more pieces than bytes. -/
theorem length_le_length_flatMap {α : Type} (l : List α) (f : α → List UInt8)
    (h : ∀ x ∈ l, 1 ≤ (f x).length) : l.length ≤ (l.flatMap f).length := by
  induction l with
  | nil => simp
  | cons x l ih =>
    simp only [List.length_cons, List.flatMap_cons, List.length_append]
    have := h x (List.mem_cons_self _ _)
    have := ih fun y hy => h y (List.mem_cons_of_mem _ hy)
    omega

/-- The loop of `set_tracepoints` over whole items sets the flag of each name, in order, and
stops after the last one. -/
theorem setTracepointsLoop_items (state : Bool) {len : Nat} (rest : List UInt8) :
    ∀ (names : List (List UInt8)) (fuel i : Nat) (reader : TcpStream) (ctx : TracerContext),
      (∀ n ∈ names, n.length ≤ maxTracepointNameLen) → names.length ≤ fuel →
      reader.rx = names.flatMap requestItem ++ rest →
      i + (names.flatMap requestItem).length = len → len < 2 ^ 32 →
      setTracepointsLoop len state fuel i reader ctx =
        .ok (ctx.storeNames names state, { reader with rx := rest })
  | [], fuel, i, reader, ctx, _, _, hrx, hi, _ => by
    have hreader : { reader with rx := rest } = reader := by cases reader; simp_all
    rw [hreader]
    cases fuel <;> simp [setTracepointsLoop, TracerContext.storeNames, ← hi]
  | name :: names, fuel, i, reader, ctx, hnames, hfuel, hrx, hi, hlen => by
    obtain ⟨fuel, rfl⟩ : ∃ f, fuel = f + 1 := ⟨fuel - 1, by simp at hfuel; omega⟩
    have hname := hnames name (List.mem_cons_self _ _)
    have hitem : (requestItem name).length = 2 + name.length := by simp [requestItem]
    simp only [List.flatMap_cons, List.length_append, hitem] at hi
    have hread₁ := @TcpStream.readExact_append reader (beBytes 2 name.length)
      (name ++ (names.flatMap requestItem ++ rest)) 2 (by rw [hrx]; simp [requestItem])
      (length_beBytes 2 name.length)
    have hread₂ := @TcpStream.readExact_append
      { reader with rx := name ++ (names.flatMap requestItem ++ rest) } name
      (names.flatMap requestItem ++ rest) name.length rfl rfl
    rw [setTracepointsLoop, if_pos (by omega), hread₁]
    dsimp only
    rw [beValue_beBytes_of_lt (by unfold maxTracepointNameLen at hname; omega), if_neg (by omega),
      hread₂, Nat.mod_eq_of_lt (by omega), Nat.mod_eq_of_lt (by omega)]
    exact setTracepointsLoop_items state rest names fuel _ _ _
      (fun n hn => hnames n (List.mem_cons_of_mem _ hn)) (by simp at hfuel; omega) rfl (by omega)
      hlen


theorem Request.serve_connection_eq (r : Request) (ctx : TracerContext) :
    (Request.serve ctx r).connection = ctx.connection := by
  have h := congrArg TracerContext.connection (Request.serve_connection r ctx ctx.connection)
  exact h

theorem Request.cmd_code (r : Request) : cmdNumberToEnum r.cmd.code = r.cmd := by
  cases r <;> rfl

theorem Request.length_body_lt {r : Request} (h : r.WellFormed) : r.body.length < 2 ^ 32 := by
  cases r with
  | list => simp [Request.body]
  | enable names => exact h.2
  | disable names => exact h.2

/-- `set_tracepoints` on a body of whole items sets the flag of each name, in order, and
leaves what follows the body unread. -/
theorem setTracepoints_items (state : Bool) {names : List (List UInt8)} {rest : List UInt8}
    {reader : TcpStream} (ctx : TracerContext)
    (hnames : ∀ n ∈ names, n.length ≤ maxTracepointNameLen)
    (hlen : (names.flatMap requestItem).length < 2 ^ 32)
    (hrx : reader.rx = names.flatMap requestItem ++ rest) :
    setTracepoints ctx (names.flatMap requestItem).length reader state =
      .ok (ctx.storeNames names state, { reader with rx := rest }) := by
  have hitems := length_le_length_flatMap names requestItem
    (fun n _ => by simp only [requestItem, List.length_append, length_beBytes]; omega)
  exact setTracepointsLoop_items state rest names _ 0 reader ctx hnames
    (by rw [hrx, List.length_append]; omega) hrx (Nat.zero_add _) hlen

/-- `execute_command` on the header of a well-formed request, with the request's body next in
the reader and writes that succeed, serves the request and reads exactly its body. -/
theorem executeCommand_request {r : Request} (hr : r.WellFormed) {ctx : TracerContext}
    {con : TcpStream} (hcon : ctx.connection = some con) (htx : con.tx = [])
    {reader : TcpStream} {rest : List UInt8} (hrx : reader.rx = r.body ++ rest) :
    executeCommand ctx r.cmd r.body.length reader =
      .ok (Request.serve ctx r, { reader with rx := rest }) := by
  cases r with
  | list =>
    have hwrite : con.writeAll = (.ok, con) := by simp [TcpStream.writeAll, htx]
    have hreader : { reader with rx := rest } = reader := by cases reader; simp_all [Request.body]
    simp [executeCommand, Request.cmd, sendTracepointList, sendSlices_of_connection hcon, hwrite,
      Request.serve, ← hcon, hreader]
  | enable names => exact setTracepoints_items true ctx hr.1 hr.2 hrx
  | disable names => exact setTracepoints_items false ctx hr.1 hr.2 hrx

/-- The receive loop serves whole request frames in order, and stops at the end of what the
collector sent when it would block. -/
theorem receiveLoop_requests : ∀ (rs : List Request) (fuel : Nat) (reader : TcpStream)
    (ctx : TracerContext) (con : TcpStream), (∀ r ∈ rs, r.WellFormed) → rs.length < fuel →
    reader.rx = rs.flatMap Request.bytes → reader.rxEnd = .wouldBlock →
    ctx.connection = some con → con.tx = [] →
    receiveLoop fuel reader ctx = .ok (rs.foldl Request.serve ctx, { reader with rx := [] })
  | [], fuel, reader, ctx, _, _, hfuel, hrx, hend, _, _ => by
    obtain ⟨fuel, rfl⟩ : ∃ f, fuel = f + 1 := ⟨fuel - 1, by simp at hfuel; omega⟩
    rw [receiveLoop, TcpStream.readExact_short (by simp [hrx, headerLen])]
    simp [hend, ReadEnd.kind]
  | r :: rs, fuel, reader, ctx, con, hwf, hfuel, hrx, hend, hcon, htx => by
    obtain ⟨fuel, rfl⟩ : ∃ f, fuel = f + 1 := ⟨fuel - 1, by simp at hfuel; omega⟩
    have hr := hwf r (List.mem_cons_self _ _)
    have hrs : ∀ r ∈ rs, r.WellFormed := fun r' h' => hwf r' (List.mem_cons_of_mem _ h')
    have hread := @TcpStream.readExact_append reader
      (magicNumb ++ [0, 0] ++ beBytes 2 r.cmd.code ++ beBytes 4 r.body.length)
      (r.body ++ rs.flatMap Request.bytes) headerLen
      (by rw [hrx, List.flatMap_cons, Request.bytes, frame]; simp)
      (by simp [magicNumb, headerLen])
    have hnext : ∀ ctx', ctx'.connection = some con →
        receiveLoop fuel { reader with rx := rs.flatMap Request.bytes } ctx' =
          .ok (rs.foldl Request.serve ctx', { reader with rx := [] }) :=
      fun ctx' hcon' => receiveLoop_requests rs fuel _ ctx' con hrs (by simp at hfuel; omega)
        rfl hend hcon' htx
    rw [receiveLoop, hread]
    dsimp only
    rw [checkParseHeader_frame r.cmd (Request.length_body_lt hr), Request.cmd_code]
    dsimp only
    rw [executeCommand_request hr hcon htx rfl, Engine.ok_bind]
    exact hnext _ ((Request.serve_connection_eq r ctx).trans hcon)

theorem Request.foldl_serve_connection_eq (rs : List Request) (ctx : TracerContext) :
    (rs.foldl Request.serve ctx).connection = ctx.connection := by
  induction rs generalizing ctx with
  | nil => rfl
  | cons r rs ih => rw [List.foldl_cons, ih, Request.serve_connection_eq]

/-- `receive` serves the requests whose frames the collector sent whole, in order, and leaves
the connection with nothing unread. -/
theorem receive_requests {ctx : TracerContext} {con : TcpStream} (hcon : ctx.connection = some con)
    (rs : List Request) (hwf : ∀ r ∈ rs, r.WellFormed) (hrx : con.rx = rs.flatMap Request.bytes)
    (hend : con.rxEnd = .wouldBlock) (htx : con.tx = []) :
    receive ctx = .ok { rs.foldl Request.serve ctx with connection := some { con with rx := [] } } := by
  have hfuel : rs.length < con.rx.length + 1 := by
    have := length_le_length_flatMap rs Request.bytes
      (fun r _ => by simp only [Request.bytes, length_frame, headerLen]; omega)
    rw [hrx]
    omega
  simp only [receive, hcon, receiveLoop_requests rs _ con ctx con hwf hfuel hrx hend hcon htx,
    Engine.ok_bind, Engine.pure_eq, TracerContext.withReader, Request.foldl_serve_connection_eq,
    Option.map_some']

/-! ### Chunks cut at frame boundaries -/

/-- The collector sends each chunk in turn, and the engine handles the `CON_DATA` event that
follows it. -/
def deliverChunks (chunks : List (List UInt8)) : List Action :=
  chunks.flatMap fun chunk => [.peer chunk .wouldBlock [], .poll [.conData]]

theorem World.run_append (w : World) (xs ys : List Action) :
    w.run (xs ++ ys) = (w.run xs).run ys :=
  List.foldl_append _ _ _ _

/-- One chunk of whole frames on a connection with nothing unread. -/
theorem run_deliverChunk {w : World} {con : TcpStream} (hrun : w.status = .running)
    (hcon : w.ctx.connection = some con) (hrx : con.rx = []) (rs : List Request)
    (hwf : ∀ r ∈ rs, r.WellFormed) :
    w.run (deliverChunks [rs.flatMap Request.bytes]) =
      { w with ctx := { rs.foldl Request.serve w.ctx with
        connection := some ⟨[], .wouldBlock, []⟩ } } := by
  have hpeer : w.peer (rs.flatMap Request.bytes) .wouldBlock [] =
      { w with ctx := { w.ctx with
        connection := some ⟨rs.flatMap Request.bytes, .wouldBlock, []⟩ } } := by
    simp [World.peer, hrun, hcon, hrx]
  have hrecv := receive_requests
    (show ({ w.ctx with connection := some ⟨rs.flatMap Request.bytes, .wouldBlock, []⟩ } :
      TracerContext).connection = some ⟨rs.flatMap Request.bytes, .wouldBlock, []⟩ from rfl)
    rs hwf rfl rfl rfl
  simp only [deliverChunks, List.flatMap_cons, List.flatMap_nil, List.append_nil, World.run,
    List.foldl_cons, List.foldl_nil, World.step, hpeer]
  simp [World.poll, hrun, eventHandler, eventHandlerLoop, hrecv, Request.foldl_serve_connection]

/-- Chunks of whole frames, each on a connection with nothing unread, serve the requests of
all of them in order. -/
theorem run_deliverChunks : ∀ {w : World} {con : TcpStream} (groups : List (List Request)),
    w.status = .running → w.ctx.connection = some con → con.rx = [] → groups ≠ [] →
    (∀ g ∈ groups, ∀ r ∈ g, r.WellFormed) →
    w.run (deliverChunks (groups.map fun g => g.flatMap Request.bytes)) =
      { w with ctx := { groups.flatten.foldl Request.serve w.ctx with
        connection := some ⟨[], .wouldBlock, []⟩ } }
  | _, _, [], _, _, _, hne, _ => absurd rfl hne
  | w, con, g :: gs, hrun, hcon, hrx, _, hwf => by
    have hfirst := run_deliverChunk hrun hcon hrx g (hwf g (List.mem_cons_self _ _))
    rw [List.map_cons, deliverChunks, List.flatMap_cons, World.run_append]
    rw [deliverChunks] at hfirst
    simp only [List.flatMap_cons, List.flatMap_nil, List.append_nil] at hfirst
    rw [hfirst]
    rcases eq_or_ne gs [] with rfl | hgs
    · simp [deliverChunks, World.run]
    · rw [← deliverChunks, @run_deliverChunks
        { w with ctx := { g.foldl Request.serve w.ctx with
          connection := some ⟨[], .wouldBlock, []⟩ } } ⟨[], .wouldBlock, []⟩ gs hrun rfl rfl hgs
        fun g' hg' => hwf g' (List.mem_cons_of_mem _ hg')]
      simp [List.foldl_append, Request.foldl_serve_connection]

/-- Frames delivered in chunks cut at frame boundaries, each chunk readable before the engine
handles its `CON_DATA` event, are served as one chunk of them all is, and that is serving
every request in order: the same flag updates and list replies, in the same order, with the
connection kept. -/
theorem receive_frame_aligned_chunks {w : World} {con : TcpStream} (hrun : w.status = .running)
    (hcon : w.ctx.connection = some con) (hrx : con.rx = []) (groups : List (List Request))
    (hne : groups ≠ []) (hwf : ∀ g ∈ groups, ∀ r ∈ g, r.WellFormed) :
    w.run (deliverChunks (groups.map fun g => g.flatMap Request.bytes)) =
      w.run (deliverChunks [groups.flatten.flatMap Request.bytes]) ∧
    w.run (deliverChunks [groups.flatten.flatMap Request.bytes]) =
      { w with ctx := { groups.flatten.foldl Request.serve w.ctx with
        connection := some ⟨[], .wouldBlock, []⟩ } } := by
  have hwhole := run_deliverChunks [groups.flatten] hrun hcon hrx (List.cons_ne_nil _ _)
    fun g hg r hr => by
      obtain rfl := List.mem_singleton.mp hg
      obtain ⟨g', hg', hr'⟩ := List.mem_flatten.mp hr
      exact hwf g' hg' r hr'
  simp only [List.map_cons, List.map_nil, List.flatten_cons, List.flatten_nil,
    List.append_nil] at hwhole
  rw [hwhole, run_deliverChunks groups hrun hcon hrx hne hwf]
  exact ⟨rfl, rfl⟩

/-- A list request and an enable and a disable request, in two chunks. -/
theorem receive_frame_aligned_chunks_two :
    let w := (World.init ⟨"host", "app", 100⟩ 61455 false false).step
      (.poll [.conNew (some ⟨[], .wouldBlock, []⟩)])
    let groups : List (List Request) := [[.list], [.enable [[0x61]], .disable [[0x61]]]]
    w.run (deliverChunks (groups.map fun g => g.flatMap Request.bytes)) =
      w.run (deliverChunks [groups.flatten.flatMap Request.bytes]) ∧
    w.run (deliverChunks [groups.flatten.flatMap Request.bytes]) =
      { w with ctx := { groups.flatten.foldl Request.serve w.ctx with
        connection := some ⟨[], .wouldBlock, []⟩ } } :=
  @receive_frame_aligned_chunks _ ⟨[], .wouldBlock, []⟩ (by decide) (by decide) rfl _
    (by decide) (by decide)

/-- A frame cut inside is not served as a whole one: the bytes of a header that `read_exact`
read before `WouldBlock` are lost, so a list request cut after six bytes gets no reply; and
`set_tracepoints` takes `WouldBlock` inside an item for a failure, so an enable request cut
one byte after its header tears the connection down. -/
theorem split_frames_diverge :
    let w := (World.init ⟨"host", "app", 100⟩ 61455 false false).step
      (.poll [.conNew (some ⟨[], .wouldBlock, []⟩)])
    (w.run (deliverChunks [Request.list.bytes])).ctx.sent = [frame .tracepointListReply []] ∧
    (w.run (deliverChunks [Request.list.bytes.take 6, Request.list.bytes.drop 6])).ctx.sent = [] ∧
    (w.run (deliverChunks [(Request.enable [[0x61]]).bytes.take 13,
      (Request.enable [[0x61]]).bytes.drop 13])).ctx.connection = none := by
  decide

end Tracy
