import Tracy.Bytes

/-!
# The wire codec

`tcp_handler.rs` frames every message with a 12-byte header (`push_front_header`) and packs
each buffered event into one record (`encode_append_trace_data`). This file models both and
the check of an incoming header (`check_parse_header`), and it states the record grammar of
the protocol, `u16 name_len | name | u64 timestamp | u16 data_len | data`, as a decoder, so
that what the agent writes can be compared with what a collector reads.
-/

namespace Tracy

/-- `MAX_TRACEPOINT_NAME_LEN`. -/
def maxTracepointNameLen : Nat := 32

/-- `MAX_SUBMIT_LEN`: the largest payload `tracy_submit` accepts. -/
def maxSubmitLen : Nat := 2048

/-- `QUEUE_TOTAL_SIZE`: the batching threshold, and the size of one send window. -/
def queueTotalSize : Nat := 4096

/-- `TIMESTAMP_LEN`. -/
def timestampLen : Nat := 8

/-- `HEADER_LEN`. -/
def headerLen : Nat := 12

/-- `MAGIC_NUMB`, the bytes `RuSt`. -/
def magicNumb : List UInt8 := [0x52, 0x75, 0x53, 0x74]

/-- The commands of the protocol (`enum Command`). -/
inductive Command
  | tracepointListRequest
  | tracepointListReply
  | tracepointEnableRequest
  | tracepointDisableRequest
  | tracePush
  | invalid
  deriving DecidableEq, Repr

/-- The `#[repr(u16)]` discriminant of a command, written as `cmd as u16`. -/
def Command.code : Command → Nat
  | .tracepointListRequest => 1
  | .tracepointListReply => 2
  | .tracepointEnableRequest => 3
  | .tracepointDisableRequest => 4
  | .tracePush => 5
  | .invalid => 42

/-- A `SystemTime`: seconds and nanoseconds relative to the Unix epoch, as in a `timespec`. -/
structure SystemTime where
  /-- Whole seconds, negative before the epoch. -/
  secs : Int
  /-- Nanoseconds within the second. -/
  nanos : Fin 1000000000
  deriving DecidableEq, Repr

/-- `timestamp_to_u64`: nanoseconds since the epoch, `0` for a time before it. The `u64`
arithmetic wraps, as it does in a release build. -/
def timestampToU64 (time : SystemTime) : Nat :=
  if 0 ≤ time.secs then (time.secs.toNat * 1000000000 + time.nanos.val) % 2 ^ 64 else 0

theorem timestampToU64_lt (time : SystemTime) : timestampToU64 time < 256 ^ 8 := by
  unfold timestampToU64
  split
  · exact Nat.mod_lt _ (by norm_num)
  · norm_num

/-- `BufferElement`: one submitted event, as it sits in the engine's buffer. -/
structure BufferElement where
  /-- The normalized tracepoint name. -/
  tracepoint : List UInt8
  /-- The wall-clock time of the submission. -/
  timestamp : SystemTime
  /-- The payload. -/
  data : List UInt8
  deriving DecidableEq, Repr

/-- `BufferElement::len`, the element's share of `buffer_occupancy`. -/
def BufferElement.len (e : BufferElement) : Nat :=
  e.tracepoint.length + timestampLen + e.data.length

/-- The bounds that `tracy_submit` enforces on every element it sends: a name of at most
32 bytes (after `fix_tracepoint_str`) and between 1 and 2048 bytes of data. -/
def BufferElement.Bounded (e : BufferElement) : Prop :=
  e.tracepoint.length ≤ maxTracepointNameLen ∧ 1 ≤ e.data.length ∧ e.data.length ≤ maxSubmitLen

instance (e : BufferElement) : Decidable e.Bounded :=
  inferInstanceAs (Decidable (_ ∧ _ ∧ _))

/-- `for byte in bytes.iter().rev() { que.push_front(*byte) }`. -/
def pushFrontAll (bytes que : List UInt8) : List UInt8 :=
  bytes.reverse.foldl (fun q b => b :: q) que

@[simp] theorem pushFrontAll_eq (bytes que : List UInt8) : pushFrontAll bytes que = bytes ++ que := by
  unfold pushFrontAll
  induction bytes generalizing que with
  | nil => rfl
  | cons b bytes ih => simp [List.foldl_append, ih]

/-- `push_front_header`: prepend magic number, zero flags, command and the body's length
(`que.len() as u32`), each in network byte order. -/
def pushFrontHeader (que : List UInt8) (cmd : Command) : List UInt8 :=
  let flags := 0
  let length := que.length
  let que := pushFrontAll (beBytes 4 length) que
  let que := pushFrontAll (beBytes 2 cmd.code) que
  let que := pushFrontAll (beBytes 2 flags) que
  pushFrontAll magicNumb que

/-- A frame: the 12-byte header of `cmd` followed by `body`. -/
def frame (cmd : Command) (body : List UInt8) : List UInt8 :=
  magicNumb ++ [0, 0] ++ beBytes 2 cmd.code ++ beBytes 4 body.length ++ body

@[simp] theorem pushFrontHeader_eq (que : List UInt8) (cmd : Command) :
    pushFrontHeader que cmd = frame cmd que := by
  simp [pushFrontHeader, frame, beBytes]

theorem length_frame (cmd : Command) (body : List UInt8) :
    (frame cmd body).length = headerLen + body.length := by
  simp [frame, magicNumb, headerLen]; omega

/-- The body of a byte string handed to the socket, if its header is that of a `TracePush`
frame. -/
def pushBody? (bytes : List UInt8) : Option (List UInt8) :=
  if bytes.take 8 = magicNumb ++ [0, 0] ++ beBytes 2 Command.tracePush.code then
    some (bytes.drop headerLen)
  else none

/-- The bodies of the `TracePush` frames among byte strings handed to the socket. -/
def pushBodies (sent : List (List UInt8)) : List (List UInt8) := sent.filterMap pushBody?

@[simp] theorem pushBodies_nil : pushBodies [] = [] := rfl

@[simp] theorem pushBodies_append (xs ys : List (List UInt8)) :
    pushBodies (xs ++ ys) = pushBodies xs ++ pushBodies ys := List.filterMap_append _ _ _

theorem pushBody?_frame (cmd : Command) (body : List UInt8) :
    pushBody? (frame cmd body) = if cmd = .tracePush then some body else none := by
  have hhead : (frame cmd body).take 8 = magicNumb ++ [0, 0] ++ beBytes 2 cmd.code := by
    simp [frame, magicNumb, beBytes]
  have hdrop : (frame cmd body).drop headerLen = body := by
    simp [frame, magicNumb, beBytes, headerLen]
  rw [pushBody?, hhead, hdrop]
  cases cmd <;> simp [Command.code, beBytes]

@[simp] theorem pushBodies_frame_tracePush (body : List UInt8) :
    pushBodies [frame .tracePush body] = [body] := by
  simp [pushBodies, pushBody?_frame]

@[simp] theorem pushBodies_frame_listReply (body : List UInt8) :
    pushBodies [frame .tracepointListReply body] = [] := by
  simp [pushBodies, pushBody?_frame]

/-- `encode_append_trace_data`: append one record `u16 name_len | name | u64 timestamp |
u16 data_len | data` to the send window. -/
def encodeAppendTraceData (que : List UInt8) (bufelm : BufferElement) : List UInt8 :=
  que ++ beBytes 2 bufelm.tracepoint.length ++ bufelm.tracepoint ++
    beBytes 8 (timestampToU64 bufelm.timestamp) ++ beBytes 2 bufelm.data.length ++ bufelm.data

/-- The record of one element on its own. -/
def recordBytes (e : BufferElement) : List UInt8 := encodeAppendTraceData [] e

theorem encodeAppendTraceData_eq (que : List UInt8) (e : BufferElement) :
    encodeAppendTraceData que e = que ++ recordBytes e := by
  simp [recordBytes, encodeAppendTraceData]

/-- A record takes four bytes more than the element's `len()`: its two `u16` lengths. -/
theorem length_recordBytes (e : BufferElement) : (recordBytes e).length = e.len + 4 := by
  simp [recordBytes, encodeAppendTraceData, BufferElement.len, timestampLen]; omega

/-! ### The record grammar -/

/-- What a collector reads from one record. -/
structure TraceRecord where
  /-- The tracepoint name. -/
  name : List UInt8
  /-- The `u64` timestamp. -/
  timestamp : Nat
  /-- The payload. -/
  data : List UInt8
  deriving DecidableEq, Repr

/-- The record that `encode_append_trace_data` writes for an element. -/
def BufferElement.record (e : BufferElement) : TraceRecord :=
  ⟨e.tracepoint, timestampToU64 e.timestamp, e.data⟩

/-- Split `n` bytes off the front, if there are that many. -/
def takeBytes (n : Nat) (bytes : List UInt8) : Option (List UInt8 × List UInt8) :=
  if n ≤ bytes.length then some (bytes.take n, bytes.drop n) else none

/-- Read one record `u16 name_len | name | u64 timestamp | u16 data_len | data`. -/
def readRecord (bytes : List UInt8) : Option (TraceRecord × List UInt8) := do
  let (nameLen, rest) ← takeBytes 2 bytes
  let (name, rest) ← takeBytes (beValue nameLen) rest
  let (timestamp, rest) ← takeBytes 8 rest
  let (dataLen, rest) ← takeBytes 2 rest
  let (data, rest) ← takeBytes (beValue dataLen) rest
  pure (⟨name, beValue timestamp, data⟩, rest)

/-- Read records until the bytes are used up; at most `fuel` of them. -/
def decodeRecordsFuel : Nat → List UInt8 → Option (List TraceRecord)
  | _, [] => some []
  | 0, _ :: _ => none
  | fuel + 1, bytes@(_ :: _) => do
    let (r, rest) ← readRecord bytes
    let rs ← decodeRecordsFuel fuel rest
    pure (r :: rs)

/-- The body of `TracePush` frames as a collector parses it: a sequence of records that
uses up every byte. A record has at least one byte, so `bytes.length` records are enough. -/
def decodeRecords (bytes : List UInt8) : Option (List TraceRecord) :=
  decodeRecordsFuel bytes.length bytes

@[simp] theorem takeBytes_append {n : Nat} {xs : List UInt8} (ys : List UInt8)
    (h : xs.length = n) : takeBytes n (xs ++ ys) = some (xs, ys) := by
  subst h
  simp [takeBytes]

/-- The lengths of an element that `tracy_submit` let through fit their `u16` fields. -/
theorem BufferElement.Bounded.fits {e : BufferElement} (h : e.Bounded) :
    e.tracepoint.length < 256 ^ 2 ∧ e.data.length < 256 ^ 2 := by
  unfold BufferElement.Bounded maxTracepointNameLen maxSubmitLen at h
  omega

theorem readRecord_recordBytes {e : BufferElement} (h : e.Bounded) (rest : List UInt8) :
    readRecord (recordBytes e ++ rest) = some (e.record, rest) := by
  obtain ⟨hname, hdata⟩ := h.fits
  simp only [recordBytes, encodeAppendTraceData, List.nil_append, List.append_assoc, readRecord]
  simp [takeBytes_append _ (length_beBytes 2 _), beValue_beBytes_of_lt hname,
    beValue_beBytes_of_lt hdata, beValue_beBytes_of_lt (timestampToU64_lt e.timestamp),
    BufferElement.record]

theorem recordBytes_ne_nil (e : BufferElement) : recordBytes e ≠ [] := by
  intro h
  have := congrArg List.length h
  rw [length_recordBytes] at this
  simp at this

theorem decodeRecordsFuel_recordBytes {es : List BufferElement} (h : ∀ e ∈ es, e.Bounded)
    {fuel : Nat} (hfuel : es.length ≤ fuel) :
    decodeRecordsFuel fuel (es.flatMap recordBytes) = some (es.map BufferElement.record) := by
  induction es generalizing fuel with
  | nil => cases fuel <;> rfl
  | cons e es ih =>
    obtain ⟨fuel, rfl⟩ : ∃ f, fuel = f + 1 := ⟨fuel - 1, by simp at hfuel; omega⟩
    obtain ⟨b, bs, hb⟩ := List.exists_cons_of_ne_nil (recordBytes_ne_nil e)
    have hrest := @ih (fun x hx => h x (List.mem_cons_of_mem e hx)) fuel (by simp at hfuel; omega)
    have hread := readRecord_recordBytes (h e (List.mem_cons_self e es)) (es.flatMap recordBytes)
    rw [hb, List.cons_append] at hread
    rw [List.flatMap_cons, hb, List.cons_append, decodeRecordsFuel, hread]
    simp [hrest]

/-- Records of elements within the submission bounds are read back exactly: the encoder
and the record grammar agree. -/
theorem decodeRecords_flatMap_recordBytes {es : List BufferElement} (h : ∀ e ∈ es, e.Bounded) :
    decodeRecords (es.flatMap recordBytes) = some (es.map BufferElement.record) := by
  apply decodeRecordsFuel_recordBytes h
  induction es with
  | nil => simp
  | cons e es ih =>
    have hne := recordBytes_ne_nil e
    have hlen : 1 ≤ (recordBytes e).length := List.length_pos.mpr hne
    simp only [List.flatMap_cons, List.length_append, List.length_cons] at ih ⊢
    have := ih (fun x hx => h x (List.mem_cons_of_mem e hx))
    omega

/-! ### Checking an incoming header -/

/-- `check_magic_number`. -/
def checkMagicNumber (number : List UInt8) : Bool := number == magicNumb

/-- `check_flags`: the flags are unused and must be zero. -/
def checkFlags (flags : Nat) : Except Unit Unit :=
  if flags ≠ 0 then .error () else .ok ()

/-- `cmd_number_to_enum`. -/
def cmdNumberToEnum (cmd : Nat) : Command :=
  if cmd = Command.tracepointListRequest.code then .tracepointListRequest
  else if cmd = Command.tracepointEnableRequest.code then .tracepointEnableRequest
  else if cmd = Command.tracepointDisableRequest.code then .tracepointDisableRequest
  else if cmd = Command.tracepointListReply.code then .tracepointListReply
  else if cmd = Command.tracePush.code then .tracePush
  else .invalid

/-- `check_cmd_validity`: a client may only send the three requests, a list request with an
empty body and the other two with a non-empty one. -/
def checkCmdValidity (cmd : Command) (len : Nat) : Except Unit Unit :=
  match cmd with
  | .tracepointListRequest => if len ≠ 0 then .error () else .ok ()
  | .tracepointEnableRequest => if len = 0 then .error () else .ok ()
  | .tracepointDisableRequest => if len = 0 then .error () else .ok ()
  | _ => .error ()

/-- `check_parse_header` on the 12 bytes of a header. A failed `check_cmd_validity` is only
reported through `eprintln!`: its result does not reach the caller, so only the magic
number and the flags can make the check fail. -/
def checkParseHeader (header : List UInt8) : Except Unit (Command × Nat) :=
  if !checkMagicNumber (header.take 4) then .error () else
  let flags := beValue ((header.drop 4).take 2)
  let command := beValue ((header.drop 6).take 2)
  let len := beValue ((header.drop 8).take 4)
  let cmd := cmdNumberToEnum command
  do
    checkFlags flags
    pure (cmd, len)


/-! ### What a collector sends -/

/-- An item of an enable or disable request, `u16 name_len | name`. -/
def requestItem (name : List UInt8) : List UInt8 := beBytes 2 name.length ++ name

/-- A request of a collector: a list request, or an enable or disable request for a list of
names. -/
inductive Request
  | list
  | enable (names : List (List UInt8))
  | disable (names : List (List UInt8))
  deriving DecidableEq, Repr

/-- The command of a request. -/
def Request.cmd : Request → Command
  | .list => .tracepointListRequest
  | .enable _ => .tracepointEnableRequest
  | .disable _ => .tracepointDisableRequest

/-- The body of a request: nothing for a list request, the items of the names otherwise. -/
def Request.body : Request → List UInt8
  | .list => []
  | .enable names | .disable names => names.flatMap requestItem

/-- The frame of a request. -/
def Request.bytes (r : Request) : List UInt8 := frame r.cmd r.body

/-- Read one item `u16 name_len | name`. -/
def readItem (bytes : List UInt8) : Option (List UInt8 × List UInt8) := do
  let (nameLen, rest) ← takeBytes 2 bytes
  takeBytes (beValue nameLen) rest

/-- Read items until the bytes are used up; at most `fuel` of them. -/
def decodeItemsFuel : Nat → List UInt8 → Option (List (List UInt8))
  | _, [] => some []
  | 0, _ :: _ => none
  | fuel + 1, bytes@(_ :: _) => do
    let (name, rest) ← readItem bytes
    let names ← decodeItemsFuel fuel rest
    pure (name :: names)

/-- A body of items, `(u16 name_len | name)*`, as the item grammar of enable and disable
requests and of the list reply reads it. An item has at least two bytes, so `bytes.length`
items are enough. -/
def decodeItems (bytes : List UInt8) : Option (List (List UInt8)) :=
  decodeItemsFuel bytes.length bytes

theorem decodeItemsFuel_requestItems {names : List (List UInt8)}
    (h : ∀ n ∈ names, n.length < 256 ^ 2) {fuel : Nat} (hfuel : names.length ≤ fuel) :
    decodeItemsFuel fuel (names.flatMap requestItem) = some names := by
  induction names generalizing fuel with
  | nil => cases fuel <;> rfl
  | cons n names ih =>
    obtain ⟨fuel, rfl⟩ : ∃ f, fuel = f + 1 := ⟨fuel - 1, by simp at hfuel; omega⟩
    have hread : readItem (requestItem n ++ names.flatMap requestItem) =
        some (n, names.flatMap requestItem) := by
      simp [readItem, requestItem, takeBytes_append _ (length_beBytes 2 _),
        beValue_beBytes_of_lt (h n (List.mem_cons_self _ _))]
    obtain ⟨b, bs, hb⟩ : ∃ b bs, requestItem n = b :: bs := ⟨_, _, rfl⟩
    rw [hb, List.cons_append] at hread
    rw [List.flatMap_cons, hb, List.cons_append, decodeItemsFuel, hread]
    simp [@ih (fun x hx => h x (List.mem_cons_of_mem n hx)) fuel (by simp at hfuel; omega)]

/-- Items of names that fit their `u16` length are read back exactly. -/
theorem decodeItems_requestItems {names : List (List UInt8)}
    (h : ∀ n ∈ names, n.length < 256 ^ 2) :
    decodeItems (names.flatMap requestItem) = some names := by
  apply decodeItemsFuel_requestItems h
  induction names with
  | nil => simp
  | cons n names ih =>
    simp only [List.flatMap_cons, List.length_append, List.length_cons, requestItem,
      length_beBytes] at ih ⊢
    have := ih (fun x hx => h x (List.mem_cons_of_mem n hx))
    omega

end Tracy
