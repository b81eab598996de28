import Tracy.System

/-!
# The announce beacon

`announce_tracer` sends `MAGIC_NUMB` followed by the text of `format_json`, which is meant to
be one JSON object with seven members. `format_json` writes the host name and the process
name between quotes without escaping them. To say what a collector reads, this file gives
the JSON grammar of RFC 8259 as a decoder over characters. It accepts a subset of JSON texts:
it rejects `\u` escapes of surrogates, and reads every text it accepts as the grammar does.
When both names hold only characters that JSON leaves unescaped, the text reads back as the
seven members (`formatJson_parse`); a name with a quote can add a member of its own.
-/

namespace Tracy

/-- A JSON value (RFC 8259). A number is kept as its text. -/
inductive Json
  | null
  | bool (b : Bool)
  | num (text : List Char)
  | str (chars : List Char)
  | arr (items : List Json)
  | obj (members : List (List Char × Json))
  deriving Repr

namespace Json

def isWs (c : Char) : Bool := c = ' ' || c = '\t' || c = '\n' || c = '\r'

def isDigit (c : Char) : Bool := '0' ≤ c && c ≤ '9'

def skipWs : List Char → List Char
  | c :: cs => if isWs c then skipWs cs else c :: cs
  | [] => []

def hexValue (c : Char) : Option Nat :=
  if '0' ≤ c ∧ c ≤ '9' then some (c.toNat - '0'.toNat)
  else if 'a' ≤ c ∧ c ≤ 'f' then some (c.toNat - 'a'.toNat + 10)
  else if 'A' ≤ c ∧ c ≤ 'F' then some (c.toNat - 'A'.toNat + 10)
  else none

/-- The escapes of one character: `\e` stands for `c`. -/
def escapes : List (Char × Char) :=
  [('"', '"'), ('\\', '\\'), ('/', '/'), ('b', '\x08'), ('f', '\x0c'), ('n', '\n'), ('r', '\r'),
    ('t', '\t')]

/-- `\uXXXX`: four hex digits that name a character, not a surrogate. -/
def unicodeEscape (a b c d : Char) : Option Char :=
  match hexValue a, hexValue b, hexValue c, hexValue d with
  | some a, some b, some c, some d =>
    let n := ((a * 16 + b) * 16 + c) * 16 + d
    if n.isValidChar then some (Char.ofNat n) else none
  | _, _, _, _ => none

/-- The characters of a string after its opening quote, up to the closing one. -/
def stringBody : List Char → List Char → Option (List Char × List Char)
  | [], _ => none
  | c :: rest, acc =>
    if c = '"' then some (acc.reverse, rest)
    else if c = '\\' then
      match rest with
      | e :: rest =>
        if e = 'u' then
          match rest with
          | a :: b :: c :: d :: rest =>
            match unicodeEscape a b c d with
            | some x => stringBody rest (x :: acc)
            | none => none
          | _ => none
        else
          match escapes.lookup e with
          | some x => stringBody rest (x :: acc)
          | none => none
      | [] => none
    else if c.toNat < 0x20 then none
    else stringBody rest (c :: acc)

/-- `-? (0 | [1-9][0-9]*) (. [0-9]+)? ([eE] [+-]? [0-9]+)?`, as its text. -/
def number (cs : List Char) : Option (List Char × List Char) := do
  let (sign, cs) := if cs.head? = some '-' then (['-'], cs.tail) else ([], cs)
  let (whole, cs) ← match cs with
    | c :: cs =>
      if c = '0' then some (['0'], cs)
      else if '1' ≤ c ∧ c ≤ '9' then some (c :: cs.takeWhile isDigit, cs.dropWhile isDigit)
      else none
    | [] => none
  let (frac, cs) ←
    if cs.head? = some '.' then
      if (cs.tail.takeWhile isDigit).isEmpty then none
      else some ('.' :: cs.tail.takeWhile isDigit, cs.tail.dropWhile isDigit)
    else some ([], cs)
  let (exp, cs) ← match cs with
    | e :: cs =>
      if e = 'e' ∨ e = 'E' then
        let (esign, cs) :=
          if cs.head? = some '+' ∨ cs.head? = some '-' then (cs.take 1, cs.tail) else ([], cs)
        if (cs.takeWhile isDigit).isEmpty then none
        else some (e :: esign ++ cs.takeWhile isDigit, cs.dropWhile isDigit)
      else some ([], e :: cs)
    | [] => some ([], [])
  pure (sign ++ whole ++ frac ++ exp, cs)

/-- The members of an object after `{`, given a reader of values; `fuel` bounds their
number. -/
def members (value : List Char → Option (Json × List Char)) :
    Nat → List Char → List (List Char × Json) → Option (List (List Char × Json) × List Char)
  | 0, _, _ => none
  | fuel + 1, cs, acc =>
    match skipWs cs with
    | '"' :: cs => do
      let (key, cs) ← stringBody cs []
      match skipWs cs with
      | ':' :: cs => do
        let (v, cs) ← value cs
        match skipWs cs with
        | ',' :: cs => members value fuel cs ((key, v) :: acc)
        | '}' :: cs => some (((key, v) :: acc).reverse, cs)
        | _ => none
      | _ => none
    | _ => none

/-- The items of an array after `[`, given a reader of values. -/
def items (value : List Char → Option (Json × List Char)) :
    Nat → List Char → List Json → Option (List Json × List Char)
  | 0, _, _ => none
  | fuel + 1, cs, acc => do
    let (v, cs) ← value cs
    match skipWs cs with
    | ',' :: cs => items value fuel cs (v :: acc)
    | ']' :: cs => some ((v :: acc).reverse, cs)
    | _ => none

/-- The literal names `true`, `false` and `null`. -/
def literals : List (List Char × Json) :=
  [(['t', 'r', 'u', 'e'], .bool true), (['f', 'a', 'l', 's', 'e'], .bool false),
    (['n', 'u', 'l', 'l'], .null)]

/-- A literal name at the start of the text, with what follows it. -/
def literal (cs : List Char) : Option (Json × List Char) :=
  (literals.find? fun l => l.1.isPrefixOf cs).map fun l => (l.2, cs.drop l.1.length)

/-- One value, with what follows it; `fuel` bounds the nesting. -/
def value : Nat → List Char → Option (Json × List Char)
  | 0, _ => none
  | fuel + 1, cs =>
    match skipWs cs with
    | [] => none
    | c :: cs =>
      if c = '{' then
        match skipWs cs with
        | '}' :: cs => some (.obj [], cs)
        | _ => do
          let (ms, cs) ← members (value fuel) cs.length cs []
          pure (.obj ms, cs)
      else if c = '[' then
        match skipWs cs with
        | ']' :: cs => some (.arr [], cs)
        | _ => do
          let (vs, cs) ← items (value fuel) cs.length cs []
          pure (.arr vs, cs)
      else if c = '"' then do
        let (s, cs) ← stringBody cs []
        pure (.str s, cs)
      else
        match literal (c :: cs) with
        | some r => some r
        | none => do
          let (text, cs) ← number (c :: cs)
          pure (.num text, cs)

/-- A JSON text: one value, with only whitespace around it. -/
def parse (text : List Char) : Option Json :=
  match value text.length text with
  | some (v, rest) => if skipWs rest = [] then some v else none
  | none => none

end Json

/-- The keys of an object, in order. -/
def Json.keys : Json → Option (List (List Char))
  | .obj ms => some (ms.map Prod.fst)
  | _ => none

/-- The string that a key of an object holds. -/
def Json.strField (j : Json) (key : List Char) : Option (List Char) :=
  match j with
  | .obj ms => match ms.lookup key with
    | some (.str s) => some s
    | _ => none
  | _ => none

/-! ### Reading what `format_json` writes -/

namespace Json

/-- A character that a JSON string holds as it is (RFC 8259, `unescaped`): not a quote, not a
backslash, not a control character. -/
def unescaped (c : Char) : Bool := c ≠ '"' && c ≠ '\\' && 0x20 ≤ c.toNat

/-- A string of unescaped characters reads back as itself, up to the closing quote. -/
theorem stringBody_unescaped (rest : List Char) :
    ∀ (s acc : List Char), (∀ c ∈ s, unescaped c = true) →
      stringBody (s ++ '"' :: rest) acc = some (acc.reverse ++ s, rest)
  | [], acc, _ => by rw [List.nil_append, stringBody.eq_def]; simp
  | c :: s, acc, h => by
    have hc := h c (List.mem_cons_self _ _)
    simp only [unescaped, Bool.and_eq_true, decide_eq_true_eq] at hc
    obtain ⟨⟨hq, hb⟩, hctl⟩ := hc
    rw [List.cons_append, stringBody.eq_def]
    dsimp only
    rw [if_neg hq, if_neg hb, if_neg (by omega),
      stringBody_unescaped rest s (c :: acc) fun x hx => h x (List.mem_cons_of_mem _ hx)]
    simp

theorem skipWs_ws_append {ws : List Char} (cs : List Char) (h : ∀ c ∈ ws, isWs c = true) :
    skipWs (ws ++ cs) = skipWs cs := by
  induction ws with
  | nil => rfl
  | cons c ws ih =>
    rw [List.forall_mem_cons] at h
    rw [List.cons_append, skipWs, if_pos h.1, ih h.2]

/-- A string value after `": "`. -/
theorem value_string (fuel : Nat) {s : List Char} (rest : List Char)
    (h : ∀ c ∈ s, unescaped c = true) :
    value (fuel + 1) (' ' :: '"' :: s ++ '"' :: rest) = some (.str s, rest) := by
  simp [value, skipWs, isWs, stringBody_unescaped rest s [] h]

/-! #### Numbers -/

theorem isDigit_digitChar : ∀ d < 10,
    isDigit (Nat.digitChar d) = true ∧ (0 < d → '1' ≤ Nat.digitChar d ∧ Nat.digitChar d ≤ '9') := by
  decide

theorem toDigitsCore_digits : ∀ (fuel n : Nat) (ds : List Char), (∀ c ∈ ds, isDigit c = true) →
    ∀ c ∈ Nat.toDigitsCore 10 fuel n ds, isDigit c = true
  | 0, _, _, h => h
  | fuel + 1, n, ds, h => by
    have hd : ∀ c ∈ Nat.digitChar (n % 10) :: ds, isDigit c = true :=
      List.forall_mem_cons.mpr ⟨(isDigit_digitChar _ (Nat.mod_lt _ (by decide))).1, h⟩
    dsimp only [Nat.toDigitsCore]
    split
    · exact hd
    · exact toDigitsCore_digits fuel _ _ hd

/-- The most significant digit of a positive number, given enough fuel, is not `0`. -/
theorem toDigitsCore_head : ∀ (fuel n : Nat) (ds : List Char), 0 < n → n < fuel →
    ∃ d rest, Nat.toDigitsCore 10 fuel n ds = d :: rest ∧ '1' ≤ d ∧ d ≤ '9'
  | 0, _, _, _, h => absurd h (Nat.not_lt_zero _)
  | fuel + 1, n, ds, hpos, hlt => by
    dsimp only [Nat.toDigitsCore]
    split
    · exact ⟨_, _, rfl, (isDigit_digitChar _ (Nat.mod_lt _ (by decide))).2 (by omega)⟩
    · exact toDigitsCore_head fuel _ _ (by omega) (by omega)

/-- The text of a natural number as `number` reads it: digits, the first of them not `0`
unless it is the only one. -/
def NatLexeme (text : List Char) : Prop :=
  ∃ d ds, text = d :: ds ∧ (d = '0' ∧ ds = [] ∨ '1' ≤ d ∧ d ≤ '9') ∧ ∀ x ∈ ds, isDigit x = true

/-- `{}` of a `u64` or a `u16` in `format!` is its decimal text. -/
theorem toString_natLexeme (n : Nat) : NatLexeme (toString n).toList := by
  rcases Nat.eq_zero_or_pos n with rfl | hpos
  · exact ⟨'0', [], rfl, .inl ⟨rfl, rfl⟩, nofun⟩
  · have hdig := toDigitsCore_digits (n + 1) n [] nofun
    obtain ⟨d, ds, hds, hd⟩ := toDigitsCore_head (n + 1) n [] hpos (by omega)
    rw [hds] at hdig
    exact ⟨d, ds, hds, .inr hd, fun x hx => hdig x (List.mem_cons_of_mem _ hx)⟩

/-- A digit other than `0` is none of the characters that `value` and `number` test for. -/
theorem ne_of_nonzero_digit {d : Char} (h : '1' ≤ d ∧ d ≤ '9') :
    ∀ x ∈ [' ', '\t', '\n', '\r', '{', '[', '"', 't', 'f', 'n', '-', '0'], d ≠ x := by
  have hlit : ∀ x ∈ [' ', '\t', '\n', '\r', '{', '[', '"', 't', 'f', 'n', '-', '0'],
      ¬('1' ≤ x ∧ x ≤ '9') := by decide
  rintro x hx rfl
  exact hlit d hx h

/-- A number's text followed by `,` or `}` reads back as itself. -/
theorem number_natLexeme {text : List Char} {c : Char} (rest : List Char) (h : NatLexeme text)
    (hc : c = ',' ∨ c = '}') :
    number (text ++ c :: rest) = some (text, c :: rest) := by
  have hcd : isDigit c = false ∧ c ≠ '.' ∧ c ≠ 'e' ∧ c ≠ 'E' := by
    rcases hc with rfl | rfl <;> decide
  obtain ⟨d, ds, rfl, ⟨rfl, rfl⟩ | hd, hds⟩ := h
  · simp [number, hcd]
  · have hne := ne_of_nonzero_digit hd
    simp only [List.mem_cons, List.mem_nil_iff, or_false, forall_eq_or_imp, forall_eq] at hne
    simp [number, hne, hd, List.takeWhile_append_of_pos hds, List.dropWhile_append_of_pos hds, hcd]

/-- Only `t`, `f` and `n` start a literal name. -/
theorem literal_of_ne {d : Char} (cs : List Char) (ht : d ≠ 't') (hf : d ≠ 'f') (hn : d ≠ 'n') :
    literal (d :: cs) = none := by
  simp [literal, literals, List.find?, List.isPrefixOf, beq_eq_false_iff_ne.mpr (Ne.symm ht),
    beq_eq_false_iff_ne.mpr (Ne.symm hf), beq_eq_false_iff_ne.mpr (Ne.symm hn)]

/-- A number value after `": "`. -/
theorem value_natLexeme (fuel : Nat) {text : List Char} {c : Char} (rest : List Char)
    (h : NatLexeme text) (hc : c = ',' ∨ c = '}') :
    value (fuel + 1) (' ' :: text ++ c :: rest) = some (.num text, c :: rest) := by
  have hnum := number_natLexeme rest h hc
  obtain ⟨d, ds, rfl, ⟨rfl, rfl⟩ | hd, -⟩ := h
  · simp only [List.cons_append, List.nil_append] at hnum
    simp [value, skipWs, isWs, literal_of_ne, hnum]
  · have hne := ne_of_nonzero_digit hd
    simp only [List.mem_cons, List.mem_nil_iff, or_false, forall_eq_or_imp, forall_eq] at hne
    simp only [List.cons_append] at hnum
    simp [value, skipWs, isWs, hne, literal_of_ne, hnum]

/-! #### Objects -/

/-- An object whose first member starts with a quote. -/
theorem value_obj (fuel : Nat) {cs : List Char} (hcs : (skipWs cs).head? = some '"') :
    value (fuel + 1) ('{' :: cs) =
      (members (value fuel) cs.length cs []).map fun p => (.obj p.1, p.2) := by
  obtain ⟨t, ht⟩ : ∃ t, skipWs cs = '"' :: t := by
    cases h : skipWs cs with
    | nil => simp [h] at hcs
    | cons c t => simp only [h, List.head?_cons, Option.some.injEq] at hcs; exact ⟨t, by rw [hcs]⟩
  simp [value, skipWs, isWs, ht]
  cases members (value fuel) cs.length cs [] <;> rfl

/-- A member as `format_json` writes one: the whitespace `ws`, then `"key":` and the text of
its value. -/
def memberText (ws key valueText : List Char) : List Char :=
  ws ++ '"' :: key ++ '"' :: ':' :: valueText

/-- A member followed by a comma: `members` reads it and goes on to the next. -/
theorem members_next {value : List Char → Option (Json × List Char)} (fuel : Nat)
    {ws key valueText rest : List Char} {v : Json} (acc : List (List Char × Json))
    (hws : ∀ c ∈ ws, isWs c = true) (hkey : ∀ c ∈ key, unescaped c = true)
    (hv : value valueText = some (v, ',' :: rest)) :
    members value (fuel + 1) (memberText ws key valueText) acc =
      members value fuel rest ((key, v) :: acc) := by
  simp [members, memberText, skipWs_ws_append _ hws, skipWs, isWs, stringBody_unescaped _ _ _ hkey,
    hv]

/-- The last member, followed by `}`: `members` returns every member read, in order. -/
theorem members_last {value : List Char → Option (Json × List Char)} (fuel : Nat)
    {ws key valueText rest : List Char} {v : Json} (acc : List (List Char × Json))
    (hws : ∀ c ∈ ws, isWs c = true) (hkey : ∀ c ∈ key, unescaped c = true)
    (hv : value valueText = some (v, '}' :: rest)) :
    members value (fuel + 1) (memberText ws key valueText) acc =
      some (((key, v) :: acc).reverse, rest) := by
  simp [members, memberText, skipWs_ws_append _ hws, skipWs, isWs, stringBody_unescaped _ _ _ hkey,
    hv]

end Json

/-- The text of `format_json` after its `{`: seven members, laid out as the format string
lays them out, and the closing brace. -/
def beaconMembers (ctx : TracerContext) : List Char :=
  Json.memberText [' '] "sequence_nr".toList (' ' :: (toString ctx.sequenceNo).toList ++
  ',' :: Json.memberText [] "server_version".toList (' ' :: '"' :: serverVersion.toList ++ '"' ::
  ',' :: Json.memberText [' '] "protocoll_version".toList
    (' ' :: '"' :: protocollVersion.toList ++ '"' ::
  ',' :: Json.memberText [] "update_interval_msecs".toList (' ' :: (toString
    (ctx.appCfg.announceInterval / 1000 + ctx.appCfg.announceInterval % 1000)).toList ++
  ',' :: Json.memberText [] "hostname".toList (' ' :: '"' :: ctx.appCfg.hostname.toList ++ '"' ::
  ',' :: Json.memberText [' '] "process_name".toList
    (' ' :: '"' :: ctx.appCfg.processName.toList ++ '"' ::
  ',' :: Json.memberText [] "port".toList (' ' :: (toString ctx.listenerPort).toList ++ ['}'])))))))

theorem formatJson_toList (ctx : TracerContext) :
    (formatJson ctx).toList = '{' :: beaconMembers ctx := by
  simp only [formatJson, String.toList, String.data_append, List.append_assoc]
  rfl

/-- When the host name and the process name hold only unescaped characters, the text of
`format_json` is one JSON object with the seven members, in order: the sequence number, the
interval and the port as their decimal texts, the two versions, and the two names as given. -/
theorem formatJson_parse (ctx : TracerContext)
    (hhost : ∀ c ∈ ctx.appCfg.hostname.toList, Json.unescaped c = true)
    (hproc : ∀ c ∈ ctx.appCfg.processName.toList, Json.unescaped c = true) :
    Json.parse (formatJson ctx).toList = some (.obj [
      ("sequence_nr".toList, .num (toString ctx.sequenceNo).toList),
      ("server_version".toList, .str serverVersion.toList),
      ("protocoll_version".toList, .str protocollVersion.toList),
      ("update_interval_msecs".toList, .num (toString
        (ctx.appCfg.announceInterval / 1000 + ctx.appCfg.announceInterval % 1000)).toList),
      ("hostname".toList, .str ctx.appCfg.hostname.toList),
      ("process_name".toList, .str ctx.appCfg.processName.toList),
      ("port".toList, .num (toString ctx.listenerPort).toList)]) := by
  obtain ⟨k, hk⟩ : ∃ k, (beaconMembers ctx).length = k + 7 :=
    ⟨_, (Nat.sub_add_cancel (by simp [beaconMembers, Json.memberText])).symm⟩
  have hcomma : ',' = ',' ∨ ',' = '}' := .inl rfl
  /- The fuel of `value` stays `k + 7` across the members; that of `members` falls by one a
  member. -/
  rw [formatJson_toList, Json.parse, List.length_cons,
    Json.value_obj _ (by simp [beaconMembers, Json.memberText, Json.skipWs, Json.isWs]), hk,
    beaconMembers,
    Json.members_next _ _ (by decide) (by decide)
      (Json.value_natLexeme (k + 6) _ (Json.toString_natLexeme _) hcomma),
    Json.members_next _ _ (by decide) (by decide) (Json.value_string (k + 6) _ (by decide)),
    Json.members_next _ _ (by decide) (by decide) (Json.value_string (k + 6) _ (by decide)),
    Json.members_next _ _ (by decide) (by decide)
      (Json.value_natLexeme (k + 6) _ (Json.toString_natLexeme _) hcomma),
    Json.members_next _ _ (by decide) (by decide) (Json.value_string (k + 6) _ hhost),
    Json.members_next _ _ (by decide) (by decide) (Json.value_string (k + 6) _ hproc),
    Json.members_last _ _ (by decide) (by decide)
      (Json.value_natLexeme (k + 6) _ (Json.toString_natLexeme _) (.inr rfl))]
  rfl

/-- The first announcement of a tracer on `host`. -/
theorem formatJson_parse_first :
    let ctx := (World.init ⟨"host", "app", 100⟩ 61455 true true).ctx
    (∀ c ∈ ctx.appCfg.hostname.toList, Json.unescaped c = true) ∧
    (∀ c ∈ ctx.appCfg.processName.toList, Json.unescaped c = true) ∧
    Json.parse (formatJson ctx).toList = some (.obj [
      ("sequence_nr".toList, .num (toString ctx.sequenceNo).toList),
      ("server_version".toList, .str serverVersion.toList),
      ("protocoll_version".toList, .str protocollVersion.toList),
      ("update_interval_msecs".toList, .num (toString
        (ctx.appCfg.announceInterval / 1000 + ctx.appCfg.announceInterval % 1000)).toList),
      ("hostname".toList, .str ctx.appCfg.hostname.toList),
      ("process_name".toList, .str ctx.appCfg.processName.toList),
      ("port".toList, .num (toString ctx.listenerPort).toList)]) :=
  ⟨by decide, by decide, formatJson_parse _ (by decide) (by decide)⟩

set_option maxRecDepth 1000 in
/-- The beacon does not escape what it inserts: a host name that holds quotes closes the
`hostname` string early and adds a member of its own. The text still parses, as an object
with eight keys, and its `hostname` holds `x`, not the host name. -/
theorem beacon_hostname_injects_member :
    let ctx := (World.init ⟨"x\", \"injected\": \"y", "app", 100⟩ 61455 true true).ctx
    (Json.parse (formatJson ctx).toList).bind Json.keys =
      some ["sequence_nr".toList, "server_version".toList, "protocoll_version".toList,
        "update_interval_msecs".toList, "hostname".toList, "injected".toList,
        "process_name".toList, "port".toList] ∧
    (Json.parse (formatJson ctx).toList).bind (Json.strField · "hostname".toList) = some ['x'] :=
  by decide

end Tracy
