import NodeAgent.Chainio.JsonRpc

/-!
# A node behind the client

The reference semantics of the methods that the client calls: a node reads the
envelope, finds the contract call in the calldata, and returns what the ledger
holds in the standard encoding.  Whatever fails on the way, a read that
succeeds has the ledger's own value; when nothing fails, it succeeds exactly
when the agent's integers hold the value.
-/

namespace NodeAgent.Chainio

open Interaction Parsing Text

/-- What a node knows: the head, the timestamps of the blocks, and what every
contract holds behind every read. -/
structure Ledger where
  head : UInt64
  timestamp : Nat → Option UInt64
  held : Address → (call : ReadCall) → call.function.Held
  encodable : ∀ (target : Address) (call : ReadCall),
    call.function.Encodable (held target call)

/-- A number as the chain's clients print it. -/
def quantityText (number : Nat) : String :=
  "0x" ++ String.ofList (Nat.toDigits 16 number)

theorem quantityText_toList (number : Nat) :
    (quantityText number).toList = '0' :: 'x' :: Nat.toDigits 16 number := by
  have start : "0x".toList = ['0', 'x'] := rfl
  rw [quantityText, String.toList_append, start, String.toList_ofList]
  rfl

theorem parseQuantity_text (number : UInt64) :
    parseQuantity (quantityText number.toNat) = .ok number.toNat := by
  rw [parseQuantity_eq_ok_iff]
  refine ⟨_, quantityText_toList _, number.toNat_lt, Or.inl ?_⟩
  exact numeral_toDigits (by decide) fun digit small => toDigit_digitChar small

/-- The quantity that a node reads in a parameter. -/
def readQuantity (text : String) : Option Nat :=
  (strip0x text.toList).bind fun digits =>
    if digits ≠ [] ∧ digits.all (fun char => (toDigit 16 char).isSome) then
      some (value 16 digits)
    else none

theorem readQuantity_text (number : Nat) :
    readQuantity (quantityText number) = some number := by
  have numeral : Numeral 16 (Nat.toDigits 16 number) number :=
    numeral_toDigits (by decide) fun digit small => toDigit_digitChar small
  have digits : (Nat.toDigits 16 number).all
      (fun char => (toDigit 16 char).isSome) = true :=
    List.all_eq_true.mpr numeral.digits
  rw [readQuantity, quantityText_toList,
    strip0x_eq_some_iff.mpr (rfl : _ = '0' :: 'x' :: Nat.toDigits 16 number),
    Option.bind_some, if_pos ⟨numeral.nonempty, digits⟩, numeral.spelled]

/-- An address from its bytes. -/
def addressOf (bytes : Bytes) : Option Address :=
  if width : bytes.length = 20 then some ⟨bytes, width⟩ else none

theorem addressOf_toList (address : Address) :
    addressOf address.toList = some address := by
  rw [addressOf, dif_pos address.toList_length]
  rfl

/-- The bytes of a hex member. -/
def hexMember (json : Json) (name : String) : Option Bytes := do
  let text ← (json.get name).bind Json.asStr
  (hexDecode text).toOption

/-- What a client asks of a node. -/
inductive NodeRead
  | head
  | held (target : Address) (call : ReadCall)
  | block (number : Nat)

namespace NodeRead

def method : NodeRead → String
  | .head => "eth_blockNumber"
  | .held _ _ => "eth_call"
  | .block _ => "eth_getBlockByNumber"

def params [HashFunctions] : NodeRead → Json
  | .head => .array []
  | .held target call => ethCallParams target call.calldata
  | .block number => .array [.string (quantityText number), .bool false]

/-- A call at the latest block. -/
def ofCall (params : Json) : Option NodeRead :=
  match params with
  | .array [message, .string "latest"] => do
      let target ← addressOf (← hexMember message "to")
      let call ← ReadCall.ofCalldata (← hexMember message "data")
      some (.held target call)
  | _ => none

/-- A block without its transactions. -/
def ofBlock (params : Json) : Option NodeRead :=
  match params with
  | .array [.string number, .bool false] => (readQuantity number).map .block
  | _ => none

/-- The read in an envelope. -/
def ofEnvelope (request : Json) : Option NodeRead := do
  let method ← (request.get "method").bind Json.asStr
  let params ← request.get "params"
  if method = "eth_call" then ofCall params
  else if method = "eth_blockNumber" then some .head
  else if method = "eth_getBlockByNumber" then ofBlock params
  else none

theorem ofEnvelope_request (id : UInt64) (method : String) (params : Json) :
    ofEnvelope (buildRequest id method params) =
      if method = "eth_call" then ofCall params
      else if method = "eth_blockNumber" then some .head
      else if method = "eth_getBlockByNumber" then ofBlock params
      else none := rfl

theorem ofEnvelope_head (id : UInt64) (params : Json) :
    ofEnvelope (buildRequest id "eth_blockNumber" params) = some .head := by
  rw [ofEnvelope_request, if_neg (by decide), if_pos rfl]

theorem ofEnvelope_block (id : UInt64) (number : Nat) :
    ofEnvelope (buildRequest id "eth_getBlockByNumber"
        (.array [.string (quantityText number), .bool false])) =
      some (.block number) := by
  rw [ofEnvelope_request, if_neg (by decide), if_neg (by decide), if_pos rfl,
    ofBlock, readQuantity_text]
  rfl

theorem ofEnvelope_held [HashFunctions] (pinned : ReadsPinned) (id : UInt64)
    (target : Address) (call : ReadCall) :
    ofEnvelope (buildRequest id "eth_call"
        (ethCallParams target call.calldata)) = some (.held target call) := by
  have message : ofCall (ethCallParams target call.calldata) = (do
      let target ← addressOf
        (← (hexDecode (hexEncode target.toList)).toOption)
      let call ← ReadCall.ofCalldata
        (← (hexDecode (hexEncode call.calldata)).toOption)
      some (.held target call)) := rfl
  rw [ofEnvelope_request, if_pos rfl, message, hexDecode_hexEncode,
    hexDecode_hexEncode]
  simp [Except.toOption, addressOf_toList, ReadCall.ofCalldata_calldata pinned]

theorem ofEnvelope_params [HashFunctions] (pinned : ReadsPinned)
    (read : NodeRead) (id : UInt64) :
    ofEnvelope (buildRequest id read.method read.params) = some read := by
  cases read with
  | head => exact ofEnvelope_head id _
  | held target call => exact ofEnvelope_held pinned id target call
  | block number => exact ofEnvelope_block id number

end NodeRead

namespace Ledger

/-- A result for a read.  A block is any object with its timestamp. -/
def Tells (ledger : Ledger) : NodeRead → Json → Prop
  | .head, result => result = .string (quantityText ledger.head.toNat)
  | .held target call, result =>
      result = .string
        (hexEncode (call.function.encode (ledger.held target call)))
  | .block number, result =>
      match ledger.timestamp number with
      | some timestamp =>
          result.get "timestamp" =
            some (.string (quantityText timestamp.toNat))
      | none => result = .null

/-- A result that answers a request. -/
def Serves (ledger : Ledger) (request result : Json) : Prop :=
  ∃ read, NodeRead.ofEnvelope request = some read ∧ ledger.Tells read result

theorem Serves.tells {ledger : Ledger} {request result : Json}
    {read : NodeRead} (serves : ledger.Serves request result)
    (asks : NodeRead.ofEnvelope request = some read) :
    ledger.Tells read result := by
  obtain ⟨asked, same, tells⟩ := serves
  cases asks.symm.trans same
  exact tells

end Ledger

section Client

variable [WireCrates] {client : RpcClient}

/-- Anything may go wrong, but a body that arrives whole and has a result has
the ledger's. -/
def Ledger.Truthful (ledger : Ledger) :
    (op : RpcOp) → RpcAnswer op → Prop
  | .nextId, _ => True
  | .post request, answer =>
      ∀ (response : Response) (chunks : List Chunk) (value result : Json),
        answer = .ok response → response.chunks = chunks.map .ok →
          fromSlice (chunks.map Subtype.val).flatten = .ok value →
            value.get "error" = none → value.get "result" = some result →
              ledger.Serves request result

/-- Nothing goes wrong: the result arrives, in some chunks, under the cap. -/
def Ledger.Prompt (client : RpcClient) (ledger : Ledger) :
    (op : RpcOp) → RpcAnswer op → Prop
  | .nextId, _ => True
  | .post request, answer =>
      ∃ (response : Response) (body : Bytes) (value result : Json),
        answer = .ok response ∧ response.isRedirection = false ∧
          response.Delivers body ∧ body.length ≤ client.maxResponseBytes ∧
          body.length ≤ isizeMax ∧ fromSlice body = .ok value ∧
          value.get "error" = none ∧ value.get "result" = some result ∧
          ledger.Serves request result

theorem Ledger.Truthful.received {ledger : Ledger} {request : Json}
    {answer : Except String Response} {value result : Json}
    (truthful : ledger.Truthful (.post request) answer)
    (received : client.received answer = .ok value)
    (noError : value.get "error" = none)
    (found : value.get "result" = some result) :
    ledger.Serves request result := by
  cases answer with
  | error error => cases received
  | ok response =>
      obtain ⟨body, read, parsed⟩ := bind_eq_ok.mp received
      obtain ⟨-, chunks, delivered, whole⟩ :=
        readBodyCapped_ok (mapError_eq_ok.mp read)
      rw [mapError_eq_ok, ← whole] at parsed
      exact truthful response chunks value result rfl delivered parsed noError
        found

theorem Ledger.Prompt.received {ledger : Ledger} {request : Json}
    {answer : Except String Response}
    (prompt : ledger.Prompt client (.post request) answer) :
    ∃ value result, client.received answer = .ok value ∧
      value.get "error" = none ∧ value.get "result" = some result ∧
      ledger.Serves request result := by
  obtain ⟨response, body, value, result, rfl, direct, delivers, under, small,
    parsed, noError, found, served⟩ := prompt
  refine ⟨value, result, ?_, noError, found, served⟩
  have room : min client.maxResponseBytes body.length ≤ isizeMax :=
    (Nat.min_le_right _ _).trans small
  have whole := (readBodyCapped_caps direct delivers room).whole under
  simp only [RpcClient.received, whole, Except.mapError, ok_bind, parsed]

variable {evolves : Ledger → Ledger → Prop}
  {answers : Ledger → (op : RpcOp) → RpcAnswer op → Prop}
  {start finish : Ledger}

omit [WireCrates] in
theorem executes_return {α β : Type} {program : RpcProgram α} {f : α → β}
    {result : β} :
    Executes evolves answers start (do return f (← program)) result finish ↔
      ∃ value, Executes evolves answers start program value finish ∧
        f value = result := by
  refine (executes_bind program _).trans ?_
  constructor
  · rintro ⟨value, middle, execution, done⟩
    obtain ⟨rfl, rfl⟩ := executes_done.mp done
    exact ⟨value, execution, rfl⟩
  · rintro ⟨value, execution, rfl⟩
    exact ⟨value, finish, execution, .done⟩

theorem executes_exchange {method : String} {params : Json}
    {result : Except RpcError Json}
    (transitive : ∀ ⦃first second third⦄,
      evolves first second → evolves second third → evolves first third)
    (execution : Executes evolves answers start (client.exchange method params)
      result finish) :
    evolves start finish ∧ ∃ id answer,
      answers finish (.post (buildRequest id method params)) answer ∧
        client.received answer = result := by
  obtain ⟨world, id, first, -, execution⟩ := executes_call.mp execution
  obtain ⟨answer, posted, received⟩ := executes_return.mp execution
  obtain ⟨moved, answered⟩ := executes_perform.mp posted
  exact ⟨transitive first moved, id, answer, answered, received⟩

theorem parseResultString_eq_ok {answer : Json} {text : String} :
    parseResultString answer = .ok text ↔
      answer.get "error" = none ∧ answer.get "result" = some (.string text) := by
  rw [parseResultString]
  cases answer.get "error" with
  | some error => exact ⟨nofun, nofun⟩
  | none =>
      simp only [okOr_eq_ok_iff, Option.bind_eq_some_iff,
        Json.asStr_eq_some_iff, true_and, exists_eq_right]

theorem parseResultValue_eq_ok {answer result : Json} :
    parseResultValue answer = .ok result ↔
      answer.get "error" = none ∧ answer.get "result" = some result := by
  rw [parseResultValue]
  cases answer.get "error" with
  | some error => exact ⟨nofun, nofun⟩
  | none => simp only [okOr_eq_ok_iff, true_and]

section Truthful

variable (transitive : ∀ ⦃first second third⦄,
  evolves first second → evolves second third → evolves first third)

include transitive

theorem executes_callRaw {method text : String} {params : Json}
    (execution : Executes evolves Ledger.Truthful start
      (client.callRaw method params) (.ok text) finish) :
    ∃ id, finish.Serves (buildRequest id method params) (.string text) := by
  obtain ⟨answer, exchanged, parsed⟩ := executes_return.mp execution
  obtain ⟨value, rfl, parsed⟩ := bind_eq_ok.mp parsed
  obtain ⟨-, id, answer, truthful, received⟩ :=
    executes_exchange transitive exchanged
  obtain ⟨noError, found⟩ := parseResultString_eq_ok.mp parsed
  exact ⟨id, truthful.received received noError found⟩

/-- A contract read that succeeds has decoded what the contract holds. -/
theorem executes_read [HashFunctions] (pinned : ReadsPinned) {α : Type}
    {target : Address} {call : ReadCall}
    {decode : Bytes → Except AbiError α} {value : α}
    (execution : Executes evolves Ledger.Truthful start
      (client.read target call.calldata decode) (.ok value) finish) :
    decode (call.function.encode (finish.held target call)) = .ok value := by
  obtain ⟨data, called, decoded⟩ := executes_return.mp execution
  obtain ⟨data, rfl, decoded⟩ := bind_eq_ok.mp decoded
  obtain ⟨text, raw, decodes⟩ := executes_return.mp called
  obtain ⟨text, rfl, decodes⟩ := bind_eq_ok.mp decodes
  obtain ⟨id, serves⟩ := executes_callRaw transitive raw
  cases serves.tells (NodeRead.ofEnvelope_held pinned id target call)
  rw [ok_bind, mapError_eq_ok, hexDecode_hexEncode] at decodes
  cases decodes
  exact mapError_eq_ok.mp decoded

theorem executes_blockNumber {block : Nat}
    (execution : Executes evolves Ledger.Truthful start client.ethBlockNumber
      (.ok block) finish) : block = finish.head.toNat := by
  obtain ⟨text, raw, parsed⟩ := executes_return.mp execution
  obtain ⟨text, rfl, parsed⟩ := bind_eq_ok.mp parsed
  obtain ⟨id, serves⟩ := executes_callRaw transitive raw
  cases serves.tells (NodeRead.ofEnvelope_head id _)
  rw [ok_bind, parseQuantity_text] at parsed
  cases parsed
  rfl

/-- A timestamp is read from whatever else the block has. -/
theorem executes_blockTimestamp {block timestamp : Nat}
    (execution : Executes evolves Ledger.Truthful start
      (client.ethBlockTimestamp block) (.ok timestamp) finish) :
    (finish.timestamp block).map UInt64.toNat = some timestamp := by
  obtain ⟨answer, raw, parsed⟩ := executes_return.mp execution
  obtain ⟨answer, rfl, parsed⟩ := bind_eq_ok.mp parsed
  obtain ⟨answer, exchanged, found⟩ := executes_return.mp raw
  obtain ⟨value, rfl, found⟩ := bind_eq_ok.mp found
  obtain ⟨-, id, answer, truthful, received⟩ :=
    executes_exchange transitive exchanged
  obtain ⟨noError, result⟩ := parseResultValue_eq_ok.mp found
  have serves := truthful.received received noError result
  have tells := serves.tells (NodeRead.ofEnvelope_block id block)
  rw [ok_bind] at parsed
  obtain ⟨text, read, parsed⟩ := bind_eq_ok.mp parsed
  obtain ⟨content, member, isText⟩ :=
    Option.bind_eq_some_iff.mp (okOr_eq_ok_iff.mp read)
  rw [Json.asStr_eq_some_iff.mp isText] at member
  rw [Ledger.Tells] at tells
  cases known : finish.timestamp block with
  | none =>
      rw [known] at tells
      cases tells
      cases member
  | some here =>
      rw [known] at tells
      cases member.symm.trans tells
      rw [parseQuantity_text] at parsed
      cases parsed
      rfl

end Truthful

end Client

/-- A node and the client's counter of ids. -/
def nodeHandle (respond : Json → Except String Response) (id : UInt64) :
    (op : RpcOp) → RpcAnswer op × UInt64
  | .nextId => (id, id + 1)
  | .post request => (respond request, id)

section Prompt

variable [WireCrates] {client : RpcClient} {ledger : Ledger}
  {respond : Json → Except String Response}

/-- Under every id, what the ledger serves to this method arrives. -/
def Answered (client : RpcClient) (ledger : Ledger)
    (respond : Json → Except String Response) (method : String)
    (params : Json) : Prop :=
  ∀ id, ledger.Prompt client (.post (buildRequest id method params))
    (respond (buildRequest id method params))

theorem runOn_callRaw {method : String} {params : Json} {text : String}
    (answered : Answered client ledger respond method params)
    (only : ∀ id result,
      ledger.Serves (buildRequest id method params) result →
        result = .string text) (id : UInt64) :
    (client.callRaw method params).runOn (nodeHandle respond) id =
      (.ok text, id + 1) := by
  obtain ⟨value, result, ok, noError, found, serves⟩ := (answered id).received
  cases only id result serves
  have parsed := parseResultString_eq_ok.mpr ⟨noError, found⟩
  simp [RpcClient.callRaw, RpcClient.exchange, RpcClient.postCapped,
    nodeHandle, ok, ok_bind, parsed]

/-- A contract read returns what the decoder makes of what the contract
holds. -/
theorem runOn_read [HashFunctions] (pinned : ReadsPinned) {α : Type}
    {target : Address} {call : ReadCall}
    (answered : Answered client ledger respond "eth_call"
      (ethCallParams target call.calldata))
    (decode : Bytes → Except AbiError α) (id : UInt64) :
    (client.read target call.calldata decode).runOn (nodeHandle respond) id =
      ((decode (call.function.encode (ledger.held target call))).mapError .abi,
        id + 1) := by
  have raw := runOn_callRaw answered (fun id _ serves =>
    serves.tells (NodeRead.ofEnvelope_held pinned id target call)) id
  simp [RpcClient.read, RpcClient.ethCall, Program.runOn_bind, raw, ok_bind,
    hexDecode_hexEncode, Except.mapError]

theorem runOn_blockNumber
    (answered : Answered client ledger respond "eth_blockNumber" (.array []))
    (id : UInt64) :
    client.ethBlockNumber.runOn (nodeHandle respond) id =
      (.ok ledger.head.toNat, id + 1) := by
  have raw := runOn_callRaw answered (fun id _ serves =>
    serves.tells (NodeRead.ofEnvelope_head id _)) id
  simp [RpcClient.ethBlockNumber, RpcClient.quantity, Program.runOn_bind, raw,
    ok_bind, parseQuantity_text]

theorem runOn_blockTimestamp {block : Nat} {timestamp : UInt64}
    (answered : Answered client ledger respond "eth_getBlockByNumber"
      (.array [.string (quantityText block), .bool false]))
    (known : ledger.timestamp block = some timestamp) (id : UInt64) :
    (client.ethBlockTimestamp block).runOn (nodeHandle respond) id =
      (.ok timestamp.toNat, id + 1) := by
  obtain ⟨value, result, ok, noError, found, serves⟩ := (answered id).received
  have tells := serves.tells (NodeRead.ofEnvelope_block id block)
  rw [Ledger.Tells, known] at tells
  have parsed := parseResultValue_eq_ok.mpr ⟨noError, found⟩
  have read : RpcClient.blockTimestamp result = .ok timestamp.toNat := by
    rw [RpcClient.blockTimestamp, tells]
    exact parseQuantity_text timestamp
  rw [quantityText] at ok
  simp [RpcClient.ethBlockTimestamp, RpcClient.callRawValue,
    RpcClient.exchange, RpcClient.postCapped, nodeHandle, ok, ok_bind, parsed,
    read]

end Prompt

/-- A block with its timestamp, among its other members. -/
def blockObject (timestamp : String) : Json :=
  .object [("number", .string "0x10"), ("timestamp", .string timestamp)]

/-- What a node makes of a read. -/
def Ledger.tell (ledger : Ledger) : NodeRead → Json
  | .head => .string (quantityText ledger.head.toNat)
  | .held target call =>
      .string (hexEncode (call.function.encode (ledger.held target call)))
  | .block number =>
      match ledger.timestamp number with
      | some timestamp => blockObject (quantityText timestamp.toNat)
      | none => .null

theorem Ledger.tell_tells (ledger : Ledger) (read : NodeRead) :
    ledger.Tells read (ledger.tell read) := by
  cases read with
  | head => rfl
  | held target call => rfl
  | block number =>
      rw [Ledger.Tells, Ledger.tell]
      cases ledger.timestamp number with
      | none => rfl
      | some timestamp => rfl

theorem length_utf8_le (text : String) :
    (utf8 text).length ≤ 4 * text.toList.length := by
  have bytes : utf8 text = text.toList.flatMap String.utf8EncodeChar := by
    rw [utf8, String.toUTF8, ← String.utf8Encode_toList, List.utf8Encode,
      List.data_toByteArray]
  rw [bytes]
  induction text.toList with
  | nil => exact Nat.zero_le _
  | cons char rest ih =>
      have size := char.utf8Size_le_four
      rw [List.flatMap_cons, List.length_append, List.length_cons,
        String.length_utf8EncodeChar]
      omega

theorem length_hexEncode (bytes : Bytes) :
    (hexEncode bytes).toList.length = 2 + 2 * bytes.length := by
  have start : "0x".toList = ['0', 'x'] := rfl
  rw [hexEncode, String.toList_append, start, String.toList_ofList,
    List.length_append]
  induction bytes with
  | nil => rfl
  | cons byte rest ih =>
      rw [List.flatMap_cons, List.length_append, List.length_cons]
      simp only [List.length_cons, List.length_nil] at ih ⊢
      omega

/-- The parts of an answer. -/
def answerStart : Bytes :=
  utf8 "\x7b\"jsonrpc\":\"2.0\",\"id\":1,\"result\":"

def answerEnd : Bytes := utf8 "\x7d"

def blockStart : Bytes :=
  utf8 "\x7b\"number\":\"0x10\",\"timestamp\":"

def quote : Bytes := utf8 "\""

/-- A text that needs no escapes. -/
def quoted (text : String) : Bytes := quote ++ (utf8 text ++ quote)

/-- How a node prints what it serves. -/
def printed : Json → Option Bytes
  | .null => some (utf8 "null")
  | .string text => some (quoted text)
  | .object [("number", .string "0x10"), ("timestamp", .string text)] =>
      some (blockStart ++ (quoted text ++ answerEnd))
  | _ => none

def unquoted (bytes : Bytes) : Option String :=
  (bytes.dropPrefix? quote).bind fun rest =>
    (rest.dropSuffix? quote).bind fromUtf8

def parsed (bytes : Bytes) : Option Json :=
  if bytes = utf8 "null" then some .null
  else
    match bytes.dropPrefix? blockStart with
    | some rest =>
        (rest.dropSuffix? answerEnd).bind fun middle =>
          (unquoted middle).map blockObject
    | none => (unquoted bytes).map .string

theorem unquoted_quoted (text : String) :
    unquoted (quoted text) = some text := by
  have ending : (utf8 text ++ quote).dropSuffix? quote = some (utf8 text) :=
    List.dropSuffix?_eq_some_iff.mpr ⟨quote, rfl, beq_self_eq_true quote⟩
  have whole : fromUtf8 (utf8 text) = some text :=
    ModelRegistry.fromUtf8_eq_some_iff.mpr rfl
  simp only [unquoted, quoted, dropPrefix?_append, Option.bind_some, ending,
    whole]

theorem parsed_quoted (text : String) :
    parsed (quoted text) = some (.string text) := by
  have mark : quote = [0x22] := by decide +kernel
  have word : utf8 "null" = 0x6e :: [0x75, 0x6c, 0x6c] := by decide +kernel
  have object : ∃ rest, blockStart = 0x7b :: rest :=
    ⟨blockStart.tail, by decide +kernel⟩
  have other : quoted text ≠ utf8 "null" := by
    rw [quoted, mark, word]
    intro same
    exact absurd (List.cons.inj same).1 (by decide)
  have plain : (quoted text).dropPrefix? blockStart = none := by
    obtain ⟨rest, start⟩ := object
    cases dropped : (quoted text).dropPrefix? blockStart with
    | none => rfl
    | some after =>
        have split := dropPrefix?_eq_some dropped
        rw [quoted, mark, start] at split
        exact absurd (List.cons.inj split).1 (by decide)
  rw [parsed, if_neg other, plain]
  simp only [unquoted_quoted, Option.map_some]

theorem parsed_block (text : String) :
    parsed (blockStart ++ (quoted text ++ answerEnd)) =
      some (blockObject text) := by
  have word : utf8 "null" = 0x6e :: [0x75, 0x6c, 0x6c] := by decide +kernel
  have object : ∃ rest, blockStart = 0x7b :: rest :=
    ⟨blockStart.tail, by decide +kernel⟩
  have other : blockStart ++ (quoted text ++ answerEnd) ≠ utf8 "null" := by
    obtain ⟨rest, start⟩ := object
    rw [start, word]
    intro same
    exact absurd (List.cons.inj same).1 (by decide)
  have ending : (quoted text ++ answerEnd).dropSuffix? answerEnd =
      some (quoted text) :=
    List.dropSuffix?_eq_some_iff.mpr
      ⟨answerEnd, rfl, beq_self_eq_true answerEnd⟩
  rw [parsed, if_neg other, dropPrefix?_append]
  simp only [ending, Option.bind_some, unquoted_quoted, Option.map_some]

theorem parsed_printed {result : Json} {bytes : Bytes}
    (shows : printed result = some bytes) : parsed bytes = some result := by
  unfold printed at shows
  split at shows
  · cases shows
    exact if_pos rfl
  · cases shows
    exact parsed_quoted _
  · cases shows
    exact parsed_block _
  · cases shows

/-- The envelope of an answer. -/
def answerBody (result : Bytes) : Bytes := answerStart ++ (result ++ answerEnd)

def answerValue (result : Json) : Json :=
  .object
    [("jsonrpc", .string "2.0"), ("id", .integer ⟨1, by decide⟩),
      ("result", result)]

/-- A concrete parser, of such answers. -/
@[reducible] def sampleWire : WireCrates where
  fromSlice bytes :=
    match (bytes.dropPrefix? answerStart).bind fun rest =>
        (rest.dropSuffix? answerEnd).bind parsed with
    | some result => .ok (answerValue result)
    | none => .error "expected value"
  toText _ := "null"
  statusText status := toString status

theorem fromSlice_answerBody {result : Json} {bytes : Bytes}
    (shows : printed result = some bytes) :
    sampleWire.fromSlice (answerBody bytes) = .ok (answerValue result) := by
  have ending : (bytes ++ answerEnd).dropSuffix? answerEnd = some bytes :=
    List.dropSuffix?_eq_some_iff.mpr
      ⟨answerEnd, rfl, beq_self_eq_true answerEnd⟩
  simp only [fromSlice, answerBody, dropPrefix?_append, Option.bind_some,
    ending, parsed_printed shows]

/-- Answers arrive in one chunk, or not at all. -/
def sampleRespond (ledger : Ledger) (request : Json) :
    Except String Response :=
  match (NodeRead.ofEnvelope request).bind fun read =>
      printed (ledger.tell read) with
  | some result =>
      if small : (answerBody result).length ≤ isizeMax then
        .ok ⟨200, none, [.ok ⟨answerBody result, small⟩]⟩
      else .error "body too large"
  | none => .error "connection closed"

theorem sampleRespond_truthful (ledger : Ledger) (request : Json) :
    @Ledger.Truthful sampleWire ledger (.post request)
      (sampleRespond ledger request) := by
  intro response chunks value result answered delivered parses noError found
  rw [sampleRespond] at answered
  split at answered
  · next bytes shown =>
    obtain ⟨read, asks, shows⟩ := Option.bind_eq_some_iff.mp shown
    split at answered
    · next small =>
      cases answered
      obtain ⟨chunk, rest, rfl, first, later⟩ :=
        List.map_eq_cons_iff.mp delivered.symm
      cases List.map_eq_nil_iff.mp later
      cases first
      have body : (List.map Subtype.val
          [(⟨answerBody bytes, small⟩ : Chunk)]).flatten = answerBody bytes :=
        List.append_nil _
      rw [body] at parses
      cases (fromSlice_answerBody shows).symm.trans parses
      cases found
      exact ⟨read, asks, ledger.tell_tells read⟩
    · cases answered
  · cases answered

theorem sampleRespond_prompt {client : RpcClient} {ledger : Ledger}
    {request : Json} {read : NodeRead} {bytes : Bytes}
    (asks : NodeRead.ofEnvelope request = some read)
    (shows : printed (ledger.tell read) = some bytes)
    (under : (answerBody bytes).length ≤ client.maxResponseBytes)
    (inMemory : client.maxResponseBytes ≤ isizeMax) :
    @Ledger.Prompt sampleWire client ledger (.post request)
      (sampleRespond ledger request) := by
  have small := under.trans inMemory
  have shown : ((NodeRead.ofEnvelope request).bind fun read =>
      printed (ledger.tell read)) = some bytes := by
    rw [asks]
    exact shows
  refine ⟨⟨200, none, [.ok ⟨answerBody bytes, small⟩]⟩, answerBody bytes,
    answerValue (ledger.tell read), ledger.tell read, ?_, rfl, ?_, under, small,
    fromSlice_answerBody shows, rfl, rfl, read, asks, ledger.tell_tells read⟩
  · rw [sampleRespond, shown]
    exact dif_pos small
  · constructor
    · exact ⟨[⟨answerBody bytes, small⟩], rfl, List.append_nil _⟩
    · exact Or.inl rfl

theorem printed_string (text : String) :
    ∃ bytes, printed (.string text) = some bytes ∧
      (answerBody bytes).length ≤ 64 + 4 * text.toList.length := by
  refine ⟨quoted text, rfl, ?_⟩
  have bytes := length_utf8_le text
  have start : answerStart.length = 33 := by decide +kernel
  have mark : quote.length = 1 := by decide +kernel
  have ending : answerEnd.length = 1 := by decide +kernel
  simp only [answerBody, quoted, List.length_append, start, mark, ending]
  omega

theorem printed_block (text : String) :
    ∃ bytes, printed (blockObject text) = some bytes ∧
      (answerBody bytes).length ≤ 128 + 4 * text.toList.length := by
  refine ⟨blockStart ++ (quoted text ++ answerEnd), rfl, ?_⟩
  have bytes := length_utf8_le text
  have start : answerStart.length = 33 := by decide +kernel
  have object : blockStart.length = 29 := by decide +kernel
  have mark : quote.length = 1 := by decide +kernel
  have ending : answerEnd.length = 1 := by decide +kernel
  simp only [answerBody, quoted, List.length_append, start, object, mark,
    ending]
  omega

theorem printed_null :
    ∃ bytes, printed .null = some bytes ∧ (answerBody bytes).length ≤ 64 :=
  ⟨utf8 "null", rfl, by decide +kernel⟩

end NodeAgent.Chainio
