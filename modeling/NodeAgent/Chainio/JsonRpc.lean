import NodeAgent.Chainio.Hex
import NodeAgent.Chainio.Reads
import NodeAgent.Chainio.Rpc
import NodeAgent.Library.Json

/-!
# The JSON-RPC client

`chainio::rpc::RpcClient` and the live reads on it: an envelope is posted, the
body of the answer is read under the cap and parsed, and its result is decoded.
An `error` member refuses the answer, whatever else the answer says.
-/

namespace NodeAgent.Chainio

open Interaction Parsing

/-- What the client takes from third-party crates: the parser and the printer
of JSON, and the text of an HTTP status. -/
class WireCrates where
  fromSlice : Bytes → Except String Json
  toText : Json → String
  statusText : Nat → String

export WireCrates (fromSlice toText statusText)

def AbiError.display : AbiError → String
  | .tooShort need got => s!"ABI data too short: need {need} words, got {got}"
  | .overflow => "uint256 overflows target integer width"
  | .badBool => "bool word is neither 0 nor 1"
  | .badAddress => "address has dirty high bytes"
  | .badHex => "malformed hex"
  | .badString => "string field is not valid UTF-8"

def RpcError.display [WireCrates] : RpcError → String
  | .http error => s!"rpc http error: {error}"
  | .rpc code message => s!"rpc error {code}: {message}"
  | .malformedResponse text => s!"malformed rpc response: {text}"
  | .abi error => s!"rpc abi decode error: {error.display}"
  | .refused error => s!"rpc response refused: {error.display statusText}"

theorem id_fits (id : UInt64) :
    -9223372036854775808 ≤ (id.toNat : Int) ∧
      (id.toNat : Int) < 18446744073709551616 := by
  have := id.toNat_lt
  omega

def buildRequest (id : UInt64) (method : String) (params : Json) : Json :=
  .object
    [("jsonrpc", .string "2.0"), ("id", .integer ⟨id.toNat, id_fits id⟩),
      ("method", .string method), ("params", params)]

/-- The `error` member of an answer. -/
def rpcError (error : Json) : RpcError :=
  .rpc (((error.get "code").bind Json.asI64).getD 0)
    (((error.get "message").bind Json.asStr).getD "unknown")

def parseResultString [WireCrates] (answer : Json) : Except RpcError String :=
  match answer.get "error" with
  | some error => .error (rpcError error)
  | none =>
      okOr (.malformedResponse (toText answer))
        ((answer.get "result").bind Json.asStr)

def parseResultValue [WireCrates] (answer : Json) : Except RpcError Json :=
  match answer.get "error" with
  | some error => .error (rpcError error)
  | none => okOr (.malformedResponse (toText answer)) (answer.get "result")

def ethCallParams (target : Address) (data : Bytes) : Json :=
  .array
    [.object
        [("to", .string (hexEncode target.toList)),
          ("data", .string (hexEncode data))],
      .string "latest"]

/-- What the client does: take the next id, and post an envelope. -/
inductive RpcOp
  | nextId
  | post (request : Json)

abbrev RpcAnswer : RpcOp → Type
  | .nextId => UInt64
  | .post _ => Except String Response

abbrev RpcProgram := Program RpcOp RpcAnswer

/-- The client, with the configured cap on the body of an answer. -/
structure RpcClient where
  maxResponseBytes : Nat

namespace RpcClient

variable [WireCrates] (client : RpcClient)

/-- What is made of an answer to a post. -/
def received : Except String Response → Except RpcError Json
  | .error error => .error (.http error)
  | .ok response => do
      let body ← (readBodyCapped response client.maxResponseBytes).result.mapError
        .refused
      (fromSlice body).mapError .malformedResponse

def postCapped (request : Json) : RpcProgram (Except RpcError Json) := do
  let answer ← Program.perform (RpcOp.post request)
  return client.received answer

/-- Post the method under the next id. -/
def exchange (method : String) (params : Json) :
    RpcProgram (Except RpcError Json) := do
  let id ← Program.perform RpcOp.nextId
  client.postCapped (buildRequest id method params)

def callRaw (method : String) (params : Json) :
    RpcProgram (Except RpcError String) := do
  return (← client.exchange method params) >>= parseResultString

def callRawValue (method : String) (params : Json) :
    RpcProgram (Except RpcError Json) := do
  return (← client.exchange method params) >>= parseResultValue

def ethCall (target : Address) (data : Bytes) :
    RpcProgram (Except RpcError Bytes) := do
  return (← client.callRaw "eth_call" (ethCallParams target data)) >>=
    fun result => (hexDecode result).mapError .abi

/-- A method without arguments that returns a quantity. -/
def quantity (method : String) : RpcProgram (Except RpcError Nat) := do
  return (← client.callRaw method (.array [])) >>= parseQuantity

def ethBlockNumber : RpcProgram (Except RpcError Nat) :=
  client.quantity "eth_blockNumber"

/-- The timestamp of a block that was returned. -/
def blockTimestamp (block : Json) : Except RpcError Nat := do
  let timestamp ← okOr (.malformedResponse (toText block))
    ((block.get "timestamp").bind Json.asStr)
  parseQuantity timestamp

def ethBlockTimestamp (block : Nat) : RpcProgram (Except RpcError Nat) := do
  let blockHex := "0x" ++ String.ofList (Nat.toDigits 16 block)
  let params := Json.array [.string blockHex, .bool false]
  return (← client.callRawValue "eth_getBlockByNumber" params) >>=
    blockTimestamp

variable [HashFunctions]

/-- Call a contract and decode what it returns. -/
def read {α : Type} (target : Address) (data : Bytes)
    (decode : Bytes → Except AbiError α) : RpcProgram (Except RpcError α) := do
  return (← client.ethCall target data) >>= fun returned =>
    (decode returned).mapError .abi

def getProvider (marketplace provider : Address) :
    RpcProgram (Except RpcError ProviderProfile) :=
  client.read marketplace (encodeGetProvider provider) ProviderProfile.decode

def getJob (marketplace : Address) (jobId : Nat) :
    RpcProgram (Except RpcError Job) :=
  client.read marketplace (encodeGetJob jobId) Job.decode

def saltPerPflopHour (oracle : Address) : RpcProgram (Except RpcError Nat) :=
  client.read oracle encodeSaltPerPflopHour decodeSaltPerPflopHour

def resultVerifiedAt (marketplace : Address) (jobId : Nat) :
    RpcProgram (Except RpcError Nat) :=
  client.read marketplace (encodeResultVerifiedAt jobId)
    fun data => Decoder.u128.run' ⟨data, 0⟩

def disputeResolvedForProvider (marketplace : Address) (jobId : Nat) :
    RpcProgram (Except RpcError Bool) :=
  client.read marketplace (encodeDisputeResolvedForProvider jobId)
    fun data => Decoder.bool.run' ⟨data, 0⟩

def isPriceStale (oracle : Address) : RpcProgram (Except RpcError Bool) :=
  client.read oracle encodeIsPriceStale decodeIsPriceStale

def getModel (registry : Address) (modelHash : Word) :
    RpcProgram (Except RpcError ModelInfo) :=
  client.read registry (encodeGetModel modelHash) ModelRegistry.decodeGetModel

def commitmentSubmitted (verifier : Address) (jobId : Nat) :
    RpcProgram (Except RpcError Bool) :=
  client.read verifier (encodeGetRecord jobId) decodeCommitmentSubmitted

def recordTier (verifier : Address) (jobId : Nat) :
    RpcProgram (Except RpcError VerificationTier) :=
  client.read verifier (encodeGetRecord jobId) decodeRecordTier

def commitmentBlock (verifier : Address) (jobId : Nat) :
    RpcProgram (Except RpcError Nat) :=
  client.read verifier (encodeCommitmentBlock jobId) decodeBlock

end RpcClient

end NodeAgent.Chainio
