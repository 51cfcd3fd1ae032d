import NodeAgent.Chainio.CappedRead
import NodeAgent.Executor.Models

/-!
# The gateway weight source

`executor::models::IpfsGatewaySource`: the weights behind a CID are streamed
from an IPFS gateway under a running cap.  The loop is not the one of
`read_body_capped`, but on the body of a response the two agree.
-/

namespace NodeAgent.Executor

open Chainio Chunks FixedWidth

def trimEndMatches (char : Char) (text : String) : String :=
  String.ofList
    (text.toList.reverse.dropWhile (fun last => last = char)).reverse

structure IpfsGatewaySource where
  gateway : String
  maxBytes : Nat

namespace IpfsGatewaySource

/-- `{gateway}/ipfs/{cid}`. -/
def url (source : IpfsGatewaySource) (cid : String) : String :=
  trimEndMatches '/' source.gateway ++ "/ipfs/" ++ cid

/-- The streaming loop, on a response that reports success.  The lengths are
added as 64-bit words. -/
def readWeight (source : IpfsGatewaySource) (response : Response) :
    Reading ProvisionError UInt8 :=
  match response.declaresMore source.maxBytes with
  | some length =>
      .refused (.fetch
        s!"weight too large: Content-Length {length} > {source.maxBytes} cap")
  | none =>
      collect
        (fun buf chunk =>
          narrow 64 (buf.length + chunk.length) > source.maxBytes)
        (.fetch s!"weight exceeds {source.maxBytes} byte cap") []
        (response.stream .fetch)

/-- `WeightSource::fetch`, with the HTTP client's `send` and the client's text
of a status. -/
def fetch (source : IpfsGatewaySource) (statusText : Nat → String)
    (send : String → Except String Response) (cid : String) :
    Reading ProvisionError UInt8 :=
  if validateCid cid then
    match send (source.url cid) with
    | .error error => .refused (.fetch error)
    | .ok response =>
        if response.isSuccess then source.readWeight response
        else
          .refused (.fetch s!"gateway status {statusText response.status}")
  else .refused (.invalidCid cid)

variable {source : IpfsGatewaySource} {response : Response}

theorem readWeight_caps (source : IpfsGatewaySource) {body : Bytes}
    (delivers : response.Delivers body)
    (room : min source.maxBytes body.length ≤ isizeMax) :
    (source.readWeight response).Caps source.maxBytes body := by
  rw [readWeight]
  split
  · next declared =>
      exact Reading.caps_refused (delivers.declaresMore declared) _
  · exact delivers.collect_caps (compares_narrow (response.inMemory _) _) room

theorem fetch_of_success {statusText : Nat → String}
    {send : String → Except String Response} {cid : String}
    (valid : validateCid cid = true)
    (sent : send (source.url cid) = .ok response)
    (success : response.isSuccess = true) :
    source.fetch statusText send cid = source.readWeight response := by
  rw [fetch, if_pos valid, sent]
  exact if_pos success

end IpfsGatewaySource

/-- Both readers of a body under a cap return the whole body exactly when the
cap admits it, however it is split into chunks, and neither ever holds more
than the cap.  What the two keep fits in memory. -/
theorem cappedReads_chunking {response : Response} {body : Bytes}
    (delivers : response.Delivers body) {cap : Nat}
    (room : min cap body.length ≤ isizeMax) :
    (response.isRedirection = false →
      (readBodyCapped response cap).Caps cap body) ∧
    (response.isSuccess = true →
      ∀ (gateway : String) (statusText : Nat → String)
        (send : String → Except String Response) (cid : String),
        let source : IpfsGatewaySource := ⟨gateway, cap⟩
        validateCid cid = true → send (source.url cid) = .ok response →
          (source.fetch statusText send cid).Caps cap body) := by
  constructor
  · intro direct
    exact readBodyCapped_caps direct delivers room
  · intro success gateway statusText send cid source valid sent
    rw [IpfsGatewaySource.fetch_of_success valid sent success]
    exact source.readWeight_caps delivers room

def sampleChunk (bytes : List Nat) (small : bytes.length ≤ 2) : Chunk :=
  ⟨bytes.map UInt8.ofNat, by
    rw [List.length_map]
    exact small.trans (by decide)⟩

/-- Three bytes in chunks of two, none and one. -/
def sampleResponse : Response where
  status := 200
  contentLength := some 3
  chunks :=
    [.ok (sampleChunk [1, 2] (by decide)), .ok (sampleChunk [] (by decide)),
      .ok (sampleChunk [3] (by decide))]

def sampleSource : IpfsGatewaySource := ⟨"http://127.0.0.1:8080/", 3⟩

theorem sampleResponse_delivers : sampleResponse.Delivers [1, 2, 3] where
  complete :=
    ⟨[sampleChunk [1, 2] (by decide), sampleChunk [] (by decide),
      sampleChunk [3] (by decide)], rfl, by decide⟩
  declared := .inr rfl

/-- The three bytes pass a cap of three, and no cap of two. -/
theorem cappedReads_chunking_threeBytes :
    (readBodyCapped sampleResponse 3).result = .ok [1, 2, 3] ∧
    (sampleSource.fetch (fun _ => "200 OK") (fun _ => .ok sampleResponse)
        "bafkreigh2akiscaildcqabsyg3dfr6chu3fgpregiymsck7e7aqa4s52zy").result =
      .ok [1, 2, 3] ∧
    ∃ error, (readBodyCapped sampleResponse 2).result = .error error := by
  have atCap := cappedReads_chunking sampleResponse_delivers
    (show min 3 3 ≤ isizeMax by decide)
  have below := cappedReads_chunking sampleResponse_delivers
    (show min 2 3 ≤ isizeMax by decide)
  refine ⟨(atCap.1 rfl).whole (by decide), ?_,
    (below.1 rfl).refuses (by decide)⟩
  exact (atCap.2 rfl "http://127.0.0.1:8080/" _ _ _ (by decide +kernel)
    rfl).whole (by decide)

end NodeAgent.Executor
