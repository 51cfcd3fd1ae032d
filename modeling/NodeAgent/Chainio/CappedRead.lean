import NodeAgent.Chainio.Abi
import NodeAgent.Library.Chunks
import NodeAgent.Library.FixedWidth

/-!
# Capped response reads

`chainio::outbound::read_body_capped`: the body of a response is read chunk by
chunk under a hard byte cap, and a redirect is refused first.
-/

namespace NodeAgent.Chainio

open Chunks FixedWidth

/-- `isize::MAX`: what no slice and no vector of bytes exceeds. -/
def isizeMax : Nat := 2 ^ 63 - 1

/-- A chunk in memory. -/
abbrev Chunk := { bytes : Bytes // bytes.length ≤ isizeMax }

/-- What the client hands on of a response: its status, the declared length of
its body, and the chunks of the body as they arrive. -/
structure Response where
  status : Nat
  contentLength : Option Nat
  chunks : List (Except String Chunk)

namespace Response

def isRedirection (response : Response) : Bool :=
  300 ≤ response.status ∧ response.status < 400

def isSuccess (response : Response) : Bool :=
  200 ≤ response.status ∧ response.status < 300

/-- The declared length, where it exceeds the cap. -/
def declaresMore (response : Response) (cap : Nat) : Option Nat :=
  response.contentLength.filter (fun length => length > cap)

/-- The body as it arrives, with the caller's transport error. -/
def stream {ε : Type} (response : Response) (http : String → ε) :
    List (Except ε Bytes) :=
  response.chunks.map fun received =>
    match received with
    | .ok chunk => .ok chunk.val
    | .error error => .error (http error)

end Response

inductive CappedReadError
  | redirect (status : Nat)
  | tooLarge (max : Nat)
  | http (error : String)
deriving DecidableEq

def CappedReadError.display (statusText : Nat → String) :
    CappedReadError → String
  | .redirect status =>
      s!"endpoint answered with redirect {statusText status}; redirects are refused (PBA-L6b-024)"
  | .tooLarge max =>
      s!"response body exceeds the {max}-byte cap (PBA-L6b-024)"
  | .http error => s!"reading response body: {error}"

def readBodyCapped (response : Response) (max : Nat) :
    Reading CappedReadError UInt8 :=
  if response.isRedirection then .refused (.redirect response.status)
  else
    match response.declaresMore max with
    | some _ => .refused (.tooLarge max)
    | none =>
        collect
          (fun buf chunk => saturatingAdd 64 buf.length chunk.length > max)
          (.tooLarge max) [] (response.stream .http)

theorem add_lt_maxValue {left right : Nat} (leftSmall : left ≤ isizeMax)
    (rightSmall : right ≤ isizeMax) : left + right < maxValue 64 := by
  rw [isizeMax] at leftSmall rightSmall
  rw [maxValue]
  omega

theorem compares_saturatingAdd {chunks : List Bytes}
    (inMemory : ∀ chunk ∈ chunks, chunk.length ≤ isizeMax) (cap : Nat) :
    Compares (fun (buf chunk : Bytes) =>
        saturatingAdd 64 buf.length chunk.length > cap)
      isizeMax cap chunks := by
  intro buffer chunk small member
  have sum := add_lt_maxValue small (inMemory chunk member)
  rw [decide_eq_true_iff, saturatingAdd, min_eq_left sum.le]

theorem compares_narrow {chunks : List Bytes}
    (inMemory : ∀ chunk ∈ chunks, chunk.length ≤ isizeMax) (cap : Nat) :
    Compares (fun (buf chunk : Bytes) =>
        narrow 64 (buf.length + chunk.length) > cap)
      isizeMax cap chunks := by
  intro buffer chunk small member
  have sum := add_lt_maxValue small (inMemory chunk member)
  have fits : buffer.length + chunk.length < 2 ^ 64 :=
    sum.trans (by decide)
  rw [decide_eq_true_iff, narrow_of_fits fits]

namespace Response

theorem inMemory {ε : Type} (response : Response) (http : String → ε) :
    ∀ chunk ∈ arrived (response.stream http), chunk.length ≤ isizeMax := by
  intro chunk member
  obtain ⟨received, delivered, arrives⟩ := List.mem_filterMap.mp member
  obtain ⟨result, _, rfl⟩ := List.mem_map.mp delivered
  cases result with
  | error error => cases arrives
  | ok bytes =>
      cases arrives
      exact bytes.property

theorem stream_ok {ε : Type} {response : Response} {http : String → ε}
    {bodies : List Bytes} (streamed : response.stream http = bodies.map .ok) :
    ∃ chunks : List Chunk,
      response.chunks = chunks.map .ok ∧ chunks.map Subtype.val = bodies := by
  obtain ⟨status, declared, received⟩ := response
  simp only [stream] at streamed ⊢
  induction received generalizing bodies with
  | nil =>
      cases bodies with
      | nil => exact ⟨[], rfl, rfl⟩
      | cons body bodies => cases streamed
  | cons head rest ih =>
      cases bodies with
      | nil => cases streamed
      | cons body bodies =>
          obtain ⟨first, later⟩ := List.cons.inj streamed
          obtain ⟨chunks, rfl, rfl⟩ := ih later
          cases head with
          | error error => cases first
          | ok chunk =>
              cases first
              exact ⟨chunk :: chunks, rfl, rfl⟩

/-- The response delivers this body, in some chunks, and declares either no
length or the body's. -/
structure Delivers (response : Response) (body : Bytes) : Prop where
  complete : ∃ chunks : List Chunk,
    response.chunks = chunks.map .ok ∧ (chunks.map Subtype.val).flatten = body
  declared : response.contentLength = none ∨
    response.contentLength = some body.length

variable {response : Response} {body : Bytes} {cap : Nat}

theorem Delivers.stream (delivers : response.Delivers body) {ε : Type}
    (http : String → ε) :
    ∃ chunks : List Bytes,
      response.stream http = chunks.map .ok ∧ chunks.flatten = body := by
  obtain ⟨chunks, delivered, whole⟩ := delivers.complete
  refine ⟨chunks.map Subtype.val, ?_, whole⟩
  rw [Response.stream, delivered, List.map_map, List.map_map]
  rfl

theorem Delivers.declaresMore (delivers : response.Delivers body)
    {length : Nat} (more : response.declaresMore cap = some length) :
    cap < body.length := by
  obtain ⟨declared, exceeds⟩ := Option.filter_eq_some_iff.mp more
  rcases delivers.declared with absent | present
  · rw [absent] at declared
    cases declared
  · rw [present] at declared
    cases declared
    exact of_decide_eq_true exceeds

theorem Delivers.collect_caps (delivers : response.Delivers body) {ε : Type}
    {exceeds : Bytes → Bytes → Bool} {full : ε} {http : String → ε}
    (compares : Compares exceeds isizeMax cap
      (arrived (response.stream http)))
    (room : min cap body.length ≤ isizeMax) :
    (collect exceeds full [] (response.stream http)).Caps cap body := by
  obtain ⟨chunks, streamed, rfl⟩ := delivers.stream http
  rw [streamed, arrived_map_ok] at compares
  rw [streamed]
  exact Chunks.collect_caps compares room

end Response

theorem readBodyCapped_ok {response : Response} {cap : Nat} {body : Bytes}
    (read : (readBodyCapped response cap).result = .ok body) :
    response.isRedirection = false ∧
      ∃ chunks : List Chunk, response.chunks = chunks.map .ok ∧
        (chunks.map Subtype.val).flatten = body := by
  rw [readBodyCapped] at read
  split at read
  · cases read
  · next direct =>
      refine ⟨Bool.eq_false_iff.mpr direct, ?_⟩
      split at read
      · cases read
      · obtain ⟨bodies, streamed, whole⟩ := collect_ok read
        have chunks := Response.stream_ok streamed
        obtain ⟨chunks, delivered, rfl⟩ := chunks
        exact ⟨chunks, delivered, whole.symm⟩

theorem readBodyCapped_caps {response : Response} {body : Bytes} {cap : Nat}
    (direct : response.isRedirection = false)
    (delivers : response.Delivers body)
    (room : min cap body.length ≤ isizeMax) :
    (readBodyCapped response cap).Caps cap body := by
  rw [readBodyCapped, if_neg (Bool.eq_false_iff.mp direct)]
  split
  · next declared =>
      exact Reading.caps_refused (delivers.declaresMore declared) _
  · exact delivers.collect_caps
      (compares_saturatingAdd (response.inMemory _) cap) room

end NodeAgent.Chainio
