import NodeAgent.Chainio.Calldata
import NodeAgent.Supervision.State

/-!
# The identity of a queued write

The queue tells writes apart by their calldata alone.  Calldata determines the
function and its arguments, so an entry never stands for two different writes.
-/

namespace NodeAgent.Node

open Chainio SolidityAbi Supervision

section Hashes

variable [HashFunctions]

/-- A queued write gets an entry of its own, or the entry that it is merged
into is an earlier request for the same write. -/
theorem enqueueSignatureRequest_sameWrite (pinned : SelectorsPinned)
    (state : AgentState) {request : UnsignedWrite} {write : Write}
    (carries : request.calldata = hexEncode write.calldata) :
    state.enqueueSignatureRequest request = state.pushPending request none ∨
      ∃ existing ∈ state.pendingRequests,
        state.enqueueSignatureRequest request = (existing.id, state) ∧
          ∀ other : Write, existing.calldata = hexEncode other.calldata →
            other = write := by
  rw [AgentState.enqueueSignatureRequest]
  cases found : state.pendingRequests.find? fun entry =>
      entry.calldata = request.calldata with
  | none =>
      left
      rfl
  | some existing =>
      right
      refine ⟨existing, List.mem_of_find?_eq_some found, rfl, ?_⟩
      intro other same
      have equal := List.find?_some found
      rw [decide_eq_true_eq, same, carries] at equal
      exact Write.eq_of_hexEncode pinned equal

/-- The calldata of a write determines it: the reference decoder finds the
function and the arguments, each argument where its head word says, and the
queue never merges two different writes. -/
theorem calldata_determines_write (pinned : SelectorsPinned) :
    (∀ write : Write,
      Write.ofCalldata write.calldata = some write ∧
        ∃ block, write.calldata = write.function.pinned ++ block ∧
          LaidOut write.arguments block) ∧
    (∀ first second : Write,
      hexEncode first.calldata = hexEncode second.calldata →
        first = second) ∧
    ∀ (state : AgentState) (request : UnsignedWrite) (write : Write),
      request.calldata = hexEncode write.calldata →
        state.enqueueSignatureRequest request =
            state.pushPending request none ∨
          ∃ existing ∈ state.pendingRequests,
            state.enqueueSignatureRequest request = (existing.id, state) ∧
              ∀ other : Write, existing.calldata = hexEncode other.calldata →
                other = write := by
  refine ⟨?_, ?_, ?_⟩
  · intro write
    refine ⟨Write.ofCalldata_calldata pinned write, _, ?_,
      encode_laidOut write.arguments⟩
    rw [write.calldata_eq, pinned]
  · intro first second same
    exact Write.eq_of_hexEncode pinned same
  · intro state request write carries
    exact enqueueSignatureRequest_sameWrite pinned state carries

end Hashes

/-- The pinned selectors of the other writes. -/
def otherSelectors : List (String × Bytes) :=
  [("registerProvider(bytes32[])", [0x05, 0x89, 0xcd, 0x44]),
    ("assignBestBid(uint256)", [0x72, 0x74, 0x95, 0xa4]),
    ("registerPinner()", [0xc0, 0xd2, 0xc4, 0x28]),
    ("sealCommit(bytes32,uint256,bytes32,uint256,bytes32,bytes32,bytes32,bytes)",
      [0x51, 0xa0, 0xed, 0x88]),
    ("challenge(bytes32,uint256)", [0xe2, 0x08, 0x3c, 0x18]),
    ("submitPoSt(bytes32,uint256,bytes32,bytes32,uint256,bytes)",
      [0x43, 0xf6, 0xb2, 0x01]),
    ("claim(bytes32,uint256)", [0x63, 0xf4, 0x49, 0x68]),
    ("returnBond(bytes32,uint256)", [0x3a, 0xc9, 0xdf, 0xd3])]

/-- Concrete functions with every pinned selector. -/
@[reducible] def writeHashes : HashFunctions where
  keccak256 bytes :=
    match (pinnedSelectors ++ otherSelectors).find? fun pinned =>
        utf8 pinned.1 = bytes with
    | some pinned => firstWord pinned.2
    | none => firstWord bytes
  sha256 := firstWord

theorem writeHashes_pinned : @SelectorsPinned writeHashes := by
  intro function
  cases function <;> decide +kernel

/-- A result whose first argument is not a whole number of words. -/
def sampleResult : Write :=
  .submitResult ⟨7, by decide⟩ ⟨List.replicate 33 1, by decide⟩
    ⟨[2, 3], by decide⟩

def sampleRequest : UnsignedWrite where
  intent := "submit_result"
  target := "0x00"
  calldata := hexEncode (@Write.calldata writeHashes sampleResult)
  valueWei := 0
  chainId := 1
  context := ""
  expiresBlock := 0

theorem calldata_determines_sampleResult :
    Write.ofCalldata (@Write.calldata writeHashes sampleResult) =
        some sampleResult ∧
      (AgentState.new.enqueueSignatureRequest sampleRequest =
          AgentState.new.pushPending sampleRequest none ∨
        ∃ existing ∈ AgentState.new.pendingRequests,
          AgentState.new.enqueueSignatureRequest sampleRequest =
              (existing.id, AgentState.new) ∧
            ∀ other : Write, existing.calldata =
                hexEncode (@Write.calldata writeHashes other) →
              other = sampleResult) := by
  have determined := @calldata_determines_write writeHashes writeHashes_pinned
  exact ⟨(determined.1 sampleResult).1,
    determined.2.2 AgentState.new sampleRequest sampleResult rfl⟩

end NodeAgent.Node
