import NodeAgent.Lifecycle.Plan

/-!
# The Commitment-tier proof

`executor::proof`: the commitment binds the inference output and the job's
nonce, and the proof data reveals both.
-/

namespace NodeAgent.Executor

open Chainio Lifecycle

variable [HashFunctions]

def keccak256Bytes (data : Bytes) : Word := keccak256 data

namespace CommitmentProver

/-- `commitment = keccak256(output ‖ nonce)`. -/
def commitment (output : Bytes) (nonce : Word) : Word :=
  keccak256 (output ++ nonce.toList)

def outputHash (output : Bytes) : Word := keccak256 output

/-- `proofData = commitment(32) ‖ nonce(32) ‖ output`. -/
def proofData (commitment nonce : Word) (output : Bytes) : Bytes :=
  commitment.toList ++ nonce.toList ++ output

def build (output : Bytes) (nonce : Word) : CommitmentArtifacts where
  commitment := commitment output nonce
  outputHash := outputHash output
  proof := proofData (commitment output nonce) nonce output

theorem build_proof_length (output : Bytes) (nonce : Word) :
    (build output nonce).proof.length = 64 + output.length := by
  simp [build, proofData]
  omega

theorem build_proof_drop (output : Bytes) (nonce : Word) :
    (build output nonce).proof.drop 64 = output := by
  simp [build, proofData, List.drop_append]

theorem build_proof_nonce (output : Bytes) (nonce : Word) :
    ((build output nonce).proof.drop 32).take 32 = nonce.toList := by
  simp [build, proofData]

theorem build_proof_inj {output output' : Bytes} {nonce nonce' : Word}
    (same : (build output nonce).proof = (build output' nonce').proof) :
    output = output' ∧ nonce = nonce' := by
  constructor
  · rw [← build_proof_drop output nonce, same, build_proof_drop]
  · apply List.Vector.toList_injective
    rw [← build_proof_nonce output nonce, same, build_proof_nonce]

end CommitmentProver

end NodeAgent.Executor
