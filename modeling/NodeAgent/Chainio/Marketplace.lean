import NodeAgent.Chainio.Abi

/-!
# Marketplace records and write calldata

The decoded records of `chainio::marketplace` and
`chainio::model_registry`, and the calldata of the writes the agent requests.
-/

namespace NodeAgent.Chainio

/-- `ComputeMarketplace.ProviderProfile`. -/
structure ProviderProfile where
  isRegistered : Bool
  stakeWei : Nat
  totalJobsCompleted : Nat
  totalJobsFailed : Nat
  reputationScoreBps : Nat
  currentActiveJobs : Nat
  maxConcurrentJobs : Nat
deriving DecidableEq

/-- `ComputeMarketplace.JobState`. -/
inductive JobState
  | posted
  | bidding
  | assigned
  | executing
  | verifying
  | completed
  | expired
  | timeout
  | failed
  | disputed
deriving DecidableEq

/-- `ComputeVerifier.VerificationTier`. -/
inductive VerificationTier
  | commitment
  | zkProof
  | tee
deriving DecidableEq

/-- `ComputeMarketplace.Job`, the fields the agent decodes.  `inputHash` is
`none` for any on-chain value that is not exactly 32 bytes. -/
structure Job where
  id : Nat
  requester : Address
  modelHash : Word
  maxPriceWei : Nat
  tier : VerificationTier
  state : JobState
  assignedProvider : Address
  escrowWei : Nat
  bidDeadlineBlock : Nat
  executionDeadlineBlock : Nat
  createdAtBlock : Nat
  bidCount : Nat
  inputHash : Option Word
deriving DecidableEq

/-- The part of `ModelRegistry.getModel` the agent uses. -/
structure ModelInfo where
  owner : Address
  ipfsCid : String
  isActive : Bool
deriving DecidableEq

variable [HashFunctions]

def encodeBidOnJob (jobId priceWei estimatedLatencyMs : Nat) : Bytes :=
  encodeCall Selectors.bidOnJob
    [wordFromU128 jobId, wordFromU128 priceWei, wordFromU128 estimatedLatencyMs]

def encodeAssignBestBid (jobId : Nat) : Bytes :=
  encodeCall Selectors.assignBestBid [wordFromU128 jobId]

def encodeStartExecution (jobId : Nat) : Bytes :=
  encodeCall Selectors.startExecution [wordFromU128 jobId]

def encodeSubmitCommitment (jobId : Nat) (commitment : Word) : Bytes :=
  encodeCall Selectors.submitCommitment [wordFromU128 jobId, commitment]

theorem encodeSubmitCommitment_drop (jobId : Nat) (commitment : Word) :
    (encodeSubmitCommitment jobId commitment).drop 36 = commitment.toList := by
  simp [encodeSubmitCommitment, encodeCall, List.drop_append]

def encodeCompleteJob (jobId : Nat) : Bytes :=
  encodeCall Selectors.completeJob [wordFromU128 jobId]

/-- `submitResult(uint256,bytes,bytes)`: three head words, the last two being
the offsets of the two `bytes` tails. -/
def encodeSubmitResult (jobId : Nat) (outputHash proof : Bytes) : Bytes :=
  let headLen := 3 * 32
  let outputTail := encodeBytesTail outputHash
  let proofTail := encodeBytesTail proof
  Selectors.submitResult.toList ++
    (wordFromU128 jobId).toList ++
    (wordFromU128 headLen).toList ++
    (wordFromU128 (headLen + outputTail.length)).toList ++
    outputTail ++ proofTail

/-- `registerProvider(bytes32[])`: one head word, the offset of the array, then
its length and its elements. -/
def encodeRegisterProvider (supportedModels : List Word) : Bytes :=
  encodeCall Selectors.registerProvider
    (wordFromU128 0x20 :: wordFromU128 supportedModels.length ::
      supportedModels)

/-- `claimRewards()` takes no arguments: the calldata is its selector. -/
def encodeClaimRewards : Bytes :=
  Selectors.claimRewards.toList

end NodeAgent.Chainio
