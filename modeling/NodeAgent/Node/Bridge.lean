import NodeAgent.Bidder.Evaluate
import NodeAgent.Chainio.Marketplace

/-!
# From chain records to the bidder's input

`node-agent::bridge`.  The bidder works on 64-bit ids, counts and seconds, so
the mapping narrows the chain's 128-bit values.
-/

namespace NodeAgent.Node

open Chainio

def mapTier : VerificationTier → Bidder.VerificationTier
  | .commitment => .commitment
  | .zkProof => .zkProof
  | .tee => .tee

def mapCaps (profile : ProviderProfile) : Bidder.Caps where
  currentActiveJobs := FixedWidth.narrow 64 profile.currentActiveJobs
  maxConcurrentJobs := FixedWidth.narrow 64 profile.maxConcurrentJobs

def mapJob (job : Job) (currentBlock secsPerBlock estimatedPflopHours1e18
    estimatedExecSecs : Nat) : Bidder.Job where
  id := FixedWidth.narrow 64 job.id
  maxPriceWei := job.maxPriceWei
  tier := mapTier job.tier
  estimatedPflopHours1e18 := estimatedPflopHours1e18
  estimatedExecSecs := estimatedExecSecs
  secsUntilDeadline :=
    FixedWidth.saturatingMul 64
      (FixedWidth.narrow 64 (job.executionDeadlineBlock - currentBlock))
      secsPerBlock

/-- The block a bid must expire at; `none` when the job is not open for bids
or its input cannot be bound to the chain. -/
def bidExpiresBlock (job : Job) (currentBlock : Nat) : Option Nat :=
  if (job.state = .posted ∨ job.state = .bidding) ∧ job.inputHash.isSome ∧
      currentBlock < job.bidDeadlineBlock then
    some job.bidDeadlineBlock
  else none

end NodeAgent.Node
