import NodeAgent.Bidder.Schedule
import NodeAgent.Library.FixedWidth

/-!
# The bidding decision

`bidder::evaluate`: the gates are checked in a fixed order, pricing last.
-/

namespace NodeAgent.Bidder

def ONE_SALT_WEI : Nat := 10 ^ 18

/-- Jobs at or above this price are not bid on. -/
def COMMITMENT_CAP_WEI : Nat := 10 * ONE_SALT_WEI

def MARGIN_NUM : Nat := 115

def MARGIN_DEN : Nat := 100

def MAX_PRICE_CAP_NUM : Nat := 90

def MAX_PRICE_CAP_DEN : Nat := 100

def LOAD_CAP_NUM : Nat := 80

def LOAD_CAP_DEN : Nat := 100

def DEADLINE_SAFETY_FACTOR : Nat := 2

inductive VerificationTier
  | commitment
  | zkProof
  | tee
deriving DecidableEq

/-- A marketplace job as the bidder sees it. -/
structure Job where
  id : Nat
  maxPriceWei : Nat
  tier : VerificationTier
  estimatedPflopHours1e18 : Nat
  estimatedExecSecs : Nat
  secsUntilDeadline : Nat
deriving DecidableEq

structure ComputePricingOracle where
  saltPerPflopHourWei : Nat
  stale : Bool
deriving DecidableEq

def ComputePricingOracle.estimatedCostWei (oracle : ComputePricingOracle)
    (job : Job) : Nat :=
  FixedWidth.saturatingMul 128 job.estimatedPflopHours1e18
    oracle.saltPerPflopHourWei / ONE_SALT_WEI

structure Settings where
  enabled : Bool
  schedule : Schedule
  currentHour : Nat
  currentMin : Nat
  currentDay : Weekday
deriving DecidableEq

structure Caps where
  currentActiveJobs : Nat
  maxConcurrentJobs : Nat
deriving DecidableEq

inductive SkipReason
  | disabled
  | outsideSchedule
  | exceedsCommitmentCap
  | unsupportedTier
  | atCapacity
  | deadlineInfeasible
  | windowClosingSoon
  | oracleStale
  | unprofitable
deriving DecidableEq

inductive BidDecision
  | bid (jobId priceWei estimatedCostWei : Nat)
  | skip (jobId : Nat) (reason : SkipReason)
deriving DecidableEq

/-- Decide whether to bid on a job, and at what price. -/
def evaluate (job : Job) (oracle : ComputePricingOracle) (settings : Settings)
    (caps : Caps) : BidDecision :=
  let skip reason := BidDecision.skip job.id reason
  let required := job.estimatedExecSecs * DEADLINE_SAFETY_FACTOR
  if !settings.enabled then skip .disabled
  else if !settings.schedule.inWindow settings.currentHour
      settings.currentDay then
    skip .outsideSchedule
  else if job.maxPriceWei ≥ COMMITMENT_CAP_WEI then skip .exceedsCommitmentCap
  else if job.tier ≠ .commitment then skip .unsupportedTier
  else if caps.maxConcurrentJobs = 0 then skip .atCapacity
  else if caps.currentActiveJobs * LOAD_CAP_DEN ≥
      caps.maxConcurrentJobs * LOAD_CAP_NUM then
    skip .atCapacity
  else if job.secsUntilDeadline < required then skip .deadlineInfeasible
  else if settings.schedule.secsUntilWindowClose settings.currentHour
      settings.currentMin settings.currentDay < required then
    skip .windowClosingSoon
  else if oracle.stale then skip .oracleStale
  else
    let cost := oracle.estimatedCostWei job
    let costPlus := FixedWidth.saturatingMul 128 cost MARGIN_NUM / MARGIN_DEN
    let ceiling :=
      FixedWidth.saturatingMul 128 job.maxPriceWei MAX_PRICE_CAP_NUM /
        MAX_PRICE_CAP_DEN
    let price := min costPlus ceiling
    if price < cost ∨ price = 0 then skip .unprofitable
    else .bid job.id price cost

end NodeAgent.Bidder
