import NodeAgent.Chainio.Marketplace
import NodeAgent.Library.FixedWidth

/-!
# The lifecycle planner

`lifecycle::plan` decides the next write for one won job from the job record,
the chain head, the proof artifacts and the settlement gates.  It is pure; the
daemon calls it once a step.
-/

namespace NodeAgent.Lifecycle

open Chainio

/-- `ComputeMarketplace.DISPUTE_WINDOW`, in blocks. -/
def DISPUTE_WINDOW_BLOCKS : Nat := 100

/-- `ComputeVerifier.VALUE_THRESHOLD`: 10 SALT in wei. -/
def COMMITMENT_TIER_VALUE_THRESHOLD_WEI : Nat := 10 * 10 ^ 18

/-- Chain reads that gate the settlement writes. -/
structure ChainGates where
  effectiveTier : Option VerificationTier
  commitmentBlock : Nat
  resultVerifiedAt : Nat
  disputeResolvedForProvider : Bool
deriving DecidableEq

inductive WriteIntent
  | startExecution
  | submitCommitment
  | submitResult
  | completeJob
  | claimRewards
  | bidOnJob
  | heartbeat
deriving DecidableEq

def WriteIntent.label : WriteIntent → String
  | .startExecution => "startExecution"
  | .submitCommitment => "submitCommitment"
  | .submitResult => "submitResult"
  | .completeJob => "completeJob"
  | .claimRewards => "claimRewards"
  | .bidOnJob => "bidOnJob"
  | .heartbeat => "heartbeat"

/-- An unsigned chain write. -/
structure SignatureRequest where
  intent : WriteIntent
  target : Address
  calldata : Bytes
  valueWei : Nat
  chainId : Nat
  context : String
  expiresBlock : Nat
deriving DecidableEq

/-- The executor's proof for one job. -/
structure CommitmentArtifacts where
  commitment : Word
  outputHash : Word
  proof : Bytes
deriving DecidableEq

structure PlanInput where
  job : Job
  me : Address
  currentBlock : Nat
  marketplace : Address
  chainId : Nat
  committed : Bool
  artifacts : Option CommitmentArtifacts
  gates : ChainGates

inductive WaitReason
  | disputeWindow (readyAtBlock : Nat)
  | awaitingVerification
  | revealAfterCommitBlock (commitBlock : Nat)
deriving DecidableEq

inductive AbortReason
  | notAssignedProvider
  | executionDeadlinePassed
  | jobExpired
  | jobTimedOut
  | jobFailedOnChain
  | jobDisputed
  | unsupportedTier
deriving DecidableEq

/-- The `{:?}` rendering of a reason. -/
def AbortReason.debug : AbortReason → String
  | .notAssignedProvider => "NotAssignedProvider"
  | .executionDeadlinePassed => "ExecutionDeadlinePassed"
  | .jobExpired => "JobExpired"
  | .jobTimedOut => "JobTimedOut"
  | .jobFailedOnChain => "JobFailedOnChain"
  | .jobDisputed => "JobDisputed"
  | .unsupportedTier => "UnsupportedTier"

inductive LifecycleAction
  | sign (request : SignatureRequest)
  | runInference
  | idle
  | done
  | abort (reason : AbortReason)
  | wait (reason : WaitReason)
deriving DecidableEq

/-- The tier the job is settled under: the verifier's record when it was read,
else derived from the requested tier and the price. -/
def effectiveTier (input : PlanInput) : VerificationTier :=
  match input.gates.effectiveTier with
  | some tier => tier
  | none =>
      if input.job.tier = .commitment ∧
          input.job.maxPriceWei > COMMITMENT_TIER_VALUE_THRESHOLD_WEI then
        .zkProof
      else input.job.tier

/-- The unsigned request that `sign` wraps. -/
def requestFor (intent : WriteIntent) (calldata : Bytes) (input : PlanInput) :
    SignatureRequest where
  intent := intent
  target := input.marketplace
  calldata := calldata
  valueWei := 0
  chainId := input.chainId
  context := s!"{intent.label} job {input.job.id}"
  expiresBlock :=
    match intent with
    | .completeJob => 0
    | _ => input.job.executionDeadlineBlock

def sign (intent : WriteIntent) (calldata : Bytes) (input : PlanInput) :
    LifecycleAction :=
  .sign (requestFor intent calldata input)

variable [HashFunctions]

/-- Decide the next action for one won job. -/
def plan (input : PlanInput) : LifecycleAction :=
  let job := input.job
  if (job.state = .assigned ∨ job.state = .executing ∨ job.state = .verifying) ∧
      effectiveTier input ≠ .commitment then
    .abort .unsupportedTier
  else
    match job.state with
    | .posted | .bidding => .idle
    | .assigned =>
        if input.me ≠ job.assignedProvider then .abort .notAssignedProvider
        else sign .startExecution (encodeStartExecution job.id) input
    | .executing =>
        if input.me ≠ job.assignedProvider then .abort .notAssignedProvider
        else
          match input.artifacts with
          | none => .runInference
          | some art =>
              if !input.committed then
                sign .submitCommitment
                  (encodeSubmitCommitment job.id art.commitment) input
              else if input.currentBlock > job.executionDeadlineBlock then
                .abort .executionDeadlinePassed
              else if input.gates.commitmentBlock ≠ 0 ∧
                  input.currentBlock ≤ input.gates.commitmentBlock then
                .wait (.revealAfterCommitBlock input.gates.commitmentBlock)
              else
                sign .submitResult
                  (encodeSubmitResult job.id art.outputHash.toList art.proof)
                  input
    | .verifying =>
        if input.me ≠ job.assignedProvider then .abort .notAssignedProvider
        else if input.gates.disputeResolvedForProvider then
          sign .completeJob (encodeCompleteJob job.id) input
        else if input.gates.resultVerifiedAt = 0 then
          .wait .awaitingVerification
        else
          let readyAtBlock := FixedWidth.saturatingAdd 128
            input.gates.resultVerifiedAt DISPUTE_WINDOW_BLOCKS
          if input.currentBlock < readyAtBlock then
            .wait (.disputeWindow readyAtBlock)
          else sign .completeJob (encodeCompleteJob job.id) input
    | .completed => .done
    | .expired => .abort .jobExpired
    | .timeout => .abort .jobTimedOut
    | .failed => .abort .jobFailedOnChain
    | .disputed => .abort .jobDisputed

/-- A supported job of mine is paid out once its window has elapsed. -/
theorem plan_completes {input : PlanInput}
    (state : input.job.state = .verifying)
    (tier : effectiveTier input = .commitment)
    (mine : input.me = input.job.assignedProvider)
    (window : input.gates.disputeResolvedForProvider = true ∨
      (input.gates.resultVerifiedAt ≠ 0 ∧
        input.gates.resultVerifiedAt + DISPUTE_WINDOW_BLOCKS ≤
          input.currentBlock)) :
    plan input = sign .completeJob (encodeCompleteJob input.job.id) input := by
  rw [plan, if_neg fun unsupported => unsupported.2 tier]
  simp only [state]
  rw [if_neg (not_not.mpr mine)]
  rcases window with disputed | ⟨verified, elapsed⟩
  · exact if_pos disputed
  · have windowOver : ¬input.currentBlock < FixedWidth.saturatingAdd 128
        input.gates.resultVerifiedAt DISPUTE_WINDOW_BLOCKS :=
      not_lt.mpr ((min_le_left _ _).trans elapsed)
    rw [if_neg verified, if_neg windowOver, ite_self]

/-- The four writes the planner can ask for, each with everything that was
checked for it. -/
inductive Signs (input : PlanInput) : SignatureRequest → Prop
  | startExecution (state : input.job.state = .assigned) :
      Signs input (requestFor .startExecution
        (encodeStartExecution input.job.id) input)
  | submitCommitment {art : CommitmentArtifacts}
      (state : input.job.state = .executing)
      (artifacts : input.artifacts = some art)
      (committed : input.committed = false) :
      Signs input (requestFor .submitCommitment
        (encodeSubmitCommitment input.job.id art.commitment) input)
  | submitResult {art : CommitmentArtifacts}
      (state : input.job.state = .executing)
      (artifacts : input.artifacts = some art)
      (committed : input.committed = true)
      (inTime : input.currentBlock ≤ input.job.executionDeadlineBlock)
      (afterCommit : input.gates.commitmentBlock ≠ 0 →
        input.gates.commitmentBlock < input.currentBlock) :
      Signs input (requestFor .submitResult
        (encodeSubmitResult input.job.id art.outputHash.toList art.proof) input)
  | completeJob (state : input.job.state = .verifying)
      (window : input.gates.disputeResolvedForProvider = true ∨
        (input.gates.resultVerifiedAt ≠ 0 ∧
          FixedWidth.saturatingAdd 128 input.gates.resultVerifiedAt
            DISPUTE_WINDOW_BLOCKS ≤ input.currentBlock)) :
      Signs input (requestFor .completeJob
        (encodeCompleteJob input.job.id) input)

/-- An action other than the tier refusal has passed the tier gate. -/
theorem plan_supportedTier {input : PlanInput} {action : LifecycleAction}
    (planned : plan input = action)
    (other : action ≠ .abort .unsupportedTier) :
    ¬((input.job.state = .assigned ∨ input.job.state = .executing ∨
        input.job.state = .verifying) ∧
      effectiveTier input ≠ .commitment) := by
  intro unsupported
  apply other
  rw [← planned, plan, if_pos unsupported]

theorem plan_mine {input : PlanInput}
    (works : plan input = .runInference ∨
      ∃ request, plan input = .sign request) :
    input.me = input.job.assignedProvider := by
  have supported : ¬((input.job.state = .assigned ∨
      input.job.state = .executing ∨ input.job.state = .verifying) ∧
      effectiveTier input ≠ .commitment) := by
    rcases works with infers | ⟨request, signed⟩
    · exact plan_supportedTier infers (by simp)
    · exact plan_supportedTier signed (by simp)
  by_contra notMine
  rw [plan, if_neg supported] at works
  cases state : input.job.state <;> simp [state, notMine] at works

/-- Inversion of `plan` at a signed write. -/
theorem plan_signs {input : PlanInput} {request : SignatureRequest}
    (planned : plan input = .sign request) :
    Signs input request ∧ effectiveTier input = .commitment ∧
      input.me = input.job.assignedProvider := by
  have supported := plan_supportedTier planned (by simp)
  have tier active : effectiveTier input = .commitment :=
    not_not.mp fun wrongTier => supported ⟨active, wrongTier⟩
  have mine := plan_mine (Or.inr ⟨request, planned⟩)
  rw [plan, if_neg supported] at planned
  cases state : input.job.state <;> simp only [state] at planned tier <;>
    try cases planned
  case assigned =>
    rw [if_neg (not_not.mpr mine)] at planned
    obtain rfl := LifecycleAction.sign.inj planned
    exact ⟨.startExecution state, tier (by simp), mine⟩
  case executing =>
    refine ⟨?_, tier (by simp), mine⟩
    rw [if_neg (not_not.mpr mine)] at planned
    cases artifacts : input.artifacts with
    | none => simp [artifacts] at planned
    | some art =>
        cases committed : input.committed with
        | false =>
            simp only [artifacts, committed, Bool.not_false, if_true] at planned
            obtain rfl := LifecycleAction.sign.inj planned
            exact .submitCommitment state artifacts committed
        | true =>
            simp only [artifacts, committed, Bool.not_true, Bool.false_eq_true,
              if_false] at planned
            by_cases late : input.currentBlock > input.job.executionDeadlineBlock
            · simp [late] at planned
            · rw [if_neg late] at planned
              by_cases early : input.gates.commitmentBlock ≠ 0 ∧
                  input.currentBlock ≤ input.gates.commitmentBlock
              · simp [early] at planned
              · rw [if_neg early] at planned
                obtain rfl := LifecycleAction.sign.inj planned
                apply Signs.submitResult state artifacts committed
                · exact not_lt.mp late
                · intro landed
                  exact not_le.mp fun sameBlock => early ⟨landed, sameBlock⟩
  case verifying =>
    refine ⟨?_, tier (by simp), mine⟩
    rw [if_neg (not_not.mpr mine)] at planned
    by_cases resolved : input.gates.disputeResolvedForProvider = true
    · rw [if_pos resolved] at planned
      obtain rfl := LifecycleAction.sign.inj planned
      exact .completeJob state (Or.inl resolved)
    · rw [if_neg resolved] at planned
      by_cases unverified : input.gates.resultVerifiedAt = 0
      · simp [unverified] at planned
      · rw [if_neg unverified] at planned
        by_cases inWindow : input.currentBlock < FixedWidth.saturatingAdd 128
            input.gates.resultVerifiedAt DISPUTE_WINDOW_BLOCKS
        · simp [inWindow] at planned
        · simp only [inWindow, if_false] at planned
          obtain rfl := LifecycleAction.sign.inj planned
          exact .completeJob state (Or.inr ⟨unverified, not_lt.mp inWindow⟩)

/-- The next write is known, but the chain would refuse it at this head. -/
inductive Waits (input : PlanInput) : WaitReason → Prop
  | revealAfterCommitBlock {art : CommitmentArtifacts}
      (state : input.job.state = .executing)
      (artifacts : input.artifacts = some art)
      (committed : input.committed = true)
      (inTime : input.currentBlock ≤ input.job.executionDeadlineBlock)
      (landed : input.gates.commitmentBlock ≠ 0)
      (early : input.currentBlock ≤ input.gates.commitmentBlock) :
      Waits input (.revealAfterCommitBlock input.gates.commitmentBlock)
  | awaitingVerification (state : input.job.state = .verifying)
      (undecided : input.gates.disputeResolvedForProvider = false)
      (unverified : input.gates.resultVerifiedAt = 0) :
      Waits input .awaitingVerification
  | disputeWindow (state : input.job.state = .verifying)
      (undecided : input.gates.disputeResolvedForProvider = false)
      (verified : input.gates.resultVerifiedAt ≠ 0)
      (early : input.currentBlock < FixedWidth.saturatingAdd 128
        input.gates.resultVerifiedAt DISPUTE_WINDOW_BLOCKS) :
      Waits input (.disputeWindow (FixedWidth.saturatingAdd 128
        input.gates.resultVerifiedAt DISPUTE_WINDOW_BLOCKS))

theorem plan_waits {input : PlanInput} {reason : WaitReason}
    (planned : plan input = .wait reason) :
    Waits input reason ∧ effectiveTier input = .commitment := by
  have supported := plan_supportedTier planned (by simp)
  have tier active : effectiveTier input = .commitment :=
    not_not.mp fun wrongTier => supported ⟨active, wrongTier⟩
  rw [plan, if_neg supported] at planned
  cases state : input.job.state <;> simp only [state, sign] at planned tier <;>
    try cases planned
  case assigned => split at planned <;> cases planned
  case executing =>
    refine ⟨?_, tier (by simp)⟩
    split at planned
    · cases planned
    cases artifacts : input.artifacts with
    | none => simp [artifacts] at planned
    | some art =>
        simp only [artifacts] at planned
        split at planned
        · cases planned
        rename_i committed
        split at planned
        · cases planned
        rename_i inTime
        split at planned
        · rename_i early
          cases planned
          exact .revealAfterCommitBlock state artifacts
            (by simpa using committed) (not_lt.mp inTime) early.1 early.2
        · cases planned
  case verifying =>
    refine ⟨?_, tier (by simp)⟩
    split at planned
    · cases planned
    split at planned
    · cases planned
    rename_i decided
    have undecided := Bool.eq_false_iff.mpr decided
    split at planned
    · rename_i unverified
      cases planned
      exact .awaitingVerification state undecided unverified
    rename_i verified
    split at planned
    · rename_i early
      cases planned
      exact .disputeWindow state undecided verified early
    · cases planned

/-- The planner waits with a supported job of mine exactly there. -/
theorem plan_wait_iff {input : PlanInput} {reason : WaitReason}
    (mine : input.me = input.job.assignedProvider) :
    plan input = .wait reason ↔
      Waits input reason ∧ effectiveTier input = .commitment := by
  refine ⟨plan_waits, ?_⟩
  rintro ⟨waits, tier⟩
  rw [plan, if_neg fun unsupported => unsupported.2 tier]
  cases waits with
  | revealAfterCommitBlock state artifacts committed inTime landed early =>
      simp [state, mine, artifacts, committed, not_lt.mpr inTime, landed, early]
  | awaitingVerification state undecided unverified =>
      simp [state, mine, undecided, unverified]
  | disputeWindow state undecided verified early =>
      simp [state, mine, undecided, verified, early]

theorem plan_idle_iff {input : PlanInput} :
    plan input = .idle ↔
      input.job.state = .posted ∨ input.job.state = .bidding := by
  constructor
  · intro planned
    have supported := plan_supportedTier planned (by simp)
    rw [plan, if_neg supported] at planned
    cases state : input.job.state with
    | posted => exact Or.inl rfl
    | bidding => exact Or.inr rfl
    | _ =>
        simp only [state, sign] at planned
        repeat' split at planned
        all_goals cases planned
  · rintro (state | state) <;> simp [plan, state]

/-- Inference is asked for only while the job executes without artifacts. -/
theorem plan_runInference {input : PlanInput}
    (planned : plan input = .runInference) :
    input.job.state = .executing ∧ input.artifacts = none ∧
      effectiveTier input = .commitment := by
  have supported := plan_supportedTier planned (by simp)
  have tier active : effectiveTier input = .commitment :=
    not_not.mp fun wrongTier => supported ⟨active, wrongTier⟩
  rw [plan, if_neg supported] at planned
  cases state : input.job.state <;> simp only [state, sign] at planned tier <;>
    try cases planned
  case assigned => split at planned <;> cases planned
  case executing =>
    cases artifacts : input.artifacts with
    | none => exact ⟨rfl, rfl, tier (by simp)⟩
    | some art =>
        simp only [artifacts] at planned
        repeat' split at planned
        all_goals cases planned
  case verifying =>
    repeat' split at planned
    all_goals cases planned

theorem plan_done {input : PlanInput} (planned : plan input = .done) :
    input.job.state = .completed := by
  rw [plan, if_neg (plan_supportedTier planned (by simp))] at planned
  cases state : input.job.state with
  | completed => rfl
  | _ =>
      simp only [state, sign] at planned
      repeat' split at planned
      all_goals cases planned

end NodeAgent.Lifecycle
