import NodeAgent.Bidder.Exact
import NodeAgent.Node.Eligibility

/-!
# The bidder and the planner agree on the tier

A bid is made only below 10 SALT and on an input that is bound to the chain.
The planner derives the tier of the same job from another crate's constants,
and the step checks the binding once more: neither refuses a job that was bid
on.
-/

namespace NodeAgent.Node

open Chainio Executor Interaction Lifecycle

/-- The terms that a job keeps for its whole life. -/
structure SameTerms (posted later : Job) : Prop where
  tier : later.tier = posted.tier
  price : later.maxPriceWei = posted.maxPriceWei
  inputHash : later.inputHash = posted.inputHash

/-- The tier that `ComputeVerifier.configureJob` records for a job. -/
def configuredTier (job : Job) : VerificationTier :=
  if job.tier = .commitment ∧
      job.maxPriceWei > COMMITMENT_TIER_VALUE_THRESHOLD_WEI then .zkProof
  else job.tier

theorem evaluate_bid {job : Bidder.Job} {oracle : Bidder.ComputePricingOracle}
    {settings : Bidder.Settings} {caps : Bidder.Caps}
    {jobId priceWei costWei : Nat}
    (bids : Bidder.evaluate job oracle settings caps =
      .bid jobId priceWei costWei) :
    job.maxPriceWei < Bidder.COMMITMENT_CAP_WEI ∧ job.tier = .commitment := by
  rw [Bidder.evaluate_bid_iff] at bids
  exact ⟨bids.2.capped, bids.2.tier⟩

theorem mapTier_commitment {tier : VerificationTier}
    (mapped : mapTier tier = .commitment) : tier = .commitment := by
  cases tier with
  | commitment => rfl
  | zkProof => cases mapped
  | tee => cases mapped

theorem bidExpiresBlock_bindable {job : Job} {head expires : Nat}
    (biddable : bidExpiresBlock job head = some expires) :
    job.inputHash.isSome := by
  unfold bidExpiresBlock at biddable
  split at biddable
  case isTrue openForBids => exact openForBids.2.1
  case isFalse closed => cases biddable

theorem configuredTier_commitment {job : Job} (tier : job.tier = .commitment)
    (capped : job.maxPriceWei < Bidder.COMMITMENT_CAP_WEI) :
    configuredTier job = .commitment := by
  have below : ¬job.maxPriceWei > COMMITMENT_TIER_VALUE_THRESHOLD_WEI := by
    simp only [Bidder.COMMITMENT_CAP_WEI, Bidder.ONE_SALT_WEI] at capped
    simp only [COMMITMENT_TIER_VALUE_THRESHOLD_WEI]
    omega
  rw [configuredTier, if_neg fun upgraded => below upgraded.2]
  exact tier

theorem effectiveTier_configured {input : PlanInput}
    (gate : input.gates.effectiveTier = none ∨
      input.gates.effectiveTier = some (configuredTier input.job)) :
    effectiveTier input = configuredTier input.job := by
  rcases gate with unread | read
  · simp only [effectiveTier, unread, configuredTier]
  · simp only [effectiveTier, read]

/-- The refusal of an input that the chain record does not bind. -/
def unbindableInput (jobId : Nat) : StepOutcome :=
  .error s!"job {jobId}: on-chain inputHash is not a 32-byte keccak256 binding; refusing to execute an unbindable input (PBA-L6b-021)"

/-- The step does not end in this refusal. -/
def Proceeds (jobId : Nat) (outcome : StepOutcome) : Prop :=
  outcome ≠ unbindableInput jobId

/-- A part of the step that may stop it does not stop it with the refusal. -/
def ProceedsOr {α : Type} (jobId : Nat) : Except StepOutcome α → Prop
  | .error outcome => Proceeds jobId outcome
  | .ok _ => True

theorem toString_string (text : String) : toString text = text := rfl

variable {jobId : Nat}

theorem unbindableInput_starts (jobId : Nat) :
    ∃ text rest, unbindableInput jobId = .error text ∧
      text.toList = 'j' :: 'o' :: 'b' :: ' ' ::
        (Nat.toDigits 10 jobId ++ ':' :: ' ' :: 'o' :: 'n' :: '-' :: rest) :=
  ⟨_, _, rfl, by simp [toString_string]; rfl⟩

theorem proceeds_error {message : String}
    (other : ∀ rest, message.toList ≠ 'j' :: 'o' :: 'b' :: ' ' ::
      (Nat.toDigits 10 jobId ++ ':' :: ' ' :: 'o' :: 'n' :: '-' :: rest)) :
    Proceeds jobId (.error message) := by
  obtain ⟨text, rest, isError, starts⟩ := unbindableInput_starts jobId
  intro same
  rw [isError] at same
  cases same
  exact other rest starts

theorem recordError_proceeds {message : String}
    (other : Proceeds jobId (.error message)) :
    (recordError message).Ensures (Proceeds jobId) :=
  Program.ensures_call fun _ => Program.ensures_done other

theorem failed_proceeds {α : Type} {message : String}
    (other : Proceeds jobId (.error message)) :
    ((recordError message).bind fun outcome =>
      .done (.error outcome : Except StepOutcome α)).Ensures
        (ProceedsOr jobId) := by
  refine Program.ensures_bind (recordError_proceeds other) ?_
  intro outcome proceeds
  exact Program.ensures_done proceeds

theorem failedWith_proceeds {message : String} (progress : JobProgress)
    (other : Proceeds jobId (.error message)) :
    ((recordError message).bind fun outcome =>
      .done (outcome, progress)).Ensures fun result =>
        Proceeds jobId result.1 := by
  refine Program.ensures_bind (recordError_proceeds other) ?_
  intro outcome proceeds
  exact Program.ensures_done proceeds

theorem resolveNonce_proceeds (executor : JobExecutor) (committed : Bool) :
    (executor.resolveNonce committed).Ensures (ProceedsOr executor.jobId) := by
  unfold JobExecutor.resolveNonce
  split
  · exact Program.ensures_done trivial
  · apply Program.ensures_call
    intro loaded
    cases loaded with
    | error error =>
        apply failed_proceeds
        apply proceeds_error
        simp [toString_string]
    | ok found =>
        cases found with
        | some nonce => exact Program.ensures_done trivial
        | none =>
            split
            · apply failed_proceeds
              apply proceeds_error
              simp [toString_string]
            · apply Program.ensures_call
              intro minted
              cases minted with
              | error error =>
                  apply failed_proceeds
                  apply proceeds_error
                  simp [toString_string]
              | ok nonce => exact Program.ensures_done trivial

theorem reloadArtifacts_proceeds (executor : JobExecutor)
    (resolved : ResolvedJob) (nonceSeed : Word) (progress : JobProgress) :
    (executor.reloadArtifacts resolved nonceSeed progress).Ensures
      (ProceedsOr executor.jobId) := by
  unfold JobExecutor.reloadArtifacts
  split
  · apply Program.ensures_call
    intro loaded
    cases loaded with
    | error error =>
        apply failed_proceeds
        apply proceeds_error
        simp [toString_string]
    | ok found =>
        cases found with
        | some art => exact Program.ensures_done trivial
        | none =>
            split
            · apply failed_proceeds
              apply proceeds_error
              simp [toString_string]
            · exact Program.ensures_done trivial
  · exact Program.ensures_done trivial

theorem persist_proceeds (executor : JobExecutor) {outcome : StepOutcome}
    (progress : JobProgress) (proceeds : Proceeds executor.jobId outcome) :
    (executor.persist outcome progress).Ensures fun result =>
      Proceeds executor.jobId result.1 := by
  unfold JobExecutor.persist
  split
  · apply Program.ensures_call
    intro saved
    cases saved with
    | ok saved => exact Program.ensures_done proceeds
    | error error =>
        apply failedWith_proceeds
        apply proceeds_error
        simp [toString_string]
  · exact Program.ensures_done proceeds

section Hashes

variable [HashFunctions]

theorem plan_tierSupported {input : PlanInput}
    (tier : effectiveTier input = .commitment) :
    plan input ≠ .abort .unsupportedTier := by
  intro refused
  rw [plan, if_neg fun unsupported => unsupported.2 tier] at refused
  cases state : input.job.state <;> simp only [state, sign] at refused <;>
    repeat' split at refused
  all_goals cases refused

/-- An input hash that is bound is never refused as unbindable. -/
theorem jobInput_proceeds (executor : JobExecutor) {resolved : ResolvedJob}
    (bound : resolved.job.inputHash.isSome) (progress : JobProgress) :
    (executor.jobInput resolved progress).Ensures
      (ProceedsOr executor.jobId) := by
  obtain ⟨hash, posted⟩ := Option.isSome_iff_exists.mp bound
  simp only [JobExecutor.jobInput, posted, Program.perform_bind]
  split
  · apply Program.ensures_call
    intro delivered
    cases delivered with
    | error error =>
        apply failed_proceeds
        apply proceeds_error
        simp [toString_string]
    | ok found =>
        cases found with
        | none =>
            apply Program.ensures_done
            simp [ProceedsOr, Proceeds, unbindableInput]
        | some bytes =>
            by_cases matching : keccak256Bytes bytes = hash
            · simp only [if_pos matching]
              exact Program.ensures_done trivial
            · simp only [if_neg matching]
              apply failed_proceeds
              apply proceeds_error
              simp [toString_string]
  · exact Program.ensures_done trivial

theorem infer_proceeds (ctx : JobContext) (progress : JobProgress)
    (nonceSeed : Word) :
    (infer ctx progress nonceSeed).Ensures fun result =>
      Proceeds jobId result.1 := by
  refine Program.ensures_bind (Program.ensures_true _) ?_
  intro provisioned _
  cases provisioned with
  | error error =>
      apply failedWith_proceeds
      apply proceeds_error
      simp [toString_string]
  | ok model =>
      apply Program.ensures_call
      intro inferred
      cases inferred with
      | error error =>
          apply failedWith_proceeds
          apply proceeds_error
          simp [toString_string]
      | ok output =>
          apply Program.ensures_call
          intro elapsed
          apply Program.ensures_call
          intro recorded
          apply Program.ensures_done
          simp [Proceeds, unbindableInput]

theorem runInference_proceeds (ctx : JobContext) (progress : JobProgress)
    (nonceSeed : Word) :
    (runInference ctx progress nonceSeed).Ensures fun result =>
      Proceeds jobId result.1 := by
  unfold runInference
  simp only [Program.perform_bind]
  apply Program.ensures_call
  intro marked
  apply Program.ensures_call
  intro max
  split
  · apply Program.ensures_call
    intro recorded
    apply Program.ensures_done
    simp [Proceeds, unbindableInput]
  · split
    · apply failedWith_proceeds
      apply proceeds_error
      simp [toString_string]
    · exact infer_proceeds ctx progress nonceSeed

theorem driveJob_proceeds (jobId : Nat) (ctx : JobContext)
    (progress : JobProgress) (nonceSeed : Word) :
    (driveJob ctx progress nonceSeed).Ensures fun result =>
      Proceeds jobId result.1 := by
  unfold driveJob
  split
  case h_1 => exact runInference_proceeds ctx progress nonceSeed
  case h_2 request planned =>
    apply Program.ensures_call
    intro marked
    apply Program.ensures_call
    intro observed
    cases observed with
    | ok observed =>
        apply Program.ensures_done
        simp [Proceeds, unbindableInput]
    | error error =>
        apply failedWith_proceeds
        apply proceeds_error
        simp [toString_string]
  case h_3 =>
    apply Program.ensures_call
    intro idle
    apply Program.ensures_done
    simp [Proceeds, unbindableInput]
  case h_6 =>
    apply Program.ensures_call
    intro recorded
    apply Program.ensures_done
    simp [Proceeds, unbindableInput]
  all_goals
    apply Program.ensures_done
    simp [Proceeds, unbindableInput]

theorem stepResolved_proceeds (executor : JobExecutor)
    {resolved : ResolvedJob} (bound : resolved.job.inputHash.isSome)
    (progress : JobProgress) :
    (executor.stepResolved resolved progress).Ensures fun result =>
      Proceeds executor.jobId result.1 := by
  unfold JobExecutor.stepResolved
  split
  · apply Program.ensures_done
    simp [Proceeds, unbindableInput]
  · refine Program.ensures_bind (resolveNonce_proceeds executor _) ?_
    intro seeded proceeds
    cases seeded with
    | error outcome => exact Program.ensures_done proceeds
    | ok nonceSeed =>
    refine Program.ensures_bind (reloadArtifacts_proceeds executor _ _ _) ?_
    intro reloaded proceeds
    cases reloaded with
    | error outcome => exact Program.ensures_done proceeds
    | ok planned =>
    refine Program.ensures_bind (jobInput_proceeds executor bound planned) ?_
    intro delivered proceeds
    cases delivered with
    | error outcome => exact Program.ensures_done proceeds
    | ok input =>
    refine Program.ensures_bind (driveJob_proceeds executor.jobId _
      planned nonceSeed) ?_
    intro driven proceeds
    exact persist_proceeds executor driven.2 proceeds

/-- A job that the agent bid on is refused by neither the planner's tier gate
nor the step's input binding, in whatever state it is read later. -/
theorem bid_isNeverRefused {job : Job} {head secsPerBlock : Nat}
    {pflopHours execSecs : Nat} {oracle : Bidder.ComputePricingOracle}
    {settings : Bidder.Settings} {caps : Bidder.Caps} {expires : Nat}
    {jobId priceWei costWei : Nat}
    (biddable : bidExpiresBlock job head = some expires)
    (bids : Bidder.evaluate
      (mapJob job head secsPerBlock pflopHours execSecs) oracle settings caps =
        .bid jobId priceWei costWei)
    {later : Job} (same : SameTerms job later) :
    (∀ input : PlanInput, input.job = later →
      (input.gates.effectiveTier = none ∨
        input.gates.effectiveTier = some (configuredTier later)) →
      plan input ≠ .abort .unsupportedTier) ∧
    ∀ resolved : ResolvedJob, resolved.job = later →
      ∀ (executor : JobExecutor) (progress : JobProgress) result,
        (executor.stepResolved resolved progress).Returns result →
        result.1 ≠ unbindableInput executor.jobId := by
  obtain ⟨capped, mapped⟩ := evaluate_bid bids
  have tier : later.tier = .commitment :=
    same.tier.trans (mapTier_commitment mapped)
  have below : later.maxPriceWei < Bidder.COMMITMENT_CAP_WEI :=
    same.price.symm ▸ capped
  constructor
  · rintro input rfl gate
    apply plan_tierSupported
    rw [effectiveTier_configured gate]
    exact configuredTier_commitment tier below
  · rintro resolved rfl executor progress
    apply stepResolved_proceeds executor
    rw [same.inputHash]
    exact bidExpiresBlock_bindable biddable

end Hashes

/-- The open job of one minute's work, once it executes. -/
theorem bid_isNeverRefused_sample :
    (∀ input : PlanInput, input.job = sampleJob →
      (input.gates.effectiveTier = none ∨
        input.gates.effectiveTier = some (configuredTier sampleJob)) →
      @plan sampleHashes input ≠ .abort .unsupportedTier) ∧
    ∀ resolved : ResolvedJob, resolved.job = sampleJob →
      ∀ (executor : JobExecutor) (progress : JobProgress) result,
        (@JobExecutor.stepResolved sampleHashes executor resolved
          progress).Returns result →
        result.1 ≠ unbindableInput executor.jobId :=
  @bid_isNeverRefused sampleHashes (openJob sampleJob.modelHash) 60 2 (10 ^ 16)
    60 _ alwaysOn (mapCaps sampleProfile) 100 7 _ _ rfl
    (openJob_decision sampleJob.modelHash) sampleJob ⟨rfl, rfl, rfl⟩

end NodeAgent.Node
