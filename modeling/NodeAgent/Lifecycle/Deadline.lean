import NodeAgent.Lifecycle.Plan

/-!
# The planner and the execution deadline

Every execution-phase request advertises the job's execution deadline as its
expiry, but only the reveal compares it with the head.  `RunsLate` collects the
inputs at which another branch starts work after the deadline.
-/

namespace NodeAgent.Lifecycle

open Chainio

section Respects

variable [HashFunctions]

/-- A signed request has not expired, and no work starts on an assigned or
executing job past its deadline. -/
structure RespectsDeadline (input : PlanInput) : Prop where
  unexpired : ∀ request, plan input = .sign request →
    request.expiresBlock ≠ 0 → input.currentBlock ≤ request.expiresBlock
  stops : input.job.state = .assigned ∨ input.job.state = .executing →
    input.job.executionDeadlineBlock ≠ 0 →
    input.job.executionDeadlineBlock < input.currentBlock →
    (∀ request, plan input ≠ .sign request) ∧ plan input ≠ .runInference

end Respects

/-- A supported job of mine is past its deadline before its commitment is
made. -/
structure RunsLate (input : PlanInput) : Prop where
  deadline : input.job.executionDeadlineBlock ≠ 0
  late : input.job.executionDeadlineBlock < input.currentBlock
  tier : effectiveTier input = .commitment
  mine : input.me = input.job.assignedProvider
  uncommitted : input.job.state = .assigned ∨
    input.job.state = .executing ∧
      (input.artifacts = none ∨ input.committed = false)

theorem requestFor_expiresBlock {intent : WriteIntent} {calldata : Bytes}
    {input : PlanInput}
    (expires : (requestFor intent calldata input).expiresBlock ≠ 0) :
    intent ≠ .completeJob ∧
      (requestFor intent calldata input).expiresBlock =
        input.job.executionDeadlineBlock := by
  cases intent <;> simp_all [requestFor]

section Hashes

variable [HashFunctions]

theorem Signs.runsLate {input : PlanInput} {request : SignatureRequest}
    (signs : Signs input request)
    (tier : effectiveTier input = .commitment)
    (mine : input.me = input.job.assignedProvider)
    (deadline : input.job.executionDeadlineBlock ≠ 0)
    (late : input.job.executionDeadlineBlock < input.currentBlock)
    (unfinished : request.intent ≠ .completeJob) : RunsLate input := by
  refine ⟨deadline, late, tier, mine, ?_⟩
  cases signs with
  | startExecution state => exact Or.inl state
  | submitCommitment state artifacts committed =>
      exact Or.inr ⟨state, Or.inr committed⟩
  | submitResult state artifacts committed inTime afterCommit =>
      exact absurd inTime (not_le.mpr late)
  | completeJob state window => exact absurd rfl unfinished

/-- Work that starts late: a request with an expired deadline, or inference. -/
theorem RunsLate.starts {input : PlanInput} (runs : RunsLate input) :
    (∃ request, plan input = .sign request ∧
        request.expiresBlock = input.job.executionDeadlineBlock) ∨
      plan input = .runInference := by
  have supported : ¬((input.job.state = .assigned ∨
      input.job.state = .executing ∨ input.job.state = .verifying) ∧
      effectiveTier input ≠ .commitment) := by
    intro unsupported
    exact unsupported.2 runs.tier
  rw [plan, if_neg supported]
  rcases runs.uncommitted with assigned | ⟨executing, pending⟩
  · simp only [assigned]
    rw [if_neg (not_not.mpr runs.mine)]
    exact Or.inl ⟨_, rfl, rfl⟩
  · simp only [executing]
    rw [if_neg (not_not.mpr runs.mine)]
    cases artifacts : input.artifacts with
    | none => exact Or.inr rfl
    | some art =>
        have uncommitted : input.committed = false := by
          simpa [artifacts] using pending
        simp only [uncommitted, Bool.not_false, if_true]
        exact Or.inl ⟨_, rfl, rfl⟩

theorem RunsLate.not_respects {input : PlanInput} (runs : RunsLate input) :
    ¬RespectsDeadline input := by
  intro respects
  have active : input.job.state = .assigned ∨
      input.job.state = .executing := runs.uncommitted.imp_right And.left
  obtain ⟨unsigned, idle⟩ := respects.stops active runs.deadline runs.late
  rcases runs.starts with ⟨request, signed, -⟩ | infers
  · exact unsigned request signed
  · exact idle infers

/-- The planner respects the deadline exactly when it does not run late. -/
theorem plan_respectsDeadline_iff (input : PlanInput) :
    RespectsDeadline input ↔ ¬RunsLate input := by
  constructor
  · intro respects runs
    exact runs.not_respects respects
  · intro inTime
    constructor
    · intro request planned expires
      obtain ⟨signs, tier, mine⟩ := plan_signs planned
      by_contra late
      apply inTime
      have advertised : request.intent ≠ .completeJob ∧
          request.expiresBlock = input.job.executionDeadlineBlock := by
        cases signs <;> exact requestFor_expiresBlock expires
      obtain ⟨unfinished, deadline⟩ := advertised
      rw [deadline] at expires late
      exact signs.runsLate tier mine expires (not_le.mp late) unfinished
    · intro active deadline late
      constructor
      · intro request planned
        obtain ⟨signs, tier, mine⟩ := plan_signs planned
        apply inTime
        apply signs.runsLate tier mine deadline late
        cases signs with
        | completeJob state window => simp [state] at active
        | startExecution state => exact nofun
        | submitCommitment state artifacts committed =>
            exact nofun
        | submitResult state artifacts committed inTime afterCommit =>
            exact nofun
      · intro infers
        obtain ⟨state, artifacts, tier⟩ := plan_runInference infers
        exact inTime ⟨deadline, late, tier, plan_mine (Or.inl infers),
          Or.inr ⟨state, Or.inl artifacts⟩⟩

end Hashes

/-- An assigned job, a thousand blocks after its execution deadline. -/
def overdueInput : PlanInput where
  job :=
    { id := 7
      requester := List.Vector.replicate 20 0
      modelHash := List.Vector.replicate 32 1
      maxPriceWei := 10 ^ 18
      tier := .commitment
      state := .assigned
      assignedProvider := List.Vector.replicate 20 0x22
      escrowWei := 10 ^ 18
      bidDeadlineBlock := 100
      executionDeadlineBlock := 1000
      createdAtBlock := 50
      bidCount := 1
      inputHash := some (List.Vector.replicate 32 0) }
  me := List.Vector.replicate 20 0x22
  currentBlock := 2000
  marketplace := List.Vector.replicate 20 0x11
  chainId := 40204
  committed := false
  artifacts := none
  gates := ⟨some .commitment, 0, 0, false⟩

theorem plan_startsOverdue :
    ¬∀ input, @RespectsDeadline sampleHashes input :=
  fun always => @RunsLate.not_respects sampleHashes overdueInput
    ⟨by decide, by decide, rfl, rfl, Or.inl rfl⟩ (always overdueInput)

end NodeAgent.Lifecycle
