import NodeAgent.Node.ExecutorPool
import NodeAgent.Node.Live
import NodeAgent.Node.StepOps

/-!
# Settlement writes and the on-chain gates

The executor's step on the live job view, while the chain moves between any two
of its operations.  What the step checked on torn reads still holds on chain
when the write is handed to the signer, because each gate only ever opens.
-/

namespace NodeAgent.Node

open Chainio Executor Interaction Lifecycle

/-- What the contracts hold, by contract address and job id.  A commitment is
recorded at a positive block that the head has reached, and a job that was
posted is filed under its own id. -/
structure Chain where
  head : Nat
  job : Address → Nat → Job
  commitmentSubmitted : Address → Nat → Bool
  commitmentBlock : Address → Nat → Nat
  resultVerifiedAt : Address → Nat → Nat
  disputeResolvedForProvider : Address → Nat → Bool
  ownId : ∀ marketplace jobId, (job marketplace jobId).state ≠ .posted →
    (job marketplace jobId).id = jobId
  recorded : ∀ verifier jobId, commitmentSubmitted verifier jobId = true →
    0 < commitmentBlock verifier jobId ∧ commitmentBlock verifier jobId ≤ head

namespace Chain

/-- The head does not fall, and what was set stays set. -/
structure Evolves (before after : Chain) : Prop where
  head : before.head ≤ after.head
  commitment : ∀ verifier jobId,
    before.commitmentSubmitted verifier jobId = true →
      after.commitmentSubmitted verifier jobId = true ∧
        after.commitmentBlock verifier jobId =
          before.commitmentBlock verifier jobId
  verified : ∀ marketplace jobId,
    before.resultVerifiedAt marketplace jobId ≠ 0 →
      after.resultVerifiedAt marketplace jobId =
        before.resultVerifiedAt marketplace jobId
  resolved : ∀ marketplace jobId,
    before.disputeResolvedForProvider marketplace jobId = true →
      after.disputeResolvedForProvider marketplace jobId = true

theorem Evolves.refl (chain : Chain) : chain.Evolves chain where
  head := le_refl _
  commitment _ _ submitted := ⟨submitted, rfl⟩
  verified _ _ _ := rfl
  resolved _ _ settled := settled

theorem Evolves.trans {first second third : Chain}
    (before : Evolves first second) (after : Evolves second third) :
    Evolves first third where
  head := before.head.trans after.head
  commitment verifier jobId submitted := by
    obtain ⟨kept, block⟩ := before.commitment verifier jobId submitted
    obtain ⟨keptAfter, blockAfter⟩ := after.commitment verifier jobId kept
    exact ⟨keptAfter, blockAfter.trans block⟩
  verified marketplace jobId set := by
    have kept := before.verified marketplace jobId set
    have keptAfter := after.verified marketplace jobId (kept ▸ set)
    exact keptAfter.trans kept
  resolved marketplace jobId settled :=
    after.resolved marketplace jobId
      (before.resolved marketplace jobId settled)

/-- The answers a read can get: a value is the chain's own, and any read can
fail.  A block number that decodes fits 64 bits. -/
def Answers (chain : Chain) : (read : LiveRead) → LiveAnswer read → Prop
  | .getJob marketplace jobId, answer =>
      ∀ job, answer = .ok job → job = chain.job marketplace jobId
  | .blockNumber, answer =>
      ∀ block, answer = .ok block → block = chain.head ∧ block < 2 ^ 64
  | .commitmentSubmitted verifier jobId, answer =>
      ∀ submitted, answer = .ok submitted →
        submitted = chain.commitmentSubmitted verifier jobId
  | .commitmentBlock verifier jobId, answer =>
      ∀ block, answer = .ok block →
        block = chain.commitmentBlock verifier jobId
  | .resultVerifiedAt marketplace jobId, answer =>
      ∀ block, answer = .ok block →
        block = chain.resultVerifiedAt marketplace jobId
  | .disputeResolvedForProvider marketplace jobId, answer =>
      ∀ resolved, answer = .ok resolved →
        resolved = chain.disputeResolvedForProvider marketplace jobId
  | .getProvider _ _, _ | .saltPerPflopHour _, _ | .isPriceStale _, _
  | .getModel _ _, _ | .estimate _, _ | .recordTier _ _, _ => True

end Chain

inductive LiveOp
  | read (read : LiveRead)
  | step (op : StepOp)

abbrev LiveOpAnswer : LiveOp → Type
  | .read read => LiveAnswer read
  | .step op => StepAnswer op

/-- The job view answers `resolve` by its reads. -/
def LiveJobView.handle (view : LiveJobView) :
    (op : StepOp) → Program LiveOp LiveOpAnswer (StepAnswer op)
  | .resolve jobId =>
      (view.resolve jobId).interp fun read => Program.perform (LiveOp.read read)
  | op => Program.perform (LiveOp.step op)

/-- The chain answers the reads; nothing is assumed of the other answers. -/
def Chain.AnswersStep (chain : Chain) :
    (op : LiveOp) → LiveOpAnswer op → Prop
  | .read read, answer => chain.Answers read answer
  | .step _, _ => True

/-- What the resolved values say about the chain from then on. -/
structure Resolved (view : LiveJobView) (jobId : Nat) (resolved : ResolvedJob)
    (chain : Chain) : Prop where
  ownId : resolved.job.state ≠ .posted → resolved.job.id = jobId
  block : resolved.currentBlock ≤ chain.head
  blockFits : resolved.currentBlock < 2 ^ 64
  submitted : resolved.committed = true →
    chain.commitmentSubmitted view.verifier jobId = true
  commitmentBlock : resolved.committed = true → resolved.job.id = jobId →
    chain.commitmentBlock view.verifier jobId = resolved.gates.commitmentBlock
  verified : resolved.gates.resultVerifiedAt ≠ 0 →
    chain.resultVerifiedAt view.marketplace resolved.job.id =
      resolved.gates.resultVerifiedAt
  disputeResolved : resolved.gates.disputeResolvedForProvider = true →
    chain.disputeResolvedForProvider view.marketplace resolved.job.id = true

/-- None of it is undone. -/
theorem Resolved.evolves {view : LiveJobView} {jobId : Nat}
    {resolved : ResolvedJob} {chain after : Chain}
    (here : Resolved view jobId resolved chain) (moved : chain.Evolves after) :
    Resolved view jobId resolved after where
  ownId := here.ownId
  block := here.block.trans moved.head
  blockFits := here.blockFits
  submitted committed :=
    (moved.commitment _ _ (here.submitted committed)).1
  commitmentBlock committed own :=
    (moved.commitment _ _ (here.submitted committed)).2.trans
      (here.commitmentBlock committed own)
  verified set := by
    have read := here.verified set
    exact (moved.verified _ _ (read.symm ▸ set)).trans read
  disputeResolved settled := moved.resolved _ _ (here.disputeResolved settled)

theorem commitmentBlock_read {verifier : Address} {jobId block : Nat}
    {committed : Bool} {start finish : Chain}
    (execution : Executes Chain.Evolves Chain.Answers start
      (if committed then
        Program.perform (LiveRead.commitmentBlock verifier jobId)
      else return .ok 0) (.ok block) finish) :
    start.Evolves finish ∧
      (committed = true → block = finish.commitmentBlock verifier jobId) := by
  cases committed with
  | false =>
      obtain ⟨-, rfl⟩ := executes_done.mp execution
      exact ⟨.refl start, nofun⟩
  | true =>
      obtain ⟨moved, read⟩ := executes_perform.mp execution
      exact ⟨moved, fun _ => read block rfl⟩

/-- A successful `resolve` over a moving chain. -/
theorem resolve_resolved {view : LiveJobView} {jobId : Nat}
    {resolved : ResolvedJob} {start finish : Chain}
    (execution : Executes Chain.Evolves Chain.Answers start
      (view.resolve jobId) (.ok resolved) finish) :
    Resolved view jobId resolved finish := by
  unfold LiveJobView.resolve at execution
  obtain ⟨job, atJob, jobRead, execution⟩ := executes_attempt execution
  obtain ⟨model, atModel, modelRead, execution⟩ := executes_attempt execution
  obtain ⟨block, atBlock, blockRead, execution⟩ := executes_attempt execution
  obtain ⟨committed, atCommitted, committedRead, execution⟩ :=
    executes_attempt execution
  obtain ⟨tier, atTier, tierRead, execution⟩ :=
    (executes_bind _ _).mp execution
  obtain ⟨commitBlock, atCommitBlock, commitBlockRead, execution⟩ :=
    executes_attempt execution
  obtain ⟨verifiedAt, atVerified, verifiedRead, execution⟩ :=
    executes_attempt execution
  obtain ⟨settled, atSettled, settledRead, execution⟩ :=
    executes_attempt execution
  obtain ⟨same, rfl⟩ := executes_done.mp execution
  cases same
  have jobValue := (executes_perform.mp jobRead).2 job rfl
  obtain ⟨blockValue, blockFits⟩ := (executes_perform.mp blockRead).2 block rfl
  obtain ⟨toCommitted, committedAnswer⟩ := executes_perform.mp committedRead
  obtain ⟨toTier, -⟩ := executes_perform.mp tierRead
  obtain ⟨toCommitBlock, commitBlockValue⟩ :=
    commitmentBlock_read commitBlockRead
  obtain ⟨toVerified, verifiedAnswer⟩ := executes_perform.mp verifiedRead
  obtain ⟨toSettled, settledAnswer⟩ := executes_perform.mp settledRead
  -- every value is carried from where it was read to the end
  have fromCommitBlock := toVerified.trans toSettled
  have fromCommitted := toTier.trans (toCommitBlock.trans fromCommitBlock)
  have fromBlock := toCommitted.trans fromCommitted
  have submitted (isCommitted : committed = true) :
      atCommitted.commitmentSubmitted view.verifier jobId = true :=
    (committedAnswer committed rfl).symm.trans isCommitted
  constructor
  · intro posted
    subst jobValue
    exact atJob.ownId _ _ posted
  · exact blockValue.trans_le fromBlock.head
  · exact blockFits
  · intro isCommitted
    exact (fromCommitted.commitment _ _ (submitted isCommitted)).1
  · intro isCommitted own
    simp only at own
    have here := ((toTier.trans toCommitBlock).commitment _ _
      (submitted isCommitted)).1
    simp only
    rw [commitBlockValue isCommitted, own]
    exact (fromCommitBlock.commitment _ _ here).2
  · intro set
    have value := verifiedAnswer verifiedAt rfl
    subst value
    exact toSettled.verified _ _ set
  · intro isSettled
    exact (settledAnswer settled rfl).symm.trans isSettled

section Requests

variable (request : SignatureRequest)

theorem background_avoids {α : Type} {program : StepProgram α}
    (background : program.Uses isBackground) :
    program.Avoids (.request request) :=
  background.avoids id

theorem signRequest_issues {planned : SignatureRequest}
    (issued : (signRequest planned).Issues (.request request)) :
    planned = request := by
  unfold signRequest at issued
  rcases issued with same | ⟨_, issued⟩
  · cases same
  rcases issued with same | ⟨answer, issued⟩
  · exact StepOp.request.inj same
  cases answer with
  | ok observed => cases issued
  | error error =>
      exact absurd issued
        (background_avoids request (recordError_background _))

theorem reloadArtifacts_committed {executor : JobExecutor}
    {resolved : ResolvedJob} {nonceSeed : Word}
    {progress reloaded : JobProgress}
    (returned : (executor.reloadArtifacts resolved nonceSeed progress).Returns
      (.ok reloaded)) : reloaded.committed = progress.committed := by
  unfold JobExecutor.reloadArtifacts at returned
  split at returned
  · obtain ⟨loaded, returned⟩ := returned
    cases loaded with
    | error error =>
        obtain ⟨_, returned⟩ := returned
        cases returned
    | ok found =>
        cases found with
        | some art =>
            cases returned
            rfl
        | none =>
            dsimp only at returned
            split at returned
            · obtain ⟨_, returned⟩ := returned
              cases returned
            · cases returned
              rfl
  · cases returned
    rfl

variable [HashFunctions]

theorem infer_avoids (ctx : JobContext) (progress : JobProgress)
    (nonceSeed : Word) :
    (Node.infer ctx progress nonceSeed).Avoids (.request request) := by
  unfold Node.infer
  apply Program.avoids_bind
    (background_avoids request (provisionModel_background ctx))
  intro provisioned
  cases provisioned with
  | error error => exact background_avoids request (failed_background _ _)
  | ok model =>
      apply Program.avoids_call (by nofun)
      intro inferred
      cases inferred with
      | error error => exact background_avoids request (failed_background _ _)
      | ok output =>
          apply Program.avoids_call (by nofun)
          intro elapsed
          apply Program.avoids_call (by nofun)
          intro _
          exact Program.avoids_done _ _

theorem runInference_avoids (ctx : JobContext) (progress : JobProgress)
    (nonceSeed : Word) :
    (runInference ctx progress nonceSeed).Avoids (.request request) := by
  simp only [runInference, Program.perform_bind]
  apply Program.avoids_call (by nofun)
  intro _
  apply Program.avoids_call (by nofun)
  intro max
  split
  · exact Program.avoids_call (by nofun) fun _ => Program.avoids_done _ _
  · split
    · exact background_avoids request (failed_background _ _)
    · exact infer_avoids request ctx progress nonceSeed

variable {request}

theorem driveJob_issues {ctx : JobContext} {progress : JobProgress}
    {nonceSeed : Word}
    (issued : (driveJob ctx progress nonceSeed).Issues (.request request)) :
    plan (planInput ctx progress) = .sign request := by
  unfold driveJob at issued
  cases planned : plan (planInput ctx progress) <;>
    simp only [planned] at issued
  case sign signed =>
    rcases (Program.issues_bind _ _ _).mp issued with here | ⟨_, _, done⟩
    · rw [signRequest_issues request here]
    · cases done
  case runInference =>
    exact absurd issued (runInference_avoids request ctx progress nonceSeed)
  case done => rcases issued with same | ⟨_, done⟩ <;> contradiction
  case abort => rcases issued with same | ⟨_, done⟩ <;> contradiction
  case idle => cases issued
  case wait => cases issued

/-- A step asks the signer for what the planner signs, on the job as it was
resolved. -/
theorem stepResolved_issues {executor : JobExecutor} {resolved : ResolvedJob}
    {progress : JobProgress}
    (issued : (executor.stepResolved resolved progress).Issues
      (.request request)) :
    ∃ (input : Bytes) (planned : JobProgress),
      planned.committed = resolved.committed ∧
        plan (planInput (executor.context resolved input) planned) =
          .sign request := by
  unfold JobExecutor.stepResolved at issued
  split at issued
  · cases issued
  rcases (Program.issues_bind _ _ _).mp issued with here | ⟨seeded, _, issued⟩
  · exact absurd here
      (background_avoids request (resolveNonce_background _ _))
  cases seeded with
  | error outcome => cases issued
  | ok nonceSeed =>
  rcases (Program.issues_bind _ _ _).mp issued with
    here | ⟨reload, reloads, issued⟩
  · exact absurd here
      (background_avoids request (reloadArtifacts_background _ _ _ _))
  cases reload with
  | error outcome => cases issued
  | ok planned =>
  rcases (Program.issues_bind _ _ _).mp issued with
    here | ⟨delivered, _, issued⟩
  · exact absurd here
      (background_avoids request (jobInput_background _ _ _))
  cases delivered with
  | error outcome => cases issued
  | ok input =>
  rcases (Program.issues_bind _ _ _).mp issued with here | ⟨_, _, issued⟩
  · exact ⟨input, planned, reloadArtifacts_committed reloads,
      driveJob_issues here⟩
  · exact absurd issued
      (background_avoids request (persist_background _ _ _))

end Requests

/-- What the contracts check for a write, for a job resolved as `resolved`. -/
def OnChainGate (view : LiveJobView) (jobId : Nat) (resolved : ResolvedJob)
    (chain : Chain) : WriteIntent → Prop
  | .startExecution => resolved.job.state = .assigned
  | .submitCommitment =>
      resolved.job.state = .executing ∧ resolved.committed = false
  | .submitResult =>
      resolved.job.state = .executing ∧
        chain.commitmentSubmitted view.verifier jobId = true ∧
        chain.commitmentBlock view.verifier jobId < chain.head ∧
        resolved.currentBlock ≤ resolved.job.executionDeadlineBlock
  | .completeJob =>
      resolved.job.state = .verifying ∧
        (chain.disputeResolvedForProvider view.marketplace jobId = true ∨
          (chain.resultVerifiedAt view.marketplace jobId ≠ 0 ∧
            chain.resultVerifiedAt view.marketplace jobId +
              DISPUTE_WINDOW_BLOCKS ≤ chain.head))
  | .claimRewards | .bidOnJob | .heartbeat => False

theorem handle_issues {view : LiveJobView} {op target : StepOp}
    (issued : (view.handle op).Issues (.step target)) : op = target := by
  cases op with
  | resolve jobId =>
      obtain ⟨read, -, handled⟩ := Program.issues_interp _ _ _ issued
      rcases handled with same | ⟨_, later⟩
      · cases same
      · cases later
  | _ =>
      rcases issued with same | ⟨_, later⟩
      · exact LiveOp.step.inj same
      · cases later

section Hashes

variable [HashFunctions]

theorem signs_posted {input : PlanInput} {request : SignatureRequest}
    (signs : Signs input request) : input.job.state ≠ .posted := by
  cases signs <;> simp_all

theorem signs_jobId {input : PlanInput} {request : SignatureRequest}
    (signs : Signs input request) :
    (request.calldata.drop 4).take 32 = (wordFromU128 input.job.id).toList := by
  cases signs with
  | startExecution state =>
      simp [requestFor, encodeStartExecution, encodeCall]
  | submitCommitment state artifacts uncommitted =>
      simp [requestFor, encodeSubmitCommitment, encodeCall]
  | submitResult state artifacts committed inTime afterCommit =>
      simp [requestFor, encodeSubmitResult]
  | completeJob state window =>
      simp [requestFor, encodeCompleteJob, encodeCall]

/-- What the planner checked on the resolved values holds on the chain they
were read from, and from then on. -/
theorem signs_gate {view : LiveJobView} {jobId : Nat} {resolved : ResolvedJob}
    {chain : Chain} (here : Resolved view jobId resolved chain)
    {input : PlanInput} (job : input.job = resolved.job)
    (block : input.currentBlock = resolved.currentBlock)
    (committed : input.committed = resolved.committed)
    (gates : input.gates = resolved.gates) {request : SignatureRequest}
    (signs : Signs input request) :
    OnChainGate view jobId resolved chain request.intent := by
  have posted := signs_posted signs
  rw [job] at posted
  have ownId := here.ownId posted
  cases signs with
  | startExecution state => exact job ▸ state
  | submitCommitment state artifacts uncommitted =>
      exact ⟨job ▸ state, committed ▸ uncommitted⟩
  | submitResult state artifacts isCommitted inTime afterCommit =>
      rw [job] at state
      rw [committed] at isCommitted
      rw [block, gates] at afterCommit
      rw [block, job] at inTime
      have submitted := here.submitted isCommitted
      have recorded := chain.recorded _ _ submitted
      have sameBlock := here.commitmentBlock isCommitted ownId
      rw [sameBlock] at recorded
      have after := afterCommit (Nat.ne_of_gt recorded.1)
      refine ⟨state, submitted, ?_, inTime⟩
      rw [sameBlock]
      exact after.trans_le here.block
  | completeJob state window =>
      rw [job] at state
      rw [block, gates] at window
      refine ⟨state, ?_⟩
      rcases window with settled | ⟨verified, elapsed⟩
      · left
        exact ownId ▸ here.disputeResolved settled
      · right
        have sameBlock := here.verified verified
        rw [ownId] at sameBlock
        rw [sameBlock]
        have fits : resolved.currentBlock < FixedWidth.maxValue 128 :=
          here.blockFits.trans (by decide)
        have window := FixedWidth.add_le_of_saturatingAdd_le fits elapsed
        exact ⟨verified, window.trans here.block⟩

/-- A request that a step on the live view hands to the signer comes from a
resolved job, through the planner. -/
theorem liveStep_issues {view : LiveJobView} {executor : JobExecutor}
    {progress : JobProgress} {request : SignatureRequest} {start finish : Chain}
    (issued : IssuedAt Chain.Evolves Chain.AnswersStep
      (.step (.request request)) finish start
      ((executor.step progress).interp view.handle)) :
    ∃ resolved read,
      Executes Chain.Evolves Chain.Answers start
        (view.resolve executor.jobId) (.ok resolved) read ∧
      read.Evolves finish ∧
      (executor.stepResolved resolved progress).Issues (.request request) := by
  rcases IssuedAt.of_bind issued with
    resolving | ⟨answer, read, execution, issued⟩
  · have same : StepOp.resolve executor.jobId = .request request :=
      handle_issues resolving.issues
    cases same
  obtain ⟨op, issues, handled⟩ := Program.issues_interp _ _ _ issued.issues
  obtain rfl := handle_issues handled
  have moved : read.Evolves finish :=
    issued.evolved fun before after => before.trans after
  cases answer with
  | error error =>
      have failed := failed_background
        s!"resolve job {executor.jobId}: {error}"
        fun outcome => (outcome, progress)
      exact absurd issues (background_avoids request failed)
  | ok resolved =>
      refine ⟨resolved, read, ?_, moved, issues⟩
      apply execution.of_interp
      intro start op answer finish performed
      exact executes_perform.mp performed

end Hashes

/-- Job 7 is executing, and its commitment landed in block 150. -/
def committedChain (head : Nat) (reached : 150 ≤ head) : Chain where
  head := head
  job _ jobId := { sampleJob with id := jobId }
  commitmentSubmitted _ _ := true
  commitmentBlock _ _ := 150
  resultVerifiedAt _ _ := 0
  disputeResolvedForProvider _ _ := false
  ownId _ _ _ := rfl
  recorded _ _ _ := ⟨by decide, reached⟩

def sampleView : LiveJobView where
  marketplace := sampleExecutor.marketplace
  modelRegistry := List.Vector.replicate 20 0x44
  verifier := List.Vector.replicate 20 0x55
  weightsSha256 := none

def sampleModel : ModelInfo where
  owner := sampleProvider
  ipfsCid := sampleResolved.ipfsCid
  isActive := true

/-- An executor that keeps its nonce and artifacts in memory only. -/
def revealingExecutor : JobExecutor :=
  { sampleExecutor with nonceStore := none }

def revealingProgress : JobProgress :=
  { JobProgress.fresh with artifacts := some ⟨sampleNonce, sampleNonce, []⟩ }

def revealingInput : PlanInput where
  job := sampleJob
  me := sampleProvider
  currentBlock := 160
  marketplace := sampleExecutor.marketplace
  chainId := 40204
  committed := true
  artifacts := revealingProgress.artifacts
  gates := ⟨some .commitment, 150, 0, false⟩

def revealedResult : SignatureRequest :=
  requestFor .submitResult
    (@encodeSubmitResult sampleHashes 7 sampleNonce.toList []) revealingInput

/-- The block number is read at block 160, the rest at block 200. -/
theorem revealedResult_issued :
    IssuedAt Chain.Evolves Chain.AnswersStep (.step (.request revealedResult))
      (committedChain 200 (by decide)) (committedChain 160 (by decide))
      ((@JobExecutor.step sampleHashes revealingExecutor
        revealingProgress).interp sampleView.handle) := by
  have before := Chain.Evolves.refl (committedChain 160 (by decide))
  have after := Chain.Evolves.refl (committedChain 200 (by decide))
  have moved : (committedChain 160 (by decide)).Evolves
      (committedChain 200 (by decide)) :=
    ⟨by decide, fun _ _ _ => ⟨rfl, rfl⟩, fun _ _ _ => rfl, fun _ _ => id⟩
  have own {α : Type} (value : α) :
      ∀ read, (.ok value : Except String α) = .ok read → read = value :=
    fun _ same => (Except.ok.inj same).symm
  refine .later (.ok sampleJob) before (own _) ?_
  refine .later (.ok sampleModel) before trivial ?_
  have block : ∀ read, (.ok 160 : Except String Nat) = .ok read →
      read = 160 ∧ read < 2 ^ 64 := by
    intro read same
    cases same
    decide
  refine .later (.ok 160) before block ?_
  refine .later (.ok true) moved (own _) ?_
  refine .later (.ok .commitment) after trivial ?_
  refine .later (.ok 150) after (own _) ?_
  refine .later (.ok 0) after (own _) ?_
  refine .later (.ok false) after (own _) ?_
  refine .later () after trivial ?_
  exact .here after

end NodeAgent.Node
