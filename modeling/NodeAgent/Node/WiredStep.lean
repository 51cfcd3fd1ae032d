import NodeAgent.Node.TornViews

/-!
# The step over JSON-RPC

The executor's step with the job view on a node.  The node may fail in any way
but never lies, and the chain moves between any two exchanges.  What the step
hands to the signer is for a job that the chain had in the write's state when the
step read it; what only ever opens is still open when the write is handed over.
-/

namespace NodeAgent.Node

open Chainio Executor Interaction Lifecycle

/-- A chain, and what a node that keeps up with it serves. -/
structure ServedChain where
  chain : Chain
  ledger : Ledger
  head : ledger.head.toNat = chain.head
  job : ∀ (marketplace : Address) (jobId : U128),
    JobTuple.record (ledger.held marketplace (.getJob jobId)) =
      chain.job marketplace jobId
  submitted : ∀ (verifier : Address) (jobId : U128),
    VerificationRecord.commitmentSubmitted
        (ledger.held verifier (.getRecord jobId)) =
      chain.commitmentSubmitted verifier jobId
  commitmentBlock : ∀ (verifier : Address) (jobId : U128),
    ledger.held verifier (.commitmentBlock jobId) =
      chain.commitmentBlock verifier jobId
  verifiedAt : ∀ (marketplace : Address) (jobId : U128),
    ledger.held marketplace (.resultVerifiedAt jobId) =
      chain.resultVerifiedAt marketplace jobId
  disputeResolved : ∀ (marketplace : Address) (jobId : U128),
    ledger.held marketplace (.disputeResolvedForProvider jobId) =
      chain.disputeResolvedForProvider marketplace jobId

namespace ServedChain

/-- Only the chain's own rules bind how it moves. -/
def Evolves (before after : ServedChain) : Prop :=
  before.chain.Evolves after.chain

/-- The ledger's values are the chain's. -/
theorem answers (world : ServedChain) (read : LiveRead)
    (answer : LiveAnswer read)
    (answered : ledgerAnswers ServedChain.ledger world read answer) :
    world.chain.Answers read answer := by
  cases read with
  | getJob marketplace jobId =>
      intro job same
      obtain ⟨-, fits, value⟩ := answered job same
      exact value.trans (world.job marketplace ⟨jobId, fits⟩)
  | blockNumber =>
      intro block same
      have value := answered block same
      exact ⟨value.trans world.head, value ▸ world.ledger.head.toNat_lt⟩
  | commitmentSubmitted verifier jobId =>
      intro submitted same
      obtain ⟨fits, value⟩ := answered submitted same
      exact value.trans (world.submitted verifier ⟨jobId, fits⟩)
  | commitmentBlock verifier jobId =>
      intro block same
      obtain ⟨fits, value⟩ := answered block same
      exact value.trans (world.commitmentBlock verifier ⟨jobId, fits⟩)
  | resultVerifiedAt marketplace jobId =>
      intro block same
      obtain ⟨fits, value⟩ := answered block same
      exact value.trans (world.verifiedAt marketplace ⟨jobId, fits⟩)
  | disputeResolvedForProvider marketplace jobId =>
      intro resolved same
      obtain ⟨fits, value⟩ := answered resolved same
      exact value.trans (world.disputeResolved marketplace ⟨jobId, fits⟩)
  | getProvider | saltPerPflopHour | isPriceStale | getModel | estimate
  | recordTier => trivial

end ServedChain

/-- What a step over the wire does. -/
inductive WiredOp
  | wire (op : WireOp)
  | step (op : StepOp)

abbrev WiredAnswer : WiredOp → Type
  | .wire op => WireAnswer op
  | .step op => StepAnswer op

section Step

variable [WireCrates] [HashFunctions]

/-- The job view answers `resolve` by its exchanges. -/
def LiveJobView.wired (view : LiveJobView) (client : RpcClient) :
    (op : StepOp) → Program WiredOp WiredAnswer (StepAnswer op)
  | .resolve jobId =>
      ((view.resolve jobId).interp (wire client)).interp fun op =>
        Program.perform (WiredOp.wire op)
  | op => Program.perform (WiredOp.step op)

/-- A node that never lies answers the exchanges; nothing is assumed of the
other answers. -/
def ServedChain.Answer (world : ServedChain) :
    (op : WiredOp) → WiredAnswer op → Prop
  | .wire op, answer => truthfulNode ServedChain.ledger world op answer
  | .step _, _ => True

theorem wired_issues {client : RpcClient} {view : LiveJobView}
    {op target : StepOp} (issued : (view.wired client op).Issues
      (.step target)) : op = target := by
  cases op with
  | resolve jobId =>
      obtain ⟨exchange, -, handled⟩ := Program.issues_interp _ _ _ issued
      rcases handled with same | ⟨_, later⟩
      · cases same
      · cases later
  | _ =>
      rcases issued with same | ⟨_, later⟩
      · exact WiredOp.step.inj same
      · cases later

/-- The job view over the wire reads the ledger. -/
theorem wired_reads (pinned : ReadsPinned) {client : RpcClient}
    {view : LiveJobView} {jobId : Nat} (fits : jobId < 2 ^ 128)
    {result : Except String ResolvedJob} {start finish : ServedChain}
    (execution : Executes ServedChain.Evolves ServedChain.Answer start
      (view.wired client (.resolve jobId)) result finish) :
    Executes ServedChain.Evolves (ledgerAnswers ServedChain.ledger) start
      (view.resolve jobId) result finish := by
  have exchanges : Executes ServedChain.Evolves
      (truthfulNode ServedChain.ledger) start
      ((view.resolve jobId).interp (wire client)) result finish := by
    apply execution.of_interp
    intro start op answer finish performed
    exact executes_perform.mp performed
  exact wire_refines pinned (resolve_usesWhile fits)
    (fun world => .refl world.chain)
    (fun _ _ _ before after => before.trans after) exchanges

end Step

/-- What the contracts check for a write: the job as it was when the step read
it, no commitment when the step looked for one, and the rest on the chain of the
hand-over. -/
def GateOnChain (view : LiveJobView) (jobId : Nat)
    (moments : JobMoments ServedChain) (now : Chain) : WriteIntent → Prop
  | .startExecution =>
      (moments.job.chain.job view.marketplace jobId).state = .assigned
  | .submitCommitment =>
      (moments.job.chain.job view.marketplace jobId).state = .executing ∧
        moments.submitted.chain.commitmentSubmitted view.verifier jobId = false
  | .submitResult =>
      (moments.job.chain.job view.marketplace jobId).state = .executing ∧
        now.commitmentSubmitted view.verifier jobId = true ∧
        now.commitmentBlock view.verifier jobId < now.head ∧
        moments.head.chain.head ≤
          (moments.job.chain.job view.marketplace jobId).executionDeadlineBlock
  | .completeJob =>
      (moments.job.chain.job view.marketplace jobId).state = .verifying ∧
        (now.disputeResolvedForProvider view.marketplace jobId = true ∨
          (now.resultVerifiedAt view.marketplace jobId ≠ 0 ∧
            now.resultVerifiedAt view.marketplace jobId +
              DISPUTE_WINDOW_BLOCKS ≤ now.head))
  | .claimRewards | .bidOnJob | .heartbeat => False

section Moments

variable {view : LiveJobView} {jobId own : U128}
  {recordTier : Option VerificationTier} {resolved : ResolvedJob}
  {moments : JobMoments ServedChain} {start finish : ServedChain}

theorem resolvedFrom_job
    (here : ResolvedFrom ServedChain.Evolves ServedChain.ledger view jobId own
      recordTier resolved moments start finish) :
    resolved.job = moments.job.chain.job view.marketplace jobId := by
  rw [here.values]
  exact moments.job.job view.marketplace jobId

/-- A gate that is open on the resolved values is open on the chain's. -/
theorem gate_onChain
    (here : ResolvedFrom ServedChain.Evolves ServedChain.ledger view jobId own
      recordTier resolved moments start finish) {now : Chain}
    {intent : WriteIntent}
    (gate : OnChainGate view jobId resolved now intent) :
    GateOnChain view jobId moments now intent := by
  have job := resolvedFrom_job here
  have head : resolved.currentBlock = moments.head.chain.head := by
    rw [here.values]
    exact moments.head.head
  have submitted : resolved.committed =
      moments.submitted.chain.commitmentSubmitted view.verifier jobId := by
    rw [here.values]
    exact moments.submitted.submitted view.verifier jobId
  cases intent with
  | startExecution =>
      rw [OnChainGate, job] at gate
      exact gate
  | submitCommitment =>
      rw [OnChainGate, job, submitted] at gate
      exact gate
  | submitResult =>
      rw [OnChainGate, job, head] at gate
      exact gate
  | completeJob =>
      rw [OnChainGate, job] at gate
      exact gate
  | claimRewards | bidOnJob | heartbeat => exact gate

end Moments

/-- Job 7 is committed at this head, and the node says so. -/
def servedChain (head : UInt64) (reached : 150 ≤ head.toNat) : ServedChain where
  chain := committedChain head.toNat reached
  ledger := servedLedger head
  head := rfl
  job _ _ := rfl
  submitted _ _ := rfl
  commitmentBlock _ _ := rfl
  verifiedAt _ _ := rfl
  disputeResolved _ _ := rfl

def servedResult : SignatureRequest :=
  requestFor .submitResult
    (@encodeSubmitResult readHashes 7 sampleNonce.toList []) revealingInput

/-- A view over the wire executes as it runs, while the world stands still. -/
theorem servedResolve_executes {world : ServedChain}
    (ledger : world.ledger = servedLedger 160) :
    Executes ServedChain.Evolves (@ServedChain.Answer sampleWire) world
      (@LiveJobView.wired sampleWire readHashes sampleView servedClient
        (.resolve 7))
      (.ok ((sampleView.reads servedJob servedJob (servedLedger 160)).resolved
        none)) world := by
  have possible : ∀ id op, @truthfulNode sampleWire _ ServedChain.ledger world
      op (wireHandle (sampleRespond (servedLedger 160)) (fun _ => (0, 0)) id
        op).1 := by
    intro id op
    cases op with
    | estimate => trivial
    | rpc op =>
        cases op with
        | nextId => trivial
        | post request =>
            have truthful := sampleRespond_truthful (servedLedger 160) request
            rw [← ledger] at truthful ⊢
            exact truthful
  have still : ServedChain.Evolves world world := .refl world.chain
  have runs := Executes.of_runOn still possible
    ((sampleView.resolve 7).interp (@wire sampleWire readHashes servedClient)) 1
  have resolved :
      (((sampleView.resolve 7).interp
        (@wire sampleWire readHashes servedClient)).runOn
          (wireHandle (sampleRespond (servedLedger 160)) fun _ => (0, 0)) 1).1 =
        .ok ((sampleView.reads servedJob servedJob (servedLedger 160)).resolved
          none) := by
    rw [Program.runOn_interp]
    refine (@resolve_runs sampleWire readHashes _ _ _ _ readHashes_pinned
      sampleView servedJob (fun read _ => servedLedger_answered read) 1 _).mpr
        ⟨servedJob, rfl, ?_, rfl⟩
    exact ⟨servedTuple_fits servedJob, fun _ => blockFits, zeroFits⟩
  rw [resolved] at runs
  have performed {start finish : ServedChain} {op : WireOp}
      {answer : WireAnswer op} (moved : ServedChain.Evolves start finish)
      (answered : @truthfulNode sampleWire _ ServedChain.ledger finish op
        answer) :
      Executes ServedChain.Evolves (@ServedChain.Answer sampleWire) start
        (Program.perform (WiredOp.wire op)) answer finish :=
    executes_perform.mpr ⟨moved, answered⟩
  exact runs.interp performed

theorem servedResult_issued :
    IssuedAt ServedChain.Evolves (@ServedChain.Answer sampleWire)
      (.step (.request servedResult)) (servedChain 200 (by decide))
      (servedChain 160 (by decide))
      ((@JobExecutor.step readHashes revealingExecutor
        revealingProgress).interp
          (@LiveJobView.wired sampleWire readHashes sampleView
            servedClient)) := by
  refine IssuedAt.bind (servedResolve_executes rfl) ?_
  have moved : (servedChain 160 (by decide)).Evolves
      (servedChain 200 (by decide)) :=
    ⟨by decide, fun _ _ _ => ⟨rfl, rfl⟩, fun _ _ _ => rfl, fun _ _ => id⟩
  refine .later () moved trivial ?_
  exact .here (Chain.Evolves.refl _)

end NodeAgent.Node
