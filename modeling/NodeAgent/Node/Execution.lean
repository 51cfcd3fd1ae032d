import NodeAgent.Executor.Runtime
import NodeAgent.Node.Nonce
import NodeAgent.Node.Relay

/-!
# Driving one won job

`node-agent::execution`.  A step resolves the job, makes sure that its nonce
and its artifacts are the persisted ones, and then either runs inference or
hands the next write to the signer.  Everything outside the step's own logic is
an operation: the job view, the input channel, the nonce store, the weights,
the inference backend, the signer, and the locks of the shared state.
-/

namespace NodeAgent.Node

open Chainio Executor Interaction Lifecycle Supervision

/-- The state of one job that is kept across steps. -/
structure JobProgress where
  committed : Bool
  artifacts : Option CommitmentArtifacts
  nonce : Option Word
deriving DecidableEq

namespace JobProgress

def fresh : JobProgress where
  committed := false
  artifacts := none
  nonce := none

end JobProgress

/-- A job resolved from chain reads. -/
structure ResolvedJob where
  job : Job
  ipfsCid : String
  isActive : Bool
  expectedSize : Option Nat
  expectedSha256 : Option Word
  currentBlock : Nat
  committed : Bool
  gates : ChainGates
deriving DecidableEq

structure JobContext where
  job : Job
  currentBlock : Nat
  marketplace : Address
  chainId : Nat
  me : Address
  ipfsCid : String
  isActive : Bool
  expectedSize : Option Nat
  expectedSha256 : Option Word
  input : Bytes
  cacheDir : Path
  gates : ChainGates

inductive StepOutcome
  | signed (intent : WriteIntent)
  | ranInference
  | done
  | idle
  | awaitingInput
  | infeasibleInput (len max : Nat)
  | aborted (reason : AbortReason)
  | waiting (reason : WaitReason)
  | error (message : String)
deriving DecidableEq

/-- The executor of one job; the traits it is generic in are operations. -/
structure JobExecutor where
  jobId : Nat
  me : Address
  marketplace : Address
  chainId : Nat
  cacheDir : Path
  nonce : Word
  nonceStore : Option NonceStore

/-- The executor with this nonce store. -/
def JobExecutor.withStore (executor : JobExecutor) (store : NonceStore) :
    JobExecutor :=
  { executor with nonceStore := some store }

/-- The executor for this job, with this nonce store. -/
def JobExecutor.forJob (executor : JobExecutor) (store : NonceStore)
    (jobId : Nat) : JobExecutor :=
  { executor with jobId := jobId, nonceStore := some store }

def isAsciiAlphanumeric (char : UInt8) : Bool :=
  (0x30 ≤ char ∧ char ≤ 0x39) ∨ (0x41 ≤ char ∧ char ≤ 0x5a) ∨
    (0x61 ≤ char ∧ char ≤ 0x7a)

/-- The first bytes `b`, `B`, `z`, `f` and `F`. -/
def isMultibasePrefix (char : UInt8) : Bool :=
  char ∈ [0x62, 0x42, 0x7a, 0x66, 0x46]

/-- `execution::validate_cid`, the check before a CID reaches a gateway URL. -/
def validateCid (cid : String) : Except String Unit :=
  let text := utf8 cid
  if text.length < 46 ∨ text.length > 256 then
    .error s!"SECURITY [SVC-7]: rejecting model CID with out-of-range length {text.length} (allowed 46..=256)"
  else if !text.all isAsciiAlphanumeric then
    .error s!"SECURITY [SVC-7]: rejecting model CID {debugString cid}: contains non-CID characters (only base58/base32 alphanumerics allowed)"
  else if !(startsWithQm text || text.head?.any isMultibasePrefix) then
    .error s!"SECURITY [SVC-7]: rejecting model CID {debugString cid}: unrecognized multibase/version prefix"
  else if !Executor.validateCid cid then
    .error s!"SECURITY [SVC-7]: rejecting model CID {debugString cid}: not a CIDv0 (base58btc) or canonical base32lower CIDv1 (NA-03)"
  else .ok ()

inductive StepOp
  | resolve (jobId : Nat)
  | load (store : NonceStore) (jobId : Nat)
  | mint (store : NonceStore) (jobId : Nat)
  | loadArtifacts (store : NonceStore) (jobId : Nat)
  | saveArtifacts (store : NonceStore) (jobId : Nat) (art : CommitmentArtifacts)
  | inputFor (jobId : Nat)
  | write (updates : List StateUpdate)
  | maxJobInputBytes
  | provision (op : ProvisionOp)
  | infer (model : ProvisionedModel) (input : Bytes)
  | elapsedSecs
  | recordProfile (modelHash : Word) (measuredExecSecs : Nat)
  | request (request : SignatureRequest)

abbrev StepAnswer : StepOp → Type
  | .resolve _ => Except String ResolvedJob
  | .load _ _ => Except String (Option Word)
  | .mint _ _ => Except String Word
  | .loadArtifacts _ _ => Except String (Option CommitmentArtifacts)
  | .saveArtifacts _ _ _ => Except String Unit
  | .inputFor _ => Except String (Option Bytes)
  | .write _ => Unit
  | .maxJobInputBytes => Nat
  | .provision op => ProvisionAnswer op
  | .infer _ _ => Except InferenceError Bytes
  | .elapsedSecs => Nat
  | .recordProfile _ _ => Unit
  | .request _ => Except JobSignerError TxObserved

abbrev StepProgram := Program StepOp StepAnswer

def recordError (message : String) : StepProgram StepOutcome := do
  Program.perform (StepOp.write [.setLastError (some message)])
  return .error message

variable [HashFunctions]

def provisionModel (ctx : JobContext) :
    StepProgram (Except ProvisionError ProvisionedModel) :=
  (provision ctx.job.modelHash ctx.ipfsCid ctx.isActive ctx.expectedSize
      ctx.expectedSha256 ctx.cacheDir).interp
    fun op => Program.perform (StepOp.provision op)

/-- Provision, infer and build the proof, on an input that passed its ceiling
and a CID that passed the gate. -/
def infer (ctx : JobContext) (progress : JobProgress) (nonceSeed : Word) :
    StepProgram (StepOutcome × JobProgress) := do
  match ← provisionModel ctx with
  | .error error =>
      let outcome ← recordError s!"provision: {error.display}"
      return (outcome, progress)
  | .ok model =>
      match ← Program.perform (StepOp.infer model ctx.input) with
      | .error error =>
          let outcome ← recordError s!"inference: {error.display}"
          return (outcome, progress)
      | .ok output =>
          let elapsed ← Program.perform StepOp.elapsedSecs
          Program.perform (StepOp.recordProfile ctx.job.modelHash elapsed)
          let nonce := progress.nonce.getD nonceSeed
          return (.ranInference,
            { progress with
              nonce := some nonce
              artifacts := some (CommitmentProver.build output nonce) })

/-- The `RunInference` branch of `drive_job`. -/
def runInference (ctx : JobContext) (progress : JobProgress)
    (nonceSeed : Word) : StepProgram (StepOutcome × JobProgress) := do
  Program.perform (StepOp.write [.setActiveJobs 1])
  let max ← Program.perform StepOp.maxJobInputBytes
  let len := ctx.input.length
  if len > max then
    Program.perform (StepOp.write
      [.setActiveJobs 0,
        .setLastError (some
          s!"job {ctx.job.id} input {len} bytes exceeds CITRATE_MAX_JOB_INPUT_BYTES {max}; refusing to execute an infeasible workload (NA-B-003)")])
    return (.infeasibleInput len max, progress)
  else
    match validateCid ctx.ipfsCid with
    | .error error =>
        let outcome ← recordError s!"provision: {error}"
        return (outcome, progress)
    | .ok () => infer ctx progress nonceSeed

/-- The `Sign` branch of `drive_job`. -/
def signRequest (request : SignatureRequest) : StepProgram StepOutcome := do
  Program.perform (StepOp.write [.setActiveJobs 1])
  match ← Program.perform (StepOp.request request) with
  | .ok _ => return .signed request.intent
  | .error error =>
      recordError s!"sign {request.intent.label}: {error.display}"

def planInput (ctx : JobContext) (progress : JobProgress) : PlanInput where
  job := ctx.job
  me := ctx.me
  currentBlock := ctx.currentBlock
  marketplace := ctx.marketplace
  chainId := ctx.chainId
  committed := progress.committed
  artifacts := progress.artifacts
  gates := ctx.gates

/-- `drive_job`. -/
def driveJob (ctx : JobContext) (progress : JobProgress) (nonceSeed : Word) :
    StepProgram (StepOutcome × JobProgress) :=
  match plan (planInput ctx progress) with
  | .runInference => runInference ctx progress nonceSeed
  | .sign request => do
      let outcome ← signRequest request
      return (outcome, progress)
  | .done => do
      Program.perform (StepOp.write [.setActiveJobs 0])
      return (.done, progress)
  | .idle => return (.idle, progress)
  | .wait reason => return (.waiting reason, progress)
  | .abort reason => do
      Program.perform (StepOp.write
        [.setActiveJobs 0,
          .setLastError (some s!"job {ctx.job.id} aborted: {reason.debug}")])
      return (.aborted reason, progress)

namespace JobExecutor

/-- The job's nonce: the persisted one, or a fresh one while nothing is
committed on chain. -/
def resolveNonce (executor : JobExecutor) (committed : Bool) :
    StepProgram (Except StepOutcome Word) :=
  match executor.nonceStore with
  | none => return .ok executor.nonce
  | some store => do
      match ← Program.perform (StepOp.load store executor.jobId) with
      | .ok (some nonce) => return .ok nonce
      | .ok none =>
          if committed then
            let outcome ← recordError
              s!"job {executor.jobId}: committed on-chain but no persisted commitment nonce; refusing to reveal a fresh nonce that cannot reproduce the commitment (NA-01)"
            return .error outcome
          else
            match ← Program.perform (StepOp.mint store executor.jobId) with
            | .ok nonce => return .ok nonce
            | .error error =>
                let outcome ← recordError
                  s!"job {executor.jobId}: minting commitment nonce: {error}"
                return .error outcome
      | .error error =>
          let outcome ← recordError
            s!"job {executor.jobId}: loading commitment nonce: {error}"
          return .error outcome

/-- Reload persisted artifacts that are not in memory. -/
def reloadArtifacts (executor : JobExecutor) (resolved : ResolvedJob)
    (nonceSeed : Word) (progress : JobProgress) :
    StepProgram (Except StepOutcome JobProgress) :=
  match progress.artifacts, executor.nonceStore with
  | none, some store => do
      match ← Program.perform (StepOp.loadArtifacts store executor.jobId) with
      | .ok (some art) =>
          return .ok
            { progress with nonce := some nonceSeed, artifacts := some art }
      | .ok none =>
          if resolved.committed ∧ resolved.job.state = .executing then
            let outcome ← recordError
              s!"job {executor.jobId}: committed on-chain but the committed output was not persisted; refusing to re-run inference and reveal a mismatched output (NA-01 / PBA-L6b-007)"
            return .error outcome
          else return .ok progress
      | .error error =>
          let outcome ← recordError
            s!"job {executor.jobId}: loading commitment artifacts: {error}"
          return .error outcome
  | _, _ => return .ok progress

/-- The off-chain input, when inference is about to run. -/
def jobInput (executor : JobExecutor) (resolved : ResolvedJob)
    (progress : JobProgress) : StepProgram (Except StepOutcome Bytes) :=
  if resolved.job.state = .executing ∧ progress.artifacts.isNone then do
    match ← Program.perform (StepOp.inputFor executor.jobId) with
    | .ok (some bytes) =>
        match resolved.job.inputHash with
        | some hash =>
            if keccak256Bytes bytes = hash then return .ok bytes
            else
              let outcome ← recordError
                s!"job {executor.jobId}: delivered input does not match the on-chain inputHash; refusing to execute (PBA-L6b-021)"
              return .error outcome
        | none =>
            let outcome ← recordError
              s!"job {executor.jobId}: on-chain inputHash is not a 32-byte keccak256 binding; refusing to execute an unbindable input (PBA-L6b-021)"
            return .error outcome
    | .ok none => return .error .awaitingInput
    | .error error =>
        let outcome ← recordError s!"input for job {executor.jobId}: {error}"
        return .error outcome
  else return .ok []

def context (executor : JobExecutor) (resolved : ResolvedJob) (input : Bytes) :
    JobContext where
  job := resolved.job
  currentBlock := resolved.currentBlock
  marketplace := executor.marketplace
  chainId := executor.chainId
  me := executor.me
  ipfsCid := resolved.ipfsCid
  isActive := resolved.isActive
  expectedSize := resolved.expectedSize
  expectedSha256 := resolved.expectedSha256
  input := input
  cacheDir := executor.cacheDir
  gates := resolved.gates

/-- Persist fresh artifacts, or forget them when that fails. -/
def persist (executor : JobExecutor) (outcome : StepOutcome)
    (progress : JobProgress) : StepProgram (StepOutcome × JobProgress) :=
  match outcome, executor.nonceStore, progress.artifacts with
  | .ranInference, some store, some art => do
      match ← Program.perform
          (StepOp.saveArtifacts store executor.jobId art) with
      | .ok () => return (outcome, progress)
      | .error error =>
          let failed ← recordError
            s!"job {executor.jobId}: persisting commitment artifacts: {error}"
          return (failed, { progress with artifacts := none })
  | _, _, _ => return (outcome, progress)

/-- `JobExecutor::step` on a resolved job. -/
def stepResolved (executor : JobExecutor) (resolved : ResolvedJob)
    (progress : JobProgress) : StepProgram (StepOutcome × JobProgress) :=
  if resolved.job.assignedProvider ≠ executor.me then return (.idle, progress)
  else do
    -- chain truth replaces the local flag
    let progress := { progress with committed := resolved.committed }
    match ← executor.resolveNonce resolved.committed with
    | .error outcome => return (outcome, progress)
    | .ok nonceSeed =>
        match ← executor.reloadArtifacts resolved nonceSeed progress with
        | .error outcome => return (outcome, progress)
        | .ok progress =>
            match ← executor.jobInput resolved progress with
            | .error outcome => return (outcome, progress)
            | .ok input =>
                let (outcome, progress) ←
                  driveJob (executor.context resolved input) progress nonceSeed
                executor.persist outcome progress

/-- `JobExecutor::step`. -/
def step (executor : JobExecutor) (progress : JobProgress) :
    StepProgram (StepOutcome × JobProgress) := do
  match ← Program.perform (StepOp.resolve executor.jobId) with
  | .error error =>
      let outcome ← recordError s!"resolve job {executor.jobId}: {error}"
      return (outcome, progress)
  | .ok resolved => executor.stepResolved resolved progress

end JobExecutor

end NodeAgent.Node
