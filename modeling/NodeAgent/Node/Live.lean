import NodeAgent.Node.Bridge
import NodeAgent.Node.Daemon
import NodeAgent.Node.Execution

/-!
# The live views

`node-agent::live`: the market view that the daemon bids on and the job view
that the executor steps on.  Each is a sequence of separate reads, so the values
of one view come from different moments of the chain.
-/

namespace NodeAgent.Node

open Chainio Executor Interaction Lifecycle

/-- One read, at the contract it is addressed to.  `estimate` reads the
profiler. -/
inductive LiveRead
  | getProvider (marketplace provider : Address)
  | saltPerPflopHour (oracle : Address)
  | isPriceStale (oracle : Address)
  | getJob (marketplace : Address) (jobId : Nat)
  | getModel (modelRegistry : Address) (modelHash : Word)
  | blockNumber
  | estimate (modelHash : Word)
  | commitmentSubmitted (verifier : Address) (jobId : Nat)
  | recordTier (verifier : Address) (jobId : Nat)
  | commitmentBlock (verifier : Address) (jobId : Nat)
  | resultVerifiedAt (marketplace : Address) (jobId : Nat)
  | disputeResolvedForProvider (marketplace : Address) (jobId : Nat)
deriving DecidableEq

abbrev LiveAnswer : LiveRead → Type
  | .getProvider _ _ => Except String ProviderProfile
  | .saltPerPflopHour _ => Except String Nat
  | .isPriceStale _ => Except String Bool
  | .getJob _ _ => Except String Job
  | .getModel _ _ => Except String ModelInfo
  | .blockNumber => Except String Nat
  | .estimate _ => Nat × Nat
  | .commitmentSubmitted _ _ => Except String Bool
  | .recordTier _ _ => Except String VerificationTier
  | .commitmentBlock _ _ => Except String Nat
  | .resultVerifiedAt _ _ => Except String Nat
  | .disputeResolvedForProvider _ _ => Except String Bool

abbrev LiveProgram := Program LiveRead LiveAnswer

/-- Continue with the value, or fail with the error under its label. -/
def attempt {α β : Type} (label : String)
    (program : LiveProgram (Except String α))
    (next : α → LiveProgram (Except String β)) :
    LiveProgram (Except String β) := do
  match ← program with
  | .error error => return .error s!"{label}: {error}"
  | .ok value => next value

structure LiveMarketView where
  marketplace : Address
  oracle : Address
  provider : Address
  jobId : Nat
  secsPerBlock : Nat

/-- `MarketView::refresh`. -/
def LiveMarketView.refresh (view : LiveMarketView) :
    LiveProgram (Except String MarketSnapshot) :=
  attempt "getProvider"
    (Program.perform (LiveRead.getProvider view.marketplace view.provider))
    fun profile =>
  attempt "saltPerPflopHour"
    (Program.perform (LiveRead.saltPerPflopHour view.oracle))
    fun saltPerPflopHour =>
  attempt "isPriceStale" (Program.perform (LiveRead.isPriceStale view.oracle))
    fun stale =>
  attempt "getJob"
    (Program.perform (LiveRead.getJob view.marketplace view.jobId))
    fun chainJob =>
  attempt "blockNumber" (Program.perform LiveRead.blockNumber)
    fun currentBlock => do
  let (pflopHours, execSecs) ←
    Program.perform (LiveRead.estimate chainJob.modelHash)
  return .ok
    { caps := mapCaps profile
      reputationBps := FixedWidth.narrow 32 profile.reputationScoreBps
      stakeWei := profile.stakeWei
      job := mapJob chainJob currentBlock view.secsPerBlock pflopHours execSecs
      oracle := { saltPerPflopHourWei := saltPerPflopHour, stale := stale }
      bidExpiresBlock := bidExpiresBlock chainJob currentBlock }

structure LiveJobView where
  marketplace : Address
  modelRegistry : Address
  verifier : Address
  weightsSha256 : Option Word

/-- `JobView::resolve`. -/
def LiveJobView.resolve (view : LiveJobView) (jobId : Nat) :
    LiveProgram (Except String ResolvedJob) :=
  attempt "getJob" (Program.perform (LiveRead.getJob view.marketplace jobId))
    fun job =>
  attempt "getModel"
    (Program.perform (LiveRead.getModel view.modelRegistry job.modelHash))
    fun model =>
  attempt "blockNumber" (Program.perform LiveRead.blockNumber)
    fun currentBlock =>
  attempt "getRecord"
    (Program.perform (LiveRead.commitmentSubmitted view.verifier jobId))
    fun committed => do
  -- a tier that cannot be read is derived by the planner
  let recordTier ← Program.perform (LiveRead.recordTier view.verifier job.id)
  attempt "commitmentBlock"
    (if committed then
      Program.perform (LiveRead.commitmentBlock view.verifier job.id)
    else return .ok 0)
    fun commitmentBlock =>
  attempt "resultVerifiedAt"
    (Program.perform (LiveRead.resultVerifiedAt view.marketplace job.id))
    fun resultVerifiedAt =>
  attempt "disputeResolvedForProvider"
    (Program.perform
      (LiveRead.disputeResolvedForProvider view.marketplace job.id))
    fun disputeResolved =>
  return .ok
    { job := job
      ipfsCid := model.ipfsCid
      isActive := model.isActive
      expectedSize := none
      expectedSha256 := view.weightsSha256
      currentBlock := currentBlock
      committed := committed
      gates :=
        { effectiveTier := recordTier.toOption
          commitmentBlock := commitmentBlock
          resultVerifiedAt := resultVerifiedAt
          disputeResolvedForProvider := disputeResolved } }

section Executions

variable {Chain : Type} {evolves : Chain → Chain → Prop}
  {answers : Chain → (read : LiveRead) → LiveAnswer read → Prop}
  {start finish : Chain}

theorem executes_attempt {α β : Type} {label : String}
    {program : LiveProgram (Except String α)}
    {next : α → LiveProgram (Except String β)} {result : β}
    (execution : Executes evolves answers start (attempt label program next)
      (.ok result) finish) :
    ∃ value middle, Executes evolves answers start program (.ok value) middle ∧
      Executes evolves answers middle (next value) (.ok result) finish := by
  unfold attempt at execution
  obtain ⟨value, middle, first, second⟩ :=
    (executes_bind program _).mp execution
  cases value with
  | error error => cases (executes_done.mp second).1
  | ok value => exact ⟨value, middle, first, second⟩

end Executions

end NodeAgent.Node
