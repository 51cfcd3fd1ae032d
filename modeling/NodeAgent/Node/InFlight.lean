import NodeAgent.Node.ExecutorPool
import NodeAgent.Node.StepOps

/-!
# The count of jobs in flight

`/status` reports that the agent executes while `active_jobs` is not zero.  A
step writes the count when the planner signs, infers, aborts or is done; when
the planner waits, or is not reached at all, the count stays what it was.
-/

namespace NodeAgent.Node

open Chainio Executor Interaction Lifecycle Supervision

/-- The answer of the environment to each operation of one step, which asks for
none of them twice. -/
abbrev StepAnswers := (op : StepOp) → StepAnswer op

/-- The state is written under its lock; nothing else touches the count. -/
def stepHandle (answers : StepAnswers) (agent : AgentState) :
    (op : StepOp) → StepAnswer op × AgentState
  | .write updates => ((), applyUpdates updates agent)
  | op => (answers op, agent)

/-- The outcome gives the slot back. -/
def StepOutcome.releases : StepOutcome → Bool
  | .aborted _ | .infeasibleInput _ _ => true
  | _ => false

/-- A job of mine that is assigned, executing or under verification. -/
def InFlight (executor : JobExecutor) (job : Job) : Prop :=
  job.assignedProvider = executor.me ∧
    (job.state = .assigned ∨ job.state = .executing ∨ job.state = .verifying)

instance (executor : JobExecutor) (job : Job) :
    Decidable (InFlight executor job) :=
  inferInstanceAs (Decidable (_ ∧ _))

def inFlightCount (executor : JobExecutor) (job : Job) : Nat :=
  if InFlight executor job then 1 else 0

/-- The count is one for a job in flight whose slot was not given back. -/
structure TellsTruth (executor : JobExecutor) (job : Job)
    (outcome : StepOutcome) (agent : AgentState) : Prop where
  count : agent.activeJobs =
    if outcome.releases then 0 else inFlightCount executor job
  status : agent.paused = false →
    (agent.lifecycle = .executing ↔
      InFlight executor job ∧ outcome.releases = false)

theorem TellsTruth.of_count {executor : JobExecutor} {job : Job}
    {outcome : StepOutcome} {agent : AgentState}
    (count : agent.activeJobs =
      if outcome.releases then 0 else inFlightCount executor job) :
    TellsTruth executor job outcome agent where
  count := count
  status := by
    intro running
    by_cases releases : outcome.releases = true
    · rw [if_pos releases] at count
      cases bidding : agent.bidding <;>
        simp [AgentState.lifecycle, running, count, releases, bidding]
    · rw [if_neg releases, inFlightCount] at count
      by_cases flying : InFlight executor job
      · rw [if_pos flying] at count
        simp [AgentState.lifecycle, running, count, releases, flying]
      · rw [if_neg flying] at count
        cases bidding : agent.bidding <;>
          simp [AgentState.lifecycle, running, count, flying, bidding]

/-- The nonce that the step finds or mints. -/
def checkedNonce (executor : JobExecutor) (committed : Bool)
    (answers : StepAnswers) : Option Word :=
  match executor.nonceStore with
  | none => some executor.nonce
  | some store =>
      match answers (.load store executor.jobId) with
      | .ok (some nonce) => some nonce
      | .ok none =>
          if committed then none
          else (answers (.mint store executor.jobId)).toOption
      | .error _ => none

/-- The progress with the artifacts that the step finds. -/
def checkedProgress (executor : JobExecutor) (resolved : ResolvedJob)
    (nonce : Word) (progress : JobProgress) (answers : StepAnswers) :
    Option JobProgress :=
  match progress.artifacts, executor.nonceStore with
  | none, some store =>
      match answers (.loadArtifacts store executor.jobId) with
      | .ok (some art) =>
          some { progress with nonce := some nonce, artifacts := some art }
      | .ok none =>
          if resolved.committed ∧ resolved.job.state = .executing then none
          else some progress
      | .error _ => none
  | _, _ => some progress

/-- What a check leaves behind: its value, or an outcome that says nothing
about the slot. -/
inductive CheckRun {α : Type} (agent : AgentState) :
    Option α → Except StepOutcome α × AgentState → Prop
  | passed (value : α) : CheckRun agent (some value) (.ok value, agent)
  | held {outcome : StepOutcome} {after : AgentState}
      (keeps : outcome.releases = false)
      (count : after.activeJobs = agent.activeJobs) :
      CheckRun agent none (.error outcome, after)

theorem recordError_held {α : Type} (answers : StepAnswers)
    (agent : AgentState) (message : String) :
    CheckRun agent (none : Option α)
      ((do
        let outcome ← recordError message
        return .error outcome : StepProgram (Except StepOutcome α)).runOn
          (stepHandle answers) agent) :=
  .held rfl rfl

theorem resolveNonce_run (executor : JobExecutor) (committed : Bool)
    (answers : StepAnswers) (agent : AgentState) :
    CheckRun agent (checkedNonce executor committed answers)
      ((executor.resolveNonce committed).runOn (stepHandle answers) agent) := by
  unfold JobExecutor.resolveNonce checkedNonce
  cases executor.nonceStore with
  | none => exact .passed _
  | some store =>
      simp only [Program.perform_bind, Program.runOn_call, stepHandle]
      cases answers (.load store executor.jobId) with
      | error error => exact recordError_held _ _ _
      | ok found =>
          cases found with
          | some nonce => exact .passed _
          | none =>
              cases committed with
              | true => exact recordError_held _ _ _
              | false =>
                  simp only [Bool.false_eq_true, if_false, Program.runOn_call,
                    stepHandle]
                  cases answers (.mint store executor.jobId) with
                  | error error => exact recordError_held _ _ _
                  | ok nonce => exact .passed _

theorem reloadArtifacts_run (executor : JobExecutor) (resolved : ResolvedJob)
    (nonce : Word) (progress : JobProgress) (answers : StepAnswers)
    (agent : AgentState) :
    CheckRun agent
      (checkedProgress executor resolved nonce progress answers)
      ((executor.reloadArtifacts resolved nonce progress).runOn
        (stepHandle answers) agent) := by
  unfold JobExecutor.reloadArtifacts checkedProgress
  cases progress.artifacts with
  | some art => exact .passed _
  | none =>
      cases executor.nonceStore with
      | none => exact .passed _
      | some store =>
          simp only [Program.perform_bind, Program.runOn_call, stepHandle]
          cases answers (.loadArtifacts store executor.jobId) with
          | error error => exact recordError_held _ _ _
          | ok found =>
              cases found with
              | some art => exact .passed _
              | none =>
                  dsimp only
                  split
                  · exact recordError_held _ _ _
                  · exact .passed _

/-- The action writes the count. -/
def settles : LifecycleAction → Bool
  | .idle | .wait _ => false
  | _ => true

/-- The count that an action writes for a job it does not give back. -/
def worked : LifecycleAction → Nat
  | .sign _ | .runInference => 1
  | _ => 0

/-- The planner idles or waits: the bidder still has the job, or the next write
of a supported job is not due. -/
def Rests (input : PlanInput) : Prop :=
  input.job.state = .posted ∨ input.job.state = .bidding ∨
    effectiveTier input = .commitment ∧ ∃ reason, Waits input reason

theorem settles_plan_iff [HashFunctions] {input : PlanInput}
    (mine : input.me = input.job.assignedProvider) :
    settles (plan input) = true ↔ ¬Rests input := by
  have rests : settles (plan input) = false ↔
      plan input = .idle ∨ ∃ reason, plan input = .wait reason := by
    cases plan input <;> simp [settles]
  rw [← Bool.not_eq_false, rests, not_iff_not, plan_idle_iff, Rests, or_assoc]
  simp only [plan_wait_iff mine, exists_and_right, and_comm]

/-- The operation leaves the count as it is. -/
def KeepsCount (op : StepOp) : Prop :=
  ∀ answers agent,
    (stepHandle answers agent op).2.activeJobs = agent.activeJobs

theorem keepsCount_runOn {α : Type} {program : StepProgram α}
    (uses : program.Uses KeepsCount) (answers : StepAnswers)
    (agent : AgentState) :
    (program.runOn (stepHandle answers) agent).2.activeJobs =
      agent.activeJobs := by
  have kept : ∀ after op, KeepsCount op →
      after.activeJobs = agent.activeJobs →
        (stepHandle answers after op).2.activeJobs = agent.activeJobs :=
    fun after op keeps same => (keeps answers after).trans same
  exact uses.runOn kept rfl

/-- What the planner's part of a step does to the count. -/
structure DriveRun (agent : AgentState) (action : LifecycleAction)
    (outcome : StepOutcome) (after : AgentState) : Prop where
  settled : settles action = true →
    after.activeJobs = if outcome.releases then 0 else worked action
  unsettled : settles action = false →
    outcome.releases = false ∧ after.activeJobs = agent.activeJobs
  aborts : ∀ reason, action = .abort reason → outcome.releases = true

theorem persist_run (executor : JobExecutor) (outcome : StepOutcome)
    (progress : JobProgress) (answers : StepAnswers) (agent : AgentState) :
    ((executor.persist outcome progress).runOn (stepHandle answers)
        agent).1.1.releases = outcome.releases ∧
      ((executor.persist outcome progress).runOn (stepHandle answers)
        agent).2.activeJobs = agent.activeJobs := by
  unfold JobExecutor.persist
  split
  · simp only [Program.perform_bind, Program.runOn_call, stepHandle]
    cases answers (.saveArtifacts _ executor.jobId _) with
    | error error => exact ⟨rfl, rfl⟩
    | ok saved => exact ⟨rfl, rfl⟩
  · exact ⟨rfl, rfl⟩

/-- What a step on a resolved job does to the count. -/
inductive StepRun (executor : JobExecutor) (resolved : ResolvedJob)
    (agent : AgentState) : Option LifecycleAction →
    StepOutcome → AgentState → Prop
  | held {action : Option LifecycleAction} {outcome : StepOutcome}
      {after : AgentState}
      (unsettled : ∀ decided, action = some decided → settles decided = false)
      (keeps : outcome.releases = false)
      (count : after.activeJobs = agent.activeJobs) :
      StepRun executor resolved agent action outcome after
  | settled {action : LifecycleAction} {outcome : StepOutcome}
      {after : AgentState} (settled : settles action = true)
      (count : after.activeJobs =
        if outcome.releases then 0 else inFlightCount executor resolved.job) :
      StepRun executor resolved agent (some action) outcome after

theorem StepRun.unreached {executor : JobExecutor} {resolved : ResolvedJob}
    {agent after : AgentState} {outcome : StepOutcome}
    (keeps : outcome.releases = false)
    (count : after.activeJobs = agent.activeJobs) :
    StepRun executor resolved agent none outcome after := by
  apply StepRun.held
  · intro decided reached
    cases reached
  · exact keeps
  · exact count

section Hashes

variable [HashFunctions]

/-- The input that is bound to the job, where inference needs it. -/
def checkedInput (executor : JobExecutor) (resolved : ResolvedJob)
    (progress : JobProgress) (answers : StepAnswers) : Option Bytes :=
  if resolved.job.state = .executing ∧ progress.artifacts.isNone then
    match answers (.inputFor executor.jobId), resolved.job.inputHash with
    | .ok (some bytes), some hash =>
        if keccak256Bytes bytes = hash then some bytes else none
    | _, _ => none
  else some []

/-- What the planner decides in this step, when it is asked at all. -/
def plannedAction (executor : JobExecutor) (resolved : ResolvedJob)
    (progress : JobProgress) (answers : StepAnswers) :
    Option LifecycleAction := do
  guard (resolved.job.assignedProvider = executor.me)
  let nonce ← checkedNonce executor resolved.committed answers
  let progress ← checkedProgress executor resolved nonce
    { progress with committed := resolved.committed } answers
  let input ← checkedInput executor resolved progress answers
  return plan (planInput (executor.context resolved input) progress)

/-- The planner is reached, and neither idles nor waits. -/
def Decides (executor : JobExecutor) (resolved : ResolvedJob)
    (progress : JobProgress) (answers : StepAnswers) : Prop :=
  resolved.job.assignedProvider = executor.me ∧
    ∃ nonce checked input,
      checkedNonce executor resolved.committed answers = some nonce ∧
      checkedProgress executor resolved nonce
          { progress with committed := resolved.committed } answers =
        some checked ∧
      checkedInput executor resolved checked answers = some input ∧
      ¬Rests (planInput (executor.context resolved input) checked)

theorem plannedAction_settles_iff {executor : JobExecutor}
    {resolved : ResolvedJob} {progress : JobProgress} {answers : StepAnswers} :
    (∃ action, plannedAction executor resolved progress answers = some action ∧
        settles action = true) ↔
      Decides executor resolved progress answers := by
  unfold plannedAction Decides
  by_cases mine : resolved.job.assignedProvider = executor.me
  case neg => simp [guard, mine]
  simp only [guard, mine, if_true, Option.pure_def, Option.bind_eq_bind,
    Option.bind_some, Option.bind_eq_some_iff, Option.some.injEq, true_and]
  constructor
  · rintro ⟨_, ⟨nonce, found, checked, reloaded, input, read, rfl⟩, settled⟩
    exact ⟨nonce, checked, input, found, reloaded, read,
      (settles_plan_iff mine.symm).mp settled⟩
  · rintro ⟨nonce, checked, input, found, reloaded, read, acts⟩
    exact ⟨_, ⟨nonce, found, checked, reloaded, input, read, rfl⟩,
      (settles_plan_iff mine.symm).mpr acts⟩

theorem jobInput_run (executor : JobExecutor) (resolved : ResolvedJob)
    (progress : JobProgress) (answers : StepAnswers) (agent : AgentState) :
    CheckRun agent (checkedInput executor resolved progress answers)
      ((executor.jobInput resolved progress).runOn (stepHandle answers)
        agent) := by
  unfold JobExecutor.jobInput checkedInput
  split
  · simp only [Program.perform_bind, Program.runOn_call, stepHandle]
    cases answers (.inputFor executor.jobId) with
    | error error => exact recordError_held _ _ _
    | ok delivered =>
        cases delivered with
        | none => exact .held rfl rfl
        | some bytes =>
            cases resolved.job.inputHash with
            | none => exact recordError_held _ _ _
            | some hash =>
                dsimp only
                split
                · exact .passed _
                · exact recordError_held _ _ _
  · exact .passed _

theorem infer_keepsCount (ctx : JobContext) (progress : JobProgress)
    (nonceSeed : Word) : (infer ctx progress nonceSeed).Uses KeepsCount := by
  have provisions : (provisionModel ctx).Uses KeepsCount :=
    Program.uses_interp (fun op =>
      Program.uses_call (fun _ _ => rfl) fun _ => Program.uses_done _) _
  refine Program.uses_bind provisions ?_
  intro provisioned
  cases provisioned with
  | error error =>
      exact Program.uses_call (fun _ _ => rfl) fun _ => Program.uses_done _
  | ok model =>
      refine Program.uses_call (fun _ _ => rfl) ?_
      intro inferred
      cases inferred with
      | error error =>
          exact Program.uses_call (fun _ _ => rfl) fun _ => Program.uses_done _
      | ok output =>
          refine Program.uses_call (fun _ _ => rfl) fun _ => ?_
          exact Program.uses_call (fun _ _ => rfl) fun _ => Program.uses_done _

theorem infer_releases (ctx : JobContext) (progress : JobProgress)
    (nonceSeed : Word) :
    (infer ctx progress nonceSeed).Ensures (·.1.releases = false) := by
  refine Program.ensures_bind (Program.ensures_true _) ?_
  intro provisioned _
  cases provisioned with
  | error error =>
      exact Program.ensures_call fun _ => Program.ensures_done rfl
  | ok model =>
      apply Program.ensures_call
      intro inferred
      cases inferred with
      | error error =>
          exact Program.ensures_call fun _ => Program.ensures_done rfl
      | ok output =>
          exact Program.ensures_call fun _ =>
            Program.ensures_call fun _ => Program.ensures_done rfl

theorem runInference_run (ctx : JobContext) (progress : JobProgress)
    (nonceSeed : Word) (answers : StepAnswers) (agent : AgentState) :
    DriveRun agent .runInference
      ((runInference ctx progress nonceSeed).runOn (stepHandle answers)
        agent).1.1
      ((runInference ctx progress nonceSeed).runOn (stepHandle answers)
        agent).2 := by
  refine ⟨fun _ => ?_, nofun, nofun⟩
  simp only [runInference, Program.perform_bind, Program.runOn_call, stepHandle]
  by_cases large : ctx.input.length > answers .maxJobInputBytes
  · simp only [large, if_true]
    rfl
  · simp only [large, if_false]
    cases validateCid ctx.ipfsCid with
    | error error => rfl
    | ok passed =>
        have keeps := infer_releases ctx progress nonceSeed _
          (Program.returns_runOn (stepHandle answers)
            (infer ctx progress nonceSeed)
            (applyUpdates [.setActiveJobs 1] agent))
        simp only [keeps]
        exact keepsCount_runOn (infer_keepsCount ctx progress nonceSeed)
          answers (applyUpdates [.setActiveJobs 1] agent)

theorem driveJob_run (ctx : JobContext) (progress : JobProgress)
    (nonceSeed : Word) (answers : StepAnswers) (agent : AgentState) :
    DriveRun agent (plan (planInput ctx progress))
      ((driveJob ctx progress nonceSeed).runOn (stepHandle answers) agent).1.1
      ((driveJob ctx progress nonceSeed).runOn (stepHandle answers)
        agent).2 := by
  unfold driveJob
  cases plan (planInput ctx progress) with
  | runInference => exact runInference_run ctx progress nonceSeed answers agent
  | sign request =>
      refine ⟨fun _ => ?_, nofun, nofun⟩
      simp only [signRequest, Program.perform_bind, Program.call_bind,
        Program.runOn_call, stepHandle]
      obtain ⟨answer, answered⟩ :
          ∃ answer, answers (.request request) = answer := ⟨_, rfl⟩
      cases answer with
      | error error =>
          simp only [answered]
          rfl
      | ok observed =>
          simp only [answered]
          rfl
  | done => exact ⟨fun _ => rfl, nofun, nofun⟩
  | idle => exact ⟨nofun, fun _ => ⟨rfl, rfl⟩, nofun⟩
  | wait reason => exact ⟨nofun, fun _ => ⟨rfl, rfl⟩, nofun⟩
  | abort reason => exact ⟨fun _ => rfl, nofun, fun _ _ => rfl⟩

/-- The planner works on jobs in flight, and is done with others. -/
theorem worked_planned {executor : JobExecutor} {resolved : ResolvedJob}
    {progress : JobProgress} {input : Bytes} {action : LifecycleAction}
    (mine : resolved.job.assignedProvider = executor.me)
    (planned : plan (planInput (executor.context resolved input) progress) =
      action) (settled : settles action = true)
    (kept : ∀ reason, action ≠ .abort reason) :
    worked action = inFlightCount executor resolved.job := by
  cases action with
  | sign request =>
      have flying : InFlight executor resolved.job := by
        refine ⟨mine, ?_⟩
        cases (plan_signs planned).1 with
        | startExecution state => exact Or.inl state
        | submitCommitment state artifacts committed =>
            exact Or.inr (Or.inl state)
        | submitResult state artifacts committed inTime afterCommit =>
            exact Or.inr (Or.inl state)
        | completeJob state window => exact Or.inr (Or.inr state)
      exact (if_pos flying).symm
  | runInference =>
      have executing := (plan_runInference planned).1
      exact (if_pos ⟨mine, Or.inr (Or.inl executing)⟩).symm
  | done =>
      have completed : resolved.job.state = .completed := plan_done planned
      have landed : ¬InFlight executor resolved.job := by
        simp [InFlight, completed]
      exact (if_neg landed).symm
  | idle => cases settled
  | wait reason => cases settled
  | abort reason => exact absurd rfl (kept reason)

/-- The planner's part of a step, and the saving after it. -/
theorem driven_run {executor : JobExecutor} {resolved : ResolvedJob}
    (mine : resolved.job.assignedProvider = executor.me) (input : Bytes)
    (progress : JobProgress) (nonce : Word) (answers : StepAnswers)
    (agent : AgentState) :
    StepRun executor resolved agent
      (some (plan (planInput (executor.context resolved input) progress)))
      ((driveJob (executor.context resolved input) progress nonce >>=
        fun result => executor.persist result.1 result.2).runOn
          (stepHandle answers) agent).1.1
      ((driveJob (executor.context resolved input) progress nonce >>=
        fun result => executor.persist result.1 result.2).runOn
          (stepHandle answers) agent).2 := by
  rw [Program.runOn_bind]
  have driven := driveJob_run (executor.context resolved input) progress nonce
    answers agent
  generalize (driveJob (executor.context resolved input) progress nonce).runOn
    (stepHandle answers) agent = run at driven ⊢
  generalize planned : plan (planInput (executor.context resolved input)
    progress) = action at driven ⊢
  obtain ⟨same, count⟩ := persist_run executor run.1.1 run.1.2 answers run.2
  cases settled : settles action with
  | false =>
      obtain ⟨keeps, unchanged⟩ := driven.unsettled settled
      apply StepRun.held
      · intro decided decides
        rwa [← Option.some.inj decides]
      · exact same.trans keeps
      · exact count.trans unchanged
  | true =>
      apply StepRun.settled settled
      rw [count, same, driven.settled settled]
      cases released : run.1.1.releases with
      | true => rfl
      | false =>
          apply worked_planned mine planned settled
          intro reason aborted
          rw [driven.aborts reason aborted] at released
          cases released

theorem stepResolved_run (executor : JobExecutor) (resolved : ResolvedJob)
    (progress : JobProgress) (answers : StepAnswers) (agent : AgentState) :
    StepRun executor resolved agent
      (plannedAction executor resolved progress answers)
      ((executor.stepResolved resolved progress).runOn (stepHandle answers)
        agent).1.1
      ((executor.stepResolved resolved progress).runOn (stepHandle answers)
        agent).2 := by
  unfold JobExecutor.stepResolved plannedAction
  by_cases mine : resolved.job.assignedProvider = executor.me
  case neg =>
    rw [if_pos mine]
    simp only [guard, if_neg mine, failure, Option.bind_eq_bind]
    exact .unreached rfl rfl
  rw [if_neg (not_not.mpr mine)]
  simp only [guard, if_pos mine, Option.pure_def, Option.bind_eq_bind,
    Option.bind_some, Program.runOn_bind]
  have nonces := resolveNonce_run executor resolved.committed answers agent
  generalize (executor.resolveNonce resolved.committed).runOn
    (stepHandle answers) agent = run at nonces ⊢
  generalize checkedNonce executor resolved.committed answers = checked
    at nonces ⊢
  cases nonces with
  | held keeps count => exact .unreached keeps count
  | passed nonce =>
      simp only [Program.runOn_bind]
      have reloads := reloadArtifacts_run executor resolved nonce
        { progress with committed := resolved.committed } answers agent
      generalize (executor.reloadArtifacts resolved nonce _).runOn
        (stepHandle answers) agent = run at reloads ⊢
      simp only [Option.bind_some]
      generalize checkedProgress executor resolved nonce _ answers = checked
        at reloads ⊢
      cases reloads with
      | held keeps count => exact .unreached keeps count
      | passed progress =>
          simp only [Option.bind_some, Program.runOn_bind]
          have inputs := jobInput_run executor resolved progress answers agent
          generalize (executor.jobInput resolved progress).runOn
            (stepHandle answers) agent = run at inputs ⊢
          generalize checkedInput executor resolved progress answers = checked
            at inputs ⊢
          cases inputs with
          | held keeps count => exact .unreached keeps count
          | passed input =>
              exact driven_run mine input progress nonce answers agent

/-- After a step whose reads succeeded the count is right exactly when the
planner was reached and decided on more than waiting, or the count was right
already.  The planner waits only with a job whose next write is not due. -/
theorem activeJobs_true_iff {executor : JobExecutor} {resolved : ResolvedJob}
    {answers : StepAnswers}
    (reads : answers (.resolve executor.jobId) = .ok resolved)
    (progress : JobProgress) (agent : AgentState) :
    (TellsTruth executor resolved.job
        ((executor.step progress).runOn (stepHandle answers) agent).1.1
        ((executor.step progress).runOn (stepHandle answers) agent).2 ↔
      (∃ action, plannedAction executor resolved progress answers =
          some action ∧ settles action = true) ∨
        agent.activeJobs = inFlightCount executor resolved.job) ∧
      ((∃ action, plannedAction executor resolved progress answers =
          some action ∧ settles action = true) ↔
        Decides executor resolved progress answers) := by
  refine ⟨?_, plannedAction_settles_iff⟩
  have step : (executor.step progress).runOn (stepHandle answers) agent =
      (executor.stepResolved resolved progress).runOn (stepHandle answers)
        agent := by
    simp only [JobExecutor.step, Program.perform_bind, Program.runOn_call,
      stepHandle, reads]
  rw [step]
  have run := stepResolved_run executor resolved progress answers agent
  generalize (executor.stepResolved resolved progress).runOn
    (stepHandle answers) agent = result at run ⊢
  generalize plannedAction executor resolved progress answers = decided
    at run ⊢
  cases run with
  | held unsettled keeps count =>
      constructor
      · intro truth
        right
        rw [← count, truth.count, keeps]
        rfl
      · rintro (⟨action, decides, settled⟩ | right)
        · rw [unsettled action decides] at settled
          cases settled
        · apply TellsTruth.of_count
          rw [count, right, keeps]
          rfl
  | settled settled count =>
      constructor
      · intro _
        exact Or.inl ⟨_, rfl, settled⟩
      · intro _
        exact .of_count count

end Hashes

/-- A machine without files, on this resolved job. -/
def emptyAnswers (resolved : ResolvedJob) : StepAnswers := fun op =>
  (@executorExec Unit sampleHashes () ⟨noFiles, []⟩ op
    { sampleChoice [] with resolved := .ok resolved }).1

/-- The job went to another provider. -/
def reassignedResolved : ResolvedJob :=
  { sampleResolved with
    job := { sampleJob with
      assignedProvider := List.Vector.replicate 20 0x77 } }

def sampleStep (resolved : ResolvedJob) (agent : AgentState) :
    (StepOutcome × JobProgress) × AgentState :=
  (@JobExecutor.step sampleHashes sampleExecutor .fresh).runOn
    (stepHandle (emptyAnswers resolved)) agent

def assignedResolved : ResolvedJob :=
  { sampleResolved with job := { sampleJob with state := .assigned } }

/-- The job is verified, and its dispute window is open. -/
def verifyingResolved : ResolvedJob :=
  { sampleResolved with
    job := { sampleJob with state := .verifying }
    gates := ⟨some .commitment, 0, 180, false⟩ }

/-- A job that is assigned is started from any count; a restarted agent that
waits for a dispute window reports nothing in flight. -/
theorem activeJobs_true_started :
    (∀ agent, TellsTruth sampleExecutor assignedResolved.job
        (sampleStep assignedResolved agent).1.1
        (sampleStep assignedResolved agent).2) ∧
      ¬TellsTruth sampleExecutor verifyingResolved.job
        (sampleStep verifyingResolved AgentState.new).1.1
        (sampleStep verifyingResolved AgentState.new).2 := by
  have truth (resolved : ResolvedJob) :=
    @activeJobs_true_iff sampleHashes sampleExecutor resolved
      (emptyAnswers resolved) rfl .fresh
  constructor
  · intro agent
    refine (truth assignedResolved agent).1.mpr
      (Or.inl ((truth assignedResolved agent).2.mpr ?_))
    refine ⟨rfl, sampleNonce, _, _, rfl, rfl, rfl, ?_⟩
    rintro (posted | bidding | ⟨-, reason, waits⟩)
    · cases posted
    · cases bidding
    · cases waits with
      | revealAfterCommitBlock state => cases state
      | awaitingVerification state => cases state
      | disputeWindow state => cases state
  · intro told
    rcases (truth verifyingResolved AgentState.new).1.mp told with
      decided | count
    · obtain ⟨-, nonce, checked, input, -, -, -, acts⟩ :=
        (truth verifyingResolved AgentState.new).2.mp decided
      apply acts
      refine Or.inr (Or.inr ⟨rfl, _, .disputeWindow rfl rfl ?_ ?_⟩)
      · change 180 ≠ 0
        decide
      · change 200 < FixedWidth.saturatingAdd 128 180 DISPUTE_WINDOW_BLOCKS
        decide
    · revert count
      decide

/-- The slot of a job that went to another provider is not given back. -/
theorem activeJobs_false_reassigned :
    ¬∀ (executor : JobExecutor) resolved answers,
      answers (.resolve executor.jobId) = .ok resolved →
      ∀ progress agent, TellsTruth executor resolved.job
        ((@JobExecutor.step sampleHashes executor progress).runOn
          (stepHandle answers) agent).1.1
        ((@JobExecutor.step sampleHashes executor progress).runOn
          (stepHandle answers) agent).2 := by
  intro truth
  have kept := truth sampleExecutor reassignedResolved
    (emptyAnswers reassignedResolved) rfl .fresh
    (AgentState.new.setActiveJobs 1)
  have count : 1 = 0 := kept.count
  cases count

end NodeAgent.Node
