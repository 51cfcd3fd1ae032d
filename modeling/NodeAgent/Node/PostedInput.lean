import NodeAgent.Library.History
import NodeAgent.Node.JobSeparation
import NodeAgent.Node.StepOps

/-!
# Inference on the posted input

A step loads the input when its own condition says so, and runs inference when
the planner says so; on every other path an empty placeholder goes through.
The two conditions coincide: whatever the store, the chain and the input
channel answer, an inference run is preceded in the same step by everything
that binds it to the job.
-/

namespace NodeAgent.Node

open Chainio Executor Interaction Lifecycle RelyGuarantee

abbrev StepEvent := Event StepAnswer

/-- The events of provisioning, as events of a step. -/
def provisionEvents (events : List (Event ProvisionAnswer)) : List StepEvent :=
  events.map fun event => ⟨.provision event.1, event.2⟩

theorem failed_traces {α : Type} {message : String}
    {result : StepOutcome → α} {events : List StepEvent} {value : α}
    (traced : (recordError message >>= fun outcome =>
      (pure (result outcome) : StepProgram α)).Traces events (some value)) :
    result (.error message) = value := by
  simp only [recordError, Program.perform_bind, Program.call_bind,
    Program.pure_eq, Program.done_bind, Program.traces_call,
    Program.traces_done] at traced
  obtain ⟨answer, rest, -, -, same⟩ := traced
  exact same

section Hashes

variable [HashFunctions]

/-- The input was delivered for a job of mine that is executing under the
commitment tier, and it is the posted one. -/
structure InputBound (executor : JobExecutor) (resolved : ResolvedJob)
    (input : Bytes) (events : List StepEvent) : Prop where
  read : ⟨.resolve executor.jobId, .ok resolved⟩ ∈ events
  executing : resolved.job.state = .executing
  mine : resolved.job.assignedProvider = executor.me
  tier : effectiveTier (resolvedInput executor resolved .fresh) = .commitment
  delivered : ⟨.inputFor executor.jobId, .ok (some input)⟩ ∈ events
  bound : resolved.job.inputHash = some (keccak256Bytes input)

/-- Moreover it fits, and the model has just been provisioned. -/
structure InferenceChecked (executor : JobExecutor) (resolved : ResolvedJob)
    (model : ProvisionedModel) (input : Bytes) (events : List StepEvent) :
    Prop extends InputBound executor resolved input events where
  fits : ∃ max, ⟨.maxJobInputBytes, max⟩ ∈ events ∧ input.length ≤ max
  provisioned : ∃ earlier provisioning,
    events = earlier ++ provisionEvents provisioning ∧
      (provision resolved.job.modelHash resolved.ipfsCid resolved.isActive
        resolved.expectedSize resolved.expectedSha256
        executor.cacheDir).Traces provisioning (some (.ok model))

/-- Inference is checked first. -/
def CheckedFirst (executor : JobExecutor) (events : List StepEvent) :
    StepOp → Prop
  | .infer model input =>
      ∃ resolved, InferenceChecked executor resolved model input events
  | _ => True

theorem InputBound.append {executor : JobExecutor} {resolved : ResolvedJob}
    {input : Bytes} {events : List StepEvent}
    (bound : InputBound executor resolved input events)
    (later : List StepEvent) :
    InputBound executor resolved input (events ++ later) :=
  { bound with
    read := List.mem_append_left _ bound.read
    delivered := List.mem_append_left _ bound.delivered }

theorem background_guards {α : Type} {program : StepProgram α}
    (background : program.Uses isBackground) (executor : JobExecutor)
    (events : List StepEvent) :
    program.Guards (CheckedFirst executor) events := by
  apply background.guards
  intro earlier op quiet
  cases op <;> trivial

/-- The input that is passed on to an inference run was delivered and bound. -/
theorem jobInput_delivered {executor : JobExecutor} {resolved : ResolvedJob}
    {progress : JobProgress} {input : Bytes} {events : List StepEvent}
    (executing : resolved.job.state = .executing)
    (absent : progress.artifacts = none)
    (traced : (executor.jobInput resolved progress).Traces events
      (some (.ok input))) :
    ⟨.inputFor executor.jobId, .ok (some input)⟩ ∈ events ∧
      resolved.job.inputHash = some (keccak256Bytes input) := by
  have needed : resolved.job.state = .executing ∧
      progress.artifacts.isNone = true := ⟨executing, by simp [absent]⟩
  rw [JobExecutor.jobInput, if_pos needed, Program.perform_bind,
    Program.traces_call] at traced
  obtain ⟨answer, rest, rfl, traced⟩ := traced
  cases answer with
  | error error => cases failed_traces traced
  | ok delivered =>
      cases delivered with
      | none =>
          obtain ⟨-, same⟩ := Program.traces_done.mp traced
          cases same
      | some bytes =>
          cases hashed : resolved.job.inputHash with
          | none =>
              simp only [hashed] at traced
              cases failed_traces traced
          | some hash =>
              simp only [hashed] at traced
              split at traced
              · rename_i bound
                obtain ⟨-, same⟩ := Program.traces_done.mp traced
                cases same
                exact ⟨List.mem_cons_self, congrArg some bound.symm⟩
              · cases failed_traces traced

theorem infer_checkedFirst {executor : JobExecutor} {resolved : ResolvedJob}
    {input : Bytes} {events : List StepEvent}
    (bound : InputBound executor resolved input events)
    (fits : ∃ max, ⟨.maxJobInputBytes, max⟩ ∈ events ∧ input.length ≤ max)
    (progress : JobProgress) (nonceSeed : Word) :
    (Node.infer (executor.context resolved input) progress nonceSeed).Guards
      (CheckedFirst executor) events := by
  unfold Node.infer
  apply Program.guards_bind
    (background_guards (provisionModel_background _) executor events)
  intro trace provisioned traced
  cases provisioned with
  | error error => exact background_guards (failed_background _ _) executor _
  | ok model =>
      obtain ⟨provisioning, ran, rfl⟩ := Program.traces_interp traced
      apply Program.guards_call
      · obtain ⟨max, isMax, within⟩ := fits
        exact ⟨resolved, bound.append _,
          ⟨max, List.mem_append_left _ isMax, within⟩,
          ⟨events, provisioning, rfl, ran⟩⟩
      · intro inferred
        cases inferred with
        | error error =>
            exact background_guards (failed_background _ _) executor _
        | ok output =>
            exact Program.guards_call trivial fun elapsed =>
              Program.guards_call trivial fun _ => Program.guards_done _

theorem runInference_checkedFirst {executor : JobExecutor}
    {resolved : ResolvedJob} {input : Bytes} {events : List StepEvent}
    (bound : InputBound executor resolved input events)
    (progress : JobProgress) (nonceSeed : Word) :
    (runInference (executor.context resolved input) progress nonceSeed).Guards
      (CheckedFirst executor) events := by
  simp only [runInference, Program.perform_bind]
  refine Program.guards_call trivial fun _ => ?_
  refine Program.guards_call trivial fun max => ?_
  split
  · exact Program.guards_call trivial fun _ => Program.guards_done _
  · rename_i fits
    split
    · exact background_guards (failed_background _ _) executor _
    · apply infer_checkedFirst ((bound.append _).append _)
      exact ⟨max, List.mem_append_right _ List.mem_cons_self, not_lt.mp fits⟩

/-- What the planner asks for is guarded, when the input of an inference run
is bound. -/
theorem driveJob_checkedFirst {executor : JobExecutor} {resolved : ResolvedJob}
    {input : Bytes} {progress : JobProgress} {events : List StepEvent}
    (bound : plan (resolvedInput executor resolved progress) = .runInference →
      InputBound executor resolved input events) (nonceSeed : Word) :
    (driveJob (executor.context resolved input) progress nonceSeed).Guards
      (CheckedFirst executor) events := by
  unfold driveJob
  have same : planInput (executor.context resolved input) progress =
      resolvedInput executor resolved progress := rfl
  rw [same]
  cases planned : plan (resolvedInput executor resolved progress) with
  | runInference =>
      exact runInference_checkedFirst (bound planned) progress nonceSeed
  | sign request =>
      refine Program.guards_call trivial fun _ => ?_
      refine Program.guards_call trivial fun answer => ?_
      cases answer with
      | ok observed => exact Program.guards_done _
      | error error =>
          exact background_guards (failed_background _ _) executor _
  | done => exact Program.guards_call trivial fun _ => Program.guards_done _
  | idle => exact Program.guards_done _
  | wait reason => exact Program.guards_done _
  | abort reason =>
      exact Program.guards_call trivial fun _ => Program.guards_done _

theorem stepResolved_checkedFirst {executor : JobExecutor}
    {resolved : ResolvedJob} {events : List StepEvent}
    (read : ⟨.resolve executor.jobId, .ok resolved⟩ ∈ events)
    (progress : JobProgress) :
    (executor.stepResolved resolved progress).Guards (CheckedFirst executor)
      events := by
  unfold JobExecutor.stepResolved
  split
  · exact Program.guards_done _
  rename_i mine
  apply Program.guards_bind
    (background_guards (resolveNonce_background _ _) executor _)
  intro nonceEvents resolution _
  cases resolution with
  | error outcome => exact Program.guards_done _
  | ok nonceSeed =>
  apply Program.guards_bind
    (background_guards (reloadArtifacts_background _ _ _ _) executor _)
  intro reloadEvents reloading _
  cases reloading with
  | error outcome => exact Program.guards_done _
  | ok reloaded =>
  apply Program.guards_bind
    (background_guards (jobInput_background _ _ _) executor _)
  intro inputEvents delivery traced
  cases delivery with
  | error outcome => exact Program.guards_done _
  | ok input =>
  apply Program.guards_bind
  · apply driveJob_checkedFirst
    intro planned
    obtain ⟨executing, absent, tier⟩ := plan_runInference planned
    obtain ⟨delivered, bound⟩ := jobInput_delivered executing absent traced
    exact ⟨by simp [read], executing, not_not.mp mine, tier,
      List.mem_append_right _ delivered, bound⟩
  · intro driveEvents driven _
    exact background_guards (persist_background _ _ _) executor _

theorem step_checkedFirst (executor : JobExecutor) (progress : JobProgress) :
    (executor.step progress).Guards (CheckedFirst executor) [] := by
  unfold JobExecutor.step
  refine Program.guards_call trivial fun answer => ?_
  cases answer with
  | error error => exact background_guards (failed_background _ _) executor _
  | ok resolved => exact stepResolved_checkedFirst List.mem_cons_self progress

theorem executorExec_log (world : ExecutorWorld Unit) (op : StepOp)
    (choice : ExecutorChoice) :
    world.log ⊆ (executorExec () world op choice).2.log := by
  cases op with
  | mint store jobId =>
      have executed : executorExec () world (.mint store jobId) choice =
        (_, _) := rfl
      obtain ⟨-, logs, -⟩ := executorExec_mint () executed
      exact logs.subset
  | infer model input =>
      have executed : executorExec () world (.infer model input) choice =
        (_, _) := rfl
      obtain ⟨-, output, logs, -⟩ := executorExec_infer () executed
      exact logs.subset
  | request request => exact List.subset_append_left _ _
  | _ => exact List.Subset.refl _

/-- The log agrees with what was executed: outputs come from inference runs,
and requests are logged. -/
structure LogMatches (world : ExecutorWorld Unit)
    (performed : List (Performed Unit StepAnswer)) : Prop where
  inferred : ∀ output, .inferred () output ∈ world.log →
    ∃ entry ∈ performed, ∃ model input,
      entry.event = ⟨.infer model input, .ok output⟩
  requested : ∀ entry ∈ performed, ∀ request answer,
    entry.event = ⟨.request request, answer⟩ →
      .requested () request ∈ world.log

theorem executorExec_inferred {world : ExecutorWorld Unit} {op : StepOp}
    {choice : ExecutorChoice} {output : Bytes}
    (logged : .inferred () output ∈
      (executorExec () world op choice).2.log) :
    .inferred () output ∈ world.log ∨
      ∃ model input, (⟨op, (executorExec () world op choice).1⟩ : StepEvent) =
        ⟨.infer model input, .ok output⟩ := by
  cases op with
  | mint store jobId =>
      have executed : executorExec () world (.mint store jobId) choice =
        (_, _) := rfl
      obtain ⟨-, logs, -⟩ := executorExec_mint () executed
      exact Or.inl (logs.other nofun logged)
  | infer model input =>
      cases inferred : choice.inferred with
      | error error =>
          simp only [executorExec, inferred] at logged
          exact Or.inl logged
      | ok answer =>
          simp only [executorExec, inferred, ExecutorWorld.record,
            List.mem_append, List.mem_singleton] at logged
          rcases logged with earlier | now
          · exact Or.inl earlier
          · cases now
            exact Or.inr ⟨model, input, by simp [executorExec, inferred]⟩
  | request request =>
      simp only [executorExec, ExecutorWorld.record, List.mem_append,
        List.mem_singleton, reduceCtorEq, or_false] at logged
      exact Or.inl logged
  | _ => exact Or.inl logged

theorem logMatches_exec {world : ExecutorWorld Unit}
    {performed : List (Performed Unit StepAnswer)}
    (agree : LogMatches world performed) (op : StepOp)
    (choice : ExecutorChoice) (before : List StepEvent) :
    LogMatches (executorExec () world op choice).2 (performed ++
      [⟨(), before, ⟨op, (executorExec () world op choice).1⟩⟩]) where
  inferred output logged := by
    rcases executorExec_inferred logged with earlier | ⟨model, input, now⟩
    · obtain ⟨entry, member, run⟩ := agree.inferred output earlier
      exact ⟨entry, List.mem_append_left _ member, run⟩
    · exact ⟨_, List.mem_append_right _ List.mem_cons_self, model, input, now⟩
  requested entry member request answer same := by
    rcases List.mem_append.mp member with earlier | now
    · apply executorExec_log
      exact agree.requested entry earlier request answer same
    · rw [List.mem_singleton.mp now] at same
      cases same
      exact List.mem_append_right _ List.mem_cons_self

/-- A run of one executor on an empty store, with its history. -/
def executorHistory (executor : JobExecutor) (store : NonceStore)
    (schedule : List (ExecutorAction Unit)) :
    History Unit StepOp StepAnswer JobProgress (ExecutorWorld Unit) :=
  let system := executorSystem fun _ : Unit => executor.withStore store
  Runs.run system.record (system.beginning ⟨noFiles, []⟩) schedule

/-- The job that an event reads. -/
def resolvedIn : StepEvent → Option ResolvedJob
  | ⟨.resolve _, answer⟩ => answer.toOption
  | _ => none

/-- The job keeps its model and its input on chain. -/
def KeepsJob (modelHash : Word) (inputHash : Option Word)
    (performed : List (Performed Unit StepAnswer)) : Prop :=
  ∀ entry ∈ performed, ∀ resolved ∈ resolvedIn entry.event,
    resolved.job.modelHash = modelHash ∧ resolved.job.inputHash = inputHash

instance (modelHash : Word) (inputHash : Option Word)
    (performed : List (Performed Unit StepAnswer)) :
    Decidable (KeepsJob modelHash inputHash performed) :=
  inferInstanceAs (Decidable (∀ entry ∈ performed,
    ∀ resolved ∈ resolvedIn entry.event, _))

/-- Inference runs on the posted input only, and commitments cover only such
runs. -/
structure PostedInputOnly (executor : JobExecutor) (modelHash : Word)
    (inputHash : Option Word) (performed : List (Performed Unit StepAnswer)) :
    Prop where
  inferred : ∀ entry ∈ performed, ∀ model input answer,
    entry.event = ⟨.infer model input, answer⟩ →
      ∃ resolved,
        InferenceChecked executor resolved model input entry.before ∧
          resolved.job.modelHash = modelHash ∧
          resolved.job.inputHash = inputHash
  committed : ∀ earlier entry later request answer,
    performed = earlier ++ entry :: later →
      entry.event = ⟨.request request, answer⟩ →
      request.intent = .submitCommitment →
        ∃ jobId output nonce,
          request.calldata = encodeSubmitCommitment jobId
              (CommitmentProver.commitment output nonce) ∧
            ∃ run ∈ earlier, ∃ model input,
              run.event = ⟨.infer model input, .ok output⟩
  unbindable : inputHash = none → ∀ entry ∈ performed,
    (∀ model input answer, entry.event ≠ ⟨.infer model input, answer⟩) ∧
      ∀ request answer, entry.event = ⟨.request request, answer⟩ →
        request.intent ≠ .submitCommitment

section Runs

variable (executor : JobExecutor) (store : NonceStore)
  (schedule : List (ExecutorAction Unit))

theorem executorHistory_world :
    (executorHistory executor store schedule).pool.world =
      (runExecutors (fun _ : Unit => executor.withStore store) noFiles
        schedule).world :=
  congrArg Pool.world (System.recorded_pool _ _ schedule)

theorem logMatches_run :
    LogMatches (executorHistory executor store schedule).pool.world
      (executorHistory executor store schedule).performed := by
  have initially : LogMatches ⟨noFiles, []⟩ [] :=
    ⟨fun _ logged => absurd logged List.not_mem_nil,
      fun _ member => absurd member List.not_mem_nil⟩
  unfold executorHistory
  refine System.recorded_invariant _ LogMatches ?_
    (fun _ _ event _ => nomatch event) initially schedule
  intro world performed thread before op choice agree
  exact logMatches_exec agree op choice before

/-- Every executed inference run was checked first. -/
theorem checkedFirst_run :
    ∀ entry ∈ (executorHistory executor store schedule).performed,
      CheckedFirst (executor.withStore store) entry.before entry.event.1 := by
  have bodies (thread arg : Unit) (memory : JobProgress) :
      ((executorSystem fun _ : Unit => executor.withStore store).body thread
        arg memory).Guards (CheckedFirst (executor.withStore store)) [] := by
    apply Program.guards_bind (step_checkedFirst _ memory)
    intro trace result _
    exact Program.guards_done _
  unfold executorHistory
  exact guarded_performed bodies ⟨noFiles, []⟩ schedule

/-- A commitment covers an output that was inferred before. -/
theorem committed_run {earlier later : List (Performed Unit StepAnswer)}
    {entry : Performed Unit StepAnswer} {request : SignatureRequest}
    {answer : Except JobSignerError TxObserved}
    (split : (executorHistory executor store schedule).performed =
      earlier ++ entry :: later)
    (requests : entry.event = ⟨.request request, answer⟩)
    (commits : request.intent = .submitCommitment) :
    ∃ jobId output nonce,
      request.calldata = encodeSubmitCommitment jobId
          (CommitmentProver.commitment output nonce) ∧
        ∃ run ∈ earlier, ∃ model input,
          run.event = ⟨.infer model input, .ok output⟩ := by
  obtain ⟨start, -, -, ends⟩ := System.performed_prefix _ rfl split
  have agree := logMatches_run executor store start
  have logged := agree.requested entry
    (ends ▸ List.mem_append_right earlier List.mem_cons_self) request answer
    requests
  have noCross : NoCross (fun _ : Unit => executor)
      (executorHistory executor store start).pool.world := by
    rw [executorHistory_world]
    exact noCross_of_distinct (fun _ _ _ => rfl) start
  obtain ⟨jobId, output, nonce, calldata, -, ⟨_, -, inferred⟩⟩ :=
    noCross () request logged commits
  obtain ⟨run, member, model, input, isRun⟩ := agree.inferred output inferred
  refine ⟨jobId, output, nonce, calldata, run, ?_, model, input, isRun⟩
  rw [executorHistory, ends, List.mem_append, List.mem_singleton] at member
  rcases member with before | rfl
  · exact before
  · rw [requests] at isRun
    cases isRun

end Runs

/-- In every run of an executor on an empty store, inference runs on the posted
input only, and commitments cover only such runs. -/
theorem inference_onPostedInput (executor : JobExecutor) (store : NonceStore)
    {modelHash : Word} {inputHash : Option Word}
    {schedule : List (ExecutorAction Unit)}
    (keeps : KeepsJob modelHash inputHash
      (executorHistory executor store schedule).performed) :
    PostedInputOnly (executor.withStore store) modelHash inputHash
      (executorHistory executor store schedule).performed := by
  have inferred : ∀ entry ∈ (executorHistory executor store schedule).performed,
      ∀ model input answer, entry.event = ⟨.infer model input, answer⟩ →
        ∃ resolved, InferenceChecked (executor.withStore store) resolved model
          input entry.before ∧ resolved.job.modelHash = modelHash ∧
          resolved.job.inputHash = inputHash := by
    intro entry member model input answer runs
    have checked := checkedFirst_run executor store schedule entry member
    rw [runs] at checked
    obtain ⟨resolved, checked⟩ := checked
    obtain ⟨source, isSource, same⟩ :=
      (sourced_run _ _ schedule).before entry member _ checked.read
    have read : resolved ∈ resolvedIn source.event := by
      rw [same]
      rfl
    exact ⟨resolved, checked, keeps source isSource resolved read⟩
  refine ⟨inferred, fun _ _ _ _ _ => committed_run executor store schedule, ?_⟩
  intro unposted entry member
  have noRun (entry : Performed Unit StepAnswer)
      (member : entry ∈ (executorHistory executor store schedule).performed)
      (model : ProvisionedModel) (input : Bytes)
      (answer : Except InferenceError Bytes) :
      entry.event ≠ ⟨.infer model input, answer⟩ := by
    intro runs
    obtain ⟨resolved, checked, -, posted⟩ :=
      inferred entry member model input answer runs
    rw [unposted, checked.bound] at posted
    cases posted
  refine ⟨noRun entry member, ?_⟩
  intro request answer requests commits
  obtain ⟨earlier, later, split⟩ := List.append_of_mem member
  obtain ⟨-, output, -, -, run, isEarlier, model, input, runs⟩ :=
    committed_run executor store schedule split requests commits
  exact noRun run (split ▸ List.mem_append_left _ isEarlier) model input _ runs

end Hashes

/-- A first step that runs inference, and a second one that commits. -/
theorem inference_onPostedInput_committed :
    @PostedInputOnly sampleHashes (sampleExecutor.withStore sampleStore)
      sampleJob.modelHash sampleJob.inputHash
      (@executorHistory sampleHashes sampleExecutor sampleStore
        (stepOf () [1] 12 ++ stepOf () [1] 7)).performed :=
  @inference_onPostedInput sampleHashes sampleExecutor sampleStore _ _
    (stepOf () [1] 12 ++ stepOf () [1] 7) (by decide +kernel)

end NodeAgent.Node
