import NodeAgent.Node.PostedInput

/-!
# The artifacts of an inference run

A step may stop before its plan, refuse its input, fail to provision or fail to
persist.  When it reports that it ran inference, its artifacts are those of an
output that inference returned in this step.
-/

namespace NodeAgent.Node

open Chainio Executor Interaction Lifecycle

/-- The step goes on, or stops with another outcome. -/
def NotRan {α : Type} (result : Except StepOutcome α) : Prop :=
  result ≠ .error .ranInference

theorem failed_notRan {α : Type} (message : String) :
    (recordError message >>= fun outcome =>
      (pure (.error outcome) : StepProgram (Except StepOutcome α))).Ensures
        NotRan := by
  refine Program.ensures_call fun _ => Program.ensures_done ?_
  intro same
  cases same

theorem done_notRan {α : Type} (value : α) :
    (pure (.ok value) : StepProgram (Except StepOutcome α)).Ensures NotRan := by
  refine Program.ensures_done ?_
  intro same
  cases same

theorem resolveNonce_notRan (executor : JobExecutor) (committed : Bool) :
    (executor.resolveNonce committed).Ensures NotRan := by
  unfold JobExecutor.resolveNonce
  split
  · exact done_notRan _
  simp only [Program.perform_bind]
  refine Program.ensures_call fun loaded => ?_
  match loaded with
  | .error error => exact failed_notRan _
  | .ok (some nonce) => exact done_notRan _
  | .ok none =>
      simp only
      split
      · exact failed_notRan _
      · refine Program.ensures_call fun minted => ?_
        cases minted with
        | error error => exact failed_notRan _
        | ok nonce => exact done_notRan _

theorem reloadArtifacts_notRan (executor : JobExecutor)
    (resolved : ResolvedJob) (nonceSeed : Word) (progress : JobProgress) :
    (executor.reloadArtifacts resolved nonceSeed progress).Ensures NotRan := by
  unfold JobExecutor.reloadArtifacts
  split
  · simp only [Program.perform_bind]
    refine Program.ensures_call fun loaded => ?_
    match loaded with
    | .error error => exact failed_notRan _
    | .ok (some art) => exact done_notRan _
    | .ok none =>
        simp only
        split
        · exact failed_notRan _
        · exact done_notRan _
  · exact done_notRan _

section Hashes

variable [HashFunctions]

theorem jobInput_notRan (executor : JobExecutor) (resolved : ResolvedJob)
    (progress : JobProgress) :
    (executor.jobInput resolved progress).Ensures NotRan := by
  unfold JobExecutor.jobInput
  split
  · simp only [Program.perform_bind]
    refine Program.ensures_call fun delivered => ?_
    match delivered with
    | .error error => exact failed_notRan _
    | .ok none =>
        refine Program.ensures_done ?_
        intro same
        cases same
    | .ok (some bytes) =>
        cases resolved.job.inputHash with
        | none => exact failed_notRan _
        | some hash =>
            simp only
            split
            · exact done_notRan _
            · exact failed_notRan _
  · exact done_notRan _

/-- The artifacts are those of an output that this inference run returned. -/
def RanOn (events : List StepEvent) (progress : JobProgress) : Prop :=
  ∃ model input output nonce, ⟨.infer model input, .ok output⟩ ∈ events ∧
    progress.artifacts = some (CommitmentProver.build output nonce) ∧
    progress.nonce = some nonce

theorem infer_ranOn {ctx : JobContext} {progress after : JobProgress}
    {nonceSeed : Word} {events : List StepEvent}
    (traced : (Node.infer ctx progress nonceSeed).Traces events
      (some (.ranInference, after))) : RanOn events after := by
  obtain ⟨provisioned, first, second, rfl, -, asking⟩ :=
    Program.traces_bind_some traced
  cases provisioned with
  | error error => cases failed_traces asking
  | ok model =>
  simp only [Program.perform_bind] at asking
  obtain ⟨answer, rest, rfl, timing⟩ := Program.traces_call.mp asking
  cases answer with
  | error error => cases failed_traces timing
  | ok output =>
  obtain ⟨elapsed, _, rfl, noting⟩ := Program.traces_call.mp timing
  obtain ⟨_, _, rfl, returned⟩ := Program.traces_call.mp noting
  obtain ⟨-, same⟩ := Program.traces_done.mp returned
  cases same
  exact ⟨model, ctx.input, output, _,
    List.mem_append_right first List.mem_cons_self, rfl, rfl⟩

theorem RanOn.append {events : List StepEvent} {progress : JobProgress}
    (ran : RanOn events progress) (earlier : List StepEvent) :
    RanOn (earlier ++ events) progress := by
  obtain ⟨model, input, output, nonce, member, built⟩ := ran
  exact ⟨model, input, output, nonce, List.mem_append_right earlier member,
    built⟩

theorem driveJob_ranOn {ctx : JobContext} {progress after : JobProgress}
    {nonceSeed : Word} {events : List StepEvent}
    (traced : (driveJob ctx progress nonceSeed).Traces events
      (some (.ranInference, after))) : RanOn events after := by
  unfold driveJob at traced
  cases planned : plan (planInput ctx progress) with
  | runInference =>
      simp only [planned, runInference, Program.perform_bind] at traced
      obtain ⟨_, _, rfl, capping⟩ := Program.traces_call.mp traced
      obtain ⟨max, rest, rfl, inferring⟩ := Program.traces_call.mp capping
      split at inferring
      · obtain ⟨_, _, -, refused⟩ := Program.traces_call.mp inferring
        cases (Program.traces_done.mp refused).2
      split at inferring
      · cases failed_traces inferring
      · exact (infer_ranOn inferring).append [_, _]
  | sign request =>
      simp only [planned, signRequest, Program.perform_bind,
        Program.call_bind] at traced
      obtain ⟨_, _, -, signing⟩ := Program.traces_call.mp traced
      obtain ⟨answer, _, -, signed⟩ := Program.traces_call.mp signing
      cases answer with
      | ok observed => cases (Program.traces_done.mp signed).2
      | error error => cases failed_traces signed
  | done =>
      simp only [planned, Program.perform_bind] at traced
      obtain ⟨_, _, -, returned⟩ := Program.traces_call.mp traced
      cases (Program.traces_done.mp returned).2
  | idle =>
      simp only [planned] at traced
      cases (Program.traces_done.mp traced).2
  | wait reason =>
      simp only [planned] at traced
      cases (Program.traces_done.mp traced).2
  | abort reason =>
      simp only [planned, Program.perform_bind] at traced
      obtain ⟨_, _, -, returned⟩ := Program.traces_call.mp traced
      cases (Program.traces_done.mp returned).2

omit [HashFunctions] in
theorem persist_ran {executor : JobExecutor} {outcome : StepOutcome}
    {progress after : JobProgress} {events : List StepEvent}
    (traced : (executor.persist outcome progress).Traces events
      (some (.ranInference, after))) :
    outcome = .ranInference ∧ after = progress := by
  unfold JobExecutor.persist at traced
  split at traced
  · obtain ⟨answer, _, -, returned⟩ := Program.traces_call.mp traced
    cases answer with
    | error error => cases failed_traces returned
    | ok _ =>
        cases (Program.traces_done.mp returned).2
        exact ⟨rfl, rfl⟩
  · cases (Program.traces_done.mp traced).2
    exact ⟨rfl, rfl⟩

/-- A step that reports an inference run has made one, and its artifacts are
those of the output. -/
theorem step_ranOn {executor : JobExecutor} {progress after : JobProgress}
    {events : List StepEvent}
    (traced : (executor.step progress).Traces events
      (some (.ranInference, after))) : RanOn events after := by
  simp only [JobExecutor.step, Program.perform_bind] at traced
  obtain ⟨answer, resolving, rfl, stepping⟩ := Program.traces_call.mp traced
  cases answer with
  | error error => cases failed_traces stepping
  | ok resolved =>
  apply RanOn.append _ [_]
  simp only [JobExecutor.stepResolved] at stepping
  split at stepping
  · cases (Program.traces_done.mp stepping).2
  obtain ⟨seeded, _, _, rfl, seeding, stepping⟩ :=
    Program.traces_bind_some stepping
  cases seeded with
  | error outcome =>
      cases (Program.traces_done.mp stepping).2
      exact absurd rfl (resolveNonce_notRan executor _ _ seeding.returns)
  | ok nonceSeed =>
  apply RanOn.append
  obtain ⟨reloaded, _, _, rfl, reloading, stepping⟩ :=
    Program.traces_bind_some stepping
  cases reloaded with
  | error outcome =>
      cases (Program.traces_done.mp stepping).2
      exact absurd rfl (reloadArtifacts_notRan executor _ _ _ _
        reloading.returns)
  | ok known =>
  apply RanOn.append
  obtain ⟨delivered, _, _, rfl, delivering, stepping⟩ :=
    Program.traces_bind_some stepping
  cases delivered with
  | error outcome =>
      cases (Program.traces_done.mp stepping).2
      exact absurd rfl (jobInput_notRan executor _ _ _ delivering.returns)
  | ok input =>
  apply RanOn.append
  obtain ⟨driven, _, _, rfl, driving, persisting⟩ :=
    Program.traces_bind_some stepping
  obtain ⟨outcome, reached⟩ := driven
  obtain ⟨rfl, rfl⟩ := persist_ran persisting
  obtain ⟨model, input, output, nonce, member, built⟩ := driveJob_ranOn driving
  exact ⟨model, input, output, nonce, List.mem_append_left _ member, built⟩

end Hashes

end NodeAgent.Node
