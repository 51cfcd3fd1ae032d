import NodeAgent.Node.Execution

/-!
# What the parts of a step may do

Inference and the signer are the two operations of a step that matter to the
requester.  Everything before and after them only reads and writes the store,
the weight cache, the input channel and the shared state.
-/

namespace NodeAgent.Node

open Chainio Executor Interaction Lifecycle

/-- The planner's input for a resolved job. -/
def resolvedInput (executor : JobExecutor) (resolved : ResolvedJob)
    (progress : JobProgress) : PlanInput :=
  planInput (executor.context resolved []) progress

/-- Neither inference nor a request to the signer. -/
def isBackground : StepOp → Prop
  | .infer _ _ | .request _ => False
  | _ => True

theorem recordError_background (message : String) :
    (recordError message).Uses isBackground :=
  Program.uses_call trivial fun _ => Program.uses_done _

theorem failed_background {α : Type} (message : String)
    (result : StepOutcome → α) :
    (recordError message >>= fun outcome =>
      (pure (result outcome) : StepProgram α)).Uses isBackground :=
  Program.uses_bind (recordError_background message) fun _ =>
    Program.uses_done _

theorem resolveNonce_background (executor : JobExecutor) (committed : Bool) :
    (executor.resolveNonce committed).Uses isBackground := by
  unfold JobExecutor.resolveNonce
  split
  · exact Program.uses_done _
  · refine Program.uses_call trivial ?_
    intro loaded
    cases loaded with
    | error error => exact failed_background _ _
    | ok found =>
        cases found with
        | some nonce => exact Program.uses_done _
        | none =>
            split
            · exact failed_background _ _
            · refine Program.uses_call trivial ?_
              intro minted
              cases minted with
              | error error => exact failed_background _ _
              | ok nonce => exact Program.uses_done _

theorem reloadArtifacts_background (executor : JobExecutor)
    (resolved : ResolvedJob) (nonceSeed : Word) (progress : JobProgress) :
    (executor.reloadArtifacts resolved nonceSeed progress).Uses
      isBackground := by
  unfold JobExecutor.reloadArtifacts
  split
  · refine Program.uses_call trivial ?_
    intro loaded
    cases loaded with
    | error error => exact failed_background _ _
    | ok found =>
        cases found with
        | some art => exact Program.uses_done _
        | none =>
            split
            · exact failed_background _ _
            · exact Program.uses_done _
  · exact Program.uses_done _

theorem persist_done (executor : JobExecutor) {outcome : StepOutcome}
    (other : outcome ≠ .ranInference) (progress : JobProgress) :
    executor.persist outcome progress = return (outcome, progress) := by
  cases outcome <;> first | rfl | exact absurd rfl other

theorem persist_background (executor : JobExecutor) (outcome : StepOutcome)
    (progress : JobProgress) :
    (executor.persist outcome progress).Uses isBackground := by
  unfold JobExecutor.persist
  split
  · refine Program.uses_call trivial ?_
    intro saved
    cases saved with
    | error error => exact failed_background _ _
    | ok _ => exact Program.uses_done _
  · exact Program.uses_done _

variable [HashFunctions]

theorem jobInput_background (executor : JobExecutor) (resolved : ResolvedJob)
    (progress : JobProgress) :
    (executor.jobInput resolved progress).Uses isBackground := by
  unfold JobExecutor.jobInput
  split
  · rw [Program.perform_bind]
    refine Program.uses_call trivial ?_
    intro answer
    cases answer with
    | error error => exact failed_background _ _
    | ok delivered =>
        cases delivered with
        | none => exact Program.uses_done _
        | some bytes =>
            cases resolved.job.inputHash with
            | none => exact failed_background _ _
            | some hash =>
                by_cases bound : keccak256Bytes bytes = hash
                · simp only [bound, if_true]
                  exact Program.uses_done _
                · simp only [bound, if_false]
                  exact failed_background _ _
  · exact Program.uses_done _

theorem provisionModel_background (ctx : JobContext) :
    (provisionModel ctx).Uses isBackground := by
  apply Program.uses_interp
  intro op
  exact Program.uses_call trivial fun _ => Program.uses_done _

end NodeAgent.Node
