import NodeAgent.Node.ExecutorPool
import NodeAgent.Node.StepOps

/-!
# One step of a won job

A step of an executor whose reads, writes, inference and signer may fail, over
a store that keeps a nonce and at most one set of artifacts for the job.  The
only failure left out is a nonce file that was cut short while it was written:
no later step can use it.
-/

namespace NodeAgent.Node

open Chainio Executor Interaction Lifecycle

/-- No nonce file, or a whole one that the progress agrees with. -/
def NonceHeld (store : NonceStore) (jobId : Nat) (files : Files)
    (known : Option Word) : Prop :=
  files (store.pathFor jobId) = none ∧ known = none ∨
    ∃ nonce : Word, files (store.pathFor jobId) = some nonce.toList ∧
      (known = none ∨ known = some nonce)

/-- Minting never opens the nonce file and then fails to fill it. -/
def ExecutorChoice.MintsWhole (choice : ExecutorChoice) : Prop :=
  ∀ message written, choice.mintFault ≠ some (.write (.torn message written))

/-- What is inferred fits an artifacts file. -/
def ExecutorChoice.OutputFits (choice : ExecutorChoice) : Prop :=
  ∀ output, choice.inferred = .ok output →
    64 + output.length ≤ MAX_ARTIFACTS_BYTES

/-- No store operation fails. -/
structure ExecutorChoice.StoreSound (choice : ExecutorChoice) : Prop where
  load : choice.loadFault = none
  mint : choice.mintFault = none
  artifacts : choice.artifactsFault = ⟨none, none⟩
  save : choice.saveFault = none

variable {store : NonceStore} {jobId : Nat} {files : Files}
  {choice : ExecutorChoice}

/-- Minting without a torn write: nothing happens, or the nonce is there. -/
theorem mint_whole (whole : choice.MintsWhole)
    (absent : files (store.pathFor jobId) = none) :
    (∃ message, store.mint jobId choice.minted choice.mintFault files =
        (.error message, files)) ∧ choice.mintFault ≠ none ∨
      store.mint jobId choice.minted choice.mintFault files =
        (.ok choice.minted,
          files.write (store.pathFor jobId) choice.minted.toList) := by
  cases fault : choice.mintFault with
  | none => exact Or.inr (NonceStore.mint_faultless _ absent)
  | some stop =>
      cases stop with
      | setup message => exact Or.inl ⟨⟨message, rfl⟩, nofun⟩
      | write stop =>
          cases stop with
          | notOpened message => exact Or.inl ⟨⟨message, rfl⟩, nofun⟩
          | torn message written => exact absurd fault (whole message written)

theorem load_absent (loaded : store.load jobId choice.loadFault files =
    .ok none) : files (store.pathFor jobId) = none := by
  unfold NonceStore.load at loaded
  split at loaded
  · cases loaded
  · cases present : files (store.pathFor jobId) with
    | none => rfl
    | some bytes =>
        simp only [present] at loaded
        split at loaded
        · cases loaded
        · cases loaded

variable [HashFunctions]

/-- One operation on a machine of one executor. -/
def wonHandle (choice : ExecutorChoice) (world : ExecutorWorld Unit)
    (op : StepOp) : StepAnswer op × ExecutorWorld Unit :=
  executorExec () world op choice

section Handle

variable (choice : ExecutorChoice) (world : ExecutorWorld Unit)

@[simp] theorem wonHandle_resolve (jobId : Nat) :
    wonHandle choice world (.resolve jobId) = (choice.resolved, world) := rfl

@[simp] theorem wonHandle_load (store : NonceStore) (jobId : Nat) :
    wonHandle choice world (.load store jobId) =
      (store.load jobId choice.loadFault world.files, world) := rfl

@[simp] theorem wonHandle_loadArtifacts (store : NonceStore) (jobId : Nat) :
    wonHandle choice world (.loadArtifacts store jobId) =
      (store.loadArtifacts jobId choice.artifactsFault world.files, world) :=
  rfl

@[simp] theorem wonHandle_saveArtifacts (store : NonceStore) (jobId : Nat)
    (art : CommitmentArtifacts) :
    wonHandle choice world (.saveArtifacts store jobId art) =
      ((store.saveArtifacts jobId art choice.saveFault world.files).1,
        { world with
          files := (store.saveArtifacts jobId art choice.saveFault
            world.files).2 }) := rfl

@[simp] theorem wonHandle_inputFor (jobId : Nat) :
    wonHandle choice world (.inputFor jobId) = (choice.input, world) := rfl

@[simp] theorem wonHandle_write (updates : List Supervision.StateUpdate) :
    wonHandle choice world (.write updates) = ((), world) := rfl

@[simp] theorem wonHandle_maxJobInputBytes :
    wonHandle choice world .maxJobInputBytes =
      (choice.maxJobInputBytes, world) := rfl

@[simp] theorem wonHandle_provision (op : ProvisionOp) :
    wonHandle choice world (.provision op) = (choice.provision op, world) :=
  rfl

@[simp] theorem wonHandle_elapsedSecs :
    wonHandle choice world .elapsedSecs = (choice.elapsedSecs, world) := rfl

@[simp] theorem wonHandle_recordProfile (modelHash : Word) (secs : Nat) :
    wonHandle choice world (.recordProfile modelHash secs) = ((), world) := rfl

@[simp] theorem wonHandle_request (request : SignatureRequest) :
    wonHandle choice world (.request request) =
      (choice.signed, world.record (.requested () request)) := rfl

theorem wonHandle_minted {store : NonceStore} {jobId : Nat}
    (absent : world.files (store.pathFor jobId) = none)
    (minted : store.mint jobId choice.minted choice.mintFault world.files =
      (.ok choice.minted,
        world.files.write (store.pathFor jobId) choice.minted.toList)) :
    wonHandle choice world (.mint store jobId) =
      (.ok choice.minted,
        { files := world.files.write (store.pathFor jobId) choice.minted.toList
          log := world.log ++ [.minted () choice.minted] }) := by
  simp [wonHandle, executorExec, minted, absent, Files.write,
    ExecutorWorld.record]

theorem wonHandle_mintRefused {store : NonceStore} {jobId : Nat}
    {message : String}
    (refused : store.mint jobId choice.minted choice.mintFault world.files =
      (.error message, world.files)) :
    wonHandle choice world (.mint store jobId) = (.error message, world) := by
  cases present : world.files (store.pathFor jobId) <;>
    simp [wonHandle, executorExec, refused, present]

end Handle

/-- What the store and the progress say about the job: nothing inferred yet, or
the artifacts of one output under the persisted nonce. -/
inductive JobHeld (store : NonceStore) (jobId : Nat) (files : Files)
    (progress : JobProgress) : Option (Bytes × Word) → Prop
  | fresh (nonce : NonceHeld store jobId files progress.nonce)
      (file : files (store.artifactsPath jobId) = none)
      (memory : progress.artifacts = none) :
      JobHeld store jobId files progress none
  | inferred {output : Bytes} {nonce : Word}
      (persisted : files (store.pathFor jobId) = some nonce.toList)
      (file : files (store.artifactsPath jobId) =
        some (CommitmentProver.build output nonce).proof)
      (fits : 64 + output.length ≤ MAX_ARTIFACTS_BYTES)
      (memory : progress.artifacts = none ∨
        progress.artifacts = some (CommitmentProver.build output nonce)) :
      JobHeld store jobId files progress (some (output, nonce))

/-- The artifacts of what is held. -/
def heldArtifacts (held : Option (Bytes × Word)) : Option CommitmentArtifacts :=
  held.map fun pair => CommitmentProver.build pair.1 pair.2

variable {progress : JobProgress} {held : Option (Bytes × Word)}

theorem JobHeld.restart (holds : JobHeld store jobId files progress held) :
    JobHeld store jobId files JobProgress.fresh held := by
  cases holds with
  | fresh nonce file memory =>
      refine .fresh ?_ file rfl
      rcases nonce with ⟨absent, -⟩ | ⟨nonce, present, -⟩
      · exact Or.inl ⟨absent, rfl⟩
      · exact Or.inr ⟨nonce, present, Or.inl rfl⟩
  | inferred persisted file fits memory =>
      exact .inferred persisted file fits (Or.inl rfl)

theorem JobHeld.flagged (holds : JobHeld store jobId files progress held)
    (committed : Bool) :
    JobHeld store jobId files { progress with committed := committed } held := by
  cases holds with
  | fresh nonce file memory => exact .fresh nonce file memory
  | inferred persisted file fits memory =>
      exact .inferred persisted file fits memory

theorem JobHeld.minted {after : Files} {nonce : Word}
    (holds : JobHeld store jobId files progress held)
    (absent : files (store.pathFor jobId) = none)
    (file : after (store.pathFor jobId) = some nonce.toList)
    (frame : ∀ path, path ≠ store.pathFor jobId → after path = files path) :
    JobHeld store jobId after progress held := by
  cases holds with
  | fresh nonceHeld artifacts memory =>
      refine .fresh ?_ ?_ memory
      · rcases nonceHeld with ⟨-, unknown⟩ | ⟨nonce', present, -⟩
        · exact Or.inr ⟨nonce, file, Or.inl unknown⟩
        · simp [absent] at present
      · exact (frame _ (store.artifactsPath_ne_pathFor jobId jobId)).trans
          artifacts
  | inferred persisted artifacts fits memory =>
      simp [absent] at persisted

variable {executor : JobExecutor} {world : ExecutorWorld Unit}
  {resolved : ResolvedJob}

/-- What the nonce check leaves behind. -/
structure Seeded (store : NonceStore) (jobId : Nat) (choice : ExecutorChoice)
    (committed : Bool) (progress : JobProgress)
    (held : Option (Bytes × Word)) (world : ExecutorWorld Unit)
    (result : Except StepOutcome Word × ExecutorWorld Unit) : Prop where
  holds : JobHeld store jobId result.2.files progress held
  handed : result.2.handed = world.handed
  file : ∀ nonce, result.1 = .ok nonce →
    result.2.files (store.pathFor jobId) = some nonce.toList
  sound : choice.StoreSound → (committed = true → held ≠ none) →
    ∃ nonce, result.1 = .ok nonce

theorem resolveNonce_seeded (executor : JobExecutor)
    (holds : JobHeld store executor.jobId world.files progress held)
    (whole : choice.MintsWhole) (committed : Bool) :
    Seeded store executor.jobId choice committed progress held world
      (((executor.withStore store).resolveNonce committed).runOn
        (wonHandle choice) world) := by
  have failed (message : String)
      (unsound : ¬(choice.StoreSound ∧ (committed = true → held ≠ none))) :
      Seeded store executor.jobId choice committed progress held world
        ((do
          let outcome ← recordError message
          return .error outcome : StepProgram (Except StepOutcome _)).runOn
            (wonHandle choice) world) :=
    ⟨holds, rfl, nofun, fun sound known => absurd ⟨sound, known⟩ unsound⟩
  simp only [JobExecutor.resolveNonce, JobExecutor.withStore,
    Program.perform_bind, Program.runOn_call, wonHandle_load]
  cases loaded : store.load executor.jobId choice.loadFault world.files with
  | error message =>
      apply failed
      rintro ⟨sound, -⟩
      rw [sound.load] at loaded
      cases holds with
      | fresh nonce file memory =>
          rcases nonce with ⟨absent, -⟩ | ⟨word, present, -⟩
          · simp [NonceStore.load, absent] at loaded
          · simp [NonceStore.load_written present] at loaded
      | inferred persisted file fits memory =>
          simp [NonceStore.load_written persisted] at loaded
  | ok found =>
      cases found with
      | some nonce =>
          refine ⟨holds, rfl, ?_, fun _ _ => ⟨nonce, rfl⟩⟩
          rintro _ ⟨⟩
          exact NonceStore.load_some loaded
      | none =>
          have absent := load_absent loaded
          cases committed with
          | true =>
              apply failed
              rintro ⟨-, known⟩
              cases holds with
              | fresh nonce file memory => exact known rfl rfl
              | inferred persisted file fits memory =>
                  simp [absent] at persisted
          | false =>
              simp only [Bool.false_eq_true, if_false, Program.runOn_call]
              rcases mint_whole whole absent with
                ⟨⟨message, refused⟩, faulty⟩ | minted
              · rw [wonHandle_mintRefused _ _ refused]
                apply failed
                rintro ⟨sound, -⟩
                exact faulty sound.mint
              · rw [wonHandle_minted _ _ absent minted]
                refine ⟨?_, ?_, ?_, fun _ _ => ⟨_, rfl⟩⟩
                · apply holds.minted absent (Function.update_self _ _ _)
                  intro path elsewhere
                  exact Function.update_of_ne elsewhere _ _
                · simp [ExecutorWorld.handed]
                · rintro _ ⟨⟩
                  exact Function.update_self _ _ _

/-- What the artifacts check leaves behind. -/
structure Reloaded (store : NonceStore) (jobId : Nat) (choice : ExecutorChoice)
    (resolved : ResolvedJob) (progress : JobProgress)
    (held : Option (Bytes × Word)) (world : ExecutorWorld Unit)
    (result : Except StepOutcome JobProgress × ExecutorWorld Unit) :
    Prop where
  still : result.2 = world
  progress : ∀ next, result.1 = .ok next →
    JobHeld store jobId world.files next held ∧
      next.committed = progress.committed ∧
      next.artifacts = heldArtifacts held
  sound : choice.StoreSound →
    (resolved.committed = true → held ≠ none) → ∃ next, result.1 = .ok next

theorem reloadArtifacts_reloaded (choice : ExecutorChoice)
    (resolved : ResolvedJob)
    (holds : JobHeld store executor.jobId world.files progress held)
    (nonce : Word) :
    Reloaded store executor.jobId choice resolved progress held world
      (((executor.withStore store).reloadArtifacts resolved nonce
        progress).runOn (wonHandle choice) world) := by
  have failed (message : String)
      (unsound : ¬(choice.StoreSound ∧
        (resolved.committed = true → held ≠ none))) :
      Reloaded store executor.jobId choice resolved progress held world
        ((do
          let outcome ← recordError message
          return .error outcome : StepProgram (Except StepOutcome _)).runOn
            (wonHandle choice) world) :=
    ⟨rfl, nofun, fun sound known => absurd ⟨sound, known⟩ unsound⟩
  cases memory : progress.artifacts with
  | some art =>
      have kept : heldArtifacts held = some art := by
        cases holds with
        | fresh nonceHeld file none => simp [none] at memory
        | inferred persisted file fits known =>
            rcases known with none | known
            · simp [none] at memory
            · exact known.symm.trans memory
      have same : ((executor.withStore store).reloadArtifacts resolved nonce
          progress).runOn (wonHandle choice) world = (.ok progress, world) := by
        simp [JobExecutor.reloadArtifacts, memory]
      rw [same]
      refine ⟨rfl, ?_, fun _ _ => ⟨progress, rfl⟩⟩
      rintro _ ⟨⟩
      exact ⟨holds, rfl, memory.trans kept.symm⟩
  | none =>
      simp only [JobExecutor.reloadArtifacts, JobExecutor.withStore, memory,
        Program.perform_bind, Program.runOn_call, wonHandle_loadArtifacts]
      cases loaded : store.loadArtifacts executor.jobId choice.artifactsFault
          world.files with
      | error message =>
          apply failed
          rintro ⟨sound, -⟩
          rw [sound.artifacts] at loaded
          cases holds with
          | fresh nonceHeld file known =>
              simp [NonceStore.loadArtifacts, NonceStore.loadArtifactsCapped,
                file] at loaded
          | inferred persisted file fits known =>
              rw [NonceStore.loadArtifacts_saved persisted file fits] at loaded
              cases loaded
      | ok found =>
          cases found with
          | some art =>
              obtain ⟨output, persisted, rfl, nonceFile, artifactsFile⟩ :=
                NonceStore.loadArtifacts_some loaded
              refine ⟨rfl, ?_, fun _ _ => ⟨_, rfl⟩⟩
              rintro _ ⟨⟩
              cases holds with
              | fresh nonceHeld file known => simp [file] at artifactsFile
              | inferred persisted' file fits known =>
                  rw [file] at artifactsFile
                  obtain ⟨rfl, rfl⟩ := CommitmentProver.build_proof_inj
                    (Option.some.inj artifactsFile)
                  exact ⟨.inferred persisted' file fits (Or.inr rfl), rfl, rfl⟩
          | none =>
              have absent := NonceStore.loadArtifacts_none loaded
              dsimp only
              split
              · rename_i lost
                apply failed
                rintro ⟨-, known⟩
                cases holds with
                | fresh nonceHeld file none => exact known lost.1 rfl
                | inferred persisted file fits known' => simp [absent] at file
              · refine ⟨rfl, ?_, fun _ _ => ⟨_, rfl⟩⟩
                rintro _ ⟨⟩
                cases holds with
                | fresh nonceHeld file none =>
                    exact ⟨.fresh nonceHeld file none, rfl, none⟩
                | inferred persisted file fits known => simp [absent] at file

/-- The job's input is read while the job executes with nothing inferred; the
check of it leaves the machine alone. -/
theorem jobInput_still (executor : JobExecutor) (resolved : ResolvedJob)
    (progress : JobProgress) (choice : ExecutorChoice)
    (world : ExecutorWorld Unit) :
    ((executor.jobInput resolved progress).runOn (wonHandle choice)
      world).2 = world := by
  unfold JobExecutor.jobInput
  split
  · simp only [Program.perform_bind, Program.runOn_call, wonHandle_inputFor]
    cases choice.input with
    | error message => rfl
    | ok delivered =>
        cases delivered with
        | none => rfl
        | some bytes =>
            cases resolved.job.inputHash with
            | none => rfl
            | some hash =>
                by_cases bound : keccak256Bytes bytes = hash
                · simp only [bound, if_true]
                  rfl
                · simp only [bound, if_false]
                  rfl
  · rfl

/-- What provisioning returns on these answers. -/
def ExecutorChoice.provisioned (choice : ExecutorChoice) (ctx : JobContext) :
    Except ProvisionError ProvisionedModel :=
  ((Executor.provision ctx.job.modelHash ctx.ipfsCid ctx.isActive
    ctx.expectedSize ctx.expectedSha256 ctx.cacheDir).runOn
      (fun _ op => (choice.provision op, ())) ()).1

theorem runOn_provision {α : Type} (program : Program ProvisionOp
    ProvisionAnswer α) (choice : ExecutorChoice)
    (world : ExecutorWorld Unit) :
    (program.interp fun op =>
      (Program.perform (StepOp.provision op) : StepProgram _)).runOn
        (wonHandle choice) world =
      ((program.runOn (fun _ op => (choice.provision op, ())) ()).1,
        world) := by
  induction program with
  | done value => rfl
  | call op next ih => exact ih (choice.provision op)

theorem provisionModel_runOn (ctx : JobContext) (choice : ExecutorChoice)
    (world : ExecutorWorld Unit) :
    (provisionModel ctx).runOn (wonHandle choice) world =
      (choice.provisioned ctx, world) :=
  runOn_provision _ choice world

/-- What an attempted inference leaves behind. -/
structure Attempted (choice : ExecutorChoice) (progress : JobProgress)
    (nonceSeed : Word) (world : ExecutorWorld Unit)
    (result : (StepOutcome × JobProgress) × ExecutorWorld Unit) : Prop where
  files : result.2.files = world.files
  handed : result.2.handed = world.handed
  progress :
    (∃ output, choice.inferred = .ok output ∧
      result.1 = (.ranInference,
        { progress with
          nonce := some (progress.nonce.getD nonceSeed)
          artifacts := some (CommitmentProver.build output
            (progress.nonce.getD nonceSeed)) })) ∨
    result.1.1 ≠ .ranInference ∧ result.1.2 = progress

/-- Nothing stands in the way of inference on this input. -/
structure Infers (choice : ExecutorChoice) (ctx : JobContext) : Prop where
  within : ctx.input.length ≤ choice.maxJobInputBytes
  cid : validateCid ctx.ipfsCid = .ok ()
  model : ∃ model, choice.provisioned ctx = .ok model
  output : ∃ output, choice.inferred = .ok output

theorem attempted_failed {choice : ExecutorChoice} (progress : JobProgress)
    (nonceSeed : Word) (world : ExecutorWorld Unit) (message : String) :
    Attempted choice progress nonceSeed world
      ((do
        let outcome ← recordError message
        return (outcome, progress) :
          StepProgram (StepOutcome × JobProgress)).runOn (wonHandle choice)
            world) :=
  ⟨rfl, rfl, Or.inr ⟨nofun, rfl⟩⟩

theorem infer_attempted (ctx : JobContext) (progress : JobProgress)
    (nonceSeed : Word) (choice : ExecutorChoice)
    (world : ExecutorWorld Unit) :
    Attempted choice progress nonceSeed world
      ((infer ctx progress nonceSeed).runOn (wonHandle choice) world) := by
  unfold infer
  rw [Program.runOn_bind, provisionModel_runOn]
  cases choice.provisioned ctx with
  | error error => exact attempted_failed progress nonceSeed world _
  | ok model =>
      simp only [Program.perform_bind, Program.runOn_call]
      cases inferred : choice.inferred with
      | error error =>
          have refused : wonHandle choice world (.infer model ctx.input) =
              (.error error, world) := by
            simp [wonHandle, executorExec, inferred]
          rw [refused]
          exact attempted_failed progress nonceSeed world _
      | ok output =>
          have ran : wonHandle choice world (.infer model ctx.input) =
              (.ok output, world.record (.inferred () output)) := by
            simp [wonHandle, executorExec, inferred]
          rw [ran]
          refine ⟨rfl, ?_, Or.inl ⟨output, inferred, rfl⟩⟩
          simp [ExecutorWorld.handed, ExecutorWorld.record]

theorem infer_ran {choice : ExecutorChoice} {ctx : JobContext}
    (infers : Infers choice ctx) (progress : JobProgress) (nonceSeed : Word)
    (world : ExecutorWorld Unit) :
    ((infer ctx progress nonceSeed).runOn (wonHandle choice) world).1.1 =
      .ranInference := by
  obtain ⟨model, provisioned⟩ := infers.model
  obtain ⟨output, inferred⟩ := infers.output
  unfold infer
  rw [Program.runOn_bind, provisionModel_runOn, provisioned]
  have ran : wonHandle choice world (.infer model ctx.input) =
      (.ok output, world.record (.inferred () output)) := by
    simp [wonHandle, executorExec, inferred]
  simp only [Program.perform_bind, Program.runOn_call, ran]
  rfl

theorem runInference_attempted (ctx : JobContext) (progress : JobProgress)
    (nonceSeed : Word) (choice : ExecutorChoice)
    (world : ExecutorWorld Unit) :
    Attempted choice progress nonceSeed world
      ((runInference ctx progress nonceSeed).runOn (wonHandle choice)
        world) := by
  simp only [runInference, Program.perform_bind, Program.runOn_call,
    wonHandle_write, wonHandle_maxJobInputBytes]
  by_cases long : ctx.input.length > choice.maxJobInputBytes
  · simp only [long, if_true]
    exact ⟨rfl, rfl, Or.inr ⟨nofun, rfl⟩⟩
  · simp only [long, if_false]
    cases validateCid ctx.ipfsCid with
    | error error => exact attempted_failed progress nonceSeed world _
    | ok _ => exact infer_attempted ctx progress nonceSeed choice world

theorem runInference_ran {choice : ExecutorChoice} (ctx : JobContext)
    (infers : Infers choice ctx) (progress : JobProgress) (nonceSeed : Word)
    (world : ExecutorWorld Unit) :
    ((runInference ctx progress nonceSeed).runOn (wonHandle choice)
      world).1.1 = .ranInference := by
  have short : ¬ctx.input.length > choice.maxJobInputBytes :=
    not_lt.mpr infers.within
  simp only [runInference, Program.perform_bind, Program.runOn_call,
    wonHandle_write, wonHandle_maxJobInputBytes, short, if_false, infers.cid]
  exact infer_ran infers progress nonceSeed world

/-- The request that an action hands to the signer. -/
def handedBy : LifecycleAction → List SignatureRequest
  | .sign request => [request]
  | _ => []

/-- What the planner's part leaves behind when it does not infer. -/
theorem driveJob_hands (ctx : JobContext) (progress : JobProgress)
    (nonceSeed : Word) (choice : ExecutorChoice)
    (world : ExecutorWorld Unit)
    (other : plan (planInput ctx progress) ≠ .runInference) :
    let result := (driveJob ctx progress nonceSeed).runOn (wonHandle choice)
      world
    result.2.files = world.files ∧
      result.2.handed =
        world.handed ++ handedBy (plan (planInput ctx progress)) ∧
      result.1.2 = progress ∧ result.1.1 ≠ .ranInference := by
  unfold driveJob
  cases planned : plan (planInput ctx progress) with
  | runInference => exact absurd planned other
  | sign request =>
      rw [Program.runOn_bind]
      simp only [signRequest, Program.perform_bind, Program.runOn_call,
        wonHandle_write, wonHandle_request]
      have handed : (world.record (.requested () request)).handed =
          world.handed ++ [request] := by
        simp [ExecutorWorld.handed, ExecutorWorld.record]
      cases choice.signed with
      | ok observed => exact ⟨rfl, handed, rfl, nofun⟩
      | error error => exact ⟨rfl, handed, rfl, nofun⟩
  | done => exact ⟨rfl, (List.append_nil _).symm, rfl, nofun⟩
  | idle => exact ⟨rfl, (List.append_nil _).symm, rfl, nofun⟩
  | wait reason => exact ⟨rfl, (List.append_nil _).symm, rfl, nofun⟩
  | abort reason => exact ⟨rfl, (List.append_nil _).symm, rfl, nofun⟩

/-- Persisting what was just inferred: it is held from then on, or the job is
where it was. -/
theorem persist_holds (executor : JobExecutor) (store : NonceStore)
    (choice : ExecutorChoice) (world : ExecutorWorld Unit)
    (progress : JobProgress) {output : Bytes} {nonce : Word}
    (seeded : world.files (store.pathFor executor.jobId) = some nonce.toList)
    (absent : world.files (store.artifactsPath executor.jobId) = none)
    (fits : 64 + output.length ≤ MAX_ARTIFACTS_BYTES)
    (known : progress.nonce = some nonce)
    (memory : progress.artifacts =
      some (CommitmentProver.build output nonce)) :
    let result := ((executor.withStore store).persist .ranInference
      progress).runOn (wonHandle choice) world
    result.2.handed = world.handed ∧
      (JobHeld store executor.jobId result.2.files result.1.2 none ∨
        JobHeld store executor.jobId result.2.files result.1.2
          (some (output, nonce))) ∧
      (choice.saveFault = none →
        JobHeld store executor.jobId result.2.files result.1.2
          (some (output, nonce))) := by
  simp only [JobExecutor.persist, JobExecutor.withStore, memory,
    Program.perform_bind, Program.runOn_call, wonHandle_saveArtifacts]
  have effect := NonceStore.saveEffect store executor.jobId
    (CommitmentProver.build output nonce) choice.saveFault world.files
  have faultless := NonceStore.saveArtifacts_faultless store executor.jobId
    (CommitmentProver.build output nonce) world.files
  have sound (unfaulty : choice.saveFault = none) :
      (store.saveArtifacts executor.jobId
        (CommitmentProver.build output nonce) choice.saveFault
          world.files).1 = .ok () := unfaulty ▸ faultless
  generalize store.saveArtifacts executor.jobId
    (CommitmentProver.build output nonce) choice.saveFault world.files =
      saved at effect sound
  obtain ⟨answer, files⟩ := saved
  have persisted : files (store.pathFor executor.jobId) =
      some nonce.toList := effect.nonceFile.trans seeded
  cases answer with
  | ok done =>
      have holds : JobHeld store executor.jobId files progress
          (some (output, nonce)) :=
        .inferred persisted effect.ok fits (Or.inr memory)
      exact ⟨rfl, Or.inr holds, fun _ => holds⟩
  | error message =>
      refine ⟨rfl, ?_, fun unfaulty => nomatch sound unfaulty⟩
      rcases effect.artifactsFile with same | installed
      · left
        refine .fresh (Or.inr ⟨nonce, persisted, Or.inr known⟩) ?_ rfl
        exact same.trans absent
      · exact Or.inr (.inferred persisted installed fits (Or.inl rfl))

/-- The planner's action on a resolved job with these artifacts. -/
def wonAction (executor : JobExecutor) (resolved : ResolvedJob)
    (held : Option (Bytes × Word)) : LifecycleAction :=
  plan (resolvedInput executor resolved
    ⟨resolved.committed, heldArtifacts held, none⟩)

/-- The input is delivered, it is the posted one, and can be inferred on. -/
def InputReady (executor : JobExecutor) (resolved : ResolvedJob)
    (choice : ExecutorChoice) : Prop :=
  ∃ bytes, choice.input = .ok (some bytes) ∧
    resolved.job.inputHash = some (keccak256Bytes bytes) ∧
    Infers choice (executor.context resolved bytes)

/-- What a step of a won job leaves behind. -/
structure WonStepped (executor : JobExecutor) (store : NonceStore)
    (resolved : ResolvedJob) (choice : ExecutorChoice)
    (held : Option (Bytes × Word)) (world : ExecutorWorld Unit)
    (result : (StepOutcome × JobProgress) × ExecutorWorld Unit)
    (after : Option (Bytes × Word)) : Prop where
  holds : JobHeld store executor.jobId result.2.files result.1.2 after
  keeps : after = held ∨
    wonAction executor resolved held = .runInference ∧ held = none
  handed : result.2.handed = world.handed ∨
    result.2.handed =
      world.handed ++ handedBy (wonAction executor resolved held)
  hands : choice.StoreSound → wonAction executor resolved held ≠ .runInference →
    result.2.handed =
      world.handed ++ handedBy (wonAction executor resolved held)
  infers : choice.StoreSound → wonAction executor resolved held = .runInference →
    InputReady executor resolved choice → after.isSome

theorem WonStepped.refused {outcome : StepOutcome} {progress : JobProgress}
    {before after : ExecutorWorld Unit}
    (holds : JobHeld store executor.jobId after.files progress held)
    (handed : after.handed = before.handed)
    (unsound : ¬choice.StoreSound) :
    WonStepped executor store resolved choice held before
      ((outcome, progress), after) held where
  holds := holds
  keeps := Or.inl rfl
  handed := Or.inl handed
  hands sound := absurd sound unsound
  infers sound := absurd sound unsound

theorem planInput_checked (executor : JobExecutor) (store : NonceStore)
    (input : Bytes) (held : Option (Bytes × Word)) {next : JobProgress}
    (flag : next.committed = resolved.committed)
    (artifacts : next.artifacts = heldArtifacts held) :
    plan (planInput ((executor.withStore store).context resolved input)
      next) = wonAction executor resolved held := by
  rw [wonAction, resolvedInput]
  simp only [planInput, flag, artifacts]
  rfl

/-- The planner's part and the persisting, when the planner does not infer. -/
theorem drive_hands {next : JobProgress} {input : Bytes} {nonce : Word}
    {before : ExecutorWorld Unit}
    (holds : JobHeld store executor.jobId world.files next held)
    (flag : next.committed = resolved.committed)
    (artifacts : next.artifacts = heldArtifacts held)
    (handed : world.handed = before.handed)
    (other : wonAction executor resolved held ≠ .runInference) :
    WonStepped executor store resolved choice held before
      ((do
        let (outcome, progress) ← driveJob
          ((executor.withStore store).context resolved input) next nonce
        (executor.withStore store).persist outcome progress).runOn
          (wonHandle choice) world) held := by
  have planned := planInput_checked executor store input held flag artifacts
  obtain ⟨files, hands, same, outcome⟩ := driveJob_hands
    ((executor.withStore store).context resolved input) next nonce choice world
    (planned ▸ other)
  rw [Program.runOn_bind]
  generalize (driveJob ((executor.withStore store).context resolved input) next
    nonce).runOn (wonHandle choice) world = driven at files hands same outcome
  obtain ⟨⟨result, progress⟩, after⟩ := driven
  simp only at files hands same outcome ⊢
  rw [persist_done _ outcome]
  rw [planned, handed] at hands
  subst same
  refine ⟨?_, Or.inl rfl, Or.inr hands, fun _ _ => hands, ?_⟩
  · change JobHeld store executor.jobId after.files _ held
    rw [files]
    exact holds
  · intro _ infers
    exact absurd infers other

/-- The planner's part and the persisting, when the planner infers. -/
theorem drive_infers {next : JobProgress} {input : Bytes} {nonce : Word}
    {before : ExecutorWorld Unit}
    (fits : choice.OutputFits)
    (holds : JobHeld store executor.jobId world.files next none)
    (seeded : world.files (store.pathFor executor.jobId) = some nonce.toList)
    (flag : next.committed = resolved.committed)
    (handed : world.handed = before.handed)
    (action : wonAction executor resolved none = .runInference)
    (ready : InputReady executor resolved choice →
      Infers choice (executor.context resolved input)) :
    ∃ after, WonStepped executor store resolved choice none before
      ((do
        let (outcome, progress) ← driveJob
          ((executor.withStore store).context resolved input) next nonce
        (executor.withStore store).persist outcome progress).runOn
          (wonHandle choice) world) after := by
  cases holds with
  | fresh nonceHeld absent memory =>
  have known : next.nonce.getD nonce = nonce := by
    rcases nonceHeld with ⟨none, -⟩ | ⟨word, present, unknown | same⟩
    · simp [seeded] at none
    · rw [unknown]
      rfl
    · rw [same]
      rw [seeded] at present
      exact (List.Vector.toList_injective (Option.some.inj present)).symm
  have planned := planInput_checked executor store input none flag memory
  have drives : driveJob ((executor.withStore store).context resolved input)
      next nonce = runInference
        ((executor.withStore store).context resolved input) next nonce := by
    simp only [driveJob, planned, action]
  rw [Program.runOn_bind, drives]
  have attempted := runInference_attempted
    ((executor.withStore store).context resolved input) next nonce choice world
  have ran (here : InputReady executor resolved choice) := runInference_ran
    ((executor.withStore store).context resolved input) (ready here) next nonce
    world
  generalize (runInference ((executor.withStore store).context resolved input)
    next nonce).runOn (wonHandle choice) world = result at attempted ran
  obtain ⟨⟨outcome, progress⟩, after⟩ := result
  obtain ⟨files, sameHanded, progresses⟩ := attempted
  simp only at files sameHanded progresses ran ⊢
  rcases progresses with ⟨output, inferred, same⟩ | ⟨other, same⟩
  · obtain ⟨rfl, rfl⟩ := Prod.mk.inj same
    simp only [known]
    obtain ⟨keeps, either, saves⟩ := persist_holds executor store choice after
      { next with
        nonce := some nonce
        artifacts := some (CommitmentProver.build output nonce) }
      (files ▸ seeded) (files ▸ absent) (fits output inferred) rfl rfl
    have nothing : handedBy (wonAction executor resolved none) = [] := by
      rw [action]
      rfl
    have kept := (keeps.trans sameHanded).trans handed
    by_cases sound : choice.saveFault = none
    · exact ⟨_, saves sound, Or.inr ⟨action, rfl⟩, Or.inl kept,
        fun _ other => absurd action other, fun _ _ _ => rfl⟩
    · rcases either with lost | saved
      · exact ⟨none, lost, Or.inl rfl, Or.inl kept,
          fun _ other => absurd action other,
          fun whole => absurd whole.save sound⟩
      · exact ⟨_, saved, Or.inr ⟨action, rfl⟩, Or.inl kept,
          fun _ other => absurd action other, fun _ _ _ => rfl⟩
  · subst same
    rw [persist_done _ other]
    refine ⟨none, ?_, Or.inl rfl, Or.inl (sameHanded.trans handed),
      fun _ other => absurd action other, ?_⟩
    · change JobHeld store executor.jobId after.files _ none
      rw [files]
      exact .fresh nonceHeld absent memory
    · intro _ _ here
      exact absurd (ran here) other

theorem jobInput_ready (executor : JobExecutor) (store : NonceStore)
    (choice : ExecutorChoice) (world : ExecutorWorld Unit) {next : JobProgress}
    (action : wonAction executor resolved none = .runInference)
    (memory : next.artifacts = none) :
    let result := (((executor.withStore store).jobInput resolved next).runOn
      (wonHandle choice) world).1
    InputReady executor resolved choice →
      ∃ input, result = .ok input ∧
        Infers choice (executor.context resolved input) := by
  obtain ⟨executing, -, -⟩ := plan_runInference action
  have executing : resolved.job.state = .executing := executing
  intro result ready
  obtain ⟨bytes, delivered, posted, infers⟩ := ready
  refine ⟨bytes, ?_, infers⟩
  simp only [result, JobExecutor.jobInput, executing, memory, Option.isNone_none,
    and_self, if_true, Program.perform_bind, Program.runOn_call,
    wonHandle_inputFor, delivered, posted]
  rfl

/-- A job of mine that executes with nothing inferred is inferred, unless it is
refused for its tier. -/
theorem executing_refused
    (mine : resolved.job.assignedProvider = executor.me)
    (executing : resolved.job.state = .executing)
    (nothing : heldArtifacts held = none)
    (other : wonAction executor resolved held ≠ .runInference) :
    handedBy (wonAction executor resolved held) = [] := by
  have mineHere : ¬(resolvedInput executor resolved
      ⟨resolved.committed, none, none⟩).me ≠
        (resolvedInput executor resolved
          ⟨resolved.committed, none, none⟩).job.assignedProvider :=
    not_not.mpr mine.symm
  have here : (resolvedInput executor resolved
      ⟨resolved.committed, none, none⟩).job.state = .executing := executing
  rw [wonAction, nothing, plan] at other ⊢
  simp only at other ⊢
  split
  · rfl
  · rename_i supported
    rw [if_neg supported] at other
    simp only [here] at other
    rw [if_neg mineHere] at other
    exact absurd rfl other

theorem stepResolved_won (executor : JobExecutor) (store : NonceStore)
    (resolved : ResolvedJob) (choice : ExecutorChoice)
    (world : ExecutorWorld Unit)
    (mine : resolved.job.assignedProvider = executor.me)
    (holds : JobHeld store executor.jobId world.files progress held)
    (known : resolved.committed = true → held ≠ none)
    (whole : choice.MintsWhole) (fits : choice.OutputFits) :
    ∃ after, WonStepped executor store resolved choice held world
      (((executor.withStore store).stepResolved resolved progress).runOn
        (wonHandle choice) world) after := by
  have mineHere : ¬resolved.job.assignedProvider ≠
      (executor.withStore store).me := not_not.mpr mine
  rw [JobExecutor.stepResolved, if_neg mineHere, Program.runOn_bind]
  have seeded := resolveNonce_seeded executor
    (holds.flagged resolved.committed) whole resolved.committed
  generalize ((executor.withStore store).resolveNonce
    resolved.committed).runOn (wonHandle choice) world = result at seeded
  obtain ⟨answer, atNonce⟩ := result
  obtain ⟨holds, handed, file, sound⟩ := seeded
  simp only at holds handed file sound ⊢
  cases answer with
  | error outcome =>
      refine ⟨held, .refused holds handed ?_⟩
      intro storeSound
      obtain ⟨nonce, ok⟩ := sound storeSound known
      cases ok
  | ok nonce =>
  have seeded := file nonce rfl
  simp only
  rw [Program.runOn_bind]
  have reloaded := reloadArtifacts_reloaded choice resolved holds nonce
  generalize ((executor.withStore store).reloadArtifacts resolved nonce
    { progress with committed := resolved.committed }).runOn
      (wonHandle choice) atNonce = result at reloaded
  obtain ⟨answer, atReload⟩ := result
  obtain ⟨rfl, progresses, sound⟩ := reloaded
  simp only at progresses sound ⊢
  cases answer with
  | error outcome =>
      refine ⟨held, .refused holds handed ?_⟩
      intro storeSound
      obtain ⟨next, ok⟩ := sound storeSound known
      cases ok
  | ok next =>
  obtain ⟨holdsNext, flag, artifacts⟩ := progresses next rfl
  simp only
  rw [Program.runOn_bind, jobInput_still]
  by_cases action : wonAction executor resolved held = .runInference
  · have nothing : held = none := by
      obtain ⟨-, absent, -⟩ := plan_runInference action
      have absent : heldArtifacts held = none := absent
      simpa [heldArtifacts] using absent
    subst nothing
    have inputs := jobInput_ready executor store choice atReload action
      artifacts
    generalize (((executor.withStore store).jobInput resolved next).runOn
      (wonHandle choice) atReload).1 = delivered at inputs
    cases delivered with
    | error outcome =>
        refine ⟨none, holdsNext, Or.inl rfl, Or.inl handed,
          fun _ other => absurd action other, ?_⟩
        intro _ _ ready
        obtain ⟨input, ok, -⟩ := inputs ready
        cases ok
    | ok input =>
        apply drive_infers fits holdsNext seeded flag handed action
        intro ready
        obtain ⟨same, ok, infers⟩ := inputs ready
        cases ok
        exact infers
  · by_cases reads : resolved.job.state = .executing ∧ next.artifacts.isNone
    · have unknown : heldArtifacts held = none :=
        artifacts.symm.trans (Option.isNone_iff_eq_none.mp reads.2)
      have refuses := executing_refused mine reads.1 unknown action
      generalize (((executor.withStore store).jobInput resolved next).runOn
        (wonHandle choice) atReload).1 = delivered
      cases delivered with
      | error outcome =>
          have nothing : world.handed = world.handed ++
              handedBy (wonAction executor resolved held) := by
            rw [refuses]
            exact (List.append_nil _).symm
          exact ⟨held, holdsNext, Or.inl rfl, Or.inl handed,
            fun _ _ => handed.trans nothing,
            fun _ infers => absurd infers action⟩
      | ok input =>
          exact ⟨held, drive_hands holdsNext flag artifacts handed action⟩
    · rw [JobExecutor.jobInput, if_neg reads]
      exact ⟨held, drive_hands holdsNext flag artifacts handed action⟩

end NodeAgent.Node
