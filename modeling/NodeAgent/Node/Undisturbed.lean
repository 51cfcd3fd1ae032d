import NodeAgent.Node.ExecutorPool

/-!
# Steps that nothing disturbs

An executor whose every operation succeeds: from an empty directory its first
step mints a nonce, infers and persists the artifacts, and a step that finds
them persisted hands out the commitment.
-/

namespace NodeAgent.Node

open Chainio Executor Interaction Lifecycle

variable {ι : Type}

theorem sampleCid_accepted :
    validateCid sampleResolved.ipfsCid = .ok () ∧
      Executor.validateCid sampleResolved.ipfsCid = true ∧
      sampleResolved.ipfsCid.isEmpty = false := by
  decide +kernel

variable [HashFunctions]

/-- The sample job as this executor sees it once it is assigned to it. -/
def readyJob (executor : JobExecutor) : ResolvedJob :=
  { sampleResolved with
    job :=
      { sampleJob with
        id := executor.jobId
        assignedProvider := executor.me
        inputHash := some (keccak256 []) }
    expectedSha256 := some (sha256 []) }

/-- Every operation succeeds, and inference returns the empty output. -/
def readyChoice (executor : JobExecutor) : ExecutorChoice :=
  { sampleChoice [] with resolved := .ok (readyJob executor) }

def soloHandle (job : ι) (executor : JobExecutor) (world : ExecutorWorld ι)
    (op : StepOp) : StepAnswer op × ExecutorWorld ι :=
  executorExec job world op (readyChoice executor)

section Solo

variable (job : ι) (executor : JobExecutor) (store : NonceStore)
  (world : ExecutorWorld ι)

@[simp] theorem soloHandle_resolve (jobId : Nat) :
    soloHandle job executor world (.resolve jobId) =
      (.ok (readyJob executor), world) := rfl

@[simp] theorem soloHandle_load (jobId : Nat) :
    soloHandle job executor world (.load store jobId) =
      (store.load jobId none world.files, world) := rfl

@[simp] theorem soloHandle_loadArtifacts (jobId : Nat) :
    soloHandle job executor world (.loadArtifacts store jobId) =
      (store.loadArtifacts jobId ⟨none, none⟩ world.files, world) := rfl

@[simp] theorem soloHandle_inputFor (jobId : Nat) :
    soloHandle job executor world (.inputFor jobId) = (.ok (some []), world) :=
  rfl

@[simp] theorem soloHandle_write (updates : List Supervision.StateUpdate) :
    soloHandle job executor world (.write updates) = ((), world) := rfl

@[simp] theorem soloHandle_maxJobInputBytes :
    soloHandle job executor world .maxJobInputBytes = (1024, world) := rfl

@[simp] theorem soloHandle_readCache (path : Path) :
    soloHandle job executor world (.provision (.readCache path)) =
      (some [], world) := rfl

@[simp] theorem soloHandle_infer (model : ProvisionedModel) (input : Bytes) :
    soloHandle job executor world (.infer model input) =
      (.ok [], world.record (.inferred job [])) := rfl

@[simp] theorem soloHandle_elapsedSecs :
    soloHandle job executor world .elapsedSecs = (1, world) := rfl

@[simp] theorem soloHandle_recordProfile (modelHash : Word) (secs : Nat) :
    soloHandle job executor world (.recordProfile modelHash secs) =
      ((), world) := rfl

@[simp] theorem soloHandle_request (request : SignatureRequest) :
    soloHandle job executor world (.request request) =
      (.ok ⟨none⟩, world.record (.requested job request)) := rfl

/-- The context of a step on the ready job. -/
def readyContext : JobContext :=
  (executor.withStore store).context (readyJob executor) []

variable {world}

theorem solo_resolveNonce_fresh
    (absent : world.files (store.pathFor executor.jobId) = none) :
    ((executor.withStore store).resolveNonce false).runOn
        (soloHandle job executor) world =
      (.ok sampleNonce,
        { files := world.files.write (store.pathFor executor.jobId)
            sampleNonce.toList
          log := world.log ++ [.minted job sampleNonce] }) := by
  have minted : soloHandle job executor world (.mint store executor.jobId) =
      (.ok sampleNonce,
        { files := world.files.write (store.pathFor executor.jobId)
            sampleNonce.toList
          log := world.log ++ [.minted job sampleNonce] }) := by
    simp [soloHandle, executorExec, readyChoice, sampleChoice,
      NonceStore.mint_faultless, absent, Files.write, ExecutorWorld.record]
  simp [JobExecutor.resolveNonce, JobExecutor.withStore, NonceStore.load,
    absent, minted]

theorem solo_resolveNonce_persisted {nonce : Word}
    (persisted : world.files (store.pathFor executor.jobId) =
      some nonce.toList) :
    ((executor.withStore store).resolveNonce false).runOn
        (soloHandle job executor) world = (.ok nonce, world) := by
  simp [JobExecutor.resolveNonce, JobExecutor.withStore,
    NonceStore.load_written persisted]

theorem solo_reloadArtifacts_absent (progress : JobProgress) (nonce : Word)
    (unknown : progress.artifacts = none)
    (absent : world.files (store.artifactsPath executor.jobId) = none) :
    ((executor.withStore store).reloadArtifacts (readyJob executor) nonce
        progress).runOn (soloHandle job executor) world =
      (.ok progress, world) := by
  simp [JobExecutor.reloadArtifacts, unknown, JobExecutor.withStore,
    NonceStore.loadArtifacts, NonceStore.loadArtifactsCapped, absent, readyJob,
    sampleResolved]

theorem solo_reloadArtifacts_persisted (progress : JobProgress) (nonce : Word)
    {art : CommitmentArtifacts} (unknown : progress.artifacts = none)
    (loads : store.loadArtifacts executor.jobId ⟨none, none⟩ world.files =
      .ok (some art)) :
    ((executor.withStore store).reloadArtifacts (readyJob executor) nonce
        progress).runOn (soloHandle job executor) world =
      (.ok { progress with nonce := some nonce, artifacts := some art },
        world) := by
  simp [JobExecutor.reloadArtifacts, unknown, JobExecutor.withStore, loads]

theorem solo_jobInput (world : ExecutorWorld ι) (progress : JobProgress) :
    ((executor.withStore store).jobInput (readyJob executor) progress).runOn
        (soloHandle job executor) world = (.ok [], world) := by
  unfold JobExecutor.jobInput
  split
  · simp [readyJob, keccak256Bytes]
  · rfl

theorem solo_provisionModel (world : ExecutorWorld ι) :
    ∃ model, (provisionModel (readyContext executor store)).runOn
      (soloHandle job executor) world = (.ok model, world) := by
  obtain ⟨-, grammar, nonempty⟩ := sampleCid_accepted
  refine ⟨⟨sampleJob.modelHash, cacheFile executor.cacheDir sampleJob.modelHash,
    0, .sha256Verified⟩, ?_⟩
  change (Program.interp (fun op => Program.perform (StepOp.provision op))
    (provision sampleJob.modelHash sampleResolved.ipfsCid true none
      (some (sha256 [])) executor.cacheDir)).runOn (soloHandle job executor)
        world = _
  simp [provision, nonempty, grammar, integrityCommitment, Program.interp,
    Program.perform, Program.bind, sha256Digest]

theorem solo_driveJob_infers (world : ExecutorWorld ι) (progress : JobProgress)
    (nonce : Word) (unknown : progress.artifacts = none)
    (unminted : progress.nonce = none) :
    (driveJob (readyContext executor store) progress nonce).runOn
        (soloHandle job executor) world =
      ((.ranInference,
          { progress with
            nonce := some nonce
            artifacts := some (CommitmentProver.build [] nonce) }),
        world.record (.inferred job [])) := by
  have planned : plan (planInput (readyContext executor store) progress) =
      .runInference := by
    simp [plan, planInput, readyContext, JobExecutor.context, readyJob,
      sampleResolved, sampleJob, JobExecutor.withStore, effectiveTier, unknown]
  have accepted : validateCid (readyContext executor store).ipfsCid = .ok () :=
    sampleCid_accepted.1
  have short : ¬(readyContext executor store).input.length > 1024 := by
    simp [readyContext, JobExecutor.context]
  obtain ⟨model, provisioned⟩ :=
    solo_provisionModel job executor store world
  simp only [driveJob, planned, runInference, Program.perform_bind,
    Program.runOn_call, soloHandle_write, soloHandle_maxJobInputBytes, short,
    if_false, accepted, infer]
  rw [Program.runOn_bind, provisioned]
  simp [unminted]

theorem solo_driveJob_commits (world : ExecutorWorld ι) (progress : JobProgress)
    (nonce : Word) {art : CommitmentArtifacts}
    (known : progress.artifacts = some art)
    (uncommitted : progress.committed = false) :
    ∃ request, request.intent = .submitCommitment ∧
      (driveJob (readyContext executor store) progress nonce).runOn
          (soloHandle job executor) world =
        ((.signed .submitCommitment, progress),
          world.record (.requested job request)) := by
  refine ⟨requestFor .submitCommitment
    (encodeSubmitCommitment executor.jobId art.commitment)
    (planInput (readyContext executor store) progress), rfl, ?_⟩
  have planned : plan (planInput (readyContext executor store) progress) =
      .sign (requestFor .submitCommitment
        (encodeSubmitCommitment executor.jobId art.commitment)
        (planInput (readyContext executor store) progress)) := by
    simp [plan, planInput, readyContext, JobExecutor.context, readyJob,
      sampleResolved, sampleJob, JobExecutor.withStore, effectiveTier, known,
      uncommitted, sign]
  simp [driveJob, planned, signRequest]
  rfl

theorem solo_persist (world : ExecutorWorld ι) (progress : JobProgress)
    {art : CommitmentArtifacts} (known : progress.artifacts = some art) :
    ∃ files, ((executor.withStore store).persist .ranInference progress).runOn
          (soloHandle job executor) world =
        ((.ranInference, progress), { world with files := files }) ∧
      files (store.artifactsPath executor.jobId) = some art.proof ∧
      files (store.pathFor executor.jobId) =
        world.files (store.pathFor executor.jobId) := by
  have saved := NonceStore.saveArtifacts_faultless store executor.jobId art
    world.files
  have effect := NonceStore.saveEffect store executor.jobId art none world.files
  generalize result : store.saveArtifacts executor.jobId art none world.files =
    stored at saved effect
  obtain ⟨answer, files⟩ := stored
  cases saved
  refine ⟨files, ?_, effect.ok, effect.nonceFile⟩
  simp [JobExecutor.persist, JobExecutor.withStore, known, soloHandle,
    executorExec, readyChoice, sampleChoice, result]

/-- Once the nonce and the artifacts are resolved, a step is its planned action
and the persisting of what that left. -/
theorem solo_step {progress reloaded : JobProgress} {nonce : Word}
    {after : ExecutorWorld ι}
    (seeded : ((executor.withStore store).resolveNonce false).runOn
      (soloHandle job executor) world = (.ok nonce, after))
    (reload : ((executor.withStore store).reloadArtifacts (readyJob executor)
      nonce { progress with committed := false }).runOn
        (soloHandle job executor) after = (.ok reloaded, after)) :
    ((executor.withStore store).step progress).runOn (soloHandle job executor)
        world =
      (driveJob (readyContext executor store) reloaded nonce >>= fun result =>
        (executor.withStore store).persist result.1 result.2).runOn
          (soloHandle job executor) after := by
  have assigned : ¬(readyJob executor).job.assignedProvider ≠
      (executor.withStore store).me := not_not.mpr rfl
  have uncommitted : (readyJob executor).committed = false := rfl
  have input := solo_jobInput job executor store after reloaded
  simp only [JobExecutor.step, Program.perform_bind, Program.runOn_call,
    soloHandle_resolve, JobExecutor.stepResolved, assigned, if_false,
    uncommitted]
  rw [Program.runOn_bind, seeded]
  simp only
  rw [Program.runOn_bind, reload]
  simp only
  rw [Program.runOn_bind, input]
  rfl

/-- A step run by itself is a run of the pool. -/
theorem solo_run [DecidableEq ι] (executors : ι → JobExecutor)
    (pool : ExecutorPool ι) (job : ι) {progress reached : JobProgress}
    {outcome : StepOutcome} {choice : ExecutorChoice} {after : ExecutorWorld ι}
    (idle : pool.threads job = .idle progress)
    (steps : ((executors job).step progress).runOn
      (fun world op => executorExec job world op choice) pool.world =
        ((outcome, reached), after)) :
    ∃ schedule, Runs.run (executorSystem executors).step pool schedule =
      ⟨after, Function.update pool.threads job (.idle reached)⟩ := by
  obtain ⟨count, finished⟩ :=
    (executorSystem executors).runs_alone pool idle () choice
  refine ⟨.start job () :: List.replicate count (.advance job choice), ?_⟩
  have body : ((executorSystem executors).body job () progress).runOn
      (fun world op => executorExec job world op choice) pool.world =
        (reached, after) := by
    simp only [executorSystem]
    rw [Program.runOn_bind, steps]
    rfl
  rw [finished]
  exact congrArg₂ _ (congrArg Prod.snd body)
    (congrArg (fun result => Function.update pool.threads job (.idle result.1))
      body)

/-- The first step persists the nonce it minted and the artifacts it built. -/
theorem solo_firstStep (world : ExecutorWorld ι)
    (noNonce : world.files (store.pathFor executor.jobId) = none)
    (noArtifacts : world.files (store.artifactsPath executor.jobId) = none) :
    ∃ progress files,
      ((executor.withStore store).step JobProgress.fresh).runOn
          (soloHandle job executor) world =
        ((.ranInference, progress),
          ⟨files, world.log ++ [.minted job sampleNonce] ++
            [.inferred job []]⟩) ∧
      files (store.pathFor executor.jobId) = some sampleNonce.toList ∧
      files (store.artifactsPath executor.jobId) =
        some (CommitmentProver.build [] sampleNonce).proof := by
  have seeded := solo_resolveNonce_fresh job executor store noNonce
  generalize minted : ({
    files := world.files.write (store.pathFor executor.jobId) sampleNonce.toList
    log := world.log ++ [.minted job sampleNonce] } : ExecutorWorld ι) = next
      at seeded
  have nonceFile : next.files (store.pathFor executor.jobId) =
      some sampleNonce.toList := by
    rw [← minted]
    exact Function.update_self _ _ _
  have stillNone : next.files (store.artifactsPath executor.jobId) = none := by
    rw [← minted, ← noArtifacts]
    exact Function.update_of_ne (store.artifactsPath_ne_pathFor _ _) _ _
  have reload := solo_reloadArtifacts_absent job executor store
    { JobProgress.fresh with committed := false } sampleNonce rfl stillNone
  have drives := solo_driveJob_infers job executor store next
    { JobProgress.fresh with committed := false } sampleNonce rfl rfl
  let inferred : JobProgress :=
    { JobProgress.fresh with
      nonce := some sampleNonce
      artifacts := some (CommitmentProver.build [] sampleNonce) }
  obtain ⟨files, persists, artifactsFile, sameNonce⟩ :=
    solo_persist job executor store (next.record (.inferred job [])) inferred
      rfl
  refine ⟨inferred, files, ?_, sameNonce.trans nonceFile, artifactsFile⟩
  rw [solo_step job executor store seeded reload, Program.runOn_bind, drives]
  refine persists.trans ?_
  rw [← minted]
  rfl

theorem solo_commitStep (world : ExecutorWorld ι) {nonce : Word}
    {art : CommitmentArtifacts}
    (persisted : world.files (store.pathFor executor.jobId) =
      some nonce.toList)
    (loads : store.loadArtifacts executor.jobId ⟨none, none⟩ world.files =
      .ok (some art)) :
    ∃ reached request, request.intent = .submitCommitment ∧
      ((executor.withStore store).step JobProgress.fresh).runOn
          (soloHandle job executor) world =
        ((.signed .submitCommitment, reached),
          world.record (.requested job request)) := by
  let restored : JobProgress :=
    { JobProgress.fresh with nonce := some nonce, artifacts := some art }
  have known : restored.artifacts = some art := rfl
  have seeded := solo_resolveNonce_persisted job executor store persisted
  have reload : ((executor.withStore store).reloadArtifacts
      (readyJob executor) nonce { JobProgress.fresh with committed := false }
        ).runOn (soloHandle job executor) world = (.ok restored, world) :=
    solo_reloadArtifacts_persisted job executor store
      { JobProgress.fresh with committed := false } nonce rfl loads
  obtain ⟨request, commits, drives⟩ :=
    solo_driveJob_commits job executor store world restored nonce known rfl
  refine ⟨restored, request, commits, ?_⟩
  rw [solo_step job executor store seeded reload, Program.runOn_bind, drives]
  rfl

end Solo

end NodeAgent.Node
