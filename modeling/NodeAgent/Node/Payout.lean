import NodeAgent.Node.ExecutorPool
import NodeAgent.Node.StepOps

/-!
# The payout and the local store

A job that is verified needs no nonce and no artifacts any more: the last write
is `completeJob`.  The step reads both from the store before it looks at the
job's state, so it pays out only while the store can still be read.
-/

namespace NodeAgent.Node

open Chainio Executor Interaction Lifecycle Supervision

/-- The shared state, and the executor's machine. -/
structure LocalWorld where
  agent : AgentState
  machine : ExecutorWorld Unit

theorem handed_minted {world after : ExecutorWorld Unit} {nonce : Word}
    (logs : world.Logs (.minted () nonce) after) :
    after.handed = world.handed := by
  rcases logs with same | added
  · rw [ExecutorWorld.handed, same, ExecutorWorld.handed]
  · simp [ExecutorWorld.handed, added]

section Hashes

variable [HashFunctions]

/-- One operation of a step: the state's lock is taken for a write, everything
else is the machine's. -/
def localHandle (choice : ExecutorChoice) (world : LocalWorld) :
    (op : StepOp) → StepAnswer op × LocalWorld
  | .write updates =>
      ((), { world with agent := applyUpdates updates world.agent })
  | op =>
      let (answer, machine) := executorExec () world.machine op choice
      (answer, { world with machine := machine })

/-- A step on a resolved job. -/
def runStep (executor : JobExecutor) (resolved : ResolvedJob)
    (progress : JobProgress) (choice : ExecutorChoice) (world : LocalWorld) :
    (StepOutcome × JobProgress) × LocalWorld :=
  (executor.stepResolved resolved progress).runOn (localHandle choice) world

end Hashes

/-- The dispute window of the verified result has elapsed, or a dispute was
resolved for the provider. -/
def WindowElapsed (resolved : ResolvedJob) : Prop :=
  resolved.gates.disputeResolvedForProvider = true ∨
    (resolved.gates.resultVerifiedAt ≠ 0 ∧
      resolved.gates.resultVerifiedAt + DISPUTE_WINDOW_BLOCKS ≤
        resolved.currentBlock)

/-- A job of mine that is past its reveal: verified with its window elapsed, or
completed. -/
structure PastReveal (executor : JobExecutor) (resolved : ResolvedJob) :
    Prop where
  mine : resolved.job.assignedProvider = executor.me
  phase : resolved.job.state = .completed ∨
    resolved.job.state = .verifying ∧ resolved.committed = true ∧
      WindowElapsed resolved ∧
      effectiveTier (resolvedInput executor resolved .fresh) = .commitment

/-- The store yields the job's nonce, and is left with these files. -/
inductive NonceReady (store : NonceStore) (jobId : Nat) (committed : Bool)
    (choice : ExecutorChoice) (files : Files) : Files → Prop
  | loaded {nonce : Word}
      (load : store.load jobId choice.loadFault files = .ok (some nonce)) :
      NonceReady store jobId committed choice files files
  | minted {nonce : Word} {after : Files} (uncommitted : committed = false)
      (absent : store.load jobId choice.loadFault files = .ok none)
      (mint : store.mint jobId choice.minted choice.mintFault files =
        (.ok nonce, after)) :
      NonceReady store jobId committed choice files after

theorem NonceReady.unique {store : NonceStore} {jobId : Nat} {committed : Bool}
    {choice : ExecutorChoice} {files after other : Files}
    (ready : NonceReady store jobId committed choice files after)
    (same : NonceReady store jobId committed choice files other) :
    after = other := by
  cases ready with
  | loaded load =>
      cases same with
      | loaded load' => rfl
      | minted uncommitted absent mint => simp [load] at absent
  | minted uncommitted absent mint =>
      cases same with
      | loaded load => simp [absent] at load
      | minted uncommitted' absent' mint' =>
          exact congrArg Prod.snd (mint.symm.trans mint')

theorem PastReveal.finished {executor : JobExecutor} {resolved : ResolvedJob}
    (past : PastReveal executor resolved) :
    resolved.job.state ≠ .executing := by
  rcases past.phase with completed | ⟨verifying, -⟩
  · simp [completed]
  · simp [verifying]

section Hashes

variable [HashFunctions]

/-- The step settles the job: it asks the signer for `completeJob` on a job
under verification, and is done with a completed one. -/
structure Settled (resolved : ResolvedJob) (world : LocalWorld)
    (result : (StepOutcome × JobProgress) × LocalWorld) : Prop where
  requests : resolved.job.state = .verifying →
    ∃ request, request.intent = .completeJob ∧
      request.calldata = encodeCompleteJob resolved.job.id ∧
      result.2.machine.handed = world.machine.handed ++ [request]
  releases : resolved.job.state = .completed →
    result.1.1 = .done ∧ result.2.agent.activeJobs = 0

/-- Artifacts that are not in memory can be read without an error. -/
def ArtifactsReady (executor : JobExecutor) (progress : JobProgress)
    (choice : ExecutorChoice) (files : Files) : Prop :=
  ∀ store, executor.nonceStore = some store → progress.artifacts = none →
    ∃ found, store.loadArtifacts executor.jobId choice.artifactsFault files =
      .ok found

/-- There is no store, or it yields the nonce and then the artifacts. -/
def StoreReady (executor : JobExecutor) (resolved : ResolvedJob)
    (progress : JobProgress) (choice : ExecutorChoice) (files : Files) : Prop :=
  ∀ store, executor.nonceStore = some store → ∃ after,
    NonceReady store executor.jobId resolved.committed choice files after ∧
      ArtifactsReady executor progress choice after

section Handle

variable (choice : ExecutorChoice) (world : LocalWorld) (store : NonceStore)
  (jobId : Nat)

theorem localHandle_load :
    localHandle choice world (.load store jobId) =
      (store.load jobId choice.loadFault world.machine.files, world) := rfl

theorem localHandle_loadArtifacts :
    localHandle choice world (.loadArtifacts store jobId) =
      (store.loadArtifacts jobId choice.artifactsFault world.machine.files,
        world) := rfl

theorem localHandle_mint :
    (localHandle choice world (.mint store jobId)).1 =
        (store.mint jobId choice.minted choice.mintFault
          world.machine.files).1 ∧
      (localHandle choice world (.mint store jobId)).2.machine.files =
        (store.mint jobId choice.minted choice.mintFault
          world.machine.files).2 ∧
      (localHandle choice world (.mint store jobId)).2.machine.handed =
        world.machine.handed := by
  have executed : executorExec () world.machine (.mint store jobId) choice =
      (_, _) := rfl
  obtain ⟨effect, logs, -⟩ := executorExec_mint () executed
  refine ⟨rfl, ?_, handed_minted logs⟩
  simp only [localHandle, executorExec]
  split <;> rfl

end Handle

/-- What the nonce check leaves behind: the nonce when the store is ready, else
an error. -/
inductive NonceChecked (executor : JobExecutor) (committed : Bool)
    (choice : ExecutorChoice) (world : LocalWorld) :
    Except StepOutcome Word × LocalWorld → Prop
  | unneeded {nonce : Word} (none : executor.nonceStore = none) :
      NonceChecked executor committed choice world (.ok nonce, world)
  | ready {nonce : Word} {store : NonceStore} {after : LocalWorld}
      (persistent : executor.nonceStore = some store)
      (ready : NonceReady store executor.jobId committed choice
        world.machine.files after.machine.files)
      (handed : after.machine.handed = world.machine.handed) :
      NonceChecked executor committed choice world (.ok nonce, after)
  | refused {message : String} {store : NonceStore} {after : LocalWorld}
      (persistent : executor.nonceStore = some store)
      (unready : ∀ files, ¬NonceReady store executor.jobId committed choice
        world.machine.files files)
      (handed : after.machine.handed = world.machine.handed) :
      NonceChecked executor committed choice world
        (.error (.error message), after)

theorem resolveNonce_checked (executor : JobExecutor) (committed : Bool)
    (choice : ExecutorChoice) (world : LocalWorld) :
    NonceChecked executor committed choice world
      ((executor.resolveNonce committed).runOn (localHandle choice) world) := by
  cases persistent : executor.nonceStore with
  | none =>
      simp only [JobExecutor.resolveNonce, persistent]
      exact .unneeded persistent
  | some store =>
      simp only [JobExecutor.resolveNonce, persistent, Program.perform_bind,
        Program.runOn_call, localHandle_load]
      cases loaded : store.load executor.jobId choice.loadFault
          world.machine.files with
      | error message =>
          apply NonceChecked.refused persistent
          · intro files ready
            cases ready with
            | loaded load => simp [loaded] at load
            | minted uncommitted absent mint => simp [loaded] at absent
          · rfl
      | ok found =>
          cases found with
          | some nonce => exact .ready persistent (.loaded loaded) rfl
          | none =>
              cases committed with
              | true =>
                  apply NonceChecked.refused persistent
                  · intro files ready
                    cases ready with
                    | loaded load => simp [loaded] at load
                    | minted uncommitted absent mint => cases uncommitted
                  · rfl
              | false =>
                  obtain ⟨answer, files, handed⟩ :=
                    localHandle_mint choice world store executor.jobId
                  simp only [Bool.false_eq_true, if_false, Program.runOn_call]
                  generalize localHandle choice world
                    (.mint store executor.jobId) = after at *
                  cases minted : after.1 with
                  | ok nonce =>
                      apply NonceChecked.ready persistent
                      · exact .minted rfl loaded
                          (Prod.ext (answer ▸ minted) files.symm)
                      · exact handed
                  | error message =>
                      apply NonceChecked.refused persistent
                      · intro other ready
                        cases ready with
                        | loaded load => simp [loaded] at load
                        | minted uncommitted absent mint =>
                            rw [minted, mint] at answer
                            cases answer
                      · exact handed

/-- Past the execution, the artifacts check refuses exactly on a failed read. -/
inductive ArtifactsChecked (executor : JobExecutor) (progress : JobProgress)
    (choice : ExecutorChoice) (world : LocalWorld) :
    Except StepOutcome JobProgress × LocalWorld → Prop
  | ready {next : JobProgress}
      (ready : ArtifactsReady executor progress choice world.machine.files) :
      ArtifactsChecked executor progress choice world (.ok next, world)
  | refused {message : String} {after : LocalWorld}
      (unready : ¬ArtifactsReady executor progress choice world.machine.files)
      (handed : after.machine.handed = world.machine.handed) :
      ArtifactsChecked executor progress choice world
        (.error (.error message), after)

theorem reloadArtifacts_checked (executor : JobExecutor)
    {resolved : ResolvedJob} (finished : resolved.job.state ≠ .executing)
    (nonce : Word) (progress : JobProgress) (choice : ExecutorChoice)
    (world : LocalWorld) :
    ArtifactsChecked executor progress choice world
      ((executor.reloadArtifacts resolved nonce progress).runOn
        (localHandle choice) world) := by
  cases artifacts : progress.artifacts with
  | some art =>
      simp only [JobExecutor.reloadArtifacts, artifacts]
      apply ArtifactsChecked.ready
      intro store persistent absent
      simp [artifacts] at absent
  | none =>
      cases persistent : executor.nonceStore with
      | none =>
          simp only [JobExecutor.reloadArtifacts, artifacts, persistent]
          apply ArtifactsChecked.ready
          intro store present absent
          simp [persistent] at present
      | some store =>
          simp only [JobExecutor.reloadArtifacts, artifacts, persistent,
            Program.perform_bind, Program.runOn_call,
            localHandle_loadArtifacts, finished, and_false, if_false]
          cases loaded : store.loadArtifacts executor.jobId
              choice.artifactsFault world.machine.files with
          | error message =>
              apply ArtifactsChecked.refused
              · intro ready
                obtain ⟨found, read⟩ := ready store persistent artifacts
                rw [loaded] at read
                cases read
              · rfl
          | ok found =>
              have ready : ArtifactsReady executor progress choice
                  world.machine.files := by
                intro other present absent
                obtain rfl := Option.some.inj (persistent.symm.trans present)
                exact ⟨found, loaded⟩
              cases found <;> exact .ready ready

theorem PastReveal.not_settled {executor : JobExecutor}
    {resolved : ResolvedJob} (past : PastReveal executor resolved)
    {world after : LocalWorld} {message : String} {progress : JobProgress}
    (handed : after.machine.handed = world.machine.handed) :
    ¬Settled resolved world ((.error message, progress), after) := by
  intro settled
  rcases past.phase with completed | ⟨verifying, -⟩
  · exact StepOutcome.noConfusion (settled.releases completed).1
  · obtain ⟨request, -, -, now⟩ := settled.requests verifying
    simp [handed] at now

/-- The planner pays out a job past its reveal. -/
theorem PastReveal.plan {executor : JobExecutor} {resolved : ResolvedJob}
    (past : PastReveal executor resolved) (progress : JobProgress) :
    resolved.job.state = .completed ∧
        Lifecycle.plan (resolvedInput executor resolved progress) = .done ∨
      resolved.job.state = .verifying ∧
        Lifecycle.plan (resolvedInput executor resolved progress) =
          sign .completeJob (encodeCompleteJob resolved.job.id)
            (resolvedInput executor resolved progress) := by
  rcases past.phase with completed | ⟨verifying, -, window, tier⟩
  · exact Or.inl ⟨completed, by
      simp [Lifecycle.plan, resolvedInput, planInput, JobExecutor.context,
        completed]⟩
  · exact Or.inr
      ⟨verifying, plan_completes verifying tier past.mine.symm window⟩

theorem signRequest_hands (choice : ExecutorChoice) (world : LocalWorld)
    (request : SignatureRequest) :
    ((signRequest request).runOn (localHandle choice) world).2.machine.handed =
        world.machine.handed ++ [request] ∧
      ((signRequest request).runOn (localHandle choice) world).1 ≠
        .ranInference := by
  simp only [signRequest, Program.perform_bind, Program.runOn_call]
  have handed : (localHandle choice
      (localHandle choice world (.write [.setActiveJobs 1])).2
      (.request request)).2.machine.handed =
      world.machine.handed ++ [request] := by
    simp [localHandle, executorExec, ExecutorWorld.handed,
      ExecutorWorld.record]
  split
  · refine ⟨handed, ?_⟩
    intro same
    cases same
  · refine ⟨handed, ?_⟩
    intro same
    cases same

/-- A step that passed the store checks settles the job. -/
theorem PastReveal.settled {executor : JobExecutor} {resolved : ResolvedJob}
    (past : PastReveal executor resolved) (progress : JobProgress)
    (nonce : Word) (choice : ExecutorChoice) {world after : LocalWorld}
    (handed : after.machine.handed = world.machine.handed) :
    Settled resolved world
      ((do
        let (outcome, progress) ←
          driveJob (executor.context resolved []) progress nonce
        executor.persist outcome progress).runOn (localHandle choice)
          after) := by
  have planned := past.plan progress
  simp only [resolvedInput] at planned
  rcases planned with ⟨completed, done⟩ | ⟨verifying, signs⟩
  · simp only [driveJob, done, Program.perform_bind, Program.call_bind]
    constructor
    · intro verifying
      simp [completed] at verifying
    · intro _
      exact ⟨rfl, rfl⟩
  · simp only [driveJob, signs, sign, bind_assoc, pure_bind]
    rw [Program.runOn_bind]
    obtain ⟨hands, other⟩ := signRequest_hands choice after
      (requestFor .completeJob (encodeCompleteJob resolved.job.id)
        (planInput (executor.context resolved []) progress))
    rw [persist_done executor other]
    constructor
    · intro _
      exact ⟨_, rfl, rfl, handed ▸ hands⟩
    · intro completed
      simp [completed] at verifying

theorem PastReveal.jobInput {executor : JobExecutor} {resolved : ResolvedJob}
    (past : PastReveal executor resolved) (progress : JobProgress) :
    executor.jobInput resolved progress = return .ok [] := by
  rcases past.phase with completed | ⟨verifying, -⟩
  · simp [JobExecutor.jobInput, completed]
  · simp [JobExecutor.jobInput, verifying]

/-- With the nonce at hand, the step settles the job exactly when the artifacts
can be read. -/
theorem PastReveal.settled_iff {executor : JobExecutor}
    {resolved : ResolvedJob} (past : PastReveal executor resolved)
    (progress : JobProgress) (nonce : Word) (choice : ExecutorChoice)
    {world after : LocalWorld}
    (handed : after.machine.handed = world.machine.handed) :
    Settled resolved world
        ((do
          match ← executor.reloadArtifacts resolved nonce progress with
          | .error outcome => return (outcome, progress)
          | .ok progress =>
              match ← executor.jobInput resolved progress with
              | .error outcome => return (outcome, progress)
              | .ok input =>
                  let (outcome, progress) ←
                    driveJob (executor.context resolved input) progress nonce
                  executor.persist outcome progress).runOn
            (localHandle choice) after) ↔
      ArtifactsReady executor progress choice after.machine.files := by
  rw [Program.runOn_bind]
  have checked := reloadArtifacts_checked executor past.finished nonce progress
    choice after
  generalize (executor.reloadArtifacts resolved nonce progress).runOn
    (localHandle choice) after = reloaded at checked
  cases checked with
  | ready ready =>
      simp only [past.jobInput, pure_bind]
      exact iff_of_true (past.settled _ nonce choice handed) ready
  | refused unready same =>
      exact iff_of_false (past.not_settled (same.trans handed)) unready

/-- Past the reveal the step settles the job exactly when the store can still
be read. -/
theorem payout_iff_storeReady {executor : JobExecutor} {resolved : ResolvedJob}
    (past : PastReveal executor resolved) (progress : JobProgress)
    (choice : ExecutorChoice) (world : LocalWorld) :
    Settled resolved world
        (runStep executor resolved progress choice world) ↔
      StoreReady executor resolved progress choice world.machine.files := by
  rw [runStep, JobExecutor.stepResolved, if_neg (not_not.mpr past.mine),
    Program.runOn_bind]
  have checked :=
    resolveNonce_checked executor resolved.committed choice world
  generalize (executor.resolveNonce resolved.committed).runOn
    (localHandle choice) world = resolution at checked
  cases checked with
  | refused persistent unready handed =>
      apply iff_of_false (past.not_settled handed)
      intro ready
      obtain ⟨after, nonceReady, -⟩ := ready _ persistent
      exact unready after nonceReady
  | unneeded none =>
      apply (past.settled_iff _ _ choice rfl).trans
      constructor
      · intro _ store persistent
        simp [none] at persistent
      · intro _ store persistent
        simp [none] at persistent
  | ready persistent ready handed =>
      apply (past.settled_iff _ _ choice handed).trans
      constructor
      · intro artifacts store present
        obtain rfl := Option.some.inj (persistent.symm.trans present)
        exact ⟨_, ready, artifacts⟩
      · intro storeReady
        obtain ⟨after, sameReady, artifacts⟩ := storeReady _ persistent
        rw [ready.unique sameReady]
        exact artifacts

end Hashes

/-- Job 7, committed at block 60, verified at block 90 and past its window. -/
def verifiedResolved : ResolvedJob :=
  { sampleResolved with
    job := { sampleJob with state := .verifying }
    committed := true
    gates := ⟨some .commitment, 60, 90, false⟩ }

theorem verifiedResolved_pastReveal :
    PastReveal sampleExecutor verifiedResolved where
  mine := rfl
  phase := Or.inr ⟨rfl, rfl, Or.inr ⟨by decide, by decide⟩, rfl⟩

/-- A machine with these files. -/
def worldWith (files : Files) : LocalWorld := ⟨AgentState.new, ⟨files, []⟩⟩

def keptWorld : LocalWorld :=
  worldWith (noFiles.write (sampleStore.pathFor 7) sampleNonce.toList)

/-- The nonce file alone is enough to be paid. -/
theorem payout_iff_storeReady_nonceKept :
    @Settled sampleHashes verifiedResolved keptWorld
      (@runStep sampleHashes sampleExecutor verifiedResolved .fresh
        (sampleChoice []) keptWorld) := by
  apply (@payout_iff_storeReady sampleHashes _ _ verifiedResolved_pastReveal
    .fresh (sampleChoice []) keptWorld).mpr
  intro store persistent
  obtain rfl := Option.some.inj persistent
  have loaded : sampleStore.load 7 none keptWorld.machine.files =
      .ok (some sampleNonce) :=
    NonceStore.load_written (by simp [keptWorld, worldWith, Files.write])
  refine ⟨keptWorld.machine.files, .loaded loaded, ?_⟩
  intro other present absent
  obtain rfl := Option.some.inj present
  refine ⟨none, ?_⟩
  simp [NonceStore.loadArtifacts, NonceStore.loadArtifactsCapped, keptWorld,
    worldWith, sampleChoice, Files.write, noFiles,
    NonceStore.artifactsPath_ne_pathFor]

/-- Without the nonce file `completeJob` is never asked for. -/
theorem payout_blockedWithoutNonce :
    ¬∀ (executor : JobExecutor) (resolved : ResolvedJob),
      PastReveal executor resolved → ∀ progress choice world,
        @Settled sampleHashes resolved world
          (@runStep sampleHashes executor resolved progress choice world) := by
  intro always
  have settled := always sampleExecutor verifiedResolved
    verifiedResolved_pastReveal .fresh (sampleChoice []) (worldWith noFiles)
  obtain ⟨request, -, -, handed⟩ :=
    @Settled.requests sampleHashes _ _ _ settled rfl
  exact List.cons_ne_nil _ _ handed.symm

end NodeAgent.Node
