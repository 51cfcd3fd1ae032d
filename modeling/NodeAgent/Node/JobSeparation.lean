import NodeAgent.Node.StepRules
import NodeAgent.Node.Undisturbed

/-!
# Nonces and outputs of different jobs

Executors of several jobs over one state directory, which starts empty.  The
files of a job are filed under its job id alone, so a job finds only its own
nonce and artifacts exactly when no other job has the same id, whatever the
chain and the marketplace of the two jobs are.
-/

namespace NodeAgent.Node

open Chainio Executor Interaction Lifecycle RelyGuarantee

variable {ι : Type}

/-- What makes two on-chain jobs different. -/
def JobExecutor.identity (executor : JobExecutor) : Nat × Address × Nat :=
  (executor.chainId, executor.marketplace, executor.jobId)

/-- Jobs with one id are one job. -/
def DistinctIds (executors : ι → JobExecutor) : Prop :=
  ∀ job other, (executors job).jobId = (executors other).jobId →
    (executors job).identity = (executors other).identity

/-- Some executor of this executor's on-chain job logged the event. -/
def LoggedFor (executors : ι → JobExecutor) (job : ι)
    (event : ι → ExecutorEvent ι) (world : ExecutorWorld ι) : Prop :=
  ∃ executor, (executors executor).identity = (executors job).identity ∧
    event executor ∈ world.log

section Logged

variable {executors : ι → JobExecutor} {job : ι}
  {event : ι → ExecutorEvent ι} {world after : ExecutorWorld ι}

theorem LoggedFor.own (logged : event job ∈ world.log) :
    LoggedFor executors job event world :=
  ⟨job, rfl, logged⟩

theorem LoggedFor.grows (logged : LoggedFor executors job event world)
    (log : world.log ⊆ after.log) : LoggedFor executors job event after := by
  obtain ⟨executor, same, here⟩ := logged
  exact ⟨executor, same, log here⟩

theorem LoggedFor.transfer (logged : LoggedFor executors job event world)
    {other : ι} (same : (executors job).identity = (executors other).identity) :
    LoggedFor executors other event world := by
  obtain ⟨executor, own, here⟩ := logged
  exact ⟨executor, own.trans same, here⟩

end Logged

section Hashes

variable [HashFunctions]

/-- Every commitment is to an output that was inferred for its job, under a
nonce that was minted for its job. -/
def NoCross (executors : ι → JobExecutor) (world : ExecutorWorld ι) : Prop :=
  ∀ job request, .requested job request ∈ world.log →
    request.intent = .submitCommitment →
      ∃ jobId output nonce,
        request.calldata = encodeSubmitCommitment jobId
            (CommitmentProver.commitment output nonce) ∧
          LoggedFor executors job (.minted · nonce) world ∧
          LoggedFor executors job (.inferred · output) world

/-- The persisted nonces and artifacts are those of their own job. -/
structure FiledOwn (executors : ι → JobExecutor) (store : NonceStore)
    (world : ExecutorWorld ι) : Prop where
  nonce : ∀ job nonce,
    world.files (store.pathFor (executors job).jobId) = some nonce.toList →
      LoggedFor executors job (.minted · nonce) world
  artifacts : ∀ job output nonce,
    world.files (store.artifactsPath (executors job).jobId) =
        some (CommitmentProver.build output nonce).proof →
      LoggedFor executors job (.minted · nonce) world ∧
        LoggedFor executors job (.inferred · output) world
  noCross : NoCross executors world

theorem NoCross.grows {executors : ι → JobExecutor}
    {world after : ExecutorWorld ι} (noCross : NoCross executors world)
    (log : world.log ⊆ after.log)
    (requests : ∀ job request, .requested job request ∈ after.log →
      .requested job request ∈ world.log) : NoCross executors after := by
  intro job request requested commits
  obtain ⟨jobId, output, nonce, calldata, minted, inferred⟩ :=
    noCross job request (requests job request requested) commits
  exact ⟨jobId, output, nonce, calldata, minted.grows log, inferred.grows log⟩

theorem FiledOwn.grows {executors : ι → JobExecutor} {store : NonceStore}
    {world after : ExecutorWorld ι} (filed : FiledOwn executors store world)
    (files : after.files = world.files) (log : world.log ⊆ after.log)
    (noCross : NoCross executors after) : FiledOwn executors store after where
  nonce job nonce here := (filed.nonce job nonce (files ▸ here)).grows log
  artifacts job output nonce here := by
    obtain ⟨minted, inferred⟩ :=
      filed.artifacts job output nonce (files ▸ here)
    exact ⟨minted.grows log, inferred.grows log⟩
  noCross := noCross

def provenanceAssertions (executors : ι → JobExecutor) (job : ι) :
    StepAssertions (ExecutorWorld ι) where
  nonceOk nonce world := LoggedFor executors job (.minted · nonce) world
  outputOk output world := LoggedFor executors job (.inferred · output) world
  artifactsOk art world := ∃ output nonce,
    art = CommitmentProver.build output nonce ∧
      LoggedFor executors job (.minted · nonce) world ∧
      LoggedFor executors job (.inferred · output) world
  vacant _ := True

def provenanceDiscipline (executors : ι → JobExecutor) (store : NonceStore) :
    Discipline ι JobProgress StepOp ExecutorChoice (ExecutorWorld ι) Empty where
  inv := FiledOwn executors store
  rely _ before after := before.log ⊆ after.log
  guarantee _ before after := before.log ⊆ after.log
  allowed _ _ _ _ := True
  allowedEvent _ _ := True
  home job := (provenanceAssertions executors job).Home

/-- What one operation of a job's executor does, when no other job has its
id. -/
theorem provenanceRules {executors : ι → JobExecutor} {store : NonceStore}
    (distinct : DistinctIds executors) (job : ι) :
    StepRules (provenanceAssertions executors job)
      ((provenanceDiscipline executors store).contract
        (executorSystem fun i => (executors i).withStore store) job) store
      (executors job).jobId where
  guaranteeRefl world := List.Subset.refl world.log
  nonceKept nonce world after here moved :=
    LoggedFor.grows here (moved.elim id id)
  outputKept output world after here moved :=
    LoggedFor.grows here (moved.elim id id)
  artifactsKept art world after here moved := by
    obtain ⟨output, nonce, same, minted, inferred⟩ := here
    have log : world.log ⊆ after.log := moved.elim id id
    exact ⟨output, nonce, same, minted.grows log, inferred.grows log⟩
  vacantStable _ _ here _ _ := here
  quiet world op choice quiet := executorExec_quiet job world quiet choice
  load filed loaded := filed.nonce job _ (NonceStore.load_some loaded)
  mint {world _ _ after} filed executed := by
    obtain ⟨effect, logs, logged⟩ := executorExec_mint job executed
    have noCross := filed.noCross.grows logs.subset
      fun _ _ => logs.requested nofun
    have filedNonce : ∀ other nonce,
        after.files (store.pathFor (executors other).jobId) =
            some nonce.toList →
          LoggedFor executors other (.minted · nonce) after := by
      intro other nonce here
      by_cases sameId : (executors job).jobId = (executors other).jobId
      · have same := distinct job other sameId
        rw [← sameId] at here
        rcases effect.whole here with before | ⟨absent, rfl⟩
        · exact ((filed.nonce job nonce before).grows logs.subset).transfer same
        · exact (LoggedFor.own (logged absent _ here)).transfer same
      · have elsewhere : store.pathFor (executors other).jobId ≠
            store.pathFor (executors job).jobId :=
          fun equal => sameId (NonceStore.pathFor_inj equal).symm
        rw [effect.frame elsewhere] at here
        exact (filed.nonce other nonce here).grows logs.subset
    refine ⟨⟨filedNonce, ?_, noCross⟩, logs.subset, ?_⟩
    · intro other output nonce here
      rw [effect.frame (store.artifactsPath_ne_pathFor _ _)] at here
      obtain ⟨minted, inferred⟩ := filed.artifacts other output nonce here
      exact ⟨minted.grows logs.subset, inferred.grows logs.subset⟩
    · rintro nonce rfl
      obtain ⟨rfl, written⟩ := effect.ok
      exact filedNonce job _ written
  loadSome filed loaded := by
    obtain ⟨output, nonce, rfl, persisted, saved⟩ :=
      NonceStore.loadArtifacts_some loaded
    exact ⟨output, nonce, rfl, filed.artifacts job output nonce saved⟩
  loadNone _ _ := trivial
  infer filed executed := by
    obtain ⟨files, output, logs, inferred⟩ := executorExec_infer job executed
    have noCross := filed.noCross.grows logs.subset
      fun _ _ => logs.requested nofun
    exact ⟨filed.grows files logs.subset noCross, logs.subset,
      fun _ => trivial, fun output answered =>
        LoggedFor.own (inferred output answered)⟩
  save {world _ output nonce _ after} filed minted inferred _ _ executed := by
    obtain ⟨effect, log⟩ := executorExec_save job executed
    have grown : world.log ⊆ after.log := log ▸ List.Subset.refl world.log
    have noCross := filed.noCross.grows grown fun _ _ here => log ▸ here
    have minted := LoggedFor.grows minted grown
    have inferred := LoggedFor.grows inferred grown
    refine ⟨⟨?_, ?_, noCross⟩, grown, ?_⟩
    · intro other otherNonce here
      rw [effect.nonceFile] at here
      exact (filed.nonce other otherNonce here).grows grown
    · intro other otherOutput otherNonce here
      by_cases sameId : (executors job).jobId = (executors other).jobId
      · have same := distinct job other sameId
        rw [← sameId] at here
        rcases effect.artifactsFile with kept | saved
        · obtain ⟨minted, inferred⟩ :=
            filed.artifacts job otherOutput otherNonce (kept.symm.trans here)
          exact ⟨(minted.grows grown).transfer same,
            (inferred.grows grown).transfer same⟩
        · obtain ⟨rfl, rfl⟩ := CommitmentProver.build_proof_inj
            (Option.some.inj (saved.symm.trans here))
          exact ⟨minted.transfer same, inferred.transfer same⟩
      · rw [effect.frame fun equal => sameId equal.symm] at here
        obtain ⟨minted, inferred⟩ :=
          filed.artifacts other otherOutput otherNonce here
        exact ⟨minted.grows grown, inferred.grows grown⟩
    · intro _
      exact ⟨output, nonce, rfl, minted, inferred⟩
  request {world _ input request _ after} filed signs artifacts executed := by
    obtain ⟨files, log⟩ := executorExec_request job executed
    have grown : world.log ⊆ after.log :=
      log ▸ List.subset_append_left _ _
    refine ⟨filed.grows files grown ?_, grown⟩
    intro other otherRequest requested commits
    rw [log, List.mem_append, List.mem_singleton] at requested
    rcases requested with earlier | now
    · obtain ⟨jobId, output, nonce, calldata, minted, inferred⟩ :=
        filed.noCross other otherRequest earlier commits
      exact ⟨jobId, output, nonce, calldata, minted.grows grown,
        inferred.grows grown⟩
    · cases now
      cases signs with
      | startExecution state => cases commits
      | submitResult state stored committed inTime afterCommit => cases commits
      | completeJob state window => cases commits
      | @submitCommitment art state stored committed =>
          obtain ⟨output, nonce, rfl, minted, inferred⟩ := artifacts art stored
          exact ⟨_, output, nonce, rfl, minted.grows grown,
            inferred.grows grown⟩

theorem provenanceSound {executors : ι → JobExecutor} {store : NonceStore}
    (distinct : DistinctIds executors) :
    (provenanceDiscipline executors store).Sound
      (executorSystem fun i => (executors i).withStore store) where
  relyRefl _ world := List.Subset.refl world.log
  relyTrans _ _ _ _ before after := List.Subset.trans before after
  compatible _ kept := kept
  event {_ event} := nomatch event
  homeStable job memory :=
    ((provenanceRules distinct job).homeKept memory).stable
  freshHome _ _ _ := ⟨nofun, nofun⟩
  body job _ memory := by
    have rules : StepRules (provenanceAssertions executors job)
        ((provenanceDiscipline executors store).contract
          (executorSystem fun i => (executors i).withStore store) job) store
        ((executors job).withStore store).jobId := provenanceRules distinct job
    apply (rules.triple_step rfl memory).bind
    intro result
    exact Contract.triple_done fun _ _ here => here

theorem filedOwn_empty (executors : ι → JobExecutor) (store : NonceStore) :
    FiledOwn executors store ⟨noFiles, []⟩ where
  nonce _ _ here := nomatch here
  artifacts _ _ _ here := nomatch here
  noCross _ _ here := nomatch here

theorem noCross_of_distinct [DecidableEq ι] {executors : ι → JobExecutor}
    {store : NonceStore} (distinct : DistinctIds executors)
    (schedule : List (ExecutorAction ι)) :
    NoCross executors (runExecutors (fun i => (executors i).withStore store)
      noFiles schedule).world := by
  have sound : (provenanceDiscipline executors store).Sound
      (executorSystem fun i => (executors i).withStore store) :=
    provenanceSound distinct
  have initially := sound.holds_initial (filedOwn_empty executors store)
  have afterwards := sound.holds_always (fun _ _ _ _ => trivial)
    (fun _ _ => trivial) initially schedule
  exact afterwards.inv.noCross

/-- Two jobs with one id share their files: the second commits to what the
first inferred. -/
theorem distinct_of_noCross [DecidableEq ι] {executors : ι → JobExecutor}
    {store : NonceStore}
    (separate : ∀ schedule, NoCross executors
      (runExecutors (fun i => (executors i).withStore store) noFiles
        schedule).world) : DistinctIds executors := by
  intro job other sameId
  by_contra different
  have apart : other ≠ job := by
    rintro rfl
    exact different rfl
  let stored := fun i => (executors i).withStore store
  let initial := (executorSystem stored).initial ⟨noFiles, []⟩
  -- The first job runs up to the point where its artifacts are persisted.
  obtain ⟨progress, files, firstStep, nonceFile, artifactsFile⟩ :=
    solo_firstStep job (executors job) store ⟨noFiles, []⟩ rfl rfl
  let found : ExecutorWorld ι :=
    ⟨files, [.minted job sampleNonce, .inferred job []]⟩
  let threads := Function.update initial.threads job (.idle progress)
  obtain ⟨first, firstRun⟩ : ∃ schedule,
      Runs.run (executorSystem stored).step initial schedule =
        ⟨found, threads⟩ := solo_run stored initial job rfl firstStep
  -- The second finds the files of the first under its own id.
  rw [sameId] at nonceFile artifactsFile
  have fits : 64 + ([] : Bytes).length ≤ MAX_ARTIFACTS_BYTES := by decide
  have loads := NonceStore.loadArtifacts_saved nonceFile artifactsFile fits
  obtain ⟨reached, request, commits, secondStep⟩ :=
    solo_commitStep other (executors other) store found nonceFile loads
  have idle : threads other = .idle JobProgress.fresh :=
    Function.update_of_ne apart _ _
  obtain ⟨second, secondRun⟩ :=
    solo_run stored ⟨found, threads⟩ other idle secondStep
  have crossed : NoCross executors (Runs.run (executorSystem stored).step
      initial (first ++ second)).world := separate (first ++ second)
  rw [Runs.run_append, firstRun, secondRun] at crossed
  obtain ⟨-, -, nonce, -, ⟨minter, sameJob, minted⟩, -⟩ :=
    crossed other request (List.mem_append_right _ List.mem_cons_self) commits
  obtain ⟨rfl, -⟩ : minter = job ∧ nonce = sampleNonce := by
    simpa [ExecutorWorld.record, found] using minted
  exact different sameJob

/-- What one job persists and commits to stays its own on every run exactly
when the distinct jobs have different ids. -/
theorem jobs_separate_iff [DecidableEq ι] (executors : ι → JobExecutor)
    (store : NonceStore) :
    (∀ schedule, NoCross executors
      (runExecutors (fun i => (executors i).withStore store) noFiles
        schedule).world) ↔ DistinctIds executors :=
  ⟨distinct_of_noCross, noCross_of_distinct⟩

end Hashes

/-- The executor that minted a nonce. -/
def ExecutorEvent.minter : ExecutorEvent ι → Option ι
  | .minted executor _ => some executor
  | .inferred _ _ | .requested _ _ => none

/-- The executor that handed out a commitment. -/
def ExecutorEvent.committer : ExecutorEvent ι → Option ι
  | .requested executor request =>
      if request.intent = .submitCommitment then some executor else none
  | .minted _ _ | .inferred _ _ => none

theorem NoCross.committer_minted [HashFunctions]
    {executors : ι → JobExecutor} {world : ExecutorWorld ι}
    (noCross : NoCross executors world) {job : ι}
    (committed : job ∈ world.log.filterMap ExecutorEvent.committer) :
    ∃ executor ∈ world.log.filterMap ExecutorEvent.minter,
      (executors executor).identity = (executors job).identity := by
  obtain ⟨event, logged, isCommitment⟩ := List.mem_filterMap.mp committed
  cases event with
  | minted executor nonce => cases isCommitment
  | inferred executor output => cases isCommitment
  | requested executor request =>
      simp only [ExecutorEvent.committer, Option.ite_none_right_eq_some,
        Option.some.injEq] at isCommitment
      obtain ⟨commits, rfl⟩ := isCommitment
      obtain ⟨-, -, nonce, -, ⟨minter, same, minted⟩, -⟩ :=
        noCross executor request logged commits
      exact ⟨minter, List.mem_filterMap.mpr ⟨_, minted, rfl⟩, same⟩

/-- Job 7 of a marketplace, and job 7 of the one deployed after it. -/
def redeployed : Bool → JobExecutor
  | false => sampleExecutor
  | true =>
      { sampleExecutor with marketplace := List.Vector.replicate 20 0x33 }

def homeStore : NonceStore := ⟨defaultStateDir none (some "home")⟩

theorem redeployed_crosses :
    (redeployed false).identity ≠ (redeployed true).identity ∧
      ¬∀ schedule, @NoCross Bool sampleHashes redeployed
        (@runExecutors Bool sampleHashes _
          (fun job => (redeployed job).withStore homeStore) noFiles
          schedule).world := by
  refine ⟨by decide, fun separate => ?_⟩
  obtain ⟨minter, minted, same⟩ :=
    @NoCross.committer_minted Bool sampleHashes _ _
      (separate (stepOf false [1] 12 ++ stepOf true [2] 5)) true
      (by decide +kernel)
  have others : ∀ executor ∈ (@runExecutors Bool sampleHashes _
      (fun job => (redeployed job).withStore homeStore) noFiles
      (stepOf false [1] 12 ++ stepOf true [2] 5)).world.log.filterMap
        ExecutorEvent.minter,
      (redeployed executor).identity ≠ (redeployed true).identity := by
    decide +kernel
  exact others minter minted same

end NodeAgent.Node
