import NodeAgent.Node.StepRules

/-!
# One commitment for a job

Executors of one job over one store.  What has been committed to is on disk:
every commitment or result that was handed to the signer carries the persisted
artifacts under the persisted nonce, and those two files do not change any
more.  An executor that has the directory to itself keeps this in every run.
Several executors keep it as long as no `save_artifacts` finds other artifacts
already installed.
-/

namespace NodeAgent.Node

open Chainio Executor Interaction Lifecycle RelyGuarantee

variable {ι : Type}

/-- Whether the executor has the store to itself. -/
inductive Sharing
  | alone
  | shared
deriving DecidableEq

/-- The job's files, where they exist, do not change. -/
structure Frozen (store : NonceStore) (jobId : Nat) (before after : Files) :
    Prop where
  nonce : ∀ bytes, before (store.pathFor jobId) = some bytes →
    after (store.pathFor jobId) = some bytes
  artifacts : ∀ bytes, before (store.artifactsPath jobId) = some bytes →
    after (store.artifactsPath jobId) = some bytes

theorem Frozen.refl {store : NonceStore} {jobId : Nat} (files : Files) :
    Frozen store jobId files files :=
  ⟨fun _ here => here, fun _ here => here⟩

theorem Frozen.trans {store : NonceStore} {jobId : Nat}
    {first second third : Files}
    (before : Frozen store jobId first second)
    (after : Frozen store jobId second third) :
    Frozen store jobId first third where
  nonce bytes here := after.nonce bytes (before.nonce bytes here)
  artifacts bytes here := after.artifacts bytes (before.artifacts bytes here)

/-- `save_artifacts` finds no other artifacts installed. -/
def NoOverwrite (world : ExecutorWorld ι) : StepOp → Prop
  | .saveArtifacts store jobId art =>
      world.files (store.artifactsPath jobId) = none ∨
        world.files (store.artifactsPath jobId) = some art.proof
  | _ => True

section Hashes

variable [HashFunctions]

/-- The request commits to, or reveals, this output under this nonce. -/
structure Carries (output : Bytes) (nonce : Word) (request : SignatureRequest) :
    Prop where
  commitment : request.intent = .submitCommitment →
    ∃ jobId, request.calldata =
      encodeSubmitCommitment jobId (keccak256 (output ++ nonce.toList))
  result : request.intent = .submitResult →
    ∃ jobId, request.calldata =
      encodeSubmitResult jobId (keccak256 output).toList
        ((keccak256 (output ++ nonce.toList)).toList ++ nonce.toList ++ output)

/-- The output and the nonce are on disk. -/
structure Persisted (store : NonceStore) (jobId : Nat) (output : Bytes)
    (nonce : Word) (files : Files) : Prop where
  nonceFile : files (store.pathFor jobId) = some nonce.toList
  artifactsFile : files (store.artifactsPath jobId) =
    some (CommitmentProver.build output nonce).proof

theorem Persisted.unique {store : NonceStore} {jobId : Nat}
    {output output' : Bytes} {nonce nonce' : Word} {files : Files}
    (first : Persisted store jobId output nonce files)
    (second : Persisted store jobId output' nonce' files) :
    output = output' ∧ nonce = nonce' :=
  CommitmentProver.build_proof_inj
    (Option.some.inj (first.artifactsFile.symm.trans second.artifactsFile))

theorem Persisted.frozen {store : NonceStore} {jobId : Nat} {output : Bytes}
    {nonce : Word} {before after : Files}
    (persisted : Persisted store jobId output nonce before)
    (frozen : Frozen store jobId before after) :
    Persisted store jobId output nonce after where
  nonceFile := frozen.nonce _ persisted.nonceFile
  artifactsFile := frozen.artifacts _ persisted.artifactsFile

def commitsOrReveals (request : SignatureRequest) : Bool :=
  request.intent = .submitCommitment ∨ request.intent = .submitResult

/-- Whatever was committed or revealed is on disk. -/
def HandedPersisted (store : NonceStore) (jobId : Nat)
    (world : ExecutorWorld ι) : Prop :=
  ∀ request ∈ world.handed, commitsOrReveals request = true →
    ∃ output nonce, Persisted store jobId output nonce world.files ∧
      Carries output nonce request

theorem HandedPersisted.frozen {store : NonceStore} {jobId : Nat}
    {world after : ExecutorWorld ι}
    (invariant : HandedPersisted store jobId world)
    (handed : ∀ request ∈ after.handed, request ∈ world.handed)
    (frozen : Frozen store jobId world.files after.files) :
    HandedPersisted store jobId after := by
  intro request isHanded relevant
  obtain ⟨output, nonce, persisted, carries⟩ :=
    invariant request (handed request isHanded) relevant
  exact ⟨output, nonce, persisted.frozen frozen, carries⟩

theorem HandedPersisted.one {store : NonceStore} {jobId : Nat}
    {world : ExecutorWorld ι} (invariant : HandedPersisted store jobId world) :
    ∃ output nonce, ∀ request ∈ world.handed,
      commitsOrReveals request = true →
        world.files (store.pathFor jobId) = some nonce.toList ∧
          Carries output nonce request := by
  by_cases some : ∃ request ∈ world.handed, commitsOrReveals request = true
  · obtain ⟨request, handed, relevant⟩ := some
    obtain ⟨output, nonce, persisted, -⟩ := invariant request handed relevant
    refine ⟨output, nonce, ?_⟩
    intro other otherHanded otherRelevant
    obtain ⟨output', nonce', persisted', carries⟩ :=
      invariant other otherHanded otherRelevant
    obtain ⟨rfl, rfl⟩ := persisted.unique persisted'
    exact ⟨persisted.nonceFile, carries⟩
  · refine ⟨[], List.Vector.replicate 32 0, ?_⟩
    intro request handed relevant
    exact absurd ⟨request, handed, relevant⟩ some

def commitAssertions (sharing : Sharing) (store : NonceStore) (jobId : Nat) :
    StepAssertions (ExecutorWorld ι) where
  nonceOk nonce world := world.files (store.pathFor jobId) = some nonce.toList
  outputOk _ _ := True
  artifactsOk art world := ∃ output nonce,
    art = CommitmentProver.build output nonce ∧
      Persisted store jobId output nonce world.files
  vacant world := sharing = .alone →
    world.files (store.artifactsPath jobId) = none

def commitDiscipline (sharing : Sharing) (store : NonceStore) (jobId : Nat) :
    Discipline ι JobProgress StepOp ExecutorChoice (ExecutorWorld ι) Empty where
  inv := HandedPersisted store jobId
  rely _ before after :=
    match sharing with
    | .alone => before = after
    | .shared => Frozen store jobId before.files after.files
  guarantee _ before after := Frozen store jobId before.files after.files
  allowed _ world op _ := sharing = .shared → NoOverwrite world op
  allowedEvent _ _ := True
  home _ := (commitAssertions sharing store jobId).Home

theorem commit_frozen {sharing : Sharing} {store : NonceStore} {jobId : Nat}
    {executors : ι → JobExecutor} {thread : ι}
    {world after : ExecutorWorld ι}
    (moved :
      ((commitDiscipline sharing store jobId).contract
        (executorSystem executors) thread).rely world after ∨
      ((commitDiscipline sharing store jobId).contract
        (executorSystem executors) thread).guarantee world after) :
    Frozen store jobId world.files after.files := by
  rcases moved with relied | own
  · cases sharing with
    | alone => exact relied ▸ Frozen.refl world.files
    | shared => exact relied
  · exact own

theorem commitRules (sharing : Sharing) (store : NonceStore) (jobId : Nat)
    (executors : ι → JobExecutor) (thread : ι) :
    StepRules (commitAssertions sharing store jobId)
      ((commitDiscipline sharing store jobId).contract
        (executorSystem executors) thread) store jobId where
  guaranteeRefl world := Frozen.refl world.files
  nonceKept nonce world after here moved :=
    (commit_frozen moved).nonce _ here
  outputKept _ _ _ here _ := here
  artifactsKept art world after here moved := by
    obtain ⟨output, nonce, same, persisted⟩ := here
    exact ⟨output, nonce, same, persisted.frozen (commit_frozen moved)⟩
  vacantStable world after here moved _ := by
    intro alone
    subst alone
    exact moved ▸ here rfl
  quiet world op choice quiet := executorExec_quiet thread world quiet choice
  load _ loaded := NonceStore.load_some loaded
  mint invariant executed := by
    obtain ⟨effect, logs, -⟩ := executorExec_mint thread executed
    have frozen : Frozen store jobId _ _ :=
      ⟨fun _ here => effect.kept here, fun _ here => effect.kept here⟩
    refine ⟨invariant.frozen (logs.handed nofun) frozen, frozen, ?_⟩
    rintro nonce rfl
    obtain ⟨rfl, written⟩ := effect.ok
    exact written
  loadSome _ loaded := by
    obtain ⟨output, nonce, rfl, persisted, saved⟩ :=
      NonceStore.loadArtifacts_some loaded
    exact ⟨output, nonce, rfl, persisted, saved⟩
  loadNone _ loaded := fun _ => NonceStore.loadArtifacts_none loaded
  infer {world _ _ _ _ after} invariant executed := by
    obtain ⟨files, output, logs, -⟩ := executorExec_infer thread executed
    have frozen : Frozen store jobId world.files after.files :=
      files.symm ▸ Frozen.refl world.files
    refine ⟨invariant.frozen (logs.handed nofun) frozen, frozen, ?_,
      fun _ _ => trivial⟩
    intro vacant alone
    exact (congrFun files _).trans (vacant alone)
  save {world _ output nonce _ after} invariant nonceOk _ vacant permitted
      executed := by
    obtain ⟨effect, log⟩ := executorExec_save thread executed
    have handed : after.handed = world.handed := by
      rw [ExecutorWorld.handed, log, ExecutorWorld.handed]
    have harmless : world.files (store.artifactsPath jobId) = none ∨
        world.files (store.artifactsPath jobId) =
          some (CommitmentProver.build output nonce).proof := by
      cases sharing with
      | alone => exact Or.inl (vacant rfl)
      | shared => exact permitted rfl
    have nonceFile : after.files (store.pathFor jobId) =
        world.files (store.pathFor jobId) := effect.nonceFile
    have frozen : Frozen store jobId world.files after.files := by
      refine ⟨fun bytes here => nonceFile.trans here, ?_⟩
      intro bytes here
      rcases effect.artifactsFile with kept | saved
      · exact kept.trans here
      · rcases harmless with absent | same
        · rw [absent] at here
          cases here
        · exact saved.trans (same.symm.trans here)
    refine ⟨invariant.frozen (fun _ here => handed ▸ here) frozen, frozen, ?_⟩
    rintro rfl
    exact ⟨output, nonce, rfl, nonceFile.trans nonceOk, effect.ok⟩
  request {world _ input request _ after} invariant signs artifacts
      executed := by
    obtain ⟨files, log⟩ := executorExec_request thread executed
    have frozen : Frozen store jobId world.files after.files :=
      files.symm ▸ Frozen.refl world.files
    refine ⟨?_, frozen⟩
    intro other otherHanded relevant
    rcases ExecutorWorld.mem_handed_requested log otherHanded with
      earlier | rfl
    · obtain ⟨output, nonce, persisted, carries⟩ :=
        invariant other earlier relevant
      exact ⟨output, nonce, files.symm ▸ persisted, carries⟩
    · cases signs with
      | startExecution state => cases relevant
      | completeJob state window => cases relevant
      | @submitCommitment art state stored committed =>
          obtain ⟨output, nonce, rfl, persisted⟩ := artifacts art stored
          exact ⟨output, nonce, files.symm ▸ persisted,
            fun _ => ⟨_, rfl⟩, nofun⟩
      | @submitResult art state stored committed inTime afterCommit =>
          obtain ⟨output, nonce, rfl, persisted⟩ := artifacts art stored
          exact ⟨output, nonce, files.symm ▸ persisted,
            nofun, fun _ => ⟨_, rfl⟩⟩

theorem commitSound {sharing : Sharing} {store : NonceStore} {jobId : Nat}
    {executors : ι → JobExecutor}
    (sole : sharing = .alone → Subsingleton ι)
    (filed : ∀ thread, (executors thread).nonceStore = some store ∧
      (executors thread).jobId = jobId) :
    (commitDiscipline sharing store jobId).Sound (executorSystem executors) where
  relyRefl _ world := by
    cases sharing with
    | alone => rfl
    | shared => exact Frozen.refl world.files
  relyTrans _ first second third before after := by
    cases sharing with
    | alone => exact before.trans after
    | shared => exact Frozen.trans before after
  compatible {thread other _ _} different kept := by
    cases sharing with
    | alone =>
        have := sole rfl
        exact absurd (Subsingleton.elim thread other) different
    | shared => exact kept
  event {_ event} := nomatch event
  homeStable thread memory :=
    ((commitRules sharing store jobId executors thread).homeKept memory).stable
  freshHome _ _ _ := ⟨nofun, nofun⟩
  body thread _ memory := by
    obtain ⟨persistent, rfl⟩ := filed thread
    have rules := commitRules sharing store (executors thread).jobId executors
      thread
    apply (rules.triple_step persistent memory).bind
    intro result
    exact Contract.triple_done fun _ _ here => here

/-- Whatever happens to the steps of one executor, all commitments it hands out
are one commitment, and all results reveal the output behind it. -/
theorem commitment_survivesRestarts (executor : JobExecutor)
    (store : NonceStore) (files : Files)
    (schedule : List (ExecutorAction Unit)) :
    let final :=
      (runExecutors (fun _ => executor.withStore store) files schedule).world
    ∃ output nonce, ∀ request ∈ final.handed,
      commitsOrReveals request = true →
        final.files (store.pathFor executor.jobId) = some nonce.toList ∧
          Carries output nonce request := by
  have sound : (commitDiscipline .alone store executor.jobId).Sound
      (executorSystem fun _ : Unit => executor.withStore store) :=
    commitSound (fun _ => inferInstance) fun _ => ⟨rfl, rfl⟩
  have initially : HandedPersisted store executor.jobId
      (⟨files, []⟩ : ExecutorWorld Unit) := nofun
  have afterwards := sound.holds_always (fun _ _ _ _ => nofun)
    (fun _ _ => trivial) (sound.holds_initial initially) schedule
  exact afterwards.inv.one

/-- A save about to be executed finds no other artifacts installed. -/
def SavesFresh (pool : ExecutorPool ι) : ExecutorAction ι → Prop
  | .advance thread _ =>
      match pool.threads thread with
      | .waiting op _ => NoOverwrite pool.world op
      | .idle _ => True
  | _ => True

/-- All commitments handed to the signer are one commitment. -/
def OneCommitment (world : ExecutorWorld ι) : Prop :=
  ∃ commitment, ∀ request ∈ world.handed, request.intent = .submitCommitment →
    ∃ jobId, request.calldata = encodeSubmitCommitment jobId commitment

/-- Once a commitment was handed out, the step leaves the artifacts as they
are. -/
def KeepsCommitted (store : NonceStore) (jobId : Nat)
    (step : ExecutorPool ι → ExecutorAction ι → ExecutorPool ι)
    (pool : ExecutorPool ι) (action : ExecutorAction ι) : Prop :=
  (∃ request ∈ pool.world.handed, request.intent = .submitCommitment) →
    (step pool action).world.files (store.artifactsPath jobId) =
      pool.world.files (store.artifactsPath jobId)

theorem permits_savesFresh {store : NonceStore} {jobId : Nat}
    {pool : ExecutorPool ι} {action : ExecutorAction ι}
    (fresh : SavesFresh pool action) :
    (commitDiscipline .shared store jobId).Permits pool action := by
  cases action with
  | advance thread choice =>
      cases state : pool.threads thread with
      | idle memory => simp [Discipline.Permits, state]
      | waiting op next =>
          simp only [SavesFresh, state] at fresh
          simp only [Discipline.Permits, state]
          exact fun _ => fresh
  | start thread arg => trivial
  | crash thread => trivial
  | interfere event => trivial

theorem HandedPersisted.oneCommitment {store : NonceStore} {jobId : Nat}
    {world : ExecutorWorld ι} (invariant : HandedPersisted store jobId world) :
    OneCommitment world := by
  obtain ⟨output, nonce, carried⟩ := invariant.one
  refine ⟨keccak256 (output ++ nonce.toList), ?_⟩
  intro request handed commits
  have relevant : commitsOrReveals request = true := by
    simp [commitsOrReveals, commits]
  exact (carried request handed relevant).2.commitment commits

theorem keepsCommitted_step [DecidableEq ι] {store : NonceStore} {jobId : Nat}
    {executors : ι → JobExecutor}
    (sound : (commitDiscipline .shared store jobId).Sound
      (executorSystem executors)) (pool : ExecutorPool ι)
    (action : ExecutorAction ι)
    (holds : (commitDiscipline .shared store jobId).Holds
      (executorSystem executors) pool)
    (fresh : SavesFresh pool action) :
    KeepsCommitted store jobId (executorSystem executors).step pool action := by
  intro committed
  obtain ⟨request, handed, commits⟩ := committed
  have relevant : commitsOrReveals request = true := by
    simp [commitsOrReveals, commits]
  obtain ⟨output, nonce, persisted, -⟩ := holds.inv request handed relevant
  rcases sound.guarantee_step holds (permits_savesFresh fresh) with
    same | ⟨thread, frozen⟩ | ⟨event, -⟩
  · rw [same]
  · rw [persisted.artifactsFile]
    exact frozen.artifacts _ persisted.artifactsFile
  · exact nomatch event

/-- Executors that share a store and a job keep one commitment in every run in
which no save finds other artifacts already installed. -/
theorem commitment_shared [DecidableEq ι] (executors : ι → JobExecutor)
    (store : NonceStore) (jobId : Nat) (files : Files)
    (schedule : List (ExecutorAction ι))
    (fresh : Runs.Along
      (executorSystem fun i => (executors i).forJob store jobId).step SavesFresh
      ((executorSystem fun i => (executors i).forJob store jobId).initial
        ⟨files, []⟩) schedule) :
    OneCommitment (runExecutors (fun i => (executors i).forJob store jobId)
        files schedule).world ∧
      Runs.Along (executorSystem fun i => (executors i).forJob store jobId).step
        (KeepsCommitted store jobId
          (executorSystem fun i => (executors i).forJob store jobId).step)
        ((executorSystem fun i => (executors i).forJob store jobId).initial
          ⟨files, []⟩) schedule := by
  have sound : (commitDiscipline .shared store jobId).Sound
      (executorSystem fun i => (executors i).forJob store jobId) :=
    commitSound nofun fun _ => ⟨rfl, rfl⟩
  have empty : HandedPersisted store jobId
      (⟨files, []⟩ : ExecutorWorld ι) := nofun
  have initially := sound.holds_initial empty
  have preserved (pool : ExecutorPool ι) (action : ExecutorAction ι)
      (holds : (commitDiscipline .shared store jobId).Holds
        (executorSystem fun i => (executors i).forJob store jobId) pool)
      (fresh : SavesFresh pool action) :=
    sound.holds_step holds (permits_savesFresh fresh)
  constructor
  · exact (Runs.invariant_run preserved initially fresh).inv.oneCommitment
  · exact Runs.along_of_invariant preserved (keepsCommitted_step sound)
      initially fresh

end Hashes

instance (world : ExecutorWorld ι) : ∀ op, Decidable (NoOverwrite world op)
  | .saveArtifacts _ _ _ => inferInstanceAs (Decidable (_ ∨ _))
  | .resolve _ | .load _ _ | .mint _ _ | .loadArtifacts _ _ | .inputFor _
  | .write _ | .maxJobInputBytes | .provision _ | .infer _ _ | .elapsedSecs
  | .recordProfile _ _ | .request _ => isTrue trivial

instance (pool : ExecutorPool ι) : ∀ action, Decidable (SavesFresh pool action)
  | .advance thread _ =>
      match state : pool.threads thread with
      | .waiting op _ =>
          decidable_of_iff (NoOverwrite pool.world op)
            (by simp only [SavesFresh, state])
      | .idle _ => isTrue (by simp only [SavesFresh, state])
  | .start _ _ => isTrue trivial
  | .crash _ => isTrue trivial
  | .interfere _ => isTrue trivial

/-- One executor runs inference and commits, then the other one starts. -/
def oneAfterTheOther : List (ExecutorAction Bool) :=
  stepOf false [1] 12 ++ stepOf false [1] 4 ++ stepOf true [2] 5

/-- Both executors find no artifacts; the first one infers and commits, then
the second one infers, saves and commits. -/
def bothInfer : List (ExecutorAction Bool) :=
  stepOf false [1] 4 ++ stepOf true [2] 3 ++
    List.replicate 8 (.advance false (sampleChoice [1])) ++
    stepOf false [1] 4 ++
    List.replicate 8 (.advance true (sampleChoice [2])) ++
    stepOf true [2] 4

theorem commitment_shared_inTurn :
    @OneCommitment Bool sampleHashes
        (@runExecutors Bool sampleHashes _
          (fun _ => sampleExecutor.forJob sampleStore 7) noFiles
          oneAfterTheOther).world ∧
      Runs.Along
        (@executorSystem Bool sampleHashes
          fun _ => sampleExecutor.forJob sampleStore 7).step
        (KeepsCommitted sampleStore 7
          (@executorSystem Bool sampleHashes
            fun _ => sampleExecutor.forJob sampleStore 7).step)
        ((@executorSystem Bool sampleHashes
          fun _ => sampleExecutor.forJob sampleStore 7).initial ⟨noFiles, []⟩)
        oneAfterTheOther :=
  @commitment_shared Bool sampleHashes _ (fun _ => sampleExecutor) sampleStore 7
    noFiles oneAfterTheOther (by decide +kernel)

/-- The resolved job that the action reads, if it reads one, is uncommitted. -/
def ReadsUncommitted : ExecutorAction ι → Prop
  | .advance _ choice =>
      match choice.resolved with
      | .ok resolved => resolved.committed = false
      | .error _ => True
  | _ => True

instance : ∀ action : ExecutorAction ι, Decidable (ReadsUncommitted action)
  | .advance _ choice =>
      match read : choice.resolved with
      | .ok resolved =>
          decidable_of_iff (resolved.committed = false)
            (by simp only [ReadsUncommitted, read])
      | .error _ => isTrue (by simp only [ReadsUncommitted, read])
  | .start _ _ => isTrue trivial
  | .crash _ => isTrue trivial
  | .interfere _ => isTrue trivial

theorem not_oneCommitment [HashFunctions] {world : ExecutorWorld ι}
    (differ : ∃ first ∈ world.handed, ∃ second ∈ world.handed,
      first.intent = .submitCommitment ∧ second.intent = .submitCommitment ∧
        first.calldata.drop 36 ≠ second.calldata.drop 36) :
    ¬OneCommitment world := by
  intro one
  obtain ⟨commitment, carried⟩ := one
  obtain ⟨first, firstHanded, second, secondHanded, firstCommits,
    secondCommits, different⟩ := differ
  obtain ⟨firstId, firstCalldata⟩ := carried first firstHanded firstCommits
  obtain ⟨secondId, secondCalldata⟩ :=
    carried second secondHanded secondCommits
  apply different
  rw [firstCalldata, secondCalldata, encodeSubmitCommitment_drop,
    encodeSubmitCommitment_drop]

theorem commitment_replaced :
    ¬∀ schedule : List (ExecutorAction Bool),
      (∀ action ∈ schedule, ReadsUncommitted action) →
        @OneCommitment Bool sampleHashes
          (@runExecutors Bool sampleHashes _
            (fun _ => sampleExecutor.forJob sampleStore 7) noFiles
            schedule).world :=
  fun always =>
    absurd (always bothInfer (by decide +kernel))
      (@not_oneCommitment Bool sampleHashes _ (by decide +kernel))

end NodeAgent.Node
