import NodeAgent.Library.RelyGuarantee
import NodeAgent.Node.ExecutorPool

/-!
# The rules of one executor step

A step of an executor with a nonce store, proved once against assertions that
are left open: what it means that a nonce, an output or the artifacts are
sound, and that no artifacts are stored.  A user of these rules gives the
assertions and shows what each operation of the store and the signer does to
them.
-/

namespace NodeAgent.Node

open Chainio Executor Interaction Lifecycle RelyGuarantee

variable {W : Type}

structure StepAssertions (W : Type) where
  nonceOk : Word → W → Prop
  outputOk : Bytes → W → Prop
  artifactsOk : CommitmentArtifacts → W → Prop
  vacant : W → Prop

namespace StepAssertions

/-- What holds of the progress between two steps. -/
structure Home (assertions : StepAssertions W) (progress : JobProgress)
    (world : W) : Prop where
  nonce : ∀ nonce ∈ progress.nonce, assertions.nonceOk nonce world
  artifacts : ∀ art ∈ progress.artifacts, assertions.artifactsOk art world

section

variable [HashFunctions]

/-- Artifacts that were built in this step and are not stored yet. -/
structure Unsaved (assertions : StepAssertions W) (progress : JobProgress)
    (output : Bytes) (nonce : Word) (world : W) : Prop where
  artifacts : progress.artifacts = some (CommitmentProver.build output nonce)
  sameNonce : progress.nonce = some nonce
  nonceOk : assertions.nonceOk nonce world
  outputOk : assertions.outputOk output world
  vacant : assertions.vacant world

/-- What one planned action leaves: fresh artifacts to be stored, or progress
as sound as before. -/
def Driven (assertions : StepAssertions W) (result : StepOutcome × JobProgress)
    (world : W) : Prop :=
  (result.1 = .ranInference ∧
      ∃ output nonce, assertions.Unsaved result.2 output nonce world) ∨
    (result.1 ≠ .ranInference ∧ assertions.Home result.2 world)

end

end StepAssertions

/-- An assertion that neither the others nor the executor itself can break. -/
def Kept {Ω : Type} (contract : Contract StepOp StepAnswer Ω W)
    (assertion : W → Prop) : Prop :=
  ∀ ⦃world after⦄, assertion world →
    contract.rely world after ∨ contract.guarantee world after →
      assertion after

theorem Kept.stable {Ω : Type} {contract : Contract StepOp StepAnswer Ω W}
    {assertion : W → Prop} (kept : Kept contract assertion) :
    contract.Stable assertion :=
  fun _ _ holds moved _ => kept holds (Or.inl moved)

theorem Kept.and {Ω : Type} {contract : Contract StepOp StepAnswer Ω W}
    {first second : W → Prop} (firstKept : Kept contract first)
    (secondKept : Kept contract second) :
    Kept contract fun world => first world ∧ second world :=
  fun _ _ both moved => ⟨firstKept both.1 moved, secondKept both.2 moved⟩

variable [HashFunctions]

/-- What the operations of a step do to the assertions. -/
structure StepRules (assertions : StepAssertions W) {Ω : Type}
    (contract : Contract StepOp StepAnswer Ω W) (store : NonceStore)
    (jobId : Nat) : Prop where
  guaranteeRefl : ∀ world, contract.guarantee world world
  nonceKept : ∀ nonce, Kept contract (assertions.nonceOk nonce)
  outputKept : ∀ output, Kept contract (assertions.outputOk output)
  artifactsKept : ∀ art, Kept contract (assertions.artifactsOk art)
  vacantStable : contract.Stable assertions.vacant
  quiet : ∀ world {op} choice, isQuiet op = true →
    (contract.exec world op choice).2 = world
  load : ∀ {world choice nonce}, contract.inv world →
    (contract.exec world (.load store jobId) choice).1 = .ok (some nonce) →
      assertions.nonceOk nonce world
  mint : ∀ {world choice answer after}, contract.inv world →
    contract.exec world (.mint store jobId) choice = (answer, after) →
    contract.inv after ∧ contract.guarantee world after ∧
      ∀ nonce, answer = .ok nonce → assertions.nonceOk nonce after
  loadSome : ∀ {world choice art}, contract.inv world →
    (contract.exec world (.loadArtifacts store jobId) choice).1 =
      .ok (some art) → assertions.artifactsOk art world
  loadNone : ∀ {world choice}, contract.inv world →
    (contract.exec world (.loadArtifacts store jobId) choice).1 = .ok none →
      assertions.vacant world
  infer : ∀ {world choice model input answer after}, contract.inv world →
    contract.exec world (.infer model input) choice = (answer, after) →
    contract.inv after ∧ contract.guarantee world after ∧
      (assertions.vacant world → assertions.vacant after) ∧
      ∀ output, answer = .ok output → assertions.outputOk output after
  save : ∀ {world choice output nonce answer after}, contract.inv world →
    assertions.nonceOk nonce world → assertions.outputOk output world →
    assertions.vacant world →
    contract.allowed world (.saveArtifacts store jobId
      (CommitmentProver.build output nonce)) choice →
    contract.exec world (.saveArtifacts store jobId
      (CommitmentProver.build output nonce)) choice = (answer, after) →
    contract.inv after ∧ contract.guarantee world after ∧
      (answer = .ok () →
        assertions.artifactsOk (CommitmentProver.build output nonce) after)
  request : ∀ {world choice input request answer after}, contract.inv world →
    Signs input request →
    (∀ art ∈ input.artifacts, assertions.artifactsOk art world) →
    contract.exec world (.request request) choice = (answer, after) →
    contract.inv after ∧ contract.guarantee world after

namespace StepRules

variable {assertions : StepAssertions W} {Ω : Type}
  {contract : Contract StepOp StepAnswer Ω W} {store : NonceStore}
  {executor : JobExecutor} {α : Type}

section Operations

variable {jobId : Nat} (rules : StepRules assertions contract store jobId)

include rules

theorem homeKept (progress : JobProgress) :
    Kept contract (assertions.Home progress) := by
  intro world after home moved
  constructor
  · intro nonce isNonce
    exact rules.nonceKept nonce (home.nonce nonce isNonce) moved
  · intro art isArt
    exact rules.artifactsKept art (home.artifacts art isArt) moved

theorem triple_read {pre : W → Prop} (op : StepOp)
    (mid : StepAnswer op → W → Prop) {post : α → W → Prop}
    {next : StepAnswer op → StepProgram α} (quiet : isQuiet op = true)
    (stable : contract.Stable pre)
    (read : ∀ now choice, contract.inv now → pre now →
      mid (contract.exec now op choice).1 now)
    (rest : ∀ answer, contract.Triple (mid answer) (next answer) post) :
    contract.Triple pre (.call op next) post := by
  apply Contract.triple_call op mid stable _ rest
  intro now choice kept here _
  rw [rules.quiet now choice quiet]
  exact ⟨kept, rules.guaranteeRefl now, read now choice kept here⟩

theorem triple_quiet {pre : W → Prop} {op : StepOp} {post : α → W → Prop}
    {next : StepAnswer op → StepProgram α} (quiet : isQuiet op = true)
    (stable : contract.Stable pre)
    (rest : ∀ answer, contract.Triple pre (next answer) post) :
    contract.Triple pre (.call op next) post :=
  rules.triple_read op (fun _ => pre) quiet stable (fun _ _ _ here => here) rest

theorem triple_fail {pre : W → Prop} {post : α → W → Prop} {message : String}
    {result : StepOutcome → α} (stable : contract.Stable pre)
    (implies : ∀ world, pre world → post (result (.error message)) world) :
    contract.Triple pre
      (recordError message >>= fun outcome => pure (result outcome)) post := by
  apply rules.triple_quiet rfl stable
  intro _ world _ here
  exact implies world here

theorem triple_provision {pre : W → Prop}
    (program : Program ProvisionOp ProvisionAnswer α)
    (stable : contract.Stable pre) :
    contract.Triple pre
      (program.interp fun op => Program.perform (StepOp.provision op))
      fun _ => pre := by
  induction program with
  | done value => exact Contract.triple_done fun _ _ here => here
  | call op next ih => exact rules.triple_quiet rfl stable ih

end Operations

section Driving

variable (rules : StepRules assertions contract store executor.jobId)

include rules

theorem triple_jobInput (resolved : ResolvedJob) (progress : JobProgress)
    {pre : W → Prop} (stable : contract.Stable pre) :
    contract.Triple pre (executor.jobInput resolved progress) fun _ => pre := by
  have failed message : contract.Triple pre
      (recordError message >>= fun outcome =>
        (pure (.error outcome) : StepProgram (Except StepOutcome Bytes)))
      fun _ => pre := rules.triple_fail stable fun _ here => here
  unfold JobExecutor.jobInput
  split
  · rw [Program.perform_bind]
    apply rules.triple_quiet rfl stable
    intro answer
    cases answer with
    | error error => exact failed _
    | ok delivered =>
        cases delivered with
        | none => exact Contract.triple_done fun _ _ here => here
        | some bytes =>
            cases resolved.job.inputHash with
            | none => exact failed _
            | some hash =>
                by_cases bound : keccak256Bytes bytes = hash
                · simp only [bound, if_true]
                  exact Contract.triple_done fun _ _ here => here
                · simp only [bound, if_false]
                  exact failed _
  · exact Contract.triple_done fun _ _ here => here

/-- Inference turns sound progress into artifacts that are not stored yet. -/
theorem triple_infer (ctx : JobContext) {progress : JobProgress} {nonceSeed : Word} :
    contract.Triple
      (fun world => (assertions.Home progress world ∧
        assertions.nonceOk nonceSeed world) ∧ assertions.vacant world)
      (Node.infer ctx progress nonceSeed) assertions.Driven := by
  have kept := (rules.homeKept progress).and (rules.nonceKept nonceSeed)
  have stable := kept.stable.and rules.vacantStable
  have failed message : contract.Triple
      (fun world => (assertions.Home progress world ∧
        assertions.nonceOk nonceSeed world) ∧ assertions.vacant world)
      (recordError message >>= fun outcome =>
        (pure (outcome, progress) : StepProgram (StepOutcome × JobProgress)))
      assertions.Driven :=
    rules.triple_fail stable fun _ here => Or.inr ⟨nofun, here.1.1⟩
  unfold Node.infer
  apply (rules.triple_provision _ stable).bind
  intro provisioned
  cases provisioned with
  | error error => exact failed _
  | ok model =>
      apply Contract.triple_call (StepOp.infer model ctx.input)
        (fun answer world =>
          ((assertions.Home progress world ∧
            assertions.nonceOk nonceSeed world) ∧ assertions.vacant world) ∧
          ∀ output, answer = .ok output → assertions.outputOk output world)
        stable
      · intro now choice invariant here _
        obtain ⟨after, promised, vacant, inferred⟩ :=
          rules.infer invariant rfl
        exact ⟨after, promised,
          ⟨kept here.1 (Or.inr promised), vacant here.2⟩, inferred⟩
      · intro answer
        cases answer with
        | error error =>
            exact Contract.Triple.strengthen (fun _ here => here.1) (failed _)
        | ok output =>
            have built : contract.Stable fun world =>
                ((assertions.Home progress world ∧
                  assertions.nonceOk nonceSeed world) ∧
                assertions.vacant world) ∧ assertions.outputOk output world :=
              stable.and (rules.outputKept output).stable
            refine Contract.Triple.strengthen
              (fun _ here => And.intro here.1 (here.2 output rfl)) ?_
            apply rules.triple_quiet rfl built
            intro elapsed
            apply rules.triple_quiet rfl built
            intro _ world _ here
            refine Or.inl ⟨rfl, output, progress.nonce.getD nonceSeed,
              rfl, rfl, ?_, here.2, here.1.2⟩
            cases remembered : progress.nonce with
            | none => exact here.1.1.2
            | some nonce => exact here.1.1.1.nonce nonce remembered

theorem triple_runInference (ctx : JobContext) {progress : JobProgress}
    {nonceSeed : Word} :
    contract.Triple
      (fun world => (assertions.Home progress world ∧
        assertions.nonceOk nonceSeed world) ∧ assertions.vacant world)
      (runInference ctx progress nonceSeed)
      assertions.Driven := by
  have kept := (rules.homeKept progress).and (rules.nonceKept nonceSeed)
  have stable := kept.stable.and rules.vacantStable
  unfold runInference
  rw [Program.perform_bind]
  apply rules.triple_quiet rfl stable
  intro _
  rw [Program.perform_bind]
  apply rules.triple_quiet rfl stable
  intro max
  by_cases tooLong : ctx.input.length > max
  · simp only [tooLong, if_true]
    apply rules.triple_quiet rfl stable
    intro _ world _ here
    exact Or.inr ⟨nofun, here.1.1⟩
  · simp only [tooLong, if_false]
    cases validateCid ctx.ipfsCid with
    | error error =>
        apply rules.triple_fail stable
        intro world here
        exact Or.inr ⟨nofun, here.1.1⟩
    | ok _ => exact rules.triple_infer ctx

theorem triple_signRequest {input : PlanInput} {progress : JobProgress}
    {request : SignatureRequest} (signs : Signs input request)
    (artifacts : input.artifacts = progress.artifacts) :
    contract.Triple (assertions.Home progress)
      (signRequest request >>= fun outcome =>
        (pure (outcome, progress) : StepProgram (StepOutcome × JobProgress)))
      assertions.Driven := by
  have kept := rules.homeKept progress
  unfold signRequest
  rw [Program.perform_bind]
  apply rules.triple_quiet rfl kept.stable
  intro _
  apply Contract.triple_call (StepOp.request request)
    (fun _ => assertions.Home progress) kept.stable
  · intro now choice invariant here _
    have sound : ∀ art ∈ input.artifacts, assertions.artifactsOk art now := by
      rw [artifacts]
      exact here.artifacts
    obtain ⟨after, promised⟩ := rules.request invariant signs sound rfl
    exact ⟨after, promised, kept here (Or.inr promised)⟩
  · intro answer
    cases answer with
    | ok observed =>
        intro world _ here
        exact Or.inr ⟨nofun, here⟩
    | error error =>
        apply rules.triple_fail kept.stable
        intro world here
        exact Or.inr ⟨nofun, here⟩

theorem triple_driveJob (ctx : JobContext) {progress : JobProgress}
    {nonceSeed : Word} :
    contract.Triple
      (fun world => (assertions.Home progress world ∧
        assertions.nonceOk nonceSeed world) ∧
          (progress.artifacts = none → assertions.vacant world))
      (driveJob ctx progress nonceSeed) assertions.Driven := by
  have kept := rules.homeKept progress
  have unchanged {outcome : StepOutcome} (other : outcome ≠ .ranInference) :
      contract.Triple (assertions.Home progress)
        (pure (outcome, progress) : StepProgram (StepOutcome × JobProgress))
        assertions.Driven :=
    Contract.triple_done fun _ _ here => Or.inr ⟨other, here⟩
  unfold driveJob
  cases planned : plan (planInput ctx progress) with
  | runInference =>
      obtain ⟨-, absent, -⟩ := plan_runInference planned
      refine Contract.Triple.strengthen
        (fun _ here => ⟨here.1, here.2 absent⟩) (rules.triple_runInference ctx)
  | sign request =>
      exact Contract.Triple.strengthen (fun _ here => here.1.1)
        (rules.triple_signRequest (plan_signs planned).1 rfl)
  | done =>
      refine Contract.Triple.strengthen (fun _ here => here.1.1) ?_
      apply rules.triple_quiet rfl kept.stable
      intro _
      exact unchanged nofun
  | idle =>
      exact Contract.Triple.strengthen (fun _ here => here.1.1)
        (unchanged nofun)
  | wait reason =>
      exact Contract.Triple.strengthen (fun _ here => here.1.1)
        (unchanged nofun)
  | abort reason =>
      refine Contract.Triple.strengthen (fun _ here => here.1.1) ?_
      apply rules.triple_quiet rfl kept.stable
      intro _
      exact unchanged nofun

end Driving

section Persistent

variable (rules : StepRules assertions contract store executor.jobId)
  (persistent : executor.nonceStore = some store)

include rules persistent

theorem triple_resolveNonce (committed : Bool) {pre : W → Prop}
    (kept : Kept contract pre) :
    contract.Triple pre (executor.resolveNonce committed) fun result world =>
      pre world ∧ ∀ nonce, result = .ok nonce →
        assertions.nonceOk nonce world := by
  unfold JobExecutor.resolveNonce
  simp only [persistent]
  apply rules.triple_read (StepOp.load store executor.jobId)
    (fun answer world => pre world ∧
      ∀ nonce, answer = .ok (some nonce) → assertions.nonceOk nonce world)
    rfl kept.stable
  · intro now choice invariant here
    exact ⟨here, fun nonce loaded => rules.load invariant loaded⟩
  · intro answer
    cases answer with
    | error error =>
        refine Contract.Triple.strengthen (fun _ here => here.1) ?_
        apply rules.triple_fail kept.stable
        intro world here
        exact ⟨here, nofun⟩
    | ok loaded =>
        cases loaded with
        | some nonce =>
            intro world _ here
            refine ⟨here.1, ?_⟩
            rintro nonce' ⟨⟩
            exact here.2 nonce rfl
        | none =>
            refine Contract.Triple.strengthen (fun _ here => here.1) ?_
            cases committed with
            | true =>
                apply rules.triple_fail kept.stable
                intro world here
                exact ⟨here, nofun⟩
            | false =>
                apply Contract.triple_call (StepOp.mint store executor.jobId)
                  (fun answer world => pre world ∧
                    ∀ nonce, answer = .ok nonce →
                      assertions.nonceOk nonce world) kept.stable
                · intro now choice invariant here _
                  obtain ⟨after, promised, minted⟩ := rules.mint invariant rfl
                  exact ⟨after, promised, kept here (Or.inr promised), minted⟩
                · intro answer
                  cases answer with
                  | ok nonce =>
                      intro world _ here
                      refine ⟨here.1, ?_⟩
                      rintro nonce' ⟨⟩
                      exact here.2 nonce rfl
                  | error error =>
                      refine Contract.Triple.strengthen
                        (fun _ here => here.1) ?_
                      apply rules.triple_fail kept.stable
                      intro world here
                      exact ⟨here, nofun⟩

/-- Reloading keeps the progress sound, and finds no artifacts only when none
are stored. -/
theorem triple_reloadArtifacts (resolved : ResolvedJob) {nonceSeed : Word}
    {progress : JobProgress} :
    contract.Triple
      (fun world => assertions.Home progress world ∧
        assertions.nonceOk nonceSeed world)
      (executor.reloadArtifacts resolved nonceSeed progress)
      fun result world => assertions.nonceOk nonceSeed world ∧
        match result with
        | .error _ => assertions.Home progress world
        | .ok reloaded => assertions.Home reloaded world ∧
            (reloaded.artifacts = none → assertions.vacant world) := by
  have kept := (rules.homeKept progress).and (rules.nonceKept nonceSeed)
  unfold JobExecutor.reloadArtifacts
  cases artifacts : progress.artifacts with
  | some art =>
      intro world _ here
      exact ⟨here.2, here.1, by simp [artifacts]⟩
  | none =>
      simp only [persistent]
      apply rules.triple_read (StepOp.loadArtifacts store executor.jobId)
        (fun answer world =>
          (assertions.Home progress world ∧
            assertions.nonceOk nonceSeed world) ∧
          (∀ art, answer = .ok (some art) → assertions.artifactsOk art world) ∧
          (answer = .ok none → assertions.vacant world))
        rfl kept.stable
      · intro now choice invariant here
        exact ⟨here, fun art loaded => rules.loadSome invariant loaded,
          fun loaded => rules.loadNone invariant loaded⟩
      · intro answer
        cases answer with
        | error error =>
            refine Contract.Triple.strengthen (fun _ here => here.1) ?_
            apply rules.triple_fail kept.stable
            intro world here
            exact ⟨here.2, here.1⟩
        | ok loaded =>
            cases loaded with
            | some art =>
                intro world _ here
                refine ⟨here.1.2, ⟨?_, ?_⟩, nofun⟩
                · rintro nonce ⟨⟩
                  exact here.1.2
                · rintro art' ⟨⟩
                  exact here.2.1 art rfl
            | none =>
                simp only
                split
                · refine Contract.Triple.strengthen (fun _ here => here.1) ?_
                  apply rules.triple_fail kept.stable
                  intro world here
                  exact ⟨here.2, here.1⟩
                · intro world _ here
                  exact ⟨here.1.2, here.1.1, fun _ => here.2.2 trivial⟩

theorem triple_saved {outcome : StepOutcome} {progress : JobProgress}
    {output : Bytes} {nonce : Word} (ran : outcome = .ranInference)
    (artifacts : progress.artifacts =
      some (CommitmentProver.build output nonce))
    (sameNonce : progress.nonce = some nonce) :
    contract.Triple
      (fun world => assertions.nonceOk nonce world ∧
        assertions.outputOk output world ∧ assertions.vacant world)
      (executor.persist outcome progress)
      fun stored => assertions.Home stored.2 := by
  have nonceKept := rules.nonceKept nonce
  have stable := nonceKept.stable.and
    ((rules.outputKept output).stable.and rules.vacantStable)
  unfold JobExecutor.persist
  simp only [ran, persistent, artifacts]
  apply Contract.triple_call (StepOp.saveArtifacts store executor.jobId
      (CommitmentProver.build output nonce))
    (fun answer world => assertions.nonceOk nonce world ∧
      (answer = .ok () →
        assertions.artifactsOk (CommitmentProver.build output nonce) world))
    stable
  · intro now choice invariant here permitted
    obtain ⟨after, promised, saved⟩ :=
      rules.save invariant here.1 here.2.1 here.2.2 permitted rfl
    exact ⟨after, promised, nonceKept here.1 (Or.inr promised), saved⟩
  · intro answer
    cases answer with
    | ok _ =>
        intro world _ here
        refine ⟨?_, ?_⟩
        · intro persisted isNonce
          rw [sameNonce] at isNonce
          cases isNonce
          exact here.1
        · intro art isArt
          rw [artifacts] at isArt
          cases isArt
          exact here.2 rfl
    | error error =>
        refine Contract.Triple.strengthen (fun _ here => here.1) ?_
        apply rules.triple_fail nonceKept.stable
        intro world here
        refine ⟨?_, nofun⟩
        intro persisted isNonce
        simp only [sameNonce] at isNonce
        cases isNonce
        exact here

theorem triple_persist (result : StepOutcome × JobProgress) :
    contract.Triple (assertions.Driven result)
      (executor.persist result.1 result.2)
      fun stored => assertions.Home stored.2 := by
  obtain ⟨outcome, progress⟩ := result
  intro world kept driven
  rcases driven with ⟨ran, output, nonce, unsaved⟩ | ⟨other, home⟩
  · refine triple_saved rules persistent ran unsaved.artifacts
      unsaved.sameNonce world kept ?_
    exact ⟨unsaved.nonceOk, unsaved.outputOk, unsaved.vacant⟩
  · have skipped : executor.persist outcome progress =
        pure (outcome, progress) := by
      unfold JobExecutor.persist
      split
      · exact absurd rfl other
      · rfl
    rw [skipped]
    exact home

theorem triple_advance (resolved : ResolvedJob) (progress : JobProgress)
    (nonceSeed : Word) :
    contract.Triple
      (fun world => assertions.nonceOk nonceSeed world ∧
        assertions.Home progress world ∧
          (progress.artifacts = none → assertions.vacant world))
      (executor.jobInput resolved progress >>= fun input =>
        match input with
        | .error outcome => pure (outcome, progress)
        | .ok input =>
            driveJob (executor.context resolved input) progress nonceSeed >>=
              fun result => executor.persist result.1 result.2)
      fun result => assertions.Home result.2 := by
  have kept := (rules.homeKept progress).and (rules.nonceKept nonceSeed)
  have vacant : contract.Stable fun world =>
      progress.artifacts = none → assertions.vacant world :=
    fun _ _ here moved invariant absent =>
      rules.vacantStable (here absent) moved invariant
  refine Contract.Triple.strengthen
    (fun _ here => And.intro (And.intro here.2.1 here.1) here.2.2) ?_
  apply (rules.triple_jobInput resolved progress
    (kept.stable.and vacant)).bind
  intro input
  cases input with
  | error outcome => exact Contract.triple_done fun _ _ here => here.1.1
  | ok input =>
      apply (rules.triple_driveJob (executor.context resolved input)).bind
      exact rules.triple_persist persistent

theorem triple_stepResolved (resolved : ResolvedJob) (progress : JobProgress) :
    contract.Triple (assertions.Home progress)
      (executor.stepResolved resolved progress)
      fun result => assertions.Home result.2 := by
  unfold JobExecutor.stepResolved
  split
  · exact Contract.triple_done fun _ _ here => here
  · -- the committed flag takes no part in what is sound
    have home : ∀ world, assertions.Home progress world →
        assertions.Home { progress with committed := resolved.committed }
          world := fun _ here => ⟨here.nonce, here.artifacts⟩
    generalize { progress with committed := resolved.committed } = current
      at home
    refine Contract.Triple.strengthen home ?_
    apply (rules.triple_resolveNonce persistent resolved.committed
      (rules.homeKept current)).bind
    intro seeded
    cases seeded with
    | error outcome => exact Contract.triple_done fun _ _ here => here.1
    | ok nonceSeed =>
        apply Contract.Triple.strengthen _
          ((rules.triple_reloadArtifacts persistent resolved).bind _)
        · intro world here
          exact ⟨here.1, here.2 nonceSeed rfl⟩
        · intro reloaded
          cases reloaded with
          | error outcome => exact Contract.triple_done fun _ _ here => here.2
          | ok reloaded =>
              exact rules.triple_advance persistent resolved reloaded nonceSeed

theorem triple_step (progress : JobProgress) :
    contract.Triple (assertions.Home progress) (executor.step progress)
      fun result => assertions.Home result.2 := by
  have stable := (rules.homeKept progress).stable
  unfold JobExecutor.step
  rw [Program.perform_bind]
  apply rules.triple_quiet rfl stable
  intro answer
  cases answer with
  | error error => exact rules.triple_fail stable fun _ here => here
  | ok resolved => exact rules.triple_stepResolved persistent resolved progress

end Persistent

end StepRules

end NodeAgent.Node
