import NodeAgent.Chainio.Calldata
import NodeAgent.Library.Runs
import NodeAgent.Node.WonStep
import NodeAgent.Node.WriteIdentity

/-!
# A won job runs to payout

The executor's steps against contracts that keep to the documented transitions
of the marketplace and the verifier.  Between two steps the process may restart,
and what a step hands to the signer is mined before the next one or never.  A
step counts when nothing of what it needs fails and its write is mined in time;
five such steps pay the job out.

Not modelled are the transitions that another party causes (timeout, dispute,
expiry), a write that is mined after a later step, and a restart within a step.
-/

namespace NodeAgent.Node

open Chainio Executor Interaction Lifecycle

/-- What the marketplace and the verifier keep of one job, and the calldata
that they accepted for it. -/
structure JobAccount where
  record : Job
  commitment : Option (Word × Nat)
  verifiedAt : Nat
  accepted : List Bytes

/-- The registry's record of the job's model, with the operator's digest. -/
structure ModelTerms where
  ipfsCid : String
  isActive : Bool
  expectedSize : Option Nat
  expectedSha256 : Option Word

section Hashes

variable [HashFunctions]

/-- `_verifyCommitment`: the proof data opens the stored commitment. -/
def onChainVerify (storedCommitment : Word) (proofData : Bytes) : Bool :=
  if proofData.length < 64 then false
  else if proofData.take 32 ≠ storedCommitment.toList then false
  else (keccak256 (proofData.drop 64 ++ (proofData.drop 32).take 32)).toList =
    proofData.take 32

/-- An assigned job before the provider's first write. -/
def JobAccount.assigned (job : Job) : JobAccount := ⟨job, none, 0, []⟩

def JobAccount.enter (account : JobAccount) (state : JobState) : JobAccount :=
  { account with record := { account.record with state := state } }

/-- The contracts' answers to the provider's writes for one job, `none` for a
revert, as far as they are documented: each write moves the job on from its own
state, a reveal under the commitment tier and only between its commitment and
the deadline, and the payout only behind the dispute window.  What else they do
is open. -/
structure JobContracts where
  effect : JobAccount → Nat → Write → Option JobAccount
  starts : ∀ account block jobId, jobId.val = account.record.id →
    account.record.state = .assigned →
      effect account block (.startExecution jobId) =
        some (account.enter .executing)
  commits : ∀ account block jobId commitment, jobId.val = account.record.id →
    account.record.state = .assigned ∨ account.record.state = .executing →
    account.commitment = none →
      effect account block (.submitCommitment jobId commitment) =
        some { account with commitment := some (commitment, block) }
  reveals : ∀ account block jobId outputHash proof stored committedAt,
    jobId.val = account.record.id → account.record.state = .executing →
    account.record.tier = .commitment →
    account.record.maxPriceWei ≤ COMMITMENT_TIER_VALUE_THRESHOLD_WEI →
    account.commitment = some (stored, committedAt) → committedAt < block →
    block ≤ account.record.executionDeadlineBlock →
    onChainVerify stored proof.val = true →
      effect account block (.submitResult jobId outputHash proof) =
        some { account.enter .verifying with verifiedAt := block }
  revealsInTime : ∀ account block jobId outputHash proof stored committedAt,
    account.commitment = some (stored, committedAt) →
    ¬(committedAt < block ∧ block ≤ account.record.executionDeadlineBlock) →
      effect account block (.submitResult jobId outputHash proof) = none
  completes : ∀ account block jobId, jobId.val = account.record.id →
    account.record.state = .verifying → account.verifiedAt ≠ 0 →
    account.verifiedAt + DISPUTE_WINDOW_BLOCKS ≤ block →
      effect account block (.completeJob jobId) =
        some (account.enter .completed)
  completesAfterWindow : ∀ account block jobId,
    ¬account.verifiedAt + DISPUTE_WINDOW_BLOCKS ≤ block →
      effect account block (.completeJob jobId) = none

variable (contracts : JobContracts)

/-- The contracts decode the calldata of a mined request; one that reverts
leaves nothing behind. -/
def JobContracts.mine (block : Nat) (account : JobAccount)
    (request : SignatureRequest) : JobAccount :=
  match (Write.ofCalldata request.calldata).bind
      (contracts.effect account block) with
  | some next => { next with accepted := next.accepted ++ [request.calldata] }
  | none => account

/-- One step of the executor, and what happens before and after it. -/
structure JobRound where
  restarts : Bool
  readFails : Option String
  head : Nat
  tierRead : Bool
  environment : ExecutorChoice
  /-- The blocks after which what was handed out is mined, if it is. -/
  minedAfter : Option Nat

/-- The contracts, the executor's files and its progress. -/
structure JobDrive where
  account : JobAccount
  files : Files
  progress : JobProgress

/-- What the executor reads of the chain. -/
def JobAccount.resolved (account : JobAccount) (terms : ModelTerms)
    (round : JobRound) : ResolvedJob where
  job := account.record
  ipfsCid := terms.ipfsCid
  isActive := terms.isActive
  expectedSize := terms.expectedSize
  expectedSha256 := terms.expectedSha256
  currentBlock := round.head
  committed := account.commitment.isSome
  gates :=
    { effectiveTier := if round.tierRead then some .commitment else none
      commitmentBlock := (account.commitment.map Prod.snd).getD 0
      resultVerifiedAt := account.verifiedAt
      disputeResolvedForProvider := false }

def JobRound.choice (round : JobRound) (terms : ModelTerms)
    (account : JobAccount) : ExecutorChoice :=
  { round.environment with
    resolved :=
      match round.readFails with
      | some message => .error message
      | none => .ok (account.resolved terms round) }

/-- Mine what was handed out. -/
def JobRound.land (round : JobRound) (account : JobAccount)
    (handed : List SignatureRequest) : JobAccount :=
  match round.minedAfter with
  | none => account
  | some delay => handed.foldl (contracts.mine (round.head + delay)) account

def JobDrive.step (executor : JobExecutor) (store : NonceStore)
    (terms : ModelTerms) (drive : JobDrive) (round : JobRound) : JobDrive :=
  let progress := if round.restarts then JobProgress.fresh else drive.progress
  let ((_, progress), machine) :=
    ((executor.withStore store).step progress).runOn
      (wonHandle (round.choice terms drive.account)) ⟨drive.files, []⟩
  { account := round.land contracts drive.account machine.handed
    files := machine.files
    progress := progress }

/-- What was handed out is mined. -/
def JobRound.Lands (round : JobRound) : Prop :=
  ∃ delay, round.minedAfter = some delay

/-- Nothing of what the step needs in the job's phase fails, and its write is
mined in time. -/
def JobDrive.Counts (executor : JobExecutor) (store : NonceStore)
    (terms : ModelTerms) (drive : JobDrive) (round : JobRound) : Prop :=
  round.readFails = none ∧ round.environment.StoreSound ∧
    match drive.account.record.state, drive.account.commitment with
    | .assigned, _ => round.Lands
    | .executing, none =>
        if drive.files (store.artifactsPath executor.jobId) = none then
          InputReady executor (drive.account.resolved terms round)
            (round.choice terms drive.account)
        else round.Lands
    | .executing, some (_, committedAt) =>
        committedAt < round.head ∧
          ∃ delay, round.minedAfter = some delay ∧
            round.head + delay ≤ drive.account.record.executionDeadlineBlock
    | .verifying, _ =>
        drive.account.verifiedAt + DISPUTE_WINDOW_BLOCKS ≤ round.head ∧
          round.Lands
    | _, _ => True

/-- A nonce file is never cut short, and every output fits an artifacts
file. -/
structure JobRound.Sound (round : JobRound) : Prop where
  mints : round.environment.MintsWhole
  outputs : round.environment.OutputFits

variable {contracts} {executor : JobExecutor} {store : NonceStore}
  {terms : ModelTerms}
  {drive : JobDrive} {round : JobRound} {held : Option (Bytes × Word)}

/-- The planner's input in a round. -/
def JobDrive.input (executor : JobExecutor) (terms : ModelTerms)
    (drive : JobDrive) (round : JobRound) (held : Option (Bytes × Word)) :
    PlanInput :=
  resolvedInput executor (drive.account.resolved terms round)
    ⟨drive.account.commitment.isSome, heldArtifacts held, none⟩

/-- The planner's action in a round. -/
def JobDrive.action (executor : JobExecutor) (terms : ModelTerms)
    (drive : JobDrive) (round : JobRound) (held : Option (Bytes × Word)) :
    LifecycleAction :=
  plan (drive.input executor terms round held)

/-- What a round does to the three parts. -/
structure Rounded (contracts : JobContracts) (executor : JobExecutor)
    (store : NonceStore) (terms : ModelTerms) (drive : JobDrive)
    (round : JobRound) (held : Option (Bytes × Word)) (next : JobDrive)
    (after : Option (Bytes × Word)) : Prop where
  holds : JobHeld store executor.jobId next.files next.progress after
  keeps : after = held ∨
    drive.action executor terms round held = .runInference ∧ held = none
  account : next.account = drive.account ∨
    next.account = round.land contracts drive.account
      (handedBy (drive.action executor terms round held))
  lands : round.readFails = none → round.environment.StoreSound →
    drive.action executor terms round held ≠ .runInference →
    next.account = round.land contracts drive.account
      (handedBy (drive.action executor terms round held))
  infers : round.readFails = none → round.environment.StoreSound →
    drive.action executor terms round held = .runInference →
    InputReady executor (drive.account.resolved terms round)
      (round.choice terms drive.account) → after.isSome

theorem JobRound.land_nil (round : JobRound) (account : JobAccount) :
    round.land contracts account [] = account := by
  unfold JobRound.land
  split <;> rfl

theorem drive_rounded (contracts : JobContracts) (terms : ModelTerms)
    (mine : drive.account.record.assignedProvider = executor.me)
    (holds : JobHeld store executor.jobId drive.files drive.progress held)
    (known : drive.account.commitment.isSome = true → held ≠ none)
    (sound : round.Sound) :
    ∃ after, Rounded contracts executor store terms drive round held
      (drive.step contracts executor store terms round) after := by
  have started : JobHeld store executor.jobId drive.files
      (if round.restarts then JobProgress.fresh else drive.progress) held := by
    split
    · exact holds.restart
    · exact holds
  unfold JobDrive.step
  generalize (if round.restarts then JobProgress.fresh else drive.progress) =
    progress at started
  simp only [JobExecutor.step, Program.perform_bind, Program.runOn_call,
    wonHandle_resolve]
  cases reads : round.readFails with
  | some message =>
      have failed : (round.choice terms drive.account).resolved =
          .error message := by
        simp only [JobRound.choice, reads]
      rw [failed]
      have unread (none : round.readFails = none) : False :=
        Option.some_ne_none message (reads.symm.trans none)
      refine ⟨held, started, Or.inl rfl, Or.inl ?_,
        fun none => (unread none).elim, fun none => (unread none).elim⟩
      exact round.land_nil _
  | none =>
      have read : (round.choice terms drive.account).resolved =
          .ok (drive.account.resolved terms round) := by
        simp only [JobRound.choice, reads]
      rw [read]
      obtain ⟨after, stepped⟩ := stepResolved_won executor store
        (drive.account.resolved terms round)
        (round.choice terms drive.account) ⟨drive.files, []⟩ mine started known
        sound.mints sound.outputs
      simp only
      generalize ((executor.withStore store).stepResolved
        (drive.account.resolved terms round) progress).runOn
          (wonHandle (round.choice terms drive.account)) ⟨drive.files, []⟩ =
        result at stepped
      obtain ⟨⟨outcome, reached⟩, machine⟩ := result
      obtain ⟨holdsAfter, keeps, handed, hands, infers⟩ := stepped
      have lifted (whole : round.environment.StoreSound) :
          (round.choice terms drive.account).StoreSound :=
        ⟨whole.load, whole.mint, whole.artifacts, whole.save⟩
      refine ⟨after, holdsAfter, keeps, ?_, ?_, ?_⟩
      · rcases handed with nothing | request
        · left
          simp only [nothing]
          exact round.land_nil _
        · right
          simp only [request]
          rfl
      · intro _ whole other
        simp only [hands (lifted whole) other]
        rfl
      · intro _ whole action ready
        exact infers (lifted whole) action ready

/-- The tier a job of this kind is settled under. -/
structure Settleable (job : Job) (executor : JobExecutor) : Prop where
  mine : job.assignedProvider = executor.me
  id : job.id < 2 ^ 128
  tier : job.tier = .commitment
  price : job.maxPriceWei ≤ COMMITMENT_TIER_VALUE_THRESHOLD_WEI

/-- The calldata of the four writes that settle a job, in order. -/
def settlingWrites (job : Job) (output : Bytes) (nonce : Word) : List Bytes :=
  let art := CommitmentProver.build output nonce
  [encodeStartExecution job.id,
    encodeSubmitCommitment job.id art.commitment,
    encodeSubmitResult job.id art.outputHash.toList art.proof,
    encodeCompleteJob job.id]

/-- How far the job has come: what the contracts hold, what they accepted, and
what the executor holds.  The rank counts the steps that are left. -/
inductive OnCourse (job : Job) (executor : JobExecutor) (store : NonceStore) :
    Nat → JobDrive → Prop
  | assigned {drive : JobDrive}
      (account : drive.account = ⟨{ job with state := .assigned }, none, 0, []⟩)
      (holds : JobHeld store executor.jobId drive.files drive.progress none) :
      OnCourse job executor store 5 drive
  | executing {drive : JobDrive}
      (account : drive.account =
        ⟨{ job with state := .executing }, none, 0,
          [encodeStartExecution job.id]⟩)
      (holds : JobHeld store executor.jobId drive.files drive.progress none) :
      OnCourse job executor store 4 drive
  | inferred {drive : JobDrive} {output : Bytes} {nonce : Word}
      (account : drive.account =
        ⟨{ job with state := .executing }, none, 0,
          (settlingWrites job output nonce).take 1⟩)
      (holds : JobHeld store executor.jobId drive.files drive.progress
        (some (output, nonce))) :
      OnCourse job executor store 3 drive
  | committed {drive : JobDrive} {output : Bytes} {nonce : Word} {block : Nat}
      (account : drive.account =
        ⟨{ job with state := .executing },
          some (CommitmentProver.commitment output nonce, block), 0,
          (settlingWrites job output nonce).take 2⟩)
      (holds : JobHeld store executor.jobId drive.files drive.progress
        (some (output, nonce))) :
      OnCourse job executor store 2 drive
  | verifying {drive : JobDrive} {output : Bytes} {nonce : Word}
      {block verifiedAt : Nat} (verified : verifiedAt ≠ 0)
      (account : drive.account =
        ⟨{ job with state := .verifying },
          some (CommitmentProver.commitment output nonce, block), verifiedAt,
          (settlingWrites job output nonce).take 3⟩)
      (holds : JobHeld store executor.jobId drive.files drive.progress
        (some (output, nonce))) :
      OnCourse job executor store 1 drive
  | completed {drive : JobDrive} {output : Bytes} {nonce : Word}
      {block verifiedAt : Nat}
      (account : drive.account =
        ⟨{ job with state := .completed },
          some (CommitmentProver.commitment output nonce, block), verifiedAt,
          settlingWrites job output nonce⟩)
      (holds : JobHeld store executor.jobId drive.files drive.progress
        (some (output, nonce))) :
      OnCourse job executor store 0 drive

theorem onChainVerify_build (output : Bytes) (nonce : Word) :
    onChainVerify (CommitmentProver.commitment output nonce)
      (CommitmentProver.build output nonce).proof = true := by
  have long : ¬(CommitmentProver.build output nonce).proof.length < 64 := by
    rw [CommitmentProver.build_proof_length]
    omega
  have opened : (CommitmentProver.build output nonce).proof.take 32 =
      (CommitmentProver.commitment output nonce).toList := by
    simp [CommitmentProver.build, CommitmentProver.proofData]
  rw [onChainVerify, if_neg long, opened, if_neg (not_not.mpr rfl),
    CommitmentProver.build_proof_drop, CommitmentProver.build_proof_nonce]
  exact decide_eq_true rfl

/-- A round in which the planner signs: the write is mined, or nothing
happens. -/
theorem Rounded.signs {next : JobDrive} {after : Option (Bytes × Word)}
    (rounded : Rounded contracts executor store terms drive round held next
      after)
    {request : SignatureRequest}
    (action : drive.action executor terms round held = .sign request) :
    JobHeld store executor.jobId next.files next.progress held ∧
      (next.account = drive.account ∨
        ∃ delay, round.minedAfter = some delay ∧
          next.account =
            contracts.mine (round.head + delay) drive.account request) ∧
      (round.readFails = none → round.environment.StoreSound →
        ∀ delay, round.minedAfter = some delay →
          next.account =
            contracts.mine (round.head + delay) drive.account request) := by
  obtain ⟨holds, keeps, account, lands, -⟩ := rounded
  rw [action] at keeps account lands
  have same : after = held := by
    rcases keeps with same | ⟨infers, -⟩
    · exact same
    · cases infers
  refine ⟨same ▸ holds, ?_, ?_⟩
  · rcases account with still | landed
    · exact Or.inl still
    · cases mined : round.minedAfter with
      | none =>
          simp only [JobRound.land, mined] at landed
          exact Or.inl landed
      | some delay =>
          simp only [JobRound.land, mined] at landed
          exact Or.inr ⟨delay, rfl, landed⟩
  · intro reads whole delay mined
    have landed := lands reads whole nofun
    simp only [JobRound.land, mined] at landed
    exact landed

theorem Rounded.rests {next : JobDrive} {after : Option (Bytes × Word)}
    (rounded : Rounded contracts executor store terms drive round held next
      after)
    (infers : drive.action executor terms round held ≠ .runInference)
    (nothing : handedBy (drive.action executor terms round held) = []) :
    JobHeld store executor.jobId next.files next.progress held ∧
      next.account = drive.account := by
  obtain ⟨holds, keeps, account, -, -⟩ := rounded
  have same : after = held := by
    rcases keeps with same | ⟨action, -⟩
    · exact same
    · exact absurd action infers
  rw [nothing, round.land_nil, or_self] at account
  exact ⟨same ▸ holds, account⟩

/-- An accepted write takes effect and is recorded. -/
theorem mine_accepts (pinned : SelectorsPinned) {account next : JobAccount}
    {block : Nat} {request : SignatureRequest} (write : Write)
    (calldata : request.calldata = write.calldata)
    (effect : contracts.effect account block write = some next) :
    contracts.mine block account request =
      { next with accepted := next.accepted ++ [request.calldata] } := by
  simp only [JobContracts.mine, calldata, Write.ofCalldata_calldata pinned,
    Option.bind_some, effect]

theorem mine_reverts (pinned : SelectorsPinned) {account : JobAccount}
    {block : Nat} {request : SignatureRequest} (write : Write)
    (calldata : request.calldata = write.calldata)
    (effect : contracts.effect account block write = none) :
    contracts.mine block account request = account := by
  simp only [JobContracts.mine, calldata, Write.ofCalldata_calldata pinned,
    Option.bind_some, effect]

variable {job : Job}

/-- What the planner's gates see of a settleable job. -/
structure Gated (job : Job) (state : JobState) (drive : JobDrive)
    (round : JobRound) (input : PlanInput) : Prop where
  tier : effectiveTier input = .commitment
  mine : ¬input.me ≠ input.job.assignedProvider
  state : input.job.state = state
  id : input.job.id = job.id
  head : input.currentBlock = round.head
  deadline : input.job.executionDeadlineBlock =
    drive.account.record.executionDeadlineBlock

theorem gated_input (terms : ModelTerms) (round : JobRound)
    (held : Option (Bytes × Word)) (settleable : Settleable job executor)
    {state : JobState}
    (record : drive.account.record = { job with state := state }) :
    Gated job state drive round (drive.input executor terms round held) := by
  have cheap : ¬job.maxPriceWei > COMMITMENT_TIER_VALUE_THRESHOLD_WEI :=
    not_lt.mpr settleable.price
  have same : (drive.input executor terms round held).job =
      { job with state := state } := record
  have gate : (drive.input executor terms round held).gates.effectiveTier =
      if round.tierRead then some .commitment else none := rfl
  constructor
  · rw [effectiveTier, gate]
    cases round.tierRead with
    | true => rfl
    | false => simp [same, settleable.tier, cheap]
  · rw [same]
    exact not_not.mpr settleable.mine.symm
  · rw [same]
  · rw [same]
  · rfl
  · rfl

theorem action_assigned (terms : ModelTerms) (round : JobRound)
    (held : Option (Bytes × Word)) (settleable : Settleable job executor)
    (record : drive.account.record = { job with state := .assigned }) :
    ∃ request, drive.action executor terms round held = .sign request ∧
      request.calldata = encodeStartExecution job.id := by
  have gated := gated_input terms round held settleable record
  rw [JobDrive.action]
  generalize drive.input executor terms round held = input at gated
  refine ⟨requestFor .startExecution (encodeStartExecution input.job.id) input,
    ?_, congrArg encodeStartExecution gated.id⟩
  rw [plan, if_neg fun unsupported => unsupported.2 gated.tier]
  simp only [gated.state]
  exact if_neg gated.mine

theorem action_infers (terms : ModelTerms) (round : JobRound)
    (settleable : Settleable job executor)
    (record : drive.account.record = { job with state := .executing }) :
    drive.action executor terms round none = .runInference := by
  have gated := gated_input terms round none settleable record
  have nothing : (drive.input executor terms round none).artifacts = none := rfl
  rw [JobDrive.action]
  generalize drive.input executor terms round none = input at gated nothing
  rw [plan, if_neg fun unsupported => unsupported.2 gated.tier]
  simp only [gated.state, nothing]
  exact if_neg gated.mine

theorem action_commits (terms : ModelTerms) (round : JobRound)
    (settleable : Settleable job executor)
    (record : drive.account.record = { job with state := .executing })
    (uncommitted : drive.account.commitment = none) (output : Bytes)
    (nonce : Word) :
    ∃ request,
      drive.action executor terms round (some (output, nonce)) =
          .sign request ∧
        request.calldata = encodeSubmitCommitment job.id
          (CommitmentProver.commitment output nonce) := by
  have gated := gated_input terms round (some (output, nonce)) settleable record
  have known : (drive.input executor terms round
      (some (output, nonce))).artifacts =
        some (CommitmentProver.build output nonce) := rfl
  have unset : (drive.input executor terms round
      (some (output, nonce))).committed = false := by
    simp [JobDrive.input, resolvedInput, planInput, uncommitted]
  rw [JobDrive.action]
  generalize drive.input executor terms round (some (output, nonce)) = input
    at gated known unset
  refine ⟨requestFor .submitCommitment (encodeSubmitCommitment input.job.id
    (CommitmentProver.build output nonce).commitment) input, ?_, ?_⟩
  · rw [plan, if_neg fun unsupported => unsupported.2 gated.tier]
    simp only [gated.state, known, unset, Bool.not_false, if_true]
    exact if_neg gated.mine
  · exact congrArg (fun id => encodeSubmitCommitment id
      (CommitmentProver.commitment output nonce)) gated.id

/-- After the commitment the planner reveals, or rests. -/
theorem action_reveals (terms : ModelTerms) (round : JobRound)
    (settleable : Settleable job executor)
    (record : drive.account.record = { job with state := .executing })
    (output : Bytes) (nonce : Word) {block : Nat} {stored : Word}
    (committed : drive.account.commitment = some (stored, block)) :
    (∃ request,
      drive.action executor terms round (some (output, nonce)) =
          .sign request ∧
        request.calldata = encodeSubmitResult job.id
          (CommitmentProver.build output nonce).outputHash.toList
          (CommitmentProver.build output nonce).proof) ∨
      ¬(block < round.head ∧
        round.head ≤ drive.account.record.executionDeadlineBlock) ∧
        drive.action executor terms round (some (output, nonce)) ≠
          .runInference ∧
        handedBy
          (drive.action executor terms round (some (output, nonce))) = [] := by
  have gated := gated_input terms round (some (output, nonce)) settleable record
  have known : (drive.input executor terms round
      (some (output, nonce))).artifacts =
        some (CommitmentProver.build output nonce) := rfl
  have set : (drive.input executor terms round
      (some (output, nonce))).committed = true := by
    simp [JobDrive.input, resolvedInput, planInput, committed]
  have landed : (drive.input executor terms round
      (some (output, nonce))).gates.commitmentBlock = block := by
    simp [JobDrive.input, resolvedInput, planInput, JobExecutor.context,
      JobAccount.resolved, committed]
  rw [JobDrive.action]
  generalize drive.input executor terms round (some (output, nonce)) = input
    at gated known set landed
  rw [plan, if_neg fun unsupported => unsupported.2 gated.tier]
  simp only [gated.state, known, set, Bool.not_true, Bool.false_eq_true,
    if_false, landed, gated.head, gated.deadline]
  rw [if_neg gated.mine]
  by_cases late : round.head > drive.account.record.executionDeadlineBlock
  · rw [if_pos late]
    exact Or.inr ⟨fun inTime => by omega, (by intro same; cases same), rfl⟩
  · rw [if_neg late]
    by_cases early : block ≠ 0 ∧ round.head ≤ block
    · rw [if_pos early]
      exact Or.inr ⟨fun inTime => by omega, (by intro same; cases same), rfl⟩
    · rw [if_neg early]
      exact Or.inl ⟨_, rfl, congrArg (fun id => encodeSubmitResult id
        (CommitmentProver.build output nonce).outputHash.toList
        (CommitmentProver.build output nonce).proof) gated.id⟩

/-- A verified job is paid out after its window; before that the planner
rests. -/
theorem action_completes (terms : ModelTerms) (round : JobRound)
    (held : Option (Bytes × Word)) (settleable : Settleable job executor)
    (record : drive.account.record = { job with state := .verifying })
    (verified : drive.account.verifiedAt ≠ 0) :
    (∃ request, drive.action executor terms round held = .sign request ∧
      request.calldata = encodeCompleteJob job.id) ∨
      ¬drive.account.verifiedAt + DISPUTE_WINDOW_BLOCKS ≤ round.head ∧
        drive.action executor terms round held ≠ .runInference ∧
        handedBy (drive.action executor terms round held) = [] := by
  have gated := gated_input terms round held settleable record
  have read : (drive.input executor terms round held).gates.resultVerifiedAt =
      drive.account.verifiedAt := rfl
  have undisputed : (drive.input executor terms round
      held).gates.disputeResolvedForProvider = false := rfl
  rw [JobDrive.action]
  generalize drive.input executor terms round held = input
    at gated read undisputed
  by_cases window : drive.account.verifiedAt + DISPUTE_WINDOW_BLOCKS ≤
      round.head
  · left
    refine ⟨_, plan_completes gated.state gated.tier (not_not.mp gated.mine)
      (Or.inr ?_), congrArg encodeCompleteJob gated.id⟩
    rw [read, gated.head]
    exact ⟨verified, window⟩
  · rw [plan, if_neg fun unsupported => unsupported.2 gated.tier]
    simp only [gated.state, undisputed, Bool.false_eq_true, if_false, read,
      verified, gated.head]
    rw [if_neg gated.mine]
    -- the sum may saturate, which only ends the window earlier
    by_cases waits : round.head < FixedWidth.saturatingAdd 128
        drive.account.verifiedAt DISPUTE_WINDOW_BLOCKS
    · rw [if_pos waits]
      exact Or.inr ⟨window, (by intro same; cases same), rfl⟩
    · rw [if_neg waits]
      exact Or.inl ⟨_, rfl, congrArg encodeCompleteJob gated.id⟩

/-- The rank after a round. -/
def Advances (contracts : JobContracts) (job : Job) (executor : JobExecutor)
    (store : NonceStore) (terms : ModelTerms) (rank : Nat) (drive : JobDrive)
    (round : JobRound) : Prop :=
  ∃ next ≤ rank,
    OnCourse job executor store next
        (drive.step contracts executor store terms round) ∧
      (drive.Counts executor store terms round → next ≤ rank - 1)

theorem advances_assigned (pinned : SelectorsPinned)
    (settleable : Settleable job executor)
    (account : drive.account = ⟨{ job with state := .assigned }, none, 0, []⟩)
    (holds : JobHeld store executor.jobId drive.files drive.progress none)
    (sound : round.Sound) :
    Advances contracts job executor store terms 5 drive round := by
  have record : drive.account.record = { job with state := .assigned } := by
    rw [account]
  obtain ⟨after, rounded⟩ := drive_rounded contracts terms
    (record ▸ settleable.mine) holds (by simp [account]) sound
  obtain ⟨request, action, calldata⟩ := action_assigned terms round none
    settleable record
  obtain ⟨holdsNext, either, lands⟩ := rounded.signs action
  have mined (delay : Nat) :
      contracts.mine (round.head + delay) drive.account request =
        ⟨{ job with state := .executing }, none, 0,
          [encodeStartExecution job.id]⟩ := by
    rw [mine_accepts pinned (.startExecution ⟨job.id, settleable.id⟩) calldata
      (by rw [account]; exact contracts.starts _ _ _ rfl rfl), calldata]
    rfl
  by_cases landed : (drive.step contracts executor store terms round).account =
      ⟨{ job with state := .executing }, none, 0,
        [encodeStartExecution job.id]⟩
  · exact ⟨4, by omega, .executing landed holdsNext, fun _ => by omega⟩
  · refine ⟨5, by omega, .assigned ?_ holdsNext, ?_⟩
    · rcases either with still | ⟨delay, -, now⟩
      · exact still.trans account
      · exact absurd (now.trans (mined delay)) landed
    · intro counts
      obtain ⟨reads, whole, counts⟩ := counts
      simp only [account] at counts
      obtain ⟨delay, after⟩ := counts
      exact absurd ((lands reads whole delay after).trans (mined delay)) landed

theorem advances_executing (settleable : Settleable job executor)
    (account : drive.account =
      ⟨{ job with state := .executing }, none, 0,
        [encodeStartExecution job.id]⟩)
    (holds : JobHeld store executor.jobId drive.files drive.progress none)
    (sound : round.Sound) :
    Advances contracts job executor store terms 4 drive round := by
  have record : drive.account.record = { job with state := .executing } := by
    rw [account]
  obtain ⟨after, rounded⟩ := drive_rounded contracts terms
    (record ▸ settleable.mine) holds (by simp [account]) sound
  have action := action_infers terms round settleable
    record
  have still : (drive.step contracts executor store terms round).account =
      drive.account := by
    have either := rounded.account
    rw [action] at either
    rcases either with same | landed
    · exact same
    · exact landed.trans (round.land_nil _)
  cases after with
  | some pair =>
      exact ⟨3, by omega, .inferred (still.trans account) rounded.holds,
        fun _ => by omega⟩
  | none =>
      refine ⟨4, le_refl _, .executing (still.trans account) rounded.holds, ?_⟩
      intro counts
      obtain ⟨reads, whole, counts⟩ := counts
      have absent : drive.files (store.artifactsPath executor.jobId) =
          none := by
        cases holds with
        | fresh nonce file memory => exact file
      simp only [account, absent, if_true] at counts
      have infers := rounded.infers reads whole action (account ▸ counts)
      cases infers

theorem advances_inferred (pinned : SelectorsPinned)
    (settleable : Settleable job executor) {output : Bytes} {nonce : Word}
    (account : drive.account =
      ⟨{ job with state := .executing }, none, 0,
        (settlingWrites job output nonce).take 1⟩)
    (holds : JobHeld store executor.jobId drive.files drive.progress
      (some (output, nonce)))
    (sound : round.Sound) :
    Advances contracts job executor store terms 3 drive round := by
  have record : drive.account.record = { job with state := .executing } := by
    rw [account]
  have uncommitted : drive.account.commitment = none := by rw [account]
  obtain ⟨after, rounded⟩ := drive_rounded contracts terms
    (record ▸ settleable.mine) holds (by simp [account]) sound
  obtain ⟨request, action, calldata⟩ := action_commits terms round
    settleable record uncommitted output nonce
  obtain ⟨holdsNext, either, lands⟩ := rounded.signs action
  have mined (delay : Nat) :
      contracts.mine (round.head + delay) drive.account request =
        ⟨{ job with state := .executing },
          some (CommitmentProver.commitment output nonce, round.head + delay),
          0, (settlingWrites job output nonce).take 2⟩ := by
    rw [mine_accepts pinned (.submitCommitment ⟨job.id, settleable.id⟩
        (CommitmentProver.commitment output nonce)) calldata
      (by rw [account]; exact contracts.commits _ _ _ _ rfl (Or.inr rfl) rfl),
      calldata]
    rfl
  have counted (counts : drive.Counts executor store terms round) :
      ∃ delay, (drive.step contracts executor store terms round).account =
        contracts.mine (round.head + delay) drive.account request := by
    obtain ⟨reads, whole, counts⟩ := counts
    have present : drive.files (store.artifactsPath executor.jobId) ≠
        none := by
      cases holds with
      | inferred persisted file fits memory => simp [file]
    simp only [account, present, if_false] at counts
    obtain ⟨delay, after⟩ := counts
    exact ⟨delay, lands reads whole delay after⟩
  rcases either with still | ⟨delay, -, now⟩
  · by_cases counts : drive.Counts executor store terms round
    · obtain ⟨delay, now⟩ := counted counts
      exact ⟨2, by omega, .committed (now.trans (mined delay)) holdsNext,
        fun _ => le_refl _⟩
    · exact ⟨3, le_refl _, .inferred (still.trans account) holdsNext,
        fun here => absurd here counts⟩
  · exact ⟨2, by omega, .committed (now.trans (mined delay)) holdsNext,
      fun _ => le_refl _⟩

/-- The reveal as the contracts decode it. -/
theorem reveal_calldata (settleable : Settleable job executor)
    {output : Bytes} (nonce : Word)
    (fits : 64 + output.length ≤ MAX_ARTIFACTS_BYTES) :
    ∃ write : Write,
      write.calldata = encodeSubmitResult job.id
        (CommitmentProver.build output nonce).outputHash.toList
        (CommitmentProver.build output nonce).proof ∧
      ∃ outputHash proof, write = .submitResult ⟨job.id, settleable.id⟩
          outputHash proof ∧
        proof.val = (CommitmentProver.build output nonce).proof := by
  have hashFits : (CommitmentProver.build output
      nonce).outputHash.toList.length < 2 ^ 64 := by
    rw [List.Vector.toList_length]
    omega
  have proofFits : (CommitmentProver.build output nonce).proof.length <
      2 ^ 64 := by
    rw [CommitmentProver.build_proof_length]
    simp only [MAX_ARTIFACTS_BYTES] at fits
    omega
  exact ⟨.submitResult ⟨job.id, settleable.id⟩ ⟨_, hashFits⟩ ⟨_, proofFits⟩,
    rfl, _, _, rfl, rfl⟩

theorem advances_committed (pinned : SelectorsPinned)
    (settleable : Settleable job executor) {output : Bytes} {nonce : Word}
    {block : Nat}
    (account : drive.account =
      ⟨{ job with state := .executing },
        some (CommitmentProver.commitment output nonce, block), 0,
        (settlingWrites job output nonce).take 2⟩)
    (holds : JobHeld store executor.jobId drive.files drive.progress
      (some (output, nonce)))
    (sound : round.Sound) :
    Advances contracts job executor store terms 2 drive round := by
  have record : drive.account.record = { job with state := .executing } := by
    rw [account]
  have committed : drive.account.commitment =
      some (CommitmentProver.commitment output nonce, block) := by rw [account]
  have deadline : drive.account.record.executionDeadlineBlock =
      job.executionDeadlineBlock := by rw [account]
  have fits : 64 + output.length ≤ MAX_ARTIFACTS_BYTES := by
    cases holds with
    | inferred persisted file fits memory => exact fits
  obtain ⟨after, rounded⟩ := drive_rounded contracts terms
    (record ▸ settleable.mine) holds (by simp) sound
  have stays {next : JobDrive} (same : next.account = drive.account)
      (holds : JobHeld store executor.jobId next.files next.progress
        (some (output, nonce))) : OnCourse job executor store 2 next :=
    .committed (same.trans account) holds
  rcases action_reveals terms round settleable record output nonce
    committed with
      ⟨request, action, calldata⟩ | ⟨early, other, nothing⟩
  · obtain ⟨holdsNext, either, lands⟩ := rounded.signs action
    obtain ⟨write, decoded, outputHash, proof, rfl, opened⟩ :=
      reveal_calldata settleable nonce fits
    have verifies : onChainVerify (CommitmentProver.commitment output nonce)
        proof.val = true := opened ▸ onChainVerify_build output nonce
    have mined (delay : Nat) (inTime : block < round.head + delay ∧
        round.head + delay ≤ job.executionDeadlineBlock) :
        contracts.mine (round.head + delay) drive.account request =
          ⟨{ job with state := .verifying },
            some (CommitmentProver.commitment output nonce, block),
            round.head + delay, (settlingWrites job output nonce).take 3⟩ := by
      rw [mine_accepts pinned _ (calldata.trans decoded.symm) (by
        rw [account]
        exact contracts.reveals _ _ _ _ _ _ _ rfl rfl settleable.tier
          settleable.price rfl inTime.1 inTime.2 verifies), calldata]
      rfl
    have reverts (delay : Nat) (late : ¬(block < round.head + delay ∧
        round.head + delay ≤ job.executionDeadlineBlock)) :
        contracts.mine (round.head + delay) drive.account request =
          drive.account := by
      apply mine_reverts pinned _ (calldata.trans decoded.symm)
      rw [account]
      exact contracts.revealsInTime _ _ _ _ _ _ _ rfl late
    have verified {delay : Nat} (later : block < round.head + delay) :
        round.head + delay ≠ 0 := by omega
    by_cases counts : drive.Counts executor store terms round
    · obtain ⟨reads, whole, counts⟩ := counts
      simp only [account] at counts
      obtain ⟨later, delay, after, inTime⟩ := counts
      have here : block < round.head + delay ∧
          round.head + delay ≤ job.executionDeadlineBlock :=
        ⟨by omega, inTime⟩
      have now := (lands reads whole delay after).trans (mined delay here)
      exact ⟨1, by omega, .verifying (verified here.1) now holdsNext,
        fun _ => le_refl _⟩
    · rcases either with still | ⟨delay, -, now⟩
      · exact ⟨2, le_refl _, stays still holdsNext,
          fun here => absurd here counts⟩
      · by_cases inTime : block < round.head + delay ∧
            round.head + delay ≤ job.executionDeadlineBlock
        · exact ⟨1, by omega, .verifying (verified inTime.1)
            (now.trans (mined delay inTime)) holdsNext, fun _ => le_refl _⟩
        · exact ⟨2, le_refl _, stays (now.trans (reverts delay inTime))
            holdsNext, fun here => absurd here counts⟩
  · obtain ⟨holdsNext, still⟩ := rounded.rests other nothing
    refine ⟨2, le_refl _, stays still holdsNext, ?_⟩
    intro counts
    obtain ⟨-, -, counts⟩ := counts
    simp only [account] at counts
    obtain ⟨later, delay, -, inTime⟩ := counts
    rw [deadline] at early
    exact absurd ⟨later, by omega⟩ early

theorem advances_verifying (pinned : SelectorsPinned)
    (settleable : Settleable job executor) {output : Bytes} {nonce : Word}
    {block verifiedAt : Nat} (verified : verifiedAt ≠ 0)
    (account : drive.account =
      ⟨{ job with state := .verifying },
        some (CommitmentProver.commitment output nonce, block), verifiedAt,
        (settlingWrites job output nonce).take 3⟩)
    (holds : JobHeld store executor.jobId drive.files drive.progress
      (some (output, nonce)))
    (sound : round.Sound) :
    Advances contracts job executor store terms 1 drive round := by
  have record : drive.account.record = { job with state := .verifying } := by
    rw [account]
  have verifiedHere : drive.account.verifiedAt = verifiedAt := by rw [account]
  obtain ⟨after, rounded⟩ := drive_rounded contracts terms
    (record ▸ settleable.mine) holds (by simp) sound
  have stays {next : JobDrive} (same : next.account = drive.account)
      (holds : JobHeld store executor.jobId next.files next.progress
        (some (output, nonce))) : OnCourse job executor store 1 next :=
    .verifying verified (same.trans account) holds
  rcases action_completes terms round (some (output, nonce)) settleable record
    (verifiedHere ▸ verified) with
      ⟨request, action, calldata⟩ | ⟨early, other, nothing⟩
  · obtain ⟨holdsNext, either, lands⟩ := rounded.signs action
    have mined (delay : Nat)
        (elapsed : verifiedAt + DISPUTE_WINDOW_BLOCKS ≤ round.head + delay) :
        contracts.mine (round.head + delay) drive.account request =
          ⟨{ job with state := .completed },
            some (CommitmentProver.commitment output nonce, block), verifiedAt,
            settlingWrites job output nonce⟩ := by
      rw [mine_accepts pinned (.completeJob ⟨job.id, settleable.id⟩) calldata
        (by
          rw [account]
          exact contracts.completes _ _ _ rfl rfl verified elapsed), calldata]
      rfl
    have reverts (delay : Nat)
        (early : ¬verifiedAt + DISPUTE_WINDOW_BLOCKS ≤ round.head + delay) :
        contracts.mine (round.head + delay) drive.account request =
          drive.account := by
      apply mine_reverts pinned (.completeJob ⟨job.id, settleable.id⟩) calldata
      rw [account]
      exact contracts.completesAfterWindow _ _ _ early
    by_cases counts : drive.Counts executor store terms round
    · obtain ⟨reads, whole, counts⟩ := counts
      simp only [account] at counts
      obtain ⟨elapsed, delay, after⟩ := counts
      have now := (lands reads whole delay after).trans
        (mined delay (by omega))
      exact ⟨0, by omega, .completed now holdsNext, fun _ => le_refl _⟩
    · rcases either with still | ⟨delay, -, now⟩
      · exact ⟨1, le_refl _, stays still holdsNext,
          fun here => absurd here counts⟩
      · by_cases elapsed : verifiedAt + DISPUTE_WINDOW_BLOCKS ≤
            round.head + delay
        · exact ⟨0, by omega,
            .completed (now.trans (mined delay elapsed)) holdsNext,
            fun _ => le_refl _⟩
        · exact ⟨1, le_refl _, stays (now.trans (reverts delay elapsed))
            holdsNext, fun here => absurd here counts⟩
  · obtain ⟨holdsNext, still⟩ := rounded.rests other nothing
    refine ⟨1, le_refl _, stays still holdsNext, ?_⟩
    intro counts
    obtain ⟨-, -, counts⟩ := counts
    simp only [account] at counts
    rw [verifiedHere] at early
    exact absurd counts.1 early

theorem advances_completed (settleable : Settleable job executor)
    {output : Bytes} {nonce : Word} {block verifiedAt : Nat}
    (account : drive.account =
      ⟨{ job with state := .completed },
        some (CommitmentProver.commitment output nonce, block), verifiedAt,
        settlingWrites job output nonce⟩)
    (holds : JobHeld store executor.jobId drive.files drive.progress
      (some (output, nonce)))
    (sound : round.Sound) :
    Advances contracts job executor store terms 0 drive round := by
  have record : drive.account.record = { job with state := .completed } := by
    rw [account]
  obtain ⟨after, rounded⟩ := drive_rounded contracts terms
    (record ▸ settleable.mine) holds (by simp) sound
  have gated := gated_input terms round (some (output, nonce)) settleable record
  have done : drive.action executor terms round (some (output, nonce)) =
      .done := by
    rw [JobDrive.action, plan, if_neg fun unsupported => unsupported.2 gated.tier]
    simp only [gated.state]
  have rests : drive.action executor terms round (some (output, nonce)) ≠
      .runInference := by
    rw [done]
    intro same
    cases same
  obtain ⟨holdsNext, still⟩ := rounded.rests rests
    (by rw [done]; rfl)
  exact ⟨0, le_refl _, .completed (still.trans account) holdsNext,
    fun _ => le_refl _⟩

/-- No round loses ground, and a round that counts gains. -/
theorem onCourse_step (pinned : SelectorsPinned)
    (settleable : Settleable job executor) {rank : Nat}
    (course : OnCourse job executor store rank drive) (sound : round.Sound) :
    Advances contracts job executor store terms rank drive round := by
  cases course with
  | assigned account holds =>
      exact advances_assigned pinned settleable account holds sound
  | executing account holds =>
      exact advances_executing settleable account holds sound
  | inferred account holds =>
      exact advances_inferred pinned settleable account holds sound
  | committed account holds =>
      exact advances_committed pinned settleable account holds sound
  | verifying verified account holds =>
      exact advances_verifying pinned settleable verified account holds sound
  | completed account holds =>
      exact advances_completed settleable account holds sound

end Hashes

/-- What is documented is accepted; the rest reverts. -/
def JobAccount.effect [HashFunctions] (account : JobAccount) (block : Nat) :
    Write → Option JobAccount
  | .startExecution jobId =>
      if jobId.val = account.record.id ∧ account.record.state = .assigned then
        some (account.enter .executing)
      else none
  | .submitCommitment jobId commitment =>
      if jobId.val = account.record.id ∧
          (account.record.state = .assigned ∨
            account.record.state = .executing) ∧
          account.commitment = none then
        some { account with commitment := some (commitment, block) }
      else none
  | .submitResult jobId _ proof =>
      match account.commitment with
      | none => none
      | some (stored, committedAt) =>
          if jobId.val = account.record.id ∧
              account.record.state = .executing ∧
              (committedAt < block ∧
                block ≤ account.record.executionDeadlineBlock) ∧
              onChainVerify stored proof.val = true then
            some { account.enter .verifying with verifiedAt := block }
          else none
  | .completeJob jobId =>
      if jobId.val = account.record.id ∧ account.record.state = .verifying ∧
          account.verifiedAt ≠ 0 ∧
          account.verifiedAt + DISPUTE_WINDOW_BLOCKS ≤ block then
        some (account.enter .completed)
      else none
  | _ => none

def documentedContracts [HashFunctions] : JobContracts where
  effect := JobAccount.effect
  starts _ _ _ same state := if_pos ⟨same, state⟩
  commits _ _ _ _ same state unset := if_pos ⟨same, state, unset⟩
  reveals account block jobId outputHash proof stored committedAt same state _
      _ committed later inTime verifies := by
    simp only [JobAccount.effect, committed]
    exact if_pos ⟨same, state, ⟨later, inTime⟩, verifies⟩
  revealsInTime account block jobId outputHash proof stored committedAt
      committed late := by
    simp only [JobAccount.effect, committed]
    exact if_neg fun accepted => late accepted.2.2.1
  completes _ _ _ same state verified elapsed :=
    if_pos ⟨same, state, verified, elapsed⟩
  completesAfterWindow _ _ _ early := if_neg fun accepted => early accepted.2.2.2

def paidJob : Job := { sampleJob with state := .assigned }

def sampleTerms : ModelTerms where
  ipfsCid := sampleResolved.ipfsCid
  isActive := true
  expectedSize := none
  expectedSha256 := some (firstWord [])

/-- A round at this head in which nothing fails. -/
def sampleRound (head : Nat) (restarts : Bool) : JobRound where
  restarts := restarts
  readFails := none
  head := head
  tierRead := true
  environment := sampleChoice []
  minedAfter := some 0

def sampleRounds : List JobRound :=
  [{ sampleRound 199 false with readFails := some "connection refused" },
    sampleRound 200 false, sampleRound 201 false,
    { sampleRound 202 false with minedAfter := none }, sampleRound 203 false,
    sampleRound 204 true, sampleRound 304 false]

/-- The drive after some of these rounds. -/
def sampleDrive (count : Nat) : JobDrive :=
  Runs.run (@JobDrive.step writeHashes
    (@documentedContracts writeHashes) sampleExecutor sampleStore sampleTerms)
    ⟨.assigned paidJob, noFiles, .fresh⟩ (sampleRounds.take count)

theorem sampleRound_sound (head : Nat) (restarts : Bool) :
    (sampleRound head restarts).Sound where
  mints _ _ := nofun
  outputs := by
    rintro _ ⟨⟩
    decide

theorem sampleDrive_infers :
    @InputReady writeHashes sampleExecutor
      ((sampleDrive 2).account.resolved sampleTerms (sampleRound 201 false))
      ((sampleRound 201 false).choice sampleTerms (sampleDrive 2).account) := by
  have posted : (sampleDrive 2).account.record.inputHash =
      some (@keccak256Bytes writeHashes []) := by decide +kernel
  refine ⟨[], rfl, posted, @Infers.mk writeHashes _ _ (Nat.zero_le _)
    (by decide +kernel) ?_ ⟨[], rfl⟩⟩
  have provisioned : (@ExecutorChoice.provisioned writeHashes
      ((sampleRound 201 false).choice sampleTerms (sampleDrive 2).account)
      (sampleExecutor.context ((sampleDrive 2).account.resolved sampleTerms
        (sampleRound 201 false)) [])).isOk = true := by decide +kernel
  generalize @ExecutorChoice.provisioned writeHashes _ _ = result
    at provisioned
  cases result with
  | error error => cases provisioned
  | ok model => exact ⟨model, rfl⟩

theorem sampleRounds_count :
    Runs.Occurs
      (@JobDrive.step writeHashes
    (@documentedContracts writeHashes) sampleExecutor sampleStore sampleTerms)
      (@JobDrive.Counts writeHashes sampleExecutor sampleStore sampleTerms) 5
      ⟨.assigned paidJob, noFiles, .fresh⟩ sampleRounds := by
  have whole (head : Nat) (restarts : Bool) :
      (sampleRound head restarts).environment.StoreSound :=
    ⟨rfl, rfl, rfl, rfl⟩
  have lands (head : Nat) (restarts : Bool) :
      (sampleRound head restarts).Lands := ⟨0, rfl⟩
  have first : @JobDrive.Counts writeHashes sampleExecutor sampleStore
      sampleTerms (sampleDrive 1) (sampleRound 200 false) :=
    ⟨rfl, whole _ _, lands _ _⟩
  have second : @JobDrive.Counts writeHashes sampleExecutor sampleStore
      sampleTerms (sampleDrive 2) (sampleRound 201 false) := by
    have phase : (sampleDrive 2).account.record.state = .executing ∧
        (sampleDrive 2).account.commitment = none ∧
        (sampleDrive 2).files (sampleStore.artifactsPath
          sampleExecutor.jobId) = none := by
      decide +kernel
    refine ⟨rfl, whole _ _, ?_⟩
    rw [phase.1, phase.2.1]
    simp only [phase.2.2, if_true]
    exact sampleDrive_infers
  have third : @JobDrive.Counts writeHashes sampleExecutor sampleStore
      sampleTerms (sampleDrive 4) (sampleRound 203 false) := by
    have phase : (sampleDrive 4).account.record.state = .executing ∧
        (sampleDrive 4).account.commitment = none ∧
        (sampleDrive 4).files (sampleStore.artifactsPath
          sampleExecutor.jobId) ≠ none := by
      decide +kernel
    refine ⟨rfl, whole _ _, ?_⟩
    rw [phase.1, phase.2.1]
    simp only [phase.2.2, if_false]
    exact lands _ _
  have fourth : @JobDrive.Counts writeHashes sampleExecutor sampleStore
      sampleTerms (sampleDrive 5) (sampleRound 204 true) := by
    have phase : (sampleDrive 5).account.record.state = .executing ∧
        (sampleDrive 5).account.commitment.map Prod.snd = some 203 ∧
        204 ≤ (sampleDrive 5).account.record.executionDeadlineBlock := by
      decide +kernel
    obtain ⟨⟨stored, block⟩, committed, rfl⟩ :=
      Option.map_eq_some_iff.mp phase.2.1
    refine ⟨rfl, whole _ _, ?_⟩
    rw [phase.1, committed]
    exact ⟨by decide, 0, rfl, phase.2.2⟩
  have fifth : @JobDrive.Counts writeHashes sampleExecutor sampleStore
      sampleTerms (sampleDrive 6) (sampleRound 304 false) := by
    have phase : (sampleDrive 6).account.record.state = .verifying ∧
        (sampleDrive 6).account.verifiedAt = 204 := by
      decide +kernel
    refine ⟨rfl, whole _ _, ?_⟩
    rw [phase.1, phase.2]
    exact ⟨by decide, lands _ _⟩
  exact .later (.here first (.here second (.later (.here third (.here fourth
    (.here fifth .none))))))

end NodeAgent.Node
