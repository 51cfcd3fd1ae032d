import NodeAgent.Node.ExecutorPool
import NodeAgent.Node.Live

/-!
# Bidding on a job and running it

The daemon bids on what the market view shows of a job: the job record, with
nothing of its model.  The executor refuses a job for what the model registry
and the operator's options say about the model as well.
-/

namespace NodeAgent.Node

open Chainio Executor Interaction Lifecycle

/-- Reads that show this job record; the other answers are arbitrary. -/
def readsJob (job : Job) (_ : Unit) : (read : LiveRead) → LiveAnswer read → Prop
  | .getJob _ _, answer => ∀ record, answer = .ok record → record = job
  | .getProvider _ _, _ | .saltPerPflopHour _, _ | .isPriceStale _, _
  | .getModel _ _, _ | .blockNumber, _ | .estimate _, _
  | .commitmentSubmitted _ _, _ | .recordTier _ _, _ | .commitmentBlock _ _, _
  | .resultVerifiedAt _ _, _ | .disputeResolvedForProvider _ _, _ => True

/-- The market is refreshed by the live view of this job. -/
def refreshesJob (view : LiveMarketView) (job : Job) (_ : Unit) :
    (op : DaemonOp) → DaemonAnswer op → Prop
  | .refresh, answer =>
      Executes Eq (readsJob job) () view.refresh answer ()
  | .write _, _ | .acceptsNewBids, _ | .place _ _ _ _, _ => True

/-- A tick over the live view of this job places a bid. -/
def Bids (view : LiveMarketView) (settings : Bidder.Settings) (job : Job) :
    Prop :=
  ∃ jobId priceWei estimatedLatencyMs expiresBlock,
    IssuedAt Eq (refreshesJob view job)
      (.place jobId priceWei estimatedLatencyMs expiresBlock) () ()
      (tick settings)

theorem refresh_bidExpiresBlock {view : LiveMarketView} {job : Job}
    {snapshot : MarketSnapshot}
    (execution : Executes Eq (readsJob job) () view.refresh
      (.ok snapshot) ()) :
    ∃ currentBlock, snapshot.bidExpiresBlock = bidExpiresBlock job currentBlock := by
  unfold LiveMarketView.refresh at execution
  obtain ⟨profile, _, _, execution⟩ := executes_attempt execution
  obtain ⟨salt, _, _, execution⟩ := executes_attempt execution
  obtain ⟨stale, _, _, execution⟩ := executes_attempt execution
  obtain ⟨record, _, jobRead, execution⟩ := executes_attempt execution
  obtain ⟨currentBlock, _, _, execution⟩ := executes_attempt execution
  obtain ⟨estimate, _, _, execution⟩ := (executes_bind _ _).mp execution
  obtain ⟨same, -⟩ := executes_done.mp execution
  cases same
  obtain rfl := (executes_perform.mp jobRead).2 record rfl
  exact ⟨currentBlock, rfl⟩

theorem tickOn_place {settings : Bidder.Settings} {snapshot : MarketSnapshot}
    {jobId priceWei latencyMs expiresBlock : Nat}
    (issued : (tickOn settings snapshot).Issues
      (.place jobId priceWei latencyMs expiresBlock)) :
    snapshot.bidExpiresBlock.isSome := by
  rcases issued with same | ⟨_, issued⟩
  · cases same
  rcases issued with same | ⟨accepts, issued⟩
  · cases same
  cases accepts with
  | false => cases issued
  | true =>
      cases expires : snapshot.bidExpiresBlock with
      | some expiresBlock => rfl
      | none =>
          simp only [expires] at issued
          rcases issued with same | ⟨_, issued⟩
          · cases same
          · cases issued

theorem Bids.snapshot {view : LiveMarketView} {settings : Bidder.Settings}
    {job : Job} (bids : Bids view settings job) :
    ∃ snapshot, refreshesJob view job () .refresh (.ok snapshot) ∧
      snapshot.bidExpiresBlock.isSome := by
  obtain ⟨jobId, priceWei, latencyMs, expiresBlock, issued⟩ := bids
  cases issued with
  | later view moved refreshed rest =>
      cases view with
      | error error =>
          rcases rest.issues with same | ⟨_, issued⟩
          · cases same
          · cases issued
      | ok snapshot => exact ⟨snapshot, refreshed, tickOn_place rest.issues⟩

theorem bids_of_decision {view : LiveMarketView} {settings : Bidder.Settings}
    {job : Job} {snapshot : MarketSnapshot}
    {expiresBlock jobId priceWei costWei : Nat}
    (refreshed : refreshesJob view job () .refresh (.ok snapshot))
    (expires : snapshot.bidExpiresBlock = some expiresBlock)
    (decided : Bidder.evaluate snapshot.job snapshot.oracle settings
      snapshot.caps = .bid jobId priceWei costWei) :
    Bids view settings job := by
  refine ⟨jobId, priceWei, snapshot.job.estimatedExecSecs * 1000, expiresBlock,
    .later (.ok snapshot) rfl refreshed ?_⟩
  refine .later () rfl trivial ?_
  refine .later true rfl trivial ?_
  simp only [expires, decided]
  exact .here rfl

theorem Bids.bindable {view : LiveMarketView} {settings : Bidder.Settings}
    {job : Job} (bids : Bids view settings job) : job.inputHash.isSome := by
  obtain ⟨snapshot, refreshed, expires⟩ := bids.snapshot
  obtain ⟨currentBlock, same⟩ := refresh_bidExpiresBlock refreshed
  rw [same, bidExpiresBlock] at expires
  split at expires
  · rename_i openForBids
    exact openForBids.2.1
  · cases expires

section Hashes

variable [HashFunctions]

/-- The refusals that depend on the records and the operator's options alone.
A provisioning that is done without an operation has refused. -/
inductive Refused (weights resident : Option Word) (job : Job)
    (model : ModelInfo) : Prop
  | cid {message : String}
      (refuses : validateCid model.ipfsCid = .error message)
  | provision {cacheDir : Path} {error : ProvisionError}
      (refuses : provision job.modelHash model.ipfsCid model.isActive none
        weights cacheDir = .done (.error error))
  | resident {server : LlamaServerInference} {provisioned : ProvisionedModel}
      {input : Bytes} {expected got : Word}
      (declared : server.residentModelHash = resident)
      (sameModel : provisioned.modelHash = job.modelHash)
      (refuses : (server.run provisioned input).Returns
        (.error (.modelMismatch expected got)))
  | input (unbindable : job.inputHash = none)

end Hashes

/-- The registry has an active model under a CID that passes the gate, its
weights can be verified, and the resident server was not declared to hold
another model. -/
structure Eligible (weights resident : Option Word) (model : ModelInfo)
    (modelHash : Word) : Prop where
  active : model.isActive = true
  cid : validateCid model.ipfsCid = .ok ()
  verifiable : weights.isSome ∨ (cidEmbeddedSha256 model.ipfsCid).isSome
  resident : ∀ declared ∈ resident, declared = modelHash

theorem passed_of_ok {condition : Prop} [Decidable condition] {message : String}
    {rest : Except String Unit}
    (accepted : (if condition then .error message else rest) = .ok ()) :
    ¬condition ∧ rest = .ok () := by
  split at accepted
  · cases accepted
  · exact ⟨‹_›, accepted⟩

theorem validateCid_ok {cid : String} (accepted : validateCid cid = .ok ()) :
    Executor.validateCid cid = true ∧ cid.isEmpty = false := by
  obtain ⟨inRange, accepted⟩ := passed_of_ok accepted
  obtain ⟨-, accepted⟩ := passed_of_ok accepted
  obtain ⟨-, accepted⟩ := passed_of_ok accepted
  obtain ⟨grammar, -⟩ := passed_of_ok accepted
  refine ⟨by simpa using grammar, ?_⟩
  by_contra empty
  have same : cid = "" := String.isEmpty_iff.mp (by simpa using empty)
  subst same
  exact inRange (Or.inl (by decide))

theorem integrityCommitment_isSome {cid : String} {weights : Option Word} :
    (integrityCommitment cid weights).isSome ↔
      weights.isSome ∨ (cidEmbeddedSha256 cid).isSome := by
  cases weights <;> simp [integrityCommitment]

section Hashes

variable [HashFunctions] {weights resident : Option Word} {job : Job}
  {model : ModelInfo}

theorem Eligible.provision_asks
    (eligible : Eligible weights resident model job.modelHash)
    (cacheDir : Path) (error : ProvisionError) :
    provision job.modelHash model.ipfsCid model.isActive none weights
      cacheDir ≠ .done (.error error) := by
  obtain ⟨grammar, nonempty⟩ := validateCid_ok eligible.cid
  have committed := integrityCommitment_isSome.mpr eligible.verifiable
  obtain ⟨⟨digest, integrity⟩, known⟩ := Option.isSome_iff_exists.mp committed
  simp only [provision, eligible.active, nonempty, grammar, known]
  nofun

theorem Eligible.not_refused
    (eligible : Eligible weights resident model job.modelHash)
    (bindable : job.inputHash.isSome) :
    ¬Refused weights resident job model := by
  intro refused
  cases refused with
  | cid refuses =>
      rw [eligible.cid] at refuses
      cases refuses
  | provision refuses => exact eligible.provision_asks _ _ refuses
  | resident declared sameModel refuses =>
      obtain ⟨held, other, -⟩ :=
        (LlamaServerInference.run_mismatch_iff _ _ _ _ _).mp refuses
      apply other
      rw [sameModel]
      exact eligible.resident _ (declared ▸ held)
  | input unbindable =>
      rw [unbindable] at bindable
      cases bindable

/-- What is not refused is eligible. -/
theorem eligible_of_not_refused
    (accepted : ¬Refused weights resident job model) :
    Eligible weights resident model job.modelHash := by
  have cid : validateCid model.ipfsCid = .ok () := by
    cases checked : validateCid model.ipfsCid with
    | error message => exact absurd (.cid checked) accepted
    | ok _ => rfl
  obtain ⟨grammar, nonempty⟩ := validateCid_ok cid
  have provisions (error : ProvisionError) :
      provision job.modelHash model.ipfsCid model.isActive none weights [] ≠
        .done (.error error) :=
    fun refuses => accepted (.provision refuses)
  have active : model.isActive = true := by
    cases inactive : model.isActive with
    | true => rfl
    | false =>
        have asks := provisions .inactive
        simp [provision, inactive] at asks
  have verifiable : weights.isSome ∨ (cidEmbeddedSha256 model.ipfsCid).isSome := by
    rw [← integrityCommitment_isSome]
    cases unknown : integrityCommitment model.ipfsCid weights with
    | some commitment => rfl
    | none =>
        have asks := provisions (.unverifiable model.ipfsCid)
        simp [provision, active, nonempty, grammar, unknown] at asks
  refine ⟨active, cid, verifiable, ?_⟩
  intro declared held
  by_contra other
  let server : LlamaServerInference := ⟨"", some declared⟩
  let provisioned : ProvisionedModel :=
    ⟨job.modelHash, [], 0, .sha256Verified⟩
  have refuses : (server.run provisioned []).Returns
      (.error (.modelMismatch declared job.modelHash)) :=
    (LlamaServerInference.run_mismatch_iff _ _ _ _ _).mpr ⟨rfl, other, rfl⟩
  exact accepted (.resident held.symm rfl refuses)

end Hashes

def sampleMarketView : LiveMarketView where
  marketplace := sampleExecutor.marketplace
  oracle := List.Vector.replicate 20 0x66
  provider := sampleProvider
  jobId := 7
  secsPerBlock := 2

def alwaysOn : Bidder.Settings where
  enabled := true
  schedule := .always
  currentHour := 12
  currentMin := 0
  currentDay := .mon

def sampleProfile : ProviderProfile where
  isRegistered := true
  stakeWei := 10 ^ 21
  totalJobsCompleted := 12
  totalJobsFailed := 0
  reputationScoreBps := 9230
  currentActiveJobs := 0
  maxConcurrentJobs := 10

/-- Job 7, open for bids, on this model. -/
def openJob (modelHash : Word) : Job :=
  { sampleJob with
    modelHash := modelHash
    state := .bidding
    assignedProvider := List.Vector.replicate 20 0 }

/-- The snapshot at block 60, with an estimate of a minute's work. -/
def openSnapshot (modelHash : Word) : MarketSnapshot where
  caps := mapCaps sampleProfile
  reputationBps := 9230
  stakeWei := 10 ^ 21
  job := mapJob (openJob modelHash) 60 2 (10 ^ 16) 60
  oracle := { saltPerPflopHourWei := 10 ^ 18, stale := false }
  bidExpiresBlock := some 100

theorem openJob_refreshes (modelHash : Word) :
    refreshesJob sampleMarketView (openJob modelHash) () .refresh
      (.ok (openSnapshot modelHash)) := by
  refine executes_call.mpr ⟨(), .ok sampleProfile, rfl, trivial, ?_⟩
  refine executes_call.mpr ⟨(), .ok (10 ^ 18), rfl, trivial, ?_⟩
  refine executes_call.mpr ⟨(), .ok false, rfl, trivial, ?_⟩
  refine executes_call.mpr ⟨(), .ok (openJob modelHash), rfl,
    fun _ same => (Except.ok.inj same).symm, ?_⟩
  refine executes_call.mpr ⟨(), .ok 60, rfl, trivial, ?_⟩
  refine executes_call.mpr ⟨(), (10 ^ 16, 60), rfl, trivial, ?_⟩
  exact executes_done.mpr ⟨rfl, rfl⟩

theorem openJob_decision (modelHash : Word) :
    Bidder.evaluate (openSnapshot modelHash).job (openSnapshot modelHash).oracle
        alwaysOn (openSnapshot modelHash).caps =
      .bid 7 11500000000000000 (10 ^ 16) := by
  change Bidder.evaluate (openSnapshot sampleJob.modelHash).job
    (openSnapshot sampleJob.modelHash).oracle alwaysOn
    (openSnapshot sampleJob.modelHash).caps = _
  decide +kernel

theorem openJob_bids (modelHash : Word) :
    Bids sampleMarketView alwaysOn (openJob modelHash) :=
  bids_of_decision (openJob_refreshes modelHash) rfl (openJob_decision modelHash)

/-- The tick bids only on jobs that the executor does not refuse, exactly when
the model is eligible. -/
theorem bids_notRefused_iff [HashFunctions] (weights resident : Option Word)
    (model : ModelInfo) (modelHash : Word) :
    (∀ job, job.modelHash = modelHash → ∀ view settings,
      Bids view settings job → ¬Refused weights resident job model) ↔
      Eligible weights resident model modelHash := by
  constructor
  · intro accepts
    exact eligible_of_not_refused
      (accepts (openJob modelHash) rfl _ _ (openJob_bids modelHash))
  · rintro eligible job rfl view settings bids
    exact eligible.not_refused bids.bindable

/-- The sample job's model, deactivated by its owner. -/
def deactivatedModel : ModelInfo where
  owner := sampleProvider
  ipfsCid := sampleResolved.ipfsCid
  isActive := false

theorem bids_onDeactivatedModel :
    ¬∀ weights resident job model view settings, Bids view settings job →
      ¬@Refused sampleHashes weights resident job model := by
  intro accepts
  apply accepts none none (openJob sampleJob.modelHash) deactivatedModel
    sampleMarketView alwaysOn (openJob_bids _)
  exact @Refused.provision sampleHashes _ _ _ _ ["cache"] .inactive rfl

end NodeAgent.Node
