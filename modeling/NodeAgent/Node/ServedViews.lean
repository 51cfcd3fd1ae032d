import NodeAgent.Node.Eligibility
import NodeAgent.Node.Settlement
import NodeAgent.Node.Wire

/-!
# The views on a node that answers

Both live views, run against a node that answers what they ask at once.  A view
succeeds exactly when the agent's integers hold every value that it reads, and
what it returns is then a function of the ledger alone: in which chunks the
bodies come, under which ids and over how many exchanges makes no difference.
-/

namespace NodeAgent.Node

open Chainio Executor Interaction Lifecycle

/-- The answer is this value where it fits, and an error where it does not. -/
def Yielded {α : Type} (answer : Except String α) (value : α) (fits : Prop) :
    Prop :=
  ∀ read, answer = .ok read ↔ read = value ∧ fits

theorem Yielded.ok {α : Type} {answer : Except String α} {value : α}
    {fits : Prop} (yielded : Yielded answer value fits) (holds : fits) :
    answer = .ok value :=
  (yielded value).mpr ⟨rfl, holds⟩

theorem Yielded.error {α : Type} {answer : Except String α} {value : α}
    {fits : Prop} (yielded : Yielded answer value fits) (fails : ¬fits) :
    ∃ error, answer = .error error := by
  cases answer with
  | error error => exact ⟨error, rfl⟩
  | ok read => exact absurd ((yielded read).mp rfl).2 fails

/-- What the market view reads of a ledger. -/
structure MarketReads where
  profile : ProviderProfile
  price : Nat
  stale : Bool
  job : JobTuple
  head : UInt64

def LiveMarketView.reads (view : LiveMarketView) (jobId : U128)
    (ledger : Ledger) : MarketReads where
  profile := ledger.held view.marketplace (.getProvider view.provider)
  price := ledger.held view.oracle .saltPerPflopHour
  stale := ledger.held view.oracle .isPriceStale
  job := ledger.held view.marketplace (.getJob jobId)
  head := ledger.head

/-- The agent's integers hold what is read. -/
def MarketReads.Fits (reads : MarketReads) : Prop :=
  (∀ value ∈ reads.profile.integers, value < 2 ^ 128) ∧
    reads.price < 2 ^ 128 ∧ ∀ value ∈ reads.job.integers, value < 2 ^ 128

/-- The snapshot of a ledger. -/
def MarketReads.snapshot (reads : MarketReads) (secsPerBlock : Nat)
    (estimate : Word → Nat × Nat) : MarketSnapshot where
  caps := mapCaps reads.profile
  reputationBps := FixedWidth.narrow 32 reads.profile.reputationScoreBps
  stakeWei := reads.profile.stakeWei
  job :=
    mapJob reads.job.record reads.head.toNat secsPerBlock
      (estimate reads.job.modelHash).1 (estimate reads.job.modelHash).2
  oracle := { saltPerPflopHourWei := reads.price, stale := reads.stale }
  bidExpiresBlock := bidExpiresBlock reads.job.record reads.head.toNat

/-- What the market view asks of a node. -/
inductive LiveMarketView.Asks (view : LiveMarketView) (jobId : U128) :
    NodeRead → Prop
  | profile :
      Asks view jobId (.held view.marketplace (.getProvider view.provider))
  | price : Asks view jobId (.held view.oracle .saltPerPflopHour)
  | stale : Asks view jobId (.held view.oracle .isPriceStale)
  | job : Asks view jobId (.held view.marketplace (.getJob jobId))
  | head : Asks view jobId .head

/-- What the job view reads of a ledger: the record and the gates of the id
that the job itself carries. -/
structure JobReads where
  job : JobTuple
  model : ModelRegistry.ModelTuple
  head : UInt64
  committed : Bool
  recordTier : VerificationTier
  commitmentBlock : Nat
  resultVerifiedAt : Nat
  disputeResolved : Bool

def LiveJobView.reads (view : LiveJobView) (jobId own : U128)
    (ledger : Ledger) : JobReads where
  job := ledger.held view.marketplace (.getJob jobId)
  model := ledger.held view.modelRegistry (.getModel (JobTuple.modelHash
    (ledger.held view.marketplace (.getJob jobId))))
  head := ledger.head
  committed := VerificationRecord.commitmentSubmitted
    (ledger.held view.verifier (.getRecord jobId))
  recordTier := VerificationRecord.tier
    (ledger.held view.verifier (.getRecord own))
  commitmentBlock := ledger.held view.verifier (.commitmentBlock own)
  resultVerifiedAt := ledger.held view.marketplace (.resultVerifiedAt own)
  disputeResolved :=
    ledger.held view.marketplace (.disputeResolvedForProvider own)

/-- What the job view asks of a node: the later reads are about the model and
the id that the job carries, and a commitment's block is only asked for behind a
commitment. -/
inductive LiveJobView.Asks (view : LiveJobView) (jobId : U128)
    (ledger : Ledger) : NodeRead → Prop
  | job : Asks view jobId ledger (.held view.marketplace (.getJob jobId))
  | model :
      Asks view jobId ledger (.held view.modelRegistry (.getModel
        (JobTuple.modelHash (ledger.held view.marketplace (.getJob jobId)))))
  | head : Asks view jobId ledger .head
  | submitted : Asks view jobId ledger (.held view.verifier (.getRecord jobId))
  | tier {own : U128}
      (same : own.val =
        JobTuple.id (ledger.held view.marketplace (.getJob jobId))) :
      Asks view jobId ledger (.held view.verifier (.getRecord own))
  | commitmentBlock {own : U128}
      (same : own.val =
        JobTuple.id (ledger.held view.marketplace (.getJob jobId)))
      (committed : VerificationRecord.commitmentSubmitted
        (ledger.held view.verifier (.getRecord jobId)) = true) :
      Asks view jobId ledger (.held view.verifier (.commitmentBlock own))
  | verifiedAt {own : U128}
      (same : own.val =
        JobTuple.id (ledger.held view.marketplace (.getJob jobId))) :
      Asks view jobId ledger (.held view.marketplace (.resultVerifiedAt own))
  | disputeResolved {own : U128}
      (same : own.val =
        JobTuple.id (ledger.held view.marketplace (.getJob jobId))) :
      Asks view jobId ledger
        (.held view.marketplace (.disputeResolvedForProvider own))

/-- The agent's integers hold what is read; a commitment's block is only read
behind a commitment. -/
def JobReads.Fits (reads : JobReads) : Prop :=
  (∀ value ∈ reads.job.integers, value < 2 ^ 128) ∧
    (reads.committed = true → reads.commitmentBlock < 2 ^ 128) ∧
    reads.resultVerifiedAt < 2 ^ 128

def JobReads.resolved (reads : JobReads) (weightsSha256 : Option Word) :
    ResolvedJob where
  job := reads.job.record
  ipfsCid := reads.model.ipfsCid
  isActive := reads.model.isActive
  expectedSize := none
  expectedSha256 := weightsSha256
  currentBlock := reads.head.toNat
  committed := reads.committed
  gates :=
    { effectiveTier := some reads.recordTier
      commitmentBlock := if reads.committed then reads.commitmentBlock else 0
      resultVerifiedAt := reads.resultVerifiedAt
      disputeResolvedForProvider := reads.disputeResolved }

/-- A node, the profiler, and the client's counter of ids. -/
def wireHandle (respond : Json → Except String Response)
    (estimate : Word → Nat × Nat) (id : UInt64) :
    (op : WireOp) → WireAnswer op × UInt64
  | .rpc op => nodeHandle respond id op
  | .estimate modelHash => (estimate modelHash, id)

section Runs

variable [WireCrates] [HashFunctions] {client : RpcClient} {ledger : Ledger}
  {respond : Json → Except String Response} {estimate : Word → Nat × Nat}

omit [HashFunctions] in
theorem runOn_shown {α : Type} (respond : Json → Except String Response)
    (estimate : Word → Nat × Nat) (program : RpcProgram (Except RpcError α))
    (id : UInt64) :
    (shown program).runOn (wireHandle respond estimate) id =
      ((program.runOn (nodeHandle respond) id).1.mapError RpcError.display,
        (program.runOn (nodeHandle respond) id).2) := by
  have same : (program.interp fun op => Program.perform (WireOp.rpc op)).runOn
      (wireHandle respond estimate) id =
        program.runOn (nodeHandle respond) id := by
    rw [Program.runOn_interp]
    rfl
  rw [shown, Program.runOn_bind, same]
  rfl

/-- The node answers these reads at once. -/
def AnswersTo (client : RpcClient) (ledger : Ledger)
    (respond : Json → Except String Response) (asks : NodeRead → Prop) : Prop :=
  ∀ read, asks read → Answered client ledger respond read.method read.params

theorem shown_yields (pinned : ReadsPinned) {target : Address}
    {call : ReadCall} (answered : Answered client ledger respond "eth_call"
      (ethCallParams target call.calldata)) (id : UInt64) :
    ∃ answer,
      (shown (client.read target call.calldata call.function.decode)).runOn
          (wireHandle respond estimate) id = (answer, id + 1) ∧
        Yielded answer (call.function.view (ledger.held target call))
          (∀ value ∈ call.function.integers (ledger.held target call),
            value < 2 ^ 128) := by
  rw [runOn_shown, runOn_read pinned answered]
  refine ⟨_, rfl, ?_⟩
  intro read
  rw [Parsing.mapError_eq_ok, Parsing.mapError_eq_ok]
  exact call.function.decode_encode_iff (ledger.encodable target call)

/-- The views' reads, run against the node. -/
abbrev liveHandle (client : RpcClient)
    (respond : Json → Except String Response) (estimate : Word → Nat × Nat)
    (id : UInt64) (read : LiveRead) : LiveAnswer read × UInt64 :=
  (wire client read).runOn (wireHandle respond estimate) id

/-- Under every id the program is one exchange that yields this value, where
it fits. -/
def Reads (client : RpcClient) (respond : Json → Except String Response)
    (estimate : Word → Nat × Nat) {α : Type}
    (program : LiveProgram (Except String α)) (value : α) (fits : Prop) :
    Prop :=
  ∀ id, ∃ answer,
    program.runOn (liveHandle client respond estimate) id = (answer, id + 1) ∧
      Yielded answer value fits

theorem runOn_attempt {α β : Type} {label : String}
    {program : LiveProgram (Except String α)}
    {next : α → LiveProgram (Except String β)} {id : UInt64}
    {value : α} {fits : Prop} {result : β}
    (reads : Reads client respond estimate program value fits) :
    ((attempt label program next).runOn (liveHandle client respond estimate)
        id).1 = .ok result ↔
      fits ∧ ((next value).runOn (liveHandle client respond estimate)
        (id + 1)).1 = .ok result := by
  obtain ⟨answer, read, yielded⟩ := reads id
  rw [attempt, Program.runOn_bind, read]
  by_cases holds : fits
  · rw [yielded.ok holds]
    exact (and_iff_right holds).symm
  · obtain ⟨error, failed⟩ := yielded.error holds
    rw [failed]
    constructor
    · intro same
      cases same
    · exact fun both => absurd both.1 holds

section Reads

theorem reads_blockNumber
    (answered : Answered client ledger respond "eth_blockNumber" (.array [])) :
    Reads client respond estimate (Program.perform LiveRead.blockNumber)
      ledger.head.toNat True := by
  intro id
  refine ⟨.ok ledger.head.toNat, ?_, fun read => ?_⟩
  · have ran := runOn_shown respond estimate client.ethBlockNumber id
    rw [runOn_blockNumber answered] at ran
    exact ran
  · rw [Except.ok.injEq, and_true, eq_comm]

variable (pinned : ReadsPinned)

include pinned

theorem reads_getProvider {marketplace provider : Address}
    (answered : Answered client ledger respond "eth_call"
      (ethCallParams marketplace (ReadCall.getProvider provider).calldata)) :
    Reads client respond estimate
      (Program.perform (LiveRead.getProvider marketplace provider))
      (ledger.held marketplace (.getProvider provider))
      (∀ value ∈ ProviderProfile.integers
        (ledger.held marketplace (.getProvider provider)), value < 2 ^ 128) :=
  shown_yields pinned answered

theorem reads_saltPerPflopHour {oracle : Address}
    (answered : Answered client ledger respond "eth_call"
      (ethCallParams oracle ReadCall.saltPerPflopHour.calldata)) :
    Reads client respond estimate
      (Program.perform (LiveRead.saltPerPflopHour oracle))
      (ledger.held oracle .saltPerPflopHour)
      (∀ value ∈ ([ledger.held oracle .saltPerPflopHour] : List Nat),
        value < 2 ^ 128) :=
  shown_yields pinned answered

theorem reads_isPriceStale {oracle : Address}
    (answered : Answered client ledger respond "eth_call"
      (ethCallParams oracle ReadCall.isPriceStale.calldata)) :
    Reads client respond estimate
      (Program.perform (LiveRead.isPriceStale oracle))
      (ledger.held oracle .isPriceStale)
      (∀ value ∈ ([] : List Nat), value < 2 ^ 128) :=
  shown_yields pinned answered

theorem reads_getJob {marketplace : Address} {jobId : U128}
    (answered : Answered client ledger respond "eth_call"
      (ethCallParams marketplace (ReadCall.getJob jobId).calldata)) :
    Reads client respond estimate
      (Program.perform (LiveRead.getJob marketplace jobId))
      (JobTuple.record (ledger.held marketplace (.getJob jobId)))
      (∀ value ∈ JobTuple.integers (ledger.held marketplace (.getJob jobId)),
        value < 2 ^ 128) :=
  shown_yields pinned answered

theorem reads_getModel {modelRegistry : Address} {modelHash : Word}
    (answered : Answered client ledger respond "eth_call"
      (ethCallParams modelRegistry (ReadCall.getModel modelHash).calldata)) :
    Reads client respond estimate
      (Program.perform (LiveRead.getModel modelRegistry modelHash))
      (ModelRegistry.ModelTuple.info
        (ledger.held modelRegistry (.getModel modelHash)))
      (∀ value ∈ ([] : List Nat), value < 2 ^ 128) :=
  shown_yields pinned answered

theorem reads_commitmentBlock {verifier : Address} {jobId : U128}
    (answered : Answered client ledger respond "eth_call"
      (ethCallParams verifier (ReadCall.commitmentBlock jobId).calldata)) :
    Reads client respond estimate
      (Program.perform (LiveRead.commitmentBlock verifier jobId))
      (ledger.held verifier (.commitmentBlock jobId))
      (∀ value ∈ ([ledger.held verifier (.commitmentBlock jobId)] : List Nat),
        value < 2 ^ 128) :=
  shown_yields pinned answered

theorem reads_resultVerifiedAt {marketplace : Address} {jobId : U128}
    (answered : Answered client ledger respond "eth_call"
      (ethCallParams marketplace (ReadCall.resultVerifiedAt jobId).calldata)) :
    Reads client respond estimate
      (Program.perform (LiveRead.resultVerifiedAt marketplace jobId))
      (ledger.held marketplace (.resultVerifiedAt jobId))
      (∀ value ∈
        ([ledger.held marketplace (.resultVerifiedAt jobId)] : List Nat),
        value < 2 ^ 128) :=
  shown_yields pinned answered

theorem reads_disputeResolved {marketplace : Address} {jobId : U128}
    (answered : Answered client ledger respond "eth_call"
      (ethCallParams marketplace
        (ReadCall.disputeResolvedForProvider jobId).calldata)) :
    Reads client respond estimate
      (Program.perform (LiveRead.disputeResolvedForProvider marketplace jobId))
      (ledger.held marketplace (.disputeResolvedForProvider jobId))
      (∀ value ∈ ([] : List Nat), value < 2 ^ 128) :=
  shown_yields pinned answered

theorem shown_record {α : Type} {decode : Bytes → Except AbiError α}
    {verifier : Address} {jobId : U128}
    (answered : Answered client ledger respond "eth_call"
      (ethCallParams verifier (ReadCall.getRecord jobId).calldata)) {value : α}
    (decoded : decode ((ReadCall.getRecord jobId).function.encode
      (ledger.held verifier (.getRecord jobId))) = .ok value) (id : UInt64) :
    ∃ answer,
      (shown (client.read verifier (ReadCall.getRecord jobId).calldata
          decode)).runOn (wireHandle respond estimate) id = (answer, id + 1) ∧
        Yielded answer value True := by
  refine ⟨.ok value, ?_, fun read => ?_⟩
  · rw [runOn_shown, runOn_read pinned answered, decoded]
    rfl
  · rw [Except.ok.injEq, and_true, eq_comm]

theorem reads_commitmentSubmitted {verifier : Address} {jobId : U128}
    (answered : Answered client ledger respond "eth_call"
      (ethCallParams verifier (ReadCall.getRecord jobId).calldata)) :
    Reads client respond estimate
      (Program.perform (LiveRead.commitmentSubmitted verifier jobId))
      (VerificationRecord.commitmentSubmitted
        (ledger.held verifier (.getRecord jobId))) True :=
  shown_record pinned answered (decodeCommitmentSubmitted_words _)

theorem reads_recordTier {verifier : Address} {jobId : U128}
    (answered : Answered client ledger respond "eth_call"
      (ethCallParams verifier (ReadCall.getRecord jobId).calldata)) :
    Reads client respond estimate
      (Program.perform (LiveRead.recordTier verifier jobId))
      (VerificationRecord.tier
        (ledger.held verifier (.getRecord jobId))) True :=
  shown_record pinned answered (decodeRecordTier_words _)

end Reads

theorem refresh_runs (pinned : ReadsPinned) {view : LiveMarketView}
    {jobId : U128} (answers : AnswersTo client ledger respond (view.Asks jobId))
    (same : view.jobId = jobId) (id : UInt64) (snapshot : MarketSnapshot) :
    (view.refresh.runOn (liveHandle client respond estimate) id).1 =
        .ok snapshot ↔
      (view.reads jobId ledger).Fits ∧
        snapshot = (view.reads jobId ledger).snapshot view.secsPerBlock
          estimate := by
  rw [LiveMarketView.refresh, same,
    runOn_attempt (reads_getProvider pinned (answers _ .profile)),
    runOn_attempt (reads_saltPerPflopHour pinned (answers _ .price)),
    runOn_attempt (reads_isPriceStale pinned (answers _ .stale)),
    runOn_attempt (reads_getJob pinned (answers _ .job)),
    runOn_attempt (reads_blockNumber (answers _ .head))]
  constructor
  · rintro ⟨profile, price, -, job, -, returned⟩
    refine ⟨⟨profile, ?_, job⟩, (Except.ok.inj returned).symm⟩
    exact price _ List.mem_cons_self
  · rintro ⟨⟨profile, price, job⟩, rfl⟩
    refine ⟨profile, ?_, nofun, job, trivial, rfl⟩
    exact List.forall_mem_singleton.mpr price

/-- The part of the job view behind the record of the job: the commitment block
is read only behind a commitment. -/
theorem gates_run (pinned : ReadsPinned) {view : LiveJobView}
    {jobId own : U128}
    (answers : AnswersTo client ledger respond (view.Asks jobId ledger))
    (same : own.val =
      JobTuple.id (ledger.held view.marketplace (.getJob jobId)))
    (estimate : Word → Nat × Nat) (id : UInt64)
    (next : Nat → Nat → Bool → ResolvedJob)
    (resolved : ResolvedJob) :
    let committed := VerificationRecord.commitmentSubmitted
      (ledger.held view.verifier (.getRecord jobId))
    ((attempt "commitmentBlock"
        (if committed then
          Program.perform (LiveRead.commitmentBlock view.verifier own)
        else return .ok 0)
        fun commitmentBlock =>
      attempt "resultVerifiedAt"
        (Program.perform (LiveRead.resultVerifiedAt view.marketplace own))
        fun resultVerifiedAt =>
      attempt "disputeResolvedForProvider"
        (Program.perform
          (LiveRead.disputeResolvedForProvider view.marketplace own))
        fun disputeResolved =>
      return .ok (next commitmentBlock resultVerifiedAt
        disputeResolved)).runOn (liveHandle client respond estimate) id).1 =
          .ok resolved ↔
      (∀ value ∈ ([if committed then
          ledger.held view.verifier (.commitmentBlock own) else (0 : Nat),
        ledger.held view.marketplace (.resultVerifiedAt own)] : List Nat),
          value < 2 ^ 128) ∧
        resolved = next
          (if committed then ledger.held view.verifier (.commitmentBlock own)
            else (0 : Nat))
          (ledger.held view.marketplace (.resultVerifiedAt own))
          (ledger.held view.marketplace (.disputeResolvedForProvider own)) := by
  intro committed
  have settled (commitmentBlock : Nat) (id : UInt64) :
      ((attempt "resultVerifiedAt"
          (Program.perform (LiveRead.resultVerifiedAt view.marketplace own))
          fun resultVerifiedAt =>
        attempt "disputeResolvedForProvider"
          (Program.perform
            (LiveRead.disputeResolvedForProvider view.marketplace own))
          fun disputeResolved =>
        return .ok (next commitmentBlock resultVerifiedAt
          disputeResolved)).runOn (liveHandle client respond estimate) id).1 =
            .ok resolved ↔
        (∀ value ∈ ([ledger.held view.marketplace (.resultVerifiedAt own)] :
          List Nat), value < 2 ^ 128) ∧
          resolved = next commitmentBlock
            (ledger.held view.marketplace (.resultVerifiedAt own))
            (ledger.held view.marketplace
              (.disputeResolvedForProvider own)) := by
    rw [runOn_attempt
        (reads_resultVerifiedAt pinned (answers _ (.verifiedAt same))),
      runOn_attempt
        (reads_disputeResolved pinned (answers _ (.disputeResolved same)))]
    constructor
    · rintro ⟨verifiedAt, -, returned⟩
      exact ⟨verifiedAt, (Except.ok.inj returned).symm⟩
    · rintro ⟨verifiedAt, rfl⟩
      exact ⟨verifiedAt, nofun, rfl⟩
  cases flag : committed with
  | true =>
      rw [if_pos rfl, runOn_attempt (reads_commitmentBlock pinned
        (answers _ (.commitmentBlock same flag))), settled, ← and_assoc]
      simp
  | false =>
      refine (settled 0 id).trans ?_
      simp

theorem resolve_runs (pinned : ReadsPinned) {view : LiveJobView}
    {jobId : U128}
    (answers : AnswersTo client ledger respond (view.Asks jobId ledger))
    (id : UInt64) (resolved : ResolvedJob) :
    ((view.resolve jobId).runOn (liveHandle client respond estimate) id).1 =
        .ok resolved ↔
      ∃ own : U128,
        own.val = JobTuple.id (ledger.held view.marketplace (.getJob jobId)) ∧
          (view.reads jobId own ledger).Fits ∧
          resolved =
            (view.reads jobId own ledger).resolved view.weightsSha256 := by
  have model : Reads client respond estimate
      (Program.perform (LiveRead.getModel view.modelRegistry (JobTuple.record
        (ledger.held view.marketplace (.getJob jobId))).modelHash)) _ _ :=
    reads_getModel pinned (answers _ .model)
  rw [LiveJobView.resolve,
    runOn_attempt (reads_getJob pinned (answers _ .job)),
    runOn_attempt model,
    runOn_attempt (reads_blockNumber (answers _ .head)),
    runOn_attempt (reads_commitmentSubmitted pinned (answers _ .submitted))]
  by_cases integers : ∀ value ∈ JobTuple.integers
      (ledger.held view.marketplace (.getJob jobId)), value < 2 ^ 128
  · -- from here on the reads are about the id in the record
    obtain ⟨own, same⟩ : ∃ own : U128, (JobTuple.record
        (ledger.held view.marketplace (.getJob jobId))).id = own.val :=
      ⟨⟨_, integers _ List.mem_cons_self⟩, rfl⟩
    have recordTier : Reads client respond estimate _ _ True :=
      reads_recordTier pinned (answers _ (.tier same.symm))
    obtain ⟨tier, tierRead, tierYields⟩ := recordTier (id + 1 + 1 + 1 + 1)
    have tierKnown := tierYields.ok trivial
    subst tierKnown
    rw [same, Program.runOn_bind, tierRead]
    have gates := gates_run pinned answers same.symm estimate
      (id + 1 + 1 + 1 + 1 + 1)
    constructor
    · rintro ⟨-, -, -, -, returned⟩
      obtain ⟨fits, value⟩ := (gates _ resolved).mp returned
      rw [List.forall_mem_cons, List.forall_mem_singleton] at fits
      refine ⟨own, same.symm, ⟨integers, ?_, fits.2⟩, value⟩
      intro committed
      have flag : VerificationRecord.commitmentSubmitted
          (ledger.held view.verifier (.getRecord jobId)) = true := committed
      have block := fits.1
      rw [if_pos flag] at block
      exact block
    · rintro ⟨other, sameId, ⟨-, block, verifiedAt⟩, value⟩
      have equal : other = own := Subtype.ext (sameId.trans same)
      subst equal
      refine ⟨integers, nofun, trivial, trivial,
        (gates _ resolved).mpr ⟨?_, value⟩⟩
      rw [List.forall_mem_cons, List.forall_mem_singleton]
      refine ⟨?_, verifiedAt⟩
      split
      · next committed => exact block committed
      · exact Nat.two_pow_pos 128
  · constructor
    · intro both
      exact absurd both.1 integers
    · rintro ⟨own, same, ⟨fits, -⟩, -⟩
      exact absurd fits integers

/-- On a node that answers what a view asks, the view succeeds exactly when the
agent's integers hold every value that it reads, and it returns what the ledger
holds. -/
theorem wiredViews_exact (pinned : ReadsPinned) (estimate : Word → Nat × Nat)
    (id : UInt64) (jobId : U128) :
    (∀ (view : LiveMarketView) (snapshot : MarketSnapshot),
      view.jobId = jobId →
        AnswersTo client ledger respond (view.Asks jobId) →
          (((view.refresh.interp (wire client)).runOn
              (wireHandle respond estimate) id).1 = .ok snapshot ↔
            (view.reads jobId ledger).Fits ∧
              snapshot = (view.reads jobId ledger).snapshot view.secsPerBlock
                estimate)) ∧
    ∀ (view : LiveJobView) (resolved : ResolvedJob),
      AnswersTo client ledger respond (view.Asks jobId ledger) →
        ((((view.resolve jobId).interp (wire client)).runOn
            (wireHandle respond estimate) id).1 = .ok resolved ↔
          ∃ own : U128,
            own.val =
                JobTuple.id (ledger.held view.marketplace (.getJob jobId)) ∧
              (view.reads jobId own ledger).Fits ∧
              resolved =
                (view.reads jobId own ledger).resolved view.weightsSha256) := by
  constructor
  · intro view snapshot same answers
    rw [Program.runOn_interp]
    exact refresh_runs pinned answers same id snapshot
  · intro view resolved answers
    rw [Program.runOn_interp]
    exact resolve_runs pinned answers id resolved

end Runs

/-- The tuple of every job, executing since block 50. -/
def servedTuple (jobId : U128) : JobTuple where
  id := jobId
  requester := sampleJob.requester
  modelHash := sampleJob.modelHash
  inputHash := List.replicate 32 0
  maxPriceWei := sampleJob.maxPriceWei
  tier := sampleJob.tier
  state := sampleJob.state
  assignedProvider := sampleJob.assignedProvider
  escrowWei := sampleJob.escrowWei
  bidDeadlineBlock := sampleJob.bidDeadlineBlock
  executionDeadlineBlock := sampleJob.executionDeadlineBlock
  createdAtBlock := sampleJob.createdAtBlock
  bidCount := sampleJob.bidCount

def servedModel : ModelRegistry.ModelTuple where
  owner := sampleProvider
  name := "m"
  framework := "gguf"
  version := "1"
  ipfsCid := sampleResolved.ipfsCid
  inferencePrice := 0
  totalInferences := 0
  isActive := true

/-- The record of a job that is committed. -/
def servedRecord (jobId : U128) : VerificationRecord where
  jobId := jobId
  jobValue := sampleJob.escrowWei
  tier := .commitment
  result := 0
  commitmentHash := List.Vector.replicate 32 0x0c
  commitmentSubmitted := true
  others := List.Vector.replicate 5 (List.Vector.replicate 32 0)

def servedPin : PinState where
  status := .none
  round := 0
  missed := 0
  claimed := 0
  bondHeld := 0
  challengeOpen := false
  challengeDeadline := 0
  challengeNonce := List.Vector.replicate 32 0

def servedSlot : SlotState where
  funded := true
  budget := 0
  liveCount := 0

/-- What every contract holds. -/
def servedHeld : (call : ReadCall) → call.function.Held
  | .getProvider _ => sampleProfile
  | .getJob jobId => servedTuple jobId
  | .getModel _ => servedModel
  | .getRecord jobId => servedRecord jobId
  | .commitmentBlock _ => (150 : Nat)
  | .claimable _ | .resultVerifiedAt _ | .saltPerPflopHour | .owedOf ..
  | .unallocatedSlotFunding => (0 : Nat)
  | .disputeResolvedForProvider _ | .isPriceStale | .registered _ => false
  | .getPin .. => servedPin
  | .getSlot .. => servedSlot

theorem zeroFits : 0 < 2 ^ 128 := by decide

theorem blockFits : 150 < 2 ^ 128 := by decide

theorem servedProfile_fits :
    ∀ value ∈ sampleProfile.integers, value < 2 ^ 128 := by decide

theorem servedTuple_fits (jobId : U128) :
    ∀ value ∈ (servedTuple jobId).integers, value < 2 ^ 128 := by
  have others : ∀ value ∈ (servedTuple ⟨7, seven_fits⟩).integers.tail,
      value < 2 ^ 128 := by decide
  exact List.forall_mem_cons.mpr ⟨jobId.property, others⟩

theorem servedPin_fits : ∀ value ∈ servedPin.integers, value < 2 ^ 128 := by
  decide

theorem servedHeld_fits (call : ReadCall) :
    ∀ value ∈ call.function.integers (servedHeld call), value < 2 ^ 128 := by
  have small {value : Nat} (small : value < 2 ^ 128) :
      ∀ other ∈ [value], other < 2 ^ 128 :=
    List.forall_mem_singleton.mpr small
  cases call with
  | getProvider => exact servedProfile_fits
  | getJob jobId => exact servedTuple_fits jobId
  | getPin => exact servedPin_fits
  | getSlot => exact List.forall_mem_cons.mpr ⟨zeroFits, small zeroFits⟩
  | commitmentBlock => exact small blockFits
  | claimable | resultVerifiedAt | saltPerPflopHour | owedOf
  | unallocatedSlotFunding => exact small zeroFits
  | getModel | getRecord | disputeResolvedForProvider | isPriceStale
  | registered => nofun

theorem servedModel_length : servedModel.encode.length ≤ 1024 := by
  decide +kernel

theorem tuple_length {tuple : JobTuple} (hash : tuple.inputHash.length = 32) :
    (tuple.encode []).length ≤ 1024 := by
  have tail : (bytesTail tuple.inputHash).length = 64 := by
    simp [bytesTail, hash]
  rw [JobTuple.encode, JobWords.encode, List.length_append,
    JobWords.length_head, List.length_append, tail, List.length_nil]
  decide

theorem servedHeld_length (call : ReadCall) :
    (call.function.encode (servedHeld call)).length ≤ 1024 := by
  have whole (words : List Word) (few : words.length ≤ 32) :
      (words.flatMap List.Vector.toList).length ≤ 1024 := by
    rw [SolidityAbi.length_words]
    omega
  have one (value : Nat) : (uintWord value).toList.length ≤ 1024 := by
    rw [List.Vector.toList_length]
    decide
  cases call with
  | getProvider =>
      have words := whole (uintWord sampleProfile.isRegistered.toNat ::
        sampleProfile.integers.map uintWord) (by decide)
      rw [← List.append_nil (List.flatMap _ _)] at words
      exact words
  | getJob jobId => exact tuple_length rfl
  | getModel => exact servedModel_length
  | getRecord jobId => exact whole (servedRecord jobId).words (by simp [VerificationRecord.words])
  | getPin => exact whole servedPin.words (by decide)
  | getSlot => exact whole servedSlot.words (by decide)
  | commitmentBlock | saltPerPflopHour | claimable | resultVerifiedAt | owedOf
  | unallocatedSlotFunding | disputeResolvedForProvider | isPriceStale
  | registered => exact one _

/-- Twenty blocks in a minute, before block 160. -/
def servedTimestamp (block : Nat) : Option UInt64 :=
  if block = 160 then some 1480 else if block = 140 then some 1420 else none

def servedLedger (head : UInt64) : Ledger where
  head := head
  timestamp := servedTimestamp
  held _ call := servedHeld call
  encodable _ call :=
    { integers := fun value member =>
        (servedHeld_fits call value member).trans (by decide)
      encoding := (servedHeld_length call).trans_lt (by decide) }

def servedClient : RpcClient := ⟨16384⟩

theorem servedTimestamp_short {block : Nat} {timestamp : UInt64}
    (known : servedTimestamp block = some timestamp) :
    (quantityText timestamp.toNat).toList.length ≤ 1024 := by
  unfold servedTimestamp at known
  split at known
  · cases known
    decide +kernel
  split at known
  · cases known
    decide +kernel
  · cases known

/-- A ledger whose answers are short stays below the cap. -/
theorem ledger_bounded {ledger : Ledger}
    (head : (quantityText ledger.head.toNat).toList.length ≤ 1024)
    (blocks : ∀ {block timestamp}, ledger.timestamp block = some timestamp →
      (quantityText timestamp.toNat).toList.length ≤ 1024)
    (returned : ∀ target (call : ReadCall),
      (call.function.encode (ledger.held target call)).length ≤ 1024)
    (read : NodeRead) :
    ∃ bytes, printed (ledger.tell read) = some bytes ∧
      (answerBody bytes).length ≤ servedClient.maxResponseBytes := by
  have limit : servedClient.maxResponseBytes = 16384 := rfl
  cases read with
  | head =>
      obtain ⟨bytes, shows, length⟩ :=
        printed_string (quantityText ledger.head.toNat)
      exact ⟨bytes, shows, by omega⟩
  | held target call =>
      have returned := returned target call
      obtain ⟨bytes, shows, length⟩ := printed_string
        (hexEncode (call.function.encode (ledger.held target call)))
      rw [length_hexEncode] at length
      exact ⟨bytes, shows, by omega⟩
  | block number =>
      rw [Ledger.tell]
      cases known : ledger.timestamp number with
      | none =>
          obtain ⟨bytes, shows, length⟩ := printed_null
          exact ⟨bytes, shows, by omega⟩
      | some timestamp =>
          have text := blocks known
          obtain ⟨bytes, shows, length⟩ := printed_block (quantityText _)
          exact ⟨bytes, shows, by omega⟩

theorem bounded_answered {ledger : Ledger}
    (bounded : ∀ read, ∃ bytes, printed (ledger.tell read) = some bytes ∧
      (answerBody bytes).length ≤ servedClient.maxResponseBytes)
    (read : NodeRead) :
    @Answered sampleWire servedClient ledger (sampleRespond ledger) read.method
      (@NodeRead.params readHashes read) := by
  intro id
  obtain ⟨bytes, shows, under⟩ := bounded read
  exact sampleRespond_prompt
    (@NodeRead.ofEnvelope_params readHashes readHashes_pinned read id) shows
    under (by decide)

theorem servedLedger_bounded (read : NodeRead) :
    ∃ bytes, printed ((servedLedger 160).tell read) = some bytes ∧
      (answerBody bytes).length ≤ servedClient.maxResponseBytes :=
  ledger_bounded (by decide +kernel) servedTimestamp_short
    (fun _ => servedHeld_length) read

theorem servedLedger_answered (read : NodeRead) :
    @Answered sampleWire servedClient (servedLedger 160)
      (sampleRespond (servedLedger 160)) read.method
      (@NodeRead.params readHashes read) :=
  bounded_answered servedLedger_bounded read

/-- The id of the job. -/
def servedJob : U128 := ⟨7, seven_fits⟩

theorem wiredViews_exact_served :
    let runs {α : Type} (program : LiveProgram α) : α :=
      ((program.interp (@wire sampleWire readHashes servedClient)).runOn
        (wireHandle (sampleRespond (servedLedger 160)) fun _ => (0, 60)) 1).1
    runs sampleMarketView.refresh =
        .ok ((sampleMarketView.reads servedJob (servedLedger 160)).snapshot 2
          fun _ => (0, 60)) ∧
      runs (sampleView.resolve 7) =
        .ok ((sampleView.reads servedJob servedJob (servedLedger 160)).resolved
          none) := by
  have exact := @wiredViews_exact sampleWire readHashes servedClient
    (servedLedger 160) (sampleRespond (servedLedger 160)) readHashes_pinned
    (fun _ => (0, 60)) 1 servedJob
  constructor
  · exact (exact.1 sampleMarketView _ rfl
      fun read _ => servedLedger_answered read).mpr
        ⟨⟨servedProfile_fits, zeroFits, servedTuple_fits servedJob⟩, rfl⟩
  · exact (exact.2 sampleView _ fun read _ => servedLedger_answered read).mpr
      ⟨servedJob, rfl, ⟨servedTuple_fits servedJob, fun _ => blockFits,
        zeroFits⟩, rfl⟩

end NodeAgent.Node
