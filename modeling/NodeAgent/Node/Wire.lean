import NodeAgent.Chainio.Ledger
import NodeAgent.Node.Live

/-!
# The live views over JSON-RPC

Every read of the live views is an exchange with a node.  Over a node that may
fail in any way but never lies, the views execute as over the ledger itself.
-/

namespace NodeAgent.Node

open Chainio Executor Interaction Lifecycle

/-- What a view does: the client's operations, and a look into the profiler. -/
inductive WireOp
  | rpc (op : RpcOp)
  | estimate (modelHash : Word)

abbrev WireAnswer : WireOp → Type
  | .rpc op => RpcAnswer op
  | .estimate _ => Nat × Nat

section Client

variable [WireCrates] [HashFunctions]

/-- A read of the client, its error as text. -/
def shown {α : Type} (program : RpcProgram (Except RpcError α)) :
    Program WireOp WireAnswer (Except String α) := do
  let result ← program.interp fun op => Program.perform (WireOp.rpc op)
  return result.mapError RpcError.display

/-- The exchange behind a read. -/
def wire (client : RpcClient) :
    (read : LiveRead) → Program WireOp WireAnswer (LiveAnswer read)
  | .getProvider marketplace provider =>
      shown (client.getProvider marketplace provider)
  | .saltPerPflopHour oracle => shown (client.saltPerPflopHour oracle)
  | .isPriceStale oracle => shown (client.isPriceStale oracle)
  | .getJob marketplace jobId => shown (client.getJob marketplace jobId)
  | .getModel modelRegistry modelHash =>
      shown (client.getModel modelRegistry modelHash)
  | .blockNumber => shown client.ethBlockNumber
  | .estimate modelHash => Program.perform (WireOp.estimate modelHash)
  | .commitmentSubmitted verifier jobId =>
      shown (client.commitmentSubmitted verifier jobId)
  | .recordTier verifier jobId => shown (client.recordTier verifier jobId)
  | .commitmentBlock verifier jobId =>
      shown (client.commitmentBlock verifier jobId)
  | .resultVerifiedAt marketplace jobId =>
      shown (client.resultVerifiedAt marketplace jobId)
  | .disputeResolvedForProvider marketplace jobId =>
      shown (client.disputeResolvedForProvider marketplace jobId)

/-- The answers of a node that never lies. -/
def truthfulNode {World : Type} (ledger : World → Ledger) (world : World) :
    (op : WireOp) → WireAnswer op → Prop
  | .rpc op, answer => (ledger world).Truthful op answer
  | .estimate _, _ => True

end Client

/-- A value that is read is the ledger's own, and a job that is read carries an
id that 128 bits hold. -/
def ledgerAnswers {World : Type} (ledger : World → Ledger) (world : World) :
    (read : LiveRead) → LiveAnswer read → Prop
  | .getProvider marketplace provider, answer =>
      ∀ profile, answer = .ok profile →
        profile = (ledger world).held marketplace (.getProvider provider)
  | .saltPerPflopHour oracle, answer =>
      ∀ price, answer = .ok price →
        price = (ledger world).held oracle .saltPerPflopHour
  | .isPriceStale oracle, answer =>
      ∀ stale, answer = .ok stale →
        stale = (ledger world).held oracle .isPriceStale
  | .getJob marketplace jobId, answer =>
      ∀ job, answer = .ok job → job.id < 2 ^ 128 ∧ ∃ fits,
        job = JobTuple.record
          ((ledger world).held marketplace (.getJob ⟨jobId, fits⟩))
  | .getModel modelRegistry modelHash, answer =>
      ∀ model, answer = .ok model →
        model = ModelRegistry.ModelTuple.info
          ((ledger world).held modelRegistry (.getModel modelHash))
  | .blockNumber, answer =>
      ∀ block, answer = .ok block → block = (ledger world).head.toNat
  | .estimate _, _ => True
  | .commitmentSubmitted verifier jobId, answer =>
      ∀ submitted, answer = .ok submitted → ∃ fits,
        submitted = VerificationRecord.commitmentSubmitted
          ((ledger world).held verifier (.getRecord ⟨jobId, fits⟩))
  | .recordTier verifier jobId, answer =>
      ∀ tier, answer = .ok tier → ∃ fits,
        tier = VerificationRecord.tier
          ((ledger world).held verifier (.getRecord ⟨jobId, fits⟩))
  | .commitmentBlock verifier jobId, answer =>
      ∀ block, answer = .ok block → ∃ fits,
        block = (ledger world).held verifier (.commitmentBlock ⟨jobId, fits⟩)
  | .resultVerifiedAt marketplace jobId, answer =>
      ∀ block, answer = .ok block → ∃ fits,
        block =
          (ledger world).held marketplace (.resultVerifiedAt ⟨jobId, fits⟩)
  | .disputeResolvedForProvider marketplace jobId, answer =>
      ∀ resolved, answer = .ok resolved → ∃ fits,
        resolved = (ledger world).held marketplace
          (.disputeResolvedForProvider ⟨jobId, fits⟩)

/-- A job id in a read is a `u128`. -/
def idFits : LiveRead → Prop
  | .getJob _ jobId | .commitmentSubmitted _ jobId | .recordTier _ jobId
  | .commitmentBlock _ jobId | .resultVerifiedAt _ jobId
  | .disputeResolvedForProvider _ jobId => jobId < 2 ^ 128
  | _ => True

/-- A job that was read carries a `u128`. -/
def jobFits : (read : LiveRead) → LiveAnswer read → Prop
  | .getJob _ _, answer => ∀ job, answer = .ok job → job.id < 2 ^ 128
  | _, _ => True

theorem ledgerAnswers_jobFits {World : Type} (ledger : World → Ledger)
    (world : World) (read : LiveRead) (answer : LiveAnswer read)
    (answered : ledgerAnswers ledger world read answer) :
    jobFits read answer := by
  cases read with
  | getJob marketplace jobId => exact fun job same => (answered job same).1
  | _ => trivial

theorem refresh_usesWhile {view : LiveMarketView} (fits : view.jobId < 2 ^ 128) :
    view.refresh.UsesWhile jobFits idFits := by
  unfold LiveMarketView.refresh
  simp only [attempt, Program.perform_bind]
  refine ⟨trivial, fun profile _ => ?_⟩
  cases profile with
  | error error => trivial
  | ok profile =>
  refine ⟨trivial, fun price _ => ?_⟩
  cases price with
  | error error => trivial
  | ok price =>
  refine ⟨trivial, fun stale _ => ?_⟩
  cases stale with
  | error error => trivial
  | ok stale =>
  refine ⟨fits, fun job _ => ?_⟩
  cases job with
  | error error => trivial
  | ok job =>
  refine ⟨trivial, fun block _ => ?_⟩
  cases block with
  | error error => trivial
  | ok block => exact ⟨trivial, fun estimate _ => trivial⟩

/-- The reads of a job view are about its own job, or about the id in the
record that was read. -/
theorem resolve_usesWhile {view : LiveJobView} {jobId : Nat}
    (fits : jobId < 2 ^ 128) :
    (view.resolve jobId).UsesWhile jobFits idFits := by
  unfold LiveJobView.resolve
  simp only [attempt, Program.perform_bind]
  refine ⟨fits, fun job good => ?_⟩
  cases job with
  | error error => trivial
  | ok job =>
  have own : job.id < 2 ^ 128 := good job rfl
  refine ⟨trivial, fun model _ => ?_⟩
  cases model with
  | error error => trivial
  | ok model =>
  refine ⟨trivial, fun block _ => ?_⟩
  cases block with
  | error error => trivial
  | ok block =>
  refine ⟨fits, fun committed _ => ?_⟩
  cases committed with
  | error error => trivial
  | ok committed =>
  refine ⟨own, fun tier _ => ?_⟩
  apply Program.UsesWhile.bind
  · cases committed with
    | false => trivial
    | true => exact ⟨own, fun block _ => trivial⟩
  intro commitmentBlock
  cases commitmentBlock with
  | error error => trivial
  | ok commitmentBlock =>
  refine ⟨own, fun verifiedAt _ => ?_⟩
  cases verifiedAt with
  | error error => trivial
  | ok verifiedAt =>
  refine ⟨own, fun settled _ => ?_⟩
  cases settled with
  | error error => trivial
  | ok settled => trivial

section Refinement

variable [WireCrates] [HashFunctions] {client : RpcClient} {World : Type}
  {ledger : World → Ledger} {evolves : World → World → Prop}
  {start finish : World}

omit [HashFunctions] in
/-- An execution over the wire shows an execution of the client. -/
theorem executes_shown {α : Type} {program : RpcProgram (Except RpcError α)}
    {value : α}
    (execution : Executes evolves (truthfulNode ledger) start (shown program)
      (.ok value) finish) :
    Executes (fun _ _ => True) Ledger.Truthful (ledger start) program
      (.ok value) (ledger finish) := by
  obtain ⟨result, middle, execution, done⟩ :=
    (executes_bind _ _).mp execution
  obtain ⟨same, rfl⟩ := executes_done.mp done
  rw [Parsing.mapError_eq_ok] at same
  subst same
  have inner : Executes evolves
      (fun world op answer => (ledger world).Truthful op answer) start program
      (.ok value) middle := by
    apply execution.of_interp
    intro start op answer finish performed
    exact executes_perform.mp performed
  exact inner.view ledger (fun _ => trivial) id

theorem shown_read (pinned : ReadsPinned) {α : Type} {target : Address}
    (call : ReadCall) {decode : Bytes → Except AbiError α} {value : α}
    (execution : Executes evolves (truthfulNode ledger) start
      (shown (client.read target call.calldata decode)) (.ok value) finish) :
    decode (call.function.encode ((ledger finish).held target call)) =
      .ok value :=
  executes_read (fun _ _ _ _ _ => trivial) pinned (executes_shown execution)

theorem shown_view (pinned : ReadsPinned) {target : Address} (call : ReadCall)
    {value : call.function.Seen}
    (execution : Executes evolves (truthfulNode ledger) start
      (shown (client.read target call.calldata call.function.decode))
      (.ok value) finish) :
    value = call.function.view ((ledger finish).held target call) ∧
      ∀ integer ∈ call.function.integers ((ledger finish).held target call),
        integer < 2 ^ 128 :=
  (call.function.decode_encode_iff ((ledger finish).encodable target call)).mp
    (shown_read pinned call execution)

/-- Each read over a node that never lies has the ledger's value. -/
theorem wire_answers (pinned : ReadsPinned) {read : LiveRead}
    {answer : LiveAnswer read} (fits : idFits read)
    (execution : Executes evolves (truthfulNode ledger) start
      (wire client read) answer finish) :
    ledgerAnswers ledger finish read answer := by
  cases read with
  | getProvider marketplace provider =>
      rintro profile rfl
      exact (shown_view pinned (.getProvider provider) execution).1
  | saltPerPflopHour oracle =>
      rintro price rfl
      exact (shown_view pinned .saltPerPflopHour execution).1
  | isPriceStale oracle =>
      rintro stale rfl
      exact (shown_view pinned .isPriceStale execution).1
  | getJob marketplace jobId =>
      rintro job rfl
      obtain ⟨same, integers⟩ :=
        shown_view pinned (.getJob ⟨jobId, fits⟩) execution
      subst same
      exact ⟨integers _ List.mem_cons_self, fits, rfl⟩
  | getModel modelRegistry modelHash =>
      rintro model rfl
      exact (shown_view pinned (.getModel modelHash) execution).1
  | blockNumber =>
      rintro block rfl
      exact executes_blockNumber (fun _ _ _ _ _ => trivial)
        (executes_shown execution)
  | estimate modelHash => trivial
  | commitmentSubmitted verifier jobId =>
      rintro submitted rfl
      have decoded := shown_read pinned (.getRecord ⟨jobId, fits⟩) execution
      have held := decodeCommitmentSubmitted_words
        ((ledger finish).held verifier (.getRecord ⟨jobId, fits⟩))
      exact ⟨fits, Except.ok.inj (decoded.symm.trans held)⟩
  | recordTier verifier jobId =>
      rintro tier rfl
      have decoded := shown_read pinned (.getRecord ⟨jobId, fits⟩) execution
      have held := decodeRecordTier_words
        ((ledger finish).held verifier (.getRecord ⟨jobId, fits⟩))
      exact ⟨fits, Except.ok.inj (decoded.symm.trans held)⟩
  | commitmentBlock verifier jobId =>
      rintro block rfl
      exact ⟨fits,
        (shown_view pinned (.commitmentBlock ⟨jobId, fits⟩) execution).1⟩
  | resultVerifiedAt marketplace jobId =>
      rintro block rfl
      exact ⟨fits,
        (shown_view pinned (.resultVerifiedAt ⟨jobId, fits⟩) execution).1⟩
  | disputeResolvedForProvider marketplace jobId =>
      rintro resolved rfl
      exact ⟨fits, (shown_view pinned
        (.disputeResolvedForProvider ⟨jobId, fits⟩) execution).1⟩

/-- Over a node that never lies, a view executes as over its ledger. -/
theorem wire_refines (pinned : ReadsPinned) {α : Type}
    {program : LiveProgram α} (uses : program.UsesWhile jobFits idFits)
    {value : α} (reflexive : ∀ world, evolves world world)
    (transitive : ∀ ⦃first second third⦄,
      evolves first second → evolves second third → evolves first third)
    (execution : Executes evolves (truthfulNode ledger) start
      (program.interp (wire client)) value finish) :
    Executes evolves (ledgerAnswers ledger) start program value finish := by
  refine execution.of_interp_while ?_ (ledgerAnswers_jobFits ledger) uses
  intro start read answer finish fits executed
  exact ⟨executed.evolved reflexive transitive,
    wire_answers pinned fits executed⟩

end Refinement

end NodeAgent.Node
