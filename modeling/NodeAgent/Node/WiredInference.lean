import NodeAgent.Executor.Completion
import NodeAgent.Node.InputDrop
import NodeAgent.Node.InferenceRun
import NodeAgent.Node.PostedInput
import NodeAgent.Node.TornViews
import NodeAgent.Node.Undisturbed

/-!
# The inference run over its wires

The executor's step with its job view on a JSON-RPC node, its input from the
drop and its completions over HTTP.  The chain, the drop and the weight cache
may change between any two operations, and the node may fail but never lies:
what is posted for completion is still the job's own input, whole.
-/

namespace NodeAgent.Node

open Chainio Executor Interaction Lifecycle

/-- What a step over its wires does. -/
inductive SiteOp
  | wire (op : WireOp)
  | input (op : InputOp)
  | http (op : HttpOp)
  | step (op : StepOp)

abbrev SiteAnswer : SiteOp → Type
  | .wire op => WireAnswer op
  | .input op => InputAnswer op
  | .http op => HttpAnswer op
  | .step op => StepAnswer op

/-- What an executor is wired to. -/
structure JobWires where
  client : RpcClient
  view : LiveJobView
  source : FileInputSource
  server : LlamaServerInference

/-- The ledger of the node, the drop, the files of the weight cache, and what
the server may answer to a post, at each moment. -/
structure JobSite (Moment : Type) where
  ledger : Moment → Ledger
  drop : InputDir Moment
  present : Moment → Path → Bool
  responds : Moment → String → Json → Except String Response → Prop

/-- The node never lies, and the files are what they are; nothing is assumed of
the other answers. -/
def JobSite.Answers {Moment : Type} [WireCrates] [HashFunctions]
    (site : JobSite Moment) (moment : Moment) :
    (op : SiteOp) → SiteAnswer op → Prop
  | .wire op, answer => truthfulNode site.ledger moment op answer
  | .input op, answer => site.drop.Answers moment op answer
  | .http (.fileExists path), found =>
      found = true → site.present moment path = true
  | .http (.post url body), answer => site.responds moment url body answer
  | .step _, _ => True

section Wires

variable [WireCrates] [HashFunctions]

/-- The job view, the drop and the server answer by their own operations. -/
def JobWires.handler (wires : JobWires) :
    (op : StepOp) → Program SiteOp SiteAnswer (StepAnswer op)
  | .resolve jobId =>
      ((wires.view.resolve jobId).interp (wire wires.client)).interp fun op =>
        Program.perform (SiteOp.wire op)
  | .inputFor jobId =>
      (wires.source.inputFor jobId).interp fun op =>
        Program.perform (SiteOp.input op)
  | .maxJobInputBytes =>
      Program.perform (SiteOp.input InputOp.maxJobInputBytes)
  | .infer model input =>
      (wires.server.runHttp wires.client.maxResponseBytes model input).interp
        fun op => Program.perform (SiteOp.http op)
  | op => Program.perform (SiteOp.step op)

theorem handler_posts {wires : JobWires} {op : StepOp} {url : String}
    {body : Json}
    (issued : (wires.handler op).Issues (.http (.post url body))) :
    ∃ model input, op = .infer model input := by
  cases op with
  | infer model input => exact ⟨model, input, rfl⟩
  | resolve jobId =>
      obtain ⟨inner, -, handled⟩ := Program.issues_interp _ _ _ issued
      rcases handled with same | ⟨_, later⟩
      · cases same
      · cases later
  | inputFor jobId =>
      obtain ⟨inner, -, handled⟩ := Program.issues_interp _ _ _ issued
      rcases handled with same | ⟨_, later⟩
      · cases same
      · cases later
  | _ =>
      rcases issued with same | ⟨_, later⟩
      · cases same
      · cases later

end Wires

section Moments

variable {Moment : Type} [Preorder Moment] {site : JobSite Moment}
  {wires : JobWires} {executor : JobExecutor} {start finish : Moment}

variable [WireCrates] [HashFunctions]

theorem handler_resolve (pinned : ReadsPinned) {jobId : Nat}
    (fits : jobId < 2 ^ 128) {resolved : ResolvedJob}
    (execution : Executes (· ≤ ·) site.Answers start
      (wires.handler (.resolve jobId)) (.ok resolved) finish) :
    Executes (· ≤ ·) (ledgerAnswers site.ledger) start
      (wires.view.resolve jobId) (.ok resolved) finish := by
  have exchanges : Executes (· ≤ ·) (truthfulNode site.ledger) start
      ((wires.view.resolve jobId).interp (wire wires.client)) (.ok resolved)
        finish :=
    execution.of_interp executes_perform.mp
  exact wire_refines pinned (resolve_usesWhile fits) le_refl
    (fun _ _ _ => le_trans) exchanges

theorem handler_inputFor {jobId : Nat} {bytes : Bytes}
    (execution : Executes (· ≤ ·) site.Answers start
      (wires.handler (.inputFor jobId)) (.ok (some bytes)) finish) :
    Delivered site.drop (wires.source.path jobId) bytes start finish := by
  have operations : Executes (· ≤ ·) site.drop.Answers start
      (wires.source.inputFor jobId) (.ok (some bytes)) finish :=
    execution.of_interp executes_perform.mp
  exact FileInputSource.inputFor_delivered operations

omit [WireCrates] [HashFunctions] in
theorem refused_model {modelHash : Word} {cacheDir : Path}
    {error : ProvisionError} (model : ProvisionedModel)
    (same : Except.error error = .ok model) :
    model.modelHash = modelHash ∧
      model.path = cacheFile cacheDir modelHash := by
  cases same

omit [WireCrates] in
theorem fetchVerified_model {modelHash : Word} {ipfsCid : String}
    {expectedSize : Option Nat} {digest : Word} {integrity : Integrity}
    {cacheDir : Path} :
    (fetchVerified modelHash ipfsCid expectedSize digest integrity
      cacheDir).Ensures fun result => ∀ model, result = .ok model →
        model.modelHash = modelHash ∧
          model.path = cacheFile cacheDir modelHash := by
  simp only [fetchVerified, Program.perform_bind]
  refine Program.ensures_call fun fetched => ?_
  cases fetched with
  | error error => exact Program.ensures_done refused_model
  | ok bytes =>
  simp only
  split
  · exact Program.ensures_done refused_model
  split
  · exact Program.ensures_done refused_model
  refine Program.ensures_call fun created => ?_
  cases created with
  | error error => exact Program.ensures_done refused_model
  | ok _ =>
  refine Program.ensures_call fun written => ?_
  cases written with
  | error error => exact Program.ensures_done refused_model
  | ok _ =>
      apply Program.ensures_done
      intro model same
      cases same
      exact ⟨rfl, rfl⟩

omit [WireCrates] in
theorem provision_model {modelHash : Word} {ipfsCid : String} {isActive : Bool}
    {expectedSize : Option Nat} {expectedSha256 : Option Word}
    {cacheDir : Path} :
    (provision modelHash ipfsCid isActive expectedSize expectedSha256
      cacheDir).Ensures fun result => ∀ model, result = .ok model →
        model.modelHash = modelHash ∧
          model.path = cacheFile cacheDir modelHash := by
  unfold provision
  split
  · exact Program.ensures_done refused_model
  split
  · exact Program.ensures_done refused_model
  split
  · exact Program.ensures_done refused_model
  split
  · exact Program.ensures_done refused_model
  simp only [Program.perform_bind]
  refine Program.ensures_call fun cached => ?_
  cases cached with
  | none => exact fetchVerified_model
  | some bytes =>
  simp only
  split
  · apply Program.ensures_done
    intro model same
    cases same
    exact ⟨rfl, rfl⟩
  · exact Program.ensures_call fun _ => fetchVerified_model

/-- The job was resolved by the step itself, to values that the ledger held
meanwhile, and settles by commitment. -/
def ResolvedInStep (site : JobSite Moment) (wires : JobWires)
    (jobId : U128) (resolved : ResolvedJob) (start finish : Moment) : Prop :=
  ∃ began ended moments own recordTier, start ≤ began ∧ ended ≤ finish ∧
    Executes (· ≤ ·) site.Answers began (wires.handler (.resolve jobId))
      (.ok resolved) ended ∧
    ResolvedFrom (· ≤ ·) site.ledger wires.view jobId own recordTier resolved
      moments began ended ∧
    SettledByCommitment (moments.reads wires.view jobId own site.ledger)
      recordTier

/-- The input is the job's: the step resolved the job for this executor, and the
bytes that it posts a hash of were read whole from the drop. -/
structure InferenceBound (site : JobSite Moment) (wires : JobWires)
    (executor : JobExecutor) (fits : executor.jobId < 2 ^ 128)
    (resolved : ResolvedJob) (model : ProvisionedModel) (input : Bytes)
    (start finish : Moment) : Prop where
  resolves : ResolvedInStep site wires ⟨executor.jobId, fits⟩ resolved start
    finish
  executing : resolved.job.state = .executing
  mine : resolved.job.assignedProvider = executor.me
  bound : resolved.job.inputHash = some (keccak256Bytes input)
  delivered : Delivered site.drop (wires.source.path executor.jobId) input
    start finish
  provisioned : model.modelHash = resolved.job.modelHash ∧
    model.path = cacheFile executor.cacheDir resolved.job.modelHash

theorem infer_bound (pinned : ReadsPinned) (fits : executor.jobId < 2 ^ 128)
    {progress : JobProgress} {model : ProvisionedModel} {input : Bytes}
    {span : Moment × Moment}
    (issued : IssuedAt (Follows (· ≤ ·))
      (Handled (· ≤ ·) site.Answers wires.handler) (.infer model input) span
      (start, start) (executor.step progress)) :
    ∃ resolved, InferenceBound site wires executor fits resolved model input
      start span.1 := by
  obtain ⟨events, ⟨resolved, checked⟩, known⟩ :=
    issued.guarded (step_checkedFirst executor progress)
  rw [List.nil_append] at checked
  obtain ⟨reading, asked, read, readBefore⟩ := known _ checked.read
  obtain ⟨delivering, opened, delivered, deliveredBefore⟩ :=
    known _ checked.delivered
  have asked : start ≤ reading.1 := le_of_reaches (Follows.before asked.moves)
  have opened : start ≤ delivering.1 :=
    le_of_reaches (Follows.before opened.moves)
  have readBefore : reading.2 ≤ span.1 :=
    le_of_reaches (Follows.before readBefore)
  have deliveredBefore : delivering.2 ≤ span.1 :=
    le_of_reaches (Follows.before deliveredBefore)
  obtain ⟨moments, _, own, recordTier, from'⟩ :=
    resolve_reads le_refl (handler_resolve pinned fits read)
  have settled := from'.settledByCommitment rfl rfl checked.tier
  obtain ⟨earlier, provisioning, -, provisioned⟩ := checked.provisioned
  exact ⟨resolved,
    { resolves := ⟨reading.1, reading.2, moments, own, recordTier, asked,
        readBefore, read, from', settled⟩
      executing := checked.executing
      mine := checked.mine
      bound := checked.bound
      delivered := ((handler_inputFor delivered).since opened).until
        deliveredBefore
      provisioned := provision_model _ provisioned.returns model rfl }⟩

theorem InferenceBound.until {fits : executor.jobId < 2 ^ 128}
    {resolved : ResolvedJob} {model : ProvisionedModel} {input : Bytes}
    {later : Moment}
    (bound : InferenceBound site wires executor fits resolved model input start
      finish) (after : finish ≤ later) :
    InferenceBound site wires executor fits resolved model input start later :=
  { bound with
    resolves := by
      obtain ⟨began, ended, moments, own, recordTier, since, before, rest⟩ :=
        bound.resolves
      exact ⟨began, ended, moments, own, recordTier, since, before.trans after,
        rest⟩
    delivered := bound.delivered.until after }

/-- What is posted for a job: greedy decoding of its own input, as it was hashed
on chain, by a server that does not hold another model. -/
structure CompletionBound (site : JobSite Moment) (wires : JobWires)
    (executor : JobExecutor) (fits : executor.jobId < 2 ^ 128)
    (resolved : ResolvedJob) (model : ProvisionedModel) (input : Bytes)
    (url : String) (body : Json) (start finish : Moment) : Prop
    extends InferenceBound site wires executor fits resolved model input start
      finish where
  url : url = wires.server.completionUrl
  body : body = completionBody input
  plain : ∀ text : String, input = Utf8.encode text.toList →
    prompt input = text
  text : Utf8.replacement ∉ (prompt input).toList →
    resolved.job.inputHash =
      some (keccak256Bytes (Utf8.encode (prompt input).toList))
  serves : ∀ resident, wires.server.residentModelHash = some resident →
    resident = resolved.job.modelHash
  weights : ∃ seen, start ≤ seen ∧ seen ≤ finish ∧
    site.present seen (cacheFile executor.cacheDir resolved.job.modelHash) =
      true

/-- An exchange of an inference run is for the job's input. -/
theorem exchange_bound (pinned : ReadsPinned)
    (fits : executor.jobId < 2 ^ 128) {progress : JobProgress}
    {model : ProvisionedModel} {input : Bytes} {span : Moment × Moment}
    {url : String} {body : Json}
    (issued : IssuedAt (Follows (· ≤ ·))
      (Handled (· ≤ ·) site.Answers wires.handler) (.infer model input) span
      (start, start) (executor.step progress))
    (exchange : IssuedAt (· ≤ ·)
      (fun moment op => site.Answers moment (.http op)) (.post url body) finish
      span.1 (wires.server.runHttp wires.client.maxResponseBytes model
        input)) :
    ∃ resolved, CompletionBound site wires executor fits resolved model input
      url body start finish := by
  obtain ⟨resolved, bound⟩ := infer_bound pinned fits issued
  have after : start ≤ span.1 := le_of_reaches (Follows.before issued.moves)
  have before : span.1 ≤ finish := le_of_reaches exchange.moves.to_reflTransGen
  obtain ⟨isUrl, isBody, serves, seen, since, present, until'⟩ :=
    LlamaServerInference.runHttp_posts exchange
  obtain ⟨sameHash, samePath⟩ := bound.provisioned
  refine ⟨resolved, bound.until before, isUrl, isBody, ?_, ?_, ?_, seen,
    after.trans since, until', ?_⟩
  · rintro text rfl
    exact prompt_encode text
  · intro whole
    rw [encode_prompt whole]
    exact bound.bound
  · intro resident declared
    exact (serves resident declared).trans sameHash
  · rw [← samePath]
    exact present rfl

end Moments

def completionAnswer : Bytes := utf8 "\x7b\"content\":\"ok\"\x7d"

/-- A parser of the ledger's answers, and of one completion. -/
@[reducible] def completionWire : WireCrates where
  fromSlice bytes :=
    if bytes = completionAnswer then
      .ok (.object [("content", .string "ok")])
    else sampleWire.fromSlice bytes
  toText := sampleWire.toText
  statusText := sampleWire.statusText

theorem completionWire_fromSlice {bytes : Bytes} {value : Json}
    (read : sampleWire.fromSlice bytes = .ok value) :
    completionWire.fromSlice bytes = .ok value := by
  have refused : (sampleWire.fromSlice completionAnswer).toBool = false := by
    decide +kernel
  have other : bytes ≠ completionAnswer := by
    intro same
    rw [← same, read] at refused
    cases refused
  exact (if_neg other).trans read

theorem completionWire_truthful (ledger : Ledger) (request : Json) :
    @Ledger.Truthful completionWire ledger (.post request)
      (sampleRespond ledger request) := by
  intro response chunks value result answered delivered read noError found
  refine sampleRespond_truthful ledger request response chunks value result
    answered delivered ?_ noError found
  by_cases same : (chunks.map Subtype.val).flatten = completionAnswer
  · have content := (if_pos same).symm.trans read
    cases content
    cases found
  · exact (if_neg same).symm.trans read

theorem completionWire_answered {ledger : Ledger} {method : String}
    {params : Json}
    (answered : @Answered sampleWire servedClient ledger (sampleRespond ledger)
      method params) :
    @Answered completionWire servedClient ledger (sampleRespond ledger) method
      params := by
  intro id
  obtain ⟨response, body, value, result, ok, direct, delivers, under, inMemory,
    parsed, rest⟩ := answered id
  exact ⟨response, body, value, result, ok, direct, delivers, under, inMemory,
    completionWire_fromSlice parsed, rest⟩

theorem completionAnswer_small : completionAnswer.length ≤ isizeMax := by
  decide +kernel

def completionResponse : Response :=
  ⟨200, none, [.ok ⟨completionAnswer, completionAnswer_small⟩]⟩

/-- The text "hi". -/
def greeting : Bytes := [0x68, 0x69]

theorem greeting_small : greeting.length ≤ isizeMax := by decide

/-- Every file of the drop has the greeting. -/
def greetingDrop : InputDir Nat where
  maxInput := 1024
  entry _ _ := some (.file 0)
  regular _ := true
  content _ _ := greeting
  small _ _ := greeting_small

/-- A job whose input hash is that of the greeting. -/
def greetingTuple (jobId : U128) : JobTuple :=
  { servedTuple jobId with inputHash := (firstWord greeting).toList }

def greetingHeld : (call : ReadCall) → call.function.Held
  | .getJob jobId => greetingTuple jobId
  | call => servedHeld call

theorem greetingHeld_fits (call : ReadCall) :
    ∀ value ∈ call.function.integers (greetingHeld call), value < 2 ^ 128 := by
  cases call with
  | getJob jobId => exact servedTuple_fits jobId
  | _ => exact servedHeld_fits _

theorem greetingHeld_length (call : ReadCall) :
    (call.function.encode (greetingHeld call)).length ≤ 1024 := by
  cases call with
  | getJob jobId => exact tuple_length (List.Vector.toList_length _)
  | _ => exact servedHeld_length _

def greetingLedger : Ledger where
  head := 160
  timestamp := servedTimestamp
  held _ call := greetingHeld call
  encodable _ call :=
    { integers := fun value member =>
        (greetingHeld_fits call value member).trans (by decide)
      encoding := (greetingHeld_length call).trans_lt (by decide) }

theorem greetingLedger_answered (read : NodeRead) :
    @Answered completionWire servedClient greetingLedger
      (sampleRespond greetingLedger) read.method
      (@NodeRead.params readHashes read) :=
  completionWire_answered (bounded_answered
    (ledger_bounded (by decide +kernel) servedTimestamp_short
      fun _ => greetingHeld_length) read)

/-- Job 7 is executing, and the world stands still. -/
def inferringSite : JobSite Nat where
  ledger _ := greetingLedger
  drop := greetingDrop
  present _ _ := true
  responds _ _ _ answer := answer = .ok completionResponse

def inferringWires : JobWires where
  client := servedClient
  view := { sampleView with weightsSha256 := some (firstWord []) }
  source := ⟨"inputs"⟩
  server := ⟨"http://127.0.0.1:8080", some sampleJob.modelHash⟩

def inferringResolved : ResolvedJob :=
  (inferringWires.view.reads servedJob servedJob greetingLedger).resolved
    (some (firstWord []))

/-- The job view over the wire executes as it runs. -/
theorem inferring_resolves :
    Executes (· ≤ ·)
      (@JobSite.Answers Nat completionWire readHashes inferringSite) 0
      (@JobWires.handler completionWire readHashes inferringWires (.resolve 7))
      (.ok inferringResolved) 0 := by
  have possible : ∀ id op, @truthfulNode completionWire _ inferringSite.ledger 0
      op (wireHandle (sampleRespond greetingLedger) (fun _ => (0, 0)) id
        op).1 := by
    intro id op
    cases op with
    | estimate => trivial
    | rpc op =>
        cases op with
        | nextId => trivial
        | post request =>
            exact completionWire_truthful greetingLedger request
  have runs := Executes.of_runOn (le_refl 0) possible
    ((inferringWires.view.resolve 7).interp
      (@wire completionWire readHashes servedClient)) 1
  have resolved :
      (((inferringWires.view.resolve 7).interp
        (@wire completionWire readHashes servedClient)).runOn
          (wireHandle (sampleRespond greetingLedger) fun _ => (0, 0)) 1).1 =
        .ok inferringResolved := by
    rw [Program.runOn_interp]
    refine (@resolve_runs completionWire readHashes _ _ _ _ readHashes_pinned
      inferringWires.view servedJob (fun read _ => greetingLedger_answered read)
      1 _).mpr ⟨servedJob, rfl, ?_, rfl⟩
    exact ⟨servedTuple_fits servedJob, fun _ => blockFits, zeroFits⟩
  rw [resolved] at runs
  have performed {start world : Nat} {op : WireOp} {answer : WireAnswer op}
      (moved : start ≤ world)
      (answered : @truthfulNode completionWire _ inferringSite.ledger world op
        answer) :
      Executes (· ≤ ·)
        (@JobSite.Answers Nat completionWire readHashes inferringSite) start
        (Program.perform (SiteOp.wire op)) answer world :=
    executes_perform.mpr ⟨moved, answered⟩
  exact runs.interp performed

/-- The greeting is delivered whole. -/
theorem inferring_delivers :
    Executes (· ≤ ·)
      (@JobSite.Answers Nat completionWire readHashes inferringSite) 0
      (@JobWires.handler completionWire readHashes inferringWires (.inputFor 7))
      (.ok (some greeting)) 0 := by
  have operations : Executes (· ≤ ·) greetingDrop.Answers 0
      (inferringWires.source.inputFor 7) (.ok (some greeting)) 0 := by
    have ending : Executes (· ≤ ·) greetingDrop.Answers 0
        (readToEnd 0 1023 greeting) (.ok greeting) 0 := by
      rw [readToEnd, if_neg (by decide)]
      refine executes_call.mpr ⟨0, .ok [], le_refl 0, ?_, .done⟩
      intro bytes same
      cases same
      exact ⟨Nat.zero_le _, List.nil_prefix, fun _ => le_refl _⟩
    have reading : Executes (· ≤ ·) greetingDrop.Answers 0
        (readToEnd 0 (FixedWidth.saturatingAdd 64 1024 1) []) (.ok greeting)
        0 := by
      rw [readToEnd, if_neg (by decide)]
      refine executes_call.mpr ⟨0, .ok greeting, le_refl 0, ?_, ending⟩
      intro bytes same
      cases same
      exact ⟨by decide, List.prefix_rfl, by intro none; cases none⟩
    have opened : Executes (· ≤ ·) greetingDrop.Answers 0
        (readOpened (inferringWires.source.path 7) 1024 0)
        (.ok (some greeting)) 0 := by
      simp only [readOpened, Program.perform_bind]
      refine executes_call.mpr ⟨0, .ok ⟨true, 2⟩, le_refl 0, ?_, ?_⟩
      · intro found same
        cases same
        exact ⟨rfl, fun _ => rfl⟩
      · exact (executes_bind _ _).mpr ⟨.ok greeting, 0, reading, .done⟩
    simp only [FileInputSource.inputFor, Program.perform_bind]
    refine executes_call.mpr ⟨0, (1024 : Nat), le_refl 0, rfl, ?_⟩
    refine (executes_bind _ _).mpr ⟨.ok (some greeting), 0, ?_, .done⟩
    simp only [readCappedRegularFile, Program.perform_bind]
    exact executes_call.mpr ⟨0, .ok 0, le_refl 0, rfl, opened⟩
  have performed {start world : Nat} {op : InputOp} {answer : InputAnswer op}
      (moved : start ≤ world) (answered : greetingDrop.Answers world op answer) :
      Executes (· ≤ ·)
        (@JobSite.Answers Nat completionWire readHashes inferringSite) start
        (Program.perform (SiteOp.input op)) answer world :=
    executes_perform.mpr ⟨moved, answered⟩
  exact operations.interp performed

def inferringProgress : JobProgress :=
  { JobProgress.fresh with committed := true }

theorem inferring_input :
    Executes (· ≤ ·)
      (@JobSite.Answers Nat completionWire readHashes inferringSite) 0
      ((@JobExecutor.jobInput readHashes revealingExecutor inferringResolved
        inferringProgress).interp
          (@JobWires.handler completionWire readHashes inferringWires))
      (.ok greeting) 0 := by
  have bound : inferringResolved.job.inputHash =
      some (@keccak256Bytes readHashes greeting) := by
    decide +kernel
  unfold JobExecutor.jobInput
  rw [if_pos ⟨rfl, rfl⟩]
  refine (executes_bind _ _).mpr ⟨.ok (some greeting), 0, inferring_delivers, ?_⟩
  simp only [bound]
  exact .done

def inferringModel : ProvisionedModel where
  modelHash := sampleJob.modelHash
  path := cacheFile revealingExecutor.cacheDir sampleJob.modelHash
  bytesLen := 0
  integrity := .sha256Verified

theorem inferring_provisions :
    Executes (· ≤ ·)
      (@JobSite.Answers Nat completionWire readHashes inferringSite) 0
      ((@provisionModel readHashes
        (revealingExecutor.context inferringResolved greeting)).interp
          (@JobWires.handler completionWire readHashes inferringWires))
      (.ok inferringModel) 0 := by
  obtain ⟨-, grammar, nonempty⟩ := sampleCid_accepted
  have asked : @provisionModel readHashes
      (revealingExecutor.context inferringResolved greeting) =
        (@provision readHashes sampleJob.modelHash sampleResolved.ipfsCid true
          none (some (firstWord [])) revealingExecutor.cacheDir).interp
            fun op => Program.perform (StepOp.provision op) := by
    have cid : (revealingExecutor.context inferringResolved greeting).ipfsCid =
        sampleResolved.ipfsCid := rfl
    simp only [provisionModel, cid]
    rfl
  rw [asked]
  simp only [provision, nonempty, grammar, integrityCommitment, Bool.not_true,
    Bool.false_eq_true, if_false, Program.perform_bind]
  refine executes_call.mpr ⟨0, some [], le_refl 0, trivial, ?_⟩
  have verified : @sha256Digest readHashes [] = firstWord [] := rfl
  simp only [Program.bind, Option.all_none, verified, and_self, if_true]
  exact .done

theorem inferring_loaded :
    inferringWires.server.residentModelHash.filter
      (fun expected => expected ≠ inferringModel.modelHash) = none := by
  simp [inferringWires, inferringModel]

theorem inferring_exchange :
    IssuedAt (· ≤ ·)
      (@JobSite.Answers Nat completionWire readHashes inferringSite)
      (.http (.post inferringWires.server.completionUrl (completionBody greeting)))
      0 0 (@JobWires.handler completionWire readHashes inferringWires
        (.infer inferringModel greeting)) := by
  simp only [JobWires.handler]
  rw [@LlamaServerInference.runHttp_eq completionWire]
  refine .later true (le_refl 0) (fun _ => rfl) ?_
  simp only [inferring_loaded]
  exact .here (le_refl 0)

theorem inferring_completes :
    Executes (· ≤ ·)
      (@JobSite.Answers Nat completionWire readHashes inferringSite) 0
      (@JobWires.handler completionWire readHashes inferringWires
        (.infer inferringModel greeting))
      (.ok (Utf8.encode ['o', 'k'])) 0 := by
  have content : @completed completionWire servedClient.maxResponseBytes
      (.ok completionResponse) = .ok (Utf8.encode ['o', 'k']) := by
    decide +kernel
  simp only [JobWires.handler]
  rw [@LlamaServerInference.runHttp_eq completionWire]
  refine executes_call.mpr ⟨0, true, le_refl 0, fun _ => rfl, ?_⟩
  simp only [inferring_loaded]
  refine executes_call.mpr ⟨0, .ok completionResponse, le_refl 0, rfl, ?_⟩
  have returned := congrArg (Except.mapError InferenceError.backend) content
  exact executes_done.mpr ⟨returned, rfl⟩

theorem inferring_step :
    ∃ rest, @JobExecutor.stepResolved readHashes revealingExecutor
        inferringResolved JobProgress.fresh =
      (@JobExecutor.jobInput readHashes revealingExecutor inferringResolved
        inferringProgress).bind rest ∧
      rest (.ok greeting) = (@driveJob readHashes
        (revealingExecutor.context inferringResolved greeting) inferringProgress
        revealingExecutor.nonce).bind fun result =>
          revealingExecutor.persist result.1 result.2 := by
  have mine : ¬inferringResolved.job.assignedProvider ≠
      revealingExecutor.me := not_not.mpr rfl
  unfold JobExecutor.stepResolved
  rw [if_neg mine]
  exact ⟨_, rfl, rfl⟩

theorem inferring_plan :
    @plan readHashes (planInput
      (revealingExecutor.context inferringResolved greeting) inferringProgress) =
        .runInference := by
  decide +kernel

theorem inferring_short :
    ¬(revealingExecutor.context inferringResolved greeting).input.length > 1024 := by
  decide

theorem inferring_accepted :
    validateCid (revealingExecutor.context inferringResolved greeting).ipfsCid =
      .ok () :=
  sampleCid_accepted.1

theorem inferring_posts :
    IssuedAt (· ≤ ·)
      (@JobSite.Answers Nat completionWire readHashes inferringSite)
      (.http (.post inferringWires.server.completionUrl (completionBody greeting)))
      0 0 ((@JobExecutor.step readHashes revealingExecutor
        JobProgress.fresh).interp
          (@JobWires.handler completionWire readHashes inferringWires)) := by
  obtain ⟨rest, stepped, drives⟩ := inferring_step
  refine IssuedAt.bind inferring_resolves ?_
  change IssuedAt _ _ _ _ _ (Program.interp _
    (@JobExecutor.stepResolved readHashes revealingExecutor inferringResolved
      JobProgress.fresh))
  rw [stepped, Program.interp_bind]
  refine IssuedAt.bind inferring_input ?_
  rw [drives, Program.interp_bind]
  apply IssuedAt.left
  simp only [driveJob, inferring_plan, runInference, Program.perform_bind]
  refine .later () (le_refl 0) trivial ?_
  refine .later (1024 : Nat) (le_refl 0) rfl ?_
  simp only [Program.bind]
  rw [if_neg inferring_short]
  simp only [inferring_accepted, infer]
  change IssuedAt _ _ _ _ _ (Program.interp _ (Program.bind _ _))
  rw [Program.interp_bind]
  refine IssuedAt.bind inferring_provisions ?_
  exact IssuedAt.left inferring_exchange

def inferredProgress : JobProgress where
  committed := true
  nonce := some revealingExecutor.nonce
  artifacts := some (@CommitmentProver.build readHashes
    (Utf8.encode ['o', 'k']) revealingExecutor.nonce)

theorem inferring_runs :
    Executes (· ≤ ·)
      (@JobSite.Answers Nat completionWire readHashes inferringSite) 0
      ((@JobExecutor.step readHashes revealingExecutor
        JobProgress.fresh).interp
          (@JobWires.handler completionWire readHashes inferringWires))
      (.ranInference, inferredProgress) 0 := by
  obtain ⟨rest, stepped, drives⟩ := inferring_step
  refine (executes_bind _ _).mpr
    ⟨.ok inferringResolved, 0, inferring_resolves, ?_⟩
  change Executes _ _ _ (Program.interp _
    (@JobExecutor.stepResolved readHashes revealingExecutor inferringResolved
      JobProgress.fresh)) _ _
  rw [stepped, Program.interp_bind]
  refine (executes_bind _ _).mpr ⟨.ok greeting, 0, inferring_input, ?_⟩
  rw [drives, Program.interp_bind]
  refine (executes_bind _ _).mpr
    ⟨(.ranInference, inferredProgress), 0, ?_, .done⟩
  simp only [driveJob, inferring_plan, runInference, Program.perform_bind]
  refine executes_call.mpr ⟨0, (), le_refl 0, trivial, ?_⟩
  refine executes_call.mpr ⟨0, (1024 : Nat), le_refl 0, rfl, ?_⟩
  simp only [Program.bind]
  rw [if_neg inferring_short]
  simp only [inferring_accepted, infer]
  change Executes _ _ _ (Program.interp _ (Program.bind _ _)) _ _
  rw [Program.interp_bind]
  refine (executes_bind _ _).mpr
    ⟨.ok inferringModel, 0, inferring_provisions, ?_⟩
  refine (executes_bind _ _).mpr
    ⟨.ok (Utf8.encode ['o', 'k']), 0, inferring_completes, ?_⟩
  refine executes_call.mpr ⟨0, (1 : Nat), le_refl 0, trivial, ?_⟩
  exact executes_call.mpr ⟨0, (), le_refl 0, trivial, .done⟩

end NodeAgent.Node
