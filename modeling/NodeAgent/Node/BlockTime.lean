import NodeAgent.Bidder.Exact
import NodeAgent.Chainio.Rpc
import NodeAgent.Node.Bridge
import NodeAgent.Node.ServedViews

/-!
# The deadline in seconds

The bidder counts the blocks that are left in seconds of the sampled block
time.  The estimate is safe as long as it is not above the measured average.
-/

namespace NodeAgent.Node

open Bidder Chainio Interaction Parsing

variable {Error : Type}

/-- No estimate that is made with this block time is above the measured one:
`sample` blocks took `elapsed` seconds. -/
structure Conservative (sample elapsed secsPerBlock : Nat) : Prop where
  rate : secsPerBlock * sample ≤ elapsed
  deadline : ∀ job currentBlock pflopHours execSecs,
    (mapJob job currentBlock secsPerBlock pflopHours
        execSecs).secsUntilDeadline * sample ≤
      (job.executionDeadlineBlock - currentBlock) * elapsed
  bids : ∀ job currentBlock pflopHours execSecs oracle settings caps jobId
      priceWei costWei,
    evaluate (mapJob job currentBlock secsPerBlock pflopHours execSecs) oracle
        settings caps = .bid jobId priceWei costWei →
      2 * execSecs * sample ≤
        (job.executionDeadlineBlock - currentBlock) * elapsed

theorem secsUntilDeadline_le (job : Chainio.Job) (currentBlock secsPerBlock
    pflopHours execSecs : Nat) :
    (mapJob job currentBlock secsPerBlock pflopHours
        execSecs).secsUntilDeadline ≤
      (job.executionDeadlineBlock - currentBlock) * secsPerBlock :=
  calc
    _ ≤ FixedWidth.narrow 64 (job.executionDeadlineBlock - currentBlock) *
        secsPerBlock := FixedWidth.saturatingMul_le _ _ _
    _ ≤ _ := Nat.mul_le_mul_right _ (FixedWidth.narrow_le _ _)

theorem Conservative.of_rate {sample elapsed secsPerBlock : Nat}
    (rate : secsPerBlock * sample ≤ elapsed) :
    Conservative sample elapsed secsPerBlock := by
  have deadline (job : Chainio.Job) (currentBlock pflopHours execSecs : Nat) :
      (mapJob job currentBlock secsPerBlock pflopHours
          execSecs).secsUntilDeadline * sample ≤
        (job.executionDeadlineBlock - currentBlock) * elapsed :=
    calc
      _ ≤ (job.executionDeadlineBlock - currentBlock) * secsPerBlock *
          sample := Nat.mul_le_mul_right _ (secsUntilDeadline_le _ _ _ _ _)
      _ = (job.executionDeadlineBlock - currentBlock) *
          (secsPerBlock * sample) := Nat.mul_assoc _ _ _
      _ ≤ _ := Nat.mul_le_mul_left _ rate
  refine ⟨rate, deadline, ?_⟩
  intro job currentBlock pflopHours execSecs oracle settings caps jobId
    priceWei costWei decided
  rw [evaluate_bid_iff] at decided
  have required : execSecs * 2 ≤ (mapJob job currentBlock secsPerBlock
      pflopHours execSecs).secsUntilDeadline := decided.2.deadline
  calc
    _ = execSecs * 2 * sample := by rw [Nat.mul_comm 2]
    _ ≤ _ := Nat.mul_le_mul_right _ required
    _ ≤ _ := deadline job currentBlock pflopHours execSecs

/-- Rounded down the average is safe, and the least block time of a second is
safe as long as blocks take a second. -/
theorem clamped_rate_iff {sample elapsed : Nat} :
    max (elapsed / sample) 1 * sample ≤ elapsed ↔ sample ≤ elapsed := by
  constructor
  · intro rate
    calc
      sample = 1 * sample := (Nat.one_mul _).symm
      _ ≤ max (elapsed / sample) 1 * sample :=
        Nat.mul_le_mul_right _ (le_max_right _ _)
      _ ≤ elapsed := rate
  · intro slow
    rcases max_choice (elapsed / sample) 1 with average | second
    · rw [average]
      exact Nat.div_mul_le_self elapsed sample
    · rw [second, Nat.one_mul]
      exact slow

/-- The division is never by zero, and the estimate is conservative exactly on
chains whose blocks take at least a second on average. -/
theorem secsPerBlock_conservative_iff
    {answers : (read : ChainRead) → ChainAnswer Error read} {sample : Nat}
    {head tHead tPrev : UInt64}
    (sampled : Sampled answers sample head tHead tPrev) :
    (secsPerBlock sample : Program ChainRead (ChainAnswer Error) _).Ensures
        (· ≠ none) ∧
      ∃ secs, secsPerBlockOn answers sample = some (.ok (some secs)) ∧
        (Conservative sample (tHead.toNat - tPrev.toNat) secs ↔
          sample ≤ tHead.toNat - tPrev.toNat) := by
  refine ⟨secsPerBlock_defined sample, _, sampled.secsPerBlockOn, ?_⟩
  rw [← clamped_rate_iff]
  exact ⟨Conservative.rate, Conservative.of_rate⟩

/-- A chain at block 100 whose latest blocks took `elapsed` seconds. -/
def sampledChain (elapsed : UInt64) :
    (read : ChainRead) → ChainAnswer Unit read
  | .ethBlockNumber => .ok 100
  | .ethBlockTimestamp block =>
      .ok (if block = 100 then 1000 + elapsed else 1000)

/-- Twenty blocks in a minute. -/
theorem secsPerBlock_slow :
    (secsPerBlock 20 : Program ChainRead (ChainAnswer Unit) _).Ensures
        (· ≠ none) ∧
      ∃ secs, secsPerBlockOn (sampledChain 60) 20 = some (.ok (some secs)) ∧
        (Conservative 20 60 secs ↔ 20 ≤ 60) :=
  secsPerBlock_conservative_iff
    (show Sampled (sampledChain 60) 20 100 1060 1000 from
      ⟨by decide, by decide, rfl, rfl, rfl, by decide⟩)

/-- Twenty blocks in five seconds: the clamped block time of a second is four
times the average. -/
theorem secsPerBlock_fast :
    ¬∀ (answers : (read : ChainRead) → ChainAnswer Unit read) sample head
        tHead tPrev secs, Sampled answers sample head tHead tPrev →
      secsPerBlockOn answers sample = some (.ok (some secs)) →
        Conservative sample (tHead.toNat - tPrev.toNat) secs := by
  intro conservative
  have sampled : Sampled (sampledChain 5) 20 100 1005 1000 :=
    ⟨by decide, by decide, rfl, rfl, rfl, by decide⟩
  have fast := conservative (sampledChain 5) 20 100 1005 1000 1 sampled
    sampled.secsPerBlockOn
  exact absurd fast.rate (by decide)

/-- `bridge::DEFAULT_SECS_PER_BLOCK`. -/
def defaultSecsPerBlock : Nat := 2

/-- Blocks to sample when deriving seconds per block. -/
def secsPerBlockSample : Nat := 20

section Client

variable [WireCrates] (client : RpcClient)

/-- The exchange behind a read. -/
def wireChain : (read : ChainRead) → RpcProgram (ChainAnswer RpcError read)
  | .ethBlockNumber => do
      return (← client.ethBlockNumber).map UInt64.ofNat
  | .ethBlockTimestamp block => do
      return (← client.ethBlockTimestamp block).map UInt64.ofNat

/-- The sampled block time, or the default; `none` is a panic. -/
def deriveSecsPerBlock : RpcProgram (Option Nat) := do
  match ← (secsPerBlock secsPerBlockSample).interp (wireChain client) with
  | none => return none
  | some (.ok (some secs)) => return some secs
  | some (.ok none) | some (.error _) => return some defaultSecsPerBlock

end Client

/-- Blocks are only appended. -/
structure Extends (before after : Ledger) : Prop where
  head : before.head.toNat ≤ after.head.toNat
  block : ∀ number timestamp, before.timestamp number = some timestamp →
    after.timestamp number = some timestamp

theorem Extends.refl (ledger : Ledger) : Extends ledger ledger :=
  ⟨Nat.le_refl _, fun _ _ => id⟩

theorem Extends.trans ⦃first second third : Ledger⦄
    (before : Extends first second) (after : Extends second third) :
    Extends first third where
  head := before.head.trans after.head
  block number timestamp known :=
    after.block number timestamp (before.block number timestamp known)

/-- The average time of the latest blocks below a head, in whole seconds and at
least one. -/
def Measured (ledger : Ledger) (sample head secs : Nat) : Prop :=
  ∃ tHead tPrev : UInt64,
    sample ≤ head ∧ ledger.timestamp head = some tHead ∧
      ledger.timestamp (head - sample) = some tPrev ∧
      tPrev.toNat < tHead.toNat ∧
      secs = max ((tHead.toNat - tPrev.toNat) / sample) 1

section Wire

variable [WireCrates] {client : RpcClient} {start finish : Ledger}

/-- A value that is read is the ledger's own. -/
def blockAnswers (ledger : Ledger) :
    (read : ChainRead) → ChainAnswer RpcError read → Prop
  | .ethBlockNumber, answer => ∀ head, answer = .ok head → head = ledger.head
  | .ethBlockTimestamp block, answer =>
      ∀ timestamp, answer = .ok timestamp →
        ledger.timestamp block = some timestamp

theorem wireChain_answers {read : ChainRead}
    {answer : ChainAnswer RpcError read}
    (execution : Executes Extends Ledger.Truthful start (wireChain client read)
      answer finish) :
    Extends start finish ∧ blockAnswers finish read answer := by
  refine ⟨execution.evolved Extends.refl Extends.trans, ?_⟩
  cases read with
  | ethBlockNumber =>
      rintro head rfl
      obtain ⟨result, exchanged, read⟩ := executes_return.mp execution
      obtain ⟨number, rfl, rfl⟩ := map_eq_ok.mp read
      rw [executes_blockNumber Extends.trans exchanged, UInt64.ofNat_toNat]
  | ethBlockTimestamp block =>
      rintro timestamp rfl
      obtain ⟨result, exchanged, read⟩ := executes_return.mp execution
      obtain ⟨number, rfl, rfl⟩ := map_eq_ok.mp read
      have known := executes_blockTimestamp Extends.trans exchanged
      obtain ⟨here, found, rfl⟩ := Option.map_eq_some_iff.mp known
      rw [found, UInt64.ofNat_toNat]

end Wire

/-- The three reads see one chain that grows. -/
theorem secsPerBlock_measured {start finish : Ledger} {sample : Nat}
    {derived : Option (Except RpcError (Option Nat))}
    (execution : Executes Extends blockAnswers start (secsPerBlock sample)
      derived finish) :
    ∃ result, derived = some result ∧
      ∀ secs, result = .ok (some secs) →
        ∃ head, start.head.toNat ≤ head ∧ head ≤ finish.head.toNat ∧
          Measured finish sample head secs := by
  rw [secsPerBlock] at execution
  split at execution
  · obtain ⟨rfl, -⟩ := executes_done.mp execution
    refine ⟨_, rfl, ?_⟩
    intro secs same
    cases same
  next sampling =>
  simp only [Program.perform_bind] at execution
  obtain ⟨first, latest, begun, newest, execution⟩ :=
    executes_call.mp execution
  cases latest with
  | error error =>
      obtain ⟨rfl, -⟩ := executes_done.mp execution
      refine ⟨_, rfl, ?_⟩
      intro secs same
      cases same
  | ok head =>
  obtain rfl := newest head rfl
  dsimp only at execution
  split at execution
  · obtain ⟨rfl, -⟩ := executes_done.mp execution
    refine ⟨_, rfl, ?_⟩
    intro secs same
    cases same
  next enough =>
  obtain ⟨second, newer, secondMoved, atHead, execution⟩ :=
    executes_call.mp execution
  cases newer with
  | error error =>
      obtain ⟨rfl, -⟩ := executes_done.mp execution
      refine ⟨_, rfl, ?_⟩
      intro secs same
      cases same
  | ok tHead =>
  obtain ⟨third, older, thirdMoved, before, execution⟩ :=
    executes_call.mp execution
  cases older with
  | error error =>
      obtain ⟨rfl, -⟩ := executes_done.mp execution
      refine ⟨_, rfl, ?_⟩
      intro secs same
      cases same
  | ok tPrev =>
  dsimp only at execution
  split at execution
  · obtain ⟨rfl, -⟩ := executes_done.mp execution
    refine ⟨_, rfl, ?_⟩
    intro secs same
    cases same
  next advances =>
  rw [divide_narrow (Nat.pos_of_ne_zero sampling) (not_lt.mp enough)]
    at execution
  obtain ⟨rfl, rfl⟩ := executes_done.mp execution
  refine ⟨_, rfl, ?_⟩
  rintro secs ⟨⟩
  -- both timestamps are still the blocks' own when the last one is read
  exact ⟨first.head.toNat, begun.head, (secondMoved.trans thirdMoved).head,
    tHead, tPrev, not_lt.mp enough, thirdMoved.block _ _ (atHead tHead rfl),
    before tPrev rfl, not_le.mp advances, rfl⟩

/-- Whatever fails and whichever blocks arrive meanwhile, the agent goes on with
the default, or with the average below one head that it saw. -/
theorem deriveSecsPerBlock_measured [WireCrates] {client : RpcClient}
    {start finish : Ledger} {result : Option Nat}
    (execution : Executes Extends Ledger.Truthful start
      (deriveSecsPerBlock client) result finish) :
    ∃ secs, result = some secs ∧
      (secs = defaultSecsPerBlock ∨
        ∃ head, start.head.toNat ≤ head ∧ head ≤ finish.head.toNat ∧
          Measured finish secsPerBlockSample head secs) := by
  obtain ⟨derived, middle, execution, chosen⟩ :=
    (executes_bind _ _).mp execution
  obtain ⟨answer, rfl, measured⟩ :=
    secsPerBlock_measured (execution.of_interp wireChain_answers)
  cases answer with
  | error error =>
      obtain ⟨rfl, rfl⟩ := executes_done.mp chosen
      exact ⟨_, rfl, Or.inl rfl⟩
  | ok average =>
      cases average with
      | none =>
          obtain ⟨rfl, rfl⟩ := executes_done.mp chosen
          exact ⟨_, rfl, Or.inl rfl⟩
      | some secs =>
          obtain ⟨rfl, rfl⟩ := executes_done.mp chosen
          exact ⟨secs, rfl, Or.inr (measured secs rfl)⟩

theorem servedSecsPerBlock_executes :
    Executes Extends (@Ledger.Truthful sampleWire) (servedLedger 160)
      (@deriveSecsPerBlock sampleWire servedClient) (some 3)
      (servedLedger 160) := by
  let handle := nodeHandle (sampleRespond (servedLedger 160))
  have possible : ∀ id op, @Ledger.Truthful sampleWire (servedLedger 160) op
      (handle id op).1 := by
    intro id op
    cases op with
    | nextId => trivial
    | post request => exact sampleRespond_truthful (servedLedger 160) request
  have head (id : UInt64) :
      (@wireChain sampleWire servedClient .ethBlockNumber).runOn handle id =
        (.ok 160, id + 1) := by
    have read := @runOn_blockNumber sampleWire _ _ _
      (servedLedger_answered .head) id
    refine (Program.runOn_bind handle _ _ id).trans ?_
    rw [read]
    rfl
  have timestamp (block : Nat) (timestamp : UInt64)
      (known : servedTimestamp block = some timestamp) (id : UInt64) :
      (@wireChain sampleWire servedClient (.ethBlockTimestamp block)).runOn
        handle id = (.ok timestamp, id + 1) := by
    have read := @runOn_blockTimestamp sampleWire _ _ _ _ _
      (servedLedger_answered (.block block)) known id
    refine (Program.runOn_bind handle _ _ id).trans ?_
    rw [read]
    exact congrArg (fun value => (Except.ok value, id + 1))
      UInt64.ofNat_toNat
  have runs := Executes.of_runOn (Extends.refl _) possible
    (@deriveSecsPerBlock sampleWire servedClient) 1
  have derived : ((@deriveSecsPerBlock sampleWire servedClient).runOn handle
      1).1 = some 3 := by
    refine (congrArg Prod.fst (Program.runOn_bind handle _ _ 1)).trans ?_
    have sampled : (((secsPerBlock secsPerBlockSample).interp
        (@wireChain sampleWire servedClient)).runOn handle 1).1 =
          some (.ok (some 3)) := by
      rw [Program.runOn_interp, secsPerBlock, if_neg (by decide)]
      simp only [Program.perform_bind, Program.runOn_call, head]
      rw [if_neg (by decide)]
      simp only [Program.runOn_call]
      rw [timestamp (UInt64.toNat 160) 1480 rfl]
      simp only [Program.runOn_call]
      rw [timestamp (UInt64.toNat 160 - secsPerBlockSample) 1420 rfl]
      rfl
    rw [sampled]
    rfl
  rw [derived] at runs
  exact runs

theorem deriveSecsPerBlock_measured_served :
    ∃ secs, some 3 = some secs ∧
      (secs = defaultSecsPerBlock ∨
        ∃ head, (servedLedger 160).head.toNat ≤ head ∧
          head ≤ (servedLedger 160).head.toNat ∧
          Measured (servedLedger 160) secsPerBlockSample head secs) :=
  @deriveSecsPerBlock_measured sampleWire _ _ _ _ servedSecsPerBlock_executes

end NodeAgent.Node
