import NodeAgent.Node.Narrowing
import NodeAgent.Node.ServedViews

/-!
# Views of a chain that moves

A view is read value by value while the chain moves, so each of its values is
the ledger's at a moment of its own.
-/

namespace NodeAgent.Node

open Chainio Interaction Lifecycle

section Worlds

variable {World : Type} {evolves : World → World → Prop}
  {ledger : World → Ledger} {start finish : World}

/-- When a market view has read its values. -/
structure MarketMoments (World : Type) where
  profile : World
  price : World
  stale : World
  job : World
  head : World

namespace MarketMoments

/-- The moments follow each other, between these two. -/
structure Within (evolves : World → World → Prop)
    (moments : MarketMoments World) (start finish : World) : Prop where
  profile : evolves start moments.profile
  price : evolves moments.profile moments.price
  stale : evolves moments.price moments.stale
  job : evolves moments.stale moments.job
  head : evolves moments.job moments.head
  last : evolves moments.head finish

theorem Within.weaken {moments : MarketMoments World} {first last : World}
    (transitive : ∀ ⦃first second third⦄,
      evolves first second → evolves second third → evolves first third)
    (within : moments.Within evolves start finish)
    (before : evolves first start) (after : evolves finish last) :
    moments.Within evolves first last :=
  { within with
    profile := transitive before within.profile
    last := transitive within.last after }

/-- The market view, each value of it from its own moment. -/
def reads (moments : MarketMoments World) (view : LiveMarketView)
    (jobId : U128) (ledger : World → Ledger) : MarketReads where
  profile :=
    (ledger moments.profile).held view.marketplace (.getProvider view.provider)
  price := (ledger moments.price).held view.oracle .saltPerPflopHour
  stale := (ledger moments.stale).held view.oracle .isPriceStale
  job := (ledger moments.job).held view.marketplace (.getJob jobId)
  head := (ledger moments.head).head

end MarketMoments

/-- What was read of the market, before any cast. -/
def MarketReads.chainView (reads : MarketReads) (secsPerBlock : Nat)
    (estimate : Nat × Nat) : ChainView where
  profile := reads.profile
  job := reads.job.record
  head := reads.head.toNat
  secsPerBlock := secsPerBlock
  pflopHours := estimate.1
  execSecs := estimate.2
  oracle := { saltPerPflopHourWei := reads.price, stale := reads.stale }

/-- The snapshot of a refresh is that of the ledger's values, each at a moment
of the refresh. -/
theorem refresh_reads {view : LiveMarketView} {snapshot : MarketSnapshot}
    (execution : Executes evolves (ledgerAnswers ledger) start view.refresh
      (.ok snapshot) finish) :
    ∃ (moments : MarketMoments World) (fits : view.jobId < 2 ^ 128)
      (estimate : Nat × Nat), moments.Within evolves start finish ∧
        snapshot = ((moments.reads view ⟨view.jobId, fits⟩ ledger).chainView
          view.secsPerBlock estimate).snapshot := by
  unfold LiveMarketView.refresh at execution
  obtain ⟨profile, profileAt, first, execution⟩ := executes_attempt execution
  obtain ⟨price, priceAt, second, execution⟩ := executes_attempt execution
  obtain ⟨stale, staleAt, third, execution⟩ := executes_attempt execution
  obtain ⟨job, jobAt, fourth, execution⟩ := executes_attempt execution
  obtain ⟨head, headAt, fifth, execution⟩ := executes_attempt execution
  obtain ⟨began, profileHeld⟩ := executes_perform.mp first
  obtain ⟨priced, priceHeld⟩ := executes_perform.mp second
  obtain ⟨checked, staleHeld⟩ := executes_perform.mp third
  obtain ⟨found, jobHeld⟩ := executes_perform.mp fourth
  obtain ⟨moved, headHeld⟩ := executes_perform.mp fifth
  simp only [Program.perform_bind] at execution
  obtain ⟨estimated, estimate, last, -, done⟩ := executes_call.mp execution
  obtain ⟨same, rfl⟩ := executes_done.mp done
  obtain rfl := profileHeld profile rfl
  obtain rfl := priceHeld price rfl
  obtain rfl := staleHeld stale rfl
  obtain ⟨-, fits, rfl⟩ := jobHeld job rfl
  obtain rfl := headHeld head rfl
  exact ⟨⟨profileAt, priceAt, staleAt, jobAt, headAt⟩, fits, estimate,
    ⟨began, priced, checked, found, moved, last⟩, (Except.ok.inj same).symm⟩

/-- When a job view has read its values. -/
structure JobMoments (World : Type) where
  job : World
  model : World
  head : World
  submitted : World
  tier : World
  commitmentBlock : World
  verifiedAt : World
  disputeResolved : World

namespace JobMoments

/-- The moments follow each other, between these two. -/
structure Within (evolves : World → World → Prop) (moments : JobMoments World)
    (start finish : World) : Prop where
  job : evolves start moments.job
  model : evolves moments.job moments.model
  head : evolves moments.model moments.head
  submitted : evolves moments.head moments.submitted
  tier : evolves moments.submitted moments.tier
  commitmentBlock : evolves moments.tier moments.commitmentBlock
  verifiedAt : evolves moments.commitmentBlock moments.verifiedAt
  disputeResolved : evolves moments.verifiedAt moments.disputeResolved
  last : evolves moments.disputeResolved finish

theorem Within.weaken {moments : JobMoments World} {first last : World}
    (transitive : ∀ ⦃first second third⦄,
      evolves first second → evolves second third → evolves first third)
    (within : moments.Within evolves start finish)
    (before : evolves first start) (after : evolves finish last) :
    moments.Within evolves first last :=
  { within with
    job := transitive before within.job
    last := transitive within.last after }

/-- The job view, each value of it from its own moment. -/
def reads (moments : JobMoments World) (view : LiveJobView) (jobId own : U128)
    (ledger : World → Ledger) : JobReads where
  job := (ledger moments.job).held view.marketplace (.getJob jobId)
  model := (ledger moments.model).held view.modelRegistry (.getModel
    (JobTuple.modelHash
      ((ledger moments.job).held view.marketplace (.getJob jobId))))
  head := (ledger moments.head).head
  committed := VerificationRecord.commitmentSubmitted
    ((ledger moments.submitted).held view.verifier (.getRecord jobId))
  recordTier := VerificationRecord.tier
    ((ledger moments.tier).held view.verifier (.getRecord own))
  commitmentBlock :=
    (ledger moments.commitmentBlock).held view.verifier (.commitmentBlock own)
  resultVerifiedAt :=
    (ledger moments.verifiedAt).held view.marketplace (.resultVerifiedAt own)
  disputeResolved :=
    (ledger moments.disputeResolved).held view.marketplace
      (.disputeResolvedForProvider own)

end JobMoments

/-- A job view with another tier in its gates. -/
def ResolvedJob.withTier (resolved : ResolvedJob)
    (recordTier : Option VerificationTier) : ResolvedJob :=
  { resolved with
    gates := { resolved.gates with effectiveTier := recordTier } }

/-- The job was resolved to the ledger's values, each at its own moment.  The
record and the gates are those of the id in the job; only the tier of the record
may be missing. -/
structure ResolvedFrom (evolves : World → World → Prop)
    (ledger : World → Ledger) (view : LiveJobView) (jobId own : U128)
    (recordTier : Option VerificationTier) (resolved : ResolvedJob)
    (moments : JobMoments World) (start finish : World) : Prop where
  within : moments.Within evolves start finish
  ownId : own.val =
    JobTuple.id ((ledger moments.job).held view.marketplace (.getJob jobId))
  tier : recordTier = none ∨
    recordTier = some (moments.reads view jobId own ledger).recordTier
  values : resolved =
    ((moments.reads view jobId own ledger).resolved
      view.weightsSha256).withTier recordTier

theorem ResolvedFrom.weaken {view : LiveJobView} {jobId own : U128}
    {recordTier : Option VerificationTier} {resolved : ResolvedJob}
    {moments : JobMoments World} {first last : World}
    (transitive : ∀ ⦃first second third⦄,
      evolves first second → evolves second third → evolves first third)
    (here : ResolvedFrom evolves ledger view jobId own recordTier resolved
      moments start finish)
    (before : evolves first start) (after : evolves finish last) :
    ResolvedFrom evolves ledger view jobId own recordTier resolved moments first
      last :=
  { here with within := here.within.weaken transitive before after }

theorem executes_commitmentBlock (reflexive : ∀ world, evolves world world)
    {verifier : Address} {own : U128} {committed : Bool} {block : Nat}
    (execution : Executes evolves (ledgerAnswers ledger) start
      (if committed then
        Program.perform (LiveRead.commitmentBlock verifier own)
      else return .ok 0) (.ok block) finish) :
    evolves start finish ∧
      block = if committed then
        (ledger finish).held verifier (.commitmentBlock own) else (0 : Nat) := by
  cases committed with
  | true =>
      obtain ⟨moved, held⟩ := executes_perform.mp execution
      obtain ⟨_, rfl⟩ := held block rfl
      exact ⟨moved, rfl⟩
  | false =>
      obtain ⟨same, rfl⟩ := executes_done.mp execution
      cases same
      exact ⟨reflexive _, rfl⟩

theorem resolve_reads (reflexive : ∀ world, evolves world world)
    {view : LiveJobView} {jobId : Nat} {resolved : ResolvedJob}
    (execution : Executes evolves (ledgerAnswers ledger) start
      (view.resolve jobId) (.ok resolved) finish) :
    ∃ (moments : JobMoments World) (fits : jobId < 2 ^ 128) (own : U128)
      (recordTier : Option VerificationTier),
      ResolvedFrom evolves ledger view ⟨jobId, fits⟩ own recordTier resolved
        moments start finish := by
  unfold LiveJobView.resolve at execution
  obtain ⟨job, jobAt, first, execution⟩ := executes_attempt execution
  obtain ⟨model, modelAt, second, execution⟩ := executes_attempt execution
  obtain ⟨head, headAt, third, execution⟩ := executes_attempt execution
  obtain ⟨submitted, submittedAt, fourth, execution⟩ :=
    executes_attempt execution
  obtain ⟨tier, tierAt, fifth, execution⟩ := (executes_bind _ _).mp execution
  obtain ⟨began, jobHeld⟩ := executes_perform.mp first
  obtain ⟨modelled, modelHeld⟩ := executes_perform.mp second
  obtain ⟨headed, headHeld⟩ := executes_perform.mp third
  obtain ⟨recorded, submittedHeld⟩ := executes_perform.mp fourth
  obtain ⟨tiered, tierHeld⟩ := executes_perform.mp fifth
  obtain ⟨ownFits, fits, rfl⟩ := jobHeld job rfl
  obtain rfl := modelHeld model rfl
  obtain rfl := headHeld head rfl
  obtain ⟨_, rfl⟩ := submittedHeld submitted rfl
  -- from here on the reads are about the id in the job
  obtain ⟨own, same⟩ : ∃ own : U128, own.val = JobTuple.id
      ((ledger jobAt).held view.marketplace (.getJob ⟨jobId, fits⟩)) :=
    ⟨⟨_, ownFits⟩, rfl⟩
  have ownId : (JobTuple.record ((ledger jobAt).held view.marketplace
      (.getJob ⟨jobId, fits⟩))).id = own.val := same.symm
  rw [ownId] at execution tierHeld
  obtain ⟨block, blockAt, sixth, execution⟩ := executes_attempt execution
  obtain ⟨verifiedAt, verifiedMoment, seventh, execution⟩ :=
    executes_attempt execution
  obtain ⟨settled, settledAt, eighth, execution⟩ := executes_attempt execution
  obtain ⟨blocked, rfl⟩ := executes_commitmentBlock reflexive sixth
  obtain ⟨verified, verifiedHeld⟩ := executes_perform.mp seventh
  obtain ⟨resolvedMoved, settledHeld⟩ := executes_perform.mp eighth
  obtain ⟨_, rfl⟩ := verifiedHeld verifiedAt rfl
  obtain ⟨_, rfl⟩ := settledHeld settled rfl
  obtain ⟨done, rfl⟩ := executes_done.mp execution
  refine ⟨⟨jobAt, modelAt, headAt, submittedAt, tierAt, blockAt,
    verifiedMoment, settledAt⟩, fits, own, tier.toOption,
    ⟨⟨began, modelled, headed, recorded, tiered, blocked, verified,
      resolvedMoved, reflexive _⟩, same, ?_, (Except.ok.inj done).symm⟩⟩
  cases tier with
  | error error => exact Or.inl rfl
  | ok tier =>
      obtain ⟨_, rfl⟩ := tierHeld tier rfl
      exact Or.inr rfl

/-- The job settles by commitment: the record that was read says so, or it could
not be read and the job's own tier and price say so. -/
def SettledByCommitment (reads : JobReads)
    (recordTier : Option VerificationTier) : Prop :=
  (recordTier = some reads.recordTier ∧ reads.recordTier = .commitment) ∨
    (recordTier = none ∧ reads.job.record.tier = .commitment ∧
      reads.job.record.maxPriceWei ≤ COMMITMENT_TIER_VALUE_THRESHOLD_WEI)

/-- A tier that the planner supports is one of the ledger's values. -/
theorem ResolvedFrom.settledByCommitment {view : LiveJobView}
    {jobId own : U128} {recordTier : Option VerificationTier}
    {resolved : ResolvedJob} {moments : JobMoments World}
    (here : ResolvedFrom evolves ledger view jobId own recordTier resolved
      moments start finish)
    {input : PlanInput} (job : input.job = resolved.job)
    (gates : input.gates = resolved.gates)
    (tier : effectiveTier input = .commitment) :
    SettledByCommitment (moments.reads view jobId own ledger) recordTier := by
  have sameJob : input.job =
      (moments.reads view jobId own ledger).job.record := by
    rw [job, here.values]
    rfl
  have sameTier : input.gates.effectiveTier = recordTier := by
    rw [gates, here.values]
    rfl
  rw [effectiveTier, sameJob, sameTier] at tier
  rcases here.tier with missing | read
  · rw [missing] at tier
    dsimp only at tier
    split at tier
    · cases tier
    · next cheap =>
      exact Or.inr ⟨missing, tier, not_lt.mp fun dear => cheap ⟨tier, dear⟩⟩
  · rw [read] at tier
    exact Or.inl ⟨read, tier⟩

end Worlds

end NodeAgent.Node
