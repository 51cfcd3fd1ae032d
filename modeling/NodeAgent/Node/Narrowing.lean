import NodeAgent.Bidder.Exact
import NodeAgent.Node.Eligibility
import NodeAgent.Node.RunLoop

/-!
# Bids on narrowed values

The bridge casts the ids, the counts and the blocks of the chain to 64 bits
before the bidder sees them.  Blocks and capacity only get smaller; an id or a
load that does not fit is replaced by another one.
-/

namespace NodeAgent.Node

open Chainio Interaction

/-- What one refresh of the market has read. -/
structure ChainView where
  profile : ProviderProfile
  job : Job
  head : Nat
  secsPerBlock : Nat
  pflopHours : Nat
  execSecs : Nat
  oracle : Bidder.ComputePricingOracle

namespace ChainView

def snapshot (view : ChainView) : MarketSnapshot where
  caps := mapCaps view.profile
  reputationBps := FixedWidth.narrow 32 view.profile.reputationScoreBps
  stakeWei := view.profile.stakeWei
  job := mapJob view.job view.head view.secsPerBlock view.pflopHours
    view.execSecs
  oracle := view.oracle
  bidExpiresBlock := bidExpiresBlock view.job view.head

/-- The job with its id and its deadline as the chain has them. -/
def wideJob (view : ChainView) : Bidder.Job where
  id := view.job.id
  maxPriceWei := view.job.maxPriceWei
  tier := mapTier view.job.tier
  estimatedPflopHours1e18 := view.pflopHours
  estimatedExecSecs := view.execSecs
  secsUntilDeadline :=
    (view.job.executionDeadlineBlock - view.head) * view.secsPerBlock

/-- The load and the capacity as the chain has them. -/
def wideCaps (view : ChainView) : Bidder.Caps where
  currentActiveJobs := view.profile.currentActiveJobs
  maxConcurrentJobs := view.profile.maxConcurrentJobs

end ChainView

/-- The bid is on the job of the chain, and the rules accept that job on the
values of the chain. -/
structure FaithfulBid (view : ChainView) (settings : Bidder.Settings)
    (jobId priceWei : Nat) : Prop where
  job : jobId = view.job.id
  accepted : ∃ costWei, Bidder.evaluateExact view.wideJob view.oracle settings
    view.wideCaps = .bid view.job.id priceWei costWei

theorem tick_traces_bid {settings : Bidder.Settings}
    {snapshot : MarketSnapshot} {jobId priceWei costWei expiresBlock : Nat}
    (isOpen : snapshot.bidExpiresBlock = some expiresBlock)
    (decided : Bidder.evaluate snapshot.job snapshot.oracle settings
      snapshot.caps = .bid jobId priceWei costWei) :
    (tick settings).Traces
      [⟨.refresh, .ok snapshot⟩,
        ⟨.write [.recordProviderObservation
            (FixedWidth.narrow 32 snapshot.caps.maxConcurrentJobs)
            snapshot.reputationBps snapshot.stakeWei,
          .setLastError none], ()⟩,
        ⟨.acceptsNewBids, true⟩,
        ⟨.place jobId priceWei (snapshot.job.estimatedExecSecs * 1000)
          expiresBlock, .ok ()⟩,
        ⟨.write [.setBidding true], ()⟩]
      (some .bid) := by
  refine .call (.call (.call ?_))
  simp only [isOpen, decided]
  exact .call (.call .done)

/-- A placed bid was decided on the refreshed view. -/
theorem tick_places {settings : Bidder.Settings}
    {events : List (Event DaemonAnswer)} {result : Option TickOutcome}
    {snapshot : MarketSnapshot} {jobId priceWei latencyMs expiresBlock : Nat}
    {placed : Except String Unit}
    (traced : (tick settings).Traces events result)
    (refreshed : ⟨.refresh, .ok snapshot⟩ ∈ events)
    (places : ⟨.place jobId priceWei latencyMs expiresBlock, placed⟩ ∈
      events) :
    ∃ costWei, Bidder.evaluate snapshot.job snapshot.oracle settings
      snapshot.caps = .bid jobId priceWei costWei := by
  have answered (op : DaemonOp) : Nonempty (DaemonAnswer op) := by
    cases op with
    | refresh => exact ⟨.error ""⟩
    | write updates => exact ⟨()⟩
    | acceptsNewBids => exact ⟨true⟩
    | place jobId priceWei latencyMs expiresBlock => exact ⟨.ok ()⟩
  obtain ⟨rest, outcome, whole⟩ :
      ∃ rest outcome, (tick settings).Traces (events ++ rest)
        (some outcome) := by
    cases result with
    | none => exact traced.completes answered
    | some outcome => exact ⟨[], outcome, by rwa [List.append_nil]⟩
  have refreshed := List.mem_append_left rest refreshed
  have places := List.mem_append_left rest places
  generalize events ++ rest = all at whole refreshed places
  cases tick_events whole with
  | quiet neutral =>
      rcases List.mem_cons.mp places with same | later
      · cases same
      · exact absurd (neutral _ later).2.2 (by simp [placesBid])
  | placed isOpen decided =>
      simp at refreshed places
      obtain ⟨⟨rfl, rfl, rfl, rfl⟩, -⟩ := places
      subst refreshed
      exact ⟨_, decided⟩

/-- Capacity only shrinks, so the load is misjudged only by a cast of the
active jobs. -/
theorem load_of_narrowed {active max : Nat}
    (accepted : FixedWidth.narrow 64 active * Bidder.LOAD_CAP_DEN <
      FixedWidth.narrow 64 max * Bidder.LOAD_CAP_NUM) (fits : active < 2 ^ 64) :
    active * Bidder.LOAD_CAP_DEN < max * Bidder.LOAD_CAP_NUM := by
  rw [FixedWidth.narrow_of_fits fits] at accepted
  calc
    _ < FixedWidth.narrow 64 max * Bidder.LOAD_CAP_NUM := accepted
    _ ≤ _ := Nat.mul_le_mul_right _ (FixedWidth.narrow_le 64 max)

/-- Blocks that were cast and a product that saturated are not above the
seconds of the chain. -/
theorem ChainView.secsUntilDeadline_le (view : ChainView) :
    view.snapshot.job.secsUntilDeadline ≤ view.wideJob.secsUntilDeadline :=
  calc
    _ ≤ FixedWidth.narrow 64 (view.job.executionDeadlineBlock - view.head) *
        view.secsPerBlock := FixedWidth.saturatingMul_le _ _ _
    _ ≤ _ := Nat.mul_le_mul_right _ (FixedWidth.narrow_le _ _)

/-- Of the rules that accept the narrowed values, only the load rule can reject
the values of the chain. -/
theorem ExactBid.wide {view : ChainView} {settings : Bidder.Settings}
    {priceWei costWei : Nat}
    (rules : Bidder.ExactBid view.snapshot.job view.oracle settings
      view.snapshot.caps priceWei costWei)
    (load : view.wideCaps.currentActiveJobs * Bidder.LOAD_CAP_DEN <
      view.wideCaps.maxConcurrentJobs * Bidder.LOAD_CAP_NUM) :
    Bidder.ExactBid view.wideJob view.oracle settings view.wideCaps priceWei
      costWei where
  enabled := rules.enabled
  inWindow := rules.inWindow
  capped := rules.capped
  tier := rules.tier
  capacity := by
    intro none
    rw [none, Nat.zero_mul] at load
    exact absurd load (Nat.not_lt_zero _)
  load := load
  deadline := rules.deadline.trans view.secsUntilDeadline_le
  window := rules.window
  fresh := rules.fresh
  cost := rules.cost
  price := rules.price
  profitable := rules.profitable
  positive := rules.positive

/-- Rules that accept the narrowed values accept those of the chain exactly when
the job's id fits the cast, and the active jobs do or are within the load cap all
the same. -/
theorem faithfulBid_iff {view : ChainView} {settings : Bidder.Settings}
    {priceWei costWei : Nat}
    (rules : Bidder.ExactBid view.snapshot.job view.oracle settings
      view.snapshot.caps priceWei costWei) :
    FaithfulBid view settings (FixedWidth.narrow 64 view.job.id) priceWei ↔
      view.job.id < 2 ^ 64 ∧
        (view.profile.currentActiveJobs < 2 ^ 64 ∨
          view.profile.currentActiveJobs * Bidder.LOAD_CAP_DEN <
            view.profile.maxConcurrentJobs * Bidder.LOAD_CAP_NUM) := by
  constructor
  · intro faithful
    obtain ⟨same, cost, accepted⟩ := faithful
    refine ⟨FixedWidth.narrow_eq_iff.mp same, Or.inr ?_⟩
    exact ((Bidder.evaluateExact_bid_iff _ _ _ _ _ _ _).mp accepted).2.load
  · intro fits
    obtain ⟨idFits, load⟩ := fits
    refine ⟨FixedWidth.narrow_of_fits idFits, costWei, ?_⟩
    refine (Bidder.evaluateExact_bid_iff _ _ _ _ _ _ _).mpr ⟨rfl, ?_⟩
    apply ExactBid.wide rules
    exact load.elim (load_of_narrowed rules.load) id

/-- A bid of a tick is faithful to the chain exactly when the job's id fits the
cast, and the active jobs do or are within the load cap all the same. -/
theorem placedBid_faithful_iff {settings : Bidder.Settings} {view : ChainView}
    {events : List (Event DaemonAnswer)} {result : Option TickOutcome}
    {jobId priceWei latencyMs expiresBlock : Nat} {placed : Except String Unit}
    (traced : (tick settings).Traces events result)
    (refreshed : ⟨.refresh, .ok view.snapshot⟩ ∈ events)
    (places : ⟨.place jobId priceWei latencyMs expiresBlock, placed⟩ ∈
      events) :
    FaithfulBid view settings jobId priceWei ↔
      view.job.id < 2 ^ 64 ∧
        (view.profile.currentActiveJobs < 2 ^ 64 ∨
          view.profile.currentActiveJobs * Bidder.LOAD_CAP_DEN <
            view.profile.maxConcurrentJobs * Bidder.LOAD_CAP_NUM) := by
  obtain ⟨costWei, decided⟩ := tick_places traced refreshed places
  rw [Bidder.evaluate_bid_iff] at decided
  obtain ⟨rfl, rules⟩ := decided
  exact faithfulBid_iff rules

/-- An open job with this id, and a provider without other jobs. -/
def idView (id : Nat) : ChainView where
  profile := sampleProfile
  job := { openJob sampleJob.modelHash with id := id }
  head := 60
  secsPerBlock := 2
  pflopHours := 10 ^ 16
  execSecs := 60
  oracle := { saltPerPflopHourWei := 10 ^ 18, stale := false }

theorem idView_traces {id : Nat} (cast : FixedWidth.narrow 64 id = 7) :
    ∃ events, (tick alwaysOn).Traces events (some .bid) ∧
      ⟨.refresh, .ok (idView id).snapshot⟩ ∈ events ∧
      ⟨.place 7 11500000000000000 60000 100, .ok ()⟩ ∈ events := by
  have mapped : (idView id).snapshot = openSnapshot sampleJob.modelHash := by
    simp only [ChainView.snapshot, idView, mapJob, cast]
    rfl
  rw [mapped]
  refine ⟨_, tick_traces_bid rfl (openJob_decision sampleJob.modelHash),
    .head _, .tail _ (.tail _ (.tail _ (.head _)))⟩

/-- Job 7 is bid on as job 7. -/
theorem placedBid_seven :
    FaithfulBid (idView 7) alwaysOn 7 11500000000000000 ↔
      7 < 2 ^ 64 ∧ (0 < 2 ^ 64 ∨
        0 * Bidder.LOAD_CAP_DEN < 10 * Bidder.LOAD_CAP_NUM) := by
  have cast : FixedWidth.narrow 64 7 = 7 := by decide
  obtain ⟨events, traced, refreshed, places⟩ := idView_traces cast
  exact placedBid_faithful_iff traced refreshed places

/-- Job `2 ^ 64 + 7` is bid on as job 7. -/
theorem placedBid_wraps :
    ¬∀ (view : ChainView) settings events result jobId priceWei latencyMs
        expiresBlock placed,
      (tick settings).Traces events result →
      ⟨.refresh, .ok view.snapshot⟩ ∈ events →
      ⟨.place jobId priceWei latencyMs expiresBlock, placed⟩ ∈ events →
        FaithfulBid view settings jobId priceWei := by
  intro faithful
  have cast : FixedWidth.narrow 64 (2 ^ 64 + 7) = 7 := by decide
  obtain ⟨events, traced, refreshed, places⟩ := idView_traces cast
  have wrapped := faithful _ _ _ _ _ _ _ _ _ traced refreshed places
  exact absurd wrapped.job (by decide)

end NodeAgent.Node
