import NodeAgent.Bidder.Evaluate

/-!
# The bidding rules in exact arithmetic

`evaluate` computes in saturating machine integers.  The rules over unbounded
integers decide the same: the only product that can saturate is the cost, and
a saturated cost is above every price that the cap admits.
-/

namespace NodeAgent.Bidder

def ComputePricingOracle.exactCostWei (oracle : ComputePricingOracle)
    (job : Job) : Nat :=
  job.estimatedPflopHours1e18 * oracle.saltPerPflopHourWei / ONE_SALT_WEI

/-- Cost plus fifteen percent, and at most ninety percent of what the
requester pays. -/
def exactPriceWei (job : Job) (costWei : Nat) : Nat :=
  min (costWei * MARGIN_NUM / MARGIN_DEN)
    (job.maxPriceWei * MAX_PRICE_CAP_NUM / MAX_PRICE_CAP_DEN)

/-- `evaluate` over unbounded integers. -/
def evaluateExact (job : Job) (oracle : ComputePricingOracle)
    (settings : Settings) (caps : Caps) : BidDecision :=
  let skip reason := BidDecision.skip job.id reason
  let required := job.estimatedExecSecs * DEADLINE_SAFETY_FACTOR
  if !settings.enabled then skip .disabled
  else if !settings.schedule.inWindow settings.currentHour
      settings.currentDay then
    skip .outsideSchedule
  else if job.maxPriceWei ≥ COMMITMENT_CAP_WEI then skip .exceedsCommitmentCap
  else if job.tier ≠ .commitment then skip .unsupportedTier
  else if caps.maxConcurrentJobs = 0 then skip .atCapacity
  else if caps.currentActiveJobs * LOAD_CAP_DEN ≥
      caps.maxConcurrentJobs * LOAD_CAP_NUM then
    skip .atCapacity
  else if job.secsUntilDeadline < required then skip .deadlineInfeasible
  else if settings.schedule.secsUntilWindowClose settings.currentHour
      settings.currentMin settings.currentDay < required then
    skip .windowClosingSoon
  else if oracle.stale then skip .oracleStale
  else
    let cost := oracle.exactCostWei job
    let price := exactPriceWei job cost
    if price < cost ∨ price = 0 then skip .unprofitable
    else .bid job.id price cost

/-- What a bid says, rule by rule. -/
structure ExactBid (job : Job) (oracle : ComputePricingOracle)
    (settings : Settings) (caps : Caps) (priceWei costWei : Nat) : Prop where
  enabled : settings.enabled = true
  inWindow : settings.schedule.inWindow settings.currentHour
    settings.currentDay = true
  capped : job.maxPriceWei < COMMITMENT_CAP_WEI
  tier : job.tier = .commitment
  capacity : caps.maxConcurrentJobs ≠ 0
  load : caps.currentActiveJobs * LOAD_CAP_DEN <
    caps.maxConcurrentJobs * LOAD_CAP_NUM
  deadline : job.estimatedExecSecs * DEADLINE_SAFETY_FACTOR ≤
    job.secsUntilDeadline
  window : job.estimatedExecSecs * DEADLINE_SAFETY_FACTOR ≤
    settings.schedule.secsUntilWindowClose settings.currentHour
      settings.currentMin settings.currentDay
  fresh : oracle.stale = false
  cost : costWei = oracle.exactCostWei job
  price : priceWei = exactPriceWei job costWei
  profitable : costWei ≤ priceWei
  positive : 0 < priceWei

theorem gate_bid_iff {refused : Prop} [Decidable refused] {reason : SkipReason}
    {decision : BidDecision} {job jobId priceWei costWei : Nat} :
    (if refused then BidDecision.skip job reason else decision) =
        .bid jobId priceWei costWei ↔
      ¬refused ∧ decision = .bid jobId priceWei costWei := by
  by_cases here : refused
  · simp [here]
  · simp [here]

theorem evaluateExact_bid_iff (job : Job) (oracle : ComputePricingOracle)
    (settings : Settings) (caps : Caps) (jobId priceWei costWei : Nat) :
    evaluateExact job oracle settings caps = .bid jobId priceWei costWei ↔
      jobId = job.id ∧ ExactBid job oracle settings caps priceWei costWei := by
  simp only [evaluateExact, gate_bid_iff, BidDecision.bid.injEq]
  constructor
  · rintro ⟨enabled, inWindow, capped, tier, capacity, load, deadline, window,
      fresh, profitable, rfl, rfl, rfl⟩
    refine ⟨rfl, ?_⟩
    constructor
    · simpa using enabled
    · simpa using inWindow
    · exact not_le.mp capped
    · exact not_not.mp tier
    · exact capacity
    · exact not_le.mp load
    · exact not_lt.mp deadline
    · exact not_lt.mp window
    · simpa using fresh
    · rfl
    · rfl
    · omega
    · omega
  · rintro ⟨rfl, rules⟩
    obtain ⟨enabled, inWindow, capped, tier, capacity, load, deadline, window,
      fresh, rfl, rfl, profitable, positive⟩ := rules
    refine ⟨by simp [enabled], by simp [inWindow], not_le.mpr capped,
      not_not.mpr tier, capacity, not_le.mpr load, not_lt.mpr deadline,
      not_lt.mpr window, by simp [fresh], ?_, rfl, rfl, rfl⟩
    omega

/-- The pricing of `evaluate`, on this cost. -/
def saturatedPriceWei (job : Job) (costWei : Nat) : Nat :=
  min (FixedWidth.saturatingMul 128 costWei MARGIN_NUM / MARGIN_DEN)
    (FixedWidth.saturatingMul 128 job.maxPriceWei MAX_PRICE_CAP_NUM /
      MAX_PRICE_CAP_DEN)

theorem saturatedPriceWei_exact {job : Job} {costWei : Nat}
    (capped : job.maxPriceWei < COMMITMENT_CAP_WEI)
    (unsaturated : costWei ≤ FixedWidth.maxValue 128 / ONE_SALT_WEI) :
    saturatedPriceWei job costWei = exactPriceWei job costWei := by
  simp only [COMMITMENT_CAP_WEI, FixedWidth.maxValue, ONE_SALT_WEI] at *
  rw [saturatedPriceWei, FixedWidth.saturatingMul_of_fits,
    FixedWidth.saturatingMul_of_fits, exactPriceWei]
  · simp only [FixedWidth.maxValue, MAX_PRICE_CAP_NUM]
    omega
  · simp only [FixedWidth.maxValue, MARGIN_NUM]
    omega

theorem price_lt_saturated {job : Job} {costWei : Nat} (price : Nat)
    (capped : job.maxPriceWei < COMMITMENT_CAP_WEI)
    (ceiling : price ≤
      job.maxPriceWei * MAX_PRICE_CAP_NUM / MAX_PRICE_CAP_DEN)
    (saturated : FixedWidth.maxValue 128 / ONE_SALT_WEI ≤ costWei) :
    price < costWei := by
  simp only [COMMITMENT_CAP_WEI, FixedWidth.maxValue, ONE_SALT_WEI,
    MAX_PRICE_CAP_NUM, MAX_PRICE_CAP_DEN] at *
  omega

theorem estimatedCostWei_exact (oracle : ComputePricingOracle) (job : Job) :
    oracle.estimatedCostWei job = oracle.exactCostWei job ∨
      oracle.estimatedCostWei job = FixedWidth.maxValue 128 / ONE_SALT_WEI ∧
        FixedWidth.maxValue 128 / ONE_SALT_WEI ≤ oracle.exactCostWei job := by
  rcases le_total (job.estimatedPflopHours1e18 * oracle.saltPerPflopHourWei)
    (FixedWidth.maxValue 128) with fits | overflow
  · left
    rw [ComputePricingOracle.estimatedCostWei,
      FixedWidth.saturatingMul_of_fits fits]
    rfl
  · right
    rw [ComputePricingOracle.estimatedCostWei,
      FixedWidth.saturatingMul_of_overflow overflow]
    exact ⟨rfl, Nat.div_le_div_right overflow⟩

theorem estimatedCostWei_le (oracle : ComputePricingOracle) (job : Job) :
    oracle.estimatedCostWei job ≤ FixedWidth.maxValue 128 / ONE_SALT_WEI :=
  Nat.div_le_div_right (min_le_right _ _)

theorem pricing_exact {job : Job} (oracle : ComputePricingOracle)
    (capped : job.maxPriceWei < COMMITMENT_CAP_WEI) (refuse : BidDecision) :
    (if saturatedPriceWei job (oracle.estimatedCostWei job) <
            oracle.estimatedCostWei job ∨
          saturatedPriceWei job (oracle.estimatedCostWei job) = 0 then refuse
      else .bid job.id (saturatedPriceWei job (oracle.estimatedCostWei job))
        (oracle.estimatedCostWei job)) =
      if exactPriceWei job (oracle.exactCostWei job) <
            oracle.exactCostWei job ∨
          exactPriceWei job (oracle.exactCostWei job) = 0 then refuse
      else .bid job.id (exactPriceWei job (oracle.exactCostWei job))
        (oracle.exactCostWei job) := by
  rw [saturatedPriceWei_exact capped (estimatedCostWei_le oracle job)]
  rcases estimatedCostWei_exact oracle job with same | ⟨stuck, beyond⟩
  · rw [same]
  · have ceiling (cost : Nat) : exactPriceWei job cost ≤
        job.maxPriceWei * MAX_PRICE_CAP_NUM / MAX_PRICE_CAP_DEN :=
      min_le_right _ _
    rw [if_pos (Or.inl (price_lt_saturated _ capped (ceiling _) stuck.ge)),
      if_pos (Or.inl (price_lt_saturated _ capped (ceiling _) beyond))]

/-- `evaluate` decides as the rules over unbounded integers do. -/
theorem evaluate_eq_exact (job : Job) (oracle : ComputePricingOracle)
    (settings : Settings) (caps : Caps) :
    evaluate job oracle settings caps =
      evaluateExact job oracle settings caps := by
  simp only [evaluate, evaluateExact]
  -- the gates before the price are the same comparisons
  refine ite_congr rfl (fun _ => rfl) fun enabled => ?_
  refine ite_congr rfl (fun _ => rfl) fun inWindow => ?_
  refine ite_congr rfl (fun _ => rfl) fun capped => ?_
  refine ite_congr rfl (fun _ => rfl) fun tier => ?_
  refine ite_congr rfl (fun _ => rfl) fun capacity => ?_
  refine ite_congr rfl (fun _ => rfl) fun load => ?_
  refine ite_congr rfl (fun _ => rfl) fun deadline => ?_
  refine ite_congr rfl (fun _ => rfl) fun window => ?_
  refine ite_congr rfl (fun _ => rfl) fun fresh => ?_
  exact pricing_exact oracle (not_le.mp capped) _

/-- What `evaluate` bids on, rule by rule. -/
theorem evaluate_bid_iff {job : Job} {oracle : ComputePricingOracle}
    {settings : Settings} {caps : Caps} {jobId priceWei costWei : Nat} :
    evaluate job oracle settings caps = .bid jobId priceWei costWei ↔
      jobId = job.id ∧ ExactBid job oracle settings caps priceWei costWei := by
  rw [evaluate_eq_exact, evaluateExact_bid_iff]

theorem ExactBid.within {job : Job} {oracle : ComputePricingOracle}
    {settings : Settings} {caps : Caps} {priceWei costWei : Nat}
    (rules : ExactBid job oracle settings caps priceWei costWei) :
    costWei ≤ priceWei ∧
      priceWei * MAX_PRICE_CAP_DEN ≤ job.maxPriceWei * MAX_PRICE_CAP_NUM := by
  refine ⟨rules.profitable, ?_⟩
  have ceiling : priceWei ≤
      job.maxPriceWei * MAX_PRICE_CAP_NUM / MAX_PRICE_CAP_DEN := by
    rw [rules.price]
    exact min_le_right _ _
  exact (Nat.le_div_iff_mul_le (by decide)).mp ceiling

/-- The bidder decides in fixed-width arithmetic what the rules say over
unbounded integers, and a bid is never below its cost nor above ninety percent
of the maximum price. -/
theorem evaluate_isExact (job : Job) (oracle : ComputePricingOracle)
    (settings : Settings) (caps : Caps) :
    evaluate job oracle settings caps =
        evaluateExact job oracle settings caps ∧
      ∀ jobId priceWei costWei,
        (evaluate job oracle settings caps = .bid jobId priceWei costWei ↔
          jobId = job.id ∧
            ExactBid job oracle settings caps priceWei costWei) ∧
        (evaluate job oracle settings caps = .bid jobId priceWei costWei →
          costWei ≤ priceWei ∧ priceWei * MAX_PRICE_CAP_DEN ≤
            job.maxPriceWei * MAX_PRICE_CAP_NUM) := by
  refine ⟨evaluate_eq_exact job oracle settings caps, ?_⟩
  intro jobId priceWei costWei
  refine ⟨evaluate_bid_iff, ?_⟩
  intro decided
  exact (evaluate_bid_iff.mp decided).2.within

end NodeAgent.Bidder
