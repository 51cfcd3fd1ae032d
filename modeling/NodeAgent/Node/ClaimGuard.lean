import Mathlib.Data.Nat.Find
import NodeAgent.Library.Runs
import NodeAgent.Node.Earnings

/-!
# The guard of the earnings sweep

The poller claims once and then holds until it reads a balance of zero.  It
samples the balance, and rewards accrue between the samples, so a claim can
land without a zero ever being read.
-/

namespace NodeAgent.Node

open Chainio Interaction Lifecycle Supervision Runs

/-- The balance that a sweep claims. -/
def Sweepable (cfg : EarningsConfig) (reading : Nat) : Prop :=
  reading ≠ 0 ∧ cfg.thresholdWei ≤ reading

instance (cfg : EarningsConfig) (reading : Nat) :
    Decidable (Sweepable cfg reading) :=
  inferInstanceAs (Decidable (_ ∧ _))

/-- Every balance to claim before the tick was followed by a zero. -/
def Cleared (cfg : EarningsConfig) (readings : Nat → Nat) (tick : Nat) :
    Prop :=
  ∀ earlier < tick, Sweepable cfg (readings earlier) →
    ∃ reset, earlier < reset ∧ reset < tick ∧ readings reset = 0

/-- Where the first balance to claim since a zero is followed by a lower one,
a zero is read before the next balance to claim. -/
def ZeroRead (cfg : EarningsConfig) (readings : Nat → Nat) : Prop :=
  ∀ claimed low next, Cleared cfg readings claimed →
    Sweepable cfg (readings claimed) → claimed < low →
    readings low < readings claimed → low ≤ next →
    Sweepable cfg (readings next) →
      ∃ reset, claimed < reset ∧ reset < next ∧ readings reset = 0

theorem cleared_succ {cfg : EarningsConfig} {readings : Nat → Nat}
    {tick : Nat} :
    Cleared cfg readings (tick + 1) ↔
      readings tick = 0 ∨
        Cleared cfg readings tick ∧ ¬Sweepable cfg (readings tick) := by
  constructor
  · intro cleared
    by_cases zero : readings tick = 0
    · exact Or.inl zero
    · refine Or.inr ⟨?_, ?_⟩
      · intro earlier before sweepable
        obtain ⟨reset, after, inside, reads⟩ :=
          cleared earlier (by omega) sweepable
        have notLast : reset ≠ tick := by
          rintro rfl
          exact zero reads
        exact ⟨reset, after, by omega, reads⟩
      · intro sweepable
        obtain ⟨reset, after, inside, _⟩ :=
          cleared tick (by omega) sweepable
        omega
  · rintro (zero | ⟨cleared, below⟩) earlier before sweepable
    · have notLast : earlier ≠ tick := by
        rintro rfl
        exact sweepable.1 zero
      exact ⟨tick, by omega, by omega, zero⟩
    · have notLast : earlier ≠ tick := by
        rintro rfl
        exact below sweepable
      obtain ⟨reset, after, inside, reads⟩ :=
        cleared earlier (by omega) sweepable
      exact ⟨reset, after, by omega, reads⟩

/-- A tick's operations with this reading and a signer that always succeeds;
the state is the list of requests. -/
def pollHandle (reading : Nat) (requests : List SignatureRequest) :
    (op : EarningsOp) → EarningsAnswer op × List SignatureRequest
  | .claimable => (.ok reading, requests)
  | .write _ => ((), requests)
  | .request request => (.ok ⟨none⟩, requests ++ [request])

section Hashes

variable [HashFunctions] (cfg : EarningsConfig)

/-- The guard after a tick, and what the tick asked for. -/
def poll (guard : Bool) (reading : Nat) : Bool × List SignatureRequest :=
  (EarningsPoller.tick cfg guard).runOn (pollHandle reading) []

/-- The guard before a tick of the endless run on these readings. -/
def guardAt (readings : Nat → Nat) (tick : Nat) : Bool :=
  trajectory (fun guard reading => (poll cfg guard reading).1) false readings
    tick

/-- The tick asks for a claim. -/
def ClaimsAt (readings : Nat → Nat) (tick : Nat) : Prop :=
  (poll cfg (guardAt cfg readings tick) (readings tick)).2 ≠ []

/-- A claim was asked for, the balance was lower later, and this is the first
tick from then on with a balance to claim, with no other claim in between. -/
structure Reclaimable (readings : Nat → Nat) (claimed low next : Nat) :
    Prop where
  requested : ClaimsAt cfg readings claimed
  later : claimed < low
  fell : readings low < readings claimed
  counted : low ≤ next
  sweepable : Sweepable cfg (readings next)
  first : ∀ tick, low ≤ tick → tick < next → ¬Sweepable cfg (readings tick)
  unclaimed : ∀ tick, claimed < tick → tick < next →
    ¬ClaimsAt cfg readings tick

/-- The guard is released by every claim that landed. -/
def GuardReleased (readings : Nat → Nat) : Prop :=
  ∀ claimed low next, Reclaimable cfg readings claimed low next →
    ClaimsAt cfg readings next

/-- A balance that falls only when a claim lands, which zeroes it before
anything accrues. -/
structure FallsOnlyOnClaims (readings : Nat → Nat) (lands : Nat → Bool) :
    Prop where
  balance : ∀ tick, ∃ accrued,
    readings (tick + 1) = (if lands tick then 0 else readings tick) + accrued
  requested : ∀ tick, lands tick = true → ∃ claimed ≤ tick,
    ClaimsAt cfg readings claimed ∧
      ∀ between, claimed ≤ between → between < tick → lands between = false

variable {cfg}

theorem poll_eq (guard : Bool) (reading : Nat) :
    (poll cfg guard reading).1 =
        (if reading = 0 then false
          else guard || decide (Sweepable cfg reading)) ∧
      ((poll cfg guard reading).2 ≠ [] ↔
        guard = false ∧ Sweepable cfg reading) := by
  unfold poll EarningsPoller.tick
  simp only [Program.perform_bind, Program.runOn_call, pollHandle]
  by_cases zero : reading = 0
  · simp [zero, Sweepable]
  · cases guard with
    | true => simp [zero, planClaim]
    | false =>
        by_cases below : reading < cfg.thresholdWei
        · have short : ¬cfg.thresholdWei ≤ reading := not_le.mpr below
          simp [zero, planClaim, below, Sweepable, short]
        · have enough : cfg.thresholdWei ≤ reading := not_lt.mp below
          simp [zero, planClaim, below, Sweepable, enough, pollHandle]

theorem claimsAt_iff {readings : Nat → Nat} {tick : Nat} :
    ClaimsAt cfg readings tick ↔
      guardAt cfg readings tick = false ∧ Sweepable cfg (readings tick) :=
  (poll_eq _ _).2

theorem guardAt_succ {readings : Nat → Nat} {tick : Nat} :
    guardAt cfg readings (tick + 1) = false ↔
      readings tick = 0 ∨
        guardAt cfg readings tick = false ∧
          ¬Sweepable cfg (readings tick) := by
  rw [guardAt, trajectory, (poll_eq _ _).1]
  by_cases zero : readings tick = 0
  · simp [zero]
  · simp [zero, guardAt]

theorem guardAt_eq_false_iff {readings : Nat → Nat} {tick : Nat} :
    guardAt cfg readings tick = false ↔ Cleared cfg readings tick := by
  induction tick with
  | zero =>
      constructor
      · intro _ earlier before
        exact absurd before (Nat.not_lt_zero earlier)
      · intro _
        rfl
  | succ tick ih => rw [guardAt_succ, cleared_succ, ih]

theorem guardAt_set {readings : Nat → Nat} {claimed next : Nat}
    (requested : ClaimsAt cfg readings claimed) (later : claimed < next)
    (nonzero : ∀ tick, claimed < tick → tick < next → readings tick ≠ 0) :
    guardAt cfg readings next = true := by
  have sweepable := (claimsAt_iff.mp requested).2
  apply trajectory_between (· = true) later
  · rw [trajectory, (poll_eq _ _).1, if_neg sweepable.1]
    simp [sweepable]
  · intro tick after before set
    rw [set, (poll_eq _ _).1, if_neg (nonzero tick after before)]
    rfl

theorem guardAt_released {readings : Nat → Nat} {cleared next : Nat}
    (zero : readings cleared = 0) (later : cleared < next)
    (unclaimed : ∀ tick, cleared < tick → tick < next →
      ¬ClaimsAt cfg readings tick) :
    guardAt cfg readings next = false := by
  apply trajectory_between (· = false) later
  · rw [trajectory, (poll_eq _ _).1, if_pos zero]
  · intro tick after before released
    have holds : ¬Sweepable cfg (readings tick) := fun sweepable =>
      unclaimed tick after before (claimsAt_iff.mpr ⟨released, sweepable⟩)
    rw [released, (poll_eq _ _).1]
    simp [holds]

theorem Reclaimable.claims {readings : Nat → Nat} {claimed low next : Nat}
    (reclaimable : Reclaimable cfg readings claimed low next)
    (read : ∃ reset, claimed < reset ∧ reset < next ∧ readings reset = 0) :
    ClaimsAt cfg readings next := by
  obtain ⟨reset, after, before, zero⟩ := read
  refine claimsAt_iff.mpr ⟨?_, reclaimable.sweepable⟩
  apply guardAt_released zero before
  intro tick later
  exact reclaimable.unclaimed tick (after.trans later)

/-- Along every run, the guard is released by the claims that landed exactly
when each of them is followed by a zero reading before the next balance to
claim. -/
theorem guardReleased_iff (cfg : EarningsConfig) (readings : Nat → Nat) :
    GuardReleased cfg readings ↔ ZeroRead cfg readings := by
  constructor
  · intro released claimed low next cleared sweepable later fell counted
      nextSweepable
    by_contra never
    have requested : ClaimsAt cfg readings claimed :=
      claimsAt_iff.mpr ⟨guardAt_eq_false_iff.mpr cleared, sweepable⟩
    have held : ∀ tick, claimed < tick → tick ≤ next →
        ¬ClaimsAt cfg readings tick := by
      intro tick after within claims
      have set := guardAt_set requested after fun between inside before zero =>
        never ⟨between, inside, by omega, zero⟩
      rw [(claimsAt_iff.mp claims).1] at set
      cases set
    -- The first balance to claim at or after the lower reading.
    have balance : ∃ tick, low ≤ tick ∧ Sweepable cfg (readings tick) :=
      ⟨next, counted, nextSweepable⟩
    have found := Nat.find_spec balance
    have within := Nat.find_min' balance ⟨counted, nextSweepable⟩
    have after := lt_of_lt_of_le later found.1
    refine held _ after within (released claimed low (Nat.find balance) ?_)
    refine ⟨requested, later, fell, found.1, found.2, ?_, ?_⟩
    · intro tick afterLow before payable
      exact Nat.find_min balance before ⟨afterLow, payable⟩
    · intro tick inside before
      exact held tick inside (le_of_lt (lt_of_lt_of_le before within))
  · intro read claimed low next reclaimable
    obtain ⟨released, sweepable⟩ := claimsAt_iff.mp reclaimable.requested
    apply reclaimable.claims
    exact read claimed low next (guardAt_eq_false_iff.mp released) sweepable
      reclaimable.later reclaimable.fell reclaimable.counted
      reclaimable.sweepable

end Hashes

/-- A balance of 150 is claimed, the claim lands, 20 accrue before the next
sample, and the balance grows back. -/
def accruedReadings (tick : Nat) : Nat :=
  if tick = 1 then 20 else 150

theorem accruedReadings_claims :
    @ClaimsAt sampleHashes sampleEarnings accruedReadings 0 :=
  (@claimsAt_iff sampleHashes _ _ _).mpr ⟨rfl, by decide⟩

theorem accruedReadings_fall :
    @FallsOnlyOnClaims sampleHashes sampleEarnings accruedReadings
      (fun tick => tick = 0) := by
  apply @FallsOnlyOnClaims.mk sampleHashes
  · intro tick
    match tick with
    | 0 => exact ⟨20, rfl⟩
    | 1 => exact ⟨130, rfl⟩
    | tick + 2 => exact ⟨0, rfl⟩
  · intro tick lands
    obtain rfl := of_decide_eq_true lands
    exact ⟨0, Nat.le_refl 0, accruedReadings_claims,
      fun between _ before => absurd before (Nat.not_lt_zero between)⟩

theorem accruedReadings_guard {tick : Nat} (later : 0 < tick) :
    @guardAt sampleHashes sampleEarnings accruedReadings tick = true := by
  apply @guardAt_set sampleHashes _ _ _ _ accruedReadings_claims later
  intro between _ _
  rw [accruedReadings]
  split <;> decide

theorem accruedReadings_holds {tick : Nat} (later : 0 < tick) :
    ¬@ClaimsAt sampleHashes sampleEarnings accruedReadings tick := by
  intro claims
  have released := ((@claimsAt_iff sampleHashes _ _ _).mp claims).1
  rw [accruedReadings_guard later] at released
  cases released

theorem accruedReadings_reclaimable :
    @Reclaimable sampleHashes sampleEarnings accruedReadings 0 1 2 := by
  apply @Reclaimable.mk sampleHashes
  · exact accruedReadings_claims
  · decide
  · decide
  · decide
  · decide
  · intro tick after before
    obtain rfl : tick = 1 := by omega
    decide
  · intro tick after _
    exact accruedReadings_holds after

/-- The guard is never released, although the balance falls only when a claim
lands. -/
theorem guardReleased_accrued :
    (∀ tick, 0 < tick →
      @guardAt sampleHashes sampleEarnings accruedReadings tick = true) ∧
    ¬∀ cfg readings lands, @FallsOnlyOnClaims sampleHashes cfg readings lands →
      @GuardReleased sampleHashes cfg readings := by
  refine ⟨fun _ => accruedReadings_guard, fun released => ?_⟩
  exact accruedReadings_holds (by decide)
    (released _ _ _ accruedReadings_fall 0 1 2 accruedReadings_reclaimable)

end NodeAgent.Node
