import NodeAgent.Library.Runs
import NodeAgent.Pinning.Plan

/-!
# The pin lifecycle runs to completion

The planner is run against the documented effects of its actions.  A live pin
vests round by round: challenge, answer, claim; then its bond is returned.  The
measure counts the actions that are left.
-/

namespace NodeAgent.Pinning

open Chainio

/-- The immutables of the vesting schedule. -/
structure VestingTerms where
  rounds : Nat
  perRound : Nat

/-- One planning of the pin: everything else the planner reads, and what the
contract picks when a challenge is opened. -/
structure PinTick where
  view : PinPlanInput
  window : Nat
  nonce : Word

namespace VestingTerms

/-- The planner's input for the pin as it is on chain. -/
def planInput (terms : VestingTerms) (pin : PinState) (tick : PinTick) :
    PinPlanInput :=
  { tick.view with
    pin := pin
    rounds := terms.rounds
    perRound := terms.perRound }

/-- The documented effect of an action on the pin. -/
def effect (terms : VestingTerms) (pin : PinState) (tick : PinTick) :
    PinAction → PinState
  | .sign request =>
      match request.intent with
      | .challenge =>
          { pin with
            challengeOpen := true
            challengeDeadline := tick.view.currentBlock + tick.window
            challengeNonce := tick.nonce }
      | .claim => { pin with claimed := pin.round * terms.perRound }
      | .returnBond => { pin with bondHeld := 0 }
      | .registerPinner | .sealCommit | .submitPoSt => pin
  | .prove _ _ _ _ =>
      { pin with
        challengeOpen := false
        round := pin.round + 1
        status := if pin.round + 1 = terms.rounds then .done else pin.status }
  | .idle | .seal _ _ | .hold _ => pin

/-- A pin that vests, or has vested. -/
structure Vesting (terms : VestingTerms) (pin : PinState) : Prop where
  phase : pin.status = .active ∧ pin.round < terms.rounds ∨
    pin.status = .done ∧ pin.round = terms.rounds
  claimed : pin.claimed ≤ pin.round * terms.perRound

/-- The end of the lifecycle: fully vested, fully paid, bond returned. -/
structure Finished (terms : VestingTerms) (pin : PinState) : Prop where
  status : pin.status = .done
  round : pin.round = terms.rounds
  claimed : pin.claimed = terms.rounds * terms.perRound
  bond : pin.bondHeld = 0

/-- An open challenge is planned no later than its deadline. -/
def Timely (pin : PinState) (tick : PinTick) : Prop :=
  pin.status = .active → pin.challengeOpen = true →
    tick.view.currentBlock ≤ pin.challengeDeadline

/-- The actions that are left: three for each open round, one for an owed
reward and one for a held bond; an open challenge is one of the three
already. -/
def remaining (terms : VestingTerms) (pin : PinState) : Nat :=
  3 * (terms.rounds - pin.round) +
    (if pin.claimed < pin.round * terms.perRound then 1 else 0) +
    (if 0 < pin.bondHeld then 1 else 0) -
    (if pin.status = .active ∧ pin.challengeOpen = true then 1 else 0)

variable {terms : VestingTerms} {pin : PinState} {tick : PinTick}

theorem Vesting.live (vesting : terms.Vesting pin) :
    pin.status = .active ∨ pin.status = .done :=
  vesting.phase.imp And.left And.left

theorem Vesting.round_le (vesting : terms.Vesting pin) :
    pin.round ≤ terms.rounds := by
  rcases vesting.phase with ⟨active, unfinished⟩ | ⟨done, finished⟩
  · exact unfinished.le
  · exact finished.le

theorem Vesting.vested (vesting : terms.Vesting pin)
    (fits : terms.rounds * terms.perRound < 2 ^ 128) (tick : PinTick) :
    Pinning.vested (terms.planInput pin tick) = pin.round * terms.perRound := by
  have rounds : pin.round * terms.perRound ≤ terms.rounds * terms.perRound :=
    Nat.mul_le_mul_right terms.perRound vesting.round_le
  apply min_eq_left
  change pin.round * terms.perRound ≤ 2 ^ 128 - 1
  omega

/-- The deadline of a challenge is set when it is opened, not below the
head. -/
theorem effect_deadline (terms : VestingTerms) (pin : PinState)
    (tick : PinTick) (action : PinAction) :
    (terms.effect pin tick action).challengeDeadline = pin.challengeDeadline ∨
      tick.view.currentBlock ≤
        (terms.effect pin tick action).challengeDeadline := by
  cases action with
  | sign request =>
      cases intent : request.intent with
      | challenge =>
          simp only [effect, intent]
          exact Or.inr (Nat.le_add_right _ _)
      | _ => exact Or.inl (by simp only [effect, intent])
  | _ => exact Or.inl rfl

variable [HashFunctions]

def planned (terms : VestingTerms) (pin : PinState) (tick : PinTick) :
    PinAction :=
  planPin (terms.planInput pin tick)

/-- One planning, and the effect of what was planned. -/
def step (terms : VestingTerms) (pin : PinState) (tick : PinTick) : PinState :=
  terms.effect pin tick (terms.planned pin tick)

/-- What one action of a vesting pin does. -/
structure Advances (terms : VestingTerms) (pin : PinState) (tick : PinTick) :
    Prop where
  works : (∃ request, terms.planned pin tick = .sign request ∧
      request.intent ≠ .registerPinner) ∨
    ∃ cid sector nonce deadline,
      terms.planned pin tick = .prove cid sector nonce deadline
  changes : terms.step pin tick ≠ pin
  claimed : pin.claimed ≤ (terms.step pin tick).claimed

/-- An action that advances a vesting pin towards its end. -/
structure Progresses (terms : VestingTerms) (pin : PinState) (tick : PinTick) :
    Prop where
  vesting : terms.Vesting (terms.step pin tick)
  fewer : terms.remaining (terms.step pin tick) < terms.remaining pin
  advances : terms.Advances pin tick

theorem vesting_prove (vesting : terms.Vesting pin)
    (status : pin.status = .active) (challenged : pin.challengeOpen = true)
    {cid : Word} {sector deadline : Nat} {nonce : Word}
    (proves : terms.planned pin tick = .prove cid sector nonce deadline) :
    terms.Progresses pin tick := by
  have unfinished : pin.round < terms.rounds := by
    rcases vesting.phase with ⟨active, unfinished⟩ | ⟨done, finished⟩
    · exact unfinished
    · simp [done] at status
  have after : terms.step pin tick = terms.effect pin tick
      (.prove cid sector nonce deadline) := congrArg _ proves
  have grows : pin.round * terms.perRound ≤
      (pin.round + 1) * terms.perRound :=
    Nat.mul_le_mul_right terms.perRound (Nat.le_succ pin.round)
  have claimed := vesting.claimed
  refine ⟨?_, ?_, Or.inr ⟨cid, sector, nonce, deadline, proves⟩, ?_, ?_⟩
  · rw [after]
    refine ⟨?_, claimed.trans grows⟩
    by_cases last : pin.round + 1 = terms.rounds
    · exact Or.inr ⟨if_pos last, last⟩
    · refine Or.inl ⟨(if_neg last).trans status, ?_⟩
      change pin.round + 1 < terms.rounds
      omega
  · rw [after]
    simp only [remaining, effect, status, challenged, and_self, if_true,
      Bool.false_eq_true, and_false, if_false]
    split <;> split <;> omega
  · rw [after]
    intro same
    have closed := congrArg PinState.challengeOpen same
    simp [effect, challenged] at closed
  · rw [after]
    exact le_rfl

theorem vesting_claim (vesting : terms.Vesting pin)
    (quiet : pin.status = .active → pin.challengeOpen = false)
    (owed : pin.claimed < pin.round * terms.perRound)
    {request : PinSignatureRequest} (intent : request.intent = .claim)
    (claims : terms.planned pin tick = .sign request) :
    terms.Progresses pin tick := by
  have after : terms.step pin tick =
      { pin with claimed := pin.round * terms.perRound } := by
    rw [step, claims]
    simp only [effect, intent]
  refine ⟨?_, ?_, Or.inl ⟨request, claims, by simp [intent]⟩, ?_, ?_⟩
  · rw [after]
    exact ⟨vesting.phase, le_rfl⟩
  · rw [after]
    have unchallenged : ¬(pin.status = .active ∧ pin.challengeOpen = true) := by
      intro challenged
      simp [quiet challenged.1] at challenged
    simp only [remaining, owed, unchallenged, if_true, lt_irrefl, if_false]
    omega
  · rw [after]
    intro same
    have paid := congrArg PinState.claimed same
    simp only at paid
    omega
  · rw [after]
    exact owed.le

theorem vesting_returnBond (vesting : terms.Vesting pin)
    (status : pin.status = .done) (held : 0 < pin.bondHeld)
    {request : PinSignatureRequest} (intent : request.intent = .returnBond)
    (returns : terms.planned pin tick = .sign request) :
    terms.Progresses pin tick := by
  have after : terms.step pin tick = { pin with bondHeld := 0 } := by
    rw [step, returns]
    simp only [effect, intent]
  refine ⟨?_, ?_, Or.inl ⟨request, returns, by simp [intent]⟩, ?_, ?_⟩
  · rw [after]
    exact ⟨vesting.phase, vesting.claimed⟩
  · rw [after]
    simp only [remaining, status, held, if_true, lt_irrefl, if_false,
      reduceCtorEq, false_and]
    omega
  · rw [after]
    intro same
    have free := congrArg PinState.bondHeld same
    simp only at free
    omega
  · rw [after]

theorem vesting_challenge (vesting : terms.Vesting pin)
    (status : pin.status = .active) (quiet : pin.challengeOpen = false)
    (unfinished : pin.round < terms.rounds) {request : PinSignatureRequest}
    (intent : request.intent = .challenge)
    (challenges : terms.planned pin tick = .sign request) :
    terms.Progresses pin tick := by
  have after : terms.step pin tick =
      { pin with
        challengeOpen := true
        challengeDeadline := tick.view.currentBlock + tick.window
        challengeNonce := tick.nonce } := by
    rw [step, challenges]
    simp only [effect, intent]
  refine ⟨?_, ?_, Or.inl ⟨request, challenges, by simp [intent]⟩, ?_, ?_⟩
  · rw [after]
    exact ⟨vesting.phase, vesting.claimed⟩
  · rw [after]
    simp only [remaining, status, quiet, and_self, if_true,
      Bool.false_eq_true, and_false, if_false]
    omega
  · rw [after]
    intro same
    have opened := congrArg PinState.challengeOpen same
    simp [quiet] at opened
  · rw [after]

/-- While it is not idle, the planner moves a vesting pin towards its end. -/
theorem vesting_step (fits : terms.rounds * terms.perRound < 2 ^ 128)
    (vesting : terms.Vesting pin) (timely : Timely pin tick)
    (busy : terms.planned pin tick ≠ .idle) :
    terms.Progresses pin tick := by
  have plans : Plans (terms.planInput pin tick) (terms.planned pin tick) :=
    plans_planPin vesting.live
  generalize decided : terms.planned pin tick = action at plans busy
  cases plans with
  | late status challenged closed =>
      exact absurd (timely status challenged) (not_le.mpr closed)
  | prove status challenged inTime =>
      exact vesting_prove vesting status challenged decided
  | claim quiet owed =>
      rw [vesting.vested fits] at owed
      exact vesting_claim vesting quiet owed rfl decided
  | returnBond status paid held =>
      exact vesting_returnBond vesting status held rfl decided
  | challenge status quiet paid unfinished =>
      exact vesting_challenge vesting status quiet unfinished rfl decided
  | idle paid quiet free => exact absurd rfl busy

theorem vesting_idle (fits : terms.rounds * terms.perRound < 2 ^ 128)
    (vesting : terms.Vesting pin) (idle : terms.planned pin tick = .idle) :
    terms.Finished pin := by
  have plans : Plans (terms.planInput pin tick) (terms.planned pin tick) :=
    plans_planPin vesting.live
  generalize decided : terms.planned pin tick = action at plans idle
  cases plans with
  | idle paid quiet free =>
      rw [vesting.vested fits] at paid free
      have settled : pin.claimed = pin.round * terms.perRound :=
        le_antisymm vesting.claimed paid
      rcases vesting.phase with ⟨active, unfinished⟩ | ⟨done, finished⟩
      · exact absurd (quiet active).2 (not_le.mpr unfinished)
      · exact ⟨done, finished, finished ▸ settled, free done settled⟩
  | _ => cases idle

/-- Planned in time, a pin's lifecycle runs to completion: the planner gets to
idle with everything vested, paid and returned, and every action before that
advances the pin. -/
theorem pin_runsToCompletion (terms : VestingTerms) (pin : PinState)
    (ticks : Nat → PinTick)
    (fits : terms.rounds * terms.perRound < 2 ^ 128)
    (vesting : terms.Vesting pin)
    (timely : ∀ count,
      Timely (Runs.trajectory terms.step pin ticks count) (ticks count)) :
    ∃ count ≤ terms.remaining pin,
      terms.planned (Runs.trajectory terms.step pin ticks count)
          (ticks count) = .idle ∧
        terms.Finished (Runs.trajectory terms.step pin ticks count) ∧
        ∀ earlier < count,
          terms.Advances (Runs.trajectory terms.step pin ticks earlier)
            (ticks earlier) := by
  have finishes := Runs.finishes
    terms.remaining
    (fun pin tick vesting timely busy =>
      have progress := vesting_step fits vesting timely busy
      ⟨progress.vesting, progress.fewer⟩) vesting timely
  obtain ⟨count, within, kept, idle, before⟩ := finishes
  refine ⟨count, within, idle, vesting_idle fits kept idle, ?_⟩
  intro earlier less
  obtain ⟨keptThere, busy⟩ := before earlier less
  exact (vesting_step fits keptThere (timely earlier) busy).advances

theorem timely_of_still {terms : VestingTerms} {pin : PinState}
    {tick : PinTick} (start : tick.view.currentBlock ≤ pin.challengeDeadline)
    (count : Nat) :
    Timely (Runs.trajectory terms.step pin (fun _ => tick) count) tick := by
  have ahead : tick.view.currentBlock ≤
      (Runs.trajectory terms.step pin (fun _ => tick)
        count).challengeDeadline := by
    induction count with
    | zero => exact start
    | succ count ih =>
        rcases effect_deadline terms
            (Runs.trajectory terms.step pin (fun _ => tick) count) tick
            (terms.planned _ tick) with kept | opened
        · exact kept ▸ ih
        · exact opened
  exact fun _ _ => ahead

end VestingTerms

def twoRounds : VestingTerms := ⟨2, 1000⟩

/-- Sealed and bonded, nothing proven yet. -/
def freshPin : PinState where
  status := .active
  round := 0
  missed := 0
  claimed := 0
  bondHeld := 10000
  challengeOpen := false
  challengeDeadline := 100
  challengeNonce := List.Vector.replicate 32 0

def stillTick : PinTick where
  view :=
    { me := List.Vector.replicate 20 0xbe
      cid := List.Vector.replicate 32 0x11
      sector := 0
      registered := true
      pin := freshPin
      slot := ⟨true, 9000, 1⟩
      quorum := 3
      rounds := 2
      perRound := 1000
      currentBlock := 100
      incentives := List.Vector.replicate 20 0x1f
      bondWei := 10000
      chainId := 40204
      slotSeedWei := 6000
      unallocatedSlotFunding := 0 }
  window := 50
  nonce := List.Vector.replicate 32 0

theorem pin_runsToCompletion_twoRounds :
    let pins := Runs.trajectory (@VestingTerms.step sampleHashes twoRounds)
      freshPin fun _ => stillTick
    ∃ count ≤ twoRounds.remaining freshPin,
      @VestingTerms.planned sampleHashes twoRounds (pins count) stillTick =
          .idle ∧
        twoRounds.Finished (pins count) ∧
        ∀ earlier < count,
          @VestingTerms.Advances sampleHashes twoRounds (pins earlier)
            stillTick :=
  @VestingTerms.pin_runsToCompletion sampleHashes twoRounds freshPin
    (fun _ => stillTick) (by decide) ⟨Or.inl ⟨rfl, by decide⟩, by decide⟩
    (@VestingTerms.timely_of_still sampleHashes twoRounds freshPin stillTick
      (by decide))

end NodeAgent.Pinning
