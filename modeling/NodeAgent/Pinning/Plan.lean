import NodeAgent.Chainio.Pinning
import NodeAgent.Library.FixedWidth

/-!
# The pin planner

`pinning::plan_pin` decides the next action for one pin from its chain record.
An open challenge comes first, then registration and sealing of a fresh pin,
then the claim, the bond and the next challenge.
-/

namespace NodeAgent.Pinning

open Chainio

inductive PinIntent
  | registerPinner
  | sealCommit
  | challenge
  | submitPoSt
  | claim
  | returnBond
deriving DecidableEq

/-- An unsigned pin write. -/
structure PinSignatureRequest where
  intent : PinIntent
  target : Address
  calldata : Bytes
  valueWei : Nat
  chainId : Nat
  context : String
  expiresBlock : Nat
deriving DecidableEq

inductive HoldReason
  | slotAtQuorum
  | slotUnfunded
  | pinSlashed
  | challengeWindowClosed
deriving DecidableEq

inductive PinAction
  | idle
  | sign (request : PinSignatureRequest)
  | «seal» (cid : Word) (sector : Nat)
  | prove (cid : Word) (sector : Nat) (nonce : Word) (deadline : Nat)
  | hold (reason : HoldReason)
deriving DecidableEq

structure PinPlanInput where
  me : Address
  cid : Word
  sector : Nat
  registered : Bool
  pin : PinState
  slot : SlotState
  quorum : Nat
  rounds : Nat
  perRound : Nat
  currentBlock : Nat
  incentives : Address
  bondWei : Nat
  chainId : Nat
  slotSeedWei : Nat
  unallocatedSlotFunding : Nat

/-- A signed action: every one is without value and without expiry. -/
def sign (intent : PinIntent) (calldata : Bytes) (context : String)
    (input : PinPlanInput) : PinAction :=
  .sign
    { intent := intent
      target := input.incentives
      calldata := calldata
      valueWei := 0
      chainId := input.chainId
      context := context
      expiresBlock := 0 }

/-- The reward of the proven rounds. -/
def vested (input : PinPlanInput) : Nat :=
  FixedWidth.saturatingMul 128 input.pin.round input.perRound

variable [HashFunctions]

/-- Decide the next action for one pin. -/
def planPin (input : PinPlanInput) : PinAction :=
  let pin := input.pin
  if pin.status = .active ∧ pin.challengeOpen then
    if input.currentBlock > pin.challengeDeadline then
      .hold .challengeWindowClosed
    else
      .prove input.cid input.sector pin.challengeNonce pin.challengeDeadline
  else if pin.status = .slashed then .hold .pinSlashed
  else if pin.status = .none then
    if !input.registered then
      sign .registerPinner encodeRegisterPinner "registerPinner" input
    else if !input.slot.funded ∧
        input.unallocatedSlotFunding < input.slotSeedWei then
      .hold .slotUnfunded
    else if input.slot.liveCount ≥ input.quorum then .hold .slotAtQuorum
    else .seal input.cid input.sector
  else if (pin.status = .active ∨ pin.status = .done) ∧
      vested input > pin.claimed then
    sign .claim (encodeClaim input.cid input.sector)
      s!"claim {vested input - pin.claimed} vested" input
  else if pin.status = .done ∧ pin.claimed = vested input ∧
      pin.bondHeld > 0 then
    sign .returnBond (encodeReturnBond input.cid input.sector) "returnBond"
      input
  else if pin.status = .active ∧ !pin.challengeOpen ∧
      pin.round < input.rounds then
    sign .challenge (encodeChallenge input.cid input.sector)
      s!"challenge round {pin.round + 1}" input
  else .idle

/-- What the planner does with a pin that is active or done, each action with
what was checked for it. -/
inductive Plans (input : PinPlanInput) : PinAction → Prop
  | late (status : input.pin.status = .active)
      (challenged : input.pin.challengeOpen = true)
      (closed : input.pin.challengeDeadline < input.currentBlock) :
      Plans input (.hold .challengeWindowClosed)
  | prove (status : input.pin.status = .active)
      (challenged : input.pin.challengeOpen = true)
      (inTime : input.currentBlock ≤ input.pin.challengeDeadline) :
      Plans input (.prove input.cid input.sector input.pin.challengeNonce
        input.pin.challengeDeadline)
  | claim (quiet : input.pin.status = .active →
        input.pin.challengeOpen = false)
      (owed : input.pin.claimed < vested input) :
      Plans input (sign .claim (encodeClaim input.cid input.sector)
        s!"claim {vested input - input.pin.claimed} vested" input)
  | returnBond (status : input.pin.status = .done)
      (paid : input.pin.claimed = vested input)
      (held : 0 < input.pin.bondHeld) :
      Plans input (sign .returnBond
        (encodeReturnBond input.cid input.sector) "returnBond" input)
  | challenge (status : input.pin.status = .active)
      (quiet : input.pin.challengeOpen = false)
      (paid : vested input ≤ input.pin.claimed)
      (unfinished : input.pin.round < input.rounds) :
      Plans input (sign .challenge (encodeChallenge input.cid input.sector)
        s!"challenge round {input.pin.round + 1}" input)
  | idle (paid : vested input ≤ input.pin.claimed)
      (quiet : input.pin.status = .active →
        input.pin.challengeOpen = false ∧ input.rounds ≤ input.pin.round)
      (free : input.pin.status = .done →
        input.pin.claimed = vested input → input.pin.bondHeld = 0) :
      Plans input .idle

theorem plans_planPin {input : PinPlanInput}
    (live : input.pin.status = .active ∨ input.pin.status = .done) :
    Plans input (planPin input) := by
  have notSlashed : input.pin.status ≠ .slashed := by
    rcases live with active | done <;> simp [*]
  have notNone : input.pin.status ≠ .none := by
    rcases live with active | done <;> simp [*]
  unfold planPin
  by_cases challenged : input.pin.status = .active ∧
      input.pin.challengeOpen = true
  · rw [if_pos challenged]
    by_cases closed : input.currentBlock > input.pin.challengeDeadline
    · rw [if_pos closed]
      exact .late challenged.1 challenged.2 closed
    · rw [if_neg closed]
      exact .prove challenged.1 challenged.2 (not_lt.mp closed)
  have quiet active : input.pin.challengeOpen = false :=
    Bool.eq_false_iff.mpr fun isOpen => challenged ⟨active, isOpen⟩
  rw [if_neg challenged, if_neg notSlashed, if_neg notNone]
  by_cases owed : vested input > input.pin.claimed
  · rw [if_pos ⟨live, owed⟩]
    exact .claim quiet owed
  rw [if_neg fun claims => owed claims.2]
  have paid := not_lt.mp owed
  by_cases returns : input.pin.status = .done ∧
      input.pin.claimed = vested input ∧ input.pin.bondHeld > 0
  · rw [if_pos returns]
    exact .returnBond returns.1 returns.2.1 returns.2.2
  rw [if_neg returns]
  by_cases next : input.pin.status = .active ∧ !input.pin.challengeOpen ∧
      input.pin.round < input.rounds
  · rw [if_pos next]
    exact .challenge next.1 (quiet next.1) paid next.2.2
  rw [if_neg next]
  refine .idle paid ?_ ?_
  · intro active
    refine ⟨quiet active, ?_⟩
    by_contra unfinished
    exact next ⟨active, by simp [quiet active], not_le.mp unfinished⟩
  · intro done settled
    by_contra held
    exact returns ⟨done, settled, Nat.pos_of_ne_zero held⟩

end NodeAgent.Pinning
