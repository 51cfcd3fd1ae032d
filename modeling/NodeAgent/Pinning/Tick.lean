import Mathlib.Data.List.Infix
import NodeAgent.Library.Trace
import NodeAgent.Pinning.Plan
import NodeAgent.Pinning.Seal

/-!
# One tick of a pin

`pinning::tick_pin` reads the chain, asks the planner, and turns a seal or a
proof that is due into the request for it.  The chain view, the replica source,
the sealer and the signer are the environment: each of their calls may fail.
-/

namespace NodeAgent.Pinning

open BigEndian Chainio Interaction

structure ViewError where
  message : String
deriving DecidableEq

/-- The roots and the proof of a seal. -/
structure SealArtifacts where
  replicaId : Word
  commD : Word
  commR : Word
  commC : Word
  porepProof : Bytes
deriving DecidableEq

structure PinTxObserved where
  txHash : Option String
deriving DecidableEq

inductive PinSignerError
  | noSigner
  | declined (message : String)
  | reverted (reason : String)
deriving DecidableEq

inductive TickOutcome
  | idle
  | hold (reason : HoldReason)
  | requested (intent : PinIntent) (observed : PinTxObserved)
  | sealed (observed : PinTxObserved)
  | proved (observed : PinTxObserved)
deriving DecidableEq

inductive TickError
  | view (error : ViewError)
  | «seal» (error : SealerError)
  | sign (error : PinSignerError)
deriving DecidableEq

def INSUFFICIENT_SLOT_FUNDING_REVERT : String := "Insufficient slot funding"

/-- What a tick asks of its environment. -/
inductive PinOp
  | registered (me : Address)
  | pin (me : Address) (cid : Word) (sector : Nat)
  | slot (cid : Word) (sector : Nat)
  | currentBlock
  | unallocatedSlotFunding
  | replica (cid : Word) (sector : Nat)
  | «seal» (inputs : SealInputs)
  | provePost (inputs : SealInputs) (challengeIndex : Nat)
  | request (request : PinSignatureRequest)

abbrev PinAnswer : PinOp → Type
  | .registered _ => Except ViewError Bool
  | .pin _ _ _ => Except ViewError PinState
  | .slot _ _ => Except ViewError SlotState
  | .currentBlock => Except ViewError Nat
  | .unallocatedSlotFunding => Except ViewError Nat
  | .replica _ _ => Except ViewError Bytes
  | .seal _ => Except SealerError SealArtifacts
  | .provePost _ _ => Except SealerError Bytes
  | .request _ => Except PinSignerError PinTxObserved

abbrev PinProgram := Program PinOp PinAnswer

abbrev PinEvent := Event PinAnswer

/-- What the reads of one tick said. -/
structure PinReads where
  registered : Bool
  pin : PinState
  slot : SlotState
  currentBlock : Nat
  unallocatedSlotFunding : Nat

def planInput (config : PinConfig) (cid : Word) (sector : Nat)
    (reads : PinReads) : PinPlanInput where
  me := config.me
  cid := cid
  sector := sector
  registered := reads.registered
  pin := reads.pin
  slot := reads.slot
  quorum := config.quorum
  rounds := config.rounds
  perRound := config.perRound
  currentBlock := reads.currentBlock
  incentives := config.incentives
  bondWei := config.bondWei
  chainId := config.chainId
  slotSeedWei := FixedWidth.saturatingMul 128 config.quorum config.rewardWei
  unallocatedSlotFunding := reads.unallocatedSlotFunding

/-- The index of the challenged node. -/
def nonceToIndex (nonce : Word) (challengeN : UInt64) : Nat :=
  if challengeN = 0 then 0
  else ofBytes (nonce.toList.drop 24) % challengeN.toNat

theorem nonceToIndex_eq {nonce : Word} {challengeN : UInt64}
    (small : wordValue nonce < challengeN.toNat) :
    nonceToIndex nonce challengeN = wordValue nonce := by
  have width := challengeN.toNat_lt
  have clean : dirty 24 nonce.toList = false := by
    rw [dirty_word]
    omega
  have nodes : challengeN ≠ 0 := by
    intro none
    rw [none] at small
    cases small
  rw [nonceToIndex, if_neg nodes, ofBytes_drop clean]
  exact Nat.mod_eq_of_lt small

/-- Continue with the value, or fail with the wrapped error. -/
def attempt {ε α β : Type} (wrap : ε → TickError)
    (program : PinProgram (Except ε α))
    (next : α → PinProgram (Except TickError β)) :
    PinProgram (Except TickError β) := do
  match ← program with
  | .error error => return .error (wrap error)
  | .ok value => next value

section Hashes

variable [HashFunctions]

def sealCommitRequest (input : PinPlanInput) (sealed : SealArtifacts)
    (epoch : Nat) : PinSignatureRequest where
  intent := .sealCommit
  target := input.incentives
  calldata := encodeSealCommit input.cid input.sector sealed.replicaId epoch
    sealed.commD sealed.commR sealed.commC sealed.porepProof
  valueWei := input.bondWei
  chainId := input.chainId
  context := "sealCommit (post bond + PoRep)"
  expiresBlock := 0

def submitPostRequest (input : PinPlanInput) (sealed : SealArtifacts)
    (nonce : Word) (deadline : Nat) (postProof : Bytes) :
    PinSignatureRequest where
  intent := .submitPoSt
  target := input.incentives
  calldata := encodeSubmitPost input.cid input.sector sealed.commR
    sealed.commC nonce postProof
  valueWei := 0
  chainId := input.chainId
  context := "submitPoSt (answer challenge)"
  expiresBlock := deadline

/-- The stored replica, and its seal. -/
def sealReplica {α : Type} (config : PinConfig) (cid : Word) (sector : Nat)
    (next : SealInputs → SealArtifacts → PinProgram (Except TickError α)) :
    PinProgram (Except TickError α) :=
  attempt (fun error : ViewError => .seal (.replica error.message))
    (Program.perform (PinOp.replica cid sector)) fun bytes =>
  attempt TickError.seal (pure (sealInputs config cid sector bytes))
    fun inputs =>
  attempt TickError.seal (Program.perform (PinOp.seal inputs)) fun sealed =>
  next inputs sealed

/-- What a tick does about a planned action. -/
def act (config : PinConfig) (input : PinPlanInput) :
    PinAction → PinProgram (Except TickError TickOutcome)
  | .idle => return .ok .idle
  | .hold reason => return .ok (.hold reason)
  | .sign request =>
      attempt TickError.sign (Program.perform (PinOp.request request))
        fun observed =>
      return .ok (.requested request.intent observed)
  | .seal cid sector =>
      sealReplica config cid sector fun inputs sealed => do
      match ← Program.perform (PinOp.request
        (sealCommitRequest input sealed inputs.epoch)) with
      | .ok observed => return .ok (.sealed observed)
      | .error (.reverted reason) =>
          -- another pinner took the backing since the read
          if INSUFFICIENT_SLOT_FUNDING_REVERT.toList <:+: reason.toList then
            return .ok (.hold .slotUnfunded)
          else return .error (.sign (.reverted reason))
      | .error error => return .error (.sign error)
  | .prove cid sector nonce deadline =>
      sealReplica config cid sector fun inputs sealed =>
      attempt TickError.seal (Program.perform (PinOp.provePost inputs
        (nonceToIndex nonce config.challengeN))) fun proof =>
      attempt TickError.sign (Program.perform (PinOp.request
        (submitPostRequest input sealed nonce deadline proof)))
        fun observed =>
      return .ok (.proved observed)

/-- Advance one pin by at most one on-chain write. -/
def tickPin (config : PinConfig) (cid : Word) (sector : Nat) :
    PinProgram (Except TickError TickOutcome) :=
  attempt TickError.view (Program.perform (PinOp.registered config.me))
    fun registered =>
  attempt TickError.view (Program.perform (PinOp.pin config.me cid sector))
    fun pin =>
  attempt TickError.view (Program.perform (PinOp.slot cid sector))
    fun slot =>
  attempt TickError.view (Program.perform PinOp.currentBlock)
    fun currentBlock =>
  attempt TickError.view (Program.perform PinOp.unallocatedSlotFunding)
    fun unallocatedSlotFunding =>
  let input := planInput config cid sector
    { registered, pin, slot, currentBlock, unallocatedSlotFunding }
  act config input (planPin input)

/-- A plan to seal: the pin is fresh and the slot has room and backing. -/
structure PlansSeal (input : PinPlanInput) : Prop where
  registered : input.registered = true
  fresh : input.pin.status = .none
  room : input.slot.liveCount < input.quorum
  funded : input.slot.funded = true ∨
    input.slotSeedWei ≤ input.unallocatedSlotFunding

/-- A plan to prove: the challenge is open and in time. -/
structure PlansProve (input : PinPlanInput) : Prop where
  active : input.pin.status = .active
  challenged : input.pin.challengeOpen = true
  inTime : input.currentBlock ≤ input.pin.challengeDeadline

/-- What a planned action says about what was read. -/
def Warranted (input : PinPlanInput) : PinAction → Prop
  | .seal cid sector =>
      cid = input.cid ∧ sector = input.sector ∧ PlansSeal input
  | .prove cid sector nonce deadline =>
      cid = input.cid ∧ sector = input.sector ∧
        nonce = input.pin.challengeNonce ∧
        deadline = input.pin.challengeDeadline ∧ PlansProve input
  | .sign request =>
      request.valueWei = 0 ∧ request.intent ≠ .sealCommit ∧
        request.intent ≠ .submitPoSt
  | .idle => True
  | .hold _ => True

theorem Plans.warranted {input : PinPlanInput} {action : PinAction}
    (plans : Plans input action) : Warranted input action := by
  cases plans with
  | late status challenged closed => trivial
  | prove status challenged inTime =>
      exact ⟨rfl, rfl, rfl, rfl, status, challenged, inTime⟩
  | claim quiet owed => exact ⟨rfl, nofun, nofun⟩
  | returnBond status paid held => exact ⟨rfl, nofun, nofun⟩
  | challenge status quiet paid unfinished => exact ⟨rfl, nofun, nofun⟩
  | idle paid quiet free => trivial

theorem planPin_warranted (input : PinPlanInput) :
    Warranted input (planPin input) := by
  cases status : input.pin.status with
  | active => exact (plans_planPin (.inl status)).warranted
  | done => exact (plans_planPin (.inr status)).warranted
  | slashed =>
      have held : planPin input = .hold .pinSlashed := by
        simp [planPin, status]
      rw [held]
      trivial
  | none =>
      simp only [planPin, status, reduceCtorEq, false_and, if_false, if_true]
      split
      · exact ⟨rfl, nofun, nofun⟩
      · rename_i registered
        split
        · trivial
        · rename_i backed
          split
          · trivial
          · rename_i room
            refine ⟨rfl, rfl, by simpa using registered, status,
              not_le.mp room, ?_⟩
            by_cases funded : input.slot.funded = true
            · exact .inl funded
            · right
              rw [← not_lt]
              intro short
              exact backed ⟨by simp [funded], short⟩

end Hashes

end NodeAgent.Pinning
