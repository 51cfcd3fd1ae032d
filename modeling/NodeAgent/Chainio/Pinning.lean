import NodeAgent.Chainio.Abi

/-!
# Pin records and write calldata

The decoded records of `chainio::pinning` and the calldata of the pin
lifecycle's writes.
-/

namespace NodeAgent.Chainio

/-- `IPFSIncentivesV2.Status`. -/
inductive PinStatus
  | none
  | active
  | done
  | slashed
deriving DecidableEq

/-- The part of `getPin` the daemon drives on. -/
structure PinState where
  status : PinStatus
  round : Nat
  missed : Nat
  claimed : Nat
  bondHeld : Nat
  challengeOpen : Bool
  challengeDeadline : Nat
  challengeNonce : Word
deriving DecidableEq

/-- `getSlot`. -/
structure SlotState where
  funded : Bool
  budget : Nat
  liveCount : Nat
deriving DecidableEq

variable [HashFunctions]

namespace Selectors

def pinRegisterPinner : Selector := selector "registerPinner()"

def pinSealCommit : Selector :=
  selector
    "sealCommit(bytes32,uint256,bytes32,uint256,bytes32,bytes32,bytes32,bytes)"

def pinChallenge : Selector := selector "challenge(bytes32,uint256)"

def pinSubmitPost : Selector :=
  selector "submitPoSt(bytes32,uint256,bytes32,bytes32,uint256,bytes)"

def pinClaim : Selector := selector "claim(bytes32,uint256)"

def pinReturnBond : Selector := selector "returnBond(bytes32,uint256)"

end Selectors

def encodeRegisterPinner : Bytes :=
  encodeCall Selectors.pinRegisterPinner []

/-- Eight head words, the last being the offset of the proof. -/
def encodeSealCommit (cid : Word) (sector : Nat) (replicaId : Word)
    (epoch : Nat) (commD commR commC : Word) (porepProof : Bytes) : Bytes :=
  let headLen := 8 * 32
  Selectors.pinSealCommit.toList ++
    cid.toList ++
    (wordFromU128 sector).toList ++
    replicaId.toList ++
    (wordFromU128 epoch).toList ++
    commD.toList ++
    commR.toList ++
    commC.toList ++
    (wordFromU128 headLen).toList ++
    encodeBytesTail porepProof

def encodeChallenge (cid : Word) (sector : Nat) : Bytes :=
  encodeCall Selectors.pinChallenge [cid, wordFromU128 sector]

/-- Six head words, the last being the offset of the proof. -/
def encodeSubmitPost (cid : Word) (sector : Nat) (commR commC : Word)
    (challengeNonce : Word) (postProof : Bytes) : Bytes :=
  let headLen := 6 * 32
  Selectors.pinSubmitPost.toList ++
    cid.toList ++
    (wordFromU128 sector).toList ++
    commR.toList ++
    commC.toList ++
    challengeNonce.toList ++
    (wordFromU128 headLen).toList ++
    encodeBytesTail postProof

def encodeClaim (cid : Word) (sector : Nat) : Bytes :=
  encodeCall Selectors.pinClaim [cid, wordFromU128 sector]

def encodeReturnBond (cid : Word) (sector : Nat) : Bytes :=
  encodeCall Selectors.pinReturnBond [cid, wordFromU128 sector]

end NodeAgent.Chainio
