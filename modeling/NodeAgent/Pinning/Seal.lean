import NodeAgent.Chainio.Decoder

/-!
# Seal inputs

`pinning::seal_inputs` derives what is sealed for one sector from the replica
that is stored for it.  Each of the four data elements is a hash over the
content identifier, the sector, the index of the element and the whole replica.
-/

namespace NodeAgent.Pinning

open BigEndian Chainio

/-- The deployment that the planner and the sealer work for. -/
structure PinConfig where
  me : Address
  incentives : Address
  chainId : Nat
  quorum : Nat
  rounds : Nat
  perRound : Nat
  bondWei : Nat
  rewardWei : Nat
  challengeN : UInt64

structure SealInputs where
  pinnerIdentity : Word
  cid : Word
  sector : Nat
  epoch : Nat
  data : List.Vector Word 4
deriving DecidableEq

inductive SealerError
  | replica (message : String)
  | prove (message : String)
deriving DecidableEq

/-- What is hashed for one element; the replica comes last. -/
def preimage (tag : String) (cid : Word) (sector : Nat) (index : UInt8)
    (replica : Bytes) : Bytes :=
  utf8 tag ++ (cid.toList ++ (toBytes 16 sector ++ (index :: replica)))

/-- A hash as a field element: its first byte is cleared. -/
def clearFirst (hash : Word) : Word :=
  ⟨0 :: hash.toList.drop 1, by simp⟩

/-- Two hex digits for each byte. -/
def hexDigits (bytes : Bytes) : String :=
  String.ofList (bytes.flatMap fun byte =>
    [Nat.digitChar (byte.toNat / 16), Nat.digitChar (byte.toNat % 16)])

def noReplicaError (cid : Word) (sector : Nat) : SealerError :=
  .replica (s!"no local replica bytes for cid {hexDigits cid.toList} " ++
    s!"sector {sector}; refusing to seal a proof not bound to stored " ++
    "content (NA-B-002)")

section Hashes

variable [HashFunctions]

/-- The element at an index: the stored bytes are part of what is hashed. -/
def sealElement (cid : Word) (sector : Nat) (replica : Bytes)
    (index : Fin 4) : Word :=
  clearFirst (keccak256
    (preimage "PIN-reduced-data" cid sector (UInt8.ofNat index) replica))

/-- The low eight bytes of a hash over the sector alone. -/
def sealEpoch (cid : Word) (sector : Nat) : Nat :=
  ofBytes ((keccak256 (preimage "PIN-epoch" cid sector 0 [])).toList.drop 24)

def sealInputs (config : PinConfig) (cid : Word) (sector : Nat)
    (replica : Bytes) : Except SealerError SealInputs :=
  if replica = [] then .error (noReplicaError cid sector)
  else
    .ok
      { pinnerIdentity := wordFromAddress config.me
        cid := cid
        sector := sector
        epoch := sealEpoch cid sector
        data := List.Vector.ofFn (sealElement cid sector replica) }

theorem sealInputs_eq_ok_iff {config : PinConfig} {cid : Word} {sector : Nat}
    {replica : Bytes} {inputs : SealInputs} :
    sealInputs config cid sector replica = .ok inputs ↔
      replica ≠ [] ∧
        inputs =
          { pinnerIdentity := wordFromAddress config.me
            cid := cid
            sector := sector
            epoch := sealEpoch cid sector
            data := List.Vector.ofFn (sealElement cid sector replica) } := by
  rw [sealInputs]
  split
  · rename_i empty
    constructor
    · intro succeeds
      cases succeeds
    · intro succeeds
      exact absurd empty succeeds.1
  · rename_i present
    constructor
    · intro succeeds
      cases succeeds
      exact ⟨present, rfl⟩
    · intro succeeds
      rw [succeeds.2]

theorem sealInputs_fails_iff {config : PinConfig} {cid : Word} {sector : Nat}
    {replica : Bytes} :
    (∃ error, sealInputs config cid sector replica = .error error) ↔
      replica = [] := by
  rw [sealInputs]
  split
  · rename_i empty
    exact ⟨fun _ => empty, fun _ => ⟨_, rfl⟩⟩
  · rename_i present
    constructor
    · intro fails
      obtain ⟨error, fails⟩ := fails
      cases fails
    · intro empty
      exact absurd empty present

end Hashes

theorem preimage_injective {tag : String} {cid cid' : Word}
    {sector sector' : Nat} {index index' : UInt8} {replica replica' : Bytes}
    (fits : sector < 2 ^ 128) (fits' : sector' < 2 ^ 128)
    (same : preimage tag cid sector index replica =
      preimage tag cid' sector' index' replica') :
    cid = cid' ∧ sector = sector' ∧ index = index' ∧ replica = replica' := by
  have afterTag := List.append_cancel_left same
  obtain ⟨cids, afterCid⟩ := List.append_inj afterTag (by
    rw [cid.toList_length, cid'.toList_length])
  obtain ⟨sectors, afterSector⟩ := List.append_inj afterCid (by
    rw [length_toBytes, length_toBytes])
  obtain ⟨indices, replicas⟩ := List.cons.inj afterSector
  refine ⟨List.Vector.eq _ _ cids, ?_, indices, replicas⟩
  have value := congrArg ofBytes sectors
  rw [ofBytes_toBytes (by omega), ofBytes_toBytes (by omega)] at value
  exact value

theorem clearFirst_lt (hash : Word) : wordValue (clearFirst hash) < 2 ^ 248 := by
  have bytes : (clearFirst hash).toList = [0] ++ hash.toList.drop 1 := rfl
  have bound := ofBytes_lt (hash.toList.drop 1)
  rw [List.length_drop, hash.toList_length] at bound
  rw [wordValue, bytes, ofBytes_append, ofBytes_singleton, UInt8.toNat_zero,
    Nat.mul_zero, Nat.add_zero]
  exact Nat.lt_of_lt_of_eq bound (by decide)

theorem wordFromAddress_injective {first second : Address}
    (same : wordFromAddress first = wordFromAddress second) :
    first = second := by
  have bytes := congrArg List.Vector.toList same
  exact List.Vector.eq _ _ (List.append_cancel_left bytes)

/-- One call of `seal_inputs`; the sector is a `u128`. -/
structure SealCall where
  config : PinConfig
  cid : Word
  sector : Nat
  replica : Bytes
  fits : sector < 2 ^ 128

namespace SealCall

/-- What the four data elements are hashes of. -/
def preimages (call : SealCall) : List Bytes :=
  List.ofFn fun index : Fin 4 =>
    preimage "PIN-reduced-data" call.cid call.sector (UInt8.ofNat index)
      call.replica

theorem mem_preimages (call : SealCall) (index : Fin 4) :
    preimage "PIN-reduced-data" call.cid call.sector (UInt8.ofNat index)
      call.replica ∈ call.preimages :=
  List.mem_ofFn.mpr ⟨index, rfl⟩

end SealCall

section Hashes

variable [HashFunctions]

/-- The cleared hash tells these byte strings apart. -/
def CollisionFree (preimages : List Bytes) : Prop :=
  ∀ first ∈ preimages, ∀ second ∈ preimages,
    clearFirst (keccak256 first) = clearFirst (keccak256 second) →
      first = second

instance (preimages : List Bytes) : Decidable (CollisionFree preimages) :=
  inferInstanceAs (Decidable (∀ first ∈ preimages, ∀ second ∈ preimages,
    clearFirst (keccak256 first) = clearFirst (keccak256 second) →
      first = second))

namespace SealCall

def inputs (call : SealCall) : Except SealerError SealInputs :=
  sealInputs call.config call.cid call.sector call.replica

theorem data_get {call : SealCall} {inputs : SealInputs}
    (succeeds : call.inputs = .ok inputs) (index : Fin 4) :
    inputs.data.get index =
      sealElement call.cid call.sector call.replica index := by
  rw [(sealInputs_eq_ok_iff.mp succeeds).2, List.Vector.get_ofFn]

theorem parts_eq {first second : SealCall} {index index' : Fin 4}
    (free : CollisionFree (first.preimages ++ second.preimages))
    (same : sealElement first.cid first.sector first.replica index =
      sealElement second.cid second.sector second.replica index') :
    first.cid = second.cid ∧ first.sector = second.sector ∧
      UInt8.ofNat index = UInt8.ofNat index' ∧
      first.replica = second.replica := by
  have preimages := free _ (List.mem_append_left _ (first.mem_preimages index))
    _ (List.mem_append_right _ (second.mem_preimages index')) same
  exact preimage_injective first.fits second.fits preimages

theorem data_eq_iff {first second : SealCall}
    {firstInputs secondInputs : SealInputs}
    (firstSucceeds : first.inputs = .ok firstInputs)
    (secondSucceeds : second.inputs = .ok secondInputs)
    (free : CollisionFree (first.preimages ++ second.preimages)) :
    firstInputs.data = secondInputs.data ↔
      first.cid = second.cid ∧ first.sector = second.sector ∧
        first.replica = second.replica := by
  constructor
  · intro same
    have element := congrArg (fun data => data.get 0) same
    rw [data_get firstSucceeds, data_get secondSucceeds] at element
    obtain ⟨cid, sector, _, replica⟩ := parts_eq free element
    exact ⟨cid, sector, replica⟩
  · intro same
    obtain ⟨cid, sector, replica⟩ := same
    rw [(sealInputs_eq_ok_iff.mp firstSucceeds).2,
      (sealInputs_eq_ok_iff.mp secondSucceeds).2, cid, sector, replica]

theorem data_distinct {call : SealCall} {inputs : SealInputs}
    (succeeds : call.inputs = .ok inputs)
    (free : CollisionFree call.preimages) {index index' : Fin 4}
    (distinct : index ≠ index') :
    inputs.data.get index ≠ inputs.data.get index' := by
  intro same
  rw [data_get succeeds, data_get succeeds] at same
  have preimages := free _ (call.mem_preimages index) _
    (call.mem_preimages index') same
  obtain ⟨_, _, bytes, _⟩ := preimage_injective call.fits call.fits preimages
  have values := congrArg UInt8.toNat bytes
  rw [UInt8.toNat_ofNat', UInt8.toNat_ofNat'] at values
  have := index.isLt
  have := index'.isLt
  apply distinct
  apply Fin.ext
  omega

theorem data_lt {call : SealCall} {inputs : SealInputs}
    (succeeds : call.inputs = .ok inputs) (index : Fin 4) :
    wordValue (inputs.data.get index) < 2 ^ 248 := by
  rw [data_get succeeds]
  exact clearFirst_lt _

theorem identity_eq_iff {first second : SealCall}
    {firstInputs secondInputs : SealInputs}
    (firstSucceeds : first.inputs = .ok firstInputs)
    (secondSucceeds : second.inputs = .ok secondInputs) :
    firstInputs.pinnerIdentity = secondInputs.pinnerIdentity ↔
      first.config.me = second.config.me := by
  rw [(sealInputs_eq_ok_iff.mp firstSucceeds).2,
    (sealInputs_eq_ok_iff.mp secondSucceeds).2]
  exact ⟨wordFromAddress_injective, congrArg wordFromAddress⟩

theorem derived_eq {first second : SealCall}
    {firstInputs secondInputs : SealInputs}
    (firstSucceeds : first.inputs = .ok firstInputs)
    (secondSucceeds : second.inputs = .ok secondInputs)
    (cid : first.cid = second.cid) (sector : first.sector = second.sector)
    (replica : first.replica = second.replica) :
    firstInputs.data = secondInputs.data ∧
      firstInputs.epoch = secondInputs.epoch := by
  rw [(sealInputs_eq_ok_iff.mp firstSucceeds).2,
    (sealInputs_eq_ok_iff.mp secondSucceeds).2, cid, sector, replica]
  exact ⟨rfl, rfl⟩

end SealCall

end Hashes

end NodeAgent.Pinning
