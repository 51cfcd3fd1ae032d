import NodeAgent.Chainio.Returns

/-!
# The model registry read

`chainio::model_registry`: `getModel` returns a flat tuple with four strings,
of which only the content identifier is decoded.  The static fields are read
in place and the string is followed through its offset, which is whatever the
node at the other end of the wire says it is.
-/

namespace NodeAgent.Chainio

open FixedWidth Parsing SolidityAbi

/-- Multiplication of two `usize` values, `none` on overflow. -/
def checkedMul (left right : Nat) : Option Nat :=
  if left * right ≤ maxValue 64 then some (left * right) else none

/-- The bytes of a range, if it lies inside the data. -/
def getRange (data : Bytes) (start stop : Nat) : Option Bytes :=
  if start ≤ stop ∧ stop ≤ data.length then
    some ((data.drop start).take (stop - start))
  else none

/-- A string from bytes that are valid UTF-8. -/
def fromUtf8 (bytes : Bytes) : Option String :=
  String.fromUTF8? ⟨bytes.toArray⟩

namespace ModelRegistry

/-- The word at an index that may come from a hostile offset. -/
def wordAt (data : Bytes) (index : Nat) : Except AbiError Word := do
  let start ← okOr .overflow (checkedMul index 32)
  let stop ← okOr .overflow (checkedAdd start 32)
  okOr (.tooShort (saturatingAdd 64 index 1) (data.length / 32))
    (Chainio.wordAt data start stop)

/-- A word as a byte offset or a length. -/
def beUsize (word : Word) : Except AbiError Nat :=
  okOr .overflow (wordUsize word)

def decodeGetModel (data : Bytes) : Except AbiError ModelInfo := do
  let owner ← toAddress (← wordAt data 0)
  let cidOff ← beUsize (← wordAt data 4)
  let isActive ← toBool (← wordAt data 7)
  let lenWord ← wordAt data (cidOff / 32)
  -- The word is read before the alignment of its offset is checked.
  if cidOff % 32 ≠ 0 then .error .badHex
  else do
    let len ← beUsize lenWord
    let start ← okOr .overflow (checkedAdd cidOff 32)
    let stop ← okOr .overflow (checkedAdd start len)
    let bytes ← okOr (.tooShort ((stop + 31) / 32) (data.length / 32))
      (getRange data start stop)
    let ipfsCid ← okOr .badString (fromUtf8 bytes)
    pure { owner, ipfsCid, isActive }

theorem checkedMul_eq_some_iff {left right product : Nat} :
    checkedMul left right = some product ↔
      left * right = product ∧ product < 2 ^ 64 := by
  rw [checkedMul, maxValue]
  split <;> simp <;> omega

theorem checkedAdd_eq_some_iff {left right sum : Nat} :
    checkedAdd left right = some sum ↔ left + right = sum ∧ sum < 2 ^ 64 := by
  rw [checkedAdd, maxValue]
  split <;> simp <;> omega

theorem getRange_eq_some_iff {data bytes : Bytes} {start stop : Nat}
    (ordered : start ≤ stop) :
    getRange data start stop = some bytes ↔
      Found data start bytes ∧ start + bytes.length = stop := by
  rw [getRange]
  constructor
  · intro read
    split at read
    · rename_i inside
      cases read
      have width : ((data.drop start).take (stop - start)).length =
          stop - start := by
        rw [List.length_take, List.length_drop]
        omega
      rw [width]
      refine ⟨Found.of_drop ?_ ?_, by omega⟩
      · omega
      · rw [width]
    · cases read
  · intro read
    obtain ⟨found, rfl⟩ := read
    rw [if_pos ⟨ordered, found.fits⟩, Nat.add_sub_cancel_left, found.drop]

theorem fromUtf8_eq_some_iff {bytes : Bytes} {text : String} :
    fromUtf8 bytes = some text ↔ utf8 text = bytes := by
  rw [fromUtf8, String.fromUTF8?]
  constructor
  · intro read
    split at read
    · cases read
      rfl
    · cases read
  · intro same
    have array : (⟨bytes.toArray⟩ : ByteArray) = text.toByteArray := by
      rw [← same]
      rfl
    rw [array, dif_pos text.isValidUTF8]
    rfl

theorem wordAt_eq_ok_iff {data : Bytes} {index : Nat} {word : Word} :
    wordAt data index = .ok word ↔
      Found data (32 * index) word.toList ∧ 32 * index + 32 < 2 ^ 64 := by
  simp only [wordAt, bind_eq_ok, okOr_eq_ok_iff, checkedMul_eq_some_iff,
    checkedAdd_eq_some_iff]
  constructor
  · intro read
    obtain ⟨start, ⟨startEq, _⟩, stop, ⟨rfl, fits⟩, found⟩ := read
    rw [Nat.mul_comm] at startEq
    rw [← startEq] at found fits
    exact ⟨wordAt_eq_some_iff.mp found, fits⟩
  · intro read
    obtain ⟨found, fits⟩ := read
    refine ⟨32 * index, ⟨Nat.mul_comm index 32, by omega⟩, 32 * index + 32,
      ⟨rfl, fits⟩, wordAt_eq_some_iff.mpr found⟩

theorem beUsize_eq_ok_iff {word : Word} {value : Nat} :
    beUsize word = .ok value ↔ word = uintWord value ∧ value < 2 ^ 64 := by
  rw [beUsize, okOr_eq_ok_iff]
  constructor
  · exact wordUsize_eq_some
  · intro read
    obtain ⟨rfl, fits⟩ := read
    exact wordUsize_uintWord fits

/-- The data holds this record: the static words are in place, and the
identifier follows the length word that its offset leads to.  The positions
are unbounded numbers. -/
structure Returned (data : Bytes) (info : ModelInfo) (offset length : Nat) :
    Prop where
  owner : Found data 0 (wordFromAddress info.owner).toList
  offsetWord : Found data (32 * 4) (uintWord offset).toList
  isActive : Found data (32 * 7) (uintWord info.isActive.toNat).toList
  aligned : offset % 32 = 0
  lengthWord : Found data offset (uintWord length).toList
  ipfsCid : Found data (offset + 32) (utf8 info.ipfsCid)
  width : (utf8 info.ipfsCid).length = length
  fits : offset + 32 + length < 2 ^ 64

/-- What is decoded is what the data holds. -/
theorem Returned.of_decodeGetModel {data : Bytes} {info : ModelInfo}
    (decoded : decodeGetModel data = .ok info) :
    ∃ offset length, Returned data info offset length := by
  simp only [decodeGetModel, bind_eq_ok] at decoded
  obtain ⟨ownerWord, ownerAt, owner, ownerRead, cidWord, cidAt, offset,
    offsetRead, activeWord, activeAt, isActive, activeRead, lenWord, lenAt,
    decoded⟩ := decoded
  split at decoded
  · cases decoded
  · rename_i aligned
    rw [not_not] at aligned
    simp only [bind_eq_ok, okOr_eq_ok_iff, checkedAdd_eq_some_iff] at decoded
    obtain ⟨length, lengthRead, start, ⟨rfl, _⟩, stop, ⟨rfl, fits⟩, bytes,
      bytesRead, ipfsCid, cidRead, record⟩ := decoded
    cases record
    rw [wordAt_eq_ok_iff] at ownerAt cidAt activeAt lenAt
    rw [beUsize_eq_ok_iff] at offsetRead lengthRead
    rw [toAddress_eq_ok ownerRead] at ownerAt
    rw [offsetRead.1] at cidAt
    rw [toBool_eq_ok activeRead] at activeAt
    rw [lengthRead.1, Nat.mul_div_cancel' (Nat.dvd_of_mod_eq_zero aligned)]
      at lenAt
    obtain ⟨found, width⟩ :=
      (getRange_eq_some_iff (Nat.le_add_right _ _)).mp bytesRead
    rw [← fromUtf8_eq_some_iff.mp cidRead] at found width
    exact ⟨offset, length, {
      owner := ownerAt.1
      offsetWord := cidAt.1
      isActive := activeAt.1
      aligned := aligned
      lengthWord := lenAt.1
      ipfsCid := found
      width := Nat.add_left_cancel width
      fits := fits }⟩

/-- What the data holds is decoded. -/
theorem Returned.decodeGetModel_eq_ok {data : Bytes} {info : ModelInfo}
    {offset length : Nat} (returned : Returned data info offset length) :
    decodeGetModel data = .ok info := by
  have fits := returned.fits
  have ownerAt : wordAt data 0 = .ok (wordFromAddress info.owner) :=
    wordAt_eq_ok_iff.mpr ⟨returned.owner, by omega⟩
  have offsetAt : wordAt data 4 = .ok (uintWord offset) :=
    wordAt_eq_ok_iff.mpr ⟨returned.offsetWord, by omega⟩
  have activeAt : wordAt data 7 = .ok (uintWord info.isActive.toNat) :=
    wordAt_eq_ok_iff.mpr ⟨returned.isActive, by omega⟩
  have lengthAt : wordAt data (offset / 32) = .ok (uintWord length) := by
    rw [wordAt_eq_ok_iff,
      Nat.mul_div_cancel' (Nat.dvd_of_mod_eq_zero returned.aligned)]
    exact ⟨returned.lengthWord, by omega⟩
  have offsetRead : beUsize (uintWord offset) = .ok offset :=
    beUsize_eq_ok_iff.mpr ⟨rfl, by omega⟩
  have lengthRead : beUsize (uintWord length) = .ok length :=
    beUsize_eq_ok_iff.mpr ⟨rfl, by omega⟩
  have start : checkedAdd offset 32 = some (offset + 32) :=
    checkedAdd_eq_some_iff.mpr ⟨rfl, by omega⟩
  have stop : checkedAdd (offset + 32) length = some (offset + 32 + length) :=
    checkedAdd_eq_some_iff.mpr ⟨rfl, fits⟩
  have bytes : getRange data (offset + 32) (offset + 32 + length) =
      some (utf8 info.ipfsCid) :=
    (getRange_eq_some_iff (Nat.le_add_right _ _)).mpr
      ⟨returned.ipfsCid, congrArg (offset + 32 + ·) returned.width⟩
  have text : fromUtf8 (utf8 info.ipfsCid) = some info.ipfsCid :=
    fromUtf8_eq_some_iff.mpr rfl
  simp only [decodeGetModel, ownerAt, offsetAt, activeAt, lengthAt, offsetRead,
    lengthRead, start, stop, bytes, text, okOr, toBool_uintWord,
    toAddress_wordFromAddress, returned.aligned, ok_bind, ne_eq,
    not_true_eq_false, if_false]
  rfl

/-- The tuple that the contract returns. -/
structure ModelTuple where
  owner : Address
  name : String
  framework : String
  version : String
  ipfsCid : String
  inferencePrice : Nat
  totalInferences : Nat
  isActive : Bool

namespace ModelTuple

def values (tuple : ModelTuple) : List Value :=
  [.word (wordFromAddress tuple.owner), .bytes (utf8 tuple.name),
    .bytes (utf8 tuple.framework), .bytes (utf8 tuple.version),
    .bytes (utf8 tuple.ipfsCid), .word (uintWord tuple.inferencePrice),
    .word (uintWord tuple.totalInferences),
    .word (uintWord tuple.isActive.toNat)]

/-- The standard return encoding of the tuple. -/
def encode (tuple : ModelTuple) : Bytes := SolidityAbi.encode tuple.values

/-- The fields that the agent uses. -/
def info (tuple : ModelTuple) : ModelInfo where
  owner := tuple.owner
  ipfsCid := tuple.ipfsCid
  isActive := tuple.isActive

/-- The three strings before the identifier. -/
def leading (tuple : ModelTuple) : List Value := tuple.values.take 4

theorem returned (tuple : ModelTuple) (small : tuple.encode.length < 2 ^ 64) :
    Returned tuple.encode tuple.info (tailOffset 8 tuple.leading)
      (utf8 tuple.ipfsCid).length := by
  have owner := encode_found_head [] (.word (wordFromAddress tuple.owner))
    (tuple.values.drop 1)
  have head := encode_found_head tuple.leading (.bytes (utf8 tuple.ipfsCid))
    (tuple.values.drop 5)
  have tail := encode_found_tail tuple.leading (.bytes (utf8 tuple.ipfsCid))
    (tuple.values.drop 5)
  have active := encode_found_head (tuple.values.take 7)
    (.word (uintWord tuple.isActive.toNat)) []
  have content := tail.right
  rw [List.Vector.toList_length] at content
  have inside := content.left.fits
  have aligned := aligned_tails tuple.leading
  exact {
    owner := owner
    offsetWord := head
    isActive := active
    aligned := by
      rw [tailOffset]
      omega
    lengthWord := tail.left
    ipfsCid := content.left
    width := rfl
    fits := Nat.lt_of_le_of_lt inside small }

end ModelTuple

/-- The return data of `getModel` is decoded exactly when it holds a record:
the standard encoding of every tuple does, and what is decoded from any data
lies inside it, at positions that 64 bits hold. -/
theorem decodeGetModel_exact :
    (∀ tuple : ModelTuple, tuple.encode.length < 2 ^ 64 →
      decodeGetModel tuple.encode = .ok tuple.info) ∧
    ∀ (data : Bytes) (info : ModelInfo),
      decodeGetModel data = .ok info ↔
        ∃ offset length, Returned data info offset length ∧
          offset + 32 + length ≤ data.length := by
  constructor
  · intro tuple small
    exact (tuple.returned small).decodeGetModel_eq_ok
  · intro data info
    constructor
    · intro decoded
      obtain ⟨offset, length, returned⟩ := Returned.of_decodeGetModel decoded
      have inside := returned.ipfsCid.fits
      rw [returned.width] at inside
      exact ⟨offset, length, returned, inside⟩
    · intro holds
      obtain ⟨offset, length, returned, _⟩ := holds
      exact returned.decodeGetModel_eq_ok

/-- A tuple with an empty name and an identifier of two words. -/
def sampleTuple : ModelTuple where
  owner := List.Vector.replicate 20 0xab
  name := ""
  framework := "onnx"
  version := "1"
  ipfsCid := "bafybeibxm2nsadl3fnxv2sxcxmxaco2rkxqamgwhrn2g7njkz6cab"
  inferencePrice := 7
  totalInferences := 99
  isActive := true

theorem decodeGetModel_exact_sample :
    sampleTuple.encode.length < 2 ^ 64 ∧
      decodeGetModel sampleTuple.encode = .ok sampleTuple.info := by
  have small : sampleTuple.encode.length < 2 ^ 64 := by decide +kernel
  exact ⟨small, decodeGetModel_exact.1 sampleTuple small⟩

end ModelRegistry

end NodeAgent.Chainio
