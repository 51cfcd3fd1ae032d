import NodeAgent.Chainio.CappedRead
import NodeAgent.Chainio.Decoder
import NodeAgent.Library.Hex

/-!
# Hex parsers of the chain client

`chainio::abi::hex_decode` reads nibble by nibble and accepts exactly the even
strings of hex digits.  `chainio::rpc::parse_quantity` leaves the digits to the
standard library, which also accepts a plus sign in front of them.
-/

namespace NodeAgent.Chainio

open Hex Parsing Text

inductive RpcError
  | http (error : String)
  | rpc (code : Int) (message : String)
  | malformedResponse (text : String)
  | abi (error : AbiError)
  | refused (error : CappedReadError)
deriving DecidableEq

/-- The text after a leading `0x`. -/
def strip0x (text : List Char) : Option (List Char) :=
  text.dropPrefix? ['0', 'x']

/-- A `0x`-prefixed quantity, which need not have an even number of digits. -/
def parseQuantity (s : String) : Except RpcError Nat := do
  let stripped ← okOr (.malformedResponse s) (strip0x s.toList)
  okOr (.malformedResponse s) (fromStrRadix 16 (2 ^ 64 - 1) stripped)

def nib (char : UInt8) : Except AbiError UInt8 :=
  if 0x30 ≤ char ∧ char ≤ 0x39 then .ok (char - 0x30)
  else if 0x61 ≤ char ∧ char ≤ 0x66 then .ok (char - 0x61 + 10)
  else if 0x41 ≤ char ∧ char ≤ 0x46 then .ok (char - 0x41 + 10)
  else .error .badHex

/-- The byte behind two nibbles. -/
def decodePair (pair : UInt8 × UInt8) : Except AbiError UInt8 := do
  let high ← nib pair.1
  let low ← nib pair.2
  return high <<< 4 ||| low

def hexDecode (s : String) : Except AbiError Bytes := do
  let digits ← okOr .badHex (strip0x s.toList)
  let bytes := utf8 (String.ofList digits)
  if bytes.length % 2 ≠ 0 then .error .badHex
  else (pairs bytes).mapM decodePair

theorem strip0x_eq_some_iff {text rest : List Char} :
    strip0x text = some rest ↔ text = '0' :: 'x' :: rest := by
  constructor
  · exact dropPrefix?_eq_some
  · intro same
    rw [same]
    exact dropPrefix?_append ['0', 'x'] rest

theorem parseQuantity_eq_ok_iff {s : String} {number : Nat} :
    parseQuantity s = .ok number ↔
      ∃ rest, s.toList = '0' :: 'x' :: rest ∧ number < 2 ^ 64 ∧
        (Numeral 16 rest number ∨
          ∃ digits, rest = '+' :: digits ∧ Numeral 16 digits number) := by
  rw [parseQuantity, bind_eq_ok]
  simp only [okOr_eq_ok_iff, strip0x_eq_some_iff,
    fromStrRadix_eq_some_iff (show 0 < 16 by decide)]
  constructor
  · intro parsed
    obtain ⟨rest, split, fits, numeral⟩ := parsed
    exact ⟨rest, split, by omega, numeral⟩
  · intro parsed
    obtain ⟨rest, split, fits, numeral⟩ := parsed
    exact ⟨rest, split, by omega, numeral⟩

theorem utf8_ofList (text : List Char) :
    utf8 (String.ofList text) = text.flatMap String.utf8EncodeChar := by
  rw [utf8, String.toUTF8, String.toByteArray_ofList, List.utf8Encode,
    List.data_toByteArray]

theorem nib_ascii {char : Char} (ascii : char.toNat < 128) :
    nib (UInt8.ofNat char.toNat) =
      okOr .badHex ((toDigit 16 char).map UInt8.ofNat) := by
  have agree : ∀ code < 128, nib (UInt8.ofNat code) =
      okOr .badHex ((toDigit 16 (Char.ofNat code)).map UInt8.ofNat) := by
    decide +kernel
  have same := agree char.toNat ascii
  rw [Char.ofNat_toNat] at same
  exact same

theorem nib_high {byte : UInt8} (high : 128 ≤ byte.toNat) :
    nib byte = .error .badHex := by
  have refused : ∀ code < 256, 128 ≤ code →
      nib (UInt8.ofNat code) = .error .badHex := by
    decide +kernel
  have same := refused byte.toNat byte.toNat_lt high
  rw [UInt8.ofNat_toNat] at same
  exact same

theorem shift_or {first second : Nat} (firstSmall : first < 16)
    (secondSmall : second < 16) :
    UInt8.ofNat first <<< 4 ||| UInt8.ofNat second =
      pairByte first second := by
  have agree : ∀ first < 16, ∀ second < 16,
      UInt8.ofNat first <<< 4 ||| UInt8.ofNat second =
        pairByte first second := by
    decide +kernel
  exact agree first firstSmall second secondSmall

theorem utf8EncodeChar_ascii {char : Char} (ascii : char.toNat < 128) :
    String.utf8EncodeChar char = [UInt8.ofNat char.toNat] := by
  rw [String.utf8EncodeChar]
  exact if_pos (Nat.le_of_lt_succ ascii)

theorem utf8EncodeChar_high {char : Char} (high : 128 ≤ char.toNat) :
    ∃ byte ∈ String.utf8EncodeChar char, 128 ≤ byte.toNat := by
  have continues : 128 ≤ (UInt8.ofNat (char.val.toNat % 64 + 128)).toNat := by
    rw [UInt8.toNat_ofNat']
    omega
  refine ⟨_, ?_, continues⟩
  rw [String.utf8EncodeChar]
  have long : ¬ char.val.toNat ≤ 0x7f := Nat.not_le_of_lt high
  rw [if_neg long]
  split
  · simp
  · split
    · simp
    · simp

theorem utf8_ascii {text : List Char}
    (ascii : ∀ char ∈ text, char.toNat < 128) :
    utf8 (String.ofList text) =
      text.map fun char => UInt8.ofNat char.toNat := by
  rw [utf8_ofList]
  induction text with
  | nil => rfl
  | cons char rest ih =>
      obtain ⟨first, later⟩ := List.forall_mem_cons.mp ascii
      rw [List.flatMap_cons, utf8EncodeChar_ascii first, ih later]
      rfl

theorem decodePair_ascii {high low : Char} (highAscii : high.toNat < 128)
    (lowAscii : low.toNat < 128) :
    decodePair (UInt8.ofNat high.toNat, UInt8.ofNat low.toNat) =
      okOr .badHex (readPair (high, low)) := by
  rw [decodePair, readPair, nib_ascii highAscii, nib_ascii lowAscii]
  cases highRead : toDigit 16 high with
  | none => rfl
  | some first =>
      cases lowRead : toDigit 16 low with
      | none => rfl
      | some second =>
          exact congrArg Except.ok
            (shift_or (toDigit_lt highRead) (toDigit_lt lowRead))

theorem decodePairs_ascii {text : List Char}
    (ascii : ∀ char ∈ text, char.toNat < 128) :
    (pairs (text.map fun char => UInt8.ofNat char.toNat)).mapM decodePair =
      okOr .badHex ((pairs text).mapM readPair) := by
  induction text using pairs.induct with
  | case1 => rfl
  | case2 high => rfl
  | case3 high low rest ih =>
      obtain ⟨highAscii, later⟩ := List.forall_mem_cons.mp ascii
      obtain ⟨lowAscii, later⟩ := List.forall_mem_cons.mp later
      rw [List.map_cons, List.map_cons, pairs, pairs, List.mapM_cons,
        List.mapM_cons, decodePair_ascii highAscii lowAscii, ih later]
      cases readPair (high, low) with
      | none => rfl
      | some byte =>
          cases (pairs rest).mapM readPair with
          | none => rfl
          | some bytes => rfl

theorem nib_of_decodePairs {bytes decoded : Bytes}
    (even : bytes.length % 2 = 0)
    (decodes : (pairs bytes).mapM decodePair = .ok decoded) :
    ∀ byte ∈ bytes, ∃ value, nib byte = .ok value := by
  induction bytes, even using evenInduction generalizing decoded with
  | nil => nofun
  | pair high low rest _ ih =>
      rw [pairs, List.mapM_cons] at decodes
      obtain ⟨byte, pair, decodes⟩ := bind_eq_ok.mp decodes
      obtain ⟨later, restDecodes, _⟩ := bind_eq_ok.mp decodes
      obtain ⟨first, highRead, pair⟩ := bind_eq_ok.mp pair
      obtain ⟨second, lowRead, _⟩ := bind_eq_ok.mp pair
      exact List.forall_mem_cons.mpr ⟨⟨first, highRead⟩,
        List.forall_mem_cons.mpr ⟨⟨second, lowRead⟩, ih restDecodes⟩⟩

theorem ascii_of_nib {text : List Char}
    (nibbles : ∀ byte ∈ utf8 (String.ofList text),
      ∃ value, nib byte = .ok value) :
    ∀ char ∈ text, char.toNat < 128 := by
  intro char member
  by_contra long
  obtain ⟨byte, encoded, high⟩ := utf8EncodeChar_high (Nat.le_of_not_lt long)
  have inText : byte ∈ utf8 (String.ofList text) := by
    rw [utf8_ofList]
    exact List.mem_flatMap.mpr ⟨char, member, encoded⟩
  obtain ⟨value, read⟩ := nibbles byte inText
  rw [nib_high high] at read
  cases read

theorem hexDecode_eq_ok_iff {s : String} {bytes : Bytes} :
    hexDecode s = .ok bytes ↔
      ∃ digits, s.toList = '0' :: 'x' :: digits ∧ Spells digits bytes := by
  rw [hexDecode, bind_eq_ok]
  simp only [okOr_eq_ok_iff, strip0x_eq_some_iff]
  constructor
  · intro decodes
    obtain ⟨digits, stripped, decodes⟩ := decodes
    split at decodes
    · cases decodes
    · next even =>
        have even := Decidable.not_not.mp even
        have ascii := ascii_of_nib (nib_of_decodePairs even decodes)
        rw [utf8_ascii ascii, List.length_map] at even
        rw [utf8_ascii ascii, decodePairs_ascii ascii, okOr_eq_ok_iff,
          ← spells_iff even] at decodes
        exact ⟨digits, stripped, decodes⟩
  · intro spelled
    obtain ⟨digits, stripped, spells⟩ := spelled
    have ascii : ∀ char ∈ digits, char.toNat < 128 :=
      fun char member => toDigit_ascii (spells.digits char member)
    have even : digits.length % 2 = 0 := by
      rw [spells.length]
      omega
    refine ⟨digits, stripped, ?_⟩
    rw [utf8_ascii ascii, List.length_map, if_neg (not_not.mpr even),
      decodePairs_ascii ascii, okOr_eq_ok_iff, ← spells_iff even]
    exact spells

theorem toDigit_digitChar {digit : Nat} (small : digit < 16) :
    toDigit 16 (Nat.digitChar digit) = some digit := by
  have agree : ∀ digit < 16,
      toDigit 16 (Nat.digitChar digit) = some digit := by
    decide +kernel
  exact agree digit small

theorem spells_hexEncode (bytes : Bytes) :
    Spells (bytes.flatMap fun byte =>
      [Nat.digitChar (byte.toNat / 16), Nat.digitChar (byte.toNat % 16)])
      bytes := by
  induction bytes with
  | nil => exact spells_nil_iff.mpr rfl
  | cons byte rest ih =>
      have small := byte.toNat_lt
      have whole : pairByte (byte.toNat / 16) (byte.toNat % 16) = byte := by
        rw [pairByte, Nat.div_add_mod, UInt8.ofNat_toNat]
      exact spells_pair_iff.mpr ⟨byte, rest,
        readPair_eq_some_iff.mpr ⟨_, _,
          toDigit_digitChar (by omega), toDigit_digitChar (by omega), whole⟩,
        rfl, ih⟩

/-- Decoding undoes encoding. -/
theorem hexDecode_hexEncode (bytes : Bytes) :
    hexDecode (hexEncode bytes) = .ok bytes := by
  rw [hexDecode_eq_ok_iff]
  refine ⟨_, ?_, spells_hexEncode bytes⟩
  have start : "0x".toList = ['0', 'x'] := rfl
  rw [hexEncode, String.toList_append, start, String.toList_ofList]
  rfl

end NodeAgent.Chainio
