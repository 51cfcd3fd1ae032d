import NodeAgent.Chainio.Hex

/-!
# The hex parsers

`parse_sha256_hex` of the daemon reads a digest pair by pair with the standard
library's integer parser, `parse_quantity` reads a quantity with it at once,
and `hex_decode` has its own nibbles.  All three accept the hex digits they
should; the first two also accept plus signs.
-/

namespace NodeAgent.Node

open Chainio Hex Text

/-- `u8::from_str_radix` on two characters. -/
def digestPair (pair : Char × Char) : Option UInt8 :=
  (fromStrRadix 16 255 [pair.1, pair.2]).map UInt8.ofNat

/-- A 32-byte digest from hex, with an optional `0x` in front. -/
def parseSha256Hex (s : String) : Option Word :=
  let text := (strip0x s.toList).getD s.toList
  if (utf8 (String.ofList text)).length ≠ 64 ∨
      ¬ text.all (fun char => char.toNat < 128) then none
  else do
    let out ← (pairs text).mapM digestPair
    if sized : out.length = 32 then some ⟨out, sized⟩ else none

/-- A hex digit, as a character test. -/
def isHex (char : Char) : Bool := (toDigit 16 char).isSome

theorem numeral_pair_iff {high low : Char} {number : Nat} :
    Numeral 16 [high, low] number ↔
      ∃ first second, toDigit 16 high = some first ∧
        toDigit 16 low = some second ∧ number = 16 * first + second := by
  constructor
  · intro numeral
    have digits := numeral.digits
    rw [digits_cons, digits_cons] at digits
    obtain ⟨first, firstRead⟩ := Option.isSome_iff_exists.mp digits.1
    obtain ⟨second, secondRead⟩ := Option.isSome_iff_exists.mp digits.2.1
    have spelled := numeral.spelled
    rw [value, valueFrom, valueFrom, valueFrom, firstRead, secondRead,
      Option.getD_some, Option.getD_some] at spelled
    exact ⟨first, second, firstRead, secondRead, by omega⟩
  · intro read
    obtain ⟨first, second, firstRead, secondRead, rfl⟩ := read
    refine ⟨List.cons_ne_nil _ _, ?_, ?_⟩
    · rw [digits_cons, digits_cons, firstRead, secondRead]
      exact ⟨rfl, rfl, digits_nil⟩
    · rw [value, valueFrom, valueFrom, valueFrom, firstRead, secondRead,
        Option.getD_some, Option.getD_some]
      omega

theorem digestPair_unsigned {pair : Char × Char} (unsigned : pair.1 ≠ '+') :
    digestPair pair = readPair pair := by
  ext byte
  rw [readPair_eq_some_iff, digestPair, Option.map_eq_some_iff]
  simp only [fromStrRadix_eq_some_iff (show 0 < 16 by decide),
    numeral_pair_iff]
  constructor
  · intro read
    obtain ⟨number, ⟨_, plain | ⟨digits, signed, _⟩⟩, rfl⟩ := read
    · obtain ⟨first, second, firstRead, secondRead, rfl⟩ := plain
      exact ⟨first, second, firstRead, secondRead, rfl⟩
    · exact absurd (List.cons.inj signed).1 unsigned
  · intro read
    obtain ⟨first, second, firstRead, secondRead, rfl⟩ := read
    have firstSmall := toDigit_lt firstRead
    have secondSmall := toDigit_lt secondRead
    exact ⟨16 * first + second, ⟨by omega, .inl
      ⟨first, second, firstRead, secondRead, rfl⟩⟩, rfl⟩

/-- Which pairs are read: a sign may stand in the place of the first digit. -/
theorem digestPair_isSome_iff {pair : Char × Char} :
    (digestPair pair).isSome = true ↔
      (pair.1 = '+' ∨ isHex pair.1 = true) ∧ isHex pair.2 = true := by
  by_cases signed : pair.1 = '+'
  · rw [digestPair, Option.isSome_map, signed, fromStrRadix,
      if_neg (List.cons_ne_nil _ _), isHex, isHex]
    cases read : toDigit 16 pair.2 with
    | none => simp [readDigits, read]
    | some digit =>
        have small := toDigit_lt read
        have fits : digit ≤ 255 := by omega
        simp [readDigits, read, fits]
  · rw [digestPair_unsigned signed, Option.isSome_iff_exists, isHex, isHex]
    simp only [readPair_eq_some_iff, signed, false_or,
      Option.isSome_iff_exists]
    constructor
    · intro read
      obtain ⟨_, first, second, firstRead, secondRead, _⟩ := read
      exact ⟨⟨first, firstRead⟩, ⟨second, secondRead⟩⟩
    · intro read
      obtain ⟨⟨first, firstRead⟩, ⟨second, secondRead⟩⟩ := read
      exact ⟨_, first, second, firstRead, secondRead, rfl⟩

/-- The string is this text, up to a `0x` in front. -/
def Bare (s : String) (text : List Char) : Prop :=
  s.toList = text ∨ s.toList = '0' :: 'x' :: text

/-- Exactly 64 hex digits, which spell the digest. -/
def SpellsDigest (s : String) (digest : Word) : Prop :=
  ∃ digits, Bare s digits ∧ digits.length = 64 ∧
    Spells digits digest.toList

/-- 64 characters in which some first digits of a pair are plus signs. -/
def SignedDigest (s : String) : Prop :=
  ∃ text, Bare s text ∧ text.length = 64 ∧ '+' ∈ text ∧
    ∀ pair ∈ pairs text,
      (pair.1 = '+' ∨ isHex pair.1 = true) ∧ isHex pair.2 = true

variable {s : String} {text : List Char} {digest : Word}

theorem ascii_of_digestPairs (even : text.length % 2 = 0)
    (read : ∀ pair ∈ pairs text, (digestPair pair).isSome = true) :
    ∀ char ∈ text, char.toNat < 128 := by
  intro char member
  obtain ⟨pair, inPairs, isHalf⟩ := mem_pairs even member
  obtain ⟨high, low⟩ := digestPair_isSome_iff.mp (read pair inPairs)
  rcases isHalf with rfl | rfl
  · rcases high with sign | isDigit
    · rw [sign]
      decide
    · exact toDigit_ascii isDigit
  · exact toDigit_ascii low

theorem strip0x_of_digestPairs
    (read : ∀ pair ∈ pairs text, (digestPair pair).isSome = true) :
    strip0x text = none := by
  apply Option.eq_none_iff_forall_ne_some.mpr
  intro rest stripped
  rw [strip0x_eq_some_iff] at stripped
  have first := read ('0', 'x') (by
    rw [stripped, pairs]
    exact List.mem_cons_self)
  cases first

/-- A digest is read off the pairs of 64 characters. -/
theorem parseSha256Hex_eq_some_iff :
    parseSha256Hex s = some digest ↔
      ∃ text, Bare s text ∧ text.length = 64 ∧
        (pairs text).mapM digestPair = some digest.toList := by
  rw [parseSha256Hex]
  constructor
  · intro parsed
    split at parsed
    · cases parsed
    · next checked =>
        obtain ⟨length, ascii⟩ := not_or.mp checked
        obtain ⟨out, reads, parsed⟩ := Option.bind_eq_some_iff.mp parsed
        split at parsed
        · cases parsed
          refine ⟨_, ?_, ?_, reads⟩
          · cases stripped : strip0x s.toList with
            | none => exact .inl rfl
            | some rest => exact .inr (strip0x_eq_some_iff.mp stripped)
          · have characters := List.all_eq_true.mp (not_not.mp ascii)
            rw [utf8_ascii fun char member =>
                of_decide_eq_true (characters char member),
              List.length_map, not_not] at length
            exact length
        · cases parsed
  · intro parsed
    obtain ⟨text, bare, length, reads⟩ := parsed
    have read := isSome_mapM_iff.mp (Option.isSome_iff_exists.mpr ⟨_, reads⟩)
    have ascii := ascii_of_digestPairs (by omega) read
    have stripped : (strip0x s.toList).getD s.toList = text := by
      rcases bare with same | prefixed
      · rw [same, strip0x_of_digestPairs read]
        rfl
      · rw [prefixed, strip0x_eq_some_iff.mpr rfl]
        rfl
    rw [stripped, if_neg, reads]
    · exact dif_pos digest.property
    · rw [not_or, utf8_ascii ascii, List.length_map, not_not, not_not,
        List.all_eq_true]
      exact ⟨length, fun char member => decide_eq_true (ascii char member)⟩

theorem digestPairs_unsigned (unsigned : '+' ∉ text) :
    (pairs text).mapM digestPair = (pairs text).mapM readPair := by
  apply mapM_congr
  intro pair member
  apply digestPair_unsigned
  intro sign
  exact unsigned (sign ▸ (mem_of_mem_pairs member).1)

theorem digestPairs_spells (unsigned : '+' ∉ text) (length : text.length = 64) :
    (pairs text).mapM digestPair = some digest.toList ↔
      Spells text digest.toList := by
  rw [digestPairs_unsigned unsigned, spells_iff (by omega)]

theorem SpellsDigest.unsigned (spells : SpellsDigest s digest) :
    '+' ∉ s.toList := by
  obtain ⟨digits, bare, _, spelled⟩ := spells
  have absent : '+' ∉ digits := fun member =>
    not_digits_of_mem member (toDigit_plus 16) spelled.digits
  rcases bare with same | prefixed
  · rw [same]
    exact absent
  · rw [prefixed]
    simp [absent]

theorem SignedDigest.signed (signed : SignedDigest s) : '+' ∈ s.toList := by
  obtain ⟨text, bare, _, sign, _⟩ := signed
  rcases bare with same | prefixed
  · rw [same]
    exact sign
  · rw [prefixed]
    exact List.mem_cons_of_mem _ (List.mem_cons_of_mem _ sign)

theorem SignedDigest.accepted (signed : SignedDigest s) :
    ∃ digest, parseSha256Hex s = some digest := by
  obtain ⟨text, bare, length, _, readable⟩ := signed
  have read : ((pairs text).mapM digestPair).isSome = true :=
    isSome_mapM_iff.mpr fun pair member =>
      digestPair_isSome_iff.mpr (readable pair member)
  obtain ⟨out, reads⟩ := Option.isSome_iff_exists.mp read
  have sized : out.length = 32 := by
    have paired := length_of_mapM reads
    have halves := length_pairs text
    omega
  exact ⟨⟨out, sized⟩,
    parseSha256Hex_eq_some_iff.mpr ⟨text, bare, length, reads⟩⟩

theorem parseSha256Hex_exact_iff :
    (∀ digest, parseSha256Hex s = some digest ↔ SpellsDigest s digest) ↔
      ¬ SignedDigest s := by
  constructor
  · intro agrees signed
    obtain ⟨digest, accepted⟩ := signed.accepted
    exact ((agrees digest).mp accepted).unsigned signed.signed
  · intro unsigned digest
    rw [parseSha256Hex_eq_some_iff]
    constructor
    · intro parsed
      obtain ⟨text, bare, length, reads⟩ := parsed
      have noSign : '+' ∉ text := by
        intro sign
        refine unsigned ⟨text, bare, length, sign, ?_⟩
        intro pair member
        apply digestPair_isSome_iff.mp
        exact isSome_mapM_iff.mp
          (Option.isSome_iff_exists.mpr ⟨_, reads⟩) pair member
      exact ⟨text, bare, length, (digestPairs_spells noSign length).mp reads⟩
    · intro spells
      obtain ⟨digits, bare, length, spelled⟩ := spells
      have noSign : '+' ∉ digits := fun member =>
        not_digits_of_mem member (toDigit_plus 16) spelled.digits
      exact ⟨digits, bare, length,
        (digestPairs_spells noSign length).mpr spelled⟩

/-- A `0x` in front of hex digits, which spell a 64-bit number. -/
def SpellsQuantity (s : String) (number : Nat) : Prop :=
  ∃ digits, s.toList = '0' :: 'x' :: digits ∧ Numeral 16 digits number ∧
    number < 2 ^ 64

/-- A plus sign between the `0x` and the digits. -/
def SignedQuantity (s : String) : Prop :=
  ∃ digits number, s.toList = '0' :: 'x' :: '+' :: digits ∧
    Numeral 16 digits number ∧ number < 2 ^ 64

theorem parseQuantity_exact_iff :
    (∀ number, parseQuantity s = .ok number ↔ SpellsQuantity s number) ↔
      ¬ SignedQuantity s := by
  constructor
  · intro agrees signed
    obtain ⟨digits, number, prefixed, numeral, fits⟩ := signed
    have accepted : parseQuantity s = .ok number :=
      parseQuantity_eq_ok_iff.mpr
        ⟨'+' :: digits, prefixed, fits, .inr ⟨digits, rfl, numeral⟩⟩
    obtain ⟨others, same, plain, _⟩ := (agrees number).mp accepted
    rw [prefixed] at same
    cases same
    exact not_numeral_plus plain
  · intro unsigned number
    rw [parseQuantity_eq_ok_iff]
    constructor
    · intro parsed
      obtain ⟨rest, prefixed, fits, plain | ⟨digits, rfl, numeral⟩⟩ := parsed
      · exact ⟨rest, prefixed, plain, fits⟩
      · exact absurd ⟨digits, number, prefixed, numeral, fits⟩ unsigned
    · intro spells
      obtain ⟨digits, prefixed, numeral, fits⟩ := spells
      exact ⟨digits, prefixed, fits, .inl numeral⟩

/-- Each parser accepts exactly the hex that it is for. -/
structure ExactAt (s : String) : Prop where
  digest : ∀ digest, parseSha256Hex s = some digest ↔ SpellsDigest s digest
  quantity : ∀ number, parseQuantity s = .ok number ↔ SpellsQuantity s number
  data : ∀ bytes, hexDecode s = .ok bytes ↔
    ∃ digits, s.toList = '0' :: 'x' :: digits ∧ Spells digits bytes

/-- The parsers are exact on just the strings without a sign that the standard
library reads past, and decoding undoes encoding. -/
theorem hexParsers_exact_iff (s : String) (bytes : Bytes) :
    (ExactAt s ↔ ¬ (SignedDigest s ∨ SignedQuantity s)) ∧
      hexDecode (hexEncode bytes) = .ok bytes := by
  refine ⟨?_, hexDecode_hexEncode bytes⟩
  rw [not_or, ← parseSha256Hex_exact_iff, ← parseQuantity_exact_iff]
  constructor
  · intro agrees
    exact ⟨agrees.digest, agrees.quantity⟩
  · intro agrees
    exact ⟨agrees.1, agrees.2, fun _ => hexDecode_eq_ok_iff⟩

/-- A digest that is all plus signs and ones. -/
def signedDigest : String :=
  String.ofList (List.replicate 32 ['+', '1']).flatten

theorem plus_mem_signedDigest : '+' ∈ signedDigest.toList := by
  have characters : signedDigest.toList =
      (List.replicate 32 ['+', '1']).flatten :=
    String.toList_ofList
  rw [characters]
  simp

/-- Both are read, and neither is hex. -/
theorem hexParsers_signed :
    (parseQuantity "0x+1" = .ok 1 ∧ ¬ ExactAt "0x+1") ∧
      parseSha256Hex signedDigest = some (List.Vector.replicate 32 1) ∧
        ¬ ExactAt signedDigest := by
  have quantity : parseQuantity "0x+1" = .ok 1 := by decide +kernel
  have digest : parseSha256Hex signedDigest =
      some (List.Vector.replicate 32 1) := by
    decide +kernel
  refine ⟨⟨quantity, ?_⟩, digest, ?_⟩
  · intro agrees
    obtain ⟨digits, prefixed, plain, _⟩ := (agrees.quantity 1).mp quantity
    have signed : digits = ['+', '1'] :=
      (List.cons.inj (List.cons.inj prefixed).2).2.symm
    rw [signed] at plain
    exact not_numeral_plus plain
  · intro agrees
    have spells := (agrees.digest _).mp digest
    exact spells.unsigned plus_mem_signedDigest

end NodeAgent.Node
