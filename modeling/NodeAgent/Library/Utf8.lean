import Mathlib.Data.List.Basic

/-!
# Reading bytes as text

Bytes that may not be UTF-8 are read character by character, and each longest
part that could begin a character but does not becomes one replacement
character.  Text that was encoded is read back, and bytes that are read without
a replacement are the encoding of what was read.
-/

namespace Utf8

/-- The bytes of some characters. -/
def encode (chars : List Char) : List UInt8 :=
  chars.flatMap String.utf8EncodeChar

/-- The character that the bytes begin with. -/
def decodeFirst (bytes : List UInt8) : Option Char :=
  (ByteArray.mk bytes.toArray).utf8DecodeChar? 0

/-- A character that cannot be read is shown as this one. -/
def replacement : Char := '\uFFFD'

/-- A byte after the first one of a character. -/
def continues (byte : UInt8) : Bool :=
  0x80 ≤ byte && byte ≤ 0xbf

/-- These two bytes begin a character of three or four bytes. -/
def opens (first second : UInt8) : Bool :=
  if first = 0xe0 then 0xa0 ≤ second && second ≤ 0xbf
  else if first = 0xed then 0x80 ≤ second && second ≤ 0x9f
  else if first = 0xf0 then 0x90 ≤ second && second ≤ 0xbf
  else if first = 0xf4 then 0x80 ≤ second && second ≤ 0x8f
  else 0xe1 ≤ first && first ≤ 0xf3 && continues second

/-- How many bytes are skipped where no character begins. -/
def invalidLength : List UInt8 → Nat
  | first :: second :: rest =>
      if opens first second then
        match rest with
        | third :: _ => if 0xf0 ≤ first && continues third then 3 else 2
        | [] => 2
      else 1
  | _ => 1

theorem decodeFirst_encode (char : Char) (rest : List UInt8) :
    decodeFirst (String.utf8EncodeChar char ++ rest) = some char := by
  have bytes : ByteArray.mk (String.utf8EncodeChar char ++ rest).toArray =
      (String.utf8EncodeChar char).toByteArray ++ rest.toByteArray := by
    rw [← List.toByteArray_append]
    apply ByteArray.ext
    exact (List.data_toByteArray).symm
  rw [decodeFirst, bytes]
  exact ByteArray.utf8DecodeChar?_utf8EncodeChar_append

theorem eq_of_decodeFirst {bytes : List UInt8} {char : Char}
    (read : decodeFirst bytes = some char) :
    bytes = String.utf8EncodeChar char ++ bytes.drop char.utf8Size := by
  obtain ⟨rest, split⟩ := ByteArray.exists_of_utf8DecodeChar?_eq_some read
  have lists : bytes = String.utf8EncodeChar char ++ rest.data.toList := by
    have data := congrArg (fun array => array.data.toList) split
    simpa using data
  have size := String.length_utf8EncodeChar char
  have dropped : bytes.drop char.utf8Size = rest.data.toList := by
    rw [lists, ← size, List.drop_left]
  rw [dropped]
  exact lists

theorem length_drop_lt {bytes : List UInt8} {char : Char}
    (read : decodeFirst bytes = some char) :
    (bytes.drop char.utf8Size).length < bytes.length := by
  have whole := congrArg List.length (eq_of_decodeFirst read)
  have positive := char.utf8Size_pos
  rw [List.length_append, String.length_utf8EncodeChar] at whole
  omega

theorem invalidLength_pos (bytes : List UInt8) : 0 < invalidLength bytes := by
  unfold invalidLength
  repeat' split
  all_goals decide

theorem length_skip_lt {bytes : List UInt8} (remains : bytes ≠ []) :
    (bytes.drop (invalidLength bytes)).length < bytes.length := by
  have positive := invalidLength_pos bytes
  have nonempty := List.length_pos_of_ne_nil remains
  rw [List.length_drop]
  omega

/-- The text of the bytes, with replacements. -/
def readLossy (bytes : List UInt8) : List Char :=
  if remains : bytes = [] then []
  else
    match read : decodeFirst bytes with
    | some char =>
        have := length_drop_lt read
        char :: readLossy (bytes.drop char.utf8Size)
    | none =>
        have := length_skip_lt remains
        replacement :: readLossy (bytes.drop (invalidLength bytes))
termination_by bytes.length
decreasing_by all_goals assumption

theorem readLossy_nil : readLossy [] = [] := by
  rw [readLossy, dif_pos rfl]

theorem readLossy_some {bytes : List UInt8} {char : Char}
    (read : decodeFirst bytes = some char) :
    readLossy bytes = char :: readLossy (bytes.drop char.utf8Size) := by
  have remains : bytes ≠ [] := by
    rintro rfl
    exact absurd (length_drop_lt read) (Nat.not_lt_zero _)
  rw [readLossy, dif_neg remains]
  split
  · next here =>
    cases here.symm.trans read
    rfl
  · next here => cases here.symm.trans read

theorem readLossy_none {bytes : List UInt8} (remains : bytes ≠ [])
    (read : decodeFirst bytes = none) :
    readLossy bytes =
      replacement :: readLossy (bytes.drop (invalidLength bytes)) := by
  rw [readLossy, dif_neg remains]
  split
  · next here => cases here.symm.trans read
  · rfl

theorem readLossy_encode (chars : List Char) :
    readLossy (encode chars) = chars := by
  induction chars with
  | nil => exact readLossy_nil
  | cons char rest ih =>
      have bytes : encode (char :: rest) =
          String.utf8EncodeChar char ++ encode rest := rfl
      have size := String.length_utf8EncodeChar char
      rw [bytes, readLossy_some (decodeFirst_encode char _), ← size,
        List.drop_left, ih]

/-- Without a replacement, the bytes are those of the text that was read. -/
theorem encode_readLossy {bytes : List UInt8}
    (whole : replacement ∉ readLossy bytes) :
    encode (readLossy bytes) = bytes := by
  induction bytes using readLossy.induct with
  | case1 =>
      rw [readLossy_nil]
      rfl
  | case2 bytes remains char read shorter ih =>
      rw [readLossy_some read] at whole ⊢
      have later := ih fun member => whole (List.mem_cons_of_mem char member)
      exact (congrArg (String.utf8EncodeChar char ++ ·) later).trans
        (eq_of_decodeFirst read).symm
  | case3 bytes remains read shorter ih =>
      rw [readLossy_none remains read] at whole
      exact absurd List.mem_cons_self whole

end Utf8
