import Mathlib.Tactic.Ring
import NodeAgent.Executor.Models
import NodeAgent.Library.Base32

/-!
# The base32 decoder

`executor::models::base32_lower_decode` shifts five bits at a time into an
accumulator and emits a byte whenever eight have arrived.  What it has emitted
and what is pending always spell the prefix that it has read, so it accepts
exactly the canonical encodings.
-/

namespace NodeAgent.Executor

open Base32 BigEndian Chainio

/-- The character of a digit: `a`–`z`, then `2`–`7`. -/
def base32Char (digit : Nat) : UInt8 :=
  if digit < 26 then UInt8.ofNat (0x61 + digit)
  else UInt8.ofNat (0x32 + (digit - 26))

/-- The lowercase unpadded encoding. -/
def base32LowerEncode (bytes : Bytes) : Bytes :=
  (encode bytes).map base32Char

theorem base32Digit_lt {char : UInt8} {digit : Nat}
    (read : base32Digit char = some digit) : digit < 32 := by
  rw [base32Digit] at read
  split at read
  · rename_i letter
    cases read
    have := UInt8.le_iff_toNat_le.mp letter.2
    rw [show UInt8.toNat 0x7a = 122 from rfl] at this
    omega
  · split at read
    · rename_i numeral
      cases read
      have := UInt8.le_iff_toNat_le.mp numeral.2
      rw [show UInt8.toNat 0x37 = 55 from rfl] at this
      omega
    · cases read

theorem base32Digit_base32Char {digit : Nat} (small : digit < 32) :
    base32Digit (base32Char digit) = some digit := by
  have every : ∀ digit < 32, base32Digit (base32Char digit) = some digit := by
    decide
  exact every digit small

theorem base32Char_of_digit {char : UInt8} {digit : Nat}
    (read : base32Digit char = some digit) : base32Char digit = char := by
  have every : ∀ value < 256, ∀ digit < 32,
      base32Digit (UInt8.ofNat value) = some digit →
        base32Char digit = UInt8.ofNat value := by
    decide +kernel
  have same := every char.toNat char.toNat_lt digit (base32Digit_lt read)
  rw [UInt8.ofNat_toNat] at same
  exact same read

theorem digits_of_decoded {acc nbits : Nat} {text bytes : Bytes}
    (decoded : base32LowerDecodeFrom acc nbits text = some bytes) :
    ∃ digits : List Nat,
      text = digits.map base32Char ∧ ∀ digit ∈ digits, digit < 32 := by
  induction text generalizing acc nbits bytes with
  | nil => exact ⟨[], rfl, nofun⟩
  | cons char text ih =>
      rw [base32LowerDecodeFrom] at decoded
      cases read : base32Digit char with
      | none =>
          rw [read] at decoded
          cases decoded
      | some digit =>
          have rest : ∃ acc nbits bytes,
              base32LowerDecodeFrom acc nbits text = some bytes := by
            rw [read, Option.bind_eq_bind, Option.bind_some] at decoded
            dsimp only at decoded
            split at decoded
            · rw [Option.bind_eq_bind, Option.bind_eq_some_iff] at decoded
              obtain ⟨later, decoded, _⟩ := decoded
              exact ⟨_, _, later, decoded⟩
            · exact ⟨_, _, bytes, decoded⟩
          obtain ⟨acc, nbits, bytes, decoded⟩ := rest
          obtain ⟨digits, rfl, small⟩ := ih decoded
          refine ⟨digit :: digits, ?_, ?_⟩
          · rw [List.map_cons, base32Char_of_digit read]
          · exact List.forall_mem_cons.mpr ⟨base32Digit_lt read, small⟩

/-- Started with `nbits` pending bits in `acc`, the loop emits `bytes` for
these digits and ends with `left` pending bits in `pending`. -/
structure Reads (acc nbits : Nat) (digits : List Nat) (bytes : Bytes)
    (pending left : Nat) : Prop where
  result : base32LowerDecodeFrom acc nbits (digits.map base32Char) =
    if left ≥ 5 ∨ pending ≠ 0 then none else some bytes
  bounded : pending < 2 ^ left
  partByte : left < 8
  bits : nbits + 5 * digits.length = 8 * bytes.length + left
  same : acc * 32 ^ digits.length + value digits =
    ofBytes bytes * 2 ^ left + pending

/-- With fewer than eight bits after a digit, it stays pending. -/
theorem Reads.keep {acc nbits digit : Nat} {digits : List Nat} {bytes : Bytes}
    {pending left : Nat} (small : digit < 32) (few : nbits + 5 < 8)
    (rest : Reads (acc * 32 + digit) (nbits + 5) digits bytes pending left) :
    Reads acc nbits (digit :: digits) bytes pending left where
  result := by
    rw [List.map_cons, base32LowerDecodeFrom, base32Digit_base32Char small]
    simp only [Option.bind_eq_bind, Option.bind_some, ge_iff_le,
      Nat.not_le.mpr few, if_false]
    exact rest.result
  bounded := rest.bounded
  partByte := rest.partByte
  bits := by
    have bits := rest.bits
    rw [List.length_cons]
    omega
  same := by
    rw [← rest.same, List.length_cons, value_cons, pow_succ]
    ring

/-- Otherwise the high eight bits are emitted, and the others stay. -/
theorem Reads.emit {acc nbits digit : Nat} {digits : List Nat} {bytes : Bytes}
    {pending left : Nat} (small : digit < 32) (bounded : acc < 2 ^ nbits)
    (full : 8 ≤ nbits + 5)
    (rest : Reads ((acc * 32 + digit) % 2 ^ (nbits + 5 - 8)) (nbits + 5 - 8)
      digits bytes pending left) :
    Reads acc nbits (digit :: digits)
      (UInt8.ofNat ((acc * 32 + digit) / 2 ^ (nbits + 5 - 8)) :: bytes)
      pending left := by
  have shifted : acc * 32 + digit < 2 ^ (nbits + 5) := by
    rw [pow_add]
    omega
  generalize shift : nbits + 5 - 8 = high at rest
  have width : nbits + 5 = 8 + high := by omega
  rw [width] at shifted
  have byte : (UInt8.ofNat ((acc * 32 + digit) / 2 ^ high)).toNat =
      (acc * 32 + digit) / 2 ^ high := by
    rw [UInt8.toNat_ofNat']
    apply Nat.mod_eq_of_lt
    apply Nat.div_lt_of_lt_mul
    rw [← pow_add, Nat.add_comm high 8]
    exact shifted
  constructor
  · rw [List.map_cons, base32LowerDecodeFrom, base32Digit_base32Char small]
    simp only [Option.bind_eq_bind, Option.bind_some, ge_iff_le, full, if_true,
      shift, rest.result]
    split
    · rfl
    · rfl
  · exact rest.bounded
  · exact rest.partByte
  · have bits := rest.bits
    rw [List.length_cons, List.length_cons]
    omega
  · have same := rest.same
    have position : 2 ^ high * 32 ^ digits.length =
        256 ^ bytes.length * 2 ^ left := by
      rw [← two_pow_five_mul, ← two_pow_eight_mul, ← pow_add, ← pow_add,
        rest.bits]
    have split := Nat.div_add_mod (acc * 32 + digit) (2 ^ high)
    rw [List.length_cons, value_cons, ofBytes_cons, byte]
    calc
      acc * 32 ^ (digits.length + 1) +
            (digit * 32 ^ digits.length + value digits) =
          (acc * 32 + digit) * 32 ^ digits.length + value digits := by
        rw [pow_succ]
        ring
      _ = (acc * 32 + digit) / 2 ^ high * (2 ^ high * 32 ^ digits.length) +
            ((acc * 32 + digit) % 2 ^ high * 32 ^ digits.length +
              value digits) := by
        nth_rewrite 1 [← split]
        ring
      _ = (ofBytes bytes + 256 ^ bytes.length *
            ((acc * 32 + digit) / 2 ^ high)) * 2 ^ left + pending := by
        rw [same, position]
        ring

theorem reads {digits : List Nat} (small : ∀ digit ∈ digits, digit < 32)
    {acc nbits : Nat} (bounded : acc < 2 ^ nbits) (partByte : nbits < 8) :
    ∃ bytes pending left, Reads acc nbits digits bytes pending left := by
  induction digits generalizing acc nbits with
  | nil =>
      refine ⟨[], acc, nbits, ?_⟩
      constructor
      · rfl
      · exact bounded
      · exact partByte
      · simp
      · simp
  | cons digit digits ih =>
      obtain ⟨first, others⟩ := List.forall_mem_cons.mp small
      have shifted : acc * 32 + digit < 2 ^ (nbits + 5) := by
        rw [pow_add]
        omega
      by_cases full : 8 ≤ nbits + 5
      · obtain ⟨bytes, pending, left, rest⟩ := ih others
          (Nat.mod_lt _ (Nat.two_pow_pos (nbits + 5 - 8))) (by omega)
        exact ⟨_, _, _, Reads.emit first bounded full rest⟩
      · obtain ⟨bytes, pending, left, rest⟩ := ih others shifted (by omega)
        exact ⟨_, _, _, Reads.keep first (by omega) rest⟩

theorem decode_digits_iff {digits : List Nat}
    (small : ∀ digit ∈ digits, digit < 32) {bytes : Bytes} :
    base32LowerDecode (digits.map base32Char) = some bytes ↔
      ∃ padding, Spells digits bytes padding := by
  obtain ⟨emitted, pending, left, reads⟩ :=
    reads small (show 0 < 2 ^ 0 by decide) (show 0 < 8 by decide)
  have bits := reads.bits
  have same := reads.same
  rw [Nat.zero_mul, Nat.zero_add] at same
  rw [base32LowerDecode, reads.result]
  constructor
  · intro accepted
    split at accepted
    · cases accepted
    · rename_i canonical
      cases accepted
      rw [not_or, not_not] at canonical
      refine ⟨left, ?_, by omega, ?_⟩
      · omega
      · rw [same, canonical.2, Nat.add_zero]
  · intro spelled
    obtain ⟨padding, spells⟩ := spelled
    have short := spells.short
    have spelledBits := spells.bits
    have partByte := reads.partByte
    have samePadding : left = padding := by omega
    subst samePadding
    -- both are quotients by 2 ^ left, and the bits below are zero
    have split : ofBytes emitted * 2 ^ left + pending =
        ofBytes bytes * 2 ^ left := by
      rw [← same, spells.same]
    have pendingZero : pending = 0 := by
      have residue := congrArg (· % 2 ^ left) split
      rw [Nat.mul_add_mod_self_right, Nat.mul_mod_left,
        Nat.mod_eq_of_lt reads.bounded] at residue
      exact residue
    rw [pendingZero, Nat.add_zero] at split
    have sameBytes : emitted = bytes := by
      apply eq_of_ofBytes_eq (by omega)
      exact Nat.eq_of_mul_eq_mul_right (Nat.two_pow_pos left) split
    rw [if_neg, sameBytes]
    rw [not_or, not_not]
    exact ⟨by omega, pendingZero⟩

/-- The decoder accepts the canonical encodings and inverts them. -/
theorem base32LowerDecode_eq_some_iff {text bytes : Bytes} :
    base32LowerDecode text = some bytes ↔ text = base32LowerEncode bytes := by
  constructor
  · intro decoded
    obtain ⟨digits, rfl, small⟩ := digits_of_decoded decoded
    have spelled := (decode_digits_iff small).mp decoded
    rw [base32LowerEncode, (eq_encode_iff small).mpr spelled]
  · intro encoded
    subst encoded
    apply (decode_digits_iff (encode_lt bytes)).mpr
    exact (eq_encode_iff (encode_lt bytes)).mp rfl

/-- The values that the loop's accumulator takes: after each shift, and after
each mask. -/
def accumulators (acc nbits : Nat) : Bytes → List Nat
  | [] => []
  | char :: rest =>
      match base32Digit char with
      | none => []
      | some digit =>
          let acc := acc * 32 + digit
          let nbits := nbits + 5
          if nbits ≥ 8 then
            acc :: acc % 2 ^ (nbits - 8) ::
              accumulators (acc % 2 ^ (nbits - 8)) (nbits - 8) rest
          else acc :: accumulators acc nbits rest

/-- The decoding loop with the values of its accumulator beside it. -/
def base32LowerTrace (acc nbits : Nat) : Bytes → Option Bytes × List Nat
  | [] => (if nbits ≥ 5 ∨ acc ≠ 0 then none else some [], [])
  | char :: rest =>
      match base32Digit char with
      | none => (none, [])
      | some digit =>
          let acc := acc * 32 + digit
          let nbits := nbits + 5
          if nbits ≥ 8 then
            let high := acc / 2 ^ (nbits - 8)
            let acc' := acc % 2 ^ (nbits - 8)
            let (decoded, values) := base32LowerTrace acc' (nbits - 8) rest
            (decoded.map (UInt8.ofNat high :: ·), acc :: acc' :: values)
          else
            let (decoded, values) := base32LowerTrace acc nbits rest
            (decoded, acc :: values)

/-- The accumulators are those of the decoder itself. -/
theorem base32LowerTrace_eq (acc nbits : Nat) (text : Bytes) :
    base32LowerTrace acc nbits text =
      (base32LowerDecodeFrom acc nbits text, accumulators acc nbits text) := by
  induction text generalizing acc nbits with
  | nil => rfl
  | cons char text ih =>
      rw [base32LowerTrace, base32LowerDecodeFrom, accumulators]
      cases base32Digit char with
      | none => rfl
      | some digit =>
          simp only [Option.bind_eq_bind, Option.bind_some, ih]
          split
          · cases base32LowerDecodeFrom _ _ text with
            | none => rfl
            | some decoded => rfl
          · rfl

theorem accumulators_lt {acc nbits : Nat} (bounded : acc < 2 ^ nbits)
    (partByte : nbits < 8) (text : Bytes) :
    ∀ value ∈ accumulators acc nbits text, value < 2 ^ 12 := by
  induction text generalizing acc nbits with
  | nil => nofun
  | cons char text ih =>
      rw [accumulators]
      cases read : base32Digit char with
      | none => nofun
      | some digit =>
          have small := base32Digit_lt read
          have shifted : acc * 32 + digit < 2 ^ (nbits + 5) := by
            rw [pow_add]
            omega
          have widest : 2 ^ (nbits + 5) ≤ 2 ^ 12 :=
            Nat.pow_le_pow_right (by omega) (by omega)
          have bound := Nat.lt_of_lt_of_le shifted widest
          dsimp only
          split
          · have masked := Nat.mod_lt (acc * 32 + digit)
              (Nat.two_pow_pos (nbits + 5 - 8))
            rw [List.forall_mem_cons, List.forall_mem_cons]
            exact ⟨bound, Nat.lt_of_le_of_lt (Nat.mod_le _ _) bound,
              ih masked (by omega)⟩
          · rw [List.forall_mem_cons]
            exact ⟨bound, ih shifted (by omega)⟩

/-- On every text, the decoder yields some bytes exactly when the text is
their encoding, and the accumulator that it runs with never needs more than
twelve bits. -/
theorem base32LowerDecode_inverse (text : Bytes) :
    (∀ bytes, base32LowerDecode text = some bytes ↔
      text = base32LowerEncode bytes) ∧
    base32LowerTrace 0 0 text =
      (base32LowerDecode text, accumulators 0 0 text) ∧
    ∀ value ∈ accumulators 0 0 text, value < 2 ^ 12 :=
  ⟨fun _ => base32LowerDecode_eq_some_iff, base32LowerTrace_eq 0 0 text,
    accumulators_lt (by decide) (by decide) text⟩

example : base32LowerEncode (utf8 "foobar") = utf8 "mzxw6ytboi" := by
  decide +kernel

end NodeAgent.Executor
