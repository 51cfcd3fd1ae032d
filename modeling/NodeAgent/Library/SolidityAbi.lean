import Mathlib.Data.Vector.Basic
import NodeAgent.Library.BigEndian

/-!
# Solidity argument encoding

The standard encoding of a sequence of arguments: a head of one word for each
argument, then the tails of the dynamic ones in order.  The head word of a
dynamic argument is the offset of its tail.  The reference decoder knows the
types of the arguments and follows the offsets.
-/

namespace SolidityAbi

open BigEndian

abbrev Word := List.Vector UInt8 32

/-- The types of argument that occur here: a static word, `bytes` (also
`string`) and `bytes32[]`. -/
inductive Kind
  | word
  | bytes
  | words
deriving DecidableEq

inductive Value
  | word (content : Word)
  | bytes (content : List UInt8)
  | words (elements : List Word)
deriving DecidableEq

def Value.kind : Value → Kind
  | .word _ => .word
  | .bytes _ => .bytes
  | .words _ => .words

theorem length_uint (value : Nat) : (toBytes 32 value).length = 32 :=
  length_toBytes 32 value

/-- The word of a `uint256`. -/
def uint (value : Nat) : Word := ⟨toBytes 32 value, length_uint value⟩

/-- The zeros that fill a byte string up to a word boundary. -/
def padding (length : Nat) : List UInt8 :=
  List.replicate ((32 - length % 32) % 32) 0

namespace Value

/-- The length word and the content of a dynamic value. -/
def tail : Value → List UInt8
  | .word _ => []
  | .bytes content =>
      (uint content.length).toList ++ (content ++ padding content.length)
  | .words elements =>
      (uint elements.length).toList ++ elements.flatMap List.Vector.toList

@[simp] theorem tail_word (content : Word) : (word content).tail = [] := rfl

/-- The head word of a value whose tail starts at `offset`. -/
def head (offset : Nat) : Value → Word
  | .word content => content
  | .bytes _ => uint offset
  | .words _ => uint offset

end Value

/-- The head words of values whose tails start at `offset`. -/
def heads : Nat → List Value → List UInt8
  | _, [] => []
  | offset, value :: values =>
      (value.head offset).toList ++ heads (offset + value.tail.length) values

def tails (values : List Value) : List UInt8 :=
  values.flatMap Value.tail

def encode (values : List Value) : List UInt8 :=
  heads (32 * values.length) values ++ tails values

/-- The bytes of a range, if it lies inside the data. -/
def slice (data : List UInt8) (start length : Nat) : Option (List UInt8) :=
  if start + length ≤ data.length then some ((data.drop start).take length)
  else none

def wordAt (data : List UInt8) (start : Nat) : Option Word :=
  if inside : start + 32 ≤ data.length then
    some ⟨(data.drop start).take 32, by
      rw [List.length_take, List.length_drop]
      omega⟩
  else none

def uintAt (data : List UInt8) (start : Nat) : Option Nat := do
  let word ← wordAt data start
  some (ofBytes word.toList)

/-- Consecutive words. -/
def wordsAt (data : List UInt8) : Nat → Nat → Option (List Word)
  | _, 0 => some []
  | start, count + 1 => do
      let first ← wordAt data start
      let rest ← wordsAt data (start + 32) count
      some (first :: rest)

/-- The value of a type whose head word is at `position`.  Padding that is not
zero is refused. -/
def decodeValue (data : List UInt8) (position : Nat) : Kind → Option Value
  | .word => do
      let content ← wordAt data position
      some (.word content)
  | .bytes => do
      let offset ← uintAt data position
      let length ← uintAt data offset
      let content ← slice data (offset + 32) length
      let fill ← slice data (offset + 32 + length) (padding length).length
      if fill = padding length then some (.bytes content) else none
  | .words => do
      let offset ← uintAt data position
      let count ← uintAt data offset
      let elements ← wordsAt data (offset + 32) count
      some (.words elements)

def decodeFrom (data : List UInt8) : Nat → List Kind → Option (List Value)
  | _, [] => some []
  | position, kind :: kinds => do
      let value ← decodeValue data position kind
      let values ← decodeFrom data (position + 32) kinds
      some (value :: values)

def decode (kinds : List Kind) (data : List UInt8) : Option (List Value) :=
  decodeFrom data 0 kinds

/-- The bytes stand at this place of the data. -/
def Found (data : List UInt8) (start : Nat) (bytes : List UInt8) : Prop :=
  ∃ before after, data = before ++ (bytes ++ after) ∧ before.length = start

namespace Found

variable {data first second bytes : List UInt8} {start : Nat}

theorem fits (found : Found data start bytes) :
    start + bytes.length ≤ data.length := by
  obtain ⟨before, after, rfl, rfl⟩ := found
  simp only [List.length_append]
  omega

theorem left (found : Found data start (first ++ second)) :
    Found data start first := by
  obtain ⟨before, after, rfl, rfl⟩ := found
  exact ⟨before, second ++ after, by rw [List.append_assoc], rfl⟩

theorem right (found : Found data start (first ++ second)) :
    Found data (start + first.length) second := by
  obtain ⟨before, after, rfl, rfl⟩ := found
  exact ⟨before ++ first, after, by simp, List.length_append⟩

theorem drop (found : Found data start bytes) :
    (data.drop start).take bytes.length = bytes := by
  obtain ⟨before, after, rfl, rfl⟩ := found
  rw [List.drop_left, List.take_left]

theorem of_drop (inside : start + bytes.length ≤ data.length)
    (content : (data.drop start).take bytes.length = bytes) :
    Found data start bytes := by
  refine ⟨data.take start, data.drop (start + bytes.length), ?_, ?_⟩
  · have later := List.take_append_drop bytes.length (data.drop start)
    rw [content, List.drop_drop] at later
    rw [later, List.take_append_drop]
  · rw [List.length_take]
    omega

theorem slice (found : Found data start bytes) :
    slice data start bytes.length = some bytes := by
  rw [SolidityAbi.slice, if_pos found.fits, found.drop]

theorem wordAt {word : Word} (found : Found data start word.toList) :
    wordAt data start = some word := by
  have inside := found.fits
  have content := found.drop
  rw [word.toList_length] at inside content
  rw [SolidityAbi.wordAt, dif_pos inside]
  apply congrArg some
  apply List.Vector.eq
  exact content

theorem uintAt {value : Nat} (found : Found data start (uint value).toList)
    (fits : value < 256 ^ 32) : uintAt data start = some value := by
  rw [SolidityAbi.uintAt, found.wordAt]
  exact congrArg some (ofBytes_toBytes fits)

theorem wordsAt {elements : List Word}
    (found : Found data start (elements.flatMap List.Vector.toList)) :
    wordsAt data start elements.length = some elements := by
  induction elements generalizing start with
  | nil => rfl
  | cons first rest ih =>
      have later := found.right
      rw [first.toList_length] at later
      rw [List.length_cons, SolidityAbi.wordsAt, found.left.wordAt, ih later]
      rfl

end Found

theorem length_words (elements : List Word) :
    (elements.flatMap List.Vector.toList).length = 32 * elements.length := by
  induction elements with
  | nil => rfl
  | cons first rest ih =>
      rw [List.flatMap_cons, List.length_append, ih, List.length_cons,
        List.Vector.toList_length]
      omega

theorem length_heads (offset : Nat) (values : List Value) :
    (heads offset values).length = 32 * values.length := by
  induction values generalizing offset with
  | nil => rfl
  | cons value values ih =>
      rw [heads, List.length_append, ih, List.length_cons,
        List.Vector.toList_length]
      omega

theorem tails_cons (value : Value) (values : List Value) :
    tails (value :: values) = value.tail ++ tails values :=
  List.flatMap_cons

theorem tails_append (first second : List Value) :
    tails (first ++ second) = tails first ++ tails second :=
  List.flatMap_append

theorem heads_append (offset : Nat) (first second : List Value) :
    heads offset (first ++ second) =
      heads offset first ++ heads (offset + (tails first).length) second := by
  induction first generalizing offset with
  | nil => rfl
  | cons value values ih =>
      rw [List.cons_append, heads, heads, ih, List.append_assoc, tails_cons,
        List.length_append, Nat.add_assoc]

theorem encode_words (contents : List Word) :
    encode (contents.map Value.word) = contents.flatMap List.Vector.toList := by
  have noTails : tails (contents.map Value.word) = [] := by
    rw [tails, List.flatMap_map]
    exact List.flatMap_eq_nil_iff.mpr fun _ _ => rfl
  have words (offset : Nat) : heads offset (contents.map Value.word) =
      contents.flatMap List.Vector.toList := by
    induction contents with
    | nil => rfl
    | cons content contents ih =>
        rw [tails, List.map_cons, List.flatMap_cons] at noTails
        rw [List.map_cons, heads, List.flatMap_cons]
        exact congrArg (content.toList ++ ·)
          (ih (List.append_eq_nil_iff.mp noTails).2)
  rw [encode, noTails, words, List.append_nil]

theorem length_bytes_tail (content : List UInt8) :
    (Value.bytes content).tail.length ≤ content.length + 63 := by
  simp only [Value.tail, padding, List.length_append,
    List.Vector.toList_length, List.length_replicate]
  omega

theorem aligned_tail (value : Value) : value.tail.length % 32 = 0 := by
  cases value with
  | word content => rfl
  | bytes content =>
      simp only [Value.tail, padding, List.length_append,
        List.Vector.toList_length, List.length_replicate]
      omega
  | words elements =>
      rw [Value.tail, List.length_append, List.Vector.toList_length,
        length_words]
      omega

theorem aligned_tails (values : List Value) :
    (tails values).length % 32 = 0 := by
  induction values with
  | nil => rfl
  | cons value values ih =>
      have first := aligned_tail value
      rw [tails_cons, List.length_append]
      omega

/-- The offset of the tail of the value behind `before`, one of `count`. -/
def tailOffset (count : Nat) (before : List Value) : Nat :=
  32 * count + (tails before).length

section Encoded

variable (before : List Value) (value : Value) (after : List Value)

theorem encode_found_head :
    Found (encode (before ++ value :: after)) (32 * before.length)
      (value.head (tailOffset (before ++ value :: after).length
        before)).toList := by
  have layout := heads_append (32 * (before ++ value :: after).length) before
    (value :: after)
  rw [heads] at layout
  refine ⟨heads (32 * (before ++ value :: after).length) before,
    heads (tailOffset (before ++ value :: after).length before +
      value.tail.length) after ++ tails (before ++ value :: after), ?_,
    length_heads _ _⟩
  rw [encode, layout, List.append_assoc, List.append_assoc]
  rfl

theorem encode_found_tail :
    Found (encode (before ++ value :: after))
      (tailOffset (before ++ value :: after).length before) value.tail := by
  refine ⟨heads (32 * (before ++ value :: after).length)
    (before ++ value :: after) ++ tails before, tails after, ?_, ?_⟩
  · rw [encode, tails_append, tails_cons, List.append_assoc]
  · rw [List.length_append, length_heads, tailOffset]

end Encoded

/-- Each head word stands in its place, and each offset leads to the tail of
its own value. -/
def LaidOut (values : List Value) (data : List UInt8) : Prop :=
  ∀ before value after, values = before ++ value :: after →
    ∃ offset, Found data (32 * before.length) (value.head offset).toList ∧
      Found data offset value.tail

theorem encode_laidOut (values : List Value) :
    LaidOut values (encode values) := by
  intro before value after split
  subst split
  exact ⟨_, encode_found_head before value after,
    encode_found_tail before value after⟩

theorem decodeValue_found {data : List UInt8} {position offset : Nat}
    {value : Value} (small : data.length < 256 ^ 32)
    (head : Found data position (value.head offset).toList)
    (tail : Found data offset value.tail) :
    decodeValue data position value.kind = some value := by
  have inside := tail.fits
  cases value with
  | word content =>
      rw [Value.kind, decodeValue, Found.wordAt head]
      rfl
  | bytes content =>
      rw [Value.tail, List.length_append, List.length_append] at inside
      have rest := tail.right
      rw [List.Vector.toList_length] at rest
      rw [Value.kind, decodeValue, Found.uintAt head (by omega)]
      simp only [Option.bind_eq_bind, Option.bind_some,
        tail.left.uintAt (by omega), rest.left.slice, rest.right.slice,
        if_true]
  | words elements =>
      rw [Value.tail, List.length_append, length_words] at inside
      have rest := tail.right
      rw [List.Vector.toList_length] at rest
      rw [Value.kind, decodeValue, Found.uintAt head (by omega)]
      simp only [Option.bind_eq_bind, Option.bind_some,
        tail.left.uintAt (by omega), rest.wordsAt]

theorem decodeFrom_encode (before after : List Value)
    (small : (encode (before ++ after)).length < 256 ^ 32) :
    decodeFrom (encode (before ++ after)) (32 * before.length)
      (after.map Value.kind) = some after := by
  induction after generalizing before with
  | nil => rfl
  | cons value values ih =>
      have first := decodeValue_found small
        (encode_found_head before value values)
        (encode_found_tail before value values)
      have later := ih (before ++ [value])
      rw [List.append_assoc, List.singleton_append, List.length_append,
        List.length_singleton, Nat.mul_add] at later
      rw [List.map_cons, decodeFrom, first, later small]
      rfl

/-- The reference decoder inverts the encoding. -/
theorem decode_encode (values : List Value)
    (small : (encode values).length < 256 ^ 32) :
    decode (values.map Value.kind) (encode values) = some values :=
  decodeFrom_encode [] values small

end SolidityAbi
