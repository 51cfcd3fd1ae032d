import Mathlib.Data.Vector.Basic

/-!
# ABI encoding

The part of `chainio::abi` and `chainio::selectors` that builds calldata.
Integers are natural numbers; an encoder keeps the low bits of its fixed
width, as the big-endian bytes of a `u128` do.
-/

namespace NodeAgent.Chainio

abbrev Bytes := List UInt8

/-- A single 32-byte ABI word, big-endian. -/
abbrev Word := List.Vector UInt8 32

/-- An EVM address. -/
abbrev Address := List.Vector UInt8 20

/-- A 4-byte function selector. -/
abbrev Selector := List.Vector UInt8 4

/-- The two hash functions the agent takes from third-party crates. -/
class HashFunctions where
  keccak256 : Bytes → Word
  sha256 : Bytes → Word

export HashFunctions (keccak256 sha256)

/-- The UTF-8 bytes of a string. -/
def utf8 (text : String) : Bytes :=
  text.toUTF8.data.toList

/-- Left-pad a `u128` into a 32-byte big-endian word. -/
def wordFromU128 (value : Nat) : Word :=
  List.Vector.ofFn fun index =>
    if index.val < 16 then 0 else UInt8.ofNat (value / 256 ^ (31 - index.val))

/-- Left-pad a 20-byte address into a word. -/
def wordFromAddress (address : Address) : Word :=
  ⟨List.replicate 12 0 ++ address.toList, by simp⟩

/-- A call: the selector followed by the argument words. -/
def encodeCall (selector : Selector) (args : List Word) : Bytes :=
  selector.toList ++ args.flatMap List.Vector.toList

/-- The tail of a dynamic `bytes` value: its length word, then the data padded
with zeros to a word boundary. -/
def encodeBytesTail (bytes : Bytes) : Bytes :=
  (wordFromU128 bytes.length).toList ++ bytes ++
    List.replicate ((bytes.length + 31) / 32 * 32 - bytes.length) 0

/-- Bytes as a `0x`-prefixed lowercase hex string. -/
def hexEncode (bytes : Bytes) : String :=
  "0x" ++ String.ofList (bytes.flatMap fun byte =>
    [Nat.digitChar (byte.toNat / 16), Nat.digitChar (byte.toNat % 16)])

theorem digitChar_injective {first second : Nat} (firstDigit : first < 16)
    (secondDigit : second < 16)
    (same : Nat.digitChar first = Nat.digitChar second) : first = second := by
  have distinct : ∀ first < 16, ∀ second < 16,
      Nat.digitChar first = Nat.digitChar second → first = second := by
    decide
  exact distinct first firstDigit second secondDigit same

theorem hexEncode_injective {first second : Bytes}
    (same : hexEncode first = hexEncode second) : first = second := by
  have digits := String.ofList_injective (String.append_right_inj "0x" |>.mp same)
  induction first generalizing second with
  | nil =>
      cases second with
      | nil => rfl
      | cons byte rest => cases digits
  | cons byte rest ih =>
      cases second with
      | nil => cases digits
      | cons other others =>
          simp only [List.flatMap_cons, List.cons_append, List.nil_append,
            List.cons.injEq] at digits
          obtain ⟨high, low, later⟩ := digits
          have := byte.toNat_lt
          have := other.toNat_lt
          have highSame := digitChar_injective (by omega) (by omega) high
          have lowSame := digitChar_injective (by omega) (by omega) low
          have sameByte : byte = other := by
            apply UInt8.toNat_inj.mp
            omega
          rw [sameByte, ih (by rw [hexEncode, hexEncode, later]) later]

variable [HashFunctions]

/-- The first four bytes of the keccak hash of a canonical signature. -/
def selector (signature : String) : Selector :=
  (keccak256 (utf8 signature)).take 4

namespace Selectors

def claimRewards : Selector := selector "claimRewards()"

def registerProvider : Selector := selector "registerProvider(bytes32[])"

def bidOnJob : Selector := selector "bidOnJob(uint256,uint256,uint256)"

def assignBestBid : Selector := selector "assignBestBid(uint256)"

def startExecution : Selector := selector "startExecution(uint256)"

def submitCommitment : Selector := selector "submitCommitment(uint256,bytes32)"

def submitResult : Selector := selector "submitResult(uint256,bytes,bytes)"

def completeJob : Selector := selector "completeJob(uint256)"

def heartbeat : Selector := selector "heartbeat()"

end Selectors

/-- The pinned selector of each signature above. -/
def pinnedSelectors : List (String × Bytes) :=
  [("claimRewards()", [0x37, 0x25, 0x00, 0xab]),
    ("bidOnJob(uint256,uint256,uint256)", [0x18, 0x36, 0x0f, 0xc2]),
    ("startExecution(uint256)", [0xc7, 0x8e, 0xc1, 0x8e]),
    ("submitCommitment(uint256,bytes32)", [0xe6, 0xa3, 0xd9, 0xdc]),
    ("submitResult(uint256,bytes,bytes)", [0xba, 0xa2, 0xc0, 0x78]),
    ("completeJob(uint256)", [0xa1, 0xc0, 0xd3, 0x2f]),
    ("heartbeat()", [0x3d, 0xef, 0xb9, 0x62])]

/-- The first 32 bytes of the data, padded with zeros. -/
def firstWord (bytes : Bytes) : Word :=
  List.Vector.ofFn fun index => bytes.getD index.val 0

/-- Concrete functions to run examples with: the pinned selectors on the
signatures, and on short inputs as free of collisions as the real ones. -/
@[reducible] def sampleHashes : HashFunctions where
  keccak256 bytes :=
    match pinnedSelectors.find? fun pinned => utf8 pinned.1 = bytes with
    | some pinned => firstWord pinned.2
    | none => firstWord bytes
  sha256 := firstWord

end NodeAgent.Chainio
