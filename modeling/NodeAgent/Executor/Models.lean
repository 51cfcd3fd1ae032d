import NodeAgent.Chainio.Abi
import NodeAgent.Library.Interaction

/-!
# Verified model provisioning

`executor::models`: the grammar of model CIDs, the digest a self-verifying CID
embeds, and `provision`, which refuses what it cannot verify before it touches
the cache or the network.
-/

namespace NodeAgent.Executor

open Chainio Interaction

/-- A filesystem path, by its components. -/
abbrev Path := List String

inductive Integrity
  | sha256Verified
  | cidSha256Verified
deriving DecidableEq

structure ProvisionedModel where
  modelHash : Word
  path : Path
  bytesLen : Nat
  integrity : Integrity
deriving DecidableEq

inductive ProvisionError
  | inactive
  | emptyCid
  | invalidCid (cid : String)
  | unverifiable (cid : String)
  | sizeMismatch (expected got : Nat)
  | digestMismatch (expected got : Word)
  | fetch (message : String)
  | cache (message : String)
deriving DecidableEq

/-- One byte as two lowercase hex digits. -/
def hexByte (byte : UInt8) : List Char :=
  [Nat.digitChar (byte.toNat / 16), Nat.digitChar (byte.toNat % 16)]

def hex32 (word : Word) : String :=
  String.ofList (word.toList.flatMap hexByte)

/-- The escape of one character under `{:?}`.  Every character above ASCII is
taken to be printable. -/
def escapeDebug (char : Char) : String :=
  match char with
  | '"' => "\\\""
  | '\\' => "\\\\"
  | '\n' => "\\n"
  | '\r' => "\\r"
  | '\t' => "\\t"
  | _ =>
      if char.toNat = 0 then "\\0"
      else if char.toNat < 32 ∨ char.toNat = 127 then
        "\\u\x7b" ++ String.ofList (Nat.toDigits 16 char.toNat) ++ "\x7d"
      else String.singleton char

/-- The `{:?}` rendering of a string. -/
def debugString (text : String) : String :=
  "\"" ++ String.join (text.toList.map escapeDebug) ++ "\""

def ProvisionError.display : ProvisionError → String
  | .inactive => "model is deactivated on-chain"
  | .emptyCid => "registry returned an empty ipfsCID"
  | .invalidCid cid =>
      s!"invalid model CID {debugString cid}: not a bare CIDv0 (Qm…, base58btc) or CIDv1 (b…, base32lower) identifier; refused before URL construction (FUA-NODE-AGENT-05)"
  | .unverifiable cid =>
      s!"no local integrity commitment for CID {cid}: supply weights_sha256 or use a CIDv1 raw sha2-256 CID (SVC-2 fail-closed)"
  | .sizeMismatch expected got =>
      s!"size mismatch: expected {expected} bytes, got {got}"
  | .digestMismatch expected got =>
      s!"weights sha-256 mismatch: expected {hex32 expected}, got {hex32 got} (artifact discarded; SVC-2)"
  | .fetch message => s!"weight fetch failed: {message}"
  | .cache message => s!"model cache error: {message}"

/-- The value of a base32lower digit: `a`–`z`, then `2`–`7`. -/
def base32Digit (char : UInt8) : Option Nat :=
  if 0x61 ≤ char ∧ char ≤ 0x7a then some (char.toNat - 0x61)
  else if 0x32 ≤ char ∧ char ≤ 0x37 then some (char.toNat - 0x32 + 26)
  else none

/-- The decoding loop, with `nbits` bits of input pending in `acc`.  At the end
the pending bits must be zero padding. -/
def base32LowerDecodeFrom (acc nbits : Nat) : Bytes → Option Bytes
  | [] => if nbits ≥ 5 ∨ acc ≠ 0 then none else some []
  | char :: rest => do
      let digit ← base32Digit char
      let acc := acc * 32 + digit
      let nbits := nbits + 5
      if nbits ≥ 8 then
        let decoded ←
          base32LowerDecodeFrom (acc % 2 ^ (nbits - 8)) (nbits - 8) rest
        return UInt8.ofNat (acc / 2 ^ (nbits - 8)) :: decoded
      else base32LowerDecodeFrom acc nbits rest

def base32LowerDecode (text : Bytes) : Option Bytes :=
  base32LowerDecodeFrom 0 0 text

def isBase58 (char : UInt8) : Bool :=
  (0x31 ≤ char ∧ char ≤ 0x39) ∨ (0x41 ≤ char ∧ char ≤ 0x48) ∨
    (0x4a ≤ char ∧ char ≤ 0x4e) ∨ (0x50 ≤ char ∧ char ≤ 0x5a) ∨
    (0x61 ≤ char ∧ char ≤ 0x6b) ∨ (0x6d ≤ char ∧ char ≤ 0x7a)

/-- The text begins with `Qm`. -/
def startsWithQm (text : Bytes) : Bool :=
  [0x51, 0x6d].isPrefixOf text

/-- The bytes a multibase `b` CID encodes. -/
def multibaseB : Bytes → Option Bytes
  | 0x62 :: rest => base32LowerDecode rest
  | _ => none

/-- A CIDv0, or a CIDv1 in canonical base32lower. -/
def validateCid (cid : String) : Bool :=
  let text := utf8 cid
  if text.length = 46 ∧ startsWithQm text then text.all isBase58
  else
    match multibaseB text with
    | some bytes => bytes.length ≥ 4 ∧ bytes.head? = some 0x01
    | none => false

/-- The sha-256 digest that a CIDv1 `raw` sha2-256 CID commits to. -/
def cidEmbeddedSha256 (cid : String) : Option Word := do
  let bytes ← multibaseB (utf8 cid)
  if sized : bytes.length = 36 then
    if bytes.take 4 = [0x01, 0x55, 0x12, 0x20] then
      some ⟨bytes.drop 4, by simp [sized]⟩
    else none
  else none

/-- Lowercase hex of the model hash, `.bin`. -/
def cacheFile (cacheDir : Path) (modelHash : Word) : Path :=
  cacheDir ++ [hex32 modelHash ++ ".bin"]

inductive ProvisionOp
  | readCache (path : Path)
  | removeCache (path : Path)
  | fetch (cid : String)
  | createDirAll (dir : Path)
  | writeCache (path : Path) (bytes : Bytes)
deriving DecidableEq

/-- A cache read that fails counts as a miss, and a failed removal is
ignored. -/
abbrev ProvisionAnswer : ProvisionOp → Type
  | .readCache _ => Option Bytes
  | .removeCache _ => Unit
  | .fetch _ => Except ProvisionError Bytes
  | .createDirAll _ => Except String Unit
  | .writeCache _ _ => Except String Unit

variable [HashFunctions]

def sha256Digest (bytes : Bytes) : Word := sha256 bytes

/-- Fetch, verify and cache, after a cache miss. -/
def fetchVerified (modelHash : Word) (ipfsCid : String)
    (expectedSize : Option Nat) (expectedDigest : Word) (integrity : Integrity)
    (cacheDir : Path) :
    Program ProvisionOp ProvisionAnswer
      (Except ProvisionError ProvisionedModel) := do
  let path := cacheFile cacheDir modelHash
  match ← Program.perform (ProvisionOp.fetch ipfsCid) with
  | .error error => return .error error
  | .ok bytes =>
      match expectedSize.filter (fun size => bytes.length ≠ size) with
      | some size => return .error (.sizeMismatch size bytes.length)
      | none =>
          let got := sha256Digest bytes
          if got ≠ expectedDigest then
            return .error (.digestMismatch expectedDigest got)
          else
            match ← Program.perform (ProvisionOp.createDirAll cacheDir) with
            | .error error => return .error (.cache error)
            | .ok () =>
                match ← Program.perform (ProvisionOp.writeCache path bytes) with
                | .error error => return .error (.cache error)
                | .ok () =>
                    return .ok ⟨modelHash, path, bytes.length, integrity⟩

/-- Where the integrity commitment comes from: the caller's digest, else the
CID's own. -/
def integrityCommitment (ipfsCid : String) :
    Option Word → Option (Word × Integrity)
  | some digest => some (digest, .sha256Verified)
  | none =>
      (cidEmbeddedSha256 ipfsCid).map fun digest => (digest, .cidSha256Verified)

/-- `models::provision`. -/
def provision (modelHash : Word) (ipfsCid : String) (isActive : Bool)
    (expectedSize : Option Nat) (expectedSha256 : Option Word)
    (cacheDir : Path) :
    Program ProvisionOp ProvisionAnswer
      (Except ProvisionError ProvisionedModel) :=
  if !isActive then return .error .inactive
  else if ipfsCid.isEmpty then return .error .emptyCid
  else if !validateCid ipfsCid then return .error (.invalidCid ipfsCid)
  else
    match integrityCommitment ipfsCid expectedSha256 with
    | none => return .error (.unverifiable ipfsCid)
    | some (expectedDigest, integrity) => do
        let path := cacheFile cacheDir modelHash
        match ← Program.perform (ProvisionOp.readCache path) with
        | none =>
            fetchVerified modelHash ipfsCid expectedSize expectedDigest
              integrity cacheDir
        | some cached =>
            if (expectedSize.all fun size => size = cached.length) ∧
                sha256Digest cached = expectedDigest then
              return .ok ⟨modelHash, path, cached.length, integrity⟩
            else
              -- a poisoned or stale cache entry is discarded and re-fetched
              Program.perform (ProvisionOp.removeCache path)
              fetchVerified modelHash ipfsCid expectedSize expectedDigest
                integrity cacheDir

end NodeAgent.Executor
