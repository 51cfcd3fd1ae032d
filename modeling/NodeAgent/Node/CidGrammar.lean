import NodeAgent.Executor.Base32
import NodeAgent.Node.Execution

/-!
# The grammar of content identifiers

Two validators look at an identifier before it becomes part of a gateway URL:
the gate of `node-agent::execution` and the check of `executor::models` at the
fetch.  They accept one grammar, the gate within its length bounds.
-/

namespace NodeAgent.Node

open Base32 Chainio Executor

/-- The identifiers that can be fetched. -/
inductive CidGrammar (text : Bytes) : Prop
  | v0 (digits : Bytes) (width : digits.length = 44)
      (base58 : ∀ char ∈ digits, isBase58 char = true)
      (shape : text = [0x51, 0x6d] ++ digits)
  | v1 (bytes : Bytes) (framed : 4 ≤ bytes.length)
      (version : bytes.head? = some 0x01)
      (shape : text = 0x62 :: base32LowerEncode bytes)

/-- Characters with a meaning in a URL, the dot of relative segments among
them. -/
def urlDelimiters : Bytes := utf8 "/?#%@:.\\"

/-- The text is one segment of a URL path, whatever stands around it. -/
structure OneSegment (text : Bytes) : Prop where
  nonempty : text ≠ []
  alphanumeric : ∀ char ∈ text, isAsciiAlphanumeric char = true
  plain : ∀ char ∈ text, char ∉ urlDelimiters

theorem isBase58_alphanumeric {char : UInt8} (base58 : isBase58 char = true) :
    isAsciiAlphanumeric char = true := by
  have every : ∀ value < 256, isBase58 (UInt8.ofNat value) = true →
      isAsciiAlphanumeric (UInt8.ofNat value) = true := by
    decide +kernel
  have at_char := every char.toNat char.toNat_lt
  rw [UInt8.ofNat_toNat] at at_char
  exact at_char base58

theorem isAsciiAlphanumeric_plain {char : UInt8}
    (alphanumeric : isAsciiAlphanumeric char = true) :
    char ∉ urlDelimiters := by
  have every : ∀ value < 256, isAsciiAlphanumeric (UInt8.ofNat value) = true →
      UInt8.ofNat value ∉ urlDelimiters := by
    decide +kernel
  have at_char := every char.toNat char.toNat_lt
  rw [UInt8.ofNat_toNat] at at_char
  exact at_char alphanumeric

theorem base32Char_alphanumeric {digit : Nat} (small : digit < 32) :
    isAsciiAlphanumeric (base32Char digit) = true := by
  have every : ∀ digit < 32,
      isAsciiAlphanumeric (base32Char digit) = true := by
    decide
  exact every digit small

theorem CidGrammar.oneSegment {text : Bytes} (grammar : CidGrammar text) :
    OneSegment text := by
  have alphanumeric : ∀ char ∈ text, isAsciiAlphanumeric char = true := by
    cases grammar with
    | v0 digits width base58 shape =>
        rw [shape, List.forall_mem_append]
        refine ⟨List.all_eq_true.mp (by decide), ?_⟩
        intro char member
        exact isBase58_alphanumeric (base58 char member)
    | v1 bytes framed version shape =>
        rw [shape, List.forall_mem_cons, base32LowerEncode,
          List.forall_mem_map]
        refine ⟨by decide, ?_⟩
        intro digit member
        exact base32Char_alphanumeric (encode_lt bytes digit member)
  refine ⟨?_, alphanumeric, ?_⟩
  · cases grammar with
    | v0 digits width base58 shape =>
        rw [shape]
        exact List.cons_ne_nil _ _
    | v1 bytes framed version shape =>
        rw [shape]
        exact List.cons_ne_nil _ _
  · intro char member
    exact isAsciiAlphanumeric_plain (alphanumeric char member)

theorem multibaseB_eq_some_iff {text bytes : Bytes} :
    multibaseB text = some bytes ↔ text = 0x62 :: base32LowerEncode bytes := by
  rw [multibaseB.eq_def]
  split
  · rename_i rest
    rw [base32LowerDecode_eq_some_iff, List.cons.injEq]
    exact ⟨fun same => ⟨rfl, same⟩, fun same => same.2⟩
  · rename_i other
    constructor
    · intro decoded
      cases decoded
    · intro same
      exact absurd same (other _)

theorem validateCid_iff_grammar {cid : String} :
    Executor.validateCid cid = true ↔ CidGrammar (utf8 cid) := by
  rw [Executor.validateCid]
  generalize utf8 cid = text
  split
  · rename_i v0
    obtain ⟨width, starts⟩ := v0
    rw [startsWithQm, List.isPrefixOf_iff_prefix] at starts
    obtain ⟨digits, rfl⟩ := starts
    constructor
    · intro base58
      rw [List.all_append, Bool.and_eq_true, List.all_eq_true,
        List.all_eq_true] at base58
      refine .v0 digits ?_ base58.2 rfl
      simp only [List.length_append, List.length_cons, List.length_nil]
        at width
      omega
    · intro grammar
      cases grammar with
      | v0 others _ base58 shape =>
          rw [List.append_cancel_left shape, List.all_append,
            Bool.and_eq_true, List.all_eq_true, List.all_eq_true]
          exact ⟨List.all_eq_true.mp (by decide), base58⟩
      | v1 bytes framed version shape => cases shape
  · rename_i notV0
    constructor
    · intro accepted
      split at accepted
      · rename_i bytes decoded
        obtain ⟨framed, version⟩ := of_decide_eq_true accepted
        exact .v1 bytes framed version (multibaseB_eq_some_iff.mp decoded)
      · cases accepted
    · intro grammar
      cases grammar with
      | v0 digits width base58 shape =>
          refine absurd ⟨?_, ?_⟩ notV0
          · rw [shape, List.length_append, width]
            rfl
          · rw [startsWithQm, List.isPrefixOf_iff_prefix, shape]
            exact List.prefix_append _ _
      | v1 bytes framed version shape =>
          rw [multibaseB_eq_some_iff.mpr shape]
          exact decide_eq_true ⟨framed, version⟩

theorem CidGrammar.prefixed {text : Bytes} (grammar : CidGrammar text) :
    (startsWithQm text || text.head?.any isMultibasePrefix) = true := by
  cases grammar with
  | v0 digits width base58 shape =>
      rw [shape]
      rfl
  | v1 bytes framed version shape =>
      rw [shape]
      rfl

/-- The gate's own checks only narrow the length. -/
theorem validateCid_ok_iff {cid : String} :
    Node.validateCid cid = .ok () ↔
      Executor.validateCid cid = true ∧
        46 ≤ (utf8 cid).length ∧ (utf8 cid).length ≤ 256 := by
  rw [Node.validateCid]
  split
  · rename_i outOfRange
    constructor
    · intro accepted
      cases accepted
    · intro accepted
      omega
  · rename_i inRange
    rw [not_or] at inRange
    by_cases valid : Executor.validateCid cid = true
    · have grammar := validateCid_iff_grammar.mp valid
      have charset : (utf8 cid).all isAsciiAlphanumeric = true :=
        List.all_eq_true.mpr grammar.oneSegment.alphanumeric
      simp only [charset, grammar.prefixed, valid]
      constructor
      · intro _
        exact ⟨trivial, by omega, by omega⟩
      · intro _
        rfl
    · constructor
      · intro accepted
        split at accepted
        · cases accepted
        · split at accepted
          · cases accepted
          · simp only [valid] at accepted
            cases accepted
      · intro accepted
        exact absurd accepted.1 valid

/-- One grammar: the gate accepts what the executor's check accepts within 46
to 256 bytes, that check accepts exactly the grammar, and what either accepts
is one segment of a URL path. -/
theorem validators_agree (cid : String) :
    (Node.validateCid cid = .ok () ↔
      Executor.validateCid cid = true ∧
        46 ≤ (utf8 cid).length ∧ (utf8 cid).length ≤ 256) ∧
    (Executor.validateCid cid = true ↔ CidGrammar (utf8 cid)) ∧
    (Node.validateCid cid = .ok () ∨ Executor.validateCid cid = true →
      OneSegment (utf8 cid)) := by
  refine ⟨validateCid_ok_iff, validateCid_iff_grammar, ?_⟩
  intro accepted
  have valid : Executor.validateCid cid = true := by
    rcases accepted with gate | check
    · exact (validateCid_ok_iff.mp gate).1
    · exact check
  exact (validateCid_iff_grammar.mp valid).oneSegment

/-- A CIDv0. -/
def sampleCid : String := "QmbWqxBEKC3P8tqsKc98xmWNzrzDtRLMiMPL8wBuTGsMnR"

theorem validators_agree_sampleCid : OneSegment (utf8 sampleCid) :=
  (validators_agree sampleCid).2.2 (.inr (by decide +kernel))

end NodeAgent.Node
