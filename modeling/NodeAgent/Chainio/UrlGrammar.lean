import NodeAgent.Chainio.Outbound

/-!
# The grammar of outbound URLs

The URLs that `chainio::outbound` is documented to accept, and the garbled ones
that its gate accepts besides: what stands between brackets is not checked to be
an address, nor what stands behind them to be a port, brackets may occur in a
name, and a port may have a plus sign.
-/

namespace NodeAgent.Chainio

open IpLiteral Text

/-- A port, in digits only. -/
inductive Port : List Char → Prop
  | absent : Port []
  | given {digits : List Char} {number : Nat} :
      Numeral 10 digits number → number ≤ 65535 → Port (':' :: digits)

/-- The text of a host, and the host. -/
inductive HostText : List Char → List Char → Prop
  | name {host : List Char} :
      host ≠ [] → '@' ∉ host → ':' ∉ host → '[' ∉ host → ']' ∉ host →
        HostText host host
  | literal {inside : List Char} {address : Nat} :
      ipv6 inside = some address → HostText ('[' :: (inside ++ [']'])) inside

/-- An authority of the grammar, and its host. -/
def Authority (authority host : List Char) : Prop :=
  ∃ text port, authority = text ++ port ∧ HostText text host ∧ Port port

/-- The URLs that the gate is documented to accept. -/
def Grammar (url : List Char) (allowInsecure : Bool) : Prop :=
  ∃ scheme authority rest host, Parts url scheme authority rest ∧
    Authority authority host ∧ SchemeAllows scheme host allowInsecure

/-- The authorities that are read although they are none of the grammar. -/
inductive Garbled : List Char → List Char → Prop
  | bracketed {inside after : List Char} :
      ']' ∉ inside → '@' ∉ '[' :: (inside ++ ']' :: after) →
        after = [] ∨ after.head? = some ':' →
        ¬ ((ipv6 inside).isSome = true ∧ Port after) →
          Garbled ('[' :: (inside ++ ']' :: after)) inside
  | plain {host port : List Char} :
      host ≠ [] → host.head? ≠ some '[' → ':' ∉ host → '@' ∉ host ++ port →
        AdmittedPort port →
        '[' ∈ host ∨ ']' ∈ host ∨ (∃ digits, port = ':' :: '+' :: digits) →
          Garbled (host ++ port) host

/-- A garbled authority whose scheme lets the host through. -/
def Misread (url : List Char) (allowInsecure : Bool) : Prop :=
  ∃ scheme authority rest host, Parts url scheme authority rest ∧
    Garbled authority host ∧ SchemeAllows scheme host allowInsecure

variable {authority host port inside : List Char}

theorem Port.characters (given : Port port) :
    ∀ char ∈ port, char = ':' ∨ (toDigit 10 char).isSome = true := by
  cases given with
  | absent => nofun
  | given numeral _ =>
      exact List.forall_mem_cons.mpr
        ⟨.inl rfl, fun char member => .inr (numeral.digits char member)⟩

theorem Port.not_mem (given : Port port) {char : Char} (other : char ≠ ':')
    (noDigit : toDigit 10 char = none) : char ∉ port := by
  intro member
  rcases given.characters char member with colon | digit
  · exact other colon
  · rw [noDigit] at digit
    cases digit

theorem ipv6_not_mem {address : Nat} (literal : ipv6 inside = some address)
    {char : Char} (noDigit : toDigit 16 char = none) (noDot : char ≠ '.')
    (noColon : char ≠ ':') : char ∉ inside := by
  intro member
  exact not_grouped noDigit noDot noColon (ipv6_grouped literal char member)

theorem Port.admitted (given : Port port) : AdmittedPort port := by
  cases given with
  | absent => exact .inl rfl
  | @given digits number numeral fits =>
      refine .inr ⟨digits, rfl, Option.isSome_iff_exists.mpr ⟨number, ?_⟩⟩
      exact (fromStrRadix_eq_some_iff (by decide)).mpr ⟨fits, .inl numeral⟩

theorem Port.ends (given : Port port) :
    port = [] ∨ port.head? = some ':' := by
  cases given with
  | absent => exact .inl rfl
  | given _ _ => exact .inr rfl

theorem AdmittedPort.unsigned (admitted : AdmittedPort port)
    (unsigned : ∀ digits, port ≠ ':' :: '+' :: digits) : Port port := by
  rcases admitted with rfl | ⟨number, rfl, parses⟩
  · exact .absent
  · obtain ⟨value, parses⟩ := Option.isSome_iff_exists.mp parses
    obtain ⟨fits, plain | ⟨digits, rfl, _⟩⟩ :=
      (fromStrRadix_eq_some_iff (by decide)).mp parses
    · exact .given plain fits
    · exact absurd rfl (unsigned digits)

theorem Authority.admits (wellFormed : Authority authority host) :
    Admits authority host := by
  obtain ⟨text, port, rfl, written, given⟩ := wellFormed
  have noUserinfo : '@' ∉ port := given.not_mem (by decide) rfl
  cases written with
  | name nonempty noAt noColon noOpen noClose =>
      refine .plain nonempty ?_ noColon ?_ given.admitted
      · intro bracket
        exact noOpen (List.mem_of_mem_head? bracket)
      · rw [List.mem_append]
        exact not_or.mpr ⟨noAt, noUserinfo⟩
  | literal literal =>
      rw [List.cons_append, List.append_assoc, List.singleton_append]
      have noClose : ']' ∉ host :=
        ipv6_not_mem literal rfl (by decide) (by decide)
      have noAt : '@' ∉ host :=
        ipv6_not_mem literal rfl (by decide) (by decide)
      refine .bracketed noClose ?_ given.ends
      simp [noAt, noUserinfo]

theorem Garbled.admits (garbled : Garbled authority host) :
    Admits authority host := by
  cases garbled with
  | bracketed noClose noUserinfo ends _ =>
      exact .bracketed noClose noUserinfo ends
  | plain nonempty unbracketed noColon noUserinfo admitted _ =>
      exact .plain nonempty unbracketed noColon noUserinfo admitted

/-- What is read is one or the other. -/
theorem Admits.authority_or_garbled (admits : Admits authority host) :
    Authority authority host ∨ Garbled authority host := by
  cases admits with
  | @bracketed _ after noClose noUserinfo ends =>
      by_cases wellFormed : (ipv6 host).isSome = true ∧ Port after
      · obtain ⟨literal, given⟩ := wellFormed
        obtain ⟨address, literal⟩ := Option.isSome_iff_exists.mp literal
        refine .inl ⟨'[' :: (host ++ [']']), after, ?_, .literal literal, given⟩
        simp
      · exact .inr (.bracketed noClose noUserinfo ends wellFormed)
  | @plain _ port nonempty unbracketed noColon noUserinfo admitted =>
      by_cases wrong : '[' ∈ host ∨ ']' ∈ host ∨
          ∃ digits, port = ':' :: '+' :: digits
      · exact .inr
          (.plain nonempty unbracketed noColon noUserinfo admitted wrong)
      · obtain ⟨noOpen, wrong⟩ := not_or.mp wrong
        obtain ⟨noClose, unsigned⟩ := not_or.mp wrong
        have given : Port port :=
          admitted.unsigned fun digits same => unsigned ⟨digits, same⟩
        have noAt : '@' ∉ host := fun member =>
          noUserinfo (List.mem_append_left port member)
        exact .inl ⟨host, port, rfl,
          .name nonempty noAt noColon noOpen noClose, given⟩

/-- And not both, with one host. -/
theorem Garbled.not_authority (garbled : Garbled authority host) :
    ¬ Authority authority host := by
  intro wellFormed
  obtain ⟨text, port, whole, written, given⟩ := wellFormed
  cases garbled with
  | bracketed _ _ _ wrong =>
      cases written with
      | name nonempty _ _ noOpen _ =>
          obtain ⟨first, tail, rfl⟩ := List.exists_cons_of_ne_nil nonempty
          rw [List.cons_append] at whole
          rw [← (List.cons.inj whole).1] at noOpen
          exact noOpen List.mem_cons_self
      | literal literal =>
          rw [List.cons_append, List.append_assoc,
            List.singleton_append] at whole
          have after := List.append_cancel_left (List.cons.inj whole).2
          rw [(List.cons.inj after).2] at wrong
          exact wrong ⟨Option.isSome_iff_exists.mpr ⟨_, literal⟩, given⟩
  | plain nonempty unbracketed _ _ _ wrong =>
      cases written with
      | name _ _ _ noOpen noClose =>
          rcases wrong with opens | closes | ⟨digits, rfl⟩
          · exact noOpen opens
          · exact noClose closes
          · rw [← List.append_cancel_left whole] at given
            cases given with
            | given numeral _ => exact not_numeral_plus numeral
      | literal _ =>
          obtain ⟨first, tail, rfl⟩ := List.exists_cons_of_ne_nil nonempty
          rw [List.cons_append, List.cons_append] at whole
          exact unbracketed (congrArg some (List.cons.inj whole).1)

theorem Parts.unique {url scheme authority rest scheme' authority' rest' :
      List Char}
    (one : Parts url scheme authority rest)
    (other : Parts url scheme' authority' rest') (plain : ':' ∉ scheme)
    (plain' : ':' ∉ scheme') : authority = authority' := by
  have same := (one.split plain).symm.trans (other.split plain')
  obtain ⟨_, remainder⟩ := Prod.mk.inj (Option.some.inj same)
  rw [← one.authorityOf, remainder, other.authorityOf]

theorem Misread.not_grammar {url : List Char} {allowInsecure : Bool}
    (misread : Misread url allowInsecure) : ¬ Grammar url allowInsecure := by
  intro grammar
  obtain ⟨scheme, authority, rest, host, parts, garbled, allows⟩ := misread
  obtain ⟨scheme', authority', rest', host', parts', wellFormed, allows'⟩ :=
    grammar
  obtain rfl := parts.unique parts' allows.noColon allows'.noColon
  have sameHost : host = host' := by
    have reads := garbled.admits
    have reads' := wellFormed.admits
    rw [← parts.authorityOf] at reads reads'
    exact reads.unique reads'
  rw [← sameHost] at wellFormed
  exact garbled.not_authority wellFormed

theorem validateOutboundUrlWith_eq_ok_iff_grammar_or_misread {url : String}
    {allowInsecure : Bool} :
    validateOutboundUrlWith url allowInsecure = .ok () ↔
      Grammar url.toList allowInsecure ∨ Misread url.toList allowInsecure := by
  rw [validateOutboundUrlWith_eq_ok_iff]
  constructor
  · intro accepted
    obtain ⟨scheme, authority, rest, host, parts, admits, allows⟩ := accepted
    rcases admits.authority_or_garbled with wellFormed | garbled
    · exact .inl ⟨scheme, authority, rest, host, parts, wellFormed, allows⟩
    · exact .inr ⟨scheme, authority, rest, host, parts, garbled, allows⟩
  · intro accepted
    rcases accepted with
      ⟨scheme, authority, rest, host, parts, wellFormed, allows⟩ |
        ⟨scheme, authority, rest, host, parts, garbled, allows⟩
    · exact ⟨scheme, authority, rest, host, parts, wellFormed.admits, allows⟩
    · exact ⟨scheme, authority, rest, host, parts, garbled.admits, allows⟩

/-- The gate accepts exactly its grammar on the URLs that are not garbled. -/
theorem validateOutboundUrlWith_grammar_iff (url : String)
    (allowInsecure : Bool) :
    (validateOutboundUrlWith url allowInsecure = .ok () ↔
      Grammar url.toList allowInsecure) ↔
        ¬ Misread url.toList allowInsecure := by
  rw [validateOutboundUrlWith_eq_ok_iff_grammar_or_misread]
  constructor
  · intro agrees misread
    exact misread.not_grammar (agrees.mp (.inr misread))
  · intro clean
    exact or_iff_left clean

theorem misread_https {authority host : List Char}
    (inside : authority.any isDelimiter = false)
    (garbled : Garbled authority host) (allowInsecure : Bool) :
    Misread ("https://".toList ++ authority) allowInsecure := by
  have within : ∀ char ∈ authority, isDelimiter char = false := by
    intro char member
    exact Bool.eq_false_iff.mpr (List.any_eq_false.mp inside char member)
  exact ⟨"https".toList, authority, [], host,
    ⟨by simp, within, .inl rfl⟩, garbled, .inl rfl⟩

theorem garbled_emptyBrackets : Garbled "[]".toList [] := by
  refine @Garbled.bracketed [] [] (by decide) (by decide) (.inl rfl) ?_
  intro wellFormed
  exact absurd wellFormed.1 (by decide +kernel)

theorem garbled_junk : Garbled "[::1]:junk".toList "::1".toList := by
  refine @Garbled.bracketed "::1".toList ":junk".toList (by decide)
    (by decide) (.inr rfl) ?_
  intro wellFormed
  have letter := wellFormed.2.characters 'j' (by decide)
  exact absurd letter (by decide)

theorem garbled_signed : Garbled "h:+80".toList "h".toList := by
  refine @Garbled.plain "h".toList ":+80".toList (by decide) (by decide)
    (by decide) (by decide) ?_ (.inr (.inr ⟨"80".toList, rfl⟩))
  exact .inr ⟨"+80".toList, rfl, by decide⟩

/-- Empty brackets pass for a host, and junk behind them or a signed port for a
port. -/
theorem validateOutboundUrlWith_garbled :
    (validateOutboundUrlWith "https://[]" false = .ok () ∧
      ¬ Grammar "https://[]".toList false) ∧
    (validateOutboundUrlWith "https://[::1]:junk" false = .ok () ∧
      ¬ Grammar "https://[::1]:junk".toList false) ∧
    (validateOutboundUrlWith "https://h:+80" false = .ok () ∧
      ¬ Grammar "https://h:+80".toList false) := by
  have empty := misread_https (by decide) garbled_emptyBrackets false
  have junk := misread_https (by decide) garbled_junk false
  have signed := misread_https (by decide) garbled_signed false
  exact ⟨⟨by decide +kernel, empty.not_grammar⟩,
    ⟨by decide +kernel, junk.not_grammar⟩,
    by decide +kernel, signed.not_grammar⟩

end NodeAgent.Chainio
