import NodeAgent.Library.IpLiteral
import NodeAgent.Library.Parsing
import Mathlib.Data.List.TakeWhile

/-!
# The outbound URL gate

`chainio::outbound`: an endpoint URL is accepted when it is `https`, or `http`
to a loopback host, and when its authority can be read.
-/

namespace NodeAgent.Chainio

open IpLiteral Parsing Text

inductive OutboundUrlError
  | unsupportedScheme (url : String)
  | plaintextNonLoopback (url : String)
  | malformed (url : String)
deriving DecidableEq

/-- What ends an authority. -/
def isDelimiter (char : Char) : Bool :=
  char = '/' ∨ char = '?' ∨ char = '#'

/-- The part of the rest before its path, query and fragment. -/
def authorityOf (rest : List Char) : List Char :=
  rest.takeWhile fun char => !isDelimiter char

/-- The host of an authority without brackets. -/
def plainHost (authority : List Char) : Option (List Char) :=
  match authority.splitOn ':' with
  | [host] => if host = [] then none else some host
  | [host, port] =>
      if fromStrRadix 10 65535 port = none then none
      else if host = [] then none
      else some host
  | _ => none

/-- The text between brackets, with the leading bracket already stripped. -/
def bracketedHost (v6 : List Char) : Option (List Char) := do
  let (inside, after) ← splitOnce [']'] v6
  if after = [] ∨ after.head? = some ':' then some inside else none

def hostOf (rest : List Char) : Option (List Char) :=
  let authority := authorityOf rest
  if authority = [] ∨ '@' ∈ authority then none
  else
    match authority.dropPrefix? ['['] with
    | some v6 => bracketedHost v6
    | none => plainHost authority

def toAsciiLowercase (text : List Char) : List Char := text.map Char.toLower

def isLoopbackHost (host : List Char) : Bool :=
  if toAsciiLowercase host = "localhost".toList then true
  else
    match ipv4 host with
    | some address => address / 2 ^ 24 = 127
    | none =>
        match ipv6 host with
        | some address => address = 1
        | none => false

def validateOutboundUrlWith (url : String) (allowInsecure : Bool) :
    Except OutboundUrlError Unit := do
  let (scheme, rest) ←
    okOr (.unsupportedScheme url) (splitOnce "://".toList url.toList)
  let scheme := toAsciiLowercase scheme
  if scheme = "https".toList then do
    let _ ← okOr (.malformed url) (hostOf rest)
    return ()
  else if scheme = "http".toList then do
    let host ← okOr (.malformed url) (hostOf rest)
    if isLoopbackHost host then return ()
    else if allowInsecure then return ()
    else .error (.plaintextNonLoopback url)
  else .error (.unsupportedScheme url)

/-- The host is one that plaintext may go to. -/
def LoopbackHost (host : List Char) : Prop :=
  toAsciiLowercase host = "localhost".toList ∨
    (∃ address, ipv4 host = some address ∧ address / 2 ^ 24 = 127) ∨
      ipv6 host = some 1

/-- The scheme lets this host through. -/
def SchemeAllows (scheme host : List Char) (allowInsecure : Bool) : Prop :=
  toAsciiLowercase scheme = "https".toList ∨
    toAsciiLowercase scheme = "http".toList ∧
      (allowInsecure = true ∨ LoopbackHost host)

/-- The parts of a URL; the authority ends where its rest begins. -/
structure Parts (url scheme authority rest : List Char) : Prop where
  whole : url = scheme ++ ("://".toList ++ (authority ++ rest))
  inside : ∀ char ∈ authority, isDelimiter char = false
  ends : rest = [] ∨ ∃ char tail, rest = char :: tail ∧ isDelimiter char = true

/-- What passes for a port: a plus sign may stand before the digits. -/
def AdmittedPort (port : List Char) : Prop :=
  port = [] ∨ ∃ number, port = ':' :: number ∧
    (fromStrRadix 10 65535 number).isSome = true

/-- The authorities that the gate reads a host from. -/
inductive Admits : List Char → List Char → Prop
  | bracketed {inside after : List Char} :
      ']' ∉ inside → '@' ∉ '[' :: (inside ++ ']' :: after) →
        after = [] ∨ after.head? = some ':' →
          Admits ('[' :: (inside ++ ']' :: after)) inside
  | plain {host port : List Char} :
      host ≠ [] → host.head? ≠ some '[' → ':' ∉ host → '@' ∉ host ++ port →
        AdmittedPort port → Admits (host ++ port) host

theorem plainHost_eq_some_iff {authority host : List Char} :
    plainHost authority = some host ↔
      ∃ port, authority = host ++ port ∧ host ≠ [] ∧ ':' ∉ host ∧
        AdmittedPort port := by
  rw [plainHost]
  constructor
  · intro read
    rcases splitOn_cases ':' authority with
      ⟨absent, split⟩ | ⟨before, after, rfl, absent, split⟩
    · rw [split] at read
      obtain ⟨nonempty, same⟩ := Option.ite_none_left_eq_some.mp read
      cases same
      exact ⟨[], (List.append_nil _).symm, nonempty, absent, .inl rfl⟩
    · rcases splitOn_cases ':' after with
        ⟨_, single⟩ | ⟨_, rest, _, _, further⟩
      · rw [split, single] at read
        obtain ⟨parses, read⟩ := Option.ite_none_left_eq_some.mp read
        obtain ⟨nonempty, same⟩ := Option.ite_none_left_eq_some.mp read
        cases same
        exact ⟨':' :: after, rfl, nonempty, absent,
          .inr ⟨after, rfl, Option.isSome_iff_ne_none.mpr parses⟩⟩
      · obtain ⟨third, parts, more⟩ :=
          List.exists_cons_of_ne_nil (List.splitOn_ne_nil ':' rest)
        rw [split, further, more] at read
        cases read
  · intro read
    obtain ⟨port, rfl, nonempty, absent, admitted⟩ := read
    rcases admitted with rfl | ⟨number, rfl, parses⟩
    · rw [List.append_nil, List.splitOn_eq_singleton absent]
      exact if_neg nonempty
    · have single : ':' ∉ number := by
        intro colon
        rcases fromStrRadix_characters (by decide) parses ':' colon with
          digit | sign
        · cases digit
        · cases sign
      rw [List.splitOn_append_cons_self_of_not_mem absent,
        List.splitOn_eq_singleton single]
      exact (if_neg (Option.isSome_iff_ne_none.mp parses)).trans
        (if_neg nonempty)

theorem bracketedHost_eq_some_iff {v6 host : List Char} :
    bracketedHost v6 = some host ↔
      ∃ after, v6 = host ++ ']' :: after ∧ ']' ∉ host ∧
        (after = [] ∨ after.head? = some ':') := by
  rw [bracketedHost, Option.bind_eq_bind, Option.bind_eq_some_iff]
  constructor
  · intro read
    obtain ⟨⟨inside, after⟩, split, read⟩ := read
    obtain ⟨rfl, absent⟩ := splitOnce_singleton_iff.mp split
    obtain ⟨ends, same⟩ := Option.ite_none_right_eq_some.mp read
    cases same
    exact ⟨after, rfl, absent, ends⟩
  · intro read
    obtain ⟨after, rfl, absent, ends⟩ := read
    exact ⟨(host, after), splitOnce_singleton_iff.mpr ⟨rfl, absent⟩,
      if_pos ends⟩

/-- The authorities that are read, and their hosts. -/
theorem hostOf_eq_some_iff {rest host : List Char} :
    hostOf rest = some host ↔ Admits (authorityOf rest) host := by
  rw [hostOf]
  generalize authorityOf rest = authority
  constructor
  · intro read
    obtain ⟨safe, read⟩ := Option.ite_none_left_eq_some.mp read
    obtain ⟨_, noUserinfo⟩ := not_or.mp safe
    split at read
    · next v6 bracket =>
        obtain ⟨after, rfl, absent, ends⟩ := bracketedHost_eq_some_iff.mp read
        have whole : authority = '[' :: (host ++ ']' :: after) :=
          dropPrefix?_eq_some bracket
        rw [whole] at noUserinfo ⊢
        exact .bracketed absent noUserinfo ends
    · next plain =>
        obtain ⟨port, rfl, nonempty, absent, admitted⟩ :=
          plainHost_eq_some_iff.mp read
        refine .plain nonempty ?_ absent noUserinfo admitted
        intro bracket
        obtain ⟨tail, same⟩ := List.head?_eq_some_iff.mp bracket
        rw [same, List.cons_append] at plain
        have stripped := dropPrefix?_append ['['] (tail ++ port)
        rw [List.singleton_append, plain] at stripped
        cases stripped
  · intro admits
    cases admits with
    | @bracketed _ after absent noUserinfo ends =>
        have stripped := dropPrefix?_append ['['] (host ++ ']' :: after)
        rw [if_neg (not_or.mpr ⟨List.cons_ne_nil _ _, noUserinfo⟩)]
        rw [List.singleton_append] at stripped
        rw [stripped]
        exact bracketedHost_eq_some_iff.mpr ⟨after, rfl, absent, ends⟩
    | @plain _ port nonempty unbracketed absent noUserinfo admitted =>
        have filled : host ++ port ≠ [] :=
          List.append_ne_nil_of_left_ne_nil nonempty port
        have stripped : (host ++ port).dropPrefix? ['['] = none := by
          apply Option.eq_none_iff_forall_ne_some.mpr
          intro after stripped
          obtain ⟨first, tail, rfl⟩ := List.exists_cons_of_ne_nil nonempty
          have same : first = '[' :=
            (List.cons.inj (dropPrefix?_eq_some stripped)).1
          exact unbracketed (congrArg some same)
        rw [if_neg (not_or.mpr ⟨filled, noUserinfo⟩), stripped]
        exact plainHost_eq_some_iff.mpr
          ⟨port, rfl, nonempty, absent, admitted⟩

theorem Admits.unique {rest first second : List Char}
    (one : Admits (authorityOf rest) first)
    (other : Admits (authorityOf rest) second) : first = second := by
  rw [← hostOf_eq_some_iff] at one other
  exact Option.some.inj (one.symm.trans other)

theorem Parts.authorityOf {url scheme authority rest : List Char}
    (parts : Parts url scheme authority rest) :
    Chainio.authorityOf (authority ++ rest) = authority := by
  have inside : ∀ char ∈ authority, (!isDelimiter char) = true := by
    intro char member
    rw [parts.inside char member]
    rfl
  rw [Chainio.authorityOf, List.takeWhile_append_of_pos inside]
  rcases parts.ends with rfl | ⟨char, tail, rfl, delimiter⟩
  · exact List.append_nil _
  · rw [List.takeWhile_cons_of_neg (by simp [delimiter]), List.append_nil]

/-- What follows the first `://` has an authority and a rest. -/
theorem Parts.of_split {url scheme remainder : List Char}
    (split : splitOnce "://".toList url = some (scheme, remainder)) :
    Parts url scheme (Chainio.authorityOf remainder)
      (remainder.dropWhile fun char => !isDelimiter char) where
  whole := by
    rw [Chainio.authorityOf, List.takeWhile_append_dropWhile]
    exact eq_of_splitOnce split
  inside := by
    intro char member
    have admitted := List.mem_takeWhile_imp member
    exact Bool.not_eq_true' _ |>.mp admitted
  ends := by
    have stops := List.head?_dropWhile_not
      (fun char => !isDelimiter char) remainder
    cases same : remainder.dropWhile fun char => !isDelimiter char with
    | nil => exact .inl rfl
    | cons char tail =>
        rw [same] at stops
        exact .inr ⟨char, tail, rfl, Bool.not_eq_false' _ |>.mp stops⟩

theorem Parts.split {url scheme authority rest : List Char}
    (parts : Parts url scheme authority rest) (plain : ':' ∉ scheme) :
    splitOnce "://".toList url = some (scheme, authority ++ rest) := by
  rw [parts.whole]
  exact splitOnce_append plain

theorem SchemeAllows.noColon {scheme host : List Char} {allowInsecure : Bool}
    (allows : SchemeAllows scheme host allowInsecure) : ':' ∉ scheme := by
  intro colon
  have lowered : ':' ∈ toAsciiLowercase scheme :=
    List.mem_map.mpr ⟨':', colon, rfl⟩
  rcases allows with https | ⟨http, _⟩
  · rw [https] at lowered
    exact absurd lowered (by decide)
  · rw [http] at lowered
    exact absurd lowered (by decide)

theorem ipv6_eq_none_of_ipv4 {host : List Char} {address : Nat}
    (literal : ipv4 host = some address) : ipv6 host = none := by
  apply Option.eq_none_iff_forall_ne_some.mpr
  intro other read
  rcases ipv4_dotted literal ':' (ipv6_colon read) with digit | dot
  · cases digit
  · cases dot

theorem isLoopbackHost_iff {host : List Char} :
    isLoopbackHost host = true ↔ LoopbackHost host := by
  rw [isLoopbackHost, LoopbackHost]
  by_cases local_ : toAsciiLowercase host = "localhost".toList
  · rw [if_pos local_]
    exact iff_of_true rfl (.inl local_)
  · rw [if_neg local_, or_iff_right local_]
    cases four : ipv4 host with
    | some address => simp [ipv6_eq_none_of_ipv4 four]
    | none =>
        cases six : ipv6 host with
        | some address => simp
        | none => simp

/-- Behind a separator, the scheme and the host decide. -/
theorem validateOutboundUrlWith_of_split {url : String} {allowInsecure : Bool}
    {scheme rest : List Char}
    (split : splitOnce "://".toList url.toList = some (scheme, rest)) :
    validateOutboundUrlWith url allowInsecure = .ok () ↔
      ∃ host, hostOf rest = some host ∧
        SchemeAllows scheme host allowInsecure := by
  rw [validateOutboundUrlWith, split, okOr, ok_bind]
  simp only [SchemeAllows]
  by_cases https : toAsciiLowercase scheme = "https".toList
  · rw [if_pos https, bind_eq_ok]
    simp only [okOr_eq_ok_iff]
    constructor
    · intro accepted
      obtain ⟨host, read, _⟩ := accepted
      exact ⟨host, read, .inl https⟩
    · intro accepted
      obtain ⟨host, read, _⟩ := accepted
      exact ⟨host, read, rfl⟩
  · rw [if_neg https]
    simp only [or_iff_right https]
    by_cases http : toAsciiLowercase scheme = "http".toList
    · rw [if_pos http, bind_eq_ok]
      simp only [okOr_eq_ok_iff]
      apply exists_congr
      intro host
      apply and_congr_right
      intro _
      rw [← isLoopbackHost_iff, and_iff_right http]
      cases isLoopbackHost host with
      | true => exact iff_of_true rfl (.inr rfl)
      | false =>
          cases allowInsecure with
          | true => exact iff_of_true rfl (.inl rfl)
          | false => simp
    · rw [if_neg http]
      constructor
      · intro accepted
        cases accepted
      · intro accepted
        obtain ⟨_, _, same, _⟩ := accepted
        exact absurd same http

/-- The URLs that are accepted: one whose authority is read, and whose scheme
lets the host through. -/
theorem validateOutboundUrlWith_eq_ok_iff {url : String}
    {allowInsecure : Bool} :
    validateOutboundUrlWith url allowInsecure = .ok () ↔
      ∃ scheme authority rest host,
        Parts url.toList scheme authority rest ∧ Admits authority host ∧
          SchemeAllows scheme host allowInsecure := by
  constructor
  · intro accepted
    cases split : splitOnce "://".toList url.toList with
    | none =>
        rw [validateOutboundUrlWith, split] at accepted
        cases accepted
    | some parts =>
        obtain ⟨host, read, allows⟩ :=
          (validateOutboundUrlWith_of_split split).mp accepted
        exact ⟨parts.1, _, _, host, Parts.of_split split,
          hostOf_eq_some_iff.mp read, allows⟩
  · intro accepted
    obtain ⟨scheme, authority, rest, host, parts, admits, allows⟩ := accepted
    rw [validateOutboundUrlWith_of_split (parts.split allows.noColon)]
    refine ⟨host, ?_, allows⟩
    rw [hostOf_eq_some_iff, parts.authorityOf]
    exact admits

end NodeAgent.Chainio
