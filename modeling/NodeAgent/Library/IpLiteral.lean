import NodeAgent.Library.Text

/-!
# IP address literals

The textual forms of IPv4 and IPv6 addresses, as numbers of 32 and of 128 bits.
An IPv6 literal is eight groups of up to four hex digits; one run of zero groups
may be left out between two colons, and an IPv4 literal may stand for the last
two groups.
-/

namespace IpLiteral

open Text

/-- One byte in decimal, without leading zeros. -/
def readOctet (text : List Char) : Option Nat :=
  if text = [] ∨ 3 < text.length ∨ (1 < text.length ∧ text.head? = some '0')
    then none
  else readDigits 10 255 0 text

def ipv4 (text : List Char) : Option Nat :=
  match text.splitOn '.' with
  | [first, second, third, fourth] => do
      let first ← readOctet first
      let second ← readOctet second
      let third ← readOctet third
      let fourth ← readOctet fourth
      return ((first * 256 + second) * 256 + third) * 256 + fourth
  | _ => none

/-- A group of up to four hex digits. -/
def readGroup (text : List Char) : Option Nat :=
  if text = [] ∨ 4 < text.length then none else readDigits 16 65535 0 text

/-- The groups behind parts between colons.  The last part may be an IPv4
literal where `embeds` says so. -/
def readGroups (embeds : Bool) : List (List Char) → Option (List Nat)
  | [] => some []
  | part :: rest =>
      match (if embeds ∧ rest = [] then ipv4 part else none) with
      | some address => some [address / 65536, address % 65536]
      | none => do
          let group ← readGroup part
          let groups ← readGroups embeds rest
          return group :: groups

/-- The groups on one side of two colons; there may be none. -/
def readSide (embeds : Bool) (text : List Char) : Option (List Nat) :=
  if text = [] then some [] else readGroups embeds (text.splitOn ':')

/-- The eight groups of a literal. -/
def ipv6Groups (text : List Char) : Option (List Nat) :=
  match splitOnce [':', ':'] text with
  | none => do
      let groups ← readGroups true (text.splitOn ':')
      if groups.length = 8 then some groups else none
  | some (before, after) => do
      let head ← readSide false before
      let tail ← readSide true after
      let given := head.length + tail.length
      if given ≤ 7 then some (head ++ List.replicate (8 - given) 0 ++ tail)
      else none

def ipv6 (text : List Char) : Option Nat :=
  (ipv6Groups text).map fun groups =>
    groups.foldl (fun address group => address * 65536 + group) 0

/-- The characters of IPv4 literals. -/
def Dotted (char : Char) : Prop := (toDigit 10 char).isSome = true ∨ char = '.'

/-- The characters of IPv6 literals. -/
def Grouped (char : Char) : Prop :=
  (toDigit 16 char).isSome = true ∨ char = '.' ∨ char = ':'

theorem readOctet_digits {text : List Char} {number : Nat}
    (read : readOctet text = some number) : Digits 10 text := by
  rw [readOctet] at read
  split at read
  · cases read
  · exact ((readDigits_eq_some_iff (by decide) (Nat.zero_le _)).mp read).1

theorem readGroup_digits {text : List Char} {number : Nat}
    (read : readGroup text = some number) : Digits 16 text := by
  rw [readGroup] at read
  split at read
  · cases read
  · exact ((readDigits_eq_some_iff (by decide) (Nat.zero_le _)).mp read).1

theorem ipv4_dotted {text : List Char} {address : Nat}
    (read : ipv4 text = some address) : ∀ char ∈ text, Dotted char := by
  intro char member
  rw [ipv4] at read
  split at read
  · next first second third fourth split =>
      obtain ⟨_, firstRead, read⟩ := Option.bind_eq_some_iff.mp read
      obtain ⟨_, secondRead, read⟩ := Option.bind_eq_some_iff.mp read
      obtain ⟨_, thirdRead, read⟩ := Option.bind_eq_some_iff.mp read
      obtain ⟨_, fourthRead, _⟩ := Option.bind_eq_some_iff.mp read
      have parts : ∀ part ∈ [first, second, third, fourth],
          Digits 10 part := by
        simp only [List.forall_mem_cons, List.not_mem_nil, false_implies,
          implies_true, and_true]
        exact ⟨readOctet_digits firstRead, readOctet_digits secondRead,
          readOctet_digits thirdRead, readOctet_digits fourthRead⟩
      rcases mem_splitOn '.' member with dot | ⟨part, inParts, inside⟩
      · exact .inr dot
      · rw [split] at inParts
        exact .inl (parts part inParts char inside)
  · cases read

theorem not_grouped {char : Char} (noDigit : toDigit 16 char = none)
    (noDot : char ≠ '.') (noColon : char ≠ ':') : ¬ Grouped char := by
  intro grouped
  rcases grouped with digit | dot | colon
  · rw [noDigit] at digit
    cases digit
  · exact noDot dot
  · exact noColon colon

theorem Dotted.grouped {char : Char} (dotted : Dotted char) : Grouped char := by
  rcases dotted with digit | dot
  · exact .inl (toDigit_mono (by decide) digit)
  · exact .inr (.inl dot)

theorem readGroups_grouped {embeds : Bool} {parts : List (List Char)}
    {groups : List Nat} (read : readGroups embeds parts = some groups) :
    ∀ part ∈ parts, ∀ char ∈ part, Grouped char := by
  induction parts generalizing groups with
  | nil => nofun
  | cons part rest ih =>
      rw [readGroups] at read
      split at read
      · next embedded =>
          split at embedded
          · next last =>
              rw [last.2, List.forall_mem_singleton]
              exact fun char member =>
                (ipv4_dotted embedded char member).grouped
          · cases embedded
      · obtain ⟨_, partRead, read⟩ := Option.bind_eq_some_iff.mp read
        obtain ⟨_, restRead, _⟩ := Option.bind_eq_some_iff.mp read
        exact List.forall_mem_cons.mpr
          ⟨fun char member => .inl (readGroup_digits partRead char member),
            ih restRead⟩

theorem splitGroups_grouped {embeds : Bool} {text : List Char}
    {groups : List Nat}
    (read : readGroups embeds (text.splitOn ':') = some groups) :
    ∀ char ∈ text, Grouped char := by
  intro char member
  rcases mem_splitOn ':' member with colon | ⟨part, inParts, inside⟩
  · exact .inr (.inr colon)
  · exact readGroups_grouped read part inParts char inside

theorem readSide_grouped {embeds : Bool} {text : List Char}
    {groups : List Nat} (read : readSide embeds text = some groups) :
    ∀ char ∈ text, Grouped char := by
  rw [readSide] at read
  split at read
  · next empty =>
      rw [empty]
      nofun
  · exact splitGroups_grouped read

theorem length_readGroups {embeds : Bool} {parts : List (List Char)}
    {groups : List Nat} (read : readGroups embeds parts = some groups) :
    groups.length ≤ parts.length + 1 := by
  induction parts generalizing groups with
  | nil =>
      cases read
      exact Nat.zero_le _
  | cons part rest ih =>
      rw [readGroups] at read
      split at read
      · cases read
        simp
      · obtain ⟨_, _, read⟩ := Option.bind_eq_some_iff.mp read
        obtain ⟨later, restRead, read⟩ := Option.bind_eq_some_iff.mp read
        cases read
        exact Nat.succ_le_succ (ih restRead)

theorem ipv6_grouped {text : List Char} {address : Nat}
    (read : ipv6 text = some address) : ∀ char ∈ text, Grouped char := by
  obtain ⟨groups, read, _⟩ := Option.map_eq_some_iff.mp read
  rw [ipv6Groups] at read
  split at read
  · obtain ⟨_, read, _⟩ := Option.bind_eq_some_iff.mp read
    exact splitGroups_grouped read
  · next before after split =>
      obtain ⟨_, beforeRead, read⟩ := Option.bind_eq_some_iff.mp read
      obtain ⟨_, afterRead, _⟩ := Option.bind_eq_some_iff.mp read
      rw [eq_of_splitOnce split, List.forall_mem_append,
        List.forall_mem_append]
      refine ⟨readSide_grouped beforeRead, ?_, readSide_grouped afterRead⟩
      intro char member
      simp only [List.mem_cons, List.not_mem_nil, or_false, or_self] at member
      exact .inr (.inr member)

theorem ipv6_colon {text : List Char} {address : Nat}
    (read : ipv6 text = some address) : ':' ∈ text := by
  obtain ⟨groups, read, _⟩ := Option.map_eq_some_iff.mp read
  rw [ipv6Groups] at read
  split at read
  · obtain ⟨groups, read, sized⟩ := Option.bind_eq_some_iff.mp read
    by_contra absent
    have short := length_readGroups read
    rw [List.splitOn_eq_singleton absent, List.length_singleton] at short
    split at sized
    · omega
    · cases sized
  · next before after split =>
      rw [eq_of_splitOnce split]
      simp

end IpLiteral
