import Mathlib.Data.List.Basic
import Mathlib.Tactic.Ring

/-!
# Reading text

Text is a list of characters.  Numerals are read as the standard library reads
them: a sign may stand before the digits.  A separator splits text at its first
occurrence.
-/

namespace Text

/-- The value of a digit in this radix. -/
def toDigit (radix : Nat) (char : Char) : Option Nat :=
  (if '0' ≤ char ∧ char ≤ '9' then some (char.toNat - '0'.toNat)
    else if 'a' ≤ char ∧ char ≤ 'z' then some (char.toNat - 'a'.toNat + 10)
    else if 'A' ≤ char ∧ char ≤ 'Z' then some (char.toNat - 'A'.toNat + 10)
    else none).filter (fun digit => digit < radix)

/-- Every character is a digit. -/
def Digits (radix : Nat) (text : List Char) : Prop :=
  ∀ char ∈ text, (toDigit radix char).isSome = true

/-- The number that the digits of `text` spell behind those of `acc`. -/
def valueFrom (radix acc : Nat) : List Char → Nat
  | [] => acc
  | char :: rest =>
      valueFrom radix (acc * radix + (toDigit radix char).getD 0) rest

/-- The number that digits spell. -/
def value (radix : Nat) (text : List Char) : Nat := valueFrom radix 0 text

/-- A nonempty string of digits, and the number that it spells. -/
structure Numeral (radix : Nat) (text : List Char) (number : Nat) : Prop where
  nonempty : text ≠ []
  digits : Digits radix text
  spelled : value radix text = number

/-- The digits are read one by one, and a number above `max` is refused. -/
def readDigits (radix max acc : Nat) : List Char → Option Nat
  | [] => some acc
  | char :: rest => do
      let digit ← toDigit radix char
      let number := acc * radix + digit
      if number ≤ max then readDigits radix max number rest else none

/-- The unsigned integers that parse: digits, possibly behind a plus sign. -/
def fromStrRadix (radix max : Nat) : List Char → Option Nat
  | [] => none
  | '+' :: rest => if rest = [] then none else readDigits radix max 0 rest
  | text => readDigits radix max 0 text

section Numerals

variable {radix max acc number : Nat} {char : Char} {text rest : List Char}

theorem toDigit_lt {digit : Nat} (read : toDigit radix char = some digit) :
    digit < radix :=
  of_decide_eq_true (Option.filter_eq_some_iff.mp read).2

theorem toDigit_mono {larger : Nat} (grows : radix ≤ larger)
    (isDigit : (toDigit radix char).isSome = true) :
    (toDigit larger char).isSome = true := by
  obtain ⟨digit, read⟩ := Option.isSome_iff_exists.mp isDigit
  obtain ⟨range, small⟩ := Option.filter_eq_some_iff.mp read
  have fits : digit < larger :=
    Nat.lt_of_lt_of_le (of_decide_eq_true small) grows
  exact Option.isSome_iff_exists.mpr
    ⟨digit, Option.filter_eq_some_iff.mpr ⟨range, decide_eq_true fits⟩⟩

theorem toDigit_ascii (isDigit : (toDigit radix char).isSome = true) :
    char.toNat < 128 := by
  obtain ⟨digit, read⟩ := Option.isSome_iff_exists.mp isDigit
  have range := (Option.filter_eq_some_iff.mp read).1
  split at range
  · next decimal => exact Nat.lt_of_le_of_lt decimal.2 (by decide)
  · split at range
    · next lower => exact Nat.lt_of_le_of_lt lower.2 (by decide)
    · split at range
      · next upper => exact Nat.lt_of_le_of_lt upper.2 (by decide)
      · cases range

@[simp] theorem digits_nil : Digits radix [] := nofun

@[simp] theorem digits_cons :
    Digits radix (char :: rest) ↔
      (toDigit radix char).isSome = true ∧ Digits radix rest :=
  List.forall_mem_cons

theorem not_digits_of_mem (member : char ∈ text)
    (other : toDigit radix char = none) : ¬ Digits radix text := by
  intro digits
  have isDigit := digits char member
  rw [other] at isDigit
  cases isDigit

theorem le_valueFrom (positive : 0 < radix) :
    acc ≤ valueFrom radix acc text := by
  induction text generalizing acc with
  | nil => exact Nat.le_refl acc
  | cons char rest ih =>
      rw [valueFrom]
      have grows : acc ≤ acc * radix := Nat.le_mul_of_pos_right acc positive
      exact (Nat.le_trans grows (Nat.le_add_right _ _)).trans ih

theorem valueFrom_eq (radix acc : Nat) (text : List Char) :
    valueFrom radix acc text =
      acc * radix ^ text.length + value radix text := by
  induction text generalizing acc with
  | nil => simp [valueFrom, value]
  | cons char rest ih =>
      rw [value, valueFrom, valueFrom, ih, ih (0 * radix + _), List.length_cons,
        pow_succ']
      ring

theorem value_cons (radix : Nat) (char : Char) (rest : List Char) :
    value radix (char :: rest) =
      (toDigit radix char).getD 0 * radix ^ rest.length +
        value radix rest := by
  rw [value, valueFrom, valueFrom_eq, Nat.zero_mul, Nat.zero_add]

theorem value_lt (digits : Digits radix text) :
    value radix text < radix ^ text.length := by
  induction text with
  | nil => simp [value, valueFrom]
  | cons char rest ih =>
      obtain ⟨isDigit, later⟩ := digits_cons.mp digits
      obtain ⟨digit, read⟩ := Option.isSome_iff_exists.mp isDigit
      rw [value_cons, read, Option.getD_some, List.length_cons, pow_succ']
      calc digit * radix ^ rest.length + value radix rest
          < digit * radix ^ rest.length + radix ^ rest.length :=
            Nat.add_lt_add_left (ih later) _
        _ = (digit + 1) * radix ^ rest.length := (Nat.succ_mul _ _).symm
        _ ≤ radix * radix ^ rest.length :=
            Nat.mul_le_mul_right _ (toDigit_lt read)

theorem readDigits_eq_some_iff (positive : 0 < radix) (fits : acc ≤ max) :
    readDigits radix max acc text = some number ↔
      Digits radix text ∧ valueFrom radix acc text = number ∧
        number ≤ max := by
  induction text generalizing acc with
  | nil =>
      simp only [readDigits, valueFrom, Option.some.injEq, digits_nil,
        true_and]
      constructor
      · intro same
        exact ⟨same, same ▸ fits⟩
      · exact And.left
  | cons char rest ih =>
      rw [readDigits, valueFrom, digits_cons]
      cases read : toDigit radix char with
      | none => simp
      | some digit =>
          simp only [Option.bind_eq_bind, Option.bind_some,
            Option.isSome_some, true_and, Option.getD_some]
          by_cases small : acc * radix + digit ≤ max
          · rw [if_pos small]
            exact ih small
          · rw [if_neg small]
            constructor
            · nofun
            · intro spelled
              have grows : acc * radix + digit ≤ number :=
                spelled.2.1 ▸ le_valueFrom positive
              exact absurd (Nat.le_trans grows spelled.2.2) small

theorem toDigit_plus (radix : Nat) : toDigit radix '+' = none := rfl

theorem not_numeral_plus : ¬ Numeral radix ('+' :: rest) number := by
  intro numeral
  exact not_digits_of_mem List.mem_cons_self (toDigit_plus radix)
    numeral.digits

theorem readDigits_eq_some_iff_numeral (positive : 0 < radix)
    (nonempty : text ≠ []) :
    readDigits radix max 0 text = some number ↔
      number ≤ max ∧ Numeral radix text number := by
  rw [readDigits_eq_some_iff positive (Nat.zero_le max)]
  constructor
  · intro read
    obtain ⟨digits, spelled, fits⟩ := read
    exact ⟨fits, nonempty, digits, spelled⟩
  · intro numeral
    exact ⟨numeral.2.digits, numeral.2.spelled, numeral.1⟩

/-- What parses is a numeral that fits, or one behind a plus sign. -/
theorem fromStrRadix_eq_some_iff (positive : 0 < radix) :
    fromStrRadix radix max text = some number ↔
      number ≤ max ∧
        (Numeral radix text number ∨
          ∃ digits, text = '+' :: digits ∧ Numeral radix digits number) := by
  rw [fromStrRadix.eq_def]
  split
  · constructor
    · nofun
    · intro parsed
      rcases parsed.2 with plain | ⟨digits, signed, _⟩
      · exact absurd rfl plain.nonempty
      · cases signed
  · next rest =>
      constructor
      · intro parsed
        split at parsed
        · cases parsed
        · next nonempty =>
            obtain ⟨fits, numeral⟩ :=
              (readDigits_eq_some_iff_numeral positive nonempty).mp parsed
            exact ⟨fits, .inr ⟨rest, rfl, numeral⟩⟩
      · intro parsed
        obtain ⟨fits, plain | ⟨digits, signed, numeral⟩⟩ := parsed
        · exact absurd plain not_numeral_plus
        · cases signed
          rw [if_neg numeral.nonempty]
          exact (readDigits_eq_some_iff_numeral positive
            numeral.nonempty).mpr ⟨fits, numeral⟩
  · next nonempty unsigned =>
      rw [readDigits_eq_some_iff_numeral positive nonempty]
      constructor
      · intro parsed
        exact ⟨parsed.1, .inl parsed.2⟩
      · intro parsed
        obtain ⟨fits, plain | ⟨digits, signed, _⟩⟩ := parsed
        · exact ⟨fits, plain⟩
        · exact absurd signed (unsigned digits)

theorem valueFrom_append (radix acc : Nat) (first second : List Char) :
    valueFrom radix acc (first ++ second) =
      valueFrom radix (valueFrom radix acc first) second := by
  induction first generalizing acc with
  | nil => rfl
  | cons char rest ih => exact ih _

/-- What the standard library prints is read back, up to sixteen digits. -/
theorem numeral_toDigits {number : Nat} (two : 1 < radix)
    (known : ∀ digit < radix,
      toDigit radix (Nat.digitChar digit) = some digit) :
    Numeral radix (Nat.toDigits radix number) number := by
  refine ⟨Nat.toDigits_ne_nil, ?_, ?_⟩
  · induction number using Nat.strongRecOn with
    | ind number ih =>
        rw [Nat.toDigits_eq_if two]
        split
        · next small => simp [known number small]
        · next large =>
            have digit : number % radix < radix := Nat.mod_lt _ (by omega)
            have smaller : number / radix < number :=
              Nat.div_lt_self (by omega) two
            intro char member
            rcases List.mem_append.mp member with earlier | last
            · exact ih _ smaller char earlier
            · rw [List.mem_singleton.mp last, known _ digit]
              rfl
  · induction number using Nat.strongRecOn with
    | ind number ih =>
        rw [Nat.toDigits_eq_if two]
        split
        · next small => simp [value, valueFrom, known number small]
        · next large =>
            have digit : number % radix < radix := Nat.mod_lt _ (by omega)
            have smaller : number / radix < number :=
              Nat.div_lt_self (by omega) two
            have earlier : valueFrom radix 0
                (Nat.toDigits radix (number / radix)) = number / radix :=
              ih _ smaller
            rw [value, valueFrom_append, earlier, valueFrom, valueFrom,
              known _ digit, Option.getD_some]
            exact Nat.div_add_mod' number radix

theorem fromStrRadix_characters (positive : 0 < radix)
    (parses : (fromStrRadix radix max text).isSome = true) :
    ∀ char ∈ text, (toDigit radix char).isSome = true ∨ char = '+' := by
  obtain ⟨number, parses⟩ := Option.isSome_iff_exists.mp parses
  obtain ⟨_, plain | ⟨digits, rfl, numeral⟩⟩ :=
    (fromStrRadix_eq_some_iff positive).mp parses
  · intro char member
    exact .inl (plain.digits char member)
  · rw [List.forall_mem_cons]
    refine ⟨.inr rfl, ?_⟩
    intro char member
    exact .inl (numeral.digits char member)

end Numerals

section Separators

variable {α : Type} [DecidableEq α]

/-- The parts around the first occurrence of a nonempty separator. -/
def splitOnce (separator : List α) : List α → Option (List α × List α)
  | [] => none
  | head :: tail =>
      match (head :: tail).dropPrefix? separator with
      | some after => some ([], after)
      | none =>
          (splitOnce separator tail).map fun parts =>
            (head :: parts.1, parts.2)

variable {separator text before after : List α} {head : α}

theorem dropPrefix?_append (first rest : List α) :
    (first ++ rest).dropPrefix? first = some rest :=
  List.dropPrefix?_eq_some_iff.mpr ⟨first, rfl, beq_self_eq_true first⟩

theorem dropPrefix?_eq_some {first rest : List α}
    (dropped : text.dropPrefix? first = some rest) : text = first ++ rest := by
  obtain ⟨same, split, equal⟩ := List.dropPrefix?_eq_some_iff.mp dropped
  rw [split, eq_of_beq equal]

/-- The parts and the separator make up the text. -/
theorem eq_of_splitOnce
    (split : splitOnce separator text = some (before, after)) :
    text = before ++ (separator ++ after) := by
  induction text generalizing before with
  | nil => cases split
  | cons head tail ih =>
      rw [splitOnce] at split
      cases here : (head :: tail).dropPrefix? separator with
      | some rest =>
          rw [here] at split
          cases split
          rw [dropPrefix?_eq_some here, List.nil_append]
      | none =>
          rw [here] at split
          obtain ⟨⟨first, second⟩, later, parts⟩ :=
            Option.map_eq_some_iff.mp split
          cases parts
          rw [ih later, List.cons_append]

theorem splitOnce_append (earlier : head ∉ before) :
    splitOnce (head :: separator) (before ++ (head :: separator ++ after)) =
      some (before, after) := by
  induction before with
  | nil =>
      rw [List.nil_append, List.cons_append, splitOnce, ← List.cons_append,
        dropPrefix?_append]
  | cons first before ih =>
      have different := List.ne_of_not_mem_cons earlier
      have absent := List.not_mem_of_not_mem_cons earlier
      have here :
          ((first :: before) ++ (head :: separator ++ after)).dropPrefix?
            (head :: separator) = none := by
        apply Option.eq_none_iff_forall_ne_some.mpr
        intro rest dropped
        exact different (List.cons.inj (dropPrefix?_eq_some dropped)).1.symm
      rw [List.cons_append] at here ⊢
      rw [splitOnce, here, ih absent]
      rfl

theorem splitOnce_singleton_iff {char : α} :
    splitOnce [char] text = some (before, after) ↔
      text = before ++ char :: after ∧ char ∉ before := by
  constructor
  · intro split
    refine ⟨eq_of_splitOnce split, ?_⟩
    induction text generalizing before with
    | nil => cases split
    | cons head tail ih =>
        rw [splitOnce] at split
        by_cases same : head = char
        · rw [same, show (char :: tail) = [char] ++ tail from rfl,
            dropPrefix?_append] at split
          cases split
          exact List.not_mem_nil
        · have here : (head :: tail).dropPrefix? [char] = none := by
            apply Option.eq_none_iff_forall_ne_some.mpr
            intro rest dropped
            exact same (List.cons.inj (dropPrefix?_eq_some dropped)).1
          rw [here] at split
          obtain ⟨⟨first, second⟩, later, parts⟩ :=
            Option.map_eq_some_iff.mp split
          cases parts
          exact List.not_mem_cons_of_ne_of_not_mem (Ne.symm same) (ih later)
  · intro split
    obtain ⟨rfl, absent⟩ := split
    exact splitOnce_append absent

theorem splitOn_cases (char : α) (text : List α) :
    (char ∉ text ∧ text.splitOn char = [text]) ∨
      ∃ before after, text = before ++ char :: after ∧ char ∉ before ∧
        text.splitOn char = before :: after.splitOn char := by
  by_cases occurs : char ∈ text
  · obtain ⟨before, after, split, absent⟩ :=
      List.eq_append_cons_of_mem occurs
    refine .inr ⟨before, after, split, absent, ?_⟩
    rw [split]
    exact List.splitOn_append_cons_self_of_not_mem absent after
  · exact .inl ⟨occurs, List.splitOn_eq_singleton occurs⟩

theorem mem_splitOn (char : α) {element : α} (member : element ∈ text) :
    element = char ∨ ∃ part ∈ text.splitOn char, element ∈ part := by
  induction text with
  | nil => cases member
  | cons head tail ih =>
      rw [List.splitOn_cons_eq_if_modifyHead]
      obtain ⟨part, parts, split⟩ :=
        List.exists_cons_of_ne_nil (List.splitOn_ne_nil char tail)
      rw [split] at ih ⊢
      by_cases separates : head = char
      · rw [if_pos (beq_iff_eq.mpr separates)]
        rcases List.mem_cons.mp member with first | later
        · exact .inl (first.trans separates)
        · rcases ih later with same | ⟨found, inParts, inside⟩
          · exact .inl same
          · exact .inr ⟨found, List.mem_cons_of_mem _ inParts, inside⟩
      · rw [if_neg (fun same => separates (beq_iff_eq.mp same)),
          List.modifyHead_cons]
        rcases List.mem_cons.mp member with first | later
        · rw [first]
          exact .inr ⟨_, List.mem_cons_self, List.mem_cons_self⟩
        · rcases ih later with same | ⟨found, inParts, inside⟩
          · exact .inl same
          · rcases List.mem_cons.mp inParts with here | further
            · rw [here] at inside
              exact .inr ⟨_, List.mem_cons_self,
                List.mem_cons_of_mem _ inside⟩
            · exact .inr ⟨found, List.mem_cons_of_mem _ further, inside⟩

end Separators

end Text
