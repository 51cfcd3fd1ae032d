import Mathlib.Data.List.Basic

/-!
# Cursor readers

A reader moves a cursor through a list of tokens and may fail.  A reader that
consumes a fixed number of tokens is described by the tokens it consumes and by
the result it computes from them, and such descriptions compose.
-/

namespace Parsing

variable {ε τ α β : Type}

theorem ok_bind (value : α) (next : α → Except ε β) :
    (.ok value >>= next) = next value := rfl

theorem bind_eq_ok {result : Except ε α} {next : α → Except ε β} {value : β} :
    (result >>= next) = .ok value ↔
      ∃ first, result = .ok first ∧ next first = .ok value := by
  constructor
  · intro succeeds
    cases result with
    | error error => cases succeeds
    | ok first => exact ⟨first, rfl, succeeds⟩
  · intro succeeds
    obtain ⟨first, rfl, later⟩ := succeeds
    exact later

/-- The value of an option, or this error. -/
def okOr (error : ε) : Option α → Except ε α
  | some value => .ok value
  | none => .error error

theorem okOr_eq_ok_iff {error : ε} {option : Option α} {value : α} :
    okOr error option = .ok value ↔ option = some value := by
  cases option with
  | none => simp [okOr]
  | some found => simp [okOr]

theorem map_eq_ok {result : Except ε α} {next : α → β} {value : β} :
    result.map next = .ok value ↔ ∃ first, result = .ok first ∧
      next first = value := by
  cases result with
  | error error =>
      constructor
      · nofun
      · rintro ⟨first, same, -⟩
        cases same
  | ok first =>
      constructor
      · intro same
        cases same
        exact ⟨first, rfl, rfl⟩
      · rintro ⟨_, ⟨⟩, rfl⟩
        rfl

theorem mapError_eq_ok {δ : Type} {result : Except ε α} {wrap : ε → δ}
    {value : α} : result.mapError wrap = .ok value ↔ result = .ok value := by
  cases result with
  | error error => exact ⟨nofun, nofun⟩
  | ok found => simp only [Except.mapError, Except.ok.injEq]

/-- A position in a list of tokens. -/
structure Cursor (τ : Type) where
  data : List τ
  offset : Nat

/-- A computation that moves a cursor and may fail. -/
abbrev Reader (ε τ : Type) := StateT (Cursor τ) (Except ε)

namespace Cursor

def advance (cursor : Cursor τ) (count : Nat) : Cursor τ :=
  { cursor with offset := cursor.offset + count }

/-- The tokens from the cursor to the end. -/
def Ahead (cursor : Cursor τ) (tokens : List τ) : Prop :=
  cursor.data.drop cursor.offset = tokens

theorem advance_advance (cursor : Cursor τ) (first second : Nat) :
    (cursor.advance first).advance second =
      cursor.advance (first + second) := by
  simp [advance, Nat.add_assoc]

theorem Ahead.advance {cursor : Cursor τ} {used rest : List τ}
    (ahead : cursor.Ahead (used ++ rest)) :
    (cursor.advance used.length).Ahead rest := by
  rw [Ahead, Cursor.advance, ← List.drop_drop, ahead, List.drop_left]

theorem Ahead.fits {cursor : Cursor τ} {used rest : List τ}
    (ahead : cursor.Ahead (used ++ rest)) (some : 0 < used.length) :
    cursor.offset + used.length ≤ cursor.data.length := by
  have lengths := congrArg List.length ahead
  rw [List.length_drop, List.length_append] at lengths
  omega

end Cursor

/-- With the tokens `used` ahead, the reader consumes exactly these and ends
with `result`. -/
def Yields (reader : Reader ε τ α) (used : List τ) (result : Except ε α) :
    Prop :=
  ∀ (cursor : Cursor τ) (rest : List τ), cursor.Ahead (used ++ rest) →
    reader.run cursor =
      (fun value => (value, cursor.advance used.length)) <$> result

namespace Yields

theorem pure (value : α) :
    Yields (Pure.pure value : Reader ε τ α) [] (.ok value) := by
  intro cursor rest _
  rfl

theorem lift (result : Except ε α) :
    Yields (liftM result : Reader ε τ α) [] result := by
  intro cursor rest _
  cases result with
  | error error => rfl
  | ok value => rfl

theorem bind_ok {reader : Reader ε τ α} {next : α → Reader ε τ β}
    {used later : List τ} {value : α} {result : Except ε β}
    (first : Yields reader used (.ok value))
    (second : Yields (next value) later result) :
    Yields (reader >>= next) (used ++ later) result := by
  intro cursor rest ahead
  rw [List.append_assoc] at ahead
  rw [StateT.run_bind, first cursor _ ahead]
  have continued := second _ rest ahead.advance
  rw [Cursor.advance_advance, ← List.length_append] at continued
  exact continued

theorem bind {reader : Reader ε τ α} {next : α → Reader ε τ β}
    {used later : List τ} {result : Except ε α} {nextResult : α → Except ε β}
    (first : Yields reader used result)
    (second : ∀ value, Yields (next value) later (nextResult value)) :
    Yields (reader >>= next) (used ++ later) (result >>= nextResult) := by
  cases result with
  | ok value => exact first.bind_ok (second value)
  | error error =>
      intro cursor rest ahead
      rw [List.append_assoc] at ahead
      rw [StateT.run_bind, first cursor _ ahead]
      rfl

theorem check {checked : Except ε α} {next : α → Reader ε τ β}
    {later : List τ} {nextResult : α → Except ε β}
    (second : ∀ value, Yields (next value) later (nextResult value)) :
    Yields (liftM checked >>= next) later (checked >>= nextResult) := by
  exact (lift checked).bind second

theorem check_ok {value : α} {next : α → Reader ε τ β} {later : List τ}
    {result : Except ε β} (second : Yields (next value) later result) :
    Yields (liftM (.ok value : Except ε α) >>= next) later result := by
  have passed : Yields (liftM (.ok value : Except ε α) : Reader ε τ α) []
      (.ok value) := lift _
  exact passed.bind_ok second

theorem run_start {reader : Reader ε τ α} {used : List τ}
    {result : Except ε α} (yields : Yields reader used result)
    (rest : List τ) :
    reader.run' ⟨used ++ rest, 0⟩ = result := by
  rw [StateT.run'_eq, yields ⟨used ++ rest, 0⟩ rest rfl]
  cases result with
  | error error => rfl
  | ok value => rfl

end Yields

end Parsing
