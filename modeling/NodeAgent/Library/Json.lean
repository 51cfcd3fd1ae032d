/-!
# JSON values

What a parser makes of a JSON text, and how a program looks into it: a member
of a value that is no object is absent, and a scalar of another kind is no
value of the kind that was asked for.
-/

/-- A number without a fraction that a word of 64 bits holds, signed or
unsigned. -/
abbrev JsonInteger :=
  { value : Int // -9223372036854775808 ≤ value ∧ value < 18446744073709551616 }

/-- A JSON value.  A fraction is kept as its text. -/
inductive Json
  | null
  | bool (value : Bool)
  | integer (value : JsonInteger)
  | fraction (text : String)
  | string (text : String)
  | array (elements : List Json)
  | object (members : List (String × Json))

namespace Json

/-- The member of this name. -/
def get (json : Json) (name : String) : Option Json :=
  match json with
  | object members => members.lookup name
  | _ => none

def asStr : Json → Option String
  | string text => some text
  | _ => none

def asBool : Json → Option Bool
  | bool value => some value
  | _ => none

/-- An integer that a byte holds. -/
def asU8 : Json → Option Nat
  | integer value =>
      if 0 ≤ value.val ∧ value.val < 256 then some value.val.toNat else none
  | _ => none

/-- An integer that a signed word of 64 bits holds. -/
def asI64 : Json → Option Int
  | integer value =>
      if value.val < 9223372036854775808 then some value.val else none
  | _ => none

theorem asStr_eq_some_iff {json : Json} {text : String} :
    json.asStr = some text ↔ json = string text := by
  constructor
  · intro found
    cases json with
    | string found' =>
        cases found
        rfl
    | null | bool | integer | fraction | array | object => cases found
  · rintro rfl
    rfl

theorem asBool_eq_some_iff {json : Json} {value : Bool} :
    json.asBool = some value ↔ json = bool value := by
  constructor
  · intro found
    cases json with
    | bool found' =>
        cases found
        rfl
    | null | string | integer | fraction | array | object => cases found
  · rintro rfl
    rfl

end Json
