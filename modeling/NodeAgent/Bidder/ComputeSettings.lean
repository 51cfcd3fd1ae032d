import NodeAgent.Bidder.Evaluate
import NodeAgent.Library.Json

/-!
# The operator's settings file

`config::ComputeSettings`, as its derived reader takes it from a JSON document:
an object whose members come in any order and of which unknown ones are
ignored, or an array with the fields in their order.  What is missing has its
default, and a field that is given twice refuses the document.
-/

namespace NodeAgent.Bidder

structure ComputeSettings where
  enabled : Bool
  allocationPercent : Nat
  schedule : Schedule
deriving DecidableEq

inductive ConfigError
  | parse (error : String)
  | allocationOutOfRange (percent : Nat)
deriving DecidableEq

def ConfigError.display : ConfigError → String
  | .parse error => s!"compute.json parse error: {error}"
  | .allocationOutOfRange percent =>
      s!"allocation_percent {percent} out of range (0..=100)"

/-- What the reader takes from the JSON crate: the document that a text is, with
all members of its objects, and the error for a text that cannot be read. -/
class DocumentCrate where
  document : String → Option Json
  readError : String → String

export DocumentCrate (document readError)

def Schedule.ofName : String → Option Schedule
  | "always" => some .always
  | "nights" => some .nights
  | "weekends" => some .weekends
  | _ => none

/-- The name of a schedule, or an object with this name alone and nothing
in it. -/
def Schedule.ofJson : Json → Option Schedule
  | .string name => Schedule.ofName name
  | .object [(name, .null)] => Schedule.ofName name
  | _ => none

namespace ComputeSettings

def default : ComputeSettings := ⟨false, 0, .always⟩

/-- The fields that were read so far. -/
structure Fields where
  enabled : Option Bool
  allocationPercent : Option Nat
  schedule : Option Schedule

def Fields.settings (fields : Fields) : ComputeSettings where
  enabled := fields.enabled.getD default.enabled
  allocationPercent := fields.allocationPercent.getD default.allocationPercent
  schedule := fields.schedule.getD default.schedule

/-- A field is only read once. -/
def fill {α : Type} : Option α → Option α → Option α
  | none, value => value
  | some _, _ => none

/-- Read the members of an object, in their order. -/
def readMembers : List (String × Json) → Fields → Option Fields
  | [], fields => some fields
  | (name, value) :: rest, fields =>
      if name = "enabled" then do
        let enabled ← fill fields.enabled value.asBool
        readMembers rest { fields with enabled := some enabled }
      else if name = "allocation_percent" then do
        let percent ← fill fields.allocationPercent value.asU8
        readMembers rest { fields with allocationPercent := some percent }
      else if name = "schedule" then do
        let schedule ← fill fields.schedule (Schedule.ofJson value)
        readMembers rest { fields with schedule := some schedule }
      else readMembers rest fields

/-- The elements of an array after the first one. -/
def readRest : List Json → Option (Option Nat × Option Schedule)
  | [] => some (none, none)
  | [percent] => do
      return (some (← percent.asU8), none)
  | [percent, schedule] => do
      return (some (← percent.asU8), some (← Schedule.ofJson schedule))
  | _ => none

/-- Read the elements of an array, field by field. -/
def readElements : List Json → Option Fields
  | [] => some ⟨none, none, none⟩
  | enabled :: rest => do
      let enabled ← enabled.asBool
      let (percent, schedule) ← readRest rest
      return ⟨some enabled, percent, schedule⟩

def ofDocument : Json → Option ComputeSettings
  | .object members => do
      return (← readMembers members ⟨none, none, none⟩).settings
  | .array elements => do
      return (← readElements elements).settings
  | _ => none

/-- `ComputeSettings::from_json`. -/
def fromJson [DocumentCrate] (text : String) :
    Except ConfigError ComputeSettings :=
  match (document text).bind ofDocument with
  | none => .error (.parse (readError text))
  | some settings =>
      if settings.allocationPercent > 100 then
        .error (.allocationOutOfRange settings.allocationPercent)
      else .ok settings

/-- What is found of a field among the members: what was there before, or the
one value. -/
def Finds {α : Type} (name : String) (read : Json → Option α)
    (members : List (String × Json)) (before after : Option α) : Prop :=
  match members.filter fun member => member.1 = name with
  | [] => after = before
  | [member] => ∃ value, fill before (read member.2) = some value ∧
      after = some value
  | _ => False

theorem finds_nil {α : Type} {name : String} {read : Json → Option α}
    {before after : Option α} :
    Finds name read [] before after ↔ after = before := Iff.rfl

theorem finds_other {α : Type} {name key : String} {read : Json → Option α}
    {json : Json} {rest : List (String × Json)} {before after : Option α}
    (other : key ≠ name) :
    Finds name read ((key, json) :: rest) before after ↔
      Finds name read rest before after := by
  rw [Finds, Finds, List.filter_cons_of_neg (by simpa using other)]

theorem finds_own {α : Type} {name : String} {read : Json → Option α}
    {json : Json} {rest : List (String × Json)} {before after : Option α} :
    Finds name read ((name, json) :: rest) before after ↔
      ∃ value, fill before (read json) = some value ∧
        Finds name read rest (some value) after := by
  rw [Finds, List.filter_cons_of_pos (by simp)]
  unfold Finds
  cases rest.filter fun member => member.1 = name with
  | nil => rfl
  | cons second later =>
      cases later with
      | nil => simp [fill]
      | cons third later => simp

/-- An object is read field by field; the order of its members makes no
difference. -/
theorem readMembers_eq_some_iff {members : List (String × Json)}
    {before after : Fields} :
    readMembers members before = some after ↔
      Finds "enabled" Json.asBool members before.enabled after.enabled ∧
        Finds "allocation_percent" Json.asU8 members before.allocationPercent
          after.allocationPercent ∧
        Finds "schedule" Schedule.ofJson members before.schedule
          after.schedule := by
  induction members generalizing before with
  | nil =>
      obtain ⟨enabled, percent, schedule⟩ := before
      obtain ⟨enabled', percent', schedule'⟩ := after
      simp only [readMembers, finds_nil, Option.some.injEq, Fields.mk.injEq]
      constructor
      · rintro ⟨rfl, rfl, rfl⟩
        exact ⟨rfl, rfl, rfl⟩
      · rintro ⟨rfl, rfl, rfl⟩
        exact ⟨rfl, rfl, rfl⟩
  | cons member rest ih =>
      obtain ⟨name, json⟩ := member
      rw [readMembers]
      split
      · next enabled =>
        subst enabled
        rw [finds_own, finds_other (by decide), finds_other (by decide)]
        simp only [Option.bind_eq_bind, Option.bind_eq_some_iff, ih]
        constructor
        · rintro ⟨value, filled, found, others⟩
          exact ⟨⟨value, filled, found⟩, others⟩
        · rintro ⟨⟨value, filled, found⟩, others⟩
          exact ⟨value, filled, found, others⟩
      · next enabled =>
        split
        · next percent =>
          subst percent
          rw [finds_own, finds_other (by decide), finds_other (by decide)]
          simp only [Option.bind_eq_bind, Option.bind_eq_some_iff, ih]
          constructor
          · rintro ⟨value, filled, enabled, found, schedule⟩
            exact ⟨enabled, ⟨value, filled, found⟩, schedule⟩
          · rintro ⟨enabled, ⟨value, filled, found⟩, schedule⟩
            exact ⟨value, filled, enabled, found, schedule⟩
        · next percent =>
          split
          · next schedule =>
            subst schedule
            rw [finds_own, finds_other (by decide), finds_other (by decide)]
            simp only [Option.bind_eq_bind, Option.bind_eq_some_iff, ih]
            constructor
            · rintro ⟨value, filled, enabled, percent, found⟩
              exact ⟨enabled, percent, value, filled, found⟩
            · rintro ⟨enabled, percent, value, filled, found⟩
              exact ⟨value, filled, enabled, percent, found⟩
          · next schedule =>
            rw [finds_other enabled, finds_other percent, finds_other schedule]
            exact ih

/-- The document itself says that the machine takes part: it is an object with
one member of this name, or an array with this first element. -/
inductive Enables : Json → Prop
  | object {members : List (String × Json)}
      (once : members.filter (fun member => member.1 = "enabled") =
        [("enabled", .bool true)]) : Enables (.object members)
  | array {rest : List Json} : Enables (.array (.bool true :: rest))

/-- Settings that enable come from a document that does: a missing, repeated or
misspelt member never enables. -/
theorem enables_of_ofDocument {json : Json} {settings : ComputeSettings}
    (read : ofDocument json = some settings)
    (enabled : settings.enabled = true) : Enables json := by
  cases json with
  | null | bool | integer | fraction | string => cases read
  | object members =>
      obtain ⟨fields, found, same⟩ := Option.bind_eq_some_iff.mp read
      obtain rfl := Option.some.inj same
      obtain ⟨finds, -, -⟩ := readMembers_eq_some_iff.mp found
      rw [Finds] at finds
      split at finds
      · rw [Fields.settings, finds] at enabled
        cases enabled
      · next member once =>
        obtain ⟨value, filled, finds⟩ := finds
        rw [Fields.settings, finds] at enabled
        have value : value = true := enabled
        subst value
        have json : member.2 = .bool true := Json.asBool_eq_some_iff.mp filled
        have name : member.1 = "enabled" := by
          have member : member ∈ members.filter fun member =>
              member.1 = "enabled" := by
            rw [once]
            exact List.mem_singleton_self member
          simpa using (List.mem_filter.mp member).2
        apply Enables.object
        rw [once]
        exact congrArg (fun member => [member]) (Prod.ext name json)
      · cases finds
  | array elements =>
      obtain ⟨fields, found, same⟩ := Option.bind_eq_some_iff.mp read
      obtain rfl := Option.some.inj same
      cases elements with
      | nil =>
          obtain rfl := Option.some.inj found
          cases enabled
      | cons first rest =>
          obtain ⟨value, isBool, found⟩ := Option.bind_eq_some_iff.mp found
          obtain ⟨others, -, same⟩ := Option.bind_eq_some_iff.mp found
          obtain rfl := Option.some.inj same
          have value : value = true := enabled
          subst value
          rw [Json.asBool_eq_some_iff.mp isBool]
          exact .array

/-- Settings that enable are those of a document that does, with an allotment of
at most a hundred percent. -/
theorem enables_of_fromJson [DocumentCrate] {text : String}
    {settings : ComputeSettings} (read : fromJson text = .ok settings)
    (enabled : settings.enabled = true) :
    settings.allocationPercent ≤ 100 ∧
      ∃ json, document text = some json ∧ Enables json := by
  unfold fromJson at read
  split at read
  · cases read
  · next settings' found =>
    split at read
    · cases read
    · next within =>
      obtain rfl := Except.ok.inj read
      obtain ⟨json, parsed, found⟩ := Option.bind_eq_some_iff.mp found
      exact ⟨Nat.not_lt.mp within, json, parsed,
        enables_of_ofDocument found enabled⟩

end ComputeSettings

end NodeAgent.Bidder
