import Mathlib.Data.List.Basic
import NodeAgent.Library.Interaction

/-!
# Traces of interaction programs

A trace lists the operations that a program performed, each with the answer it
got.  It ends with what the program returned, or with nothing when the program
was stopped before that.
-/

namespace Interaction

universe u u' v v' w z

variable {Op : Type u} {Op' : Type u'} {α : Type w} {γ : Type z}

/-- An operation with its answer. -/
abbrev Event (Answer : Op → Type v) := (op : Op) × Answer op

variable {Answer : Op → Type v} {Answer' : Op' → Type v'}

namespace Program

inductive Traces : Program Op Answer α → List (Event Answer) → Option α → Prop
  | stopped {program : Program Op Answer α} : Traces program [] none
  | done {value : α} : Traces (.done value) [] (some value)
  | call {op : Op} {answer : Answer op} {next : Answer op → Program Op Answer α}
      {trace : List (Event Answer)} {result : Option α}
      (rest : Traces (next answer) trace result) :
      Traces (.call op next) (⟨op, answer⟩ :: trace) result

@[simp] theorem traces_done {result value : α} {trace : List (Event Answer)} :
    (done result : Program Op Answer α).Traces trace (some value) ↔
      trace = [] ∧ result = value := by
  constructor
  · intro traced
    cases traced with
    | done => exact ⟨rfl, rfl⟩
  · intro same
    obtain ⟨rfl, rfl⟩ := same
    exact .done

@[simp] theorem traces_call {op : Op} {next : Answer op → Program Op Answer α}
    {trace : List (Event Answer)} {value : α} :
    (call op next).Traces trace (some value) ↔
      ∃ answer rest, trace = ⟨op, answer⟩ :: rest ∧
        (next answer).Traces rest (some value) := by
  constructor
  · intro traced
    cases traced with
    | call rest => exact ⟨_, _, rfl, rest⟩
  · intro split
    obtain ⟨answer, rest, rfl, traced⟩ := split
    exact .call traced

/-- A sequence is stopped in its first part, or goes on after it. -/
theorem traces_bind {program : Program Op Answer α}
    {next : α → Program Op Answer γ} {trace : List (Event Answer)}
    {result : Option γ}
    (traced : (program.bind next).Traces trace result) :
    (result = none ∧ program.Traces trace none) ∨
      ∃ value first second, trace = first ++ second ∧
        program.Traces first (some value) ∧
        (next value).Traces second result := by
  induction program generalizing trace with
  | done value => exact Or.inr ⟨value, [], trace, rfl, .done, traced⟩
  | call op rest ih =>
      cases traced with
      | stopped => exact Or.inl ⟨rfl, .stopped⟩
      | call later =>
          rcases ih _ later with ⟨stopped, here⟩ |
            ⟨value, first, second, rfl, here, after⟩
          · exact Or.inl ⟨stopped, .call here⟩
          · exact Or.inr ⟨value, _ :: first, second, rfl, .call here, after⟩

theorem traces_bind_some {program : Program Op Answer α}
    {next : α → Program Op Answer γ} {trace : List (Event Answer)}
    {result : γ} (traced : (program.bind next).Traces trace (some result)) :
    ∃ value first second, trace = first ++ second ∧
      program.Traces first (some value) ∧
      (next value).Traces second (some result) := by
  rcases traces_bind traced with ⟨stopped, -⟩ | parts
  · cases stopped
  · exact parts

theorem Traces.returns {program : Program Op Answer α}
    {trace : List (Event Answer)} {value : α}
    (traced : program.Traces trace (some value)) : program.Returns value := by
  induction program generalizing trace with
  | done result =>
      cases traced with
      | done => rfl
  | call op next ih =>
      cases traced with
      | call rest => exact ⟨_, ih _ rest⟩

theorem Traces.completes (answered : ∀ op, Nonempty (Answer op))
    {program : Program Op Answer α} {trace : List (Event Answer)}
    (traced : program.Traces trace none) :
    ∃ rest value, program.Traces (trace ++ rest) (some value) := by
  induction program generalizing trace with
  | done value =>
      cases traced with
      | stopped => exact ⟨[], value, .done⟩
  | call op next ih =>
      cases traced with
      | stopped =>
          obtain ⟨answer⟩ := answered op
          obtain ⟨rest, value, later⟩ := ih answer .stopped
          exact ⟨_, value, .call later⟩
      | call later =>
          obtain ⟨rest, value, full⟩ := ih _ later
          exact ⟨rest, value, .call full⟩

/-- The trace and the result when every operation gets a fixed answer. -/
def record (answers : (op : Op) → Answer op) :
    Program Op Answer α → List (Event Answer) × α
  | done value => ([], value)
  | call op next =>
      (⟨op, answers op⟩ :: ((next (answers op)).record answers).1,
        ((next (answers op)).record answers).2)

theorem traces_record (answers : (op : Op) → Answer op)
    (program : Program Op Answer α) :
    program.Traces (program.record answers).1
      (some (program.record answers).2) := by
  induction program with
  | done value => exact .done
  | call op next ih => exact .call (ih (answers op))

theorem traces_interp {wrap : Op → Op'}
    {program : Program Op (fun op => Answer' (wrap op)) α}
    {trace : List (Event Answer')} {result : Option α}
    (traced : (program.interp fun op => perform (wrap op)).Traces trace
      result) :
    ∃ inner, program.Traces inner result ∧
      trace = inner.map fun event => ⟨wrap event.1, event.2⟩ := by
  induction program generalizing trace with
  | done value =>
      cases traced with
      | stopped => exact ⟨[], .stopped, rfl⟩
      | done => exact ⟨[], .done, rfl⟩
  | call op next ih =>
      cases traced with
      | stopped => exact ⟨[], .stopped, rfl⟩
      | call rest =>
          obtain ⟨inner, traced, rfl⟩ := ih _ rest
          exact ⟨⟨op, _⟩ :: inner, .call traced, rfl⟩

/-- Every operation that the program issues is allowed after the events before
it. -/
def Guards (allowed : List (Event Answer) → Op → Prop) :
    Program Op Answer α → List (Event Answer) → Prop
  | done _, _ => True
  | call op next, events =>
      allowed events op ∧
        ∀ answer, Guards allowed (next answer) (events ++ [⟨op, answer⟩])

variable {allowed : List (Event Answer) → Op → Prop}
  {events : List (Event Answer)}

@[simp] theorem guards_done (value : α) :
    (done value : Program Op Answer α).Guards allowed events := trivial

theorem guards_call {op : Op} {next : Answer op → Program Op Answer α}
    (here : allowed events op)
    (rest : ∀ answer,
      (next answer).Guards allowed (events ++ [⟨op, answer⟩])) :
    (call op next).Guards allowed events := ⟨here, rest⟩

theorem guards_bind {program : Program Op Answer α}
    {next : α → Program Op Answer γ} (first : program.Guards allowed events)
    (second : ∀ trace value, program.Traces trace (some value) →
      (next value).Guards allowed (events ++ trace)) :
    (program.bind next).Guards allowed events := by
  induction program generalizing events with
  | done value =>
      have rest := second [] value .done
      rwa [List.append_nil] at rest
  | call op rest ih =>
      refine ⟨first.1, fun answer => ih answer (first.2 answer) ?_⟩
      intro trace value traced
      rw [List.append_assoc]
      exact second _ value (.call traced)

theorem Uses.guards {quiet : Op → Prop} {program : Program Op Answer α}
    (uses : program.Uses quiet)
    (harmless : ∀ events op, quiet op → allowed events op) :
    program.Guards allowed events := by
  induction program generalizing events with
  | done value => trivial
  | call op next ih =>
      refine ⟨harmless events op (uses op (Or.inl rfl)), ?_⟩
      intro answer
      apply ih answer
      intro later issued
      exact uses later (Or.inr ⟨answer, issued⟩)

/-- After these events, every operation that the program issues is allowed
where it is issued, and every result has the postcondition where it is
returned. -/
def Meets (allowed : List (Event Answer) → Op → Prop)
    (post : List (Event Answer) → α → Prop) :
    Program Op Answer α → List (Event Answer) → Prop
  | done value, events => post events value
  | call op next, events =>
      allowed events op ∧
        ∀ answer, Meets allowed post (next answer) (events ++ [⟨op, answer⟩])

variable {post : List (Event Answer) → α → Prop}

theorem meets_perform {Answer : Op → Type w} {op : Op}
    {allowed : List (Event Answer) → Op → Prop}
    {events : List (Event Answer)} (here : allowed events op) :
    (perform op : Program Op Answer (Answer op)).Meets allowed
      (fun after answer => after = events ++ [⟨op, answer⟩]) events :=
  ⟨here, fun _ => rfl⟩

theorem meets_bind {program : Program Op Answer α}
    {next : α → Program Op Answer γ}
    {middle : List (Event Answer) → α → Prop}
    {post : List (Event Answer) → γ → Prop}
    (first : program.Meets allowed middle events)
    (second : ∀ after value, middle after value →
      (next value).Meets allowed post after) :
    (program.bind next).Meets allowed post events := by
  induction program generalizing events with
  | done value => exact second events value first
  | call op rest ih =>
      exact ⟨first.1, fun answer => ih answer (first.2 answer)⟩

/-- An operation in a trace was allowed after the events before it. -/
theorem Meets.allowed_at {program : Program Op Answer α}
    {before after : List (Event Answer)} {op : Op} {answer : Answer op}
    {result : Option α} (meets : program.Meets allowed post events)
    (traced : program.Traces (before ++ ⟨op, answer⟩ :: after) result) :
    allowed (events ++ before) op := by
  induction program generalizing events before with
  | done value =>
      cases before with
      | nil => cases traced
      | cons event before => cases traced
  | call first next ih =>
      cases before with
      | nil =>
          cases traced with
          | call rest =>
              rw [List.append_nil]
              exact meets.1
      | cons event before =>
          cases traced with
          | call rest =>
              have later := ih _ (meets.2 _) rest
              rw [List.append_assoc] at later
              exact later

theorem Meets.post_at {program : Program Op Answer α}
    {trace : List (Event Answer)} {value : α}
    (meets : program.Meets allowed post events)
    (traced : program.Traces trace (some value)) :
    post (events ++ trace) value := by
  induction program generalizing events trace with
  | done result =>
      cases traced with
      | done =>
          rw [List.append_nil]
          exact meets
  | call first next ih =>
      cases traced with
      | call rest =>
          have later := ih _ (meets.2 _) rest
          rw [List.append_assoc] at later
          exact later

end Program

/-- What a guarded program issues is allowed after events that it issued, and
that were answered, before. -/
theorem IssuedAt.guarded {σ : Type z} {evolves : σ → σ → Prop}
    {answers : σ → (op : Op) → Answer op → Prop} {op : Op} {start finish : σ}
    {program : Program Op Answer α} {allowed : List (Event Answer) → Op → Prop}
    {events : List (Event Answer)} (guards : program.Guards allowed events)
    (issued : IssuedAt evolves answers op finish start program) :
    ∃ later, allowed (events ++ later) op ∧
      ∀ event ∈ later, ∃ world,
        IssuedAt evolves answers event.1 world start program ∧
        answers world event.1 event.2 ∧
        Relation.TransGen evolves world finish := by
  induction issued generalizing events with
  | here moved =>
      refine ⟨[], ?_, nofun⟩
      rw [List.append_nil]
      exact guards.1
  | @later start world first next answer moved answered rest ih =>
      obtain ⟨later, holds, known⟩ := ih (guards.2 answer)
      refine ⟨⟨first, answer⟩ :: later, ?_, ?_⟩
      · rw [List.append_assoc] at holds
        exact holds
      · intro event member
        rcases List.mem_cons.mp member with rfl | earlier
        · exact ⟨world, .here moved, answered, rest.moves⟩
        · obtain ⟨between, issued, given, after⟩ := known event earlier
          exact ⟨between, .later answer moved answered issued, given, after⟩

theorem Executes.traced {σ : Type z} {evolves : σ → σ → Prop}
    {answers : σ → (op : Op) → Answer op → Prop} {start finish : σ}
    {program : Program Op Answer α} {value : α}
    (execution : Executes evolves answers start program value finish) :
    ∃ trace, program.Traces trace (some value) ∧
      ∀ event ∈ trace, ∃ world,
        IssuedAt evolves answers event.1 world start program ∧
        answers world event.1 event.2 ∧
        Relation.ReflTransGen evolves world finish := by
  induction execution with
  | done => exact ⟨[], .done, fun _ member => absurd member List.not_mem_nil⟩
  | @call start world finish op answer next value moved answered rest ih =>
      obtain ⟨trace, traced, known⟩ := ih
      refine ⟨⟨op, answer⟩ :: trace, .call traced, ?_⟩
      intro event member
      rcases List.mem_cons.mp member with rfl | later
      · exact ⟨world, .here moved, answered, rest.reaches⟩
      · obtain ⟨between, issued, given, after⟩ := known event later
        exact ⟨between, .later answer moved answered issued, given, after⟩

end Interaction
