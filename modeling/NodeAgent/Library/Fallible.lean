import Mathlib.Logic.Basic

/-!
# Stateful computations that can fail

A failure ends the computation and keeps what was done to the state before it.
`Ensures` is the triple of such a computation: its postcondition speaks of both
outcomes, and the rule of a sequence passes on what a failure leaves.
-/

/-- A computation on a state `σ` that may fail with an `ε`. -/
abbrev Fallible (ε σ : Type) := ExceptT ε (StateM σ)

namespace Fallible

variable {ε σ α β : Type}

/-- The outcome, and the state that is left. -/
def outcome (program : Fallible ε σ α) (start : σ) : Except ε α × σ :=
  program start

variable {program : Fallible ε σ α} {next : α → Fallible ε σ β}
  {start middle : σ} {value : α} {error : ε}

@[simp] theorem outcome_pure (value : α) (start : σ) :
    outcome (pure value : Fallible ε σ α) start = (.ok value, start) := rfl

@[simp] theorem outcome_throw (error : ε) (start : σ) :
    outcome (throw error : Fallible ε σ α) start = (.error error, start) := rfl

@[simp] theorem outcome_get (start : σ) :
    outcome (get : Fallible ε σ σ) start = (.ok start, start) := rfl

@[simp] theorem outcome_modify (change : σ → σ) (start : σ) :
    outcome (modify change : Fallible ε σ Unit) start =
      (.ok (), change start) := rfl

theorem outcome_bind_ok (first : program.outcome start = (.ok value, middle)) :
    (program >>= next).outcome start = (next value).outcome middle := by
  have ran : program start = (.ok value, middle) := first
  change ExceptT.bindCont next (program start).1 (program start).2 = _
  rw [ran]
  rfl

theorem outcome_bind_error
    (first : program.outcome start = (.error error, middle)) :
    (program >>= next).outcome start = (.error error, middle) := by
  have ran : program start = (.error error, middle) := first
  change ExceptT.bindCont next (program start).1 (program start).2 = _
  rw [ran]
  rfl

/-- What holds of the outcome and of the state that is left, whenever the
computation starts from a state of the precondition. -/
structure Ensures (pre : σ → Prop) (program : Fallible ε σ α)
    (post : Except ε α → σ → Prop) : Prop where
  holds : ∀ start, pre start →
    post (program.outcome start).1 (program.outcome start).2

variable {pre pre' : σ → Prop} {post post' : Except ε α → σ → Prop}

theorem Ensures.weaken (ensures : Ensures pre' program post')
    (before : ∀ state, pre state → pre' state)
    (after : ∀ result state, post' result state → post result state) :
    Ensures pre program post := by
  constructor
  intro start required
  exact after _ _ (ensures.holds start (before start required))

theorem ensures_pure
    (holds : ∀ state, pre state → post (.ok value) state) :
    Ensures pre (pure value) post := ⟨holds⟩

theorem ensures_throw
    (holds : ∀ state, pre state → post (.error error) state) :
    Ensures pre (throw error : Fallible ε σ α) post := ⟨holds⟩

theorem ensures_modify {change : σ → σ} {post : Except ε Unit → σ → Prop}
    (holds : ∀ state, pre state → post (.ok ()) (change state)) :
    Ensures pre (modify change) post := ⟨holds⟩

/-- What the first part leaves is passed on, or is the outcome of the whole. -/
theorem ensures_bind (between : α → σ → Prop) {post : Except ε β → σ → Prop}
    (first : Ensures pre program fun result state =>
      (∀ value, result = .ok value → between value state) ∧
        ∀ error, result = .error error → post (.error error) state)
    (second : ∀ value, Ensures (between value) (next value) post) :
    Ensures pre (program >>= next) post := by
  constructor
  intro start required
  obtain ⟨succeeds, fails⟩ := first.holds start required
  rcases ran : program.outcome start with ⟨result, middle⟩
  rw [ran] at succeeds fails
  cases result with
  | error error =>
      rw [outcome_bind_error ran]
      exact fails error rfl
  | ok value =>
      rw [outcome_bind_ok ran]
      exact (second value).holds middle (succeeds value rfl)

theorem ensures_get {next : σ → Fallible ε σ β}
    {post : Except ε β → σ → Prop}
    (rest : ∀ state, pre state →
      Ensures (fun current => current = state) (next state) post) :
    Ensures pre (get >>= next) post := by
  constructor
  intro start required
  rw [outcome_bind_ok (outcome_get start)]
  exact (rest start required).holds start rfl

end Fallible
