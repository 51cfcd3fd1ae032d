import Mathlib.Data.List.Basic

/-!
# Runs of labelled transition functions

A system is a step function `σ → α → σ`; everything the environment may
choose is part of the label, so a schedule (a list of labels) determines the
whole run.  Properties of runs are stated with `Along`, which checks one
predicate at every step of a schedule in the state before that step.  An
endless run has a label for every step, and `finishes` is its variant rule.
-/

namespace Runs

universe u v

variable {σ : Type u} {α : Type v}

/-- The state reached by a schedule. -/
def run (step : σ → α → σ) (start : σ) (schedule : List α) : σ :=
  schedule.foldl step start

/-- Every label of the schedule satisfies `allowed` in the state in which it
is taken. -/
def Along (step : σ → α → σ) (allowed : σ → α → Prop) : σ → List α → Prop
  | _, [] => True
  | state, label :: rest =>
      allowed state label ∧ Along step allowed (step state label) rest

instance Along.decidable {step : σ → α → σ} {allowed : σ → α → Prop}
    [∀ state label, Decidable (allowed state label)] :
    ∀ (state : σ) (schedule : List α),
      Decidable (Along step allowed state schedule)
  | _, [] => isTrue trivial
  | state, label :: rest =>
      have : Decidable (Along step allowed (step state label) rest) :=
        Along.decidable (step state label) rest
      inferInstanceAs (Decidable (_ ∧ _))

variable {step : σ → α → σ} {allowed : σ → α → Prop}

@[simp] theorem run_nil (start : σ) : run step start [] = start := rfl

@[simp] theorem run_cons (start : σ) (label : α) (rest : List α) :
    run step start (label :: rest) = run step (step start label) rest := rfl

@[simp] theorem run_append (start : σ) (first second : List α) :
    run step start (first ++ second) =
      run step (run step start first) second := by
  simp [run, List.foldl_append]

@[simp] theorem along_nil (start : σ) : Along step allowed start [] := trivial

@[simp] theorem along_cons (start : σ) (label : α) (rest : List α) :
    Along step allowed start (label :: rest) ↔
      allowed start label ∧ Along step allowed (step start label) rest :=
  Iff.rfl

theorem along_append (start : σ) (first second : List α) :
    Along step allowed start (first ++ second) ↔
      Along step allowed start first ∧
        Along step allowed (run step start first) second := by
  induction first generalizing start with
  | nil => simp
  | cons label rest ih => simp [ih, and_assoc]

/-- `Along` read at one position of the schedule. -/
theorem Along.at_step {start : σ} {before after : List α} {label : α}
    (along : Along step allowed start (before ++ label :: after)) :
    allowed (run step start before) label :=
  ((along_append start before (label :: after)).mp along).2.1

theorem along_iff_forall_split (start : σ) (schedule : List α) :
    Along step allowed start schedule ↔
      ∀ before label after, schedule = before ++ label :: after →
        allowed (run step start before) label := by
  constructor
  · intro along before label after split
    subst split
    exact along.at_step
  · intro everywhere
    induction schedule generalizing start with
    | nil => trivial
    | cons label rest ih =>
        refine ⟨everywhere [] label rest rfl, ih _ ?_⟩
        intro before next after split
        exact everywhere (label :: before) next after (by rw [split]; rfl)

theorem along_of_forall (always : ∀ state label, allowed state label)
    (start : σ) (schedule : List α) : Along step allowed start schedule :=
  (along_iff_forall_split start schedule).mpr fun _ _ _ _ => always _ _

theorem along_and {first second : σ → α → Prop} {start : σ}
    {schedule : List α} (firstAlong : Along step first start schedule)
    (secondAlong : Along step second start schedule) :
    Along step (fun state label => first state label ∧ second state label)
      start schedule := by
  induction schedule generalizing start with
  | nil => trivial
  | cons label rest ih =>
      exact ⟨⟨firstAlong.1, secondAlong.1⟩, ih firstAlong.2 secondAlong.2⟩

theorem along_of_mem {property : α → Prop} {schedule : List α}
    (all : ∀ label ∈ schedule, property label) (start : σ) :
    Along step (fun _ => property) start schedule := by
  induction schedule generalizing start with
  | nil => trivial
  | cons label rest ih =>
      refine ⟨all label List.mem_cons_self, ih ?_ _⟩
      intro next member
      exact all next (List.mem_cons_of_mem label member)

/-- A predicate kept by every allowed step holds after every allowed run. -/
theorem invariant_run {inv : σ → Prop}
    (preserved : ∀ state label, inv state → allowed state label →
      inv (step state label))
    {start : σ} {schedule : List α} (initial : inv start)
    (along : Along step allowed start schedule) :
    inv (run step start schedule) := by
  induction schedule generalizing start with
  | nil => exact initial
  | cons label rest ih =>
      exact ih (preserved start label initial along.1) along.2

theorem invariant_run_always {inv : σ → Prop}
    (preserved : ∀ state label, inv state → inv (step state label))
    {start : σ} (schedule : List α) (initial : inv start) :
    inv (run step start schedule) := by
  induction schedule generalizing start with
  | nil => exact initial
  | cons label rest ih => exact ih (preserved start label initial)

/-- The step rule for properties of steps: with an invariant in hand, every
allowed step has the property. -/
theorem along_of_invariant {inv : σ → Prop} {property : σ → α → Prop}
    (preserved : ∀ state label, inv state → allowed state label →
      inv (step state label))
    (conclude : ∀ state label, inv state → allowed state label →
      property state label)
    {start : σ} {schedule : List α} (initial : inv start)
    (along : Along step allowed start schedule) :
    Along step property start schedule := by
  induction schedule generalizing start with
  | nil => trivial
  | cons label rest ih =>
      exact ⟨conclude start label initial along.1,
        ih (preserved start label initial along.1) along.2⟩

/-- The same rule for two step properties that an invariant makes
equivalent. -/
theorem along_congr_of_invariant {inv : σ → Prop}
    {first second : σ → α → Prop}
    (preserved : ∀ state label, inv state → allowed state label →
      inv (step state label))
    (equivalent : ∀ state label, inv state → allowed state label →
      (first state label ↔ second state label))
    {start : σ} {schedule : List α} (initial : inv start)
    (along : Along step allowed start schedule) :
    Along step first start schedule ↔ Along step second start schedule := by
  induction schedule generalizing start with
  | nil => exact Iff.rfl
  | cons label rest ih =>
      exact and_congr (equivalent start label initial along.1)
        (ih (preserved start label initial along.1) along.2)

/-- At least so many steps of the run are marked. -/
inductive Occurs (step : σ → α → σ) (marked : σ → α → Prop) :
    Nat → σ → List α → Prop
  | none {state : σ} {schedule : List α} : Occurs step marked 0 state schedule
  | here {count : Nat} {state : σ} {label : α} {rest : List α}
      (marks : marked state label)
      (later : Occurs step marked count (step state label) rest) :
      Occurs step marked (count + 1) state (label :: rest)
  | later {count : Nat} {state : σ} {label : α} {rest : List α}
      (later : Occurs step marked count (step state label) rest) :
      Occurs step marked count state (label :: rest)

/-- A ranked invariant whose rank no allowed step raises and every marked step
lowers has lost a rank for every marked step of a run. -/
theorem ranked_run {inv : Nat → σ → Prop} {marked : σ → α → Prop}
    (kept : ∀ rank state label, inv rank state → allowed state label →
      ∃ next ≤ rank, inv next (step state label) ∧
        (marked state label → next ≤ rank - 1))
    {rank count : Nat} {start : σ} {schedule : List α}
    (initial : inv rank start) (along : Along step allowed start schedule)
    (occurs : Occurs step marked count start schedule) :
    ∃ last ≤ rank - count, inv last (run step start schedule) := by
  induction schedule generalizing start rank count with
  | nil =>
      cases occurs with
      | none => exact ⟨rank, Nat.le_refl _, initial⟩
  | cons label rest ih =>
      obtain ⟨next, le, holds, lower⟩ := kept rank start label initial along.1
      cases occurs with
      | none =>
          obtain ⟨last, below, done⟩ := ih holds along.2 .none
          exact ⟨last, by omega, done⟩
      | here marks later =>
          obtain ⟨last, below, done⟩ := ih holds along.2 later
          have := lower marks
          exact ⟨last, by omega, done⟩
      | later later =>
          obtain ⟨last, below, done⟩ := ih holds along.2 later
          exact ⟨last, by omega, done⟩

/-- The state after a number of steps of an endless run. -/
def trajectory (step : σ → α → σ) (start : σ) (labels : Nat → α) : Nat → σ
  | 0 => start
  | count + 1 => step (trajectory step start labels count) (labels count)

theorem trajectory_shift (start : σ) (labels : Nat → α) (count : Nat) :
    trajectory step (step start (labels 0)) (fun index => labels (index + 1))
        count =
      trajectory step start labels (count + 1) := by
  induction count with
  | zero => rfl
  | succ count ih =>
      rw [trajectory, ih]
      rfl

/-- What the steps between two moments preserve holds at the later one. -/
theorem trajectory_between (inv : σ → Prop) {start : σ} {labels : Nat → α}
    {first last : Nat} (order : first ≤ last)
    (initial : inv (trajectory step start labels first))
    (preserved : ∀ count, first ≤ count → count < last →
      inv (trajectory step start labels count) →
        inv (step (trajectory step start labels count) (labels count))) :
    inv (trajectory step start labels last) := by
  induction order with
  | refl => exact initial
  | step order ih =>
      apply preserved _ order (Nat.lt_succ_self _)
      apply ih
      intro count later earlier
      exact preserved count later (Nat.lt_succ_of_lt earlier)

/-- The variant rule: an endless run whose steps decrease a measure until they
are finished gets there, within as many steps as the measure allows. -/
theorem finishes {inv : σ → Prop} {finished : σ → α → Prop}
    (measure : σ → Nat)
    (progress : ∀ state label, inv state → allowed state label →
      ¬finished state label →
      inv (step state label) ∧ measure (step state label) < measure state)
    {start : σ} {labels : Nat → α} (initial : inv start)
    (along : ∀ count,
      allowed (trajectory step start labels count) (labels count)) :
    ∃ count ≤ measure start,
      inv (trajectory step start labels count) ∧
      finished (trajectory step start labels count) (labels count) ∧
      ∀ earlier < count, inv (trajectory step start labels earlier) ∧
        ¬finished (trajectory step start labels earlier) (labels earlier) := by
  generalize bound : measure start = fuel
  -- on the measure of the start: one step leaves a shorter run
  induction fuel using Nat.strongRecOn generalizing start labels with
  | _ fuel ih =>
  by_cases here : finished start (labels 0)
  · exact ⟨0, Nat.zero_le fuel, initial, here, fun _ none => by omega⟩
  obtain ⟨kept, smaller⟩ := progress start (labels 0) initial (along 0) here
  have rest := ih _ (bound ▸ smaller) kept (fun count => by
    rw [trajectory_shift]
    exact along (count + 1)) rfl
  obtain ⟨count, within, keptThere, finishedThere, before⟩ := rest
  rw [trajectory_shift] at keptThere finishedThere
  refine ⟨count + 1, by omega, keptThere, finishedThere, ?_⟩
  intro earlier less
  cases earlier with
  | zero => exact ⟨initial, here⟩
  | succ earlier =>
      have there := before earlier (by omega)
      rwa [trajectory_shift] at there

end Runs
