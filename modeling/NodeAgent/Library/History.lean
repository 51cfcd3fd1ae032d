import Mathlib.Data.List.Induction
import NodeAgent.Library.RelyGuarantee
import NodeAgent.Library.Trace

/-!
# Histories of a pool

A run of a pool, recorded: every operation that was executed, with its answer
and with what its thread had done since it started its body.  A body that
guards its operations is guarded in every run.
-/

namespace RelyGuarantee

open Interaction

universe u v w z

/-- An executed operation, and what its thread had done before it in the same
run of its body. -/
structure Performed (ι : Type z) {Op : Type u} (Answer : Op → Type v) where
  thread : ι
  before : List (Event Answer)
  event : Event Answer

/-- A pool with its recorded history.  `current` is what each thread has done
since it started its body. -/
structure History (ι : Type z) (Op : Type u) (Answer : Op → Type v)
    (Mem W : Type w) where
  pool : Pool ι Op Answer Mem W
  current : ι → List (Event Answer)
  performed : List (Performed ι Answer)

variable {ι : Type z} {Op : Type u} {Answer : Op → Type v}
  {Arg Mem Ω W E : Type w}

namespace System

variable [DecidableEq ι] (system : System ι Arg Mem Op Answer Ω W E)

/-- The operation that an action executes. -/
def executed (history : History ι Op Answer Mem W) :
    Action ι Arg Ω E → Option (Performed ι Answer)
  | .advance thread choice =>
      match history.pool.threads thread with
      | .idle _ => none
      | .waiting op _ =>
          some ⟨thread, history.current thread,
            ⟨op, (system.exec thread history.pool.world op choice).1⟩⟩
  | _ => none

/-- A step of the pool, recorded. -/
def record (history : History ι Op Answer Mem W) (action : Action ι Arg Ω E) :
    History ι Op Answer Mem W where
  pool := system.step history.pool action
  current :=
    match action with
    | .start thread _ =>
        match history.pool.threads thread with
        | .idle _ => Function.update history.current thread []
        | .waiting _ _ => history.current
    | _ =>
        match system.executed history action with
        | some entry =>
            Function.update history.current entry.thread
              (entry.before ++ [entry.event])
        | none => history.current
  performed := history.performed ++ (system.executed history action).toList

theorem record_performed (history : History ι Op Answer Mem W)
    (action : Action ι Arg Ω E) :
    (system.record history action).performed =
      history.performed ++ (system.executed history action).toList := rfl

/-- Nothing has been done yet. -/
def beginning (world : W) : History ι Op Answer Mem W :=
  ⟨system.initial world, fun _ => [], []⟩

theorem recorded_pool (history : History ι Op Answer Mem W)
    (schedule : List (Action ι Arg Ω E)) :
    (Runs.run system.record history schedule).pool =
      Runs.run system.step history.pool schedule := by
  induction schedule generalizing history with
  | nil => rfl
  | cons action rest ih => exact ih (system.record history action)

/-- A history that ends in an entry is the history of a shorter run. -/
theorem performed_prefix {start : History ι Op Answer Mem W}
    (empty : start.performed = []) {schedule : List (Action ι Arg Ω E)}
    {first rest : List (Performed ι Answer)} {entry : Performed ι Answer}
    (split : (Runs.run system.record start schedule).performed =
      first ++ entry :: rest) :
    ∃ earlier later, schedule = earlier ++ later ∧
      (Runs.run system.record start earlier).performed = first ++ [entry] := by
  induction schedule using List.reverseRecOn generalizing rest with
  | nil =>
      rw [Runs.run_nil, empty] at split
      simp at split
  | append_singleton schedule action ih =>
      have shorter {rest : List (Performed ι Answer)}
          (split : (Runs.run system.record start schedule).performed =
            first ++ entry :: rest) :
          ∃ earlier later, schedule ++ [action] = earlier ++ later ∧
            (Runs.run system.record start earlier).performed =
              first ++ [entry] := by
        obtain ⟨earlier, later, rfl, ends⟩ := ih split
        exact ⟨earlier, later ++ [action], List.append_assoc _ _ _, ends⟩
      have last := split
      rw [Runs.run_append, Runs.run_cons, Runs.run_nil,
        record_performed] at last
      generalize system.executed _ action = now at last
      cases now with
      | none =>
          simp only [Option.toList_none, List.append_nil] at last
          exact shorter last
      | some event =>
          rcases rest.eq_nil_or_concat' with rfl | ⟨rest, final, rfl⟩
          · exact ⟨schedule ++ [action], [], (List.append_nil _).symm, split⟩
          · rw [← List.cons_append, ← List.append_assoc,
              Option.toList_some] at last
            exact shorter (List.append_inj_left' last rfl)

/-- The rule for what the world and the history say about each other: it is
enough to look at single operations. -/
theorem recorded_invariant (inv : W → List (Performed ι Answer) → Prop)
    (exec : ∀ world performed thread before op choice, inv world performed →
      inv (system.exec thread world op choice).2 (performed ++
        [⟨thread, before, ⟨op, (system.exec thread world op choice).1⟩⟩]))
    (disturb : ∀ world performed event, inv world performed →
      inv (system.disturb world event) performed)
    {start : History ι Op Answer Mem W}
    (initial : inv start.pool.world start.performed)
    (schedule : List (Action ι Arg Ω E)) :
    inv (Runs.run system.record start schedule).pool.world
      (Runs.run system.record start schedule).performed := by
  let kept (history : History ι Op Answer Mem W) : Prop :=
    inv history.pool.world history.performed
  suffices preserved : ∀ history action, kept history →
      kept (system.record history action) from
    Runs.invariant_run_always preserved schedule initial
  intro history action here
  simp only [kept, record_performed] at here ⊢
  cases action with
  | start thread arg =>
      rw [show system.executed history (.start thread arg) = none from rfl,
        Option.toList_none, List.append_nil]
      simp only [record, step]
      split <;> exact here
  | advance thread choice =>
      cases state : history.pool.threads thread with
      | idle memory => simpa [record, step, executed, state] using here
      | waiting op next =>
          simpa [record, step, executed, state] using exec _ _ _ _ _ _ here
  | crash thread => simpa [record, step, executed] using here
  | interfere event => simpa [record, step, executed] using disturb _ _ _ here

end System

/-- What was executed was allowed, and what waits to be executed is guarded. -/
structure History.Guarded (allowed : ι → List (Event Answer) → Op → Prop)
    (history : History ι Op Answer Mem W) : Prop where
  performed : ∀ entry ∈ history.performed,
    allowed entry.thread entry.before entry.event.1
  waiting : ∀ thread op next,
    history.pool.threads thread = .waiting op next →
      (Program.call op next).Guards (allowed thread) (history.current thread)

theorem guards_ofProgram {allowed : List (Event Answer) → Op → Prop}
    {events : List (Event Answer)} {program : Program Op Answer Mem}
    (guarded : program.Guards allowed events) {op : Op}
    {next : Answer op → Program Op Answer Mem}
    (waiting : Thread.ofProgram program = .waiting op next) :
    (Program.call op next).Guards allowed events := by
  cases program with
  | done value => cases waiting
  | call op next =>
      cases waiting
      exact guarded

section Guarded

variable [DecidableEq ι] {system : System ι Arg Mem Op Answer Ω W E}
  {allowed : ι → List (Event Answer) → Op → Prop}

theorem guarded_record
    (bodies : ∀ thread arg memory,
      (system.body thread arg memory).Guards (allowed thread) [])
    (history : History ι Op Answer Mem W) (action : Action ι Arg Ω E)
    (guarded : history.Guarded allowed) :
    (system.record history action).Guarded allowed := by
  cases action with
  | start thread arg =>
      cases state : history.pool.threads thread with
      | waiting op next =>
          constructor
          · simpa [System.record, System.executed] using guarded.performed
          · simpa [System.record, System.step, System.executed, state] using
              guarded.waiting
      | idle memory =>
          constructor
          · simpa [System.record, System.executed] using guarded.performed
          · intro other op next waiting
            simp only [System.record, System.step, state] at waiting ⊢
            rcases eq_or_ne other thread with rfl | different
            · rw [Function.update_self] at waiting ⊢
              exact guards_ofProgram (bodies other arg memory) waiting
            · rw [Function.update_of_ne different] at waiting ⊢
              exact guarded.waiting other op next waiting
  | advance thread choice =>
      cases state : history.pool.threads thread with
      | idle memory =>
          constructor
          · simpa [System.record, System.executed, state] using
              guarded.performed
          · simpa [System.record, System.step, System.executed, state] using
              guarded.waiting
      | waiting op next =>
          obtain ⟨here, rest⟩ := guarded.waiting thread op next state
          constructor
          · intro entry member
            simp only [System.record, System.executed, state,
              Option.toList_some, List.mem_append, List.mem_singleton] at member
            rcases member with earlier | rfl
            · exact guarded.performed entry earlier
            · exact here
          · intro other op' next' waiting
            simp only [System.record, System.step, System.executed,
              state] at waiting ⊢
            rcases eq_or_ne other thread with rfl | different
            · rw [Function.update_self] at waiting ⊢
              exact guards_ofProgram (rest _) waiting
            · rw [Function.update_of_ne different] at waiting ⊢
              exact guarded.waiting other op' next' waiting
  | crash thread =>
      constructor
      · simpa [System.record, System.executed] using guarded.performed
      · intro other op next waiting
        simp only [System.record, System.step, System.executed] at waiting ⊢
        rcases eq_or_ne other thread with rfl | different
        · rw [Function.update_self] at waiting
          cases waiting
        · rw [Function.update_of_ne different] at waiting
          exact guarded.waiting other op next waiting
  | interfere event =>
      constructor
      · simpa [System.record, System.executed] using guarded.performed
      · simpa [System.record, System.step, System.executed] using
          guarded.waiting

/-- The guards of the bodies hold for every operation of every run. -/
theorem guarded_performed
    (bodies : ∀ thread arg memory,
      (system.body thread arg memory).Guards (allowed thread) [])
    (world : W) (schedule : List (Action ι Arg Ω E)) :
    ∀ entry ∈ (Runs.run system.record (system.beginning world)
        schedule).performed,
      allowed entry.thread entry.before entry.event.1 := by
  have initially : (system.beginning world).Guarded allowed :=
    ⟨nofun, nofun⟩
  exact (Runs.invariant_run_always (guarded_record bodies) schedule
    initially).performed

end Guarded

/-- Every event of a thread's past was executed in the run. -/
structure History.Sourced (history : History ι Op Answer Mem W) : Prop where
  current : ∀ thread, ∀ event ∈ history.current thread,
    ∃ entry ∈ history.performed, entry.event = event
  before : ∀ entry ∈ history.performed, ∀ event ∈ entry.before,
    ∃ earlier ∈ history.performed, earlier.event = event

theorem sourced_record [DecidableEq ι]
    {system : System ι Arg Mem Op Answer Ω W E}
    (history : History ι Op Answer Mem W) (action : Action ι Arg Ω E)
    (sourced : history.Sourced) : (system.record history action).Sourced := by
  have grows {event : Event Answer}
      (before : ∃ entry ∈ history.performed, entry.event = event) :
      ∃ entry ∈ (system.record history action).performed,
        entry.event = event := by
    obtain ⟨entry, member, same⟩ := before
    exact ⟨entry, List.mem_append_left _ member, same⟩
  have past : ∀ entry ∈ system.executed history action,
      entry.before = history.current entry.thread := by
    intro entry now
    cases action with
    | advance thread choice =>
        cases state : history.pool.threads thread with
        | idle memory => simp [System.executed, state] at now
        | waiting op next =>
            simp only [System.executed, state, Option.mem_some_iff] at now
            rw [← now]
    | start thread arg => cases now
    | crash thread => cases now
    | interfere event => cases now
  constructor
  · intro thread event member
    cases action with
    | start started arg =>
        cases state : history.pool.threads started with
        | idle memory =>
            simp only [System.record, state] at member
            rcases eq_or_ne thread started with rfl | different
            · simp at member
            · rw [Function.update_of_ne different] at member
              exact grows (sourced.current thread event member)
        | waiting op next =>
            simp only [System.record, state] at member
            exact grows (sourced.current thread event member)
    | advance advanced choice =>
        simp only [System.record] at member
        cases now : system.executed history (.advance advanced choice) with
        | none =>
            simp only [now] at member
            exact grows (sourced.current thread event member)
        | some entry =>
            simp only [now] at member
            rcases eq_or_ne thread entry.thread with rfl | different
            · rw [Function.update_self, List.mem_append,
                List.mem_singleton] at member
              rcases member with earlier | rfl
              · rw [past entry now] at earlier
                exact grows (sourced.current _ event earlier)
              · refine ⟨entry, ?_, rfl⟩
                rw [System.record_performed, now]
                exact List.mem_append_right _ List.mem_cons_self
            · rw [Function.update_of_ne different] at member
              exact grows (sourced.current thread event member)
    | crash crashed =>
        exact grows (sourced.current thread event member)
    | interfere happened =>
        exact grows (sourced.current thread event member)
  · intro entry member event isBefore
    rw [System.record_performed, List.mem_append, Option.mem_toList] at member
    rcases member with earlier | now
    · exact grows (sourced.before entry earlier event isBefore)
    · rw [past entry now] at isBefore
      exact grows (sourced.current _ event isBefore)

theorem sourced_run [DecidableEq ι]
    (system : System ι Arg Mem Op Answer Ω W E) (world : W)
    (schedule : List (Action ι Arg Ω E)) :
    (Runs.run system.record (system.beginning world) schedule).Sourced := by
  have initially : (system.beginning world).Sourced := ⟨nofun, nofun⟩
  exact Runs.invariant_run_always sourced_record schedule initially

end RelyGuarantee
