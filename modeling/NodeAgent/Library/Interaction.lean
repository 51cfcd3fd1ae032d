import Mathlib.Logic.Basic
import Mathlib.Logic.Relation
import Mathlib.Order.Basic
import Mathlib.Tactic.TypeStar

/-!
# Programs that interact with their environment

An asynchronous method is a tree of calls: at each node it issues one
operation and continues with the answer.  The tree is pure data, so the same
program can be run against a state (`runOn`), re-targeted to other operations
(`interp`), asked which operations it can issue (`Issues`) and what it can
return (`Returns`), or executed while the world changes between its calls
(`Executes`, and `IssuedAt` for the moment at which it issues an operation).
-/

namespace Interaction

universe u v w z u' v' w'

inductive Program (Op : Type u) (Answer : Op → Type v) (α : Type w) :
    Type (max u v w)
  | done (value : α) : Program Op Answer α
  | call (op : Op) (next : Answer op → Program Op Answer α) :
      Program Op Answer α

variable {Op : Type u} {Answer : Op → Type v} {Op' : Type u'}
  {Answer' : Op' → Type v'} {α : Type w} {β : Type w} {σ : Type w'}

namespace Program

protected def bind {γ : Type z} :
    Program Op Answer α → (α → Program Op Answer γ) → Program Op Answer γ
  | done value, next => next value
  | call op rest, next => call op fun answer => (rest answer).bind next

instance : Monad (Program Op Answer) where
  pure := done
  bind := Program.bind

@[simp] theorem pure_eq (value : α) :
    (pure value : Program Op Answer α) = done value := rfl

@[simp] theorem done_bind (value : α) (next : α → Program Op Answer β) :
    (done value : Program Op Answer α) >>= next = next value := rfl

@[simp] theorem call_bind (op : Op) (rest : Answer op → Program Op Answer α)
    (next : α → Program Op Answer β) :
    call op rest >>= next = call op fun answer => rest answer >>= next := rfl

theorem bind_done (program : Program Op Answer α) :
    program >>= done = program := by
  induction program with
  | done value => rfl
  | call op next ih => exact congrArg (call op) (funext ih)

theorem bind_bind {γ : Type w} (program : Program Op Answer α)
    (first : α → Program Op Answer β) (second : β → Program Op Answer γ) :
    program >>= first >>= second =
      program >>= fun value => first value >>= second := by
  induction program with
  | done value => rfl
  | call op next ih => exact congrArg (call op) (funext ih)

instance : LawfulMonad (Program Op Answer) :=
  LawfulMonad.mk' _ bind_done (fun _ _ => rfl) bind_bind

/-- Issue one operation and return its answer. -/
def perform {Answer : Op → Type w} (op : Op) : Program Op Answer (Answer op) :=
  call op done

@[simp] theorem perform_bind {Answer : Op → Type w} (op : Op)
    (next : Answer op → Program Op Answer β) :
    perform op >>= next = call op next := rfl

/-- Replace every operation by a program over other operations. -/
def interp (handler : (op : Op) → Program Op' Answer' (Answer op)) :
    Program Op Answer α → Program Op' Answer' α
  | done value => done value
  | call op next =>
      (handler op).bind fun answer => (next answer).interp handler

/-- A re-targeted sequence is the sequence of its re-targeted parts. -/
theorem interp_bind {γ : Type z}
    (handler : (op : Op) → Program Op' Answer' (Answer op))
    (program : Program Op Answer α) (next : α → Program Op Answer γ) :
    (program.bind next).interp handler =
      (program.interp handler).bind fun value =>
        (next value).interp handler := by
  have assoc {δ : Type v} (first : Program Op' Answer' δ)
      (second : δ → Program Op' Answer' α)
      (third : α → Program Op' Answer' γ) :
      (first.bind second).bind third =
        first.bind fun value => (second value).bind third := by
    induction first with
    | done value => rfl
    | call op rest ih => exact congrArg (call op) (funext ih)
  induction program with
  | done value => rfl
  | call op rest ih =>
      simp only [Program.bind, interp, ih, assoc]

/-- Run the whole program against a state, with nothing in between. -/
def runOn (handle : σ → (op : Op) → Answer op × σ) :
    Program Op Answer α → σ → α × σ
  | done value, state => (value, state)
  | call op next, state =>
      (next (handle state op).1).runOn handle (handle state op).2

@[simp] theorem runOn_done (handle : σ → (op : Op) → Answer op × σ)
    (value : α) (state : σ) :
    (done value : Program Op Answer α).runOn handle state = (value, state) :=
  rfl

@[simp] theorem runOn_call (handle : σ → (op : Op) → Answer op × σ)
    (op : Op) (next : Answer op → Program Op Answer α) (state : σ) :
    (call op next).runOn handle state =
      (next (handle state op).1).runOn handle (handle state op).2 := rfl

theorem runOn_bind (handle : σ → (op : Op) → Answer op × σ)
    (program : Program Op Answer α) (next : α → Program Op Answer β)
    (state : σ) :
    (program >>= next).runOn handle state =
      (next (program.runOn handle state).1).runOn handle
        (program.runOn handle state).2 := by
  induction program generalizing state with
  | done value => rfl
  | call op rest ih => exact ih (handle state op).1 (handle state op).2

/-- A re-targeted program runs as the program does on its handlers. -/
theorem runOn_interp (handle : σ → (op : Op') → Answer' op × σ)
    (handler : (op : Op) → Program Op' Answer' (Answer op))
    (program : Program Op Answer α) (state : σ) :
    (program.interp handler).runOn handle state =
      program.runOn (fun state op => (handler op).runOn handle state)
        state := by
  induction program generalizing state with
  | done value => rfl
  | call op next ih =>
      have sequence (first : Program Op' Answer' (Answer op)) (state : σ) :
          (first.bind fun answer => (next answer).interp handler).runOn handle
              state =
            ((next (first.runOn handle state).1).interp handler).runOn handle
              (first.runOn handle state).2 := by
        induction first generalizing state with
        | done value => rfl
        | call op rest ih => exact ih _ _
      exact (sequence (handler op) state).trans (ih _ _)

/-- Some answers lead the program to issue `target`. -/
def Issues : Program Op Answer α → Op → Prop
  | done _, _ => False
  | call op next, target => op = target ∨ ∃ answer, (next answer).Issues target

/-- Some answers lead the program to return `value`. -/
def Returns : Program Op Answer α → α → Prop
  | done result, value => result = value
  | call _ next, value => ∃ answer, (next answer).Returns value

@[simp] theorem issues_done (value : α) (target : Op) :
    (done value : Program Op Answer α).Issues target ↔ False := Iff.rfl

@[simp] theorem issues_call (op : Op) (next : Answer op → Program Op Answer α)
    (target : Op) :
    (call op next).Issues target ↔
      op = target ∨ ∃ answer, (next answer).Issues target := Iff.rfl

@[simp] theorem returns_done (result value : α) :
    (done result : Program Op Answer α).Returns value ↔ result = value :=
  Iff.rfl

@[simp] theorem returns_call (op : Op) (next : Answer op → Program Op Answer α)
    (value : α) :
    (call op next).Returns value ↔ ∃ answer, (next answer).Returns value :=
  Iff.rfl

theorem issues_bind {γ : Type z} (program : Program Op Answer α)
    (next : α → Program Op Answer γ) (target : Op) :
    (program.bind next).Issues target ↔
      program.Issues target ∨
        ∃ value, program.Returns value ∧ (next value).Issues target := by
  induction program with
  | done value => simp [Program.bind]
  | call op rest ih =>
      simp only [Program.bind, issues_call, returns_call, ih]
      constructor
      · rintro (same | ⟨answer, issued | ⟨value, returned, issued⟩⟩)
        · exact Or.inl (Or.inl same)
        · exact Or.inl (Or.inr ⟨answer, issued⟩)
        · exact Or.inr ⟨value, ⟨answer, returned⟩, issued⟩
      · rintro ((same | ⟨answer, issued⟩) | ⟨value, ⟨answer, returned⟩, issued⟩)
        · exact Or.inl same
        · exact Or.inr ⟨answer, Or.inl issued⟩
        · exact Or.inr ⟨answer, Or.inr ⟨value, returned, issued⟩⟩

/-- A re-targeted program issues what the handler of one of its operations
issues. -/
theorem issues_interp (handler : (op : Op) → Program Op' Answer' (Answer op))
    (program : Program Op Answer α) (target : Op')
    (issued : (program.interp handler).Issues target) :
    ∃ op, program.Issues op ∧ (handler op).Issues target := by
  induction program with
  | done value => cases issued
  | call op next ih =>
      rcases (issues_bind (handler op) _ target).mp issued with
        here | ⟨answer, -, issued⟩
      · exact ⟨op, Or.inl rfl, here⟩
      · obtain ⟨inner, issues, handled⟩ := ih answer issued
        exact ⟨inner, Or.inr ⟨answer, issues⟩, handled⟩

/-- No answers lead the program to issue `target`. -/
def Avoids (program : Program Op Answer α) (target : Op) : Prop :=
  ¬program.Issues target

theorem avoids_done (value : α) (target : Op) :
    (done value : Program Op Answer α).Avoids target := id

theorem avoids_call {op target : Op} {next : Answer op → Program Op Answer α}
    (other : op ≠ target) (rest : ∀ answer, (next answer).Avoids target) :
    (call op next).Avoids target := by
  intro issues
  rcases issues with same | ⟨answer, issued⟩
  · exact other same
  · exact rest answer issued

theorem avoids_bind {γ : Type z} {program : Program Op Answer α}
    {next : α → Program Op Answer γ} {target : Op}
    (first : program.Avoids target)
    (second : ∀ value, (next value).Avoids target) :
    (program.bind next).Avoids target := by
  intro issued
  rcases (issues_bind program next target).mp issued with
    here | ⟨value, _, later⟩
  · exact first here
  · exact second value later

/-- The program issues no operation but these. -/
def Uses (allowed : Op → Prop) (program : Program Op Answer α) : Prop :=
  ∀ op, program.Issues op → allowed op

theorem uses_done {allowed : Op → Prop} (value : α) :
    (done value : Program Op Answer α).Uses allowed := nofun

theorem uses_call {allowed : Op → Prop} {op : Op}
    {next : Answer op → Program Op Answer α} (here : allowed op)
    (rest : ∀ answer, (next answer).Uses allowed) :
    (call op next).Uses allowed := by
  intro target issued
  rcases issued with rfl | ⟨answer, later⟩
  · exact here
  · exact rest answer target later

theorem uses_bind {γ : Type z} {allowed : Op → Prop}
    {program : Program Op Answer α} {next : α → Program Op Answer γ}
    (first : program.Uses allowed)
    (second : ∀ value, (next value).Uses allowed) :
    (program.bind next).Uses allowed := by
  intro target issued
  rcases (issues_bind program next target).mp issued with
    here | ⟨value, _, later⟩
  · exact first target here
  · exact second value target later

/-- Re-targeted, a program uses what the handlers use. -/
theorem uses_interp {allowed : Op' → Prop}
    {handler : (op : Op) → Program Op' Answer' (Answer op)}
    (handled : ∀ op, (handler op).Uses allowed)
    (program : Program Op Answer α) :
    (program.interp handler).Uses allowed := by
  intro target issued
  obtain ⟨op, -, issues⟩ := issues_interp handler program target issued
  exact handled op target issues

theorem Uses.avoids {allowed : Op → Prop} {program : Program Op Answer α}
    (uses : program.Uses allowed) {target : Op} (other : ¬allowed target) :
    program.Avoids target :=
  fun issued => other (uses target issued)

/-- Whatever the answers, what the program returns satisfies `post`. -/
def Ensures (program : Program Op Answer α) (post : α → Prop) : Prop :=
  ∀ value, program.Returns value → post value

theorem ensures_done {post : α → Prop} {value : α} (holds : post value) :
    (done value : Program Op Answer α).Ensures post := by
  intro result returned
  exact returned ▸ holds

theorem ensures_call {post : α → Prop} {op : Op}
    {next : Answer op → Program Op Answer α}
    (rest : ∀ answer, (next answer).Ensures post) :
    (call op next).Ensures post := by
  intro value returned
  obtain ⟨answer, later⟩ := returned
  exact rest answer value later

/-- A run returns something that the program can return. -/
theorem returns_runOn (handle : σ → (op : Op) → Answer op × σ)
    (program : Program Op Answer α) (state : σ) :
    program.Returns (program.runOn handle state).1 := by
  induction program generalizing state with
  | done value => rfl
  | call op next ih => exact ⟨_, ih (handle state op).1 (handle state op).2⟩

/-- What every operation that a program uses keeps, its runs keep. -/
theorem Uses.runOn {allowed : Op → Prop} {inv : σ → Prop}
    {handle : σ → (op : Op) → Answer op × σ}
    (kept : ∀ state op, allowed op → inv state → inv (handle state op).2)
    {program : Program Op Answer α} (uses : program.Uses allowed) {state : σ}
    (holds : inv state) : inv (program.runOn handle state).2 := by
  induction program generalizing state with
  | done value => exact holds
  | call op next ih =>
      apply ih
      · intro target issued
        exact uses target (Or.inr ⟨_, issued⟩)
      · exact kept state op (uses op (Or.inl rfl)) holds

theorem ensures_true (program : Program Op Answer α) :
    program.Ensures fun _ => True :=
  fun _ _ => trivial

theorem ensures_bind {γ : Type z} {middle : α → Prop} {post : γ → Prop}
    {program : Program Op Answer α} {next : α → Program Op Answer γ}
    (first : program.Ensures middle)
    (second : ∀ value, middle value → (next value).Ensures post) :
    (program.bind next).Ensures post := by
  induction program with
  | done value => exact second value (first value rfl)
  | call op rest ih =>
      apply ensures_call
      intro answer
      apply ih answer
      intro value returned
      exact first value ⟨answer, returned⟩

end Program

/-- The program returns `value` when it is started in one world and ends in
another: before every call the world may move along `evolves`, and the call
then gets one of its possible `answers` there. -/
inductive Executes (evolves : σ → σ → Prop)
    (answers : σ → (op : Op) → Answer op → Prop) :
    σ → Program Op Answer α → α → σ → Prop
  | done {world : σ} {value : α} :
      Executes evolves answers world (.done value) value world
  | call {start world finish : σ} {op : Op} {answer : Answer op}
      {next : Answer op → Program Op Answer α} {value : α}
      (moved : evolves start world) (answered : answers world op answer)
      (rest : Executes evolves answers world (next answer) value finish) :
      Executes evolves answers start (.call op next) value finish

variable {evolves : σ → σ → Prop}
  {answers : σ → (op : Op) → Answer op → Prop}

@[simp] theorem executes_done {start finish : σ} {result value : α} :
    Executes evolves answers start
        (.done result : Program Op Answer α) value finish ↔
      result = value ∧ start = finish := by
  constructor
  · rintro ⟨⟩
    exact ⟨rfl, rfl⟩
  · rintro ⟨rfl, rfl⟩
    exact .done

@[simp] theorem executes_call {start finish : σ} {op : Op}
    {next : Answer op → Program Op Answer α} {value : α} :
    Executes evolves answers start (.call op next) value finish ↔
      ∃ world answer, evolves start world ∧ answers world op answer ∧
        Executes evolves answers world (next answer) value finish := by
  constructor
  · rintro (_ | ⟨moved, answered, rest⟩)
    exact ⟨_, _, moved, answered, rest⟩
  · intro execution
    obtain ⟨world, answer, moved, answered, rest⟩ := execution
    exact .call moved answered rest

@[simp] theorem executes_perform {Answer : Op → Type w}
    {answers : σ → (op : Op) → Answer op → Prop} {start finish : σ} {op : Op}
    {answer : Answer op} :
    Executes evolves answers start
        (Program.perform op : Program Op Answer (Answer op)) answer finish ↔
      evolves start finish ∧ answers finish op answer := by
  constructor
  · intro execution
    obtain ⟨world, result, moved, answered, done⟩ := executes_call.mp execution
    obtain ⟨rfl, rfl⟩ := executes_done.mp done
    exact ⟨moved, answered⟩
  · intro read
    obtain ⟨moved, answered⟩ := read
    exact .call moved answered .done

theorem executes_bind {γ : Type z} {start finish : σ}
    (program : Program Op Answer α) (next : α → Program Op Answer γ)
    {result : γ} :
    Executes evolves answers start (program.bind next) result finish ↔
      ∃ value middle, Executes evolves answers start program value middle ∧
        Executes evolves answers middle (next value) result finish := by
  induction program generalizing start with
  | done value =>
      simp only [Program.bind, executes_done]
      constructor
      · intro execution
        exact ⟨value, start, ⟨rfl, rfl⟩, execution⟩
      · rintro ⟨_, _, ⟨rfl, rfl⟩, execution⟩
        exact execution
  | call op rest ih =>
      simp only [Program.bind, executes_call, ih]
      constructor
      · intro execution
        obtain ⟨world, answer, moved, answered, value, middle, first,
          second⟩ := execution
        exact ⟨value, middle, ⟨world, answer, moved, answered, first⟩, second⟩
      · intro execution
        obtain ⟨value, middle, ⟨world, answer, moved, answered, first⟩,
          second⟩ := execution
        exact ⟨world, answer, moved, answered, value, middle, first, second⟩

/-- A program whose handler answers every operation in one call executes as the
program itself does. -/
theorem Executes.of_interp {answers' : σ → (op : Op') → Answer' op → Prop}
    {handler : (op : Op) → Program Op' Answer' (Answer op)}
    (handled : ∀ {start op answer finish},
      Executes evolves answers' start (handler op) answer finish →
        evolves start finish ∧ answers finish op answer)
    {program : Program Op Answer α} {start finish : σ} {value : α}
    (execution : Executes evolves answers' start (program.interp handler) value
      finish) : Executes evolves answers start program value finish := by
  induction program generalizing start with
  | done result =>
      obtain ⟨rfl, rfl⟩ := executes_done.mp execution
      exact .done
  | call op next ih =>
      obtain ⟨answer, world, first, rest⟩ :=
        (executes_bind (handler op) _).mp execution
      obtain ⟨moved, answered⟩ := handled first
      exact .call moved answered (ih answer rest)

/-- A program executes on handlers that can give each of its answers. -/
theorem Executes.interp {answers' : σ → (op : Op') → Answer' op → Prop}
    {handler : (op : Op) → Program Op' Answer' (Answer op)}
    (handled : ∀ {start world op answer}, evolves start world →
      answers world op answer →
        Executes evolves answers' start (handler op) answer world)
    {program : Program Op Answer α} {start finish : σ} {value : α}
    (execution : Executes evolves answers start program value finish) :
    Executes evolves answers' start (program.interp handler) value finish := by
  induction execution with
  | done => exact .done
  | call moved answered rest ih =>
      exact (executes_bind _ _).mpr ⟨_, _, handled moved answered, ih⟩

/-- The world only moves along `evolves` while a program executes. -/
theorem Executes.evolved {program : Program Op Answer α} {start finish : σ}
    {value : α} (reflexive : ∀ world, evolves world world)
    (transitive : ∀ ⦃first second third⦄,
      evolves first second → evolves second third → evolves first third)
    (execution : Executes evolves answers start program value finish) :
    evolves start finish := by
  induction execution with
  | done => exact reflexive _
  | call moved answered rest ih => exact transitive moved ih

/-- As long as the answers are `good`, the program issues no operation but
`allowed` ones. -/
def Program.UsesWhile (good : (op : Op) → Answer op → Prop)
    (allowed : Op → Prop) : Program Op Answer α → Prop
  | .done _ => True
  | .call op next =>
      allowed op ∧
        ∀ answer, good op answer → (next answer).UsesWhile good allowed

theorem Program.UsesWhile.bind {γ : Type z}
    {good : (op : Op) → Answer op → Prop} {allowed : Op → Prop}
    {program : Program Op Answer α} {next : α → Program Op Answer γ}
    (first : program.UsesWhile good allowed)
    (second : ∀ value, (next value).UsesWhile good allowed) :
    (program.bind next).UsesWhile good allowed := by
  induction program with
  | done value => exact second value
  | call op rest ih =>
      refine ⟨first.1, ?_⟩
      intro answer answered
      exact ih answer (first.2 answer answered)

/-- `of_interp` for a handler that is only right on the operations that the
program issues after good answers. -/
theorem Executes.of_interp_while {answers' : σ → (op : Op') → Answer' op → Prop}
    {handler : (op : Op) → Program Op' Answer' (Answer op)}
    {good : (op : Op) → Answer op → Prop} {allowed : Op → Prop}
    (handled : ∀ {start op answer finish}, allowed op →
      Executes evolves answers' start (handler op) answer finish →
        evolves start finish ∧ answers finish op answer)
    (sound : ∀ world op answer, answers world op answer → good op answer)
    {program : Program Op Answer α} (uses : program.UsesWhile good allowed)
    {start finish : σ} {value : α}
    (execution : Executes evolves answers' start (program.interp handler) value
      finish) : Executes evolves answers start program value finish := by
  induction program generalizing start with
  | done result =>
      obtain ⟨rfl, rfl⟩ := executes_done.mp execution
      exact .done
  | call op next ih =>
      obtain ⟨answer, world, first, rest⟩ :=
        (executes_bind (handler op) _).mp execution
      obtain ⟨moved, answered⟩ := handled uses.1 first
      exact .call moved answered
        (ih answer (uses.2 answer (sound _ _ _ answered)) rest)

/-- A coarser view of the world sees the same execution. -/
theorem Executes.view {τ : Type w'} (view : σ → τ)
    {evolves' : τ → τ → Prop}
    {answers' : τ → (op : Op) → Answer op → Prop}
    (moves : ∀ {first second},
      evolves first second → evolves' (view first) (view second))
    (sees : ∀ {world op answer},
      answers world op answer → answers' (view world) op answer)
    {program : Program Op Answer α} {start finish : σ} {value : α}
    (execution : Executes evolves answers start program value finish) :
    Executes evolves' answers' (view start) program value (view finish) := by
  induction execution with
  | done => exact .done
  | call moved answered rest ih => exact .call (moves moved) (sees answered) ih

/-- A run whose answers are all possible in a world is an execution in which
the world stands still. -/
theorem Executes.of_runOn {τ : Type w'} {world : σ}
    {handle : τ → (op : Op) → Answer op × τ}
    (still : evolves world world)
    (possible : ∀ state op, answers world op (handle state op).1)
    (program : Program Op Answer α) (state : τ) :
    Executes evolves answers world program (program.runOn handle state).1
      world := by
  induction program generalizing state with
  | done value => exact .done
  | call op next ih => exact .call still (possible state op) (ih _ _)

/-- Started in one world, the program issues `target` in another. -/
inductive IssuedAt (evolves : σ → σ → Prop)
    (answers : σ → (op : Op) → Answer op → Prop) (target : Op) (finish : σ) :
    σ → Program Op Answer α → Prop
  | here {start : σ} {next : Answer target → Program Op Answer α}
      (moved : evolves start finish) :
      IssuedAt evolves answers target finish start (.call target next)
  | later {start world : σ} {op : Op} {next : Answer op → Program Op Answer α}
      (answer : Answer op) (moved : evolves start world)
      (answered : answers world op answer)
      (rest : IssuedAt evolves answers target finish world (next answer)) :
      IssuedAt evolves answers target finish start (.call op next)

theorem IssuedAt.issues {target : Op} {start finish : σ}
    {program : Program Op Answer α}
    (issued : IssuedAt evolves answers target finish start program) :
    program.Issues target := by
  induction issued with
  | here moved => exact Or.inl rfl
  | later answer moved answered rest ih => exact Or.inr ⟨answer, ih⟩

theorem IssuedAt.evolved {target : Op} {start finish : σ}
    {program : Program Op Answer α}
    (transitive : ∀ {first second third},
      evolves first second → evolves second third → evolves first third)
    (issued : IssuedAt evolves answers target finish start program) :
    evolves start finish := by
  induction issued with
  | here moved => exact moved
  | later answer moved answered rest ih => exact transitive moved ih

/-- What a sequence issues is issued by its first part, or after the first part
has executed. -/
theorem IssuedAt.of_bind {γ : Type z} {target : Op} {start finish : σ}
    {program : Program Op Answer α} {next : α → Program Op Answer γ}
    (issued : IssuedAt evolves answers target finish start
      (program.bind next)) :
    IssuedAt evolves answers target finish start program ∨
      ∃ value middle, Executes evolves answers start program value middle ∧
        IssuedAt evolves answers target finish middle (next value) := by
  induction program generalizing start with
  | done value => exact Or.inr ⟨value, start, .done, issued⟩
  | call op rest ih =>
      cases issued with
      | here moved => exact Or.inl (.here moved)
      | later answer moved answered issued =>
          rcases ih _ issued with first | ⟨value, middle, first, second⟩
          · exact Or.inl (.later answer moved answered first)
          · exact Or.inr
              ⟨value, middle, .call moved answered first, second⟩

/-- What is issued after the first part has executed is issued by the
sequence. -/
theorem IssuedAt.bind {γ : Type z} {target : Op} {start middle finish : σ}
    {program : Program Op Answer α} {next : α → Program Op Answer γ} {value : α}
    (first : Executes evolves answers start program value middle)
    (second : IssuedAt evolves answers target finish middle (next value)) :
    IssuedAt evolves answers target finish start (program.bind next) := by
  induction first with
  | done => exact second
  | call moved answered rest ih =>
      exact .later _ moved answered (ih second)

/-- What a re-targeted program issues is what the program issues, when its
handlers answer in one call and only one of them issues the operation. -/
theorem IssuedAt.of_interp {answers' : σ → (op : Op') → Answer' op → Prop}
    {handler : (op : Op) → Program Op' Answer' (Answer op)} {target : Op}
    {target' : Op'} {finish : σ}
    (handled : ∀ {start op answer world},
      Executes evolves answers' start (handler op) answer world →
        evolves start world ∧ answers world op answer)
    (only : ∀ {start op},
      IssuedAt evolves answers' target' finish start (handler op) →
        op = target ∧ evolves start finish)
    {program : Program Op Answer α} {start : σ}
    (issued : IssuedAt evolves answers' target' finish start
      (program.interp handler)) :
    IssuedAt evolves answers target finish start program := by
  induction program generalizing start with
  | done result => cases issued
  | call op next ih =>
      rcases IssuedAt.of_bind issued with
        here | ⟨answer, world, first, later⟩
      · obtain ⟨rfl, moved⟩ := only here
        exact .here moved
      · obtain ⟨moved, answered⟩ := handled first
        exact .later answer moved answered (ih answer later)

theorem IssuedAt.left {γ : Type z} {target : Op} {start finish : σ}
    {program : Program Op Answer α} {next : α → Program Op Answer γ}
    (first : IssuedAt evolves answers target finish start program) :
    IssuedAt evolves answers target finish start (program.bind next) := by
  induction first with
  | here moved => exact .here moved
  | later answer moved answered rest ih => exact .later answer moved answered ih

theorem Executes.reaches {program : Program Op Answer α} {start finish : σ}
    {value : α}
    (execution : Executes evolves answers start program value finish) :
    Relation.ReflTransGen evolves start finish := by
  induction execution with
  | done => exact .refl
  | call moved answered rest ih => exact .head moved ih

theorem IssuedAt.moves {target : Op} {start finish : σ}
    {program : Program Op Answer α}
    (issued : IssuedAt evolves answers target finish start program) :
    Relation.TransGen evolves start finish := by
  induction issued with
  | here moved => exact .single moved
  | later answer moved answered rest ih => exact .head moved ih

theorem le_of_reaches {Moment : Type w'} [Preorder Moment]
    {first second : Moment}
    (reaches : Relation.ReflTransGen (· ≤ ·) first second) :
    first ≤ second := by
  rwa [Relation.reflTransGen_eq_self] at reaches

/-- One span after another: the next begins where the last one ended. -/
def Follows (evolves : σ → σ → Prop) (first second : σ × σ) : Prop :=
  second.1 = first.2 ∧ Relation.ReflTransGen evolves first.2 second.2

theorem Follows.reaches {first second : σ × σ}
    (follow : Relation.ReflTransGen (Follows evolves) first second) :
    Relation.ReflTransGen evolves first.2 second.2 := by
  induction follow with
  | refl => exact .refl
  | tail earlier last ih => exact ih.trans last.2

theorem Follows.forward {first second : σ × σ}
    (follows : Relation.ReflTransGen (Follows evolves) first second)
    (forward : Relation.ReflTransGen evolves first.1 first.2) :
    Relation.ReflTransGen evolves first.1 second.1 ∧
      Relation.ReflTransGen evolves second.1 second.2 := by
  induction follows with
  | refl => exact ⟨.refl, forward⟩
  | tail earlier last ih =>
      obtain ⟨began, moved⟩ := last
      exact ⟨began ▸ ih.1.trans ih.2, began ▸ moved⟩

theorem Follows.before {first second : σ × σ}
    (follows : Relation.TransGen (Follows evolves) first second) :
    Relation.ReflTransGen evolves first.2 second.1 := by
  obtain ⟨next, ⟨began, moved⟩, later⟩ := Relation.TransGen.head'_iff.mp follows
  have forward : Relation.ReflTransGen evolves next.1 next.2 := began ▸ moved
  exact began ▸ (Follows.forward later forward).1

/-- The handler of the operation executes within the span. -/
def Handled (evolves : σ → σ → Prop)
    (answers' : σ → (op : Op') → Answer' op → Prop)
    (handler : (op : Op) → Program Op' Answer' (Answer op)) (span : σ × σ)
    (op : Op) (answer : Answer op) : Prop :=
  Executes evolves answers' span.1 (handler op) answer span.2

section Spans

variable {answers' : σ → (op : Op') → Answer' op → Prop}
  {handler : (op : Op) → Program Op' Answer' (Answer op)}
  {program : Program Op Answer α} {start finish : σ}

/-- A re-targeted program executes as the program does on the spans of its
handlers. -/
theorem Executes.of_interp_spans {value : α}
    (execution : Executes evolves answers' start (program.interp handler) value
      finish) (before : σ) :
    ∃ last, Executes (Follows evolves) (Handled evolves answers' handler)
      (before, start) program value (last, finish) := by
  induction program generalizing start before with
  | done result =>
      obtain ⟨rfl, rfl⟩ := executes_done.mp execution
      exact ⟨before, .done⟩
  | call op next ih =>
      obtain ⟨answer, world, first, rest⟩ :=
        (executes_bind (handler op) _).mp execution
      obtain ⟨last, later⟩ := ih answer rest start
      have follows : Follows evolves (before, start) (start, world) :=
        ⟨rfl, first.reaches⟩
      exact ⟨last, .call follows first later⟩

/-- What a re-targeted program issues is issued by the handler of an operation
that the program issues when the span of that handler begins. -/
theorem IssuedAt.of_interp_spans {target : Op'}
    (issued : IssuedAt evolves answers' target finish start
      (program.interp handler)) (before : σ) :
    ∃ op began, IssuedAt (Follows evolves) (Handled evolves answers' handler)
        op (began, finish) (before, start) program ∧
      IssuedAt evolves answers' target finish began (handler op) := by
  induction program generalizing start before with
  | done result => cases issued
  | call op next ih =>
      rcases IssuedAt.of_bind issued with
        here | ⟨answer, world, first, later⟩
      · have follows : Follows evolves (before, start) (start, finish) :=
          ⟨rfl, here.moves.to_reflTransGen⟩
        exact ⟨op, start, .here follows, here⟩
      · have follows : Follows evolves (before, start) (start, world) :=
          ⟨rfl, first.reaches⟩
        obtain ⟨op', began, outer, inner⟩ := ih answer later start
        exact ⟨op', began, .later answer follows first outer, inner⟩

end Spans

end Interaction
