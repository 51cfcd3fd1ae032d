import Mathlib.Logic.Function.Basic
import NodeAgent.Library.Interaction
import NodeAgent.Library.Runs

/-!
# Rely-guarantee reasoning for interacting programs

Several threads run interaction programs over one shared world.  Each call is
one atomic step; between two calls of a thread the other threads, crashes and
outside events may change the world.  A thread is verified alone, against a
relation it relies on; it promises a guarantee for each of its own calls.  The
pool theorem puts the threads together.
-/

namespace RelyGuarantee

open Interaction

universe u v w z

variable {Op : Type u} {Answer : Op → Type v} {Ω W α β : Type w}

/-- What one thread may assume and must keep.  `exec` runs one operation in
the current world; its last argument resolves everything the environment is
free to choose, within `allowed`. -/
structure Contract (Op : Type u) (Answer : Op → Type v) (Ω W : Type w) where
  exec : W → (op : Op) → Ω → Answer op × W
  allowed : W → Op → Ω → Prop
  inv : W → Prop
  rely : W → W → Prop
  guarantee : W → W → Prop

namespace Contract

variable (contract : Contract Op Answer Ω W)

/-- Every call of the program keeps the invariant and the guarantee, whatever
happened along `rely` before it, and the result satisfies `post`. -/
def Safe (post : α → W → Prop) : Program Op Answer α → W → Prop
  | .done value, world => post value world
  | .call op next, world =>
      ∀ now, contract.rely world now → contract.inv now →
        ∀ choice, contract.allowed now op choice →
          contract.inv (contract.exec now op choice).2 ∧
            contract.guarantee now (contract.exec now op choice).2 ∧
            Safe post (next (contract.exec now op choice).1)
              (contract.exec now op choice).2

/-- An assertion that survives everything the thread relies on. -/
def Stable (assertion : W → Prop) : Prop :=
  ∀ ⦃world now⦄, assertion world → contract.rely world now →
    contract.inv now → assertion now

def Triple (pre : W → Prop) (program : Program Op Answer α)
    (post : α → W → Prop) : Prop :=
  ∀ world, contract.inv world → pre world → contract.Safe post program world

variable {contract}

theorem Safe.bind {mid : α → W → Prop} {post : β → W → Prop}
    {program : Program Op Answer α} {next : α → Program Op Answer β} {world : W}
    (kept : contract.inv world) (safe : contract.Safe mid program world)
    (rest : ∀ value, contract.Triple (mid value) (next value) post) :
    contract.Safe post (program >>= next) world := by
  induction program generalizing world with
  | done value => exact rest value world kept safe
  | call op continuation ih =>
      intro now moved invariant choice permitted
      obtain ⟨after, promised, tail⟩ := safe now moved invariant choice permitted
      exact ⟨after, promised, ih _ after tail⟩

/-- A safe program stays safe while the world moves along `rely`. -/
theorem Safe.stable {post : α → W → Prop}
    (transitive : ∀ {first second third}, contract.rely first second →
      contract.rely second third → contract.rely first third)
    (postStable : ∀ value, contract.Stable (post value))
    {program : Program Op Answer α} {world now : W}
    (safe : contract.Safe post program world) (moved : contract.rely world now)
    (kept : contract.inv now) : contract.Safe post program now := by
  cases program with
  | done value => exact postStable value safe moved kept
  | call op next =>
      intro later movedLater
      exact safe later (transitive moved movedLater)

theorem triple_done {pre : W → Prop} {post : α → W → Prop} {value : α}
    (implies : ∀ world, contract.inv world → pre world → post value world) :
    contract.Triple pre (.done value : Program Op Answer α) post :=
  implies

/-- The rule for one call: `mid` is what holds right after it. -/
theorem triple_call {pre : W → Prop} (op : Op)
    (mid : Answer op → W → Prop) {post : α → W → Prop}
    {next : Answer op → Program Op Answer α} (stable : contract.Stable pre)
    (step : ∀ now choice, contract.inv now → pre now →
      contract.allowed now op choice →
        contract.inv (contract.exec now op choice).2 ∧
          contract.guarantee now (contract.exec now op choice).2 ∧
          mid (contract.exec now op choice).1 (contract.exec now op choice).2)
    (rest : ∀ answer, contract.Triple (mid answer) (next answer) post) :
    contract.Triple pre (.call op next) post := by
  intro world _ before now moved invariant choice permitted
  have here : pre now := stable before moved invariant
  obtain ⟨after, promised, holds⟩ := step now choice invariant here permitted
  exact ⟨after, promised, rest _ _ after holds⟩

theorem Triple.bind {pre : W → Prop} {mid : α → W → Prop}
    {post : β → W → Prop} {program : Program Op Answer α}
    {next : α → Program Op Answer β} (first : contract.Triple pre program mid)
    (rest : ∀ value, contract.Triple (mid value) (next value) post) :
    contract.Triple pre (program >>= next) post :=
  fun world kept before => (first world kept before).bind kept rest

theorem Triple.strengthen {pre pre' : W → Prop} {post : α → W → Prop}
    {program : Program Op Answer α} (before : ∀ world, pre' world → pre world)
    (triple : contract.Triple pre program post) :
    contract.Triple pre' program post :=
  fun world kept holds => triple world kept (before world holds)

theorem Stable.and {first second : W → Prop} (firstStable : contract.Stable first)
    (secondStable : contract.Stable second) :
    contract.Stable fun world => first world ∧ second world :=
  fun _ _ both moved kept =>
    ⟨firstStable both.1 moved kept, secondStable both.2 moved kept⟩

end Contract

/-- A thread is between two runs of its body, holding its memory, or it waits
for the answer to an operation. -/
inductive Thread (Op : Type u) (Answer : Op → Type v) (Mem : Type w)
  | idle (memory : Mem)
  | waiting (op : Op) (next : Answer op → Program Op Answer Mem)

def Thread.ofProgram {Mem : Type w} :
    Program Op Answer Mem → Thread Op Answer Mem
  | .done memory => .idle memory
  | .call op next => .waiting op next

structure Pool (ι : Type z) (Op : Type u) (Answer : Op → Type v)
    (Mem W : Type w) where
  world : W
  threads : ι → Thread Op Answer Mem

/-- One step of a pool: a thread starts its body, a thread executes its
pending operation, a thread loses its memory, or the outside world acts. -/
inductive Action (ι : Type z) (Arg Ω E : Type w)
  | start (thread : ι) (arg : Arg)
  | advance (thread : ι) (choice : Ω)
  | crash (thread : ι)
  | interfere (event : E)

structure System (ι : Type z) (Arg Mem : Type w) (Op : Type u)
    (Answer : Op → Type v) (Ω W E : Type w) where
  exec : ι → W → (op : Op) → Ω → Answer op × W
  disturb : W → E → W
  body : ι → Arg → Mem → Program Op Answer Mem
  fresh : Mem

variable {ι : Type z} {Arg Mem E : Type w}

namespace System

variable [DecidableEq ι] (system : System ι Arg Mem Op Answer Ω W E)

/-- An action that does not apply (starting a running thread, advancing an
idle one) changes nothing. -/
def step (pool : Pool ι Op Answer Mem W) :
    Action ι Arg Ω E → Pool ι Op Answer Mem W
  | .start thread arg =>
      match pool.threads thread with
      | .idle memory =>
          { pool with
            threads := Function.update pool.threads thread
              (.ofProgram (system.body thread arg memory)) }
      | .waiting _ _ => pool
  | .advance thread choice =>
      match pool.threads thread with
      | .idle _ => pool
      | .waiting op next =>
          { world := (system.exec thread pool.world op choice).2
            threads := Function.update pool.threads thread
              (.ofProgram
                (next (system.exec thread pool.world op choice).1)) }
  | .crash thread =>
      { pool with
        threads := Function.update pool.threads thread (.idle system.fresh) }
  | .interfere event =>
      { pool with world := system.disturb pool.world event }

/-- All threads idle with fresh memory. -/
def initial (world : W) : Pool ι Op Answer Mem W where
  world := world
  threads := fun _ => .idle system.fresh

/-- A thread that is scheduled alone, with the same choice for every
operation, finishes its program. -/
theorem advances_alone (thread : ι) (choice : Ω)
    (program : Program Op Answer Mem) (pool : Pool ι Op Answer Mem W)
    (waiting : pool.threads thread = .ofProgram program) :
    ∃ count, Runs.run system.step pool
        (List.replicate count (.advance thread choice)) =
      { world := (program.runOn
          (fun world op => system.exec thread world op choice) pool.world).2
        threads := Function.update pool.threads thread
          (.idle (program.runOn
            (fun world op => system.exec thread world op choice)
            pool.world).1) } := by
  induction program generalizing pool with
  | done memory =>
      refine ⟨0, ?_⟩
      have same : Function.update pool.threads thread (.idle memory) =
          pool.threads := Function.update_eq_self_iff.mpr waiting.symm
      simp [same]
  | call op next ih =>
      have here : pool.threads thread = .waiting op next := waiting
      have after := ih (system.exec thread pool.world op choice).1
        (system.step pool (.advance thread choice))
        (by simp [step, here])
      obtain ⟨count, finished⟩ := after
      refine ⟨count + 1, ?_⟩
      rw [List.replicate_succ, Runs.run_cons, finished]
      simp [step, here]

/-- A thread that is scheduled alone runs its body to the end. -/
theorem runs_alone (pool : Pool ι Op Answer Mem W) {thread : ι} {memory : Mem}
    (idle : pool.threads thread = .idle memory) (arg : Arg) (choice : Ω) :
    ∃ count, Runs.run system.step pool
        (.start thread arg :: List.replicate count (.advance thread choice)) =
      { world := ((system.body thread arg memory).runOn
          (fun world op => system.exec thread world op choice) pool.world).2
        threads := Function.update pool.threads thread
          (.idle ((system.body thread arg memory).runOn
            (fun world op => system.exec thread world op choice)
            pool.world).1) } := by
  obtain ⟨count, finished⟩ := system.advances_alone thread choice
    (system.body thread arg memory)
    (system.step pool (.start thread arg)) (by simp [step, idle])
  refine ⟨count, ?_⟩
  rw [Runs.run_cons, finished]
  simp [step, idle]

end System

/-- The contracts of all threads of a system.  `home` is what holds of a
thread's memory between two runs of its body. -/
structure Discipline (ι : Type z) (Mem : Type w) (Op : Type u) (Ω W E : Type w)
    where
  inv : W → Prop
  rely : ι → W → W → Prop
  guarantee : ι → W → W → Prop
  allowed : ι → W → Op → Ω → Prop
  allowedEvent : W → E → Prop
  home : ι → Mem → W → Prop

namespace Discipline

variable (discipline : Discipline ι Mem Op Ω W E)
  (system : System ι Arg Mem Op Answer Ω W E)

def contract (thread : ι) : Contract Op Answer Ω W where
  exec := system.exec thread
  allowed := discipline.allowed thread
  inv := discipline.inv
  rely := discipline.rely thread
  guarantee := discipline.guarantee thread

/-- The choices of one action stay within what the contracts allow. -/
def Permits (pool : Pool ι Op Answer Mem W) : Action ι Arg Ω E → Prop
  | .start _ _ => True
  | .advance thread choice =>
      match pool.threads thread with
      | .idle _ => True
      | .waiting op _ => discipline.allowed thread pool.world op choice
  | .crash _ => True
  | .interfere event => discipline.allowedEvent pool.world event

/-- The proof obligations of a discipline. -/
structure Sound : Prop where
  relyRefl : ∀ thread world, discipline.rely thread world world
  relyTrans : ∀ thread {first second third},
    discipline.rely thread first second →
      discipline.rely thread second third → discipline.rely thread first third
  compatible : ∀ {thread other before after}, thread ≠ other →
    discipline.guarantee thread before after →
      discipline.rely other before after
  event : ∀ {world event}, discipline.inv world →
    discipline.allowedEvent world event →
      discipline.inv (system.disturb world event) ∧
        ∀ thread, discipline.rely thread world (system.disturb world event)
  homeStable : ∀ thread memory,
    (discipline.contract system thread).Stable (discipline.home thread memory)
  freshHome : ∀ thread world, discipline.inv world →
    discipline.home thread system.fresh world
  body : ∀ thread arg memory, (discipline.contract system thread).Triple
    (discipline.home thread memory) (system.body thread arg memory)
    (discipline.home thread)

def ThreadSafe (thread : ι) (world : W) : Thread Op Answer Mem → Prop
  | .idle memory => discipline.home thread memory world
  | .waiting op next => (discipline.contract system thread).Safe
      (discipline.home thread) (.call op next) world

/-- The pool invariant. -/
structure Holds (pool : Pool ι Op Answer Mem W) : Prop where
  inv : discipline.inv pool.world
  thread : ∀ thread, discipline.ThreadSafe system thread pool.world
    (pool.threads thread)

variable {discipline system}

theorem threadSafe_ofProgram {thread : ι} {world : W}
    {program : Program Op Answer Mem}
    (safe : (discipline.contract system thread).Safe (discipline.home thread)
      program world) :
    discipline.ThreadSafe system thread world (.ofProgram program) := by
  cases program with
  | done memory => exact safe
  | call op next => exact safe

theorem Sound.threadSafe_stable (sound : discipline.Sound system) {thread : ι}
    {world now : W} {state : Thread Op Answer Mem}
    (safe : discipline.ThreadSafe system thread world state)
    (moved : discipline.rely thread world now) (kept : discipline.inv now) :
    discipline.ThreadSafe system thread now state := by
  cases state with
  | idle memory => exact sound.homeStable thread memory safe moved kept
  | waiting op next =>
      have waiting : (discipline.contract system thread).Safe
          (discipline.home thread) (.call op next) world := safe
      exact waiting.stable (sound.relyTrans thread)
        (sound.homeStable thread) moved kept

theorem Sound.holds_initial (sound : discipline.Sound system) [DecidableEq ι]
    {world : W} (kept : discipline.inv world) :
    discipline.Holds system (system.initial world) where
  inv := kept
  thread := fun thread => sound.freshHome thread world kept

/-- A call of one thread keeps the invariant and the thread's guarantee. -/
theorem Sound.call_step (sound : discipline.Sound system)
    {pool : Pool ι Op Answer Mem W} (holds : discipline.Holds system pool)
    {thread : ι} {op : Op} {next : Answer op → Program Op Answer Mem}
    (waiting : pool.threads thread = .waiting op next) {choice : Ω}
    (permitted : discipline.allowed thread pool.world op choice) :
    discipline.inv (system.exec thread pool.world op choice).2 ∧
      discipline.guarantee thread pool.world
        (system.exec thread pool.world op choice).2 ∧
      (discipline.contract system thread).Safe (discipline.home thread)
        (next (system.exec thread pool.world op choice).1)
        (system.exec thread pool.world op choice).2 := by
  have safe := holds.thread thread
  rw [waiting] at safe
  exact safe pool.world (sound.relyRefl thread pool.world) holds.inv choice
    permitted

variable [DecidableEq ι]

theorem Sound.holds_step (sound : discipline.Sound system)
    {pool : Pool ι Op Answer Mem W} {action : Action ι Arg Ω E}
    (holds : discipline.Holds system pool)
    (permitted : discipline.Permits pool action) :
    discipline.Holds system (system.step pool action) := by
  cases action with
  | start thread arg =>
      have safe := holds.thread thread
      cases state : pool.threads thread with
      | waiting op next => simpa only [System.step, state] using holds
      | idle memory =>
          rw [state] at safe
          have started := sound.body thread arg memory pool.world holds.inv safe
          simp only [System.step, state]
          refine ⟨holds.inv, ?_⟩
          intro other
          rcases eq_or_ne other thread with rfl | different
          · simpa using threadSafe_ofProgram started
          · simpa [different] using holds.thread other
  | advance thread choice =>
      cases state : pool.threads thread with
      | idle memory => simpa only [System.step, state] using holds
      | waiting op next =>
          simp only [Permits, state] at permitted
          obtain ⟨kept, promised, rest⟩ :=
            sound.call_step holds state permitted
          simp only [System.step, state]
          refine ⟨kept, ?_⟩
          intro other
          rcases eq_or_ne other thread with rfl | different
          · simpa using threadSafe_ofProgram rest
          · have moved := sound.compatible different.symm promised
            simpa [different] using
              sound.threadSafe_stable (holds.thread other) moved kept
  | crash thread =>
      refine ⟨holds.inv, ?_⟩
      intro other
      rcases eq_or_ne other thread with rfl | different
      · simpa [System.step, ThreadSafe] using
          sound.freshHome other pool.world holds.inv
      · simpa [System.step, different] using holds.thread other
  | interfere event =>
      obtain ⟨kept, moved⟩ := sound.event holds.inv permitted
      exact ⟨kept, fun other =>
        sound.threadSafe_stable (holds.thread other) (moved other) kept⟩

/-- A step moves the world by a guarantee of one of the threads, or by an
outside event, or not at all. -/
theorem Sound.guarantee_step (sound : discipline.Sound system)
    {pool : Pool ι Op Answer Mem W} {action : Action ι Arg Ω E}
    (holds : discipline.Holds system pool)
    (permitted : discipline.Permits pool action) :
    (system.step pool action).world = pool.world ∨
      (∃ thread, discipline.guarantee thread pool.world
        (system.step pool action).world) ∨
      ∃ event, action = .interfere event := by
  cases action with
  | start thread arg =>
      left
      cases state : pool.threads thread <;> simp only [System.step, state]
  | advance thread choice =>
      cases state : pool.threads thread with
      | idle memory =>
          left
          simp only [System.step, state]
      | waiting op next =>
          right
          left
          simp only [Permits, state] at permitted
          have promised := (sound.call_step holds state permitted).2.1
          refine ⟨thread, ?_⟩
          simpa only [System.step, state] using promised
  | crash thread => exact Or.inl rfl
  | interfere event => exact Or.inr (Or.inr ⟨event, rfl⟩)

/-- The pool rule: the invariant holds after every permitted run. -/
theorem Sound.holds_run (sound : discipline.Sound system)
    {pool : Pool ι Op Answer Mem W} {schedule : List (Action ι Arg Ω E)}
    (holds : discipline.Holds system pool)
    (permitted : Runs.Along system.step discipline.Permits pool schedule) :
    discipline.Holds system (Runs.run system.step pool schedule) :=
  Runs.invariant_run (fun _ _ => sound.holds_step) holds permitted

/-- With no restriction on the choices, the invariant holds after every
run. -/
theorem Sound.holds_always (sound : discipline.Sound system)
    (calls : ∀ thread world op choice,
      discipline.allowed thread world op choice)
    (events : ∀ world event, discipline.allowedEvent world event)
    {pool : Pool ι Op Answer Mem W} (holds : discipline.Holds system pool)
    (schedule : List (Action ι Arg Ω E)) :
    discipline.Holds system (Runs.run system.step pool schedule) := by
  have permitted (pool : Pool ι Op Answer Mem W) (action : Action ι Arg Ω E) :
      discipline.Permits pool action := by
    cases action with
    | start thread arg => trivial
    | advance thread choice =>
        cases state : pool.threads thread with
        | idle memory => simp [Permits, state]
        | waiting op next => simp [Permits, state, calls]
    | crash thread => trivial
    | interfere event => exact events pool.world event
  exact sound.holds_run holds (Runs.along_of_forall permitted pool schedule)

end Discipline

end RelyGuarantee
