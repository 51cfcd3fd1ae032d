import Mathlib.Data.List.Pairwise
import NodeAgent.Library.Runs
import NodeAgent.Supervision.State

/-!
# The signing queue

The three enqueue methods and `mark_request_observed` as the operations of one
queue.  `QueueEffect` says once what an operation can do to the queue; the
representation invariant and every later result about runs of the queue is
derived from it.
-/

namespace NodeAgent.Supervision

inductive QueueOp
  | enqueue (write : UnsignedWrite)
  | enqueueSuperseding (dedupKey : String) (write : UnsignedWrite)
  | enqueueRecurring (write : UnsignedWrite)
  | observe (id : Nat) (txHash : String) (now : Nat)
deriving DecidableEq

/-- The id an enqueue returns, and the next state. -/
def QueueOp.perform (state : AgentState) : QueueOp → Option Nat × AgentState
  | .enqueue write =>
      let (id, next) := state.enqueueSignatureRequest write
      (some id, next)
  | .enqueueSuperseding dedupKey write =>
      let (id, next) := state.enqueueSupersedingSignatureRequest dedupKey write
      (some id, next)
  | .enqueueRecurring write =>
      let (id, next) := state.enqueueRecurringSignatureRequest write
      (some id, next)
  | .observe id txHash now =>
      (none, (state.markRequestObserved id txHash now).2)

def queueStep (state : AgentState) (op : QueueOp) : AgentState :=
  (op.perform state).2

/-- An operation that finds no entry to deduplicate against, with the write
and the key of the entry it appends. -/
inductive Appends (queue : List PendingSignatureRequest) :
    QueueOp → UnsignedWrite → Option String → Prop
  | plain {write : UnsignedWrite}
      (fresh : ∀ entry ∈ queue, entry.calldata ≠ write.calldata) :
      Appends queue (.enqueue write) write none
  | keyed {dedupKey : String} {write : UnsignedWrite}
      (fresh : ∀ entry ∈ queue,
        ¬(entry.intent = write.intent ∧ entry.dedupKey = some dedupKey)) :
      Appends queue (.enqueueSuperseding dedupKey write) write (some dedupKey)
  | recurring {write : UnsignedWrite}
      (fresh : ∀ entry ∈ queue, entry.calldata ≠ write.calldata) :
      Appends queue (.enqueueRecurring write) write none

/-- An operation that rewrites an entry in place. -/
inductive Rewrites : QueueOp → PendingSignatureRequest →
    PendingSignatureRequest → Prop
  | superseded {dedupKey : String} {write : UnsignedWrite}
      {old : PendingSignatureRequest} (intent : old.intent = write.intent)
      (keyed : old.dedupKey = some dedupKey) (pending : old.status = "pending") :
      Rewrites (.enqueueSuperseding dedupKey write) old
        { old with
          calldata := write.calldata
          valueWei := toString write.valueWei
          context := write.context
          expiresBlock := toString write.expiresBlock }
  | rearmed {write : UnsignedWrite} {old : PendingSignatureRequest}
      (calldata : old.calldata = write.calldata)
      (submitted : old.status = "submitted") :
      Rewrites (.enqueueRecurring write) old
        { old with status := "pending", txHash := none }
  | observed {txHash : String} {now : Nat} {old : PendingSignatureRequest} :
      Rewrites (.observe old.id txHash now) old
        { old with status := "submitted", txHash := some txHash }

/-- Everything an operation can do to the queue, with the id it returns. -/
inductive QueueEffect (state : AgentState) (op : QueueOp) :
    Option Nat → AgentState → Prop
  | kept {returned : Option Nat} {next : AgentState}
      (queue : next.pendingRequests = state.pendingRequests)
      (counter : next.nextRequestId = state.nextRequestId)
      (names : ∀ id, returned = some id →
        ∃ entry ∈ state.pendingRequests, entry.id = id) :
      QueueEffect state op returned next
  | rewritten {returned : Option Nat} {next : AgentState}
      {before after : List PendingSignatureRequest}
      {old new : PendingSignatureRequest} (rewrites : Rewrites op old new)
      (split : state.pendingRequests = before ++ old :: after)
      (queue : next.pendingRequests = before ++ new :: after)
      (counter : next.nextRequestId = state.nextRequestId)
      (names : ∀ id, returned = some id → old.id = id) :
      QueueEffect state op returned next
  | appended {write : UnsignedWrite} {dedupKey : Option String}
      (appends : Appends state.pendingRequests op write dedupKey) :
      QueueEffect state op (some state.nextRequestId)
        (state.pushPending write dedupKey).2

/-- An update that leaves the found entry as it is leaves the queue as it
is. -/
theorem replaceF_unchanged {p : PendingSignatureRequest → Bool}
    {rewrite : PendingSignatureRequest → PendingSignatureRequest}
    {queue : List PendingSignatureRequest} {old : PendingSignatureRequest}
    (found : queue.find? p = some old) (same : rewrite old = old) :
    queue.replaceF (fun entry => if p entry then some (rewrite entry) else none)
      = queue := by
  obtain ⟨before, after, split, replaced, -⟩ :=
    FirstMatch.replaceF_of_find? rewrite found
  rw [replaced, same, split]

theorem queueEffect_enqueue (state : AgentState) (op : QueueOp)
    (write : UnsignedWrite)
    (appends : (∀ entry ∈ state.pendingRequests,
      entry.calldata ≠ write.calldata) →
        Appends state.pendingRequests op write none) :
    QueueEffect state op (some (state.enqueueSignatureRequest write).1)
      (state.enqueueSignatureRequest write).2 := by
  unfold AgentState.enqueueSignatureRequest
  cases found : state.pendingRequests.find? (fun entry =>
      entry.calldata = write.calldata) with
  | some existing =>
      apply QueueEffect.kept rfl rfl
      intro id returned
      exact ⟨existing, List.mem_of_find?_eq_some found,
        Option.some.inj returned⟩
  | none =>
      apply QueueEffect.appended
      apply appends
      intro entry member
      simpa using List.find?_eq_none.mp found entry member

theorem queueEffect_superseding (state : AgentState) (dedupKey : String)
    (write : UnsignedWrite) :
    QueueEffect state (.enqueueSuperseding dedupKey write)
      (some (state.enqueueSupersedingSignatureRequest dedupKey write).1)
      (state.enqueueSupersedingSignatureRequest dedupKey write).2 := by
  unfold AgentState.enqueueSupersedingSignatureRequest
  simp only
  cases found : state.pendingRequests.find? (fun entry =>
      decide (entry.intent = write.intent ∧
        entry.dedupKey = some dedupKey)) with
  | some existing =>
      have sameKey : existing.intent = write.intent ∧
          existing.dedupKey = some dedupKey := by
        simpa using List.find?_some found
      by_cases pending : existing.status = "pending"
      · obtain ⟨before, after, split, replaced, -⟩ :=
          FirstMatch.replaceF_of_find? (AgentState.supersede write) found
        rw [AgentState.supersede, if_pos pending] at replaced
        exact .rewritten (.superseded sameKey.1 sameKey.2 pending) split
          replaced rfl (fun _ returned => Option.some.inj returned)
      · refine .kept (replaceF_unchanged found ?_) rfl ?_
        · rw [AgentState.supersede, if_neg pending]
        · intro id returned
          exact ⟨existing, List.mem_of_find?_eq_some found,
            Option.some.inj returned⟩
  | none =>
      apply QueueEffect.appended
      apply Appends.keyed
      intro entry member
      simpa using List.find?_eq_none.mp found entry member

theorem queueEffect_recurring (state : AgentState) (write : UnsignedWrite) :
    QueueEffect state (.enqueueRecurring write)
      (some (state.enqueueRecurringSignatureRequest write).1)
      (state.enqueueRecurringSignatureRequest write).2 := by
  unfold AgentState.enqueueRecurringSignatureRequest
  simp only
  cases found : state.pendingRequests.find? (fun entry =>
      decide (entry.calldata = write.calldata)) with
  | some existing =>
      have sameCalldata : existing.calldata = write.calldata := by
        simpa using List.find?_some found
      by_cases submitted : existing.status = "submitted"
      · obtain ⟨before, after, split, replaced, -⟩ :=
          FirstMatch.replaceF_of_find? AgentState.rearm found
        rw [AgentState.rearm, if_pos submitted] at replaced
        exact .rewritten (.rearmed sameCalldata submitted) split replaced rfl
          (fun _ returned => Option.some.inj returned)
      · refine .kept (replaceF_unchanged found ?_) rfl ?_
        · rw [AgentState.rearm, if_neg submitted]
        · intro id returned
          exact ⟨existing, List.mem_of_find?_eq_some found,
            Option.some.inj returned⟩
  | none => exact queueEffect_enqueue state _ write .recurring

theorem queueEffect_observe (state : AgentState) (id : Nat) (txHash : String)
    (now : Nat) :
    QueueEffect state (.observe id txHash now) none
      (state.markRequestObserved id txHash now).2 := by
  unfold AgentState.markRequestObserved
  cases found : state.pendingRequests.find? (fun entry =>
      decide (entry.id = id)) with
  | none => exact .kept rfl rfl (fun _ returned => nomatch returned)
  | some existing =>
      obtain rfl : existing.id = id := by simpa using List.find?_some found
      obtain ⟨before, after, split, replaced, -⟩ :=
        FirstMatch.replaceF_of_find? (AgentState.submit txHash) found
      simp only [decide_eq_true_eq] at replaced
      refine .rewritten .observed split ?_ ?_ (fun _ returned => nomatch returned)
      · simp only
        split
        · exact replaced
        · exact replaced
      · simp only
        split
        · rfl
        · rfl

/-- The inversion lemma of the queue: `QueueEffect` is all that can happen. -/
theorem queueEffect (state : AgentState) (op : QueueOp) :
    QueueEffect state op (op.perform state).1 (queueStep state op) := by
  cases op with
  | enqueue write => exact queueEffect_enqueue state _ write .plain
  | enqueueSuperseding dedupKey write =>
      exact queueEffect_superseding state dedupKey write
  | enqueueRecurring write => exact queueEffect_recurring state write
  | observe id txHash now => exact queueEffect_observe state id txHash now

theorem enqueue_fresh {state : AgentState} {write : UnsignedWrite}
    (fresh : ∀ entry ∈ state.pendingRequests, entry.calldata ≠ write.calldata) :
    queueStep state (.enqueue write) = (state.pushPending write none).2 := by
  have notFound : state.pendingRequests.find? (fun entry =>
      decide (entry.calldata = write.calldata)) = none := by
    rw [List.find?_eq_none]
    intro entry member
    simpa using fresh entry member
  simp [queueStep, QueueOp.perform, AgentState.enqueueSignatureRequest, notFound]

/-- A state that differs from this one in its queue, its counter and its
heartbeat at most. -/
def SameBesidesQueue (state next : AgentState) : Prop :=
  ∃ queue counter heartbeat, next =
    { state with
      pendingRequests := queue
      nextRequestId := counter
      lastHeartbeatUnix := heartbeat }

theorem pushPending_frame (state : AgentState) (write : UnsignedWrite)
    (dedupKey : Option String) :
    SameBesidesQueue state (state.pushPending write dedupKey).2 := by
  change SameBesidesQueue state (AgentState.evictIfOverCap _)
  unfold AgentState.evictIfOverCap
  split
  · exact ⟨_, _, _, rfl⟩
  · exact ⟨_, _, _, rfl⟩

/-- The queue operations leave everything else as it is. -/
theorem queueStep_frame (state : AgentState) (op : QueueOp) :
    SameBesidesQueue state (queueStep state op) := by
  have enqueue (write : UnsignedWrite) :
      SameBesidesQueue state (state.enqueueSignatureRequest write).2 := by
    unfold AgentState.enqueueSignatureRequest
    split
    · exact ⟨_, _, _, rfl⟩
    · exact pushPending_frame state write none
  cases op with
  | enqueue write => exact enqueue write
  | enqueueSuperseding dedupKey write =>
      simp only [queueStep, QueueOp.perform,
        AgentState.enqueueSupersedingSignatureRequest]
      split
      · exact ⟨_, _, _, rfl⟩
      · exact pushPending_frame state write (some dedupKey)
  | enqueueRecurring write =>
      simp only [queueStep, QueueOp.perform,
        AgentState.enqueueRecurringSignatureRequest]
      split
      · exact ⟨_, _, _, rfl⟩
      · exact enqueue write
  | observe id txHash now =>
      simp only [queueStep, QueueOp.perform, AgentState.markRequestObserved]
      split
      · exact ⟨_, _, _, rfl⟩
      · simp only
        split <;> exact ⟨_, _, _, rfl⟩

theorem queueStep_paused (state : AgentState) (op : QueueOp) :
    (queueStep state op).paused = state.paused := by
  obtain ⟨queue, counter, heartbeat, same⟩ := queueStep_frame state op
  rw [same]

theorem Rewrites.identity {op : QueueOp} {old new : PendingSignatureRequest}
    (rewrites : Rewrites op old new) :
    new.id = old.id ∧ new.intent = old.intent ∧
      new.dedupKey = old.dedupKey ∧ new.target = old.target ∧
      new.chainId = old.chainId := by
  cases rewrites <;> exact ⟨rfl, rfl, rfl, rfl, rfl⟩

theorem Rewrites.calldata {op : QueueOp} {old new : PendingSignatureRequest}
    (rewrites : Rewrites op old new) (plain : old.dedupKey = none) :
    new.calldata = old.calldata := by
  cases rewrites with
  | superseded intent keyed pending =>
      rw [plain] at keyed
      cases keyed
  | rearmed calldata submitted => rfl
  | observed => rfl

/-- The queue right before eviction. -/
def grown (state : AgentState) (write : UnsignedWrite)
    (dedupKey : Option String) : List PendingSignatureRequest :=
  state.pendingRequests ++
    [AgentState.pendingEntry state.nextRequestId write dedupKey]

/-- Whether an entry may be evicted. -/
def isSubmitted (entry : PendingSignatureRequest) : Bool :=
  entry.status = "submitted"

def isPending (entry : PendingSignatureRequest) : Bool :=
  entry.status = "pending"

theorem pushPending_queue (state : AgentState) (write : UnsignedWrite)
    (dedupKey : Option String) :
    (state.pushPending write dedupKey).2.pendingRequests =
      FirstMatch.dropFirst isSubmitted
        ((grown state write dedupKey).length - MAX_PENDING_REQUESTS)
        (grown state write dedupKey) := by
  change (AgentState.evictIfOverCap _).pendingRequests = _
  unfold AgentState.evictIfOverCap
  split
  · next fits =>
      have noOverflow :
          (grown state write dedupKey).length - MAX_PENDING_REQUESTS = 0 :=
        Nat.sub_eq_zero_of_le fits
      rw [noOverflow, FirstMatch.dropFirst_zero]
      rfl
  · rfl

@[simp] theorem pushPending_counter (state : AgentState)
    (write : UnsignedWrite) (dedupKey : Option String) :
    (state.pushPending write dedupKey).2.nextRequestId =
      state.nextRequestId + 1 := by
  change (AgentState.evictIfOverCap _).nextRequestId = _
  unfold AgentState.evictIfOverCap
  split <;> rfl

theorem pushPending_sublist (state : AgentState) (write : UnsignedWrite)
    (dedupKey : Option String) :
    (state.pushPending write dedupKey).2.pendingRequests.Sublist
      (grown state write dedupKey) := by
  rw [pushPending_queue]
  exact FirstMatch.dropFirst_sublist _ _ _

theorem pushPending_keeps_unsubmitted {state : AgentState}
    {write : UnsignedWrite} {dedupKey : Option String}
    {entry : PendingSignatureRequest}
    (member : entry ∈ grown state write dedupKey)
    (unsubmitted : entry.status ≠ "submitted") :
    entry ∈ (state.pushPending write dedupKey).2.pendingRequests := by
  rw [pushPending_queue]
  exact FirstMatch.mem_dropFirst_of_young member (by simp [isSubmitted, unsubmitted])

theorem mem_grown {state : AgentState} {write : UnsignedWrite}
    {dedupKey : Option String} {entry : PendingSignatureRequest} :
    entry ∈ grown state write dedupKey ↔
      entry ∈ state.pendingRequests ∨
        entry = AgentState.pendingEntry state.nextRequestId write dedupKey := by
  simp [grown]

theorem mem_pushPending {state : AgentState} {write : UnsignedWrite}
    {dedupKey : Option String} {entry : PendingSignatureRequest}
    (member : entry ∈ (state.pushPending write dedupKey).2.pendingRequests) :
    entry ∈ state.pendingRequests ∨
      entry = AgentState.pendingEntry state.nextRequestId write dedupKey :=
  mem_grown.mp ((pushPending_sublist state write dedupKey).subset member)

theorem pendingEntry_mem_pushPending (state : AgentState)
    (write : UnsignedWrite) (dedupKey : Option String) :
    AgentState.pendingEntry state.nextRequestId write dedupKey ∈
      (state.pushPending write dedupKey).2.pendingRequests := by
  apply pushPending_keeps_unsubmitted (mem_grown.mpr (Or.inr rfl))
  simp [AgentState.pendingEntry]

/-- Two entries that no enqueue would have kept apart: plain ones with the same
calldata, or keyed ones with the same intent and key. -/
def Collide (first second : PendingSignatureRequest) : Prop :=
  first.dedupKey = second.dedupKey ∧
    (first.dedupKey = none ∧ first.calldata = second.calldata ∨
      first.dedupKey ≠ none ∧ first.intent = second.intent)

/-- A status agrees with the transaction hash. -/
def StatusAgrees (entry : PendingSignatureRequest) : Prop :=
  entry.status = "pending" ∧ entry.txHash = none ∨
    entry.status = "submitted" ∧ entry.txHash.isSome

structure QueueInvariant (state : AgentState) : Prop where
  increasing : state.pendingRequests.Pairwise fun first second =>
    first.id < second.id
  below : ∀ entry ∈ state.pendingRequests, entry.id < state.nextRequestId
  status : ∀ entry ∈ state.pendingRequests, StatusAgrees entry
  distinct : state.pendingRequests.Pairwise fun first second =>
    ¬Collide first second

theorem queueInvariant_new : QueueInvariant AgentState.new where
  increasing := List.Pairwise.nil
  below := by simp [AgentState.new]
  status := by simp [AgentState.new]
  distinct := List.Pairwise.nil

theorem QueueInvariant.congr {state next : AgentState}
    (invariant : QueueInvariant state)
    (queue : next.pendingRequests = state.pendingRequests)
    (counter : next.nextRequestId = state.nextRequestId) :
    QueueInvariant next := by
  obtain ⟨increasing, below, status, distinct⟩ := invariant
  rw [← queue] at increasing below status distinct
  rw [← counter] at below
  exact ⟨increasing, below, status, distinct⟩

theorem StatusAgrees.unsubmitted_iff {entry : PendingSignatureRequest}
    (agrees : StatusAgrees entry) :
    entry.status ≠ "submitted" ↔ entry.status = "pending" := by
  rcases agrees with ⟨pending, -⟩ | ⟨submitted, -⟩
  · simp [pending]
  · simp [submitted]

theorem Appends.distinct {queue : List PendingSignatureRequest} {op : QueueOp}
    {write : UnsignedWrite} {dedupKey : Option String}
    (appends : Appends queue op write dedupKey)
    {entry : PendingSignatureRequest} (member : entry ∈ queue) (id : Nat) :
    ¬Collide entry (AgentState.pendingEntry id write dedupKey) := by
  rintro ⟨sameKey, ⟨plain, sameCalldata⟩ | ⟨keyed, sameIntent⟩⟩
  · cases appends with
    | plain fresh => exact fresh entry member sameCalldata
    | keyed fresh => simp [plain, AgentState.pendingEntry] at sameKey
    | recurring fresh => exact fresh entry member sameCalldata
  · cases appends with
    | plain fresh => exact keyed sameKey
    | keyed fresh => exact fresh entry member ⟨sameIntent, sameKey⟩
    | recurring fresh => exact keyed sameKey

theorem Rewrites.collide {op : QueueOp} {old new : PendingSignatureRequest}
    (rewrites : Rewrites op old new) (other : PendingSignatureRequest) :
    (Collide other new ↔ Collide other old) ∧
      (Collide new other ↔ Collide old other) := by
  obtain ⟨-, sameIntent, sameKey, -, -⟩ := rewrites.identity
  unfold Collide
  rw [sameIntent, sameKey]
  cases key : old.dedupKey with
  | none =>
      rw [rewrites.calldata key]
      exact ⟨Iff.rfl, Iff.rfl⟩
  | some dedupKey =>
      simp only [reduceCtorEq, false_and, not_false_eq_true, true_and,
        false_or, ne_eq, and_true, and_congr_right_iff]
      intro sameKeyed
      simp [sameKeyed]

theorem Rewrites.statusAgrees {op : QueueOp} {old new : PendingSignatureRequest}
    (rewrites : Rewrites op old new) (agrees : StatusAgrees old) :
    StatusAgrees new := by
  cases rewrites with
  | superseded intent keyed pending => exact agrees
  | rearmed calldata submitted => exact Or.inl ⟨rfl, rfl⟩
  | observed => exact Or.inr ⟨rfl, rfl⟩

theorem queueInvariant_rewritten {state next : AgentState} {op : QueueOp}
    {before after : List PendingSignatureRequest}
    {old new : PendingSignatureRequest} (rewrites : Rewrites op old new)
    (split : state.pendingRequests = before ++ old :: after)
    (queue : next.pendingRequests = before ++ new :: after)
    (counter : next.nextRequestId = state.nextRequestId)
    (invariant : QueueInvariant state) : QueueInvariant next := by
  obtain ⟨sameId, -⟩ := rewrites.identity
  have oldMember : old ∈ state.pendingRequests := by simp [split]
  have members {entry} (member : entry ∈ next.pendingRequests) :
      entry ∈ state.pendingRequests ∨ entry = new := by
    rw [queue] at member
    rw [split]
    simp only [List.mem_append, List.mem_cons] at member ⊢
    tauto
  refine ⟨?_, ?_, ?_, ?_⟩
  · rw [queue]
    have increasing := invariant.increasing
    rw [split] at increasing
    refine FirstMatch.pairwise_swap ?_ ?_ increasing
    · intro other less
      rwa [sameId]
    · intro other less
      rwa [sameId]
  · intro entry member
    rw [counter]
    rcases members member with kept | rfl
    · exact invariant.below entry kept
    · rw [sameId]
      exact invariant.below old oldMember
  · intro entry member
    rcases members member with kept | rfl
    · exact invariant.status entry kept
    · exact rewrites.statusAgrees (invariant.status old oldMember)
  · rw [queue]
    have distinct := invariant.distinct
    rw [split] at distinct
    refine FirstMatch.pairwise_swap ?_ ?_ distinct
    · intro other apart
      rwa [(rewrites.collide other).1]
    · intro other apart
      rwa [(rewrites.collide other).2]

theorem queueInvariant_appended {state : AgentState} {op : QueueOp}
    {write : UnsignedWrite} {dedupKey : Option String}
    (appends : Appends state.pendingRequests op write dedupKey)
    (invariant : QueueInvariant state) :
    QueueInvariant (state.pushPending write dedupKey).2 := by
  have sublist := pushPending_sublist state write dedupKey
  refine ⟨List.Pairwise.sublist sublist ?_, ?_, ?_,
    List.Pairwise.sublist sublist ?_⟩
  · refine List.pairwise_append.mpr
      ⟨invariant.increasing, List.pairwise_singleton _ _, ?_⟩
    intro entry member appended isAppended
    obtain rfl := List.mem_singleton.mp isAppended
    exact invariant.below entry member
  · intro entry member
    rw [pushPending_counter]
    rcases mem_pushPending member with kept | rfl
    · exact Nat.lt_succ_of_lt (invariant.below entry kept)
    · exact Nat.lt_succ_self state.nextRequestId
  · intro entry member
    rcases mem_pushPending member with kept | rfl
    · exact invariant.status entry kept
    · exact Or.inl ⟨rfl, rfl⟩
  · refine List.pairwise_append.mpr
      ⟨invariant.distinct, List.pairwise_singleton _ _, ?_⟩
    intro entry member appended isAppended
    obtain rfl := List.mem_singleton.mp isAppended
    exact appends.distinct member state.nextRequestId

theorem queueInvariant_step (state : AgentState) (op : QueueOp)
    (invariant : QueueInvariant state) : QueueInvariant (queueStep state op) := by
  have effect := queueEffect state op
  generalize queueStep state op = next at effect
  generalize (op.perform state).1 = returned at effect
  cases effect with
  | kept queue counter names => exact invariant.congr queue counter
  | rewritten rewrites split queue counter names =>
      exact queueInvariant_rewritten rewrites split queue counter invariant
  | appended appends => exact queueInvariant_appended appends invariant

theorem queueInvariant_run (schedule : List QueueOp) :
    QueueInvariant (Runs.run queueStep AgentState.new schedule) :=
  Runs.invariant_run_always queueInvariant_step schedule queueInvariant_new

theorem Collide.symm {first second : PendingSignatureRequest}
    (collide : Collide first second) : Collide second first := by
  obtain ⟨sameKey, plain | keyed⟩ := collide
  · exact ⟨sameKey.symm, Or.inl ⟨sameKey ▸ plain.1, plain.2.symm⟩⟩
  · exact ⟨sameKey.symm, Or.inr ⟨sameKey ▸ keyed.1, keyed.2.symm⟩⟩

theorem QueueInvariant.eq_of_collide {state : AgentState}
    (invariant : QueueInvariant state) {first second : PendingSignatureRequest}
    (firstMember : first ∈ state.pendingRequests)
    (secondMember : second ∈ state.pendingRequests)
    (collide : Collide first second) : first = second := by
  by_contra different
  have symmetric : Std.Symm fun first second => ¬Collide first second :=
    ⟨fun _ _ apart collide => apart collide.symm⟩
  exact invariant.distinct.forall firstMember secondMember different collide

theorem QueueInvariant.eq_of_id {state : AgentState}
    (invariant : QueueInvariant state) {first second : PendingSignatureRequest}
    (firstMember : first ∈ state.pendingRequests)
    (secondMember : second ∈ state.pendingRequests)
    (sameId : first.id = second.id) : first = second := by
  by_contra different
  have apart : state.pendingRequests.Pairwise fun first second =>
      first.id ≠ second.id := invariant.increasing.imp Nat.ne_of_lt
  have symmetric : Std.Symm fun first second : PendingSignatureRequest =>
      first.id ≠ second.id := ⟨fun _ _ => Ne.symm⟩
  exact apart.forall firstMember secondMember different sameId

/-- The entries with this calldata are plain ones of this intent. -/
def Dedicated (calldata intent : String) (state : AgentState) : Prop :=
  ∀ entry ∈ state.pendingRequests, entry.calldata = calldata →
    entry.intent = intent ∧ entry.dedupKey = none

/-- The calldata stays dedicated when an operation appends it as a plain write
of the intent only, and rewrites no entry to it. -/
theorem dedicated_step {calldata intent : String} {state : AgentState}
    {op : QueueOp} (dedicated : Dedicated calldata intent state)
    (appended : ∀ {write dedupKey},
      Appends state.pendingRequests op write dedupKey →
        write.calldata = calldata →
          write.intent = intent ∧ dedupKey = none)
    (rewritten : ∀ {old new}, Rewrites op old new →
      new.calldata = calldata → new.calldata = old.calldata) :
    Dedicated calldata intent (queueStep state op) := by
  have effect := queueEffect state op
  generalize queueStep state op = next at effect ⊢
  generalize (op.perform state).1 = returned at effect
  intro entry member carries
  cases effect with
  | kept queue counter names =>
      rw [queue] at member
      exact dedicated entry member carries
  | @rewritten _ _ before after old new rewrites split queue counter names =>
      rw [queue] at member
      have oldMember : old ∈ state.pendingRequests := by simp [split]
      by_cases isNew : entry = new
      · subst isNew
        have sameCalldata := rewritten rewrites carries
        obtain ⟨-, sameIntent, sameKey, -⟩ := rewrites.identity
        rw [sameIntent, sameKey]
        exact dedicated old oldMember (sameCalldata ▸ carries)
      · apply dedicated entry _ carries
        rw [split]
        simp only [List.mem_append, List.mem_cons] at member ⊢
        tauto
  | @appended write dedupKey appends =>
      rcases mem_pushPending member with kept | rfl
      · exact dedicated entry kept carries
      · exact appended appends carries

theorem Dedicated.unique {calldata intent : String} {state : AgentState}
    (dedicated : Dedicated calldata intent state)
    (invariant : QueueInvariant state) {first second : PendingSignatureRequest}
    (firstMember : first ∈ state.pendingRequests)
    (secondMember : second ∈ state.pendingRequests)
    (firstCarries : first.calldata = calldata)
    (secondCarries : second.calldata = calldata) : first = second := by
  apply invariant.eq_of_collide firstMember secondMember
  have firstPlain := (dedicated first firstMember firstCarries).2
  have secondPlain := (dedicated second secondMember secondCarries).2
  exact ⟨firstPlain.trans secondPlain.symm,
    Or.inl ⟨firstPlain, firstCarries.trans secondCarries.symm⟩⟩

/-- What eviction leaves of a queue `before` in which one entry was appended:
within the cap unless everything is pending, nothing but the oldest submitted
entries gone, and the order kept. -/
structure EvictsOldest (before after : List PendingSignatureRequest) : Prop
    where
  bounded : after.length ≤
    max MAX_PENDING_REQUESTS (after.countP isPending)
  ordered : after.Sublist before
  unsubmitted : after.filter (fun entry => !isSubmitted entry) =
    before.filter fun entry => !isSubmitted entry
  oldest : after.filter isSubmitted =
    (before.filter isSubmitted).drop (before.length - after.length)

/-- What one operation respects in a given state.  An enqueue appends exactly
when it takes a fresh id. -/
structure QueueStepLaw (state : AgentState) (op : QueueOp) : Prop where
  names : ∀ id, (op.perform state).1 = some id →
    ∃ entry ∈ (queueStep state op).pendingRequests, entry.id = id
  pendingKept : ∀ entry ∈ state.pendingRequests, entry.status = "pending" →
    ∃ later ∈ (queueStep state op).pendingRequests, later.id = entry.id ∧
      (later.status = "pending" ∨
        ∃ txHash now, op = .observe entry.id txHash now)
  evicts : (queueStep state op).nextRequestId ≠ state.nextRequestId →
    ∃ appended : PendingSignatureRequest,
      appended.id = state.nextRequestId ∧ appended.status = "pending" ∧
      EvictsOldest (state.pendingRequests ++ [appended])
        (queueStep state op).pendingRequests

theorem length_eq_countP_add {queue : List PendingSignatureRequest}
    (agree : ∀ entry ∈ queue, StatusAgrees entry) :
    queue.length = queue.countP isSubmitted + queue.countP isPending := by
  rw [List.length_eq_countP_add_countP isSubmitted]
  congr 1
  apply List.countP_congr
  intro entry member
  simp only [isSubmitted, isPending, decide_eq_true_eq]
  simpa using (agree entry member).unsubmitted_iff

theorem evictsOldest_pushPending {state : AgentState}
    (invariant : QueueInvariant state) (write : UnsignedWrite)
    (dedupKey : Option String) :
    EvictsOldest (grown state write dedupKey)
      (state.pushPending write dedupKey).2.pendingRequests := by
  have agree : ∀ entry ∈ grown state write dedupKey, StatusAgrees entry := by
    intro entry member
    rcases mem_grown.mp member with kept | rfl
    · exact invariant.status entry kept
    · exact Or.inl ⟨rfl, rfl⟩
  have sublist := pushPending_sublist state write dedupKey
  have agreeAfter := fun entry member => agree entry (sublist.subset member)
  rw [pushPending_queue] at agreeAfter ⊢
  generalize grown state write dedupKey = before at agree agreeAfter ⊢
  have split := length_eq_countP_add agree
  have splitAfter := length_eq_countP_add agreeAfter
  have shorter := FirstMatch.length_dropFirst isSubmitted
    (before.length - MAX_PENDING_REQUESTS) before
  have submittedAfter := congrArg List.length
    (FirstMatch.filter_dropFirst isSubmitted
      (before.length - MAX_PENDING_REQUESTS) before)
  rw [List.length_drop, ← List.countP_eq_length_filter,
    ← List.countP_eq_length_filter] at submittedAfter
  refine ⟨?_, FirstMatch.dropFirst_sublist _ _ _,
    FirstMatch.filter_not_dropFirst _ _ _, ?_⟩
  · rw [le_max_iff]
    omega
  · rw [FirstMatch.filter_dropFirst, shorter]
    by_cases enough : before.length - MAX_PENDING_REQUESTS ≤
        before.countP isSubmitted
    · have removed : before.length - (before.length -
          min (before.length - MAX_PENDING_REQUESTS)
            (before.countP isSubmitted)) =
          before.length - MAX_PENDING_REQUESTS := by omega
      rw [removed]
    · rw [List.drop_eq_nil_of_le, List.drop_eq_nil_of_le]
      · rw [← List.countP_eq_length_filter]
        omega
      · rw [← List.countP_eq_length_filter]
        omega

theorem queueStepLaw {state : AgentState} (invariant : QueueInvariant state)
    (op : QueueOp) : QueueStepLaw state op := by
  have effect := queueEffect state op
  generalize after : queueStep state op = next at effect
  generalize result : (op.perform state).1 = returned at effect
  refine ⟨?_, ?_, ?_⟩
  · rw [after, result]
    intro id isReturned
    cases effect with
    | kept queue counter names =>
        rw [queue]
        exact names id isReturned
    | @rewritten _ _ before tail old new rewrites split queue counter names =>
        refine ⟨new, by simp [queue], ?_⟩
        rw [rewrites.identity.1]
        exact names id isReturned
    | appended appends =>
        obtain rfl := Option.some.inj isReturned
        exact ⟨_, pendingEntry_mem_pushPending state _ _, rfl⟩
  · rw [after]
    intro entry member pending
    cases effect with
    | kept queue counter names =>
        rw [queue]
        exact ⟨entry, member, rfl, Or.inl pending⟩
    | @rewritten _ _ before tail old new rewrites split queue counter names =>
        rw [split] at member
        rw [queue]
        by_cases isOld : entry = old
        · subst isOld
          refine ⟨new, by simp, rewrites.identity.1, ?_⟩
          cases rewrites with
          | superseded intent keyed stillPending => exact Or.inl stillPending
          | rearmed calldata submitted => exact Or.inl rfl
          | @observed txHash now => exact Or.inr ⟨txHash, now, rfl⟩
        · refine ⟨entry, ?_, rfl, Or.inl pending⟩
          simp only [List.mem_append, List.mem_cons] at member ⊢
          tauto
    | appended appends =>
        refine ⟨entry, ?_, rfl, Or.inl pending⟩
        apply pushPending_keeps_unsubmitted (mem_grown.mpr (Or.inl member))
        simp [pending]
  · rw [after]
    intro fresh
    cases effect with
    | kept queue counter names => exact absurd counter fresh
    | rewritten rewrites split queue counter names => exact absurd counter fresh
    | appended appends =>
        exact ⟨_, rfl, rfl, evictsOldest_pushPending invariant _ _⟩

/-- The signing queue's representation invariant holds in every reachable
state, and every further operation respects the queue laws there. -/
theorem signingQueue_wellFormed (schedule : List QueueOp) :
    let state := Runs.run queueStep AgentState.new schedule
    QueueInvariant state ∧ ∀ op, QueueStepLaw state op :=
  have invariant := queueInvariant_run schedule
  ⟨invariant, queueStepLaw invariant⟩

end NodeAgent.Supervision
