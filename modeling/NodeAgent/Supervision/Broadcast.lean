import Mathlib.Data.List.Range
import Std.Data.String.ToNat
import NodeAgent.Supervision.Queue

/-!
# Broadcast writes and the bounded queue

A submitted entry stays in the queue so that a re-emitted write is
deduplicated against it.  Retention is bounded: an append that takes the queue
over its cap evicts the oldest submitted entries, and from then on the same
write is queued again.
-/

namespace NodeAgent.Supervision

/-- The submitted `entry` is still in the queue, at most with a later
transaction hash. -/
def Retained (entry : PendingSignatureRequest) (state : AgentState) : Prop :=
  ∃ kept ∈ state.pendingRequests, kept.id = entry.id ∧
    kept.intent = entry.intent ∧ kept.dedupKey = entry.dedupKey ∧
    kept.calldata = entry.calldata ∧ kept.status = "submitted"

/-- No entry has this id any more, and none will: the id is spent. -/
def Gone (id : Nat) (state : AgentState) : Prop :=
  id < state.nextRequestId ∧ ∀ entry ∈ state.pendingRequests, entry.id ≠ id

/-- The operation appends to a full queue, and the entry with this id is
evicted for it. -/
structure EvictedBy (id : Nat) (state : AgentState) (op : QueueOp) : Prop where
  full : MAX_PENDING_REQUESTS ≤ state.pendingRequests.length
  appends : (queueStep state op).nextRequestId ≠ state.nextRequestId
  gone : Gone id (queueStep state op)

/-- No recurring enqueue in the schedule carries this calldata. -/
def NotRecurring (calldata : String) (schedule : List QueueOp) : Prop :=
  ∀ write, .enqueueRecurring write ∈ schedule → write.calldata ≠ calldata

theorem gone_step {id : Nat} {state : AgentState} (gone : Gone id state)
    (op : QueueOp) : Gone id (queueStep state op) := by
  have effect := queueEffect state op
  generalize queueStep state op = next at effect
  generalize (op.perform state).1 = returned at effect
  cases effect with
  | kept queue counter names =>
      unfold Gone
      rw [counter, queue]
      exact gone
  | rewritten rewrites split queue counter names =>
      refine ⟨counter ▸ gone.1, ?_⟩
      intro entry member
      have others := gone.2
      rw [queue] at member
      rw [split] at others
      simp only [List.mem_append, List.mem_cons] at member others
      rcases member with earlier | rfl | later
      · exact others entry (Or.inl earlier)
      · rw [rewrites.identity.1]
        exact others _ (Or.inr (Or.inl rfl))
      · exact others entry (Or.inr (Or.inr later))
  | appended appends =>
      refine ⟨by rw [pushPending_counter]; exact Nat.lt_succ_of_lt gone.1, ?_⟩
      intro entry member
      rcases mem_pushPending member with kept | rfl
      · exact gone.2 entry kept
      · exact Nat.ne_of_gt gone.1

theorem gone_run {id : Nat} {state : AgentState} (gone : Gone id state)
    (schedule : List QueueOp) :
    Gone id (Runs.run queueStep state schedule) := by
  have preserved : ∀ state op, Gone id state → Gone id (queueStep state op) :=
    fun _ op gone => gone_step gone op
  exact Runs.invariant_run_always preserved schedule gone

theorem pushPending_keeps_all {state : AgentState} {write : UnsignedWrite}
    {dedupKey : Option String}
    (room : state.pendingRequests.length < MAX_PENDING_REQUESTS) :
    (state.pushPending write dedupKey).2.pendingRequests =
      grown state write dedupKey := by
  have noOverflow :
      (grown state write dedupKey).length - MAX_PENDING_REQUESTS = 0 := by
    simp only [grown, List.length_append, List.length_singleton]
    omega
  rw [pushPending_queue, noOverflow, FirstMatch.dropFirst_zero]

theorem retained_appended {entry : PendingSignatureRequest} {state : AgentState}
    (invariant : QueueInvariant state) (write : UnsignedWrite)
    (dedupKey : Option String) (retained : Retained entry state) :
    Retained entry (state.pushPending write dedupKey).2 ∨
      MAX_PENDING_REQUESTS ≤ state.pendingRequests.length ∧
        Gone entry.id (state.pushPending write dedupKey).2 := by
  obtain ⟨kept, member, sameId, same⟩ := retained
  by_cases survives :
      kept ∈ (state.pushPending write dedupKey).2.pendingRequests
  · exact Or.inl ⟨kept, survives, sameId, same⟩
  · right
    have below := invariant.below kept member
    constructor
    · by_contra room
      apply survives
      rw [pushPending_keeps_all (not_le.mp room)]
      exact mem_grown.mpr (Or.inl member)
    · rw [← sameId]
      refine ⟨by rw [pushPending_counter]; exact Nat.lt_succ_of_lt below, ?_⟩
      intro other otherMember otherId
      rcases mem_pushPending otherMember with old | rfl
      · exact survives (invariant.eq_of_id old member otherId ▸ otherMember)
      · exact absurd otherId (Nat.ne_of_gt below)

theorem retained_step {entry : PendingSignatureRequest} {state : AgentState}
    (invariant : QueueInvariant state) {op : QueueOp}
    (notRecurring : NotRecurring entry.calldata [op])
    (retained : Retained entry state) :
    Retained entry (queueStep state op) ∨ EvictedBy entry.id state op := by
  have effect := queueEffect state op
  generalize after : queueStep state op = next at effect
  generalize (op.perform state).1 = returned at effect
  cases effect with
  | kept queue counter names =>
      left
      unfold Retained
      rw [queue]
      exact retained
  | @rewritten _ _ before tail old new rewrites split queue counter names =>
      left
      obtain ⟨kept, member, sameId, sameIntent, sameKey, sameCalldata,
        submitted⟩ := retained
      unfold Retained
      rw [queue]
      rw [split] at member
      by_cases isOld : kept = old
      · subst isOld
        cases rewrites with
        | superseded intent keyed pending =>
            rw [submitted] at pending
            simp at pending
        | @rearmed write _ calldata _ =>
            exact absurd (calldata.symm.trans sameCalldata)
              (notRecurring write List.mem_cons_self)
        | observed =>
            exact ⟨_, List.mem_append_right _ List.mem_cons_self, sameId,
              sameIntent, sameKey, sameCalldata, rfl⟩
      · refine ⟨kept, ?_, sameId, sameIntent, sameKey, sameCalldata, submitted⟩
        simp only [List.mem_append, List.mem_cons] at member ⊢
        tauto
  | appended appends =>
      rcases retained_appended invariant _ _ retained with kept | evicted
      · exact Or.inl kept
      · right
        refine ⟨evicted.1, ?_, ?_⟩
        · rw [after, pushPending_counter]
          exact Nat.succ_ne_self _
        · rw [after]
          exact evicted.2

/-- Over a run, a submitted entry is retained, or some append to a full queue
has evicted it for good. -/
theorem retained_run {entry : PendingSignatureRequest} {state : AgentState}
    (invariant : QueueInvariant state) {schedule : List QueueOp}
    (notRecurring : NotRecurring entry.calldata schedule)
    (retained : Retained entry state) :
    Retained entry (Runs.run queueStep state schedule) ∨
      Gone entry.id (Runs.run queueStep state schedule) ∧
        ∃ before op after, schedule = before ++ op :: after ∧
          EvictedBy entry.id (Runs.run queueStep state before) op := by
  induction schedule generalizing state with
  | nil => exact Or.inl retained
  | cons op rest ih =>
      have first : NotRecurring entry.calldata [op] := by
        intro write member
        obtain rfl := List.mem_singleton.mp member
        exact notRecurring write List.mem_cons_self
      have later : NotRecurring entry.calldata rest :=
        fun write member => notRecurring write (List.mem_cons_of_mem _ member)
      rcases retained_step invariant first retained with kept | evicted
      · rcases ih (queueInvariant_step state op invariant) later kept with
          stillKept | ⟨gone, before, next, after, split, evicted⟩
        · exact Or.inl stillKept
        · refine Or.inr ⟨gone, op :: before, next, after, ?_, evicted⟩
          rw [split]
          rfl
      · exact Or.inr ⟨gone_run evicted.gone rest, [], op, rest, rfl, evicted⟩

/-- A broadcast one-shot write is not offered for signing again as long as its
submitted entry is retained, and only an append to a full queue ends that. -/
theorem broadcastWrite_notOfferedAgain (history schedule : List QueueOp)
    {entry : PendingSignatureRequest}
    (member : entry ∈
      (Runs.run queueStep AgentState.new history).pendingRequests)
    (submitted : entry.status = "submitted")
    (notRecurring : NotRecurring entry.calldata schedule) :
    let later := Runs.run queueStep AgentState.new (history ++ schedule)
    ((∃ kept ∈ later.pendingRequests, kept.id = entry.id) →
        ∀ other ∈ later.pendingRequests, Collide entry other →
          other.status ≠ "pending") ∧
      ((∀ kept ∈ later.pendingRequests, kept.id ≠ entry.id) →
        ∃ before op after, schedule = before ++ op :: after ∧
          EvictedBy entry.id
            (Runs.run queueStep AgentState.new (history ++ before)) op) := by
  simp only [Runs.run_append]
  have invariant := queueInvariant_run history
  have start : Retained entry (Runs.run queueStep AgentState.new history) :=
    ⟨entry, member, rfl, rfl, rfl, rfl, submitted⟩
  have invariantLater := Runs.invariant_run_always queueInvariant_step schedule
    invariant
  rcases retained_run invariant notRecurring start with
    ⟨kept, keptMember, sameId, sameIntent, sameKey, sameCalldata, stays⟩ |
      ⟨gone, evicted⟩
  · constructor
    · intro _ other otherMember collide
      have same : Collide kept other := by
        unfold Collide at collide ⊢
        rwa [sameKey, sameIntent, sameCalldata]
      obtain rfl := invariantLater.eq_of_collide keptMember otherMember same
      rw [stays]
      decide
    · intro absent
      exact absurd sameId (absent kept keptMember)
  · constructor
    · intro still
      obtain ⟨kept, keptMember, sameId⟩ := still
      exact absurd sameId (gone.2 kept keptMember)
    · intro _
      exact evicted

/-- A plain write number `number`; distinct numbers have distinct calldata. -/
def numberedWrite (number : Nat) : UnsignedWrite where
  intent := "startExecution"
  target := "0x11"
  calldata := toString number
  valueWei := 0
  chainId := 40204
  context := "startExecution job 7"
  expiresBlock := 200

theorem numberedWrite_calldata_inj {first second : Nat}
    (same : (numberedWrite first).calldata = (numberedWrite second).calldata) :
    first = second :=
  Nat.repr_inj.mp same

theorem run_numbered {count : Nat} (room : count ≤ MAX_PENDING_REQUESTS) :
    let state := Runs.run queueStep AgentState.new
      ((List.range count).map fun number => .enqueue (numberedWrite number))
    state.nextRequestId = count ∧
      state.pendingRequests = (List.range count).map fun number =>
        AgentState.pendingEntry number (numberedWrite number) none := by
  induction count with
  | zero => exact ⟨rfl, rfl⟩
  | succ count ih =>
      obtain ⟨counter, queue⟩ := ih (Nat.le_of_succ_le room)
      simp only [List.range_succ, List.map_append, List.map_singleton,
        Runs.run_append, Runs.run_cons, Runs.run_nil]
      generalize Runs.run queueStep AgentState.new _ = state at counter queue ⊢
      have fresh : ∀ entry ∈ state.pendingRequests,
          entry.calldata ≠ (numberedWrite count).calldata := by
        intro entry member
        rw [queue] at member
        obtain ⟨number, inRange, rfl⟩ := List.mem_map.mp member
        intro same
        have equal := numberedWrite_calldata_inj same
        exact absurd equal (Nat.ne_of_lt (List.mem_range.mp inRange))
      rw [enqueue_fresh fresh, pushPending_counter, counter]
      refine ⟨rfl, ?_⟩
      rw [pushPending_keeps_all, grown, queue, counter]
      rw [queue, List.length_map, List.length_range]
      exact room

/-- Fill the queue, then report its first entry broadcast. -/
def fillThenObserve : List QueueOp :=
  (List.range MAX_PENDING_REQUESTS).map
      (fun number => .enqueue (numberedWrite number)) ++
    [.observe 0 "0xfeed" 0]

/-- One more write, then the first one again. -/
def oneMoreThenReemit : List QueueOp :=
  [.enqueue (numberedWrite MAX_PENDING_REQUESTS), .enqueue (numberedWrite 0)]

/-- The first entry as it is after `fillThenObserve`. -/
def observedEntry : PendingSignatureRequest :=
  AgentState.submit "0xfeed" (AgentState.pendingEntry 0 (numberedWrite 0) none)

/-- A write re-emitted right after its broadcast is not offered again. -/
theorem broadcastWrite_notOfferedAgain_reemit :
    let later := Runs.run queueStep AgentState.new
      [.enqueue (numberedWrite 0), .observe 0 "0xfeed" 0,
        .enqueue (numberedWrite 0)]
    ((∃ kept ∈ later.pendingRequests, kept.id = observedEntry.id) →
        ∀ other ∈ later.pendingRequests, Collide observedEntry other →
          other.status ≠ "pending") ∧
      ((∀ kept ∈ later.pendingRequests, kept.id ≠ observedEntry.id) →
        ∃ before op after,
          [QueueOp.enqueue (numberedWrite 0)] = before ++ op :: after ∧
            EvictedBy observedEntry.id
              (Runs.run queueStep AgentState.new
                ([.enqueue (numberedWrite 0), .observe 0 "0xfeed" 0] ++ before))
              op) := by
  apply broadcastWrite_notOfferedAgain
    [.enqueue (numberedWrite 0), .observe 0 "0xfeed" 0]
    [.enqueue (numberedWrite 0)] (by decide) (by decide)
  intro write member
  simp at member

theorem run_observeFirst {state : AgentState}
    (queue : state.pendingRequests =
      (List.range MAX_PENDING_REQUESTS).map fun number =>
        AgentState.pendingEntry number (numberedWrite number) none) :
    (Runs.run queueStep state [.observe 0 "0xfeed" 0]).pendingRequests =
      observedEntry :: (List.range 255).map fun number =>
        AgentState.pendingEntry (number + 1) (numberedWrite (number + 1))
          none := by
  rw [show MAX_PENDING_REQUESTS = 255 + 1 from rfl, List.range_succ_eq_map,
    List.map_cons, List.map_map] at queue
  simp only [Runs.run_cons, Runs.run_nil, queueStep, QueueOp.perform,
    AgentState.markRequestObserved, queue]
  rw [List.find?_cons_of_pos (by simp [AgentState.pendingEntry])]
  simp only
  split
  · rfl
  · rfl

theorem run_fillThenObserve :
    (Runs.run queueStep AgentState.new fillThenObserve).pendingRequests =
      observedEntry :: (List.range 255).map fun number =>
        AgentState.pendingEntry (number + 1) (numberedWrite (number + 1))
          none := by
  rw [fillThenObserve, Runs.run_append]
  exact run_observeFirst (run_numbered (le_refl MAX_PENDING_REQUESTS)).2

/-- The write of the evicted entry is pending again. -/
theorem run_oneMoreThenReemit {state : AgentState}
    (queue : state.pendingRequests =
      observedEntry :: (List.range 255).map fun number =>
        AgentState.pendingEntry (number + 1) (numberedWrite (number + 1))
          none) :
    ∃ entry ∈
      (Runs.run queueStep state oneMoreThenReemit).pendingRequests,
      Collide observedEntry entry ∧ entry.status = "pending" := by
  have freshExtra : ∀ entry ∈ state.pendingRequests,
      entry.calldata ≠ (numberedWrite MAX_PENDING_REQUESTS).calldata := by
    intro entry member
    rw [queue] at member
    rcases List.mem_cons.mp member with rfl | later
    · intro same
      exact absurd (numberedWrite_calldata_inj same) (by decide)
    · obtain ⟨number, inRange, rfl⟩ := List.mem_map.mp later
      intro same
      have equal : number + 1 = 256 := numberedWrite_calldata_inj same
      have bounded := List.mem_range.mp inRange
      omega
  simp only [oneMoreThenReemit, Runs.run_cons, Runs.run_nil]
  rw [enqueue_fresh freshExtra]
  have evicted : ∀ entry ∈ (state.pushPending
      (numberedWrite MAX_PENDING_REQUESTS) none).2.pendingRequests,
      entry.calldata ≠ (numberedWrite 0).calldata := by
    intro entry member
    rw [pushPending_queue, grown, queue] at member
    have overflow : (observedEntry :: (List.range 255).map (fun number =>
        AgentState.pendingEntry (number + 1) (numberedWrite (number + 1)) none)
        ++ [AgentState.pendingEntry state.nextRequestId
          (numberedWrite MAX_PENDING_REQUESTS) none]).length -
        MAX_PENDING_REQUESTS = 0 + 1 := by
      simp [MAX_PENDING_REQUESTS]
    rw [overflow, List.cons_append,
      FirstMatch.dropFirst_cons_old (by decide), FirstMatch.dropFirst_zero,
      List.mem_append] at member
    intro same
    rcases member with later | appended
    · obtain ⟨number, -, rfl⟩ := List.mem_map.mp later
      exact absurd (numberedWrite_calldata_inj same) (Nat.succ_ne_zero number)
    · obtain rfl := List.mem_singleton.mp appended
      exact absurd (numberedWrite_calldata_inj same) (by decide)
  rw [enqueue_fresh evicted]
  exact ⟨_, pendingEntry_mem_pushPending _ _ _,
    ⟨rfl, Or.inl ⟨rfl, rfl⟩⟩, rfl⟩

/-- A broadcast write is never offered again, in any run of the queue. -/
def BroadcastOnce : Prop :=
  ∀ (history schedule : List QueueOp) (entry : PendingSignatureRequest),
    entry ∈ (Runs.run queueStep AgentState.new history).pendingRequests →
      entry.status = "submitted" →
        NotRecurring entry.calldata (history ++ schedule) →
          ∀ other ∈ (Runs.run queueStep AgentState.new
            (history ++ schedule)).pendingRequests,
            Collide entry other → other.status ≠ "pending"

theorem broadcastOnce_fails_after_eviction : ¬BroadcastOnce := by
  intro once
  have queue := run_fillThenObserve
  obtain ⟨entry, member, collide, pending⟩ := run_oneMoreThenReemit queue
  apply once fillThenObserve oneMoreThenReemit observedEntry
    (queue ▸ List.mem_cons_self) rfl ?_ entry ?_ collide pending
  · intro write member
    simp [fillThenObserve, oneMoreThenReemit] at member
  · rw [Runs.run_append]
    exact member

end NodeAgent.Supervision
