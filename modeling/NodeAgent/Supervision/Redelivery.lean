import NodeAgent.Supervision.Alerts

/-!
# Redelivered observations

The signing surface reports a broadcast with an HTTP request, which may be
delivered again.  The second delivery meets the entry as the daemon's enqueues
have left it.
-/

namespace NodeAgent.Supervision

/-- The daemon's side of the queue: everything but an observation. -/
def IsEnqueue : QueueOp → Prop
  | .observe _ _ _ => False
  | _ => True

instance : DecidablePred IsEnqueue
  | .observe _ _ _ => isFalse id
  | .enqueue _ | .enqueueSuperseding _ _ | .enqueueRecurring _ => isTrue trivial

/-- The state when a delivery at `first` is repeated: the entry was observed,
and the daemon has queued other writes since. -/
def redelivered (history : List AgentOp) (between : List QueueOp) (id : Nat)
    (txHash : String) (first : Nat) : AgentState :=
  Runs.run queueStep
    ((Runs.run AgentOp.apply AgentState.new history).markRequestObserved id
      txHash first).2 between

/-- The entry with this id, if it is still queued, has stayed submitted since
the first delivery, and a heartbeat is reported in the same second again. -/
def StaysSubmitted (id first again : Nat) (agent : AgentState) : Prop :=
  ∀ entry ∈ agent.pendingRequests, entry.id = id →
    entry.status = "submitted" ∧
      (entry.intent = "heartbeat" → again = first)

theorem queueInvariant_apply (agent : AgentState) (op : AgentOp)
    (invariant : QueueInvariant agent) : QueueInvariant (op.apply agent) := by
  cases op with
  | queue op => exact queueInvariant_step agent op invariant
  | setBidding bidding =>
      simp only [AgentOp.apply, AgentState.setBidding]
      split <;> exact invariant.congr rfl rfl
  | observe observation =>
      simp only [AgentOp.apply, AgentState.recordProviderObservation,
        AgentState.setProviderStats]
      split <;> exact invariant.congr rfl rfl
  | _ => exact invariant.congr rfl rfl

theorem queueInvariant_reachable (history : List AgentOp) :
    QueueInvariant (Runs.run AgentOp.apply AgentState.new history) :=
  Runs.invariant_run_always queueInvariant_apply history queueInvariant_new

/-- With unique ids, the entry with an id is the one that is found. -/
theorem QueueInvariant.find?_id {agent : AgentState}
    (invariant : QueueInvariant agent) {entry : PendingSignatureRequest}
    (member : entry ∈ agent.pendingRequests) :
    agent.pendingRequests.find? (fun other => decide (other.id = entry.id)) =
      some entry := by
  cases found : agent.pendingRequests.find? (fun other =>
      decide (other.id = entry.id)) with
  | none =>
      have absent := List.find?_eq_none.mp found entry member
      simp at absent
  | some existing =>
      have sameId : existing.id = entry.id := by
        simpa using List.find?_some found
      have existingMember := List.mem_of_find?_eq_some found
      rw [invariant.eq_of_id existingMember member sameId]

theorem markRequestObserved_absent {agent : AgentState} {id : Nat}
    (absent : ∀ entry ∈ agent.pendingRequests, entry.id ≠ id)
    (txHash : String) (now : Nat) :
    (agent.markRequestObserved id txHash now).2 = agent := by
  have notFound : agent.pendingRequests.find? (fun entry =>
      decide (entry.id = id)) = none := by
    rw [List.find?_eq_none]
    intro entry member
    simpa using absent entry member
  simp only [AgentState.markRequestObserved, notFound]

/-- An observation rewrites the entry in place and records the time of a
heartbeat. -/
theorem markRequestObserved_known {agent : AgentState}
    (invariant : QueueInvariant agent) {entry : PendingSignatureRequest}
    (member : entry ∈ agent.pendingRequests) (txHash : String) (now : Nat) :
    ∃ before after, agent.pendingRequests = before ++ entry :: after ∧
      (agent.markRequestObserved entry.id txHash now).2 =
        { agent with
          pendingRequests := before ++ AgentState.submit txHash entry :: after
          lastHeartbeatUnix :=
            if entry.intent = "heartbeat" then some now
            else agent.lastHeartbeatUnix } := by
  have found := invariant.find?_id member
  obtain ⟨before, after, split, replaced, -⟩ :=
    FirstMatch.replaceF_of_find? (AgentState.submit txHash) found
  simp only [decide_eq_true_eq] at replaced
  refine ⟨before, after, split, ?_⟩
  simp only [AgentState.markRequestObserved, found, replaced]
  by_cases heartbeat : entry.intent = "heartbeat"
  · rw [if_pos heartbeat, if_pos heartbeat]
    rfl
  · rw [if_neg heartbeat, if_neg heartbeat]

/-- A repeated observation changes nothing exactly when it finds what it would
write. -/
theorem markRequestObserved_eq_iff {agent : AgentState}
    (invariant : QueueInvariant agent) {entry : PendingSignatureRequest}
    (member : entry ∈ agent.pendingRequests) (txHash : String) (now : Nat) :
    (agent.markRequestObserved entry.id txHash now).2 = agent ↔
      entry.status = "submitted" ∧ entry.txHash = some txHash ∧
        (entry.intent = "heartbeat" →
          agent.lastHeartbeatUnix = some now) := by
  obtain ⟨before, after, split, marked⟩ :=
    markRequestObserved_known invariant member txHash now
  rw [marked]
  constructor
  · intro same
    have sameQueue := congrArg AgentState.pendingRequests same
    have sameTime := congrArg AgentState.lastHeartbeatUnix same
    simp only at sameQueue sameTime
    rw [split] at sameQueue
    have sameEntry : AgentState.submit txHash entry = entry :=
      (List.cons.inj (List.append_cancel_left sameQueue)).1
    refine ⟨?_, ?_, ?_⟩
    · rw [← sameEntry]
      rfl
    · rw [← sameEntry]
      rfl
    · intro heartbeat
      rw [← sameTime, if_pos heartbeat]
  · intro written
    obtain ⟨submitted, carries, recorded⟩ := written
    have sameEntry : AgentState.submit txHash entry = entry := by
      rw [AgentState.submit, ← submitted, ← carries]
    have sameTime : (if entry.intent = "heartbeat" then some now
        else agent.lastHeartbeatUnix) = agent.lastHeartbeatUnix := by
      split
      case isTrue heartbeat => exact (recorded heartbeat).symm
      case isFalse other => rfl
    rw [sameEntry, sameTime, ← split]

/-- A submitted entry with this id carries the reported transaction, and a
heartbeat has recorded its time. -/
def Recorded (id : Nat) (txHash : String) (first : Nat) (agent : AgentState) :
    Prop :=
  ∀ entry ∈ agent.pendingRequests, entry.id = id →
    entry.status = "submitted" →
      entry.txHash = some txHash ∧
        (entry.intent = "heartbeat" → agent.lastHeartbeatUnix = some first)

theorem recorded_observe {agent : AgentState} (invariant : QueueInvariant agent)
    (id : Nat) (txHash : String) (first : Nat) :
    Recorded id txHash first (agent.markRequestObserved id txHash first).2 := by
  by_cases known : ∃ entry ∈ agent.pendingRequests, entry.id = id
  · obtain ⟨entry, member, rfl⟩ := known
    have kept : QueueInvariant
        (agent.markRequestObserved entry.id txHash first).2 :=
      queueInvariant_step agent (.observe entry.id txHash first) invariant
    obtain ⟨before, after, split, marked⟩ :=
      markRequestObserved_known invariant member txHash first
    rw [marked] at kept ⊢
    intro other otherMember sameId submitted
    obtain rfl : other = AgentState.submit txHash entry :=
      kept.eq_of_id otherMember (by simp) sameId
    refine ⟨rfl, ?_⟩
    intro heartbeat
    exact if_pos heartbeat
  · have absent : ∀ entry ∈ agent.pendingRequests, entry.id ≠ id :=
      fun entry member sameId => known ⟨entry, member, sameId⟩
    rw [markRequestObserved_absent absent]
    intro entry member sameId
    exact absurd sameId (absent entry member)

/-- An enqueue records no heartbeat. -/
theorem enqueue_lastHeartbeat (agent : AgentState) {op : QueueOp}
    (enqueues : IsEnqueue op) :
    (queueStep agent op).lastHeartbeatUnix = agent.lastHeartbeatUnix := by
  have pushed (write : UnsignedWrite) (dedupKey : Option String) :
      (agent.pushPending write dedupKey).2.lastHeartbeatUnix =
        agent.lastHeartbeatUnix := by
    change (AgentState.evictIfOverCap _).lastHeartbeatUnix = _
    unfold AgentState.evictIfOverCap
    split <;> rfl
  have enqueue (write : UnsignedWrite) :
      (agent.enqueueSignatureRequest write).2.lastHeartbeatUnix =
        agent.lastHeartbeatUnix := by
    unfold AgentState.enqueueSignatureRequest
    split
    · rfl
    · exact pushed write none
  cases op with
  | enqueue write => exact enqueue write
  | enqueueSuperseding dedupKey write =>
      simp only [queueStep, QueueOp.perform,
        AgentState.enqueueSupersedingSignatureRequest]
      split
      · rfl
      · exact pushed write (some dedupKey)
  | enqueueRecurring write =>
      simp only [queueStep, QueueOp.perform,
        AgentState.enqueueRecurringSignatureRequest]
      split
      · rfl
      · exact enqueue write
  | observe id txHash now => cases enqueues

/-- Enqueues submit nothing. -/
theorem recorded_enqueue {id : Nat} {txHash : String} {first : Nat}
    (agent : AgentState) (op : QueueOp)
    (recorded : Recorded id txHash first agent) (enqueues : IsEnqueue op) :
    Recorded id txHash first (queueStep agent op) := by
  have sameTime := enqueue_lastHeartbeat agent enqueues
  have effect := queueEffect agent op
  generalize queueStep agent op = next at effect sameTime ⊢
  generalize (op.perform agent).1 = returned at effect
  intro entry member sameId submitted
  rw [sameTime]
  cases effect with
  | kept queue counter names =>
      rw [queue] at member
      exact recorded entry member sameId submitted
  | @rewritten _ _ before after old new rewrites split queue counter names =>
      rw [queue] at member
      have oldMember : old ∈ agent.pendingRequests := by simp [split]
      by_cases isNew : entry = new
      · subst isNew
        cases rewrites with
        | superseded intent keyed pending =>
            exact recorded old oldMember sameId submitted
        | rearmed calldata wasSubmitted => simp at submitted
        | observed => cases enqueues
      · apply recorded entry _ sameId submitted
        rw [split]
        simp only [List.mem_append, List.mem_cons] at member ⊢
        tauto
  | appended appends =>
      rcases mem_pushPending member with kept | rfl
      · exact recorded entry kept sameId submitted
      · simp [AgentState.pendingEntry] at submitted

/-- Delivering an observation again, after any enqueues of the daemon, leaves
the state unchanged exactly when the entry has stayed submitted. -/
theorem redelivery_unchanged_iff (history : List AgentOp)
    (between : List QueueOp) (enqueues : ∀ op ∈ between, IsEnqueue op)
    (id : Nat) (txHash : String) (first again : Nat) :
    let agent := redelivered history between id txHash first
    (agent.markRequestObserved id txHash again).2 = agent ↔
      StaysSubmitted id first again agent := by
  intro agent
  have reachable := queueInvariant_reachable history
  have invariant : QueueInvariant agent :=
    Runs.invariant_run_always queueInvariant_step between
      (queueInvariant_step _ (.observe id txHash first) reachable)
  have recorded : Recorded id txHash first agent :=
    Runs.invariant_run recorded_enqueue (recorded_observe reachable id txHash
      first) (Runs.along_of_mem enqueues _)
  by_cases known : ∃ entry ∈ agent.pendingRequests, entry.id = id
  · obtain ⟨entry, member, rfl⟩ := known
    rw [markRequestObserved_eq_iff invariant member]
    constructor
    · intro written other otherMember sameId
      obtain rfl := invariant.eq_of_id otherMember member sameId
      obtain ⟨submitted, -, beats⟩ := written
      refine ⟨submitted, ?_⟩
      intro heartbeat
      have firstTime := (recorded other member rfl submitted).2 heartbeat
      exact Option.some.inj ((beats heartbeat).symm.trans firstTime)
    · intro stays
      obtain ⟨submitted, sameSecond⟩ := stays entry member rfl
      obtain ⟨carries, beats⟩ := recorded entry member rfl submitted
      refine ⟨submitted, carries, ?_⟩
      intro heartbeat
      rw [sameSecond heartbeat]
      exact beats heartbeat
  · have absent : ∀ entry ∈ agent.pendingRequests, entry.id ≠ id :=
      fun entry member sameId => known ⟨entry, member, sameId⟩
    constructor
    · intro _ entry member sameId
      exact absurd sameId (absent entry member)
    · intro _
      exact markRequestObserved_absent absent txHash again

def heartbeatWrite : UnsignedWrite where
  intent := "heartbeat"
  target := "0x44"
  calldata := "0x3defb962"
  valueWei := 0
  chainId := 40204
  context := "heartbeat (provider liveness)"
  expiresBlock := 0

def claimWrite : UnsignedWrite where
  intent := "claimRewards"
  target := "0x55"
  calldata := "0x372500ab"
  valueWei := 0
  chainId := 40204
  context := "claim accrued rewards"
  expiresBlock := 0

/-- A claim is reported again after a beat and the next sweep were queued. -/
theorem redelivery_unchanged_iff_retry :
    let agent := redelivered
      [.queue (.enqueueRecurring heartbeatWrite), .queue (.enqueue claimWrite)]
      [.enqueueRecurring heartbeatWrite, .enqueue claimWrite] 1 "0xfeed" 30
    (agent.markRequestObserved 1 "0xfeed" 75).2 = agent := by
  refine (redelivery_unchanged_iff
    [.queue (.enqueueRecurring heartbeatWrite), .queue (.enqueue claimWrite)]
    [.enqueueRecurring heartbeatWrite, .enqueue claimWrite] (by decide) 1
    "0xfeed" 30 75).mpr ?_
  unfold StaysSubmitted
  decide +kernel

/-- The next beat arms the entry, and the retry submits it unsigned. -/
theorem redelivery_submitsUnsigned :
    ¬∀ history between, (∀ op ∈ between, IsEnqueue op) →
      ∀ id txHash first again,
        ((redelivered history between id txHash first).markRequestObserved id
            txHash again).2 =
          redelivered history between id txHash first := by
  intro always
  have unchanged := always [.queue (.enqueueRecurring heartbeatWrite)]
    [.enqueueRecurring heartbeatWrite] (by decide) 0 "0xfeed" 30 60
  revert unchanged
  decide +kernel

end NodeAgent.Supervision
