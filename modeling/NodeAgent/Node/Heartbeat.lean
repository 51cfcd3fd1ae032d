import NodeAgent.Node.Earnings

/-!
# The heartbeat stays signable

All heartbeats share one recurring entry of the signing queue.  Among the
writes that the daemon's components queue, only the heartbeat carries its
calldata, so a beat finds or creates that entry and arms it, and nothing but
an observation disarms it.
-/

namespace NodeAgent.Node

open Chainio Lifecycle Supervision

section Hashes

variable [HashFunctions]

/-- The selector of the function that a write calls. -/
def selectorOf : WriteIntent → Selector
  | .startExecution => Selectors.startExecution
  | .submitCommitment => Selectors.submitCommitment
  | .submitResult => Selectors.submitResult
  | .completeJob => Selectors.completeJob
  | .claimRewards => Selectors.claimRewards
  | .bidOnJob => Selectors.bidOnJob
  | .heartbeat => Selectors.heartbeat

/-- The selectors of the agent's writes are pairwise distinct. -/
def DistinctSelectors : Prop :=
  ∀ first second, selectorOf first = selectorOf second → first = second

/-- The call names the function of its intent. -/
def CallsIntent (intent : WriteIntent) (calldata : Bytes) : Prop :=
  calldata.take 4 = (selectorOf intent).toList

/-- A call that one of the wired components makes on the queue. -/
inductive WiredCall
  | request (request : SignatureRequest)
  | place (placer : RelayBidPlacer)
      (jobId priceWei estimatedLatencyMs expiresBlock : Nat)
  | sendHeartbeat (sender : RelayHeartbeatSender)
  | observe (id : Nat) (txHash : String) (now : Nat)

namespace WiredCall

def apply (agent : AgentState) : WiredCall → AgentState
  | .request unsigned => (RelaySigner.request unsigned agent).2
  | .place placer jobId priceWei estimatedLatencyMs expiresBlock =>
      (placer.place jobId priceWei estimatedLatencyMs expiresBlock agent).2
  | .sendHeartbeat sender => (sender.sendHeartbeat heartbeatCalldata agent).2
  | .observe id txHash now => (agent.markRequestObserved id txHash now).2

/-- The queue operation behind a call. -/
def queueOp : WiredCall → QueueOp
  | .request unsigned => .enqueue (RelaySigner.writeOf unsigned)
  | .place placer jobId priceWei estimatedLatencyMs expiresBlock =>
      .enqueueSuperseding (toString jobId)
        (placer.bidWrite jobId priceWei estimatedLatencyMs expiresBlock)
  | .sendHeartbeat sender =>
      .enqueueRecurring (sender.beatWrite heartbeatCalldata)
  | .observe id txHash now => .observe id txHash now

theorem apply_eq (agent : AgentState) (call : WiredCall) :
    call.apply agent = queueStep agent call.queueOp := by
  cases call <;> rfl

end WiredCall

/-- The signer is only asked for writes that the planner or the earnings sweep
produced. -/
def Produced (_ : AgentState) : WiredCall → Prop
  | .request request =>
      (∃ input, plan input = .sign request) ∨
        ∃ claimable inFlight cfg,
          planClaim claimable inFlight cfg = .claim request
  | _ => True

/-- The calldata string of every heartbeat. -/
def beatCalldata : String :=
  hexEncode heartbeatCalldata

/-- The call does not report the entry with this id broadcast. -/
def LeavesUnobserved (id : Nat) (_ : AgentState) (call : WiredCall) : Prop :=
  ∀ txHash now, call ≠ .observe id txHash now

theorem callsIntent_encodeCall (intent : WriteIntent) (args : List Word) :
    CallsIntent intent (encodeCall (selectorOf intent) args) := by
  simp [CallsIntent, encodeCall]

theorem plan_callsIntent {input : PlanInput} {request : SignatureRequest}
    (planned : plan input = .sign request) :
    CallsIntent request.intent request.calldata ∧
      request.intent ≠ .heartbeat := by
  obtain ⟨signs, -, -⟩ := plan_signs planned
  cases signs with
  | startExecution state =>
      exact ⟨callsIntent_encodeCall .startExecution _, nofun⟩
  | submitCommitment state artifacts committed =>
      exact ⟨callsIntent_encodeCall .submitCommitment _, nofun⟩
  | submitResult state artifacts committed inTime afterCommit =>
      refine ⟨?_, nofun⟩
      simp [CallsIntent, requestFor, encodeSubmitResult, selectorOf]
  | completeJob state window =>
      exact ⟨callsIntent_encodeCall .completeJob _, nofun⟩

theorem planClaim_callsIntent {claimable : Nat} {inFlight : Bool}
    {cfg : EarningsConfig} {request : SignatureRequest}
    (claims : planClaim claimable inFlight cfg = .claim request) :
    CallsIntent request.intent request.calldata ∧
      request.intent ≠ .heartbeat := by
  unfold planClaim at claims
  split at claims
  · cases claims
  · obtain rfl := EarningsAction.claim.inj claims
    refine ⟨?_, nofun⟩
    simp [CallsIntent, encodeClaimRewards, selectorOf]

theorem calldata_ne_beat (distinct : DistinctSelectors) {intent : WriteIntent}
    {calldata : Bytes} (calls : CallsIntent intent calldata)
    (other : intent ≠ .heartbeat) : hexEncode calldata ≠ beatCalldata := by
  intro same
  have sameBytes := hexEncode_injective same
  rw [CallsIntent, sameBytes, heartbeatCalldata] at calls
  apply other
  apply distinct
  apply List.Vector.toList_injective
  rw [← calls]
  simp [selectorOf]

theorem produced_ne_beat (distinct : DistinctSelectors) {agent : AgentState}
    {request : SignatureRequest}
    (produced : Produced agent (.request request)) :
    hexEncode request.calldata ≠ beatCalldata := by
  rcases produced with ⟨input, planned⟩ | ⟨claimable, inFlight, cfg, claims⟩
  · obtain ⟨calls, other⟩ := plan_callsIntent planned
    exact calldata_ne_beat distinct calls other
  · obtain ⟨calls, other⟩ := planClaim_callsIntent claims
    exact calldata_ne_beat distinct calls other

theorem bid_ne_beat (distinct : DistinctSelectors) (placer : RelayBidPlacer)
    (jobId priceWei estimatedLatencyMs expiresBlock : Nat) :
    (placer.bidWrite jobId priceWei estimatedLatencyMs expiresBlock).calldata ≠
      beatCalldata :=
  calldata_ne_beat distinct (callsIntent_encodeCall .bidOnJob _) nofun

/-- Only plain heartbeats carry the heartbeat's calldata. -/
structure BeatInvariant (agent : AgentState) : Prop where
  queue : QueueInvariant agent
  beats : Dedicated beatCalldata WriteIntent.heartbeat.label agent

theorem beatInvariant_step (distinct : DistinctSelectors) (agent : AgentState)
    (call : WiredCall) (invariant : BeatInvariant agent)
    (produced : Produced agent call) : BeatInvariant (call.apply agent) := by
  rw [WiredCall.apply_eq]
  refine ⟨queueInvariant_step agent _ invariant.queue, ?_⟩
  apply dedicated_step invariant.beats
  · intro write dedupKey appends carries
    cases call with
    | request request =>
        cases appends
        exact absurd carries (produced_ne_beat distinct produced)
    | place placer jobId priceWei estimatedLatencyMs expiresBlock =>
        cases appends
        exact absurd carries
          (bid_ne_beat distinct placer jobId priceWei estimatedLatencyMs
            expiresBlock)
    | sendHeartbeat sender =>
        cases appends
        exact ⟨rfl, rfl⟩
    | observe id txHash now => cases appends
  · intro old new rewrites carries
    cases call with
    | request request => cases rewrites
    | place placer jobId priceWei estimatedLatencyMs expiresBlock =>
        cases rewrites
        exact absurd carries
          (bid_ne_beat distinct placer jobId priceWei estimatedLatencyMs
            expiresBlock)
    | sendHeartbeat sender =>
        cases rewrites
        rfl
    | observe id txHash now =>
        cases rewrites
        rfl

theorem beatInvariant_run (distinct : DistinctSelectors)
    {history : List WiredCall}
    (produced : Runs.Along WiredCall.apply Produced AgentState.new history) :
    BeatInvariant (Runs.run WiredCall.apply AgentState.new history) := by
  have initially : BeatInvariant AgentState.new :=
    ⟨queueInvariant_new, by simp [Dedicated, AgentState.new]⟩
  exact Runs.invariant_run (beatInvariant_step distinct) initially produced

/-- The entry is the armed heartbeat: pending, with no transaction. -/
structure ArmedBeat (entry : PendingSignatureRequest) : Prop where
  intent : entry.intent = WriteIntent.heartbeat.label
  calldata : entry.calldata = beatCalldata
  pending : entry.status = "pending"
  noTx : entry.txHash = none

/-- The entries that carry the heartbeat's calldata. -/
def beatsOf (agent : AgentState) : List PendingSignatureRequest :=
  agent.pendingRequests.filter fun entry => entry.calldata = beatCalldata

/-- A heartbeat in the queue is the only one. -/
theorem BeatInvariant.beatsOf_eq {agent : AgentState}
    (invariant : BeatInvariant agent) {entry : PendingSignatureRequest}
    (member : entry ∈ agent.pendingRequests)
    (carries : entry.calldata = beatCalldata) : beatsOf agent = [entry] := by
  have inBeats : entry ∈ beatsOf agent := by simp [beatsOf, member, carries]
  have alone : ∀ other ∈ beatsOf agent, other = entry := by
    intro other otherMember
    obtain ⟨otherQueued, otherCarries⟩ := List.mem_filter.mp otherMember
    exact invariant.beats.unique invariant.queue otherQueued member
      (by simpa using otherCarries) carries
  have apart : (beatsOf agent).Pairwise fun first second =>
      first.id < second.id := invariant.queue.increasing.filter _
  generalize beatsOf agent = beats at inBeats alone apart
  match beats with
  | [] => cases inBeats
  | [only] => rw [alone only List.mem_cons_self]
  | first :: second :: rest =>
      have firstSame := alone first (by simp)
      have secondSame := alone second (by simp)
      rw [firstSame, secondSame] at apart
      simp at apart

/-- A beat arms an entry of its own. -/
theorem sendHeartbeat_arms {agent : AgentState}
    (invariant : BeatInvariant agent) (sender : RelayHeartbeatSender) :
    ∃ entry ∈ ((WiredCall.sendHeartbeat sender).apply agent).pendingRequests,
      ArmedBeat entry := by
  rw [WiredCall.apply_eq]
  simp only [WiredCall.queueOp, queueStep, QueueOp.perform,
    AgentState.enqueueRecurringSignatureRequest]
  cases found : agent.pendingRequests.find? (fun entry =>
      decide (entry.calldata =
        (sender.beatWrite heartbeatCalldata).calldata)) with
  | some existing =>
      have member := List.mem_of_find?_eq_some found
      have carries : existing.calldata =
          (sender.beatWrite heartbeatCalldata).calldata := by
        simpa using List.find?_some found
      have intent := (invariant.beats existing member carries).1
      obtain ⟨before, after, split, replaced, -⟩ :=
        FirstMatch.replaceF_of_find? AgentState.rearm found
      refine ⟨AgentState.rearm existing, ?_, ?_⟩
      · simp only
        rw [replaced]
        simp
      · rcases invariant.queue.status existing member with
          ⟨pending, noTx⟩ | ⟨submitted, -⟩
        · have kept : AgentState.rearm existing = existing :=
            if_neg (by simp [pending])
          rw [kept]
          exact ⟨intent, carries, pending, noTx⟩
        · have armed : AgentState.rearm existing =
              { existing with status := "pending", txHash := none } :=
            if_pos submitted
          rw [armed]
          exact ⟨intent, carries, rfl, rfl⟩
  | none =>
      have fresh : ∀ entry ∈ agent.pendingRequests,
          entry.calldata ≠ (sender.beatWrite heartbeatCalldata).calldata := by
        intro entry member
        simpa using List.find?_eq_none.mp found entry member
      have appended := enqueue_fresh fresh
      simp only [queueStep, QueueOp.perform] at appended
      simp only [appended]
      exact ⟨_, pendingEntry_mem_pushPending _ _ _, rfl, rfl, rfl, rfl⟩

/-- An armed heartbeat stays as it is until it is observed. -/
theorem armedBeat_step {agent : AgentState} (invariant : BeatInvariant agent)
    {call : WiredCall} {entry : PendingSignatureRequest}
    (armed : ArmedBeat entry)
    (unobserved : LeavesUnobserved entry.id agent call)
    (member : entry ∈ agent.pendingRequests) :
    entry ∈ (call.apply agent).pendingRequests := by
  rw [WiredCall.apply_eq]
  have effect := queueEffect agent call.queueOp
  generalize queueStep agent call.queueOp = next at effect ⊢
  generalize (call.queueOp.perform agent).1 = returned at effect
  cases effect with
  | kept queue counter names => exact queue ▸ member
  | @rewritten _ _ before after old new rewrites split queue counter names =>
      by_cases isOld : entry = old
      · subst isOld
        have plain := (invariant.beats entry member armed.calldata).2
        have pending := armed.pending
        generalize same : call.queueOp = op at rewrites
        cases rewrites with
        | superseded intent keyed stillPending =>
            rw [plain] at keyed
            cases keyed
        | rearmed calldata submitted => simp [pending] at submitted
        | @observed txHash now =>
            cases call with
            | observe id txHash now =>
                obtain ⟨rfl, rfl, rfl⟩ := QueueOp.observe.inj same
                exact absurd rfl (unobserved txHash now)
            | _ => cases same
      · rw [queue]
        rw [split] at member
        simp only [List.mem_append, List.mem_cons] at member ⊢
        tauto
  | appended appends =>
      apply pushPending_keeps_unsubmitted (mem_grown.mpr (Or.inl member))
      simp [armed.pending]

/-- Right after a beat there is one heartbeat in the queue, armed, and it stays
so until it is observed. -/
theorem heartbeat_staysSignable (distinct : DistinctSelectors)
    (history : List WiredCall)
    (produced : Runs.Along WiredCall.apply Produced AgentState.new history)
    (sender : RelayHeartbeatSender) :
    let beaten := (sender.sendHeartbeat heartbeatCalldata
      (Runs.run WiredCall.apply AgentState.new history)).2
    ∃ entry, beatsOf beaten = [entry] ∧ ArmedBeat entry ∧
      ∀ schedule, Runs.Along WiredCall.apply Produced beaten schedule →
        Runs.Along WiredCall.apply (LeavesUnobserved entry.id) beaten schedule →
        beatsOf (Runs.run WiredCall.apply beaten schedule) = [entry] := by
  intro beaten
  have before := beatInvariant_run distinct produced
  have invariant : BeatInvariant beaten :=
    beatInvariant_step distinct _ (.sendHeartbeat sender) before trivial
  obtain ⟨entry, member, armed⟩ := sendHeartbeat_arms before sender
  refine ⟨entry, invariant.beatsOf_eq member armed.calldata, armed, ?_⟩
  intro schedule produced unobserved
  have preserved (agent : AgentState) (call : WiredCall)
      (kept : BeatInvariant agent ∧ entry ∈ agent.pendingRequests)
      (allowed : Produced agent call ∧ LeavesUnobserved entry.id agent call) :
      BeatInvariant (call.apply agent) ∧
        entry ∈ (call.apply agent).pendingRequests :=
    ⟨beatInvariant_step distinct agent call kept.1 allowed.1,
      armedBeat_step kept.1 armed allowed.2 kept.2⟩
  obtain ⟨keptInvariant, keptMember⟩ := Runs.invariant_run preserved
    ⟨invariant, member⟩ (Runs.along_and produced unobserved)
  exact keptInvariant.beatsOf_eq keptMember armed.calldata

end Hashes

theorem distinctSelectors_sample : @DistinctSelectors sampleHashes := by
  intro first second
  cases first <;> cases second <;> decide +kernel

def sampleSender : RelayHeartbeatSender :=
  ⟨List.Vector.replicate 20 0x44, 40204⟩

/-- A beat that was signed, broadcast and reported. -/
def broadcastBeat : List WiredCall :=
  [.sendHeartbeat sampleSender, .observe 0 "0xfeed" 30]

theorem heartbeat_staysSignable_again :
    let beaten := (sampleSender.sendHeartbeat (@heartbeatCalldata sampleHashes)
      (Runs.run (@WiredCall.apply sampleHashes) AgentState.new broadcastBeat)).2
    ∃ entry, @beatsOf sampleHashes beaten = [entry] ∧
      @ArmedBeat sampleHashes entry ∧
      ∀ schedule,
        Runs.Along (@WiredCall.apply sampleHashes) (@Produced sampleHashes)
          beaten schedule →
        Runs.Along (@WiredCall.apply sampleHashes) (LeavesUnobserved entry.id)
          beaten schedule →
        @beatsOf sampleHashes
          (Runs.run (@WiredCall.apply sampleHashes) beaten schedule) =
            [entry] :=
  @heartbeat_staysSignable sampleHashes distinctSelectors_sample broadcastBeat
    ⟨trivial, trivial, trivial⟩ sampleSender

end NodeAgent.Node
