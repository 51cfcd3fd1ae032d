import NodeAgent.Chainio.Hex
import NodeAgent.Node.ExecutorPool
import NodeAgent.Node.Heartbeat
import NodeAgent.Node.SigningSurface
import NodeAgent.Node.WriteIdentity
import NodeAgent.Supervision.Server

/-!
# What the signing surface is offered

The whole daemon on its queue: executors, sweeps, bids and heartbeats, the
state updates of every loop, and any HTTP request, one acquisition of the lock
at a time in any order.  Whatever the surface fetches and broadcasts is one of
seven calls, addressed to the configured contracts, and described as what it
is.
-/

namespace NodeAgent.Node

open Chainio Lifecycle Supervision

/-- The contracts and the chain that the daemon is configured with. -/
structure AgentConfig where
  marketplace : Address
  accounting : Address
  monitor : Address
  chainId : Nat
  claimThresholdWei : Nat

namespace AgentConfig

def contract (cfg : AgentConfig) : WriteIntent → Address
  | .claimRewards => cfg.accounting
  | .heartbeat => cfg.monitor
  | _ => cfg.marketplace

def writers (cfg : AgentConfig) : Writers where
  placer := ⟨cfg.marketplace, cfg.chainId⟩
  sender := ⟨cfg.monitor, cfg.chainId⟩

def earnings (cfg : AgentConfig) : EarningsConfig where
  thresholdWei := cfg.claimThresholdWei
  accounting := cfg.accounting
  chainId := cfg.chainId

/-- An executor plans for the configured marketplace and chain. -/
def planInput (cfg : AgentConfig) (input : PlanInput) : PlanInput :=
  { input with marketplace := cfg.marketplace, chainId := cfg.chainId }

end AgentConfig

/-- The function that a write calls. -/
def writeFunction : WriteIntent → WriteFunction
  | .startExecution => .startExecution
  | .submitCommitment => .submitCommitment
  | .submitResult => .submitResult
  | .completeJob => .completeJob
  | .claimRewards => .claimRewards
  | .bidOnJob => .bidOnJob
  | .heartbeat => .heartbeat

theorem label_injective {first second : WriteIntent}
    (same : first.label = second.label) : first = second := by
  cases first <;> cases second <;> first | rfl | exact absurd same (by decide)

/-- The text that the operator sees says what the write does. -/
def Describes (context : String) : Write → Prop
  | .startExecution jobId =>
      context = s!"{WriteIntent.startExecution.label} job {jobId.val}"
  | .submitCommitment jobId _ =>
      context = s!"{WriteIntent.submitCommitment.label} job {jobId.val}"
  | .submitResult jobId _ _ =>
      context = s!"{WriteIntent.submitResult.label} job {jobId.val}"
  | .completeJob jobId =>
      context = s!"{WriteIntent.completeJob.label} job {jobId.val}"
  | .bidOnJob jobId priceWei _ =>
      context = s!"bidOnJob job {jobId.val} at {priceWei.val} wei"
  | .claimRewards => ∃ claimableWei : Nat,
      context = s!"claimRewards ({claimableWei} wei claimable)"
  | .heartbeat => context = "heartbeat (provider liveness)"
  | _ => False

/-- A bid is keyed by its job, so that the next bid on the job replaces it. -/
def bidKey : Write → Option String
  | .bidOnJob jobId _ _ => some (toString jobId.val)
  | _ => none

/-- One step of the daemon, of an HTTP handler, or of the signing surface. -/
inductive AgentAction
  | sign (input : PlanInput)
  | sweep (claimableWei : Nat) (inFlight : Bool)
  | bid (jobId priceWei estimatedLatencyMs : U128) (expiresBlock : Nat)
  | beat
  | update (updates : List StateUpdate)
  | http (now : Nat) (op : ServerOp)
  | fetch
  | broadcast (id : Nat) (txHash : String)

/-- The job id is a `u128`, and the proof a slice. -/
def InRange (_ : SurfaceWorld) : AgentAction → Prop
  | .sign input => input.job.id < 2 ^ 128 ∧
      ∀ art, input.artifacts = some art → art.proof.length < 2 ^ 64
  | _ => True

section Hashes

variable [HashFunctions]

/-- Hand a request to the relay. -/
def AgentConfig.handOver (world : SurfaceWorld) (request : SignatureRequest) :
    SurfaceWorld :=
  { world with agent := (RelaySigner.request request world.agent).2 }

def AgentConfig.step (cfg : AgentConfig) (world : SurfaceWorld) :
    AgentAction → SurfaceWorld
  | .sign input =>
      match plan (cfg.planInput input) with
      | .sign request => AgentConfig.handOver world request
      | _ => world
  | .sweep claimableWei inFlight =>
      match planClaim claimableWei inFlight cfg.earnings with
      | .claim request => AgentConfig.handOver world request
      | .hold => world
  | .bid jobId priceWei estimatedLatencyMs expiresBlock =>
      world.step cfg.writers
        (.place jobId priceWei estimatedLatencyMs expiresBlock)
  | .beat => world.step cfg.writers .heartbeat
  | .update updates =>
      { world with agent := applyUpdates updates world.agent }
  | .http now op =>
      { world with agent := (serverHandle now world.agent op).2 }
  | .fetch => world.step cfg.writers .fetch
  | .broadcast id txHash => world.step cfg.writers (.broadcast id txHash)

/-- The entry offers this write to its configured contract, without value. -/
structure OfferedAs (cfg : AgentConfig) (intent : WriteIntent) (write : Write)
    (entry : PendingSignatureRequest) : Prop where
  function : write.function = writeFunction intent
  calldata : entry.calldata = hexEncode write.calldata
  label : entry.intent = intent.label
  target : entry.target = hexEncode (cfg.contract intent).toList
  value : entry.valueWei = toString 0
  chain : entry.chainId = cfg.chainId
  context : Describes entry.context write
  key : entry.dedupKey = bidKey write

def Offered (cfg : AgentConfig) (entry : PendingSignatureRequest) : Prop :=
  ∃ intent write, OfferedAs cfg intent write entry

/-- What the planner signs is offered as what it is. -/
theorem plan_offered {cfg : AgentConfig} {input : PlanInput}
    {request : SignatureRequest}
    (planned : plan (cfg.planInput input) = .sign request)
    (fits : input.job.id < 2 ^ 128)
    (slice : ∀ art, input.artifacts = some art → art.proof.length < 2 ^ 64)
    (id : Nat) :
    Offered cfg (AgentState.pendingEntry id (RelaySigner.writeOf request)
      none) := by
  obtain ⟨signs, -, -⟩ := plan_signs planned
  cases signs with
  | startExecution =>
      exact ⟨.startExecution, .startExecution ⟨_, fits⟩,
        ⟨rfl, rfl, rfl, rfl, rfl, rfl, rfl, rfl⟩⟩
  | @submitCommitment art _ artifacts =>
      exact ⟨.submitCommitment, .submitCommitment ⟨_, fits⟩ art.commitment,
        ⟨rfl, rfl, rfl, rfl, rfl, rfl, rfl, rfl⟩⟩
  | @submitResult art _ artifacts =>
      have width : art.outputHash.toList.length < 2 ^ 64 := by
        rw [List.Vector.toList_length]
        decide
      exact ⟨.submitResult, .submitResult ⟨_, fits⟩
          ⟨art.outputHash.toList, width⟩ ⟨art.proof, slice art artifacts⟩,
        ⟨rfl, rfl, rfl, rfl, rfl, rfl, rfl, rfl⟩⟩
  | completeJob =>
      exact ⟨.completeJob, .completeJob ⟨_, fits⟩,
        ⟨rfl, rfl, rfl, rfl, rfl, rfl, rfl, rfl⟩⟩

theorem planClaim_offered {cfg : AgentConfig} {claimableWei : Nat}
    {inFlight : Bool} {request : SignatureRequest}
    (claims : planClaim claimableWei inFlight cfg.earnings = .claim request)
    (id : Nat) :
    Offered cfg (AgentState.pendingEntry id (RelaySigner.writeOf request)
      none) := by
  unfold planClaim at claims
  split at claims
  · cases claims
  · obtain rfl := EarningsAction.claim.inj claims
    exact ⟨.claimRewards, .claimRewards,
      ⟨rfl, rfl, rfl, rfl, rfl, rfl, ⟨claimableWei, rfl⟩, rfl⟩⟩

theorem bid_offered (cfg : AgentConfig)
    (jobId priceWei estimatedLatencyMs : U128) (expiresBlock id : Nat) :
    Offered cfg (AgentState.pendingEntry id
      (cfg.writers.placer.bidWrite jobId priceWei estimatedLatencyMs
        expiresBlock) (some (toString jobId.val))) :=
  ⟨.bidOnJob, .bidOnJob jobId priceWei estimatedLatencyMs,
    ⟨rfl, rfl, rfl, rfl, rfl, rfl, rfl, rfl⟩⟩

/-- A bid that is superseded is a bid on the same job at another price. -/
theorem superseded_offered {cfg : AgentConfig}
    {jobId priceWei estimatedLatencyMs : U128} {expiresBlock : Nat}
    {old new : PendingSignatureRequest}
    (rewrites : Rewrites (.enqueueSuperseding (toString jobId.val)
      (cfg.writers.placer.bidWrite jobId priceWei estimatedLatencyMs
        expiresBlock)) old new)
    (offered : Offered cfg old) : Offered cfg new := by
  obtain ⟨intent, write, offered⟩ := offered
  cases rewrites with
  | superseded same keyed pending =>
      obtain rfl : intent = .bidOnJob :=
        label_injective (offered.label.symm.trans same)
      exact ⟨.bidOnJob, .bidOnJob jobId priceWei estimatedLatencyMs,
        ⟨rfl, rfl, same, offered.target, rfl, offered.chain, rfl, keyed⟩⟩

theorem beat_offered (cfg : AgentConfig) (id : Nat) :
    Offered cfg (AgentState.pendingEntry id
      (cfg.writers.sender.beatWrite heartbeatCalldata) none) :=
  ⟨.heartbeat, .heartbeat, ⟨rfl, rfl, rfl, rfl, rfl, rfl, rfl, rfl⟩⟩

theorem Offered.restatus {cfg : AgentConfig} {entry : PendingSignatureRequest}
    (offered : Offered cfg entry) (status : String) (txHash : Option String) :
    Offered cfg { entry with status := status, txHash := txHash } := by
  obtain ⟨intent, write, offered⟩ := offered
  exact ⟨intent, write, ⟨offered.function, offered.calldata, offered.label,
    offered.target, offered.value, offered.chain, offered.context,
    offered.key⟩⟩

def AllOffered (cfg : AgentConfig) (agent : AgentState) : Prop :=
  ∀ entry ∈ agent.pendingRequests, Offered cfg entry

/-- An operation keeps the queue offered when what it appends and what it
rewrites is. -/
theorem allOffered_queueStep {cfg : AgentConfig} {agent : AgentState}
    {op : QueueOp}
    (appends : ∀ write dedupKey,
      Appends agent.pendingRequests op write dedupKey →
        Offered cfg (AgentState.pendingEntry agent.nextRequestId write
          dedupKey))
    (rewrites : ∀ old new, Rewrites op old new → Offered cfg old →
      Offered cfg new)
    (offered : AllOffered cfg agent) : AllOffered cfg (queueStep agent op) := by
  have effect := queueEffect agent op
  generalize queueStep agent op = next at effect ⊢
  generalize (op.perform agent).1 = returned at effect
  intro entry member
  cases effect with
  | kept queue =>
      rw [queue] at member
      exact offered entry member
  | @rewritten _ _ before after old new rewritten split queue =>
      rw [queue] at member
      have inQueue {other : PendingSignatureRequest}
          (found : other ∈ before ∨ other = old ∨ other ∈ after) :
          Offered cfg other := by
        apply offered
        rw [split, List.mem_append, List.mem_cons]
        exact found
      rcases List.mem_append.mp member with first | rest
      · exact inQueue (Or.inl first)
      · rcases List.mem_cons.mp rest with rfl | last
        · exact rewrites old entry rewritten (inQueue (Or.inr (Or.inl rfl)))
        · exact inQueue (Or.inr (Or.inr last))
  | appended appended =>
      rcases mem_pushPending member with queued | rfl
      · exact offered entry queued
      · exact appends _ _ appended

theorem allOffered_request {cfg : AgentConfig} {agent : AgentState}
    {request : SignatureRequest}
    (fresh : ∀ id, Offered cfg (AgentState.pendingEntry id
      (RelaySigner.writeOf request) none))
    (offered : AllOffered cfg agent) :
    AllOffered cfg (RelaySigner.request request agent).2 := by
  change AllOffered cfg
    (queueStep agent (.enqueue (RelaySigner.writeOf request)))
  refine allOffered_queueStep ?_ ?_ offered
  · intro write dedupKey appends
    cases appends
    exact fresh _
  · intro old new rewrites
    cases rewrites

theorem allOffered_http {cfg : AgentConfig} {agent : AgentState} (now : Nat)
    (op : ServerOp) (offered : AllOffered cfg agent) :
    AllOffered cfg (serverHandle now agent op).2 := by
  cases op with
  | read | clock => exact offered
  | pause | resume => exact offered
  | markRequestObserved id txHash =>
      change AllOffered cfg (queueStep agent (.observe id txHash now))
      refine allOffered_queueStep ?_ ?_ offered
      · intro write dedupKey appends
        cases appends
      · intro old new rewrites before
        cases rewrites
        exact before.restatus "submitted" (some txHash)

/-- Whatever is queued, held by the surface or broadcast was offered. -/
structure OfferedWorld (cfg : AgentConfig) (world : SurfaceWorld) : Prop where
  queue : AllOffered cfg world.agent
  snapshot : ∀ entry ∈ world.snapshot, Offered cfg entry
  broadcasts : ∀ tx ∈ world.broadcasts,
    ∃ entry, Offered cfg entry ∧ tx.published = publishedOf entry

theorem offeredWorld_step (cfg : AgentConfig) (world : SurfaceWorld)
    (action : AgentAction) (offered : OfferedWorld cfg world)
    (inRange : InRange world action) :
    OfferedWorld cfg (cfg.step world action) := by
  obtain ⟨queue, snapshot, broadcasts⟩ := offered
  cases action with
  | sign input =>
      simp only [AgentConfig.step]
      split
      · next request planned =>
        refine ⟨allOffered_request ?_ queue, snapshot, broadcasts⟩
        intro id
        exact plan_offered planned inRange.1 inRange.2 id
      · exact ⟨queue, snapshot, broadcasts⟩
  | sweep claimableWei inFlight =>
      simp only [AgentConfig.step]
      split
      · next request claims =>
        refine ⟨allOffered_request ?_ queue, snapshot, broadcasts⟩
        intro id
        exact planClaim_offered claims id
      · exact ⟨queue, snapshot, broadcasts⟩
  | bid jobId priceWei estimatedLatencyMs expiresBlock =>
      refine ⟨?_, snapshot, broadcasts⟩
      change AllOffered cfg (queueStep world.agent
        (.enqueueSuperseding (toString jobId.val)
          (cfg.writers.placer.bidWrite jobId priceWei estimatedLatencyMs
            expiresBlock)))
      refine allOffered_queueStep ?_ ?_ queue
      · intro write dedupKey appends
        cases appends
        exact bid_offered cfg jobId priceWei estimatedLatencyMs expiresBlock _
      · intro old new rewrites before
        exact superseded_offered rewrites before
  | beat =>
      refine ⟨?_, snapshot, broadcasts⟩
      change AllOffered cfg (queueStep world.agent
        (.enqueueRecurring (cfg.writers.sender.beatWrite heartbeatCalldata)))
      refine allOffered_queueStep ?_ ?_ queue
      · intro write dedupKey appends
        cases appends
        exact beat_offered cfg _
      · intro old new rewrites before
        cases rewrites
        exact before.restatus "pending" none
  | update updates =>
      refine ⟨?_, snapshot, broadcasts⟩
      intro entry member
      rw [AgentConfig.step, (applyUpdates_frame updates world.agent).1] at member
      exact queue entry member
  | http now op =>
      exact ⟨allOffered_http now op queue, snapshot, broadcasts⟩
  | fetch => exact ⟨queue, queue, broadcasts⟩
  | broadcast id txHash =>
      simp only [AgentConfig.step, SurfaceWorld.step]
      split
      · next entry held fresh =>
        refine ⟨queue, snapshot, ?_⟩
        intro tx member
        rcases List.mem_cons.mp member with rfl | earlier
        · exact ⟨entry, snapshot entry (List.mem_of_find?_eq_some held), rfl⟩
        · exact broadcasts tx earlier
      · exact ⟨queue, snapshot, broadcasts⟩

/-- In every run of the daemon, its HTTP surface and the signing surface, each
entry of the queue and of a fetched snapshot is one call of the seven, found
again by the contract's decoder, for the configured contract and chain, without
value and under a text that says what it does; and nothing else is broadcast. -/
theorem offeredWrites_configured (pinned : SelectorsPinned) (cfg : AgentConfig)
    (schedule : List AgentAction)
    (inRange : Runs.Along cfg.step InRange SurfaceWorld.initial schedule) :
    let world := Runs.run cfg.step SurfaceWorld.initial schedule
    (∀ entry, entry ∈ world.agent.pendingRequests ∨ entry ∈ world.snapshot →
      ∃ intent write, OfferedAs cfg intent write entry ∧
        (hexDecode entry.calldata).toOption.bind Write.ofCalldata =
          some write) ∧
      ∀ tx ∈ world.broadcasts, ∃ entry intent write,
        OfferedAs cfg intent write entry ∧ tx.published = publishedOf entry := by
  intro world
  have initially : OfferedWorld cfg SurfaceWorld.initial := by
    refine ⟨?_, ?_, ?_⟩
    · intro entry member
      cases member
    · intro entry member
      cases member
    · intro tx member
      cases member
  have offered := Runs.invariant_run (offeredWorld_step cfg) initially inRange
  constructor
  · intro entry member
    have found : Offered cfg entry := by
      rcases member with queued | held
      · exact offered.queue entry queued
      · exact offered.snapshot entry held
    obtain ⟨intent, write, as⟩ := found
    refine ⟨intent, write, as, ?_⟩
    rw [as.calldata, hexDecode_hexEncode]
    exact write.ofCalldata_calldata pinned
  · intro tx member
    obtain ⟨entry, ⟨intent, write, as⟩, same⟩ := offered.broadcasts tx member
    exact ⟨entry, intent, write, as, same⟩

end Hashes

def offeringConfig : AgentConfig where
  marketplace := sampleExecutor.marketplace
  accounting := List.Vector.replicate 20 0x33
  monitor := List.Vector.replicate 20 0x22
  chainId := 40204
  claimThresholdWei := 10 ^ 16

def assignedInput : PlanInput where
  job := { sampleJob with state := .assigned }
  me := sampleProvider
  currentBlock := 60
  marketplace := List.Vector.replicate 20 0
  chainId := 0
  committed := false
  artifacts := none
  gates := ⟨some .commitment, 0, 0, false⟩

theorem offeredId_fits : 7 < 2 ^ 128 := by decide

/-- The bid is repriced after a fetch, and what the surface then holds is
broadcast and reported. -/
def offeringSchedule : List AgentAction :=
  [.bid ⟨7, offeredId_fits⟩ ⟨100, by decide⟩ ⟨300000, by decide⟩ 1000, .fetch,
    .bid ⟨7, offeredId_fits⟩ ⟨200, by decide⟩ ⟨300000, by decide⟩ 1000, .beat,
    .sign assignedInput, .sweep (10 ^ 17) false, .http 0 .pause, .fetch,
    .broadcast 0 "0xfeed", .http 0 (.markRequestObserved 0 "0xfeed")]

theorem offeringSchedule_inRange :
    Runs.Along (@AgentConfig.step writeHashes offeringConfig) InRange
      SurfaceWorld.initial offeringSchedule :=
  ⟨trivial, trivial, trivial, trivial, ⟨by decide, nofun⟩, trivial, trivial,
    trivial, trivial, trivial, trivial⟩

theorem offeredWrites_configured_repriced :
    let world := Runs.run (@AgentConfig.step writeHashes offeringConfig)
      SurfaceWorld.initial offeringSchedule
    (∀ entry, entry ∈ world.agent.pendingRequests ∨ entry ∈ world.snapshot →
      ∃ intent write, @OfferedAs writeHashes offeringConfig intent write entry ∧
        (hexDecode entry.calldata).toOption.bind Write.ofCalldata =
          some write) ∧
      ∀ tx ∈ world.broadcasts, ∃ entry intent write,
        @OfferedAs writeHashes offeringConfig intent write entry ∧
          tx.published = publishedOf entry :=
  @offeredWrites_configured writeHashes writeHashes_pinned offeringConfig
    offeringSchedule offeringSchedule_inRange

end NodeAgent.Node
