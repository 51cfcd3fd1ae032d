import NodeAgent.Node.Relay

/-!
# The signing surface and the published writes

The surface fetches a snapshot of the queue, signs and broadcasts entries it
saw as pending, and reports each broadcast back under the entry's id.  The
daemon meanwhile queues bids, lifecycle writes and heartbeats.  A superseding
bid rewrites its pending entry under the same id, so a surface that holds an
older version publishes something else than what is recorded.
-/

namespace NodeAgent.Node

open Chainio Lifecycle Supervision

/-- What a transaction publishes of an entry. -/
structure Published where
  target : String
  calldata : String
  valueWei : String
  chainId : Nat
  context : String
  expiresBlock : String
deriving DecidableEq

def publishedOf (entry : PendingSignatureRequest) : Published where
  target := entry.target
  calldata := entry.calldata
  valueWei := entry.valueWei
  chainId := entry.chainId
  context := entry.context
  expiresBlock := entry.expiresBlock

/-- A transaction the surface has broadcast for the entry with this id. -/
structure BroadcastTx where
  txHash : String
  id : Nat
  published : Published
deriving DecidableEq

/-- The shared state, the surface's last snapshot, and its broadcasts. -/
structure SurfaceWorld where
  agent : AgentState
  snapshot : List PendingSignatureRequest
  broadcasts : List BroadcastTx

/-- The wired callers of the daemon, and the components they are built from. -/
structure Writers where
  placer : RelayBidPlacer
  sender : RelayHeartbeatSender

inductive SurfaceAction
  | place (jobId priceWei estimatedLatencyMs expiresBlock : Nat)
  | request (request : SignatureRequest)
  | heartbeat
  | fetch
  | broadcast (id : Nat) (txHash : String)
  | observe (txHash : String) (now : Nat)
deriving DecidableEq

namespace SurfaceWorld

def initial : SurfaceWorld where
  agent := AgentState.new
  snapshot := []
  broadcasts := []

def findBroadcast (world : SurfaceWorld) (txHash : String) :
    Option BroadcastTx :=
  world.broadcasts.find? fun tx => tx.txHash = txHash

/-- What the transaction with this hash carried. -/
def carried (world : SurfaceWorld) (txHash : String) : Option Published :=
  (world.findBroadcast txHash).map BroadcastTx.published

/-- The version of the entry the surface would sign: the pending one of its
snapshot. -/
def heldVersion (world : SurfaceWorld) (id : Nat) :
    Option PendingSignatureRequest :=
  world.snapshot.find? fun entry => entry.id = id ∧ entry.status = "pending"

variable [HashFunctions]

/-- One step of the daemon or of the surface.  A transaction hash names one
transaction, so a broadcast uses a fresh one; only broadcasts are reported. -/
def step (writers : Writers) (world : SurfaceWorld) :
    SurfaceAction → SurfaceWorld
  | .place jobId priceWei estimatedLatencyMs expiresBlock =>
      { world with
        agent := (writers.placer.place jobId priceWei estimatedLatencyMs
          expiresBlock world.agent).2 }
  | .request request =>
      { world with agent := (RelaySigner.request request world.agent).2 }
  | .heartbeat =>
      { world with
        agent := (writers.sender.sendHeartbeat heartbeatCalldata
          world.agent).2 }
  | .fetch => { world with snapshot := world.agent.signatureRequests }
  | .broadcast id txHash =>
      match world.heldVersion id, world.findBroadcast txHash with
      | some entry, none =>
          { world with
            broadcasts := ⟨txHash, id, publishedOf entry⟩ :: world.broadcasts }
      | _, _ => world
  | .observe txHash now =>
      match world.findBroadcast txHash with
      | some tx =>
          { world with
            agent := (world.agent.markRequestObserved tx.id txHash now).2 }
      | none => world

end SurfaceWorld

/-- The surface holds a version of the entry: it would sign the one of its
snapshot, or it has broadcast one. -/
def Held (world : SurfaceWorld) (id : Nat) : Prop :=
  (∃ entry ∈ world.snapshot, entry.id = id ∧ entry.status = "pending") ∨
    ∃ tx ∈ world.broadcasts, tx.id = id

/-- Every submitted entry records what the transaction with its hash
carried. -/
def RecordsPublished (world : SurfaceWorld) : Prop :=
  ∀ entry ∈ world.agent.pendingRequests, entry.status = "submitted" →
    entry.txHash.bind world.carried = some (publishedOf entry)

instance (world : SurfaceWorld) : Decidable (RecordsPublished world) :=
  inferInstanceAs (Decidable (∀ entry ∈ _, _ → _))

instance (world : SurfaceWorld) (id : Nat) : Decidable (Held world id) :=
  inferInstanceAs (Decidable (_ ∨ _))

structure SurfaceInvariant (world : SurfaceWorld) : Prop where
  queue : QueueInvariant world.agent
  snapshotBelow : ∀ entry ∈ world.snapshot,
    entry.id < world.agent.nextRequestId
  broadcastsBelow : ∀ tx ∈ world.broadcasts, tx.id < world.agent.nextRequestId
  snapshotCurrent : ∀ entry ∈ world.agent.pendingRequests,
    ∀ held ∈ world.snapshot, held.id = entry.id → held.status = "pending" →
      publishedOf held = publishedOf entry
  broadcastsCurrent : ∀ entry ∈ world.agent.pendingRequests,
    ∀ tx ∈ world.broadcasts, tx.id = entry.id →
      tx.published = publishedOf entry
  submitted : ∀ entry ∈ world.agent.pendingRequests,
    entry.status = "submitted" →
      ∃ tx, entry.txHash = some tx.txHash ∧ tx.id = entry.id ∧
        world.findBroadcast tx.txHash = some tx

theorem surfaceInvariant_initial : SurfaceInvariant SurfaceWorld.initial where
  queue := queueInvariant_new
  snapshotBelow := by simp [SurfaceWorld.initial]
  broadcastsBelow := by simp [SurfaceWorld.initial]
  snapshotCurrent := by simp [SurfaceWorld.initial, AgentState.new]
  broadcastsCurrent := by simp [SurfaceWorld.initial, AgentState.new]
  submitted := by simp [SurfaceWorld.initial, AgentState.new]

/-- The invariant gives the property the surface is about. -/
theorem SurfaceInvariant.recordsPublished {world : SurfaceWorld}
    (invariant : SurfaceInvariant world) : RecordsPublished world := by
  intro entry member submitted
  obtain ⟨tx, hash, sameId, found⟩ := invariant.submitted entry member submitted
  have published := invariant.broadcastsCurrent entry member tx
    (List.mem_of_find?_eq_some found) sameId
  rw [hash, Option.bind_some, SurfaceWorld.carried, found, Option.map_some,
    published]

/-- An operation on the queue keeps the invariant when it leaves held versions
alone and submits only what was broadcast. -/
theorem surfaceInvariant_queueStep {world : SurfaceWorld} (op : QueueOp)
    (invariant : SurfaceInvariant world)
    (alone : ∀ {old new}, old ∈ world.agent.pendingRequests →
      Rewrites op old new → Held world old.id →
        publishedOf new = publishedOf old)
    (reported : ∀ id txHash now, op = .observe id txHash now →
      ∃ tx, tx.txHash = txHash ∧ tx.id = id ∧
        world.findBroadcast txHash = some tx) :
    SurfaceInvariant { world with agent := queueStep world.agent op } := by
  have invariantAfter := queueInvariant_step world.agent op invariant.queue
  have effect := queueEffect world.agent op
  generalize queueStep world.agent op = next at effect invariantAfter ⊢
  generalize (op.perform world.agent).1 = returned at effect
  cases effect with
  | kept queue counter names =>
      obtain ⟨-, snapshotBelow, broadcastsBelow, snapshotCurrent,
        broadcastsCurrent, submitted⟩ := invariant
      rw [← queue] at snapshotCurrent broadcastsCurrent submitted
      rw [← counter] at snapshotBelow broadcastsBelow
      exact ⟨invariantAfter, snapshotBelow, broadcastsBelow, snapshotCurrent,
        broadcastsCurrent, submitted⟩
  | @rewritten _ _ before after old new rewrites split queue counter names =>
      have oldMember : old ∈ world.agent.pendingRequests := by simp [split]
      obtain ⟨sameId, -⟩ := rewrites.identity
      have members {entry} (member : entry ∈ next.pendingRequests) :
          entry ∈ world.agent.pendingRequests ∨ entry = new := by
        rw [queue] at member
        rw [split]
        simp only [List.mem_append, List.mem_cons] at member ⊢
        tauto
      refine ⟨invariantAfter, ?_, ?_, ?_, ?_, ?_⟩
      · rw [counter]
        exact invariant.snapshotBelow
      · rw [counter]
        exact invariant.broadcastsBelow
      · intro entry member held heldMember heldId pending
        rcases members member with kept | rfl
        · exact invariant.snapshotCurrent entry kept held heldMember heldId
            pending
        · rw [sameId] at heldId
          have isHeld : Held world old.id :=
            Or.inl ⟨held, heldMember, heldId, pending⟩
          rw [alone oldMember rewrites isHeld]
          exact invariant.snapshotCurrent old oldMember held heldMember heldId
            pending
      · intro entry member tx txMember txId
        rcases members member with kept | rfl
        · exact invariant.broadcastsCurrent entry kept tx txMember txId
        · rw [sameId] at txId
          rw [alone oldMember rewrites (Or.inr ⟨tx, txMember, txId⟩)]
          exact invariant.broadcastsCurrent old oldMember tx txMember txId
      · intro entry member submitted
        rcases members member with kept | rfl
        · exact invariant.submitted entry kept submitted
        · cases rewrites with
          | superseded intent keyed pending =>
              simp only at submitted
              rw [submitted] at pending
              simp at pending
          | rearmed calldata wasSubmitted => simp at submitted
          | @observed txHash now =>
              obtain ⟨tx, rfl, txId, found⟩ := reported old.id txHash now rfl
              exact ⟨tx, rfl, txId, found⟩
  | @appended write dedupKey appends =>
      refine ⟨invariantAfter, ?_, ?_, ?_, ?_, ?_⟩
      · intro entry member
        rw [pushPending_counter]
        exact Nat.lt_succ_of_lt (invariant.snapshotBelow entry member)
      · intro tx member
        rw [pushPending_counter]
        exact Nat.lt_succ_of_lt (invariant.broadcastsBelow tx member)
      · intro entry member held heldMember heldId pending
        rcases mem_pushPending member with kept | rfl
        · exact invariant.snapshotCurrent entry kept held heldMember heldId
            pending
        · exact absurd heldId
            (Nat.ne_of_lt (invariant.snapshotBelow held heldMember))
      · intro entry member tx txMember txId
        rcases mem_pushPending member with kept | rfl
        · exact invariant.broadcastsCurrent entry kept tx txMember txId
        · exact absurd txId
            (Nat.ne_of_lt (invariant.broadcastsBelow tx txMember))
      · intro entry member submitted
        rcases mem_pushPending member with kept | rfl
        · exact invariant.submitted entry kept submitted
        · simp [AgentState.pendingEntry] at submitted

theorem published_rewrites {op : QueueOp} {old new : PendingSignatureRequest}
    (rewrites : Rewrites op old new)
    (notSuperseding : ∀ dedupKey write, op ≠ .enqueueSuperseding dedupKey write) :
    publishedOf new = publishedOf old := by
  cases rewrites with
  | superseded intent keyed pending => exact absurd rfl (notSuperseding _ _)
  | rearmed calldata submitted => rfl
  | observed => rfl

/-- A write that never rewrites a published field cannot disturb the
surface. -/
theorem surfaceInvariant_otherWrite {world : SurfaceWorld} (op : QueueOp)
    (invariant : SurfaceInvariant world)
    (notSuperseding : ∀ dedupKey write, op ≠ .enqueueSuperseding dedupKey write)
    (notObserve : ∀ id txHash now, op ≠ .observe id txHash now) :
    SurfaceInvariant { world with agent := queueStep world.agent op } := by
  apply surfaceInvariant_queueStep _ invariant
  · intro old new _ rewrites _
    exact published_rewrites rewrites notSuperseding
  · intro id txHash now isObserve
    exact absurd isObserve (notObserve id txHash now)

theorem surfaceInvariant_observe {world : SurfaceWorld} {tx : BroadcastTx}
    {txHash : String} (now : Nat)
    (found : world.findBroadcast txHash = some tx)
    (invariant : SurfaceInvariant world) :
    SurfaceInvariant
      { world with agent := queueStep world.agent (.observe tx.id txHash now) } := by
  apply surfaceInvariant_queueStep _ invariant
  · intro old new _ rewrites _
    exact published_rewrites rewrites (fun _ _ => nofun)
  · intro id otherHash otherNow isObserve
    obtain ⟨rfl, rfl, rfl⟩ := QueueOp.observe.inj isObserve
    have sameHash : tx.txHash = txHash := by
      simpa using List.find?_some found
    exact ⟨tx, sameHash, rfl, found⟩

theorem surfaceInvariant_fetch {world : SurfaceWorld}
    (invariant : SurfaceInvariant world) :
    SurfaceInvariant { world with snapshot := world.agent.signatureRequests } := by
  refine ⟨invariant.queue, invariant.queue.below, invariant.broadcastsBelow, ?_,
    invariant.broadcastsCurrent, invariant.submitted⟩
  intro entry member held heldMember sameId _
  rw [invariant.queue.eq_of_id heldMember member sameId]

theorem surfaceInvariant_broadcast {world : SurfaceWorld} {id : Nat}
    {txHash : String} {entry : PendingSignatureRequest}
    (held : world.heldVersion id = some entry)
    (fresh : world.findBroadcast txHash = none)
    (invariant : SurfaceInvariant world) :
    SurfaceInvariant
      { world with
        broadcasts := ⟨txHash, id, publishedOf entry⟩ :: world.broadcasts } := by
  have heldMember := List.mem_of_find?_eq_some held
  obtain ⟨rfl, pending⟩ : entry.id = id ∧ entry.status = "pending" := by
    simpa using List.find?_some held
  refine ⟨invariant.queue, invariant.snapshotBelow, ?_,
    invariant.snapshotCurrent, ?_, ?_⟩
  · intro tx member
    rcases List.mem_cons.mp member with rfl | earlier
    · exact invariant.snapshotBelow entry heldMember
    · exact invariant.broadcastsBelow tx earlier
  · intro queued queuedMember tx member sameId
    rcases List.mem_cons.mp member with rfl | earlier
    · exact invariant.snapshotCurrent queued queuedMember entry heldMember
        sameId pending
    · exact invariant.broadcastsCurrent queued queuedMember tx earlier sameId
  · intro queued queuedMember submitted
    obtain ⟨tx, hash, sameId, found⟩ :=
      invariant.submitted queued queuedMember submitted
    refine ⟨tx, hash, sameId, ?_⟩
    have different : txHash ≠ tx.txHash := by
      rintro rfl
      rw [found] at fresh
      cases fresh
    exact (List.find?_cons_of_neg (by simp [different])).trans found

section Runs

variable [HashFunctions]

/-- A bid placed now does not change the pending entry of its job while the
surface holds a version of it. -/
def LeavesHeldAlone (writers : Writers) (world : SurfaceWorld) :
    SurfaceAction → Prop
  | .place jobId priceWei estimatedLatencyMs expiresBlock =>
      let write :=
        writers.placer.bidWrite jobId priceWei estimatedLatencyMs expiresBlock
      ∀ entry ∈ world.agent.pendingRequests,
        entry.intent = write.intent → entry.dedupKey = some (toString jobId) →
          entry.status = "pending" → Held world entry.id →
            publishedOf (AgentState.supersede write entry) = publishedOf entry
  | _ => True

theorem surfaceInvariant_place {writers : Writers} {world : SurfaceWorld}
    (invariant : SurfaceInvariant world)
    {jobId priceWei estimatedLatencyMs expiresBlock : Nat}
    (alone : LeavesHeldAlone writers world
      (.place jobId priceWei estimatedLatencyMs expiresBlock)) :
    SurfaceInvariant (world.step writers
      (.place jobId priceWei estimatedLatencyMs expiresBlock)) := by
  apply surfaceInvariant_queueStep (.enqueueSuperseding (toString jobId)
    (writers.placer.bidWrite jobId priceWei estimatedLatencyMs expiresBlock))
    invariant
  · intro old new oldMember rewrites isHeld
    cases rewrites with
    | superseded intent keyed pending =>
        have same := alone old oldMember intent keyed pending isHeld
        rw [AgentState.supersede, if_pos pending] at same
        exact same
  · intro id txHash now isObserve
    cases isObserve

theorem surfaceInvariant_step {writers : Writers} (world : SurfaceWorld)
    (action : SurfaceAction) (invariant : SurfaceInvariant world)
    (alone : LeavesHeldAlone writers world action) :
    SurfaceInvariant (world.step writers action) := by
  cases action with
  | place jobId priceWei estimatedLatencyMs expiresBlock =>
      exact surfaceInvariant_place invariant alone
  | request request =>
      exact surfaceInvariant_otherWrite
        (.enqueue (RelaySigner.writeOf request)) invariant
        (fun _ _ => nofun) (fun _ _ _ => nofun)
  | heartbeat =>
      exact surfaceInvariant_otherWrite
        (.enqueueRecurring (writers.sender.beatWrite heartbeatCalldata))
        invariant (fun _ _ => nofun) (fun _ _ _ => nofun)
  | fetch => exact surfaceInvariant_fetch invariant
  | broadcast id txHash =>
      simp only [SurfaceWorld.step]
      split
      · next entry held fresh =>
          exact surfaceInvariant_broadcast held fresh invariant
      · exact invariant
  | observe txHash now =>
      simp only [SurfaceWorld.step]
      split
      · next tx found => exact surfaceInvariant_observe now found invariant
      · exact invariant

/-- In every run in which no bid rewrites an entry the surface holds, every
submitted entry records what its transaction carried. -/
theorem publishedBid_isRecorded (writers : Writers)
    (schedule : List SurfaceAction)
    (alone : Runs.Along (SurfaceWorld.step writers) (LeavesHeldAlone writers)
      SurfaceWorld.initial schedule) :
    RecordsPublished
      (Runs.run (SurfaceWorld.step writers) SurfaceWorld.initial schedule) :=
  (Runs.invariant_run surfaceInvariant_step surfaceInvariant_initial
    alone).recordsPublished

end Runs

instance {hashes : HashFunctions} (writers : Writers) (world : SurfaceWorld) :
    ∀ action, Decidable (LeavesHeldAlone writers world action)
  | .place _ _ _ _ => inferInstanceAs (Decidable (∀ entry ∈ _, _ → _))
  | .request _ => isTrue trivial
  | .heartbeat => isTrue trivial
  | .fetch => isTrue trivial
  | .broadcast _ _ => isTrue trivial
  | .observe _ _ => isTrue trivial

def sampleWriters : Writers where
  placer := ⟨List.Vector.replicate 20 0x11, 40204⟩
  sender := ⟨List.Vector.replicate 20 0x22, 40204⟩

/-- A bid that is fetched, broadcast and reported at one price. -/
def steadyBid : List SurfaceAction :=
  [.place 7 100 300000 1000, .fetch, .broadcast 0 "0xfeed",
    .observe "0xfeed" 0]

/-- The same bid, superseded at a new price between fetch and broadcast. -/
def repricedBid : List SurfaceAction :=
  [.place 7 100 300000 1000, .fetch, .place 7 200 300000 1000,
    .broadcast 0 "0xfeed", .observe "0xfeed" 0]

theorem publishedBid_isRecorded_steady :
    RecordsPublished (Runs.run (@SurfaceWorld.step sampleHashes sampleWriters)
      SurfaceWorld.initial steadyBid) :=
  @publishedBid_isRecorded sampleHashes sampleWriters steadyBid
    (by decide +kernel)

theorem publishedBid_rewrittenWhileHeld :
    ¬∀ schedule, RecordsPublished
      (Runs.run (@SurfaceWorld.step sampleHashes sampleWriters)
        SurfaceWorld.initial schedule) :=
  fun always => absurd (always repricedBid) (by decide +kernel)

end NodeAgent.Node
