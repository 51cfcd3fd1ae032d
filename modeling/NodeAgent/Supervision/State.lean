import NodeAgent.Library.FirstMatch
import NodeAgent.Library.FixedWidth

/-!
# The supervised agent's state

`supervision::state`: the one record that the daemon loop writes and the HTTP
handlers read, with the queue of unsigned writes for the signing surface.  A
method that takes `&mut self` is a function to the next state; the wall clock
is an argument.  The request ids come from a 64-bit counter, which is a natural
number here: no run considered mints 2^64 of them.
-/

namespace NodeAgent.Supervision

inductive LifecycleState
  | idle
  | bidding
  | executing
  | paused
deriving DecidableEq

def LifecycleState.asStr : LifecycleState → String
  | .idle => "idle"
  | .bidding => "bidding"
  | .executing => "executing"
  | .paused => "paused"

/-- The body of `GET /health`. -/
structure Health where
  state : LifecycleState
  heartbeatAgeSecs : Option Nat
  activeJobs : Nat
  maxConcurrent : Nat
  reputationBps : Nat
  lastError : Option String
  alert : Option String
deriving DecidableEq

/-- One queued chain write.  Numbers a JSON consumer could lose precision on
are decimal strings. -/
structure PendingSignatureRequest where
  id : Nat
  intent : String
  target : String
  calldata : String
  valueWei : String
  chainId : Nat
  context : String
  expiresBlock : String
  status : String
  txHash : Option String
  dedupKey : Option String
deriving DecidableEq

/-- The ceiling over which submitted entries are evicted. -/
def MAX_PENDING_REQUESTS : Nat := 256

/-- The arguments that the three enqueue methods share. -/
structure UnsignedWrite where
  intent : String
  target : String
  calldata : String
  valueWei : Nat
  chainId : Nat
  context : String
  expiresBlock : Nat
deriving DecidableEq

structure AgentState where
  paused : Bool
  bidding : Bool
  activeJobs : Nat
  maxConcurrent : Nat
  reputationBps : Nat
  lastHeartbeatUnix : Option Nat
  lastError : Option String
  pendingRequests : List PendingSignatureRequest
  nextRequestId : Nat
  alert : Option String
  prevReputationBps : Option Nat
  prevStakeWei : Option Nat
deriving DecidableEq

namespace AgentState

def new : AgentState where
  paused := false
  bidding := false
  activeJobs := 0
  maxConcurrent := 0
  reputationBps := 0
  lastHeartbeatUnix := none
  lastError := none
  pendingRequests := []
  nextRequestId := 0
  alert := none
  prevReputationBps := none
  prevStakeWei := none

def pause (state : AgentState) : AgentState :=
  { state with paused := true, bidding := false }

def resume (state : AgentState) : AgentState :=
  { state with paused := false }

def isPaused (state : AgentState) : Bool := state.paused

def acceptsNewBids (state : AgentState) : Bool := !state.paused

def setBidding (bidding : Bool) (state : AgentState) : AgentState :=
  if state.paused then { state with bidding := false }
  else { state with bidding := bidding }

def setIdle (state : AgentState) : AgentState :=
  { state with bidding := false }

def setActiveJobs (active : Nat) (state : AgentState) : AgentState :=
  { state with activeJobs := active }

def setProviderStats (maxConcurrent reputationBps : Nat) (state : AgentState) :
    AgentState :=
  { state with maxConcurrent := maxConcurrent, reputationBps := reputationBps }

/-- The alerts of one observation against the previous one: a reputation drop
of more than 5%, and any decrease of the stake. -/
def observationAlerts (reputationBps stakeWei : Nat) (state : AgentState) :
    List String :=
  (match state.prevReputationBps with
    | some prev =>
        if reputationBps * 100 < prev * 95 then
          [s!"reputation dropped >5% since last poll: {prev} → {reputationBps} bps"]
        else []
    | none => []) ++
  (match state.prevStakeWei with
    | some prev =>
        if stakeWei < prev then [s!"stake slashed: {prev} → {stakeWei} wei"]
        else []
    | none => [])

def recordProviderObservation (maxConcurrent reputationBps stakeWei : Nat)
    (state : AgentState) : AgentState :=
  let alerts := state.observationAlerts reputationBps stakeWei
  let alerted :=
    if alerts.isEmpty then state
    else { state with alert := some ("; ".intercalate alerts) }
  setProviderStats maxConcurrent reputationBps
    { alerted with
      prevReputationBps := some reputationBps
      prevStakeWei := some stakeWei }

def clearAlert (state : AgentState) : AgentState :=
  { state with alert := none }

/-- `record_heartbeat` at the wall-clock time `now`. -/
def recordHeartbeatAt (now : Nat) (state : AgentState) : AgentState :=
  { state with lastHeartbeatUnix := some now }

def setLastError (error : Option String) (state : AgentState) : AgentState :=
  { state with lastError := error }

/-- A freshly queued entry. -/
def pendingEntry (id : Nat) (write : UnsignedWrite) (dedupKey : Option String) :
    PendingSignatureRequest where
  id := id
  intent := write.intent
  target := write.target
  calldata := write.calldata
  valueWei := toString write.valueWei
  chainId := write.chainId
  context := write.context
  expiresBlock := toString write.expiresBlock
  status := "pending"
  txHash := none
  dedupKey := dedupKey

/-- Over the cap, drop the oldest submitted entries, front to back. -/
def evictIfOverCap (state : AgentState) : AgentState :=
  if state.pendingRequests.length ≤ MAX_PENDING_REQUESTS then state
  else
    { state with
      pendingRequests := FirstMatch.dropFirst
        (fun entry => entry.status = "submitted")
        (state.pendingRequests.length - MAX_PENDING_REQUESTS)
        state.pendingRequests }

/-- Append under the next id, then evict: the common tail of the enqueue
methods. -/
def pushPending (write : UnsignedWrite) (dedupKey : Option String)
    (state : AgentState) : Nat × AgentState :=
  (state.nextRequestId,
    evictIfOverCap
      { state with
        nextRequestId := state.nextRequestId + 1
        pendingRequests := state.pendingRequests ++
          [pendingEntry state.nextRequestId write dedupKey] })

/-- Enqueue, deduplicated by calldata.  Returns the request id. -/
def enqueueSignatureRequest (write : UnsignedWrite) (state : AgentState) :
    Nat × AgentState :=
  match state.pendingRequests.find? (fun entry =>
      entry.calldata = write.calldata) with
  | some existing => (existing.id, state)
  | none => state.pushPending write none

/-- The in-place update of a keyed entry: only a pending one is rewritten. -/
def supersede (write : UnsignedWrite) (existing : PendingSignatureRequest) :
    PendingSignatureRequest :=
  if existing.status = "pending" then
    { existing with
      calldata := write.calldata
      valueWei := toString write.valueWei
      context := write.context
      expiresBlock := toString write.expiresBlock }
  else existing

/-- Enqueue, deduplicated by `(intent, dedup_key)`; a pending entry is
superseded in place. -/
def enqueueSupersedingSignatureRequest (dedupKey : String)
    (write : UnsignedWrite) (state : AgentState) : Nat × AgentState :=
  let sameKey (entry : PendingSignatureRequest) : Bool :=
    entry.intent = write.intent ∧ entry.dedupKey = some dedupKey
  match state.pendingRequests.find? sameKey with
  | some existing =>
      (existing.id,
        { state with
          pendingRequests := state.pendingRequests.replaceF fun entry =>
            if sameKey entry then some (supersede write entry) else none })
  | none => state.pushPending write (some dedupKey)

/-- Flip a submitted entry back to pending. -/
def rearm (existing : PendingSignatureRequest) : PendingSignatureRequest :=
  if existing.status = "submitted" then
    { existing with status := "pending", txHash := none }
  else existing

/-- Enqueue a recurring write: an entry with this calldata is re-armed. -/
def enqueueRecurringSignatureRequest (write : UnsignedWrite)
    (state : AgentState) : Nat × AgentState :=
  let sameCalldata (entry : PendingSignatureRequest) : Bool :=
    entry.calldata = write.calldata
  match state.pendingRequests.find? sameCalldata with
  | some existing =>
      (existing.id,
        { state with
          pendingRequests := state.pendingRequests.replaceF fun entry =>
            if sameCalldata entry then some (rearm entry) else none })
  | none => state.enqueueSignatureRequest write

def signatureRequests (state : AgentState) : List PendingSignatureRequest :=
  state.pendingRequests

/-- The in-place update of an observed entry. -/
def submit (txHash : String) (existing : PendingSignatureRequest) :
    PendingSignatureRequest :=
  { existing with status := "submitted", txHash := some txHash }

/-- Mark a request signed and broadcast; an observed heartbeat also records
its time.  Returns whether the id was known. -/
def markRequestObserved (id : Nat) (txHash : String) (now : Nat)
    (state : AgentState) : Bool × AgentState :=
  match state.pendingRequests.find? (fun entry => entry.id = id) with
  | none => (false, state)
  | some existing =>
      let marked :=
        { state with
          pendingRequests := state.pendingRequests.replaceF fun entry =>
            if entry.id = id then some (submit txHash entry) else none }
      (true,
        if existing.intent = "heartbeat" then marked.recordHeartbeatAt now
        else marked)

/-- Precedence: paused, then executing, then bidding, then idle. -/
def lifecycle (state : AgentState) : LifecycleState :=
  if state.paused then .paused
  else if state.activeJobs > 0 then .executing
  else if state.bidding then .bidding
  else .idle

def heartbeatAgeSecsAt (now : Nat) (state : AgentState) : Option Nat :=
  state.lastHeartbeatUnix.map fun recorded => now - recorded

def healthAt (now : Nat) (state : AgentState) : Health where
  state := state.lifecycle
  heartbeatAgeSecs := state.heartbeatAgeSecsAt now
  activeJobs := state.activeJobs
  maxConcurrent := state.maxConcurrent
  reputationBps := state.reputationBps
  lastError := state.lastError
  alert := state.alert

end AgentState

/-- A write that the loop, the executor or the heartbeat makes to the shared
record outside the queue. -/
inductive StateUpdate
  | setBidding (bidding : Bool)
  | setIdle
  | setActiveJobs (active : Nat)
  | recordProviderObservation (maxConcurrent reputationBps stakeWei : Nat)
  | recordHeartbeat (now : Nat)
  | setLastError (error : Option String)
deriving DecidableEq

def StateUpdate.apply (state : AgentState) : StateUpdate → AgentState
  | .setBidding bidding => state.setBidding bidding
  | .setIdle => state.setIdle
  | .setActiveJobs active => state.setActiveJobs active
  | .recordProviderObservation maxConcurrent reputationBps stakeWei =>
      state.recordProviderObservation maxConcurrent reputationBps stakeWei
  | .recordHeartbeat now => state.recordHeartbeatAt now
  | .setLastError error => state.setLastError error

/-- The updates made while the lock is held once. -/
def applyUpdates (updates : List StateUpdate) (state : AgentState) :
    AgentState :=
  updates.foldl StateUpdate.apply state

/-- Updates outside the queue change neither the queue nor the pause flag. -/
theorem stateUpdate_frame (agent : AgentState) (update : StateUpdate) :
    (update.apply agent).pendingRequests = agent.pendingRequests ∧
      (update.apply agent).nextRequestId = agent.nextRequestId ∧
      (update.apply agent).paused = agent.paused := by
  cases update with
  | setBidding bidding =>
      simp only [StateUpdate.apply, AgentState.setBidding]
      split <;> exact ⟨rfl, rfl, rfl⟩
  | setIdle => exact ⟨rfl, rfl, rfl⟩
  | setActiveJobs active => exact ⟨rfl, rfl, rfl⟩
  | recordProviderObservation maxConcurrent reputationBps stakeWei =>
      simp only [StateUpdate.apply, AgentState.recordProviderObservation,
        AgentState.setProviderStats]
      split <;> exact ⟨rfl, rfl, rfl⟩
  | recordHeartbeat now => exact ⟨rfl, rfl, rfl⟩
  | setLastError error => exact ⟨rfl, rfl, rfl⟩

theorem applyUpdates_frame (updates : List StateUpdate) (agent : AgentState) :
    (applyUpdates updates agent).pendingRequests = agent.pendingRequests ∧
      (applyUpdates updates agent).nextRequestId = agent.nextRequestId ∧
      (applyUpdates updates agent).paused = agent.paused := by
  induction updates generalizing agent with
  | nil => exact ⟨rfl, rfl, rfl⟩
  | cons update rest ih =>
      obtain ⟨queue, counter, paused⟩ := ih (update.apply agent)
      obtain ⟨queue', counter', paused'⟩ := stateUpdate_frame agent update
      exact ⟨queue.trans queue', counter.trans counter', paused.trans paused'⟩

end NodeAgent.Supervision
