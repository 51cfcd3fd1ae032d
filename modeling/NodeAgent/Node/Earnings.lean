import NodeAgent.Library.Interaction
import NodeAgent.Node.Relay

/-!
# The earnings sweep

`earnings::plan_claim` decides when to claim, and the poller of
`node-agent::execution` asks the signer for the claim once per balance.  The
claim's calldata is the same four bytes on every sweep, so a submitted claim
that the queue still retains deduplicates the next one.
-/

namespace NodeAgent.Node

open Chainio Interaction Lifecycle Supervision

structure EarningsConfig where
  thresholdWei : Nat
  accounting : Address
  chainId : Nat

inductive EarningsAction
  | claim (request : SignatureRequest)
  | hold
deriving DecidableEq

/-- What a tick of the poller waits for. -/
inductive EarningsOp
  | claimable
  | write (updates : List StateUpdate)
  | request (request : SignatureRequest)

abbrev EarningsAnswer : EarningsOp → Type
  | .claimable => Except String Nat
  | .write _ => Unit
  | .request _ => Except JobSignerError TxObserved

/-- The poller's guard, beside the shared state it writes to. -/
structure EarningsWorld where
  agent : AgentState
  inFlight : Bool

/-- A tick that reads the balance, or an operation of another component on the
queue (an observation by the surface among them). -/
inductive EarningsStep
  | tick (reading : Except String Nat)
  | queue (op : QueueOp)

/-- One tick's operations on the shared state, with the relay as the signer.
The balance read is the environment's. -/
def earningsHandle (reading : Except String Nat) (agent : AgentState) :
    (op : EarningsOp) → EarningsAnswer op × AgentState
  | .claimable => (reading, agent)
  | .write updates => ((), applyUpdates updates agent)
  | .request request => RelaySigner.request request agent

section Poller

variable [HashFunctions]

/-- Claim at or above the threshold, unless a claim is in flight. -/
def planClaim (claimableWei : Nat) (claimInFlight : Bool)
    (cfg : EarningsConfig) : EarningsAction :=
  if claimInFlight ∨ claimableWei = 0 ∨ claimableWei < cfg.thresholdWei then
    .hold
  else
    .claim
      { intent := .claimRewards
        target := cfg.accounting
        calldata := encodeClaimRewards
        valueWei := 0
        chainId := cfg.chainId
        context := s!"claimRewards ({claimableWei} wei claimable)"
        expiresBlock := 0 }

/-- `EarningsPoller::tick`, with the guard passed in and returned. -/
def EarningsPoller.tick (cfg : EarningsConfig) (inFlight : Bool) :
    Program EarningsOp EarningsAnswer Bool := do
  match ← Program.perform EarningsOp.claimable with
  | .error error =>
      Program.perform
        (EarningsOp.write [.setLastError (some s!"claimable: {error}")])
      pure inFlight
  | .ok claimable =>
      if claimable = 0 then pure false
      else
        match planClaim claimable inFlight cfg with
        | .hold => pure inFlight
        | .claim request =>
            match ← Program.perform (EarningsOp.request request) with
            | .ok _ => pure true
            | .error _ => pure inFlight

def EarningsWorld.step (cfg : EarningsConfig) (world : EarningsWorld) :
    EarningsStep → EarningsWorld
  | .tick reading =>
      let (inFlight, agent) := (EarningsPoller.tick cfg world.inFlight).runOn
        (earningsHandle reading) world.agent
      ⟨agent, inFlight⟩
  | .queue op => { world with agent := queueStep world.agent op }

/-- The calldata string of every sweep. -/
def claimCalldata : String :=
  hexEncode encodeClaimRewards

/-- The tick with this reading asks for a claim. -/
def Claims (cfg : EarningsConfig) (world : EarningsWorld) :
    Except String Nat → Prop
  | .error _ => False
  | .ok claimable => planClaim claimable world.inFlight cfg ≠ .hold

/-- A claim the signing surface can sign. -/
def SignableClaim (agent : AgentState) : Prop :=
  ∃ entry ∈ agent.pendingRequests, entry.intent = WriteIntent.claimRewards.label ∧
    entry.calldata = claimCalldata ∧ entry.status = "pending"

/-- A tick that claims leaves a claim to sign. -/
def LeavesSignableClaim (cfg : EarningsConfig) (world : EarningsWorld) :
    EarningsStep → Prop
  | .tick reading => Claims cfg world reading →
      SignableClaim (world.step cfg (.tick reading)).agent
  | .queue _ => True

/-- A tick that claims finds no earlier claim retained as submitted. -/
def NoRetainedClaim (cfg : EarningsConfig) (world : EarningsWorld) :
    EarningsStep → Prop
  | .tick reading => Claims cfg world reading →
      ∀ entry ∈ world.agent.pendingRequests, entry.calldata = claimCalldata →
        entry.status ≠ "submitted"
  | .queue _ => True

/-- The other components do not queue the claim's calldata themselves. -/
def OtherWrites (_ : EarningsWorld) : EarningsStep → Prop
  | .tick _ => True
  | .queue (.enqueue write) => write.calldata ≠ claimCalldata
  | .queue (.enqueueSuperseding _ write) => write.calldata ≠ claimCalldata
  | .queue (.enqueueRecurring write) => write.calldata ≠ claimCalldata
  | .queue (.observe _ _ _) => True

theorem claims_iff {cfg : EarningsConfig} {world : EarningsWorld}
    {reading : Except String Nat} :
    Claims cfg world reading ↔
      ∃ claimable, reading = .ok claimable ∧
        ¬(world.inFlight = true ∨ claimable = 0 ∨
          claimable < cfg.thresholdWei) := by
  cases reading with
  | error error => simp [Claims]
  | ok claimable => simp [Claims, planClaim]

/-- The write a claiming tick hands to the queue. -/
def claimWrite (cfg : EarningsConfig) (claimable : Nat) : UnsignedWrite where
  intent := WriteIntent.claimRewards.label
  target := hexEncode cfg.accounting.toList
  calldata := claimCalldata
  valueWei := 0
  chainId := cfg.chainId
  context := s!"claimRewards ({claimable} wei claimable)"
  expiresBlock := 0

theorem step_claims {cfg : EarningsConfig} {world : EarningsWorld}
    {reading : Except String Nat} (claims : Claims cfg world reading) :
    ∃ claimable, world.step cfg (.tick reading) =
      ⟨queueStep world.agent (.enqueue (claimWrite cfg claimable)), true⟩ := by
  obtain ⟨claimable, rfl, due⟩ := claims_iff.mp claims
  have nonzero : claimable ≠ 0 := fun zero => due (Or.inr (Or.inl zero))
  refine ⟨claimable, ?_⟩
  simp only [EarningsWorld.step, EarningsPoller.tick, Program.perform_bind,
    Program.runOn_call, earningsHandle, if_neg nonzero, planClaim, if_neg due]
  rfl

theorem step_holds {cfg : EarningsConfig} {world : EarningsWorld}
    {reading : Except String Nat} (holds : ¬Claims cfg world reading) :
    (world.step cfg (.tick reading)).agent.pendingRequests =
        world.agent.pendingRequests ∧
      (world.step cfg (.tick reading)).agent.nextRequestId =
        world.agent.nextRequestId := by
  cases reading with
  | error error => exact ⟨rfl, rfl⟩
  | ok claimable =>
      by_cases zero : claimable = 0
      · subst zero
        exact ⟨rfl, rfl⟩
      · have notDue : world.inFlight = true ∨ claimable = 0 ∨
            claimable < cfg.thresholdWei := by
          by_contra due
          exact holds (claims_iff.mpr ⟨claimable, rfl, due⟩)
        simp only [EarningsWorld.step, EarningsPoller.tick,
          Program.perform_bind, Program.runOn_call, earningsHandle,
          if_neg zero, planClaim, if_pos notDue]
        exact ⟨rfl, rfl⟩

/-- Entries with the claim's calldata are plain claims. -/
structure EarningsInvariant (world : EarningsWorld) : Prop where
  queue : QueueInvariant world.agent
  claims : ∀ entry ∈ world.agent.pendingRequests,
    entry.calldata = claimCalldata →
      entry.intent = WriteIntent.claimRewards.label ∧ entry.dedupKey = none

theorem earningsInvariant_initial (inFlight : Bool) :
    EarningsInvariant ⟨AgentState.new, inFlight⟩ where
  queue := queueInvariant_new
  claims := by simp [AgentState.new]

/-- A queue operation keeps the invariant when what it appends or rewrites
with the claim's calldata is a plain claim. -/
theorem earningsInvariant_queueStep {world : EarningsWorld} {op : QueueOp}
    (invariant : EarningsInvariant world)
    (appended : ∀ {write dedupKey},
      Appends world.agent.pendingRequests op write dedupKey →
        write.calldata = claimCalldata →
          write.intent = WriteIntent.claimRewards.label ∧ dedupKey = none)
    (rewritten : ∀ {old new}, Rewrites op old new →
      new.calldata = claimCalldata → new.calldata = old.calldata)
    (inFlight : Bool) :
    EarningsInvariant ⟨queueStep world.agent op, inFlight⟩ where
  queue := queueInvariant_step world.agent op invariant.queue
  claims := dedicated_step invariant.claims appended rewritten

theorem earningsInvariant_step {cfg : EarningsConfig} (world : EarningsWorld)
    (action : EarningsStep) (invariant : EarningsInvariant world)
    (others : OtherWrites world action) :
    EarningsInvariant (world.step cfg action) := by
  cases action with
  | tick reading =>
      by_cases claims : Claims cfg world reading
      · obtain ⟨claimable, after⟩ := step_claims claims
        rw [after]
        apply earningsInvariant_queueStep invariant
        · intro write dedupKey appends _
          cases appends with
          | plain fresh => exact ⟨rfl, rfl⟩
        · intro old new rewrites _
          cases rewrites
      · obtain ⟨queue, counter⟩ := step_holds claims
        refine ⟨invariant.queue.congr queue counter, ?_⟩
        rw [queue]
        exact invariant.claims
  | queue op =>
      apply earningsInvariant_queueStep invariant
      · intro write dedupKey appends isClaim
        cases appends with
        | plain fresh => exact absurd isClaim others
        | keyed fresh => exact absurd isClaim others
        | recurring fresh => exact absurd isClaim others
      · intro old new rewrites isClaim
        cases rewrites with
        | superseded intent keyed pending => exact absurd isClaim others
        | rearmed calldata submitted => rfl
        | observed => rfl

/-- After queueing the claim, a pending claim is there exactly when no
submitted one was. -/
theorem signableClaim_enqueue {world : EarningsWorld} {cfg : EarningsConfig}
    (invariant : EarningsInvariant world) (claimable : Nat) :
    SignableClaim (queueStep world.agent (.enqueue (claimWrite cfg claimable))) ↔
      ∀ entry ∈ world.agent.pendingRequests, entry.calldata = claimCalldata →
        entry.status ≠ "submitted" := by
  have effect := queueEffect world.agent (.enqueue (claimWrite cfg claimable))
  by_cases found : ∃ entry ∈ world.agent.pendingRequests,
      entry.calldata = claimCalldata
  · obtain ⟨existing, existingMember, isClaim⟩ := found
    have unique : ∀ entry ∈ world.agent.pendingRequests,
        entry.calldata = claimCalldata → entry = existing := by
      intro entry member alsoClaim
      exact Dedicated.unique invariant.claims invariant.queue member
        existingMember alsoClaim isClaim
    have unchanged :
        (queueStep world.agent (.enqueue (claimWrite cfg claimable))).pendingRequests
          = world.agent.pendingRequests := by
      generalize queueStep world.agent _ = next at effect ⊢
      generalize (QueueOp.perform world.agent _).1 = returned at effect
      cases effect with
      | kept queue counter names => exact queue
      | rewritten rewrites split queue counter names => cases rewrites
      | appended appends =>
          cases appends with
          | plain fresh => exact absurd isClaim (fresh existing existingMember)
    unfold SignableClaim
    rw [unchanged]
    have agrees := invariant.queue.status existing existingMember
    constructor
    · intro signable entry member alsoClaim
      obtain ⟨pendingEntry, pendingMember, -, pendingClaim, pending⟩ := signable
      rw [unique entry member alsoClaim,
        ← unique pendingEntry pendingMember pendingClaim, pending]
      decide
    · intro unsubmitted
      refine ⟨existing, existingMember,
        (invariant.claims existing existingMember isClaim).1, isClaim, ?_⟩
      exact agrees.unsubmitted_iff.mp
        (unsubmitted existing existingMember isClaim)
  · have fresh : ∀ entry ∈ world.agent.pendingRequests,
        entry.calldata ≠ claimCalldata :=
      fun entry member isClaim => found ⟨entry, member, isClaim⟩
    constructor
    · intro _ entry member isClaim
      exact absurd isClaim (fresh entry member)
    · intro _
      rw [enqueue_fresh fresh]
      exact ⟨_, pendingEntry_mem_pushPending _ _ _, rfl, rfl, rfl⟩

/-- In every run, every tick that claims leaves a claim to sign exactly when
every tick that claims finds no earlier claim retained as submitted. -/
theorem sweep_signable_iff (cfg : EarningsConfig)
    (schedule : List EarningsStep)
    (others : Runs.Along (EarningsWorld.step cfg) OtherWrites
      ⟨AgentState.new, false⟩ schedule) :
    Runs.Along (EarningsWorld.step cfg) (LeavesSignableClaim cfg)
        ⟨AgentState.new, false⟩ schedule ↔
      Runs.Along (EarningsWorld.step cfg) (NoRetainedClaim cfg)
        ⟨AgentState.new, false⟩ schedule := by
  apply Runs.along_congr_of_invariant earningsInvariant_step _
    (earningsInvariant_initial false) others
  intro world action invariant _
  cases action with
  | queue op => exact Iff.rfl
  | tick reading =>
      apply imp_congr_right
      intro claims
      obtain ⟨claimable, after⟩ := step_claims claims
      rw [after]
      exact signableClaim_enqueue invariant claimable

end Poller

instance {hashes : HashFunctions} (cfg : EarningsConfig) (world : EarningsWorld) :
    ∀ reading, Decidable (Claims cfg world reading)
  | .error _ => isFalse id
  | .ok _ => inferInstanceAs (Decidable (_ ≠ _))

instance {hashes : HashFunctions} (agent : AgentState) :
    Decidable (SignableClaim agent) :=
  inferInstanceAs (Decidable (∃ entry ∈ _, _))

instance {hashes : HashFunctions} (cfg : EarningsConfig) (world : EarningsWorld) :
    ∀ action, Decidable (LeavesSignableClaim cfg world action)
  | .tick _ => inferInstanceAs (Decidable (_ → _))
  | .queue _ => isTrue trivial

instance {hashes : HashFunctions} (world : EarningsWorld) :
    ∀ action, Decidable (OtherWrites world action)
  | .tick _ => isTrue trivial
  | .queue (.enqueue _) => inferInstanceAs (Decidable (_ ≠ _))
  | .queue (.enqueueSuperseding _ _) => inferInstanceAs (Decidable (_ ≠ _))
  | .queue (.enqueueRecurring _) => inferInstanceAs (Decidable (_ ≠ _))
  | .queue (.observe _ _ _) => isTrue trivial

def sampleEarnings : EarningsConfig where
  thresholdWei := 100
  accounting := List.Vector.replicate 20 0x33
  chainId := 40204

/-- A sweep that lands, and a second one once new earnings have accrued. -/
def twoSweeps : List EarningsStep :=
  [.tick (.ok 150), .queue (.observe 0 "0xfeed" 0), .tick (.ok 0),
    .tick (.ok 150)]

theorem sweep_signable_iff_twoSweeps :
    Runs.Along (@EarningsWorld.step sampleHashes sampleEarnings)
        (@LeavesSignableClaim sampleHashes sampleEarnings)
        ⟨AgentState.new, false⟩ twoSweeps ↔
      Runs.Along (@EarningsWorld.step sampleHashes sampleEarnings)
        (@NoRetainedClaim sampleHashes sampleEarnings)
        ⟨AgentState.new, false⟩ twoSweeps :=
  @sweep_signable_iff sampleHashes sampleEarnings twoSweeps (by decide +kernel)

/-- The second sweep is swallowed: the first one is still retained. -/
theorem sweep_swallowed :
    ¬∀ schedule,
      Runs.Along (@EarningsWorld.step sampleHashes sampleEarnings)
        (@OtherWrites sampleHashes) ⟨AgentState.new, false⟩ schedule →
      Runs.Along (@EarningsWorld.step sampleHashes sampleEarnings)
        (@LeavesSignableClaim sampleHashes sampleEarnings)
        ⟨AgentState.new, false⟩ schedule :=
  fun always => absurd (always twoSweeps (by decide +kernel))
    (by decide +kernel)

end NodeAgent.Node
