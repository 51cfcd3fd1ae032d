import NodeAgent.Library.RelyGuarantee
import NodeAgent.Node.Daemon

/-!
# Pausing the daemon

The pause handlers run between any two lock acquisitions of a tick.  A tick
reads the pause flag under one acquisition and places its bid under a later
one, so a pause that comes in between does not stop that bid.
-/

namespace NodeAgent.Node

open Chainio Interaction Lifecycle RelyGuarantee Supervision

/-- The two control handlers. -/
inductive ControlEvent
  | pause
  | resume
deriving DecidableEq

/-- The daemon's ticks, one after the other, each with the settings of its
time. -/
abbrev TickPool := Pool Unit DaemonOp DaemonAnswer Unit AgentState

abbrev TickAction :=
  Action Unit Bidder.Settings (Except String MarketSnapshot) ControlEvent

def tickSystem [HashFunctions] (placer : RelayBidPlacer) :
    System Unit Bidder.Settings Unit DaemonOp DaemonAnswer
      (Except String MarketSnapshot) AgentState ControlEvent where
  exec := fun _ agent op view => daemonHandle placer agent op view
  disturb := fun agent event =>
    match event with
    | .pause => agent.pause
    | .resume => agent.resume
  body := fun _ settings _ => do
    let _ ← tick settings
    return ()
  fresh := ()

/-- The daemon has decided on a bid and waits for the lock to place it. -/
def aboutToPlace (pool : TickPool) : Bool :=
  match pool.threads () with
  | .waiting (.place _ _ _ _) _ => true
  | _ => false

/-- A pause does not come between the decision to bid and the placing. -/
def PauseSparesDecision (pool : TickPool) : TickAction → Prop
  | .interfere .pause => aboutToPlace pool = false
  | _ => True

/-- Every bid in the queue was there before, unchanged. -/
def BidsFrozen (before after : AgentState) : Prop :=
  ∀ entry ∈ after.pendingRequests, entry.intent = WriteIntent.bidOnJob.label →
    entry ∈ before.pendingRequests

/-- While paused a step leaves the bids alone, and a paused state does not
report bidding. -/
def QuietWhilePaused (step : TickPool → TickAction → TickPool)
    (pool : TickPool) (action : TickAction) : Prop :=
  (pool.world.isPaused = true → BidsFrozen pool.world (step pool action).world) ∧
    ((step pool action).world.isPaused = true →
      (step pool action).world.lifecycle ≠ .bidding)

def isPlace : DaemonOp → Bool
  | .place _ _ _ _ => true
  | _ => false

/-- The answer says that bids are accepted. -/
def opens : (op : DaemonOp) → DaemonAnswer op → Bool
  | .acceptsNewBids, answer => answer
  | _, _ => false

/-- Every bid is placed right after the pause flag was read as clear.
`mayPlace` says whether it has just been. -/
def Guarded {α : Type} :
    Bool → Program DaemonOp DaemonAnswer α → Prop
  | _, .done _ => True
  | mayPlace, .call op next =>
      (isPlace op = true → mayPlace = true) ∧
        ∀ answer, Guarded (opens op answer) (next answer)

theorem guarded_placeBid (snapshot : MarketSnapshot) (expiresBlock : Nat)
    (decision : Bidder.BidDecision) :
    Guarded true (placeBid snapshot expiresBlock decision >>= fun _ =>
      (pure () : Program DaemonOp DaemonAnswer Unit)) := by
  cases decision with
  | bid jobId priceWei estimatedCostWei =>
      refine ⟨fun _ => rfl, ?_⟩
      intro placed
      cases placed with
      | error error => exact ⟨nofun, fun _ => trivial⟩
      | ok placed => exact ⟨nofun, fun _ => trivial⟩
  | skip jobId reason => exact ⟨nofun, fun _ => trivial⟩

theorem guarded_tick (settings : Bidder.Settings) :
    Guarded false (tick settings >>= fun _ =>
      (pure () : Program DaemonOp DaemonAnswer Unit)) := by
  refine ⟨nofun, ?_⟩
  intro view
  cases view with
  | error error => exact ⟨nofun, fun _ => trivial⟩
  | ok snapshot =>
      refine ⟨nofun, fun _ => ⟨nofun, ?_⟩⟩
      intro accepts
      cases accepts with
      | false => trivial
      | true =>
          change Guarded true _
          cases snapshot.bidExpiresBlock with
          | none =>
              simp only
              exact ⟨nofun, fun _ => trivial⟩
          | some expiresBlock =>
              simp only
              exact guarded_placeBid snapshot expiresBlock _

/-- A waiting tick is about to place only while the agent is unpaused, and
what follows is guarded. -/
def PauseInvariant (pool : TickPool) : Prop :=
  match pool.threads () with
  | .idle _ => True
  | .waiting op next =>
      (isPlace op = true → pool.world.paused = false) ∧
        ∀ answer, Guarded (opens op answer) (next answer)

theorem pauseInvariant_ofProgram {pool : TickPool} (mayPlace : Bool)
    (program : Program DaemonOp DaemonAnswer Unit)
    (isThread : pool.threads () = .ofProgram program)
    (guarded : Guarded mayPlace program)
    (opened : mayPlace = true → pool.world.paused = false) :
    PauseInvariant pool := by
  unfold PauseInvariant
  rw [isThread]
  cases program with
  | done value => trivial
  | call op next =>
      exact ⟨fun place => opened (guarded.1 place), guarded.2⟩

section Runs

variable [HashFunctions]

theorem daemonHandle_paused (placer : RelayBidPlacer) (agent : AgentState)
    (op : DaemonOp) (view : Except String MarketSnapshot) :
    (daemonHandle placer agent op view).2.paused = agent.paused := by
  cases op with
  | refresh => rfl
  | write updates => exact (applyUpdates_frame updates agent).2.2
  | acceptsNewBids => rfl
  | place jobId priceWei estimatedLatencyMs expiresBlock =>
      exact queueStep_paused agent (.enqueueSuperseding (toString jobId)
        (placer.bidWrite jobId priceWei estimatedLatencyMs expiresBlock))

theorem daemonHandle_queue (placer : RelayBidPlacer) (agent : AgentState)
    {op : DaemonOp} (view : Except String MarketSnapshot)
    (notPlace : isPlace op = false) :
    (daemonHandle placer agent op view).2.pendingRequests =
      agent.pendingRequests := by
  cases op with
  | refresh => rfl
  | write updates => exact (applyUpdates_frame updates agent).1
  | acceptsNewBids => rfl
  | place jobId priceWei estimatedLatencyMs expiresBlock => cases notPlace

theorem daemonHandle_opens {placer : RelayBidPlacer} {agent : AgentState}
    {op : DaemonOp} {view : Except String MarketSnapshot}
    (opened : opens op (daemonHandle placer agent op view).1 = true) :
    agent.paused = false := by
  cases op with
  | refresh => cases opened
  | write updates => cases opened
  | acceptsNewBids =>
      simpa [opens, daemonHandle, AgentState.acceptsNewBids] using opened
  | place jobId priceWei estimatedLatencyMs expiresBlock => cases opened

theorem pauseInvariant_step {placer : RelayBidPlacer} (pool : TickPool)
    (action : TickAction) (invariant : PauseInvariant pool)
    (spared : PauseSparesDecision pool action) :
    PauseInvariant ((tickSystem placer).step pool action) := by
  cases action with
  | start thread settings =>
      cases state : pool.threads () with
      | waiting op next => simpa [System.step, state] using invariant
      | idle memory =>
          refine pauseInvariant_ofProgram false
            ((tickSystem placer).body () settings memory) ?_
            (guarded_tick settings)
            (fun opened => absurd opened Bool.false_ne_true)
          simp [System.step, state]
  | advance thread view =>
      cases state : pool.threads () with
      | idle memory => simpa [System.step, state] using invariant
      | waiting op next =>
          unfold PauseInvariant at invariant
          simp only [state] at invariant
          obtain ⟨placesUnpaused, guarded⟩ := invariant
          refine pauseInvariant_ofProgram
            (opens op (daemonHandle placer pool.world op view).1)
            (next (daemonHandle placer pool.world op view).1)
            ?_ (guarded _) ?_
          · simp [System.step, state, tickSystem]
          · intro opened
            have unpaused := daemonHandle_opens opened
            simp only [System.step, state, tickSystem]
            rw [daemonHandle_paused]
            exact unpaused
  | crash thread => simp [PauseInvariant, System.step]
  | interfere event =>
      cases state : pool.threads () with
      | idle memory => simp [PauseInvariant, System.step, state]
      | waiting op next =>
          unfold PauseInvariant at invariant ⊢
          simp only [state] at invariant
          simp only [System.step, state]
          refine ⟨?_, invariant.2⟩
          intro place
          cases event with
          | resume => rfl
          | pause =>
              simp only [PauseSparesDecision, aboutToPlace, state] at spared
              cases op <;> simp [isPlace] at place spared

/-- Under the invariant a step leaves bids alone while paused. -/
theorem quietWhilePaused_step {placer : RelayBidPlacer} (pool : TickPool)
    (action : TickAction) (invariant : PauseInvariant pool) :
    QuietWhilePaused (tickSystem placer).step pool action := by
  constructor
  · intro paused entry member _
    cases action with
    | start thread settings =>
        cases state : pool.threads () <;>
          simpa [System.step, state] using member
    | advance thread view =>
        cases state : pool.threads () with
        | idle memory => simpa [System.step, state] using member
        | waiting op next =>
            have notPlace : isPlace op = false := by
              unfold PauseInvariant at invariant
              simp only [state] at invariant
              by_contra place
              have unpaused := invariant.1 (by simpa using place)
              rw [AgentState.isPaused, unpaused] at paused
              cases paused
            simp only [System.step, state, tickSystem] at member
            rwa [daemonHandle_queue placer pool.world view notPlace] at member
    | crash thread => simpa [System.step] using member
    | interfere event => cases event <;> exact member
  · intro paused
    generalize ((tickSystem placer).step pool action).world = agent at paused ⊢
    simp only [AgentState.isPaused] at paused
    simp [AgentState.lifecycle, paused]

/-- In every run in which no pause falls between a tick's decision to bid and
the placing of that bid, pausing stops all bids. -/
theorem pause_stopsBids (placer : RelayBidPlacer) (schedule : List TickAction)
    (spared : Runs.Along (tickSystem placer).step PauseSparesDecision
      ((tickSystem placer).initial AgentState.new) schedule) :
    Runs.Along (tickSystem placer).step
      (QuietWhilePaused (tickSystem placer).step)
      ((tickSystem placer).initial AgentState.new) schedule :=
  Runs.along_of_invariant pauseInvariant_step
    (fun pool action invariant _ => quietWhilePaused_step pool action invariant)
    trivial spared

end Runs

instance (pool : TickPool) :
    ∀ action, Decidable (PauseSparesDecision pool action)
  | .interfere .pause => inferInstanceAs (Decidable (_ = _))
  | .interfere .resume => isTrue trivial
  | .start _ _ => isTrue trivial
  | .advance _ _ => isTrue trivial
  | .crash _ => isTrue trivial

instance (before after : AgentState) : Decidable (BidsFrozen before after) :=
  inferInstanceAs (Decidable (∀ entry ∈ _, _ → _))

instance (step : TickPool → TickAction → TickPool) (pool : TickPool)
    (action : TickAction) : Decidable (QuietWhilePaused step pool action) :=
  inferInstanceAs (Decidable ((_ → _) ∧ (_ → _)))

def sampleSettings : Bidder.Settings where
  enabled := true
  schedule := .always
  currentHour := 12
  currentMin := 0
  currentDay := .mon

/-- A view in which the bidder bids. -/
def sampleSnapshot : MarketSnapshot where
  caps := ⟨0, 4⟩
  reputationBps := 9000
  stakeWei := 10 ^ 18
  job := ⟨7, 4 * 10 ^ 18, .commitment, 10 ^ 17, 300, 100000⟩
  oracle := ⟨10 ^ 18, false⟩
  bidExpiresBlock := some 1000

def samplePlacer : RelayBidPlacer :=
  ⟨List.Vector.replicate 20 0x11, 40204⟩

/-- Refresh, record, then a pause before the flag is read. -/
def pauseBeforeRead : List TickAction :=
  [.start () sampleSettings, .advance () (.ok sampleSnapshot),
    .advance () (.ok sampleSnapshot), .interfere .pause,
    .advance () (.ok sampleSnapshot), .interfere .resume]

/-- Refresh, record, read the flag, then a pause before the bid is placed. -/
def pauseBeforePlace : List TickAction :=
  [.start () sampleSettings, .advance () (.ok sampleSnapshot),
    .advance () (.ok sampleSnapshot), .advance () (.ok sampleSnapshot),
    .interfere .pause, .advance () (.ok sampleSnapshot)]

theorem pause_stopsBids_beforeRead :
    Runs.Along (@tickSystem sampleHashes samplePlacer).step
      (QuietWhilePaused (@tickSystem sampleHashes samplePlacer).step)
      ((@tickSystem sampleHashes samplePlacer).initial AgentState.new)
      pauseBeforeRead :=
  @pause_stopsBids sampleHashes samplePlacer pauseBeforeRead
    (by decide +kernel)

theorem pause_missesDecidedBid :
    ¬∀ schedule, Runs.Along (@tickSystem sampleHashes samplePlacer).step
      (QuietWhilePaused (@tickSystem sampleHashes samplePlacer).step)
      ((@tickSystem sampleHashes samplePlacer).initial AgentState.new)
      schedule :=
  fun always => absurd (always pauseBeforePlace) (by decide +kernel)

end NodeAgent.Node
