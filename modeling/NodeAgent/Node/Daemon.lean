import NodeAgent.Bidder.Evaluate
import NodeAgent.Library.Interaction
import NodeAgent.Node.Relay

/-!
# One tick of the daemon loop

`node-agent::daemon::tick` refreshes the market view, records the observation,
reads the pause flag, and places the bid the bidder decided.  Each access to
the shared state is a lock acquisition of its own, so a tick is a program whose
operations other parties can come between.
-/

namespace NodeAgent.Node

open Interaction Supervision

/-- One refreshed view of the market. -/
structure MarketSnapshot where
  caps : Bidder.Caps
  reputationBps : Nat
  stakeWei : Nat
  job : Bidder.Job
  oracle : Bidder.ComputePricingOracle
  bidExpiresBlock : Option Nat
deriving DecidableEq

inductive TickOutcome
  | skippedPaused
  | bid
  | noBid
  | refreshError
deriving DecidableEq

/-- The steps of a tick: the market refresh, one acquisition of the state's
lock (to write, or to read the pause flag), or the placing of a bid. -/
inductive DaemonOp
  | refresh
  | write (updates : List StateUpdate)
  | acceptsNewBids
  | place (jobId priceWei estimatedLatencyMs expiresBlock : Nat)
deriving DecidableEq

abbrev DaemonAnswer : DaemonOp → Type
  | .refresh => Except String MarketSnapshot
  | .write _ => Unit
  | .acceptsNewBids => Bool
  | .place _ _ _ _ => Except String Unit

/-- The last part of a tick, once the bidder decided. -/
def placeBid (snapshot : MarketSnapshot) (expiresBlock : Nat) :
    Bidder.BidDecision → Program DaemonOp DaemonAnswer TickOutcome
  | .bid jobId priceWei _ => do
      let latencyMs := snapshot.job.estimatedExecSecs * 1000
      let placed ← Program.perform
        (DaemonOp.place jobId priceWei latencyMs expiresBlock)
      match placed with
      | .error error =>
          Program.perform (DaemonOp.write
            [.setLastError (some s!"bid placement failed: {error}"),
              .setBidding true])
      | .ok () => Program.perform (DaemonOp.write [.setBidding true])
      return .bid
  | .skip _ _ => do
      Program.perform (DaemonOp.write [.setIdle])
      return .noBid

/-- The part of a tick after a successful refresh. -/
def tickOn (settings : Bidder.Settings) (snapshot : MarketSnapshot) :
    Program DaemonOp DaemonAnswer TickOutcome := do
  Program.perform (DaemonOp.write
    [.recordProviderObservation
        (FixedWidth.narrow 32 snapshot.caps.maxConcurrentJobs)
        snapshot.reputationBps snapshot.stakeWei,
      .setLastError none])
  match ← Program.perform DaemonOp.acceptsNewBids with
  | false => return .skippedPaused
  | true =>
      match snapshot.bidExpiresBlock with
      | none =>
          Program.perform (DaemonOp.write [.setIdle])
          return .noBid
      | some expiresBlock =>
          placeBid snapshot expiresBlock
            (Bidder.evaluate snapshot.job snapshot.oracle settings
              snapshot.caps)

/-- `daemon::tick`. -/
def tick (settings : Bidder.Settings) :
    Program DaemonOp DaemonAnswer TickOutcome := do
  match ← Program.perform DaemonOp.refresh with
  | .error error =>
      Program.perform (DaemonOp.write
        [.setLastError (some s!"market refresh failed: {error}"), .setIdle])
      return .refreshError
  | .ok snapshot => tickOn settings snapshot

variable [Chainio.HashFunctions]

/-- A tick's operations on the shared state, with bids placed through the
relay.  The refreshed view is the environment's. -/
def daemonHandle (placer : RelayBidPlacer) (agent : AgentState) :
    (op : DaemonOp) → Except String MarketSnapshot →
      DaemonAnswer op × AgentState
  | .refresh, view => (view, agent)
  | .write updates, _ => ((), applyUpdates updates agent)
  | .acceptsNewBids, _ => (agent.acceptsNewBids, agent)
  | .place jobId priceWei estimatedLatencyMs expiresBlock, _ =>
      placer.place jobId priceWei estimatedLatencyMs expiresBlock agent

end NodeAgent.Node
