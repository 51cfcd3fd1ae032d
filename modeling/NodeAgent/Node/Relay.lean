import NodeAgent.Lifecycle.Plan
import NodeAgent.Supervision.Queue

/-!
# The node-agent side of the signing relay

`node-agent::relay`: each writer puts its unsigned write into the supervision
queue.  They differ only in the enqueue method and in where the fields come
from.
-/

namespace NodeAgent.Node

open Chainio Lifecycle Supervision

/-- The observed broadcast of a request; `none` when it was only queued. -/
structure TxObserved where
  txHash : Option String
deriving DecidableEq

inductive JobSignerError
  | relay (message : String)
deriving DecidableEq

def JobSignerError.display : JobSignerError → String
  | .relay message => s!"job signer relay failed: {message}"

namespace RelaySigner

def writeOf (request : SignatureRequest) : UnsignedWrite where
  intent := request.intent.label
  target := hexEncode request.target.toList
  calldata := hexEncode request.calldata
  valueWei := request.valueWei
  chainId := request.chainId
  context := request.context
  expiresBlock := request.expiresBlock

/-- Queue a request, deduplicated by calldata.  The relay itself never
fails. -/
def request (request : SignatureRequest) (state : AgentState) :
    Except JobSignerError TxObserved × AgentState :=
  (.ok ⟨none⟩, (state.enqueueSignatureRequest (writeOf request)).2)

end RelaySigner

inductive SendOutcome
  | broadcast
  | queued
deriving DecidableEq

inductive HeartbeatError
  | send (message : String)
deriving DecidableEq

structure RelayHeartbeatSender where
  monitor : Address
  chainId : Nat

namespace RelayHeartbeatSender

def beatWrite (sender : RelayHeartbeatSender) (calldata : Bytes) :
    UnsignedWrite where
  intent := WriteIntent.heartbeat.label
  target := hexEncode sender.monitor.toList
  calldata := hexEncode calldata
  valueWei := 0
  chainId := sender.chainId
  context := "heartbeat (provider liveness)"
  expiresBlock := 0

/-- Queue or re-arm the recurring heartbeat. -/
def sendHeartbeat (sender : RelayHeartbeatSender) (calldata : Bytes)
    (state : AgentState) : Except HeartbeatError SendOutcome × AgentState :=
  (.ok .queued,
    (state.enqueueRecurringSignatureRequest (sender.beatWrite calldata)).2)

end RelayHeartbeatSender

variable [HashFunctions]

/-- `heartbeat::heartbeat_calldata`. -/
def heartbeatCalldata : Bytes :=
  Selectors.heartbeat.toList

structure RelayBidPlacer where
  marketplace : Address
  chainId : Nat

namespace RelayBidPlacer

def bidWrite (placer : RelayBidPlacer)
    (jobId priceWei estimatedLatencyMs expiresBlock : Nat) : UnsignedWrite where
  intent := WriteIntent.bidOnJob.label
  target := hexEncode placer.marketplace.toList
  calldata := hexEncode (encodeBidOnJob jobId priceWei estimatedLatencyMs)
  valueWei := 0
  chainId := placer.chainId
  context := s!"bidOnJob job {jobId} at {priceWei} wei"
  expiresBlock := expiresBlock

/-- Queue the bid keyed on its job, superseding an unsigned one. -/
def place (placer : RelayBidPlacer)
    (jobId priceWei estimatedLatencyMs expiresBlock : Nat)
    (state : AgentState) : Except String Unit × AgentState :=
  (.ok (),
    (state.enqueueSupersedingSignatureRequest (toString jobId)
      (placer.bidWrite jobId priceWei estimatedLatencyMs expiresBlock)).2)

end RelayBidPlacer

end NodeAgent.Node
