import NodeAgent.Library.FirstMatch
import NodeAgent.Library.RelyGuarantee
import NodeAgent.Lifecycle.Plan
import NodeAgent.Supervision.Broadcast
import NodeAgent.Node.SigningSurface
import NodeAgent.Node.Earnings
import NodeAgent.Node.Bridge
import NodeAgent.Node.Daemon
import NodeAgent.Node.Pause
import NodeAgent.Executor.Models
import NodeAgent.Executor.Proof
import NodeAgent.Executor.Runtime
import NodeAgent.Node.Nonce
import NodeAgent.Node.Execution
import NodeAgent.Node.ExecutorPool
import NodeAgent.Node.StepRules
import NodeAgent.Node.CommitReveal
import NodeAgent.Node.JobSeparation
import NodeAgent.Node.Live
import NodeAgent.Node.Settlement
import NodeAgent.Node.Eligibility
import NodeAgent.Lifecycle.Deadline
import NodeAgent.Node.TierAgreement
import NodeAgent.Node.TornViews
import NodeAgent.Chainio.Pinning
import NodeAgent.Pinning.Plan
import NodeAgent.Pinning.Vesting
import NodeAgent.Supervision.Alerts
import NodeAgent.Node.Heartbeat
import NodeAgent.Supervision.Redelivery
import NodeAgent.Node.Payout
import NodeAgent.Supervision.Server
import NodeAgent.Library.Trace
import NodeAgent.Node.RunLoop
import NodeAgent.Node.StepOps
import NodeAgent.Library.History
import NodeAgent.Node.PostedInput
import NodeAgent.Bidder.Exact
import NodeAgent.Node.Clock
import NodeAgent.Chainio.Rpc
import NodeAgent.Node.BlockTime
import NodeAgent.Node.Narrowing
import NodeAgent.Executor.Verified
import NodeAgent.Node.StoreRecovery
import NodeAgent.Node.InFlight
import NodeAgent.Node.ClaimGuard
import NodeAgent.Chainio.Decoder
import NodeAgent.Chainio.Returns
import NodeAgent.Library.SolidityAbi
import NodeAgent.Chainio.ModelRegistry
import NodeAgent.Chainio.Calldata
import NodeAgent.Node.WriteIdentity
import NodeAgent.Pinning.Seal
import NodeAgent.Pinning.Tick
import NodeAgent.Pinning.BondSafety
import NodeAgent.Pinning.ContentBinding
import NodeAgent.Pinning.Backoff
import NodeAgent.Library.Base32
import NodeAgent.Executor.Base32
import NodeAgent.Node.CidGrammar
import NodeAgent.Chainio.CappedRead
import NodeAgent.Executor.Gateway
import NodeAgent.Library.Hex
import NodeAgent.Chainio.Hex
import NodeAgent.Node.HexParsers
import NodeAgent.Library.IpLiteral
import NodeAgent.Chainio.Outbound
import NodeAgent.Chainio.UrlGrammar
import NodeAgent.Node.WonStep
import NodeAgent.Node.Completion
import NodeAgent.Chainio.Reads
import NodeAgent.Library.Json
import NodeAgent.Chainio.JsonRpc
import NodeAgent.Chainio.Ledger
import NodeAgent.Node.Wire
import NodeAgent.Node.ServedViews
import NodeAgent.Node.WiredStep
import NodeAgent.Library.Fallible
import NodeAgent.Node.Token
import NodeAgent.Node.OfferedWrites
import NodeAgent.Bidder.ComputeSettings
import NodeAgent.Node.WiredLoop
import NodeAgent.Library.Utf8
import NodeAgent.Node.InputDrop
import NodeAgent.Executor.Completion
import NodeAgent.Node.WiredInference
