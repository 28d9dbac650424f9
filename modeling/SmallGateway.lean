import SmallGateway.AccessKeys
import SmallGateway.Adapters
import SmallGateway.AppSelection
import SmallGateway.AssumeRoleBody
import SmallGateway.AttributedCredentials
import SmallGateway.BodyInjection
import SmallGateway.BufferedBilling
import SmallGateway.CallerRaw
import SmallGateway.CanaryAnalysis
import SmallGateway.ChainedCall
import SmallGateway.ChangeDetection
import SmallGateway.ChunkInvariance
import SmallGateway.ColdFloor
import SmallGateway.CommittedVersion
import SmallGateway.ConstructGate
import SmallGateway.Containment
import SmallGateway.Correlation
import SmallGateway.CredentialExchange
import SmallGateway.CredentialKeys
import SmallGateway.Delivery
import SmallGateway.Dispatch
import SmallGateway.EscalationBand
import SmallGateway.EventHooks
import SmallGateway.EventOrder
import SmallGateway.Exporter
import SmallGateway.Fleet
import SmallGateway.FleetAlerts
import SmallGateway.FleetShares
import SmallGateway.FleetSpend
import SmallGateway.ForbiddenScan
import SmallGateway.FrameBounds
import SmallGateway.FrameRoundTrip
import SmallGateway.FullyApplied
import SmallGateway.JoinTokens
import SmallGateway.LabelTokens
import SmallGateway.Labels
import SmallGateway.LedgerCap
import SmallGateway.LedgerConservation
import SmallGateway.Lib.Base64
import SmallGateway.Lib.Chains
import SmallGateway.Lib.Choice
import SmallGateway.Lib.ExpiringCache
import SmallGateway.Lib.Flattening
import SmallGateway.Lib.Framing
import SmallGateway.Lib.Headers
import SmallGateway.Lib.OrderStatistics
import SmallGateway.Lib.PathSegments
import SmallGateway.Lib.Records
import SmallGateway.Lib.Runs
import SmallGateway.Lib.Sha256
import SmallGateway.Lib.Sorting
import SmallGateway.ManualGates
import SmallGateway.Migrations
import SmallGateway.NodeAlerts
import SmallGateway.Operator
import SmallGateway.OperatorReady
import SmallGateway.OperatorValue
import SmallGateway.Origins
import SmallGateway.OverrideGovernance
import SmallGateway.Partition
import SmallGateway.PathNormal
import SmallGateway.PersistentDivergence
import SmallGateway.PushAnswers
import SmallGateway.PushOrder
import SmallGateway.Reloads
import SmallGateway.RenderMemo
import SmallGateway.RepoRoundTrip
import SmallGateway.ReproducibleRenders
import SmallGateway.RequestBody
import SmallGateway.RequestChain
import SmallGateway.ResolvedTags
import SmallGateway.Rollback
import SmallGateway.RolledOut
import SmallGateway.RouteMatch
import SmallGateway.ScopeComposition
import SmallGateway.Sessions
import SmallGateway.SignedRequest
import SmallGateway.SilentZero
import SmallGateway.SingleUse
import SmallGateway.Sources
import SmallGateway.SpendWindow
import SmallGateway.Stamping
import SmallGateway.StreamCharges
import SmallGateway.StreamExactness
import SmallGateway.StreamFloor
import SmallGateway.StreamHandler
import SmallGateway.Supervisor
import SmallGateway.TemplateSubstitution
import SmallGateway.TerminalEvents
import SmallGateway.TerminalTap
import SmallGateway.Tokens
import SmallGateway.UpstreamHeaders
import SmallGateway.VerifiedRequest
import SmallGateway.VersionSequence
import SmallGateway.WalkShape
import SmallGateway.Watchdogs
import SmallGateway.WavePartition
import SmallGateway.WindowSpend
import SmallGateway.AlertBody
import SmallGateway.MockSts
