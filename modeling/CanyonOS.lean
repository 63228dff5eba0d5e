import CanyonOS.Lib.TransitionSystem
import CanyonOS.Lib.LastWrite
import CanyonOS.Lib.Inevitable
import CanyonOS.Lib.CodePoints
import CanyonOS.Lib.EventStream
import CanyonOS.Lib.Lines
import CanyonOS.Lib.JsonValue
import CanyonOS.Lib.JsonText
import CanyonOS.Lib.TimedSamples
import CanyonOS.Record
import CanyonOS.Controller.Calls
import CanyonOS.Controller.Pinned
import CanyonOS.Controller.Process
import CanyonOS.Controller.Delivery
import CanyonOS.Controller.Effects
import CanyonOS.Controller.Finality
import CanyonOS.Controller.Copies
import CanyonOS.Controller.Forwarding
import CanyonOS.Controller.FanOut
import CanyonOS.Controller.Custody
import CanyonOS.Controller.Drain
import CanyonOS.Controller.Removal
import CanyonOS.Controller.Counters
import CanyonOS.Controller.Heartbeat
import CanyonOS.Controller.IsoTime
import CanyonOS.Controller.Scaling
import CanyonOS.Controller.Cleanup
import CanyonOS.Controller.Leaving
import CanyonOS.Controller.Roots
import CanyonOS.Controller.Governance
import CanyonOS.Controller.Seeding
import CanyonOS.Lib.Shell
import CanyonOS.Controller.Waiting
import CanyonOS.Controller.GovernanceDocument
import CanyonOS.Controller.Reload
import CanyonOS.Controller.Retries
import CanyonOS.Telemetry.Traces
import CanyonOS.Telemetry.Queued
import CanyonOS.Telemetry.Polling
import CanyonOS.Telemetry.Export
import CanyonOS.Telemetry.Rollups
import CanyonOS.Telemetry.Destinations
import CanyonOS.Endpoint.Status
import CanyonOS.Endpoint.Questions
import CanyonOS.Operator.PublishRouting
import CanyonOS.Operator.ReplicaState
import CanyonOS.Operator.Rollout
import CanyonOS.Operator.Convergence
import CanyonOS.Reconciler.Routing
import CanyonOS.Reconciler.ScaleDown
import CanyonOS.Reconciler.Machines
import CanyonOS.Reconciler.Launching
import CanyonOS.Reconciler.Commands
import CanyonOS.Lib.FieldOwnership
import CanyonOS.Lib.FileTree
import CanyonOS.Gateway.Bedrock
import CanyonOS.Gateway.Streaming
import CanyonOS.Gateway.Proxy
import CanyonOS.Gateway.Pricing
import CanyonOS.Lib.Pattern
import CanyonOS.Usage.Delivery
import CanyonOS.Usage.OptOut
import CanyonOS.Prompts.Store
import CanyonOS.Operator.ApplyProject
import CanyonOS.Cli.Sync
import CanyonOS.Cli.Fingerprints
import CanyonOS.Lib.Interleaving
import CanyonOS.Controller.LogEntries
import CanyonOS.Lib.Trimming
import CanyonOS.Operator.AgentNames
import CanyonOS.Lib.Numbers
import CanyonOS.Gateway.Routing
import CanyonOS.Lib.Prototypes
import CanyonOS.Telemetry.Ingest
import CanyonOS.Gateway.Recording
import CanyonOS.Controller.PolicyAccess
import CanyonOS.Lib.Doubles
import CanyonOS.Controller.ScalingDocument
import CanyonOS.Lib.Buckets
import CanyonOS.Telemetry.Monitoring
import CanyonOS.Controller.Rounding
import CanyonOS.Telemetry.TokenCounts
import CanyonOS.Cli.ContainerLogs
import CanyonOS.Lib.Histogram
import CanyonOS.Telemetry.RequestSpans
import CanyonOS.Telemetry.Distribution
import CanyonOS.Telemetry.TimeSeries
import CanyonOS.Gateway.SystemPrompt
import CanyonOS.Lib.Versions
import CanyonOS.Cli.RequirementLimits
import CanyonOS.Prompts.Handover
import CanyonOS.Cli.FunctionsSchema
import CanyonOS.Cli.StubGenerator
import CanyonOS.Lib.Triples
import CanyonOS.Reconciler.Passes
import CanyonOS.Reconciler.Staying
import CanyonOS.Reconciler.SmoothPass
import CanyonOS.Reconciler.Settling
