import NodeAutomation.Workflow.Rename
import NodeAutomation.Workflow.ExtractedVariables
import NodeAutomation.Core.ImportExport
import NodeAutomation.Core.DisabledForwarding
import NodeAutomation.Core.WaitingConservation
import NodeAutomation.Core.RequestOrder
import NodeAutomation.Core.SettledExecution
import NodeAutomation.Core.RebuiltWaiting
import NodeAutomation.Workflow.SplitRegions
import NodeAutomation.Cli.TaskTermination
import NodeAutomation.Cli.TaskHandshake
import NodeAutomation.Cli.TaskMatching
import NodeAutomation.Cli.TaskOwnership
import NodeAutomation.Cli.CapacityRelease
import NodeAutomation.Cli.LiveTimers
import NodeAutomation.Cli.QueueRecovery
import NodeAutomation.Cli.WebhookCoherence
import NodeAutomation.Cli.WriteLock
import NodeAutomation.Cli.LeaderElection
import NodeAutomation.Db.OutboxSafety
import NodeAutomation.Crdt.SyncProvider
import NodeAutomation.Core.TrackedTriggers
import NodeAutomation.Cli.PublishedTriggers
import NodeAutomation.Cli.RunningTriggers
import NodeAutomation.Cli.TaskOutcomes
import NodeAutomation.TaskRunner.RunnerContract
import NodeAutomation.Cli.ColumnOrder
import NodeAutomation.ExpressionRuntime.FaithfulViews
import NodeAutomation.ExpressionRuntime.IsolateDisposal
import NodeAutomation.Cli.RedactedResponses
import NodeAutomation.Cli.TrimmedData
import NodeAutomation.Core.CycleStarts
import NodeAutomation.Core.FindStartNodes
import NodeAutomation.Core.WaitingEntries
import NodeAutomation.Core.RewireGraph
import NodeAutomation.Core.RefusedRequests
import NodeAutomation.Core.SubgraphBranches
import NodeAutomation.WorkflowSdk.ClosedSandbox
import NodeAutomation.Workflow.ConnectionInversion
import NodeAutomation.Workflow.ConnectedWithin
import NodeAutomation.Workflow.PositionalChanges
import NodeAutomation.Core.ResumedAttempts
import NodeAutomation.Core.InputData
import NodeAutomation.Workflow.ParameterOrder
import NodeAutomation.Workflow.FilterValidation
import NodeAutomation.Workflow.JoinedExpressions
import NodeAutomation.Workflow.TouchedReferences
import NodeAutomation.Cli.DataTableRows
import NodeAutomation.Cli.ChildOutcomes
import NodeAutomation.Cli.DataTableSizeValidator
import NodeAutomation.Core.RoutingNode
import NodeAutomation.WorkflowSdk.VariableNames
import NodeAutomation.Cli.DeduplicationHelper
import NodeAutomation.Cli.TestWebhooks
import NodeAutomation.Cli.ConcurrencyControl
import NodeAutomation.Cli.InsightsCollection
import NodeAutomation.Cli.LifecycleLock
import NodeAutomation.Cli.CircuitBreaker
import NodeAutomation.Cli.ExecutionRecovery
import NodeAutomation.Core.PollTriggers
import NodeAutomation.Core.PairedItems
import NodeAutomation.Core.ConnectionStore
import NodeAutomation.Cli.DynamicWebhooks
import NodeAutomation.Crdt.Protocol
import NodeAutomation.Crdt.NestedValues
import NodeAutomation.Workflow.FromAi
import NodeAutomation.Crdt.WebSocketTransport
import NodeAutomation.Workflow.NodeGrouping
import NodeAutomation.Core.KeptRuns
import NodeAutomation.Workflow.Relatives
