import DdsOrchestrator.Lib.Machine
import DdsOrchestrator.Lib.Loop
import DdsOrchestrator.Lib.Assoc
import DdsOrchestrator.Lib.Sha256
import DdsOrchestrator.Lib.Joined
import DdsOrchestrator.WorkflowEngine.Ledger
import DdsOrchestrator.WorkflowEngine.Publication
import DdsOrchestrator.WorkflowEngine.Boundary
import DdsOrchestrator.WorkflowEngine.Recovery
import DdsOrchestrator.WorkflowEngine.Cancellation
import DdsOrchestrator.WorkflowEngine.Finality
import DdsOrchestrator.WorkflowEngine.Redelivery
import DdsOrchestrator.WorkflowEngine.Restart
import DdsOrchestrator.WorkflowEngine.InDoubt
import DdsOrchestrator.WorkflowEngine.Completion
import DdsOrchestrator.WorkflowEngine.Routing
import DdsOrchestrator.WorkflowEngine.Atomicity
import DdsOrchestrator.WorkflowEngine.Isolation
import DdsOrchestrator.WorkflowEngine.Outbox
import DdsOrchestrator.WorkflowEngine.Outcomes
import DdsOrchestrator.WorkflowEngine.Order
import DdsOrchestrator.WorkflowEngine.Admission
import DdsOrchestrator.WorkflowEngine.EffectiveLimits
import DdsOrchestrator.Dataspace.WorkflowSpace
import DdsOrchestrator.WorkflowEngine.Revisions
import DdsOrchestrator.Lib.History
import DdsOrchestrator.Lib.Json
import DdsOrchestrator.Lib.JsonText
import DdsOrchestrator.McpGateway.ExactlyOnce
import DdsOrchestrator.McpGateway.FailClosed
import DdsOrchestrator.McpGateway.StoreAgreement
import DdsOrchestrator.McpGateway.Agreement
import DdsOrchestrator.Lib.FileTree
import DdsOrchestrator.McpGateway.Sandbox
import DdsOrchestrator.PolicyEngine.Updates
import DdsOrchestrator.PolicyEngine.RoleOrder
import DdsOrchestrator.PolicyEngine.RateLimit
import DdsOrchestrator.PolicyEngine.DeltaAlgebra
import DdsOrchestrator.Lib.Lines
import DdsOrchestrator.ContextStore.TornWrite
import DdsOrchestrator.Dataspace.Wire
import DdsOrchestrator.Lib.Latest
import DdsOrchestrator.WorkflowEngine.Eligibility
import DdsOrchestrator.Agent.Convergence
import DdsOrchestrator.Agent.Barrier
import DdsOrchestrator.Dataspace.WorkflowCaches
import DdsOrchestrator.WorkflowEngine.Projection
import DdsOrchestrator.Agent.Predecessors
import DdsOrchestrator.Dataspace.Accounting
import DdsOrchestrator.Dataspace.ImmutableTopics
import DdsOrchestrator.Dataspace.Restore
import DdsOrchestrator.Lib.Capped
import DdsOrchestrator.Dataspace.TopicCaches
import DdsOrchestrator.Dataspace.AdmissionContract
import DdsOrchestrator.Dataspace.TaskCache
import DdsOrchestrator.Dataspace.TerminalTasks
import DdsOrchestrator.Dataspace.ToolCallProgress
import DdsOrchestrator.Dataspace.ChunkLists
import DdsOrchestrator.Dataspace.InMemory
import DdsOrchestrator.Dataspace.CompositeKeys
import DdsOrchestrator.Dataspace.WakeUps
import DdsOrchestrator.Dataspace.Drain
import DdsOrchestrator.Agent.Claim
import DdsOrchestrator.Orchestrator.StateMachine
import DdsOrchestrator.Orchestrator.Dds
import DdsOrchestrator.Orchestrator.Reassignment
import DdsOrchestrator.Orchestrator.Deadlines
import DdsOrchestrator.Orchestrator.Dispatch
import DdsOrchestrator.LlmGateway.Breaker
import DdsOrchestrator.LlmGateway.Gateway
import DdsOrchestrator.LlmGateway.Constraint
import DdsOrchestrator.LlmGateway.Correlation
import DdsOrchestrator.LlmGateway.FifoCache
import DdsOrchestrator.LlmGateway.AvailabilityQueries
import DdsOrchestrator.LlmGateway.FailoverOrder
import DdsOrchestrator.Lib.Ownership
import DdsOrchestrator.Agent.Exclusive
import DdsOrchestrator.Dataspace.WriterPool
import DdsOrchestrator.Agent.Publish
import DdsOrchestrator.Agent.Capacity
import DdsOrchestrator.Agent.EngineStream
import DdsOrchestrator.Lib.Numbered
import DdsOrchestrator.Client.Submit
import DdsOrchestrator.Client.SubmitStream
import DdsOrchestrator.Client.Answer
import DdsOrchestrator.Agent.Deferral
import DdsOrchestrator.Lib.FirstMax
import DdsOrchestrator.LayaWorker.Decide
import DdsOrchestrator.LayaWorker.Errors
import DdsOrchestrator.LayaWorker.Predictions
import DdsOrchestrator.Lib.PrefixCode
import DdsOrchestrator.LayaWorker.Digest
import DdsOrchestrator.LayaWorker.Unambiguous
import DdsOrchestrator.LayaWorker.Fixture
import DdsOrchestrator.LayaWorker.WireBounds
import DdsOrchestrator.Lib.Retained
import DdsOrchestrator.Lib.UntilFirst
import DdsOrchestrator.Lib.LineFile
import DdsOrchestrator.Studio.TornJournal
import DdsOrchestrator.Studio.Pairing
import DdsOrchestrator.Studio.Actuation
import DdsOrchestrator.Studio.Storage
import DdsOrchestrator.Studio.OperationHistory
import DdsOrchestrator.Studio.ConflictRevision
import DdsOrchestrator.Studio.Node
import DdsOrchestrator.Studio.RunnerExclusive
import DdsOrchestrator.StudioSsh.ExitReport
import DdsOrchestrator.StudioSsh.Pinning
import DdsOrchestrator.Orchestrator.HttpAdmission
import DdsOrchestrator.Lib.LongestChain
import DdsOrchestrator.WorkflowEngine.PlanContract
import DdsOrchestrator.WorkflowEngine.ReservationArithmetic
import DdsOrchestrator.WorkflowEngine.DecisionContract
import DdsOrchestrator.WorkflowEngine.CapabilityOrder
import DdsOrchestrator.WorkflowEngine.LowCost
import DdsOrchestrator.QosNfcm.Stability
import DdsOrchestrator.Lib.Brackets
import DdsOrchestrator.Lib.Utf8
import DdsOrchestrator.WorkflowEngine.PlannerReply
import DdsOrchestrator.Lib.Masking
import DdsOrchestrator.ControlPanel.Redaction
import DdsOrchestrator.ControlPanel.RunCancellation
import DdsOrchestrator.Lib.Inclusion
import DdsOrchestrator.ControlPanel.InventoryContract
import DdsOrchestrator.Lib.TornLines
import DdsOrchestrator.Observability.EventRetention
import DdsOrchestrator.ControlPanel.SingleInstance
import DdsOrchestrator.WorkflowEngine.InstanceLock
import DdsOrchestrator.McpGateway.ReadBack
import DdsOrchestrator.DetResponder.SameAnswer
