import DdsOrchestrator.WorkflowEngine.Contract

/-!
The samples of the workflow topics with every field of the contract, as a reader
receives them from any writer. Statuses are ordinals here, since a reader meets the
ones the engine never writes as well.
-/

namespace DdsOrchestrator.Wire

open WorkflowEngine (DdsString DdsBoundedSequence)

structure InputRef where
  producerNodeId : DdsString
  outputName : DdsString
  deriving DecidableEq

structure OutputRef where
  name : DdsString
  contextRef : DdsString
  contentHash : DdsString
  byteCount : UInt32
  sourceTaskId : DdsString
  deriving DecidableEq

structure ToolVersion where
  toolId : DdsString
  version : DdsString
  deriving DecidableEq

structure PlanNode where
  nodeId : DdsString
  kind : Int32
  requiredCapabilities : DdsBoundedSequence DdsString 16
  modelId : DdsString
  targetAgentId : DdsString
  promptTemplate : DdsString
  dependencies : DdsBoundedSequence DdsString 32
  inputs : DdsBoundedSequence InputRef 16
  outputNames : DdsBoundedSequence DdsString 8
  maxAttempts : UInt16
  deadlineNs : UInt64
  maxTokens : UInt32
  maxOutputBytes : UInt32
  securityContextRef : DdsString
  priority : Int32
  sideEffectKey : DdsString
  deriving DecidableEq

structure NodeState where
  nodeId : DdsString
  status : Int32
  attemptId : UInt32
  taskId : DdsString
  assignedAgentId : DdsString
  ready : Bool
  startedAtNs : UInt64
  completedAtNs : UInt64
  outputs : DdsBoundedSequence OutputRef 8
  reasonCode : Int32
  deriving DecidableEq

/-- `Workflow.Intent` has no field that the engine leaves out. -/
abbrev WorkflowIntent := WorkflowEngine.WorkflowIntent

/-- `Routing.Decision`, with the fields that the engine never reads. -/
structure RoutingDecision extends WorkflowEngine.RoutingDecision where
  producerId : DdsString
  modelId : DdsString
  evidenceDigest : DdsString
  deriving DecidableEq

/-- `Agent.Capabilities`. -/
structure AgentCapabilities where
  agentId : DdsString
  schemaVersion : UInt16
  announcementRevision : UInt32
  capabilityCatalogRevision : UInt32
  capabilities : DdsBoundedSequence DdsString 64
  modelIds : DdsBoundedSequence DdsString 16
  toolVersions : DdsBoundedSequence ToolVersion 32
  adaptiveProtocolVersion : UInt16
  securityContextRef : DdsString
  createdAtNs : UInt64
  validUntilNs : UInt64
  deriving DecidableEq

/-- `Workflow.Plan`. -/
structure WorkflowPlan where
  workflowId : DdsString
  planRevision : UInt32
  schemaVersion : UInt16
  requestId : DdsString
  intentRevision : UInt32
  effectiveDecisionId : DdsString
  policyRevision : UInt32
  capabilityCatalogRevision : UInt32
  plannerId : DdsString
  plannerRevision : DdsString
  createdAtNs : UInt64
  deadlineNs : UInt64
  qosProfile : Int32
  nodes : DdsBoundedSequence PlanNode 32
  planHash : DdsString
  deriving DecidableEq

/-- `Workflow.State`. -/
structure WorkflowState where
  workflowId : DdsString
  planRevision : UInt32
  schemaVersion : UInt16
  stateRevision : UInt32
  requestId : DdsString
  effectiveDecisionId : DdsString
  planHash : DdsString
  status : Int32
  reasonCode : Int32
  nodes : DdsBoundedSequence NodeState 32
  createdAtNs : UInt64
  updatedAtNs : UInt64
  expiresAtNs : UInt64
  cancelledByRequestId : DdsString
  effectiveQosConfigHash : DdsString
  fallbackTemplateId : DdsString
  deriving DecidableEq

/-- `AgentState` as the claim barrier reads it. -/
structure AgentState where
  model : String
  slotsTotal : UInt32
  slotsBusy : UInt32
  health : Int32
  deriving DecidableEq

end DdsOrchestrator.Wire
