import DdsOrchestrator.Dataspace.Samples

/-!
The samples of the other topics of the dataspace, with all their fields. Enumerations are
the integers that are on the wire, and may be none of the values that have a name. A float
is its bits, since the caches only move it.
-/

namespace DdsOrchestrator.Dataspace

/-- The bits of a `float`. -/
abbrev FloatBits := UInt32

structure Task where
  taskId : String
  clientId : String
  assignedAgent : String
  targetAgent : String
  modelRequired : Int
  modelName : String
  messagesJson : String
  temperature : FloatBits
  maxTokens : UInt32
  stream : Bool
  status : Int
  priority : Int
  createdAtNs : UInt64
  assignedAtNs : UInt64
  startedAtNs : UInt64
  completedAtNs : UInt64
  deadlineNs : UInt64
  retryCount : UInt32
  finishReason : String
  tSerializationNs : UInt64
  tTransportSendNs : UInt64
  tAgentQueueNs : UInt64
  tInferenceNs : UInt64
  tTransportReturnNs : UInt64
  tDeserializationNs : UInt64
  deriving DecidableEq

structure AgentState where
  agentId : String
  hostname : String
  model : String
  specialization : String
  slotsTotal : UInt32
  slotsBusy : UInt32
  vramTotalMb : UInt32
  vramUsedMb : UInt32
  emaLatencyMs : FloatBits
  completedTotal : UInt32
  failedTotal : UInt32
  health : Int
  lastUpdateNs : UInt64
  uptimeSeconds : UInt64
  deriving DecidableEq

structure TaskOutput where
  taskId : String
  seqNum : UInt32
  content : String
  isFinal : Bool
  finishReason : Int
  agentId : String
  tokenCount : UInt32
  emittedAtNs : UInt64
  deriving DecidableEq

structure SystemMetric where
  metricName : String
  componentId : String
  componentType : Int
  value : FloatBits
  unit : String
  timestampNs : UInt64
  deriving DecidableEq

structure ServerStatus where
  serverId : String
  slotsIdle : Int
  slotsProcessing : Int
  modelLoaded : String
  ready : Bool
  deriving DecidableEq

structure LLMInferenceRequest where
  requestId : String
  taskId : String
  agentId : String
  modelName : String
  messagesJson : String
  temperature : FloatBits
  maxTokens : UInt32
  stream : Bool
  securityLevel : Int
  providerConstraint : String
  createdAtNs : UInt64
  deriving DecidableEq

structure LLMInferenceResult where
  requestId : String
  seqNum : UInt32
  content : String
  isFinal : Bool
  finishReason : Int
  modelUsed : String
  tokensPrompt : UInt32
  tokensCompletion : UInt32
  emittedAtNs : UInt64
  deriving DecidableEq

structure LLMInferenceError where
  requestId : String
  errorCode : Int
  errorMessage : String
  provider : String
  retriable : Bool
  emittedAtNs : UInt64
  deriving DecidableEq

structure ContextSnapshot where
  contextId : String
  clientId : String
  sessionId : String
  messagesJson : String
  metadataJson : String
  securityLevel : Int
  createdAtNs : UInt64
  updatedAtNs : UInt64
  ttlSeconds : UInt32
  deriving DecidableEq

structure ContextUpdate where
  contextId : String
  updateType : Int
  messagesDeltaJson : String
  metadataDeltaJson : String
  updatedAtNs : UInt64
  deriving DecidableEq

structure ExecutionTraceEvent where
  traceId : String
  seqNum : UInt32
  eventType : Int
  taskId : String
  requestId : String
  agentId : String
  componentId : String
  componentType : Int
  payloadJson : String
  timestampNs : UInt64
  deriving DecidableEq

structure QoSRoutingProfile where
  profileId : String
  version : Int
  profileName : String
  preferredAgentPrefix : String
  allowedAgentPrefixesJson : String
  weightsJson : String
  fallbackAfterMs : Int
  centroidScore : FloatBits
  explanationJson : String
  timestampNs : UInt64
  deriving DecidableEq

structure QoSMetric where
  metricId : String
  metricName : String
  component : String
  value : Int
  delta : Int
  windowMs : Int
  timestampNs : UInt64
  experimentId : String
  runId : String
  qosProfile : String
  loadLevel : String
  networkCondition : String
  payloadLevel : String
  replicationIdx : Int
  warmup : Bool
  deriving DecidableEq

structure QoSViolation where
  violationId : String
  violationType : String
  topicName : String
  component : String
  entityKind : String
  affectedEntity : String
  severity : String
  detailsJson : String
  timestampNs : UInt64
  experimentId : String
  runId : String
  qosProfile : String
  loadLevel : String
  networkCondition : String
  payloadLevel : String
  replicationIdx : Int
  warmup : Bool
  deriving DecidableEq

structure DiscoveryEvent where
  eventId : String
  eventType : String
  topicName : String
  localEntity : String
  remoteEntity : String
  countChange : Int
  timestampNs : UInt64
  deriving DecidableEq

structure StudioNodePresence where
  nodeId : String
  url : String
  protocolMajor : Int
  protocolMinor : Int
  tokenRequired : Bool
  servicesHint : String
  lastSeenNs : UInt64
  deriving DecidableEq

end DdsOrchestrator.Dataspace
