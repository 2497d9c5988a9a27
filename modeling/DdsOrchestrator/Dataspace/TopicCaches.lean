import DdsOrchestrator.Lib.Capped
import DdsOrchestrator.Lib.Machine
import DdsOrchestrator.Dataspace.TopicSamples
import DdsOrchestrator.Dataspace.ToolCalls

/-!
The caches of the topics of a process. Every sample that arrives is admitted into the cache
of its topic, and the call says whether it was. A task gives way to a sample that is no
regression, and when the cache of tasks is full the old terminal ones are evicted. Of the
other topics some hold one sample for each key, by one of three rules, and some a list.

Calls come one after the other. The clock is read where the source reads it.
-/

namespace DdsOrchestrator.Dataspace

open Capped (acceptsKey winner removeAll)

def maxChunksPerKey : Nat := 256

def maxStudioPresences : Nat := 256

/-- 30 s in nanoseconds. -/
def terminalTtlUnderPressure : UInt64 := 30000000000

namespace TaskStatus

def pending : Int := 0
def assigned : Int := 1
def running : Int := 2
def done : Int := 3
def failed : Int := 4

/-- Unknown values are not terminal. -/
def isTerminalI32 (v : Int) : Bool := v = done ∨ v = failed

end TaskStatus

/-- Denied, completed and failed. -/
def ToolCallStatus.isTerminalI32 (v : Int) : Bool := v = 2 ∨ v = 4 ∨ v = 5

/-! ### Which of two samples stays -/

/-- The state of the task would go back. A higher retry count is never a regression. -/
def isRegression (new cur : Task) : Bool :=
  if cur.retryCount < new.retryCount then false
  else if new.retryCount < cur.retryCount then true
  else if cur.assignedAgent ≠ "" ∧ new.assignedAgent = "" then true
  else new.status < cur.status

def supersedes (new cur : Task) : Bool := !isRegression new cur

def callSupersedesToolCall (new cur : ToolCallRequest) : Bool :=
  if new.createdAtNs < cur.createdAtNs then false
  else if ToolCallStatus.isTerminalI32 cur.status then false
  else if ToolCallStatus.isTerminalI32 new.status then true
  else if new.status < cur.status then false
  else true

/-- The later time wins, and so does the same one. -/
def newest {S : Type} (time : S → UInt64) (new cur : S) : Bool := time cur ≤ time new

def firstWins {S : Type} (_ _ : S) : Bool := false

def lastWins {S : Type} (_ _ : S) : Bool := true

/-! ### The topics -/

/-- The topics with one sample for each key, less the tasks. -/
inductive KeyedTopic where
  | agent
  | systemMetric
  | serverStatus
  | llmRequest
  | llmError
  | contextSnapshot
  | toolCall
  | securitySnapshot
  | qosRouting
  | qosMetric
  | qosViolation
  | discoveryEvent
  | studioNodePresence
  deriving DecidableEq

abbrev KeyedTopic.Sample : KeyedTopic → Type
  | agent => AgentState
  | systemMetric => SystemMetric
  | serverStatus => ServerStatus
  | llmRequest => LLMInferenceRequest
  | llmError => LLMInferenceError
  | contextSnapshot => ContextSnapshot
  | toolCall => ToolCallRequest
  | securitySnapshot => SecurityPolicySnapshot
  | qosRouting => QoSRoutingProfile
  | qosMetric => QoSMetric
  | qosViolation => QoSViolation
  | discoveryEvent => DiscoveryEvent
  | studioNodePresence => StudioNodePresence

/-- The topics with a list of samples for each key. -/
inductive ListTopic where
  | output
  | llmResult
  | contextUpdate
  | executionTrace
  | securityUpdate
  deriving DecidableEq

abbrev ListTopic.Sample : ListTopic → Type
  | output => TaskOutput
  | llmResult => LLMInferenceResult
  | contextUpdate => ContextUpdate
  | executionTrace => ExecutionTraceEvent
  | securityUpdate => SecurityPolicyUpdate

/-- A key of a metric is that of its name and its component. -/
def KeyedTopic.key : (t : KeyedTopic) → t.Sample → String
  | agent, s => s.agentId
  | systemMetric, s => s.metricName ++ ":" ++ s.componentId
  | serverStatus, s => s.serverId
  | llmRequest, s => s.requestId
  | llmError, s => s.requestId
  | contextSnapshot, s => s.contextId
  | toolCall, s => s.callId
  | securitySnapshot, s => s.policyId
  | qosRouting, s => s.profileId
  | qosMetric, s => s.metricId
  | qosViolation, s => s.violationId
  | discoveryEvent, s => s.eventId
  | studioNodePresence, s => s.nodeId

def ListTopic.key : (t : ListTopic) → t.Sample → String
  | output, s => s.taskId
  | llmResult, s => s.requestId
  | contextUpdate, s => s.contextId
  | executionTrace, s => s.traceId
  | securityUpdate, s => s.policyId

/-! ### The caches -/

/-- The ids of the terminal tasks that were completed more than `maxAgeNs` ago. -/
def terminalTaskIds (nowNs maxAgeNs : UInt64) (tasks : Map String Task) : List String :=
  ((tasks.entries.map (·.2)).filter fun t => TaskStatus.isTerminalI32 t.status ∧
    0 < t.completedAtNs ∧ maxAgeNs.toNat < nowNs.toNat - t.completedAtNs.toNat).map (·.taskId)

theorem mem_terminalTaskIds {nowNs maxAgeNs : UInt64} {tasks : Map String Task} {id : String} :
    id ∈ terminalTaskIds nowNs maxAgeNs tasks ↔
      ∃ key t, tasks.lookup key = some t ∧ t.taskId = id ∧
        TaskStatus.isTerminalI32 t.status = true ∧ 0 < t.completedAtNs ∧
        maxAgeNs.toNat < nowNs.toNat - t.completedAtNs.toNat := by
  unfold terminalTaskIds
  constructor
  · intro h
    obtain ⟨t, ht, rfl⟩ := List.mem_map.mp h
    obtain ⟨hheld, hold⟩ := List.mem_filter.mp ht
    obtain ⟨⟨key, t⟩, he, rfl⟩ := List.mem_map.mp hheld
    have hold := of_decide_eq_true hold
    exact ⟨key, t, Map.mem_entries.mp he, rfl, hold.1, hold.2.1, hold.2.2⟩
  · rintro ⟨key, t, hkey, rfl, hterminal, hcompleted, hold⟩
    refine List.mem_map.mpr ⟨t, List.mem_filter.mpr ⟨?_, ?_⟩, rfl⟩
    · exact List.mem_map.mpr ⟨⟨key, t⟩, Map.mem_entries.mpr hkey, rfl⟩
    · exact decide_eq_true ⟨hterminal, hcompleted, hold⟩

structure TopicCaches where
  tasks : Map String Task
  agents : Map String AgentState
  outputs : Map String (List TaskOutput)
  systemMetrics : Map String SystemMetric
  serverStatus : Map String ServerStatus
  llmRequests : Map String LLMInferenceRequest
  llmResults : Map String (List LLMInferenceResult)
  llmErrors : Map String LLMInferenceError
  contextSnapshots : Map String ContextSnapshot
  contextUpdates : Map String (List ContextUpdate)
  toolCalls : Map String ToolCallRequest
  executionTraces : Map String (List ExecutionTraceEvent)
  securitySnapshots : Map String SecurityPolicySnapshot
  securityUpdates : Map String (List SecurityPolicyUpdate)
  qosRouting : Map String QoSRoutingProfile
  qosMetrics : Map String QoSMetric
  qosViolations : Map String QoSViolation
  discoveryEvents : Map String DiscoveryEvent
  studioNodePresences : Map String StudioNodePresence
  tasksRejected : UInt64
  tasksEvicted : UInt64
  rejections : UInt64

/-- Whether the task is in the cache; if so, it comes with what the cache holds. -/
inductive TaskUpsert where
  | accepted (task : Task)
  | rejected (task : Task)
  deriving DecidableEq

namespace TopicCaches

def new : TopicCaches :=
  ⟨∅, ∅, ∅, ∅, ∅, ∅, ∅, ∅, ∅, ∅, ∅, ∅, ∅, ∅, ∅, ∅, ∅, ∅, ∅, 0, 0, 0⟩

/-- The samples held of a topic. -/
def held (c : TopicCaches) : (t : KeyedTopic) → Map String t.Sample
  | .agent => c.agents
  | .systemMetric => c.systemMetrics
  | .serverStatus => c.serverStatus
  | .llmRequest => c.llmRequests
  | .llmError => c.llmErrors
  | .contextSnapshot => c.contextSnapshots
  | .toolCall => c.toolCalls
  | .securitySnapshot => c.securitySnapshots
  | .qosRouting => c.qosRouting
  | .qosMetric => c.qosMetrics
  | .qosViolation => c.qosViolations
  | .discoveryEvent => c.discoveryEvents
  | .studioNodePresence => c.studioNodePresences

def hold (c : TopicCaches) : (t : KeyedTopic) → Map String t.Sample → TopicCaches
  | .agent, m => { c with agents := m }
  | .systemMetric, m => { c with systemMetrics := m }
  | .serverStatus, m => { c with serverStatus := m }
  | .llmRequest, m => { c with llmRequests := m }
  | .llmError, m => { c with llmErrors := m }
  | .contextSnapshot, m => { c with contextSnapshots := m }
  | .toolCall, m => { c with toolCalls := m }
  | .securitySnapshot, m => { c with securitySnapshots := m }
  | .qosRouting, m => { c with qosRouting := m }
  | .qosMetric, m => { c with qosMetrics := m }
  | .qosViolation, m => { c with qosViolations := m }
  | .discoveryEvent, m => { c with discoveryEvents := m }
  | .studioNodePresence, m => { c with studioNodePresences := m }

/-- The lists held of a topic. -/
def listed (c : TopicCaches) : (t : ListTopic) → Map String (List t.Sample)
  | .output => c.outputs
  | .llmResult => c.llmResults
  | .contextUpdate => c.contextUpdates
  | .executionTrace => c.executionTraces
  | .securityUpdate => c.securityUpdates

def enlist (c : TopicCaches) : (t : ListTopic) → Map String (List t.Sample) → TopicCaches
  | .output, m => { c with outputs := m }
  | .llmResult, m => { c with llmResults := m }
  | .contextUpdate, m => { c with contextUpdates := m }
  | .executionTrace, m => { c with executionTraces := m }
  | .securityUpdate, m => { c with securityUpdates := m }

def reject (c : TopicCaches) : TopicCaches :=
  { c with rejections := c.rejections + 1 }

/-! ### Tasks -/

def terminalIds (nowNs maxAgeNs : UInt64) (c : TopicCaches) : List String :=
  terminalTaskIds nowNs maxAgeNs c.tasks

/-- Evicts these tasks and what is held under their ids in other caches. -/
def evictTerminalTasks (nowNs maxAgeNs : UInt64) (c : TopicCaches) : TopicCaches :=
  let ids := c.terminalIds nowNs maxAgeNs
  { c with
    tasks := removeAll ids c.tasks
    outputs := removeAll ids c.outputs
    llmResults := removeAll ids c.llmResults
    llmRequests := removeAll ids c.llmRequests
    llmErrors := removeAll ids c.llmErrors
    contextUpdates := removeAll ids c.contextUpdates
    executionTraces := removeAll ids c.executionTraces
    securityUpdates := removeAll ids c.securityUpdates
    tasksEvicted := c.tasksEvicted + UInt64.ofNat ids.length }

def storeTask (task : Task) (c : TopicCaches) : TopicCaches :=
  { c with tasks := c.tasks.insert task.taskId task }

def enterTask (task : Task) (c : TopicCaches) : TaskUpsert × TopicCaches :=
  match c.tasks.lookup task.taskId with
  | some cur =>
      if supersedes task cur then (.accepted task, c.storeTask task) else (.accepted cur, c)
  | none => (.accepted task, c.storeTask task)

/-- A new task finds room, if need be after an eviction, or is rejected. -/
def upsertTask (nowNs : UInt64) (task : Task) (c : TopicCaches) : TaskUpsert × TopicCaches :=
  if c.tasks.lookup task.taskId = none ∧ maxTasksInCache ≤ c.tasks.keys.length then
    let c := c.evictTerminalTasks nowNs terminalTtlUnderPressure
    if maxTasksInCache ≤ c.tasks.keys.length then
      (.rejected task, { c with tasksRejected := c.tasksRejected + 1 })
    else c.enterTask task
  else c.enterTask task

def readTask (taskId : String) (c : TopicCaches) : Option Task := c.tasks.lookup taskId

/-! ### The other topics -/

/-- One sample for each key, and the winner is returned. -/
def upsertKeyed (t : KeyedTopic) (cap : Nat) (key : String) (wins : t.Sample → t.Sample → Bool)
    (s : t.Sample) (c : TopicCaches) : (t.Sample × Bool) × TopicCaches :=
  if acceptsKey cap (c.held t) key then
    ((winner wins ((c.held t).lookup key) s, true),
      c.hold t (Capped.upsert wins (c.held t) key s))
  else ((s, false), c.reject)

/-- A list for each key, and the sample is returned. -/
def pushListed (t : ListTopic) (key : String) (add : List t.Sample → t.Sample → List t.Sample)
    (s : t.Sample) (c : TopicCaches) : (t.Sample × Bool) × TopicCaches :=
  if acceptsKey maxTasksInCache (c.listed t) key then
    ((s, true), c.enlist t ((c.listed t).insert key (add (((c.listed t).lookup key).getD []) s)))
  else ((s, false), c.reject)

def upsertAgent (s : AgentState) (c : TopicCaches) : (AgentState × Bool) × TopicCaches :=
  c.upsertKeyed .agent maxTasksInCache s.agentId (newest AgentState.lastUpdateNs) s

def pushOutput (s : TaskOutput) (c : TopicCaches) : (TaskOutput × Bool) × TopicCaches :=
  c.pushListed .output s.taskId
    (Capped.put TaskOutput.seqNum (newest TaskOutput.emittedAtNs) maxChunksPerKey) s

/-- A request that is held is returned before the capacity is looked at. -/
def upsertLlmRequest (s : LLMInferenceRequest) (c : TopicCaches) :
    (LLMInferenceRequest × Bool) × TopicCaches :=
  match c.llmRequests.lookup s.requestId with
  | some existing => ((existing, true), c)
  | none =>
      if maxTasksInCache ≤ c.llmRequests.keys.length then ((s, false), c.reject)
      else ((s, true), { c with llmRequests := c.llmRequests.insert s.requestId s })

def pushLlmResult (s : LLMInferenceResult) (c : TopicCaches) :
    (LLMInferenceResult × Bool) × TopicCaches :=
  c.pushListed .llmResult s.requestId
    (Capped.put LLMInferenceResult.seqNum (newest LLMInferenceResult.emittedAtNs)
      maxChunksPerKey) s

def upsertLlmError (s : LLMInferenceError) (c : TopicCaches) :
    (LLMInferenceError × Bool) × TopicCaches :=
  c.upsertKeyed .llmError maxTasksInCache s.requestId firstWins s

def upsertContextSnapshot (s : ContextSnapshot) (c : TopicCaches) :
    (ContextSnapshot × Bool) × TopicCaches :=
  c.upsertKeyed .contextSnapshot maxTasksInCache s.contextId (newest ContextSnapshot.updatedAtNs) s

def pushContextUpdate (s : ContextUpdate) (c : TopicCaches) :
    (ContextUpdate × Bool) × TopicCaches :=
  c.pushListed .contextUpdate s.contextId (Capped.append maxChunksPerKey) s

def upsertToolCall (s : ToolCallRequest) (c : TopicCaches) :
    (ToolCallRequest × Bool) × TopicCaches :=
  c.upsertKeyed .toolCall maxTasksInCache s.callId callSupersedesToolCall s

def pushExecutionTrace (s : ExecutionTraceEvent) (c : TopicCaches) :
    (ExecutionTraceEvent × Bool) × TopicCaches :=
  c.pushListed .executionTrace s.traceId
    (Capped.put ExecutionTraceEvent.seqNum (newest ExecutionTraceEvent.timestampNs)
      maxChunksPerKey) s

def upsertSecuritySnapshot (s : SecurityPolicySnapshot) (c : TopicCaches) :
    (SecurityPolicySnapshot × Bool) × TopicCaches :=
  c.upsertKeyed .securitySnapshot maxTasksInCache s.policyId
    (newest SecurityPolicySnapshot.timestampNs) s

def pushSecurityUpdate (s : SecurityPolicyUpdate) (c : TopicCaches) :
    (SecurityPolicyUpdate × Bool) × TopicCaches :=
  c.pushListed .securityUpdate s.policyId (Capped.append maxChunksPerKey) s

def upsertQosRouting (s : QoSRoutingProfile) (c : TopicCaches) :
    (QoSRoutingProfile × Bool) × TopicCaches :=
  c.upsertKeyed .qosRouting maxTasksInCache s.profileId (newest QoSRoutingProfile.timestampNs) s

def upsertQosMetric (s : QoSMetric) (c : TopicCaches) : (QoSMetric × Bool) × TopicCaches :=
  c.upsertKeyed .qosMetric maxTasksInCache s.metricId firstWins s

def upsertQosViolation (s : QoSViolation) (c : TopicCaches) :
    (QoSViolation × Bool) × TopicCaches :=
  c.upsertKeyed .qosViolation maxTasksInCache s.violationId firstWins s

def upsertDiscoveryEvent (s : DiscoveryEvent) (c : TopicCaches) :
    (DiscoveryEvent × Bool) × TopicCaches :=
  c.upsertKeyed .discoveryEvent maxTasksInCache s.eventId firstWins s

def upsertSystemMetric (s : SystemMetric) (c : TopicCaches) :
    (SystemMetric × Bool) × TopicCaches :=
  c.upsertKeyed .systemMetric maxTasksInCache (s.metricName ++ ":" ++ s.componentId)
    (newest SystemMetric.timestampNs) s

def upsertServerStatus (s : ServerStatus) (c : TopicCaches) :
    (ServerStatus × Bool) × TopicCaches :=
  c.upsertKeyed .serverStatus maxTasksInCache s.serverId lastWins s

def upsertStudioNodePresence (s : StudioNodePresence) (c : TopicCaches) :
    (StudioNodePresence × Bool) × TopicCaches :=
  c.upsertKeyed .studioNodePresence maxStudioPresences s.nodeId
    (newest StudioNodePresence.lastSeenNs) s

/-- The counters stay. -/
def clearAll (c : TopicCaches) : TopicCaches :=
  { new with
    tasksRejected := c.tasksRejected
    tasksEvicted := c.tasksEvicted
    rejections := c.rejections }

/-! ### Runs -/

def upsert : (t : KeyedTopic) → t.Sample → TopicCaches → (t.Sample × Bool) × TopicCaches
  | .agent => upsertAgent
  | .systemMetric => upsertSystemMetric
  | .serverStatus => upsertServerStatus
  | .llmRequest => upsertLlmRequest
  | .llmError => upsertLlmError
  | .contextSnapshot => upsertContextSnapshot
  | .toolCall => upsertToolCall
  | .securitySnapshot => upsertSecuritySnapshot
  | .qosRouting => upsertQosRouting
  | .qosMetric => upsertQosMetric
  | .qosViolation => upsertQosViolation
  | .discoveryEvent => upsertDiscoveryEvent
  | .studioNodePresence => upsertStudioNodePresence

def push : (t : ListTopic) → t.Sample → TopicCaches → (t.Sample × Bool) × TopicCaches
  | .output => pushOutput
  | .llmResult => pushLlmResult
  | .contextUpdate => pushContextUpdate
  | .executionTrace => pushExecutionTrace
  | .securityUpdate => pushSecurityUpdate

/-- What is called, with the reading of the clock where there is one. -/
inductive Call where
  | task (nowNs : UInt64) (s : Task)
  | keyed (t : KeyedTopic) (s : t.Sample)
  | listed (t : ListTopic) (s : t.Sample)
  | evict (nowNs maxAgeNs : UInt64)
  | clear

def step (c : TopicCaches) : Call → TopicCaches
  | .task nowNs s => (c.upsertTask nowNs s).2
  | .keyed t s => (upsert t s c).2
  | .listed t s => (push t s c).2
  | .evict nowNs maxAgeNs => c.evictTerminalTasks nowNs maxAgeNs
  | .clear => c.clearAll

def run (c : TopicCaches) (calls : List Call) : TopicCaches := calls.foldl step c

end TopicCaches

/-! ### What a call does -/

def KeyedTopic.cap : KeyedTopic → Nat
  | studioNodePresence => maxStudioPresences
  | _ => maxTasksInCache

/-- Which sample wins. -/
def KeyedTopic.wins : (t : KeyedTopic) → t.Sample → t.Sample → Bool
  | agent => newest AgentState.lastUpdateNs
  | systemMetric => newest SystemMetric.timestampNs
  | serverStatus => lastWins
  | llmRequest => firstWins
  | llmError => firstWins
  | contextSnapshot => newest ContextSnapshot.updatedAtNs
  | toolCall => callSupersedesToolCall
  | securitySnapshot => newest SecurityPolicySnapshot.timestampNs
  | qosRouting => newest QoSRoutingProfile.timestampNs
  | qosMetric => firstWins
  | qosViolation => firstWins
  | discoveryEvent => firstWins
  | studioNodePresence => newest StudioNodePresence.lastSeenNs

/-- What the list becomes. -/
def ListTopic.add : (t : ListTopic) → List t.Sample → t.Sample → List t.Sample
  | output => Capped.put TaskOutput.seqNum (newest TaskOutput.emittedAtNs) maxChunksPerKey
  | llmResult =>
      Capped.put LLMInferenceResult.seqNum (newest LLMInferenceResult.emittedAtNs) maxChunksPerKey
  | contextUpdate => Capped.append maxChunksPerKey
  | executionTrace =>
      Capped.put ExecutionTraceEvent.seqNum (newest ExecutionTraceEvent.timestampNs)
        maxChunksPerKey
  | securityUpdate => Capped.append maxChunksPerKey

/-- The topics whose samples go with a task that is evicted. -/
def KeyedTopic.evicted : KeyedTopic → Bool
  | llmRequest => true
  | llmError => true
  | _ => false

namespace TopicCaches

variable {c : TopicCaches} {nowNs maxAgeNs : UInt64}

@[simp] theorem held_hold_self (t : KeyedTopic) (m : Map String t.Sample) :
    (c.hold t m).held t = m := by
  cases t <;> rfl

theorem held_hold_of_ne {t u : KeyedTopic} (h : u ≠ t) (m : Map String t.Sample) :
    (c.hold t m).held u = c.held u := by
  cases t <;> cases u <;> first | rfl | exact absurd rfl h

@[simp] theorem tasks_hold (t : KeyedTopic) (m : Map String t.Sample) :
    (c.hold t m).tasks = c.tasks := by
  cases t <;> rfl

@[simp] theorem listed_hold (t : KeyedTopic) (m : Map String t.Sample) (u : ListTopic) :
    (c.hold t m).listed u = c.listed u := by
  cases t <;> cases u <;> rfl

@[simp] theorem listed_enlist_self (t : ListTopic) (m : Map String (List t.Sample)) :
    (c.enlist t m).listed t = m := by
  cases t <;> rfl

theorem listed_enlist_of_ne {t u : ListTopic} (h : u ≠ t) (m : Map String (List t.Sample)) :
    (c.enlist t m).listed u = c.listed u := by
  cases t <;> cases u <;> first | rfl | exact absurd rfl h

@[simp] theorem tasks_enlist (t : ListTopic) (m : Map String (List t.Sample)) :
    (c.enlist t m).tasks = c.tasks := by
  cases t <;> rfl

@[simp] theorem held_enlist (t : ListTopic) (m : Map String (List t.Sample)) (u : KeyedTopic) :
    (c.enlist t m).held u = c.held u := by
  cases t <;> cases u <;> rfl

@[simp] theorem tasks_reject : c.reject.tasks = c.tasks := rfl

@[simp] theorem held_reject (t : KeyedTopic) : c.reject.held t = c.held t := by
  cases t <;> rfl

@[simp] theorem listed_reject (t : ListTopic) : c.reject.listed t = c.listed t := by
  cases t <;> rfl

/-- The first request wins here too: what is held takes no room. -/
theorem upsertLlmRequest_eq (s : LLMInferenceRequest) (c : TopicCaches) :
    upsertLlmRequest s c = c.upsertKeyed .llmRequest maxTasksInCache s.requestId firstWins s := by
  unfold upsertLlmRequest upsertKeyed acceptsKey Capped.upsert
  cases h : c.llmRequests.lookup s.requestId with
  | some existing => simp [held, hold, h, winner, firstWins]
  | none =>
      by_cases hfull : maxTasksInCache ≤ c.llmRequests.keys.length
      · simp [held, h, hfull, not_lt.mpr hfull]
      · simp [held, hold, h, hfull, not_le.mp hfull]

theorem upsert_eq (t : KeyedTopic) (s : t.Sample) (c : TopicCaches) :
    upsert t s c = c.upsertKeyed t t.cap (t.key s) t.wins s := by
  cases t with
  | llmRequest => exact upsertLlmRequest_eq s c
  | _ => rfl

theorem push_eq (t : ListTopic) (s : t.Sample) (c : TopicCaches) :
    push t s c = c.pushListed t (t.key s) t.add s := by
  cases t <;> rfl

theorem lookup_tasks_evict (key : String) :
    (c.evictTerminalTasks nowNs maxAgeNs).tasks.lookup key =
      if key ∈ c.terminalIds nowNs maxAgeNs then none else c.tasks.lookup key :=
  Capped.lookup_removeAll _ _ _

theorem lookup_held_evict (t : KeyedTopic) (key : String) :
    ((c.evictTerminalTasks nowNs maxAgeNs).held t).lookup key =
      if t.evicted = true ∧ key ∈ c.terminalIds nowNs maxAgeNs then none
      else (c.held t).lookup key := by
  cases t with
  | llmRequest => simp [held, evictTerminalTasks, Capped.lookup_removeAll, KeyedTopic.evicted]
  | llmError => simp [held, evictTerminalTasks, Capped.lookup_removeAll, KeyedTopic.evicted]
  | _ => simp [held, evictTerminalTasks, KeyedTopic.evicted]

theorem lookup_listed_evict (t : ListTopic) (key : String) :
    ((c.evictTerminalTasks nowNs maxAgeNs).listed t).lookup key =
      if key ∈ c.terminalIds nowNs maxAgeNs then none else (c.listed t).lookup key := by
  cases t <;> exact Capped.lookup_removeAll _ _ _

/-- `d` holds only what `c` holds. -/
structure PartOf (d c : TopicCaches) : Prop where
  tasks : ∀ key t, d.tasks.lookup key = some t → c.tasks.lookup key = some t
  held : ∀ (t : KeyedTopic) key s, (d.held t).lookup key = some s →
    (c.held t).lookup key = some s
  listed : ∀ (t : ListTopic) key l, (d.listed t).lookup key = some l →
    (c.listed t).lookup key = some l

theorem PartOf.refl (c : TopicCaches) : PartOf c c :=
  ⟨fun _ _ => id, fun _ _ _ => id, fun _ _ _ => id⟩

theorem evict_partOf : (c.evictTerminalTasks nowNs maxAgeNs).PartOf c := by
  refine ⟨fun key t h => ?_, fun t key s h => ?_, fun t key l h => ?_⟩
  · rw [lookup_tasks_evict] at h
    split at h
    · cases h
    · exact h
  · rw [lookup_held_evict] at h
    split at h
    · cases h
    · exact h
  · rw [lookup_listed_evict] at h
    split at h
    · cases h
    · exact h

/-- The caches after the eviction that a task with a new id needs. -/
def roomFor (nowNs : UInt64) (task : Task) (c : TopicCaches) : TopicCaches :=
  if c.tasks.lookup task.taskId = none ∧ maxTasksInCache ≤ c.tasks.keys.length then
    c.evictTerminalTasks nowNs terminalTtlUnderPressure
  else c

variable {task : Task}

theorem roomFor_partOf : (c.roomFor nowNs task).PartOf c := by
  unfold roomFor
  split
  · exact evict_partOf
  · exact .refl c

/-- The ways in which `upsertTask` ends. -/
inductive TaskOutcome (nowNs : UInt64) (task : Task) (c : TopicCaches) :
    TaskUpsert × TopicCaches → Prop
  | rejected (hnone : c.tasks.lookup task.taskId = none)
      (hfull : maxTasksInCache ≤ (c.roomFor nowNs task).tasks.keys.length) :
      TaskOutcome nowNs task c (.rejected task, { c.roomFor nowNs task with
        tasksRejected := (c.roomFor nowNs task).tasksRejected + 1 })
  | kept (cur : Task) (hcur : c.tasks.lookup task.taskId = some cur)
      (hback : isRegression task cur = true) : TaskOutcome nowNs task c (.accepted cur, c)
  | stored (hahead : ∀ cur, c.tasks.lookup task.taskId = some cur → isRegression task cur = false)
      (hroom : c.tasks.lookup task.taskId = none →
        (c.roomFor nowNs task).tasks.keys.length < maxTasksInCache) :
      TaskOutcome nowNs task c (.accepted task, (c.roomFor nowNs task).storeTask task)

variable (nowNs task c) in
theorem upsertTask_outcome : TaskOutcome nowNs task c (c.upsertTask nowNs task) := by
  cases hcur : c.tasks.lookup task.taskId with
  | some cur =>
      have hroomFor : c.roomFor nowNs task = c := by
        unfold roomFor
        rw [if_neg (by simp [hcur])]
      unfold upsertTask enterTask
      rw [if_neg (by simp [hcur]), hcur]
      dsimp only
      by_cases hback : isRegression task cur = true
      · rw [if_neg (by simp [supersedes, hback])]
        exact .kept cur hcur hback
      · have hback := Bool.not_eq_true _ ▸ hback
        rw [if_pos (by simp [supersedes, hback])]
        have hstore : c.storeTask task = (c.roomFor nowNs task).storeTask task := by rw [hroomFor]
        rw [hstore]
        refine .stored (fun cur' hcur' => ?_) fun hnone => ?_
        · rw [hcur, Option.some.injEq] at hcur'
          exact hcur' ▸ hback
        · simp [hcur] at hnone
  | none =>
      have hnone : (c.roomFor nowNs task).tasks.lookup task.taskId = none := by
        rw [Option.eq_none_iff_forall_ne_some]
        intro cur h
        simp [roomFor_partOf.tasks _ _ h] at hcur
      have hahead : ∀ cur, c.tasks.lookup task.taskId = some cur →
          isRegression task cur = false := fun cur h => by simp [hcur] at h
      have henter : ∀ d : TopicCaches, d.tasks.lookup task.taskId = none →
          d.enterTask task = (.accepted task, d.storeTask task) := by
        intro d hd
        unfold enterTask
        rw [hd]
      by_cases hpressed : maxTasksInCache ≤ c.tasks.keys.length
      · have hroomFor : c.roomFor nowNs task =
            c.evictTerminalTasks nowNs terminalTtlUnderPressure := if_pos ⟨hcur, hpressed⟩
        unfold upsertTask
        rw [if_pos ⟨hcur, hpressed⟩, ← hroomFor]
        dsimp only
        split
        · next hfull => exact .rejected hcur hfull
        · next hfull =>
            rw [henter _ hnone]
            exact .stored hahead fun _ => not_le.mp hfull
      · have hroomFor : c.roomFor nowNs task = c := if_neg fun h => hpressed h.2
        unfold upsertTask
        have hstore : c.storeTask task = (c.roomFor nowNs task).storeTask task := by rw [hroomFor]
        rw [if_neg fun h => hpressed h.2, henter c hcur, hstore]
        refine .stored hahead fun _ => ?_
        rw [hroomFor]
        exact not_le.mp hpressed

end TopicCaches

end DdsOrchestrator.Dataspace
