import DdsOrchestrator.Dataspace.AdmissionContract

/-!
The dataspace in memory that tests run on, beside the caches of the real one. Both get the
same samples. The mock keeps the rule of the tasks and that of the chunks of a task. Of the
other topics it keeps the cap only: the last sample wins, and every chunk is added. So the
two hold the same exactly in the runs in which the last sample is also the one that wins.
-/

namespace DdsOrchestrator.Dataspace

open Capped (acceptsKey removeAll Same)
open Machine (Along)

namespace InMemory

structure DataSpace where
  tasks : Map String Task
  agents : Map String AgentState
  outputs : Map String (List TaskOutput)
  systemMetrics : Map (String × String) SystemMetric
  serverStatus : Map String ServerStatus
  llmRequests : Map String LLMInferenceRequest
  llmResults : Map String (List LLMInferenceResult)
  llmErrors : Map String LLMInferenceError
  contextSnapshots : Map String ContextSnapshot
  contextUpdates : Map String (List ContextUpdate)
  toolCalls : Map String ToolCallRequest
  executionTraces : Map String (List ExecutionTraceEvent)
  securitySnapshots : Map String SecurityPolicySnapshot
  securityUpdates : Map String (List SecurityPolicyUpdate)
  qosRouting : Map String QoSRoutingProfile
  qosMetrics : Map String QoSMetric
  qosViolations : Map String QoSViolation
  discoveryEvents : Map String DiscoveryEvent

/-- The last sample of a key is held. A new key beyond the cap is dropped, and the write
succeeds all the same, as every write does. -/
def writeLast {K S : Type} [DecidableEq K] (key : K) (s : S) (m : Map K S) : Map K S :=
  if acceptsKey maxTasksInCache m key then m.insert key s else m

def writeChunk {S : Type} (key : String) (add : List S → S → List S) (s : S)
    (m : Map String (List S)) : Map String (List S) :=
  if acceptsKey maxTasksInCache m key then m.insert key (add ((m.lookup key).getD []) s) else m

namespace DataSpace

def new : DataSpace := ⟨∅, ∅, ∅, ∅, ∅, ∅, ∅, ∅, ∅, ∅, ∅, ∅, ∅, ∅, ∅, ∅, ∅, ∅⟩

def evictTerminalTasks (nowNs maxAgeNs : UInt64) (d : DataSpace) : DataSpace :=
  let ids := terminalTaskIds nowNs maxAgeNs d.tasks
  { d with
    tasks := removeAll ids d.tasks
    outputs := removeAll ids d.outputs
    llmResults := removeAll ids d.llmResults
    llmRequests := removeAll ids d.llmRequests
    llmErrors := removeAll ids d.llmErrors
    contextUpdates := removeAll ids d.contextUpdates
    executionTraces := removeAll ids d.executionTraces
    securityUpdates := removeAll ids d.securityUpdates }

def enterTask (task : Task) (d : DataSpace) : DataSpace :=
  match d.tasks.lookup task.taskId with
  | some cur =>
      if supersedes task cur then { d with tasks := d.tasks.insert task.taskId task } else d
  | none => { d with tasks := d.tasks.insert task.taskId task }

def writeTask (nowNs : UInt64) (task : Task) (d : DataSpace) : DataSpace :=
  if d.tasks.lookup task.taskId = none ∧ maxTasksInCache ≤ d.tasks.keys.length then
    let d := d.evictTerminalTasks nowNs terminalTtlUnderPressure
    if maxTasksInCache ≤ d.tasks.keys.length then d else d.enterTask task
  else d.enterTask task

def writeAgentState (s : AgentState) (d : DataSpace) : DataSpace :=
  { d with agents := writeLast s.agentId s d.agents }

def writeTaskOutput (s : TaskOutput) (d : DataSpace) : DataSpace :=
  { d with
    outputs := writeChunk s.taskId
      (Capped.put TaskOutput.seqNum (newest TaskOutput.emittedAtNs) maxChunksPerKey) s d.outputs }

def writeSystemMetric (s : SystemMetric) (d : DataSpace) : DataSpace :=
  { d with systemMetrics := writeLast (s.metricName, s.componentId) s d.systemMetrics }

def writeServerStatus (s : ServerStatus) (d : DataSpace) : DataSpace :=
  { d with serverStatus := writeLast s.serverId s d.serverStatus }

def writeLlmRequest (s : LLMInferenceRequest) (d : DataSpace) : DataSpace :=
  { d with llmRequests := writeLast s.requestId s d.llmRequests }

def writeLlmResult (s : LLMInferenceResult) (d : DataSpace) : DataSpace :=
  { d with
    llmResults := writeChunk s.requestId (Capped.append maxChunksPerKey) s d.llmResults }

def writeLlmError (s : LLMInferenceError) (d : DataSpace) : DataSpace :=
  { d with llmErrors := writeLast s.requestId s d.llmErrors }

def writeContextSnapshot (s : ContextSnapshot) (d : DataSpace) : DataSpace :=
  { d with contextSnapshots := writeLast s.contextId s d.contextSnapshots }

def writeContextUpdate (s : ContextUpdate) (d : DataSpace) : DataSpace :=
  { d with
    contextUpdates := writeChunk s.contextId (Capped.append maxChunksPerKey) s d.contextUpdates }

def writeToolCall (s : ToolCallRequest) (d : DataSpace) : DataSpace :=
  { d with toolCalls := writeLast s.callId s d.toolCalls }

def writeExecutionTrace (s : ExecutionTraceEvent) (d : DataSpace) : DataSpace :=
  { d with
    executionTraces := writeChunk s.traceId (Capped.append maxChunksPerKey) s d.executionTraces }

def writeSecuritySnapshot (s : SecurityPolicySnapshot) (d : DataSpace) : DataSpace :=
  { d with securitySnapshots := writeLast s.policyId s d.securitySnapshots }

def writeSecurityUpdate (s : SecurityPolicyUpdate) (d : DataSpace) : DataSpace :=
  { d with
    securityUpdates := writeChunk s.policyId (Capped.append maxChunksPerKey) s d.securityUpdates }

def writeQosRouting (s : QoSRoutingProfile) (d : DataSpace) : DataSpace :=
  { d with qosRouting := writeLast s.profileId s d.qosRouting }

def writeQosMetric (s : QoSMetric) (d : DataSpace) : DataSpace :=
  { d with qosMetrics := writeLast s.metricId s d.qosMetrics }

def writeQosViolation (s : QoSViolation) (d : DataSpace) : DataSpace :=
  { d with qosViolations := writeLast s.violationId s d.qosViolations }

def writeDiscoveryEvent (s : DiscoveryEvent) (d : DataSpace) : DataSpace :=
  { d with discoveryEvents := writeLast s.eventId s d.discoveryEvents }

/-- The presences of studios have no place here. -/
def write : (t : KeyedTopic) → t.Sample → DataSpace → DataSpace
  | .agent => writeAgentState
  | .systemMetric => writeSystemMetric
  | .serverStatus => writeServerStatus
  | .llmRequest => writeLlmRequest
  | .llmError => writeLlmError
  | .contextSnapshot => writeContextSnapshot
  | .toolCall => writeToolCall
  | .securitySnapshot => writeSecuritySnapshot
  | .qosRouting => writeQosRouting
  | .qosMetric => writeQosMetric
  | .qosViolation => writeQosViolation
  | .discoveryEvent => writeDiscoveryEvent
  | .studioNodePresence => fun _ d => d

def writeListed : (t : ListTopic) → t.Sample → DataSpace → DataSpace
  | .output => writeTaskOutput
  | .llmResult => writeLlmResult
  | .contextUpdate => writeContextUpdate
  | .executionTrace => writeExecutionTrace
  | .securityUpdate => writeSecurityUpdate

/-- The tool calls are those of the backend that the gateways are run on. -/
theorem toolCalls_writeToolCall (s : ToolCallRequest) (d : DataSpace) :
    InMemoryDataSpace.writeToolCall s ⟨d.toolCalls⟩ =
      (.ok (), ⟨(d.writeToolCall s).toolCalls⟩) := by
  unfold InMemoryDataSpace.writeToolCall writeToolCall writeLast
  have haccepts : InMemoryDataSpace.acceptsKey ⟨d.toolCalls⟩ s.callId =
      acceptsKey maxTasksInCache d.toolCalls s.callId := rfl
  rw [haccepts]
  split
  · rfl
  · rfl

end DataSpace

/-! ### Side by side -/

/-- What is held of the topics that are compared. -/
structure View where
  tasks : Map String Task
  outputs : Map String (List TaskOutput)
  agents : Map String AgentState
  llmResults : Map String (List LLMInferenceResult)
  llmRequests : Map String LLMInferenceRequest
  toolCalls : Map String ToolCallRequest
  contextSnapshots : Map String ContextSnapshot
  securitySnapshots : Map String SecurityPolicySnapshot

def DataSpace.view (d : DataSpace) : View :=
  ⟨d.tasks, d.outputs, d.agents, d.llmResults, d.llmRequests, d.toolCalls, d.contextSnapshots,
    d.securitySnapshots⟩

end InMemory

def TopicCaches.view (c : TopicCaches) : InMemory.View :=
  ⟨c.tasks, c.outputs, c.agents, c.llmResults, c.llmRequests, c.toolCalls, c.contextSnapshots,
    c.securitySnapshots⟩

namespace InMemory

/-- Each topic holds the same under every key. -/
structure View.Agrees (v w : View) : Prop where
  tasks : Same v.tasks w.tasks
  outputs : Same v.outputs w.outputs
  agents : Same v.agents w.agents
  llmResults : Same v.llmResults w.llmResults
  llmRequests : Same v.llmRequests w.llmRequests
  toolCalls : Same v.toolCalls w.toolCalls
  contextSnapshots : Same v.contextSnapshots w.contextSnapshots
  securitySnapshots : Same v.securitySnapshots w.securitySnapshots

/-- A sample that is written, with the time at which it is a task's turn. -/
inductive Write where
  | task (nowNs : UInt64) (s : Task)
  | keyed (t : KeyedTopic) (s : t.Sample)
  | listed (t : ListTopic) (s : t.Sample)

/-- The mock, and caches that get the same samples. -/
structure Pair where
  mock : DataSpace
  caches : TopicCaches

namespace Pair

def new : Pair := ⟨DataSpace.new, TopicCaches.new⟩

def step (p : Pair) : Write → Pair
  | .task nowNs s => ⟨p.mock.writeTask nowNs s, (p.caches.upsertTask nowNs s).2⟩
  | .keyed t s => ⟨DataSpace.write t s p.mock, (TopicCaches.upsert t s p.caches).2⟩
  | .listed t s => ⟨DataSpace.writeListed t s p.mock, (TopicCaches.push t s p.caches).2⟩

def run (p : Pair) (writes : List Write) : Pair := writes.foldl step p

def Agrees (p : Pair) : Prop := p.mock.view.Agrees p.caches.view

end Pair

/-- The topics of one sample for each key that are compared. -/
def compared : KeyedTopic → Bool
  | .agent => true
  | .llmRequest => true
  | .contextSnapshot => true
  | .toolCall => true
  | .securitySnapshot => true
  | _ => false

/-- The sample wins over the one held, or is that one; a result has a number of its own. -/
def LastWins (c : TopicCaches) : Write → Prop
  | .task _ _ => True
  | .keyed t s => compared t = true →
      ∀ cur, (c.held t).lookup (t.key s) = some cur → t.wins s cur = true ∨ cur = s
  | .listed .llmResult s =>
      ∀ l, c.llmResults.lookup s.requestId = some l →
        ∀ b ∈ l, LLMInferenceResult.seqNum b ≠ LLMInferenceResult.seqNum s
  | .listed _ _ => True

variable {d : DataSpace} {c : TopicCaches}

/-! ### One write -/

/-- The caches of one sample for each key, as maps. -/
theorem same_writeLast_iff {S : Type} {m m' : Map String S} (h : Same m m') {key : String}
    {wins : S → S → Bool} {s : S} :
    Same (writeLast key s m)
        (if acceptsKey maxTasksInCache m' key then Capped.upsert wins m' key s else m') ↔
      ∀ cur, m'.lookup key = some cur → wins s cur = true ∨ cur = s := by
  unfold writeLast
  rw [h.acceptsKey]
  split
  · exact Capped.same_insert_upsert_iff h
  · next hfull =>
      refine iff_of_true h fun cur hcur => ?_
      simp [acceptsKey, hcur] at hfull

theorem same_writeChunk_iff {S : Type} {m m' : Map String (List S)} (h : Same m m') {key : String}
    {add add' : List S → S → List S} {s : S} :
    Same (writeChunk key add s m)
        (if acceptsKey maxTasksInCache m' key
          then m'.insert key (add' ((m'.lookup key).getD []) s) else m') ↔
      (acceptsKey maxTasksInCache m' key = true →
        add ((m'.lookup key).getD []) s = add' ((m'.lookup key).getD []) s) := by
  unfold writeChunk
  rw [h.acceptsKey, h key]
  split
  · next haccepts =>
      constructor
      · intro hsame _
        have hkey := hsame key
        rw [Map.lookup_insert_if, if_pos rfl, Map.lookup_insert_if, if_pos rfl,
          Option.some.injEq] at hkey
        exact hkey
      · intro heq
        rw [heq haccepts]
        exact h.insert _ _
  · next hfull => exact iff_of_true h fun haccepts => absurd haccepts hfull

theorem view_upsert_of_not_compared {t : KeyedTopic} (ht : compared t = false) (s : t.Sample) :
    (TopicCaches.upsert t s c).2.view = c.view ∧ (DataSpace.write t s d).view = d.view := by
  rw [TopicCaches.upsert_eq]
  unfold TopicCaches.upsertKeyed
  cases t with
  | agent | llmRequest | contextSnapshot | toolCall | securitySnapshot => cases ht
  | systemMetric | serverStatus | llmError | qosRouting | qosMetric | qosViolation
  | discoveryEvent | studioNodePresence =>
      split
      · exact ⟨rfl, rfl⟩
      · exact ⟨rfl, rfl⟩

/-- A topic is one field of the view. -/
theorem view_upsert {t : KeyedTopic} (ht : t.cap = maxTasksInCache) (s : t.Sample)
    (put : Map String t.Sample → View) (hput : ∀ m, (c.hold t m).view = put m)
    (hself : put (c.held t) = c.view) :
    (TopicCaches.upsert t s c).2.view =
      put (if acceptsKey maxTasksInCache (c.held t) (t.key s)
        then Capped.upsert t.wins (c.held t) (t.key s) s else c.held t) := by
  rw [TopicCaches.upsert_eq, ht]
  unfold TopicCaches.upsertKeyed
  split
  · exact hput _
  · exact hself.symm

theorem view_push {t : ListTopic} (s : t.Sample) (put : Map String (List t.Sample) → View)
    (hput : ∀ m, (c.enlist t m).view = put m) (hself : put (c.listed t) = c.view) :
    (TopicCaches.push t s c).2.view =
      put (if acceptsKey maxTasksInCache (c.listed t) (t.key s)
        then (c.listed t).insert (t.key s) (t.add (((c.listed t).lookup (t.key s)).getD []) s)
        else c.listed t) := by
  rw [TopicCaches.push_eq]
  unfold TopicCaches.pushListed
  split
  · exact hput _
  · exact hself.symm

theorem agrees_keyed_iff (h : d.view.Agrees c.view) (t : KeyedTopic) (s : t.Sample) :
    (DataSpace.write t s d).view.Agrees (TopicCaches.upsert t s c).2.view ↔
      LastWins c (.keyed t s) := by
  cases ht : compared t with
  | false =>
      obtain ⟨hcaches, hmock⟩ := view_upsert_of_not_compared (c := c) (d := d) ht s
      rw [hcaches, hmock]
      exact iff_of_true h fun hcompared => absurd (ht.symm.trans hcompared) Bool.false_ne_true
  | true =>
      have hcompared : LastWins c (.keyed t s) ↔
          ∀ cur, (c.held t).lookup (t.key s) = some cur → t.wins s cur = true ∨ cur = s :=
        ⟨fun hwins => hwins ht, fun hwins _ => hwins⟩
      rw [hcompared]
      cases t with
      | agent =>
          rw [view_upsert rfl s (fun m => { c.view with agents := m }) (fun _ => rfl) rfl]
          refine Iff.trans ?_ (same_writeLast_iff h.agents)
          exact ⟨fun h' => h'.agents, fun h' => { h with agents := h' }⟩
      | llmRequest =>
          rw [view_upsert rfl s (fun m => { c.view with llmRequests := m }) (fun _ => rfl) rfl]
          refine Iff.trans ?_ (same_writeLast_iff h.llmRequests)
          exact ⟨fun h' => h'.llmRequests, fun h' => { h with llmRequests := h' }⟩
      | contextSnapshot =>
          rw [view_upsert rfl s (fun m => { c.view with contextSnapshots := m }) (fun _ => rfl) rfl]
          refine Iff.trans ?_ (same_writeLast_iff h.contextSnapshots)
          exact ⟨fun h' => h'.contextSnapshots, fun h' => { h with contextSnapshots := h' }⟩
      | toolCall =>
          rw [view_upsert rfl s (fun m => { c.view with toolCalls := m }) (fun _ => rfl) rfl]
          refine Iff.trans ?_ (same_writeLast_iff h.toolCalls)
          exact ⟨fun h' => h'.toolCalls, fun h' => { h with toolCalls := h' }⟩
      | securitySnapshot =>
          rw [view_upsert rfl s (fun m => { c.view with securitySnapshots := m }) (fun _ => rfl)
            rfl]
          refine Iff.trans ?_ (same_writeLast_iff h.securitySnapshots)
          exact ⟨fun h' => h'.securitySnapshots, fun h' => { h with securitySnapshots := h' }⟩
      | systemMetric | serverStatus | llmError | qosRouting | qosMetric | qosViolation
      | discoveryEvent | studioNodePresence => cases ht

theorem agrees_listed_iff (h : d.view.Agrees c.view) (hc : c.Indexed) (t : ListTopic)
    (s : t.Sample) :
    (DataSpace.writeListed t s d).view.Agrees (TopicCaches.push t s c).2.view ↔
      LastWins c (.listed t s) := by
  cases t with
  | output =>
      rw [view_push s (fun m => { c.view with outputs := m }) (fun _ => rfl) rfl]
      refine iff_of_true { h with outputs := ?_ } trivial
      exact (same_writeChunk_iff h.outputs).mpr fun _ => rfl
  | llmResult =>
      -- the mock appends where the cache puts a chunk in the place of its number
      rw [view_push s (fun m => { c.view with llmResults := m }) (fun _ => rfl) rfl]
      refine Iff.trans ⟨fun h' => h'.llmResults, fun h' => { h with llmResults := h' }⟩ ?_
      refine (same_writeChunk_iff h.llmResults).trans ?_
      have hput : Capped.put LLMInferenceResult.seqNum (newest LLMInferenceResult.emittedAtNs)
            maxChunksPerKey ((c.llmResults.lookup s.requestId).getD []) s =
          Capped.append maxChunksPerKey ((c.llmResults.lookup s.requestId).getD []) s ↔ _ :=
        Capped.put_eq_append_iff (by decide) (hc.getD .llmResult s.requestId)
      constructor
      · intro heq l hl b hb
        have haccepts : acceptsKey maxTasksInCache c.llmResults s.requestId = true := by
          simp [acceptsKey, hl]
        refine hput.mp (heq haccepts).symm b ?_
        rw [hl]
        exact hb
      · intro hwins _
        refine (hput.mpr fun b hb => ?_).symm
        cases hl : c.llmResults.lookup s.requestId with
        | none =>
            rw [hl] at hb
            cases hb
        | some l =>
            rw [hl] at hb
            exact hwins l hl b hb
  | contextUpdate =>
      rw [view_push s (fun _ => c.view) (fun _ => rfl) rfl]
      exact iff_of_true h trivial
  | executionTrace =>
      rw [view_push s (fun _ => c.view) (fun _ => rfl) rfl]
      exact iff_of_true h trivial
  | securityUpdate =>
      rw [view_push s (fun _ => c.view) (fun _ => rfl) rfl]
      exact iff_of_true h trivial

theorem View.Agrees.evict (h : d.view.Agrees c.view) (nowNs maxAgeNs : UInt64) :
    (d.evictTerminalTasks nowNs maxAgeNs).view.Agrees
      (c.evictTerminalTasks nowNs maxAgeNs).view := by
  have hids : ∀ id, id ∈ terminalTaskIds nowNs maxAgeNs d.tasks ↔
      id ∈ terminalTaskIds nowNs maxAgeNs c.tasks := by
    intro id
    have htasks : ∀ key, d.tasks.lookup key = c.tasks.lookup key := h.tasks
    rw [mem_terminalTaskIds, mem_terminalTaskIds]
    simp only [htasks]
  exact ⟨h.tasks.removeAll hids, h.outputs.removeAll hids, h.agents, h.llmResults.removeAll hids,
    h.llmRequests.removeAll hids, h.toolCalls, h.contextSnapshots, h.securitySnapshots⟩

theorem View.Agrees.enterTask (h : d.view.Agrees c.view) (s : Task) :
    (d.enterTask s).view.Agrees (c.enterTask s).2.view := by
  have hlookup : d.tasks.lookup s.taskId = c.tasks.lookup s.taskId := h.tasks s.taskId
  unfold DataSpace.enterTask TopicCaches.enterTask
  rw [hlookup]
  cases c.tasks.lookup s.taskId with
  | none => exact { h with tasks := h.tasks.insert _ _ }
  | some cur =>
      dsimp only
      split
      · exact { h with tasks := h.tasks.insert _ _ }
      · exact h

theorem View.Agrees.writeTask (h : d.view.Agrees c.view) (nowNs : UInt64) (s : Task) :
    (d.writeTask nowNs s).view.Agrees (c.upsertTask nowNs s).2.view := by
  have hlookup : d.tasks.lookup s.taskId = c.tasks.lookup s.taskId := h.tasks s.taskId
  have hlength : d.tasks.keys.length = c.tasks.keys.length := h.tasks.length_keys
  have hevict := h.evict nowNs terminalTtlUnderPressure
  have hroom : (d.evictTerminalTasks nowNs terminalTtlUnderPressure).tasks.keys.length =
      (c.evictTerminalTasks nowNs terminalTtlUnderPressure).tasks.keys.length :=
    hevict.tasks.length_keys
  unfold DataSpace.writeTask TopicCaches.upsertTask
  rw [hlookup, hlength]
  split
  · dsimp only
    rw [hroom]
    split
    · exact { hevict with }
    · exact hevict.enterTask s
  · exact h.enterTask s

/-- One write keeps the two together exactly if the last sample wins. -/
theorem agrees_step_iff {p : Pair} (h : p.Agrees) (hc : p.caches.Indexed) (write : Write) :
    (p.step write).Agrees ↔ LastWins p.caches write := by
  cases write with
  | task nowNs s => exact iff_of_true (h.writeTask nowNs s) trivial
  | keyed t s => exact agrees_keyed_iff h t s
  | listed t s => exact agrees_listed_iff h hc t s

/-- In every state of a run the mock holds what the caches hold, exactly if every write of
the run is one whose last sample wins. -/
theorem mock_agrees_iff (writes : List Write) :
    (∀ before after, writes = before ++ after → (Pair.new.run before).Agrees) ↔
      Along Pair.step (fun p => LastWins p.caches) Pair.new writes := by
  have hsame : ∀ {V : Type}, Same (∅ : Map String V) ∅ := fun _ => rfl
  refine Machine.along_iff_prefixes (J := fun p : Pair => p.caches.Indexed)
    ⟨hsame, hsame, hsame, hsame, hsame, hsame, hsame, hsame⟩ TopicCaches.indexed_new
    (fun p write hc => ?_) fun p write hc h => agrees_step_iff h hc write
  cases write with
  | task nowNs s => exact hc.upsertTask nowNs s
  | keyed t s => exact hc.upsert t s
  | listed t s => exact hc.push t s

/-- A heartbeat of the agent `agent`. -/
def heartbeat (lastUpdateNs : UInt64) (slotsBusy : UInt32) : AgentState where
  agentId := "agent"
  hostname := "host"
  model := "qwen"
  specialization := "text"
  slotsTotal := 2
  slotsBusy := slotsBusy
  vramTotalMb := 0
  vramUsedMb := 0
  emaLatencyMs := 0
  completedTotal := 0
  failedTotal := 0
  health := 2
  lastUpdateNs := lastUpdateNs
  uptimeSeconds := 0

/-- A chunk of the result of the request `request`. -/
def resultChunk (content : String) : LLMInferenceResult where
  requestId := "request"
  seqNum := 0
  content := content
  isFinal := false
  finishReason := 0
  modelUsed := "qwen"
  tokensPrompt := 1
  tokensCompletion := 1
  emittedAtNs := 1

/-- A heartbeat that is late, and a chunk that is delivered twice. -/
theorem late_heartbeat_disagrees :
    ¬ (Pair.new.run [.keyed .agent (heartbeat 20 0), .keyed .agent (heartbeat 10 1)]).Agrees ∧
      ¬ (Pair.new.run [.listed .llmResult (resultChunk "a"),
        .listed .llmResult (resultChunk "a")]).Agrees := by
  constructor
  · intro h
    have hagent := h.agents "agent"
    revert hagent
    decide
  · intro h
    have hresult := h.llmResults "request"
    revert hresult
    decide

end InMemory

end DdsOrchestrator.Dataspace
