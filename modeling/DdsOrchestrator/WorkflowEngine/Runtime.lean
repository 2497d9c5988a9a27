import Mathlib.Data.List.Sort
import DdsOrchestrator.Lib.JsonText
import DdsOrchestrator.WorkflowEngine.Engine
import DdsOrchestrator.WorkflowEngine.QosMapper

/-!
The runtime of the engine: one process that takes intents and decisions,
schedules the nodes of the admitted workflows, watches their tasks, sweeps the
overdue ones, and rehydrates the workflows of its journal after a restart.

What the process does not decide is in `Env`: the clock, the planner, the
tasks and outputs visible in the dataspace, the iteration order of its hash
maps, and which journal calls and topic writes fail. Everything it writes to a
topic is appended to `log`. A `Task` is logged under the workflow, node and
attempt it is published for, which it carries itself only as a hash; plans and
states are logged under the workflow they are published for.
-/

namespace DdsOrchestrator.WorkflowEngine

open Loop

/-! ### Data -/

structure RuntimeConfig where
  decisionPolicy : DecisionPolicy
  mapperPolicy : QosMapperPolicy
  failoverEnabled : Bool
  perAttemptMicrounits : UInt64
  defaultTaskDeadlineNs : UInt64
  deriving DecidableEq

def RuntimeConfig.default : RuntimeConfig where
  decisionPolicy := .default
  mapperPolicy := .default
  failoverEnabled := true
  perAttemptMicrounits := 1
  defaultTaskDeadlineNs := 600000000000

/-- The record of one workflow. -/
structure WfRuntime where
  intent : WorkflowIntent
  graph : PlanGraph
  state : EngineState
  prompts : Map String String
  failover : Bool
  terminal : Bool
  failedReason : Option String
  qos : Option QosTelemetryRecord
  stateRev : Nat
  deriving DecidableEq

inductive Sample where
  | task (workflow node : String) (attempt : Nat) (task : Task)
  | plan (workflow : String) (plan : WorkflowPlan)
  | state (workflow : String) (state : WorkflowState)
  deriving DecidableEq

structure EngineRuntime where
  journal : Journal
  log : List Sample
  cfg : RuntimeConfig
  workflows : Map String WfRuntime
  taskIndex : Map String (String × String)
  inDoubtMarked : Finset String
  deriving DecidableEq

inductive RuntimeError where
  | dataSpace (message : String)
  | workflowSpace
  | journal (e : JournalError)
  | planner (message : String)
  | dag (e : DagError)
  /-- A panic of the source, kept as an outcome. -/
  | panicked (message : String)
  deriving DecidableEq

/-- What one call finds outside the process. Clock readings other than those of
the validators and of the sweeper are numbered. -/
structure Env where
  now : UInt64
  nowDag : UInt64
  stamp : Nat → UInt64
  plan : PlanRequest → Except String PlanCandidate
  allTasks : Except String (List Task)
  taskOutputs : String → Except String (List TaskOutput)
  rank : String → Nat
  journalFails : JournalCall → Bool
  writeFails : Sample → Bool

namespace EngineRuntime

/-- A new process over a journal; the topics keep what was written. -/
def new (journal : Journal) (log : List Sample) (cfg : RuntimeConfig) : EngineRuntime :=
  ⟨journal, log, cfg, ∅, ∅, ∅⟩

def setWf (r : EngineRuntime) (wf : String) (wfr : WfRuntime) : EngineRuntime :=
  { r with workflows := r.workflows.insert wf wfr }

@[simp] theorem lookup_setWf (r : EngineRuntime) (wf : String) (wfr : WfRuntime) (id : String) :
    (r.setWf wf wfr).workflows.lookup id =
      if id = wf then some wfr else r.workflows.lookup id :=
  Map.lookup_insert_if _ _ _ _

variable (env : Env)

/-- The keys of `workflows` in the order in which the map yields them. -/
def workflowIds (r : EngineRuntime) : List String :=
  r.workflows.keys.insertionSort fun a b => env.rank a ≤ env.rank b

/-- The first workflow whose intent carries this request id. -/
def pendingIntentFor (r : EngineRuntime) (requestId : String) : Option String :=
  (r.workflowIds env).find? fun wf =>
    (r.workflows.lookup wf).any fun w => w.intent.requestId.val = requestId

/-! ### Publication -/

def write (sample : Sample) (r : EngineRuntime) : Except RuntimeError Unit × EngineRuntime :=
  if env.writeFails sample then
    (.error (match sample with
      | .task .. => .dataSpace "write_task"
      | _ => .workflowSpace), r)
  else (.ok (), { r with log := r.log ++ [sample] })

/-- A string as `serde_json` writes it. -/
def jsonString (s : String) : String := Json.quote s

/-- `u32::try_from(v).unwrap_or(u32::MAX)`. -/
def saturateU32 (v : UInt64) : UInt32 :=
  if v.toNat < 2 ^ 32 then UInt32.ofNat v.toNat else UInt32.ofNat (2 ^ 32 - 1)

/-- The task of an attempt of a validated node. -/
def nodeTask (wfr : WfRuntime) (spec : NodeSpec) (taskId : String)
    (deadlineNs createdAtNs : UInt64) : Task where
  taskId := taskId
  clientId := "wf-engine"
  targetAgent := spec.targetAgentId
  modelName := spec.modelId
  messagesJson := "[\x7b\"role\":\"user\",\"content\":" ++
    jsonString ((wfr.prompts.lookup spec.nodeId).getD wfr.intent.prompt.val) ++ "\x7d]"
  maxTokens := saturateU32 spec.maxTokens
  status := tsPending
  priority := spec.priority
  createdAtNs := createdAtNs
  deadlineNs := deadlineNs

/-- The published form of a candidate node. -/
def planNode (n : CandidateNode) : PlanNode where
  nodeId := toS n.nodeId
  kind := 0
  requiredCapabilities := seqN 16 (n.requiredCapabilities.map toS)
  modelId := toS n.modelId
  targetAgentId := toS n.targetAgentId
  promptTemplate := toS n.promptTemplate
  dependencies := seqN 32 (n.dependencies.map toS)
  outputNames := seqN 8 (n.outputNames.map toS)
  maxAttempts := UInt16.ofNat n.maxAttempts.toNat
  deadlineNs := n.deadlineNs
  maxTokens := UInt32.ofNat n.maxTokens.toNat
  maxOutputBytes := UInt32.ofNat n.maxOutputBytes.toNat
  securityContextRef := toS ""
  priority := n.priority
  sideEffectKey := toS n.sideEffectKey

def planSample (wf : String) (intent : WorkflowIntent) (cand : PlanCandidate)
    (createdAtNs : UInt64) : WorkflowPlan where
  workflowId := toS wf
  planRevision := 1
  schemaVersion := 1
  requestId := toS intent.requestId.val
  intentRevision := intent.intentRevision
  effectiveDecisionId := toS ("dec-" ++ intent.requestId.val)
  policyRevision := intent.policyRevision
  capabilityCatalogRevision := intent.capabilityCatalogRevision
  plannerId := toS cand.plannerId
  plannerRevision := toS cand.plannerRevision
  createdAtNs := createdAtNs
  deadlineNs := intent.deadlineNs
  qosProfile := 0
  nodes := seqN 32 (cand.nodes.map planNode)
  planHash := toS ""

def publishPlan (wf : String) (cand : PlanCandidate) (r : EngineRuntime) :
    Except RuntimeError Unit × EngineRuntime :=
  match r.workflows.lookup wf with
  | none => (.error (.panicked "wf"), r)
  | some wfr =>
      r.write env (.plan wf (planSample wf wfr.intent cand (env.stamp (2 * r.log.length))))

/-- The projection of one node into the published state. -/
def nodeState (wfr : WfRuntime) (n : NodeSpec) : NodeState where
  nodeId := toS n.nodeId
  status :=
    match wfr.state.nodes.lookup n.nodeId with
    | some p => if p.done then .done else if p.failed then .failed else .published
    | none => .published
  attemptId := ((wfr.state.nodes.lookup n.nodeId).map (·.activeAttempt)).getD 0
  ready := true
  reasonCode := if wfr.failedReason.isSome then 11 else 0

def stateSample (wf : String) (wfr : WfRuntime) (status : WorkflowStatus)
    (createdAtNs updatedAtNs : UInt64) : WorkflowState where
  workflowId := toS wf
  planRevision := wfr.graph.planRevision
  schemaVersion := 1
  stateRevision := wfr.stateRev
  requestId := toS wfr.intent.requestId.val
  status := status
  reasonCode := if wfr.failedReason.isSome then 11 else 0
  nodes := seqN 32 (wfr.graph.nodes.map (nodeState wfr))
  createdAtNs := createdAtNs
  updatedAtNs := updatedAtNs
  expiresAtNs := wfr.intent.deadlineNs

/-- Publish a state under the next revision, a 32-bit counter. -/
def publishState (wf : String) (status : WorkflowStatus) (r : EngineRuntime) :
    Except RuntimeError Unit × EngineRuntime :=
  match r.workflows.lookup wf with
  | none => (.error (.panicked "wf"), r)
  | some wfr =>
      let wfr := { wfr with stateRev := (wfr.stateRev + 1) % 2 ^ 32 }
      (r.setWf wf wfr).write env (.state wf (stateSample wf wfr status
        (env.stamp (2 * r.log.length)) (env.stamp (2 * r.log.length + 1))))

/-! ### Intents -/

/-- The revision a cancellation has to name. -/
def currentRevision (wfr : WfRuntime) : Nat :=
  if 0 < wfr.graph.planRevision then wfr.graph.planRevision
  else wfr.intent.intentRevision.toNat

/-- A cancellation that names this workflow is accepted. -/
def cancelMatches (intent : WorkflowIntent) (wfr : WfRuntime) : Prop :=
  currentRevision wfr = intent.expectedPlanRevision.toNat ∨ intent.expectedPlanRevision = 0

instance (intent : WorkflowIntent) (wfr : WfRuntime) : Decidable (cancelMatches intent wfr) :=
  inferInstanceAs (Decidable (_ ∨ _))

/-- The record of an intent that awaits its decision. -/
def awaiting (cfg : RuntimeConfig) (intent : WorkflowIntent) : WfRuntime where
  intent := intent
  graph := ⟨intent.workflowId.val, 0, []⟩
  state := default
  prompts := ∅
  failover := cfg.failoverEnabled
  terminal := false
  failedReason := none
  qos := none
  stateRev := 0

def onIntent (intent : WorkflowIntent) (r : EngineRuntime) :
    Except RuntimeError Unit × EngineRuntime :=
  let wf := intent.workflowId.val
  if intent.command = icCancel then
    match r.workflows.lookup wf with
    | none => (.ok (), r)
    | some wfr =>
        if cancelMatches intent wfr then
          publishState env wf .cancelled
            (r.setWf wf { wfr with terminal := true, failedReason := none })
        else (.ok (), r)
  else if wf ∈ r.workflows then (.ok (), r)
  else (.ok (), r.setWf wf (awaiting r.cfg intent))

/-! ### Decisions -/

/-- The telemetry a shadow decision leaves. -/
def shadowQos (verdict : Verdict) (intent : WorkflowIntent) (policy : QosMapperPolicy) :
    Option QosTelemetryRecord :=
  match map verdict intent policy with
  | .applied e => some (.applied intent.workflowId.val e)
  | .rejected _ => none

/-- The arguments `on_decision` passes to the journal. -/
def admission (decision : RoutingDecision) (intent : WorkflowIntent) (verdict : Verdict) :
    Journal.Admission where
  workflowId := intent.workflowId.val
  requestId := intent.requestId.val
  decisionId := decision.decisionId.val
  payloadHash := decision.payloadHash.val
  verdict := verdictName verdict
  budgetMicrounits := intent.maxCostMicrounits
  maxTokens := UInt64.ofNat intent.maxTokens.toNat
  prompt := intent.prompt.val
  createdAtNs := intent.createdAtNs
  deadlineNs := intent.deadlineNs
  intentRevision := intent.intentRevision
  questionsRevision := intent.questionsRevision
  policyRevision := intent.policyRevision
  capabilityCatalogRevision := intent.capabilityCatalogRevision
  checkpointRevision := intent.checkpointRevision.val

/-- The prompts of a plan by node. -/
def promptsOf (cand : PlanCandidate) : Map String String :=
  cand.nodes.foldl (fun m n => m.insert n.nodeId n.promptTemplate) ∅

/-- The record once its plan is accepted. -/
def planned (wfr : WfRuntime) (journal : Journal) (cand : PlanCandidate)
    (failover : Bool) (qos : QosTelemetryRecord) : WfRuntime :=
  let graph := PlanGraph.fromCandidate wfr.intent.workflowId.val 1 cand
  { wfr with
    graph := graph
    state := EngineState.recover env.journalFails journal graph
    prompts := promptsOf cand
    failover := failover
    qos := some qos }

/-- After the admission: plan, validate, install, publish. -/
def installPlan (wf : String) (wfr : WfRuntime) (e : EffectiveQos) (r : EngineRuntime) :
    Except RuntimeError Bool × EngineRuntime :=
  match env.plan ⟨wfr.intent.workflowId.val, wfr.intent.prompt.val⟩ with
  | .error message => (.error (.planner message), r)
  | .ok cand =>
      match validateCandidate cand wfr.intent env.nowDag with
      | .error e => (.error (.dag e), r)
      | .ok () =>
          andThen (publishPlan env wf cand (r.setWf wf (planned env wfr r.journal cand
            (e.failoverRetries && r.cfg.failoverEnabled)
            (.applied wfr.intent.workflowId.val e)))) fun _ r =>
          andThen (publishState env wf .running r) fun _ r => (.ok true, r)

/-- The failure reason of a refused objective. -/
def qosReason (reason : QosReject) : String := "qos: " ++ reason.message

/-- The verdict of a decision on the intent of a record. -/
def verdictOn (r : EngineRuntime) (wfr : WfRuntime) (decision : RoutingDecision) : Verdict :=
  validate decision wfr.intent r.cfg.decisionPolicy (some env.now)

/-- Intake of a decision for a workflow that is registered. -/
def takeDecision (wf : String) (wfr : WfRuntime) (decision : RoutingDecision) (r : EngineRuntime) :
    Except RuntimeError Bool × EngineRuntime :=
  let verdict := verdictOn env r wfr decision
  if verdict.isShadow then
    (.ok false, r.setWf wf { wfr with qos := shadowQos verdict wfr.intent r.cfg.mapperPolicy })
  else
    match mapVerdict verdict wfr.intent r.cfg.mapperPolicy with
    | .rejected reason =>
        andThen (publishState env wf .failed (r.setWf wf { wfr with
          terminal := true, failedReason := some (qosReason reason) })) fun _ r => (.ok false, r)
    | .applied e =>
        match r.journal.admitWorkflow env.journalFails (admission decision wfr.intent verdict) with
        | (.error e, j) => (.error (.journal e), { r with journal := j })
        | (.ok .conflict, j) => (.ok false, { r with journal := j })
        | (.ok .replay, j) => (.ok true, { r with journal := j })
        | (.ok .admitted, j) => installPlan env wf wfr e { r with journal := j }

/-- Intake of a decision; `true` when its workflow is admitted. -/
def onDecision (decision : RoutingDecision) (r : EngineRuntime) :
    Except RuntimeError Bool × EngineRuntime :=
  match r.pendingIntentFor env decision.requestId.val with
  | none => (.ok false, r)
  | some wf =>
      match r.workflows.lookup wf with
      | none => (.error (.panicked "wf"), r)
      | some wfr => takeDecision env wf wfr decision r

/-! ### Rehydration -/

def storedIntentToWire (si : Journal.StoredIntent) : WorkflowIntent where
  requestId := toS si.requestId
  workflowId := toS si.workflowId
  clientId := toS "recovered"
  schemaVersion := 1
  intentRevision := si.intentRevision
  command := 0
  expectedPlanRevision := 0
  prompt := toS si.prompt
  createdAtNs := si.createdAtNs
  deadlineNs := si.deadlineNs
  securityContextRef := toS ""
  policyRevision := si.policyRevision
  questionsRevision := si.questionsRevision
  capabilityCatalogRevision := si.capabilityCatalogRevision
  checkpointRevision := toS si.checkpointRevision
  maxTokens := UInt32.ofNat si.maxTokens.toNat
  maxCostMicrounits := si.maxCostMicrounits
  budgetUnit := toS "MICRO_USD"
  fallbackTemplateId := toS ""
  payloadHash := toS ""

/-- The record rebuilt from a stored intent and a new plan. -/
def recovered (cfg : RuntimeConfig) (journal : Journal) (si : Journal.StoredIntent)
    (cand : PlanCandidate) : WfRuntime where
  intent := storedIntentToWire si
  graph := PlanGraph.fromCandidate si.workflowId 1 cand
  state := EngineState.recover env.journalFails journal
    (PlanGraph.fromCandidate si.workflowId 1 cand)
  prompts := promptsOf cand
  failover := cfg.failoverEnabled
  terminal := false
  failedReason := none
  qos := none
  stateRev := 0

def rehydrate (si : Journal.StoredIntent) (r : EngineRuntime) :
    Except RuntimeError Nat × EngineRuntime :=
  if si.workflowId ∈ r.workflows then (.ok 0, r)
  else
    match env.plan ⟨si.workflowId, si.prompt⟩ with
    | .error _ => (.ok 0, r)
    | .ok cand =>
        andThen (publishPlan env si.workflowId cand
          (r.setWf si.workflowId (recovered env r.cfg r.journal si cand))) fun _ r => (.ok 1, r)

/-- The plan is not validated again here. -/
def recoverFromJournal (r : EngineRuntime) : Except RuntimeError Nat × EngineRuntime :=
  match r.journal.storedIntents env.journalFails with
  | .error e => (.error (.journal e), r)
  | .ok stored => forEach (rehydrate env) stored r

/-! ### Scheduling -/

/-- Index a materialised attempt and publish its task. -/
def dispatch (wf node taskId : String) (wfr : WfRuntime) (r : EngineRuntime) :
    Except RuntimeError Nat × EngineRuntime :=
  let r := { r with taskIndex := r.taskIndex.insert taskId (wf, node) }
  match wfr.graph.node node with
  | none => (.error (.panicked "nó validado"), r)
  | some spec =>
      let deadlineNs :=
        if 0 < wfr.intent.deadlineNs then wfr.intent.deadlineNs
        else env.stamp (2 * r.log.length) + r.cfg.defaultTaskDeadlineNs
      andThen (r.write env (.task wf node (wfr.state.progress node).activeAttempt
        (nodeTask wfr spec taskId deadlineNs (env.stamp (2 * r.log.length + 1))))) fun _ r =>
      andThen (publishState env wf .running r) fun _ r => (.ok 1, r)

def scheduleNode (wf node : String) (r : EngineRuntime) :
    Except RuntimeError Nat × EngineRuntime :=
  match r.workflows.lookup wf with
  | none => (.error (.panicked "wf"), r)
  | some wfr =>
      match wfr.state.materialize env.journalFails wfr.graph node r.cfg.perAttemptMicrounits
          r.journal with
      | (result, state, journal) =>
          let wfr := { wfr with state := state }
          let r := { r.setWf wf wfr with journal := journal }
          match result with
          | .error (.alreadyDone _) => (.ok 0, r)
          | .error (.reservationConsumed _ _) => (.ok 0, r)
          | .error e => (.error (.journal (.corrupted ("materialize: " ++ e.message))), r)
          | .ok taskId =>
              if taskId ∈ r.taskIndex then (.ok 0, r)
              else dispatch env wf node taskId wfr r

def scheduleWorkflow (wf : String) (r : EngineRuntime) : Except RuntimeError Nat × EngineRuntime :=
  match r.workflows.lookup wf with
  | none => (.error (.panicked "wf"), r)
  | some wfr =>
      if wfr.terminal then (.ok 0, r)
      else forEach (scheduleNode env wf)
        ((wfr.graph.readyNodes wfr.state.doneSet).map (·.nodeId)) r

def tickScheduler (r : EngineRuntime) : Except RuntimeError Nat × EngineRuntime :=
  forEach (scheduleWorkflow env) (r.workflowIds env) r

/-! ### Watching -/

def nodeOutputName (graph : PlanGraph) (node : String) : String :=
  ((graph.node node).bind fun n => n.outputNames.head?).getD "out"

/-- The hash of the final chunks of a task. -/
def outputHash (outputs : List TaskOutput) : String :=
  sha256Hex (String.join ((outputs.filter (·.isFinal)).map (·.content)))

def completeTask (wf node : String) (wfr : WfRuntime) (attempt : Nat) (outputs : List TaskOutput)
    (r : EngineRuntime) : Except RuntimeError Nat × EngineRuntime :=
  match wfr.state.onDone env.journalFails wfr.graph node attempt
      [(nodeOutputName wfr.graph node, outputHash outputs)] r.journal with
  | (.error (.panicked message), _, _) => (.error (.panicked message), r)
  | (.error _, state, journal) =>
      (.ok 0, { r.setWf wf { wfr with state := state } with journal := journal })
  | (.ok _, state, journal) =>
      if state.allDone then
        andThen (publishState env wf .done
          { r.setWf wf { wfr with state := state, terminal := true } with journal := journal })
          fun _ r => (.ok 1, r)
      else
        andThen (publishState env wf .running
          { r.setWf wf { wfr with state := state } with journal := journal })
          fun _ r => (.ok 1, r)

def noRetryReason (node : String) : String := "nó " ++ node ++ " falhou sem retry"

def failTask (wf node taskId : String) (wfr : WfRuntime) (attempt : Nat) (r : EngineRuntime) :
    Except RuntimeError Nat × EngineRuntime :=
  match wfr.state.onFailed env.journalFails wfr.graph node attempt wfr.failover r.journal with
  | (.error (.panicked message), _, _) => (.error (.panicked message), r)
  | (.error _, state, journal) =>
      (.ok 0, { r.setWf wf { wfr with state := state } with journal := journal })
  | (.ok (some _), state, journal) =>
      andThen (publishState env wf .running
        { r.setWf wf { wfr with state := state } with
          journal := journal, taskIndex := r.taskIndex.erase taskId })
        fun _ r => (.ok 1, r)
  | (.ok none, state, journal) =>
      andThen (publishState env wf .failed
        { r.setWf wf { wfr with
            state := state, terminal := true, failedReason := some (noRetryReason node) } with
          journal := journal })
        fun _ r => (.ok 1, r)

def watchTask (task : Task) (r : EngineRuntime) : Except RuntimeError Nat × EngineRuntime :=
  match r.taskIndex.lookup task.taskId with
  | none => (.ok 0, r)
  | some (wf, node) =>
      match r.workflows.lookup wf with
      | none => (.ok 0, r)
      | some wfr =>
          let attempt := ((wfr.state.nodes.lookup node).map (·.activeAttempt)).getD 1
          if wfr.terminal then (.ok 0, r)
          else if task.status = tsDone then
            match env.taskOutputs task.taskId with
            | .error e => (.error (.dataSpace e), r)
            | .ok outputs => completeTask env wf node wfr attempt outputs r
          else if task.status = tsFailed then failTask env wf node task.taskId wfr attempt r
          else (.ok 0, r)

def tickWatchTasks (r : EngineRuntime) : Except RuntimeError Nat × EngineRuntime :=
  match env.allTasks with
  | .error e => (.error (.dataSpace e), r)
  | .ok tasks => forEach (watchTask env) tasks r

/-! ### Timeouts -/

def inDoubtReason (taskId : String) : String := "in_doubt: task " ++ taskId ++ " venceu o prazo"

/-- The task has not ended and its deadline has passed. -/
def overdue (task : Task) : Prop :=
  ¬ (task.status = tsDone ∨ task.status = tsFailed) ∧
    0 < task.deadlineNs ∧ task.deadlineNs < env.now

instance (task : Task) : Decidable (overdue env task) := inferInstanceAs (Decidable (_ ∧ _))

/-- The record of a workflow one of whose tasks is in doubt. -/
def doubt (taskId : String) (wfr : WfRuntime) : WfRuntime :=
  { wfr with terminal := true, failedReason := some (inDoubtReason taskId) }

/-- One visible task. The second component collects the workflows whose state
is published when the sweep is over. -/
def sweepTask (task : Task) : EngineRuntime × List String →
    Except RuntimeError Nat × EngineRuntime × List String
  | (r, doubtful) =>
      if ¬ overdue env task then (.ok 0, r, doubtful)
      else if task.taskId ∈ r.inDoubtMarked then (.ok 0, r, doubtful)
      else
        let r := { r with inDoubtMarked := insert task.taskId r.inDoubtMarked }
        match r.journal.markInDoubt env.journalFails task.taskId with
        | (.error e, j) => (.error (.journal e), { r with journal := j }, doubtful)
        | (.ok (), j) =>
            let r := { r with journal := j }
            match r.taskIndex.lookup task.taskId with
            | none => (.ok 1, r, doubtful)
            | some (wf, _) =>
                match r.workflows.lookup wf with
                | none => (.ok 1, r, doubtful ++ [wf])
                | some wfr => (.ok 1, r.setWf wf (doubt task.taskId wfr), doubtful ++ [wf])

def publishInDoubt (wf : String) (r : EngineRuntime) : Except RuntimeError Nat × EngineRuntime :=
  andThen (publishState env wf .inDoubt r) fun _ r => (.ok 0, r)

def tickTimeouts (r : EngineRuntime) : Except RuntimeError Nat × EngineRuntime :=
  match env.allTasks with
  | .error e => (.error (.dataSpace e), r)
  | .ok tasks =>
      match forEach (sweepTask env) tasks (r, []) with
      | (.error e, r, _) => (.error e, r)
      | (.ok marked, r, doubtful) =>
          andThen (forEach (publishInDoubt env) doubtful r) fun _ r => (.ok marked, r)

/-! ### Reports -/

def workflowDone (r : EngineRuntime) (wf : String) : Option Bool :=
  (r.workflows.lookup wf).map fun w => w.terminal && w.failedReason.isNone

def workflowsSummary (r : EngineRuntime) : List (String × Bool × Option String) :=
  (r.workflowIds env).filterMap fun wf =>
    (r.workflows.lookup wf).map fun w => (wf, w.terminal, w.failedReason)

end EngineRuntime

/-- The record is terminal without a failure and every node of its plan is done. -/
def Completed (wf : String) (r : EngineRuntime) : Prop :=
  ∃ wfr, r.workflows.lookup wf = some wfr ∧ wfr.terminal = true ∧ wfr.failedReason = none ∧
    wfr.graph.nodes ≠ [] ∧ ∀ n ∈ wfr.graph.nodes, n.nodeId ∈ wfr.state.doneSet

/-! ### Runs -/

inductive Call where
  | intent (intent : WorkflowIntent)
  | decision (decision : RoutingDecision)
  | recoverFromJournal
  | tickScheduler
  | tickWatchTasks
  | tickTimeouts
  /-- The process ends and a new one opens the same journal. -/
  | restart (cfg : RuntimeConfig)

structure Input where
  env : Env
  call : Call

open EngineRuntime in
/-- One call; a call that fails keeps what it has changed. -/
def step (r : EngineRuntime) (i : Input) : EngineRuntime :=
  match i.call with
  | .intent intent => (r.onIntent i.env intent).2
  | .decision decision => (r.onDecision i.env decision).2
  | .recoverFromJournal => (r.recoverFromJournal i.env).2
  | .tickScheduler => (r.tickScheduler i.env).2
  | .tickWatchTasks => (r.tickWatchTasks i.env).2
  | .tickTimeouts => (r.tickTimeouts i.env).2
  | .restart cfg => new r.journal r.log cfg

/-- The first process, over a new journal. -/
def initial (cfg : RuntimeConfig) : EngineRuntime := .new .empty [] cfg

/-- The state after a list of calls. -/
def run (cfg : RuntimeConfig) (inputs : List Input) : EngineRuntime :=
  inputs.foldl step (initial cfg)

/-! ### A small deployment

One intent, the decision that admits it, a configuration that pins the
decision's calibration, and an environment in which nothing fails. Later
modules run the engine on these. -/

namespace Deployment

def intent : WorkflowIntent where
  requestId := toS "req-1"
  workflowId := toS "wf-1"
  clientId := toS "client"
  schemaVersion := 1
  intentRevision := 1
  command := 0
  expectedPlanRevision := 0
  prompt := toS "resuma"
  createdAtNs := 1
  deadlineNs := 1000
  securityContextRef := toS ""
  policyRevision := 1
  questionsRevision := 1
  capabilityCatalogRevision := 1
  checkpointRevision := toS ""
  maxTokens := 4096
  maxCostMicrounits := 1000
  budgetUnit := toS "MICRO_USD"
  fallbackTemplateId := toS ""
  payloadHash := toS "intent-hash"

def cancel : WorkflowIntent := { intent with command := icCancel }

def decision : RoutingDecision where
  requestId := toS "req-1"
  decisionId := toS "dec-1"
  workflowId := toS "wf-1"
  schemaVersion := 1
  intentRevision := 1
  checkpointRevision := toS ""
  questionsRevision := 1
  policyRevision := 1
  capabilityCatalogRevision := 1
  qosProfile := qiFailover
  qosProbabilities := seqN 5 [⟨qiFailover, .finite 1⟩]
  capabilityProbabilities := seqN 16 []
  requiresPlanningProbability := .finite 0
  priorityScore := .finite 0
  priorityProbabilities := seqN 3 [.finite 1, .finite 0, .finite 0]
  confidence := .finite 1
  answerConfidence := .finite 1
  calibrationRevision := toS "cal-1"
  createdAtNs := 1
  validUntilNs := 1000
  decisionStatus := 0
  reasonCode := 0
  payloadHash := toS "hash-1"

def config : RuntimeConfig :=
  { RuntimeConfig.default with
    decisionPolicy := { DecisionPolicy.default with calibrationPin := some "cal-1" } }

/-- Every call succeeds, the clock stands at 10, and the planner is the direct
template. -/
def env : Env where
  now := 10
  nowDag := 10
  stamp := fun _ => 10
  plan := fun request => .ok (directTemplatePlan request)
  allTasks := .ok []
  taskOutputs := fun _ => .ok [⟨"ok", true⟩]
  rank := fun _ => 0
  journalFails := fun _ => false
  writeFails := fun _ => false

/-- The clock is past the validity of the decision and the tolerated skew. -/
def late : Env := { env with now := 6000000000 }

/-- The environment in which `tasks` are visible. -/
def showing (tasks : List Task) : Env := { env with allTasks := .ok tasks }

/-- A task of this id and status with a deadline. -/
def seen (taskId : String) (status : Int) (deadlineNs : UInt64) : Task where
  taskId := taskId
  clientId := "wf-engine"
  targetAgent := ""
  modelName := ""
  messagesJson := ""
  maxTokens := 512
  status := status
  priority := 5
  createdAtNs := 10
  deadlineNs := deadlineNs

/-- The intent is registered and admitted. -/
def admitted : List Input := [⟨env, .intent intent⟩, ⟨env, .decision decision⟩]

/-- The one task of the admitted workflow. -/
def taskId : String := laya1TaskId "wf-1" 1 "direct-0" 1

end Deployment

end DdsOrchestrator.WorkflowEngine
