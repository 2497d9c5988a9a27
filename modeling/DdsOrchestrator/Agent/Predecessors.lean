import DdsOrchestrator.Agent.Barrier
import DdsOrchestrator.Agent.Convergence
import DdsOrchestrator.WorkflowEngine.Projection

/-!
The barrier and the engine together. An agent that is fed what the engine publishes lets
a task through by the status of its node alone: it looks neither at the status of the
workflow nor at the nodes that the node depends on. The engine publishes a node as
published unless it is done or has failed, also in a terminal state, and with an active
attempt before the node is ready. So both a cancelled workflow and a node that waits for
another are open to a claim, and they are not in runs that end only what is over and get
only plans without dependencies.
-/

namespace DdsOrchestrator.Agent

open WorkflowEngine (DdsBoundedSequence Sample Task toS seqN)

/-! ### The published samples on the wire -/

/-- A sequence with each element converted. -/
def mapSeq {α β : Type} {n : Nat} (f : α → β) (s : DdsBoundedSequence α n) :
    DdsBoundedSequence β n :=
  ⟨s.items.map f, by simpa using s.bounded⟩

def wireNode (n : WorkflowEngine.PlanNode) : Wire.PlanNode where
  nodeId := n.nodeId
  kind := Int32.ofInt n.kind
  requiredCapabilities := n.requiredCapabilities
  modelId := n.modelId
  targetAgentId := n.targetAgentId
  promptTemplate := n.promptTemplate
  dependencies := n.dependencies
  inputs := seqN 16 []
  outputNames := n.outputNames
  maxAttempts := n.maxAttempts
  deadlineNs := n.deadlineNs
  maxTokens := n.maxTokens
  maxOutputBytes := n.maxOutputBytes
  securityContextRef := n.securityContextRef
  priority := Int32.ofInt n.priority
  sideEffectKey := n.sideEffectKey

def wirePlan (p : WorkflowEngine.WorkflowPlan) : Wire.WorkflowPlan where
  workflowId := p.workflowId
  planRevision := p.planRevision
  schemaVersion := p.schemaVersion
  requestId := p.requestId
  intentRevision := p.intentRevision
  effectiveDecisionId := p.effectiveDecisionId
  policyRevision := p.policyRevision
  capabilityCatalogRevision := p.capabilityCatalogRevision
  plannerId := p.plannerId
  plannerRevision := p.plannerRevision
  createdAtNs := p.createdAtNs
  deadlineNs := p.deadlineNs
  qosProfile := Int32.ofInt p.qosProfile
  nodes := mapSeq wireNode p.nodes
  planHash := p.planHash

def wireNodeStatus : WorkflowEngine.NodeStatus → Int32
  | .published => 2
  | .done => 5
  | .failed => 6

def wireStatus : WorkflowEngine.WorkflowStatus → Int32
  | .accepted => 0
  | .waitingDecision => 1
  | .waitingPlan => 2
  | .running => 3
  | .done => 4
  | .failed => 5
  | .cancelled => 6
  | .inDoubt => 7

def wireNodeState (n : WorkflowEngine.NodeState) : Wire.NodeState where
  nodeId := n.nodeId
  status := wireNodeStatus n.status
  attemptId := UInt32.ofNat n.attemptId
  taskId := toS ""
  assignedAgentId := toS ""
  ready := n.ready
  startedAtNs := 0
  completedAtNs := 0
  outputs := seqN 8 []
  reasonCode := Int32.ofInt n.reasonCode

def wireState (s : WorkflowEngine.WorkflowState) : Wire.WorkflowState where
  workflowId := s.workflowId
  planRevision := UInt32.ofNat s.planRevision
  schemaVersion := s.schemaVersion
  stateRevision := UInt32.ofNat s.stateRevision
  requestId := s.requestId
  effectiveDecisionId := toS ""
  planHash := toS ""
  status := wireStatus s.status
  reasonCode := Int32.ofInt s.reasonCode
  nodes := mapSeq wireNodeState s.nodes
  createdAtNs := s.createdAtNs
  updatedAtNs := s.updatedAtNs
  expiresAtNs := s.expiresAtNs
  cancelledByRequestId := toS ""
  effectiveQosConfigHash := toS ""
  fallbackTemplateId := toS ""

/-- The plans and states of a log, in the order in which they were published. -/
def deliveries (log : List Sample) : List Delivery :=
  log.filterMap fun
    | .task .. => none
    | .plan _ p => some (.plan (wirePlan p))
    | .state _ s => some (.state (wireState s))

theorem mem_deliveries_plan {log : List Sample} {p : Wire.WorkflowPlan}
    (h : .plan p ∈ deliveries log) : ∃ wf q, .plan wf q ∈ log ∧ p = wirePlan q := by
  obtain ⟨s, hs, hsome⟩ := List.mem_filterMap.mp h
  cases s with
  | task => cases hsome
  | plan wf q =>
      cases hsome
      exact ⟨wf, q, hs, rfl⟩
  | state => cases hsome

theorem mem_deliveries_state {log : List Sample} {s : Wire.WorkflowState}
    (h : .state s ∈ deliveries log) : ∃ wf t, .state wf t ∈ log ∧ s = wireState t := by
  obtain ⟨sample, hs, hsome⟩ := List.mem_filterMap.mp h
  cases sample with
  | task => cases hsome
  | plan => cases hsome
  | state wf t =>
      cases hsome
      exact ⟨wf, t, hs, rfl⟩

theorem states_deliveries (log : List Sample) :
    (deliveries log).filterMap (·.state?) = (WorkflowEngine.statesOf log).map wireState := by
  induction log with
  | nil => rfl
  | cons s log ih =>
      cases s with
      | task => simpa [deliveries, WorkflowEngine.statesOf] using ih
      | plan => simpa [deliveries, WorkflowEngine.statesOf, Delivery.state?] using ih
      | state => simpa [deliveries, WorkflowEngine.statesOf, Delivery.state?] using ih

/-! ### What the barrier is to enforce -/

/-- The workflow statuses DONE, FAILED, CANCELLED and IN_DOUBT. -/
def terminalStatuses : List Int32 := [4, 5, 6, 7]

/-- The node status DONE. -/
def nodeDone : Int32 := 5

/-- The last state of the workflow among the samples received. -/
def lastState (order : List Delivery) (wf : String) : Option Wire.WorkflowState :=
  (order.filterMap (·.state?)).reverse.find? fun s => s.workflowId.val = wf

/-- The last state received of the node's workflow is not terminal, and has every
dependency of the node as done. -/
structure Enforced (order : List Delivery) (plan : Wire.WorkflowPlan)
    (state : Wire.WorkflowState) (node : Wire.PlanNode) : Prop where
  latest : lastState order plan.workflowId.val = some state
  live : state.status ∉ terminalStatuses
  predecessors : ∀ d ∈ node.dependencies.items,
    ∃ dep, nodeState state d = some dep ∧ dep.status = nodeDone

/-- Whoever has received these samples in this order lets a task through only for a node
of which this holds. -/
def Enforces (order : List Delivery) : Prop :=
  ∀ (plans : (AdaptiveSnapshot.received order).PlanOrder) (task : Task) (agentId : String)
    (announcement : Option Wire.AgentCapabilities) (registry : Option Wire.AgentState)
    (targetPrefix : String) (nowNs : UInt64),
    barrierCheck (AdaptiveSnapshot.received order) plans task agentId announcement registry
      targetPrefix nowNs = .proceed →
    ∃ plan state node ns,
      Cleared (AdaptiveSnapshot.received order) task agentId announcement registry nowNs plan
        state node ns ∧ Enforced order plan state node

/-! ### Tidy runs -/

section Tidy

open WorkflowEngine (RuntimeConfig Input Sample.Sound LogSound RevisionsAdvance WellTold statesOf
  initial run step Tidy wellTold_run)
open AdaptiveSnapshot (received)

variable {log : List Sample}

/-- What is held has been received. -/
theorem received_plan {order : List Delivery} {p : Wire.WorkflowPlan}
    (h : p ∈ (received order).plans.values) : .plan p ∈ order :=
  Multiset.mem_coe.mp ((AdaptiveSnapshot.received_newest rfl).1.offered p h)

theorem received_state {order : List Delivery} {wf : String} {s : Wire.WorkflowState}
    (h : (received order).states.get? wf = some s) : .state s ∈ order := by
  obtain rfl := Latest.key_of_get? h
  exact Multiset.mem_coe.mp
    ((AdaptiveSnapshot.received_newest rfl).2.1.offered s (Latest.mem_values.mpr h))

/-- Where the plan revisions do not go back, the state that is held is the last one. -/
theorem get?_states (hadvance : RevisionsAdvance (statesOf log))
    (hbounded : ∀ st ∈ statesOf log, st.planRevision ≤ 1) (wf : String) :
    (received (deliveries log)).states.get? wf = lastState (deliveries log) wf := by
  rw [AdaptiveSnapshot.received_eq]
  refine Latest.get?_offerAll_of_advance _ ?_ wf
  rw [states_deliveries, List.pairwise_map]
  refine hadvance.imp_of_mem fun {a b} ha hb hle hkey => ?_
  have hid : a.workflowId = b.workflowId := by
    rw [← WorkflowEngine.toS_coe a.workflowId, ← WorkflowEngine.toS_coe b.workflowId]
    exact congrArg toS hkey
  have hrevision : ∀ st ∈ statesOf log, (wireState st).planRevision.toNat = st.planRevision := by
    intro st hst
    have hle := hbounded st hst
    show (UInt32.ofNat st.planRevision).toNat = st.planRevision
    rw [UInt32.toNat_ofNat']
    omega
  rw [hrevision a ha, hrevision b hb]
  exact hle hid

theorem wireStatus_live {status : WorkflowEngine.WorkflowStatus} (h : status.isTerminal = false) :
    wireStatus status ∉ terminalStatuses := by
  cases status with
  | accepted | waitingDecision | waitingPlan | running => decide
  | done | failed | cancelled | inDoubt => cases h

/-- A node that may be claimed is published. -/
theorem claimable_published {status : WorkflowEngine.NodeStatus}
    (h : wireNodeStatus status = 1 ∨ wireNodeStatus status = 2) : status = .published := by
  cases status with
  | published => rfl
  | done | failed => exact absurd h (by decide)

/-- The samples of a log that is sound and whose plan revisions do not go back. -/
theorem enforces_of_sound (hsound : ∀ s ∈ log, s.Sound)
    (hadvance : RevisionsAdvance (statesOf log))
    (hbounded : ∀ st ∈ statesOf log, st.planRevision ≤ 1) : Enforces (deliveries log) := by
  intro plans task agentId announcement registry targetPrefix nowNs h
  obtain ⟨plan, state, node, ns, hcleared⟩ := cleared_of_proceed h
  have hlocated := hcleared.located
  refine ⟨plan, state, node, ns, hcleared, ?_, ?_, ?_⟩
  · rw [← get?_states hadvance hbounded]
    exact hlocated.known
  · obtain ⟨wf, st, hst, rfl⟩ := mem_deliveries_state (received_state hlocated.known)
    obtain ⟨m, hm, rfl⟩ := List.mem_map.mp (List.mem_of_find?_eq_some hlocated.found)
    have hpublished := claimable_published hcleared.claimable
    refine wireStatus_live (Bool.eq_false_iff.mpr fun hterminal => ?_)
    exact hsound _ hst hterminal m hm hpublished
  · obtain ⟨wf, p, hp, rfl⟩ := mem_deliveries_plan (received_plan hlocated.held)
    obtain ⟨n, hn, rfl⟩ := List.mem_map.mp hlocated.planned
    have hflat : (wireNode n).dependencies.items = [] := hsound _ hp n hn
    rw [hflat]
    exact fun d hd => by cases hd

/-- In a run that ends only what is over and gets only plans without dependencies, the
barrier lets no task through against the status of its workflow or ahead of a
predecessor, whatever the agent has received so far. -/
theorem barrier_enforces (cfg : RuntimeConfig) (inputs : List Input)
    (htidy : Machine.Along step Tidy (initial cfg) inputs) (log : List Sample)
    (hlog : log <+: (run cfg inputs).log) : Enforces (deliveries log) := by
  have htold := wellTold_run cfg htidy
  have hstates : (statesOf log).Sublist (statesOf (run cfg inputs).log) :=
    hlog.sublist.filterMap _
  refine enforces_of_sound (fun s hs => htold.sound s (hlog.mem hs))
    (htold.advancing.advance.sublist hstates) fun st hst => ?_
  exact htold.advancing.bounded st (hstates.mem hst)

end Tidy

/-! ### A deployment that is tidy and two that are not -/

namespace Deployment

open WorkflowEngine WorkflowEngine.EngineRuntime WorkflowEngine.Deployment

/-- The task of the node is published. -/
def published : List Input := admitted ++ [⟨env, .tickScheduler⟩]

/-- The scheduler ends nothing. -/
theorem tidy_tickScheduler {r : EngineRuntime} {i : Input} (hcall : i.call = .tickScheduler) :
    Tidy r i := by
  refine ⟨?_, ?_, ?_, ?_, ?_⟩
  · rintro request cand (⟨decision, wf, wfr, hres, -⟩ | ⟨hrecover, -⟩)
    · cases hcall.symm.trans hres.call
    · cases hcall.symm.trans hrecover
  · intro intent wfr hintent
    cases hcall.symm.trans hintent
  · intro decision wf wfr reason hres
    cases hcall.symm.trans hres.call
  · intro hwatch
    cases hcall.symm.trans hwatch
  · intro htimeouts
    cases hcall.symm.trans htimeouts

/-- The first call registers the workflow. -/
theorem tidy_submission : Tidy (initial config) ⟨env, .intent intent⟩ := by
  refine ⟨?_, ?_, ?_, nofun, nofun⟩
  · rintro request cand (⟨decision, wf, wfr, hres, -⟩ | ⟨hrecover, -⟩)
    · cases hres.call
    · cases hrecover
  · intro intent' wfr hintent hcancel
    cases hintent
    exact absurd hcancel (by decide)
  · intro decision wf wfr reason hres
    cases hres.call

/-- The decision is not refused, and the direct plan has no dependencies. -/
theorem tidy_decision {r : EngineRuntime}
    (hfound : r.pendingIntentFor env decision.requestId.val = some "wf-1")
    (hwf : r.workflows.lookup "wf-1" = some (awaiting config intent))
    (happlied : ∀ reason, mapVerdict (verdictOn env r (awaiting config intent) decision) intent
      r.cfg.mapperPolicy ≠ .rejected reason) :
    Tidy r ⟨env, .decision decision⟩ := by
  refine ⟨?_, ?_, ?_, nofun, nofun⟩
  · rintro request cand - hplan
    cases hplan
    simp [directTemplatePlan]
  · intro intent wfr hintent
    cases hintent
  · intro decision' wf wfr reason hres hshadow hmap
    obtain rfl : decision = decision' := by simpa using hres.call
    obtain rfl : wf = "wf-1" := Option.some.inj (hres.found.symm.trans hfound)
    obtain rfl : wfr = awaiting config intent :=
      Option.some.inj (hres.registered.symm.trans hwf)
    exact absurd hmap (happlied reason)

theorem tidy_published : Machine.Along step Tidy (initial config) published := by
  refine ⟨tidy_submission, tidy_decision (by decide +kernel) rfl ?_, tidy_tickScheduler rfl,
    trivial⟩
  have happlied : (mapVerdict (verdictOn env (run config [⟨env, .intent intent⟩])
      (awaiting config intent) decision) intent config.mapperPolicy).reject? = none := by
    decide +kernel
  intro reason hmap
  have hmap' : mapVerdict (verdictOn env (run config [⟨env, .intent intent⟩])
      (awaiting config intent) decision) intent config.mapperPolicy = .rejected reason := hmap
  rw [hmap'] at happlied
  cases happlied

/-- What an agent has received that has kept up with these calls. -/
def fed (inputs : List Input) : List Delivery := deliveries (run config inputs).log

/-- An agent that can do what the nodes ask for. -/
def worker : Wire.AgentCapabilities :=
  { promptAgent with capabilities := seqN 64 [toS "summarization"] }

def anyOrder (snap : AdaptiveSnapshot) : snap.PlanOrder := ⟨snap.plans.values, List.Perm.refl _⟩

/-- The worker may claim the task of this id. -/
def Claims (order : List Delivery) (taskId : String) : Prop :=
  barrierCheck (AdaptiveSnapshot.received order) (anyOrder _) (seen taskId tsPending 0) "agent-1"
    (some worker) none "" 10 = .proceed

instance (order : List Delivery) (taskId : String) : Decidable (Claims order taskId) :=
  inferInstanceAs (Decidable (_ = _))

theorem claims_published : Claims (fed published) Deployment.taskId := by decide +kernel

/-- The published task is let through while its workflow runs. -/
theorem published_task_enforced :
    ∃ plan state node ns,
      Cleared (AdaptiveSnapshot.received (fed published)) (seen Deployment.taskId tsPending 0)
        "agent-1" (some worker) none 10 plan state node ns ∧
      Enforced (fed published) plan state node :=
  barrier_enforces config published tidy_published _ (List.prefix_refl _) _ _ _ _ _ _ _
    claims_published

/-- The workflow is cancelled while its task is out. -/
def cancelledOut : List Input := published ++ [⟨env, .intent cancel⟩]

/-- A plan with a join is installed, and nothing is scheduled yet. -/
def joinWaiting : List Input := forked.take 2

/-- The task of a cancelled workflow is let through, and so is the join before its
branches. -/
theorem cancelled_and_waiting_claimed :
    ¬ Enforces (fed cancelledOut) ∧ ¬ Enforces (fed joinWaiting) := by
  constructor
  · intro h
    obtain ⟨hclaims, hwf, hlast⟩ : Claims (fed cancelledOut) Deployment.taskId ∧
        (∀ p ∈ (AdaptiveSnapshot.received (fed cancelledOut)).plans.values,
          p.workflowId.val = "wf-1") ∧
        (lastState (fed cancelledOut) "wf-1").map (·.status) = some 6 := by
      decide +kernel
    obtain ⟨plan, state, node, ns, hcleared, henforced⟩ := h _ _ _ _ _ _ _ hclaims
    have hlatest := henforced.latest
    rw [hwf plan hcleared.located.held] at hlatest
    rw [hlatest, Option.map_some, Option.some.injEq] at hlast
    exact henforced.live (by rw [hlast]; decide)
  · intro h
    obtain ⟨hclaims, hwaits⟩ :
        Claims (fed joinWaiting) (laya1TaskId "wf-1" 1 "join" 1) ∧
          ∀ p ∈ (AdaptiveSnapshot.received (fed joinWaiting)).plans.values,
            p.workflowId.val = "wf-1" ∧ ∀ s ∈ (lastState (fed joinWaiting) "wf-1").toList,
              (∀ m ∈ s.nodes.items, m.attemptId.toNat = 1) ∧
              ∀ n ∈ p.nodes.items,
                laya1TaskId "wf-1" 1 "join" 1 = laya1TaskId p.workflowId.val
                  p.planRevision.toNat n.nodeId.val 1 →
                ∃ d ∈ n.dependencies.items, ∀ dep ∈ s.nodes.items, dep.nodeId = d →
                  dep.status ≠ nodeDone := by
      decide +kernel
    obtain ⟨plan, state, node, ns, hcleared, henforced⟩ := h _ _ _ _ _ _ _ hclaims
    obtain ⟨hwf, hstates⟩ := hwaits plan hcleared.located.held
    have hlatest := henforced.latest
    rw [hwf] at hlatest
    obtain ⟨hattempts, hnodes⟩ := hstates state (by rw [hlatest]; simp)
    have htask := hcleared.taskId
    rw [hattempts ns (List.mem_of_find?_eq_some hcleared.located.found)] at htask
    obtain ⟨d, hd, hundone⟩ := hnodes node hcleared.located.planned htask
    obtain ⟨dep, hdep, hdone⟩ := henforced.predecessors d hd
    exact hundone dep (List.mem_of_find?_eq_some hdep) (by simpa using List.find?_some hdep) hdone

end Deployment

end DdsOrchestrator.Agent
