import DdsOrchestrator.Lib.Joined
import DdsOrchestrator.Agent.Adaptive

/-!
What the barrier vouches for when it lets a task through, and that it gives the same
answer in whatever order the map of plans is walked. The answer could depend on the
order only if the task id were the one of nodes of two plans; the id begins with a
hash of the workflow id, so it is not, as long as the hash tells the texts of the
snapshot apart.
-/

namespace DdsOrchestrator.Agent

open Wire (WorkflowPlan WorkflowState PlanNode NodeState AgentCapabilities AgentState)
open WorkflowEngine (Task AnnouncementValid Serves announced isEligible laya1TaskId)

/-- The text whose hash is the id of an attempt. -/
def attemptText (plan : WorkflowPlan) (node : PlanNode) (ns : NodeState) : String :=
  plan.workflowId.val ++ "|" ++ toString plan.planRevision.toNat ++ "|" ++ node.nodeId.val ++
    "|" ++ toString ns.attemptId.toNat

/-- The plan has a state of its revision in the snapshot, and the two have a node with
its state there. -/
structure Located (snap : AdaptiveSnapshot) (plan : WorkflowPlan) (state : WorkflowState)
    (node : PlanNode) (ns : NodeState) : Prop where
  held : plan ∈ snap.plans.values
  known : snap.states.get? plan.workflowId.val = some state
  revision : state.planRevision = plan.planRevision
  planned : node ∈ plan.nodes.items
  found : nodeState state node.nodeId = some ns

/-- The deadline is not set or lies ahead. -/
def Open (deadlineNs nowNs : UInt64) : Prop := deadlineNs = 0 ∨ nowNs < deadlineNs

/-- The target is not set or is this agent. -/
def For (target agentId : String) : Prop := target = "" ∨ target = agentId

/-- All that has to hold for an agent to claim a task as the one of a node. -/
structure Cleared (snap : AdaptiveSnapshot) (task : Task) (agentId : String)
    (announcement : Option AgentCapabilities) (registry : Option AgentState) (nowNs : UInt64)
    (plan : WorkflowPlan) (state : WorkflowState) (node : PlanNode) (ns : NodeState) : Prop where
  located : Located snap plan state node ns
  workflow : state.workflowId.val = plan.workflowId.val
  taskId : task.taskId = laya1TaskId plan.workflowId.val plan.planRevision.toNat node.nodeId.val
    ns.attemptId.toNat
  claimable : ns.status = 1 ∨ ns.status = 2
  planOpen : Open plan.deadlineNs nowNs
  nodeOpen : Open node.deadlineNs nowNs
  taskTarget : For task.targetAgent agentId
  nodeTarget : For node.targetAgentId.val agentId
  offered : ∃ caps, announcement = some caps ∧ AnnouncementValid caps nowNs ∧
    ∀ c ∈ node.requiredCapabilities.items, c.val ∈ announced caps
  served : ∀ reg, registry = some reg → Serves reg (modelRequired node)

theorem open_of_not {deadlineNs nowNs : UInt64} (h : ¬ (0 < deadlineNs ∧ deadlineNs ≤ nowNs)) :
    Open deadlineNs nowNs := by
  by_cases hzero : deadlineNs = 0
  · exact .inl hzero
  · have hpos : 0 < deadlineNs := UInt64.pos_iff_ne_zero.mpr hzero
    exact .inr (UInt64.not_le.mp fun hle => h ⟨hpos, hle⟩)

theorem for_of_not {target agentId : String} (h : ¬ (target ≠ "" ∧ target ≠ agentId)) :
    For target agentId := by
  by_cases hempty : target = ""
  · exact .inl hempty
  · exact .inr (not_not.mp fun hne => h ⟨hempty, hne⟩)

/-- What a plan resolves a task id to. -/
theorem resolvePlan_eq_some {snap : AdaptiveSnapshot} {taskId : String} {nowNs : UInt64}
    {plan : WorkflowPlan} {r : Resolved} (hplan : plan ∈ snap.plans.values)
    (h : resolvePlan snap taskId nowNs plan = some r) :
    ∃ state ns, Located snap plan state r.node ns ∧ r.plan = plan ∧ r.nodeStatus = ns.status ∧
      Open plan.deadlineNs nowNs ∧
      taskId = laya1TaskId plan.workflowId.val plan.planRevision.toNat r.node.nodeId.val
        ns.attemptId.toNat := by
  unfold resolvePlan at h
  split at h
  · cases h
  · next state hstate =>
      split_ifs at h with hrevision hdeadline
      obtain ⟨node, hnode, hresolved⟩ := List.exists_of_findSome?_eq_some h
      unfold resolveNode at hresolved
      split at hresolved
      · cases hresolved
      · next ns hns =>
          split_ifs at hresolved with hid
          cases hresolved
          exact ⟨state, ns, ⟨hplan, hstate, not_not.mp hrevision, hnode, hns⟩, rfl, rfl,
            open_of_not hdeadline, hid.symm⟩

theorem checkResolved_eq_proceed {r : Resolved} {task : Task} {agentId : String}
    {announcement : Option AgentCapabilities} {registry : Option AgentState} {nowNs : UInt64}
    (h : checkResolved r task agentId announcement registry nowNs = .proceed) :
    (r.nodeStatus = 1 ∨ r.nodeStatus = 2) ∧ For task.targetAgent agentId ∧
      For r.node.targetAgentId.val agentId ∧ Open r.node.deadlineNs nowNs ∧
      isEligible announcement registry (r.node.requiredCapabilities.items.map (·.val))
        (modelRequired r.node) nowNs = .ok () := by
  unfold checkResolved at h
  split_ifs at h with hstatus htask hnode hdeadline
  refine ⟨by simpa [claimableNodeStatus] using hstatus, for_of_not htask, for_of_not hnode,
    open_of_not hdeadline, ?_⟩
  split at h
  · next heligible => exact heligible
  · cases h

/-- A task that is let through is the one of a node for which everything holds. -/
theorem cleared_of_proceed {snap : AdaptiveSnapshot} {order : snap.PlanOrder} {task : Task}
    {agentId : String} {announcement : Option AgentCapabilities} {registry : Option AgentState}
    {targetPrefix : String} {nowNs : UInt64}
    (h : barrierCheck snap order task agentId announcement registry targetPrefix nowNs =
      .proceed) :
    ∃ plan state node ns,
      Cleared snap task agentId announcement registry nowNs plan state node ns := by
  unfold barrierCheck at h
  split_ifs at h
  split at h
  · cases h
  · next r hr =>
      obtain ⟨plan, hplan, hresolved⟩ := List.exists_of_findSome?_eq_some hr
      obtain ⟨state, ns, hlocated, -, hstatus, hopen, hid⟩ :=
        resolvePlan_eq_some (order.perm.mem_iff.mp hplan) hresolved
      obtain ⟨hclaimable, htask, hnode, hnodeOpen, heligible⟩ := checkResolved_eq_proceed h
      obtain ⟨caps, hcaps, hannounces, hoffered, hserves⟩ :=
        WorkflowEngine.isEligible_eq_ok_iff.mp heligible
      refine ⟨plan, state, r.node, ns, hlocated, snap.states.keyed hlocated.known, hid,
        hstatus ▸ hclaimable, hopen, hnodeOpen, htask, hnode, ⟨caps, hcaps, hannounces, ?_⟩,
        hserves⟩
      exact fun c hc => hoffered _ (List.mem_map_of_mem hc)

/-! ### The order of the plans -/

namespace AdaptiveSnapshot

/-- The texts whose hashes a check may compare. -/
def texts (snap : AdaptiveSnapshot) : Set String :=
  {t | ∃ plan state node ns, Located snap plan state node ns ∧ t = attemptText plan node ns}

/-- The hash tells the texts of the snapshot apart. -/
def CollisionFree (snap : AdaptiveSnapshot) : Prop := Set.InjOn sha256Hex snap.texts

/-- No workflow id has the separator in it. -/
def PlainIds (snap : AdaptiveSnapshot) : Prop :=
  ∀ plan ∈ snap.plans.values, '|' ∉ plan.workflowId.val.toList

end AdaptiveSnapshot

/-- A task id belongs to one plan. -/
theorem Located.plan_unique {snap : AdaptiveSnapshot} {plan plan' : WorkflowPlan}
    {state state' : WorkflowState} {node node' : PlanNode} {ns ns' : NodeState}
    (hsha : snap.CollisionFree) (hplain : snap.PlainIds) (h : Located snap plan state node ns)
    (h' : Located snap plan' state' node' ns')
    (hid : laya1TaskId plan.workflowId.val plan.planRevision.toNat node.nodeId.val
        ns.attemptId.toNat =
      laya1TaskId plan'.workflowId.val plan'.planRevision.toNat node'.nodeId.val
        ns'.attemptId.toNat) : plan = plan' := by
  have hhash : sha256Hex (attemptText plan node ns) = sha256Hex (attemptText plan' node' ns') :=
    (String.append_right_inj _).mp hid
  have htext := hsha ⟨plan, state, node, ns, h, rfl⟩ ⟨plan', state', node', ns', h', rfl⟩ hhash
  have hlist := congrArg String.toList htext
  simp only [attemptText, String.append_assoc, String.toList_append] at hlist
  have hjoin := (Joined.join_first_inj (hplain plan h.held) (hplain plan' h'.held)).mp
    (by simpa using hlist)
  exact Latest.eq_of_mem_values h.held h'.held (String.toList_inj.mp hjoin.1)

/-- A search that at most one element answers does not depend on the order. -/
theorem findSome?_eq_of_perm {α β : Type*} {f : α → Option β} {l l' : List α} (h : l.Perm l')
    (hone : ∀ a ∈ l, ∀ b ∈ l, f a ≠ none → f b ≠ none → a = b) :
    l.findSome? f = l'.findSome? f := by
  cases hl : l.findSome? f with
  | none =>
      rw [List.findSome?_eq_none_iff] at hl
      exact (List.findSome?_eq_none_iff.mpr fun a ha => hl a (h.mem_iff.mpr ha)).symm
  | some b =>
      obtain ⟨a, ha, hfa⟩ := List.exists_of_findSome?_eq_some hl
      cases hl' : l'.findSome? f with
      | none =>
          rw [List.findSome?_eq_none_iff] at hl'
          rw [hl' a (h.mem_iff.mp ha)] at hfa
          cases hfa
      | some b' =>
          obtain ⟨a', ha', hfa'⟩ := List.exists_of_findSome?_eq_some hl'
          have haa := hone a ha a' (h.mem_iff.mpr ha') (by simp [hfa]) (by simp [hfa'])
          rw [← hfa, ← hfa', haa]

theorem resolve_order {snap : AdaptiveSnapshot} (hsha : snap.CollisionFree)
    (hplain : snap.PlainIds) (order order' : snap.PlanOrder) (taskId : String) (nowNs : UInt64) :
    resolve snap order taskId nowNs = resolve snap order' taskId nowNs := by
  apply findSome?_eq_of_perm (order.perm.trans order'.perm.symm)
  intro plan hplan plan' hplan' hfound hfound'
  obtain ⟨r, hr⟩ := Option.ne_none_iff_exists'.mp hfound
  obtain ⟨r', hr'⟩ := Option.ne_none_iff_exists'.mp hfound'
  obtain ⟨state, ns, hlocated, -, -, -, hid⟩ :=
    resolvePlan_eq_some (order.perm.mem_iff.mp hplan) hr
  obtain ⟨state', ns', hlocated', -, -, -, hid'⟩ :=
    resolvePlan_eq_some (order.perm.mem_iff.mp hplan') hr'
  exact hlocated.plan_unique hsha hplain hlocated' (hid.symm.trans hid')

/-- The barrier lets a task through only for a node that has everything, and it does so
in every order of the plans or in none. -/
theorem barrier_sound (snap : AdaptiveSnapshot) (hsha : snap.CollisionFree)
    (hplain : snap.PlainIds) (task : Task) (agentId : String)
    (announcement : Option AgentCapabilities) (registry : Option AgentState)
    (targetPrefix : String) (nowNs : UInt64) (order order' : snap.PlanOrder) :
    (barrierCheck snap order task agentId announcement registry targetPrefix nowNs = .proceed →
      ∃ plan state node ns,
        Cleared snap task agentId announcement registry nowNs plan state node ns) ∧
    barrierCheck snap order task agentId announcement registry targetPrefix nowNs =
      barrierCheck snap order' task agentId announcement registry targetPrefix nowNs := by
  refine ⟨cleared_of_proceed, ?_⟩
  unfold barrierCheck
  rw [resolve_order hsha hplain order order']

/-! ### One plan of one node -/

def promptNode : PlanNode where
  nodeId := WorkflowEngine.toS "n0"
  kind := 0
  requiredCapabilities := WorkflowEngine.seqN 16 []
  modelId := WorkflowEngine.toS ""
  targetAgentId := WorkflowEngine.toS "agent-1"
  promptTemplate := WorkflowEngine.toS ""
  dependencies := WorkflowEngine.seqN 32 []
  inputs := WorkflowEngine.seqN 16 []
  outputNames := WorkflowEngine.seqN 8 []
  maxAttempts := 1
  deadlineNs := 0
  maxTokens := 16
  maxOutputBytes := 64
  securityContextRef := WorkflowEngine.toS ""
  priority := 0
  sideEffectKey := WorkflowEngine.toS ""

def promptPlan : WorkflowPlan where
  workflowId := WorkflowEngine.toS "wf"
  planRevision := 1
  schemaVersion := 1
  requestId := WorkflowEngine.toS "req"
  intentRevision := 1
  effectiveDecisionId := WorkflowEngine.toS ""
  policyRevision := 1
  capabilityCatalogRevision := 1
  plannerId := WorkflowEngine.toS ""
  plannerRevision := WorkflowEngine.toS ""
  createdAtNs := 1
  deadlineNs := 0
  qosProfile := 0
  nodes := WorkflowEngine.seqN 32 [promptNode]
  planHash := WorkflowEngine.toS ""

def promptNodeState : NodeState where
  nodeId := WorkflowEngine.toS "n0"
  status := 2
  attemptId := 1
  taskId := WorkflowEngine.toS ""
  assignedAgentId := WorkflowEngine.toS ""
  ready := true
  startedAtNs := 0
  completedAtNs := 0
  outputs := WorkflowEngine.seqN 8 []
  reasonCode := 0

def promptState : WorkflowState where
  workflowId := WorkflowEngine.toS "wf"
  planRevision := 1
  schemaVersion := 1
  stateRevision := 1
  requestId := WorkflowEngine.toS "req"
  effectiveDecisionId := WorkflowEngine.toS ""
  planHash := WorkflowEngine.toS ""
  status := 3
  reasonCode := 0
  nodes := WorkflowEngine.seqN 32 [promptNodeState]
  createdAtNs := 1
  updatedAtNs := 1
  expiresAtNs := 100
  cancelledByRequestId := WorkflowEngine.toS ""
  effectiveQosConfigHash := WorkflowEngine.toS ""
  fallbackTemplateId := WorkflowEngine.toS ""

def promptSnapshot : AdaptiveSnapshot :=
  (AdaptiveSnapshot.empty.upsertPlan promptPlan).upsertState promptState

def promptTask : Task where
  taskId := laya1TaskId "wf" 1 "n0" 1
  clientId := "engine"
  targetAgent := "agent-1"
  modelName := ""
  messagesJson := ""
  maxTokens := 16
  status := 0
  priority := 0
  createdAtNs := 1
  deadlineNs := 0

def promptAgent : AgentCapabilities where
  agentId := WorkflowEngine.toS "agent-1"
  schemaVersion := 1
  announcementRevision := 1
  capabilityCatalogRevision := 1
  capabilities := WorkflowEngine.seqN 64 []
  modelIds := WorkflowEngine.seqN 16 []
  toolVersions := WorkflowEngine.seqN 32 []
  adaptiveProtocolVersion := 1
  securityContextRef := WorkflowEngine.toS ""
  createdAtNs := 1
  validUntilNs := 100

def promptOrder : promptSnapshot.PlanOrder := ⟨[promptPlan], List.Perm.refl _⟩

/-- A snapshot of one node has one text. -/
theorem collisionFree_promptSnapshot : promptSnapshot.CollisionFree := by
  apply Set.Subsingleton.injOn
  rintro _ ⟨plan, state, node, ns, h, rfl⟩ _ ⟨plan', state', node', ns', h', rfl⟩
  have hone : ∀ {plan state node ns}, Located promptSnapshot plan state node ns →
      plan = promptPlan ∧ node = promptNode ∧ ns = promptNodeState := by
    rintro plan state node ns ⟨hheld, hknown, -, hplanned, hfound⟩
    obtain rfl := List.mem_singleton.mp hheld
    obtain rfl := List.mem_singleton.mp hplanned
    cases hknown
    cases hfound
    exact ⟨rfl, rfl, rfl⟩
  obtain ⟨rfl, rfl, rfl⟩ := hone h
  obtain ⟨rfl, rfl, rfl⟩ := hone h'
  rfl

theorem plainIds_promptSnapshot : promptSnapshot.PlainIds := by
  intro plan hplan
  obtain rfl := List.mem_singleton.mp hplan
  decide

/-- The task of the published node goes to its agent. -/
theorem barrierCheck_promptTask :
    barrierCheck promptSnapshot promptOrder promptTask "agent-1" (some promptAgent) none "" 5 =
      .proceed := by
  have hprefix : laya1Prefix.toList <+: promptTask.taskId.toList := by
    simp [promptTask, laya1TaskId, laya1Prefix]
  have hnode : resolveNode promptPlan promptState promptTask.taskId promptNode =
      some ⟨promptPlan, promptNode, 2⟩ := by
    have hfound : nodeState promptState promptNode.nodeId = some promptNodeState := rfl
    have hwf : promptPlan.workflowId.val = "wf" := rfl
    have hid : promptNode.nodeId.val = "n0" := rfl
    have hrevision : promptPlan.planRevision.toNat = 1 := rfl
    have hattempt : promptNodeState.attemptId.toNat = 1 := rfl
    unfold resolveNode
    simp only [hfound, hwf, hid, hrevision, hattempt]
    exact if_pos rfl
  have hresolved : resolve promptSnapshot promptOrder promptTask.taskId 5 =
      some ⟨promptPlan, promptNode, 2⟩ := by
    have hplan : resolvePlan promptSnapshot promptTask.taskId 5 promptPlan =
        [promptNode].findSome? (resolveNode promptPlan promptState promptTask.taskId) := rfl
    show [promptPlan].findSome? (resolvePlan promptSnapshot promptTask.taskId 5) = _
    rw [List.findSome?_singleton, hplan, List.findSome?_singleton, hnode]
  rw [barrierCheck, if_neg (not_not.mpr hprefix), hresolved]
  rfl

theorem promptTask_cleared :
    ∃ plan state node ns, Cleared promptSnapshot promptTask "agent-1" (some promptAgent) none 5
      plan state node ns :=
  (barrier_sound promptSnapshot collisionFree_promptSnapshot plainIds_promptSnapshot promptTask
    "agent-1" (some promptAgent) none "" 5 promptOrder promptOrder).1 barrierCheck_promptTask

end DdsOrchestrator.Agent
