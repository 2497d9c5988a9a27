import DdsOrchestrator.Lib.Latest
import DdsOrchestrator.WorkflowEngine.Eligibility

/-!
The claim barrier of an agent. The agent keeps the plans, states and announcements it
has received, and it may claim a task only if the task is the one of the active
attempt of a node it knows.

A snapshot begins empty and is written by the three `upsert`s only, so a sample stands
under its own key. The order in which the map of plans is walked is given with each
check.
-/

namespace DdsOrchestrator.Agent

open Wire (WorkflowPlan WorkflowState PlanNode AgentCapabilities AgentState)
open WorkflowEngine (Task NotEligible isEligible laya1TaskId)

/-- The node statuses READY and PUBLISHED. -/
def claimableNodeStatus : List Int32 := [1, 2]

def laya1Prefix : String := "laya1-"

inductive Blocked where
  | notEligible (e : NotEligible)
  | unresolvedNode
  | nodeNotClaimable (nodeId : String) (status : Int32)
  | targetMismatch (taskTarget agentId : String)
  | nodeTargeted (target : String)
  | deadlinePassed
  deriving DecidableEq

inductive AdaptiveDecision where
  | legacy
  | proceed
  | block (b : Blocked)
  deriving DecidableEq

/-- The samples of the topics by workflow and by agent. -/
structure AdaptiveSnapshot where
  plans : Latest fun p : WorkflowPlan => p.workflowId.val
  states : Latest fun s : WorkflowState => s.workflowId.val
  capabilities : Latest fun c : AgentCapabilities => c.agentId.val

namespace AdaptiveSnapshot

def empty : AdaptiveSnapshot := ⟨.empty, .empty, .empty⟩

def upsertPlan (snap : AdaptiveSnapshot) (p : WorkflowPlan) : AdaptiveSnapshot :=
  { snap with plans := snap.plans.offer (·.planRevision.toNat) p }

/-- States are compared by the revision of their plan only. -/
def upsertState (snap : AdaptiveSnapshot) (s : WorkflowState) : AdaptiveSnapshot :=
  { snap with states := snap.states.offer (·.planRevision.toNat) s }

def upsertCapabilities (snap : AdaptiveSnapshot) (c : AgentCapabilities) : AdaptiveSnapshot :=
  { snap with capabilities := snap.capabilities.offer (·.announcementRevision.toNat) c }

/-- The plans in an order in which the map may yield them. -/
structure PlanOrder (snap : AdaptiveSnapshot) where
  plans : List WorkflowPlan
  perm : plans.Perm snap.plans.values

end AdaptiveSnapshot

/-- What a task id stands for. -/
structure Resolved where
  plan : WorkflowPlan
  node : PlanNode
  nodeStatus : Int32

/-- The state of a node: the first one of its id. -/
def nodeState (state : WorkflowState) (nodeId : WorkflowEngine.DdsString) : Option Wire.NodeState :=
  state.nodes.items.find? fun n => n.nodeId = nodeId

/-- A node whose active attempt has this task id. -/
def resolveNode (plan : WorkflowPlan) (state : WorkflowState) (taskId : String)
    (node : PlanNode) : Option Resolved :=
  match nodeState state node.nodeId with
  | none => none
  | some ns =>
      if laya1TaskId plan.workflowId.val plan.planRevision.toNat node.nodeId.val
          ns.attemptId.toNat = taskId then
        some ⟨plan, node, ns.status⟩
      else none

/-- A plan counts only with the state of its own revision, and before its deadline. -/
def resolvePlan (snap : AdaptiveSnapshot) (taskId : String) (nowNs : UInt64)
    (plan : WorkflowPlan) : Option Resolved :=
  match snap.states.get? plan.workflowId.val with
  | none => none
  | some state =>
      if state.planRevision ≠ plan.planRevision then none
      else if 0 < plan.deadlineNs ∧ plan.deadlineNs ≤ nowNs then none
      else plan.nodes.items.findSome? (resolveNode plan state taskId)

def resolve (snap : AdaptiveSnapshot) (order : snap.PlanOrder) (taskId : String)
    (nowNs : UInt64) : Option Resolved :=
  order.plans.findSome? (resolvePlan snap taskId nowNs)

/-- The model a node asks for. -/
def modelRequired (node : PlanNode) : Option String :=
  if node.modelId.val = "" then none else some node.modelId.val

/-- The checks on a task that has been resolved. -/
def checkResolved (r : Resolved) (task : Task) (agentId : String)
    (announcement : Option AgentCapabilities) (registry : Option AgentState) (nowNs : UInt64) :
    AdaptiveDecision :=
  if r.nodeStatus ∉ claimableNodeStatus then
    .block (.nodeNotClaimable r.node.nodeId.val r.nodeStatus)
  else if task.targetAgent ≠ "" ∧ task.targetAgent ≠ agentId then
    .block (.targetMismatch task.targetAgent agentId)
  else if r.node.targetAgentId.val ≠ "" ∧ r.node.targetAgentId.val ≠ agentId then
    .block (.nodeTargeted r.node.targetAgentId.val)
  else if 0 < r.node.deadlineNs ∧ r.node.deadlineNs ≤ nowNs then .block .deadlinePassed
  else
    match isEligible announcement registry (r.node.requiredCapabilities.items.map (·.val))
        (modelRequired r.node) nowNs with
    | .ok () => .proceed
    | .error e => .block (.notEligible e)

/-- A task without the prefix is none of the barrier's concern. The target prefix
that the agent is configured with is ignored. -/
def barrierCheck (snap : AdaptiveSnapshot) (order : snap.PlanOrder) (task : Task)
    (agentId : String) (announcement : Option AgentCapabilities) (registry : Option AgentState)
    (_targetAgentPrefixConfigured : String) (nowNs : UInt64) : AdaptiveDecision :=
  if ¬ laya1Prefix.toList <+: task.taskId.toList then .legacy
  else
    match resolve snap order task.taskId nowNs with
    | none => .block .unresolvedNode
    | some r => checkResolved r task agentId announcement registry nowNs

end DdsOrchestrator.Agent
