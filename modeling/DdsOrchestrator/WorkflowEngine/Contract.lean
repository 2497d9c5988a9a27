import Mathlib.Data.Rat.Defs
import Mathlib.Algebra.Order.Ring.Rat
import Mathlib.Data.Finset.Basic
import DdsOrchestrator.Lib.Assoc
import DdsOrchestrator.Lib.Sha256

/-!
The wire types of the workflow topics and of the task topic, the capability
catalog, and the physical task id: the data every later module is about.

Fixed-width integers keep their width where the engine casts or saturates
them. Enumerations that travel as raw `long`s stay integers where the engine
compares them with an ordinal; the workflow statuses, which it only writes,
are an inductive type.
-/

namespace DdsOrchestrator.WorkflowEngine

/-! ### Strings and sequences of the DDS binding -/

/-- A string of the DDS binding is a C string: its checked constructor refuses
an interior NUL and nothing else. -/
structure DdsString where
  val : String
  noNul : '\x00' ∉ val.toList
  deriving DecidableEq

instance : Inhabited DdsString := ⟨⟨"", by simp⟩⟩

/-- `v.try_into()`. -/
def DdsString.ofString? (v : String) : Option DdsString :=
  if h : '\x00' ∉ v.toList then some ⟨v, h⟩ else none

/-- Conversion that falls back to the empty string. -/
def toS (v : String) : DdsString := (DdsString.ofString? v).getD default

@[simp] theorem toS_val {v : String} (h : '\x00' ∉ v.toList) : (toS v).val = v := by
  simp [toS, DdsString.ofString?, h]

theorem toS_val_of_nul {v : String} (h : '\x00' ∈ v.toList) : (toS v).val = "" := by
  simp only [toS, DdsString.ofString?, h, not_true_eq_false, dite_false, Option.getD_none]
  rfl

@[simp] theorem toS_coe (s : DdsString) : toS s.val = s := by
  cases s with
  | mk val noNul => simp [toS, DdsString.ofString?, noNul]

/-- `DdsBoundedSequence<T, N>`. -/
structure DdsBoundedSequence (α : Type) (n : Nat) where
  items : List α
  bounded : items.length ≤ n
  deriving DecidableEq

def DdsBoundedSequence.fromVec {α : Type} {n : Nat} (items : List α) :
    Option (DdsBoundedSequence α n) :=
  if h : items.length ≤ n then some ⟨items, h⟩ else none

/-- A vector that exceeds its bound is replaced by the empty sequence. -/
def seqN {α : Type} (n : Nat) (items : List α) : DdsBoundedSequence α n :=
  (DdsBoundedSequence.fromVec items).getD ⟨[], Nat.zero_le n⟩

theorem seqN_items {α : Type} {n : Nat} {items : List α} (h : items.length ≤ n) :
    (seqN n items).items = items := by
  simp [seqN, DdsBoundedSequence.fromVec, h]

theorem seqN_items_of_lt {α : Type} {n : Nat} {items : List α} (h : n < items.length) :
    (seqN n items).items = [] := by
  simp [seqN, DdsBoundedSequence.fromVec, Nat.not_le.mpr h]

/-! ### Doubles

The validator compares, adds and tests doubles for finiteness. Values are
exact: the rounding of a sum is not modelled. -/

inductive F64 where
  | finite (q : ℚ)
  | infinite (negative : Bool)
  | nan
  deriving DecidableEq

namespace F64

def isFinite : F64 → Bool
  | finite _ => true
  | _ => false

/-- The value of a finite double; the sums below only meet finite ones. -/
def toRat : F64 → ℚ
  | finite q => q
  | _ => 0

/-- `a < b`, false as soon as one side is NaN. -/
def lt : F64 → F64 → Bool
  | finite p, finite q => decide (p < q)
  | finite _, infinite negative => !negative
  | infinite negative, finite _ => negative
  | infinite a, infinite b => a && !b
  | _, _ => false

/-- `a <= b`. -/
def le : F64 → F64 → Bool
  | finite p, finite q => decide (p ≤ q)
  | infinite a, infinite b => a || !b
  | a, b => lt a b

/-- `(lo..=hi).contains(&p)` for rational bounds. -/
def within (lo hi : ℚ) (p : F64) : Bool := le (finite lo) p && le p (finite hi)

end F64

/-! ### Workflow topics -/

/-- `Workflow.Intent`. -/
structure WorkflowIntent where
  requestId : DdsString
  workflowId : DdsString
  clientId : DdsString
  schemaVersion : UInt16
  intentRevision : UInt32
  command : Int
  expectedPlanRevision : UInt32
  prompt : DdsString
  createdAtNs : UInt64
  deadlineNs : UInt64
  securityContextRef : DdsString
  policyRevision : UInt32
  questionsRevision : UInt32
  capabilityCatalogRevision : UInt32
  checkpointRevision : DdsString
  maxTokens : UInt32
  maxCostMicrounits : UInt64
  budgetUnit : DdsString
  fallbackTemplateId : DdsString
  payloadHash : DdsString
  deriving DecidableEq

/-- `IC_CANCEL`. -/
def icCancel : Int := 1

structure ProfileProbability where
  profile : Int
  probability : F64
  deriving DecidableEq

structure CapabilityProbability where
  capabilityId : DdsString
  probability : F64
  answerConfidence : F64
  deriving DecidableEq

/-- `Routing.Decision`, less the fields the engine never reads
(`producer_id`, `model_id`, `evidence_digest`). -/
structure RoutingDecision where
  requestId : DdsString
  decisionId : DdsString
  workflowId : DdsString
  schemaVersion : UInt16
  intentRevision : UInt32
  checkpointRevision : DdsString
  questionsRevision : UInt32
  policyRevision : UInt32
  capabilityCatalogRevision : UInt32
  qosProfile : Int
  qosProbabilities : DdsBoundedSequence ProfileProbability 5
  capabilityProbabilities : DdsBoundedSequence CapabilityProbability 16
  requiresPlanningProbability : F64
  priorityScore : F64
  priorityProbabilities : DdsBoundedSequence F64 3
  confidence : F64
  answerConfidence : F64
  calibrationRevision : DdsString
  createdAtNs : UInt64
  validUntilNs : UInt64
  decisionStatus : Int
  reasonCode : Int
  payloadHash : DdsString
  deriving DecidableEq

/-- A node of `Workflow.Plan`; the engine writes no `inputs`. -/
structure PlanNode where
  nodeId : DdsString
  kind : Int
  requiredCapabilities : DdsBoundedSequence DdsString 16
  modelId : DdsString
  targetAgentId : DdsString
  promptTemplate : DdsString
  dependencies : DdsBoundedSequence DdsString 32
  outputNames : DdsBoundedSequence DdsString 8
  maxAttempts : UInt16
  deadlineNs : UInt64
  maxTokens : UInt32
  maxOutputBytes : UInt32
  securityContextRef : DdsString
  priority : Int
  sideEffectKey : DdsString
  deriving DecidableEq

/-- `Workflow.Plan`. -/
structure WorkflowPlan where
  workflowId : DdsString
  planRevision : UInt32
  schemaVersion : UInt16
  requestId : DdsString
  intentRevision : UInt32
  effectiveDecisionId : DdsString
  policyRevision : UInt32
  capabilityCatalogRevision : UInt32
  plannerId : DdsString
  plannerRevision : DdsString
  createdAtNs : UInt64
  deadlineNs : UInt64
  qosProfile : Int
  nodes : DdsBoundedSequence PlanNode 32
  planHash : DdsString
  deriving DecidableEq

/-- `WorkflowStatus`, ordinals 0 to 7. -/
inductive WorkflowStatus where
  | accepted
  | waitingDecision
  | waitingPlan
  | running
  | done
  | failed
  | cancelled
  | inDoubt
  deriving DecidableEq

/-- The statuses a workflow does not leave. -/
def WorkflowStatus.isTerminal : WorkflowStatus → Bool
  | done | failed | cancelled | inDoubt => true
  | _ => false

/-- `NodeStatus` as far as the engine projects it: ordinals 2, 5 and 6. -/
inductive NodeStatus where
  | published
  | done
  | failed
  deriving DecidableEq

/-- A node of `Workflow.State`, less the fields the engine leaves empty or
zero (`task_id`, `assigned_agent_id`, the two timestamps, `outputs`). -/
structure NodeState where
  nodeId : DdsString
  status : NodeStatus
  attemptId : Nat
  ready : Bool
  reasonCode : Int
  deriving DecidableEq

/-- `Workflow.State`, less the fields the engine leaves empty
(`effective_decision_id`, `plan_hash`, `cancelled_by_request_id`,
`effective_qos_config_hash`, `fallback_template_id`). -/
structure WorkflowState where
  workflowId : DdsString
  planRevision : Nat
  schemaVersion : UInt16
  stateRevision : Nat
  requestId : DdsString
  status : WorkflowStatus
  reasonCode : Int
  nodes : DdsBoundedSequence NodeState 32
  createdAtNs : UInt64
  updatedAtNs : UInt64
  expiresAtNs : UInt64
  deriving DecidableEq

/-! ### The task topic -/

/-- `Task`, less the fields the engine writes as constants and never reads
(`assigned_agent`, `model_required`, `temperature`, `stream`, `retry_count`,
`finish_reason`, and the timestamps and latencies other than the two kept). -/
structure Task where
  taskId : String
  clientId : String
  targetAgent : String
  modelName : String
  messagesJson : String
  maxTokens : UInt32
  status : Int
  priority : Int
  createdAtNs : UInt64
  deadlineNs : UInt64
  deriving DecidableEq

def tsPending : Int := 0

def tsDone : Int := 3

def tsFailed : Int := 4

/-- `TaskOutput` as the watcher reads it. -/
structure TaskOutput where
  content : String
  isFinal : Bool
  deriving DecidableEq

/-! ### The capability catalog -/

structure Catalog where
  revision : UInt32
  labels : List String
  deriving DecidableEq

def catalogV1 : Catalog where
  revision := 1
  labels := ["rust_refactor", "python_refactor", "unit_testing", "security_audit",
    "code_review", "research", "summarization", "translation"]

namespace Catalog

def contains (c : Catalog) (label : String) : Bool := c.labels.contains label

/-- The labels of a list that the catalog does not have. -/
def unknown (c : Catalog) (labels : List String) : List String :=
  labels.filter fun l => !c.contains l

/-- The labels that repeat an earlier one. -/
def duplicates (labels : List String) : List String :=
  (labels.foldl (fun acc l =>
    if l ∈ acc.1 then (acc.1, acc.2 ++ [l]) else (l :: acc.1, acc.2)) ([], [])).2

theorem unknown_eq_nil {c : Catalog} {labels : List String} :
    c.unknown labels = [] ↔ ∀ l ∈ labels, l ∈ c.labels := by
  simp [unknown, contains]

end Catalog

/-! ### Physical task ids -/

/-- The id of one attempt of one node of one plan revision. -/
def laya1TaskId (workflowId : String) (planRevision : Nat) (nodeId : String) (attempt : Nat) :
    String :=
  "laya1-" ++ sha256Hex (workflowId ++ "|" ++ toString planRevision ++ "|" ++ nodeId ++ "|" ++
    toString attempt)

end DdsOrchestrator.WorkflowEngine
