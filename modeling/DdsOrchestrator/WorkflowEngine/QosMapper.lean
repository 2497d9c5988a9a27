import Mathlib.Data.List.MinMax
import DdsOrchestrator.WorkflowEngine.Decision

/-!
The mapper from the semantic objective of a decision to application limits.
It is pure: a verdict or a fallback template, the intent and the policy give
either the effective limits or a typed refusal. An unavailable decision is
replaced only by a template the policy authorises, never by a choice of the
mapper's own.
-/

namespace DdsOrchestrator.WorkflowEngine

def qiBalanced : Int := 0

def qiCritical : Int := 1

def qiStreamLike : Int := 2

def qiLowCost : Int := 3

def qiFailover : Int := 4

structure PriceTable where
  policyRevision : UInt32
  per1kOutput : Map String UInt64
  deriving DecidableEq

structure FallbackTemplate where
  id : String
  objective : Int
  maxTokens : UInt32
  deriving DecidableEq

structure QosMapperPolicy where
  prices : PriceTable
  fallbackTemplates : List FallbackTemplate
  defaultModel : String
  lowCostModels : List String
  deriving DecidableEq

def QosMapperPolicy.default : QosMapperPolicy where
  prices :=
    { policyRevision := 1
      per1kOutput := List.toAList
        [⟨"gemma-4-12b-it", 100⟩, ⟨"tiny-fast", 10⟩, ⟨"free-local", 0⟩] }
  fallbackTemplates := [⟨"direct-summarize", qiBalanced, 256⟩]
  defaultModel := "gemma-4-12b-it"
  lowCostModels := ["tiny-fast", "free-local"]

structure EffectiveQos where
  requestedObjective : Int
  acceptedObjective : Int
  admissionPriority : Int
  streaming : Bool
  failoverRetries : Bool
  modelConstraint : Option String
  maxTokens : UInt32
  deriving DecidableEq

/-- Hash of the effective configuration. -/
def EffectiveQos.configHash (e : EffectiveQos) : String :=
  sha256Hex ("|".intercalate [toString e.requestedObjective, toString e.acceptedObjective,
    toString e.admissionPriority, toString e.streaming.toNat, toString e.failoverRetries.toNat,
    e.modelConstraint.getD "-", toString e.maxTokens])

inductive QosReject where
  | unknownPrice (model : String) (revision : UInt32)
  | overBudget (estimated : Nat) (budget : UInt64)
  | nonZeroCostWithZeroBudget (estimated : Nat)
  | fallbackNotAuthorized (id : String)
  | noFallbackAvailable
  | notAccept
  deriving DecidableEq

/-- The message of a refusal, which becomes the failure reason of the
workflow. -/
def QosReject.message : QosReject → String
  | unknownPrice model revision =>
      "custo desconhecido (modelo '" ++ model ++ "' sem preço na tabela rev " ++
        toString revision ++ ") com orçamento estrito"
  | overBudget estimated budget =>
      "orçamento insuficiente: estimado " ++ toString estimated ++ " > teto " ++
        toString budget ++ " microunidades"
  | nonZeroCostWithZeroBudget estimated =>
      "orçamento zero só admite custo conhecido zero (estimado " ++ toString estimated ++ ")"
  | fallbackNotAuthorized id => "fallback '" ++ id ++ "' não está autorizado na política"
  | noFallbackAvailable =>
      "sem fallback autorizado e decisão indisponível: rejeita (fail-closed)"
  | notAccept => "verdict não é Accept (decision indisponível/inválida)"

inductive QosMapping where
  | applied (e : EffectiveQos)
  | rejected (r : QosReject)
  deriving DecidableEq

def QosMapping.reject? : QosMapping → Option QosReject
  | applied _ => none
  | rejected r => some r

/-- Upper bound of the cost: tokens times the price per thousand, rounded up.
The product is a 64-bit one. -/
def estimateCost (model : String) (maxTokens : UInt32) (prices : PriceTable) : Option Nat :=
  (prices.per1kOutput.lookup model).map fun p =>
    (maxTokens.toNat * p.toNat % 2 ^ 64 + 999) / 1000

/-- The cheapest known model within the budget, the first one on a tie. -/
def pickLowCost (policy : QosMapperPolicy) (maxTokens : UInt32) (budget : UInt64) :
    Option String :=
  (List.argmin Prod.fst (policy.lowCostModels.filterMap fun m =>
    ((estimateCost m maxTokens policy.prices).filter (· ≤ budget.toNat)).map fun c =>
      (c, m))).map Prod.snd

/-- The refusal when no low-cost model fits. -/
def lowCostRefusal (policy : QosMapperPolicy) (maxTokens : UInt32) (budget : UInt64) : QosReject :=
  match policy.lowCostModels.find? fun m => (estimateCost m maxTokens policy.prices).isSome with
  | some m => .overBudget ((estimateCost m maxTokens policy.prices).getD 0) budget
  | none => .unknownPrice (policy.lowCostModels.head?.getD "low-cost") policy.prices.policyRevision

/-- The limits once the objective is accepted. -/
def effective (objective priority : Int) (model : Option String) (maxTokens : UInt32) :
    EffectiveQos where
  requestedObjective := objective
  acceptedObjective := objective
  admissionPriority := if objective = qiCritical then 10 else priority
  streaming := objective == qiStreamLike
  failoverRetries := objective == qiFailover
  modelConstraint := model
  maxTokens := maxTokens

/-- Objectives other than LOW_COST use the default model, and a zero budget
admits only a known cost of zero. -/
def defaultModelRefusal (policy : QosMapperPolicy) (maxTokens : UInt32) (budget : UInt64) :
    Option QosReject :=
  if budget = 0 then
    match estimateCost policy.defaultModel maxTokens policy.prices with
    | some 0 => none
    | some c => some (.nonZeroCostWithZeroBudget c)
    | none => some (.unknownPrice policy.defaultModel policy.prices.policyRevision)
  else none

def mapObjective (objective priority : Int) (intent : WorkflowIntent) (policy : QosMapperPolicy) :
    QosMapping :=
  let budget := intent.maxCostMicrounits
  let maxTokens := intent.maxTokens
  if objective = qiLowCost then
    match pickLowCost policy maxTokens budget with
    | some m => .applied (effective objective priority (some m) maxTokens)
    | none => .rejected (lowCostRefusal policy maxTokens budget)
  else
    match defaultModelRefusal policy maxTokens budget with
    | some r => .rejected r
    | none => .applied (effective objective priority none maxTokens)

/-- Mapping of an accepted verdict. -/
def map (verdict : Verdict) (intent : WorkflowIntent) (policy : QosMapperPolicy) : QosMapping :=
  match verdict with
  | .accept _ profile priority _ _ => mapObjective profile priority intent policy
  | _ => .rejected .notAccept

/-- Mapping when no decision is available: the authorised template named by
the intent, with its objective, the normal priority and the smaller of the two
token ceilings. -/
def mapFallback (intent : WorkflowIntent) (policy : QosMapperPolicy) : QosMapping :=
  let requested := intent.fallbackTemplateId.val
  if requested = "" then .rejected .noFallbackAvailable
  else match policy.fallbackTemplates.find? fun t => t.id = requested with
  | none => .rejected (.fallbackNotAuthorized requested)
  | some tpl =>
      match mapObjective tpl.objective 5
          { intent with maxTokens := min tpl.maxTokens intent.maxTokens } policy with
      | .applied e => .applied { e with requestedObjective := -1 }
      | .rejected r => .rejected r

/-- The mapping `on_decision` applies to a verdict that is not a shadow
acceptance. -/
def mapVerdict (verdict : Verdict) (intent : WorkflowIntent) (policy : QosMapperPolicy) :
    QosMapping :=
  match verdict with
  | .accept .. => map verdict intent policy
  | _ => mapFallback intent policy

/-- The telemetry of one mapping; the fixed structural profile is left out. -/
structure QosTelemetryRecord where
  workflowId : String
  requestedObjective : Int
  acceptedObjective : Int
  effectiveConfigHash : String
  fallbackReason : Option String
  rejectReason : Option String
  deriving DecidableEq

def QosTelemetryRecord.applied (workflowId : String) (e : EffectiveQos) : QosTelemetryRecord where
  workflowId := workflowId
  requestedObjective := e.requestedObjective
  acceptedObjective := e.acceptedObjective
  effectiveConfigHash := e.configHash
  fallbackReason := none
  rejectReason := none

/-- The fallback applies only to an intent that names an authorised template. -/
theorem mapFallback_applied {intent : WorkflowIntent} {policy : QosMapperPolicy}
    {e : EffectiveQos} (h : mapFallback intent policy = .applied e) :
    ∃ tpl ∈ policy.fallbackTemplates, tpl.id = intent.fallbackTemplateId.val := by
  unfold mapFallback at h
  simp only at h
  split at h
  · cases h
  split at h
  · cases h
  · rename_i tpl hfind
    exact ⟨tpl, List.mem_of_find?_eq_some hfind, by simpa using List.find?_some hfind⟩

/-- An objective keeps the ceiling of the intent it is mapped for, and only
LOW_COST prescribes a model. -/
theorem mapObjective_applied {objective priority : Int} {intent : WorkflowIntent}
    {policy : QosMapperPolicy} {e : EffectiveQos}
    (h : mapObjective objective priority intent policy = .applied e) :
    e.maxTokens = intent.maxTokens ∧ (e.modelConstraint = none ↔ objective ≠ qiLowCost) := by
  unfold mapObjective at h
  simp only at h
  split at h
  · rename_i hlow
    split at h
    · injection h with h
      subst h
      simp [effective, hlow]
    · cases h
  · rename_i hother
    split at h
    · cases h
    · injection h with h
      subst h
      simp [effective, hother]

/-- The mapping adds nothing to what the intent says: an accepted objective
other than LOW_COST, or a fallback template of such an objective whose ceiling
is not below the intent's. -/
def KeepsIntentLimits (verdict : Verdict) (intent : WorkflowIntent) (policy : QosMapperPolicy) :
    Prop :=
  match verdict with
  | .accept _ profile _ _ _ => profile ≠ qiLowCost
  | _ => ∀ tpl ∈ policy.fallbackTemplates.find? fun t => t.id = intent.fallbackTemplateId.val,
      tpl.objective ≠ qiLowCost ∧ intent.maxTokens ≤ tpl.maxTokens

instance (verdict : Verdict) (intent : WorkflowIntent) (policy : QosMapperPolicy) :
    Decidable (KeepsIntentLimits verdict intent policy) :=
  match verdict with
  | .accept _ profile _ _ _ => inferInstanceAs (Decidable (profile ≠ qiLowCost))
  | .error _ | .reject _ _ => inferInstanceAs (Decidable
      (∀ tpl ∈ policy.fallbackTemplates.find? fun t => t.id = intent.fallbackTemplateId.val,
        tpl.objective ≠ qiLowCost ∧ intent.maxTokens ≤ tpl.maxTokens))

theorem mapFallback_limits {intent : WorkflowIntent} {policy : QosMapperPolicy}
    {e : EffectiveQos} (h : mapFallback intent policy = .applied e) :
    (∀ tpl ∈ policy.fallbackTemplates.find? fun t => t.id = intent.fallbackTemplateId.val,
      tpl.objective ≠ qiLowCost ∧ intent.maxTokens ≤ tpl.maxTokens) ↔
      e.modelConstraint = none ∧ intent.maxTokens ≤ e.maxTokens := by
  unfold mapFallback at h
  simp only at h
  split at h
  · cases h
  split at h
  · cases h
  rename_i tpl hfind
  split at h
  · rename_i e' hmap
    injection h with h
    subst h
    obtain ⟨htokens, hmodel⟩ := mapObjective_applied hmap
    simp only at htokens
    rw [hfind, hmodel, htokens, Std.le_min_iff]
    simp
  · cases h

theorem mapVerdict_limits {verdict : Verdict} {intent : WorkflowIntent}
    {policy : QosMapperPolicy} {e : EffectiveQos}
    (h : mapVerdict verdict intent policy = .applied e) :
    KeepsIntentLimits verdict intent policy ↔
      e.modelConstraint = none ∧ intent.maxTokens ≤ e.maxTokens := by
  cases verdict with
  | accept capabilities profile priority shadow below =>
      obtain ⟨htokens, hmodel⟩ := mapObjective_applied h
      simp [KeepsIntentLimits, hmodel, htokens]
  | error code => exact mapFallback_limits h
  | reject reason detail => exact mapFallback_limits h

end DdsOrchestrator.WorkflowEngine
