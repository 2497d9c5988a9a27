import DdsOrchestrator.WorkflowEngine.Decision

/-!
The worker that asks the model about an intent. Every intent gets a decision: a prediction
where the answer of the model holds together, and an error with its reason otherwise.

Numbers are exact. The hash over a decision is a parameter, since nobody who validates a
decision reads it, and with it the bits of the doubles that only the hash is about.
-/

namespace DdsOrchestrator.LayaWorker

open WorkflowEngine (F64 DdsString DdsBoundedSequence WorkflowIntent RoutingDecision
  ProfileProbability CapabilityProbability finiteUnit sumTolerance)

/-! ### The questions -/

def questionsRevision : UInt32 := 1

def qosProfiles : List String :=
  ["QI_BALANCED", "QI_CRITICAL", "QI_STREAM_LIKE", "QI_LOW_COST", "QI_FAILOVER"]

def capabilityCatalog : List String :=
  ["rust_refactor", "python_refactor", "unit_testing", "security_audit", "code_review",
    "research", "summarization", "translation"]

/-! ### The answer of the model -/

structure LayaAnswer where
  qosProfile : String
  qosProbabilities : Map String F64
  needsPlanningProbability : F64
  capabilityProbabilities : Map String F64
  capabilityAnswerConfidences : Map String F64
  complexityExpected : F64
  urgencyExpected : F64
  priorityProbabilities : List F64
  confidence : F64
  answerConfidence : F64
  modelId : DdsString
  checkpointRevision : DdsString
  calibrationRevision : DdsString

/-- What comes of asking the model. -/
inductive Outcome where
  | answered (a : LayaAnswer)
  | timeout
  | unavailable
  /-- Any other exception. -/
  | failed

def dictValues (m : Map String F64) : List F64 := m.entries.map (·.2)

def total (probabilities : List F64) : ℚ := (probabilities.map F64.toRat).sum

def answerIsSelfConsistent (a : LayaAnswer) : Bool :=
  if a.qosProfile ∉ qosProfiles then false
  else if a.qosProfile ∉ a.qosProbabilities then false
  else if ∃ p ∈ a.qosProbabilities.keys, p ∉ qosProfiles then false
  else if ∃ c ∈ a.capabilityProbabilities.keys, c ∉ capabilityCatalog then false
  else if ∃ p ∈ dictValues a.qosProbabilities, !finiteUnit p then false
  else if sumTolerance < |total (dictValues a.qosProbabilities) - 1| then false
  else if !finiteUnit a.needsPlanningProbability then false
  else if ∃ p ∈ dictValues a.capabilityProbabilities, !finiteUnit p then false
  else if ∃ p ∈ dictValues a.capabilityAnswerConfidences, !finiteUnit p then false
  else if !a.complexityExpected.within 0 3 || !a.urgencyExpected.within 0 2 then false
  else if a.priorityProbabilities.length ≠ 3 ∨ ∃ p ∈ a.priorityProbabilities, !finiteUnit p then
    false
  else if sumTolerance < |total a.priorityProbabilities - 1| then false
  else if !finiteUnit a.confidence || !finiteUnit a.answerConfidence then false
  else true

/-! ### The decision -/

inductive ReasonCode where
  | none
  | invalidInput
  | modelUnavailable
  | timeout
  | schemaMismatch
  | outputInvalid
  deriving DecidableEq

/-- The place in the list of all reasons, of which the worker uses these. -/
def ReasonCode.ord : ReasonCode → Int
  | none => 0
  | invalidInput => 1
  | modelUnavailable => 2
  | timeout => 3
  | schemaMismatch => 4
  | outputInvalid => 12

/-- The fields of a decision before it goes on the wire. An error has no label. -/
structure Decision where
  requestId : DdsString
  decisionId : DdsString
  workflowId : DdsString
  schemaVersion : UInt16
  intentRevision : UInt32
  producerId : DdsString
  modelId : DdsString
  checkpointRevision : DdsString
  questionsRevision : UInt32
  policyRevision : UInt32
  capabilityCatalogRevision : UInt32
  qosProfileLabel : Option String
  qosProbabilities : List (String × F64)
  capabilityProbabilities : List (String × F64 × F64)
  requiresPlanningProbability : F64
  priorityScore : F64
  priorityProbabilities : List F64
  confidence : F64
  answerConfidence : F64
  calibrationRevision : DdsString
  createdAtNs : UInt64
  validUntilNs : UInt64
  decisionStatus : Int
  reasonCode : Int
  evidenceDigest : DdsString
  payloadHash : DdsString

theorem noNul_empty : '\x00' ∉ "".toList := by simp

def emptyString : DdsString := ⟨"", noNul_empty⟩

def decisionIdOf (requestId : DdsString) : DdsString :=
  ⟨"dec-" ++ requestId.val, by
    have h := requestId.noNul
    simpa [String.toList_append] using h⟩

/-- 120 s. -/
def defaultTtlNs : ℕ := 120000000000

/-- The sum is a number of any size; the deadline is not. -/
def validUntil (createdNs deadlineNs : UInt64) (ttlNs : ℕ) : UInt64 :=
  UInt64.ofNat (min (createdNs.toNat + ttlNs) deadlineNs.toNat)

def errorDecision (intent : WorkflowIntent) (reason : ReasonCode) (createdNs : UInt64)
    (producer : DdsString) : Decision where
  requestId := intent.requestId
  decisionId := decisionIdOf intent.requestId
  workflowId := intent.workflowId
  schemaVersion := 1
  intentRevision := intent.intentRevision
  producerId := producer
  modelId := ⟨"unavailable", by decide⟩
  checkpointRevision := emptyString
  questionsRevision := intent.questionsRevision
  policyRevision := intent.policyRevision
  capabilityCatalogRevision := intent.capabilityCatalogRevision
  qosProfileLabel := none
  qosProbabilities := []
  capabilityProbabilities := []
  requiresPlanningProbability := .finite 0
  priorityScore := .finite 0
  priorityProbabilities := []
  confidence := .finite 0
  answerConfidence := .finite 0
  calibrationRevision := emptyString
  createdAtNs := createdNs
  validUntilNs := validUntil createdNs intent.deadlineNs defaultTtlNs
  decisionStatus := 1
  reasonCode := reason.ord
  evidenceDigest := emptyString
  payloadHash := emptyString

/-- `min(2.0, max(0.0, x))`, which keeps the bound unless the other one beats it. -/
def clampScore (x : F64) : F64 :=
  let low := if (F64.finite 0).lt x then x else .finite 0
  if low.lt (.finite 2) then low else .finite 2

def priorityScore (a : LayaAnswer) : F64 :=
  if a.urgencyExpected.within 0 2 then a.urgencyExpected else clampScore a.urgencyExpected

/-- A profile that the answer leaves out has no probability. -/
def profileProbability (a : LayaAnswer) (profile : String) : F64 :=
  (a.qosProbabilities.lookup profile).getD (.finite 0)

def knownCapability (a : LayaAnswer) (c : String) : String × F64 × F64 :=
  (c, (a.capabilityProbabilities.lookup c).getD (.finite (2 / 100)),
    (a.capabilityAnswerConfidences.lookup c).getD (.finite 0))

def okDecision (intent : WorkflowIntent) (a : LayaAnswer) (createdNs : UInt64) (ttlNs : ℕ)
    (producer : DdsString) : Decision where
  requestId := intent.requestId
  decisionId := decisionIdOf intent.requestId
  workflowId := intent.workflowId
  schemaVersion := 1
  intentRevision := intent.intentRevision
  producerId := producer
  modelId := a.modelId
  checkpointRevision := a.checkpointRevision
  questionsRevision := intent.questionsRevision
  policyRevision := intent.policyRevision
  capabilityCatalogRevision := intent.capabilityCatalogRevision
  qosProfileLabel := some a.qosProfile
  qosProbabilities := qosProfiles.map fun p => (p, profileProbability a p)
  capabilityProbabilities := capabilityCatalog.map (knownCapability a)
  requiresPlanningProbability := a.needsPlanningProbability
  priorityScore := priorityScore a
  priorityProbabilities := a.priorityProbabilities
  confidence := a.confidence
  answerConfidence := a.answerConfidence
  calibrationRevision := a.calibrationRevision
  createdAtNs := createdNs
  validUntilNs := validUntil createdNs intent.deadlineNs ttlNs
  decisionStatus := 0
  reasonCode := ReasonCode.ord .none
  evidenceDigest := emptyString
  payloadHash := emptyString

/-- What the worker runs with. -/
structure Worker where
  producerId : DdsString
  ttlNs : ℕ
  /-- The hash over all fields but the hash. -/
  digest : Decision → DdsString

namespace Worker

def finish (w : Worker) (d : Decision) : Decision := { d with payloadHash := w.digest d }

def decide (w : Worker) (intent : WorkflowIntent) (outcome : Outcome) (createdNs : UInt64) :
    Decision :=
  let error reason := w.finish (errorDecision intent reason createdNs w.producerId)
  if intent.questionsRevision ≠ questionsRevision then error .schemaMismatch
  else
    match outcome with
    | .timeout => error .timeout
    | .unavailable => error .modelUnavailable
    | .failed => error .invalidInput
    | .answered a =>
      if !answerIsSelfConsistent a then error .outputInvalid
      else if a.qosProfile ∉ qosProfiles then error .outputInvalid
      else w.finish (okDecision intent a createdNs w.ttlNs w.producerId)

end Worker

/-! ### On the wire -/

/-- An empty label counts as none. -/
def profileOrdinal : Option String → Option ℕ
  | none => some 0
  | some label => if label = "" then some 0 else qosProfiles.idxOf? label

def wireProfile (e : String × F64) : Option ProfileProbability :=
  (qosProfiles.idxOf? e.1).map fun i => ⟨(i : Int), e.2⟩

def wireCapability (e : String × F64 × F64) : Option CapabilityProbability :=
  (DdsString.ofString? e.1).map fun c => ⟨c, e.2.1, e.2.2⟩

/-- The type on the wire, if the decision fits into it. Of its fields those that no one reads
are left out. -/
def decisionToWire (d : Decision) : Option RoutingDecision := do
  let qosProfile ← profileOrdinal d.qosProfileLabel
  let profiles ← d.qosProbabilities.mapM wireProfile
  let qosProbabilities ← DdsBoundedSequence.fromVec profiles
  let capabilities ← d.capabilityProbabilities.mapM wireCapability
  let capabilityProbabilities ← DdsBoundedSequence.fromVec capabilities
  let priorityProbabilities ← DdsBoundedSequence.fromVec d.priorityProbabilities
  return {
    requestId := d.requestId
    decisionId := d.decisionId
    workflowId := d.workflowId
    schemaVersion := d.schemaVersion
    intentRevision := d.intentRevision
    checkpointRevision := d.checkpointRevision
    questionsRevision := d.questionsRevision
    policyRevision := d.policyRevision
    capabilityCatalogRevision := d.capabilityCatalogRevision
    qosProfile := (qosProfile : Int)
    qosProbabilities, capabilityProbabilities
    requiresPlanningProbability := d.requiresPlanningProbability
    priorityScore := d.priorityScore
    priorityProbabilities
    confidence := d.confidence
    answerConfidence := d.answerConfidence
    calibrationRevision := d.calibrationRevision
    createdAtNs := d.createdAtNs
    validUntilNs := d.validUntilNs
    decisionStatus := d.decisionStatus
    reasonCode := d.reasonCode
    payloadHash := d.payloadHash }

end DdsOrchestrator.LayaWorker
