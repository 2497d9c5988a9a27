import DdsOrchestrator.LayaWorker.Decide

/-!
What the validator makes of the errors of the worker. An error repeats the revisions that the
intent pins, and so it passes, but for the checkpoint: that it leaves empty.
-/

namespace DdsOrchestrator.LayaWorker

open WorkflowEngine (DdsString DdsBoundedSequence WorkflowIntent RoutingDecision DecisionPolicy
  Verdict validate validatePrediction windowViolated expired revisionsPinned checkpointPinned
  satAdd)

/-! ### What arrives of a decision -/

theorem fromVec_eq_some {α : Type} {n : ℕ} {items : List α} {s : DdsBoundedSequence α n} :
    DdsBoundedSequence.fromVec items = some s ↔ s.items = items := by
  unfold DdsBoundedSequence.fromVec
  constructor
  · intro h
    split at h
    · cases h
      rfl
    · cases h
  · rintro rfl
    rw [dif_pos s.bounded]

/-- The fields on the wire are those of the decision. -/
structure OnWire (d : Decision) (wire : RoutingDecision) : Prop where
  requestId : wire.requestId = d.requestId
  workflowId : wire.workflowId = d.workflowId
  schemaVersion : wire.schemaVersion = d.schemaVersion
  intentRevision : wire.intentRevision = d.intentRevision
  checkpointRevision : wire.checkpointRevision = d.checkpointRevision
  questionsRevision : wire.questionsRevision = d.questionsRevision
  policyRevision : wire.policyRevision = d.policyRevision
  catalogRevision : wire.capabilityCatalogRevision = d.capabilityCatalogRevision
  qosProfile : ∃ i : ℕ, profileOrdinal d.qosProfileLabel = some i ∧ wire.qosProfile = i
  qosProbabilities : d.qosProbabilities.mapM wireProfile = some wire.qosProbabilities.items
  capabilities :
    d.capabilityProbabilities.mapM wireCapability = some wire.capabilityProbabilities.items
  requiresPlanning : wire.requiresPlanningProbability = d.requiresPlanningProbability
  priorityScore : wire.priorityScore = d.priorityScore
  priorityProbabilities : wire.priorityProbabilities.items = d.priorityProbabilities
  confidence : wire.confidence = d.confidence
  answerConfidence : wire.answerConfidence = d.answerConfidence
  createdAtNs : wire.createdAtNs = d.createdAtNs
  validUntilNs : wire.validUntilNs = d.validUntilNs
  decisionStatus : wire.decisionStatus = d.decisionStatus
  reasonCode : wire.reasonCode = d.reasonCode

theorem onWire {d : Decision} {wire : RoutingDecision} (h : decisionToWire d = some wire) :
    OnWire d wire := by
  simp only [decisionToWire, Option.bind_eq_bind, Option.bind_eq_some_iff, fromVec_eq_some] at h
  obtain ⟨profile, hprofile, profiles, hprofiles, qos, hqos, caps, hcaps, capabilities,
    hcapabilities, priorities, hpriorities, hwire⟩ := h
  cases hwire
  constructor <;> try rfl
  · exact ⟨profile, hprofile, rfl⟩
  · rw [hprofiles, ← hqos]
  · rw [hcaps, ← hcapabilities]
  · exact hpriorities

/-! ### What the two kinds of decision share -/

/-- The decision repeats the intent, and ends with its deadline at the latest. -/
structure Repeats (d : Decision) (intent : WorkflowIntent) : Prop where
  schema : d.schemaVersion = 1
  request : d.requestId = intent.requestId
  workflow : d.workflowId = intent.workflowId
  revision : d.intentRevision = intent.intentRevision
  questions : d.questionsRevision = intent.questionsRevision
  policy : d.policyRevision = intent.policyRevision
  catalog : d.capabilityCatalogRevision = intent.capabilityCatalogRevision
  created : d.createdAtNs ≤ d.validUntilNs
  deadline : d.validUntilNs ≤ intent.deadlineNs

/-- What is left of the validation. -/
def validateRest (wire : RoutingDecision) (intent : WorkflowIntent) (policy : DecisionPolicy) :
    Verdict :=
  if ¬ checkpointPinned wire intent then .reject .revisionPin .checkpointDiverges
  else if wire.decisionStatus = 0 then
    if wire.reasonCode ≠ 0 then .reject .statusReason (.okWithReason wire.reasonCode)
    else validatePrediction wire policy
  else if wire.reasonCode = 0 then .reject .statusReason .errorWithoutReason
  else .error wire.reasonCode

variable {d : Decision} {wire : RoutingDecision} {intent : WorkflowIntent}
  {policy : DecisionPolicy} {now : Option UInt64}

/-- Of the first four steps only the pin of the checkpoint can fail. -/
theorem Repeats.validate (h : Repeats d intent) (hwire : OnWire d wire)
    (hschema : intent.schemaVersion = 1)
    (hpolicy : policy.catalogRevision = intent.capabilityCatalogRevision)
    (hnow : ∀ t, now = some t → t ≤ d.validUntilNs) :
    validate wire intent policy now = validateRest wire intent policy := by
  have hversions : ¬ (intent.schemaVersion ≠ 1 ∨ wire.schemaVersion ≠ 1) := by
    simp [hschema, hwire.schemaVersion, h.schema]
  have hcorrelated : WorkflowEngine.correlated wire intent := by
    refine ⟨?_, ?_, ?_⟩
    · rw [hwire.requestId, h.request]
    · rw [hwire.workflowId, h.workflow]
    · rw [hwire.intentRevision, h.revision]
  have hpinned : revisionsPinned wire intent policy := by
    refine ⟨?_, ?_, ?_, hpolicy⟩
    · rw [hwire.questionsRevision, h.questions]
    · rw [hwire.policyRevision, h.policy]
    · rw [hwire.catalogRevision, h.catalog]
  -- The tolerance comes on top of the deadline, which the end of the window keeps to.
  have hwindow : ¬ windowViolated wire intent policy.skewToleranceNs := by
    have hdeadline := UInt64.le_iff_toNat_le.mp h.deadline
    have hbound := intent.deadlineNs.toNat_lt
    rw [windowViolated, hwire.validUntilNs, hwire.createdAtNs]
    rintro (hlate | hcreated)
    · unfold satAdd at hlate
      omega
    · exact UInt64.not_lt.mpr h.created hcreated
  have hexpired : ¬ now.any (fun t => decide (expired wire policy t)) = true := by
    cases now with
    | none => simp
    | some t =>
      intro hany
      have hlate : expired wire policy t := of_decide_eq_true hany
      have hle := UInt64.le_iff_toNat_le.mp (hnow t rfl)
      rw [expired, hwire.validUntilNs] at hlate
      omega
  rw [WorkflowEngine.validate, if_neg hversions, if_neg (not_not.mpr hcorrelated),
    if_neg (not_not.mpr hpinned)]
  unfold validateRest
  by_cases hpin : checkpointPinned wire intent
  · rw [if_neg (not_not.mpr hpin), if_neg (not_not.mpr hpin), if_neg hwindow, if_neg hexpired]
  · rw [if_pos hpin, if_pos hpin]

theorem validUntil_toNat (createdNs deadlineNs : UInt64) (ttlNs : ℕ) :
    (validUntil createdNs deadlineNs ttlNs).toNat =
      min (createdNs.toNat + ttlNs) deadlineNs.toNat := by
  rw [validUntil, UInt64.toNat_ofNat']
  apply Nat.mod_eq_of_lt
  exact lt_of_le_of_lt (Nat.min_le_right _ _) deadlineNs.toNat_lt

theorem validUntil_le (createdNs deadlineNs : UInt64) (ttlNs : ℕ) :
    validUntil createdNs deadlineNs ttlNs ≤ deadlineNs := by
  rw [UInt64.le_iff_toNat_le, validUntil_toNat]
  exact Nat.min_le_right _ _

theorem le_validUntil {createdNs deadlineNs : UInt64} (h : createdNs ≤ deadlineNs) (ttlNs : ℕ) :
    createdNs ≤ validUntil createdNs deadlineNs ttlNs := by
  rw [UInt64.le_iff_toNat_le, validUntil_toNat]
  exact Nat.le_min.mpr ⟨Nat.le_add_right _ _, UInt64.le_iff_toNat_le.mp h⟩

/-- A decision is an error with a reason, or the prediction of an answer that holds together. -/
theorem decide_cases (w : Worker) (intent : WorkflowIntent) (outcome : Outcome)
    (createdNs : UInt64) :
    (∃ reason, reason ≠ .none ∧
        w.decide intent outcome createdNs =
          w.finish (errorDecision intent reason createdNs w.producerId)) ∨
      ∃ a, outcome = .answered a ∧ answerIsSelfConsistent a = true ∧
        w.decide intent outcome createdNs =
          w.finish (okDecision intent a createdNs w.ttlNs w.producerId) := by
  unfold Worker.decide
  by_cases hquestions : intent.questionsRevision = questionsRevision
  · simp only [hquestions, ne_eq, not_true_eq_false, if_false]
    cases outcome with
    | timeout => exact .inl ⟨.timeout, by decide, rfl⟩
    | unavailable => exact .inl ⟨.modelUnavailable, by decide, rfl⟩
    | failed => exact .inl ⟨.invalidInput, by decide, rfl⟩
    | answered a =>
      by_cases hconsistent : answerIsSelfConsistent a = true
      · by_cases hlabel : a.qosProfile ∈ qosProfiles
        · refine .inr ⟨a, rfl, hconsistent, ?_⟩
          simp [hconsistent, hlabel]
        · refine .inl ⟨.outputInvalid, by decide, ?_⟩
          simp [hlabel]
      · refine .inl ⟨.outputInvalid, by decide, ?_⟩
        simp [hconsistent]
  · rw [if_pos hquestions]
    exact .inl ⟨.schemaMismatch, by decide, rfl⟩

/-! ### Errors -/

theorem repeats_error (w : Worker) (reason : ReasonCode) {createdNs : UInt64}
    (h : createdNs ≤ intent.deadlineNs) :
    Repeats (w.finish (errorDecision intent reason createdNs w.producerId)) intent where
  schema := rfl
  request := rfl
  workflow := rfl
  revision := rfl
  questions := rfl
  policy := rfl
  catalog := rfl
  created := le_validUntil h _
  deadline := validUntil_le _ _ _

theorem ReasonCode.ord_ne_zero {reason : ReasonCode} (h : reason ≠ .none) : reason.ord ≠ 0 := by
  cases reason with
  | none => exact absurd rfl h
  | _ => decide

/-- The validator sees the error with its reason. -/
def ValidatedAsError (d : Decision) (intent : WorkflowIntent) (policy : DecisionPolicy)
    (now : Option UInt64) : Prop :=
  ∃ wire, decisionToWire d = some wire ∧ validate wire intent policy now = .error d.reasonCode

/-- An error of the worker is validated as one exactly if the intent pins no checkpoint. -/
theorem error_validated_iff (w : Worker) (intent : WorkflowIntent) (outcome : Outcome)
    (createdNs : UInt64) (policy : DecisionPolicy) (now : Option UInt64)
    (hschema : intent.schemaVersion = 1) (hdeadline : createdNs ≤ intent.deadlineNs)
    (herror : (w.decide intent outcome createdNs).decisionStatus = 1)
    (hpolicy : policy.catalogRevision = intent.capabilityCatalogRevision)
    (hnow : ∀ t, now = some t → t ≤ (w.decide intent outcome createdNs).validUntilNs) :
    ValidatedAsError (w.decide intent outcome createdNs) intent policy now ↔
      intent.checkpointRevision.val = "" := by
  obtain ⟨reason, hreason, hdecide⟩ | ⟨a, -, -, hdecide⟩ :=
    decide_cases w intent outcome createdNs
  · rw [hdecide] at hnow ⊢
    have hvalidate : ∀ wire,
        decisionToWire (w.finish (errorDecision intent reason createdNs w.producerId)) =
          some wire →
        (validate wire intent policy now = .error reason.ord ↔
          intent.checkpointRevision.val = "") := by
      intro wire hsome
      have hwire := onWire hsome
      -- An error leaves the checkpoint empty, whatever the intent pins.
      have hpinned : checkpointPinned wire intent ↔ intent.checkpointRevision.val = "" := by
        rw [checkpointPinned, hwire.checkpointRevision]
        constructor
        · rintro (hempty | hempty)
          · exact hempty
          · exact hempty.symm
        · exact .inl
      have hstatus : wire.decisionStatus ≠ 0 := by
        rw [hwire.decisionStatus]
        exact one_ne_zero
      have hcode : wire.reasonCode = reason.ord := hwire.reasonCode
      rw [(repeats_error w reason hdeadline).validate hwire hschema hpolicy hnow, validateRest,
        if_neg hstatus, hcode, if_neg (ReasonCode.ord_ne_zero hreason), ← hpinned]
      simp
    constructor
    · rintro ⟨wire, hsome, hverdict⟩
      exact (hvalidate wire hsome).mp hverdict
    · intro hpin
      exact ⟨_, rfl, (hvalidate _ rfl).mpr hpin⟩
  · rw [hdecide] at herror
    cases herror

def sampleWorker : Worker :=
  { producerId := ⟨"laya-worker-1", by decide⟩, ttlNs := defaultTtlNs
    digest := fun _ => emptyString }

def freeIntent : WorkflowIntent :=
  { requestId := ⟨"req-1", by decide⟩, workflowId := ⟨"wf-1", by decide⟩
    clientId := ⟨"c1", by decide⟩, schemaVersion := 1, intentRevision := 1, command := 0
    expectedPlanRevision := 0, prompt := ⟨"audit", by decide⟩, createdAtNs := 1000
    deadlineNs := 600000000000, securityContextRef := emptyString, policyRevision := 7
    questionsRevision := 1, capabilityCatalogRevision := 1, checkpointRevision := emptyString
    maxTokens := 256, maxCostMicrounits := 0, budgetUnit := emptyString
    fallbackTemplateId := emptyString, payloadHash := emptyString }

def sampleCheckpoint : DdsString := ⟨"7b928d82", by decide⟩

def pinnedIntent : WorkflowIntent :=
  { freeIntent with checkpointRevision := sampleCheckpoint }

theorem timeout_validated :
    ValidatedAsError (sampleWorker.decide freeIntent .timeout 5000) freeIntent .default
      (some 6000) :=
  (error_validated_iff sampleWorker freeIntent .timeout 5000 .default (some 6000) rfl (by decide)
    rfl rfl (by rintro t ⟨⟩; decide)).mpr rfl

/-- The same timeout is rejected where the intent pins a checkpoint. -/
theorem pinned_timeout_rejected :
    ¬ ValidatedAsError (sampleWorker.decide pinnedIntent .timeout 5000) pinnedIntent .default
        (some 6000) ∧
      (decisionToWire (sampleWorker.decide pinnedIntent .timeout 5000)).map
          (validate · pinnedIntent .default (some 6000)) =
        some (.reject .revisionPin .checkpointDiverges) := by
  have hverdict : (decisionToWire (sampleWorker.decide pinnedIntent .timeout 5000)).map
      (validate · pinnedIntent .default (some 6000)) =
        some (.reject .revisionPin .checkpointDiverges) := by decide
  refine ⟨?_, hverdict⟩
  rintro ⟨wire, hwire, herror⟩
  rw [hwire, Option.map_some, herror] at hverdict
  cases hverdict

end DdsOrchestrator.LayaWorker
