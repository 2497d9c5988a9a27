import DdsOrchestrator.WorkflowEngine.Contract

/-!
The validator of routing decisions. A decision is untrusted until `validate`
has compared it with the intent it answers: schema, correlation, pinned
revisions, validity window, status, the distributions, the capabilities, and
the confidence gate, in this order. An accepted decision leaves shadow only
when the policy pins a calibration and the decision carries that revision.

Reject details are kept as data, with what the message prints as arguments.
-/

namespace DdsOrchestrator.WorkflowEngine

/-- 5 s. -/
def defaultSkewToleranceNs : UInt64 := 5000000000

structure DecisionPolicy where
  catalogRevision : UInt32
  capabilityThreshold : F64
  confidenceThreshold : Option F64
  enforceConfidence : Bool
  skewToleranceNs : UInt64
  calibrationPin : Option String
  deriving DecidableEq

def DecisionPolicy.default : DecisionPolicy where
  catalogRevision := 1
  capabilityThreshold := .finite (1 / 2)
  confidenceThreshold := none
  enforceConfidence := false
  skewToleranceNs := defaultSkewToleranceNs
  calibrationPin := none

inductive RejectReason where
  | schemaVersion
  | correlation
  | revisionPin
  | validityWindow
  | statusReason
  | qosDistribution
  | probabilityOutOfRange
  | priorityInvalid
  | capabilityUnknown (revision : UInt32)
  | capabilityDuplicate
  | confidenceBelowThreshold (confidence : F64)
  deriving DecidableEq

inductive RejectDetail where
  | schemaVersions (intent decision : UInt16)
  | correlation (decision intent : String × String × UInt32)
  | revisions (questions policy catalog : UInt32 × UInt32) (understood : UInt32)
  | checkpointDiverges
  | window (created validUntil deadline skew : UInt64)
  | expired (validUntil now : UInt64)
  | okWithReason (reasonCode : Int)
  | errorWithoutReason
  | profileOutOfDomain (profile : Int)
  | profileDuplicated (profile : Int)
  | qosProbability (p : F64)
  | qosSum (total : ℚ) (profiles : Nat)
  | qosProfileOutOfDomain (profile : Int)
  | qosProfileNotArgmax (profile : Int) (argmax : Nat)
  | priorityScore (score : F64)
  | priorityLength (length : Nat)
  | priorityProbability (p : F64)
  | prioritySum (total : ℚ)
  | planningOrConfidenceRange
  | unknownLabels (revision : UInt32) (labels : List String)
  | duplicateLabels
  | capabilityRange
  | belowThreshold (confidence : F64)
  deriving DecidableEq

inductive Verdict where
  | accept (requiredCapabilities : List String) (qosProfile priority : Int)
      (shadowOnly belowConfidenceThreshold : Bool)
  | error (reasonCode : Int)
  | reject (reason : RejectReason) (detail : RejectDetail)
  deriving DecidableEq

/-- Accepted, but kept in shadow. -/
def Verdict.isShadow : Verdict → Bool
  | accept _ _ _ shadow _ => shadow
  | _ => false

def finiteUnit (p : F64) : Bool := p.isFinite && p.within 0 1

/-- Tolerance of the two sums. -/
def sumTolerance : ℚ := 1 / 1000000

/-- The loop over `qos_probabilities`: domain, duplicates and range of each
item, the running sum and the first maximum (`none` stands for minus
infinity). -/
def qosScan : List ProfileProbability → List Int → ℚ → Nat × Option ℚ →
    Except (RejectReason × RejectDetail) (ℚ × Nat)
  | [], _, total, best => .ok (total, best.1)
  | item :: rest, seen, total, best =>
      if ¬ (0 ≤ item.profile ∧ item.profile < 5) then
        .error (.qosDistribution, .profileOutOfDomain item.profile)
      else if item.profile ∈ seen then
        .error (.qosDistribution, .profileDuplicated item.profile)
      else if !finiteUnit item.probability then
        .error (.probabilityOutOfRange, .qosProbability item.probability)
      else
        let p := item.probability.toRat
        qosScan rest (item.profile :: seen) (total + p)
          (if best.2.all (· < p) then (item.profile.toNat, some p) else best)

/-- The loop over `priority_probabilities`. -/
def priorityScan : List F64 → ℚ → Except (RejectReason × RejectDetail) ℚ
  | [], total => .ok total
  | p :: rest, total =>
      if !finiteUnit p then .error (.probabilityOutOfRange, .priorityProbability p)
      else priorityScan rest (total + p.toRat)

/-- The loop over `capability_probabilities` that derives the required ones. -/
def capabilityScan (threshold : F64) : List CapabilityProbability → List String →
    Except (RejectReason × RejectDetail) (List String)
  | [], required => .ok required
  | c :: rest, required =>
      if !finiteUnit c.probability || !finiteUnit c.answerConfidence then
        .error (.probabilityOutOfRange, .capabilityRange)
      else capabilityScan threshold rest
        (if threshold.le c.probability then required ++ [c.capabilityId.val] else required)

/-- Index of the first maximum of the priority distribution. -/
def bestPriority : List F64 → Nat → Nat × F64 → Nat
  | [], _, best => best.1
  | p :: rest, i, best => bestPriority rest (i + 1) (if best.2.lt p then (i, p) else best)

/-- The calibration gate. -/
def shadowOnly (decision : RoutingDecision) (policy : DecisionPolicy) : Bool :=
  match policy.calibrationPin with
  | some pin => decision.calibrationRevision.val != pin
  | none => true

/-- Steps 9 and 10 and the verdict. -/
def validateCapabilities (decision : RoutingDecision) (policy : DecisionPolicy) : Verdict :=
  let labels := decision.capabilityProbabilities.items.map (·.capabilityId.val)
  if catalogV1.unknown labels ≠ [] then
    .reject (.capabilityUnknown catalogV1.revision)
      (.unknownLabels catalogV1.revision (catalogV1.unknown labels))
  else if Catalog.duplicates labels ≠ [] then .reject .capabilityDuplicate .duplicateLabels
  else match capabilityScan policy.capabilityThreshold
      decision.capabilityProbabilities.items [] with
  | .error (r, d) => .reject r d
  | .ok required =>
      let below := policy.confidenceThreshold.any (decision.confidence.lt ·)
      if below && policy.enforceConfidence then
        .reject (.confidenceBelowThreshold decision.confidence)
          (.belowThreshold decision.confidence)
      else
        let best := bestPriority decision.priorityProbabilities.items 0 (0, .infinite true)
        .accept required decision.qosProfile ([1, 5, 10].getD best 1)
          (shadowOnly decision policy) below

/-- Steps 6 to 8: the distributions. -/
def validatePrediction (decision : RoutingDecision) (policy : DecisionPolicy) : Verdict :=
  let profiles := decision.qosProbabilities.items.length
  match qosScan decision.qosProbabilities.items [] 0 (0, none) with
  | .error (r, d) => .reject r d
  | .ok (total, best) =>
      if profiles = 0 ∨ sumTolerance < |total - 1| then
        .reject .qosDistribution (.qosSum total profiles)
      else if decision.qosProfile < 0 ∨ 4 < decision.qosProfile then
        .reject .qosDistribution (.qosProfileOutOfDomain decision.qosProfile)
      else if decision.qosProfile.toNat ≠ best then
        .reject .qosDistribution (.qosProfileNotArgmax decision.qosProfile best)
      else if !decision.priorityScore.isFinite || !decision.priorityScore.within 0 2 then
        .reject .priorityInvalid (.priorityScore decision.priorityScore)
      else if decision.priorityProbabilities.items.length ≠ 3 then
        .reject .priorityInvalid (.priorityLength decision.priorityProbabilities.items.length)
      else match priorityScan decision.priorityProbabilities.items 0 with
      | .error (r, d) => .reject r d
      | .ok prioTotal =>
          if sumTolerance < |prioTotal - 1| then .reject .priorityInvalid (.prioritySum prioTotal)
          else if !finiteUnit decision.requiresPlanningProbability
              || !finiteUnit decision.confidence || !finiteUnit decision.answerConfidence then
            .reject .probabilityOutOfRange .planningOrConfidenceRange
          else validateCapabilities decision policy

/-- `a.saturating_add(b)` on 64 bits. -/
def satAdd (a b : UInt64) : Nat := min (a.toNat + b.toNat) (2 ^ 64 - 1)

/-- The two halves of the validity window that do not depend on the clock. -/
def windowViolated (decision : RoutingDecision) (intent : WorkflowIntent) (skew : UInt64) : Prop :=
  satAdd intent.deadlineNs skew < decision.validUntilNs.toNat ∨
    decision.validUntilNs < decision.createdAtNs

instance (decision : RoutingDecision) (intent : WorkflowIntent) (skew : UInt64) :
    Decidable (windowViolated decision intent skew) :=
  inferInstanceAs (Decidable (_ ∨ _))

/-- The decision expired more than the tolerated skew ago. -/
def expired (decision : RoutingDecision) (policy : DecisionPolicy) (now : UInt64) : Prop :=
  decision.validUntilNs.toNat < now.toNat - policy.skewToleranceNs.toNat

instance (decision : RoutingDecision) (policy : DecisionPolicy) (now : UInt64) :
    Decidable (expired decision policy now) :=
  inferInstanceAs (Decidable (_ < _))

/-- Correlation of the decision with the intent. -/
def correlated (decision : RoutingDecision) (intent : WorkflowIntent) : Prop :=
  decision.requestId.val = intent.requestId.val ∧
    decision.workflowId.val = intent.workflowId.val ∧
    decision.intentRevision = intent.intentRevision

instance (decision : RoutingDecision) (intent : WorkflowIntent) :
    Decidable (correlated decision intent) :=
  inferInstanceAs (Decidable (_ ∧ _))

/-- The revisions pinned by the intent, and the one the policy understands. -/
def revisionsPinned (decision : RoutingDecision) (intent : WorkflowIntent)
    (policy : DecisionPolicy) : Prop :=
  decision.questionsRevision = intent.questionsRevision ∧
    decision.policyRevision = intent.policyRevision ∧
    decision.capabilityCatalogRevision = intent.capabilityCatalogRevision ∧
    policy.catalogRevision = intent.capabilityCatalogRevision

instance (decision : RoutingDecision) (intent : WorkflowIntent) (policy : DecisionPolicy) :
    Decidable (revisionsPinned decision intent policy) :=
  inferInstanceAs (Decidable (_ ∧ _))

/-- The checkpoint pinned by the intent, when it pins one. -/
def checkpointPinned (decision : RoutingDecision) (intent : WorkflowIntent) : Prop :=
  intent.checkpointRevision.val = "" ∨
    decision.checkpointRevision.val = intent.checkpointRevision.val

instance (decision : RoutingDecision) (intent : WorkflowIntent) :
    Decidable (checkpointPinned decision intent) :=
  inferInstanceAs (Decidable (_ ∨ _))

/-- Validate `decision` against the intent it answers; `none` as the clock
switches the expiry check off. -/
def validate (decision : RoutingDecision) (intent : WorkflowIntent) (policy : DecisionPolicy)
    (now : Option UInt64) : Verdict :=
  if intent.schemaVersion ≠ 1 ∨ decision.schemaVersion ≠ 1 then
    .reject .schemaVersion (.schemaVersions intent.schemaVersion decision.schemaVersion)
  else if ¬ correlated decision intent then
    .reject .correlation (.correlation
      (decision.requestId.val, decision.workflowId.val, decision.intentRevision)
      (intent.requestId.val, intent.workflowId.val, intent.intentRevision))
  else if ¬ revisionsPinned decision intent policy then
    .reject .revisionPin (.revisions
      (decision.questionsRevision, intent.questionsRevision)
      (decision.policyRevision, intent.policyRevision)
      (decision.capabilityCatalogRevision, intent.capabilityCatalogRevision)
      policy.catalogRevision)
  else if ¬ checkpointPinned decision intent then .reject .revisionPin .checkpointDiverges
  else if windowViolated decision intent policy.skewToleranceNs then
    .reject .validityWindow (.window decision.createdAtNs decision.validUntilNs
      intent.deadlineNs policy.skewToleranceNs)
  else if now.any (fun t => decide (expired decision policy t)) then
    .reject .validityWindow (.expired decision.validUntilNs (now.getD 0))
  else if decision.decisionStatus = 0 then
    if decision.reasonCode ≠ 0 then
      .reject .statusReason (.okWithReason decision.reasonCode)
    else validatePrediction decision policy
  else if decision.reasonCode = 0 then .reject .statusReason .errorWithoutReason
  else .error decision.reasonCode

def verdictName : Verdict → String
  | .accept .. => "accept"
  | .error _ => "error"
  | .reject .. => "reject"

/-! ### What an acceptance means for the shadow boundary -/

/-- Past a check that rejects, an accepted decision has passed it. -/
theorem accept_of_check {c : Prop} [Decidable c] {reason : RejectReason} {detail : RejectDetail}
    {v : Verdict} {caps : List String} {profile priority : Int} {shadow below : Bool}
    (h : (if c then Verdict.reject reason detail else v) =
      .accept caps profile priority shadow below) :
    ¬ c ∧ v = .accept caps profile priority shadow below := by
  by_cases hc : c
  · rw [if_pos hc] at h
    cases h
  · rw [if_neg hc] at h
    exact ⟨hc, h⟩

theorem validateCapabilities_accept {decision : RoutingDecision} {policy : DecisionPolicy}
    {caps : List String} {profile priority : Int} {shadow below : Bool}
    (h : validateCapabilities decision policy = .accept caps profile priority shadow below) :
    shadow = shadowOnly decision policy := by
  unfold validateCapabilities at h
  dsimp only at h
  obtain ⟨-, h⟩ := accept_of_check h
  obtain ⟨-, h⟩ := accept_of_check h
  split at h
  · cases h
  obtain ⟨-, h⟩ := accept_of_check h
  injection h with _ _ _ hs
  exact hs.symm

theorem validatePrediction_accept {decision : RoutingDecision} {policy : DecisionPolicy}
    {caps : List String} {profile priority : Int} {shadow below : Bool}
    (h : validatePrediction decision policy = .accept caps profile priority shadow below) :
    shadow = shadowOnly decision policy := by
  unfold validatePrediction at h
  dsimp only at h
  split at h
  · cases h
  -- the checks between the two scans
  iterate 5 obtain ⟨-, h⟩ := accept_of_check h
  split at h
  · cases h
  iterate 2 obtain ⟨-, h⟩ := accept_of_check h
  exact validateCapabilities_accept h

/-- An accepted decision answers this intent, at the pinned revisions, and is
out of shadow exactly when the calibration gate lets it out. -/
theorem validate_accept {decision : RoutingDecision} {intent : WorkflowIntent}
    {policy : DecisionPolicy} {now : Option UInt64} {caps : List String}
    {profile priority : Int} {shadow below : Bool}
    (h : validate decision intent policy now = .accept caps profile priority shadow below) :
    correlated decision intent ∧ revisionsPinned decision intent policy ∧
      checkpointPinned decision intent ∧ shadow = shadowOnly decision policy := by
  unfold validate at h
  obtain ⟨-, h⟩ := accept_of_check h
  obtain ⟨hcorr, h⟩ := accept_of_check h
  obtain ⟨hrev, h⟩ := accept_of_check h
  obtain ⟨hcheck, h⟩ := accept_of_check h
  iterate 2 obtain ⟨-, h⟩ := accept_of_check h
  by_cases hstatus : decision.decisionStatus = 0
  · rw [if_pos hstatus] at h
    obtain ⟨-, h⟩ := accept_of_check h
    exact ⟨not_not.mp hcorr, not_not.mp hrev, not_not.mp hcheck, validatePrediction_accept h⟩
  · rw [if_neg hstatus] at h
    obtain ⟨-, h⟩ := accept_of_check h
    cases h

theorem shadowOnly_eq_false {decision : RoutingDecision} {policy : DecisionPolicy} :
    shadowOnly decision policy = false ↔
      policy.calibrationPin = some decision.calibrationRevision.val := by
  unfold shadowOnly
  split
  · rename_i pin hpin
    rw [hpin, Option.some.injEq, bne_eq_false_iff_eq]
    exact eq_comm
  · rename_i hpin
    simp [hpin]

end DdsOrchestrator.WorkflowEngine
