import Mathlib.Algebra.BigOperators.Group.List.Basic
import Mathlib.Algebra.Order.Ring.Abs
import Mathlib.Tactic.NormNum
import DdsOrchestrator.Lib.FirstMax
import DdsOrchestrator.WorkflowEngine.Runtime

/-!
The validator of decisions against what a decision should be. The contract is stated of the
decision alone, without an order of the checks and without a scan: distributions are lists
of exact numbers that add up to one, and the label is the first greatest of them.

The validator does not count the profiles of the distribution. A decision that leaves some
of them out is accepted if it keeps the rest of the contract.
-/

namespace DdsOrchestrator.WorkflowEngine

/-! ### The contract -/

/-- A finite number between the bounds. -/
def Between (lo hi : ℚ) (p : F64) : Prop := ∃ q : ℚ, p = .finite q ∧ lo ≤ q ∧ q ≤ hi

/-- The revisions and the times of the decision are those of the intent. -/
structure AnswersIntent (decision : RoutingDecision) (intent : WorkflowIntent)
    (policy : DecisionPolicy) (now : Option UInt64) : Prop where
  schema : intent.schemaVersion = 1 ∧ decision.schemaVersion = 1
  correlation : correlated decision intent
  revisions : revisionsPinned decision intent policy
  checkpoint : checkpointPinned decision intent
  notTooLong : decision.validUntilNs.toNat ≤
    intent.deadlineNs.toNat + policy.skewToleranceNs.toNat
  window : decision.createdAtNs ≤ decision.validUntilNs
  notExpired : ∀ t, now = some t →
    t.toNat ≤ decision.validUntilNs.toNat + policy.skewToleranceNs.toNat
  status : decision.decisionStatus = 0
  reason : decision.reasonCode = 0

/-- Each profile is listed at most once, and the label is the first of the most probable. -/
structure QosContract (decision : RoutingDecision) : Prop where
  domain : ∀ i ∈ decision.qosProbabilities.items, 0 ≤ i.profile ∧ i.profile < 5
  once : (decision.qosProbabilities.items.map (·.profile)).Nodup
  range : ∀ i ∈ decision.qosProbabilities.items, Between 0 1 i.probability
  sum : |(decision.qosProbabilities.items.map (·.probability.toRat)).sum - 1| ≤ 1 / 1000000
  label : IsFirstMax
    (decision.qosProbabilities.items.map fun i => (i.profile, i.probability.toRat))
    decision.qosProfile

structure PriorityContract (decision : RoutingDecision) : Prop where
  score : Between 0 2 decision.priorityScore
  count : decision.priorityProbabilities.items.length = 3
  range : ∀ p ∈ decision.priorityProbabilities.items, Between 0 1 p
  sum : |(decision.priorityProbabilities.items.map (·.toRat)).sum - 1| ≤ 1 / 1000000

structure CapabilityContract (decision : RoutingDecision) : Prop where
  known : ∀ c ∈ decision.capabilityProbabilities.items, c.capabilityId.val ∈ catalogV1.labels
  once : (decision.capabilityProbabilities.items.map (·.capabilityId.val)).Nodup
  range : ∀ c ∈ decision.capabilityProbabilities.items,
    Between 0 1 c.probability ∧ Between 0 1 c.answerConfidence

/-- All of the contract but that every profile is listed. -/
structure Consistent (decision : RoutingDecision) (intent : WorkflowIntent)
    (policy : DecisionPolicy) (now : Option UInt64) : Prop where
  answers : AnswersIntent decision intent policy now
  qos : QosContract decision
  priority : PriorityContract decision
  confidences : Between 0 1 decision.requiresPlanningProbability ∧
    Between 0 1 decision.confidence ∧ Between 0 1 decision.answerConfidence
  capabilities : CapabilityContract decision
  gate : policy.enforceConfidence = true →
    ∀ t, policy.confidenceThreshold = some t → decision.confidence.lt t = false

/-- All five profiles are listed. -/
def CoversProfiles (decision : RoutingDecision) : Prop :=
  ∀ p : Int, 0 ≤ p → p < 5 → p ∈ decision.qosProbabilities.items.map (·.profile)

structure DecisionContract (decision : RoutingDecision) (intent : WorkflowIntent)
    (policy : DecisionPolicy) (now : Option UInt64) : Prop
    extends Consistent decision intent policy now where
  complete : CoversProfiles decision

/-! ### The scans -/

theorem finiteUnit_iff {p : F64} : finiteUnit p = true ↔ Between 0 1 p := by
  unfold finiteUnit Between
  cases p with
  | finite q => simp [F64.isFinite, F64.within, F64.le]
  | infinite negative => simp [F64.isFinite]
  | nan => simp [F64.isFinite]

theorem score_iff {p : F64} : (p.isFinite = true ∧ p.within 0 2 = true) ↔ Between 0 2 p := by
  unfold Between
  cases p with
  | finite q => simp [F64.isFinite, F64.within, F64.le]
  | infinite negative => simp [F64.isFinite]
  | nan => simp [F64.isFinite]

theorem qosScan_iff {items : List ProfileProbability} {seen : List Int} {total t : ℚ}
    {best : ℕ × Option ℚ} {b : ℕ} :
    qosScan items seen total best = .ok (t, b) ↔
      (∀ i ∈ items, 0 ≤ i.profile ∧ i.profile < 5) ∧ (∀ i ∈ items, i.profile ∉ seen) ∧
      (items.map (·.profile)).Nodup ∧ (∀ i ∈ items, finiteUnit i.probability = true) ∧
      t = total + (items.map (·.probability.toRat)).sum ∧
      b = ((items.map fun i => (i.profile.toNat, i.probability.toRat)).foldl better best).1 := by
  induction items generalizing seen total best with
  | nil =>
      rw [qosScan, Except.ok.injEq, Prod.mk.injEq]
      constructor
      · rintro ⟨rfl, rfl⟩
        simp
      · rintro ⟨-, -, -, -, rfl, rfl⟩
        simp
  | cons item rest ih =>
      rw [qosScan, List.forall_mem_cons, List.forall_mem_cons, List.forall_mem_cons]
      by_cases hdomain : 0 ≤ item.profile ∧ item.profile < 5
      · by_cases hseen : item.profile ∈ seen
        · rw [if_neg (not_not.mpr hdomain), if_pos hseen]
          exact iff_of_false (fun h => by cases h) fun h => h.2.1.1 hseen
        · cases hunit : finiteUnit item.probability with
          | false =>
              rw [if_neg (not_not.mpr hdomain), if_neg hseen, Bool.not_false, if_pos rfl]
              exact iff_of_false (fun h => by cases h) fun h => Bool.false_ne_true h.2.2.2.1.1
          | true =>
              rw [if_neg (not_not.mpr hdomain), if_neg hseen, if_neg (by simp), ih]
              simp only [List.map_cons, List.nodup_cons, List.mem_cons, not_or, List.sum_cons,
                List.foldl_cons, better, add_assoc]
              constructor
              · rintro ⟨hdom, hnew, hnodup, hunits, ht, hb⟩
                refine ⟨⟨hdomain, hdom⟩, ⟨hseen, fun i hi => (hnew i hi).2⟩, ⟨?_, hnodup⟩,
                  ⟨trivial, hunits⟩, ht, hb⟩
                intro hmem
                obtain ⟨i, hi, heq⟩ := List.mem_map.mp hmem
                exact (hnew i hi).1 heq
              · rintro ⟨⟨-, hdom⟩, ⟨-, hnew⟩, ⟨hnot, hnodup⟩, ⟨-, hunits⟩, ht, hb⟩
                refine ⟨hdom, fun i hi => ⟨fun heq => hnot ?_, hnew i hi⟩, hnodup, hunits, ht, hb⟩
                exact List.mem_map.mpr ⟨i, hi, heq⟩
      · rw [if_pos hdomain]
        exact iff_of_false (fun h => by cases h) fun h => hdomain h.1.1

theorem priorityScan_iff {items : List F64} {total t : ℚ} :
    priorityScan items total = .ok t ↔
      (∀ p ∈ items, finiteUnit p = true) ∧ t = total + (items.map (·.toRat)).sum := by
  induction items generalizing total with
  | nil =>
      rw [priorityScan, Except.ok.injEq]
      constructor
      · rintro rfl
        simp
      · rintro ⟨-, rfl⟩
        simp
  | cons p rest ih =>
      rw [priorityScan, List.forall_mem_cons]
      cases hunit : finiteUnit p with
      | false => exact iff_of_false (fun h => by cases h) fun h => Bool.false_ne_true h.1.1
      | true =>
          rw [if_neg (by simp), ih]
          simp [add_assoc]

theorem capabilityScan_iff {threshold : F64} {items : List CapabilityProbability}
    {required r : List String} :
    capabilityScan threshold items required = .ok r ↔
      (∀ c ∈ items, finiteUnit c.probability = true ∧ finiteUnit c.answerConfidence = true) ∧
      r = required ++
        (items.filter fun c => threshold.le c.probability).map (·.capabilityId.val) := by
  induction items generalizing required with
  | nil =>
      rw [capabilityScan, Except.ok.injEq]
      constructor
      · rintro rfl
        simp
      · rintro ⟨-, rfl⟩
        simp
  | cons c rest ih =>
      rw [capabilityScan, List.forall_mem_cons]
      by_cases hunit : finiteUnit c.probability = true ∧ finiteUnit c.answerConfidence = true
      · rw [if_neg (by simp [hunit]), ih]
        cases hle : threshold.le c.probability with
        | false => simp [hunit, hle]
        | true => simp [hunit, hle]
      · rw [if_pos (by simpa using not_and_or.mp hunit)]
        exact iff_of_false (fun h => by cases h) fun h => hunit h.1.1

theorem capabilityScan_of_units {threshold : F64} {items : List CapabilityProbability}
    (required : List String)
    (h : ∀ c ∈ items, finiteUnit c.probability = true ∧ finiteUnit c.answerConfidence = true) :
    capabilityScan threshold items required = .ok (required ++
      (items.filter fun c => threshold.le c.probability).map (·.capabilityId.val)) :=
  capabilityScan_iff.mpr ⟨h, rfl⟩

theorem duplicates_eq_nil {labels : List String} :
    Catalog.duplicates labels = [] ↔ labels.Nodup := by
  have key : ∀ (labels seen dups : List String),
      (labels.foldl (fun acc l =>
        if l ∈ acc.1 then (acc.1, acc.2 ++ [l]) else (l :: acc.1, acc.2)) (seen, dups)).2 = [] ↔
        dups = [] ∧ labels.Nodup ∧ ∀ l ∈ labels, l ∉ seen := by
    intro labels
    induction labels with
    | nil => simp
    | cons l rest ih =>
        intro seen dups
        rw [List.foldl_cons, List.forall_mem_cons, List.nodup_cons]
        dsimp only
        split_ifs with hl
        · rw [ih]
          exact iff_of_false (fun h => by simp at h) fun h => h.2.2.1 hl
        · rw [ih]
          simp only [List.mem_cons, not_or]
          constructor
          · rintro ⟨hdups, hnodup, hnew⟩
            exact ⟨hdups, ⟨fun hmem => (hnew l hmem).1 rfl, hnodup⟩, hl, fun k hk => (hnew k hk).2⟩
          · rintro ⟨hdups, ⟨hnot, hnodup⟩, -, hnew⟩
            exact ⟨hdups, hnodup, fun k hk => ⟨fun heq => hnot (heq ▸ hk), hnew k hk⟩⟩
  exact (key labels [] []).trans (by simp)

/-! ### An accepted decision -/

/-- The capabilities with at least the probability of the policy. -/
def requiredCapabilities (policy : DecisionPolicy) (items : List CapabilityProbability) :
    List String :=
  (items.filter fun c => policy.capabilityThreshold.le c.probability).map (·.capabilityId.val)

/-- The decision is below the threshold of confidence. -/
def belowThreshold (decision : RoutingDecision) (policy : DecisionPolicy) : Bool :=
  policy.confidenceThreshold.any (decision.confidence.lt ·)

def chosenPriority (decision : RoutingDecision) : Int :=
  [1, 5, 10].getD (bestPriority decision.priorityProbabilities.items 0 (0, .infinite true)) 1

/-- The verdict on a decision that is consistent. -/
def acceptance (decision : RoutingDecision) (policy : DecisionPolicy) : Verdict :=
  .accept (requiredCapabilities policy decision.capabilityProbabilities.items)
    decision.qosProfile (chosenPriority decision) (shadowOnly decision policy)
    (belowThreshold decision policy)

variable {decision : RoutingDecision} {intent : WorkflowIntent} {policy : DecisionPolicy}
  {now : Option UInt64}

/-- The verdict accepts. -/
def Verdict.Accepts (v : Verdict) : Prop :=
  ∃ required profile priority shadow below, v = .accept required profile priority shadow below

theorem capabilities_range_iff :
    (∀ c ∈ decision.capabilityProbabilities.items,
      finiteUnit c.probability = true ∧ finiteUnit c.answerConfidence = true) ↔
    ∀ c ∈ decision.capabilityProbabilities.items,
      Between 0 1 c.probability ∧ Between 0 1 c.answerConfidence := by
  simp only [finiteUnit_iff]

theorem gate_iff :
    (belowThreshold decision policy && policy.enforceConfidence) = false ↔
      (policy.enforceConfidence = true →
        ∀ t, policy.confidenceThreshold = some t → decision.confidence.lt t = false) := by
  unfold belowThreshold
  cases policy.enforceConfidence <;> cases policy.confidenceThreshold <;> simp

/-- The capability checks and the gate. -/
def CapabilitiesPass (decision : RoutingDecision) (policy : DecisionPolicy) : Prop :=
  CapabilityContract decision ∧ (policy.enforceConfidence = true →
    ∀ t, policy.confidenceThreshold = some t → decision.confidence.lt t = false)

theorem labels_known_iff :
    catalogV1.unknown (decision.capabilityProbabilities.items.map (·.capabilityId.val)) = [] ↔
      ∀ c ∈ decision.capabilityProbabilities.items, c.capabilityId.val ∈ catalogV1.labels :=
  Catalog.unknown_eq_nil.trans List.forall_mem_map

theorem validateCapabilities_of_passes (h : CapabilitiesPass decision policy) :
    validateCapabilities decision policy = acceptance decision policy := by
  obtain ⟨hcaps, hgate⟩ := h
  have hscan : capabilityScan policy.capabilityThreshold
      decision.capabilityProbabilities.items [] =
        .ok (requiredCapabilities policy decision.capabilityProbabilities.items) :=
    capabilityScan_of_units [] (capabilities_range_iff.mpr hcaps.range)
  unfold validateCapabilities
  dsimp only
  rw [if_neg (not_not.mpr (labels_known_iff.mpr hcaps.known)),
    if_neg (not_not.mpr (duplicates_eq_nil.mpr hcaps.once)), hscan]
  dsimp only
  rw [if_neg (by rw [← belowThreshold, gate_iff.mpr hgate]; exact Bool.false_ne_true)]
  rfl

theorem passes_of_validateCapabilities {required : List String} {profile priority : Int}
    {shadow below : Bool}
    (h : validateCapabilities decision policy = .accept required profile priority shadow below) :
    CapabilitiesPass decision policy := by
  unfold validateCapabilities at h
  dsimp only at h
  obtain ⟨hknown, h⟩ := accept_of_check h
  obtain ⟨honce, h⟩ := accept_of_check h
  split at h
  · cases h
  next required hscan =>
  obtain ⟨hgate, -⟩ := accept_of_check h
  refine ⟨⟨labels_known_iff.mp (not_not.mp hknown), duplicates_eq_nil.mp (not_not.mp honce),
    ?_⟩, ?_⟩
  · exact capabilities_range_iff.mp (capabilityScan_iff.mp hscan).1
  · exact gate_iff.mp (Bool.eq_false_of_not_eq_true hgate)

/-- The label is the scan's best exactly if it is the first of the most probable. -/
theorem label_iff {items : List ProfileProbability} {label : Int} (hlabel : 0 ≤ label)
    (hdomain : ∀ i ∈ items, 0 ≤ i.profile ∧ i.profile < 5) (hne : items ≠ []) :
    label.toNat = ((items.map fun i => (i.profile.toNat, i.probability.toRat)).foldl better
        (0, none)).1 ↔
      IsFirstMax (items.map fun i => (i.profile, i.probability.toRat)) label := by
  have hnames : (items.map fun i => (i.profile.toNat, i.probability.toRat)) =
      (items.map fun i => (i.profile, i.probability.toRat)).map fun e => (e.1.toNat, e.2) := by
    simp
  have hinj : ∀ e ∈ items.map fun i => (i.profile, i.probability.toRat),
      e.1.toNat = label.toNat → e.1 = label := by
    intro e he heq
    obtain ⟨i, hi, rfl⟩ := List.mem_map.mp he
    have hnonneg := (hdomain i hi).1
    dsimp only at heq ⊢
    omega
  rw [hnames, ← isFirstMax_map (f := Int.toNat) hinj, eq_comm]
  exact (isFirstMax_iff_scan (by simpa using hne) 0 label.toNat).symm

theorem QosContract.items_ne (h : QosContract decision) :
    decision.qosProbabilities.items ≠ [] := by
  intro hnil
  have hsum := h.sum
  simp only [hnil, List.map_nil, List.sum_nil, zero_sub, abs_neg, abs_one] at hsum
  norm_num at hsum

theorem QosContract.label_range (h : QosContract decision) :
    0 ≤ decision.qosProfile ∧ decision.qosProfile < 5 := by
  obtain ⟨before, p, after, heq, -⟩ := h.label
  have hmem : (decision.qosProfile, p) ∈
      decision.qosProbabilities.items.map fun i => (i.profile, i.probability.toRat) := by
    rw [heq]
    exact List.mem_append_right _ (List.mem_cons_self ..)
  obtain ⟨i, hi, heq⟩ := List.mem_map.mp hmem
  rw [← (Prod.mk.inj heq).1]
  exact h.domain i hi

/-- The distributions, the confidences and what follows them. -/
def PredictionPasses (decision : RoutingDecision) (policy : DecisionPolicy) : Prop :=
  QosContract decision ∧ PriorityContract decision ∧
    (Between 0 1 decision.requiresPlanningProbability ∧
      Between 0 1 decision.confidence ∧ Between 0 1 decision.answerConfidence) ∧
    CapabilitiesPass decision policy

theorem confidences_iff :
    (!finiteUnit decision.requiresPlanningProbability || !finiteUnit decision.confidence ||
      !finiteUnit decision.answerConfidence) = false ↔
    Between 0 1 decision.requiresPlanningProbability ∧
      Between 0 1 decision.confidence ∧ Between 0 1 decision.answerConfidence := by
  simp only [← finiteUnit_iff, Bool.or_eq_false_iff, Bool.not_eq_false', and_assoc]

theorem validatePrediction_of_passes (h : PredictionPasses decision policy) :
    validatePrediction decision policy = acceptance decision policy := by
  obtain ⟨hqos, hpriority, hconfidences, hcaps⟩ := h
  have hne := hqos.items_ne
  have hrange := hqos.label_range
  have hscan : qosScan decision.qosProbabilities.items [] 0 (0, none) =
      .ok ((decision.qosProbabilities.items.map (·.probability.toRat)).sum,
        decision.qosProfile.toNat) := by
    refine qosScan_iff.mpr ⟨hqos.domain, by simp, hqos.once, fun i hi =>
      finiteUnit_iff.mpr (hqos.range i hi), (zero_add _).symm, ?_⟩
    exact (label_iff hrange.1 hqos.domain hne).mpr hqos.label
  have hprio : priorityScan decision.priorityProbabilities.items 0 =
      .ok (decision.priorityProbabilities.items.map (·.toRat)).sum :=
    priorityScan_iff.mpr ⟨fun p hp => finiteUnit_iff.mpr (hpriority.range p hp),
      (zero_add _).symm⟩
  have hscore := score_iff.mpr hpriority.score
  have hlength : decision.qosProbabilities.items.length ≠ 0 := by simpa using hne
  have hsum : |(decision.qosProbabilities.items.map (·.probability.toRat)).sum - 1| ≤
    sumTolerance := hqos.sum
  have hprioSum : |(decision.priorityProbabilities.items.map (·.toRat)).sum - 1| ≤
    sumTolerance := hpriority.sum
  unfold validatePrediction
  dsimp only
  rw [hscan]
  dsimp only
  rw [if_neg (not_or.mpr ⟨hlength, not_lt.mpr hsum⟩), if_neg (by omega),
    if_neg (not_not.mpr rfl), if_neg (by simp [hscore.1, hscore.2]),
    if_neg (not_not.mpr hpriority.count), hprio]
  dsimp only
  rw [if_neg (not_lt.mpr hprioSum),
    if_neg (by rw [confidences_iff.mpr hconfidences]; exact Bool.false_ne_true)]
  exact validateCapabilities_of_passes hcaps

theorem passes_of_validatePrediction {required : List String} {profile priority : Int}
    {shadow below : Bool}
    (h : validatePrediction decision policy = .accept required profile priority shadow below) :
    PredictionPasses decision policy := by
  unfold validatePrediction at h
  dsimp only at h
  split at h
  · cases h
  next total best hscan =>
  obtain ⟨hsum, h⟩ := accept_of_check h
  obtain ⟨hrange, h⟩ := accept_of_check h
  obtain ⟨hlabel, h⟩ := accept_of_check h
  obtain ⟨hscore, h⟩ := accept_of_check h
  obtain ⟨hcount, h⟩ := accept_of_check h
  split at h
  · cases h
  next prioTotal hprio =>
  obtain ⟨hprioSum, h⟩ := accept_of_check h
  obtain ⟨hconfidences, h⟩ := accept_of_check h
  obtain ⟨hdomain, -, honce, hunits, htotal, hbest⟩ := qosScan_iff.mp hscan
  obtain ⟨hprioUnits, hprioTotal⟩ := priorityScan_iff.mp hprio
  obtain ⟨hlength, hsum⟩ := not_or.mp hsum
  have hne : decision.qosProbabilities.items ≠ [] := by simpa using hlength
  have hlabel := (not_not.mp hlabel).trans hbest
  rw [zero_add] at htotal hprioTotal
  refine ⟨⟨hdomain, honce, fun i hi => finiteUnit_iff.mp (hunits i hi), ?_, ?_⟩,
    ⟨score_iff.mp (by simpa using hscore), not_not.mp hcount,
      fun p hp => finiteUnit_iff.mp (hprioUnits p hp), ?_⟩,
    confidences_iff.mp (Bool.eq_false_of_not_eq_true hconfidences),
    passes_of_validateCapabilities h⟩
  · rw [← htotal]
    exact not_lt.mp hsum
  · exact (label_iff (by omega) hdomain hne).mp hlabel
  · rw [← hprioTotal]
    exact not_lt.mp hprioSum

/-! ### The revisions and the times -/

theorem window_iff :
    ¬ windowViolated decision intent policy.skewToleranceNs ↔
      decision.validUntilNs.toNat ≤ intent.deadlineNs.toNat + policy.skewToleranceNs.toNat ∧
        decision.createdAtNs ≤ decision.validUntilNs := by
  have hlt := decision.validUntilNs.toNat_lt
  rw [windowViolated, not_or, not_lt, UInt64.not_lt, satAdd]
  refine and_congr_left fun _ => ?_
  -- The sum that is cut off is past every time.
  omega

theorem expired_iff :
    now.any (fun t => decide (expired decision policy t)) = false ↔
      ∀ t, now = some t →
        t.toNat ≤ decision.validUntilNs.toNat + policy.skewToleranceNs.toNat := by
  cases now with
  | none => simp
  | some t =>
      rw [Option.any_some, decide_eq_false_iff_not, expired, not_lt, Nat.sub_le_iff_le_add]
      exact ⟨fun h s hs => by rwa [← Option.some.inj hs], fun h => h t rfl⟩

theorem Consistent.passes (h : Consistent decision intent policy now) :
    PredictionPasses decision policy :=
  ⟨h.qos, h.priority, h.confidences, h.capabilities, h.gate⟩

theorem validate_of_consistent (h : Consistent decision intent policy now) :
    validate decision intent policy now = acceptance decision policy := by
  have hanswers := h.answers
  unfold validate
  rw [if_neg (by simp [hanswers.schema]), if_neg (not_not.mpr hanswers.correlation),
    if_neg (not_not.mpr hanswers.revisions), if_neg (not_not.mpr hanswers.checkpoint),
    if_neg (window_iff.mpr ⟨hanswers.notTooLong, hanswers.window⟩),
    if_neg (by rw [expired_iff.mpr hanswers.notExpired]; exact Bool.false_ne_true),
    if_pos hanswers.status, if_neg (not_not.mpr hanswers.reason)]
  exact validatePrediction_of_passes h.passes

theorem consistent_of_validate {required : List String} {profile priority : Int}
    {shadow below : Bool}
    (h : validate decision intent policy now = .accept required profile priority shadow below) :
    Consistent decision intent policy now := by
  unfold validate at h
  obtain ⟨hschema, h⟩ := accept_of_check h
  obtain ⟨hcorrelation, h⟩ := accept_of_check h
  obtain ⟨hrevisions, h⟩ := accept_of_check h
  obtain ⟨hcheckpoint, h⟩ := accept_of_check h
  obtain ⟨hwindow, h⟩ := accept_of_check h
  obtain ⟨hexpired, h⟩ := accept_of_check h
  by_cases hstatus : decision.decisionStatus = 0
  · rw [if_pos hstatus] at h
    obtain ⟨hreason, h⟩ := accept_of_check h
    obtain ⟨hqos, hpriority, hconfidences, hcapabilities, hgate⟩ := passes_of_validatePrediction h
    obtain ⟨htooLong, hordered⟩ := window_iff.mp hwindow
    have hexpired := expired_iff.mp (Bool.eq_false_of_not_eq_true hexpired)
    obtain ⟨hintent, hdecision⟩ := not_or.mp hschema
    exact ⟨⟨⟨not_not.mp hintent, not_not.mp hdecision⟩, not_not.mp hcorrelation,
      not_not.mp hrevisions, not_not.mp hcheckpoint, htooLong, hordered, hexpired, hstatus,
      not_not.mp hreason⟩, hqos, hpriority, hconfidences, hcapabilities, hgate⟩
  · rw [if_neg hstatus] at h
    obtain ⟨-, h⟩ := accept_of_check h
    cases h

theorem accepts_iff :
    (validate decision intent policy now).Accepts ↔ Consistent decision intent policy now := by
  constructor
  · rintro ⟨required, profile, priority, shadow, below, h⟩
    exact consistent_of_validate h
  · intro h
    rw [validate_of_consistent h]
    exact ⟨_, _, _, _, _, rfl⟩

/-! ### What is derived -/

theorem mem_requiredCapabilities {items : List CapabilityProbability} {label : String} :
    label ∈ requiredCapabilities policy items ↔
      ∃ c ∈ items, c.capabilityId.val = label ∧
        policy.capabilityThreshold.le c.probability = true := by
  rw [requiredCapabilities, List.mem_map]
  constructor
  · rintro ⟨c, hc, hlabel⟩
    obtain ⟨hc, hle⟩ := List.mem_filter.mp hc
    exact ⟨c, hc, hlabel, hle⟩
  · rintro ⟨c, hc, hlabel, hle⟩
    exact ⟨c, List.mem_filter.mpr ⟨hc, hle⟩, hlabel⟩

/-- The scan's best as a double. -/
def bestProbability : Option ℚ → F64
  | none => .infinite true
  | some q => .finite q

theorem bestProbability_lt {best : Option ℚ} {q : ℚ} :
    (bestProbability best).lt (.finite q) = best.all (· < q) := by
  cases best with
  | none => rfl
  | some b => rfl

theorem bestPriority_eq {items : List F64} (h : ∀ p ∈ items, Between 0 1 p) (i : ℕ)
    (best : ℕ × Option ℚ) :
    bestPriority items i (best.1, bestProbability best.2) =
      (((items.zipIdx i).map fun e => (e.2, e.1.toRat)).foldl better best).1 := by
  induction items generalizing i best with
  | nil => rfl
  | cons p rest ih =>
      obtain ⟨⟨q, rfl, -⟩, hrest⟩ := List.forall_mem_cons.mp h
      rw [bestPriority, bestProbability_lt, List.zipIdx_cons, List.map_cons, List.foldl_cons,
        better, F64.toRat]
      split_ifs with hlt
      · exact ih hrest (i + 1) (i, some q)
      · exact ih hrest (i + 1) best

/-- The lowest of the priorities that are most probable. -/
theorem chosenPriority_first (h : PriorityContract decision) :
    IsFirstMax (([1, 5, 10] : List Int).zip
      (decision.priorityProbabilities.items.map (·.toRat))) (chosenPriority decision) := by
  obtain ⟨a, b, c, hitems⟩ := List.length_eq_three.mp h.count
  have hscan := bestPriority_eq h.range 0 (0, none)
  have hfirst := (isFirstMax_iff_scan (l := (decision.priorityProbabilities.items.zipIdx 0).map
    fun e => (e.2, e.1.toRat)) (by simp [hitems]) 0 _).mpr hscan.symm
  rw [chosenPriority]
  change IsFirstMax _ (bestPriority decision.priorityProbabilities.items 0 (0, .infinite true))
    at hfirst
  generalize bestPriority decision.priorityProbabilities.items 0 (0, .infinite true) = best
    at hfirst ⊢
  rw [hitems] at hfirst ⊢
  have hmem : best ∈ [0, 1, 2] := by
    obtain ⟨before, p, after, heq, -⟩ := hfirst
    have hmem : (best, p) ∈ [(0, a.toRat), (1, b.toRat), (2, c.toRat)] := by
      change [(0, a.toRat), (1, b.toRat), (2, c.toRat)] = _ at heq
      rw [heq]
      exact List.mem_append_right _ (List.mem_cons_self ..)
    exact List.mem_map_of_mem (f := Prod.fst) hmem
  refine (isFirstMax_map (f := fun i => ([1, 5, 10] : List Int).getD i 1) ?_).mpr hfirst
  simp only [List.mem_cons, List.not_mem_nil, or_false] at hmem
  rcases hmem with rfl | rfl | rfl <;> simp

/-- Accepted exactly if the contract is kept, and then with the capabilities and the priority
that the distributions ask for. -/
def MeetsContract (decision : RoutingDecision) (intent : WorkflowIntent)
    (policy : DecisionPolicy) (now : Option UInt64) : Prop :=
  ((validate decision intent policy now).Accepts ↔ DecisionContract decision intent policy now) ∧
    ∀ required profile priority shadow below,
      validate decision intent policy now = .accept required profile priority shadow below →
        (∀ label, label ∈ required ↔ ∃ c ∈ decision.capabilityProbabilities.items,
          c.capabilityId.val = label ∧ policy.capabilityThreshold.le c.probability = true) ∧
        IsFirstMax (([1, 5, 10] : List Int).zip
          (decision.priorityProbabilities.items.map (·.toRat))) priority

/-- The contract is met exactly where the distribution is complete or the decision is refused
for something else. -/
theorem meetsContract_iff (decision : RoutingDecision) (intent : WorkflowIntent)
    (policy : DecisionPolicy) (now : Option UInt64) :
    MeetsContract decision intent policy now ↔
      CoversProfiles decision ∨ ¬ Consistent decision intent policy now := by
  constructor
  · rintro ⟨hiff, -⟩
    by_cases hconsistent : Consistent decision intent policy now
    · exact .inl (hiff.mp (accepts_iff.mpr hconsistent)).complete
    · exact .inr hconsistent
  · intro h
    refine ⟨⟨fun haccepts => ?_, fun hcontract => accepts_iff.mpr hcontract.toConsistent⟩, ?_⟩
    · have hconsistent := accepts_iff.mp haccepts
      exact ⟨hconsistent, h.resolve_right (not_not.mpr hconsistent)⟩
    · intro required profile priority shadow below haccept
      have hconsistent := accepts_iff.mp ⟨_, _, _, _, _, haccept⟩
      rw [validate_of_consistent hconsistent] at haccept
      cases haccept
      exact ⟨fun label => mem_requiredCapabilities, chosenPriority_first hconsistent.priority⟩

/-- A decision that lists one profile alone is accepted. -/
theorem partial_distribution_accepted :
    (validate Deployment.decision Deployment.intent Deployment.config.decisionPolicy
        (some 10)).Accepts ∧
      ¬ DecisionContract Deployment.decision Deployment.intent
        Deployment.config.decisionPolicy (some 10) ∧
      ¬ MeetsContract Deployment.decision Deployment.intent Deployment.config.decisionPolicy
        (some 10) := by
  have haccepts : (validate Deployment.decision Deployment.intent
      Deployment.config.decisionPolicy (some 10)).Accepts :=
    ⟨[], 4, 1, false, false, by decide +kernel⟩
  have hcontract : ¬ DecisionContract Deployment.decision Deployment.intent
      Deployment.config.decisionPolicy (some 10) := by
    intro h
    have hmem := h.complete 0 (by decide) (by decide)
    revert hmem
    decide
  exact ⟨haccepts, hcontract, fun h => hcontract (h.1.mp haccepts)⟩

end DdsOrchestrator.WorkflowEngine
