import Mathlib.Algebra.Field.Rat
import Mathlib.Algebra.Order.BigOperators.Group.List
import Mathlib.Tactic.NormNum
import DdsOrchestrator.LayaWorker.Errors
import DdsOrchestrator.WorkflowEngine.DecisionContract

/-!
What the validator makes of the predictions of the worker. The worker and the validator check
the same things of the distributions, and agree. But the validator also wants the profile to
be the most probable one, the first of them where several are, and the worker passes on
whatever profile the model has named.
-/

namespace DdsOrchestrator.LayaWorker

open WorkflowEngine (F64 DdsString DdsBoundedSequence ProfileProbability CapabilityProbability
  WorkflowIntent RoutingDecision DecisionPolicy Verdict Catalog catalogV1 validate
  validatePrediction validateCapabilities qosScan qosScan_iff priorityScan priorityScan_iff
  capabilityScan_of_units checkpointPinned finiteUnit sumTolerance)

/-! ### The loops of the validator -/

def scanEntry (item : ProfileProbability) : ℕ × ℚ := (item.profile.toNat, item.probability.toRat)

theorem qosScan_eq {items : List ProfileProbability} {seen : List Int} {tot : ℚ}
    {best : ℕ × Option ℚ} (hdomain : ∀ i ∈ items, 0 ≤ i.profile ∧ i.profile < 5)
    (hseen : ∀ i ∈ items, i.profile ∉ seen) (hnodup : (items.map (·.profile)).Nodup)
    (hunit : ∀ i ∈ items, finiteUnit i.probability = true) :
    qosScan items seen tot best =
      .ok (tot + (items.map (·.probability.toRat)).sum,
        ((items.map scanEntry).foldl better best).1) := by
  exact qosScan_iff.mpr ⟨hdomain, hseen, hnodup, hunit, rfl, rfl⟩

theorem priorityScan_eq {l : List F64} {tot : ℚ} (h : ∀ p ∈ l, finiteUnit p = true) :
    priorityScan l tot = .ok (tot + total l) := by
  exact priorityScan_iff.mpr ⟨h, rfl⟩

/-! ### The answer that holds together -/

theorem sum_filter_of_zero {f : String → ℚ} {p : String → Bool} {l : List String}
    (h : ∀ k ∈ l, p k = false → f k = 0) : ((l.filter p).map f).sum = (l.map f).sum := by
  induction l with
  | nil => rfl
  | cons k l ih =>
    have hl := ih fun d hd => h d (List.mem_cons_of_mem _ hd)
    cases hk : p k with
    | true => simp [hk, hl]
    | false => simp [hk, hl, h k List.mem_cons_self hk]

/-- A dictionary summed over a list of names that has all its keys. -/
theorem sum_lookup {names : List String} (hnames : names.Nodup) {m : Map String F64}
    (hkeys : ∀ k ∈ m.keys, k ∈ names) :
    (names.map fun k => ((m.lookup k).getD (.finite 0)).toRat).sum = total (dictValues m) := by
  have hvalue : ∀ e ∈ m.entries, ((m.lookup e.1).getD (.finite 0)).toRat = e.2.toRat := by
    rintro ⟨k, v⟩ he
    rw [Map.mem_entries.mp he, Option.getD_some]
  have hperm : (names.filter (· ∈ m.keys)).Perm m.keys := by
    apply (List.perm_ext_iff_of_nodup (hnames.filter _) m.nodupKeys).mpr
    intro k
    rw [List.mem_filter, decide_eq_true_iff]
    exact ⟨And.right, fun hk => ⟨hkeys k hk, hk⟩⟩
  -- A name that the answer leaves out adds nothing.
  have hrest : ∀ k ∈ names, decide (k ∈ m.keys) = false →
      ((m.lookup k).getD (.finite 0)).toRat = 0 := by
    intro k _ hk
    have hnone : k ∉ m := by
      rw [AList.mem_keys]
      exact of_decide_eq_false hk
    rw [AList.lookup_eq_none.mpr hnone, Option.getD_none]
    rfl
  calc (names.map fun k => ((m.lookup k).getD (.finite 0)).toRat).sum
      = ((names.filter (· ∈ m.keys)).map fun k => ((m.lookup k).getD (.finite 0)).toRat).sum :=
        (sum_filter_of_zero hrest).symm
    _ = (m.keys.map fun k => ((m.lookup k).getD (.finite 0)).toRat).sum :=
        (hperm.map _).sum_eq
    _ = total (dictValues m) := by
        rw [total, dictValues, AList.keys, List.keys, List.map_map, List.map_map]
        exact congrArg List.sum (List.map_congr_left hvalue)

/-- What the check of the worker has found. -/
structure Consistent (a : LayaAnswer) : Prop where
  label : a.qosProfile ∈ qosProfiles
  profiles : ∀ p ∈ a.qosProbabilities.keys, p ∈ qosProfiles
  profileUnits : ∀ p ∈ dictValues a.qosProbabilities, finiteUnit p = true
  profileSum : |total (dictValues a.qosProbabilities) - 1| ≤ sumTolerance
  planning : finiteUnit a.needsPlanningProbability = true
  capabilityUnits : ∀ p ∈ dictValues a.capabilityProbabilities, finiteUnit p = true
  confidenceUnits : ∀ p ∈ dictValues a.capabilityAnswerConfidences, finiteUnit p = true
  urgency : a.urgencyExpected.within 0 2 = true
  priorityLength : a.priorityProbabilities.length = 3
  priorityUnits : ∀ p ∈ a.priorityProbabilities, finiteUnit p = true
  prioritySum : |total a.priorityProbabilities - 1| ≤ sumTolerance
  confidence : finiteUnit a.confidence = true
  answerConfidence : finiteUnit a.answerConfidence = true

theorem of_check {c : Prop} [Decidable c] {b : Bool} (h : (if c then false else b) = true) :
    ¬ c ∧ b = true := by
  split at h
  · cases h
  · next hc => exact ⟨hc, h⟩

theorem consistent_of {a : LayaAnswer} (h : answerIsSelfConsistent a = true) : Consistent a := by
  obtain ⟨hlabel, h⟩ := of_check h
  obtain ⟨-, h⟩ := of_check h
  obtain ⟨hprofiles, h⟩ := of_check h
  obtain ⟨-, h⟩ := of_check h
  obtain ⟨hunits, h⟩ := of_check h
  obtain ⟨hsum, h⟩ := of_check h
  obtain ⟨hplanning, h⟩ := of_check h
  obtain ⟨hcapabilities, h⟩ := of_check h
  obtain ⟨hconfidences, h⟩ := of_check h
  obtain ⟨hscores, h⟩ := of_check h
  obtain ⟨hpriority, h⟩ := of_check h
  obtain ⟨hprioritySum, h⟩ := of_check h
  obtain ⟨hconfidence, -⟩ := of_check h
  constructor
  · simpa using hlabel
  · simpa using hprofiles
  · simpa using hunits
  · exact not_lt.mp hsum
  · simpa using hplanning
  · simpa using hcapabilities
  · simpa using hconfidences
  · simp only [Bool.or_eq_true, Bool.not_eq_true', not_or, Bool.not_eq_false] at hscores
    exact hscores.2
  · exact not_not.mp (not_or.mp hpriority).1
  · simpa using (not_or.mp hpriority).2
  · exact not_lt.mp hprioritySum
  · simp only [Bool.or_eq_true, Bool.not_eq_true', not_or, Bool.not_eq_false] at hconfidence
    exact hconfidence.1
  · simp only [Bool.or_eq_true, Bool.not_eq_true', not_or, Bool.not_eq_false] at hconfidence
    exact hconfidence.2

/-! ### Predictions on the wire -/

theorem fromVec_of_le {α : Type} {n : ℕ} {items : List α} (h : items.length ≤ n) :
    DdsBoundedSequence.fromVec items = some ⟨items, h⟩ := dif_pos h

/-- The five profiles with their ordinals. -/
def wireProfiles (f : String → F64) : List ProfileProbability :=
  [⟨0, f "QI_BALANCED"⟩, ⟨1, f "QI_CRITICAL"⟩, ⟨2, f "QI_STREAM_LIKE"⟩, ⟨3, f "QI_LOW_COST"⟩,
    ⟨4, f "QI_FAILOVER"⟩]

theorem mapM_wireProfile (f : String → F64) :
    (qosProfiles.map fun p => (p, f p)).mapM wireProfile = some (wireProfiles f) := rfl

theorem mapM_wireCapability {l : List (String × F64 × F64)} (h : ∀ e ∈ l, '\x00' ∉ e.1.toList) :
    ∃ items, l.mapM wireCapability = some items ∧
      items.map (fun c => (c.capabilityId.val, c.probability, c.answerConfidence)) = l := by
  induction l with
  | nil => exact ⟨[], rfl, rfl⟩
  | cons e l ih =>
    obtain ⟨items, hitems, hmap⟩ := ih fun d hd => h d (List.mem_cons_of_mem _ hd)
    have he : wireCapability e = some ⟨⟨e.1, h e List.mem_cons_self⟩, e.2.1, e.2.2⟩ := by
      simp [wireCapability, DdsString.ofString?, h e List.mem_cons_self]
    refine ⟨⟨⟨e.1, h e List.mem_cons_self⟩, e.2.1, e.2.2⟩ :: items, ?_, ?_⟩
    · simp [List.mapM_cons, he, hitems]
    · simp [hmap]

theorem capability_names : ∀ c ∈ capabilityCatalog, '\x00' ∉ c.toList := by decide

theorem known_names (a : LayaAnswer) :
    ∀ e ∈ capabilityCatalog.map (knownCapability a), '\x00' ∉ e.1.toList := by
  intro e he
  obtain ⟨c, hc, rfl⟩ := List.mem_map.mp he
  exact capability_names c hc

theorem profile_ordinals : ∀ p ∈ qosProfiles, p ≠ "" ∧ (qosProfiles.idxOf? p).isSome := by decide

variable {a : LayaAnswer} {intent : WorkflowIntent} {wire : RoutingDecision}
  {policy : DecisionPolicy}

theorem exists_wire (h : Consistent a) (w : Worker) (intent : WorkflowIntent)
    (createdNs : UInt64) :
    ∃ wire, decisionToWire (w.finish (okDecision intent a createdNs w.ttlNs w.producerId)) =
      some wire := by
  obtain ⟨hne, hsome⟩ := profile_ordinals a.qosProfile h.label
  obtain ⟨i, hi⟩ := Option.isSome_iff_exists.mp hsome
  have hordinal : profileOrdinal (some a.qosProfile) = some i := by
    rw [profileOrdinal, if_neg hne, hi]
  obtain ⟨items, hitems, hmap⟩ := mapM_wireCapability (known_names a)
  have hlength : items.length ≤ 16 := by
    have hcount := congrArg List.length hmap
    simp only [List.length_map] at hcount
    rw [hcount]
    decide
  simp only [decisionToWire, Worker.finish, okDecision, hordinal, mapM_wireProfile, hitems,
    Option.bind_eq_bind, Option.bind_some]
  have hprofiles : (wireProfiles (profileProbability a)).length ≤ 5 := by simp [wireProfiles]
  rw [fromVec_of_le hprofiles, fromVec_of_le hlength, fromVec_of_le h.priorityLength.le]
  exact ⟨_, rfl⟩

theorem finiteUnit_finite {q : ℚ} (hnonneg : 0 ≤ q) (hle : q ≤ 1) :
    finiteUnit (.finite q) = true := by
  simp [finiteUnit, F64.isFinite, F64.within, F64.le, hnonneg, hle]

theorem finiteUnit_getD {m : Map String F64} {default : F64}
    (h : ∀ p ∈ dictValues m, finiteUnit p = true) (hdefault : finiteUnit default = true)
    (k : String) : finiteUnit ((m.lookup k).getD default) = true := by
  cases hk : m.lookup k with
  | none => exact hdefault
  | some v => exact h v (List.mem_map.mpr ⟨⟨k, v⟩, Map.mem_entries.mpr hk, rfl⟩)

/-- What the last steps find in a prediction of the worker is in order, but for the gate. -/
theorem validateCapabilities_ok (h : Consistent a) {w : Worker} {createdNs : UInt64}
    (hwire : OnWire (w.finish (okDecision intent a createdNs w.ttlNs w.producerId)) wire)
    (hgate : policy.enforceConfidence = false) :
    ∃ required priority shadow below, validateCapabilities wire policy =
      .accept required wire.qosProfile priority shadow below := by
  have hitems : wire.capabilityProbabilities.items.map
      (fun c => (c.capabilityId.val, c.probability, c.answerConfidence)) =
        capabilityCatalog.map (knownCapability a) := by
    obtain ⟨items, hsome, hmap⟩ := mapM_wireCapability (known_names a)
    have heq := hwire.capabilities
    change (capabilityCatalog.map (knownCapability a)).mapM wireCapability = _ at heq
    rw [hsome, Option.some_inj] at heq
    rw [← heq, hmap]
  have hlabels : wire.capabilityProbabilities.items.map (·.capabilityId.val) =
      capabilityCatalog := by
    have hfirst := congrArg (List.map Prod.fst) hitems
    simpa [List.map_map, Function.comp_def, knownCapability] using hfirst
  have hunits : ∀ c ∈ wire.capabilityProbabilities.items,
      finiteUnit c.probability = true ∧ finiteUnit c.answerConfidence = true := by
    intro c hc
    have hmem : (c.capabilityId.val, c.probability, c.answerConfidence) ∈
        capabilityCatalog.map (knownCapability a) := by
      rw [← hitems]
      exact List.mem_map.mpr ⟨c, hc, rfl⟩
    obtain ⟨name, -, heq⟩ := List.mem_map.mp hmem
    rw [knownCapability, Prod.mk.injEq, Prod.mk.injEq] at heq
    rw [← heq.2.1, ← heq.2.2]
    exact ⟨finiteUnit_getD h.capabilityUnits (finiteUnit_finite (by norm_num) (by norm_num)) name,
      finiteUnit_getD h.confidenceUnits (finiteUnit_finite le_rfl zero_le_one) name⟩
  have hunknown : ¬ catalogV1.unknown capabilityCatalog ≠ [] := by decide
  have hduplicates : ¬ Catalog.duplicates capabilityCatalog ≠ [] := by decide
  unfold validateCapabilities
  rw [hlabels, if_neg hunknown, if_neg hduplicates, capabilityScan_of_units [] hunits,
    hgate]
  simp only [Bool.and_false, Bool.false_eq_true, if_false]
  exact ⟨_, _, _, _, rfl⟩

/-! ### The most probable profile -/

/-- The profiles in order, with their probabilities. -/
def profileWeights (a : LayaAnswer) : List (String × ℚ) :=
  qosProfiles.map fun p => (p, (profileProbability a p).toRat)

/-- The label is the most probable profile, the first one where several are. -/
def NamesFirstMax (a : LayaAnswer) : Prop := IsFirstMax (profileWeights a) a.qosProfile

theorem scanEntry_wireProfiles (a : LayaAnswer) :
    (wireProfiles (profileProbability a)).map scanEntry =
      (profileWeights a).map fun e => (qosProfiles.idxOf e.1, e.2) := rfl

/-- What the scan of the validator ends with. -/
def scanned (a : LayaAnswer) : ℕ :=
  (((wireProfiles (profileProbability a)).map scanEntry).foldl better (0, none)).1

theorem namesFirstMax_iff (a : LayaAnswer) :
    NamesFirstMax a ↔ scanned a = qosProfiles.idxOf a.qosProfile := by
  -- The validator knows the profiles by their ordinals, which tell them apart.
  have hnames : ∀ e ∈ profileWeights a, e.1 ∈ qosProfiles := by
    intro e he
    obtain ⟨p, hp, rfl⟩ := List.mem_map.mp he
    exact hp
  have hinj : ∀ e ∈ profileWeights a,
      qosProfiles.idxOf e.1 = qosProfiles.idxOf a.qosProfile → e.1 = a.qosProfile :=
    fun e he heq => (List.idxOf_inj (hnames e he)).mp heq
  rw [NamesFirstMax, ← isFirstMax_map (f := (qosProfiles.idxOf ·)) hinj, ← scanEntry_wireProfiles]
  exact isFirstMax_iff_scan (by simp [wireProfiles]) 0 _

theorem total_wireProfiles (h : Consistent a) :
    ((wireProfiles (profileProbability a)).map (·.probability.toRat)).sum =
      total (dictValues a.qosProbabilities) := by
  rw [← sum_lookup (by decide) h.profiles]
  rfl

theorem isFinite_of_within {lo hi : ℚ} {p : F64} (h : p.within lo hi = true) :
    p.isFinite = true := by
  cases p with
  | finite q => rfl
  | infinite negative => cases negative <;> simp [F64.within, F64.le, F64.lt] at h
  | nan => simp [F64.within, F64.le, F64.lt] at h

variable {w : Worker} {createdNs : UInt64}

theorem wire_profile (h : Consistent a)
    (hwire : OnWire (w.finish (okDecision intent a createdNs w.ttlNs w.producerId)) wire) :
    wire.qosProfile = (qosProfiles.idxOf a.qosProfile : ℕ) := by
  obtain ⟨i, hi, hq⟩ := hwire.qosProfile
  change profileOrdinal (some a.qosProfile) = some i at hi
  rw [profileOrdinal, if_neg (profile_ordinals _ h.label).1] at hi
  rw [hq, List.idxOf_eq_getD_idxOf?, hi]
  rfl

theorem wire_items
    (hwire : OnWire (w.finish (okDecision intent a createdNs w.ttlNs w.producerId)) wire) :
    wire.qosProbabilities.items = wireProfiles (profileProbability a) := by
  have heq := hwire.qosProbabilities
  change (qosProfiles.map fun p => (p, profileProbability a p)).mapM wireProfile = _ at heq
  rw [mapM_wireProfile, Option.some_inj] at heq
  exact heq.symm

theorem qosScan_wire (h : Consistent a) :
    qosScan (wireProfiles (profileProbability a)) [] 0 (0, none) =
      .ok (total (dictValues a.qosProbabilities), scanned a) := by
  have hunit : ∀ i ∈ wireProfiles (profileProbability a), finiteUnit i.probability = true := by
    have hall := finiteUnit_getD h.profileUnits (finiteUnit_finite le_rfl zero_le_one)
    simp [wireProfiles, profileProbability, hall]
  rw [qosScan_eq _ _ _ hunit, zero_add, total_wireProfiles h]
  · rfl
  · simp [wireProfiles]
  · simp
  · simp [wireProfiles]

/-- Of the checks of the distributions only the one of the profile can fail. -/
theorem validatePrediction_eq (h : Consistent a)
    (hwire : OnWire (w.finish (okDecision intent a createdNs w.ttlNs w.producerId)) wire) :
    validatePrediction wire policy =
      if wire.qosProfile.toNat ≠ scanned a then
        .reject .qosDistribution (.qosProfileNotArgmax wire.qosProfile (scanned a))
      else validateCapabilities wire policy := by
  have hsum : ¬ ((wireProfiles (profileProbability a)).length = 0 ∨
      sumTolerance < |total (dictValues a.qosProbabilities) - 1|) := by
    rintro (hempty | hfar)
    · simp [wireProfiles] at hempty
    · exact not_lt.mpr h.profileSum hfar
  have hdomain : ¬ (wire.qosProfile < 0 ∨ 4 < wire.qosProfile) := by
    have hlt : qosProfiles.idxOf a.qosProfile < 5 := List.idxOf_lt_length_of_mem h.label
    rw [wire_profile h hwire]
    omega
  have hscore : wire.priorityScore = a.urgencyExpected := by
    rw [hwire.priorityScore]
    exact if_pos h.urgency
  have hpriorities : wire.priorityProbabilities.items = a.priorityProbabilities :=
    hwire.priorityProbabilities
  have hplanning : wire.requiresPlanningProbability = a.needsPlanningProbability :=
    hwire.requiresPlanning
  have hconfidence : wire.confidence = a.confidence := hwire.confidence
  have hanswer : wire.answerConfidence = a.answerConfidence := hwire.answerConfidence
  simp only [validatePrediction, wire_items hwire, qosScan_wire h]
  rw [if_neg hsum, if_neg hdomain, hscore, isFinite_of_within h.urgency, h.urgency, hpriorities,
    if_neg (not_not.mpr h.priorityLength), priorityScan_eq h.priorityUnits, zero_add, hplanning,
    h.planning, hconfidence, h.confidence, hanswer, h.answerConfidence]
  simp only [not_lt.mpr h.prioritySum, if_false]
  rfl

theorem validatePrediction_iff (h : Consistent a)
    (hwire : OnWire (w.finish (okDecision intent a createdNs w.ttlNs w.producerId)) wire)
    (hgate : policy.enforceConfidence = false) :
    (∃ required priority shadow below, validatePrediction wire policy =
      .accept required wire.qosProfile priority shadow below) ↔ NamesFirstMax a := by
  rw [namesFirstMax_iff, validatePrediction_eq h hwire, wire_profile h hwire, Int.toNat_natCast]
  by_cases hbest : scanned a = qosProfiles.idxOf a.qosProfile
  · rw [if_neg (not_not.mpr hbest.symm), ← wire_profile h hwire]
    exact iff_of_true (validateCapabilities_ok h hwire hgate) hbest
  · rw [if_pos (Ne.symm hbest)]
    refine iff_of_false ?_ hbest
    rintro ⟨_, _, _, _, hverdict⟩
    cases hverdict

theorem repeats_ok (w : Worker) (a : LayaAnswer) (h : createdNs ≤ intent.deadlineNs) :
    Repeats (w.finish (okDecision intent a createdNs w.ttlNs w.producerId)) intent where
  schema := rfl
  request := rfl
  workflow := rfl
  revision := rfl
  questions := rfl
  policy := rfl
  catalog := rfl
  created := le_validUntil h _
  deadline := validUntil_le _ _ _

/-- The validator takes the prediction, with the profile that the worker has named. -/
def AcceptedAsNamed (d : Decision) (intent : WorkflowIntent) (policy : DecisionPolicy)
    (now : Option UInt64) : Prop :=
  ∃ wire, decisionToWire d = some wire ∧
    d.qosProfileLabel = qosProfiles[wire.qosProfile.toNat]? ∧
    ∃ required priority shadow below,
      validate wire intent policy now = .accept required wire.qosProfile priority shadow below

theorem validate_ok (h : Consistent a) {now : Option UInt64}
    (hwire : OnWire (w.finish (okDecision intent a createdNs w.ttlNs w.producerId)) wire)
    (hschema : intent.schemaVersion = 1) (hdeadline : createdNs ≤ intent.deadlineNs)
    (hcheckpoint : intent.checkpointRevision.val = "" ∨
      a.checkpointRevision.val = intent.checkpointRevision.val)
    (hpolicy : policy.catalogRevision = intent.capabilityCatalogRevision)
    (hgate : policy.enforceConfidence = false)
    (hnow : ∀ t, now = some t → t ≤ validUntil createdNs intent.deadlineNs w.ttlNs) :
    (∃ required priority shadow below, validate wire intent policy now =
      .accept required wire.qosProfile priority shadow below) ↔ NamesFirstMax a := by
  have hpinned : checkpointPinned wire intent := by
    rw [checkpointPinned, hwire.checkpointRevision]
    exact hcheckpoint
  have hstatus : wire.decisionStatus = 0 := hwire.decisionStatus
  have hreason : wire.reasonCode = 0 := hwire.reasonCode
  rw [(repeats_ok w a hdeadline).validate hwire hschema hpolicy hnow, validateRest,
    if_neg (not_not.mpr hpinned), if_pos hstatus, if_neg (not_not.mpr hreason)]
  exact validatePrediction_iff h hwire hgate

/-- A prediction of the worker is accepted exactly if its profile is the first most probable
one. -/
theorem prediction_accepted_iff (w : Worker) (intent : WorkflowIntent) (a : LayaAnswer)
    (createdNs : UInt64) (policy : DecisionPolicy) (now : Option UInt64)
    (hschema : intent.schemaVersion = 1) (hdeadline : createdNs ≤ intent.deadlineNs)
    (hok : (w.decide intent (.answered a) createdNs).decisionStatus = 0)
    (hcheckpoint : intent.checkpointRevision.val = "" ∨
      a.checkpointRevision.val = intent.checkpointRevision.val)
    (hpolicy : policy.catalogRevision = intent.capabilityCatalogRevision)
    (hgate : policy.enforceConfidence = false)
    (hnow : ∀ t, now = some t → t ≤ (w.decide intent (.answered a) createdNs).validUntilNs) :
    AcceptedAsNamed (w.decide intent (.answered a) createdNs) intent policy now ↔
      NamesFirstMax a := by
  obtain ⟨reason, -, hdecide⟩ | ⟨a', heq, hconsistent, hdecide⟩ :=
    decide_cases w intent (.answered a) createdNs
  · rw [hdecide] at hok
    cases hok
  · cases heq
    have h := consistent_of hconsistent
    rw [hdecide] at hnow ⊢
    constructor
    · rintro ⟨wire, hsome, -, hverdict⟩
      exact (validate_ok h (onWire hsome) hschema hdeadline hcheckpoint hpolicy hgate hnow).mp
        hverdict
    · intro hfirst
      obtain ⟨wire, hsome⟩ := exists_wire h w intent createdNs
      have hwire := onWire hsome
      refine ⟨wire, hsome, ?_, (validate_ok h hwire hschema hdeadline hcheckpoint hpolicy hgate
        hnow).mpr hfirst⟩
      rw [wire_profile h hwire, Int.toNat_natCast]
      exact (List.getElem?_idxOf h.label).symm

def sampleAnswer (label : String) (critical : ℚ) : LayaAnswer :=
  { qosProfile := label
    qosProbabilities := ((∅ : Map String F64).insert "QI_CRITICAL" (.finite critical)).insert
      "QI_BALANCED" (.finite (1 - critical))
    needsPlanningProbability := .finite 0
    capabilityProbabilities := (∅ : Map String F64).insert "security_audit" (.finite (9 / 10))
    capabilityAnswerConfidences := ∅
    complexityExpected := .finite 1, urgencyExpected := .finite 1
    priorityProbabilities := [.finite (1 / 4), .finite (1 / 2), .finite (1 / 4)]
    confidence := .finite (1 / 2), answerConfidence := .finite (1 / 2)
    modelId := ⟨"local:laya", by decide⟩, checkpointRevision := sampleCheckpoint
    calibrationRevision := emptyString }

theorem critical_accepted :
    AcceptedAsNamed
      (sampleWorker.decide pinnedIntent (.answered (sampleAnswer "QI_CRITICAL" (3 / 4))) 5000)
      pinnedIntent .default (some 6000) :=
  (prediction_accepted_iff sampleWorker pinnedIntent (sampleAnswer "QI_CRITICAL" (3 / 4)) 5000
    .default (some 6000) rfl (by decide) (by decide +kernel) (.inr rfl) rfl rfl
    (by rintro t ⟨⟩; decide +kernel)).mpr
    ((namesFirstMax_iff _).mpr (by decide +kernel))

/-- Of two profiles that are as probable the model names the second one. -/
theorem tied_critical_rejected :
    answerIsSelfConsistent (sampleAnswer "QI_CRITICAL" (1 / 2)) = true ∧
      ¬ AcceptedAsNamed
        (sampleWorker.decide pinnedIntent (.answered (sampleAnswer "QI_CRITICAL" (1 / 2))) 5000)
        pinnedIntent .default (some 6000) ∧
      (decisionToWire (sampleWorker.decide pinnedIntent
          (.answered (sampleAnswer "QI_CRITICAL" (1 / 2))) 5000)).map
          (validate · pinnedIntent .default (some 6000)) =
        some (.reject .qosDistribution (.qosProfileNotArgmax 1 0)) := by
  have hverdict : (decisionToWire (sampleWorker.decide pinnedIntent
      (.answered (sampleAnswer "QI_CRITICAL" (1 / 2))) 5000)).map
      (validate · pinnedIntent .default (some 6000)) =
        some (.reject .qosDistribution (.qosProfileNotArgmax 1 0)) := by decide +kernel
  refine ⟨by decide +kernel, ?_, hverdict⟩
  rintro ⟨wire, hwire, -, _, _, _, _, haccept⟩
  rw [hwire, Option.map_some, haccept] at hverdict
  cases hverdict

end DdsOrchestrator.LayaWorker
