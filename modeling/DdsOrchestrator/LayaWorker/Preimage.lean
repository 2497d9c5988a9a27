import DdsOrchestrator.LayaWorker.Fixture
import DdsOrchestrator.LayaWorker.Predictions

/-!
What the payload hash of a decision is about. The worker maps a decision twice by hand, once
for the hash and once for the wire; a reader of the wire can take the hash anew.

Numbers are exact in a decision. Which bits a number has as a double is a parameter.
-/

namespace DdsOrchestrator.LayaWorker

open WorkflowEngine (F64 DdsString DdsBoundedSequence WorkflowIntent RoutingDecision
  ProfileProbability CapabilityProbability)

/-! ### What is hashed -/

def rcLiterals : List String :=
  ["RC_NONE", "RC_INVALID_INPUT", "RC_MODEL_UNAVAILABLE", "RC_TIMEOUT", "RC_SCHEMA_MISMATCH",
    "RC_POLICY_DENIED", "RC_LOW_CONFIDENCE", "RC_EXPIRED", "RC_CAPABILITY_UNAVAILABLE",
    "RC_OVERLOADED", "RC_CONFLICT", "RC_INVALID_PLAN", "RC_OUTPUT_INVALID", "RC_IN_DOUBT",
    "RC_CANCELLED"]

def rcByOrd (code : Int) : Option String := if 0 ≤ code then rcLiterals[code.toNat]? else none

variable (bits : F64 → Double)

def profileTyped (e : String × F64) : TypedValue :=
  .struct "ProfileProbability"
    [("profile", .enum "QosIntent" e.1), ("probability", .f64 (bits e.2))]

def capabilityTyped (e : String × F64 × F64) : TypedValue :=
  .struct "CapabilityProbability"
    [("capability_id", .string e.1), ("probability", .f64 (bits e.2.1)),
      ("answer_confidence", .f64 (bits e.2.2))]

/-- A prediction without a label raises. -/
def hashedProfile (d : Decision) : Option String :=
  if d.decisionStatus = 0 then d.qosProfileLabel else some "QI_BALANCED"

def toTyped (d : Decision) : Option TypedValue := do
  let profile ← hashedProfile d
  let reason ← rcByOrd d.reasonCode
  return .struct "RoutingDecision"
    [("request_id", .string d.requestId.val),
      ("decision_id", .string d.decisionId.val),
      ("workflow_id", .string d.workflowId.val),
      ("schema_version", .int .u16 d.schemaVersion.toNat),
      ("intent_revision", .int .u32 d.intentRevision.toNat),
      ("producer_id", .string d.producerId.val),
      ("model_id", .string d.modelId.val),
      ("checkpoint_revision", .string d.checkpointRevision.val),
      ("questions_revision", .int .u32 d.questionsRevision.toNat),
      ("policy_revision", .int .u32 d.policyRevision.toNat),
      ("capability_catalog_revision", .int .u32 d.capabilityCatalogRevision.toNat),
      ("qos_profile", .enum "QosIntent" profile),
      ("qos_probabilities", .seq (d.qosProbabilities.map (profileTyped bits))),
      ("capability_probabilities", .seq (d.capabilityProbabilities.map (capabilityTyped bits))),
      ("requires_planning_probability", .f64 (bits d.requiresPlanningProbability)),
      ("priority_score", .f64 (bits d.priorityScore)),
      ("priority_probabilities", .seq (d.priorityProbabilities.map fun x => .f64 (bits x))),
      ("confidence", .f64 (bits d.confidence)),
      ("answer_confidence", .f64 (bits d.answerConfidence)),
      ("calibration_revision", .string d.calibrationRevision.val),
      ("created_at_ns", .int .u64 d.createdAtNs.toNat),
      ("valid_until_ns", .int .u64 d.validUntilNs.toNat),
      ("decision_status",
        .enum "DecisionStatus" (if d.decisionStatus = 0 then "DS_OK" else "DS_ERROR")),
      ("reason_code", .enum "ReasonCode" reason),
      ("evidence_digest", .string d.evidenceDigest.val),
      ("payload_hash", .string d.payloadHash.val)]

/-- The hash of `_finish`. It leaves out the field that it goes into. -/
def payloadHash (d : Decision) : Option String :=
  (toTyped bits d).bind fun typed => digestTyped typed (some "payload_hash")

/-- A worker that hashes with `payloadHash`. -/
def hashing (producerId : DdsString) (ttlNs : ℕ) : Worker where
  producerId
  ttlNs
  digest d := ((payloadHash bits d).bind DdsString.ofString?).getD emptyString

/-- The decision that comes out. Where hashing raises none does. -/
def decide? (producerId : DdsString) (ttlNs : ℕ) (intent : WorkflowIntent) (outcome : Outcome)
    (createdNs : UInt64) : Option Decision :=
  let d := (hashing bits producerId ttlNs).decide intent outcome createdNs
  if (payloadHash bits d).isSome then some d else none

/-! ### What is sent -/

/-- The whole type on the wire, with the fields that no one reads. -/
structure WireDecision extends RoutingDecision where
  producerId : DdsString
  modelId : DdsString
  evidenceDigest : DdsString

def decisionToFullWire (d : Decision) : Option WireDecision :=
  (decisionToWire d).map fun wire =>
    { wire with
      producerId := d.producerId, modelId := d.modelId, evidenceDigest := d.evidenceDigest }

/-- The literal that an ordinal stands for. -/
def literalAt (enum : String) (i : Int) : Option String :=
  if 0 ≤ i then (enumLiterals.lookup enum).bind (·[i.toNat]?) else none

def typedProfile (p : ProfileProbability) : Option TypedValue :=
  (literalAt "QosIntent" p.profile).map fun label => profileTyped bits (label, p.probability)

def typedCapability (c : CapabilityProbability) : TypedValue :=
  capabilityTyped bits (c.capabilityId.val, c.probability, c.answerConfidence)

/-- What a reader sees on the wire, field by field. -/
def typedOfWire (wire : WireDecision) : Option TypedValue := do
  let profile ← literalAt "QosIntent" wire.qosProfile
  let profiles ← wire.qosProbabilities.items.mapM (typedProfile bits)
  let status ← literalAt "DecisionStatus" wire.decisionStatus
  let reason ← literalAt "ReasonCode" wire.reasonCode
  return .struct "RoutingDecision"
    [("request_id", .string wire.requestId.val),
      ("decision_id", .string wire.decisionId.val),
      ("workflow_id", .string wire.workflowId.val),
      ("schema_version", .int .u16 wire.schemaVersion.toNat),
      ("intent_revision", .int .u32 wire.intentRevision.toNat),
      ("producer_id", .string wire.producerId.val),
      ("model_id", .string wire.modelId.val),
      ("checkpoint_revision", .string wire.checkpointRevision.val),
      ("questions_revision", .int .u32 wire.questionsRevision.toNat),
      ("policy_revision", .int .u32 wire.policyRevision.toNat),
      ("capability_catalog_revision", .int .u32 wire.capabilityCatalogRevision.toNat),
      ("qos_profile", .enum "QosIntent" profile),
      ("qos_probabilities", .seq profiles),
      ("capability_probabilities",
        .seq (wire.capabilityProbabilities.items.map (typedCapability bits))),
      ("requires_planning_probability", .f64 (bits wire.requiresPlanningProbability)),
      ("priority_score", .f64 (bits wire.priorityScore)),
      ("priority_probabilities",
        .seq (wire.priorityProbabilities.items.map fun x => .f64 (bits x))),
      ("confidence", .f64 (bits wire.confidence)),
      ("answer_confidence", .f64 (bits wire.answerConfidence)),
      ("calibration_revision", .string wire.calibrationRevision.val),
      ("created_at_ns", .int .u64 wire.createdAtNs.toNat),
      ("valid_until_ns", .int .u64 wire.validUntilNs.toNat),
      ("decision_status", .enum "DecisionStatus" status),
      ("reason_code", .enum "ReasonCode" reason),
      ("evidence_digest", .string wire.evidenceDigest.val),
      ("payload_hash", .string wire.payloadHash.val)]

/-! ### The two shapes of a decision -/

/-- A prediction names a profile, an error names none, and both have a reason. -/
structure Shaped (d : Decision) : Prop where
  status : (d.decisionStatus = 0 ∧ ∃ label ∈ qosProfiles, d.qosProfileLabel = some label) ∨
    (d.decisionStatus = 1 ∧ d.qosProfileLabel = none)
  reason : ∃ literal, rcByOrd d.reasonCode = some literal

theorem shaped_decide (w : Worker) (intent : WorkflowIntent) (outcome : Outcome)
    (createdNs : UInt64) : Shaped (w.decide intent outcome createdNs) := by
  obtain ⟨reason, -, hdecide⟩ | ⟨a, -, hconsistent, hdecide⟩ :=
    decide_cases w intent outcome createdNs
  · rw [hdecide]
    refine ⟨.inr ⟨rfl, rfl⟩, ?_⟩
    cases reason <;> exact ⟨_, rfl⟩
  · rw [hdecide]
    exact ⟨.inl ⟨rfl, a.qosProfile, (consistent_of hconsistent).label, rfl⟩, "RC_NONE", rfl⟩

theorem payloadHash_wire {d : Decision} {wire : WireDecision}
    (h : decisionToFullWire d = some wire) : wire.payloadHash = d.payloadHash := by
  obtain ⟨sent, hsent, rfl⟩ := Option.map_eq_some_iff.mp h
  simp only [decisionToWire, Option.bind_eq_bind, Option.bind_eq_some_iff] at hsent
  obtain ⟨_, -, _, -, _, -, _, -, _, -, _, -, hsent⟩ := hsent
  cases hsent
  rfl

theorem exists_fullWire (w : Worker) (intent : WorkflowIntent) (outcome : Outcome)
    (createdNs : UInt64) :
    ∃ wire, decisionToFullWire (w.decide intent outcome createdNs) = some wire := by
  obtain ⟨reason, -, hdecide⟩ | ⟨a, -, hconsistent, hdecide⟩ :=
    decide_cases w intent outcome createdNs
  · rw [hdecide]
    exact ⟨_, rfl⟩
  · obtain ⟨wire, hwire⟩ := exists_wire (consistent_of hconsistent) w intent createdNs
    rw [hdecide, decisionToFullWire, hwire]
    exact ⟨_, rfl⟩

/-! ### What is hashed is what is sent -/

theorem literalAt_profile {label : String} {i : ℕ} (h : qosProfiles.idxOf? label = some i) :
    literalAt "QosIntent" i = some label := by
  obtain ⟨hi, hlabel, -⟩ := List.idxOf?_eq_some_iff.mp h
  have hat : qosProfiles[i]? = some label := by
    rw [List.getElem?_eq_getElem hi, hlabel]
  rw [literalAt, if_pos (Int.natCast_nonneg i), Int.toNat_natCast]
  exact hat

/-- The reasons of the worker are those of the contract, in its order. -/
theorem literalAt_reason (code : Int) : literalAt "ReasonCode" code = rcByOrd code := rfl

theorem typedProfile_wire {e : String × F64} {p : ProfileProbability}
    (h : wireProfile e = some p) : typedProfile bits p = some (profileTyped bits e) := by
  obtain ⟨_, hordinal, rfl⟩ := Option.map_eq_some_iff.mp h
  obtain ⟨i, hi, ⟨⟩⟩ := Option.bind_eq_some_iff.mp hordinal
  rw [typedProfile, literalAt_profile hi]
  rfl

theorem typedProfiles_wire {l : List (String × F64)} {items : List ProfileProbability}
    (h : l.mapM wireProfile = some items) :
    items.mapM (typedProfile bits) = some (l.map (profileTyped bits)) := by
  induction l generalizing items with
  | nil =>
      cases h
      rfl
  | cons e l ih =>
      rw [List.mapM_cons, Option.bind_eq_bind, Option.bind_eq_some_iff] at h
      obtain ⟨p, hp, h⟩ := h
      obtain ⟨ps, hps, h⟩ := Option.bind_eq_some_iff.mp h
      cases h
      rw [List.mapM_cons, typedProfile_wire bits hp, ih hps]
      rfl

theorem typedCapability_wire {e : String × F64 × F64} {c : CapabilityProbability}
    (h : wireCapability e = some c) : typedCapability bits c = capabilityTyped bits e := by
  obtain ⟨name, hname, rfl⟩ := Option.map_eq_some_iff.mp h
  unfold DdsString.ofString? at hname
  split at hname
  · cases hname
    rfl
  · cases hname

theorem typedCapabilities_wire {l : List (String × F64 × F64)}
    {items : List CapabilityProbability} (h : l.mapM wireCapability = some items) :
    items.map (typedCapability bits) = l.map (capabilityTyped bits) := by
  induction l generalizing items with
  | nil =>
      cases h
      rfl
  | cons e l ih =>
      rw [List.mapM_cons, Option.bind_eq_bind, Option.bind_eq_some_iff] at h
      obtain ⟨c, hc, h⟩ := h
      obtain ⟨cs, hcs, h⟩ := Option.bind_eq_some_iff.mp h
      cases h
      rw [List.map_cons, List.map_cons, typedCapability_wire bits hc, ih hcs]

variable {d : Decision}

/-- The profile that is hashed is the one with the ordinal on the wire. -/
theorem Shaped.profile (h : Shaped d) {i : ℕ} (hi : profileOrdinal d.qosProfileLabel = some i) :
    literalAt "QosIntent" i = hashedProfile d := by
  unfold hashedProfile
  obtain ⟨hstatus, label, hlabel, hsome⟩ | ⟨hstatus, hnone⟩ := h.status
  · obtain ⟨hne, -⟩ := profile_ordinals label hlabel
    rw [hsome, profileOrdinal, if_neg hne] at hi
    rw [if_pos hstatus, hsome]
    exact literalAt_profile hi
  · -- an error has no profile, and both maps then put the balanced one
    rw [hnone] at hi
    cases hi
    rw [hstatus]
    rfl

theorem Shaped.statusLiteral (h : Shaped d) :
    literalAt "DecisionStatus" d.decisionStatus =
      some (if d.decisionStatus = 0 then "DS_OK" else "DS_ERROR") := by
  obtain ⟨hstatus, -⟩ | ⟨hstatus, -⟩ := h.status
  · rw [hstatus]
    rfl
  · rw [hstatus]
    rfl

/-- Field by field the two maps agree. -/
theorem Shaped.typedOfWire_eq (h : Shaped d) {wire : WireDecision}
    (hwire : decisionToFullWire d = some wire) : typedOfWire bits wire = toTyped bits d := by
  obtain ⟨sent, hsent, rfl⟩ := Option.map_eq_some_iff.mp hwire
  simp only [decisionToWire, Option.bind_eq_bind, Option.bind_eq_some_iff, fromVec_eq_some]
    at hsent
  obtain ⟨i, hi, profiles, hprofiles, qos, hqos, caps, hcaps, capabilities, hcapabilities,
    priorities, hpriorities, hsent⟩ := hsent
  cases hsent
  have hqosTyped := typedProfiles_wire bits hprofiles
  have hcapsTyped := typedCapabilities_wire bits hcaps
  unfold typedOfWire toTyped
  simp only [h.profile hi, h.statusLiteral, literalAt_reason, hqos, hqosTyped, hcapabilities,
    hcapsTyped, hpriorities, Option.bind_eq_bind, Option.bind_some]

/-! ### The hash of a decision -/

theorem lookup_of_dropLast {fld other : String} {v : List (String × TypedValue)}
    (hlast : v.getLast?.map (·.1) = some fld) (hother : other ≠ fld) :
    v.lookup other = v.dropLast.lookup other := by
  obtain ⟨⟨key, x⟩, hkey, rfl⟩ := Option.map_eq_some_iff.mp hlast
  have hne : (other == key) = false := beq_false_of_ne hother
  rw [← List.dropLast_append_getLast? (key, x) hkey, List.lookup_append, List.dropLast_concat,
    List.lookup_cons, hne, List.lookup_nil, Option.or_none]

/-- The last field may have any value if it is the one that is skipped. -/
theorem digestTyped_skip {struct fld : String} {v w : List (String × TypedValue)}
    (hv : v.getLast?.map (·.1) = some fld) (hw : w.getLast?.map (·.1) = some fld)
    (h : v.dropLast = w.dropLast) :
    digestTyped (.struct struct v) (some fld) = digestTyped (.struct struct w) (some fld) := by
  have hfield : ∀ fields : List String,
      (fields.filter fun other => some fld != some other).map (encodeField v) =
        (fields.filter fun other => some fld != some other).map (encodeField w) := by
    intro fields
    apply List.map_congr_left
    intro other hother
    have hne : other ≠ fld := by
      rintro rfl
      exact absurd rfl (bne_iff_ne.mp (List.mem_filter.mp hother).2)
    rw [encodeField, encodeField, lookup_of_dropLast hv hne, lookup_of_dropLast hw hne, h]
  simp only [digestTyped, preimage, hfield]

theorem isSome_toTyped_iff (d : Decision) :
    (toTyped bits d).isSome ↔ (hashedProfile d).isSome ∧ (rcByOrd d.reasonCode).isSome := by
  unfold toTyped
  cases hashedProfile d <;> cases rcByOrd d.reasonCode <;> simp

theorem digestTyped_eq {d : Decision} {hash : DdsString} {v w : TypedValue}
    (hv : toTyped bits { d with payloadHash := hash } = some v) (hw : toTyped bits d = some w) :
    digestTyped v (some "payload_hash") = digestTyped w (some "payload_hash") := by
  obtain ⟨profile, hprofile, hv⟩ := Option.bind_eq_some_iff.mp hv
  obtain ⟨reason, hreason, hv⟩ := Option.bind_eq_some_iff.mp hv
  obtain ⟨profile', hprofile', hw⟩ := Option.bind_eq_some_iff.mp hw
  obtain ⟨reason', hreason', hw⟩ := Option.bind_eq_some_iff.mp hw
  cases hv
  cases hw
  cases hprofile.symm.trans hprofile'
  cases hreason.symm.trans hreason'
  exact digestTyped_skip rfl rfl rfl

theorem payloadHash_eq (d : Decision) (hash : DdsString) :
    payloadHash bits { d with payloadHash := hash } = payloadHash bits d := by
  have hsome : (toTyped bits { d with payloadHash := hash }).isSome ↔ (toTyped bits d).isSome := by
    rw [isSome_toTyped_iff, isSome_toTyped_iff]
    rfl
  rw [payloadHash, payloadHash]
  cases hw : toTyped bits d with
  | none =>
      rw [hw, ← not_iff_not, Option.not_isSome_iff_eq_none] at hsome
      rw [hsome.mpr (by simp)]
  | some w =>
      rw [hw] at hsome
      obtain ⟨v, hv⟩ := Option.isSome_iff_exists.mp (hsome.mpr rfl)
      rw [hv, Option.bind_some, Option.bind_some, digestTyped_eq bits hv hw]

theorem noNul_hexDigest (bytes : List UInt8) : '\x00' ∉ (hexDigest bytes).toList := by
  have hdigit : ∀ i < 16, Nat.digitChar i ≠ '\x00' := by decide
  rw [hexDigest, String.toList_ofList]
  intro hmem
  obtain ⟨word, -, hword⟩ := List.mem_flatMap.mp hmem
  obtain ⟨i, -, hi⟩ := List.mem_map.mp hword
  exact hdigit _ (Nat.mod_lt _ (by omega)) hi

theorem ofString?_payloadHash {d : Decision} {hash : String}
    (h : payloadHash bits d = some hash) :
    ∃ s, DdsString.ofString? hash = some s ∧ s.val = hash := by
  obtain ⟨typed, -, hdigest⟩ := Option.bind_eq_some_iff.mp h
  obtain ⟨bytes, -, rfl⟩ := Option.map_eq_some_iff.mp hdigest
  exact ⟨_, dif_pos (noNul_hexDigest bytes), rfl⟩

variable {producerId : DdsString} {ttlNs : ℕ} {intent : WorkflowIntent} {outcome : Outcome}
  {createdNs : UInt64}

theorem exists_finish (w : Worker) (intent : WorkflowIntent) (outcome : Outcome)
    (createdNs : UInt64) : ∃ unhashed, w.decide intent outcome createdNs = w.finish unhashed := by
  obtain ⟨_, -, hdecide⟩ | ⟨_, -, -, hdecide⟩ := decide_cases w intent outcome createdNs
  · exact ⟨_, hdecide⟩
  · exact ⟨_, hdecide⟩

theorem decide?_eq_some_iff {d : Decision} :
    decide? bits producerId ttlNs intent outcome createdNs = some d ↔
      (hashing bits producerId ttlNs).decide intent outcome createdNs = d ∧
        (payloadHash bits d).isSome := by
  simp only [decide?]
  split
  · next hsome =>
      rw [Option.some.injEq]
      constructor
      · rintro rfl
        exact ⟨rfl, hsome⟩
      · exact And.left
  · next hnone =>
      constructor
      · intro h
        cases h
      · rintro ⟨rfl, hsome⟩
        exact absurd hsome hnone

/-- A decision that comes out carries its own hash. -/
theorem payloadHash_of_decide? {d : Decision}
    (h : decide? bits producerId ttlNs intent outcome createdNs = some d) :
    payloadHash bits d = some d.payloadHash.val := by
  obtain ⟨hdecide, hsome⟩ := (decide?_eq_some_iff bits).mp h
  obtain ⟨hash, hhash⟩ := Option.isSome_iff_exists.mp hsome
  obtain ⟨unhashed, hfinish⟩ :=
    exists_finish (hashing bits producerId ttlNs) intent outcome createdNs
  -- the hash was taken before it had a field, which makes no difference to it
  rw [← hdecide, hfinish, Worker.finish, payloadHash_eq] at hhash ⊢
  obtain ⟨s, hs, rfl⟩ := ofString?_payloadHash bits hhash
  have hdigest : (hashing bits producerId ttlNs).digest unhashed = s := by
    show ((payloadHash bits unhashed).bind DdsString.ofString?).getD emptyString = s
    rw [hhash, Option.bind_some, hs, Option.getD_some]
  rw [hhash]
  exact congrArg (fun hash : DdsString => some hash.val) hdigest.symm

/-! ### The types of what is hashed -/

variable {v : TypedValue}

theorem hasType_profileTyped (e : String × F64) :
    HasType contractType (profileTyped bits e) (.struct "ProfileProbability") := by
  apply HasType.struct rfl (List.Perm.refl _)
  simp only [List.forall_mem_cons]
  exact ⟨.enum _ _, .f64 _, List.forall_mem_nil _⟩

theorem hasType_capabilityTyped (e : String × F64 × F64) :
    HasType contractType (capabilityTyped bits e) (.struct "CapabilityProbability") := by
  apply HasType.struct rfl (List.Perm.refl _)
  simp only [List.forall_mem_cons]
  exact ⟨.string _, .f64 _, .f64 _, List.forall_mem_nil _⟩

theorem hasType_map {α : Type} {f : α → TypedValue} {elem : Ty}
    (h : ∀ x, HasType contractType (f x) elem) (l : List α) :
    HasType contractType (.seq (l.map f)) (.seq elem) := by
  apply HasType.seq
  intro y hy
  obtain ⟨x, -, rfl⟩ := List.mem_map.mp hy
  exact h x

theorem hasType_toTyped (h : toTyped bits d = some v) :
    HasType contractType v (.struct "RoutingDecision") := by
  obtain ⟨profile, -, h⟩ := Option.bind_eq_some_iff.mp h
  obtain ⟨reason, -, h⟩ := Option.bind_eq_some_iff.mp h
  cases h
  apply HasType.struct rfl (List.Perm.refl _)
  simp only [List.forall_mem_cons]
  refine ⟨.string _, .string _, .string _, .int _ _, .int _ _, .string _, .string _, .string _,
    .int _ _, .int _ _, .int _ _, .enum _ _, ?_, ?_, .f64 _, .f64 _, ?_, .f64 _, .f64 _,
    .string _, .int _ _, .int _ _, .enum _ _, .enum _ _, .string _, .string _,
    List.forall_mem_nil _⟩
  · exact hasType_map (hasType_profileTyped bits) _
  · exact hasType_map (hasType_capabilityTyped bits) _
  · exact hasType_map (fun x => .f64 (bits x)) _

/-! ### The hash covers the decision -/

/-- The hash of the decision is taken over what the wire says. -/
structure Covers (d : Decision) (wire : WireDecision) (typed : TypedValue) : Prop where
  hashed : toTyped bits d = some typed
  sent : typedOfWire bits wire = some typed
  hasType : HasType contractType typed (.struct "RoutingDecision")
  hash : digestTyped typed (some "payload_hash") = some wire.payloadHash.val

theorem covers_of_decide? {d : Decision}
    (h : decide? bits producerId ttlNs intent outcome createdNs = some d) :
    ∃ wire typed, decisionToFullWire d = some wire ∧ Covers bits d wire typed := by
  have hhash := payloadHash_of_decide? bits h
  obtain ⟨typed, htyped, hdigest⟩ := Option.bind_eq_some_iff.mp hhash
  obtain ⟨rfl, -⟩ := (decide?_eq_some_iff bits).mp h
  have hshaped := shaped_decide (hashing bits producerId ttlNs) intent outcome createdNs
  obtain ⟨wire, hwire⟩ :=
    exists_fullWire (hashing bits producerId ttlNs) intent outcome createdNs
  refine ⟨wire, typed, hwire, htyped, ?_, hasType_toTyped bits htyped, ?_⟩
  · rw [hshaped.typedOfWire_eq bits hwire, htyped]
  · rw [hdigest, payloadHash_wire hwire]

/-- The bytes below the hash stand for one value only, they do not depend on where the hash
goes, both encoders write them, and they say what is sent. -/
theorem preimage_covers_decision :
    (∀ (fieldType : String → String → Ty) (ty : Ty) (v w : TypedValue) (p q : List UInt8),
      HasType fieldType v ty → HasType fieldType w ty →
      encodeTyped v = some p → encodeTyped w = some q →
      (p = q ↔ Same v w) ∧ (p <+: q → p = q)) ∧
    (∀ (fieldType : String → String → Ty) (ty : Ty) (v : TypedValue), HasType fieldType v ty →
      (Fits v → ∃ p, encodeTyped v = some p) ∧
        ∀ p, encodeTyped v = some p → encTyped v = some p) ∧
    (∀ (fieldType : String → String → Ty) (ty : Ty) (struct fld : String)
      (v w : List (String × TypedValue)) (skipField : Option String) (p : List UInt8),
      HasType fieldType (.struct struct v) ty → HasType fieldType (.struct struct w) ty →
      preimage skipField (.struct struct v) = some p →
      preimage skipField (.struct struct w) = some p →
      skipField ≠ some fld → SameAt v w fld) ∧
    (∀ (bits : F64 → Double) (d : Decision) (hash : DdsString),
      payloadHash bits { d with payloadHash := hash } = payloadHash bits d) ∧
    ∀ (bits : F64 → Double) (producerId : DdsString) (ttlNs : ℕ) (intent : WorkflowIntent)
      (outcome : Outcome) (createdNs : UInt64) (d : Decision),
      decide? bits producerId ttlNs intent outcome createdNs = some d →
      ∃ wire typed, decisionToFullWire d = some wire ∧ Covers bits d wire typed := by
  refine ⟨?_, ?_, ?_, payloadHash_eq, ?_⟩
  · intro fieldType ty v w p q hv hw hp hq
    exact ⟨hv.encodeTyped_eq_iff hw hp hq, (hv.delimits hw).eq_of_start hp hq⟩
  · intro fieldType ty v hv
    exact ⟨hv.exists_encodeTyped, fun p hp => hv.encTyped_eq_some hp⟩
  · intro fieldType ty struct fld v w skipField p hv hw hpv hpw hfld
    exact hv.preimage_inj hw hpv hpw hfld
  · intro bits producerId ttlNs intent outcome createdNs d h
    exact covers_of_decide? bits h

/-- The doubles of the sample answer. -/
def sampleBits : F64 → Double
  | .finite q =>
    if q = 0 then ⟨0⟩
    else if q = 1 then ⟨0x3ff0000000000000⟩
    else if q = 1 / 2 then ⟨0x3fe0000000000000⟩
    else if q = 1 / 4 then ⟨0x3fd0000000000000⟩
    else if q = 3 / 4 then ⟨0x3fe8000000000000⟩
    else if q = 9 / 10 then ⟨0x3feccccccccccccd⟩
    else if q = 1 / 50 then ⟨0x3f947ae147ae147b⟩
    else ⟨0x7ff8000000000000⟩
  | _ => ⟨0x7ff8000000000000⟩

theorem noNul_sampleProducer : '\x00' ∉ "laya-worker-1".toList := by decide

def sampleProducer : DdsString := ⟨"laya-worker-1", noNul_sampleProducer⟩

/-- An error and a prediction, and the two zeros as two values of one type. -/
theorem samples_are_covered :
    Same (.f64 ⟨0⟩) (.f64 ⟨0x8000000000000000⟩) ∧
      (∃ d wire typed,
        decide? sampleBits sampleProducer defaultTtlNs freeIntent .timeout 5000 = some d ∧
        decisionToFullWire d = some wire ∧ Covers sampleBits d wire typed) ∧
      ∃ d wire typed,
        decide? sampleBits sampleProducer defaultTtlNs pinnedIntent
          (.answered (sampleAnswer "QI_CRITICAL" (3 / 4))) 5000 = some d ∧
        decisionToFullWire d = some wire ∧ Covers sampleBits d wire typed := by
  obtain ⟨hinjective, -, -, -, hcovers⟩ := preimage_covers_decision
  refine ⟨?_, ?_, ?_⟩
  · have hpositive : encodeTyped (.f64 ⟨0⟩) = some (List.replicate 8 0) := by decide
    have hnegative : encodeTyped (.f64 ⟨0x8000000000000000⟩) = some (List.replicate 8 0) := by
      decide
    obtain ⟨hsame, -⟩ :=
      hinjective contractType .f64 _ _ _ _ (.f64 _) (.f64 _) hpositive hnegative
    exact hsame.mp rfl
  · have herror : decide? sampleBits sampleProducer defaultTtlNs freeIntent .timeout 5000 =
        some ((hashing sampleBits sampleProducer defaultTtlNs).decide freeIntent .timeout 5000) :=
      (decide?_eq_some_iff sampleBits).mpr ⟨rfl, by decide +kernel⟩
    exact ⟨_, (hcovers _ _ _ _ _ _ _ herror).imp fun _ => .imp fun _ h => ⟨herror, h⟩⟩
  · have hprediction : decide? sampleBits sampleProducer defaultTtlNs pinnedIntent
          (.answered (sampleAnswer "QI_CRITICAL" (3 / 4))) 5000 =
        some ((hashing sampleBits sampleProducer defaultTtlNs).decide pinnedIntent
          (.answered (sampleAnswer "QI_CRITICAL" (3 / 4))) 5000) :=
      (decide?_eq_some_iff sampleBits).mpr ⟨rfl, by decide +kernel⟩
    exact ⟨_, (hcovers _ _ _ _ _ _ _ hprediction).imp fun _ => .imp fun _ h => ⟨hprediction, h⟩⟩

end DdsOrchestrator.LayaWorker
