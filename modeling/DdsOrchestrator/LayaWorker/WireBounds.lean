import DdsOrchestrator.Lib.Utf8
import DdsOrchestrator.LayaWorker.Preimage

/-!
The bounds of the wire. The strings and sequences of a decision have to fit into those of the
type it is sent as, on the path of an error as on that of a prediction.

All of them do but one: the id of the decision is that of the request behind four more
characters, and both have the same bound.
-/

namespace DdsOrchestrator.LayaWorker

open WorkflowEngine (F64 DdsString WorkflowIntent)

/-- An identifier as the contract has it. -/
structure IsId (s : String) : Prop where
  nonempty : s ≠ ""
  length : s.length ≤ 64
  ascii : ∀ c ∈ s.toList, c.toNat < 128

/-- The string fits into `string<bound>`. -/
def Within (s : String) (bound : ℕ) : Prop := s.utf8ByteSize ≤ bound

/-- The decision fits into the type on the wire, and does not outlive the intent. -/
structure FitsWire (intent : WorkflowIntent) (d : Decision) : Prop where
  requestId : Within d.requestId.val 64
  decisionId : Within d.decisionId.val 64
  workflowId : Within d.workflowId.val 64
  producerId : Within d.producerId.val 64
  modelId : Within d.modelId.val 256
  checkpointRevision : Within d.checkpointRevision.val 64
  capabilityId : ∀ c ∈ d.capabilityProbabilities, Within c.1 64
  calibrationRevision : Within d.calibrationRevision.val 64
  evidenceDigest : Within d.evidenceDigest.val 64
  payloadHash : Within d.payloadHash.val 64
  qosProbabilities : d.qosProbabilities.length ≤ 5
  capabilityProbabilities : d.capabilityProbabilities.length ≤ 16
  priorityProbabilities : d.priorityProbabilities.length ≤ 3
  validUntil : d.validUntilNs ≤ intent.deadlineNs

/-- The strings that an answer brings with it fit. -/
structure LayaAnswer.StringsFit (a : LayaAnswer) : Prop where
  modelId : Within a.modelId.val 256
  checkpointRevision : Within a.checkpointRevision.val 64
  calibrationRevision : Within a.calibrationRevision.val 64

theorem IsId.within {s : String} (h : IsId s) : Within s 64 := by
  rw [Within, Utf8.utf8ByteSize_of_ascii h.ascii]
  exact h.length

theorem IsId.of_all {s : String} (hne : s ≠ "") (hlength : s.length ≤ 64)
    (hascii : s.toList.all (fun c => c.toNat < 128) = true) : IsId s :=
  ⟨hne, hlength, fun c hc => by simpa using List.all_eq_true.mp hascii c hc⟩

/-! ### Fields of one size -/

theorem within_hexDigest (bytes : List UInt8) : Within (hexDigest bytes) 64 := by
  have hdigit : ∀ i < 16, (Nat.digitChar i).toNat < 128 := by decide
  have hascii : ∀ c ∈ (hexDigest bytes).toList, c.toNat < 128 := by
    rw [hexDigest, String.toList_ofList]
    intro c hc
    obtain ⟨word, -, hword⟩ := List.mem_flatMap.mp hc
    obtain ⟨i, -, rfl⟩ := List.mem_map.mp hword
    exact hdigit _ (Nat.mod_lt _ (by omega))
  rw [Within, Utf8.utf8ByteSize_of_ascii hascii, ← String.length_toList, hexDigest,
    String.toList_ofList]
  exact Nat.le_refl 64

theorem within_empty (bound : ℕ) : Within emptyString.val bound := by
  rw [Within, emptyString, String.utf8ByteSize_empty]
  exact Nat.zero_le bound

/-- Four characters go before the id of the request. -/
theorem within_decisionIdOf (requestId : DdsString) (h : IsId requestId.val) :
    Within (decisionIdOf requestId).val 64 ↔ requestId.val.length ≤ 60 := by
  have hsize : (decisionIdOf requestId).val.utf8ByteSize = 4 + requestId.val.length := by
    rw [← Utf8.utf8ByteSize_of_ascii h.ascii]
    exact String.utf8ByteSize_append
  rw [Within, hsize]
  omega

theorem within_capabilityCatalog : ∀ c ∈ capabilityCatalog, Within c 64 := by
  unfold Within
  decide

/-! ### The two paths -/

section Bounds

variable (bits : F64 → Double) {producerId : DdsString} {ttlNs : ℕ} {intent : WorkflowIntent}
  {outcome : Outcome} {createdNs : UInt64} {d : Decision}

theorem within_payloadHash
    (h : decide? bits producerId ttlNs intent outcome createdNs = some d) :
    Within d.payloadHash.val 64 := by
  obtain ⟨typed, -, hdigest⟩ := Option.bind_eq_some_iff.mp (payloadHash_of_decide? bits h)
  obtain ⟨bytes, -, heq⟩ := Option.map_eq_some_iff.mp hdigest
  rw [← heq]
  exact within_hexDigest bytes

theorem fitsWire_error {w : Worker} {reason : ReasonCode} (hid : IsId intent.requestId.val)
    (hworkflow : IsId intent.workflowId.val) (hproducer : Within w.producerId.val 64)
    (hhash : Within (w.finish (errorDecision intent reason createdNs w.producerId)).payloadHash.val
      64) :
    FitsWire intent (w.finish (errorDecision intent reason createdNs w.producerId)) ↔
      intent.requestId.val.length ≤ 60 := by
  rw [← within_decisionIdOf _ hid]
  constructor
  · exact FitsWire.decisionId
  · intro hdecision
    have hmodel : Within "unavailable" 256 := by
      unfold Within
      decide
    refine ⟨hid.within, hdecision, hworkflow.within, hproducer, hmodel, within_empty 64, ?_,
      within_empty 64, within_empty 64, hhash, Nat.zero_le 5, Nat.zero_le 16, Nat.zero_le 3,
      validUntil_le _ _ _⟩
    intro c hc
    cases hc

theorem fitsWire_ok {w : Worker} {a : LayaAnswer} (ha : answerIsSelfConsistent a = true)
    (hfit : a.StringsFit) (hid : IsId intent.requestId.val)
    (hworkflow : IsId intent.workflowId.val) (hproducer : Within w.producerId.val 64)
    (hhash : Within (w.finish (okDecision intent a createdNs w.ttlNs w.producerId)).payloadHash.val
      64) :
    FitsWire intent (w.finish (okDecision intent a createdNs w.ttlNs w.producerId)) ↔
      intent.requestId.val.length ≤ 60 := by
  rw [← within_decisionIdOf _ hid]
  constructor
  · exact FitsWire.decisionId
  · intro hdecision
    refine ⟨hid.within, hdecision, hworkflow.within, hproducer, hfit.modelId,
      hfit.checkpointRevision, ?_, hfit.calibrationRevision, within_empty 64, hhash,
      Nat.le_refl 5, ?_, ?_, validUntil_le _ _ _⟩
    · intro c hc
      obtain ⟨label, hlabel, rfl⟩ := List.mem_map.mp hc
      exact within_capabilityCatalog label hlabel
    · have hlength : capabilityCatalog.length ≤ 16 := by decide
      exact (List.length_map (knownCapability a)).trans_le hlength
    · exact (consistent_of ha).priorityLength.le

/-- A decision fits exactly if the id of its request leaves room for the prefix. -/
theorem decision_fits_iff (h : decide? bits producerId ttlNs intent outcome createdNs = some d)
    (hid : IsId intent.requestId.val) (hworkflow : IsId intent.workflowId.val)
    (hproducer : Within producerId.val 64)
    (hadapter : ∀ a, outcome = .answered a → a.StringsFit) :
    FitsWire intent d ↔ intent.requestId.val.length ≤ 60 := by
  have hhash := within_payloadHash bits h
  obtain ⟨rfl, -⟩ := (decide?_eq_some_iff bits).mp h
  obtain ⟨reason, -, hdecide⟩ | ⟨a, houtcome, ha, hdecide⟩ :=
    decide_cases (hashing bits producerId ttlNs) intent outcome createdNs
  · rw [hdecide] at hhash ⊢
    exact fitsWire_error hid hworkflow hproducer hhash
  · rw [hdecide] at hhash ⊢
    exact fitsWire_ok ha (hadapter a houtcome) hid hworkflow hproducer hhash

end Bounds

theorem sample_decision_fits :
    FitsWire pinnedIntent ((hashing sampleBits sampleProducer defaultTtlNs).decide pinnedIntent
      (.answered (sampleAnswer "QI_CRITICAL" (3 / 4))) 5000) := by
  refine (decision_fits_iff sampleBits ((decide?_eq_some_iff sampleBits).mpr
    ⟨rfl, by decide +kernel⟩) (.of_all (by decide) (by decide) (by decide))
    (.of_all (by decide) (by decide) (by decide)) (by unfold Within; decide) ?_).mpr (by decide)
  rintro a ⟨⟩
  refine ⟨?_, ?_, ?_⟩ <;> unfold Within <;> decide

/-- The longest id that a request may have. -/
def longestId : DdsString := ⟨String.ofList (List.replicate 64 'a'), by
  rw [String.toList_ofList, List.mem_replicate]
  rintro ⟨-, h⟩
  cases h⟩

def longestIntent : WorkflowIntent := { freeIntent with requestId := longestId }

theorem toList_longestId : longestId.val.toList = List.replicate 64 'a' := String.toList_ofList

theorem isId_longestId : IsId longestId.val := by
  refine ⟨by decide, by decide, fun c hc => ?_⟩
  rw [toList_longestId] at hc
  obtain rfl := List.eq_of_mem_replicate hc
  decide

/-- The decision on the longest id does not fit. -/
theorem longest_request_overflows :
    IsId longestIntent.requestId.val ∧ IsId longestIntent.workflowId.val ∧
      ∃ d, decide? sampleBits sampleProducer defaultTtlNs longestIntent .timeout 5000 = some d ∧
        d.decisionId.val.utf8ByteSize = 68 ∧ ¬ FitsWire longestIntent d := by
  refine ⟨isId_longestId, .of_all (by decide) (by decide) (by decide), _,
    (decide?_eq_some_iff sampleBits).mpr ⟨rfl, by decide +kernel⟩, by decide, fun h => ?_⟩
  have hlength := (within_decisionIdOf _ isId_longestId).mp h.decisionId
  exact absurd hlength (by decide)

end DdsOrchestrator.LayaWorker
