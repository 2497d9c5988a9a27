import DdsOrchestrator.Lib.Machine
import DdsOrchestrator.McpGateway.Policy

/-!
The policy of a gateway fails closed. Samples may be anything and come at any
time; what they leave in force is a document with rules and a version that agrees
with the one on record, each newer than the one before. A call is allowed only by
such a document, by all of its rules for the agent, and only while it is in time.
-/

namespace DdsOrchestrator.McpGateway

open Dataspace
open PolicyEngine (PolicyDocument SecurityLevel hasAgentSuffix)

/-! ### Ingests -/

namespace DistributedPolicy

/-- The envelope of a sample is one of this policy, and in time. -/
structure Enveloped (p : DistributedPolicy) (policyId : String) (version : Int32)
    (publishedBy : String) (timestampNs nowNs : UInt64) : Prop where
  policyId : policyId = p.policyId
  version : 0 < version
  publisher : publishedBy ≠ ""
  stamped : timestampNs ≠ 0
  notFuture : timestampNs.toNat - nowNs.toNat ≤ p.futureSkewNs.toNat
  notOld : nowNs.toNat - timestampNs.toNat ≤ p.maxAgeNs.toNat

variable {p : DistributedPolicy} {nowNs : UInt64}

theorem validateEnvelope_ok_iff {policyId publishedBy : String} {version : Int32}
    {timestampNs : UInt64} :
    p.validateEnvelope policyId version publishedBy timestampNs nowNs = .ok () ↔
      p.Enveloped policyId version publishedBy timestampNs nowNs := by
  unfold validateEnvelope
  constructor
  · intro h
    split at h
    · cases h
    split at h
    · cases h
    split at h
    · cases h
    split at h
    · cases h
    · next hid hversion hpublisher htime =>
        obtain ⟨hzero, hfuture, hold⟩ := not_or.mp htime |>.imp_right not_or.mp
        exact ⟨not_not.mp hid, Int32.not_le.mp hversion, hpublisher, hzero, not_lt.mp hfuture,
          not_lt.mp hold⟩
  · rintro ⟨hid, hversion, hpublisher, hzero, hfuture, hold⟩
    rw [if_neg (not_not.mpr hid), if_neg (Int32.not_le.mpr hversion), if_neg hpublisher,
      if_neg (not_or.mpr ⟨hzero, not_or.mpr ⟨not_lt.mpr hfuture, not_lt.mpr hold⟩⟩)]

/-- A snapshot is taken when its envelope and its document are in order and it goes
on from the policy in force. -/
structure Takes (parse : String → Except String Json) (p : DistributedPolicy)
    (s : SecurityPolicySnapshot) (nowNs : UInt64) (document : PolicyDocument) : Prop where
  enveloped : p.Enveloped s.policyId s.version s.publishedBy s.timestampNs nowNs
  parsed : parse s.policyJson = .ok document.raw
  nonempty : document.isEmpty = false
  version : document.version = s.version
  fresh : ∀ current ∈ p.active, ¬ isStale s document current

/-- What is in force once the snapshot is taken. -/
def ofSnapshot (s : SecurityPolicySnapshot) (document : PolicyDocument) : ActivePolicy :=
  ⟨s.version, document, s.publishedBy, s.timestampNs⟩

theorem ingestSnapshotAt_cases (parse : String → Except String Json) (p : DistributedPolicy)
    (s : SecurityPolicySnapshot) (nowNs : UInt64) :
    (∃ document, Takes parse p s nowNs document ∧
      p.ingestSnapshotAt parse s nowNs = (.ok, p.activate (ofSnapshot s document))) ∨
    (∃ e, p.ingestSnapshotAt parse s nowNs = (.error e, p)) := by
  unfold ingestSnapshotAt
  split
  · exact .inr ⟨_, rfl⟩
  next henv =>
    split
    · exact .inr ⟨_, rfl⟩
    next document hdoc =>
      split
      · exact .inr ⟨_, rfl⟩
      next hempty =>
        split
        · exact .inr ⟨_, rfl⟩
        next hversion =>
          split
          · exact .inr ⟨_, rfl⟩
          next hstale =>
            left
            refine ⟨document, ⟨validateEnvelope_ok_iff.mp henv, ?_, ?_, not_not.mp hversion, ?_⟩,
              rfl⟩
            · unfold PolicyDocument.fromJsonStr at hdoc
              split at hdoc
              · next raw hparse =>
                  cases hdoc
                  exact hparse
              · cases hdoc
            · simpa using hempty
            · intro current hcurrent h
              exact hstale ⟨current, hcurrent, h⟩

/-- The document of an update, from the one in force. -/
structure Continues (parse : String → Except String Json) (p : DistributedPolicy)
    (u : SecurityPolicyUpdate) (nowNs : UInt64) (current : ActivePolicy) (delta : Json) : Prop where
  enveloped : p.Enveloped u.policyId u.newVersion u.publishedBy u.timestampNs nowNs
  parsed : parse u.ruleDeltaJson = .ok delta
  active : p.active = some current
  newer : current.version < u.newVersion
  later : current.timestampNs < u.timestampNs

def ofUpdate (u : SecurityPolicyUpdate) (document : PolicyDocument) : ActivePolicy :=
  ⟨u.newVersion, document, u.publishedBy, u.timestampNs⟩

theorem ingestUpdateAt_cases (parse : String → Except String Json) (p : DistributedPolicy)
    (u : SecurityPolicyUpdate) (nowNs : UInt64) :
    (∃ current delta document, Continues parse p u nowNs current delta ∧
      updateDocument current.document u delta = .ok (some document) ∧
      document.isEmpty = false ∧
      p.ingestUpdateAt parse u nowNs = (.ok, p.activate (ofUpdate u document))) ∨
    (∃ e, p.ingestUpdateAt parse u nowNs = (.error e, p)) ∨
    (∃ current delta, Continues parse p u nowNs current delta ∧
      updateDocument current.document u delta = .ok none ∧
      p.ingestUpdateAt parse u nowNs = (.panicked, p)) := by
  unfold ingestUpdateAt
  split
  · exact .inr (.inl ⟨_, rfl⟩)
  next henv =>
    split
    · exact .inr (.inl ⟨_, rfl⟩)
    next delta hparse =>
      split
      · exact .inr (.inl ⟨_, rfl⟩)
      next current hactive =>
        split
        · exact .inr (.inl ⟨_, rfl⟩)
        next hchain =>
          have hcont : Continues parse p u nowNs current delta := by
            simp only [not_or] at hchain
            obtain ⟨-, hnewer, -, hlater⟩ := hchain
            exact ⟨validateEnvelope_ok_iff.mp henv, hparse, hactive, Int32.not_le.mp hnewer,
              UInt64.not_le.mp hlater⟩
          split
          · exact .inr (.inl ⟨_, rfl⟩)
          · next hdoc => exact .inr (.inr ⟨current, delta, hcont, hdoc, rfl⟩)
          next document hdoc =>
            split
            · exact .inr (.inl ⟨_, rfl⟩)
            · next hempty =>
                exact .inl ⟨current, delta, document, hcont, hdoc, by simpa using hempty, rfl⟩

/-- From an object, an update leaves an object with its own version. -/
theorem updateDocument_of_isObject {document : PolicyDocument} (hdoc : document.raw.isObject)
    (u : SecurityPolicyUpdate) (delta : Json) :
    (∃ e, updateDocument document u delta = .error e) ∨
      ∃ document', updateDocument document u delta = .ok (some document') ∧
        document'.version = u.newVersion ∧ document'.isEmpty = false := by
  unfold updateDocument
  split
  · exact .inl ⟨_, rfl⟩
  · next merged hmerged =>
      obtain ⟨document', hset⟩ := PolicyDocument.setVersion_of_isObject
        (PolicyDocument.applyDelta_isObject hdoc hmerged) u.newVersion
      exact .inr ⟨document', by rw [hset], PolicyDocument.setVersion_eq_some hset⟩

/-! ### What is in force -/

/-- A sample, with the time at which it comes in. -/
inductive Sample where
  | snapshot (s : SecurityPolicySnapshot) (nowNs : UInt64)
  | update (u : SecurityPolicyUpdate) (nowNs : UInt64)

def ingest (parse : String → Except String Json) (p : DistributedPolicy) :
    Sample → Ingest × DistributedPolicy
  | .snapshot s nowNs => p.ingestSnapshotAt parse s nowNs
  | .update u nowNs => p.ingestUpdateAt parse u nowNs

/-- The policy after a number of samples. -/
def run (parse : String → Except String Json) (p : DistributedPolicy) (samples : List Sample) :
    DistributedPolicy :=
  samples.foldl (fun p s => (p.ingest parse s).2) p

end DistributedPolicy

/-- The document in force is an object with entries, and its version the positive
one on record. -/
structure ActivePolicy.Sound (policy : ActivePolicy) : Prop where
  object : ∃ fs, policy.document.raw = .obj fs ∧ fs ≠ .nil
  version : policy.document.version = policy.version
  positive : 0 < policy.version

theorem ActivePolicy.sound_of {policy : ActivePolicy} (hdoc : policy.document.isEmpty = false)
    (hversion : policy.document.version = policy.version) (hpos : 0 < policy.version) :
    policy.Sound := by
  obtain ⟨fs, hraw, hfs⟩ := PolicyDocument.isEmpty_eq_false_iff.mp hdoc
  refine ⟨⟨fs, hraw, ?_⟩, hversion, hpos⟩
  rintro rfl
  cases hfs

theorem ActivePolicy.Sound.isEmpty {policy : ActivePolicy} (h : policy.Sound) :
    policy.document.isEmpty = false := by
  obtain ⟨fs, hraw, hfs⟩ := h.object
  refine PolicyDocument.isEmpty_eq_false_iff.mpr ⟨fs, hraw, ?_⟩
  cases fs with
  | nil => exact absurd rfl hfs
  | cons => rfl

namespace DistributedPolicy

variable {parse : String → Except String Json} {p : DistributedPolicy}

/-- Whatever is in force is sound. -/
def Guarded (p : DistributedPolicy) : Prop := ∀ policy, p.active = some policy → policy.Sound

/-- What one sample does: an accepted one puts a sound policy in force that goes on
from the one before, and any other changes nothing. -/
theorem Guarded.ingest_cases (h : p.Guarded) (parse : String → Except String Json) (s : Sample) :
    (∃ policy, policy.Sound ∧ p.ingest parse s = (.ok, p.activate policy) ∧
      ∀ current, p.active = some current →
        current.version ≤ policy.version ∧ current.timestampNs < policy.timestampNs) ∨
    (∃ e, p.ingest parse s = (.error e, p)) := by
  cases s with
  | snapshot s nowNs =>
      obtain ⟨document, htakes, heq⟩ | herror := ingestSnapshotAt_cases parse p s nowNs
      · refine .inl ⟨ofSnapshot s document, ActivePolicy.sound_of htakes.nonempty htakes.version
          htakes.enveloped.version, heq, fun current hcurrent => ?_⟩
        have hfresh := htakes.fresh current hcurrent
        simp only [isStale, not_or] at hfresh
        exact ⟨Int32.not_lt.mp hfresh.1, UInt64.not_le.mp hfresh.2.1⟩
      · exact .inr herror
  | update u nowNs =>
      obtain ⟨current, delta, document, hcont, hdoc, hempty, heq⟩ | herror |
        ⟨current, delta, hcont, hdoc, -⟩ := ingestUpdateAt_cases parse p u nowNs
      · left
        have hobject := PolicyDocument.isObject_of_isEmpty (h current hcont.active).isEmpty
        have hversion : document.version = u.newVersion := by
          obtain ⟨e, he⟩ | ⟨document', hdoc', hversion, -⟩ :=
            updateDocument_of_isObject hobject u delta
          · rw [he] at hdoc
            cases hdoc
          · rw [hdoc'] at hdoc
            cases hdoc
            exact hversion
        refine ⟨ofUpdate u document, ActivePolicy.sound_of hempty hversion hcont.enveloped.version,
          heq, fun other hother => ?_⟩
        rw [hcont.active] at hother
        cases hother
        exact ⟨Int32.le_of_lt hcont.newer, hcont.later⟩
      · exact .inr herror
      · -- the assignment of the version finds an object
        exfalso
        have hobject := PolicyDocument.isObject_of_isEmpty (h current hcont.active).isEmpty
        obtain ⟨e, he⟩ | ⟨document', hdoc', -⟩ :=
          updateDocument_of_isObject hobject u delta
        · rw [he] at hdoc
          cases hdoc
        · rw [hdoc'] at hdoc
          cases hdoc

theorem Guarded.ingest (h : p.Guarded) (s : Sample) : (p.ingest parse s).2.Guarded := by
  obtain ⟨policy, hsound, heq, -⟩ | ⟨e, heq⟩ := h.ingest_cases parse s
  · rw [heq]
    intro other hother
    cases hother
    exact hsound
  · rw [heq]
    exact h

theorem guarded_run (parse : String → Except String Json) (policyId : String) (maxAgeNs : UInt64)
    (samples : List Sample) : ((new policyId maxAgeNs).run parse samples).Guarded := by
  refine Machine.foldl_invariant samples ?_ fun _ s h => h.ingest s
  intro policy hpolicy
  cases hpolicy

/-! ### Who is allowed -/

/-- Everything that has to hold for a call to be allowed. -/
structure Permits (p : DistributedPolicy) (policy : ActivePolicy) (request : ToolCallRequest)
    (nowNs : UInt64) : Prop where
  notOld : nowNs.toNat - p.maxAgeNs.toNat ≤ policy.timestampNs.toNat
  notFuture : policy.timestampNs.toNat ≤ nowNs.toNat + p.futureSkewNs.toNat
  requester : request.requesterId ≠ ""
  allowlisted : request.toolName ∈ policy.document.allowlist request.requesterId
  notHighRisk : request.toolName ∉ policy.document.highRiskTools
  authorised : ∃ a ∈ policy.document.allowedAgents,
    request.requesterId = a ∨ hasAgentSuffix request.requesterId a
  /-- The level is one of the agent's, or of a role it is an instance of. -/
  level : ∃ level : SecurityLevel, level.toInt = request.securityLevel ∧
    ∃ name, (name = request.requesterId ∨
      name ∈ policy.document.allowedAgents ∧ hasAgentSuffix request.requesterId name) ∧
      level.name ∈ policy.document.allowedLevels name

theorem le_of_not_saturatingAdd_lt {now skew t : UInt64} (h : ¬ saturatingAdd now skew < t) :
    t.toNat ≤ now.toNat + skew.toNat := by
  have hle : t.toNat ≤ (saturatingAdd now skew).toNat := UInt64.le_iff_toNat_le.mp
    (UInt64.not_lt.mp h)
  have hsize := t.toNat_lt
  unfold saturatingAdd at hle
  split at hle
  · next hfits =>
      rw [UInt64.toNat_add] at hle
      have : UInt64.size = 2 ^ 64 := rfl
      omega
  · next hover =>
      have : UInt64.size = 2 ^ 64 := rfl
      omega

theorem tryFrom_ok {n : Int} {level : SecurityLevel} (h : SecurityLevel.tryFrom n = .ok level) :
    level.toInt = n := by
  unfold SecurityLevel.tryFrom at h
  split at h <;> cases h <;> rfl

/-- The empty document would allow every tool; it is never in force. -/
theorem Guarded.permits (h : p.Guarded) {request : ToolCallRequest} {nowNs : UInt64}
    {version : Int32} (hallowed : p.evaluateAt request nowNs = .allowed version) :
    ∃ policy, p.active = some policy ∧ policy.version = version ∧
      p.Permits policy request nowNs := by
  unfold evaluateAt at hallowed
  split at hallowed
  · cases hallowed
  next level hlevel =>
    split at hallowed
    · cases hallowed
    next hrequester =>
      split at hallowed
      · cases hallowed
      next policy hactive =>
        split at hallowed
        · cases hallowed
        next htime =>
          split at hallowed
          · cases hallowed
          next htool =>
            split at hallowed
            next hllm =>
              cases hallowed
              obtain ⟨hfuture, hold⟩ := not_or.mp htime
              obtain ⟨hlisted, hrisk⟩ := PolicyDocument.checkToolCall_isAllowed
                (h policy hactive).isEmpty (not_not.mp htool)
              obtain ⟨hagents, hlevels⟩ := PolicyDocument.checkLlmRequest_allowed hllm
              exact ⟨policy, hactive, rfl, by omega, le_of_not_saturatingAdd_lt hfuture,
                hrequester, hlisted, hrisk, hagents, level, tryFrom_ok hlevel, hlevels⟩
            · cases hallowed
            · cases hallowed

/-- What holds of the policy in every state it can get to. -/
structure FailClosed (parse : String → Except String Json) (p : DistributedPolicy) : Prop where
  sound : ∀ policy, p.active = some policy → policy.Sound
  noPanic : ∀ s, (p.ingest parse s).1 ≠ .panicked
  unchanged : ∀ s, (p.ingest parse s).1 ≠ .ok → (p.ingest parse s).2 = p
  /-- The version never goes back, and an accepted sample is always later. -/
  monotone : ∀ s current, p.active = some current → ∃ policy,
    (p.ingest parse s).2.active = some policy ∧ current.version ≤ policy.version ∧
      ((p.ingest parse s).1 = .ok → current.timestampNs < policy.timestampNs)
  allowed : ∀ request nowNs version, p.evaluateAt request nowNs = .allowed version →
    ∃ policy, p.active = some policy ∧ policy.version = version ∧ p.Permits policy request nowNs

theorem Guarded.failClosed (h : p.Guarded) : FailClosed parse p := by
  refine ⟨h, fun s => ?_, fun s hs => ?_, fun s current hcurrent => ?_, fun _ _ _ => h.permits⟩
  · obtain ⟨policy, -, heq, -⟩ | ⟨e, heq⟩ := h.ingest_cases parse s <;> simp [heq]
  · obtain ⟨policy, -, heq, -⟩ | ⟨e, heq⟩ := h.ingest_cases parse s
    · exact absurd (congrArg Prod.fst heq) hs
    · rw [heq]
  · obtain ⟨policy, -, heq, hnext⟩ | ⟨e, heq⟩ := h.ingest_cases parse s
    · rw [heq]
      exact ⟨policy, rfl, (hnext current hcurrent).1, fun _ => (hnext current hcurrent).2⟩
    · rw [heq]
      exact ⟨current, hcurrent, Int32.le_refl _, fun hok => by cases hok⟩

end DistributedPolicy

/-- Whatever samples a policy has been fed, and whenever: it fails closed. -/
theorem policy_fails_closed (parse : String → Except String Json) (policyId : String)
    (maxAgeNs : UInt64) (samples : List DistributedPolicy.Sample) :
    DistributedPolicy.FailClosed parse
      ((DistributedPolicy.new policyId maxAgeNs).run parse samples) :=
  (DistributedPolicy.guarded_run parse policyId maxAgeNs samples).failClosed

end DdsOrchestrator.McpGateway
