import DdsOrchestrator.Dataspace.Wire

/-!
When an agent may take a node: its announcement is of the right protocol and
catalog, knows no labels the catalog does not, is still valid and offers every
capability of the node, and its registry entry, where there is one, is healthy, has a
slot and serves the model.
-/

namespace DdsOrchestrator.WorkflowEngine

open Wire (AgentCapabilities AgentState)

def adaptiveProtocolVersion : UInt16 := 1

def ahHealthy : Int32 := 2

inductive NotEligible where
  | noAnnouncement
  | protocolVersion (got expected : UInt16)
  | catalogRevision (got expected : UInt32)
  | unknownLabels (labels : List String)
  | expired (validUntilNs nowNs : UInt64)
  | missingCapability (label : String)
  | unhealthy (health : Int32)
  | noSlots (busy total : UInt32)
  | modelUnavailable (model : String)
  deriving DecidableEq

/-- The labels of an announcement. -/
def announced (caps : AgentCapabilities) : List String := caps.capabilities.items.map (·.val)

def validateAnnouncement (caps : AgentCapabilities) (nowNs : UInt64) (catalog : Catalog) :
    Except NotEligible Unit :=
  if caps.adaptiveProtocolVersion ≠ adaptiveProtocolVersion then
    .error (.protocolVersion caps.adaptiveProtocolVersion adaptiveProtocolVersion)
  else if caps.capabilityCatalogRevision ≠ catalog.revision then
    .error (.catalogRevision caps.capabilityCatalogRevision catalog.revision)
  else if catalog.unknown (announced caps) ≠ [] then
    .error (.unknownLabels (catalog.unknown (announced caps)))
  else if caps.validUntilNs < nowNs then .error (.expired caps.validUntilNs nowNs)
  else .ok ()

/-- What the registry has to say; an agent without a registry entry is not asked. -/
def checkRegistry (registry : Option AgentState) (modelRequired : Option String) :
    Except NotEligible Unit :=
  match registry with
  | none => .ok ()
  | some reg =>
      if reg.health ≠ ahHealthy then .error (.unhealthy reg.health)
      else if reg.slotsTotal ≤ reg.slotsBusy then .error (.noSlots reg.slotsBusy reg.slotsTotal)
      else
        match modelRequired with
        | none => .ok ()
        | some model => if reg.model ≠ model then .error (.modelUnavailable model) else .ok ()

def isEligible (announcement : Option AgentCapabilities) (registry : Option AgentState)
    (required : List String) (modelRequired : Option String) (nowNs : UInt64) :
    Except NotEligible Unit :=
  match announcement with
  | none => .error .noAnnouncement
  | some caps =>
      match validateAnnouncement caps nowNs catalogV1 with
      | .error e => .error e
      | .ok () =>
          match required.find? fun r => r ∉ announced caps with
          | some r => .error (.missingCapability r)
          | none => checkRegistry registry modelRequired

/-- The announcement is valid at this time. -/
structure AnnouncementValid (caps : AgentCapabilities) (nowNs : UInt64) : Prop where
  protocol : caps.adaptiveProtocolVersion = adaptiveProtocolVersion
  catalog : caps.capabilityCatalogRevision = catalogV1.revision
  known : ∀ l ∈ announced caps, l ∈ catalogV1.labels
  fresh : nowNs ≤ caps.validUntilNs

/-- The registry entry is healthy, has a slot and serves the model, if one is asked
for. -/
structure Serves (reg : AgentState) (modelRequired : Option String) : Prop where
  healthy : reg.health = ahHealthy
  slot : reg.slotsBusy < reg.slotsTotal
  model : ∀ m, modelRequired = some m → reg.model = m

theorem validateAnnouncement_eq_ok_iff {caps : AgentCapabilities} {nowNs : UInt64} :
    validateAnnouncement caps nowNs catalogV1 = .ok () ↔ AnnouncementValid caps nowNs := by
  unfold validateAnnouncement
  constructor
  · intro h
    split_ifs at h with hprotocol hcatalog hlabels hfresh
    exact ⟨not_not.mp hprotocol, not_not.mp hcatalog,
      Catalog.unknown_eq_nil.mp (not_not.mp hlabels), UInt64.not_lt.mp hfresh⟩
  · rintro ⟨hprotocol, hcatalog, hknown, hfresh⟩
    rw [if_neg (not_not.mpr hprotocol), if_neg (not_not.mpr hcatalog),
      if_neg (not_not.mpr (Catalog.unknown_eq_nil.mpr hknown)), if_neg (UInt64.not_lt.mpr hfresh)]

theorem checkRegistry_eq_ok_iff {registry : Option AgentState} {modelRequired : Option String} :
    checkRegistry registry modelRequired = .ok () ↔
      ∀ reg, registry = some reg → Serves reg modelRequired := by
  cases registry with
  | none => simp [checkRegistry]
  | some reg =>
      simp only [checkRegistry, Option.some.injEq, forall_eq']
      constructor
      · intro h
        split_ifs at h with hhealth hslots
        refine ⟨not_not.mp hhealth, UInt32.not_le.mp hslots, ?_⟩
        rintro m rfl
        simp only at h
        split_ifs at h with hmodel
        exact not_not.mp hmodel
      · rintro ⟨hhealth, hslots, hmodel⟩
        rw [if_neg (not_not.mpr hhealth), if_neg (UInt32.not_le.mpr hslots)]
        cases modelRequired with
        | none => rfl
        | some m => simp [hmodel m rfl]

/-- The agent is eligible exactly if its announcement is valid and offers what is
required and its registry entry, where there is one, serves the node. -/
theorem isEligible_eq_ok_iff {announcement : Option AgentCapabilities}
    {registry : Option AgentState} {required : List String} {modelRequired : Option String}
    {nowNs : UInt64} :
    isEligible announcement registry required modelRequired nowNs = .ok () ↔
      ∃ caps, announcement = some caps ∧ AnnouncementValid caps nowNs ∧
        (∀ r ∈ required, r ∈ announced caps) ∧
        ∀ reg, registry = some reg → Serves reg modelRequired := by
  cases announcement with
  | none => simp [isEligible]
  | some caps =>
      simp only [isEligible, Option.some.injEq, exists_eq_left']
      rw [← validateAnnouncement_eq_ok_iff, ← checkRegistry_eq_ok_iff]
      cases hvalid : validateAnnouncement caps nowNs catalogV1 with
      | error e => simp
      | ok u =>
          cases hfind : required.find? fun r => r ∉ announced caps with
          | some r =>
              have hmissing := List.find?_some hfind
              have hr := List.mem_of_find?_eq_some hfind
              simp only [true_and, reduceCtorEq, false_iff, not_and]
              exact fun hall => absurd (hall r hr) (by simpa using hmissing)
          | none =>
              rw [List.find?_eq_none] at hfind
              simp only [true_and]
              exact ⟨fun h => ⟨fun r hr => by simpa using hfind r hr, h⟩, fun h => h.2⟩

end DdsOrchestrator.WorkflowEngine
