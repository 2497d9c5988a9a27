import DdsOrchestrator.Lib.Json
import DdsOrchestrator.Dataspace.Samples

/-!
The document of policies and its two checks: of an inference request and of a
tool call. The document is kept as JSON; a rule that is missing, or that has
another shape than the one that is read, counts as an empty one. Deltas merge
into the document or take keys out of it.
-/

namespace DdsOrchestrator.PolicyEngine

inductive SecurityLevel where
  | publicLevel
  | internal
  | confidential
  | restricted
  deriving DecidableEq

namespace SecurityLevel

def tryFrom : Int → Except Int SecurityLevel
  | 0 => .ok publicLevel
  | 1 => .ok internal
  | 2 => .ok confidential
  | 3 => .ok restricted
  | invalid => .error invalid

def toInt : SecurityLevel → Int
  | publicLevel => 0
  | internal => 1
  | confidential => 2
  | restricted => 3

def name : SecurityLevel → String
  | publicLevel => "PUBLIC"
  | internal => "INTERNAL"
  | confidential => "CONFIDENTIAL"
  | restricted => "RESTRICTED"

end SecurityLevel

/-- The text of the error for a level outside the closed set. -/
def invalidSecurityLevel (level : Int) : String :=
  "security_level inválido: " ++ toString level ++ "; esperado 0..=3"

inductive PolicyDecision where
  | allowed
  | allowedNoPolicy
  | denied (reason : String)
  deriving DecidableEq

def PolicyDecision.isAllowed : PolicyDecision → Bool
  | allowed | allowedNoPolicy => true
  | denied _ => false

/-- The text of a parse error is the parser's. -/
inductive PolicyError where
  | json (text : String)
  | invalidDelta (text : String)
  | staleVersion
  | dataSpace (e : Dataspace.DataSpaceError)
  deriving DecidableEq

/-- `agent_id` is an instance of the role: the name of the role, a dash and
more. -/
def hasAgentSuffix (agentId role : String) : Bool :=
  (role.toList ++ ['-']).isPrefixOf agentId.toList

def strListDirect (value : Option Json) : List String :=
  ((value.bind Json.asArray).map (·.filterMap Json.asStr)).getD []

def strList (value : Option Json) (key : String) : List String :=
  strListDirect (value.bind (·.get? key))

def isFalsyRule (v : Json) : Bool := v.isNull || v.asObject.any Json.Fields.isEmpty

mutual

/-- Objects merge key by key; any other pair is replaced by the delta. -/
def deepMerge (base : Json) : Json → Json
  | .obj d =>
      match base with
      | .obj b => .obj (mergeFields b d)
      | _ => .obj d
  | delta => delta

def mergeFields (b : Json.Fields) : Json.Fields → Json.Fields
  | .nil => b
  | .cons k v d =>
      match b.get? k with
      | some bv => mergeFields (b.insert k (deepMerge bv v)) d
      | none => mergeFields (b.insert k v) d

end

mutual

/-- The leaves of the delta name the keys to take out; nested objects lead to
them. -/
def removePaths (base : Json) : Json → Json
  | .obj d =>
      match base with
      | .obj b => .obj (removeFields b d)
      | other => other
  | _ => base

def removeFields (b : Json.Fields) : Json.Fields → Json.Fields
  | .nil => b
  | .cons k v d =>
      if v.isObject then
        match b.get? k with
        | some bv => removeFields (b.insert k (removePaths bv v)) d
        | none => removeFields b d
      else removeFields (b.erase k) d

end

structure PolicyDocument where
  raw : Json
  deriving DecidableEq

namespace PolicyDocument

/-- `parse` is the JSON parser, with the text of its error. -/
def fromJsonStr (parse : String → Except String Json) (s : String) :
    Except PolicyError PolicyDocument :=
  match parse s with
  | .ok raw => .ok ⟨raw⟩
  | .error text => .error (.json text)

/-- The integer under `version`, cut to 32 bits. -/
def version (doc : PolicyDocument) : Int32 :=
  Int32.ofInt (((doc.raw.get? "version").bind Json.asI64).getD 0)

def isEmpty (doc : PolicyDocument) : Bool :=
  match doc.raw.asObject with
  | some fs => fs.isEmpty
  | none => true

/-- There is no result where the document is neither an object nor `null`: the
assignment panics. -/
def setVersion (doc : PolicyDocument) (version : Int32) : Option PolicyDocument :=
  (doc.raw.setIndex "version" (.ofInt version.toInt)).map PolicyDocument.mk

def rule (doc : PolicyDocument) (name : String) : Option Json :=
  (doc.raw.get? "rules").bind (·.get? name)

/-- The policy of the agent itself or, where that is missing or empty, the one of
the first allowed role the agent is an instance of. -/
def agentPolicy (llmRules : Option Json) (allowedAgents : List String) (agentId : String) :
    Option Json :=
  let agentPolicies := (llmRules.bind (·.get? "agent_policies")).bind Json.asObject
  let own := agentPolicies.bind (·.get? agentId)
  if own.all isFalsyRule then
    match allowedAgents.find? (hasAgentSuffix agentId) with
    | some role => agentPolicies.bind (·.get? role)
    | none => own
  else own

def checkLlmRequest (doc : PolicyDocument) (agentId : String) (securityLevel : Int) :
    PolicyDecision :=
  match SecurityLevel.tryFrom securityLevel with
  | .error invalid => .denied (invalidSecurityLevel invalid)
  | .ok level =>
      if doc.isEmpty then .allowedNoPolicy
      else
        let llmRules := doc.rule "llm_inference"
        let allowedAgents := strList llmRules "allowed_agents"
        if ¬ allowedAgents.any fun a => agentId = a || hasAgentSuffix agentId a then
          .denied ("POLICY_DENIED: Agente " ++ agentId ++ " nao autorizado para inferencia")
        else
          let policy := agentPolicy llmRules allowedAgents agentId
          if level.name ∉ strList policy "allowed_security_levels" then
            .denied ("POLICY_DENIED: Agente " ++ agentId ++
              " nao pode usar security_level=" ++ level.name)
          else .allowed

def checkToolCall (doc : PolicyDocument) (agentId toolName : String) : PolicyDecision :=
  if doc.isEmpty then .allowedNoPolicy
  else
    let toolRules := doc.rule "tool_call"
    let allowlist := toolRules.bind (·.get? "agent_tool_allowlist")
    if toolName ∉ strListDirect (allowlist.bind (·.get? agentId)) then
      .denied ("Tool " ++ toolName ++ " nao permitida para agente " ++ agentId)
    else if toolName ∈ strList toolRules "high_risk_tools" then
      .denied ("Tool " ++ toolName ++ " e HIGH RISK e sempre negada no MVP")
    else .allowed

def applyDelta (doc : PolicyDocument) (operation : String) (delta : Json) :
    Except PolicyError PolicyDocument :=
  if ¬ delta.isObject then
    .error (.invalidDelta "rule_delta_json precisa ser um objeto JSON na raiz")
  else if operation = "ADD_RULE" ∨ operation = "UPDATE_RULE" then
    .ok ⟨deepMerge doc.raw delta⟩
  else if operation = "REMOVE_RULE" then .ok ⟨removePaths doc.raw delta⟩
  else .error (.invalidDelta ("operação desconhecida: " ++ operation ++
    " (esperado ADD_RULE, REMOVE_RULE ou UPDATE_RULE)"))

/-! ### What the operations do to a document -/

variable {doc doc' : PolicyDocument}

/-- A version other than the default stands in an object. -/
theorem isEmpty_of_version (h : doc.version ≠ 0) : doc.isEmpty = false := by
  unfold version at h
  unfold isEmpty
  cases hraw : doc.raw with
  | obj fs =>
      cases fs with
      | nil => exact absurd (by rw [hraw]; rfl) h
      | cons key value fs => rfl
  | null | bool | num | str | arr => exact absurd (by rw [hraw]; rfl) h

theorem isEmpty_eq_false_iff :
    doc.isEmpty = false ↔ ∃ fs, doc.raw = .obj fs ∧ fs.isEmpty = false := by
  unfold isEmpty
  cases doc.raw <;> simp [Json.asObject]

theorem isObject_of_isEmpty (h : doc.isEmpty = false) : doc.raw.isObject := by
  obtain ⟨fs, hraw, -⟩ := isEmpty_eq_false_iff.mp h
  rw [hraw]
  rfl

/-- A delta is an object, and neither operation makes an object anything else. -/
theorem applyDelta_isObject {operation : String} {delta : Json} (hdoc : doc.raw.isObject)
    (h : doc.applyDelta operation delta = .ok doc') : doc'.raw.isObject := by
  obtain ⟨fs, hfs⟩ := Json.isObject_iff.mp hdoc
  unfold applyDelta at h
  split at h
  · cases h
  · next hdelta =>
      obtain ⟨d, rfl⟩ := Json.isObject_iff.mp (not_not.mp hdelta)
      split at h
      · cases h
        rw [hfs, deepMerge]
        rfl
      · split at h
        · cases h
          rw [hfs, removePaths]
          rfl
        · cases h

/-- A delta is refused for its shape or its operation, never for the document. -/
theorem applyDelta_ok_iff {operation : String} {delta : Json} :
    (∃ doc', doc.applyDelta operation delta = .ok doc') ↔ delta.isObject ∧
      (operation = "ADD_RULE" ∨ operation = "UPDATE_RULE" ∨ operation = "REMOVE_RULE") := by
  unfold applyDelta
  by_cases hdelta : delta.isObject
  · by_cases hmerge : operation = "ADD_RULE" ∨ operation = "UPDATE_RULE"
    · simp only [hdelta, hmerge, not_true_eq_false, if_false, if_true, Except.ok.injEq,
        exists_eq', true_and]
      exact iff_of_true trivial (hmerge.imp_right .inl)
    · by_cases hremove : operation = "REMOVE_RULE"
      · simp [hdelta, hremove]
      · simp only [not_or] at hmerge
        simp [hdelta, hmerge, hremove]
  · simp [hdelta]

/-- The version can be set after a delta, unless it takes keys out of a value that
has none. -/
theorem setVersion_applyDelta {operation : String} {delta : Json} (version : Int32)
    (h : doc.applyDelta operation delta = .ok doc') :
    doc'.setVersion version = none ↔
      operation = "REMOVE_RULE" ∧ ¬ (doc.raw.isObject ∨ doc.raw.isNull) := by
  unfold applyDelta at h
  split at h
  · cases h
  next hdelta =>
    obtain ⟨d, rfl⟩ := Json.isObject_iff.mp (not_not.mp hdelta)
    split at h
    · next hmerge =>
        cases h
        have hobject : ∃ fs, deepMerge doc.raw (.obj d) = .obj fs := by
          cases doc.raw <;> exact ⟨_, rfl⟩
        obtain ⟨fs, hfs⟩ := hobject
        obtain rfl | rfl := hmerge <;> simp [setVersion, hfs, Json.setIndex]
    · split at h
      · next hremove =>
          cases h
          cases hraw : doc.raw <;>
            simp [setVersion, removePaths, Json.setIndex, hremove, Json.isObject, Json.isNull]
      · cases h

/-- A version that is set is read back. -/
theorem setVersion_eq_some {version : Int32} (h : doc.setVersion version = some doc') :
    doc'.version = version ∧ doc'.isEmpty = false := by
  have hfits : version.toInt ≤ Json.i64Max := by
    have hlt := version.toInt_lt
    unfold Json.i64Max
    omega
  obtain ⟨raw, hraw, rfl⟩ := Option.map_eq_some_iff.mp h
  have hfields : ∃ fs : Json.Fields, raw = .obj fs ∧ fs.isEmpty = false ∧
      fs.get? "version" = some (.ofInt version.toInt) := by
    unfold Json.setIndex at hraw
    split at hraw
    · cases hraw
      exact ⟨_, rfl, rfl, by simp [Json.Fields.get?]⟩
    · cases hraw
      exact ⟨_, rfl, Json.Fields.isEmpty_insert .., Json.Fields.get?_insert_self ..⟩
    · cases hraw
  obtain ⟨fs, rfl, hempty, hget⟩ := hfields
  constructor
  · simp [PolicyDocument.version, Json.get?, Json.asObject, hget, Json.asI64_ofInt hfits]
  · simpa [isEmpty, Json.asObject] using hempty

/-- The version of an object can be set. -/
theorem setVersion_of_isObject (hdoc : doc.raw.isObject) (version : Int32) :
    ∃ doc', doc.setVersion version = some doc' := by
  obtain ⟨fs, hfs⟩ := Json.isObject_iff.mp hdoc
  simp [setVersion, hfs, Json.setIndex]

/-- The list of tools of the agent. -/
def allowlist (doc : PolicyDocument) (agentId : String) : List String :=
  strListDirect (((doc.rule "tool_call").bind (·.get? "agent_tool_allowlist")).bind
    (·.get? agentId))

def highRiskTools (doc : PolicyDocument) : List String :=
  strList (doc.rule "tool_call") "high_risk_tools"

theorem checkToolCall_isAllowed {agentId toolName : String} (hdoc : doc.isEmpty = false)
    (h : (doc.checkToolCall agentId toolName).isAllowed) :
    toolName ∈ doc.allowlist agentId ∧ toolName ∉ doc.highRiskTools := by
  unfold checkToolCall at h
  rw [hdoc] at h
  simp only [Bool.false_eq_true, if_false] at h
  split at h
  · cases h
  · next hallowed =>
      split at h
      · cases h
      · next hrisk => exact ⟨not_not.mp hallowed, hrisk⟩

def allowedAgents (doc : PolicyDocument) : List String :=
  strList (doc.rule "llm_inference") "allowed_agents"

/-- The levels of the policy under the name of an agent or a role. -/
def allowedLevels (doc : PolicyDocument) (name : String) : List String :=
  strList ((((doc.rule "llm_inference").bind (·.get? "agent_policies")).bind Json.asObject).bind
    (·.get? name)) "allowed_security_levels"

/-- The policy that applies is the agent's own or the one of a role. -/
theorem levels_agentPolicy (agentId : String) : ∃ name,
    (name = agentId ∨ name ∈ doc.allowedAgents ∧ hasAgentSuffix agentId name) ∧
      strList (agentPolicy (doc.rule "llm_inference") doc.allowedAgents agentId)
        "allowed_security_levels" = doc.allowedLevels name := by
  simp only [agentPolicy]
  split
  · cases hrole : doc.allowedAgents.find? (hasAgentSuffix agentId) with
    | none => exact ⟨agentId, .inl rfl, rfl⟩
    | some role =>
        have hsuffix : hasAgentSuffix agentId role := List.find?_some hrole
        exact ⟨role, .inr ⟨List.mem_of_find?_eq_some hrole, hsuffix⟩, rfl⟩
  · exact ⟨agentId, .inl rfl, rfl⟩

theorem checkLlmRequest_allowed {agentId : String} {level : SecurityLevel}
    (h : doc.checkLlmRequest agentId level.toInt = .allowed) :
    (∃ a ∈ doc.allowedAgents, agentId = a ∨ hasAgentSuffix agentId a) ∧
      ∃ name, (name = agentId ∨ name ∈ doc.allowedAgents ∧ hasAgentSuffix agentId name) ∧
        level.name ∈ doc.allowedLevels name := by
  have hlevel : SecurityLevel.tryFrom level.toInt = .ok level := by cases level <;> rfl
  simp only [checkLlmRequest, hlevel] at h
  split at h
  · cases h
  · split at h
    · cases h
    · next hagents =>
        split at h
        · cases h
        · next hlevels =>
            obtain ⟨name, hname, heq⟩ := doc.levels_agentPolicy agentId
            refine ⟨?_, name, hname, ?_⟩
            · simpa [allowedAgents, or_iff_not_imp_left] using hagents
            · rw [← heq]
              exact not_not.mp hlevels

end PolicyDocument

end DdsOrchestrator.PolicyEngine
