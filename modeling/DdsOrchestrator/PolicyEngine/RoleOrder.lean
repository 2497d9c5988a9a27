import DdsOrchestrator.PolicyEngine.Rules

/-!
The order of the allowed agents. Whether an agent is authorised at all is a matter of the
set. Which policy applies to an agent that has none of its own is not: the first role of the
list that the agent is an instance of decides, and `agent` and `agent-llm` can both be that.
-/

namespace DdsOrchestrator.PolicyEngine.PolicyDocument

open Json (Fields)

/-- The array of the allowed agents, if there is one. -/
def agentArray (doc : PolicyDocument) : Option (List Json) :=
  ((doc.rule "llm_inference").bind (·.get? "allowed_agents")).bind Json.asArray

/-- The document with another array in that place. -/
def withAgents (doc : PolicyDocument) (agents : List Json) : PolicyDocument :=
  match doc.raw with
  | .obj top =>
      match top.get? "rules" with
      | some (.obj rules) =>
          match rules.get? "llm_inference" with
          | some (.obj llm) =>
              ⟨.obj (top.insert "rules" (.obj (rules.insert "llm_inference"
                (.obj (llm.insert "allowed_agents" (.arr (.ofList agents)))))))⟩
          | _ => doc
      | _ => doc
  | _ => doc

/-- No permutation of the allowed agents changes the decision. -/
def OrderIndependent (doc : PolicyDocument) (agentId : String) (securityLevel : Int) : Prop :=
  ∀ agents agents', doc.agentArray = some agents → agents.Perm agents' →
    (doc.withAgents agents').checkLlmRequest agentId securityLevel =
      doc.checkLlmRequest agentId securityLevel

/-- The rule under the agent's own name. -/
def ownRule (doc : PolicyDocument) (agentId : String) : Option Json :=
  (((doc.rule "llm_inference").bind (·.get? "agent_policies")).bind Json.asObject).bind
    (·.get? agentId)

/-- The level is invalid, or the agent has a policy of its own, or the roles that it is an
instance of agree on the level. -/
def RolesAgree (doc : PolicyDocument) (agentId : String) (securityLevel : Int) : Prop :=
  ∀ level, SecurityLevel.tryFrom securityLevel = .ok level →
    (doc.ownRule agentId).all isFalsyRule = true →
    ∀ a ∈ doc.allowedAgents, ∀ b ∈ doc.allowedAgents, hasAgentSuffix agentId a = true →
      hasAgentSuffix agentId b = true →
        (level.name ∈ doc.allowedLevels a ↔ level.name ∈ doc.allowedLevels b)

/-- The first role of the list that the agent is an instance of. -/
def FirstRole (doc : PolicyDocument) (agentId role : String) : Prop :=
  ∃ before after, doc.allowedAgents = before ++ role :: after ∧
    (∀ a ∈ before, hasAgentSuffix agentId a = false) ∧ hasAgentSuffix agentId role = true

variable {doc : PolicyDocument} {agentId : String} {agents agents' : List Json}

theorem find?_eq_some_iff {role : String} :
    doc.allowedAgents.find? (hasAgentSuffix agentId) = some role ↔
      doc.FirstRole agentId role := by
  rw [List.find?_eq_some_iff_append]
  constructor
  · rintro ⟨hsuffix, before, after, hagents, hbefore⟩
    exact ⟨before, after, hagents, fun a ha => by simpa using hbefore a ha, hsuffix⟩
  · rintro ⟨before, after, hagents, hbefore, hsuffix⟩
    exact ⟨hsuffix, before, after, hagents, fun a ha => by simp [hbefore a ha]⟩

/-! ### What the decision looks at -/

/-- The levels that apply to the agent. -/
def levelsFor (doc : PolicyDocument) (agentId : String) : List String :=
  if (doc.ownRule agentId).all isFalsyRule = true then
    match doc.allowedAgents.find? (hasAgentSuffix agentId) with
    | some role => doc.allowedLevels role
    | none => doc.allowedLevels agentId
  else doc.allowedLevels agentId

theorem strList_agentPolicy (doc : PolicyDocument) (agentId : String) :
    strList (agentPolicy (doc.rule "llm_inference") doc.allowedAgents agentId)
      "allowed_security_levels" = doc.levelsFor agentId := by
  rw [agentPolicy, levelsFor, ownRule]
  split
  · cases doc.allowedAgents.find? (hasAgentSuffix agentId) <;> rfl
  · rfl

/-- The agent is in the list, or it is an instance of a role that is. -/
def Authorized (doc : PolicyDocument) (agentId : String) : Prop :=
  ∃ a ∈ doc.allowedAgents, agentId = a ∨ hasAgentSuffix agentId a = true

theorem any_eq_true_iff (doc : PolicyDocument) (agentId : String) :
    (doc.allowedAgents.any fun a => agentId = a || hasAgentSuffix agentId a) = true ↔
      doc.Authorized agentId := by
  rw [List.any_eq_true]
  exact exists_congr fun a => and_congr_right fun _ => by simp

theorem checkLlmRequest_congr {doc' : PolicyDocument} {securityLevel : Int}
    (hempty : doc'.isEmpty = doc.isEmpty)
    (hauthorized : doc'.Authorized agentId ↔ doc.Authorized agentId)
    (hlevels : ∀ level, SecurityLevel.tryFrom securityLevel = .ok level →
      (level.name ∈ doc'.levelsFor agentId ↔ level.name ∈ doc.levelsFor agentId)) :
    doc'.checkLlmRequest agentId securityLevel = doc.checkLlmRequest agentId securityLevel := by
  have hagents := Bool.eq_iff_iff.mpr ((doc'.any_eq_true_iff agentId).trans
    (hauthorized.trans (doc.any_eq_true_iff agentId).symm))
  unfold checkLlmRequest
  cases hlevel : SecurityLevel.tryFrom securityLevel with
  | error invalid => rfl
  | ok level =>
      have hlevel := hlevels level hlevel
      dsimp only
      rw [← allowedAgents, ← allowedAgents, strList_agentPolicy, strList_agentPolicy, hempty,
        hagents]
      simp only [hlevel]

theorem checkLlmRequest_eq_allowed {securityLevel : Int} {level : SecurityLevel}
    (hlevel : SecurityLevel.tryFrom securityLevel = .ok level) (hempty : doc.isEmpty = false) :
    doc.checkLlmRequest agentId securityLevel = .allowed ↔
      doc.Authorized agentId ∧ level.name ∈ doc.levelsFor agentId := by
  rw [← any_eq_true_iff]
  unfold checkLlmRequest
  rw [hlevel]
  dsimp only
  rw [← allowedAgents, strList_agentPolicy, hempty, if_neg Bool.false_ne_true]
  split
  · next hagents => exact iff_of_false (by simp) fun h => hagents h.1
  · next hagents =>
      split
      · next hlevels => exact iff_of_false (by simp) fun h => hlevels h.2
      · next hlevels => exact iff_of_true rfl ⟨not_not.mp hagents, not_not.mp hlevels⟩

/-! ### Another array -/

theorem toList_ofList : ∀ xs : List Json, (Json.Elems.ofList xs).toList = xs
  | [] => rfl
  | x :: xs => congrArg (x :: ·) (toList_ofList xs)

/-- Where there is an array the other one comes in its place, and the rest is as it was. -/
theorem withAgents_spec (h : doc.agentArray = some agents) (agents' : List Json) :
    (doc.withAgents agents').isEmpty = false ∧
      (doc.withAgents agents').allowedAgents = agents'.filterMap Json.asStr ∧
      ∀ key, key ≠ "allowed_agents" →
        ((doc.withAgents agents').rule "llm_inference").bind (·.get? key) =
          (doc.rule "llm_inference").bind (·.get? key) := by
  unfold agentArray rule at h
  obtain ⟨array, harray, -⟩ := Option.bind_eq_some_iff.mp h
  obtain ⟨value, hvalue, harray⟩ := Option.bind_eq_some_iff.mp harray
  obtain ⟨rules, hrules, hvalue⟩ := Option.bind_eq_some_iff.mp hvalue
  obtain ⟨llmFields, rfl, -⟩ := Json.get?_eq_some.mp harray
  obtain ⟨rulesFields, rfl, hllm⟩ := Json.get?_eq_some.mp hvalue
  obtain ⟨top, hraw, hrules⟩ := Json.get?_eq_some.mp hrules
  have hdoc : doc.withAgents agents' = ⟨.obj (top.insert "rules" (.obj (rulesFields.insert
      "llm_inference" (.obj (llmFields.insert "allowed_agents"
        (.arr (.ofList agents')))))))⟩ := by
    unfold withAgents
    rw [hraw]
    dsimp only
    rw [hrules]
    dsimp only
    rw [hllm]
  have hrule : (doc.withAgents agents').rule "llm_inference" =
      some (.obj (llmFields.insert "allowed_agents" (.arr (.ofList agents')))) := by
    rw [hdoc]
    simp [rule, Json.get?, Json.asObject]
  refine ⟨?_, ?_, fun key hkey => ?_⟩
  · rw [hdoc, isEmpty]
    exact Fields.isEmpty_insert ..
  · rw [allowedAgents, hrule]
    simp [strList, strListDirect, Json.get?, Json.asObject, Json.asArray, toList_ofList]
  · rw [hrule, rule, hraw]
    simp [Json.get?, Json.asObject, hrules, hllm, Fields.get?_insert_of_ne hkey]

theorem allowedAgents_eq (h : doc.agentArray = some agents) :
    doc.allowedAgents = agents.filterMap Json.asStr := by
  show strListDirect ((doc.rule "llm_inference").bind (·.get? "allowed_agents")) = _
  rw [strListDirect]
  unfold agentArray at h
  rw [h]
  rfl

theorem isEmpty_of_agentArray (h : doc.agentArray = some agents) : doc.isEmpty = false := by
  unfold agentArray rule at h
  obtain ⟨array, harray, -⟩ := Option.bind_eq_some_iff.mp h
  obtain ⟨value, hvalue, -⟩ := Option.bind_eq_some_iff.mp harray
  obtain ⟨rules, hrules, -⟩ := Option.bind_eq_some_iff.mp hvalue
  obtain ⟨top, hraw, hrules⟩ := Json.get?_eq_some.mp hrules
  refine isEmpty_eq_false_iff.mpr ⟨top, hraw, ?_⟩
  cases top with
  | nil => cases hrules
  | cons k v fs => rfl

theorem exists_agentArray {a : String} (ha : a ∈ doc.allowedAgents) :
    ∃ agents, doc.agentArray = some agents := by
  cases harray : doc.agentArray with
  | some agents => exact ⟨agents, rfl⟩
  | none =>
      have hnone : doc.allowedAgents = [] := by
        show strListDirect ((doc.rule "llm_inference").bind (·.get? "allowed_agents")) = _
        unfold agentArray at harray
        rw [strListDirect, harray]
        rfl
      rw [hnone] at ha
      cases ha

section

variable (h : doc.agentArray = some agents)

include h in
theorem policies_withAgents (agents' : List Json) (name : String) :
    (doc.withAgents agents').ownRule name = doc.ownRule name ∧
      (doc.withAgents agents').allowedLevels name = doc.allowedLevels name := by
  have hpolicies := (withAgents_spec h agents').2.2 "agent_policies" (by decide)
  rw [ownRule, ownRule, allowedLevels, allowedLevels, hpolicies]
  exact ⟨rfl, rfl⟩

include h in
theorem mem_allowedAgents_withAgents (hperm : agents.Perm agents') (a : String) :
    a ∈ (doc.withAgents agents').allowedAgents ↔ a ∈ doc.allowedAgents := by
  rw [(withAgents_spec h agents').2.1, allowedAgents_eq h]
  exact (hperm.filterMap Json.asStr).symm.mem_iff

end

/-- Whatever role comes first, it allows what any other one does. -/
theorem RolesAgree.orderIndependent {securityLevel : Int}
    (hagree : doc.RolesAgree agentId securityLevel) :
    doc.OrderIndependent agentId securityLevel := by
  intro agents agents' h hperm
  have hmem := mem_allowedAgents_withAgents h hperm
  apply checkLlmRequest_congr
  · rw [(withAgents_spec h agents').1, isEmpty_of_agentArray h]
  · exact exists_congr fun a => and_congr_left fun _ => hmem a
  · intro level hlevel
    have hpolicies := policies_withAgents h agents'
    rw [levelsFor, levelsFor, (hpolicies agentId).1]
    split
    · next hfalsy =>
        cases hnew : (doc.withAgents agents').allowedAgents.find? (hasAgentSuffix agentId) with
        | some a =>
            have ha := (hmem a).mp (List.mem_of_find?_eq_some hnew)
            cases hold : doc.allowedAgents.find? (hasAgentSuffix agentId) with
            | some b =>
                show level.name ∈ (doc.withAgents agents').allowedLevels a ↔
                  level.name ∈ doc.allowedLevels b
                rw [(hpolicies a).2]
                exact hagree level hlevel hfalsy a ha b (List.mem_of_find?_eq_some hold)
                  (List.find?_some hnew) (List.find?_some hold)
            | none =>
                exact absurd (List.find?_some hnew) (List.find?_eq_none.mp hold a ha)
        | none =>
            have hold : doc.allowedAgents.find? (hasAgentSuffix agentId) = none := by
              rw [List.find?_eq_none] at hnew ⊢
              exact fun a ha => hnew a ((hmem a).mpr ha)
            rw [hold]
            show level.name ∈ (doc.withAgents agents').allowedLevels agentId ↔
              level.name ∈ doc.allowedLevels agentId
            rw [(hpolicies agentId).2]
    · rw [(hpolicies agentId).2]

/-- A role that the agent is an instance of can come first, and then it decides. -/
theorem OrderIndependent.mem_levelsFor_iff {securityLevel : Int} {level : SecurityLevel}
    (hindependent : doc.OrderIndependent agentId securityLevel)
    (hlevel : SecurityLevel.tryFrom securityLevel = .ok level)
    (hfalsy : (doc.ownRule agentId).all isFalsyRule = true) {a : String}
    (ha : a ∈ doc.allowedAgents) (hsuffix : hasAgentSuffix agentId a = true) :
    level.name ∈ doc.allowedLevels a ↔ level.name ∈ doc.levelsFor agentId := by
  obtain ⟨agents, h⟩ := exists_agentArray ha
  rw [allowedAgents_eq h] at ha
  obtain ⟨v, hv, hva⟩ := List.mem_filterMap.mp ha
  obtain ⟨before, after, rfl⟩ := List.append_of_mem hv
  have hperm : (before ++ v :: after).Perm (v :: (before ++ after)) := List.perm_middle
  have hsame := hindependent _ _ h hperm
  have hspec := withAgents_spec h (v :: (before ++ after))
  have hfirst : (doc.withAgents (v :: (before ++ after))).levelsFor agentId =
      doc.allowedLevels a := by
    have hfind : (doc.withAgents (v :: (before ++ after))).allowedAgents.find?
        (hasAgentSuffix agentId) = some a := by
      rw [hspec.2.1, List.filterMap_cons, hva]
      exact List.find?_cons_of_pos hsuffix
    rw [levelsFor, (policies_withAgents h _ agentId).1, if_pos hfalsy, hfind]
    exact (policies_withAgents h _ a).2
  have hauthorized : doc.Authorized agentId :=
    ⟨a, allowedAgents_eq h ▸ ha, .inr hsuffix⟩
  have hauthorized' : (doc.withAgents (v :: (before ++ after))).Authorized agentId :=
    ⟨a, (mem_allowedAgents_withAgents h hperm a).mpr (allowedAgents_eq h ▸ ha), .inr hsuffix⟩
  calc level.name ∈ doc.allowedLevels a
      ↔ level.name ∈ (doc.withAgents (v :: (before ++ after))).levelsFor agentId := by
        rw [hfirst]
    _ ↔ (doc.withAgents (v :: (before ++ after))).checkLlmRequest agentId securityLevel =
          .allowed := by
        rw [checkLlmRequest_eq_allowed hlevel hspec.1, and_iff_right hauthorized']
    _ ↔ level.name ∈ doc.levelsFor agentId := by
        rw [hsame, checkLlmRequest_eq_allowed hlevel (isEmpty_of_agentArray h),
          and_iff_right hauthorized]

/-- An agent without a policy of its own has that of the first role it is an instance of. -/
theorem agentPolicy_of_firstRole {role : String}
    (hfalsy : (doc.ownRule agentId).all isFalsyRule = true)
    (hrole : doc.FirstRole agentId role) :
    agentPolicy (doc.rule "llm_inference") doc.allowedAgents agentId = doc.ownRule role := by
  have hown : ((((doc.rule "llm_inference").bind (·.get? "agent_policies")).bind
      Json.asObject).bind (·.get? agentId)).all isFalsyRule = true := hfalsy
  simp only [agentPolicy]
  rw [if_pos hown, find?_eq_some_iff.mpr hrole]
  rfl

/-- And is allowed what that role is. -/
theorem checkLlmRequest_of_firstRole {role : String} {securityLevel : Int}
    {level : SecurityLevel} (hfalsy : (doc.ownRule agentId).all isFalsyRule = true)
    (hrole : doc.FirstRole agentId role)
    (hlevel : SecurityLevel.tryFrom securityLevel = .ok level) :
    doc.checkLlmRequest agentId securityLevel = .allowed ↔
      level.name ∈ doc.allowedLevels role := by
  have hfind := find?_eq_some_iff.mpr hrole
  have hmem : role ∈ doc.allowedAgents := List.mem_of_find?_eq_some hfind
  have hauthorized : doc.Authorized agentId := ⟨role, hmem, .inr (List.find?_some hfind)⟩
  obtain ⟨agents, harray⟩ := exists_agentArray hmem
  rw [checkLlmRequest_eq_allowed hlevel (isEmpty_of_agentArray harray),
    and_iff_right hauthorized, levelsFor, if_pos hfalsy, hfind]

/-- The first role gives the policy of an agent that has none of its own. The order is of no
account exactly if the level is invalid, the agent has a policy of its own, or all the roles it
is an instance of agree on the level. -/
theorem orderIndependent_iff (doc : PolicyDocument) (agentId : String) (securityLevel : Int) :
    (doc.OrderIndependent agentId securityLevel ↔ doc.RolesAgree agentId securityLevel) ∧
      ∀ role, (doc.ownRule agentId).all isFalsyRule = true → doc.FirstRole agentId role →
        agentPolicy (doc.rule "llm_inference") doc.allowedAgents agentId = doc.ownRule role ∧
          ∀ level, SecurityLevel.tryFrom securityLevel = .ok level →
            (doc.checkLlmRequest agentId securityLevel = .allowed ↔
              level.name ∈ doc.allowedLevels role) := by
  refine ⟨⟨fun h level hlevel hfalsy a ha b hb hsuffix hsuffix' => ?_,
    RolesAgree.orderIndependent⟩, fun role hfalsy hrole => ⟨?_, fun level hlevel => ?_⟩⟩
  · exact (h.mem_levelsFor_iff hlevel hfalsy ha hsuffix).trans
      (h.mem_levelsFor_iff hlevel hfalsy hb hsuffix').symm
  · exact agentPolicy_of_firstRole hfalsy hrole
  · exact checkLlmRequest_of_firstRole hfalsy hrole hlevel

/-! ### Two roles for one agent -/

/-- `agent` may use the level and `agent-llm` may not. -/
def overlappingRoles (agents : List String) : PolicyDocument :=
  ⟨.obj (.ofList [("rules", .obj (.ofList [("llm_inference", .obj (.ofList
    [("allowed_agents", Json.strs agents),
      ("agent_policies", .obj (.ofList
        [("agent", .obj (.ofList [("allowed_security_levels", Json.strs ["PUBLIC"])])),
          ("agent-llm", .obj (.ofList [("allowed_security_levels", Json.strs [])]))]))]))]))])⟩

/-- The first of the two decides. -/
theorem overlappingRoles_first :
    (overlappingRoles ["agent-llm", "agent"]).checkLlmRequest "agent-llm-1" 0 ≠ .allowed := by
  have hfirst := (orderIndependent_iff (overlappingRoles ["agent-llm", "agent"]) "agent-llm-1"
    0).2 "agent-llm" (by decide) ⟨[], ["agent"], by decide, by simp, by decide⟩
  exact fun h => absurd ((hfirst.2 .publicLevel rfl).mp h) (by decide)

/-- `agent-llm-1` is allowed to infer or not by the order of the two. -/
theorem overlappingRoles_order :
    (overlappingRoles ["agent", "agent-llm"]).checkLlmRequest "agent-llm-1" 0 = .allowed ∧
      (overlappingRoles ["agent", "agent-llm"]).withAgents [.str "agent-llm", .str "agent"] =
        overlappingRoles ["agent-llm", "agent"] ∧
      (overlappingRoles ["agent-llm", "agent"]).checkLlmRequest "agent-llm-1" 0 =
        .denied "POLICY_DENIED: Agente agent-llm-1 nao pode usar security_level=PUBLIC" ∧
      ¬ (overlappingRoles ["agent", "agent-llm"]).OrderIndependent "agent-llm-1" 0 := by
  have hallowed : (overlappingRoles ["agent", "agent-llm"]).checkLlmRequest "agent-llm-1" 0 =
      .allowed := by decide
  have hswapped : (overlappingRoles ["agent", "agent-llm"]).withAgents
      [.str "agent-llm", .str "agent"] = overlappingRoles ["agent-llm", "agent"] := by decide
  have hdenied : (overlappingRoles ["agent-llm", "agent"]).checkLlmRequest "agent-llm-1" 0 =
      .denied "POLICY_DENIED: Agente agent-llm-1 nao pode usar security_level=PUBLIC" := by decide
  refine ⟨hallowed, hswapped, hdenied, fun h => ?_⟩
  have hsame := h [.str "agent", .str "agent-llm"] [.str "agent-llm", .str "agent"] (by decide)
    (.swap _ _ [])
  rw [hswapped, hdenied, hallowed] at hsame
  cases hsame

end DdsOrchestrator.PolicyEngine.PolicyDocument
