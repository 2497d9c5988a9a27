import DdsOrchestrator.WorkflowEngine.Boundary

/-!
A decision that is delivered again. The journal recognises a decision it has
admitted, but it is asked last: the decision is validated first, against the
clock of the second delivery, and a verdict the objective cannot be mapped from
ends the workflow as FAILED.
-/

namespace DdsOrchestrator.WorkflowEngine

open Loop EngineRuntime Machine

/-- The call takes in `decision` for `wf` and answers that it is admitted. -/
structure DecisionAdmitted (r : EngineRuntime) (i : Input) (decision : RoutingDecision)
    (wf : String) : Prop where
  resolves : ∃ wfr, Resolves i r decision wf wfr
  result : (r.onDecision i.env decision).1 = .ok true

/-- What a redelivery must not change in a record. -/
def WfRuntime.standing (w : WfRuntime) : Bool × Option String × PlanGraph × EngineState :=
  (w.terminal, w.failedReason, w.graph, w.state)

structure Inert (wf : String) (r r' : EngineRuntime) : Prop where
  journal : r'.journal = r.journal
  log : r'.log = r.log
  record : (r'.workflows.lookup wf).map WfRuntime.standing =
    (r.workflows.lookup wf).map WfRuntime.standing

/-- The decision finds no workflow, or only leaves telemetry, or its objective
can be mapped and the journal has no reason to admit: the workflow is `wf`
itself, or one decided before, or one whose budget the journal refuses. -/
def Harmless (wf : String) (r : EngineRuntime) (env : Env) (decision : RoutingDecision) : Prop :=
  ∀ wf' wfr, Resolves ⟨env, .decision decision⟩ r decision wf' wfr →
    (verdictOn env r wfr decision).isShadow = true ∨
      ∃ e, mapVerdict (verdictOn env r wfr decision) wfr.intent r.cfg.mapperPolicy = .applied e ∧
        (wf' = wf ∨ wf' ∈ r.journal.decisions ∨ 2 ^ 63 ≤ wfr.intent.maxCostMicrounits.toNat)

/-! ### Publications and the journal -/

section Publication

variable (env : Env) (wf : String) (r : EngineRuntime)

/-- What follows the admission does not touch the journal. -/
theorem installPlan_journal (wfr : WfRuntime) (e : EffectiveQos) :
    (installPlan env wf wfr e r).2.journal = r.journal := by
  rcases installPlan_eq (r := r) env wf wfr e with
    ⟨heq, -⟩ | ⟨cand, failover, qos, n, ext, -, -, -, heq⟩
  · rw [heq]
  · rw [heq]
    rfl

/-- A state that can be written is. -/
theorem publishState_log {wfr : WfRuntime} (status : WorkflowStatus)
    (hwf : r.workflows.lookup wf = some wfr) (hwrite : ∀ s, env.writeFails s = false) :
    ∃ s, (publishState env wf status r).2.log = r.log ++ [s] := by
  simp only [publishState, hwf, write, hwrite, Bool.false_eq_true, if_false]
  exact ⟨_, rfl⟩

end Publication

/-! ### Decided workflows stay decided -/

theorem onDecision_decides {r : EngineRuntime} {i : Input} {decision : RoutingDecision}
    {wf : String} (hr : Coherent r) (h : DecisionAdmitted r i decision wf) :
    wf ∈ (step r i).journal.decisions := by
  obtain ⟨⟨wfr, hres⟩, hresult⟩ := h
  have hkey := (hr.records wf wfr hres.registered).key
  have hstep : step r i = (r.onDecision i.env decision).2 := by simp only [step, hres.call]
  rw [hstep]
  simp only [onDecision, hres.found, hres.registered] at hresult ⊢
  unfold takeDecision at hresult ⊢
  simp only at hresult ⊢
  split at hresult
  · cases hresult
  rename_i hshadow
  rw [if_neg hshadow]
  split at hresult
  · rename_i reason hmap
    unfold andThen at hresult
    split at hresult <;> cases hresult
  rename_i e hmap
  have hentry := Journal.admitWorkflow_step i.env.journalFails
    (admission decision wfr.intent (verdictOn i.env r wfr decision)) r.journal
  split at hresult
  · cases hresult
  · cases hresult
  · rename_i j heq
    simp only [heq] at hentry
    cases hentry with
    | replay row hrow =>
        rw [← hkey]
        exact Map.mem_iff_lookup.mpr ⟨row, hrow⟩
  · rename_i j heq
    simp only [heq] at hentry
    obtain ⟨-, hmem, -⟩ := hentry.admitted_journalOk (toS_val wfr.intent.workflowId.noNul)
      hr.journal
    simp only [installPlan_journal]
    rw [← hkey]
    exact hmem

theorem step_keeps_decisions {r : EngineRuntime} (hr : Coherent r) (i : Input) {wf : String}
    (h : wf ∈ r.journal.decisions) : wf ∈ (step r i).journal.decisions := by
  refine (step_invariant (I := fun t => Coherent t ∧ wf ∈ t.journal.decisions) ⟨hr, h⟩ ?_).2
  rintro t t' ⟨ht, hmem⟩ hmove
  exact ⟨ht.move hmove, (hmove.decides ht).1 wf hmem⟩

theorem run_keeps_decisions (cfg : RuntimeConfig) (before after : List Input) {wf : String}
    (h : wf ∈ (run cfg before).journal.decisions) :
    wf ∈ (run cfg (before ++ after)).journal.decisions := by
  have hrun : run cfg (before ++ after) = after.foldl step (run cfg before) := by simp [run]
  rw [hrun]
  exact (foldl_invariant (I := fun t => Coherent t ∧ wf ∈ t.journal.decisions) after
    ⟨coherent_run cfg before, h⟩ fun t i ht =>
      ⟨ht.1.step i, step_keeps_decisions ht.1 i ht.2⟩).2

/-! ### The second delivery -/

section Delivery

variable {r : EngineRuntime} {env : Env} {decision : RoutingDecision} {wf : String}

theorem Inert.refl (wf : String) (r : EngineRuntime) : Inert wf r r := ⟨rfl, rfl, rfl⟩

/-- The journal admits only what it does not have and can keep. -/
theorem admitWorkflow_unadmitted (io : JournalCall → Bool) {a : Journal.Admission} {j : Journal}
    (h : a.workflowId ∈ j.decisions ∨ 2 ^ 63 ≤ a.budgetMicrounits.toNat) :
    (j.admitWorkflow io a).1 ≠ .ok .admitted ∧ (j.admitWorkflow io a).2 = j := by
  have hentry := Journal.admitWorkflow_step io a j
  generalize j.admitWorkflow io a = out at hentry ⊢
  obtain ⟨result, j'⟩ := out
  cases hentry with
  | failed | replay | conflict => exact ⟨by simp, rfl⟩
  | admitted hdecision hworkflow hcheck =>
      rcases h with hmem | hbig
      · exact absurd hmem (AList.lookup_eq_none.mp hdecision)
      · exact absurd (Journal.Admission.budget_lt_of_check hcheck) (not_lt.mpr hbig)

theorem admitWorkflow_admitted (io : JournalCall → Bool) {a : Journal.Admission} {j : Journal}
    (hj : JournalOk j) (hio : io (.admitWorkflow a.workflowId) = false)
    (hnew : a.workflowId ∉ j.decisions) (hsmall : a.budgetMicrounits.toNat < 2 ^ 63) :
    ∃ j', j.admitWorkflow io a = (.ok .admitted, j') :=
  Journal.admitWorkflow_of_new hio hnew (fun h => hnew ((hj.workflows _).mp h)) hsmall

theorem Harmless.inert (hr : Coherent r) (hwf : wf ∈ r.journal.decisions)
    (h : Harmless wf r env decision) : Inert wf r (step r ⟨env, .decision decision⟩) := by
  simp only [step, onDecision]
  split
  · exact .refl wf r
  rename_i wf' hfound
  split
  · exact .refl wf r
  rename_i wfr hlookup
  have hkey := (hr.records wf' wfr hlookup).key
  by_cases hshadow : (verdictOn env r wfr decision).isShadow = true
  · simp only [takeDecision, hshadow, if_true]
    refine ⟨rfl, rfl, ?_⟩
    rw [lookup_setWf]
    split
    · rename_i heq
      rw [heq, hlookup]
      rfl
    · rfl
  obtain ⟨e, hmap, hknown⟩ := (h wf' wfr ⟨rfl, hfound, hlookup⟩).resolve_left hshadow
  have hrefused : (admission decision wfr.intent (verdictOn env r wfr decision)).workflowId ∈
      r.journal.decisions ∨ 2 ^ 63 ≤ (admission decision wfr.intent
        (verdictOn env r wfr decision)).budgetMicrounits.toNat := by
    have hid : (admission decision wfr.intent (verdictOn env r wfr decision)).workflowId = wf' :=
      hkey
    rw [hid]
    rcases hknown with rfl | hmem | hbig
    · exact .inl hwf
    · exact .inl hmem
    · exact .inr hbig
  obtain ⟨hresult, hjournal⟩ := admitWorkflow_unadmitted env.journalFails hrefused
  simp only [takeDecision, hshadow, Bool.false_eq_true, if_false, hmap]
  generalize r.journal.admitWorkflow env.journalFails
    (admission decision wfr.intent (verdictOn env r wfr decision)) = out at hresult hjournal ⊢
  obtain ⟨result, j⟩ := out
  dsimp only at hresult hjournal
  subst hjournal
  rcases result with err | (_ | _ | _)
  · exact .refl wf r
  · exact absurd rfl hresult
  · exact .refl wf r
  · exact .refl wf r

theorem Inert.harmless (hr : Coherent r) (hjournal : ∀ call, env.journalFails call = false)
    (hwrite : ∀ s, env.writeFails s = false)
    (h : Inert wf r (step r ⟨env, .decision decision⟩)) : Harmless wf r env decision := by
  rintro wf' wfr ⟨-, hfound, hlookup⟩
  have hkey := (hr.records wf' wfr hlookup).key
  simp only [step, onDecision] at h hfound
  simp only [hfound, hlookup, takeDecision] at h
  by_cases hshadow : (verdictOn env r wfr decision).isShadow = true
  · exact .inl hshadow
  rw [if_neg hshadow] at h
  cases hmap : mapVerdict (verdictOn env r wfr decision) wfr.intent r.cfg.mapperPolicy with
  | rejected reason =>
      -- A refusal publishes FAILED.
      simp only [hmap] at h
      obtain ⟨s, hlog⟩ := publishState_log env wf'
        (r.setWf wf' { wfr with terminal := true, failedReason := some (qosReason reason) })
        .failed (lookup_setWf r _ _ _ |>.trans (if_pos rfl)) hwrite
      have hsame := h.log
      rw [andThen_ok_snd, hlog] at hsame
      exact absurd (congrArg List.length hsame) (by simp [setWf])
  | applied e =>
      refine .inr ⟨e, rfl, ?_⟩
      by_contra hnot
      push Not at hnot
      obtain ⟨-, hnew, hsmall⟩ := hnot
      -- An admission leaves its decision in the journal.
      obtain ⟨j, hadmitted⟩ := admitWorkflow_admitted env.journalFails
        (a := admission decision wfr.intent (verdictOn env r wfr decision)) hr.journal
        (hjournal _) (fun hmem => hnew (hkey ▸ hmem)) hsmall
      simp only [hmap, hadmitted] at h
      have hentry := Journal.admitWorkflow_step env.journalFails
        (admission decision wfr.intent (verdictOn env r wfr decision)) r.journal
      rw [hadmitted] at hentry
      obtain ⟨-, hmem, -⟩ := hentry.admitted_journalOk (toS_val wfr.intent.workflowId.noNul)
        hr.journal
      have hsame := h.journal
      rw [installPlan_journal] at hsame
      dsimp only at hsame
      rw [hsame] at hmem
      exact hnew (hkey ▸ hmem)

end Delivery

/-- A decision that was admitted for `wf`, delivered again at any later point
and any clock, changes nothing when it is harmless there; and where nothing
fails, only then. -/
theorem redelivery_inert_iff (cfg : RuntimeConfig) (before : List Input) (i : Input)
    (decision : RoutingDecision) (wf : String) (after : List Input) (env : Env)
    (hadmitted : DecisionAdmitted (run cfg before) i decision wf) :
    (Harmless wf (run cfg (before ++ i :: after)) env decision →
      Inert wf (run cfg (before ++ i :: after))
        (step (run cfg (before ++ i :: after)) ⟨env, .decision decision⟩)) ∧
    ((∀ call, env.journalFails call = false) → (∀ s, env.writeFails s = false) →
      Inert wf (run cfg (before ++ i :: after))
        (step (run cfg (before ++ i :: after)) ⟨env, .decision decision⟩) →
      Harmless wf (run cfg (before ++ i :: after)) env decision) := by
  have hcoherent := coherent_run cfg (before ++ i :: after)
  have hdecided : wf ∈ (run cfg (before ++ i :: after)).journal.decisions := by
    have hnow : wf ∈ (run cfg (before ++ [i])).journal.decisions := by
      have hrun : run cfg (before ++ [i]) = step (run cfg before) i := by simp [run]
      rw [hrun]
      exact onDecision_decides (coherent_run cfg before) hadmitted
    have hlater := run_keeps_decisions cfg (before ++ [i]) after hnow
    simpa using hlater
  exact ⟨fun h => h.inert hcoherent hdecided, fun hjournal hwrite h =>
    h.harmless hcoherent hjournal hwrite⟩

namespace Deployment

theorem decisionAdmitted : DecisionAdmitted (run config [⟨env, .intent intent⟩])
    ⟨env, .decision decision⟩ decision "wf-1" := by
  have hrecord : ((run config [⟨env, .intent intent⟩]).workflows.lookup "wf-1").isSome = true := by
    decide +kernel
  obtain ⟨wfr, hwfr⟩ := Option.isSome_iff_exists.mp hrecord
  exact ⟨⟨wfr, rfl, by decide +kernel, hwfr⟩, by decide +kernel⟩

end Deployment

open Deployment in
/-- Delivered again while it is still valid. -/
theorem redelivery_inert_in_time :
    DecisionAdmitted (run config [⟨env, .intent intent⟩]) ⟨env, .decision decision⟩ decision
        "wf-1" ∧
      Inert "wf-1" (run config ([⟨env, .intent intent⟩] ++ ⟨env, .decision decision⟩ :: []))
        (step (run config ([⟨env, .intent intent⟩] ++ ⟨env, .decision decision⟩ :: []))
          ⟨env, .decision decision⟩) := by
  have hinert := (redelivery_inert_iff config _ _ decision "wf-1" [] env decisionAdmitted).1
  refine ⟨decisionAdmitted, hinert ?_⟩
  clear hinert
  have hfirst : (run config ([⟨env, .intent intent⟩] ++
      ⟨env, .decision decision⟩ :: [])).pendingIntentFor env "req-1" = some "wf-1" := by
    decide +kernel
  have hmap : ((run config ([⟨env, .intent intent⟩] ++
      ⟨env, .decision decision⟩ :: [])).workflows.lookup "wf-1").any (fun w =>
        mapVerdict (verdictOn env (run config ([⟨env, .intent intent⟩] ++
          ⟨env, .decision decision⟩ :: [])) w decision) w.intent (run config
            ([⟨env, .intent intent⟩] ++ ⟨env, .decision decision⟩ :: [])).cfg.mapperPolicy
          matches .applied _) = true := by
    decide +kernel
  generalize run config ([⟨env, .intent intent⟩] ++ ⟨env, .decision decision⟩ :: []) = r
    at hfirst hmap ⊢
  rintro wf' wfr ⟨-, hfound, hlookup⟩
  obtain rfl : "wf-1" = wf' := Option.some.inj (hfirst.symm.trans hfound)
  rw [hlookup, Option.any_some] at hmap
  split at hmap
  · rename_i e heq
    exact .inr ⟨e, heq, .inl rfl⟩
  · cases hmap

open Deployment in
/-- Delivered again past its validity, without a fallback template: the running
workflow is ended as FAILED. -/
theorem redelivery_fails_workflow :
    DecisionAdmitted (run config [⟨env, .intent intent⟩]) ⟨env, .decision decision⟩ decision
        "wf-1" ∧
      ((run config admitted).workflows.lookup "wf-1").map (fun w => (w.terminal, w.failedReason)) =
        some (false, none) ∧
      ((step (run config admitted) ⟨late, .decision decision⟩).workflows.lookup "wf-1").map
          (fun w => (w.terminal, w.failedReason)) =
        some (true, some (qosReason .noFallbackAvailable)) ∧
      (step (run config admitted) ⟨late, .decision decision⟩).log.length =
        (run config admitted).log.length + 1 ∧
      ¬ Inert "wf-1" (run config admitted)
        (step (run config admitted) ⟨late, .decision decision⟩) := by
  have hlength : (step (run config admitted) ⟨late, .decision decision⟩).log.length =
      (run config admitted).log.length + 1 := by
    decide +kernel
  refine ⟨decisionAdmitted, by decide +kernel, by decide +kernel, hlength, fun h => ?_⟩
  rw [h.log] at hlength
  omega

end DdsOrchestrator.WorkflowEngine
