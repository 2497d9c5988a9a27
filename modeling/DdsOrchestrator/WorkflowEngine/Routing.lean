import DdsOrchestrator.WorkflowEngine.Coherence

/-!
A decision that answers no registered intent. The runtime looks its workflow up
by the request id alone; the validator then finds that the other identifiers do
not match and rejects it. A rejected decision counts as one that is not
available, so the workflow found falls back to the template its intent names or
is ended as FAILED, be it running by then or not. No other workflow is touched,
and this one is spared only if it falls back where the journal does not admit it.
-/

namespace DdsOrchestrator.WorkflowEngine

open Loop EngineRuntime

/-- No registered intent has the request id, the workflow id and the revision
of the decision. -/
def Misrouted (r : EngineRuntime) (decision : RoutingDecision) : Prop :=
  ∀ wf wfr, r.workflows.lookup wf = some wfr → ¬ correlated decision wfr.intent

/-- The workflow a sample is published for. -/
def Sample.workflow : Sample → String
  | .task wf _ _ _ => wf
  | .plan wf _ => wf
  | .state wf _ => wf

/-- The journal has gained at most the admission of `wf`. -/
structure OnlyAdmits (wf : String) (j j' : Journal) : Prop where
  attempts : j'.attempts = j.attempts
  reservations : j'.reservations = j.reservations
  outbox : j'.outbox = j.outbox
  rows : ∀ id, id ≠ wf → j'.decisions.lookup id = j.decisions.lookup id ∧
    j'.workflows.lookup id = j.workflows.lookup id ∧ j'.intents.lookup id = j.intents.lookup id

/-- Nothing but `wf` has changed, and no task was published. -/
structure OnlyTouches (wf : String) (r r' : EngineRuntime) : Prop where
  records : ∀ id, id ≠ wf → r'.workflows.lookup id = r.workflows.lookup id
  journal : OnlyAdmits wf r.journal r'.journal
  log : ∃ ext, r'.log = r.log ++ ext ∧ ∀ s ∈ ext, s.workflow = wf ∧ s.attempt = none

/-- The workflow is treated as one whose decision is not available: without an
authorised template it ends as FAILED, and with one it is admitted under a
rejected verdict, unless the journal keeps it from being admitted. -/
structure FallsBack (r : EngineRuntime) (wf : String) (wfr : WfRuntime) (r' : EngineRuntime) :
    Prop where
  touches : OnlyTouches wf r r'
  refused : ∀ reason, mapFallback wfr.intent r.cfg.mapperPolicy = .rejected reason →
    r'.journal = r.journal ∧ ∃ n, r'.workflows.lookup wf = some
      { wfr with terminal := true, failedReason := some (qosReason reason), stateRev := n }
  applied : ∀ e, mapFallback wfr.intent r.cfg.mapperPolicy = .applied e →
    r' = r ∨ wf ∉ r.journal.decisions ∧
      ∃ row, r'.journal.decisions.lookup wf = some row ∧ row.verdict = "reject"

/-- No record of the runtime, no row of the journal and no topic has changed. -/
structure Unaffected (r r' : EngineRuntime) : Prop where
  records : ∀ id, r'.workflows.lookup id = r.workflows.lookup id
  journal : r'.journal = r.journal
  log : r'.log = r.log

/-- The decision finds no workflow, or one that falls back where the journal does
not admit it: the call fails, the workflow has been decided or has a row before,
or its budget is refused. -/
def Spared (r : EngineRuntime) (env : Env) (decision : RoutingDecision) : Prop :=
  ∀ wf wfr, Resolves ⟨env, .decision decision⟩ r decision wf wfr →
    (∃ e, mapFallback wfr.intent r.cfg.mapperPolicy = .applied e) ∧
      (env.journalFails (.admitWorkflow wfr.intent.workflowId.val) = true ∨
        wfr.intent.workflowId.val ∈ r.journal.decisions ∨
        wfr.intent.workflowId.val ∈ r.journal.workflows ∨
        2 ^ 63 ≤ wfr.intent.maxCostMicrounits.toNat)

theorem OnlyAdmits.refl (wf : String) (j : Journal) : OnlyAdmits wf j j :=
  ⟨rfl, rfl, rfl, fun _ _ => ⟨rfl, rfl, rfl⟩⟩

theorem OnlyTouches.refl (wf : String) (r : EngineRuntime) : OnlyTouches wf r r :=
  ⟨fun _ _ => rfl, .refl wf r.journal, [], by simp, by simp⟩

/-- A decision that does not match the intent is rejected. -/
theorem validate_uncorrelated {decision : RoutingDecision} {intent : WorkflowIntent}
    (h : ¬ correlated decision intent) (policy : DecisionPolicy) (now : Option UInt64) :
    ∃ reason detail, validate decision intent policy now = .reject reason detail := by
  unfold validate
  by_cases hschema : intent.schemaVersion ≠ 1 ∨ decision.schemaVersion ≠ 1
  · rw [if_pos hschema]
    exact ⟨_, _, rfl⟩
  · rw [if_neg hschema, if_pos h]
    exact ⟨_, _, rfl⟩

theorem Publishes.touches {wf : String} {status : WorkflowStatus} {ext : List Sample}
    (h : Publishes wf status ext) : ∀ s ∈ ext, s.workflow = wf ∧ s.attempt = none := by
  rcases h with rfl | ⟨st, -, rfl⟩
  · simp
  · intro s hs
    rw [List.mem_singleton.mp hs]
    exact ⟨rfl, rfl⟩

theorem Journal.AdmitStep.onlyAdmits {a : Journal.Admission} {j j' : Journal}
    (h : Journal.AdmitStep a j (.ok .admitted) j') :
    OnlyAdmits a.workflowId j j' ∧ a.workflowId ∉ j.decisions ∧
      j'.decisions.lookup a.workflowId = some a.decisionRow := by
  cases h with
  | admitted hdecision hworkflow hcheck =>
      have hintents : ∀ (j₀ : Journal) (id : String), id ≠ a.workflowId →
          (Journal.insertIntentOrIgnore a.workflowId a.intentRow j₀).intents.lookup id =
            j₀.intents.lookup id := by
        intro j₀ id hid
        unfold Journal.insertIntentOrIgnore
        split
        · rfl
        · exact AList.lookup_insert_ne hid
      have hrest : ∀ j₀ : Journal,
          (Journal.insertIntentOrIgnore a.workflowId a.intentRow j₀).decisions = j₀.decisions ∧
          (Journal.insertIntentOrIgnore a.workflowId a.intentRow j₀).workflows = j₀.workflows ∧
          (Journal.insertIntentOrIgnore a.workflowId a.intentRow j₀).attempts = j₀.attempts ∧
          (Journal.insertIntentOrIgnore a.workflowId a.intentRow j₀).reservations =
            j₀.reservations ∧
          (Journal.insertIntentOrIgnore a.workflowId a.intentRow j₀).outbox = j₀.outbox := by
        intro j₀
        unfold Journal.insertIntentOrIgnore
        split <;> exact ⟨rfl, rfl, rfl, rfl, rfl⟩
      obtain ⟨hd, hw, ha, hres, hout⟩ := hrest { j with
        decisions := j.decisions.insert a.workflowId a.decisionRow
        workflows := j.workflows.insert a.workflowId a.workflowRow }
      refine ⟨⟨ha, hres, hout, fun id hid => ⟨?_, ?_, hintents _ id hid⟩⟩,
        AList.lookup_eq_none.mp hdecision, ?_⟩
      · rw [hd]
        exact AList.lookup_insert_ne hid
      · rw [hw]
        exact AList.lookup_insert_ne hid
      · rw [hd]
        exact AList.lookup_insert _

section Delivery

variable {r : EngineRuntime} {i : Input} {decision : RoutingDecision} {wf : String}
  {wfr : WfRuntime}

/-- No registered intent is of the workflow that the decision names. -/
theorem Misrouted.of_workflowId
    (h : r.workflows.entries.all
      (fun e => e.2.intent.workflowId.val != decision.workflowId.val) = true) :
    Misrouted r decision := by
  intro wf wfr hwf hcorrelated
  have hne := List.all_eq_true.mp h _ (Map.mem_entries.mpr hwf)
  simp [hcorrelated.2.1] at hne

theorem Misrouted.rejected (h : Misrouted r decision) (hwf : r.workflows.lookup wf = some wfr)
    (env : Env) : ∃ reason detail, verdictOn env r wfr decision = .reject reason detail :=
  validate_uncorrelated (h wf wfr hwf) r.cfg.decisionPolicy (some env.now)

/-- A misrouted decision takes the branch of the fallback. -/
theorem Misrouted.mapped (h : Misrouted r decision) (hwf : r.workflows.lookup wf = some wfr)
    (env : Env) : (verdictOn env r wfr decision).isShadow = false ∧
      mapVerdict (verdictOn env r wfr decision) wfr.intent r.cfg.mapperPolicy =
        mapFallback wfr.intent r.cfg.mapperPolicy := by
  obtain ⟨reason, detail, hverdict⟩ := h.rejected hwf env
  rw [hverdict]
  exact ⟨rfl, rfl⟩

/-- An admission of a misrouted decision, whatever it installs and publishes. -/
theorem FallsBack.admitted {r' : EngineRuntime} (hkey : wfr.intent.workflowId.val = wf)
    (hmis : Misrouted r decision) (hwf : r.workflows.lookup wf = some wfr) (env : Env)
    (hmap : ∃ e, mapFallback wfr.intent r.cfg.mapperPolicy = .applied e)
    (hentry : Journal.AdmitStep (admission decision wfr.intent (verdictOn env r wfr decision))
      r.journal (.ok .admitted) r'.journal)
    (hrecords : ∀ id, id ≠ wf → r'.workflows.lookup id = r.workflows.lookup id)
    (hlog : ∃ ext, r'.log = r.log ++ ext ∧ ∀ s ∈ ext, s.workflow = wf ∧ s.attempt = none) :
    FallsBack r wf wfr r' := by
  obtain ⟨honly, hnew, hrow⟩ := hentry.onlyAdmits
  have hid : (admission decision wfr.intent (verdictOn env r wfr decision)).workflowId = wf := hkey
  rw [hid] at honly hnew hrow
  refine ⟨⟨hrecords, honly, hlog⟩, ?_, fun e _ => .inr ⟨hnew, _, hrow, ?_⟩⟩
  · intro reason hreason
    obtain ⟨e, he⟩ := hmap
    cases he.symm.trans hreason
  · obtain ⟨reason, detail, hverdict⟩ := hmis.rejected hwf env
    rw [hverdict]
    rfl

theorem Misrouted.fallsBack (hr : Coherent r) (hmis : Misrouted r decision)
    (hres : Resolves i r decision wf wfr) : FallsBack r wf wfr (step r i) := by
  have hkey := (hr.records wf wfr hres.registered).key
  have hstep : step r i = (r.onDecision i.env decision).2 := by simp only [step, hres.call]
  obtain ⟨hshadow, hmapped⟩ := hmis.mapped hres.registered i.env
  rw [hstep]
  simp only [onDecision, hres.found, hres.registered, takeDecision, hshadow, Bool.false_eq_true,
    if_false, hmapped]
  cases hmap : mapFallback wfr.intent r.cfg.mapperPolicy with
  | rejected refusal =>
      obtain ⟨n, ext, ⟨hext, -⟩, heq⟩ := publishState_eq i.env .failed
        ((lookup_setWf r wf { wfr with
          terminal := true, failedReason := some (qosReason refusal) } wf).trans (if_pos rfl))
      dsimp only
      rw [andThen_ok_snd, heq, setWf_record]
      refine ⟨⟨fun id hid => ?_, .refl wf r.journal, ext, rfl, hext.touches⟩, ?_, ?_⟩
      · rw [lookup_record, if_neg hid]
      · intro reason' hreason
        cases hmap.symm.trans hreason
        exact ⟨rfl, n, by rw [lookup_record, if_pos rfl]⟩
      · intro e he
        cases hmap.symm.trans he
  | applied e =>
      have hrefl : FallsBack r wf wfr r := by
        refine ⟨.refl wf r, fun reason' hreason => ?_, fun _ _ => .inl rfl⟩
        cases hmap.symm.trans hreason
      have hentry := Journal.admitWorkflow_step i.env.journalFails
        (admission decision wfr.intent (verdictOn i.env r wfr decision)) r.journal
      dsimp only
      generalize r.journal.admitWorkflow i.env.journalFails
        (admission decision wfr.intent (verdictOn i.env r wfr decision)) = out at hentry ⊢
      obtain ⟨result, j⟩ := out
      dsimp only at hentry
      cases hentry with
      | failed | replay | conflict => exact hrefl
      | admitted hdecision hworkflow hcheck =>
          have hentry := Journal.AdmitStep.admitted hdecision hworkflow hcheck
          dsimp only
          generalize Journal.insertIntentOrIgnore _ _ _ = j at hentry ⊢
          rcases installPlan_eq (r := { r with journal := j }) i.env wf wfr e with
            ⟨hsame, -⟩ | ⟨cand, failover, qos, n, ext, -, -, ⟨hext, -⟩, hplanned⟩
          · rw [hsame]
            exact .admitted hkey hmis hres.registered i.env ⟨e, hmap⟩ hentry (fun _ _ => rfl)
              ⟨[], by simp, by simp⟩
          · rw [hplanned]
            refine .admitted hkey hmis hres.registered i.env ⟨e, hmap⟩ hentry
              (fun id hid => by rw [lookup_record, if_neg hid]) ⟨ext, rfl, ?_⟩
            rcases hext with rfl | ⟨p, rest, rfl, hrest⟩
            · simp
            · intro s hs
              rcases List.mem_cons.mp hs with rfl | hs
              · exact ⟨rfl, rfl⟩
              · exact hrest.touches s hs

/-! When it is spared -/

variable {env : Env}

theorem Unaffected.refl (r : EngineRuntime) : Unaffected r r := ⟨fun _ => rfl, rfl, rfl⟩

theorem Spared.unaffected (hmis : Misrouted r decision) (h : Spared r env decision) :
    Unaffected r (step r ⟨env, .decision decision⟩) := by
  simp only [step, onDecision]
  split
  · exact .refl r
  rename_i wf hfound
  split
  · exact .refl r
  rename_i wfr hwf
  obtain ⟨⟨e, hmap⟩, hkept⟩ := h wf wfr ⟨rfl, hfound, hwf⟩
  obtain ⟨hshadow, hmapped⟩ := hmis.mapped hwf env
  simp only [takeDecision, hshadow, Bool.false_eq_true, if_false, hmapped, hmap]
  set a := admission decision wfr.intent (verdictOn env r wfr decision)
  by_cases hio : env.journalFails (.admitWorkflow a.workflowId) = true
  · rw [Journal.admitWorkflow, if_pos hio]
    exact .refl r
  have hentry := Journal.admitWorkflow_step env.journalFails a r.journal
  generalize r.journal.admitWorkflow env.journalFails a = out at hentry ⊢
  obtain ⟨result, j⟩ := out
  cases hentry with
  | failed | replay | conflict => exact .refl r
  | admitted hdecision hworkflow hcheck =>
      -- What keeps the journal from admitting contradicts the admission.
      rcases hkept with hfails | hdecided | hrow | hbig
      · exact absurd hfails hio
      · exact absurd hdecided (AList.lookup_eq_none.mp hdecision)
      · exact absurd hrow (AList.lookup_eq_none.mp hworkflow)
      · exact absurd (Journal.Admission.budget_lt_of_check hcheck) (not_lt.mpr hbig)

/-- A state that is published takes a new revision, also where the write fails. -/
theorem publishState_stateRev (env : Env) (status : WorkflowStatus)
    (hwf : r.workflows.lookup wf = some wfr) :
    ∃ w, (publishState env wf status r).2.workflows.lookup wf = some w ∧
      w.stateRev ≠ wfr.stateRev := by
  have hnew : (r.setWf wf { wfr with stateRev := (wfr.stateRev + 1) % 2 ^ 32 }).workflows.lookup
      wf = some { wfr with stateRev := (wfr.stateRev + 1) % 2 ^ 32 } :=
    (lookup_setWf _ _ _ _).trans (if_pos rfl)
  refine ⟨{ wfr with stateRev := (wfr.stateRev + 1) % 2 ^ 32 }, ?_, ?_⟩
  · simp only [publishState, hwf]
    rcases write_eq env (r := r.setWf wf { wfr with stateRev := (wfr.stateRev + 1) % 2 ^ 32 })
      (.state wf (stateSample wf { wfr with stateRev := (wfr.stateRev + 1) % 2 ^ 32 } status
        (env.stamp (2 * r.log.length)) (env.stamp (2 * r.log.length + 1)))) with
      ⟨-, h⟩ | ⟨-, h⟩
    · rw [h]
      exact hnew
    · rw [h]
      exact hnew
  · show (wfr.stateRev + 1) % 2 ^ 32 ≠ wfr.stateRev
    omega

theorem Unaffected.spared (hmis : Misrouted r decision)
    (h : Unaffected r (step r ⟨env, .decision decision⟩)) : Spared r env decision := by
  rintro wf wfr ⟨-, hfound, hwf⟩
  obtain ⟨hshadow, hmapped⟩ := hmis.mapped hwf env
  simp only [step, onDecision] at h hfound
  simp only [hfound, hwf, takeDecision, hshadow, Bool.false_eq_true, if_false, hmapped] at h
  cases hmap : mapFallback wfr.intent r.cfg.mapperPolicy with
  | rejected reason =>
      -- The refusal is published, under a new revision.
      rw [hmap] at h
      obtain ⟨w, hw, hrev⟩ := publishState_stateRev env .failed
        ((lookup_setWf r wf { wfr with
          terminal := true, failedReason := some (qosReason reason) } wf).trans (if_pos rfl))
      have hsame := h.records wf
      dsimp only at hsame
      rw [andThen_ok_snd, hw, hwf, Option.some.injEq] at hsame
      exact absurd (congrArg WfRuntime.stateRev hsame) hrev
  | applied e =>
      refine ⟨⟨e, rfl⟩, ?_⟩
      rw [hmap] at h
      dsimp only at h
      by_contra hfree
      push Not at hfree
      obtain ⟨hio, hdecision, hworkflow, hsmall⟩ := hfree
      set a := admission decision wfr.intent (verdictOn env r wfr decision)
      obtain ⟨j, hj⟩ := Journal.admitWorkflow_of_new (a := a)
        (Bool.eq_false_of_not_eq_true hio) hdecision hworkflow hsmall
      have hentry := Journal.admitWorkflow_step env.journalFails a r.journal
      rw [hj] at hentry
      obtain ⟨-, -, hrow⟩ := hentry.onlyAdmits
      rw [hj] at h
      -- The row of the decision stays, whatever becomes of the plan.
      have hjournal : (installPlan env wf wfr e { r with journal := j }).2.journal = j := by
        rcases installPlan_eq (r := { r with journal := j }) env wf wfr e with
          ⟨hsame, -⟩ | ⟨cand, failover, qos, n, ext, -, -, -, hplanned⟩
        · rw [hsame]
        · rw [hplanned]
          rfl
      have hsame : j = r.journal := hjournal.symm.trans h.journal
      rw [hsame] at hrow
      exact hdecision (Map.mem_iff_lookup.mpr ⟨_, hrow⟩)

end Delivery

/-- In every state of the runtime a misrouted decision is inert exactly when it is
spared. In a reachable state the workflow that it resolves to falls back, and no other one
is touched. -/
theorem misrouted_inert_iff (r : EngineRuntime) (env : Env) (decision : RoutingDecision)
    (hmis : Misrouted r decision) :
    (Unaffected r (step r ⟨env, .decision decision⟩) ↔ Spared r env decision) ∧
      ∀ cfg inputs, r = run cfg inputs → ∀ wf wfr,
        Resolves ⟨env, .decision decision⟩ r decision wf wfr →
          FallsBack r wf wfr (step r ⟨env, .decision decision⟩) := by
  refine ⟨⟨fun h => h.spared hmis, fun h => h.unaffected hmis⟩, ?_⟩
  rintro cfg inputs rfl wf wfr hres
  exact hmis.fallsBack (coherent_run cfg inputs) hres

namespace Deployment

/-- The decision for the request of `wf-1`, made out to another workflow. -/
def stray : RoutingDecision := { decision with workflowId := toS "wf-2" }

theorem misrouted_stray : Misrouted (run config admitted) stray :=
  .of_workflowId (by decide +kernel)

/-- The intent of `wf-1` with an authorised template. -/
def templated : WorkflowIntent := { intent with fallbackTemplateId := toS "direct-summarize" }

/-- It is admitted with its own decision. -/
def settled : List Input := [⟨env, .intent templated⟩, ⟨env, .decision decision⟩]

theorem misrouted_settled : Misrouted (run config settled) stray :=
  .of_workflowId (by decide +kernel)

/-- What the template allows. -/
def templateLimits : EffectiveQos :=
  { effective qiBalanced 5 none 256 with requestedObjective := -1 }

theorem templated_mapped :
    mapFallback templated (run config settled).cfg.mapperPolicy = .applied templateLimits := by
  decide +kernel

/-- Its workflow is decided and has a template, so the stray decision spares it. -/
theorem spared_settled : Spared (run config settled) env stray := by
  have hrecord : ((run config settled).workflows.lookup "wf-1").map (·.intent) =
      some templated := by
    decide +kernel
  have hfound : (run config settled).pendingIntentFor env stray.requestId.val = some "wf-1" := by
    decide +kernel
  rintro wf wfr ⟨-, hwf, hlookup⟩
  obtain rfl : wf = "wf-1" := Option.some.inj (hwf.symm.trans hfound)
  rw [hlookup, Option.map_some, Option.some.injEq] at hrecord
  rw [hrecord]
  exact ⟨⟨_, templated_mapped⟩, .inr (.inl (by decide +kernel))⟩

end Deployment

open Deployment in
/-- A workflow that is decided and has a template is not touched by the stray
decision, and one without a template falls back. -/
theorem stray_spares_settled :
    Unaffected (run config settled) (step (run config settled) ⟨env, .decision stray⟩) ∧
      ∃ wfr, (run config admitted).workflows.lookup "wf-1" = some wfr ∧
        FallsBack (run config admitted) "wf-1" wfr
          (step (run config admitted) ⟨env, .decision stray⟩) := by
  have hsome : ((run config admitted).workflows.lookup "wf-1").isSome = true := by decide +kernel
  obtain ⟨wfr, hwf⟩ := Option.isSome_iff_exists.mp hsome
  refine ⟨(misrouted_inert_iff (run config settled) env stray misrouted_settled).1.mpr
    spared_settled, wfr, hwf, ?_⟩
  exact (misrouted_inert_iff (run config admitted) env stray misrouted_stray).2 config admitted
    rfl "wf-1" wfr ⟨rfl, by decide +kernel, hwf⟩

open Deployment in
/-- The stray decision ends the running workflow. -/
theorem stray_decision_fails_workflow :
    Misrouted (run config admitted) stray ∧
      ((run config admitted).workflows.lookup "wf-1").map (fun w => (w.terminal, w.failedReason)) =
        some (false, none) ∧
      ((step (run config admitted) ⟨env, .decision stray⟩).workflows.lookup "wf-1").map
          (fun w => (w.terminal, w.failedReason)) =
        some (true, some (qosReason .noFallbackAvailable)) ∧
      (step (run config admitted) ⟨env, .decision stray⟩).log.length =
        (run config admitted).log.length + 1 :=
  ⟨misrouted_stray, by decide +kernel⟩

end DdsOrchestrator.WorkflowEngine
