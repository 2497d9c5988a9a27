import DdsOrchestrator.WorkflowEngine.Coherence

/-!
What an admission promises: a record with a plan that the validator accepts.
The journal commits an admission before the plan exists, and a decision it
knows is a replay, answered like an admission. So the promise is kept only
where every committed admission gets its plan, no start registers a workflow
that was decided before, and no rehydrated plan is one the validator would
refuse.
-/

namespace DdsOrchestrator.WorkflowEngine

open Loop EngineRuntime Machine

/-! ### Runnable records -/

/-- The plan of the record is one that the validator accepts for its intent. -/
def Runnable (wfr : WfRuntime) : Prop :=
  ∃ cand now, wfr.graph = PlanGraph.fromCandidate wfr.intent.workflowId.val 1 cand ∧
    validateCandidate cand wfr.intent now = .ok ()

theorem Runnable.nonempty {wfr : WfRuntime} (h : Runnable wfr) : wfr.graph.nodes ≠ [] := by
  obtain ⟨cand, now, hgraph, hvalid⟩ := h
  rw [hgraph, PlanGraph.fromCandidate, ne_eq, List.map_eq_nil_iff]
  exact (validateCandidate_ok hvalid).nonempty

theorem Runnable.of_same {old wfr : WfRuntime} (h : Runnable old)
    (hintent : wfr.intent = old.intent) (hgraph : wfr.graph = old.graph) : Runnable wfr := by
  obtain ⟨cand, now, hcand, hvalid⟩ := h
  exact ⟨cand, now, by rw [hgraph, hintent, hcand], by rw [hintent, hvalid]⟩

/-- Every decided workflow that is registered can run. -/
def DecidedRunnable (r : EngineRuntime) : Prop :=
  ∀ wf wfr, r.workflows.lookup wf = some wfr → wf ∈ r.journal.decisions → Runnable wfr

/-! ### When admissions keep their promise -/

/-- The call commits the first decision of the workflow to the journal. -/
structure Commits (i : Input) (r : EngineRuntime) (decision : RoutingDecision) (wf : String)
    (wfr : WfRuntime) : Prop where
  resolves : Resolves i r decision wf wfr
  effective : (verdictOn i.env r wfr decision).isShadow = false
  applied : ∃ e, mapVerdict (verdictOn i.env r wfr decision) wfr.intent r.cfg.mapperPolicy =
    .applied e
  fresh : wf ∉ r.journal.decisions
  budget : 0 ≤ asI64 wfr.intent.maxCostMicrounits
  medium : i.env.journalFails (.admitWorkflow wf) = false

structure PlansHold (r : EngineRuntime) (i : Input) : Prop where
  /-- A committed admission gets a plan that validates. -/
  planned : ∀ decision wf wfr, Commits i r decision wf wfr → ∃ cand,
    i.env.plan ⟨wf, wfr.intent.prompt.val⟩ = .ok cand ∧
      validateCandidate cand wfr.intent i.env.nowDag = .ok ()
  /-- No start registers a workflow that the journal has decided. -/
  started : ∀ intent, i.call = .intent intent → intent.command ≠ icCancel →
    r.workflows.lookup intent.workflowId.val = none →
    intent.workflowId.val ∉ r.journal.decisions
  /-- The plans of rehydrated workflows validate for the intents on record. -/
  rehydrated : i.call = .recoverFromJournal → ∀ id row cand,
    r.journal.intents.lookup id = some row → r.workflows.lookup id = none →
    i.env.plan ⟨id, row.prompt⟩ = .ok cand →
    ∃ now, validateCandidate cand (storedIntentToWire (Journal.IntentRow.stored id row)) now =
      .ok ()

section Runs

variable {r₀ r r' : EngineRuntime} {i : Input}

theorem DecidedRunnable.set (h : DecidedRunnable r) {wf : String} {wfr : WfRuntime}
    (hrecords : ∀ id, r'.workflows.lookup id =
      if id = wf then some wfr else r.workflows.lookup id)
    (hdecisions : ∀ id, id ∈ r'.journal.decisions → id ∈ r.journal.decisions ∨ id = wf)
    (hwfr : wf ∈ r'.journal.decisions → Runnable wfr) : DecidedRunnable r' := by
  intro id w hw hdecided
  rw [hrecords] at hw
  split at hw
  · rename_i hid
    injection hw with hw
    subst hid hw
    exact hwfr hdecided
  · rename_i hid
    exact h id w hw ((hdecisions id hdecided).resolve_right hid)

/-- A record that keeps its intent and its plan. -/
theorem DecidedRunnable.kept (h : DecidedRunnable r) {wf : String} {old wfr : WfRuntime}
    (hwf : r.workflows.lookup wf = some old)
    (hrecords : ∀ id, r'.workflows.lookup id =
      if id = wf then some wfr else r.workflows.lookup id)
    (hdecisions : r'.journal.decisions = r.journal.decisions)
    (hintent : wfr.intent = old.intent) (hgraph : wfr.graph = old.graph) : DecidedRunnable r' := by
  refine h.set hrecords (fun id hid => .inl (hdecisions ▸ hid)) fun hdecided => ?_
  exact (h wf old hwf (hdecisions ▸ hdecided)).of_same hintent hgraph

/-- An admission adds the workflow it is about to the decided ones. -/
theorem Journal.AdmitStep.decisions_new {a : Journal.Admission} {j j' : Journal}
    (h : Journal.AdmitStep a j (.ok .admitted) j') (id : String) (hid : id ∈ j'.decisions) :
    id ∈ j.decisions ∨ id = a.workflowId := by
  cases h with
  | admitted hdecision hworkflow hcheck =>
      unfold Journal.insertIntentOrIgnore at hid
      split at hid
      · exact ((AList.mem_insert _).mp hid).symm
      · exact ((AList.mem_insert _).mp hid).symm

theorem DecidedRunnable.move (h : DecidedRunnable r) (hr : Coherent r) (hmove : Move r₀ i r r')
    (hi : PlansHold r₀ i) : DecidedRunnable r' := by
  cases hmove with
  | submitted intent hcall hstart hnew =>
      refine h.set (lookup_setWf _ _ _) (fun _ hid => .inl hid) fun hdecided => ?_
      exact absurd hdecided (hi.started intent hcall hstart hnew)
  | cancelled intent wfr hcall hcancel hwf =>
      exact h.kept hwf (lookup_record _ _ _ _) rfl rfl rfl
  | observed decision wf wfr hres => exact h.kept hres.registered (lookup_setWf _ _ _) rfl rfl rfl
  | refused decision wf wfr reason hres =>
      exact h.kept hres.registered (lookup_record _ _ _ _) rfl rfl rfl
  | admitted decision wf wfr e hres hshadow hmap j hentry hio hunplanned =>
      -- The admission was committed and there is no plan that validates.
      have hkey := (hr.records wf wfr hres.registered).key
      have hcommits : Commits i r₀ decision wf wfr := by
        cases hentry with
        | admitted hdecision hworkflow hcheck =>
            refine ⟨hres, hshadow, ⟨e, hmap⟩, ?_, ?_, hkey ▸ hio⟩
            · rw [← hkey]
              exact AList.lookup_eq_none.mp hdecision
            · exact (Journal.Admission.check_workflowRow _).mp hcheck
      obtain ⟨cand, hplan, hvalid⟩ := hi.planned decision wf wfr hcommits
      exact absurd hvalid (hunplanned cand (hkey ▸ hplan))
  | planned decision wf wfr e hres hshadow hmap j hentry cand hplan hvalid =>
      have hkey := (hr.records wf wfr hres.registered).key
      refine h.set (lookup_record _ _ _ _) (fun id hid => ?_) fun _ => ⟨cand, _, rfl, hvalid⟩
      rw [← hkey]
      exact hentry.decisions_new id hid
  | rehydrated id row cand hcall hrow hnew hjournal hnew₀ hplan =>
      refine h.set (lookup_record _ _ _ _) (fun _ hid => .inl hid) fun _ => ?_
      obtain ⟨now, hvalid⟩ := hi.rehydrated hcall id row cand (hjournal ▸ hrow) hnew₀ hplan
      have hstored := hr.journal.stored id (Map.mem_iff_lookup.mpr ⟨row, hrow⟩)
      refine ⟨cand, now, ?_, hvalid⟩
      show PlanGraph.fromCandidate id 1 cand = PlanGraph.fromCandidate (toS id).val 1 cand
      rw [hstored]
  | held wf node wfr hdue result state j hmat =>
      obtain ⟨-, -, hkept⟩ := hdue.materialized hr hmat
      exact h.kept hdue.registered (lookup_setWf _ _ _) hkept.decisions rfl rfl
  | dispatched wf node wfr hdue taskId state j hmat hindex n ext =>
      obtain ⟨-, -, hkept⟩ := hdue.materialized hr hmat
      exact h.kept hdue.registered (lookup_record r wf _ ext) hkept.decisions rfl rfl
  | incomplete task wf node wfr hwatch hstatus outputs e state j hdone =>
      obtain ⟨-, -, hkept⟩ := hwatch.completed hr hdone
      exact h.kept hwatch.registered (lookup_setWf _ _ _) hkept.decisions rfl rfl
  | completed task wf node wfr hwatch hstatus outputs ready state j hdone n ext =>
      obtain ⟨-, -, hkept⟩ := hwatch.completed hr hdone
      exact h.kept hwatch.registered (lookup_record r wf _ ext) hkept.decisions rfl rfl
  | unfailed task wf node wfr hwatch hstatus e state j hfail =>
      obtain ⟨-, -, hkept⟩ := hwatch.failed hr hfail
      exact h.kept hwatch.registered (lookup_setWf _ _ _) hkept.decisions rfl rfl
  | retried task wf node wfr hwatch hstatus next state j hfail n ext =>
      obtain ⟨-, -, hkept⟩ := hwatch.failed hr hfail
      exact h.kept hwatch.registered (lookup_record r wf _ ext) hkept.decisions rfl rfl
  | exhausted task wf node wfr hwatch hstatus state j hfail n ext =>
      obtain ⟨-, -, hkept⟩ := hwatch.failed hr hfail
      exact h.kept hwatch.registered (lookup_record r wf _ ext) hkept.decisions rfl rfl
  | unswept | sweptUnindexed => exact h
  | swept task hover hnew wf node wfr hindex hwf =>
      exact h.kept hwf (lookup_setWf r wf _) rfl rfl rfl
  | doubted task hover hnew wf node wfr hindex hindex' hwf =>
      exact h.kept hwf (lookup_record _ _ _ _) rfl rfl rfl
  | restarted cfg => simp [DecidedRunnable, EngineRuntime.new]

theorem decidedRunnable_run (cfg : RuntimeConfig) {inputs : List Input}
    (hrun : Along step PlansHold (initial cfg) inputs) : DecidedRunnable (run cfg inputs) := by
  refine (hrun.invariant (I := fun r => Coherent r ∧ DecidedRunnable r)
    ⟨coherent_new journalOk_empty [] cfg, by simp [DecidedRunnable, initial, EngineRuntime.new]⟩
    ?_).2
  rintro r i ⟨hr, h⟩ hi
  refine step_invariant (I := fun t => Coherent t ∧ DecidedRunnable t) ⟨hr, h⟩ ?_
  rintro t t' ⟨ht, h⟩ hmove
  exact ⟨ht.move hmove, h.move ht hmove hi⟩

/-- A decision that is answered with `true` is on record, and its workflow is
registered. -/
theorem onDecision_true {decision : RoutingDecision} (hr : Coherent r)
    (hok : (r.onDecision i.env decision).1 = .ok true) :
    ∃ wf wfr, r.pendingIntentFor i.env decision.requestId.val = some wf ∧
      (r.onDecision i.env decision).2.workflows.lookup wf = some wfr ∧
      wf ∈ (r.onDecision i.env decision).2.journal.decisions := by
  obtain ⟨wf, hfound⟩ : ∃ wf, r.pendingIntentFor i.env decision.requestId.val = some wf := by
    cases hfound : r.pendingIntentFor i.env decision.requestId.val with
    | none => simp [onDecision, hfound] at hok
    | some wf => exact ⟨wf, rfl⟩
  obtain ⟨wfr, hwf⟩ : ∃ wfr, r.workflows.lookup wf = some wfr := by
    cases hwf : r.workflows.lookup wf with
    | none => simp [onDecision, hfound, hwf] at hok
    | some wfr => exact ⟨wfr, rfl⟩
  have hkey := (hr.records wf wfr hwf).key
  simp only [onDecision, hfound, hwf] at hok ⊢
  unfold takeDecision at hok ⊢
  simp only at hok ⊢
  split at hok
  · cases hok
  rename_i hshadow
  rw [if_neg hshadow]
  split at hok
  · obtain ⟨_, -, heq⟩ := andThen_eq_ok hok
    rw [heq] at hok
    cases hok
  rename_i e hmap
  have hentry := Journal.admitWorkflow_step i.env.journalFails
    (admission decision wfr.intent (verdictOn i.env r wfr decision)) r.journal
  split at hok
  · cases hok
  · cases hok
  · rename_i j heq
    simp only [heq] at hentry
    cases hentry with
    | replay row hrow =>
        refine ⟨wf, wfr, rfl, hwf, Map.mem_iff_lookup.mpr ⟨row, ?_⟩⟩
        rw [← hkey]
        exact hrow
  · rename_i j heq
    simp only [heq] at hentry
    obtain ⟨-, hmem, -⟩ := hentry.admitted_journalOk (toS_val wfr.intent.workflowId.noNul)
      hr.journal
    have hmem : wf ∈ j.decisions := hkey ▸ hmem
    rcases installPlan_eq (r := { r with journal := j }) i.env wf wfr e with
      ⟨hsame, -⟩ | ⟨cand, failover, qos, n, ext, -, -, -, hplanned⟩
    · rw [hsame]
      exact ⟨wf, wfr, rfl, hwf, hmem⟩
    · rw [hplanned]
      exact ⟨wf, _, rfl, (lookup_record _ wf _ ext wf).trans (if_pos rfl), hmem⟩

end Runs

/-- The decision is answered with `true` only for a record that can run. -/
def AdmitsRunnable (r : EngineRuntime) (env : Env) (decision : RoutingDecision) : Prop :=
  (r.onDecision env decision).1 = .ok true →
    ∃ wf wfr, r.pendingIntentFor env decision.requestId.val = some wf ∧
      (r.onDecision env decision).2.workflows.lookup wf = some wfr ∧
      wfr.graph.nodes ≠ [] ∧ Runnable wfr

/-- In a run in which committed admissions get their plans, every decision that
is answered with `true`, redelivered or not, has a workflow that can run. -/
theorem admission_runnable (cfg : RuntimeConfig) (inputs : List Input) (env : Env)
    (decision : RoutingDecision)
    (hrun : Along step PlansHold (initial cfg) (inputs ++ [⟨env, .decision decision⟩])) :
    AdmitsRunnable (run cfg inputs) env decision := by
  intro hok
  obtain ⟨wf, wfr, hfound, hwf, hdecided⟩ :=
    onDecision_true (i := ⟨env, .decision decision⟩) (coherent_run cfg inputs) hok
  have hstep : run cfg (inputs ++ [⟨env, .decision decision⟩]) =
      ((run cfg inputs).onDecision env decision).2 := by
    rw [run, List.foldl_append]
    rfl
  have hrunnable := decidedRunnable_run cfg hrun wf wfr (by rw [hstep, hwf])
    (by rw [hstep]; exact hdecided)
  exact ⟨wf, wfr, hfound, hwf, hrunnable.nonempty, hrunnable⟩

namespace Deployment

/-- The planner does not answer. -/
def plannerDown : Env := { env with plan := fun _ => .error "planner indisponível" }

/-- The decision meets the condition where its workflow is decided already, or
awaits it. -/
theorem plansHold_decision {r : EngineRuntime}
    (hfound : r.pendingIntentFor env decision.requestId.val = some "wf-1")
    (hknown : "wf-1" ∈ r.journal.decisions ∨
      r.workflows.lookup "wf-1" = some (awaiting config intent)) :
    PlansHold r ⟨env, .decision decision⟩ := by
  refine ⟨?_, by simp, by simp⟩
  intro decision' wf wfr h
  obtain rfl : decision = decision' := by simpa using h.resolves.call
  obtain rfl : wf = "wf-1" := Option.some.inj (h.resolves.found.symm.trans hfound)
  rcases hknown with hdecided | hwf
  · exact absurd hdecided h.fresh
  · obtain rfl : wfr = awaiting config intent :=
      Option.some.inj (h.resolves.registered.symm.trans hwf)
    exact ⟨directTemplatePlan ⟨"wf-1", "resuma"⟩, rfl, by decide +kernel⟩

end Deployment

open Deployment in
/-- The decision and its redelivery are both answered with `true`, and there is
a plan. -/
theorem redelivery_runnable :
    ((run config admitted).onDecision env decision).1 = .ok true ∧
      AdmitsRunnable (run config admitted) env decision := by
  refine ⟨by decide +kernel, admission_runnable config admitted env decision ⟨?_, ?_, ?_, trivial⟩⟩
  · refine ⟨?_, ?_, by simp⟩
    · intro _ _ _ h
      cases h.resolves.call
    · simp [initial, EngineRuntime.new, Journal.empty]
  · exact plansHold_decision (by decide +kernel) (.inr rfl)
  · exact plansHold_decision (by decide +kernel) (.inl (by decide +kernel))

open Deployment in
/-- The planner fails after the admission was committed. The redelivery is
answered with `true`, and the record has no plan. -/
theorem planner_error_admits_empty :
    ((run config [⟨env, .intent intent⟩]).onDecision plannerDown decision).1 =
        .error (.planner "planner indisponível") ∧
      ((run config [⟨env, .intent intent⟩, ⟨plannerDown, .decision decision⟩]).onDecision env
        decision).1 = .ok true ∧
      ¬ AdmitsRunnable (run config [⟨env, .intent intent⟩, ⟨plannerDown, .decision decision⟩]) env
        decision := by
  have hok : ((run config [⟨env, .intent intent⟩, ⟨plannerDown, .decision decision⟩]).onDecision
      env decision).1 = .ok true := by decide +kernel
  refine ⟨by decide +kernel, hok, fun h => ?_⟩
  obtain ⟨wf, wfr, hfound, hwf, hnodes, -⟩ := h hok
  have hwf' : wf = "wf-1" := by
    have : (run config [⟨env, .intent intent⟩, ⟨plannerDown, .decision decision⟩]).pendingIntentFor
        env decision.requestId.val = some "wf-1" := by decide +kernel
    exact Option.some.inj (hfound.symm.trans this)
  subst hwf'
  have hempty : (((run config [⟨env, .intent intent⟩,
      ⟨plannerDown, .decision decision⟩]).onDecision env decision).2.workflows.lookup "wf-1").map
        (·.graph.nodes) = some [] := by decide +kernel
  rw [hwf, Option.map_some, Option.some.injEq] at hempty
  exact hnodes hempty

end DdsOrchestrator.WorkflowEngine
