import DdsOrchestrator.WorkflowEngine.Isolation
import DdsOrchestrator.WorkflowEngine.Ledger
import DdsOrchestrator.WorkflowEngine.Redelivery

/-!
The limits of an admission and what the engine enforces of them. The mapper
computes a token ceiling and, for LOW_COST, the model to use; the validator
bounds the plan by the ceiling of the intent, and a task takes its model from
its node. Whether the two agree is decided by the mapping alone: the planner is
free to go up to the ceiling of the intent and to name any model.
-/

namespace DdsOrchestrator.WorkflowEngine

open Loop EngineRuntime EngineState Machine

/-! ### Admissions and their limits -/

/-- What the limits of an admission are computed from. -/
structure QosCase where
  decisionPolicy : DecisionPolicy
  mapperPolicy : QosMapperPolicy
  intent : WorkflowIntent
  decision : RoutingDecision
  now : UInt64

def QosCase.verdict (c : QosCase) : Verdict :=
  validate c.decision c.intent c.decisionPolicy (some c.now)

/-- In the state `r` the decision of the case admits its intent, as the
workflow `wf`, under the limits `e`. -/
structure QosCase.Admits (c : QosCase) (r : EngineRuntime) (env : Env) (wf : String)
    (e : EffectiveQos) : Prop where
  policies : r.cfg.decisionPolicy = c.decisionPolicy ∧ r.cfg.mapperPolicy = c.mapperPolicy
  clock : env.now = c.now
  resolves : ∃ wfr, Resolves ⟨env, .decision c.decision⟩ r c.decision wf wfr ∧
    wfr.intent = c.intent
  effective : c.verdict.isShadow = false
  applied : mapVerdict c.verdict c.intent c.mapperPolicy = .applied e
  committed : (r.journal.admitWorkflow env.journalFails
    (admission c.decision c.intent c.verdict)).1 = .ok .admitted

/-- The limits hold: the plan the admission accepts stays within the tokens, and
every task written for the workflow, whatever is called afterwards, has the
model that is prescribed. -/
structure QosCase.Honours (c : QosCase) (r : EngineRuntime) (env : Env) (wf : String)
    (e : EffectiveQos) : Prop where
  tokens : ∀ cand, env.plan ⟨c.intent.workflowId.val, c.intent.prompt.val⟩ = .ok cand →
    validateCandidate cand c.intent env.nowDag = .ok () → cand.tokens ≤ e.maxTokens.toNat
  model : ∀ m, e.modelConstraint = some m → ∀ (calls : List Input) node attempt task,
    .task wf node attempt task ∈
      (calls.foldl step (step r ⟨env, .decision c.decision⟩)).log → task.modelName = m

/-! ### Intents on record -/

/-- No record was started by a cancellation. -/
def StartsOnly (r : EngineRuntime) : Prop :=
  ∀ wf wfr, r.workflows.lookup wf = some wfr → wfr.intent.command ≠ icCancel

section Runs

variable {r₀ r r' : EngineRuntime} {i : Input}

theorem StartsOnly.set (h : StartsOnly r) {wf : String} {wfr : WfRuntime}
    (hlookup : ∀ id, r'.workflows.lookup id =
      if id = wf then some wfr else r.workflows.lookup id)
    (hstart : wfr.intent.command ≠ icCancel) : StartsOnly r' := by
  intro id w hw
  rw [hlookup] at hw
  split at hw
  · injection hw with hw
    rw [← hw]
    exact hstart
  · exact h id w hw

theorem StartsOnly.move (h : StartsOnly r) (hmove : Move r₀ i r r') : StartsOnly r' := by
  cases hmove with
  | submitted intent hcall hstart => exact h.set (lookup_setWf _ _ _) hstart
  | cancelled intent wfr hcall hcancel hwf hmatch n ext =>
      exact h.set (lookup_record _ _ _ ext) (h _ wfr hwf)
  | observed decision wf wfr hres =>
      exact h.set (lookup_setWf _ _ _) (h wf wfr hres.registered)
  | refused decision wf wfr reason hres hshadow hmap n ext =>
      exact h.set (lookup_record _ _ _ ext) (h wf wfr hres.registered)
  | admitted => exact h
  | planned decision wf wfr e hres hshadow hmap j hentry cand hplan hvalid failover qos n ext =>
      exact h.set (lookup_record _ _ _ ext) (h wf wfr hres.registered)
  | rehydrated id row cand hcall hrow hnew hjournal hnew₀ hplan ext =>
      exact h.set (lookup_record _ _ _ ext) (by simp [recovered, storedIntentToWire, icCancel])
  | held wf node wfr hdue => exact h.set (lookup_setWf _ _ _) (h wf wfr hdue.registered)
  | dispatched wf node wfr hdue taskId state j hmat hindex n ext =>
      exact h.set (lookup_record _ _ _ ext) (h wf wfr hdue.registered)
  | incomplete task wf node wfr hwatch | unfailed task wf node wfr hwatch =>
      exact h.set (lookup_setWf _ _ _) (h wf wfr hwatch.registered)
  | completed task wf node wfr hwatch hstatus outputs ready state j hdone n ext =>
      exact h.set (lookup_record _ _ _ ext) (h wf wfr hwatch.registered)
  | retried task wf node wfr hwatch hstatus next state j hfail n ext =>
      exact h.set (lookup_record _ _ _ ext) (h wf wfr hwatch.registered)
  | exhausted task wf node wfr hwatch hstatus state j hfail n ext =>
      exact h.set (lookup_record _ _ _ ext) (h wf wfr hwatch.registered)
  | unswept | sweptUnindexed => exact h
  | swept task hover hnew wf node wfr hindex hwf =>
      exact h.set (lookup_setWf _ _ _) (h wf wfr hwf)
  | doubted task hover hnew wf node wfr hindex hindex' hwf hterminal n ext =>
      exact h.set (lookup_record _ _ _ ext) (h wf wfr hwf)
  | restarted cfg => simp [StartsOnly, EngineRuntime.new]

theorem startsOnly_run (cfg : RuntimeConfig) (inputs : List Input) :
    StartsOnly (run cfg inputs) :=
  foldl_invariant inputs (by simp [StartsOnly, initial, EngineRuntime.new])
    fun _ _ h => step_invariant h fun _ _ ht hmove => ht.move hmove

end Runs

/-! ### What the planner is free to do -/

/-- A plan of one node. -/
def singlePlan (model : String) (tokens : UInt64) : PlanCandidate where
  plannerId := ""
  plannerRevision := ""
  plannerTokens := 0
  nodes :=
    [{ nodeId := "n"
       kind := .inference
       requiredCapabilities := []
       modelId := model
       targetAgentId := ""
       promptTemplate := ""
       dependencies := []
       outputNames := []
       inputs := []
       maxAttempts := 1
       maxTokens := tokens
       maxOutputBytes := 0
       deadlineNs := 0
       priority := 5
       sideEffectKey := "" }]

theorem singlePlan_tokens (model : String) (tokens : UInt64) :
    (singlePlan model tokens).tokens = tokens.toNat := by
  simp [singlePlan, PlanCandidate.tokens]

/-- The validator accepts it for every intent that has the tokens. -/
theorem singlePlan_valid (model : String) {tokens : UInt64} {intent : WorkflowIntent}
    (now : UInt64) (h : tokens.toNat ≤ intent.maxTokens.toNat) :
    validateCandidate (singlePlan model tokens) intent now = .ok () := by
  simp [-AList.insert_empty, validateCandidate, singlePlan, indexNodes, checkNodes, checkNode,
    checkDependencies, checkInputs, addTokens, checkDepths, depthFirst, visitDependencies,
    dependenciesOf, ensure, Catalog.unknown, maxNodes, maxFanout, maxOutputBytesLimit, maxDepth,
    bind, Except.bind, h, pure, Except.pure]

theorem recover_singlePlan (model : String) (tokens : UInt64) (io : JournalCall → Bool)
    (wf : String) {j : Journal} (hattempts : j.attempts = ∅) :
    EngineState.recover io j (PlanGraph.fromCandidate wf 1 (singlePlan model tokens)) =
      (default : EngineState).set "n" .fresh := by
  have hscan : ∀ attempts, scanAttempts io j wf "n" attempts .fresh = .fresh := by
    intro attempts
    exact scanAttempts_of_none (fun a _ => by simp [hattempts]) _
  simp [EngineState.recover, PlanGraph.fromCandidate, singlePlan, recoverNode,
    NodeSpec.fromCandidate, hscan]

/-- A task that is dispatched has the model of its node. -/
theorem dispatch_writes {env : Env} {r : EngineRuntime} {wf node : String} {w wfr : WfRuntime}
    {spec : NodeSpec} (taskId : String) (hwrite : ∀ sample, env.writeFails sample = false)
    (hwf : r.workflows.lookup wf = some w) (hspec : wfr.graph.node node = some spec) :
    ∃ attempt task, .task wf node attempt task ∈ (dispatch env wf node taskId wfr r).2.log ∧
      task.modelName = spec.modelId := by
  unfold dispatch
  simp only [hspec, write, hwrite, Bool.false_eq_true, if_false, andThen]
  set task := nodeTask wfr spec taskId _ _
  set sample := Sample.task wf node (wfr.state.progress node).activeAttempt task
  set r' : EngineRuntime := { r with
    taskIndex := r.taskIndex.insert taskId (wf, node)
    log := r.log ++ [sample] }
  obtain ⟨n, ext, -, heq⟩ := publishState_eq env (r := r') .running hwf
  refine ⟨(wfr.state.progress node).activeAttempt, task, ?_, rfl⟩
  change sample ∈ (andThen (publishState env wf .running r') fun _ r => (.ok 1, r)).2.log
  rw [andThen_ok_snd, heq]
  simp [record, setWf, r']

/-- The first attempt of a node is written under the model of the node. -/
theorem scheduleNode_writes {env : Env} {r : EngineRuntime} {wf node : String} {wfr : WfRuntime}
    {spec : NodeSpec} {w : WorkflowRow} (hjournal : ∀ call, env.journalFails call = false)
    (hwrite : ∀ sample, env.writeFails sample = false)
    (hwf : r.workflows.lookup wf = some wfr) (hspec : wfr.graph.node node = some spec)
    (hfresh : wfr.state.progress node = .fresh)
    (hrow : r.journal.workflows.lookup wfr.graph.workflowId = some w)
    (hgrants : Journal.Grants w r.cfg.perAttemptMicrounits)
    (hreservations : r.journal.reservations = ∅) (hattempts : r.journal.attempts = ∅)
    (hindex : r.taskIndex = ∅) :
    ∃ attempt task, .task wf node attempt task ∈ (scheduleNode env wf node r).2.log ∧
      task.modelName = spec.modelId := by
  have hanswer : ∀ purpose, Placement.answer w purpose r.cfg.perAttemptMicrounits = none :=
    fun _ => Placement.answer_eq_none.mpr hgrants
  have hmat : ∃ state j, wfr.state.materialize env.journalFails wfr.graph node
      r.cfg.perAttemptMicrounits r.journal = (.ok (taskIdOf wfr.graph node 1), state, j) := by
    rw [materialize_eq _ _ hspec (by simp [hfresh, NodeProgress.fresh, default])
      (by simp [hfresh, NodeProgress.fresh, default]), Placement.reserve_eq]
    simp [started, hfresh, NodeProgress.fresh, hjournal, hreservations, hrow, hanswer,
      Journal.recordAttempt, hattempts, Journal.taskIdTaken, Journal.outboxAppend]
  obtain ⟨state, j, hmat⟩ := hmat
  simp only [scheduleNode, hwf, hmat]
  rw [if_neg (by simp [setWf, hindex])]
  exact dispatch_writes _ hwrite (lookup_setWf _ _ _ _ |>.trans (if_pos rfl)) hspec

/-- A tick of a process whose one workflow has a plan of one node writes the
task of that node. -/
theorem tickScheduler_writes {env : Env} {r : EngineRuntime} {wf model : String}
    {wfr : WfRuntime} {w : WorkflowRow} (tokens : UInt64)
    (hjournal : ∀ call, env.journalFails call = false)
    (hwrite : ∀ sample, env.writeFails sample = false) (hids : r.workflowIds env = [wf])
    (hwf : r.workflows.lookup wf = some wfr)
    (hgraph : wfr.graph = PlanGraph.fromCandidate wf 1 (singlePlan model tokens))
    (hstate : wfr.state = (default : EngineState).set "n" .fresh)
    (hlive : wfr.terminal = false)
    (hrow : r.journal.workflows.lookup wf = some w)
    (hgrants : Journal.Grants w r.cfg.perAttemptMicrounits)
    (hreservations : r.journal.reservations = ∅) (hattempts : r.journal.attempts = ∅)
    (hindex : r.taskIndex = ∅) :
    ∃ attempt task, .task wf "n" attempt task ∈ (r.tickScheduler env).2.log ∧
      task.modelName = model := by
  have hready : (wfr.graph.readyNodes wfr.state.doneSet).map (·.nodeId) = ["n"] := by
    have hundone : "n" ∉ wfr.state.doneSet := by
      simp [mem_doneSet, hstate, NodeProgress.fresh, default]
    simp [PlanGraph.readyNodes, hgraph, PlanGraph.fromCandidate, singlePlan,
      NodeSpec.fromCandidate, hundone]
  have htick : (r.tickScheduler env).2 = (scheduleNode env wf "n" r).2 := by
    simp only [tickScheduler, hids, forEach_singleton_snd, scheduleWorkflow, hwf, hlive,
      Bool.false_eq_true, if_false, hready]
  obtain ⟨spec, hspec, hmodel⟩ : ∃ spec, wfr.graph.node "n" = some spec ∧ spec.modelId = model := by
    simp [hgraph, PlanGraph.fromCandidate, singlePlan, PlanGraph.node, NodeSpec.fromCandidate]
  rw [htick, ← hmodel]
  exact scheduleNode_writes hjournal hwrite hwf hspec (by simp [progress, hstate])
    (by rw [hgraph]; exact hrow) hgrants hreservations hattempts hindex

/-! ### A first process that takes up the case -/

namespace QosCase

/-- What the case itself has to bring for its admission. -/
structure Admissible (c : QosCase) (e : EffectiveQos) : Prop where
  start : c.intent.command ≠ icCancel
  request : c.intent.requestId.val = c.decision.requestId.val
  effective : c.verdict.isShadow = false
  applied : mapVerdict c.verdict c.intent c.mapperPolicy = .applied e
  budget : c.intent.maxCostMicrounits.toNat < 2 ^ 63

theorem Admits.admissible {c : QosCase} {cfg : RuntimeConfig} {inputs : List Input} {env : Env}
    {wf : String} {e : EffectiveQos} (h : c.Admits (run cfg inputs) env wf e) :
    c.Admissible e := by
  obtain ⟨wfr, hres, hintent⟩ := h.resolves
  have hfound := List.find?_some hres.found
  simp only [hres.registered, Option.any_some, decide_eq_true_eq, hintent] at hfound
  refine ⟨hintent ▸ startsOnly_run cfg inputs wf wfr hres.registered, hfound, h.effective,
    h.applied, ?_⟩
  by_contra hbig
  exact (admitWorkflow_unadmitted env.journalFails (.inr (not_lt.mp hbig))).1 h.committed

variable (c : QosCase) (cand : PlanCandidate)

/-- The policies of the case; an attempt costs nothing. -/
def config : RuntimeConfig := ⟨c.decisionPolicy, c.mapperPolicy, true, 0, 0⟩

/-- Nothing fails, and every request for a plan gets `cand`. -/
def env : Env where
  now := c.now
  nowDag := 0
  stamp := fun _ => 0
  plan := fun _ => .ok cand
  allTasks := .ok []
  taskOutputs := fun _ => .ok []
  rank := fun _ => 0
  journalFails := fun _ => false
  writeFails := fun _ => false

def submitted : List Input := [⟨c.env cand, .intent c.intent⟩]

variable {c} {e : EffectiveQos}

theorem Admissible.run_submitted (h : c.Admissible e) :
    run c.config (c.submitted cand) =
      (initial c.config).setWf c.intent.workflowId.val (awaiting c.config c.intent) := by
  simp [run, submitted, step, onIntent, h.start, initial, EngineRuntime.new]

/-- The empty journal takes the admission, and holds nothing else of the
workflow. -/
theorem Admissible.committed (h : c.Admissible e) :
    ∃ j, Journal.empty.admitWorkflow (c.env cand).journalFails
        (admission c.decision c.intent c.verdict) = (.ok .admitted, j) ∧
      j.workflows.lookup c.intent.workflowId.val =
        some (admission c.decision c.intent c.verdict).workflowRow ∧
      j.attempts = ∅ ∧ j.reservations = ∅ := by
  obtain ⟨j, hj⟩ := admitWorkflow_admitted (c.env cand).journalFails
    (a := admission c.decision c.intent c.verdict) journalOk_empty rfl
    (AList.notMem_empty _) h.budget
  have hentry := Journal.admitWorkflow_step (c.env cand).journalFails
    (admission c.decision c.intent c.verdict) .empty
  rw [hj] at hentry
  refine ⟨j, hj, ?_⟩
  cases hentry with
  | admitted => exact ⟨AList.lookup_insert _, rfl, rfl⟩

/-- The first process admits the case. -/
theorem Admissible.admits (h : c.Admissible e) :
    c.Admits (run c.config (c.submitted cand)) (c.env cand) c.intent.workflowId.val e := by
  obtain ⟨j, hj, -⟩ := h.committed cand
  rw [h.run_submitted cand]
  refine ⟨⟨rfl, rfl⟩, rfl, ⟨awaiting c.config c.intent, ⟨rfl, ?_, ?_⟩, rfl⟩, h.effective,
    h.applied, ?_⟩
  · simp [-AList.insert_empty, pendingIntentFor, workflowIds, initial, EngineRuntime.new, setWf,
      awaiting, h.request]
  · simp
  · exact congrArg Prod.fst hj

/-- An admission goes on with the plan. -/
theorem Admits.step_eq {r : EngineRuntime} {env : Env} {wf : String} {wfr : WfRuntime}
    {j : Journal} (h : c.Admits r env wf e)
    (hres : Resolves ⟨env, .decision c.decision⟩ r c.decision wf wfr)
    (hintent : wfr.intent = c.intent)
    (hj : r.journal.admitWorkflow env.journalFails (admission c.decision c.intent c.verdict) =
      (.ok .admitted, j)) :
    step r ⟨env, .decision c.decision⟩ = (installPlan env wf wfr e { r with journal := j }).2 := by
  have hverdict : verdictOn env r wfr c.decision = c.verdict := by
    rw [verdictOn, hintent, h.policies.1, h.clock, verdict]
  simp only [step, onDecision, hres.found, hres.registered, takeDecision, hverdict, h.effective,
    Bool.false_eq_true, if_false, hintent, h.policies.2, h.applied, hj]

/-- A tick after the admission writes the task of the one node of the plan,
under the model the planner has named. -/
theorem Admissible.writes (h : c.Admissible e) (model : String) :
    ∃ attempt task, .task c.intent.workflowId.val "n" attempt task ∈
        (step (step (run c.config (c.submitted (singlePlan model 0)))
          ⟨c.env (singlePlan model 0), .decision c.decision⟩)
          ⟨c.env (singlePlan model 0), .tickScheduler⟩).log ∧
      task.modelName = model := by
  set cand := singlePlan model 0 with hcand
  set wf := c.intent.workflowId.val with hwf
  obtain ⟨j, hj, hrow, hattempts, hreservations⟩ := h.committed cand
  have hadmits := h.admits cand
  rw [h.run_submitted cand] at hadmits ⊢
  obtain ⟨wfr, hres, hintent⟩ := hadmits.resolves
  have hwfr : wfr = awaiting c.config c.intent := by simpa [eq_comm] using hres.registered
  rw [hadmits.step_eq hres hintent hj]
  rcases installPlan_eq (r := { (initial c.config).setWf wf (awaiting c.config c.intent) with
    journal := j }) (c.env cand) wf wfr e with
    ⟨-, hinvalid⟩ | ⟨cand', failover, qos, n, ext, hplan, -, -, heq⟩
  · exact absurd (singlePlan_valid model _ (by simp)) (hinvalid cand rfl)
  obtain rfl : cand = cand' := by simpa [env] using hplan
  rw [heq]
  refine tickScheduler_writes (w := (admission c.decision c.intent c.verdict).workflowRow) 0
    (fun _ => rfl) (fun _ => rfl) ?_ (lookup_record _ wf _ ext wf |>.trans (if_pos rfl)) ?_ ?_ ?_
    hrow ?_ hreservations hattempts rfl
  · simp [workflowIds, record, setWf, initial, EngineRuntime.new]
  · simp [EngineRuntime.planned, hwfr, awaiting, hwf, hcand]
  · simp [EngineRuntime.planned, hwfr, awaiting, hcand, recover_singlePlan _ _ _ _ hattempts]
  · simp [EngineRuntime.planned, hwfr, awaiting]
  · have hbudget : (0 : ℤ) + 0 ≤ asI64 c.intent.maxCostMicrounits := asI64_nonneg h.budget
    have hcounts : (admission c.decision c.intent c.verdict).workflowRow.Counts 0 0 := ⟨rfl, rfl⟩
    have hwithin : (admission c.decision c.intent c.verdict).workflowRow.Within 0 :=
      ⟨⟨0, hcounts, le_rfl, hbudget⟩, le_rfl, asI64_lt _⟩
    refine (hwithin.grants_iff hcounts le_rfl hbudget).mpr ?_
    show (0 : ℤ) ≤ asI64 c.intent.maxCostMicrounits - 0 - 0
    simpa using hbudget

/-- The engine honours the limits in every run that admits the case. -/
def Honoured (c : QosCase) : Prop :=
  ∀ cfg inputs env wf e, c.Admits (run cfg inputs) env wf e →
    c.Honours (run cfg inputs) env wf e

end QosCase

/-- A case that some run admits is honoured by every run that admits it exactly
when its mapping keeps the limits of the intent: no model prescribed, and no
ceiling below the intent's. -/
theorem effective_qos_honoured_iff (c : QosCase)
    (hadmitted : ∃ cfg inputs env wf e, c.Admits (run cfg inputs) env wf e) :
    c.Honoured ↔ KeepsIntentLimits c.verdict c.intent c.mapperPolicy := by
  constructor
  · intro h
    obtain ⟨cfg, inputs, env, wf, e, hadmits⟩ := hadmitted
    have hcase := hadmits.admissible
    refine (mapVerdict_limits hcase.applied).mpr ⟨?_, ?_⟩
    · -- A planner that names another model is followed.
      cases hmodel : e.modelConstraint with
      | none => rfl
      | some m =>
          obtain ⟨attempt, task, htask, hname⟩ := hcase.writes (m ++ "+")
          have hsame := (h _ _ _ _ _ (hcase.admits (singlePlan (m ++ "+") 0))).model m hmodel
            [⟨c.env (singlePlan (m ++ "+") 0), .tickScheduler⟩] "n" attempt task htask
          have hlength := congrArg String.length (hname.symm.trans hsame)
          simp [String.length_append] at hlength
    · -- A planner that uses up the intent is accepted.
      have hlt := c.intent.maxTokens.toNat_lt
      have hcast : (UInt64.ofNat c.intent.maxTokens.toNat).toNat = c.intent.maxTokens.toNat := by
        rw [UInt64.toNat_ofNat']
        omega
      have hadmits := hcase.admits (singlePlan "" (.ofNat c.intent.maxTokens.toNat))
      have hle := (h _ _ _ _ _ hadmits).tokens _ rfl (singlePlan_valid "" _ hcast.le)
      rw [singlePlan_tokens, hcast] at hle
      exact UInt32.le_iff_toNat_le.mpr hle
  · intro hkeeps cfg inputs env wf e hadmits
    obtain ⟨hmodel, htokens⟩ := (mapVerdict_limits hadmits.applied).mp hkeeps
    refine ⟨?_, ?_⟩
    · intro cand _ hvalid
      exact (validateCandidate_tokens hvalid).trans (UInt32.le_iff_toNat_le.mp htokens)
    · intro m hm
      rw [hmodel] at hm
      cases hm

namespace Deployment

/-- The decision of the deployment, which accepts the objective FAILOVER. -/
def accepted : QosCase := ⟨config.decisionPolicy, config.mapperPolicy, intent, decision, env.now⟩

/-- The intent with an authorised fallback template, of 256 tokens. -/
def withFallback : WorkflowIntent := { intent with fallbackTemplateId := toS "direct-summarize" }

/-- The decision has expired, so that the fallback is taken. -/
def fallback : QosCase :=
  ⟨config.decisionPolicy, config.mapperPolicy, withFallback, decision, late.now⟩

/-- The limits of the fallback. -/
def fallbackLimits : EffectiveQos :=
  { effective qiBalanced 5 none 256 with requestedObjective := -1 }

theorem accepted_admissible :
    accepted.Admissible (effective qiFailover 1 none intent.maxTokens) :=
  ⟨by decide, by decide +kernel, by decide +kernel, by decide +kernel, by decide⟩

theorem fallback_admits : fallback.Admits (run config [⟨env, .intent withFallback⟩]) late "wf-1"
    fallbackLimits := by
  have hrecord : ((run config [⟨env, .intent withFallback⟩]).workflows.lookup "wf-1").map
      (·.intent) = some withFallback := by
    decide +kernel
  obtain ⟨wfr, hwfr, hintent⟩ := Option.map_eq_some_iff.mp hrecord
  exact ⟨⟨rfl, rfl⟩, rfl, ⟨wfr, ⟨rfl, by decide +kernel, hwfr⟩, hintent⟩,
    by decide +kernel, by decide +kernel, by decide +kernel⟩

end Deployment

open Deployment in
/-- An accepted FAILOVER is honoured. -/
theorem accepted_qos_honoured : accepted.Honoured :=
  (effective_qos_honoured_iff accepted ⟨_, _, _, _, _,
    accepted_admissible.admits (directTemplatePlan ⟨"wf-1", "resuma"⟩)⟩).mpr (by decide +kernel)

open Deployment in
/-- The fallback allows 256 tokens, and the plan of 1024 that the direct
template makes for it is accepted. -/
theorem fallback_ceiling_exceeded :
    fallback.Admits (run config [⟨env, .intent withFallback⟩]) late "wf-1" fallbackLimits ∧
      fallbackLimits.maxTokens = 256 ∧
      (directTemplatePlan ⟨"wf-1", "resuma"⟩).tokens = 1024 ∧
      ((step (run config [⟨env, .intent withFallback⟩]) ⟨late, .decision decision⟩).workflows.lookup
        "wf-1").map (·.graph) =
          some (PlanGraph.fromCandidate "wf-1" 1 (directTemplatePlan ⟨"wf-1", "resuma"⟩)) ∧
      ¬ fallback.Honours (run config [⟨env, .intent withFallback⟩]) late "wf-1" fallbackLimits := by
  have htokens : (directTemplatePlan ⟨"wf-1", "resuma"⟩).tokens = 1024 := by decide
  refine ⟨fallback_admits, rfl, htokens, by decide +kernel, ?_⟩
  intro h
  have hle := h.tokens (directTemplatePlan ⟨"wf-1", "resuma"⟩) (by decide +kernel)
    (by decide +kernel)
  rw [htokens] at hle
  exact absurd hle (by decide)

end DdsOrchestrator.WorkflowEngine
