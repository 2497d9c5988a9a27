import Mathlib.Data.Finset.Lattice.Lemmas
import DdsOrchestrator.WorkflowEngine.Progress

/-!
Scheduling follows the dependencies of the plan and does not depend on the
order in which results arrive. The done set of a workflow is the union of what
was done before and the nodes whose results were accepted since, so two runs
that accept the same nodes agree on it, and the ready nodes are a function of
it. Results that come too late change nothing.

The one way to lose a done node is a new process: the runs here are those of
one process.
-/

namespace DdsOrchestrator.WorkflowEngine

open Loop EngineRuntime Machine EngineState

/-! ### Completions -/

/-- The engine takes this result as the result of the node. -/
def accepts (wfr : WfRuntime) (node : String) (outputs : List TaskOutput) : Bool :=
  match wfr.graph.node node, wfr.state.nodes.lookup node with
  | some spec, some p =>
      !p.done && outputsValid spec [(nodeOutputName wfr.graph node, outputHash outputs)]
  | _, _ => false

/-- The workflow and node that a visible task completes. -/
def completion (env : Env) (task : Task) (r : EngineRuntime) : Option (String × String) :=
  match r.taskIndex.lookup task.taskId with
  | none => none
  | some (wf, node) =>
      match r.workflows.lookup wf with
      | none => none
      | some wfr =>
          match env.taskOutputs task.taskId with
          | .error _ => none
          | .ok outputs =>
              if wfr.terminal = false ∧ task.status = tsDone ∧ accepts wfr node outputs = true then
                some (wf, node)
              else none

def completionsOf (r : EngineRuntime) (i : Input) : List (String × String) :=
  match i.call, i.env.allTasks with
  | .tickWatchTasks, .ok tasks => traceEach (completion i.env) (watchTask i.env) tasks r
  | _, _ => []

/-- The nodes of a workflow that complete during these calls, in their order. -/
def completions (wf : String) (r : EngineRuntime) (calls : List Input) : List String :=
  ((trace step completionsOf r calls).filter fun e => e.1 = wf).map (·.2)

/-! ### Results that come too late -/

section Late

variable {io : JournalCall → Bool} {graph : PlanGraph} {node : String} {attempt : Nat}
  {s : EngineState} {j : Journal} {p : NodeProgress}

/-- The result is of a node that is done or of an attempt that is not active. -/
def TooLate (p : NodeProgress) (attempt : Nat) : Prop :=
  p.done = true ∨ attempt ≠ p.activeAttempt

theorem onDone_tooLate (hp : s.nodes.lookup node = some p) (hlate : TooLate p attempt)
    (outputs : List (String × String)) :
    (s.onDone io graph node attempt outputs j).2 = (s, j) := by
  unfold onDone
  split
  · rfl
  simp only [hp]
  split
  · rfl
  rename_i hdone
  rw [if_pos (hlate.resolve_left hdone)]

theorem onFailed_tooLate (hp : s.nodes.lookup node = some p) (hlate : TooLate p attempt)
    (failover : Bool) : (s.onFailed io graph node attempt failover j).2 = (s, j) := by
  unfold onFailed
  split
  · rfl
  simp only [hp]
  split
  · rfl
  rename_i hdone
  rw [if_pos (hlate.resolve_left hdone)]

theorem materialize_done (hdone : node ∈ s.doneSet) (microunits : UInt64) :
    (s.materialize io graph node microunits j).2 = (s, j) := by
  obtain ⟨p, hp, hdone⟩ := mem_doneSet.mp hdone
  have hprogress : s.progress node = p := by simp [progress, hp]
  unfold materialize
  split
  · rfl
  dsimp only
  rw [hprogress, if_pos hdone]

end Late

/-! ### What the watcher finishes -/

section Watch

variable {env : Env} {r : EngineRuntime} {wf node : String} {wfr : WfRuntime}

/-- The plan of a record and how far it has come. -/
def WfRuntime.plan (w : WfRuntime) : PlanGraph × EngineState := (w.graph, w.state)

theorem publishState_plan (status : WorkflowStatus) (id : String) :
    ((publishState env wf status r).2.workflows.lookup id).map WfRuntime.plan =
      (r.workflows.lookup id).map WfRuntime.plan := by
  cases hwf : r.workflows.lookup wf with
  | none => simp [publishState, hwf]
  | some w =>
      obtain ⟨n, ext, -, heq⟩ := publishState_eq env status hwf
      rw [heq, lookup_record]
      split
      · rename_i hid
        rw [hid, hwf]
        rfl
      · rfl

/-- The record of the workflow is at this plan, the others are as they were. -/
def PlansSet (r : EngineRuntime) (wf : String) (plan : PlanGraph × EngineState)
    (r' : EngineRuntime) : Prop :=
  ∀ id, (r'.workflows.lookup id).map WfRuntime.plan =
    if id = wf then some plan else (r.workflows.lookup id).map WfRuntime.plan

theorem PlansSet.refl (hwf : r.workflows.lookup wf = some wfr) : PlansSet r wf wfr.plan r := by
  intro id
  split
  · rename_i hid
    rw [hid, hwf]
    rfl
  · rfl

theorem PlansSet.set (w : WfRuntime) (j : Journal) (index : Map String (String × String)) :
    PlansSet r wf w.plan { r.setWf wf w with journal := j, taskIndex := index } := by
  intro id
  rw [lookup_setWf]
  split <;> rfl

theorem PlansSet.published {plan : PlanGraph × EngineState} {r' : EngineRuntime}
    (h : PlansSet r wf plan r') (status : WorkflowStatus) :
    PlansSet r wf plan (publishState env wf status r').2 := by
  intro id
  rw [publishState_plan]
  exact h id

theorem completeTask_plan (env : Env) (node : String) (hwf : r.workflows.lookup wf = some wfr)
    (attempt : Nat) (outputs : List TaskOutput) :
    PlansSet r wf (wfr.graph, (wfr.state.onDone env.journalFails wfr.graph node attempt
        [(nodeOutputName wfr.graph node, outputHash outputs)] r.journal).2.1)
      (completeTask env wf node wfr attempt outputs r).2 := by
  have hstep := onDone_step env.journalFails wfr.graph node attempt
    [(nodeOutputName wfr.graph node, outputHash outputs)] wfr.state r.journal
  unfold completeTask
  split
  · rename_i hout
    rw [hout] at hstep
    cases hstep with
    | refused => exact hout ▸ .refl hwf
  · rename_i hout
    rw [hout]
    exact .set { wfr with state := _ } _ _
  · rename_i hout
    rw [hout]
    split
    · rw [andThen_ok_snd]
      exact PlansSet.published (.set { wfr with state := _, terminal := true } _ _) _
    · rw [andThen_ok_snd]
      exact PlansSet.published (.set { wfr with state := _ } _ _) _

theorem failTask_plan (env : Env) (node : String) (hwf : r.workflows.lookup wf = some wfr)
    (attempt : Nat) (taskId : String) :
    PlansSet r wf (wfr.graph, (wfr.state.onFailed env.journalFails wfr.graph node attempt
        wfr.failover r.journal).2.1) (failTask env wf node taskId wfr attempt r).2 := by
  have hstep := onFailed_step env.journalFails wfr.graph node attempt wfr.failover wfr.state
    r.journal
  unfold failTask
  split
  · rename_i hout
    rw [hout] at hstep
    cases hstep with
    | refused => exact hout ▸ .refl hwf
    | retried _ _ _ _ _ _ _ _ _ _ _ hresult => rcases hresult with h | ⟨e, h⟩ <;> cases h
  · rename_i hout
    rw [hout]
    exact .set { wfr with state := _ } _ _
  · rename_i hout
    rw [hout, andThen_ok_snd]
    exact PlansSet.published (.set { wfr with state := _ } _ _) _
  · rename_i hout
    rw [hout, andThen_ok_snd]
    exact PlansSet.published
      (.set { wfr with state := _, terminal := true, failedReason := _ } _ _) _

theorem onDone_doneSet (io : JournalCall → Bool) (wfr : WfRuntime) (node : String)
    (outputs : List TaskOutput) (j : Journal) :
    (wfr.state.onDone io wfr.graph node (watchedAttempt wfr node)
        [(nodeOutputName wfr.graph node, outputHash outputs)] j).2.1.doneSet =
      if accepts wfr node outputs then insert node wfr.state.doneSet else wfr.state.doneSet := by
  unfold onDone accepts
  cases hspec : wfr.graph.node node with
  | none => simp
  | some spec =>
      cases hp : wfr.state.nodes.lookup node with
      | none => simp
      | some p =>
          have hattempt : watchedAttempt wfr node = p.activeAttempt := by
            simp [watchedAttempt, hp]
          simp only [hattempt, ne_eq, not_true, if_false]
          by_cases hdone : p.done = true
          · simp [hdone]
          have hdone : p.done = false := by simpa using hdone
          by_cases hvalid : outputsValid spec
              [(nodeOutputName wfr.graph node, outputHash outputs)] = true
          · simp only [hdone, hvalid, Bool.false_eq_true, if_false, Bool.not_true, Bool.not_false,
              Bool.and_self, if_true]
            split
            · exact doneSet_set_done _ rfl
            split
            · exact doneSet_set_done _ rfl
            · exact doneSet_set_done _ rfl
          · simp [hdone, hvalid]

theorem onFailed_doneSet (io : JournalCall → Bool) (graph : PlanGraph) (node : String)
    (attempt : Nat) (failover : Bool) (s : EngineState) (j : Journal) :
    (s.onFailed io graph node attempt failover j).2.1.doneSet = s.doneSet := by
  have hstep := onFailed_step io graph node attempt failover s j
  generalize s.onFailed io graph node attempt failover j = out at hstep ⊢
  obtain ⟨result, s', j'⟩ := out
  dsimp only at hstep ⊢
  have hundone : ∀ {p : NodeProgress}, s.nodes.lookup node = some p → p.done = false →
      (s.progress node).done = false := by
    intro p hp hdone
    simp [progress, hp, hdone]
  cases hstep with
  | refused | unrecorded => rfl
  | retried _ _ p hp hdone => exact doneSet_set_undone (hundone hp hdone) hdone
  | closed _ _ p hp hdone => exact doneSet_set_undone (hundone hp hdone) hdone

/-- The nodes of `wf` among some completions. -/
def nodesOf (wf : String) (done : List (String × String)) : Finset String :=
  ((done.filter fun e => e.1 = wf).map (·.2)).toFinset

@[simp] theorem nodesOf_nil (wf : String) : nodesOf wf [] = ∅ := rfl

theorem nodesOf_append (wf : String) (xs ys : List (String × String)) :
    nodesOf wf (xs ++ ys) = nodesOf wf xs ∪ nodesOf wf ys := by
  simp [nodesOf, List.toFinset_append]

/-- No plan has changed, and these nodes are the ones that have become done. -/
structure DoneGrows (wf : String) (r r' : EngineRuntime) (done : List (String × String)) :
    Prop where
  graph : (r'.workflows.lookup wf).map (·.graph) = (r.workflows.lookup wf).map (·.graph)
  nodes : doneNodes r' wf = doneNodes r wf ∪ nodesOf wf done

theorem DoneGrows.refl (wf : String) (r : EngineRuntime) : DoneGrows wf r r [] :=
  ⟨rfl, by simp⟩

theorem DoneGrows.trans {r' r'' : EngineRuntime} {xs ys : List (String × String)}
    (h : DoneGrows wf r r' xs) (h' : DoneGrows wf r' r'' ys) : DoneGrows wf r r'' (xs ++ ys) :=
  ⟨h'.graph.trans h.graph, by rw [h'.nodes, h.nodes, nodesOf_append, Finset.union_assoc]⟩

theorem PlansSet.doneGrows {wf' : String} {state : EngineState} {r' : EngineRuntime}
    (h : PlansSet r wf' (wfr.graph, state) r') (hwf : r.workflows.lookup wf' = some wfr)
    {done : List (String × String)} (hdone : ∀ e ∈ done, e.1 = wf')
    (hstate : state.doneSet = wfr.state.doneSet ∪ nodesOf wf' done) (wf : String) :
    DoneGrows wf r r' done := by
  have hplan := h wf
  by_cases hid : wf = wf'
  · subst hid
    rw [if_pos rfl, Option.map_eq_some_iff] at hplan
    obtain ⟨w, hw, hpair⟩ := hplan
    rw [WfRuntime.plan, Prod.mk.injEq] at hpair
    refine ⟨?_, ?_⟩
    · rw [hw, hwf, Option.map_some, Option.map_some, hpair.1]
    · rw [doneNodes_of_lookup hw, doneNodes_of_lookup hwf, hpair.2, hstate]
  · rw [if_neg hid] at hplan
    have hnodes : nodesOf wf done = ∅ := by
      rw [nodesOf, List.filter_eq_nil_iff.mpr]
      · rfl
      · intro e he
        have heq := hdone e he
        rw [heq]
        simpa using Ne.symm hid
    have hread : ∀ {β : Type} (f : PlanGraph × EngineState → β),
        (r'.workflows.lookup wf).map (fun w => f w.plan) =
          (r.workflows.lookup wf).map (fun w => f w.plan) := by
      intro β f
      have := congrArg (Option.map f) hplan
      rwa [Option.map_map, Option.map_map] at this
    refine ⟨hread Prod.fst, ?_⟩
    rw [hnodes, Finset.union_empty, doneNodes, doneNodes]
    exact congrArg (fun o => o.getD ∅) (hread fun plan => plan.2.doneSet)

/-- The watcher finishes exactly the node that its task completes. -/
theorem watchTask_done (env : Env) (task : Task) (r : EngineRuntime) (wf : String) :
    DoneGrows wf r (watchTask env task r).2 (completion env task r).toList := by
  unfold watchTask completion
  cases hindex : r.taskIndex.lookup task.taskId with
  | none => exact .refl wf r
  | some entry =>
      obtain ⟨wf', node⟩ := entry
      cases hwf : r.workflows.lookup wf' with
      | none =>
          simp only [hwf]
          exact .refl wf r
      | some wfr =>
          simp only [hwf]
          by_cases hlive : wfr.terminal = true
          · simp only [hlive, if_true, Bool.true_eq_false, false_and, if_false]
            split
            · exact .refl wf r
            · exact .refl wf r
          have hlive : wfr.terminal = false := by simpa using hlive
          simp only [hlive, Bool.false_eq_true, if_false, true_and]
          by_cases hstatus : task.status = tsDone
          · simp only [hstatus, if_true, true_and]
            cases houtputs : env.taskOutputs task.taskId with
            | error e => exact .refl wf r
            | ok outputs =>
                have hset := completeTask_plan env node hwf (watchedAttempt wfr node) outputs
                have hdone := onDone_doneSet env.journalFails wfr node outputs r.journal
                by_cases haccepts : accepts wfr node outputs = true
                · simp only [haccepts, if_true] at hdone ⊢
                  refine hset.doneGrows hwf (by simp) (hdone.trans ?_) wf
                  simp [nodesOf]
                · simp only [haccepts, Bool.false_eq_true, if_false] at hdone ⊢
                  exact hset.doneGrows hwf (by simp) (hdone.trans (by simp)) wf
          · have hnone : ∀ outputs : List TaskOutput,
                (if task.status = tsDone ∧ accepts wfr node outputs = true then some (wf', node)
                  else none) = none := by
              intro outputs
              rw [if_neg fun h => hstatus h.1]
            have hlist : (match env.taskOutputs task.taskId with
                | .error _ => none
                | .ok outputs =>
                    if task.status = tsDone ∧ accepts wfr node outputs = true then
                      some (wf', node)
                    else none) = none := by
              split
              · rfl
              · exact hnone _
            rw [if_neg hstatus, hlist]
            by_cases hfailed : task.status = tsFailed
            · rw [if_pos hfailed]
              have hset := failTask_plan env node hwf (watchedAttempt wfr node) task.taskId
              have hdone := onFailed_doneSet env.journalFails wfr.graph node
                (watchedAttempt wfr node) wfr.failover wfr.state r.journal
              exact hset.doneGrows hwf (by simp) (hdone.trans (by simp)) wf
            · rw [if_neg hfailed]
              exact .refl wf r

end Watch

/-! ### The calls of one process -/

/-- The call is not the start of a new process. -/
def NoRestart (i : Input) : Prop := ∀ cfg, i.call ≠ .restart cfg

/-- The workflow is registered under this plan, which it will keep. -/
structure Planned (wf : String) (graph : PlanGraph) (r : EngineRuntime) : Prop where
  coherent : Coherent r
  revision : graph.planRevision = 1
  graph : (r.workflows.lookup wf).map (·.graph) = some graph

section Calls

variable {r₀ r r' : EngineRuntime} {i : Input} {wf : String} {graph : PlanGraph}

theorem Planned.record (h : Planned wf graph r) :
    ∃ wfr, r.workflows.lookup wf = some wfr ∧ wfr.graph = graph :=
  Option.map_eq_some_iff.mp h.graph

theorem DoneGrows.planned {done : List (String × String)} (h : DoneGrows wf r r' done)
    (hr : Planned wf graph r) (hr' : Coherent r') : Planned wf graph r' :=
  ⟨hr', hr.revision, h.graph.trans hr.graph⟩

/-- Only the watcher finishes nodes. -/
theorem Planned.move (h : Planned wf graph r) (hmove : Move r₀ i r r') (hi : NoRestart i)
    (hcall : i.call ≠ .tickWatchTasks) : DoneGrows wf r r' [] := by
  have hr := h.coherent
  obtain ⟨own, hown, hgraph⟩ := h.record
  -- A record is replaced: it is that of another workflow, or it has kept its
  -- plan and its done nodes.
  have hset : ∀ {wf' : String} {wfr' : WfRuntime},
      (∀ id, r'.workflows.lookup id = if id = wf' then some wfr' else r.workflows.lookup id) →
      (wf' = wf → wfr'.graph = own.graph ∧ wfr'.state.doneSet = own.state.doneSet) →
      DoneGrows wf r r' [] := by
    intro wf' wfr' hrecords hsame
    by_cases hid : wf = wf'
    · obtain ⟨hg, hd⟩ := hsame hid.symm
      have hw : r'.workflows.lookup wf = some wfr' := by rw [hrecords, if_pos hid]
      refine ⟨?_, ?_⟩
      · rw [hw, hown, Option.map_some, Option.map_some, hg]
      · rw [doneNodes_of_lookup hw, doneNodes_of_lookup hown, hd]
        simp
    · have hw : r'.workflows.lookup wf = r.workflows.lookup wf := by rw [hrecords, if_neg hid]
      refine ⟨by rw [hw], ?_⟩
      rw [doneNodes, hw]
      simp [doneNodes]
  have hkept : ∀ {wf' : String} {wfr : WfRuntime}, r.workflows.lookup wf' = some wfr →
      wf' = wf → wfr = own := by
    rintro wf' wfr hwfr rfl
    exact Option.some.inj (hwfr.symm.trans hown)
  have hunregistered : ∀ {wf' : String} {P : Prop}, r.workflows.lookup wf' = none →
      wf' = wf → P := by
    rintro wf' P hnone rfl
    rw [hown] at hnone
    cases hnone
  have hrest : r'.workflows = r.workflows → DoneGrows wf r r' [] := by
    intro hsame
    refine ⟨by rw [hsame], ?_⟩
    rw [doneNodes, hsame]
    simp [doneNodes]
  cases hmove with
  | submitted intent _ hstart hnew =>
      exact hset (lookup_setWf _ _ _) (hunregistered hnew)
  | cancelled intent wfr _ hcancel hwf =>
      refine hset (lookup_record _ _ _ _) fun hid => ?_
      obtain rfl := hkept hwf hid
      exact ⟨rfl, rfl⟩
  | observed decision wf' wfr hres =>
      refine hset (lookup_setWf _ _ _) fun hid => ?_
      obtain rfl := hkept hres.registered hid
      exact ⟨rfl, rfl⟩
  | refused decision wf' wfr reason hres =>
      refine hset (lookup_record _ _ _ _) fun hid => ?_
      obtain rfl := hkept hres.registered hid
      exact ⟨rfl, rfl⟩
  | admitted | unswept | sweptUnindexed => exact hrest rfl
  | planned decision wf' wfr e hres hshadow hmap j hentry =>
      refine hset (lookup_record _ _ _ _) fun hid => ?_
      -- A workflow with a plan was decided, so it is not admitted again.
      obtain rfl := hkept hres.registered hid
      obtain ⟨-, -, hfresh, -⟩ := hentry.admitted_journalOk
        (toS_val wfr.intent.workflowId.noNul) hr.journal
      have hok := hr.records wf' wfr hres.registered
      rcases hok.plan with ⟨-, hdecided⟩ | ⟨hrev, -⟩
      · rw [← hok.key] at hdecided
        exact absurd hdecided hfresh
      · rw [hgraph, h.revision] at hrev
        cases hrev
  | rehydrated id row cand _ hrow hnew =>
      exact hset (lookup_record _ _ _ _) (hunregistered hnew)
  | held wf' node wfr hdue result state j hmat =>
      have hdone := materialize_doneSet i.env.journalFails wfr.graph node
        r.cfg.perAttemptMicrounits wfr.state r.journal
      rw [hmat] at hdone
      refine hset (lookup_setWf _ _ _) fun hid => ?_
      obtain rfl := hkept hdue.registered hid
      exact ⟨rfl, hdone⟩
  | dispatched wf' node wfr hdue taskId state j hmat hindex n ext =>
      have hdone := materialize_doneSet i.env.journalFails wfr.graph node
        r.cfg.perAttemptMicrounits wfr.state r.journal
      rw [hmat] at hdone
      refine hset (lookup_record r wf' _ ext) fun hid => ?_
      obtain rfl := hkept hdue.registered hid
      exact ⟨rfl, hdone⟩
  | incomplete _ _ _ _ hwatch | completed _ _ _ _ hwatch => exact absurd hwatch.call hcall
  | unfailed _ _ _ _ hwatch | retried _ _ _ _ hwatch => exact absurd hwatch.call hcall
  | exhausted _ _ _ _ hwatch => exact absurd hwatch.call hcall
  | swept task hover hnew wf' node wfr hindex hwf =>
      refine hset (lookup_setWf r wf' _) fun hid => ?_
      obtain rfl := hkept hwf hid
      exact ⟨rfl, rfl⟩
  | doubted task hover hnew wf' node wfr hindex hindex' hwf =>
      refine hset (lookup_record _ _ _ _) fun hid => ?_
      obtain rfl := hkept hwf hid
      exact ⟨rfl, rfl⟩
  | restarted cfg hrestart => exact absurd hrestart (hi cfg)

/-- A call finishes exactly the nodes that complete during it. -/
theorem Planned.call (h : Planned wf graph r) (hi : NoRestart i) :
    DoneGrows wf r (step r i) (completionsOf r i) := by
  by_cases hcall : i.call = .tickWatchTasks
  · have hstep : step r i = (r.tickWatchTasks i.env).2 := by
      simp only [step, hcall]
    rw [hstep, tickWatchTasks, completionsOf]
    simp only [hcall]
    cases htasks : i.env.allTasks with
    | error e => exact .refl wf r
    | ok tasks =>
        exact traceEach_invariant (I := fun done t => DoneGrows wf r t done) (.refl wf r)
          fun task _ done t ht => ht.trans (watchTask_done i.env task t wf)
  · have hnone : completionsOf r i = [] := by
      unfold completionsOf
      split
      · rename_i heq _
        exact absurd heq hcall
      · rfl
    rw [hnone]
    refine (step_invariant (I := fun t => Planned wf graph t ∧ DoneGrows wf r t [])
      ⟨h, .refl wf r⟩ ?_).2
    rintro t t' ⟨ht, hgrows⟩ hmove
    have hmoved := ht.move hmove hi hcall
    exact ⟨hmoved.planned ht (ht.coherent.move hmove), hgrows.trans hmoved⟩

/-- The calls of one process keep the plan and finish exactly the nodes that
complete during them. -/
theorem Planned.calls (h : Planned wf graph r) (calls : List Input)
    (hcalls : ∀ i ∈ calls, NoRestart i) :
    Planned wf graph (calls.foldl step r) ∧
      DoneGrows wf r (calls.foldl step r)
        (trace step completionsOf r calls) := by
  induction calls generalizing r with
  | nil => exact ⟨h, .refl wf r⟩
  | cons i calls ih =>
      have hi := hcalls i (by simp)
      have hstep := h.call hi
      obtain ⟨hplanned, hgrows⟩ := ih (hstep.planned h (h.coherent.step i))
        fun k hk => hcalls k (by simp [hk])
      exact ⟨hplanned, hstep.trans hgrows⟩

/-- A task goes out only for a node that is ready when the call begins. -/
theorem Planned.writes_ready (h : Planned wf graph r) {node : String} {attempt : Nat}
    {task : Task} (hwrites : Writes r i (.task wf node attempt task)) :
    ∃ spec ∈ graph.readyNodes (doneNodes r wf), spec.nodeId = node := by
  obtain ⟨ext, hlog, hmem⟩ := hwrites
  -- Tasks go out in a tick of the scheduler, and that finishes no node.
  have hinv : ∃ ext, (step r i).log = r.log ++ ext ∧ ∀ node attempt task,
      .task wf node attempt task ∈ ext →
        ∃ spec ∈ graph.readyNodes (doneNodes r wf), spec.nodeId = node := by
    refine (step_invariant (I := fun t => (i.call = .tickScheduler →
        Planned wf graph t ∧ DoneGrows wf r t []) ∧ ∃ ext, t.log = r.log ++ ext ∧
          ∀ node attempt task, .task wf node attempt task ∈ ext →
            ∃ spec ∈ graph.readyNodes (doneNodes r wf), spec.nodeId = node)
      ⟨fun _ => ⟨h, .refl wf r⟩, [], by simp, by simp⟩ ?_).2
    rintro t t' ⟨ht, ext, hlog, hext⟩ hmove
    obtain ⟨new, hnew, htasks⟩ := hmove.tasks
    refine ⟨fun hcall => ?_, ext ++ new, by rw [hnew, hlog, List.append_assoc], ?_⟩
    · obtain ⟨hplanned, hgrows⟩ := ht hcall
      have hmoved := hplanned.move hmove (fun cfg => by rw [hcall]; simp) (by rw [hcall]; simp)
      exact ⟨hmoved.planned hplanned (hplanned.coherent.move hmove), hgrows.trans hmoved⟩
    · intro node attempt task hmem
      rcases List.mem_append.mp hmem with hmem | hmem
      · exact hext node attempt task hmem
      · obtain ⟨wfr, taskId, state, hdue, -⟩ := htasks wf node attempt task hmem
        obtain ⟨hplanned, hgrows⟩ := ht hdue.call
        obtain ⟨w, hw, hgraph⟩ := hplanned.record
        rw [hdue.registered, Option.some.injEq] at hw
        subst hw
        have hready := hdue.ready
        rw [hgraph, ← doneNodes_of_lookup hdue.registered, hgrows.nodes] at hready
        simpa using hready
  obtain ⟨ext', hlog', hext'⟩ := hinv
  rw [hlog] at hlog'
  rw [List.append_cancel_left hlog'] at hmem
  exact hext' node attempt task hmem

end Calls

/-! ### Order of scheduling and order of arrival -/

/-- What the calls of one process do with the plan of a workflow. -/
structure FollowsDependencies (wf : String) (graph : PlanGraph) (r : EngineRuntime)
    (calls : List Input) : Prop where
  /-- A task is written only for a node that is not done and whose dependencies
  are. -/
  ordered : ∀ before i after node attempt task, calls = before ++ i :: after →
    Writes (before.foldl step r) i (.task wf node attempt task) →
    ∀ n ∈ graph.nodes, n.nodeId = node → node ∉ doneNodes (before.foldl step r) wf ∧
      ∀ d ∈ n.dependencies, d ∈ doneNodes (before.foldl step r) wf
  /-- What is done stays done, and no later call writes a task for it. -/
  once : ∀ before between i after node, calls = before ++ (between ++ i :: after) →
    node ∈ doneNodes (before.foldl step r) wf →
    node ∈ doneNodes ((before ++ between).foldl step r) wf ∧
      ∀ attempt task, ¬ Writes ((before ++ between).foldl step r) i (.task wf node attempt task)
  /-- The nodes that become done are those that complete. -/
  done : doneNodes (calls.foldl step r) wf = doneNodes r wf ∪ (completions wf r calls).toFinset

section Order

variable {wf : String} {cand : PlanCandidate} {graph : PlanGraph} {r : EngineRuntime}
  {calls : List Input}

/-- In an accepted plan the id of a node determines it. -/
theorem ValidPlan.node_unique {intent : WorkflowIntent} (h : ValidPlan cand intent)
    {m n : NodeSpec} (hm : m ∈ (PlanGraph.fromCandidate wf 1 cand).nodes)
    (hn : n ∈ (PlanGraph.fromCandidate wf 1 cand).nodes) (hid : m.nodeId = n.nodeId) : m = n := by
  obtain ⟨a, ha, rfl⟩ := List.mem_map.mp hm
  obtain ⟨b, hb, rfl⟩ := List.mem_map.mp hn
  exact congrArg NodeSpec.fromCandidate (List.inj_on_of_nodup_map h.nodup ha hb hid)

theorem Planned.followsDependencies (h : Planned wf graph r)
    (hunique : ∀ m ∈ graph.nodes, ∀ n ∈ graph.nodes, m.nodeId = n.nodeId → m = n)
    (hcalls : ∀ i ∈ calls, NoRestart i) : FollowsDependencies wf graph r calls := by
  have hordered : ∀ before i after node attempt task, calls = before ++ i :: after →
      Writes (before.foldl step r) i (.task wf node attempt task) →
      ∀ n ∈ graph.nodes, n.nodeId = node → node ∉ doneNodes (before.foldl step r) wf ∧
        ∀ d ∈ n.dependencies, d ∈ doneNodes (before.foldl step r) wf := by
    rintro before i after node attempt task rfl hwrites n hn rfl
    obtain ⟨hplanned, -⟩ := h.calls before fun k hk => hcalls k (by simp [hk])
    obtain ⟨spec, hspec, hid⟩ := hplanned.writes_ready hwrites
    obtain ⟨hmem, hready⟩ := List.mem_filter.mp hspec
    rw [hunique spec hmem n hn hid] at hready
    simpa using hready
  refine ⟨hordered, ?_, (h.calls calls hcalls).2.nodes⟩
  rintro before between i after node rfl hdone
  obtain ⟨hplanned, -⟩ := h.calls before fun k hk => hcalls k (by simp [hk])
  obtain ⟨-, hgrows⟩ := hplanned.calls between fun k hk => hcalls k (by simp [hk])
  have hstays : node ∈ doneNodes ((before ++ between).foldl step r) wf := by
    rw [List.foldl_append, hgrows.nodes]
    exact Finset.mem_union_left _ hdone
  refine ⟨hstays, fun attempt task hwrites => ?_⟩
  obtain ⟨hplanned', -⟩ := h.calls (before ++ between) fun k hk => hcalls k (by
    rcases List.mem_append.mp hk with hk | hk <;> simp [hk])
  obtain ⟨spec, hspec, hid⟩ := hplanned'.writes_ready hwrites
  obtain ⟨hmem, -⟩ := List.mem_filter.mp hspec
  exact (hordered (before ++ between) i after node attempt task (by simp) hwrites spec hmem
    hid).1 hstays

theorem mem_readyNodes {done : Finset String} {n : NodeSpec} :
    n ∈ graph.readyNodes done ↔
      n ∈ graph.nodes ∧ n.nodeId ∉ done ∧ ∀ d ∈ n.dependencies, d ∈ done := by
  simp [PlanGraph.readyNodes]

end Order

/-- Scheduling an accepted plan follows its dependencies, whatever the order in
which results arrive. -/
theorem scheduling_follows_dependencies (cand : PlanCandidate) (intent : WorkflowIntent)
    (now : UInt64) (hvalid : validateCandidate cand intent now = .ok ()) :
    (∀ cfg inputs wf wfr calls, (run cfg inputs).workflows.lookup wf = some wfr →
      wfr.graph = PlanGraph.fromCandidate wf 1 cand → (∀ i ∈ calls, NoRestart i) →
      FollowsDependencies wf wfr.graph (run cfg inputs) calls) ∧
    (∀ cfg inputs calls cfg' inputs' calls' wf wfr wfr',
      (run cfg inputs).workflows.lookup wf = some wfr →
      (run cfg' inputs').workflows.lookup wf = some wfr' →
      wfr.graph = PlanGraph.fromCandidate wf 1 cand → wfr'.graph = wfr.graph →
      (∀ i ∈ calls, NoRestart i) → (∀ i ∈ calls', NoRestart i) →
      wfr.state.doneSet = wfr'.state.doneSet →
      (completions wf (run cfg inputs) calls).toFinset =
        (completions wf (run cfg' inputs') calls').toFinset →
      doneNodes (run cfg (inputs ++ calls)) wf = doneNodes (run cfg' (inputs' ++ calls')) wf ∧
        wfr.graph.readyNodes (doneNodes (run cfg (inputs ++ calls)) wf) =
          wfr'.graph.readyNodes (doneNodes (run cfg' (inputs' ++ calls')) wf)) ∧
    (∀ wf (done : Finset String) n, n ∈ (PlanGraph.fromCandidate wf 1 cand).readyNodes done ↔
      n ∈ (PlanGraph.fromCandidate wf 1 cand).nodes ∧ n.nodeId ∉ done ∧
        ∀ d ∈ n.dependencies, d ∈ done) ∧
    (∀ wf io node microunits (s : EngineState) j, node ∈ s.doneSet →
      (s.materialize io (PlanGraph.fromCandidate wf 1 cand) node microunits j).2 = (s, j)) ∧
    (∀ wf io node attempt outputs failover (s : EngineState) j p,
      s.nodes.lookup node = some p → TooLate p attempt →
      (s.onDone io (PlanGraph.fromCandidate wf 1 cand) node attempt outputs j).2 = (s, j) ∧
        (s.onFailed io (PlanGraph.fromCandidate wf 1 cand) node attempt failover j).2 =
          (s, j)) := by
  have hplan := validateCandidate_ok hvalid
  have hplanned : ∀ {cfg : RuntimeConfig} {inputs : List Input} {wf : String} {wfr : WfRuntime},
      (run cfg inputs).workflows.lookup wf = some wfr →
      wfr.graph = PlanGraph.fromCandidate wf 1 cand → Planned wf wfr.graph (run cfg inputs) := by
    intro cfg inputs wf wfr hwf hgraph
    exact ⟨coherent_run cfg inputs, by rw [hgraph]; rfl, by rw [hwf, Option.map_some]⟩
  have hfollows : ∀ cfg inputs wf wfr calls, (run cfg inputs).workflows.lookup wf = some wfr →
      wfr.graph = PlanGraph.fromCandidate wf 1 cand → (∀ i ∈ calls, NoRestart i) →
      FollowsDependencies wf wfr.graph (run cfg inputs) calls := by
    intro cfg inputs wf wfr calls hwf hgraph hcalls
    refine (hplanned hwf hgraph).followsDependencies ?_ hcalls
    rw [hgraph]
    exact fun m hm n hn hid => hplan.node_unique hm hn hid
  refine ⟨hfollows, ?_, fun wf done n => mem_readyNodes, ?_, ?_⟩
  · intro cfg inputs calls cfg' inputs' calls' wf wfr wfr' hwf hwf' hgraph hsame hcalls hcalls'
      hstart hcompleted
    have hdone := (hfollows cfg inputs wf wfr calls hwf hgraph hcalls).done
    have hdone' := (hfollows cfg' inputs' wf wfr' calls' hwf' (hsame.trans hgraph) hcalls').done
    have hequal : doneNodes (run cfg (inputs ++ calls)) wf =
        doneNodes (run cfg' (inputs' ++ calls')) wf := by
      rw [run, run, List.foldl_append, List.foldl_append]
      refine hdone.trans (Eq.trans ?_ hdone'.symm)
      rw [doneNodes_of_lookup hwf, doneNodes_of_lookup hwf', hstart, hcompleted]
    exact ⟨hequal, by rw [hequal, hsame]⟩
  · intro wf io node microunits s j hdone
    exact materialize_done hdone microunits
  · intro wf io node attempt outputs failover s j p hp hlate
    exact ⟨onDone_tooLate hp hlate outputs, onFailed_tooLate hp hlate failover⟩

namespace Deployment

/-- A node with these dependencies, otherwise as in the direct plan. -/
def forkNode (id : String) (dependencies : List String) : CandidateNode where
  nodeId := id
  kind := .inference
  requiredCapabilities := ["summarization"]
  modelId := ""
  targetAgentId := ""
  promptTemplate := "resuma"
  dependencies := dependencies
  outputNames := ["out"]
  inputs := []
  maxAttempts := 1
  maxTokens := 512
  maxOutputBytes := 65536
  deadlineNs := 0
  priority := 5
  sideEffectKey := ""

/-- Two nodes and their join. -/
def fork : PlanCandidate :=
  ⟨"static-template", "direct-v1", 0, [forkNode "b1" [], forkNode "b2" [],
    forkNode "join" ["b1", "b2"]]⟩

/-- The fork is admitted and both branches are dispatched. -/
def forked : List Input :=
  [⟨env, .intent intent⟩, ⟨{ env with plan := fun _ => .ok fork }, .decision decision⟩,
    ⟨env, .tickScheduler⟩]

/-- The watcher sees this branch finished. -/
def branchDone (node : String) : Input :=
  ⟨showing [seen (laya1TaskId "wf-1" 1 node 1) tsDone 1000], .tickWatchTasks⟩

end Deployment

open Deployment in
/-- The join is ready after both branches, whichever came first. -/
theorem fork_joins_in_either_order :
    completions "wf-1" (run config forked) [branchDone "b1", branchDone "b2"] = ["b1", "b2"] ∧
      completions "wf-1" (run config forked) [branchDone "b2", branchDone "b1"] = ["b2", "b1"] ∧
      doneNodes (run config (forked ++ [branchDone "b1", branchDone "b2"])) "wf-1" =
        doneNodes (run config (forked ++ [branchDone "b2", branchDone "b1"])) "wf-1" ∧
      FollowsDependencies "wf-1" (PlanGraph.fromCandidate "wf-1" 1 fork) (run config forked)
        [branchDone "b1", branchDone "b2"] := by
  obtain ⟨hfollows, hconfluent, -⟩ := scheduling_follows_dependencies fork intent 10
    (by decide +kernel)
  obtain ⟨hfirst, hsecond, hgraph⟩ :
      completions "wf-1" (run config forked) [branchDone "b1", branchDone "b2"] = ["b1", "b2"] ∧
        completions "wf-1" (run config forked) [branchDone "b2", branchDone "b1"] =
          ["b2", "b1"] ∧
        ((run config forked).workflows.lookup "wf-1").map (·.graph) =
          some (PlanGraph.fromCandidate "wf-1" 1 fork) := by
    decide +kernel
  have hcalls : ∀ a b, ∀ i ∈ [branchDone a, branchDone b], NoRestart i := by
    intro a b i hi cfg
    simp only [List.mem_cons, List.not_mem_nil, or_false] at hi
    rcases hi with rfl | rfl <;> simp [branchDone]
  obtain ⟨wfr, hwf, hgraph⟩ := Option.map_eq_some_iff.mp hgraph
  refine ⟨hfirst, hsecond, ?_, ?_⟩
  · exact (hconfluent config forked _ config forked _ "wf-1" wfr wfr hwf hwf hgraph rfl
      (hcalls _ _) (hcalls _ _) rfl (by rw [hfirst, hsecond]; decide)).1
  · rw [← hgraph]
    exact hfollows config forked "wf-1" wfr _ hwf hgraph (hcalls _ _)

end DdsOrchestrator.WorkflowEngine
