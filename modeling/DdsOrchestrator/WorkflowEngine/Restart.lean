import DdsOrchestrator.WorkflowEngine.Coherence

/-!
A restart of the process and how a workflow ended before it. The end of a
workflow is not in the journal: `recover_from_journal` rebuilds every record as
one that is not terminal. A completed workflow has nothing left to schedule and
nothing to watch, so no tick ends it again.
-/

namespace DdsOrchestrator.WorkflowEngine

open Loop EngineRuntime Machine

/-! ### How a workflow stands -/

/-- The record is terminal with a failure, and not because a task is in doubt. -/
def FailedEnd (wf : String) (r : EngineRuntime) : Prop :=
  ∃ wfr reason, r.workflows.lookup wf = some wfr ∧ wfr.terminal = true ∧
    wfr.failedReason = some reason ∧ ∀ taskId, reason ≠ inDoubtReason taskId

/-- The workflow has a record that is not terminal. -/
def ReportedRunning (wf : String) (r : EngineRuntime) : Prop :=
  ∃ wfr, r.workflows.lookup wf = some wfr ∧ wfr.terminal = false

/-- A new process would find the intent of the workflow and get a plan for it. -/
def Rehydrates (wf : String) (j : Journal) (env : Env) : Prop :=
  ∃ row cand, j.intents.lookup wf = some row ∧ env.plan ⟨wf, row.prompt⟩ = .ok cand

def Call.isTick : Call → Bool
  | .tickScheduler | .tickWatchTasks | .tickTimeouts => true
  | _ => false

/-- A new process over the journal and the topics of `r`, and its recovery. -/
def restarted (r : EngineRuntime) (cfg : RuntimeConfig) (env : Env) :
    Except RuntimeError Nat × EngineRuntime :=
  (EngineRuntime.new r.journal r.log cfg).recoverFromJournal env

/-! ### What recovery registers -/

section Recovery

variable {env : Env} {r : EngineRuntime} {wf : String}

/-- One stored intent: nothing, or a record that is not terminal. -/
theorem rehydrate_workflows (env : Env) (si : Journal.StoredIntent) (r : EngineRuntime) :
    (rehydrate env si r).2.workflows = r.workflows ∧
        (r.workflows.lookup si.workflowId = none → ∃ e, env.plan ⟨si.workflowId, si.prompt⟩ =
          .error e) ∨
      r.workflows.lookup si.workflowId = none ∧
        ∃ cand, env.plan ⟨si.workflowId, si.prompt⟩ = .ok cand ∧
          (rehydrate env si r).2.workflows = r.workflows.insert si.workflowId
            (recovered env r.cfg r.journal si cand) := by
  unfold rehydrate
  split
  · rename_i hmem
    refine .inl ⟨rfl, fun hnone => ?_⟩
    exact absurd hmem (AList.lookup_eq_none.mp hnone)
  rename_i hnew
  split
  · rename_i e hplan
    exact .inl ⟨rfl, fun _ => ⟨e, hplan⟩⟩
  rename_i cand hplan
  refine .inr ⟨AList.lookup_eq_none.mpr hnew, cand, hplan, ?_⟩
  rw [andThen_ok_snd]
  rcases publishPlan_eq env cand (lookup_setWf r si.workflowId
    (recovered env r.cfg r.journal si cand) si.workflowId |>.trans (if_pos rfl)) with
    ⟨-, p, hp⟩ | ⟨-, hp⟩
  · rw [hp]
    rfl
  · rw [hp]
    rfl

/-- Nothing is terminal after a restart. -/
theorem restarted_not_terminal (cfg : RuntimeConfig) (env : Env) {wfr : WfRuntime}
    (hwf : (restarted r cfg env).2.workflows.lookup wf = some wfr) : wfr.terminal = false := by
  revert hwf
  unfold restarted recoverFromJournal
  split
  · simp [EngineRuntime.new]
  refine forEach_invariant (I := fun t : EngineRuntime => t.workflows.lookup wf = some wfr →
    wfr.terminal = false) (by simp [EngineRuntime.new]) ?_
  intro si _ t ht hwf
  rcases rehydrate_workflows env si t with ⟨heq, -⟩ | ⟨-, cand, -, heq⟩
  · exact ht (heq ▸ hwf)
  · rw [heq] at hwf
    rcases Map.lookup_insert_eq_some.mp hwf with ⟨-, rfl⟩ | ⟨-, hold⟩
    · rfl
    · exact ht hold

theorem restarted_registered (cfg : RuntimeConfig) (env : Env)
    (h : ∃ wfr, (restarted r cfg env).2.workflows.lookup wf = some wfr) :
    Rehydrates wf r.journal env := by
  revert h
  unfold restarted recoverFromJournal
  split
  · simp [EngineRuntime.new]
  rename_i stored hstored
  refine forEach_invariant (I := fun t : EngineRuntime =>
    (∃ wfr, t.workflows.lookup wf = some wfr) → Rehydrates wf r.journal env)
    (by simp [EngineRuntime.new]) ?_
  intro si hsi t ht hwf
  obtain ⟨id, row, hrow, rfl⟩ := (storedIntents_eq_ok hstored si).mp hsi
  rcases rehydrate_workflows env (Journal.IntentRow.stored id row) t with
    ⟨heq, -⟩ | ⟨-, cand, hplan, heq⟩
  · rw [heq] at hwf
    exact ht hwf
  · obtain ⟨wfr, hwfr⟩ := hwf
    rw [heq] at hwfr
    rcases Map.lookup_insert_eq_some.mp hwfr with ⟨rfl, -⟩ | ⟨-, hold⟩
    · exact ⟨row, cand, hrow, hplan⟩
    · exact ht ⟨wfr, hold⟩

/-- A recovery that ends well registers every workflow it can plan. -/
theorem restarted_of_rehydrates (cfg : RuntimeConfig) (h : Rehydrates wf r.journal env)
    (hok : (restarted r cfg env).1.isOk = true) :
    ∃ wfr, (restarted r cfg env).2.workflows.lookup wf = some wfr := by
  obtain ⟨row, cand, hrow, hplan⟩ := h
  revert hok
  unfold restarted recoverFromJournal
  split
  · simp [Except.isOk, Except.toBool]
  rename_i stored hstored
  intro hok
  have hmem : Journal.IntentRow.stored wf row ∈ stored :=
    (storedIntents_eq_ok hstored _).mpr ⟨wf, row, hrow, rfl⟩
  refine forEach_establishes (I := fun _ => True)
    (P := fun t : EngineRuntime => ∃ wfr, t.workflows.lookup wf = some wfr) hok hmem trivial
    (fun _ _ _ _ => trivial) ?_ ?_
  · intro t _ _
    rcases rehydrate_workflows env (Journal.IntentRow.stored wf row) t with
      ⟨heq, hskip⟩ | ⟨-, _, -, heq⟩
    · rw [heq]
      cases hwf : t.workflows.lookup wf with
      | none =>
          obtain ⟨e, he⟩ := hskip hwf
          exact absurd (hplan.symm.trans he) (by simp)
      | some wfr => exact ⟨wfr, rfl⟩
    · rw [heq]
      exact ⟨_, Map.lookup_insert_eq_some.mpr (.inl ⟨rfl, rfl⟩)⟩
  · rintro si _ t - ⟨wfr, hwfr⟩
    rcases rehydrate_workflows env si t with ⟨heq, -⟩ | ⟨hnone, _, -, heq⟩
    · rw [heq]
      exact ⟨wfr, hwfr⟩
    · rw [heq]
      refine ⟨wfr, Map.lookup_insert_eq_some.mpr (.inr ⟨?_, hwfr⟩)⟩
      rintro rfl
      exact absurd (hnone.symm.trans hwfr) (by simp)

end Recovery

/-! ### Ticks -/

section Ticks

variable {r₀ r r' : EngineRuntime} {i : Input}

/-- A tick changes the record of a workflow only through a node that is due or
a task that is indexed, and indexes only tasks of nodes that are due. -/
theorem Move.of_tick (h : Move r₀ i r r') (htick : i.call.isTick = true) (wf : String) :
    (r'.workflows.lookup wf = r.workflows.lookup wf ∨
      ∃ wfr, r.workflows.lookup wf = some wfr ∧ ((∃ node, Due i r wf node wfr) ∨
        ∃ taskId node, r.taskIndex.lookup taskId = some (wf, node))) ∧
    ∀ taskId node, r'.taskIndex.lookup taskId = some (wf, node) →
      r.taskIndex.lookup taskId = some (wf, node) ∨ ∃ wfr, Due i r wf node wfr := by
  have hset : ∀ {wf' : String} {old new : WfRuntime}, r.workflows.lookup wf' = some old →
      ((∃ node, Due i r wf' node old) ∨
        ∃ taskId node, r.taskIndex.lookup taskId = some (wf', node)) →
      (r.workflows.insert wf' new).lookup wf = r.workflows.lookup wf ∨
        ∃ wfr, r.workflows.lookup wf = some wfr ∧ ((∃ node, Due i r wf node wfr) ∨
          ∃ taskId node, r.taskIndex.lookup taskId = some (wf, node)) := by
    intro wf' old new hold hcause
    rw [Map.lookup_insert_if]
    by_cases hwf : wf = wf'
    · subst hwf
      exact .inr ⟨old, hold, hcause⟩
    · exact .inl (if_neg hwf)
  have hindex : ∀ taskId node, r.taskIndex.lookup taskId = some (wf, node) →
      r.taskIndex.lookup taskId = some (wf, node) ∨ ∃ wfr, Due i r wf node wfr :=
    fun _ _ h => .inl h
  have hcallne : ∀ {call : Call}, i.call = call → call.isTick = false → False := by
    intro call hcall hno
    rw [hcall, hno] at htick
    cases htick
  cases h with
  | submitted intent hcall => exact (hcallne hcall rfl).elim
  | cancelled intent wfr hcall => exact (hcallne hcall rfl).elim
  | observed decision wf' wfr hres => exact (hcallne hres.call rfl).elim
  | refused decision wf' wfr reason hres => exact (hcallne hres.call rfl).elim
  | admitted decision wf' wfr e hres => exact (hcallne hres.call rfl).elim
  | planned decision wf' wfr e hres => exact (hcallne hres.call rfl).elim
  | rehydrated id row cand hcall => exact (hcallne hcall rfl).elim
  | held wf' node wfr hdue => exact ⟨hset hdue.registered (.inl ⟨node, hdue⟩), hindex⟩
  | dispatched wf' node wfr hdue taskId =>
      refine ⟨hset hdue.registered (.inl ⟨node, hdue⟩), ?_⟩
      intro taskId' node' hlookup
      rcases Map.lookup_insert_eq_some.mp hlookup with ⟨-, heq⟩ | ⟨-, hold⟩
      · injection heq with hwf hnode
        subst hwf hnode
        exact .inr ⟨wfr, hdue⟩
      · exact .inl hold
  | incomplete task wf' node wfr hwatch =>
      exact ⟨hset hwatch.registered (.inr ⟨_, _, hwatch.indexed⟩), hindex⟩
  | completed task wf' node wfr hwatch =>
      exact ⟨hset hwatch.registered (.inr ⟨_, _, hwatch.indexed⟩), hindex⟩
  | unfailed task wf' node wfr hwatch =>
      exact ⟨hset hwatch.registered (.inr ⟨_, _, hwatch.indexed⟩), hindex⟩
  | retried task wf' node wfr hwatch =>
      exact ⟨hset hwatch.registered (.inr ⟨_, _, hwatch.indexed⟩), fun _ _ hlookup =>
        .inl (Map.lookup_of_lookup_erase hlookup)⟩
  | exhausted task wf' node wfr hwatch =>
      exact ⟨hset hwatch.registered (.inr ⟨_, _, hwatch.indexed⟩), hindex⟩
  | unswept => exact ⟨.inl rfl, hindex⟩
  | sweptUnindexed => exact ⟨.inl rfl, hindex⟩
  | swept task hover hnew wf' node wfr hindexed hwf =>
      exact ⟨hset hwf (.inr ⟨_, _, hindexed⟩), hindex⟩
  | doubted task hover hnew wf' node wfr hindexed hindexed' hwf =>
      exact ⟨hset hwf (.inr ⟨_, _, hindexed'⟩), hindex⟩
  | restarted cfg hcall => exact (hcallne hcall rfl).elim

/-- Ticks register nothing. -/
theorem ticks_unregistered {wf : String} (ticks : List Input)
    (hticks : ∀ i ∈ ticks, i.call.isTick = true) (hnone : r.workflows.lookup wf = none) :
    (ticks.foldl step r).workflows.lookup wf = none := by
  induction ticks generalizing r with
  | nil => exact hnone
  | cons i ticks ih =>
      refine ih (fun j hj => hticks j (by simp [hj])) ?_
      refine step_invariant (I := fun t => t.workflows.lookup wf = none) hnone ?_
      intro t t' ht hmove
      rcases (hmove.of_tick (hticks i (by simp)) wf).1 with hsame | ⟨wfr, hwfr, -⟩
      · exact hsame.trans ht
      · exact absurd (ht.symm.trans hwfr) (by simp)

/-- A record that is not terminal, with every node done and no task indexed. -/
structure Stuck (wf : String) (r : EngineRuntime) : Prop where
  record : ∃ wfr, r.workflows.lookup wf = some wfr ∧ wfr.terminal = false ∧
    ∀ n ∈ wfr.graph.nodes, n.nodeId ∈ wfr.state.doneSet
  unindexed : ∀ taskId node, r.taskIndex.lookup taskId ≠ some (wf, node)

theorem Stuck.not_due {wf node : String} {wfr : WfRuntime} (h : Stuck wf r) :
    ¬ Due i r wf node wfr := by
  intro hdue
  obtain ⟨w, hw, -, hdone⟩ := h.record
  rw [hdue.registered, Option.some.injEq] at hw
  subst hw
  obtain ⟨spec, hspec, -⟩ := hdue.ready
  obtain ⟨hmem, hready⟩ := List.mem_filter.mp hspec
  have hnot : spec.nodeId ∉ wfr.state.doneSet := by
    have := of_decide_eq_true hready
    exact this.1
  exact hnot (hdone spec hmem)

theorem Stuck.move {wf : String} (h : Stuck wf r) (htick : i.call.isTick = true)
    (hmove : Move r₀ i r r') : Stuck wf r' := by
  obtain ⟨hrecord, hindex⟩ := hmove.of_tick htick wf
  constructor
  · rcases hrecord with hsame | ⟨wfr, -, ⟨node, hdue⟩ | ⟨taskId, node, hindexed⟩⟩
    · rw [hsame]
      exact h.record
    · exact absurd hdue h.not_due
    · exact absurd hindexed (h.unindexed taskId node)
  · intro taskId node hlookup
    rcases hindex taskId node hlookup with hold | ⟨wfr, hdue⟩
    · exact h.unindexed taskId node hold
    · exact h.not_due hdue

/-- No number of ticks ends a stuck workflow. -/
theorem Stuck.ticks {wf : String} (h : Stuck wf r) (ticks : List Input)
    (hticks : ∀ i ∈ ticks, i.call.isTick = true) : Stuck wf (ticks.foldl step r) := by
  induction ticks generalizing r with
  | nil => exact h
  | cons i ticks ih =>
      refine ih ?_ fun j hj => hticks j (by simp [hj])
      exact step_invariant h fun _ _ ht hmove => ht.move (hticks i (by simp)) hmove

theorem Stuck.workflowDone {wf : String} (h : Stuck wf r) : r.workflowDone wf = some false := by
  obtain ⟨wfr, hwfr, hterm, -⟩ := h.record
  simp [EngineRuntime.workflowDone, hwfr, hterm]

end Ticks

/-! ### The restart -/

/-- The end of `wf` outlives the restart, whatever is ticked afterwards. -/
def EndPreserved (wf : String) (r : EngineRuntime) (cfg : RuntimeConfig) (env : Env) : Prop :=
  ∀ ticks : List Input, (∀ i ∈ ticks, i.call.isTick = true) →
    (Completed wf r → (ticks.foldl step (restarted r cfg env).2).workflowDone wf = some true) ∧
    (FailedEnd wf r → ¬ ReportedRunning wf (ticks.foldl step (restarted r cfg env).2))

/-- A restart preserves the end of a workflow exactly when the workflow was not
completed and, if it had failed, is not found in the journal with a plan. -/
theorem restart_preserves_iff (cfg : RuntimeConfig) (inputs : List Input) (wf : String)
    (cfg' : RuntimeConfig) (env : Env)
    (hok : (restarted (run cfg inputs) cfg' env).1.isOk = true) :
    EndPreserved wf (run cfg inputs) cfg' env ↔
      ¬ Completed wf (run cfg inputs) ∧
        (FailedEnd wf (run cfg inputs) → ¬ Rehydrates wf (run cfg inputs).journal env) := by
  constructor
  · intro h
    obtain ⟨hcompleted, hfailed⟩ := h [] (by simp)
    refine ⟨fun hdone => ?_, fun hfail hre => hfailed hfail ?_⟩
    · have hreport := hcompleted hdone
      simp only [List.foldl_nil, workflowDone, Option.map_eq_some_iff] at hreport
      obtain ⟨wfr, hwfr, hterm⟩ := hreport
      rw [restarted_not_terminal cfg' env hwfr] at hterm
      cases hterm
    · obtain ⟨wfr, hwfr⟩ := restarted_of_rehydrates cfg' hre hok
      exact ⟨wfr, hwfr, restarted_not_terminal cfg' env hwfr⟩
  · rintro ⟨hdone, hfail⟩ ticks hticks
    refine ⟨fun hcompleted => absurd hcompleted hdone, ?_⟩
    rintro hfailed ⟨wfr, hwfr, -⟩
    have hnone : (restarted (run cfg inputs) cfg' env).2.workflows.lookup wf = none := by
      cases hlookup : (restarted (run cfg inputs) cfg' env).2.workflows.lookup wf with
      | none => rfl
      | some w =>
          exact absurd (restarted_registered cfg' env ⟨w, hlookup⟩) (hfail hfailed)
    exact absurd ((ticks_unregistered ticks hticks hnone).symm.trans hwfr) (by simp)

namespace Deployment

/-- The workflow is refused before it is ever admitted. -/
def refused : List Input := [⟨env, .intent intent⟩, ⟨late, .decision decision⟩]

/-- The workflow runs to its end. -/
def completed : List Input :=
  admitted ++ [⟨env, .tickScheduler⟩, ⟨showing [seen taskId tsDone 1000], .tickWatchTasks⟩]

/-- Whether a workflow has ended and why, its nodes, and whether all of them are done. -/
def endOf (w : WfRuntime) : Bool × Option String × Nat × Bool :=
  (w.terminal, w.failedReason, w.graph.nodes.length,
    w.graph.nodes.all fun n => n.nodeId ∈ w.state.doneSet)

end Deployment

theorem head?_inDoubtReason (taskId : String) : (inDoubtReason taskId).toList.head? = some 'i' := by
  have hfirst : "in_doubt: task ".toList.head? = some 'i' := by decide +kernel
  unfold inDoubtReason
  rw [String.toList_append, String.toList_append, List.append_assoc, List.head?_append, hfirst]
  rfl

open Deployment in
/-- A workflow that failed before its admission is unknown after the restart. -/
theorem restart_preserves_refused :
    FailedEnd "wf-1" (run config refused) ∧
      EndPreserved "wf-1" (run config refused) config env := by
  have hrecord : ((run config refused).workflows.lookup "wf-1").map
      (fun w => (w.terminal, w.failedReason)) =
        some (true, some (qosReason .noFallbackAvailable)) := by
    decide +kernel
  obtain ⟨wfr, hwfr, heq⟩ := Option.map_eq_some_iff.mp hrecord
  rw [Prod.mk.injEq] at heq
  have hreason : ∀ taskId, qosReason .noFallbackAvailable ≠ inDoubtReason taskId := by
    intro taskId h
    have hfirst : (qosReason .noFallbackAvailable).toList.head? = some 'i' := by
      rw [h]
      exact head?_inDoubtReason taskId
    exact absurd hfirst (by decide +kernel)
  have hnone : (run config refused).journal.intents.lookup "wf-1" = none := by decide +kernel
  refine ⟨⟨wfr, _, hwfr, heq.1, heq.2, hreason⟩,
    (restart_preserves_iff config refused "wf-1" config env (by decide +kernel)).mpr ⟨?_, ?_⟩⟩
  · rintro ⟨w, hw, -, hnoreason, -⟩
    rw [hwfr, Option.some.injEq] at hw
    rw [← hw, heq.2] at hnoreason
    cases hnoreason
  · rintro - ⟨row, cand, hrow, -⟩
    rw [hnone] at hrow
    cases hrow

open Deployment in
/-- A completed workflow is never reported as done again: its record comes back
with every node done and not terminal, and no tick changes that. -/
theorem restart_loses_completion :
    Completed "wf-1" (run config completed) ∧
      (run config completed).workflowDone "wf-1" = some true ∧
      ∀ ticks : List Input, (∀ i ∈ ticks, i.call.isTick = true) →
        (ticks.foldl step (restarted (run config completed) config env).2).workflowDone "wf-1" =
          some false := by
  have hall : ∀ (r : EngineRuntime) (terminal : Bool),
      (r.workflows.lookup "wf-1").map endOf = some (terminal, none, 1, true) →
      ∃ wfr, r.workflows.lookup "wf-1" = some wfr ∧ wfr.terminal = terminal ∧
        wfr.failedReason = none ∧ wfr.graph.nodes ≠ [] ∧
        ∀ n ∈ wfr.graph.nodes, n.nodeId ∈ wfr.state.doneSet := by
    intro r terminal h
    obtain ⟨wfr, hwfr, heq⟩ := Option.map_eq_some_iff.mp h
    simp only [endOf, Prod.mk.injEq, List.all_eq_true, decide_eq_true_eq] at heq
    obtain ⟨hterm, hreason, hlength, hdone⟩ := heq
    refine ⟨wfr, hwfr, hterm, hreason, ?_, hdone⟩
    intro hnil
    rw [hnil] at hlength
    cases hlength
  -- The run and its restart, evaluated once.
  obtain ⟨hended, hreport, hback, hempty⟩ :
      ((run config completed).workflows.lookup "wf-1").map endOf =
          some (true, none, 1, true) ∧
        (run config completed).workflowDone "wf-1" = some true ∧
        ((restarted (run config completed) config env).2.workflows.lookup "wf-1").map endOf =
          some (false, none, 1, true) ∧
        (restarted (run config completed) config env).2.taskIndex.entries = [] := by
    decide +kernel
  refine ⟨hall _ true hended, hreport, fun ticks hticks => ?_⟩
  obtain ⟨wfr, hwfr, hterm, -, -, hdone⟩ := hall _ false hback
  have hstuck : Stuck "wf-1" (restarted (run config completed) config env).2 := by
    refine ⟨⟨wfr, hwfr, hterm, hdone⟩, ?_⟩
    intro taskId node hlookup
    have hmem := Map.mem_entries.mpr hlookup
    rw [hempty] at hmem
    cases hmem
  exact (hstuck.ticks ticks hticks).workflowDone

end DdsOrchestrator.WorkflowEngine
