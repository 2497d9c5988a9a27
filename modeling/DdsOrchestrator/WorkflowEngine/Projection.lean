import DdsOrchestrator.WorkflowEngine.Order
import DdsOrchestrator.WorkflowEngine.Revisions

/-!
What the published states say of the nodes. A state shows every node that is neither done
nor failed as published, with the attempt that is active in the record, whether the
attempt has begun or not, and whatever the status of the workflow. So a terminal state
shows no published node only if the workflow is ended when all its nodes are over, and
that is up to the calls that end it.

A record without a plan publishes under plan revision 0. The revisions of a workflow's
states do not go back if no such record of an admitted workflow is ended.
-/

namespace DdsOrchestrator.WorkflowEngine

open Loop EngineRuntime EngineState Machine

/-! ### Runs that end only what is over -/

/-- The node is done or has failed. -/
def NodeOver (s : EngineState) (node : String) : Prop :=
  ∃ p, s.nodes.lookup node = some p ∧ (p.done = true ∨ p.failed = true)

def PlanOver (wfr : WfRuntime) : Prop := ∀ n ∈ wfr.graph.nodes, NodeOver wfr.state n.nodeId

/-- The nodes other than this one are over. -/
def OthersOver (wfr : WfRuntime) (node : String) : Prop :=
  ∀ n ∈ wfr.graph.nodes, n.nodeId ≠ node → NodeOver wfr.state n.nodeId

/-- The record of the workflow may be ended: its nodes are over, and it has its plan if
the workflow was admitted. -/
structure MayEnd (r : EngineRuntime) (wf : String) (wfr : WfRuntime) : Prop where
  planOver : PlanOver wfr
  plan : wfr.graph.planRevision = 0 → wf ∉ r.journal.decisions

/-- The record and node whose last attempt fails when the watcher comes to the task. -/
def lastFailure (env : Env) (task : Task) (r : EngineRuntime) : Option (WfRuntime × String) :=
  match r.taskIndex.lookup task.taskId with
  | none => none
  | some (wf, node) =>
      match r.workflows.lookup wf with
      | none => none
      | some wfr =>
          if wfr.terminal = false ∧ task.status = tsFailed ∧
              (wfr.state.onFailed env.journalFails wfr.graph node (watchedAttempt wfr node)
                wfr.failover r.journal).1 = .ok none then
            some (wfr, node)
          else none

/-- What a call asks the planner. -/
def Consults (r : EngineRuntime) (i : Input) (request : PlanRequest) : Prop :=
  (∃ decision wf wfr, Resolves i r decision wf wfr ∧
    request = ⟨wfr.intent.workflowId.val, wfr.intent.prompt.val⟩) ∨
  i.call = .recoverFromJournal ∧ ∃ wf row, r.journal.intents.lookup wf = some row ∧
    request = ⟨wf, row.prompt⟩

/-- The call ends no workflow with a node that is not over, and gets only plans without
dependencies. -/
structure Tidy (r : EngineRuntime) (i : Input) : Prop where
  flat : ∀ request cand, Consults r i request → i.env.plan request = .ok cand →
    ∀ n ∈ cand.nodes, n.dependencies = []
  cancelled : ∀ intent wfr, i.call = .intent intent → intent.command = icCancel →
    r.workflows.lookup intent.workflowId.val = some wfr → cancelMatches intent wfr →
    MayEnd r intent.workflowId.val wfr
  refused : ∀ decision wf wfr reason, Resolves i r decision wf wfr →
    (verdictOn i.env r wfr decision).isShadow = false →
    mapVerdict (verdictOn i.env r wfr decision) wfr.intent r.cfg.mapperPolicy = .rejected reason →
    MayEnd r wf wfr
  exhausted : i.call = .tickWatchTasks → ∀ tasks, i.env.allTasks = .ok tasks →
    ∀ e ∈ traceEach (lastFailure i.env) (watchTask i.env) tasks r, OthersOver e.1 e.2
  doubted : i.call = .tickTimeouts → ∀ tasks, i.env.allTasks = .ok tasks → ∀ task ∈ tasks,
    overdue i.env task → task.taskId ∉ r.inDoubtMarked →
    i.env.journalFails (.markInDoubt task.taskId) = false →
    ∀ wf node wfr, r.taskIndex.lookup task.taskId = some (wf, node) →
      r.workflows.lookup wf = some wfr → PlanOver wfr

/-! ### What a sample says -/

/-- A plan without dependencies, or a state that is not terminal or shows no node as
published. -/
def Sample.Sound : Sample → Prop
  | .task .. => True
  | .plan _ p => ∀ n ∈ p.nodes.items, n.dependencies.items = []
  | .state _ st => st.status.isTerminal = true → ∀ ns ∈ st.nodes.items, ns.status ≠ .published

def LogSound (r : EngineRuntime) : Prop := ∀ s ∈ r.log, s.Sound

theorem mem_seqN {α : Type} {n : Nat} {items : List α} {a : α} (h : a ∈ (seqN n items).items) :
    a ∈ items := by
  by_cases hlen : items.length ≤ n
  · rwa [seqN_items hlen] at h
  · rw [seqN_items_of_lt (not_le.mp hlen)] at h
    cases h

theorem nodeState_status {wfr : WfRuntime} {n : NodeSpec} (h : NodeOver wfr.state n.nodeId) :
    (nodeState wfr n).status ≠ .published := by
  obtain ⟨p, hp, hover⟩ := h
  unfold nodeState
  simp only [hp]
  rcases hover with hdone | hfailed
  · simp [hdone]
  · split <;> simp

theorem stateSample_sound {wf : String} {wfr : WfRuntime} {status : WorkflowStatus} {a b : UInt64}
    (h : status.isTerminal = true → PlanOver wfr) :
    (Sample.state wf (stateSample wf wfr status a b)).Sound := by
  intro hterminal ns hns
  obtain ⟨n, hn, rfl⟩ := List.mem_map.mp (mem_seqN hns)
  exact nodeState_status (h hterminal n hn)

theorem planSample_sound {wf : String} {intent : WorkflowIntent} {cand : PlanCandidate}
    {a : UInt64} (h : ∀ n ∈ cand.nodes, n.dependencies = []) :
    (Sample.plan wf (planSample wf intent cand a)).Sound := by
  intro n hn
  obtain ⟨c, hc, rfl⟩ := List.mem_map.mp (mem_seqN hn)
  simp [planNode, h c hc, seqN_items]

section Writes

variable {env : Env} {r : EngineRuntime} {wf : String}

theorem LogSound.of_log_eq {r' : EngineRuntime} (h : LogSound r) (hlog : r'.log = r.log) :
    LogSound r' := by
  rw [LogSound, hlog]
  exact h

theorem LogSound.written (h : LogSound r) {s : Sample} (hs : s.Sound) :
    LogSound (r.write env s).2 := by
  unfold EngineRuntime.write
  split
  · exact h
  · intro t ht
    rcases List.mem_append.mp ht with ht | ht
    · exact h t ht
    · rw [List.mem_singleton.mp ht]
      exact hs

theorem LogSound.published (h : LogSound r) {status : WorkflowStatus}
    (hover : ∀ wfr, r.workflows.lookup wf = some wfr → status.isTerminal = true → PlanOver wfr) :
    LogSound (publishState env wf status r).2 := by
  unfold publishState
  split
  · exact h
  · rename_i wfr hwf
    have hset : LogSound (r.setWf wf { wfr with stateRev := (wfr.stateRev + 1) % 2 ^ 32 }) :=
      h.of_log_eq rfl
    exact hset.written (stateSample_sound (hover wfr hwf))

theorem LogSound.running (h : LogSound r) : LogSound (publishState env wf .running r).2 :=
  h.published fun _ _ hterminal => nomatch hterminal

theorem LogSound.planned (h : LogSound r) {cand : PlanCandidate}
    (hflat : ∀ n ∈ cand.nodes, n.dependencies = []) : LogSound (publishPlan env wf cand r).2 := by
  unfold publishPlan
  split
  · exact h
  · exact h.written (planSample_sound hflat)

end Writes

/-! ### One call -/

section Calls

variable {r : EngineRuntime} {i : Input}

theorem LogSound.onIntent (h : LogSound r) (hi : Tidy r i) {intent : WorkflowIntent}
    (hcall : i.call = .intent intent) : LogSound (r.onIntent i.env intent).2 := by
  unfold EngineRuntime.onIntent
  dsimp only
  split
  · rename_i hcancel
    split
    · exact h
    · rename_i wfr hwf
      split
      · rename_i hmatch
        have hset : LogSound (r.setWf intent.workflowId.val
            { wfr with terminal := true, failedReason := none }) := h.of_log_eq rfl
        refine hset.published fun w hw _ => ?_
        rw [lookup_setWf, if_pos rfl, Option.some.injEq] at hw
        subst hw
        exact (hi.cancelled intent wfr hcall hcancel hwf hmatch).planOver
      · exact h
  · split
    · exact h
    · exact h.of_log_eq rfl

theorem LogSound.installPlan (h : LogSound r) {env : Env} {wf : String} {wfr : WfRuntime}
    {e : EffectiveQos}
    (hflat : ∀ cand, env.plan ⟨wfr.intent.workflowId.val, wfr.intent.prompt.val⟩ = .ok cand →
      ∀ n ∈ cand.nodes, n.dependencies = []) :
    LogSound (r.installPlan env wf wfr e).2 := by
  unfold EngineRuntime.installPlan
  split
  · exact h
  · rename_i cand hplan
    split
    · exact h
    · have hset : LogSound (r.setWf wf (EngineRuntime.planned env wfr r.journal cand
          (e.failoverRetries && r.cfg.failoverEnabled)
          (.applied wfr.intent.workflowId.val e))) := h.of_log_eq rfl
      have hplanned : LogSound (publishPlan env wf cand _).2 := hset.planned (hflat cand hplan)
      refine andThen_rec (Q := LogSound) (fun _ _ => hplanned) fun _ _ => ?_
      rw [andThen_ok_snd]
      exact hplanned.running

theorem LogSound.onDecision (h : LogSound r) (hi : Tidy r i) {decision : RoutingDecision}
    (hcall : i.call = .decision decision) : LogSound (r.onDecision i.env decision).2 := by
  unfold EngineRuntime.onDecision
  split
  · exact h
  rename_i wf hfound
  split
  · exact h
  rename_i wfr hwf
  have hres : Resolves i r decision wf wfr := ⟨hcall, hfound, hwf⟩
  unfold takeDecision
  dsimp only
  split
  · exact h.of_log_eq rfl
  rename_i hshadow
  have hshadow : (verdictOn i.env r wfr decision).isShadow = false := by simpa using hshadow
  split
  · rename_i reason hmap
    rw [andThen_ok_snd]
    have hset : LogSound (r.setWf wf
        { wfr with terminal := true, failedReason := some (qosReason reason) }) := h.of_log_eq rfl
    refine hset.published fun w hw _ => ?_
    rw [lookup_setWf, if_pos rfl, Option.some.injEq] at hw
    subst hw
    exact (hi.refused decision wf wfr reason hres hshadow hmap).planOver
  · split
    · exact h.of_log_eq rfl
    · exact h.of_log_eq rfl
    · exact h.of_log_eq rfl
    · rename_i j _
      have hjournal : LogSound { r with journal := j } := h.of_log_eq rfl
      exact hjournal.installPlan fun cand => hi.flat _ cand (.inl ⟨decision, wf, wfr, hres, rfl⟩)

theorem LogSound.recoverFromJournal (h : LogSound r) (hi : Tidy r i)
    (hcall : i.call = .recoverFromJournal) : LogSound (r.recoverFromJournal i.env).2 := by
  unfold EngineRuntime.recoverFromJournal
  split
  · exact h
  rename_i stored hstored
  refine forEach_invariant (I := LogSound) h fun si hsi t ht => ?_
  obtain ⟨wf, row, hrow, rfl⟩ := (storedIntents_eq_ok hstored si).mp hsi
  unfold rehydrate
  split
  · exact ht
  split
  · exact ht
  · rename_i cand hplan
    rw [andThen_ok_snd]
    have hset : LogSound (t.setWf wf (recovered i.env t.cfg t.journal
        (Journal.IntentRow.stored wf row) cand)) := ht.of_log_eq rfl
    exact hset.planned (hi.flat _ cand (.inr ⟨hcall, wf, row, hrow, rfl⟩) hplan)

theorem LogSound.dispatch (h : LogSound r) (env : Env) (wf node taskId : String)
    (wfr : WfRuntime) : LogSound (r.dispatch env wf node taskId wfr).2 := by
  have hindexed : LogSound { r with taskIndex := r.taskIndex.insert taskId (wf, node) } :=
    h.of_log_eq rfl
  have hwritten : ∀ attempt task, LogSound (EngineRuntime.write env (.task wf node attempt task)
      { r with taskIndex := r.taskIndex.insert taskId (wf, node) }).2 :=
    fun _ _ => hindexed.written trivial
  unfold EngineRuntime.dispatch
  dsimp only
  split
  · exact hindexed
  · refine andThen_rec (Q := LogSound) (fun _ _ => hwritten _ _) fun _ _ => ?_
    rw [andThen_ok_snd]
    exact (hwritten _ _).running

/-- The scheduler publishes running states only. -/
theorem LogSound.scheduleNode (h : LogSound r) (env : Env) (wf node : String) :
    LogSound (r.scheduleNode env wf node).2 := by
  unfold EngineRuntime.scheduleNode
  split
  · exact h
  dsimp only
  split
  · exact h.of_log_eq rfl
  · exact h.of_log_eq rfl
  · exact h.of_log_eq rfl
  split
  · exact h.of_log_eq rfl
  · refine LogSound.dispatch ?_ env wf node _ _
    exact h.of_log_eq rfl

theorem LogSound.tickScheduler (h : LogSound r) (env : Env) :
    LogSound (r.tickScheduler env).2 := by
  refine forEach_invariant (I := LogSound) h fun wf _ t ht => ?_
  unfold scheduleWorkflow
  split
  · exact ht
  split
  · exact ht
  · exact forEach_invariant (I := LogSound) ht fun node _ t' ht' => ht'.scheduleNode env wf node

end Calls

/-! ### The watcher and the sweeper -/

section Tasks

variable {r : EngineRuntime} {i : Input} {wf node : String} {wfr : WfRuntime}

/-- The last result finishes the plan. -/
theorem nodeOver_of_allDone {graph : PlanGraph} {state : EngineState}
    (htracks : Tracks graph state) (hall : state.allDone = true) :
    ∀ n ∈ graph.nodes, NodeOver state n.nodeId := by
  intro n hn
  obtain ⟨p, hp⟩ := (htracks.nodes n.nodeId).mpr ⟨n, hn, rfl⟩
  exact ⟨p, hp, .inl (allDone_iff.mp hall n.nodeId p hp)⟩

/-- The last failure ends the plan, if the other nodes are over. -/
theorem nodeOver_of_exhausted {io : JournalCall → Bool} {attempt : Nat} {j : Journal}
    (hfail : (wfr.state.onFailed io wfr.graph node attempt wfr.failover j).1 = .ok none)
    (hothers : OthersOver wfr node) :
    ∀ n ∈ wfr.graph.nodes, NodeOver
      (wfr.state.onFailed io wfr.graph node attempt wfr.failover j).2.1 n.nodeId := by
  have hstep := onFailed_step io wfr.graph node attempt wfr.failover wfr.state j
  generalize wfr.state.onFailed io wfr.graph node attempt wfr.failover j = out at hstep hfail ⊢
  obtain ⟨result, state, j'⟩ := out
  dsimp only at hstep hfail ⊢
  subst hfail
  cases hstep with
  | retried _ _ _ _ _ _ _ _ _ _ _ hresult => rcases hresult with h | ⟨e, h⟩ <;> cases h
  | closed spec hspec p hp =>
      intro n hn
      by_cases hid : n.nodeId = node
      · exact ⟨{ p with failed := true }, by rw [lookup_set, if_pos hid], .inr rfl⟩
      · obtain ⟨q, hq, hover⟩ := hothers n hn hid
        exact ⟨q, by rw [lookup_set, if_neg hid, hq], hover⟩

theorem LogSound.completeTask (h : LogSound r) {task : Task} (hr : Coherent r)
    (hwatch : Watched i r task wf node wfr) (outputs : List TaskOutput) :
    LogSound (r.completeTask i.env wf node wfr (watchedAttempt wfr node) outputs).2 := by
  unfold EngineRuntime.completeTask
  split
  · exact h
  · exact h.of_log_eq rfl
  · rename_i ready state j hdone
    split
    · rename_i hall
      rw [andThen_ok_snd]
      have hset : LogSound { r.setWf wf { wfr with state := state, terminal := true } with
          journal := j } := h.of_log_eq rfl
      refine hset.published fun w hw _ => ?_
      rw [lookup_setWf, if_pos rfl, Option.some.injEq] at hw
      subst hw
      obtain ⟨-, htracks, -⟩ := hwatch.completed hr hdone
      exact nodeOver_of_allDone htracks hall
    · rw [andThen_ok_snd]
      exact LogSound.running (h.of_log_eq rfl)

theorem LogSound.failTask (h : LogSound r) {env : Env} {taskId : String} {attempt : Nat}
    (hothers : (wfr.state.onFailed env.journalFails wfr.graph node attempt wfr.failover
      r.journal).1 = .ok none → OthersOver wfr node) :
    LogSound (r.failTask env wf node taskId wfr attempt).2 := by
  have hover := fun hlast => nodeOver_of_exhausted hlast (hothers hlast)
  unfold EngineRuntime.failTask
  split
  · exact h
  · exact h.of_log_eq rfl
  · rw [andThen_ok_snd]
    exact LogSound.running (h.of_log_eq rfl)
  · rename_i state j hfail
    rw [andThen_ok_snd]
    have hset : LogSound { r.setWf wf { wfr with
        state := state, terminal := true, failedReason := some (noRetryReason node) } with
        journal := j } := h.of_log_eq rfl
    refine hset.published fun w hw _ => ?_
    rw [lookup_setWf, if_pos rfl, Option.some.injEq] at hw
    subst hw
    rw [hfail] at hover
    exact hover rfl

theorem LogSound.watchTask (h : LogSound r) (hr : Coherent r) (hcall : i.call = .tickWatchTasks)
    {tasks : List Task} (htasks : i.env.allTasks = .ok tasks) {task : Task} (htask : task ∈ tasks)
    (hothers : ∀ e ∈ lastFailure i.env task r, OthersOver e.1 e.2) :
    LogSound (r.watchTask i.env task).2 := by
  unfold EngineRuntime.watchTask
  unfold lastFailure at hothers
  cases hindex : r.taskIndex.lookup task.taskId with
  | none => exact h
  | some entry =>
      obtain ⟨wf, node⟩ := entry
      cases hwf : r.workflows.lookup wf with
      | none =>
          simp only [hwf]
          exact h
      | some wfr =>
          simp only [hindex, hwf] at hothers ⊢
          split
          · exact h
          rename_i hlive
          have hlive : wfr.terminal = false := by simpa using hlive
          have hwatch : Watched i r task wf node wfr :=
            ⟨hcall, ⟨tasks, htasks, htask⟩, hindex, hwf, hlive⟩
          split
          · split
            · exact h
            · exact h.completeTask hr hwatch _
          split
          · rename_i hfailed
            refine h.failTask fun hlast => ?_
            rw [if_pos ⟨hlive, hfailed, hlast⟩] at hothers
            exact hothers _ rfl
          · exact h

theorem LogSound.tickWatchTasks (h : LogSound r) (hr : Coherent r) (hi : Tidy r i)
    (hcall : i.call = .tickWatchTasks) : LogSound (r.tickWatchTasks i.env).2 := by
  unfold EngineRuntime.tickWatchTasks
  split
  · exact h
  rename_i tasks htasks
  -- the loop gives an account of the failures that end a workflow
  have hloop : Coherent (forEach (EngineRuntime.watchTask i.env) tasks r).2 ∧
      ((∀ e ∈ [] ++ traceEach (lastFailure i.env) (EngineRuntime.watchTask i.env) tasks r,
        OthersOver e.1 e.2) → LogSound (forEach (EngineRuntime.watchTask i.env) tasks r).2) := by
    refine traceEach_invariant (I := fun (ended : List (WfRuntime × String)) t =>
      Coherent t ∧ ((∀ e ∈ ended, OthersOver e.1 e.2) → LogSound t)) ⟨hr, fun _ => h⟩ ?_
    rintro task htask ended t ⟨ht, hsound⟩
    refine ⟨?_, fun hended => ?_⟩
    · have hmoved : Relation.ReflGen (Move r i) t (EngineRuntime.watchTask i.env task t).2 :=
        watchTask_move hcall htasks htask
      rcases (Relation.reflGen_iff _ _ _).mp hmoved with heq | hmove
      · rw [heq]
        exact ht
      · exact ht.move hmove
    · refine (hsound fun e he => ?_).watchTask ht hcall htasks htask fun e he => ?_
      · exact hended e (List.mem_append_left _ he)
      · exact hended e (List.mem_append_right _ (Option.mem_toList.mpr he))
  exact hloop.2 (hi.exhausted hcall tasks htasks)

/-- What the sweep leaves as it was, and that the workflows it collects are over. -/
structure SweepSound (r₀ : EngineRuntime) (s : EngineRuntime × List String) : Prop where
  log : s.1.log = r₀.log
  index : s.1.taskIndex = r₀.taskIndex
  marked : r₀.inDoubtMarked ⊆ s.1.inDoubtMarked
  plans : ∀ wf, (s.1.workflows.lookup wf).map WfRuntime.plan =
    (r₀.workflows.lookup wf).map WfRuntime.plan
  planOver : ∀ wf ∈ s.2, ∀ wfr, r₀.workflows.lookup wf = some wfr → PlanOver wfr

theorem SweepSound.sweepTask (hi : Tidy r i) (hcall : i.call = .tickTimeouts) {tasks : List Task}
    (htasks : i.env.allTasks = .ok tasks) {task : Task} (htask : task ∈ tasks)
    {s : EngineRuntime × List String} (hs : SweepSound r s) :
    SweepSound r (EngineRuntime.sweepTask i.env task s).2 := by
  obtain ⟨t, doubtful⟩ := s
  obtain ⟨hlog, hindex, hmarked, hplans, hover⟩ := hs
  unfold EngineRuntime.sweepTask
  dsimp only
  split
  · exact ⟨hlog, hindex, hmarked, hplans, hover⟩
  rename_i hdue
  have hdue : overdue i.env task := not_not.mp hdue
  split
  · exact ⟨hlog, hindex, hmarked, hplans, hover⟩
  rename_i hnew
  have hinsert := hmarked.trans (Finset.subset_insert task.taskId t.inDoubtMarked)
  unfold Journal.markInDoubt
  by_cases hio : i.env.journalFails (.markInDoubt task.taskId) = true
  · simp only [hio, if_true]
    exact ⟨hlog, hindex, hinsert, hplans, hover⟩
  have hio : i.env.journalFails (.markInDoubt task.taskId) = false := by simpa using hio
  simp only [hio, Bool.false_eq_true, if_false]
  cases hentry : t.taskIndex.lookup task.taskId with
  | none => exact ⟨hlog, hindex, hinsert, hplans, hover⟩
  | some entry =>
      obtain ⟨wf, node⟩ := entry
      have hmore : ∀ wf' ∈ doubtful ++ [wf], ∀ wfr, r.workflows.lookup wf' = some wfr →
          PlanOver wfr := by
        intro wf' hwf' wfr hwfr
        rcases List.mem_append.mp hwf' with hold | hlast
        · exact hover wf' hold wfr hwfr
        · rw [List.mem_singleton] at hlast
          subst hlast
          exact hi.doubted hcall tasks htasks task htask hdue (fun h => hnew (hmarked h)) hio wf'
            node wfr (hindex ▸ hentry) hwfr
      cases hwf : t.workflows.lookup wf with
      | none =>
          simp only [hwf]
          exact ⟨hlog, hindex, hinsert, hplans, hmore⟩
      | some wfr =>
          simp only [hwf]
          refine ⟨hlog, hindex, hinsert, fun id => ?_, hmore⟩
          rw [← hplans id, lookup_setWf]
          split
          · rename_i hid
            rw [hid, hwf]
            rfl
          · rfl

theorem LogSound.tickTimeouts (h : LogSound r) (hi : Tidy r i) (hcall : i.call = .tickTimeouts) :
    LogSound (r.tickTimeouts i.env).2 := by
  unfold EngineRuntime.tickTimeouts
  split
  · exact h
  rename_i tasks htasks
  have hsweep : SweepSound r (forEach (EngineRuntime.sweepTask i.env) tasks (r, [])).2 :=
    forEach_invariant (I := SweepSound r) ⟨rfl, rfl, subset_rfl, fun _ => rfl, by simp⟩
      fun task htask _ hs => hs.sweepTask hi hcall htasks htask
  generalize forEach (EngineRuntime.sweepTask i.env) tasks (r, []) = out at hsweep ⊢
  obtain ⟨_ | marked, r', doubtful⟩ := out
  · exact h.of_log_eq hsweep.log
  · rw [andThen_ok_snd]
    refine (forEach_invariant (I := fun t => LogSound t ∧ ∀ wf,
      (t.workflows.lookup wf).map WfRuntime.plan = (r.workflows.lookup wf).map WfRuntime.plan)
      ⟨h.of_log_eq hsweep.log, hsweep.plans⟩ ?_).1
    rintro wf hwf t ⟨ht, hplans⟩
    unfold publishInDoubt
    rw [andThen_ok_snd]
    refine ⟨ht.published fun w hw _ => ?_,
      fun id => (publishState_plan .inDoubt id).trans (hplans id)⟩
    have hplan := hplans wf
    rw [hw, Option.map_some, eq_comm, Option.map_eq_some_iff] at hplan
    obtain ⟨wfr, hwfr, hsame⟩ := hplan
    rw [WfRuntime.plan, WfRuntime.plan, Prod.mk.injEq] at hsame
    have hover := hsweep.planOver wf hwf wfr hwfr
    rw [PlanOver, hsame.1, hsame.2] at hover
    exact hover

end Tasks

/-- A call that ends nothing unfinished and gets flat plans keeps the log sound. -/
theorem LogSound.step {r : EngineRuntime} (h : LogSound r) (hr : Coherent r) {i : Input}
    (hi : Tidy r i) : LogSound (step r i) := by
  unfold WorkflowEngine.step
  split
  · exact h.onIntent hi ‹_›
  · exact h.onDecision hi ‹_›
  · exact h.recoverFromJournal hi ‹_›
  · exact h.tickScheduler i.env
  · exact h.tickWatchTasks hr hi ‹_›
  · exact h.tickTimeouts hi ‹_›
  · exact h.of_log_eq rfl

/-! ### Plan revisions -/

/-- The plan revisions in the states of a workflow do not go back. -/
def RevisionsAdvance (states : List WorkflowState) : Prop :=
  states.Pairwise fun a b => a.workflowId = b.workflowId → a.planRevision ≤ b.planRevision

structure Advancing (r : EngineRuntime) : Prop where
  advance : RevisionsAdvance (statesOf r.log)
  bounded : ∀ st ∈ statesOf r.log, st.planRevision ≤ 1
  decided : ∀ st ∈ statesOf r.log, st.planRevision ≠ 0 → st.workflowId.val ∈ r.journal.decisions

/-- A record without a plan of a workflow that was never admitted, or one with a plan. -/
def Numberable (r r' : EngineRuntime) (wf : String) (w : WfRuntime) : Prop :=
  w.graph.planRevision = 1 ∧ wf ∈ r'.journal.decisions ∨
    w.graph.planRevision = 0 ∧ wf ∉ r.journal.decisions

section Revisions

variable {r₀ r r' : EngineRuntime} {i : Input} {wf : String} {w : WfRuntime} {n : Nat}
  {ext : List Sample}

theorem Advancing.kept (h : Advancing r) (hlog : statesOf r'.log = statesOf r.log)
    (hsub : ∀ id ∈ r.journal.decisions, id ∈ r'.journal.decisions) : Advancing r' := by
  obtain ⟨hadvance, hbounded, hdecided⟩ := h
  rw [← hlog] at hadvance hbounded hdecided
  exact ⟨hadvance, hbounded, fun st hst hne => hsub _ (hdecided st hst hne)⟩

theorem Advancing.publish (h : Advancing r) (hlog : r'.log = r.log ++ ext)
    (hone : AtMostOneState wf ext) (hnum : Numbered wf w n ext) (hkey : (toS wf).val = wf)
    (hplan : Numberable r r' wf w)
    (hsub : ∀ id ∈ r.journal.decisions, id ∈ r'.journal.decisions) : Advancing r' := by
  have hstates : statesOf r'.log = statesOf r.log ++ statesOf ext := by
    rw [hlog, statesOf_append]
  rcases hone with hnone | ⟨st, hst, hmem⟩
  · exact h.kept (by rw [hstates, hnone, List.append_nil]) hsub
  obtain ⟨-, -, hrevision, hid⟩ := hnum.2 st hmem
  rw [hst] at hstates
  refine ⟨?_, ?_, ?_⟩
  · rw [hstates, RevisionsAdvance, List.pairwise_append]
    refine ⟨h.advance, List.pairwise_singleton _ _, ?_⟩
    intro a ha b hb hsame
    rw [List.mem_singleton] at hb
    subst hb
    rcases hplan with ⟨hone, -⟩ | ⟨-, hnew⟩
    · rw [hrevision, hone]
      exact h.bounded a ha
    · -- an older state with a plan would be one of an admitted workflow
      have hzero : a.planRevision = 0 := by
        by_contra hne
        have hdecided := h.decided a ha hne
        rw [hsame, hid, hkey] at hdecided
        exact hnew hdecided
      omega
  · intro a ha
    rw [hstates, List.mem_append, List.mem_singleton] at ha
    rcases ha with ha | rfl
    · exact h.bounded a ha
    · rw [hrevision]
      rcases hplan with ⟨hone, -⟩ | ⟨hzero, -⟩
      · exact hone.le
      · omega
  · intro a ha hne
    rw [hstates, List.mem_append, List.mem_singleton] at ha
    rcases ha with ha | rfl
    · exact hsub _ (h.decided a ha hne)
    · rcases hplan with ⟨-, hdecided⟩ | ⟨hzero, -⟩
      · rw [hid, hkey]
        exact hdecided
      · exact absurd (hrevision.trans hzero) hne

theorem RecordOk.toS_key {j : Journal} (h : RecordOk j wf w) : (toS wf).val = wf := by
  rw [← h.key, toS_coe]

/-- A record with a node has its plan. -/
theorem RecordOk.planned_of_node {j : Journal} (h : RecordOk j wf w) {spec : NodeSpec}
    (hspec : spec ∈ w.graph.nodes) : w.graph.planRevision = 1 ∧ wf ∈ j.decisions := by
  rcases h.plan with hplan | ⟨-, hnil⟩
  · exact hplan
  · rw [hnil] at hspec
    cases hspec

theorem Advancing.move (h : Advancing r) (hr : Coherent r) (hi : Tidy r₀ i)
    (hmove : Move r₀ i r r') : Advancing r' := by
  have hsub := (hmove.decides hr).1
  have hsame : statesOf r'.log = statesOf r.log → Advancing r' := fun hlog => h.kept hlog hsub
  -- a record that has nodes is published
  have hnode : ∀ {wf node : String} {wfr : WfRuntime} {n : Nat} {ext : List Sample},
      r.workflows.lookup wf = some wfr → (∃ spec ∈ wfr.graph.nodes, spec.nodeId = node) →
      r'.log = r.log ++ ext → AtMostOneState wf ext → Numbered wf wfr n ext → Advancing r' := by
    rintro wf node wfr n ext hwf ⟨spec, hspec, -⟩ hlog hone hnum
    have hok := hr.records wf wfr hwf
    obtain ⟨hrevision, hdecided⟩ := hok.planned_of_node hspec
    exact h.publish hlog hone hnum hok.toS_key (.inl ⟨hrevision, hsub wf hdecided⟩) hsub
  -- a record is ended
  have hended : ∀ {wf : String} {wfr : WfRuntime} {n : Nat} {ext : List Sample},
      r.workflows.lookup wf = some wfr → MayEnd r wf wfr → r'.log = r.log ++ ext →
      AtMostOneState wf ext → Numbered wf wfr n ext → Advancing r' := by
    intro wf wfr n ext hwf hend hlog hone hnum
    have hok := hr.records wf wfr hwf
    refine h.publish hlog hone hnum hok.toS_key ?_ hsub
    rcases hok.plan with ⟨hrevision, hdecided⟩ | ⟨hrevision, -⟩
    · exact .inl ⟨hrevision, hsub wf hdecided⟩
    · exact .inr ⟨hrevision, hend.plan hrevision⟩
  have hcoherent := hr.move hmove
  cases hmove with
  | submitted | observed | admitted | held | incomplete | unfailed | unswept | sweptUnindexed |
      swept | restarted => exact hsame rfl
  | cancelled intent wfr hcall hcancel hwf hmatch n ext hext hnum =>
      exact hended hwf (hi.cancelled intent wfr hcall hcancel hwf hmatch) rfl hext.atMostOneState
        hnum
  | refused decision wf wfr reason hres hshadow hmap n ext hext hnum =>
      exact hended hres.registered (hi.refused decision wf wfr reason hres hshadow hmap) rfl
        hext.atMostOneState hnum
  | planned decision wf wfr e hres hshadow hmap j hentry cand hplan hvalid failover qos n ext hext
      hnum =>
      have hone : AtMostOneState wf ext := by
        rcases hext with rfl | ⟨p, rest, rfl, hrest⟩
        · exact .inl rfl
        · exact hrest.atMostOneState.cons rfl
      have hok := hcoherent.records wf _ ((lookup_record _ wf _ ext wf).trans (if_pos rfl))
      refine h.publish rfl hone hnum hok.toS_key ?_ hsub
      rcases hok.plan with hplanned | ⟨hzero, -⟩
      · exact .inl hplanned
      · cases hzero
  | rehydrated id row cand hcall hrow hnew hjournal hnew₀ hplan ext hext =>
      refine hsame ?_
      rcases hext with rfl | ⟨p, rfl⟩ <;> simp [record, statesOf]
  | dispatched wf node wfr hdue taskId state j hmat hindex n ext hext hnum =>
      have hone : AtMostOneState wf ext := by
        rcases hext with rfl | ⟨task, rest, -, rfl, hrest⟩
        · exact .inl rfl
        · exact hrest.atMostOneState.cons rfl
      exact hnode hdue.registered hdue.node rfl hone hnum
  | completed task wf node wfr hwatch hstatus outputs ready state j hdone n ext hext hnum =>
      exact hnode hwatch.registered (hwatch.node hr) rfl hext.atMostOneState hnum
  | retried task wf node wfr hwatch hstatus next state j hfail n ext hext hnum =>
      exact hnode hwatch.registered (hwatch.node hr) rfl hext.atMostOneState hnum
  | exhausted task wf node wfr hwatch hstatus state j hfail n ext hext hnum =>
      exact hnode hwatch.registered (hwatch.node hr) rfl hext.atMostOneState hnum
  | doubted task hover hnew wf node wfr hindex hindex' hwf hterminal n ext hext hnum =>
      obtain ⟨old, hold, hspec⟩ := hr.index _ _ _ hindex'
      rw [hwf, Option.some.injEq] at hold
      exact hnode hwf (hold ▸ hspec) rfl hext.atMostOneState hnum

end Revisions

/-- What the log of a tidy run says. -/
structure WellTold (r : EngineRuntime) : Prop where
  coherent : Coherent r
  sound : LogSound r
  advancing : Advancing r

theorem WellTold.step {r : EngineRuntime} (h : WellTold r) {i : Input} (hi : Tidy r i) :
    WellTold (step r i) := by
  refine ⟨h.coherent.step i, h.sound.step h.coherent hi, ?_⟩
  exact (step_invariant (I := fun t => Coherent t ∧ Advancing t) ⟨h.coherent, h.advancing⟩
    fun t t' ht hmove => ⟨ht.1.move hmove, ht.2.move ht.1 hi hmove⟩).2

theorem wellTold_run (cfg : RuntimeConfig) {inputs : List Input}
    (htidy : Along step Tidy (initial cfg) inputs) : WellTold (run cfg inputs) := by
  refine htidy.invariant ⟨coherent_run cfg [], ?_, ?_⟩ fun t i ht hi => ht.step hi
  · intro s hs
    cases hs
  · exact ⟨List.Pairwise.nil, by simp [initial, EngineRuntime.new],
      by simp [initial, EngineRuntime.new]⟩

end DdsOrchestrator.WorkflowEngine
