import Mathlib.Logic.Relation
import DdsOrchestrator.WorkflowEngine.Runtime

/-!
Everything a call can do to the runtime, as moves. A move is one body of the
runtime together with what it publishes: a node scheduled, a task watched or
swept, an intent or a decision taken in. Its premises are the guards under
which the source takes that branch, and its target is the new state spelt out.

Every call is a chain of moves, so an invariant of the runtime is proved move
by move. The state before the call is a parameter of the relation: some guards
are tested once, before a loop.
-/

namespace DdsOrchestrator.WorkflowEngine

open Loop EngineRuntime

/-! ### Records and publications -/

namespace EngineRuntime

/-- Replace a record and append to the log. -/
def record (r : EngineRuntime) (wf : String) (wfr : WfRuntime) (ext : List Sample) :
    EngineRuntime :=
  { r.setWf wf wfr with log := r.log ++ ext }

@[simp] theorem setWf_setWf (r : EngineRuntime) (wf : String) (a b : WfRuntime) :
    (r.setWf wf a).setWf wf b = r.setWf wf b := by
  simp [setWf, AList.insert_insert]

@[simp] theorem setWf_record (r : EngineRuntime) (wf : String) (a b : WfRuntime)
    (ext : List Sample) : (r.setWf wf a).record wf b ext = r.record wf b ext := by
  simp [record, setWf, AList.insert_insert]

@[simp] theorem record_record (r : EngineRuntime) (wf : String) (a b : WfRuntime)
    (ext ext' : List Sample) :
    (r.record wf a ext).record wf b ext' = r.record wf b (ext ++ ext') := by
  simp [record, setWf, AList.insert_insert]

@[simp] theorem lookup_record (r : EngineRuntime) (wf : String) (wfr : WfRuntime)
    (ext : List Sample) (id : String) :
    (r.record wf wfr ext).workflows.lookup id =
      if id = wf then some wfr else r.workflows.lookup id :=
  lookup_setWf r wf wfr id

end EngineRuntime

/-- A publication appends one state of this status, or nothing when the write
fails. -/
def Publishes (wf : String) (status : WorkflowStatus) (ext : List Sample) : Prop :=
  ext = [] ∨ ∃ st : WorkflowState, st.status = status ∧ ext = [.state wf st]

/-- The number a record carries after it was published, or after the write it
was numbered for failed. A state goes out only under the next number. -/
def Numbered (wf : String) (wfr : WfRuntime) (n : Nat) (ext : List Sample) : Prop :=
  (n = wfr.stateRev ∨ n = (wfr.stateRev + 1) % 2 ^ 32) ∧
    ∀ st, .state wf st ∈ ext → n = (wfr.stateRev + 1) % 2 ^ 32 ∧ st.stateRevision = n ∧
      st.planRevision = wfr.graph.planRevision ∧ st.workflowId = toS wf

/-- The decision of the call is taken in for the workflow `wf`. -/
structure Resolves (i : Input) (r : EngineRuntime) (decision : RoutingDecision) (wf : String)
    (wfr : WfRuntime) : Prop where
  call : i.call = .decision decision
  found : r.pendingIntentFor i.env decision.requestId.val = some wf
  registered : r.workflows.lookup wf = some wfr

/-- The node is due for scheduling. -/
structure Due (i : Input) (r : EngineRuntime) (wf node : String) (wfr : WfRuntime) : Prop where
  call : i.call = .tickScheduler
  registered : r.workflows.lookup wf = some wfr
  live : wfr.terminal = false
  ready : ∃ spec ∈ wfr.graph.readyNodes wfr.state.doneSet, spec.nodeId = node

/-- The attempt the watcher credits a result to. -/
def watchedAttempt (wfr : WfRuntime) (node : String) : Nat :=
  ((wfr.state.nodes.lookup node).map (·.activeAttempt)).getD 1

/-- The task is visible and belongs to a live workflow. -/
structure Watched (i : Input) (r : EngineRuntime) (task : Task) (wf node : String)
    (wfr : WfRuntime) : Prop where
  call : i.call = .tickWatchTasks
  visible : ∃ tasks, i.env.allTasks = .ok tasks ∧ task ∈ tasks
  indexed : r.taskIndex.lookup task.taskId = some (wf, node)
  registered : r.workflows.lookup wf = some wfr
  live : wfr.terminal = false

/-- The task is visible to the sweeper and overdue. -/
structure Overdue (i : Input) (task : Task) : Prop where
  call : i.call = .tickTimeouts
  visible : ∃ tasks, i.env.allTasks = .ok tasks ∧ task ∈ tasks
  overdue : overdue i.env task

/-- What a sweep has left as it was before the call: the index, the records
that are still live, the reservations, and the task ids of the attempts. -/
structure SweepFrame (r₀ r : EngineRuntime) : Prop where
  index : r.taskIndex = r₀.taskIndex
  marked : r₀.inDoubtMarked ⊆ r.inDoubtMarked
  live : ∀ wf wfr, r.workflows.lookup wf = some wfr → wfr.terminal = false →
    r₀.workflows.lookup wf = some wfr
  reservations : r.journal.reservations = r₀.journal.reservations
  tasks : ∀ key row, r.journal.attempts.lookup key = some row →
    ∃ old, r₀.journal.attempts.lookup key = some old ∧ old.taskId = row.taskId

/-! ### Moves -/

inductive Move (r₀ : EngineRuntime) (i : Input) : EngineRuntime → EngineRuntime → Prop
  | submitted (intent : WorkflowIntent) (hcall : i.call = .intent intent)
      (hstart : intent.command ≠ icCancel)
      (hnew : r₀.workflows.lookup intent.workflowId.val = none) :
      Move r₀ i r₀ (r₀.setWf intent.workflowId.val (awaiting r₀.cfg intent))
  | cancelled (intent : WorkflowIntent) (wfr : WfRuntime)
      (hcall : i.call = .intent intent) (hcancel : intent.command = icCancel)
      (hwf : r₀.workflows.lookup intent.workflowId.val = some wfr)
      (hmatch : cancelMatches intent wfr) (n : Nat) (ext : List Sample)
      (hext : Publishes intent.workflowId.val .cancelled ext)
      (hnum : Numbered intent.workflowId.val wfr n ext) :
      Move r₀ i r₀ (r₀.record intent.workflowId.val
        { wfr with terminal := true, failedReason := none, stateRev := n } ext)
  | observed (decision : RoutingDecision) (wf : String) (wfr : WfRuntime)
      (hres : Resolves i r₀ decision wf wfr)
      (hshadow : (verdictOn i.env r₀ wfr decision).isShadow = true)
      (qos : Option QosTelemetryRecord) :
      Move r₀ i r₀ (r₀.setWf wf { wfr with qos := qos })
  | refused (decision : RoutingDecision) (wf : String) (wfr : WfRuntime)
      (reason : QosReject) (hres : Resolves i r₀ decision wf wfr)
      (hshadow : (verdictOn i.env r₀ wfr decision).isShadow = false)
      (hmap : mapVerdict (verdictOn i.env r₀ wfr decision) wfr.intent r₀.cfg.mapperPolicy =
        .rejected reason)
      (n : Nat) (ext : List Sample) (hext : Publishes wf .failed ext)
      (hnum : Numbered wf wfr n ext) :
      Move r₀ i r₀ (r₀.record wf
        { wfr with terminal := true, failedReason := some (qosReason reason), stateRev := n } ext)
  | admitted (decision : RoutingDecision) (wf : String) (wfr : WfRuntime)
      (e : EffectiveQos) (hres : Resolves i r₀ decision wf wfr)
      (hshadow : (verdictOn i.env r₀ wfr decision).isShadow = false)
      (hmap : mapVerdict (verdictOn i.env r₀ wfr decision) wfr.intent r₀.cfg.mapperPolicy =
        .applied e)
      (j : Journal)
      (hentry : Journal.AdmitStep (admission decision wfr.intent (verdictOn i.env r₀ wfr decision))
        r₀.journal (.ok .admitted) j)
      (hio : i.env.journalFails (.admitWorkflow wfr.intent.workflowId.val) = false)
      (hunplanned : ∀ cand,
        i.env.plan ⟨wfr.intent.workflowId.val, wfr.intent.prompt.val⟩ = .ok cand →
        validateCandidate cand wfr.intent i.env.nowDag ≠ .ok ()) :
      Move r₀ i r₀ { r₀ with journal := j }
  | planned (decision : RoutingDecision) (wf : String) (wfr : WfRuntime)
      (e : EffectiveQos) (hres : Resolves i r₀ decision wf wfr)
      (hshadow : (verdictOn i.env r₀ wfr decision).isShadow = false)
      (hmap : mapVerdict (verdictOn i.env r₀ wfr decision) wfr.intent r₀.cfg.mapperPolicy =
        .applied e)
      (j : Journal)
      (hentry : Journal.AdmitStep (admission decision wfr.intent (verdictOn i.env r₀ wfr decision))
        r₀.journal (.ok .admitted) j)
      (cand : PlanCandidate)
      (hplan : i.env.plan ⟨wfr.intent.workflowId.val, wfr.intent.prompt.val⟩ = .ok cand)
      (hvalid : validateCandidate cand wfr.intent i.env.nowDag = .ok ())
      (failover : Bool) (qos : QosTelemetryRecord) (n : Nat) (ext : List Sample)
      (hext : ext = [] ∨ ∃ p rest, ext = .plan wf p :: rest ∧ Publishes wf .running rest)
      (hnum : Numbered wf (EngineRuntime.planned i.env wfr j cand failover qos) n ext) :
      Move r₀ i r₀ (EngineRuntime.record { r₀ with journal := j } wf
        { EngineRuntime.planned i.env wfr j cand failover qos with stateRev := n } ext)
  | rehydrated {r : EngineRuntime} (workflowId : String) (row : IntentRow) (cand : PlanCandidate)
      (hcall : i.call = .recoverFromJournal)
      (hrow : r.journal.intents.lookup workflowId = some row)
      (hnew : r.workflows.lookup workflowId = none) (hjournal : r.journal = r₀.journal)
      (hnew₀ : r₀.workflows.lookup workflowId = none)
      (hplan : i.env.plan ⟨workflowId, row.prompt⟩ = .ok cand) (ext : List Sample)
      (hext : ext = [] ∨ ∃ p, ext = [.plan workflowId p]) :
      Move r₀ i r (r.record workflowId (recovered i.env r.cfg r.journal
        (Journal.IntentRow.stored workflowId row) cand) ext)
  | held {r : EngineRuntime} (wf node : String) (wfr : WfRuntime) (hdue : Due i r wf node wfr)
      (result : Except EngineError String) (state : EngineState) (j : Journal)
      (hmat : wfr.state.materialize i.env.journalFails wfr.graph node r.cfg.perAttemptMicrounits
        r.journal = (result, state, j))
      (hresult : ∀ taskId, result = .ok taskId → taskId ∈ r.taskIndex) :
      Move r₀ i r { r.setWf wf { wfr with state := state } with journal := j }
  | dispatched {r : EngineRuntime} (wf node : String) (wfr : WfRuntime)
      (hdue : Due i r wf node wfr) (taskId : String) (state : EngineState) (j : Journal)
      (hmat : wfr.state.materialize i.env.journalFails wfr.graph node r.cfg.perAttemptMicrounits
        r.journal = (.ok taskId, state, j))
      (hindex : r.taskIndex.lookup taskId = none) (n : Nat) (ext : List Sample)
      (hext : ext = [] ∨ ∃ task rest, task.taskId = taskId ∧
        ext = .task wf node (state.progress node).activeAttempt task :: rest ∧
        Publishes wf .running rest) (hnum : Numbered wf wfr n ext) :
      Move r₀ i r { r.record wf { wfr with state := state, stateRev := n } ext with
        journal := j
        taskIndex := r.taskIndex.insert taskId (wf, node) }
  | incomplete {r : EngineRuntime} (task : Task) (wf node : String) (wfr : WfRuntime)
      (hwatch : Watched i r task wf node wfr) (hstatus : task.status = tsDone)
      (outputs : List TaskOutput) (e : EngineError) (state : EngineState) (j : Journal)
      (hdone : wfr.state.onDone i.env.journalFails wfr.graph node (watchedAttempt wfr node)
        [(nodeOutputName wfr.graph node, outputHash outputs)] r.journal = (.error e, state, j)) :
      Move r₀ i r { r.setWf wf { wfr with state := state } with journal := j }
  | completed {r : EngineRuntime} (task : Task) (wf node : String) (wfr : WfRuntime)
      (hwatch : Watched i r task wf node wfr) (hstatus : task.status = tsDone)
      (outputs : List TaskOutput) (ready : List String) (state : EngineState) (j : Journal)
      (hdone : wfr.state.onDone i.env.journalFails wfr.graph node (watchedAttempt wfr node)
        [(nodeOutputName wfr.graph node, outputHash outputs)] r.journal = (.ok ready, state, j))
      (n : Nat) (ext : List Sample)
      (hext : Publishes wf (if state.allDone then .done else .running) ext)
      (hnum : Numbered wf wfr n ext) :
      Move r₀ i r { r.record wf
        { wfr with state := state, terminal := state.allDone, stateRev := n } ext with
        journal := j }
  | unfailed {r : EngineRuntime} (task : Task) (wf node : String) (wfr : WfRuntime)
      (hwatch : Watched i r task wf node wfr) (hstatus : task.status = tsFailed)
      (e : EngineError) (state : EngineState) (j : Journal)
      (hfail : wfr.state.onFailed i.env.journalFails wfr.graph node (watchedAttempt wfr node)
        wfr.failover r.journal = (.error e, state, j)) :
      Move r₀ i r { r.setWf wf { wfr with state := state } with journal := j }
  | retried {r : EngineRuntime} (task : Task) (wf node : String) (wfr : WfRuntime)
      (hwatch : Watched i r task wf node wfr) (hstatus : task.status = tsFailed)
      (next : Nat) (state : EngineState) (j : Journal)
      (hfail : wfr.state.onFailed i.env.journalFails wfr.graph node (watchedAttempt wfr node)
        wfr.failover r.journal = (.ok (some next), state, j))
      (n : Nat) (ext : List Sample) (hext : Publishes wf .running ext)
      (hnum : Numbered wf wfr n ext) :
      Move r₀ i r { r.record wf { wfr with state := state, stateRev := n } ext with
        journal := j
        taskIndex := r.taskIndex.erase task.taskId }
  | exhausted {r : EngineRuntime} (task : Task) (wf node : String) (wfr : WfRuntime)
      (hwatch : Watched i r task wf node wfr) (hstatus : task.status = tsFailed)
      (state : EngineState) (j : Journal)
      (hfail : wfr.state.onFailed i.env.journalFails wfr.graph node (watchedAttempt wfr node)
        wfr.failover r.journal = (.ok none, state, j))
      (n : Nat) (ext : List Sample) (hext : Publishes wf .failed ext)
      (hnum : Numbered wf wfr n ext) :
      Move r₀ i r { r.record wf
        { wfr with
          state := state
          terminal := true
          failedReason := some (noRetryReason node)
          stateRev := n } ext with
        journal := j }
  | unswept {r : EngineRuntime} (task : Task) (hover : Overdue i task) :
      Move r₀ i r { r with inDoubtMarked := insert task.taskId r.inDoubtMarked }
  | sweptUnindexed {r : EngineRuntime} (task : Task) (hover : Overdue i task)
      (hnew : task.taskId ∉ r.inDoubtMarked)
      (hindex : ∀ wf node, r.taskIndex.lookup task.taskId = some (wf, node) →
        r.workflows.lookup wf = none) (hsweep : SweepFrame r₀ r) :
      Move r₀ i r { r with
        inDoubtMarked := insert task.taskId r.inDoubtMarked
        journal := r.journal.inDoubted task.taskId }
  | swept {r : EngineRuntime} (task : Task) (hover : Overdue i task)
      (hnew : task.taskId ∉ r.inDoubtMarked) (wf node : String) (wfr : WfRuntime)
      (hindex : r.taskIndex.lookup task.taskId = some (wf, node))
      (hwf : r.workflows.lookup wf = some wfr) (hsweep : SweepFrame r₀ r) :
      Move r₀ i r { r.setWf wf (doubt task.taskId wfr) with
        inDoubtMarked := insert task.taskId r.inDoubtMarked
        journal := r.journal.inDoubted task.taskId }
  | doubted {r : EngineRuntime} (task : Task) (hover : Overdue i task)
      (hnew : task.taskId ∉ r₀.inDoubtMarked) (wf node : String) (wfr : WfRuntime)
      (hindex : r₀.taskIndex.lookup task.taskId = some (wf, node))
      (hindex' : r.taskIndex.lookup task.taskId = some (wf, node))
      (hwf : r.workflows.lookup wf = some wfr) (hterminal : wfr.terminal = true)
      (n : Nat) (ext : List Sample) (hext : Publishes wf .inDoubt ext)
      (hnum : Numbered wf wfr n ext) :
      Move r₀ i r (r.record wf { wfr with stateRev := n } ext)
  | restarted (cfg : RuntimeConfig) (hcall : i.call = .restart cfg) :
      Move r₀ i r₀ (EngineRuntime.new r₀.journal r₀.log cfg)

abbrev Moves (r₀ : EngineRuntime) (i : Input) : EngineRuntime → EngineRuntime → Prop :=
  Relation.ReflTransGen (Move r₀ i)

theorem Moves.invariant {r₀ r r' : EngineRuntime} {i : Input} {I : EngineRuntime → Prop}
    (h : Moves r₀ i r r') (hr : I r) (hmove : ∀ t t', I t → Move r₀ i t t' → I t') : I r' := by
  induction h with
  | refl => exact hr
  | tail _ h ih => exact hmove _ _ ih h

/-- The attempt a sample is the task of. -/
def Sample.attempt : Sample → Option (String × String × Nat)
  | .task wf node attempt _ => some (wf, node, attempt)
  | _ => none

theorem Sample.attempt_eq_some {s : Sample} {wf node : String} {attempt : Nat} :
    s.attempt = some (wf, node, attempt) ↔ ∃ task, s = .task wf node attempt task := by
  cases s <;> simp [Sample.attempt]

/-- The attempt of this node is materialised and goes out. -/
def Dispatches (i : Input) (r r' : EngineRuntime) (wf node : String) (attempt : Nat) : Prop :=
  ∃ wfr taskId state, Due i r wf node wfr ∧
    wfr.state.materialize i.env.journalFails wfr.graph node r.cfg.perAttemptMicrounits r.journal =
      (.ok taskId, state, r'.journal) ∧
    r.taskIndex.lookup taskId = none ∧ attempt = (state.progress node).activeAttempt

/-- A move appends to the log, and tasks only where an attempt goes out. -/
theorem Move.tasks {r₀ r r' : EngineRuntime} {i : Input} (h : Move r₀ i r r') :
    ∃ ext, r'.log = r.log ++ ext ∧ ∀ wf node attempt task,
      .task wf node attempt task ∈ ext → Dispatches i r r' wf node attempt := by
  have hstate : ∀ {wf : String} {status : WorkflowStatus} {ext : List Sample},
      Publishes wf status ext → ∀ wf node attempt task, Sample.task wf node attempt task ∉ ext := by
    rintro wf status ext (rfl | ⟨st, -, rfl⟩) <;> simp
  have hnone : ∃ ext : List Sample, r.log = r.log ++ ext ∧ ∀ wf node attempt task,
      .task wf node attempt task ∈ ext → Dispatches i r r' wf node attempt :=
    ⟨[], by simp, by simp⟩
  cases h with
  | submitted | observed | admitted | held | incomplete | unfailed | unswept | sweptUnindexed |
      swept | restarted => exact hnone
  | cancelled _ _ _ _ _ _ _ ext hext =>
      exact ⟨ext, rfl, fun _ _ _ _ hmem => absurd hmem (hstate hext _ _ _ _)⟩
  | refused _ _ _ _ _ _ _ _ ext hext =>
      exact ⟨ext, rfl, fun _ _ _ _ hmem => absurd hmem (hstate hext _ _ _ _)⟩
  | planned _ _ _ _ _ _ _ _ _ _ _ _ _ _ _ ext hext =>
      refine ⟨ext, rfl, ?_⟩
      rcases hext with rfl | ⟨p, rest, rfl, hrest⟩
      · simp
      · intro wf node attempt task hmem
        rcases List.mem_cons.mp hmem with h | h
        · cases h
        · exact absurd h (hstate hrest _ _ _ _)
  | rehydrated _ _ _ _ _ _ _ _ _ ext hext =>
      refine ⟨ext, rfl, ?_⟩
      rcases hext with rfl | ⟨p, rfl⟩ <;> simp
  | dispatched wf node wfr hdue taskId state j hmat hindex n ext hext =>
      refine ⟨ext, rfl, ?_⟩
      rcases hext with rfl | ⟨task, rest, -, rfl, hrest⟩
      · simp
      · intro wf' node' attempt' task' hmem
        rcases List.mem_cons.mp hmem with h | h
        · injection h with hwf hnode hattempt
          subst hwf hnode hattempt
          exact ⟨wfr, taskId, state, hdue, hmat, hindex, rfl⟩
        · exact absurd h (hstate hrest _ _ _ _)
  | completed _ _ _ _ _ _ _ _ _ _ _ _ ext hext =>
      exact ⟨ext, rfl, fun _ _ _ _ hmem => absurd hmem (hstate hext _ _ _ _)⟩
  | retried _ _ _ _ _ _ _ _ _ _ _ ext hext =>
      exact ⟨ext, rfl, fun _ _ _ _ hmem => absurd hmem (hstate hext _ _ _ _)⟩
  | exhausted _ _ _ _ _ _ _ _ _ _ ext hext =>
      exact ⟨ext, rfl, fun _ _ _ _ hmem => absurd hmem (hstate hext _ _ _ _)⟩
  | doubted _ _ _ _ _ _ _ _ _ _ _ ext hext =>
      exact ⟨ext, rfl, fun _ _ _ _ hmem => absurd hmem (hstate hext _ _ _ _)⟩

/-- The call appends this sample to the log. -/
def Writes (r : EngineRuntime) (i : Input) (s : Sample) : Prop :=
  ∃ ext, (step r i).log = r.log ++ ext ∧ s ∈ ext

/-! ### Publications as updates -/

/-- What is written before the state does not count. -/
theorem Numbered.cons {wf : String} {wfr : WfRuntime} {n : Nat} {ext : List Sample}
    {sample : Sample} (h : Numbered wf wfr n ext) (hsample : ∀ st, sample ≠ .state wf st) :
    Numbered wf wfr n (sample :: ext) := by
  refine ⟨h.1, fun st hst => h.2 st ?_⟩
  exact (List.mem_cons.mp hst).resolve_left fun heq => hsample st heq.symm

section Publication

variable (env : Env) {r : EngineRuntime} {wf : String} {wfr : WfRuntime}

theorem write_eq (sample : Sample) :
    (r.write env sample).1 = .ok () ∧
        (r.write env sample).2 = { r with log := r.log ++ [sample] } ∨
      (∃ e, (r.write env sample).1 = .error e) ∧ (r.write env sample).2 = r := by
  unfold write
  split
  · exact .inr ⟨⟨_, rfl⟩, rfl⟩
  · exact .inl ⟨rfl, rfl⟩

theorem publishState_eq (status : WorkflowStatus) (hwf : r.workflows.lookup wf = some wfr) :
    ∃ n ext, (Publishes wf status ext ∧ Numbered wf wfr n ext) ∧
      (publishState env wf status r).2 = r.record wf { wfr with stateRev := n } ext := by
  simp only [publishState, hwf]
  rcases write_eq env (r := r.setWf wf
      { wfr with stateRev := (wfr.stateRev + 1) % 2 ^ 32 })
    (.state wf (stateSample wf { wfr with stateRev := (wfr.stateRev + 1) % 2 ^ 32 } status
      (env.stamp (2 * r.log.length)) (env.stamp (2 * r.log.length + 1)))) with
    ⟨-, h⟩ | ⟨-, h⟩
  · refine ⟨(wfr.stateRev + 1) % 2 ^ 32, _, ⟨.inr ⟨_, rfl, rfl⟩, .inr rfl, ?_⟩, h⟩
    intro st hst
    rw [List.mem_singleton, Sample.state.injEq] at hst
    rw [hst.2]
    exact ⟨rfl, rfl, rfl, rfl⟩
  · refine ⟨(wfr.stateRev + 1) % 2 ^ 32, [], ⟨.inl rfl, .inr rfl, by simp⟩, ?_⟩
    rw [h]
    simp [record, setWf]

theorem publishPlan_eq (cand : PlanCandidate) (hwf : r.workflows.lookup wf = some wfr) :
    ((publishPlan env wf cand r).1 = .ok () ∧
        ∃ p, (publishPlan env wf cand r).2 = { r with log := r.log ++ [.plan wf p] }) ∨
      (∃ e, (publishPlan env wf cand r).1 = .error e) ∧ (publishPlan env wf cand r).2 = r := by
  simp only [publishPlan, hwf]
  rcases write_eq env (r := r)
    (.plan wf (planSample wf wfr.intent cand (env.stamp (2 * r.log.length)))) with
    ⟨h₁, h₂⟩ | ⟨h₁, h₂⟩
  · exact .inl ⟨h₁, _, h₂⟩
  · exact .inr ⟨h₁, h₂⟩

end Publication

/-! ### Calls are chains of moves -/

section Calls

variable {r₀ r : EngineRuntime} {i : Input}

theorem onIntent_moves {intent : WorkflowIntent} (hcall : i.call = .intent intent) :
    Moves r i r (r.onIntent i.env intent).2 := by
  unfold onIntent
  dsimp only
  split
  · rename_i hcancel
    split
    · exact .refl
    · rename_i wfr hwf
      split
      · rename_i hmatch
        obtain ⟨n, ext, ⟨hext, hnum⟩, h⟩ := publishState_eq i.env .cancelled
          (lookup_setWf r intent.workflowId.val { wfr with terminal := true, failedReason := none }
            intent.workflowId.val |>.trans (if_pos rfl))
        rw [h, setWf_record]
        exact .single (.cancelled intent wfr hcall hcancel hwf hmatch n ext hext hnum)
      · exact .refl
  · rename_i hstart
    split
    · exact .refl
    · rename_i hnew
      exact .single (.submitted intent hcall hstart (AList.lookup_eq_none.mpr hnew))

/-- What follows an admission: the plan is installed as a whole, or there is no
valid plan and nothing changes. -/
theorem installPlan_eq (env : Env) (wf : String) (wfr : WfRuntime) (e : EffectiveQos) :
    ((installPlan env wf wfr e r).2 = r ∧ ∀ cand,
        env.plan ⟨wfr.intent.workflowId.val, wfr.intent.prompt.val⟩ = .ok cand →
        validateCandidate cand wfr.intent env.nowDag ≠ .ok ()) ∨
      ∃ cand failover qos n ext,
        env.plan ⟨wfr.intent.workflowId.val, wfr.intent.prompt.val⟩ = .ok cand ∧
        validateCandidate cand wfr.intent env.nowDag = .ok () ∧
        ((ext = [] ∨ ∃ p rest, ext = .plan wf p :: rest ∧ Publishes wf .running rest) ∧
          Numbered wf (EngineRuntime.planned env wfr r.journal cand failover qos) n ext) ∧
        (installPlan env wf wfr e r).2 = r.record wf
          { EngineRuntime.planned env wfr r.journal cand failover qos with stateRev := n } ext := by
  unfold installPlan
  split
  · rename_i hplan
    exact .inl ⟨rfl, by simp [hplan]⟩
  rename_i cand hplan
  split
  · rename_i hinvalid
    refine .inl ⟨rfl, ?_⟩
    intro cand' hplan'
    rw [hplan, Except.ok.injEq] at hplan'
    simp [← hplan', hinvalid]
  rename_i hvalid
  dsimp only
  set qos := QosTelemetryRecord.applied wfr.intent.workflowId.val e
  set failover := e.failoverRetries && r.cfg.failoverEnabled
  set w := EngineRuntime.planned env wfr r.journal cand failover qos with hw
  have hset : (r.setWf wf w).workflows.lookup wf = some w := by simp
  have hbare : r.setWf wf w = r.record wf { w with stateRev := w.stateRev } [] := by
    simp [record, setWf]
  rcases publishPlan_eq env cand hset with ⟨hok, p, hp⟩ | ⟨⟨err, herr⟩, hp⟩
  · have hset' : ({ r.setWf wf w with log := (r.setWf wf w).log ++ [.plan wf p] } :
        EngineRuntime).workflows.lookup wf = some w := hset
    obtain ⟨n, ext, ⟨hext, hnum⟩, h⟩ := publishState_eq env .running hset'
    have hcollapse : ({ r.setWf wf w with log := (r.setWf wf w).log ++ [.plan wf p] } :
        EngineRuntime).record wf { w with stateRev := n } ext =
        r.record wf { w with stateRev := n } (.plan wf p :: ext) := by
      simp [record, setWf, AList.insert_insert]
    refine .inr ⟨cand, failover, qos, n, .plan wf p :: ext, hplan, hvalid,
      ⟨.inr ⟨p, ext, rfl, hext⟩, hnum.cons fun st => by simp⟩, ?_⟩
    refine andThen_rec (Q := fun t => t = r.record wf { w with stateRev := n } (.plan wf p :: ext))
      (fun _ he => by rw [hok] at he; cases he) fun _ _ => ?_
    rw [andThen_ok_snd, hp, h, hcollapse]
  · refine .inr ⟨cand, failover, qos, w.stateRev, [], hplan, hvalid,
      ⟨.inl rfl, .inl rfl, by simp⟩, ?_⟩
    refine andThen_rec (Q := fun t => t = r.record wf { w with stateRev := w.stateRev } [])
      (fun _ _ => ?_) fun _ hok => ?_
    · rw [hp, hbare]
    · rw [herr] at hok
      cases hok

theorem takeDecision_moves {decision : RoutingDecision} {wf : String} {wfr : WfRuntime}
    (hres : Resolves i r decision wf wfr) :
    Moves r i r (takeDecision i.env wf wfr decision r).2 := by
  unfold takeDecision
  dsimp only
  by_cases hshadow : (verdictOn i.env r wfr decision).isShadow = true
  · rw [if_pos hshadow]
    exact .single (.observed decision wf wfr hres hshadow _)
  rw [if_neg hshadow]
  have hshadow : (verdictOn i.env r wfr decision).isShadow = false := by simpa using hshadow
  split
  · rename_i reason hmap
    obtain ⟨n, ext, ⟨hext, hnum⟩, h⟩ := publishState_eq i.env .failed
      (lookup_setWf r wf { wfr with terminal := true, failedReason := some (qosReason reason) } wf
        |>.trans (if_pos rfl))
    rw [andThen_ok_snd, h, setWf_record]
    exact .single (.refused decision wf wfr reason hres hshadow hmap n ext hext hnum)
  · rename_i e hmap
    have hentry := Journal.admitWorkflow_step i.env.journalFails
      (admission decision wfr.intent (verdictOn i.env r wfr decision)) r.journal
    split
    · rename_i err j heq
      simp only [heq] at hentry
      cases hentry
      exact .refl
    · rename_i j heq
      simp only [heq] at hentry
      cases hentry
      exact .refl
    · rename_i j heq
      simp only [heq] at hentry
      cases hentry
      exact .refl
    · rename_i j heq
      simp only [heq] at hentry
      rcases installPlan_eq (r := { r with journal := j }) i.env wf wfr e with
        ⟨hsame, hunplanned⟩ | ⟨cand, failover, qos, n, ext, hplan, hvalid, ⟨hext, hnum⟩, hplanned⟩
      · rw [hsame]
        have hio : i.env.journalFails (.admitWorkflow wfr.intent.workflowId.val) = false := by
          by_contra hio
          rw [Journal.admitWorkflow, if_pos (by simpa [admission] using hio)] at heq
          cases heq
        exact .single (.admitted decision wf wfr e hres hshadow hmap j hentry hio hunplanned)
      · rw [hplanned]
        exact .single (.planned decision wf wfr e hres hshadow hmap j hentry cand hplan hvalid
          failover qos n ext hext hnum)

theorem onDecision_moves {decision : RoutingDecision} (hcall : i.call = .decision decision) :
    Moves r i r (r.onDecision i.env decision).2 := by
  unfold onDecision
  split
  · exact .refl
  rename_i wf hfound
  split
  · exact .refl
  rename_i wfr hwf
  exact takeDecision_moves ⟨hcall, hfound, hwf⟩

/-- What holds of the loop that rehydrates: it does not touch the journal and
forgets no record. -/
structure Rehydrating (r₀ : EngineRuntime) (i : Input) (r : EngineRuntime) : Prop where
  chain : Moves r₀ i r₀ r
  journal : r.journal = r₀.journal
  records : ∀ wf, r.workflows.lookup wf = none → r₀.workflows.lookup wf = none

theorem rehydrate_rehydrating {workflowId : String} {row : IntentRow}
    (hcall : i.call = .recoverFromJournal)
    (hrow : r₀.journal.intents.lookup workflowId = some row) (hr : Rehydrating r₀ i r) :
    Rehydrating r₀ i (rehydrate i.env (Journal.IntentRow.stored workflowId row) r).2 := by
  set si := Journal.IntentRow.stored workflowId row with hsi
  have hid : si.workflowId = workflowId := rfl
  unfold rehydrate
  split
  · exact hr
  rename_i hnew
  have hnew : r.workflows.lookup workflowId = none := AList.lookup_eq_none.mpr hnew
  split
  · exact hr
  rename_i cand hplan
  rw [andThen_ok_snd]
  set w := recovered i.env r.cfg r.journal si cand with hw
  have hset : (r.setWf si.workflowId w).workflows.lookup si.workflowId = some w := by simp
  have hmove : ∀ ext, (ext = [] ∨ ∃ p, ext = [.plan workflowId p]) →
      Rehydrating r₀ i (r.record workflowId w ext) := by
    intro ext hext
    refine ⟨hr.chain.tail (.rehydrated workflowId row cand hcall (hr.journal ▸ hrow) hnew
      hr.journal (hr.records _ hnew) hplan ext hext), hr.journal, ?_⟩
    intro wf hwf
    rw [lookup_record] at hwf
    split at hwf
    · cases hwf
    · exact hr.records wf hwf
  rcases publishPlan_eq i.env cand hset with ⟨-, p, hp⟩ | ⟨-, hp⟩
  · rw [hp]
    exact hmove [.plan workflowId p] (.inr ⟨p, rfl⟩)
  · rw [hp]
    have hbare : r.setWf si.workflowId w = r.record workflowId w [] := by
      simp [record, setWf, hid]
    rw [hbare]
    exact hmove [] (.inl rfl)

theorem storedIntents_eq_ok {io : JournalCall → Bool} {j : Journal}
    {stored : List Journal.StoredIntent} (h : j.storedIntents io = .ok stored) :
    ∀ si, si ∈ stored ↔ ∃ id row, j.intents.lookup id = some row ∧
      si = Journal.IntentRow.stored id row := by
  unfold Journal.storedIntents at h
  split at h
  · cases h
  injection h with h
  subst h
  intro si
  simp only [List.mem_map, List.mem_reverse]
  constructor
  · rintro ⟨⟨id, row⟩, he, rfl⟩
    exact ⟨id, row, Map.mem_entries.mp he, rfl⟩
  · rintro ⟨id, row, hrow, rfl⟩
    exact ⟨⟨id, row⟩, Map.mem_entries.mpr hrow, rfl⟩

theorem recoverFromJournal_moves (hcall : i.call = .recoverFromJournal) :
    Moves r i r (r.recoverFromJournal i.env).2 := by
  unfold recoverFromJournal
  split
  · exact .refl
  rename_i stored hstored
  have hmem := storedIntents_eq_ok hstored
  refine (forEach_invariant (I := Rehydrating r i) ⟨.refl, rfl, fun _ h => h⟩ ?_).chain
  intro si hsi t ht
  obtain ⟨id, row, hrow, rfl⟩ := (hmem si).mp hsi
  exact rehydrate_rehydrating hcall hrow ht

theorem dispatch_eq {wf node : String} {wfr : WfRuntime} (taskId : String)
    (state : EngineState) (j : Journal) (hdue : Due i r wf node wfr) :
    ∃ n ext, ((ext = [] ∨ ∃ task rest, task.taskId = taskId ∧
        ext = .task wf node (state.progress node).activeAttempt task :: rest ∧
        Publishes wf .running rest) ∧ Numbered wf wfr n ext) ∧
      (dispatch i.env wf node taskId { wfr with state := state }
        { r.setWf wf { wfr with state := state } with journal := j }).2 =
      { r.record wf { wfr with state := state, stateRev := n } ext with
        journal := j
        taskIndex := r.taskIndex.insert taskId (wf, node) } := by
  obtain ⟨spec, hspec, hid⟩ := hdue.ready
  obtain ⟨found, hfound⟩ := PlanGraph.node_isSome (List.mem_of_mem_filter hspec)
  rw [hid] at hfound
  unfold dispatch
  simp only [hfound]
  set w : WfRuntime := { wfr with state := state } with hw
  set r' : EngineRuntime := { r.setWf wf w with
    journal := j
    taskIndex := r.taskIndex.insert taskId (wf, node) } with hr'
  have hset : r'.workflows.lookup wf = some w := by simp [hr']
  have hbare : r' = { r.record wf { w with stateRev := w.stateRev } [] with
      journal := j
      taskIndex := r.taskIndex.insert taskId (wf, node) } := by
    simp [hr', record, setWf]
  set sample : Sample := .task wf node (w.state.progress node).activeAttempt
    (nodeTask w found taskId (if 0 < w.intent.deadlineNs then w.intent.deadlineNs
      else i.env.stamp (2 * r.log.length) + r.cfg.defaultTaskDeadlineNs)
      (i.env.stamp (2 * r.log.length + 1))) with hsample
  rcases write_eq i.env (r := r') sample with ⟨hok, hp⟩ | ⟨⟨err, herr⟩, hp⟩
  · have hset' : ({ r' with log := r'.log ++ [sample] } : EngineRuntime).workflows.lookup wf =
        some w := hset
    obtain ⟨n, ext, ⟨hext, hnum⟩, h⟩ := publishState_eq i.env .running hset'
    refine ⟨n, sample :: ext, ⟨.inr ⟨_, ext, rfl, rfl, hext⟩,
      Numbered.cons (show Numbered wf wfr n ext from hnum) fun st => by simp [hsample]⟩, ?_⟩
    refine andThen_rec (Q := fun t => t = _) (fun _ he => ?_) fun _ _ => ?_
    · exact absurd (hok.symm.trans he) (by simp)
    · rw [andThen_ok_snd]
      refine (congrArg (fun t => (publishState i.env wf .running t).2) hp).trans (h.trans ?_)
      simp [hr', hw, record, setWf, AList.insert_insert]
  · refine ⟨w.stateRev, [], ⟨.inl rfl, .inl rfl, by simp⟩, ?_⟩
    refine andThen_rec (Q := fun t => t = _) (fun _ _ => hp.trans hbare) fun _ hok => ?_
    exact absurd (herr.symm.trans hok) (by simp)

theorem scheduleNode_move {wf node : String} {wfr : WfRuntime} (hdue : Due i r wf node wfr) :
    Move r₀ i r (scheduleNode i.env wf node r).2 ∧
      ∃ w, (scheduleNode i.env wf node r).2.workflows.lookup wf = some w ∧
        w.graph = wfr.graph ∧ w.terminal = false ∧ w.state.doneSet = wfr.state.doneSet := by
  have hdone := EngineState.materialize_doneSet i.env.journalFails wfr.graph node
    r.cfg.perAttemptMicrounits wfr.state r.journal
  unfold scheduleNode
  simp only [hdue.registered]
  rcases hmat : wfr.state.materialize i.env.journalFails wfr.graph node
    r.cfg.perAttemptMicrounits r.journal with ⟨result, state, j⟩
  rw [hmat] at hdone
  dsimp only at hdone ⊢
  have hheld : (∀ taskId, result = .ok taskId → taskId ∈ r.taskIndex) →
      Move r₀ i r { r.setWf wf { wfr with state := state } with journal := j } :=
    .held wf node wfr hdue result state j hmat
  have hrecord : ∃ w, ({ r.setWf wf { wfr with state := state } with journal := j } :
      EngineRuntime).workflows.lookup wf = some w ∧ w.graph = wfr.graph ∧ w.terminal = false ∧
      w.state.doneSet = wfr.state.doneSet :=
    ⟨{ wfr with state := state }, by simp, rfl, hdue.live, hdone⟩
  split
  · exact ⟨hheld (by simp), hrecord⟩
  · exact ⟨hheld (by simp), hrecord⟩
  · exact ⟨hheld (by simp), hrecord⟩
  · rename_i taskId
    split
    · rename_i hindex
      refine ⟨hheld ?_, hrecord⟩
      rintro _ ⟨⟩
      exact hindex
    · rename_i hindex
      have hindex : r.taskIndex.lookup taskId = none := AList.lookup_eq_none.mpr hindex
      obtain ⟨n, ext, ⟨hext, hnum⟩, h⟩ := dispatch_eq taskId state j hdue
      rw [h]
      exact ⟨.dispatched wf node wfr hdue taskId state j hmat hindex n ext hext hnum,
        { wfr with state := state, stateRev := n }, by simp, rfl, hdue.live, hdone⟩

theorem scheduleWorkflow_moves {wf : String} (hcall : i.call = .tickScheduler) :
    Moves r₀ i r (scheduleWorkflow i.env wf r).2 := by
  unfold scheduleWorkflow
  split
  · exact .refl
  rename_i wfr hwf
  split
  · exact .refl
  rename_i hlive
  have hlive : wfr.terminal = false := by simpa using hlive
  -- The nodes were collected before the loop; no iteration changes the graph
  -- or finishes a node, so each of them is still due when its turn comes.
  refine (forEach_invariant (I := fun t => Moves r₀ i r t ∧ ∃ w, t.workflows.lookup wf = some w ∧
    w.graph = wfr.graph ∧ w.terminal = false ∧ w.state.doneSet = wfr.state.doneSet)
    ⟨.refl, wfr, hwf, rfl, hlive, rfl⟩ ?_).1
  rintro node hnode t ⟨hchain, w, hw, hgraph, hterm, hdone⟩
  have hready : ∃ spec ∈ w.graph.readyNodes w.state.doneSet, spec.nodeId = node := by
    rw [hgraph, hdone]
    exact List.mem_map.mp hnode
  obtain ⟨hmove, w', hw', hgraph', hterm', hdone'⟩ : Move r₀ i t _ ∧ _ :=
    scheduleNode_move ⟨hcall, hw, hterm, hready⟩
  exact ⟨hchain.tail hmove, w', hw', hgraph'.trans hgraph, hterm', hdone'.trans hdone⟩

theorem tickScheduler_moves (hcall : i.call = .tickScheduler) :
    Moves r i r (r.tickScheduler i.env).2 :=
  forEach_invariant (I := Moves r i r) .refl fun _ _ _ hchain =>
    hchain.trans (scheduleWorkflow_moves hcall)

theorem completeTask_move {task : Task} {wf node : String} {wfr : WfRuntime}
    (hwatch : Watched i r task wf node wfr) (hstatus : task.status = tsDone)
    (outputs : List TaskOutput) :
    Relation.ReflGen (Move r₀ i) r
      (completeTask i.env wf node wfr (watchedAttempt wfr node) outputs r).2 := by
  unfold completeTask
  split
  · exact .refl
  · rename_i e state j _ hdone
    exact .single (.incomplete task wf node wfr hwatch hstatus outputs e state j hdone)
  · rename_i ready state j hdone
    have hmove : ∀ n ext, Publishes wf (if state.allDone then .done else .running) ext →
        Numbered wf wfr n ext → Relation.ReflGen (Move r₀ i) r _ := fun n ext hext hnum =>
      .single (.completed task wf node wfr hwatch hstatus outputs ready state j hdone n ext hext
        hnum)
    split
    · rename_i hall
      set r' : EngineRuntime := { r.setWf wf { wfr with state := state, terminal := true } with
        journal := j } with hr'
      obtain ⟨n, ext, ⟨hext, hnum⟩, h⟩ := publishState_eq i.env (r := r') .done
        (lookup_setWf r wf _ wf |>.trans (if_pos rfl))
      rw [andThen_ok_snd, h]
      have := hmove n ext (by simpa [hall] using hext) hnum
      simpa [hr', hall, record, setWf, AList.insert_insert] using this
    · rename_i hall
      set r' : EngineRuntime := { r.setWf wf { wfr with state := state } with
        journal := j } with hr'
      obtain ⟨n, ext, ⟨hext, hnum⟩, h⟩ := publishState_eq i.env (r := r') .running
        (lookup_setWf r wf _ wf |>.trans (if_pos rfl))
      rw [andThen_ok_snd, h]
      have := hmove n ext (by simpa [hall] using hext) hnum
      simpa [hr', hall, record, setWf, AList.insert_insert, hwatch.live] using this

theorem failTask_move {task : Task} {wf node : String} {wfr : WfRuntime}
    (hwatch : Watched i r task wf node wfr) (hstatus : task.status = tsFailed) :
    Relation.ReflGen (Move r₀ i) r
      (failTask i.env wf node task.taskId wfr (watchedAttempt wfr node) r).2 := by
  unfold failTask
  split
  · exact .refl
  · rename_i e state j _ hfail
    exact .single (.unfailed task wf node wfr hwatch hstatus e state j hfail)
  · rename_i next state j hfail
    set r' : EngineRuntime := { r.setWf wf { wfr with state := state } with
      journal := j, taskIndex := r.taskIndex.erase task.taskId } with hr'
    obtain ⟨n, ext, ⟨hext, hnum⟩, h⟩ := publishState_eq i.env (r := r') .running
      (lookup_setWf r wf _ wf |>.trans (if_pos rfl))
    rw [andThen_ok_snd, h]
    have : Relation.ReflGen (Move r₀ i) r _ :=
      .single (.retried task wf node wfr hwatch hstatus next state j hfail n ext hext hnum)
    simpa [hr', record, setWf, AList.insert_insert] using this
  · rename_i state j hfail
    set r' : EngineRuntime := { r.setWf wf { wfr with
        state := state, terminal := true, failedReason := some (noRetryReason node) } with
      journal := j } with hr'
    obtain ⟨n, ext, ⟨hext, hnum⟩, h⟩ := publishState_eq i.env (r := r') .failed
      (lookup_setWf r wf _ wf |>.trans (if_pos rfl))
    rw [andThen_ok_snd, h]
    have : Relation.ReflGen (Move r₀ i) r _ :=
      .single (.exhausted task wf node wfr hwatch hstatus state j hfail n ext hext hnum)
    simpa [hr', record, setWf, AList.insert_insert] using this

theorem watchTask_move {task : Task} {tasks : List Task} (hcall : i.call = .tickWatchTasks)
    (htasks : i.env.allTasks = .ok tasks) (htask : task ∈ tasks) :
    Relation.ReflGen (Move r₀ i) r (watchTask i.env task r).2 := by
  unfold watchTask
  split
  · exact .refl
  rename_i wf node hindex
  split
  · exact .refl
  rename_i wfr hwf
  dsimp only
  split
  · exact .refl
  rename_i hlive
  have hwatch : Watched i r task wf node wfr :=
    ⟨hcall, ⟨tasks, htasks, htask⟩, hindex, hwf, by simpa using hlive⟩
  split
  · rename_i hstatus
    split
    · exact .refl
    · exact completeTask_move hwatch hstatus _
  split
  · rename_i hstatus
    exact failTask_move hwatch hstatus
  · exact .refl

theorem tickWatchTasks_moves (hcall : i.call = .tickWatchTasks) :
    Moves r i r (r.tickWatchTasks i.env).2 := by
  unfold tickWatchTasks
  split
  · exact .refl
  · rename_i tasks htasks
    exact forEach_invariant (I := Moves r i r) .refl fun task htask _ hchain =>
      hchain.trans (watchTask_move hcall htasks htask).to_reflTransGen

theorem SweepFrame.refl (r : EngineRuntime) : SweepFrame r r :=
  ⟨rfl, subset_rfl, fun _ _ h _ => h, rfl, fun _ row h => ⟨row, h, rfl⟩⟩

theorem SweepFrame.marking {r₀ r : EngineRuntime} (h : SweepFrame r₀ r) (taskId : String) :
    SweepFrame r₀ { r with inDoubtMarked := insert taskId r.inDoubtMarked } :=
  ⟨h.index, h.marked.trans (Finset.subset_insert _ _), h.live, h.reservations, h.tasks⟩

theorem SweepFrame.inDoubted {r₀ r : EngineRuntime} (h : SweepFrame r₀ r) (taskId : String) :
    SweepFrame r₀ { r with journal := r.journal.inDoubted taskId } := by
  refine ⟨h.index, h.marked, h.live, h.reservations, ?_⟩
  intro key row hrow
  simp only [Journal.inDoubted, Map.lookup_mapVals, Option.map_eq_some_iff] at hrow
  obtain ⟨mid, hmid, rfl⟩ := hrow
  obtain ⟨old, hold, hid⟩ := h.tasks key mid hmid
  refine ⟨old, hold, hid.trans ?_⟩
  split <;> rfl

/-- A record that becomes terminal is not live any more. -/
theorem SweepFrame.ending {r₀ r : EngineRuntime} (h : SweepFrame r₀ r) (wf : String)
    {wfr : WfRuntime} (hterminal : wfr.terminal = true) : SweepFrame r₀ (r.setWf wf wfr) := by
  refine ⟨h.index, h.marked, ?_, h.reservations, h.tasks⟩
  intro wf' w hw hlive
  rw [lookup_setWf] at hw
  split at hw
  · injection hw with hw
    rw [← hw, hterminal] at hlive
    cases hlive
  · exact h.live wf' w hw hlive

/-- What holds of the sweep loop: each workflow to be published is terminal and
was reached through an overdue task that was indexed and unmarked before the
call. -/
structure Sweeping (r₀ : EngineRuntime) (i : Input) (s : EngineRuntime × List String) : Prop where
  chain : Moves r₀ i r₀ s.1
  frame : SweepFrame r₀ s.1
  doubtful : ∀ wf ∈ s.2, ∃ task node, Overdue i task ∧ task.taskId ∉ r₀.inDoubtMarked ∧
    r₀.taskIndex.lookup task.taskId = some (wf, node) ∧
    ∀ wfr, s.1.workflows.lookup wf = some wfr → wfr.terminal = true

theorem sweepTask_sweeping {task : Task} {tasks : List Task} (hcall : i.call = .tickTimeouts)
    (htasks : i.env.allTasks = .ok tasks) (htask : task ∈ tasks)
    {s : EngineRuntime × List String} (hs : Sweeping r₀ i s) :
    Sweeping r₀ i (sweepTask i.env task s).2 := by
  obtain ⟨r, doubtful⟩ := s
  unfold sweepTask
  dsimp only
  split
  · exact hs
  rename_i hover
  have hover : Overdue i task := ⟨hcall, ⟨tasks, htasks, htask⟩, not_not.mp hover⟩
  split
  · exact hs
  rename_i hnew
  have hnew₀ : task.taskId ∉ r₀.inDoubtMarked := fun h => hnew (hs.frame.marked h)
  have hframe : SweepFrame r₀ { r with
      inDoubtMarked := insert task.taskId r.inDoubtMarked
      journal := r.journal.inDoubted task.taskId } :=
    (hs.frame.marking task.taskId).inDoubted task.taskId
  unfold Journal.markInDoubt
  by_cases hio : i.env.journalFails (.markInDoubt task.taskId) = true
  · simp only [hio, if_true]
    exact ⟨hs.chain.tail (.unswept task hover), hs.frame.marking task.taskId, hs.doubtful⟩
  have hio : i.env.journalFails (.markInDoubt task.taskId) = false := by simpa using hio
  simp only [hio, Bool.false_eq_true, if_false]
  cases hindex : r.taskIndex.lookup task.taskId with
  | none =>
      exact ⟨hs.chain.tail (.sweptUnindexed task hover hnew (by simp [hindex]) hs.frame), hframe,
        hs.doubtful⟩
  | some entry =>
      obtain ⟨wf, node⟩ := entry
      have hindex₀ : r₀.taskIndex.lookup task.taskId = some (wf, node) := by
        rw [← hs.frame.index]
        exact hindex
      cases hwf : r.workflows.lookup wf with
      | none =>
          have hmove : Move r₀ i r _ := .sweptUnindexed task hover hnew (by
            rintro wf' node' h
            rw [hindex, Option.some.injEq, Prod.mk.injEq] at h
            rw [← h.1]
            exact hwf) hs.frame
          simp only [hwf]
          refine ⟨hs.chain.tail hmove, hframe, ?_⟩
          intro wf' hwf'
          rcases List.mem_append.mp hwf' with h | h
          · exact hs.doubtful wf' h
          · rw [List.mem_singleton] at h
            subst h
            exact ⟨task, node, hover, hnew₀, hindex₀, by simp [hwf]⟩
      | some wfr =>
          have hmove : Move r₀ i r _ := .swept task hover hnew wf node wfr hindex hwf hs.frame
          have hkeep : ∀ wf', (∀ w, r.workflows.lookup wf' = some w → w.terminal = true) →
              ∀ w, (r.setWf wf (doubt task.taskId wfr)).workflows.lookup wf' = some w →
                w.terminal = true := by
            intro wf' hold w hw
            rw [lookup_setWf] at hw
            split at hw
            · injection hw with hw
              rw [← hw]
              rfl
            · exact hold w hw
          simp only [hwf]
          refine ⟨hs.chain.tail hmove, hframe.ending wf rfl, ?_⟩
          intro wf' hwf'
          rcases List.mem_append.mp hwf' with h | h
          · obtain ⟨t, n, ho, hn, hi, hterm⟩ := hs.doubtful wf' h
            exact ⟨t, n, ho, hn, hi, hkeep wf' hterm⟩
          · rw [List.mem_singleton] at h
            subst h
            refine ⟨task, node, hover, hnew₀, hindex₀, ?_⟩
            intro w hw
            have : w = doubt task.taskId wfr := by simpa [eq_comm] using hw
            rw [this]
            rfl

theorem publishInDoubt_move {wf node : String} {task : Task} (hover : Overdue i task)
    (hnew : task.taskId ∉ r₀.inDoubtMarked)
    (hindex : r₀.taskIndex.lookup task.taskId = some (wf, node))
    (hsame : r.taskIndex = r₀.taskIndex)
    (hterminal : ∀ wfr, r.workflows.lookup wf = some wfr → wfr.terminal = true) :
    Relation.ReflGen (Move r₀ i) r (publishInDoubt i.env wf r).2 ∧
      (publishInDoubt i.env wf r).2.taskIndex = r₀.taskIndex ∧
      ∀ wf', (∀ w, r.workflows.lookup wf' = some w → w.terminal = true) →
        ∀ w, (publishInDoubt i.env wf r).2.workflows.lookup wf' = some w → w.terminal = true := by
  unfold publishInDoubt
  rw [andThen_ok_snd]
  cases hwf : r.workflows.lookup wf with
  | none =>
      have h : (publishState i.env wf .inDoubt r).2 = r := by simp [publishState, hwf]
      rw [h]
      exact ⟨.refl, hsame, fun _ h => h⟩
  | some wfr =>
      obtain ⟨n, ext, ⟨hext, hnum⟩, h⟩ := publishState_eq i.env .inDoubt hwf
      rw [h]
      refine ⟨.single (.doubted task hover hnew wf node wfr hindex (hsame ▸ hindex) hwf
        (hterminal wfr hwf) n ext hext hnum), hsame, ?_⟩
      intro wf' hold w hw
      rw [lookup_record] at hw
      split at hw
      · injection hw with hw
        rw [← hw]
        exact hterminal wfr hwf
      · exact hold w hw

theorem tickTimeouts_moves (hcall : i.call = .tickTimeouts) :
    Moves r i r (r.tickTimeouts i.env).2 := by
  unfold tickTimeouts
  split
  · exact .refl
  rename_i tasks htasks
  have hsweep : Sweeping r i (forEach (sweepTask i.env) tasks (r, [])).2 :=
    forEach_invariant (I := Sweeping r i) ⟨.refl, .refl r, by simp⟩
      fun task htask _ hs => sweepTask_sweeping hcall htasks htask hs
  generalize forEach (sweepTask i.env) tasks (r, []) = out at hsweep ⊢
  obtain ⟨_ | marked, r', doubtful⟩ := out
  · exact hsweep.chain
  · rw [andThen_ok_snd]
    refine (forEach_invariant (I := fun t => Moves r i r t ∧ t.taskIndex = r.taskIndex ∧
      ∀ wf ∈ doubtful, ∀ w, t.workflows.lookup wf = some w → w.terminal = true)
      ⟨hsweep.chain, hsweep.frame.index, fun wf hwf => ?_⟩ ?_).1
    · obtain ⟨-, -, -, -, -, hterm⟩ := hsweep.doubtful wf hwf
      exact hterm
    · rintro wf hwf t ⟨hchain, hsame, hterm⟩
      obtain ⟨task, node, hover, hnew, hindex, -⟩ := hsweep.doubtful wf hwf
      obtain ⟨hmoves, hsame', hkeep⟩ :=
        publishInDoubt_move hover hnew hindex hsame (hterm wf hwf)
      exact ⟨hchain.trans hmoves.to_reflTransGen, hsame',
        fun wf' hwf' => hkeep wf' (hterm wf' hwf')⟩

/-- Every call is a chain of moves. -/
theorem step_moves (r : EngineRuntime) (i : Input) : Moves r i r (step r i) := by
  unfold step
  split
  · rename_i hcall
    exact onIntent_moves hcall
  · rename_i hcall
    exact onDecision_moves hcall
  · rename_i hcall
    exact recoverFromJournal_moves hcall
  · rename_i hcall
    exact tickScheduler_moves hcall
  · rename_i hcall
    exact tickWatchTasks_moves hcall
  · rename_i hcall
    exact tickTimeouts_moves hcall
  · rename_i cfg hcall
    exact .single (.restarted cfg hcall)

/-- What every move of a call keeps, the call keeps. -/
theorem step_invariant {I : EngineRuntime → Prop} (hr : I r)
    (hmove : ∀ t t', I t → Move r i t t' → I t') : I (step r i) :=
  (step_moves r i).invariant hr hmove

end Calls

end DdsOrchestrator.WorkflowEngine
