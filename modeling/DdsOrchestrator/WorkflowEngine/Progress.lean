import DdsOrchestrator.WorkflowEngine.Attempts

/-!
A workflow on its way from its admission to its end: what the admission of a
plan leaves, and what the ticks of the scheduler and of the watcher keep of it
as long as none of its tasks fails. Nodes stay at their first attempt, and the
record is terminal exactly when every node is done.
-/

namespace DdsOrchestrator.WorkflowEngine

open Loop EngineRuntime Machine EngineState

/-! ### Rows are never deleted -/

def RowsGrow (j j' : Journal) : Prop := ∀ key ∈ j.attempts, key ∈ j'.attempts

section Rows

variable {io : JournalCall → Bool} {graph : PlanGraph} {node : String} {s s' : EngineState}
  {j j' : Journal}

theorem RowsGrow.of_eq (h : j'.attempts = j.attempts) : RowsGrow j j' :=
  fun _ hkey => h ▸ hkey

theorem Journal.RecordStep.rowsGrow {key : AttemptKey} {taskId : String} {state : AttemptState}
    {result : Except JournalError Unit} (h : Journal.RecordStep key taskId state j result j') :
    RowsGrow j j' := by
  cases h with
  | failed | ignored => exact .of_eq rfl
  | written => exact fun k hk => by simp [hk]

theorem EngineState.MaterializeStep.rowsGrow {microunits : UInt64}
    {result : Except EngineError String}
    (h : EngineState.MaterializeStep graph node microunits s j result s' j') :
    RowsGrow j j' := by
  cases h with
  | unknown | done | doubtful | unreserved | consumed => exact .of_eq rfl
  | unrecorded _ _ _ _ _ hreserve =>
      obtain ⟨_, -, hreserve⟩ := hreserve
      exact .of_eq hreserve.attempts_eq
  | recorded _ _ _ _ j₁ j₂ hreserve hrecord rows =>
      obtain ⟨_, -, hreserve⟩ := hreserve
      exact fun key hkey => hrecord.rowsGrow key (RowsGrow.of_eq hreserve.attempts_eq key hkey)

theorem EngineState.DoneStep.rowsGrow {attempt : Nat} {outputs : List (String × String)}
    {result : Except EngineError (List String)}
    (h : EngineState.DoneStep io graph node attempt outputs s j result s' j') :
    RowsGrow j j' := by
  cases h with
  | refused | unrecorded => exact .of_eq rfl
  | unsent _ _ _ _ _ _ _ j₁ hrecord => exact hrecord.rowsGrow
  | completed _ _ _ _ _ _ _ j₁ hrecord =>
      exact fun key hkey => RowsGrow.of_eq (Journal.releaseReservation_attempts io _ none _) key
        (hrecord.rowsGrow key hkey)

theorem EngineState.FailStep.rowsGrow {attempt : Nat} {failover : Bool}
    {result : Except EngineError (Option Nat)}
    (h : EngineState.FailStep io graph node attempt failover s j result s' j') :
    RowsGrow j j' := by
  have hrelease := RowsGrow.of_eq (Journal.releaseReservation_attempts io
    (reservationKey graph.workflowId node attempt) none j)
  cases h with
  | refused => exact .of_eq rfl
  | unrecorded => exact hrelease
  | retried _ _ _ _ _ _ j₂ hrecord =>
      exact fun key hkey => hrecord.rowsGrow key (hrelease key hkey)
  | closed _ _ _ _ _ _ _ hrecord =>
      exact fun key hkey => hrecord.rowsGrow key (hrelease key hkey)

theorem RowsGrow.inDoubted (j : Journal) (taskId : String) : RowsGrow j (j.inDoubted taskId) := by
  intro key hkey
  obtain ⟨row, hrow⟩ := Map.mem_iff_lookup.mp hkey
  rw [Map.mem_iff_lookup, Journal.inDoubted, Map.lookup_mapVals, hrow]
  exact ⟨_, rfl⟩

end Rows

/-! ### The index and the failure reasons, in every run -/

/-- Every indexed task was recorded, under the attempt its id stands for. -/
def IndexRecorded (r : EngineRuntime) : Prop :=
  ∀ t wf node, r.taskIndex.lookup t = some (wf, node) →
    ∃ a, (wf, node, a) ∈ r.journal.attempts ∧ t = laya1TaskId wf 1 node a

/-- A live record has no failure reason. -/
def Unblemished (r : EngineRuntime) : Prop :=
  ∀ wf wfr, r.workflows.lookup wf = some wfr → wfr.terminal = false → wfr.failedReason = none

section Runs

variable {r₀ r r' : EngineRuntime} {i : Input}

theorem IndexRecorded.frame (h : IndexRecorded r) (hrows : RowsGrow r.journal r'.journal)
    (hindex : ∀ t e, r'.taskIndex.lookup t = some e → r.taskIndex.lookup t = some e) :
    IndexRecorded r' := by
  intro t wf node ht
  obtain ⟨a, hrow, heq⟩ := h t wf node (hindex t _ ht)
  exact ⟨a, hrows _ hrow, heq⟩

theorem IndexRecorded.move (h : IndexRecorded r) (hr : Coherent r) (hmove : Move r₀ i r r') :
    IndexRecorded r' := by
  cases hmove with
  | submitted | cancelled | observed | refused | rehydrated | unswept | doubted =>
      exact h.frame (.of_eq rfl) fun _ _ h => h
  | admitted _ _ wfr _ _ _ _ _ hentry | planned _ _ wfr _ _ _ _ _ hentry =>
      obtain ⟨-, -, -, -, hattempts, -⟩ := hentry.admitted_journalOk
        (toS_val wfr.intent.workflowId.noNul) hr.journal
      exact h.frame (.of_eq hattempts) fun _ _ h => h
  | held wf node wfr hdue result state j hmat =>
      exact h.frame (hdue.materialized hr hmat).1.rowsGrow fun _ _ h => h
  | dispatched wf node wfr hdue taskId state j hmat =>
      obtain ⟨hid, hrow⟩ := hdue.recorded hr hmat
      intro t wf' node' ht
      rcases Map.lookup_insert_eq_some.mp ht with ⟨rfl, heq⟩ | ⟨-, hold⟩
      · injection heq with hwf hnode
        subst hwf hnode
        obtain ⟨row, hlookup, -⟩ := Option.map_eq_some_iff.mp hrow
        exact ⟨_, Map.mem_iff_lookup.mpr ⟨row, hlookup⟩, hid⟩
      · obtain ⟨a, hkey, heq⟩ := h t wf' node' hold
        exact ⟨a, (hdue.materialized hr hmat).1.rowsGrow _ hkey, heq⟩
  | incomplete task wf node wfr hwatch hstatus outputs e state j hdone =>
      exact h.frame (hwatch.completed hr hdone).1.rowsGrow fun _ _ h => h
  | completed task wf node wfr hwatch hstatus outputs ready state j hdone =>
      exact h.frame (hwatch.completed hr hdone).1.rowsGrow fun _ _ h => h
  | unfailed task wf node wfr hwatch hstatus e state j hfail =>
      exact h.frame (hwatch.failed hr hfail).1.rowsGrow fun _ _ h => h
  | retried task wf node wfr hwatch hstatus next state j hfail =>
      exact h.frame (hwatch.failed hr hfail).1.rowsGrow fun _ _ => Map.lookup_of_lookup_erase
  | exhausted task wf node wfr hwatch hstatus state j hfail =>
      exact h.frame (hwatch.failed hr hfail).1.rowsGrow fun _ _ h => h
  | sweptUnindexed | swept => exact h.frame (.inDoubted _ _) fun _ _ h => h
  | restarted => exact h.frame (.of_eq rfl) (by simp [EngineRuntime.new])

theorem Unblemished.move (h : Unblemished r) (hmove : Move r₀ i r r') : Unblemished r' := by
  have hset : ∀ {wf : String} {wfr : WfRuntime} {workflows : Map String WfRuntime},
      (∀ id, workflows.lookup id = if id = wf then some wfr else r.workflows.lookup id) →
      (wfr.terminal = false → wfr.failedReason = none) →
      ∀ wf w, workflows.lookup wf = some w → w.terminal = false → w.failedReason = none := by
    intro wf wfr workflows hrecords hwfr wf' w hw hlive
    rw [hrecords] at hw
    split at hw
    · injection hw with hw
      subst hw
      exact hwfr hlive
    · exact h wf' w hw hlive
  cases hmove with
  | submitted => exact hset (lookup_setWf _ _ _) fun _ => rfl
  | cancelled => exact hset (lookup_record _ _ _ _) fun _ => rfl
  | observed decision wf wfr hres => exact hset (lookup_setWf _ _ _) (h wf wfr hres.registered)
  | refused => exact hset (lookup_record _ _ _ _) (by simp)
  | admitted | unswept | sweptUnindexed => exact h
  | planned decision wf wfr e hres =>
      exact hset (lookup_record _ _ _ _) (h wf wfr hres.registered)
  | rehydrated => exact hset (lookup_record _ _ _ _) fun _ => rfl
  | held wf node wfr hdue => exact hset (lookup_setWf _ _ _) (h wf wfr hdue.registered)
  | dispatched wf node wfr hdue _ _ _ _ _ n ext =>
      exact hset (lookup_record r wf _ ext) (h wf wfr hdue.registered)
  | incomplete task wf node wfr hwatch =>
      exact hset (lookup_setWf _ _ _) (h wf wfr hwatch.registered)
  | completed task wf node wfr hwatch _ _ _ _ _ _ n ext =>
      exact hset (lookup_record r wf _ ext) fun _ => h wf wfr hwatch.registered hwatch.live
  | unfailed task wf node wfr hwatch =>
      exact hset (lookup_setWf _ _ _) (h wf wfr hwatch.registered)
  | retried task wf node wfr hwatch _ _ _ _ _ n ext =>
      exact hset (lookup_record r wf _ ext) (h wf wfr hwatch.registered)
  | exhausted task wf node wfr hwatch _ _ _ _ n ext =>
      exact hset (lookup_record r wf _ ext) (by simp)
  | swept task hover hnew wf node wfr => exact hset (lookup_setWf r wf _) (by simp [doubt])
  | doubted task hover hnew wf node wfr _ _ hwf =>
      exact hset (lookup_record _ _ _ _) (h wf wfr hwf)
  | restarted => simp [Unblemished, EngineRuntime.new]

/-- What holds in every reachable state, beyond coherence. -/
structure Orderly (r : EngineRuntime) : Prop where
  coherent : Coherent r
  recorded : IndexRecorded r
  unblemished : Unblemished r

theorem Orderly.move (hr : Orderly r) (h : Move r₀ i r r') : Orderly r' :=
  ⟨hr.coherent.move h, hr.recorded.move hr.coherent h, hr.unblemished.move h⟩

theorem Orderly.step (hr : Orderly r) (i : Input) : Orderly (step r i) :=
  step_invariant hr fun _ _ ht h => ht.move h

theorem orderly_run (cfg : RuntimeConfig) (inputs : List Input) : Orderly (run cfg inputs) := by
  refine foldl_invariant inputs ⟨coherent_new journalOk_empty [] cfg, ?_, ?_⟩
    fun _ i hr => hr.step i
  · simp [IndexRecorded, initial, EngineRuntime.new]
  · simp [Unblemished, initial, EngineRuntime.new]

end Runs

/-! ### The admission of a plan -/

/-- The call admits the workflow under this plan, for the first time. -/
structure PlanAdmitted (r : EngineRuntime) (i : Input) (decision : RoutingDecision) (wf : String)
    (wfr : WfRuntime) (cand : PlanCandidate) : Prop where
  resolves : Resolves i r decision wf wfr
  plan : i.env.plan ⟨wf, wfr.intent.prompt.val⟩ = .ok cand
  result : (r.onDecision i.env decision).1 = .ok true
  fresh : wf ∉ r.journal.decisions

/-- What the admission leaves: the plan, with every node before its first
attempt, and the rest of the record as it was. -/
structure Installed (r : EngineRuntime) (wf : String) (wfr : WfRuntime) (cand : PlanCandidate)
    (r' : EngineRuntime) (wfr' : WfRuntime) : Prop where
  registered : r'.workflows.lookup wf = some wfr'
  graph : wfr'.graph = PlanGraph.fromCandidate wf 1 cand
  terminal : wfr'.terminal = wfr.terminal
  failedReason : wfr'.failedReason = wfr.failedReason
  fresh : ∀ node p, wfr'.state.nodes.lookup node = some p → p = .fresh
  index : r'.taskIndex = r.taskIndex
  attempts : r'.journal.attempts = r.journal.attempts

/-- A node of a workflow without rows is recovered as fresh. -/
theorem recover_fresh {io : JournalCall → Bool} {j : Journal} {graph : PlanGraph}
    (hnone : ∀ node a, j.attempts.lookup (graph.workflowId, node, a) = none) {node : String}
    {p : NodeProgress} (hp : (EngineState.recover io j graph).nodes.lookup node = some p) :
    p = .fresh := by
  obtain ⟨n, -, -, rfl⟩ := (lookup_recover io j graph node).1 p hp
  exact scanAttempts_of_none (fun a _ => hnone n.nodeId a) _

theorem installPlan_installed {env : Env} {wf : String} {wfr : WfRuntime} {e : EffectiveQos}
    {r : EngineRuntime} {cand : PlanCandidate} (hkey : wfr.intent.workflowId.val = wf)
    (hplan : env.plan ⟨wf, wfr.intent.prompt.val⟩ = .ok cand)
    (hnone : ∀ node a, r.journal.attempts.lookup (wf, node, a) = none)
    (hresult : (installPlan env wf wfr e r).1 = .ok true) :
    ValidPlan cand wfr.intent ∧
      ∃ wfr', Installed r wf wfr cand (installPlan env wf wfr e r).2 wfr' := by
  unfold installPlan at hresult ⊢
  rw [hkey] at hresult ⊢
  simp only [hplan] at hresult ⊢
  split at hresult
  · cases hresult
  rename_i hvalid
  refine ⟨validateCandidate_ok hvalid, ?_⟩
  set failover := e.failoverRetries && r.cfg.failoverEnabled
  set w := EngineRuntime.planned env wfr r.journal cand failover (.applied wf e) with hw
  have hset : (r.setWf wf w).workflows.lookup wf = some w := by simp
  obtain ⟨_, hok, heq⟩ := andThen_eq_ok hresult
  rcases publishPlan_eq env cand hset with ⟨-, p, hp⟩ | ⟨⟨err, herr⟩, -⟩
  swap
  · exact absurd (herr.symm.trans hok) (by simp)
  have hset' : ({ r.setWf wf w with log := (r.setWf wf w).log ++ [.plan wf p] } :
      EngineRuntime).workflows.lookup wf = some w := hset
  obtain ⟨n, ext, -, hstate⟩ := publishState_eq env .running hset'
  rw [heq, andThen_ok_snd, hp, hstate]
  refine ⟨{ w with stateRev := n }, by simp, ?_, rfl, rfl, ?_, rfl, rfl⟩
  · rw [hw, EngineRuntime.planned, hkey]
  · intro node q hq
    have hq : (EngineState.recover env.journalFails r.journal
        (PlanGraph.fromCandidate wf 1 cand)).nodes.lookup node = some q := by
      rw [hw, EngineRuntime.planned, hkey] at hq
      exact hq
    exact recover_fresh hnone hq

theorem PlanAdmitted.installed {r : EngineRuntime} {i : Input} {decision : RoutingDecision}
    {wf : String} {wfr : WfRuntime} {cand : PlanCandidate}
    (h : PlanAdmitted r i decision wf wfr cand) (hr : Coherent r) :
    ValidPlan cand wfr.intent ∧ ∃ wfr', Installed r wf wfr cand (step r i) wfr' := by
  obtain ⟨hres, hplan, hresult, hfresh⟩ := h
  have hkey := (hr.records wf wfr hres.registered).key
  have hnone : ∀ node a, r.journal.attempts.lookup (wf, node, a) = none := by
    intro node a
    cases hrow : r.journal.attempts.lookup (wf, node, a) with
    | none => rfl
    | some row =>
        exact absurd ((hr.journal.workflows wf).mp (hr.journal.attempts _ _ hrow).1) hfresh
  have hstep : step r i = (r.onDecision i.env decision).2 := by simp only [step, hres.call]
  rw [hstep]
  simp only [onDecision, hres.found, hres.registered] at hresult ⊢
  unfold takeDecision at hresult ⊢
  simp only at hresult ⊢
  split at hresult
  · cases hresult
  rename_i hshadow
  rw [if_neg hshadow]
  split at hresult
  · obtain ⟨_, -, heq⟩ := andThen_eq_ok hresult
    rw [heq] at hresult
    cases hresult
  rename_i e hmap
  have hentry := Journal.admitWorkflow_step i.env.journalFails
    (admission decision wfr.intent (verdictOn i.env r wfr decision)) r.journal
  split at hresult
  · cases hresult
  · cases hresult
  · rename_i j heq
    simp only [heq] at hentry
    cases hentry with
    | replay row hrow =>
        refine absurd (Map.mem_iff_lookup.mpr ⟨row, ?_⟩) hfresh
        rw [← hkey]
        exact hrow
  · rename_i j heq
    simp only [heq] at hentry
    obtain ⟨-, -, -, -, hattempts, -⟩ := hentry.admitted_journalOk
      (toS_val wfr.intent.workflowId.noNul) hr.journal
    obtain ⟨hvalid, wfr', hins⟩ := installPlan_installed (r := { r with journal := j }) hkey hplan
      (by simpa only [hattempts] using hnone) hresult
    exact ⟨hvalid, wfr', hins.registered, hins.graph, hins.terminal, hins.failedReason, hins.fresh,
      hins.index, hins.attempts.trans hattempts⟩

/-! ### A workflow on its way -/

/-- The watcher can supply the outputs the node declares: it knows only the
first name. -/
def Suppliable (graph : PlanGraph) (node : String) : Prop :=
  ∀ spec, graph.node node = some spec → ∀ name ∈ spec.outputNames,
    spec.outputNames.head? = some name

/-- The nodes of a workflow that are done. -/
def doneNodes (r : EngineRuntime) (wf : String) : Finset String :=
  ((r.workflows.lookup wf).map fun w => w.state.doneSet).getD ∅

/-- The record follows the plan: it is terminal exactly when every node is
done, and no node is past its first attempt. -/
structure Following (graph : PlanGraph) (wfr : WfRuntime) : Prop where
  graph : wfr.graph = graph
  unfailed : wfr.failedReason = none
  terminal : wfr.terminal = wfr.state.allDone
  active : ∀ node p, wfr.state.nodes.lookup node = some p → p.activeAttempt = 1

structure OnTrack (wf : String) (graph : PlanGraph) (r : EngineRuntime) : Prop where
  orderly : Orderly r
  record : ∃ wfr, r.workflows.lookup wf = some wfr ∧ Following graph wfr
  rows : ∀ node a, (wf, node, a) ∈ r.journal.attempts → a = 1

theorem doneNodes_of_lookup {r : EngineRuntime} {wf : String} {wfr : WfRuntime}
    (h : r.workflows.lookup wf = some wfr) : doneNodes r wf = wfr.state.doneSet := by
  simp [doneNodes, h]

theorem mem_doneNodes {r : EngineRuntime} {wf node : String} {wfr : WfRuntime}
    (h : r.workflows.lookup wf = some wfr) (hmem : node ∈ wfr.state.doneSet) :
    node ∈ doneNodes r wf :=
  doneNodes_of_lookup h ▸ hmem

theorem attemptAt_isSome {j : Journal} {wf node : String} {a : Nat} :
    (attemptAt j wf node a).isSome ↔ (wf, node, a) ∈ j.attempts := by
  rw [attemptAt, Option.isSome_map, Map.mem_iff_lookup, Option.isSome_iff_exists]

theorem Tracks.allDone_iff {graph : PlanGraph} {s : EngineState} (h : Tracks graph s) :
    s.allDone = true ↔ ∀ n ∈ graph.nodes, n.nodeId ∈ s.doneSet := by
  rw [EngineState.allDone_iff]
  constructor
  · intro hall n hn
    obtain ⟨p, hp⟩ := (h.nodes n.nodeId).mpr ⟨n, hn, rfl⟩
    exact mem_doneSet.mpr ⟨p, hp, hall _ p hp⟩
  · intro hall id p hp
    obtain ⟨n, hn, rfl⟩ := (h.nodes id).mp ⟨p, hp⟩
    obtain ⟨q, hq, hdone⟩ := mem_doneSet.mp (hall n hn)
    rw [hp, Option.some.injEq] at hq
    exact hq ▸ hdone

section Track

variable {r₀ r r' : EngineRuntime} {i : Input} {wf : String} {graph : PlanGraph}

theorem OnTrack.following (h : OnTrack wf graph r) {wfr : WfRuntime}
    (hwf : r.workflows.lookup wf = some wfr) : Following graph wfr := by
  obtain ⟨w, hw, hfollow⟩ := h.record
  rw [hwf, Option.some.injEq] at hw
  exact hw ▸ hfollow

/-- An indexed task of the workflow is the first attempt of its node. -/
theorem OnTrack.entry (h : OnTrack wf graph r) {t node : String}
    (ht : r.taskIndex.lookup t = some (wf, node)) :
    t = laya1TaskId wf 1 node 1 ∧ (wf, node, 1) ∈ r.journal.attempts := by
  obtain ⟨a, hrow, heq⟩ := h.orderly.recorded t wf node ht
  obtain rfl := h.rows node a hrow
  exact ⟨heq, hrow⟩

/-- On the way, completion is that every node is done. -/
theorem OnTrack.completed_iff (h : OnTrack wf graph r) (hne : graph.nodes ≠ []) :
    Completed wf r ↔ ∀ n ∈ graph.nodes, n.nodeId ∈ doneNodes r wf := by
  obtain ⟨wfr, hwf, hfollow⟩ := h.record
  rw [doneNodes_of_lookup hwf]
  constructor
  · rintro ⟨w, hw, -, -, -, hall⟩
    rw [hwf, Option.some.injEq] at hw
    rw [← hw, hfollow.graph] at hall
    exact hall
  · intro hall
    have htracks := (h.orderly.coherent.records wf wfr hwf).tracks
    rw [← hfollow.graph] at hall hne
    exact ⟨wfr, hwf, hfollow.terminal.trans (htracks.allDone_iff.mpr hall), hfollow.unfailed, hne,
      hall⟩

/-! What the operations of the engine keep of the record. -/

theorem EngineState.MaterializeStep.active_one {node : String} {microunits : UInt64}
    {s s' : EngineState} {j j' : Journal} {result : Except EngineError String}
    (h : EngineState.MaterializeStep graph node microunits s j result s' j')
    (hnode : ∃ p, s.nodes.lookup node = some p)
    (hs : ∀ id p, s.nodes.lookup id = some p → p.activeAttempt = 1) :
    ∀ id p, s'.nodes.lookup id = some p → p.activeAttempt = 1 := by
  obtain ⟨q, hq⟩ := hnode
  have hstarted : (s.started node).activeAttempt = 1 := by
    have hone := hs node q hq
    simp [EngineState.started, EngineState.progress, hq, hone]
  have hset : ∀ p' : NodeProgress, p'.activeAttempt = 1 →
      ∀ id p, (s.set node p').nodes.lookup id = some p → p.activeAttempt = 1 := by
    intro p' hp' id p hp
    rw [EngineState.lookup_set] at hp
    split at hp
    · injection hp with hp
      exact hp ▸ hp'
    · exact hs id p hp
  cases h with
  | unknown | done | doubtful => exact hs
  | unreserved | consumed | unrecorded | recorded => exact hset _ hstarted

theorem Journal.recordAttempt_known {io : JournalCall → Bool} {j : Journal} {key : AttemptKey}
    (hio : ∀ call, io call = false) (hkey : key ∈ j.attempts) (taskId : String)
    (state : AttemptState) : (j.recordAttempt io key taskId state).1 = .ok () := by
  obtain ⟨row, hrow⟩ := Map.mem_iff_lookup.mp hkey
  simp only [Journal.recordAttempt, hio, hrow, Bool.false_eq_true, if_false]
  split <;> rfl

/-- In a healthy journal that knows the attempt, a result is refused or
recorded as a whole. -/
theorem EngineState.onDone_healthy {io : JournalCall → Bool} {node : String} {attempt : Nat}
    {outputs : List (String × String)} {s s' : EngineState} {j j' : Journal} {e : EngineError}
    (hio : ∀ call, io call = false) (hkey : (graph.workflowId, node, attempt) ∈ j.attempts)
    (h : s.onDone io graph node attempt outputs j = (.error e, s', j')) : s' = s ∧ j' = j := by
  have hrecord := Journal.recordAttempt_known hio hkey
  unfold onDone at h
  split at h
  · cases h
    exact ⟨rfl, rfl⟩
  split at h
  · cases h
    exact ⟨rfl, rfl⟩
  split at h
  · cases h
    exact ⟨rfl, rfl⟩
  split at h
  · cases h
    exact ⟨rfl, rfl⟩
  split at h
  · cases h
    exact ⟨rfl, rfl⟩
  dsimp only at h
  split at h
  · rename_i heq
    have hok := congrArg Prod.fst heq
    rw [hrecord] at hok
    cases hok
  split at h
  · rename_i heq
    simp [Journal.outboxAppend, hio] at heq
  · cases h

theorem outputsValid_iff {node : String} {spec : NodeSpec} (hspec : graph.node node = some spec)
    (outputs : List TaskOutput) :
    outputsValid spec [(nodeOutputName graph node, outputHash outputs)] = true ↔
      Suppliable graph node := by
  have hhash : outputHash outputs ≠ "" := sha256Hex_ne_empty _
  have hname : nodeOutputName graph node = spec.outputNames.head?.getD "out" := by
    simp [nodeOutputName, hspec]
  have hone : ∀ name ∈ spec.outputNames,
      (nodeOutputName graph node = name ↔ spec.outputNames.head? = some name) := by
    intro name hmem
    obtain ⟨first, rest, hlist⟩ := List.exists_cons_of_ne_nil (List.ne_nil_of_mem hmem)
    rw [hname, hlist]
    simp
  have hsupply : Suppliable graph node ↔ ∀ name ∈ spec.outputNames,
      spec.outputNames.head? = some name := by
    constructor
    · exact fun h => h spec hspec
    · intro h spec' hspec'
      rw [hspec, Option.some.injEq] at hspec'
      exact hspec' ▸ h
  rw [hsupply, outputsValid, List.all_eq_true]
  refine forall₂_congr fun name hmem => ?_
  rw [← hone name hmem]
  by_cases heq : nodeOutputName graph node = name
  · simp [heq, hhash]
  · simp [heq]

theorem Due.following {node : String} {wfr : WfRuntime} {state : EngineState} {j : Journal}
    {result : Except EngineError String} (hr : Coherent r) (hdue : Due i r wf node wfr)
    (hmat : wfr.state.materialize i.env.journalFails wfr.graph node r.cfg.perAttemptMicrounits
      r.journal = (result, state, j)) (hfollow : Following graph wfr) :
    state.doneSet = wfr.state.doneSet ∧ Following graph { wfr with state := state } := by
  have hdone := EngineState.materialize_doneSet i.env.journalFails wfr.graph node
    r.cfg.perAttemptMicrounits wfr.state r.journal
  rw [hmat] at hdone
  obtain ⟨hstep, htracks, -⟩ := hdue.materialized hr hmat
  have hall : state.allDone = wfr.state.allDone := by
    rw [Bool.eq_iff_iff, htracks.allDone_iff,
      (hr.records wf wfr hdue.registered).tracks.allDone_iff, hdone]
  refine ⟨hdone, hfollow.graph, hfollow.unfailed, hfollow.terminal.trans hall.symm, ?_⟩
  exact hstep.active_one (hr.tracked hdue.registered hdue.node) hfollow.active

theorem Watched.following {task : Task} {node : String} {wfr : WfRuntime} {state : EngineState}
    {j : Journal} {outputs : List TaskOutput} {ready : List String} (hr : Coherent r)
    (hwatch : Watched i r task wf node wfr)
    (hdone : wfr.state.onDone i.env.journalFails wfr.graph node (watchedAttempt wfr node)
      [(nodeOutputName wfr.graph node, outputHash outputs)] r.journal = (.ok ready, state, j))
    (hfollow : Following graph wfr) :
    Suppliable graph node ∧ state.doneSet = insert node wfr.state.doneSet ∧
      Following graph { wfr with state := state, terminal := state.allDone } := by
  obtain ⟨hstep, -, -⟩ := hwatch.completed hr hdone
  cases hstep with
  | completed spec hspec p hp hundone hattempt hvalid =>
      have hlookup := EngineState.lookup_set wfr.state node
        { p with done := true,
                 outputs := [(nodeOutputName wfr.graph node, outputHash outputs)] }
      refine ⟨hfollow.graph ▸ (outputsValid_iff hspec outputs).mp hvalid, ?_, hfollow.graph,
        hfollow.unfailed, rfl, ?_⟩
      · exact doneSet_set_done _ rfl
      · intro id q hq
        rw [hlookup] at hq
        split at hq
        · injection hq with hq
          rw [← hq]
          exact hfollow.active node p hp
        · exact hfollow.active id q hq

/-! What a tick does for the workflow, move by move. -/

structure Advances (wf : String) (graph : PlanGraph) (r r' : EngineRuntime) : Prop where
  track : OnTrack wf graph r'
  done : doneNodes r wf ⊆ doneNodes r' wf
  supplied : ∀ n ∈ doneNodes r' wf, n ∈ doneNodes r wf ∨ Suppliable graph n
  index : ∀ t node, r.taskIndex.lookup t = some (wf, node) →
    r'.taskIndex.lookup t = some (wf, node)

theorem Advances.refl (h : OnTrack wf graph r) : Advances wf graph r r :=
  ⟨h, Finset.Subset.refl _, fun _ h => .inl h, fun _ _ h => h⟩

theorem Advances.trans {r'' : EngineRuntime} (h : Advances wf graph r r')
    (h' : Advances wf graph r' r'') : Advances wf graph r r'' := by
  refine ⟨h'.track, h.done.trans h'.done, fun n hn => ?_,
    fun t node ht => h'.index t node (h.index t node ht)⟩
  rcases h'.supplied n hn with hold | hnew
  · exact h.supplied n hold
  · exact .inr hnew

theorem OnTrack.operates (h : OnTrack wf graph r) (hr' : Orderly r') {wf' node : String}
    {wfr wfr' : WfRuntime} {p p' : NodeProgress} (hops : Operates r r' wf' node wfr wfr' p p')
    (hfollow : wf' = wf → Following graph wfr') : OnTrack wf graph r' := by
  refine ⟨hr', ?_, ?_⟩
  · by_cases hwf : wf = wf'
    · subst hwf
      exact ⟨wfr', by rw [hops.records, if_pos rfl], hfollow rfl⟩
    · obtain ⟨w, hw, hw'⟩ := h.record
      exact ⟨w, by rw [hops.records, if_neg hwf, hw], hw'⟩
  · intro n a hrow
    rw [← attemptAt_isSome] at hrow
    by_cases hne : wf ≠ wf' ∨ n ≠ node
    · rw [hops.attemptAt_other hne, attemptAt_isSome] at hrow
      exact h.rows n a hrow
    obtain ⟨rfl, rfl⟩ : wf = wf' ∧ n = node := by simpa [not_or] using hne
    -- Only the row of the active attempt can be new.
    have hwritten : ∀ {state : AttemptState},
        RowWritten wf n state (viewOf r wfr p) (viewOf r' wfr' p') → a = 1 := by
      intro state hw
      by_cases ha : a = p.activeAttempt
      · rw [ha]
        exact (h.following hops.registered).active n p hops.tracked
      · have hold : attemptAt r'.journal wf n a = attemptAt r.journal wf n a := hw.other ha
        rw [hold, attemptAt_isSome] at hrow
        exact h.rows n a hrow
    cases hops.acts.effect with
    | kept hrows =>
        have hold : attemptAt r'.journal wf n a = attemptAt r.journal wf n a := hrows a
        rw [hold, attemptAt_isSome] at hrow
        exact h.rows n a hrow
    | recorded hw => exact hwritten hw
    | finished _ hw => exact hwritten hw
    | retried _ hw => exact hwritten hw
    | closed _ hw => exact hwritten hw

theorem Operates.doneNodes_other {wf' node : String} {wfr wfr' : WfRuntime}
    {p p' : NodeProgress} (hops : Operates r r' wf' node wfr wfr' p p') (hne : wf' ≠ wf) :
    doneNodes r' wf = doneNodes r wf := by
  rw [doneNodes, hops.records, if_neg (Ne.symm hne), doneNodes]

/-- An operation on another workflow. -/
theorem OnTrack.operates_other (h : OnTrack wf graph r) (hr' : Orderly r') {wf' node : String}
    {wfr wfr' : WfRuntime} (hops : ∃ p p', Operates r r' wf' node wfr wfr' p p') (hne : wf' ≠ wf)
    (hindex : ∀ t n, r.taskIndex.lookup t = some (wf, n) →
      r'.taskIndex.lookup t = some (wf, n)) : Advances wf graph r r' := by
  obtain ⟨p, p', hops⟩ := hops
  have hsame := hops.doneNodes_other hne
  exact ⟨h.operates hr' hops fun heq => absurd heq hne, by rw [hsame],
    fun n hn => .inl (hsame ▸ hn),
    hindex⟩

/-- An operation on this workflow after which the record still follows its
plan. -/
theorem OnTrack.operates_own (h : OnTrack wf graph r) (hr' : Orderly r') {node : String}
    {wfr wfr' : WfRuntime} (hops : ∃ p p', Operates r r' wf node wfr wfr' p p')
    (hfollow : Following graph wfr') (hdone : wfr'.state.doneSet = wfr.state.doneSet ∨
      wfr'.state.doneSet = insert node wfr.state.doneSet ∧ Suppliable graph node)
    (hindex : ∀ t n, r.taskIndex.lookup t = some (wf, n) →
      r'.taskIndex.lookup t = some (wf, n)) : Advances wf graph r r' := by
  obtain ⟨p, p', hops⟩ := hops
  have hold := doneNodes_of_lookup hops.registered
  have hnew : doneNodes r' wf = wfr'.state.doneSet :=
    doneNodes_of_lookup (by rw [hops.records, if_pos rfl])
  refine ⟨h.operates hr' hops fun _ => hfollow, ?_, ?_, hindex⟩
  · rw [hold, hnew]
    rcases hdone with heq | ⟨heq, -⟩
    · rw [heq]
    · rw [heq]
      exact Finset.subset_insert _ _
  · intro n hn
    rw [hnew] at hn
    rw [hold]
    rcases hdone with heq | ⟨heq, hsupply⟩
    · exact .inl (heq ▸ hn)
    · rw [heq] at hn
      rcases Finset.mem_insert.mp hn with rfl | hn
      · exact .inr hsupply
      · exact .inl hn

theorem OnTrack.watchedAttempt (h : OnTrack wf graph r) {node : String} {wfr : WfRuntime}
    (hwf : r.workflows.lookup wf = some wfr)
    (hnode : ∃ spec ∈ wfr.graph.nodes, spec.nodeId = node) : watchedAttempt wfr node = 1 := by
  obtain ⟨p, hp⟩ := h.orderly.coherent.tracked hwf hnode
  simp [WorkflowEngine.watchedAttempt, hp, (h.following hwf).active node p hp]

/-- A tick of a healthy journal, in which no task of the workflow fails. -/
structure Steady (i : Input) : Prop where
  tick : i.call = .tickScheduler ∨ i.call = .tickWatchTasks
  journal : ∀ call, i.env.journalFails call = false

theorem Steady.not_call {i : Input} (h : Steady i) {c : Call} (hcall : i.call = c)
    (hs : c ≠ .tickScheduler) (hw : c ≠ .tickWatchTasks) : False := by
  rcases h.tick with h | h
  · exact hs (hcall.symm.trans h)
  · exact hw (hcall.symm.trans h)

theorem OnTrack.move (h : OnTrack wf graph r) (hi : Steady i)
    (hunfailed : ∀ task node wfr, Watched i r task wf node wfr → task.status ≠ tsFailed)
    (hmove : Move r₀ i r r') : Advances wf graph r r' := by
  have hr' := h.orderly.move hmove
  have hr := h.orderly.coherent
  cases hmove with
  | submitted _ hcall | cancelled _ _ hcall | rehydrated _ _ _ hcall | restarted _ hcall =>
      exact (hi.not_call hcall (by simp) (by simp)).elim
  | observed _ _ _ hres | refused _ _ _ _ hres =>
      exact (hi.not_call hres.call (by simp) (by simp)).elim
  | admitted _ _ _ _ hres | planned _ _ _ _ hres =>
      exact (hi.not_call hres.call (by simp) (by simp)).elim
  | unswept _ hover | sweptUnindexed _ hover | swept _ hover | doubted _ hover =>
      exact (hi.not_call hover.call (by simp) (by simp)).elim
  | held wf' node wfr hdue result state j hmat =>
      by_cases hwf : wf' = wf
      · subst hwf
        obtain ⟨hdone, hfollow⟩ := hdue.following hr hmat (h.following hdue.registered)
        exact h.operates_own hr' (hdue.operates hr hmat (lookup_setWf _ _ _)
          (fun _ _ h => .inl h) hdue.live) hfollow (.inl hdone) fun _ _ h => h
      · exact h.operates_other hr' (hdue.operates hr hmat (lookup_setWf _ _ _)
          (fun _ _ h => .inl h) hdue.live) hwf fun _ _ h => h
  | dispatched wf' node wfr hdue taskId state j hmat hfree n ext =>
      have hindex : ∀ t n, r.taskIndex.lookup t = some (wf, n) →
          (r.taskIndex.insert taskId (wf', node)).lookup t = some (wf, n) := by
        intro t n ht
        refine Map.lookup_insert_eq_some.mpr (.inr ⟨?_, ht⟩)
        rintro rfl
        rw [hfree] at ht
        cases ht
      by_cases hwf : wf' = wf
      · subst hwf
        obtain ⟨hdone, hfollow⟩ := hdue.following hr hmat (h.following hdue.registered)
        exact h.operates_own hr' (hdue.operates_dispatched hr hmat (lookup_record r wf' _ ext) rfl
          hdue.live) ⟨hfollow.graph, hfollow.unfailed, hfollow.terminal, hfollow.active⟩
          (.inl hdone) hindex
      · exact h.operates_other hr' (hdue.operates_dispatched hr hmat (lookup_record r wf' _ ext)
          rfl hdue.live) hwf hindex
  | incomplete task wf' node wfr hwatch hstatus outputs e state j hdone =>
      by_cases hwf : wf' = wf
      · subst hwf
        have hattempt := h.watchedAttempt hwatch.registered (hwatch.node hr)
        obtain ⟨rfl, rfl⟩ := EngineState.onDone_healthy hi.journal (by
          rw [(hr.records wf' wfr hwatch.registered).graph, hattempt]
          exact (h.entry hwatch.indexed).2) hdone
        exact h.operates_own hr' (hwatch.operates_done hr hdone (lookup_setWf _ _ _) rfl)
          (h.following hwatch.registered) (.inl rfl) fun _ _ h => h
      · exact h.operates_other hr' (hwatch.operates_done hr hdone (lookup_setWf _ _ _) rfl) hwf
          fun _ _ h => h
  | completed task wf' node wfr hwatch hstatus outputs ready state j hdone n ext =>
      by_cases hwf : wf' = wf
      · subst hwf
        obtain ⟨hsupply, hset, hfollow⟩ := hwatch.following hr hdone
          (h.following hwatch.registered)
        exact h.operates_own hr' (hwatch.operates_done hr hdone (lookup_record r wf' _ ext) rfl)
          ⟨hfollow.graph, hfollow.unfailed, hfollow.terminal, hfollow.active⟩
          (.inr ⟨hset, hsupply⟩) fun _ _ h => h
      · exact h.operates_other hr'
          (hwatch.operates_done hr hdone (lookup_record r wf' _ ext) rfl) hwf fun _ _ h => h
  | unfailed task wf' node wfr hwatch hstatus e state j hfail =>
      refine h.operates_other hr' (hwatch.operates_failed hr hfail (lookup_setWf _ _ _)
        (fun _ _ h => h) (by simp) fun _ => hi.journal _) ?_ fun _ _ h => h
      rintro rfl
      exact hunfailed task node wfr hwatch hstatus
  | retried task wf' node wfr hwatch hstatus next state j hfail n ext =>
      have hne : wf' ≠ wf := by
        rintro rfl
        exact hunfailed task node wfr hwatch hstatus
      refine h.operates_other hr' (hwatch.operates_failed hr hfail (lookup_record r wf' _ ext)
        (fun _ _ => Map.lookup_of_lookup_erase) (by simp) fun _ => hi.journal _) hne
        fun t n ht => ?_
      rw [Map.lookup_erase_if, if_neg]
      · exact ht
      · rintro rfl
        rw [hwatch.indexed, Option.some.injEq, Prod.mk.injEq] at ht
        exact hne ht.1
  | exhausted task wf' node wfr hwatch hstatus state j hfail n ext =>
      refine h.operates_other hr' (hwatch.operates_failed hr hfail (lookup_record r wf' _ ext)
        (fun _ _ h => h) (fun _ => rfl) fun _ => hi.journal _) ?_ fun _ _ h => h
      rintro rfl
      exact hunfailed task node wfr hwatch hstatus

end Track

end DdsOrchestrator.WorkflowEngine
