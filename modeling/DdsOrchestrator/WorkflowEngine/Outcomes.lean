import Mathlib.Order.Interval.Finset.Nat
import DdsOrchestrator.WorkflowEngine.Progress

/-!
Which attempt the watcher credits an outcome to. The watcher reads the attempt
off the node and not off the task, so a result goes to the attempt that
produced it only as long as the task index knows no task but that of the active
attempt. A retry that cannot announce itself in the outbox breaks this: the
attempt has moved on and its failed task stays indexed.

The outcomes of a run are the results that the watcher handed to the engine,
each with the attempt it was handed for.
-/

namespace DdsOrchestrator.WorkflowEngine

open Loop EngineRuntime Machine EngineState

/-! ### Outcomes -/

structure Outcome where
  taskId : String
  workflowId : String
  node : String
  attempt : Nat
  failed : Bool
  deriving DecidableEq

/-- What the watcher makes of one visible task. -/
def outcome (task : Task) (r : EngineRuntime) : Option Outcome :=
  match r.taskIndex.lookup task.taskId with
  | none => none
  | some (wf, node) =>
      match r.workflows.lookup wf with
      | none => none
      | some wfr =>
          if wfr.terminal then none
          else if task.status = tsDone then
            some ⟨task.taskId, wf, node, watchedAttempt wfr node, false⟩
          else if task.status = tsFailed then
            some ⟨task.taskId, wf, node, watchedAttempt wfr node, true⟩
          else none

/-- The outcomes of one call. -/
def outcomesOf (r : EngineRuntime) (i : Input) : List Outcome :=
  match i.call, i.env.allTasks with
  | .tickWatchTasks, .ok tasks => traceEach outcome (watchTask i.env) tasks r
  | _, _ => []

/-- The outcomes of a run. -/
def outcomes (cfg : RuntimeConfig) (inputs : List Input) : List Outcome :=
  trace step outcomesOf (initial cfg) inputs

/-- The FAILED tasks seen for a node. -/
def failedTasks (seen : List Outcome) (wf node : String) : Finset String :=
  ((seen.filter fun o => o.failed ∧ o.workflowId = wf ∧ o.node = node).map (·.taskId)).toFinset

theorem mem_failedTasks {seen : List Outcome} {wf node taskId : String} :
    taskId ∈ failedTasks seen wf node ↔
      ∃ o ∈ seen, o.failed = true ∧ o.workflowId = wf ∧ o.node = node ∧ o.taskId = taskId := by
  simp [failedTasks, and_assoc]

/-- Every outcome went to the attempt whose id its task carries, a task counted
for one attempt only, and no node advanced further than its failed tasks. -/
structure OutcomesOwned (cfg : RuntimeConfig) (inputs : List Input) : Prop where
  own : ∀ o ∈ outcomes cfg inputs, o.taskId = laya1TaskId o.workflowId 1 o.node o.attempt
  once : ∀ o ∈ outcomes cfg inputs, ∀ o' ∈ outcomes cfg inputs, o.taskId = o'.taskId →
    (o.workflowId, o.node, o.attempt) = (o'.workflowId, o'.node, o'.attempt)
  counted : ∀ wf wfr node p, (run cfg inputs).workflows.lookup wf = some wfr →
    wfr.state.nodes.lookup node = some p →
    p.activeAttempt ≤ 1 + (failedTasks (outcomes cfg inputs) wf node).card

/-- The failure of this node opens another attempt. -/
def Retriable (wfr : WfRuntime) (node : String) : Prop :=
  wfr.failover = true ∧ node ∉ wfr.state.doneSet ∧
    ∃ spec, wfr.graph.node node = some spec ∧ watchedAttempt wfr node < spec.maxAttempts

/-- Every retry of the call that is recorded is also announced. -/
def RetriesAnnounced (r : EngineRuntime) (i : Input) : Prop :=
  ∀ task wf node wfr, Watched i r task wf node wfr → task.status = tsFailed →
    Retriable wfr node →
    i.env.journalFails (.recordAttempt (wf, node, watchedAttempt wfr node) .failed) = false →
    i.env.journalFails (.outboxAppend wf "publish_state"
      (retryStatePayload node (watchedAttempt wfr node + 1))) = false

/-! ### What an operation does to the active attempt -/

/-- One node is worked on, and only its active attempt may gain a row. -/
structure AtActive (s s' : EngineState) (j j' : Journal) (wf node : String)
    (p p' : NodeProgress) : Prop where
  state : ∀ id, s'.nodes.lookup id = if id = node then some p' else s.nodes.lookup id
  grow : RowsGrow j j'
  rows : ∀ key ∈ j'.attempts, key ∈ j.attempts ∨ key = (wf, node, p.activeAttempt)
  undone : p'.done = false → p.done = false

section Operations

variable {io : JournalCall → Bool} {graph : PlanGraph} {node : String} {s s' : EngineState}
  {j j' : Journal} {p : NodeProgress}

theorem Journal.RecordStep.rows_new {key : AttemptKey} {taskId : String} {state : AttemptState}
    {result : Except JournalError Unit} (h : Journal.RecordStep key taskId state j result j') :
    ∀ k ∈ j'.attempts, k ∈ j.attempts ∨ k = key := by
  cases h with
  | failed | ignored => exact fun _ hk => .inl hk
  | written => exact fun k hk => (AList.mem_insert _).mp hk |>.symm

/-- A recorded attempt has a row. -/
theorem Journal.RecordStep.mem {key : AttemptKey} {taskId : String} {state : AttemptState}
    (h : Journal.RecordStep key taskId state j (.ok ()) j') : key ∈ j'.attempts := by
  cases h with
  | ignored row hrow => exact Map.mem_iff_lookup.mpr ⟨row, hrow⟩
  | written => simp

theorem AtActive.same (hp : s.nodes.lookup node = some p) (hrows : j'.attempts = j.attempts) :
    AtActive s s j j' graph.workflowId node p p :=
  ⟨lookup_of_same hp, .of_eq hrows, fun _ hkey => .inl (hrows ▸ hkey), id⟩

theorem EngineState.MaterializeStep.atActive {microunits : UInt64}
    {result : Except EngineError String}
    (h : EngineState.MaterializeStep graph node microunits s j result s' j')
    (hp : s.nodes.lookup node = some p) (hpos : 1 ≤ p.activeAttempt) :
    ∃ p', AtActive s s' j j' graph.workflowId node p p' ∧
      p'.activeAttempt = p.activeAttempt := by
  have hprogress : s.progress node = p := by simp [progress, hp]
  have hstarted : (s.started node).activeAttempt = p.activeAttempt := by
    rw [started, hprogress]
    exact max_eq_left hpos
  have hundone : (s.started node).done = false → p.done = false := by
    rw [started, hprogress]
    exact id
  have hset := EngineState.lookup_set s node
  cases h with
  | unknown | done | doubtful => exact ⟨p, .same hp rfl, rfl⟩
  | unreserved => exact ⟨_, ⟨hset _, .of_eq rfl, fun _ hkey => .inl hkey, hundone⟩, hstarted⟩
  | consumed => exact ⟨_, ⟨hset _, .of_eq rfl, fun _ hkey => .inl hkey, hundone⟩, hstarted⟩
  | unrecorded _ _ _ _ j₁ hreserve =>
      obtain ⟨_, -, hreserve⟩ := hreserve
      exact ⟨_, ⟨hset _, .of_eq hreserve.attempts_eq,
        fun _ hkey => .inl (hreserve.attempts_eq ▸ hkey), hundone⟩, hstarted⟩
  | recorded _ _ _ _ j₁ j₂ hreserve hrecord rows =>
      obtain ⟨_, -, hreserve⟩ := hreserve
      refine ⟨_, ⟨hset _, ?_, ?_, hundone⟩, hstarted⟩
      · exact fun key hkey => hrecord.rowsGrow key (hreserve.attempts_eq ▸ hkey)
      · intro key hkey
        rw [← hstarted, ← hreserve.attempts_eq]
        exact hrecord.rows_new key hkey

theorem EngineState.DoneStep.atActive {attempt : Nat} {outputs : List (String × String)}
    {result : Except EngineError (List String)}
    (h : EngineState.DoneStep io graph node attempt outputs s j result s' j')
    (hp : s.nodes.lookup node = some p) :
    ∃ p', AtActive s s' j j' graph.workflowId node p p' ∧
      p'.activeAttempt = p.activeAttempt := by
  have hgrow := h.rowsGrow
  have hset := EngineState.lookup_set s node
  have hsame : ∀ {q : NodeProgress}, s.nodes.lookup node = some q → q = p := by
    intro q hq
    exact Option.some.inj (hq.symm.trans hp)
  cases h with
  | refused => exact ⟨p, .same hp rfl, rfl⟩
  | unrecorded _ _ q hq =>
      obtain rfl := hsame hq
      exact ⟨_, ⟨hset _, hgrow, fun _ hkey => .inl hkey, by simp⟩, rfl⟩
  | unsent _ _ q hq _ hattempt _ j₁ hrecord =>
      obtain rfl := hsame hq
      subst hattempt
      exact ⟨_, ⟨hset _, hgrow, hrecord.rows_new, by simp⟩, rfl⟩
  | completed _ _ q hq _ hattempt _ j₁ hrecord =>
      obtain rfl := hsame hq
      subst hattempt
      refine ⟨_, ⟨hset _, hgrow, fun key hkey => hrecord.rows_new key ?_, by simp⟩, rfl⟩
      rw [Journal.releaseReservation_attempts] at hkey
      exact hkey

/-- A failure leaves the attempt, or opens the next one once the failed one has
its row. -/
theorem EngineState.FailStep.atActive {attempt : Nat} {failover : Bool}
    {result : Except EngineError (Option Nat)}
    (h : EngineState.FailStep io graph node attempt failover s j result s' j')
    (hp : s.nodes.lookup node = some p) :
    ∃ p', AtActive s s' j j' graph.workflowId node p p' ∧
      (p'.activeAttempt = p.activeAttempt ∨
        result ≠ .ok none ∧ p'.activeAttempt = p.activeAttempt + 1 ∧
          (graph.workflowId, node, p.activeAttempt) ∈ j'.attempts) := by
  have hgrow := h.rowsGrow
  have hset := EngineState.lookup_set s node
  have hsame : ∀ {q : NodeProgress}, s.nodes.lookup node = some q → q = p := by
    intro q hq
    exact Option.some.inj (hq.symm.trans hp)
  have hreleased := Journal.releaseReservation_attempts io
    (reservationKey graph.workflowId node attempt) none j
  cases h with
  | refused => exact ⟨p, .same hp rfl, .inl rfl⟩
  | unrecorded => exact ⟨p, .same hp hreleased, .inl rfl⟩
  | retried _ _ q hq _ hattempt j₂ hrecord _ rows _ hresult =>
      obtain rfl := hsame hq
      subst hattempt
      refine ⟨_, ⟨hset _, hgrow, fun key hkey => ?_, id⟩, .inr ⟨?_, rfl, hrecord.mem⟩⟩
      · rw [← hreleased]
        exact hrecord.rows_new key hkey
      · rintro rfl
        rcases hresult with h | ⟨e, h⟩ <;> cases h
  | closed _ _ q hq _ hattempt _ hrecord =>
      obtain rfl := hsame hq
      subst hattempt
      refine ⟨_, ⟨hset _, hgrow, fun key hkey => ?_, id⟩, .inl rfl⟩
      rw [← hreleased]
      exact hrecord.rows_new key hkey

/-- A failure that cannot be processed changes the state only where a retry was
recorded and could not be announced. -/
theorem EngineState.onFailed_error {attempt : Nat} {failover : Bool} {e : EngineError}
    (h : s.onFailed io graph node attempt failover j = (.error e, s', j'))
    (hannounced : ∀ q spec, s.nodes.lookup node = some q → q.done = false →
      graph.node node = some spec → failover = true → attempt < spec.maxAttempts →
      io (.recordAttempt (graph.workflowId, node, attempt) .failed) = false →
      io (.outboxAppend graph.workflowId "publish_state"
        (retryStatePayload node (attempt + 1))) = false) : s' = s := by
  unfold onFailed at h
  split at h
  · cases h
    rfl
  rename_i spec hspec
  split at h
  · cases h
    rfl
  rename_i q hq
  split at h
  · cases h
    rfl
  rename_i hdone
  split at h
  · cases h
    rfl
  dsimp only at h
  split at h
  · cases h
    rfl
  rename_i j₂ hrecord
  have hio : io (.recordAttempt (graph.workflowId, node, attempt) .failed) = false := by
    by_contra hio
    rw [Journal.recordAttempt, if_pos (by simpa using hio)] at hrecord
    cases hrecord
  split at h
  · rename_i hretry
    have happend := hannounced q spec hq (by simpa using hdone) hspec hretry.1 hretry.2 hio
    simp [Journal.outboxAppend, happend] at h
  · cases h

end Operations

/-! ### The account of a run -/

/-- Every attempt before this one has its row, and its failure was seen. -/
def Earned (seen : List Outcome) (j : Journal) (wf node : String) (attempt : Nat) : Prop :=
  ∀ b, 1 ≤ b → b < attempt →
    (wf, node, b) ∈ j.attempts ∧ laya1TaskId wf 1 node b ∈ failedTasks seen wf node

/-- The index knows only the tasks of active attempts. -/
def IndexActive (r : EngineRuntime) : Prop :=
  ∀ t wf node wfr p, r.taskIndex.lookup t = some (wf, node) → r.workflows.lookup wf = some wfr →
    wfr.state.nodes.lookup node = some p →
    t = laya1TaskId wf 1 node p.activeAttempt ∧ (wf, node, p.activeAttempt) ∈ r.journal.attempts

structure Accounted (seen : List Outcome) (r : EngineRuntime) : Prop where
  coherent : Coherent r
  index : IndexActive r
  own : ∀ o ∈ seen, o.taskId = laya1TaskId o.workflowId 1 o.node o.attempt ∧
    (o.workflowId, o.node, o.attempt) ∈ r.journal.attempts
  rows : ∀ wf node a, (wf, node, a) ∈ r.journal.attempts → Earned seen r.journal wf node a
  active : ∀ wf wfr node p, r.workflows.lookup wf = some wfr →
    wfr.state.nodes.lookup node = some p → Earned seen r.journal wf node p.activeAttempt

section Account

variable {r₀ r r' : EngineRuntime} {i : Input} {seen : List Outcome} {j j' : Journal}
  {wf node : String}

theorem Earned.mono {a : Nat} (h : Earned seen j wf node a) (hrows : RowsGrow j j') :
    Earned seen j' wf node a :=
  fun b hpos hlt => ⟨hrows _ (h b hpos hlt).1, (h b hpos hlt).2⟩

theorem Earned.first : Earned seen j wf node 1 := fun b hpos hlt => by omega

theorem Earned.of_subset {seen' : List Outcome} {a : Nat} (h : Earned seen j wf node a)
    (hsub : ∀ o ∈ seen, o ∈ seen') : Earned seen' j wf node a := by
  intro b hpos hlt
  obtain ⟨hrow, hfailed⟩ := h b hpos hlt
  obtain ⟨o, ho, hrest⟩ := mem_failedTasks.mp hfailed
  exact ⟨hrow, mem_failedTasks.mpr ⟨o, hsub o ho, hrest⟩⟩

/-- The failure of the active attempt earns the next one. -/
theorem Earned.next {a : Nat} (h : Earned seen j wf node a) (hrow : (wf, node, a) ∈ j.attempts)
    (hfailed : laya1TaskId wf 1 node a ∈ failedTasks seen wf node) :
    Earned seen j wf node (a + 1) := by
  intro b hpos hlt
  rcases Nat.lt_succ_iff_lt_or_eq.mp hlt with hb | rfl
  · exact h b hpos hb
  · exact ⟨hrow, hfailed⟩

/-- The node's counter is bounded by the failures that were seen. -/
theorem Earned.le_card {a : Nat} (h : Earned seen j wf node a) (hj : JournalOk j) :
    a ≤ 1 + (failedTasks seen wf node).card := by
  have hinj : Set.InjOn (laya1TaskId wf 1 node) (Finset.Ico 1 a) := by
    intro b hb c hc heq
    rw [Finset.coe_Ico, Set.mem_Ico] at hb hc
    obtain ⟨row, hrow⟩ := Map.mem_iff_lookup.mp (h b hb.1 hb.2).1
    obtain ⟨row', hrow'⟩ := Map.mem_iff_lookup.mp (h c hc.1 hc.2).1
    have hid := (hj.attempts _ _ hrow).2
    have hid' := (hj.attempts _ _ hrow').2
    have hkey := hj.unique _ _ row row' hrow hrow' (hid.trans (heq.trans hid'.symm))
    exact congrArg (fun key => key.2.2) hkey
  have hsub : (Finset.Ico 1 a).image (laya1TaskId wf 1 node) ⊆ failedTasks seen wf node := by
    intro t ht
    obtain ⟨b, hb, rfl⟩ := Finset.mem_image.mp ht
    rw [Finset.mem_Ico] at hb
    exact (h b hb.1 hb.2).2
  have hle := Finset.card_le_card hsub
  rw [Finset.card_image_of_injOn hinj, Nat.card_Ico] at hle
  omega

/-- An operation on one node: its attempt stays, or nothing of it is indexed
any more. -/
theorem Accounted.operated (h : Accounted seen r) (hr' : Coherent r') {wfr wfr' : WfRuntime}
    {p p' : NodeProgress} (hwf : r.workflows.lookup wf = some wfr)
    (hp : wfr.state.nodes.lookup node = some p)
    (hrecords : ∀ id, r'.workflows.lookup id =
      if id = wf then some wfr' else r.workflows.lookup id)
    (hat : AtActive wfr.state wfr'.state r.journal r'.journal wf node p p')
    (hearned : Earned seen r'.journal wf node p'.activeAttempt)
    (hindex : ∀ t e, r'.taskIndex.lookup t = some e → r.taskIndex.lookup t = some e ∨
      e = (wf, node) ∧ t = laya1TaskId wf 1 node p'.activeAttempt ∧
        (wf, node, p'.activeAttempt) ∈ r'.journal.attempts)
    (hmoved : p'.activeAttempt = p.activeAttempt ∨
      ∀ t, r'.taskIndex.lookup t ≠ some (wf, node)) : Accounted seen r' := by
  -- The progress of a node after the operation, read off the state before it.
  have hbefore : ∀ wf' w node' q, r'.workflows.lookup wf' = some w →
      w.state.nodes.lookup node' = some q →
      (wf' = wf ∧ node' = node ∧ q = p') ∨ (wf', node') ≠ (wf, node) ∧
        ∃ old, r.workflows.lookup wf' = some old ∧ old.state.nodes.lookup node' = some q := by
    intro wf' w node' q hw hq
    rw [hrecords] at hw
    split at hw
    · rename_i heq
      injection hw with hw
      subst heq hw
      rw [hat.state] at hq
      split at hq
      · rename_i heq
        injection hq with hq
        exact .inl ⟨rfl, heq, hq.symm⟩
      · rename_i hne
        exact .inr ⟨by simp [hne], wfr, hwf, hq⟩
    · rename_i hne
      exact .inr ⟨by simp [hne], w, hw, hq⟩
  refine ⟨hr', ?_, ?_, ?_, ?_⟩
  · intro t wf' node' w q ht hw hq
    rcases hbefore wf' w node' q hw hq with ⟨rfl, rfl, rfl⟩ | ⟨hne, old, hold, hq'⟩
    · rcases hindex t _ ht with hold | ⟨-, hid, hrow⟩
      · rcases hmoved with hsame | hnone
        · obtain ⟨hid, hrow⟩ := h.index t wf' node' wfr p hold hwf hp
          rw [hsame]
          exact ⟨hid, hat.grow _ hrow⟩
        · exact absurd ht (hnone t)
      · exact ⟨hid, hrow⟩
    · have hentry := (hindex t _ ht).resolve_right fun hnew => hne hnew.1
      obtain ⟨hid, hrow⟩ := h.index t wf' node' old q hentry hold hq'
      exact ⟨hid, hat.grow _ hrow⟩
  · intro o ho
    exact ⟨(h.own o ho).1, hat.grow _ (h.own o ho).2⟩
  · intro wf' node' a hrow
    rcases hat.rows _ hrow with hold | heq
    · exact (h.rows wf' node' a hold).mono hat.grow
    · obtain ⟨rfl, rfl, rfl⟩ : wf' = wf ∧ node' = node ∧ a = p.activeAttempt := by
        simpa using heq
      exact (h.active wf' wfr node' p hwf hp).mono hat.grow
  · intro wf' w node' q hw hq
    rcases hbefore wf' w node' q hw hq with ⟨rfl, rfl, rfl⟩ | ⟨-, old, hold, hq'⟩
    · exact hearned
    · exact (h.active wf' old node' q hold hq').mono hat.grow

/-- The records after a change that leaves the attempts alone: each keeps its
state, or is new, has nothing indexed and starts from earned attempts. -/
def StatesKept (seen : List Outcome) (r : EngineRuntime) (workflows : Map String WfRuntime) :
    Prop :=
  ∀ wf wfr', workflows.lookup wf = some wfr' →
    (∃ wfr, r.workflows.lookup wf = some wfr ∧ wfr'.state = wfr.state) ∨
      (∀ t node, r.taskIndex.lookup t ≠ some (wf, node)) ∧
        ∀ node p, wfr'.state.nodes.lookup node = some p →
          Earned seen r.journal wf node p.activeAttempt

theorem StatesKept.refl : StatesKept seen r r.workflows := fun _ wfr' hwf => .inl ⟨wfr', hwf, rfl⟩

section Set

variable {wfr' : WfRuntime} {workflows : Map String WfRuntime}
  (hrecords : ∀ id, workflows.lookup id = if id = wf then some wfr' else r.workflows.lookup id)

include hrecords

theorem StatesKept.set {wfr : WfRuntime} (hwf : r.workflows.lookup wf = some wfr)
    (hstate : wfr'.state = wfr.state) : StatesKept seen r workflows := by
  intro id w' hw'
  rw [hrecords] at hw'
  split at hw'
  · rename_i heq
    injection hw' with hw'
    subst heq hw'
    exact .inl ⟨wfr, hwf, hstate⟩
  · exact .inl ⟨w', hw', rfl⟩

theorem StatesKept.new (hnone : ∀ t node, r.taskIndex.lookup t ≠ some (wf, node))
    (hearned : ∀ node p, wfr'.state.nodes.lookup node = some p →
      Earned seen r.journal wf node p.activeAttempt) : StatesKept seen r workflows := by
  intro id w' hw'
  rw [hrecords] at hw'
  split at hw'
  · rename_i heq
    injection hw' with hw'
    subst heq hw'
    exact .inr ⟨hnone, hearned⟩
  · exact .inl ⟨w', hw', rfl⟩

end Set

theorem Accounted.unmoved (h : Accounted seen r) (hr' : Coherent r')
    (hrows : ∀ key, key ∈ r'.journal.attempts ↔ key ∈ r.journal.attempts)
    (hindex : ∀ t e, r'.taskIndex.lookup t = some e → r.taskIndex.lookup t = some e)
    (hrecords : StatesKept seen r r'.workflows) : Accounted seen r' := by
  have hgrow : RowsGrow r.journal r'.journal := fun key hkey => (hrows key).mpr hkey
  refine ⟨hr', ?_, ?_, ?_, ?_⟩
  · intro t wf node w q ht hw hq
    rcases hrecords wf w hw with ⟨old, hold, hstate⟩ | ⟨hnone, -⟩
    · rw [hstate] at hq
      obtain ⟨hid, hrow⟩ := h.index t wf node old q (hindex t _ ht) hold hq
      exact ⟨hid, hgrow _ hrow⟩
    · exact absurd (hindex t _ ht) (hnone t node)
  · intro o ho
    exact ⟨(h.own o ho).1, hgrow _ (h.own o ho).2⟩
  · intro wf node a hrow
    exact (h.rows wf node a ((hrows _).mp hrow)).mono hgrow
  · intro wf w node q hw hq
    rcases hrecords wf w hw with ⟨old, hold, hstate⟩ | ⟨-, hearned⟩
    · rw [hstate] at hq
      exact (h.active wf old node q hold hq).mono hgrow
    · exact (hearned node q hq).mono hgrow

/-- Recovery takes up an attempt that the journal has, or the first. -/
theorem Accounted.recovered (h : Accounted seen r) {io : JournalCall → Bool}
    (hrows : ∀ key, key ∈ j.attempts ↔ key ∈ r.journal.attempts) {graph : PlanGraph}
    {p : NodeProgress} (hp : (EngineState.recover io j graph).nodes.lookup node = some p) :
    Earned seen r.journal graph.workflowId node p.activeAttempt := by
  obtain ⟨n, -, rfl, rfl⟩ := (lookup_recover io j graph node).1 p hp
  rcases recoverNode_active io j graph.workflowId n with hone | ⟨-, hrow⟩
  · rw [hone]
    exact .first
  · exact h.rows _ _ _ ((hrows _).mp (Map.mem_iff_lookup.mpr hrow))

/-- A workflow that is not registered has nothing indexed. -/
theorem Coherent.unindexed (hr : Coherent r) (hnone : r.workflows.lookup wf = none)
    (t node : String) :
    r.taskIndex.lookup t ≠ some (wf, node) := by
  intro ht
  obtain ⟨wfr, hwf, -⟩ := hr.index t wf node ht
  rw [hnone] at hwf
  cases hwf

/-- The calls other than a tick of the watcher. -/
theorem Accounted.move (h : Accounted seen r) (hmove : Move r₀ i r r')
    (hcall : i.call ≠ .tickWatchTasks) : Accounted seen r' := by
  have hr := h.coherent
  have hr' := hr.move hmove
  have hdoubted : ∀ taskId key, key ∈ (r.journal.inDoubted taskId).attempts ↔
      key ∈ r.journal.attempts := by
    intro taskId key
    simp [Map.mem_iff_lookup, Journal.inDoubted, Map.lookup_mapVals]
  cases hmove with
  | submitted intent hcall hstart hfree =>
      exact h.unmoved hr' (fun _ => .rfl) (fun _ _ h => h)
        (.new (lookup_setWf _ _ _) (hr.unindexed hfree) (by simp [awaiting, default]))
  | cancelled intent wfr hcall hcancel hwf =>
      exact h.unmoved hr' (fun _ => .rfl) (fun _ _ h => h) (.set (lookup_record _ _ _ _) hwf rfl)
  | observed decision wf wfr hres =>
      exact h.unmoved hr' (fun _ => .rfl) (fun _ _ h => h)
        (.set (lookup_setWf _ _ _) hres.registered rfl)
  | refused decision wf wfr reason hres =>
      exact h.unmoved hr' (fun _ => .rfl) (fun _ _ h => h)
        (.set (lookup_record _ _ _ _) hres.registered rfl)
  | admitted decision wf wfr e hres hshadow hmap j hentry =>
      obtain ⟨-, -, -, -, hattempts, -⟩ := hentry.admitted_journalOk
        (toS_val wfr.intent.workflowId.noNul) hr.journal
      exact h.unmoved hr' (fun key => by rw [hattempts]) (fun _ _ h => h) .refl
  | planned decision wf wfr e hres hshadow hmap j hentry cand =>
      obtain ⟨-, -, hfresh, -, hattempts, -⟩ := hentry.admitted_journalOk
        (toS_val wfr.intent.workflowId.noNul) hr.journal
      have hok := hr.records wf wfr hres.registered
      have hrows : ∀ key, key ∈ j.attempts ↔ key ∈ r₀.journal.attempts :=
        fun key => by rw [hattempts]
      refine h.unmoved hr' hrows (fun _ _ h => h) (.new (lookup_record _ _ _ _) ?_ ?_)
      · intro t node ht
        obtain ⟨old, hold, spec, hspec, -⟩ := hr.index t wf node ht
        rw [hres.registered, Option.some.injEq] at hold
        subst hold
        rcases hok.plan with ⟨-, hdecided⟩ | ⟨-, hnil⟩
        · rw [← hok.key] at hdecided
          exact hfresh hdecided
        · rw [hnil] at hspec
          cases hspec
      · intro node p hp
        exact hok.key ▸ h.recovered hrows hp
  | rehydrated id row cand hcall hrow hfree =>
      exact h.unmoved hr' (fun _ => .rfl) (fun _ _ h => h)
        (.new (lookup_record _ _ _ _) (hr.unindexed hfree)
          fun node p hp => h.recovered (fun _ => .rfl) hp)
  | held wf node wfr hdue result state j hmat =>
      obtain ⟨hstep, -, -⟩ := hdue.materialized hr hmat
      obtain ⟨p, hp⟩ := hr.tracked hdue.registered hdue.node
      have hok := hr.records wf wfr hdue.registered
      obtain ⟨p', hat, hactive⟩ := hstep.atActive hp (hok.tracks.active node p hp)
      rw [hok.graph] at hat
      exact h.operated hr' hdue.registered hp (lookup_setWf _ _ _) hat
        (hactive ▸ (h.active wf wfr node p hdue.registered hp).mono hat.grow)
        (fun _ _ h => .inl h) (.inl hactive)
  | dispatched wf node wfr hdue taskId state j hmat hfree n ext =>
      obtain ⟨hstep, -, -⟩ := hdue.materialized hr hmat
      obtain ⟨p, hp⟩ := hr.tracked hdue.registered hdue.node
      have hok := hr.records wf wfr hdue.registered
      obtain ⟨p', hat, hactive⟩ := hstep.atActive hp (hok.tracks.active node p hp)
      rw [hok.graph] at hat
      have hp' : state.progress node = p' := by
        rw [progress, hat.state, if_pos rfl]
        rfl
      obtain ⟨hid, hrow⟩ := hdue.recorded hr hmat
      rw [hp'] at hid hrow
      refine h.operated hr' hdue.registered hp (lookup_record r wf _ ext) hat
        (hactive ▸ (h.active wf wfr node p hdue.registered hp).mono hat.grow) ?_ (.inl hactive)
      intro t e ht
      rcases Map.lookup_insert_eq_some.mp ht with ⟨rfl, rfl⟩ | ⟨-, hold⟩
      · obtain ⟨row, hlookup, -⟩ := Option.map_eq_some_iff.mp hrow
        exact .inr ⟨rfl, hid, Map.mem_iff_lookup.mpr ⟨row, hlookup⟩⟩
      · exact .inl hold
  | incomplete _ _ _ _ hwatch | completed _ _ _ _ hwatch => exact absurd hwatch.call hcall
  | unfailed _ _ _ _ hwatch | retried _ _ _ _ hwatch => exact absurd hwatch.call hcall
  | exhausted _ _ _ _ hwatch => exact absurd hwatch.call hcall
  | unswept task hover => exact h.unmoved hr' (fun _ => .rfl) (fun _ _ h => h) .refl
  | sweptUnindexed task hover => exact h.unmoved hr' (hdoubted _) (fun _ _ h => h) .refl
  | swept task hover hfree wf node wfr hindex hwf =>
      exact h.unmoved hr' (hdoubted _) (fun _ _ h => h) (.set (lookup_setWf r wf _) hwf rfl)
  | doubted task hover hfree wf node wfr hindex hindex' hwf =>
      exact h.unmoved hr' (fun _ => .rfl) (fun _ _ h => h) (.set (lookup_record _ _ _ _) hwf rfl)
  | restarted cfg =>
      exact h.unmoved hr' (fun _ => .rfl) (by simp [EngineRuntime.new])
        (by simp [StatesKept, EngineRuntime.new])

end Account

/-! ### A tick of the watcher -/

/-- What the watcher does with a task that it follows. -/
structure WatchedAt (i : Input) (r r' : EngineRuntime) (task : Task) (wf node : String)
    (wfr wfr' : WfRuntime) (p p' : NodeProgress) : Prop where
  watch : Watched i r task wf node wfr
  tracked : wfr.state.nodes.lookup node = some p
  records : ∀ id, r'.workflows.lookup id = if id = wf then some wfr' else r.workflows.lookup id
  graph : wfr'.graph = wfr.graph
  failover : wfr'.failover = wfr.failover
  at_active : AtActive wfr.state wfr'.state r.journal r'.journal wf node p p'
  index : ∀ t e, r'.taskIndex.lookup t = some e → r.taskIndex.lookup t = some e
  /-- The next attempt is opened for a failed task, which is indexed no more. -/
  moved : p'.activeAttempt = p.activeAttempt ∨ task.status = tsFailed ∧
    p'.activeAttempt = p.activeAttempt + 1 ∧ (wf, node, p.activeAttempt) ∈ r'.journal.attempts ∧
    r'.taskIndex.lookup task.taskId = none

section Watch

variable {r₀ r r' : EngineRuntime} {i : Input} {seen : List Outcome} {wf node : String}

theorem watchedAttempt_eq {wfr : WfRuntime} {p : NodeProgress}
    (hp : wfr.state.nodes.lookup node = some p) : watchedAttempt wfr node = p.activeAttempt := by
  simp [watchedAttempt, hp]

/-- A failure that could not be processed has not moved its node. -/
theorem Watched.unfailed (hr : Coherent r) {task : Task} {wfr : WfRuntime}
    (hwatch : Watched i r task wf node wfr) (hstatus : task.status = tsFailed)
    (hannounced : RetriesAnnounced r i) {e : EngineError} {state : EngineState} {j : Journal}
    (hfail : wfr.state.onFailed i.env.journalFails wfr.graph node (watchedAttempt wfr node)
      wfr.failover r.journal = (.error e, state, j)) : state = wfr.state := by
  have hgraph := (hr.records wf wfr hwatch.registered).graph
  refine EngineState.onFailed_error hfail ?_
  rw [hgraph]
  intro q spec hq hdone hspec hfailover hlt hio
  have hundone : node ∉ wfr.state.doneSet := by
    rw [mem_doneSet]
    rintro ⟨q', hq', hdone'⟩
    rw [hq, Option.some.injEq] at hq'
    rw [← hq', hdone] at hdone'
    cases hdone'
  exact hannounced task wf node wfr hwatch hstatus ⟨hfailover, hundone, spec, hspec, hlt⟩ hio

theorem Move.watchedAt (hmove : Move r₀ i r r') (hr : Coherent r)
    (hannounced : RetriesAnnounced r i) (hcall : i.call = .tickWatchTasks) :
    ∃ task wf node wfr wfr' p p', WatchedAt i r r' task wf node wfr wfr' p p' := by
  have hother : ∀ {c : Call}, i.call = c → c ≠ .tickWatchTasks → False :=
    fun h hne => hne (h.symm.trans hcall)
  cases hmove with
  | submitted _ h | cancelled _ _ h | rehydrated _ _ _ h | restarted _ h =>
      exact (hother h (by simp)).elim
  | observed _ _ _ hres | refused _ _ _ _ hres | admitted _ _ _ _ hres | planned _ _ _ _ hres =>
      exact (hother hres.call (by simp)).elim
  | held _ _ _ hdue | dispatched _ _ _ hdue => exact (hother hdue.call (by simp)).elim
  | unswept _ hover | sweptUnindexed _ hover | swept _ hover | doubted _ hover =>
      exact (hother hover.call (by simp)).elim
  | incomplete task wf node wfr hwatch hstatus outputs e state j hdone =>
      obtain ⟨hstep, -, -⟩ := hwatch.completed hr hdone
      obtain ⟨p, hp⟩ := hr.tracked hwatch.registered (hwatch.node hr)
      obtain ⟨p', hat, hactive⟩ := hstep.atActive hp
      rw [(hr.records wf wfr hwatch.registered).graph] at hat
      exact ⟨task, wf, node, wfr, _, p, p', hwatch, hp, lookup_setWf _ _ _, rfl, rfl, hat,
        fun _ _ h => h, .inl hactive⟩
  | completed task wf node wfr hwatch hstatus outputs ready state j hdone n ext =>
      obtain ⟨hstep, -, -⟩ := hwatch.completed hr hdone
      obtain ⟨p, hp⟩ := hr.tracked hwatch.registered (hwatch.node hr)
      obtain ⟨p', hat, hactive⟩ := hstep.atActive hp
      rw [(hr.records wf wfr hwatch.registered).graph] at hat
      exact ⟨task, wf, node, wfr, _, p, p', hwatch, hp, lookup_record r wf _ ext, rfl, rfl, hat,
        fun _ _ h => h, .inl hactive⟩
  | unfailed task wf node wfr hwatch hstatus e state j hfail =>
      obtain ⟨hstep, -, -⟩ := hwatch.failed hr hfail
      obtain ⟨p, hp⟩ := hr.tracked hwatch.registered (hwatch.node hr)
      have hstate := hwatch.unfailed hr hstatus hannounced hfail
      obtain ⟨p', hat, -⟩ := hstep.atActive hp
      have hsame : p' = p := by
        have hafter := hat.state node
        rw [if_pos rfl, hstate, hp] at hafter
        exact (Option.some.inj hafter).symm
      rw [(hr.records wf wfr hwatch.registered).graph] at hat
      exact ⟨task, wf, node, wfr, _, p, p', hwatch, hp, lookup_setWf _ _ _, rfl, rfl, hat,
        fun _ _ h => h, .inl (by rw [hsame])⟩
  | retried task wf node wfr hwatch hstatus next state j hfail n ext =>
      obtain ⟨hstep, -, -⟩ := hwatch.failed hr hfail
      obtain ⟨p, hp⟩ := hr.tracked hwatch.registered (hwatch.node hr)
      obtain ⟨p', hat, hactive⟩ := hstep.atActive hp
      rw [(hr.records wf wfr hwatch.registered).graph] at hat hactive
      refine ⟨task, wf, node, wfr, _, p, p', hwatch, hp, lookup_record r wf _ ext, rfl, rfl, hat,
        fun _ _ => Map.lookup_of_lookup_erase, hactive.imp id fun hmoved => ?_⟩
      exact ⟨hstatus, hmoved.2.1, hmoved.2.2, by rw [Map.lookup_erase_if, if_pos rfl]⟩
  | exhausted task wf node wfr hwatch hstatus state j hfail n ext =>
      obtain ⟨hstep, -, -⟩ := hwatch.failed hr hfail
      obtain ⟨p, hp⟩ := hr.tracked hwatch.registered (hwatch.node hr)
      obtain ⟨p', hat, hactive⟩ := hstep.atActive hp
      rw [(hr.records wf wfr hwatch.registered).graph] at hat
      exact ⟨task, wf, node, wfr, _, p, p', hwatch, hp, lookup_record r wf _ ext, rfl, rfl, hat,
        fun _ _ h => h, .inl (hactive.resolve_right fun hmoved => hmoved.1 rfl)⟩

section At

variable {task : Task} {wfr wfr' : WfRuntime} {p p' : NodeProgress}

/-- Once the attempt has moved, nothing of the node is indexed: whatever was
indexed for it is the task that failed. -/
theorem WatchedAt.unindexed (h : WatchedAt i r r' task wf node wfr wfr' p p')
    (hactive : IndexActive r) :
    p'.activeAttempt = p.activeAttempt ∨ ∀ t, r'.taskIndex.lookup t ≠ some (wf, node) := by
  refine h.moved.imp id fun hmoved t ht => ?_
  obtain ⟨-, -, -, hnone⟩ := hmoved
  have hid := (hactive _ wf node wfr p h.watch.indexed h.watch.registered h.tracked).1
  have hid' := (hactive t wf node wfr p (h.index t _ ht) h.watch.registered h.tracked).1
  rw [hid'.trans hid.symm, hnone] at ht
  cases ht

theorem Accounted.watched (h : Accounted seen r) (hr' : Coherent r')
    (hat : WatchedAt i r r' task wf node wfr wfr' p p')
    (hshown : task.status = tsFailed → task.taskId ∈ failedTasks seen wf node) :
    Accounted seen r' := by
  have hearned := (h.active wf wfr node p hat.watch.registered hat.tracked).mono
    hat.at_active.grow
  refine h.operated hr' hat.watch.registered hat.tracked hat.records hat.at_active ?_
    (fun t e ht => .inl (hat.index t e ht)) (hat.unindexed h.index)
  rcases hat.moved with heq | ⟨hstatus, heq, hrow, -⟩
  · rw [heq]
    exact hearned
  · have hid := (h.index _ wf node wfr p hat.watch.indexed hat.watch.registered hat.tracked).1
    rw [heq]
    exact hearned.next hrow (hid ▸ hshown hstatus)

end At

/-- What a tick of the watcher has left of what it still follows. -/
structure WatchFrame (r₀ r : EngineRuntime) : Prop where
  index : ∀ t e, r.taskIndex.lookup t = some e → r₀.taskIndex.lookup t = some e
  record : ∀ t wf node wfr, r.taskIndex.lookup t = some (wf, node) →
    r.workflows.lookup wf = some wfr → wfr.terminal = false →
    ∃ wfr₀, r₀.workflows.lookup wf = some wfr₀ ∧ wfr₀.terminal = false ∧
      wfr.graph = wfr₀.graph ∧ wfr.failover = wfr₀.failover ∧
      watchedAttempt wfr node = watchedAttempt wfr₀ node ∧
      (node ∉ wfr.state.doneSet → node ∉ wfr₀.state.doneSet)

theorem WatchFrame.refl (r : EngineRuntime) : WatchFrame r r :=
  ⟨fun _ _ h => h, fun _ _ _ wfr _ hwf hlive => ⟨wfr, hwf, hlive, rfl, rfl, rfl, id⟩⟩

theorem WatchFrame.announced (h : WatchFrame r₀ r) (hannounced : RetriesAnnounced r₀ i) :
    RetriesAnnounced r i := by
  intro task wf node wfr hwatch hstatus hretriable hio
  obtain ⟨wfr₀, hwf, hlive, hgraph, hfailover, hattempt, hundone⟩ :=
    h.record _ wf node wfr hwatch.indexed hwatch.registered hwatch.live
  obtain ⟨hfo, hopen, spec, hspec, hlt⟩ := hretriable
  rw [hattempt] at hlt hio ⊢
  exact hannounced task wf node wfr₀
    ⟨hwatch.call, hwatch.visible, h.index _ _ hwatch.indexed, hwf, hlive⟩ hstatus
    ⟨hfailover ▸ hfo, hundone hopen, spec, hgraph ▸ hspec, hlt⟩ hio

theorem WatchFrame.watched (h : WatchFrame r₀ r) (hactive : IndexActive r) {task : Task}
    {wfr wfr' : WfRuntime} {p p' : NodeProgress}
    (hat : WatchedAt i r r' task wf node wfr wfr' p p') : WatchFrame r₀ r' := by
  refine ⟨fun t e ht => h.index t e (hat.index t e ht), ?_⟩
  intro t wf₁ node₁ w ht hw hlive
  have ht' := hat.index t _ ht
  rw [hat.records] at hw
  split at hw
  swap
  · exact h.record t wf₁ node₁ w ht' hw hlive
  rename_i heq
  injection hw with hw
  subst heq hw
  obtain ⟨wfr₀, hwf, hlive₀, hgraph, hfailover, hattempt, hundone⟩ :=
    h.record t wf₁ node₁ wfr ht' hat.watch.registered hat.watch.live
  have hstate := hat.at_active.state node₁
  refine ⟨wfr₀, hwf, hlive₀, hat.graph.trans hgraph, hat.failover.trans hfailover, ?_, ?_⟩
  · rw [← hattempt]
    by_cases hnode : node₁ = node
    · subst hnode
      rw [if_pos rfl] at hstate
      rw [watchedAttempt_eq hstate, watchedAttempt_eq hat.tracked]
      exact (hat.unindexed hactive).resolve_right fun hnone => hnone t ht
    · rw [if_neg hnode] at hstate
      rw [watchedAttempt, hstate, watchedAttempt]
  · intro hnot
    refine hundone fun hmem => hnot ?_
    obtain ⟨q, hq, hdone⟩ := mem_doneSet.mp hmem
    rw [mem_doneSet]
    by_cases hnode : node₁ = node
    · subst hnode
      rw [hat.tracked, Option.some.injEq] at hq
      subst hq
      refine ⟨p', by rw [hstate, if_pos rfl], ?_⟩
      by_contra hne
      have hundone := hat.at_active.undone (by simpa using hne)
      rw [hundone] at hdone
      cases hdone
    · exact ⟨q, by rw [hstate, if_neg hnode, hq], hdone⟩

/-- The result of a followed task is an outcome. -/
theorem outcome_of_watched {task : Task} {wfr : WfRuntime}
    (hwatch : Watched i r task wf node wfr) (hstatus : task.status = tsFailed) :
    outcome task r = some ⟨task.taskId, wf, node, watchedAttempt wfr node, true⟩ := by
  simp [outcome, hwatch.indexed, hwatch.registered, hwatch.live, hstatus, tsFailed, tsDone]

theorem outcome_eq_some {task : Task} {o : Outcome} (h : outcome task r = some o) :
    ∃ wfr, r.taskIndex.lookup o.taskId = some (o.workflowId, o.node) ∧
      r.workflows.lookup o.workflowId = some wfr ∧ o.attempt = watchedAttempt wfr o.node := by
  unfold outcome at h
  split at h
  · cases h
  rename_i wf node hindex
  split at h
  · cases h
  rename_i wfr hwf
  split at h
  · cases h
  split at h
  · cases h
    exact ⟨wfr, hindex, hwf, rfl⟩
  split at h
  · cases h
    exact ⟨wfr, hindex, hwf, rfl⟩
  · cases h

/-- What is about to be handed to the engine is handed for its own attempt. -/
theorem Accounted.shown (h : Accounted seen r) (task : Task) :
    Accounted (seen ++ (outcome task r).toList) r := by
  have hsub : ∀ o ∈ seen, o ∈ seen ++ (outcome task r).toList :=
    fun o ho => List.mem_append_left _ ho
  refine ⟨h.coherent, h.index, ?_, fun wf node a hrow => (h.rows wf node a hrow).of_subset hsub,
    fun wf wfr node p hwf hp => (h.active wf wfr node p hwf hp).of_subset hsub⟩
  intro o ho
  rcases List.mem_append.mp ho with ho | ho
  · exact h.own o ho
  · obtain ⟨wfr, hindex, hwf, hattempt⟩ := outcome_eq_some (Option.mem_toList.mp ho)
    obtain ⟨old, hold, hspec⟩ := h.coherent.index _ _ _ hindex
    rw [hwf, Option.some.injEq] at hold
    subst hold
    obtain ⟨p, hp⟩ := h.coherent.tracked hwf hspec
    rw [hattempt, watchedAttempt_eq hp]
    exact h.index _ _ _ wfr p hindex hwf hp

/-- One iteration of the watcher. The task is taken as the only one visible, so
that what the move is about is this task. -/
theorem Accounted.watchTask {tasks : List Task} {task : Task} (h : Accounted seen r)
    (hframe : WatchFrame r₀ r) (hannounced : RetriesAnnounced r₀ i)
    (hcall : i.call = .tickWatchTasks) (htasks : i.env.allTasks = .ok tasks)
    (htask : task ∈ tasks) :
    Accounted (seen ++ (outcome task r).toList) (watchTask i.env task r).2 ∧
      WatchFrame r₀ (EngineRuntime.watchTask i.env task r).2 := by
  have hshown := h.shown task
  set only : Input := ⟨{ i.env with allTasks := .ok [task] }, .tickWatchTasks⟩ with honly
  have hwidens : ∀ {task' : Task} {wf node : String} {wfr : WfRuntime},
      Watched only r task' wf node wfr → task' = task ∧ Watched i r task wf node wfr := by
    intro task' wf node wfr hwatch
    obtain ⟨visible, hvisible, hmem⟩ := hwatch.visible
    injection hvisible with hvisible
    rw [← hvisible, List.mem_singleton] at hmem
    subst hmem
    exact ⟨rfl, hcall, ⟨tasks, htasks, htask⟩, hwatch.indexed, hwatch.registered, hwatch.live⟩
  have hannounced' : RetriesAnnounced r only := by
    intro task' wf node wfr hwatch
    obtain ⟨rfl, hwatch⟩ := hwidens hwatch
    exact hframe.announced hannounced task' wf node wfr hwatch
  have hmove : Relation.ReflGen (Move r₀ only) r (EngineRuntime.watchTask i.env task r).2 :=
    watchTask_move (i := only) rfl rfl (List.mem_singleton_self task)
  generalize (EngineRuntime.watchTask i.env task r).2 = r' at hmove ⊢
  cases hmove with
  | refl => exact ⟨hshown, hframe⟩
  | single hmove =>
      obtain ⟨task', wf, node, wfr, wfr', p, p', hat⟩ :=
        hmove.watchedAt h.coherent hannounced' rfl
      obtain ⟨rfl, hwatch⟩ := hwidens hat.watch
      refine ⟨hshown.watched (h.coherent.move hmove) hat fun hstatus => ?_,
        hframe.watched h.index hat⟩
      exact mem_failedTasks.mpr ⟨_, List.mem_append_right _
        (Option.mem_toList.mpr (outcome_of_watched hwatch hstatus)), rfl, rfl, rfl, rfl⟩

theorem Accounted.step (h : Accounted seen r) (hannounced : RetriesAnnounced r i) :
    Accounted (seen ++ outcomesOf r i) (step r i) := by
  by_cases hcall : i.call = .tickWatchTasks
  · have hstep : WorkflowEngine.step r i = (r.tickWatchTasks i.env).2 := by
      simp only [WorkflowEngine.step, hcall]
    rw [hstep, tickWatchTasks, outcomesOf]
    simp only [hcall]
    cases htasks : i.env.allTasks with
    | error e => simpa using h
    | ok tasks =>
        exact (traceEach_invariant (I := fun cs t => Accounted cs t ∧ WatchFrame r t)
          ⟨h, .refl r⟩ fun task htask cs t ht =>
            ht.1.watchTask ht.2 hannounced hcall htasks htask).1
  · have hnone : outcomesOf r i = [] := by
      unfold outcomesOf
      split
      · rename_i heq _
        exact absurd heq hcall
      · rfl
    rw [hnone, List.append_nil]
    exact step_invariant h fun _ _ ht hmove => ht.move hmove hcall

end Watch

theorem accounted_initial (cfg : RuntimeConfig) : Accounted [] (initial cfg) := by
  refine ⟨coherent_new journalOk_empty [] cfg, ?_, by simp, ?_, ?_⟩
  · simp [IndexActive, initial, EngineRuntime.new]
  · simp [initial, EngineRuntime.new, Journal.empty]
  · simp [initial, EngineRuntime.new]

/-- As long as every retry that is recorded is announced, outcomes go to the
attempts that produced them. -/
theorem outcomes_owned (cfg : RuntimeConfig) (inputs : List Input)
    (hrun : Along step RetriesAnnounced (initial cfg) inputs) : OutcomesOwned cfg inputs := by
  have h : Accounted ([] ++ outcomes cfg inputs) (run cfg inputs) :=
    hrun.trace_invariant (accounted_initial cfg) fun _ _ _ ht hj => ht.step hj
  rw [List.nil_append] at h
  refine ⟨fun o ho => (h.own o ho).1, ?_, ?_⟩
  · intro o ho o' ho' heq
    obtain ⟨hid, hrow⟩ := h.own o ho
    obtain ⟨hid', hrow'⟩ := h.own o' ho'
    obtain ⟨row, hrow⟩ := Map.mem_iff_lookup.mp hrow
    obtain ⟨row', hrow'⟩ := Map.mem_iff_lookup.mp hrow'
    have hj := h.coherent.journal
    refine hj.unique _ _ row row' hrow hrow' ?_
    rw [(hj.attempts _ _ hrow).2, (hj.attempts _ _ hrow').2]
    exact hid.symm.trans (heq.trans hid')
  · intro wf wfr node p hwf hp
    exact (h.active wf wfr node p hwf hp).le_card h.coherent.journal

namespace Deployment

/-- A tick of the watcher that sees the first task failed. -/
def failing : Input := ⟨showing [seen taskId tsFailed 1000], .tickWatchTasks⟩

/-- The same tick, in which nothing can be appended to the outbox. -/
def muted : Input :=
  { failing with env := { failing.env with
      journalFails := fun call => match call with
        | .outboxAppend .. => true
        | _ => false } }

/-- The direct plan with three attempts for its node. -/
def threeAttempts (request : PlanRequest) : PlanCandidate :=
  { directTemplatePlan request with
    nodes := (directTemplatePlan request).nodes.map fun n => { n with maxAttempts := 3 } }

/-- The intent is admitted with three attempts and the first is dispatched. -/
def dispatchedThree : List Input :=
  [⟨env, .intent intent⟩,
    ⟨{ env with plan := fun request => .ok (threeAttempts request) }, .decision decision⟩,
    ⟨env, .tickScheduler⟩]

end Deployment

open Deployment in
/-- Two ticks that see the failed task: it is indexed no more at the second. -/
theorem announced_retry_counts_once :
    outcomes config (dispatchedThree ++ [failing, failing]) =
        [⟨taskId, "wf-1", "direct-0", 1, true⟩] ∧
      OutcomesOwned config (dispatchedThree ++ [failing, failing]) := by
  refine ⟨by decide +kernel, outcomes_owned _ _ ?_⟩
  refine ⟨?_, ?_, ?_, ?_, ?_, trivial⟩ <;> exact fun _ _ _ _ _ _ _ _ => rfl

open Deployment in
/-- When the retry cannot be announced, the failed task of the first attempt
counts for the second as well, and the node is at its third attempt after one
failed task. -/
theorem unannounced_retry_counts_twice :
    outcomes config (dispatchedThree ++ [muted, muted]) =
        [⟨taskId, "wf-1", "direct-0", 1, true⟩, ⟨taskId, "wf-1", "direct-0", 2, true⟩] ∧
      ((run config (dispatchedThree ++ [muted, muted])).workflows.lookup "wf-1").map
        (fun w => (w.state.progress "direct-0").activeAttempt) = some 3 ∧
      (failedTasks (outcomes config (dispatchedThree ++ [muted, muted])) "wf-1"
        "direct-0").card = 1 ∧
      ¬ OutcomesOwned config (dispatchedThree ++ [muted, muted]) := by
  obtain ⟨houtcomes, hattempt⟩ :
      outcomes config (dispatchedThree ++ [muted, muted]) =
          [⟨taskId, "wf-1", "direct-0", 1, true⟩, ⟨taskId, "wf-1", "direct-0", 2, true⟩] ∧
        ((run config (dispatchedThree ++ [muted, muted])).workflows.lookup "wf-1").map
          (fun w => (w.state.progress "direct-0").activeAttempt) = some 3 := by
    decide +kernel
  refine ⟨houtcomes, hattempt, by rw [houtcomes]; decide +kernel, fun h => ?_⟩
  have hsame := h.once ⟨taskId, "wf-1", "direct-0", 1, true⟩ (by simp [houtcomes])
    ⟨taskId, "wf-1", "direct-0", 2, true⟩ (by simp [houtcomes]) rfl
  simp at hsame

end DdsOrchestrator.WorkflowEngine
