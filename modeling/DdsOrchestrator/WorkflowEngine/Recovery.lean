import DdsOrchestrator.WorkflowEngine.Coherence

/-!
Recovery of one workflow against the state in memory. The engine is driven by
any sequence of its three calls over one journal, and after each call the state
that `recover` would rebuild is compared with the one in memory.

The scan of `recover` ends at the first closed attempt, so it forgets a retry;
and the flag of a failed node is never taken back, so a result that arrives
after the failure tells the two apart as well.
-/

namespace DdsOrchestrator.WorkflowEngine

open Machine

/-! ### Calls -/

/-- A medium on which nothing fails. -/
def healthy : JournalCall → Bool := fun _ => false

inductive EngineCall where
  | materialize (node : String) (microunits : UInt64)
  | done (node : String) (attempt : Nat) (outputs : List (String × String))
  | failed (node : String) (attempt : Nat) (failoverEnabled : Bool)
  deriving DecidableEq

/-- The memory of the engine and its journal. -/
abbrev EngineCell := EngineState × Journal

def Except.refusal {α : Type} : Except EngineError α → Option EngineError
  | .ok _ => none
  | .error e => some e

/-- The error of a call, if it fails, and what it leaves. -/
def EngineCall.run (graph : PlanGraph) (c : EngineCell) :
    EngineCall → Option EngineError × EngineCell
  | .materialize node microunits =>
      let out := c.1.materialize healthy graph node microunits c.2
      (Except.refusal out.1, out.2)
  | .done node attempt outputs =>
      let out := c.1.onDone healthy graph node attempt outputs c.2
      (Except.refusal out.1, out.2)
  | .failed node attempt failoverEnabled =>
      let out := c.1.onFailed healthy graph node attempt failoverEnabled c.2
      (Except.refusal out.1, out.2)

def advance (graph : PlanGraph) (c : EngineCell) (call : EngineCall) : EngineCell :=
  (call.run graph c).2

/-- The journal takes every result it is given. A materialisation may be
refused, for its budget or otherwise. -/
def ResultRecorded (graph : PlanGraph) (c : EngineCell) (call : EngineCall) : Prop :=
  (∀ node microunits, call ≠ .materialize node microunits) →
    ∀ e, (call.run graph c).1 ≠ some (.journal e)

/-! ### What is compared -/

/-- Attempt, done and failed of a node. -/
def NodeProgress.view (p : NodeProgress) : Nat × Bool × Bool :=
  (max p.activeAttempt 1, p.done, p.failed)

/-- Recovery now would find what is in memory. -/
def Recovered (graph : PlanGraph) (c : EngineCell) : Prop :=
  ∀ n ∈ graph.nodes, ((EngineState.recover healthy c.2 graph).progress n.nodeId).view =
    (c.1.progress n.nodeId).view

instance (graph : PlanGraph) (c : EngineCell) : Decidable (Recovered graph c) :=
  inferInstanceAs (Decidable (∀ n ∈ graph.nodes, _))

/-- A reservation of `microunits` under this key is held, or would be granted. -/
def Grantable (j : Journal) (workflowId key : String) (microunits : UInt64) : Prop :=
  (∃ row, j.reservations.lookup key = some row ∧ row.state = .reserved) ∨
    j.reservations.lookup key = none ∧ ∃ w, j.workflows.lookup workflowId = some w ∧
      Journal.Grants w microunits

/-- The calls after which recovery and memory differ: a failure that is
retried, a DONE result of a node that has failed, and a node that has failed
being materialised again. -/
def Diverges (graph : PlanGraph) (c : EngineCell) : EngineCall → Prop
  | .failed node attempt failoverEnabled =>
      ∃ spec p, graph.node node = some spec ∧ c.1.nodes.lookup node = some p ∧ p.done = false ∧
        attempt = p.activeAttempt ∧ failoverEnabled = true ∧ attempt < spec.maxAttempts
  | .done node attempt outputs =>
      ∃ spec p, graph.node node = some spec ∧ c.1.nodes.lookup node = some p ∧ p.done = false ∧
        attempt = p.activeAttempt ∧ EngineState.outputsValid spec outputs = true ∧ p.failed = true
  | .materialize node microunits =>
      ∃ spec p, graph.node node = some spec ∧ c.1.nodes.lookup node = some p ∧ p.done = false ∧
        p.inDoubt = false ∧ p.failed = true ∧
        Grantable c.2 graph.workflowId
          (EngineState.reservationKey graph.workflowId node (max p.activeAttempt 1)) microunits

/-! ### Reading one row back -/

/-- The state of the first attempt of a node, if it has a row. -/
def firstState (j : Journal) (workflowId node : String) : Option AttemptState :=
  (j.attempts.lookup (workflowId, node, 1)).map (·.state)

/-- No attempt of the workflow beyond the first has a row. -/
def OnlyFirst (j : Journal) (workflowId : String) : Prop :=
  ∀ node attempt row, j.attempts.lookup (workflowId, node, attempt) = some row → attempt = 1

theorem recoverNode_view {j : Journal} {workflowId : String} {n : NodeSpec}
    (honly : OnlyFirst j workflowId) (hmax : 1 ≤ n.maxAttempts) :
    (recoverNode healthy j workflowId n).view =
      (1, decide (firstState j workflowId n.nodeId = some .done),
        decide (firstState j workflowId n.nodeId = some .failed ∨
          firstState j workflowId n.nodeId = some .cancelled)) := by
  have hrest : ∀ p, scanAttempts healthy j workflowId n.nodeId
      (List.range' 2 (n.maxAttempts - 1)) p = p := by
    refine scanAttempts_of_none fun a ha => ?_
    cases hrow : j.attempts.lookup (workflowId, n.nodeId, a) with
    | none => rfl
    | some row =>
        have := honly _ _ _ hrow
        have := (List.mem_range'_1.mp ha).1
        omega
  have hrange : List.range' 1 n.maxAttempts = 1 :: List.range' 2 (n.maxAttempts - 1) := by
    obtain ⟨k, hk⟩ := Nat.exists_eq_add_of_le' hmax
    rw [hk, List.range'_succ, Nat.add_sub_cancel]
  unfold recoverNode firstState
  rw [hrange]
  cases hrow : j.attempts.lookup (workflowId, n.nodeId, 1) with
  | none =>
      have hread : j.attemptState healthy (workflowId, n.nodeId, 1) =
          .error (.sqlite .queryReturnedNoRows) := by
        simp [Journal.attemptState, healthy, hrow]
      simp only [scanAttempts, hread, hrest]
      rfl
  | some row =>
      have hread : j.attemptState healthy (workflowId, n.nodeId, 1) = .ok row.state := by
        simp [Journal.attemptState, healthy, hrow]
      simp only [scanAttempts, hread, hrest]
      obtain ⟨taskId, state⟩ := row
      cases state <;> rfl

theorem recover_progress_view {j : Journal} {graph : PlanGraph} {n : NodeSpec}
    (honly : OnlyFirst j graph.workflowId) (hmax : ∀ n ∈ graph.nodes, 1 ≤ n.maxAttempts)
    (hn : n ∈ graph.nodes) :
    ((EngineState.recover healthy j graph).progress n.nodeId).view =
      (1, decide (firstState j graph.workflowId n.nodeId = some .done),
        decide (firstState j graph.workflowId n.nodeId = some .failed ∨
          firstState j graph.workflowId n.nodeId = some .cancelled)) := by
  obtain ⟨hfrom, hto⟩ := lookup_recover healthy j graph n.nodeId
  obtain ⟨p, hp⟩ := hto ⟨n, hn, rfl⟩
  obtain ⟨m, hm, hid, rfl⟩ := hfrom p hp
  rw [EngineState.progress, hp, Option.getD_some, recoverNode_view honly (hmax m hm), hid]

/-! ### The invariant -/

/-- As long as no call has diverged, each node is in its first attempt and the
row of that attempt says how it ended. -/
structure InStep (graph : PlanGraph) (c : EngineCell) : Prop where
  only : OnlyFirst c.2 graph.workflowId
  taskId : ∀ node row, c.2.attempts.lookup (graph.workflowId, node, 1) = some row →
    row.taskId = EngineState.taskIdOf graph node 1
  active : ∀ node p, c.1.nodes.lookup node = some p → p.activeAttempt = 1
  done : ∀ node, (c.1.progress node).done = true ↔
    firstState c.2 graph.workflowId node = some .done
  failed : ∀ node, (c.1.progress node).failed = true ↔
    firstState c.2 graph.workflowId node = some .failed
  uncancelled : ∀ node, firstState c.2 graph.workflowId node ≠ some .cancelled

/-- In step, recovery finds what is in memory. -/
theorem InStep.recovered {graph : PlanGraph} {c : EngineCell} (h : InStep graph c)
    (hmax : ∀ n ∈ graph.nodes, 1 ≤ n.maxAttempts) : Recovered graph c := by
  intro n hn
  rw [recover_progress_view h.only hmax hn]
  have hactive : max (c.1.progress n.nodeId).activeAttempt 1 = 1 := by
    unfold EngineState.progress
    cases hp : c.1.nodes.lookup n.nodeId with
    | none => rfl
    | some p => simp [h.active _ _ hp]
  have hfailed : (firstState c.2 graph.workflowId n.nodeId = some .failed ∨
      firstState c.2 graph.workflowId n.nodeId = some .cancelled) ↔
      (c.1.progress n.nodeId).failed = true := by
    rw [h.failed]
    exact ⟨fun hor => hor.resolve_right (h.uncancelled _), .inl⟩
  simp only [NodeProgress.view, hactive, ← h.done, hfailed, Bool.decide_eq_true]

/-! ### Steps -/

section Steps

variable {graph : PlanGraph} {s : EngineState} {j j' : Journal} {node : String} {p : NodeProgress}

/-- A change of memory that the comparison does not see. -/
theorem InStep.touch (h : InStep graph (s, j)) (hp : p.activeAttempt = 1)
    (hdone : p.done = (s.progress node).done) (hfailed : p.failed = (s.progress node).failed)
    (hattempts : j'.attempts = j.attempts) : InStep graph (s.set node p, j') := by
  have hfirst : ∀ id, firstState j' graph.workflowId id = firstState j graph.workflowId id := by
    intro id
    rw [firstState, firstState, hattempts]
  refine ⟨?_, ?_, ?_, ?_, ?_, ?_⟩
  · intro id a row hrow
    exact h.only id a row (hattempts ▸ hrow)
  · intro id row hrow
    exact h.taskId id row (hattempts ▸ hrow)
  · intro id q hq
    rw [EngineState.lookup_set] at hq
    split at hq
    · injection hq with hq
      exact hq ▸ hp
    · exact h.active id q hq
  · intro id
    rw [hfirst, ← h.done, progress_set]
    split
    · rename_i hid
      rw [hid, hdone]
    · rfl
  · intro id
    rw [hfirst, ← h.failed, progress_set]
    split
    · rename_i hid
      rw [hid, hfailed]
    · rfl
  · intro id
    rw [hfirst]
    exact h.uncancelled id

theorem firstState_insert {workflowId taskId : String} {state : AttemptState}
    (hattempts : j'.attempts = j.attempts.insert (workflowId, node, 1) ⟨taskId, state⟩)
    (id : String) :
    firstState j' workflowId id =
      if id = node then some state else firstState j workflowId id := by
  rw [firstState, firstState, hattempts, Map.lookup_insert_if]
  by_cases hid : id = node
  · simp [hid]
  · simp [hid]

theorem OnlyFirst.insert {workflowId taskId : String} {state : AttemptState}
    (h : OnlyFirst j workflowId)
    (hattempts : j'.attempts = j.attempts.insert (workflowId, node, 1) ⟨taskId, state⟩) :
    OnlyFirst j' workflowId := by
  intro id a row hrow
  rw [hattempts] at hrow
  rcases Map.lookup_insert_eq_some.mp hrow with ⟨heq, -⟩ | ⟨-, hold⟩
  · simp only [Prod.mk.injEq] at heq
    exact heq.2.2
  · exact h id a row hold

/-- A change of memory that the row of the first attempt follows. -/
theorem InStep.close (h : InStep graph (s, j)) {state : AttemptState} (hp : p.activeAttempt = 1)
    (hattempts : j'.attempts = j.attempts.insert (graph.workflowId, node, 1)
      ⟨EngineState.taskIdOf graph node 1, state⟩)
    (hdone : p.done = true ↔ state = .done) (hfailed : p.failed = true ↔ state = .failed)
    (hstate : state ≠ .cancelled) : InStep graph (s.set node p, j') := by
  have hfirst := firstState_insert hattempts
  refine ⟨h.only.insert hattempts, ?_, ?_, ?_, ?_, ?_⟩
  · intro id row hrow
    rw [hattempts] at hrow
    rcases Map.lookup_insert_eq_some.mp hrow with ⟨heq, rfl⟩ | ⟨-, hold⟩
    · simp only [Prod.mk.injEq] at heq
      rw [heq.2.1]
    · exact h.taskId id row hold
  · intro id q hq
    rw [EngineState.lookup_set] at hq
    split at hq
    · injection hq with hq
      exact hq ▸ hp
    · exact h.active id q hq
  · intro id
    rw [hfirst, progress_set]
    split
    · rw [hdone, Option.some.injEq]
    · exact h.done id
  · intro id
    rw [hfirst, progress_set]
    split
    · rw [hfailed, Option.some.injEq]
    · exact h.failed id
  · intro id
    rw [hfirst]
    split
    · simpa using hstate
    · exact h.uncancelled id

theorem InStep.started (h : InStep graph (s, j)) (node : String) :
    (s.started node).activeAttempt = 1 := by
  unfold EngineState.started EngineState.progress
  cases hp : s.nodes.lookup node with
  | none => rfl
  | some p => simp [h.active node p hp]

theorem EngineState.Reserves.grantable {workflowId key : String} {tokens microunits : UInt64}
    (h : EngineState.Reserves workflowId key tokens microunits j j') :
    Grantable j workflowId key microunits := by
  obtain ⟨out, hout, hstep⟩ := h
  cases hstep with
  | replayed row hrow hstate => exact .inl ⟨row, hrow, hstate⟩
  | consumed => exact absurd rfl hout
  | reserved row hkey hrow hfits => exact .inr ⟨hkey, row, hrow, hfits⟩

theorem InStep.kept_materialize (h : InStep graph (s, j)) {microunits : UInt64}
    (hkeep : ¬ Diverges graph (s, j) (.materialize node microunits)) :
    InStep graph (advance graph (s, j) (.materialize node microunits)) := by
  have hstep := EngineState.materialize_step healthy graph node microunits s j
  have hone := h.started node
  unfold advance EngineCall.run
  dsimp only
  generalize s.materialize healthy graph node microunits j = out at hstep ⊢
  obtain ⟨result, s', j'⟩ := out
  dsimp only at hstep ⊢
  cases hstep with
  | unknown | done | doubtful => exact h
  | unreserved => exact h.touch hone rfl rfl rfl
  | consumed => exact h.touch hone rfl rfl rfl
  | unrecorded _ _ _ _ _ hreserve =>
      obtain ⟨_, -, hreserve⟩ := hreserve
      exact h.touch hone rfl rfl hreserve.attempts_eq
  | recorded hdone hdoubt spec hspec j₁ j₂ hreserve hrecord rows =>
      have hgrant := hreserve.grantable
      obtain ⟨_, -, hreserve⟩ := hreserve
      rw [hone] at hrecord hgrant
      have hattempts : j₂.attempts = j.attempts.insert (graph.workflowId, node, 1)
          ⟨EngineState.taskIdOf graph node 1, .published⟩ := by
        rw [hrecord.attempts_eq ?_, hreserve.attempts_eq]
        rw [hreserve.attempts_eq]
        exact h.taskId node
      refine h.close hone hattempts ?_ ?_ (by simp)
      · simp [EngineState.started, hdone]
      · simp only [EngineState.started, reduceCtorEq, iff_false, Bool.not_eq_true]
        -- A node that has failed would be one materialised again.
        cases hp : s.nodes.lookup node with
        | none =>
            rw [EngineState.progress, hp]
            rfl
        | some p =>
            have hprogress : s.progress node = p := by simp [EngineState.progress, hp]
            rw [hprogress] at hdone hdoubt ⊢
            by_contra hfailed
            refine hkeep ⟨spec, p, hspec, hp, hdone, hdoubt, by simpa using hfailed, ?_⟩
            rw [h.active node p hp]
            exact hgrant

theorem InStep.kept_done (h : InStep graph (s, j)) {attempt : Nat}
    {outputs : List (String × String)}
    (hrecorded : ResultRecorded graph (s, j) (.done node attempt outputs))
    (hkeep : ¬ Diverges graph (s, j) (.done node attempt outputs)) :
    InStep graph (advance graph (s, j) (.done node attempt outputs)) := by
  have hstep := EngineState.onDone_step healthy graph node attempt outputs s j
  have hok := hrecorded (by simp)
  unfold EngineCall.run at hok
  unfold advance EngineCall.run
  dsimp only at hok ⊢
  generalize s.onDone healthy graph node attempt outputs j = out at hstep hok ⊢
  obtain ⟨result, s', j'⟩ := out
  dsimp only at hstep hok ⊢
  cases hstep with
  | refused => exact h
  | unrecorded _ _ _ _ _ _ _ e => exact absurd rfl (hok e)
  | unsent _ _ _ _ _ _ _ _ _ _ e => exact absurd rfl (hok e)
  | completed spec hspec p hp hdone hattempt hvalid j₁ hrecord rows =>
      have hone := h.active node p hp
      have hrow : attempt = 1 := hattempt.trans hone
      subst hrow
      have hattempts := (Journal.releaseReservation_attempts healthy
        (EngineState.reservationKey graph.workflowId node 1) none
        { j₁ with outbox := rows }).trans (hrecord.attempts_eq (h.taskId node))
      refine h.close hone hattempts (by simp) ?_ (by simp)
      · simp only [reduceCtorEq, iff_false, Bool.not_eq_true]
        by_contra hfailed
        exact hkeep ⟨spec, p, hspec, hp, hdone, hattempt, hvalid, by simpa using hfailed⟩

theorem InStep.kept_failed (h : InStep graph (s, j)) {attempt : Nat} {failoverEnabled : Bool}
    (hrecorded : ResultRecorded graph (s, j) (.failed node attempt failoverEnabled))
    (hkeep : ¬ Diverges graph (s, j) (.failed node attempt failoverEnabled)) :
    InStep graph (advance graph (s, j) (.failed node attempt failoverEnabled)) := by
  have hstep := EngineState.onFailed_step healthy graph node attempt failoverEnabled s j
  have hok := hrecorded (by simp)
  unfold EngineCall.run at hok
  unfold advance EngineCall.run
  dsimp only at hok ⊢
  generalize s.onFailed healthy graph node attempt failoverEnabled j = out at hstep hok ⊢
  obtain ⟨result, s', j'⟩ := out
  dsimp only at hstep hok ⊢
  cases hstep with
  | refused => exact h
  | unrecorded _ _ _ _ e => exact absurd rfl (hok e)
  | retried spec hspec p hp hdone hattempt _ _ hretry =>
      exact absurd ⟨spec, p, hspec, hp, hdone, hattempt, hretry.1, hretry.2⟩ hkeep
  | closed spec hspec p hp hdone hattempt _ hrecord =>
      have hone := h.active node p hp
      have hrow : attempt = 1 := hattempt.trans hone
      subst hrow
      have hattempts : j'.attempts = j.attempts.insert (graph.workflowId, node, 1)
          ⟨EngineState.taskIdOf graph node 1, .failed⟩ := by
        rw [hrecord.attempts_eq ?_, Journal.releaseReservation_attempts]
        rw [Journal.releaseReservation_attempts]
        exact h.taskId node
      exact h.close hone hattempts (by simp [hdone]) (by simp) (by simp)

/-- What a call that does not diverge keeps. -/
theorem InStep.kept (h : InStep graph (s, j)) {call : EngineCall}
    (hrecorded : ResultRecorded graph (s, j) call) (hkeep : ¬ Diverges graph (s, j) call) :
    InStep graph (advance graph (s, j) call) := by
  cases call with
  | materialize node microunits => exact h.kept_materialize hkeep
  | done node attempt outputs => exact h.kept_done hrecorded hkeep
  | failed node attempt failoverEnabled => exact h.kept_failed hrecorded hkeep

/-! ### Calls that diverge -/

theorem onDone_error (io : JournalCall → Bool) (j : Journal) {spec : NodeSpec} {attempt : Nat}
    {outputs : List (String × String)} (hspec : graph.node node = some spec)
    (hp : s.nodes.lookup node = some p) (hdone : p.done = false)
    (hattempt : attempt = p.activeAttempt)
    (hvalid : EngineState.outputsValid spec outputs = true) (e : EngineError)
    (herr : (s.onDone io graph node attempt outputs j).1 = .error e) :
    ∃ e', e = .journal e' := by
  unfold EngineState.onDone at herr
  simp only [hspec, hp, hdone, hattempt, hvalid, Bool.false_eq_true, if_false, ne_eq,
    not_true_eq_false, Bool.not_true] at herr
  split at herr
  · injection herr with herr
    exact ⟨_, herr.symm⟩
  · split at herr
    · injection herr with herr
      exact ⟨_, herr.symm⟩
    · cases herr

theorem onFailed_error (io : JournalCall → Bool) (j : Journal) (failoverEnabled : Bool)
    {spec : NodeSpec} {attempt : Nat} (hspec : graph.node node = some spec)
    (hp : s.nodes.lookup node = some p) (hdone : p.done = false)
    (hattempt : attempt = p.activeAttempt) (e : EngineError)
    (herr : (s.onFailed io graph node attempt failoverEnabled j).1 = .error e) :
    ∃ e', e = .journal e' := by
  unfold EngineState.onFailed at herr
  simp only [hspec, hp, hdone, hattempt, Bool.false_eq_true, if_false, ne_eq,
    not_true_eq_false] at herr
  split at herr
  · injection herr with herr
    exact ⟨_, herr.symm⟩
  · split at herr
    · split at herr
      · injection herr with herr
        exact ⟨_, herr.symm⟩
      · cases herr
    · cases herr

/-- A scan never finds a node both done and failed. -/
theorem scanAttempts_not_both (io : JournalCall → Bool) (j : Journal) (workflowId node : String)
    (attempts : List Nat) {p : NodeProgress} (hdone : p.done = false) (hfailed : p.failed = false) :
    ¬ ((scanAttempts io j workflowId node attempts p).done = true ∧
      (scanAttempts io j workflowId node attempts p).failed = true) := by
  induction attempts generalizing p with
  | nil => simp [scanAttempts, hdone]
  | cons a rest ih =>
      unfold scanAttempts
      split
      · exact ih hdone hfailed
      · simp [hfailed]
      · simp [hdone]
      · simp [hdone]
      · exact ih hdone hfailed
      · exact ih hdone hfailed

theorem Recovered.not_both {c : EngineCell} (h : Recovered graph c) {spec : NodeSpec}
    (hspec : graph.node node = some spec) :
    ¬ ((c.1.progress node).done = true ∧ (c.1.progress node).failed = true) := by
  obtain ⟨hmem, hid⟩ := PlanGraph.node_eq_some hspec
  have hview := h spec hmem
  rw [hid] at hview
  simp only [NodeProgress.view, Prod.mk.injEq] at hview
  rw [← hview.2.1, ← hview.2.2]
  obtain ⟨hfrom, hto⟩ := lookup_recover healthy c.2 graph node
  obtain ⟨p, hp⟩ := hto ⟨spec, hmem, hid⟩
  obtain ⟨m, -, -, rfl⟩ := hfrom p hp
  rw [EngineState.progress, hp]
  exact scanAttempts_not_both healthy c.2 graph.workflowId m.nodeId _ rfl rfl

theorem Recovered.first {c : EngineCell} (h : Recovered graph c)
    (honly : OnlyFirst c.2 graph.workflowId) (hmax : ∀ n ∈ graph.nodes, 1 ≤ n.maxAttempts)
    {spec : NodeSpec} (hspec : graph.node node = some spec) :
    max (c.1.progress node).activeAttempt 1 = 1 ∧
      ((c.1.progress node).failed = true ↔
        firstState c.2 graph.workflowId node = some .failed ∨
          firstState c.2 graph.workflowId node = some .cancelled) := by
  obtain ⟨hmem, hid⟩ := PlanGraph.node_eq_some hspec
  have hview := h spec hmem
  rw [recover_progress_view honly hmax hmem, hid] at hview
  simp only [NodeProgress.view, Prod.mk.injEq] at hview
  obtain ⟨hactive, -, hfailed⟩ := hview
  rw [← hfailed, decide_eq_true_eq]
  exact ⟨hactive.symm, Iff.rfl⟩

theorem diverges_done {attempt : Nat}
    {outputs : List (String × String)}
    (hrecorded : ResultRecorded graph (s, j) (.done node attempt outputs))
    (hdiv : Diverges graph (s, j) (.done node attempt outputs)) :
    ¬ Recovered graph (advance graph (s, j) (.done node attempt outputs)) := by
  obtain ⟨spec, p, hspec, hp, hdone, hattempt, hvalid, hfailed⟩ := hdiv
  have hstep := EngineState.onDone_step healthy graph node attempt outputs s j
  have herror := onDone_error healthy j hspec hp hdone hattempt hvalid
  have hok := hrecorded (by simp)
  unfold EngineCall.run at hok
  unfold advance EngineCall.run
  dsimp only at hok hp ⊢
  generalize s.onDone healthy graph node attempt outputs j = out at hstep hok herror ⊢
  obtain ⟨result, s', j'⟩ := out
  dsimp only at hstep hok herror ⊢
  intro hrecovered
  cases hstep with
  | refused e he =>
      obtain ⟨e', rfl⟩ := herror e rfl
      exact he e' rfl
  | unrecorded _ _ _ _ _ _ _ e => exact hok e rfl
  | unsent _ _ _ _ _ _ _ _ _ _ e => exact hok e rfl
  | completed _ _ q hq =>
      have hpq : p = q := Option.some.inj (hp.symm.trans hq)
      subst hpq
      refine hrecovered.not_both hspec ?_
      rw [progress_set, if_pos rfl]
      exact ⟨rfl, hfailed⟩

theorem InStep.diverges_failed (h : InStep graph (s, j))
    (hmax : ∀ n ∈ graph.nodes, 1 ≤ n.maxAttempts) {attempt : Nat} {failoverEnabled : Bool}
    (hrecorded : ResultRecorded graph (s, j) (.failed node attempt failoverEnabled))
    (hdiv : Diverges graph (s, j) (.failed node attempt failoverEnabled)) :
    ¬ Recovered graph (advance graph (s, j) (.failed node attempt failoverEnabled)) := by
  obtain ⟨spec, p, hspec, hp, hdone, hattempt, hfailover, hlt⟩ := hdiv
  have hstep := EngineState.onFailed_step healthy graph node attempt failoverEnabled s j
  have herror := onFailed_error healthy j failoverEnabled hspec hp hdone hattempt
  have hok := hrecorded (by simp)
  unfold EngineCall.run at hok
  unfold advance EngineCall.run
  dsimp only at hok hp ⊢
  generalize s.onFailed healthy graph node attempt failoverEnabled j = out at hstep hok herror ⊢
  obtain ⟨result, s', j'⟩ := out
  dsimp only at hstep hok herror ⊢
  intro hrecovered
  have hone : attempt = 1 := hattempt.trans (h.active node p hp)
  subst hone
  cases hstep with
  | refused e he =>
      obtain ⟨e', rfl⟩ := herror e rfl
      exact he e' rfl
  | unrecorded _ _ _ _ e => exact hok e rfl
  | closed spec' hspec' _ _ _ _ _ _ hlast =>
      rw [hspec, Option.some.injEq] at hspec'
      subst hspec'
      exact hlast ⟨hfailover, hlt⟩
  | retried _ _ q _ _ _ j₂ hrecord _ rows =>
      have hattempts : j₂.attempts = j.attempts.insert (graph.workflowId, node, 1)
          ⟨EngineState.taskIdOf graph node 1, .failed⟩ := by
        rw [hrecord.attempts_eq ?_, Journal.releaseReservation_attempts]
        rw [Journal.releaseReservation_attempts]
        exact h.taskId node
      -- Memory is at the second attempt, the scan stops at the first.
      have hfirst := (hrecovered.first (h.only.insert hattempts) hmax hspec).1
      rw [progress_set, if_pos rfl] at hfirst
      simp at hfirst

theorem reserve_of_grantable {io : JournalCall → Bool} {workflowId key : String}
    {microunits : UInt64} (hio : io (.reserve key) = false) (purpose : String) (tokens : UInt64)
    (h : Grantable j workflowId key microunits) :
    ∃ out j', out ≠ .alreadyConsumed ∧
      j.reserve io workflowId key purpose tokens microunits = (.ok out, j') := by
  rcases h with ⟨row, hrow, hstate⟩ | ⟨hkey, w, hw, hgrants⟩
  · exact ⟨.replayed (asU64 row.tokensReserved), j, by simp, by
      simp [Journal.reserve, hio, hrow, hstate]⟩
  · exact ⟨.reserved tokens microunits, _, by simp,
      Journal.reserve_of_grants purpose tokens hio hkey hw hgrants⟩

theorem InStep.diverges_materialize (h : InStep graph (s, j))
    (hmax : ∀ n ∈ graph.nodes, 1 ≤ n.maxAttempts) {microunits : UInt64}
    (hdiv : Diverges graph (s, j) (.materialize node microunits)) :
    ¬ Recovered graph (advance graph (s, j) (.materialize node microunits)) := by
  obtain ⟨spec, p, hspec, hp, hdone, hdoubt, hfailed, hgrant⟩ := hdiv
  dsimp only at hp hgrant
  have hprogress : s.progress node = p := by simp [EngineState.progress, hp]
  have hone := h.active node p hp
  rw [hone, Nat.max_self] at hgrant
  obtain ⟨out, j₁, hout, hreserve⟩ := reserve_of_grantable
    (show healthy _ = false from rfl) (EngineState.reservationKey graph.workflowId node 1)
    spec.maxTokens hgrant
  have hattempts₁ : j₁.attempts = j.attempts := by
    have hstep := Journal.reserve_step healthy graph.workflowId
      (EngineState.reservationKey graph.workflowId node 1)
      (EngineState.reservationKey graph.workflowId node 1) spec.maxTokens microunits j
    rw [hreserve] at hstep
    exact hstep.attempts_eq
  -- The node has failed, so its row is there and takes the new state.
  obtain ⟨row, hrow, -⟩ : ∃ row, j.attempts.lookup (graph.workflowId, node, 1) = some row ∧
      row.state = .failed := by
    have := (h.failed node).mp (by simpa [hprogress] using hfailed)
    simpa [firstState] using this
  have htask := h.taskId node row hrow
  intro hrecovered
  have hfinal : ∃ s' j', advance graph (s, j) (.materialize node microunits) = (s', j') ∧
      (s'.progress node).failed = true ∧
      j'.attempts = j.attempts.insert (graph.workflowId, node, 1)
        ⟨EngineState.taskIdOf graph node 1, .published⟩ := by
    unfold advance EngineCall.run EngineState.materialize
    simp only [hspec, hprogress, hdone, hdoubt, hone, Nat.max_self, Bool.false_eq_true, if_false,
      hreserve]
    cases out with
    | alreadyConsumed => exact absurd rfl hout
    | reserved | replayed =>
        simp only [Journal.recordAttempt, healthy, Bool.false_eq_true, if_false, hattempts₁, hrow,
          htask, EngineState.taskIdOf, if_true, Journal.outboxAppend]
        refine ⟨_, _, rfl, ?_, rfl⟩
        rw [progress_set, if_pos rfl]
        exact hfailed
  obtain ⟨s', j', heq, hfailed', hattempts⟩ := hfinal
  rw [heq] at hrecovered
  have hfirst := (hrecovered.first (h.only.insert hattempts) hmax hspec).2
  rw [firstState_insert hattempts, if_pos rfl] at hfirst
  simpa using hfirst.mp hfailed'

/-- A call that diverges leaves recovery and memory apart. -/
theorem InStep.diverges (h : InStep graph (s, j)) (hmax : ∀ n ∈ graph.nodes, 1 ≤ n.maxAttempts)
    {call : EngineCall} (hrecorded : ResultRecorded graph (s, j) call)
    (hdiv : Diverges graph (s, j) call) : ¬ Recovered graph (advance graph (s, j) call) := by
  cases call with
  | materialize node microunits => exact h.diverges_materialize hmax hdiv
  | done node attempt outputs => exact diverges_done hrecorded hdiv
  | failed node attempt failoverEnabled => exact h.diverges_failed hmax hrecorded hdiv

end Steps

/-! ### Runs -/

theorem inStep_start {graph : PlanGraph} {s : EngineState} {j : Journal}
    (hfresh : ∀ key row, j.attempts.lookup key = some row → key.1 ≠ graph.workflowId)
    (hstart : s = default ∨ s = EngineState.recover healthy j graph) : InStep graph (s, j) := by
  have hnone : ∀ node a, j.attempts.lookup (graph.workflowId, node, a) = none := by
    intro node a
    cases hrow : j.attempts.lookup (graph.workflowId, node, a) with
    | none => rfl
    | some row => exact absurd rfl (hfresh _ _ hrow)
  have hfirst : ∀ node, firstState j graph.workflowId node = none := by
    intro node
    rw [firstState, hnone]
    rfl
  have hnodes : ∀ node p, s.nodes.lookup node = some p → p = .fresh := by
    intro node p hp
    rcases hstart with rfl | rfl
    · simp [default] at hp
    · obtain ⟨n, -, -, rfl⟩ := (lookup_recover healthy j graph node).1 p hp
      exact scanAttempts_of_none (fun a _ => hnone n.nodeId a) _
  have hprogress : ∀ node, (s.progress node).done = false ∧ (s.progress node).failed = false := by
    intro node
    unfold EngineState.progress
    cases hp : s.nodes.lookup node with
    | none => exact ⟨rfl, rfl⟩
    | some p =>
        rw [hnodes node p hp]
        exact ⟨rfl, rfl⟩
  refine ⟨?_, ?_, ?_, ?_, ?_, ?_⟩
  · intro node a row hrow
    rw [hnone] at hrow
    cases hrow
  · intro node row hrow
    rw [hnone] at hrow
    cases hrow
  · intro node p hp
    rw [hnodes node p hp]
    rfl
  · intro node
    simp [hfirst, hprogress]
  · intro node
    simp [hfirst, hprogress]
  · intro node
    simp [hfirst]

/-- Recovery finds what is in memory at every point of a run exactly when no
call of the run is one of those that diverge. -/
theorem recover_agrees_iff (workflowId : String) (planRevision : Nat) (cand : PlanCandidate)
    (j : Journal) (s : EngineState) (calls : List EngineCall)
    (hfresh : ∀ key row, j.attempts.lookup key = some row → key.1 ≠ workflowId)
    (hstart : s = default ∨ s = EngineState.recover healthy j
      (PlanGraph.fromCandidate workflowId planRevision cand))
    (hrecorded : Along (advance (PlanGraph.fromCandidate workflowId planRevision cand))
      (ResultRecorded (PlanGraph.fromCandidate workflowId planRevision cand)) (s, j) calls) :
    (∀ before, before <+: calls →
      Recovered (PlanGraph.fromCandidate workflowId planRevision cand)
        (before.foldl (advance (PlanGraph.fromCandidate workflowId planRevision cand)) (s, j))) ↔
      Along (advance (PlanGraph.fromCandidate workflowId planRevision cand))
        (fun c call => ¬ Diverges (PlanGraph.fromCandidate workflowId planRevision cand) c call)
        (s, j) calls := by
  set graph := PlanGraph.fromCandidate workflowId planRevision cand with hgraph
  have hmax : ∀ n ∈ graph.nodes, 1 ≤ n.maxAttempts := by
    intro n hn
    obtain ⟨c, -, rfl⟩ := List.mem_map.mp hn
    exact le_max_right _ _
  have hs : InStep graph (s, j) := inStep_start hfresh hstart
  clear hfresh hstart
  induction calls generalizing s j with
  | nil =>
      refine ⟨fun _ => trivial, fun _ before hbefore => ?_⟩
      rw [List.prefix_nil.mp hbefore]
      exact hs.recovered hmax
  | cons call calls ih =>
      obtain ⟨hcall, hrest⟩ := hrecorded
      constructor
      · intro hall
        have hkeep : ¬ Diverges graph (s, j) call := fun hdiv =>
          hs.diverges hmax hcall hdiv (hall [call] ⟨calls, rfl⟩)
        refine ⟨hkeep, (ih _ _ hrest (hs.kept hcall hkeep)).mp fun before hbefore => ?_⟩
        exact hall (call :: before) (List.cons_prefix_cons.mpr ⟨rfl, hbefore⟩)
      · rintro ⟨hkeep, halong⟩ before hbefore
        cases before with
        | nil => exact hs.recovered hmax
        | cons call' before =>
            obtain ⟨rfl, hprefix⟩ := List.cons_prefix_cons.mp hbefore
            exact (ih _ _ hrest (hs.kept hcall hkeep)).mpr halong before hprefix

/-! ### One node of the direct template -/

namespace Deployment

def template : PlanCandidate := directTemplatePlan ⟨"wf-1", "resuma"⟩

def templateGraph : PlanGraph := PlanGraph.fromCandidate "wf-1" 1 template

/-- The journal once the workflow is admitted. -/
def admittedJournal : Journal := (run config admitted).journal

end Deployment

open Deployment in
/-- A node materialised and done is recovered at every point. -/
theorem recover_agrees_of_done :
    Along (advance templateGraph) (ResultRecorded templateGraph) (default, admittedJournal)
        [.materialize "direct-0" 1, .done "direct-0" 1 [("out", "hash")]] ∧
      ∀ before, before <+: [.materialize "direct-0" 1, .done "direct-0" 1 [("out", "hash")]] →
        Recovered templateGraph
          (before.foldl (advance templateGraph) (default, admittedJournal)) := by
  have hrecorded : Along (advance templateGraph) (ResultRecorded templateGraph)
      (default, admittedJournal)
      [.materialize "direct-0" 1, .done "direct-0" 1 [("out", "hash")]] := by
    refine ⟨fun h => absurd rfl (h _ _), fun _ e he => ?_, trivial⟩
    have hnone : (EngineCall.run templateGraph (advance templateGraph (default, admittedJournal)
      (.materialize "direct-0" 1)) (.done "direct-0" 1 [("out", "hash")])).1 = none := by
      decide +kernel
    rw [hnone] at he
    cases he
  refine ⟨hrecorded, (recover_agrees_iff "wf-1" 1 template admittedJournal default _ ?_ (.inl rfl)
    hrecorded).mpr ⟨?_, ?_, trivial⟩⟩
  · have hempty : admittedJournal.attempts.entries = [] := by decide +kernel
    intro key row hrow
    have hmem := Map.mem_entries.mpr hrow
    rw [hempty] at hmem
    cases hmem
  · rintro ⟨spec, p, -, hp, -⟩
    simp [default] at hp
  · rintro ⟨spec, p, -, hp, -, -, -, hfailed⟩
    have hfresh : (advance templateGraph (default, admittedJournal)
        (.materialize "direct-0" 1)).1.nodes.lookup "direct-0" = some .fresh := by
      decide +kernel
    have heq : p = .fresh := Option.some.inj (hp.symm.trans hfresh)
    rw [heq] at hfailed
    cases hfailed

open Deployment in
/-- A failure that is retried is forgotten: memory is at the second attempt,
and recovery takes the node for failed at the first. -/
theorem recover_forgets_retry :
    validateCandidate template intent 10 = .ok () ∧
      ∃ calls : List EngineCall,
        Along (advance templateGraph)
          (fun c call => (EngineCall.run templateGraph c call).1 = none)
          (default, admittedJournal) calls ∧
        ((calls.foldl (advance templateGraph) (default, admittedJournal)).1.progress
          "direct-0").view = (2, false, false) ∧
        ((EngineState.recover healthy (calls.foldl (advance templateGraph)
          (default, admittedJournal)).2 templateGraph).progress "direct-0").view =
            (1, false, true) ∧
        ¬ Recovered templateGraph (calls.foldl (advance templateGraph)
          (default, admittedJournal)) := by
  refine ⟨by decide +kernel, [.materialize "direct-0" 1, .failed "direct-0" 1 true],
    ⟨by decide +kernel, by decide +kernel, trivial⟩, ?_⟩
  decide +kernel

end DdsOrchestrator.WorkflowEngine
