import DdsOrchestrator.WorkflowEngine.Recovery
import DdsOrchestrator.WorkflowEngine.Attempts

/-!
The error paths of the three engine calls, over every medium. A call is atomic
when an error leaves the memory as it was and the attempt at which the call was
aimed with a row and a reservation that go together.

Each call changes the memory before its last write, and none of the writes is
taken back, so a call that passes its checks is atomic only where the journal
cannot tell its prefixes apart.
-/

namespace DdsOrchestrator.WorkflowEngine

open EngineState

/-! ### Calls over any medium -/

/-- The error of a call over the medium `io`, if it fails, and what it leaves. -/
def EngineCall.runOn (io : JournalCall → Bool) (graph : PlanGraph) (c : EngineCell) :
    EngineCall → Option EngineError × EngineCell
  | .materialize node microunits =>
      let out := c.1.materialize io graph node microunits c.2
      (Except.refusal out.1, out.2)
  | .done node attempt outputs =>
      let out := c.1.onDone io graph node attempt outputs c.2
      (Except.refusal out.1, out.2)
  | .failed node attempt failoverEnabled =>
      let out := c.1.onFailed io graph node attempt failoverEnabled c.2
      (Except.refusal out.1, out.2)

def EngineCall.node : EngineCall → String
  | .materialize node _ | .done node _ _ | .failed node _ _ => node

/-- The attempt the call is about. -/
def EngineCall.attempt (s : EngineState) : EngineCall → Nat
  | .materialize node _ => (s.started node).activeAttempt
  | .done _ attempt _ | .failed _ attempt _ => attempt

/-- The reservation under `key` is still in state `reserved`. -/
def Journal.Held (j : Journal) (key : String) : Prop :=
  ∃ row, j.reservations.lookup key = some row ∧ row.state = .reserved

/-- The row of the attempt says `done` or `failed`. -/
def Journal.Closed (j : Journal) (key : AttemptKey) : Prop :=
  ∃ row, j.attempts.lookup key = some row ∧ (row.state = .done ∨ row.state = .failed)

/-- An attempt that is over while its reservation is still held. -/
def Journal.Torn (j : Journal) (workflowId node : String) (attempt : Nat) : Prop :=
  j.Closed (workflowId, node, attempt) ∧ j.Held (reservationKey workflowId node attempt)

/-- An error of the call over `io` leaves the memory as it was and the attempt
untorn. -/
def ErrorAtomic (io : JournalCall → Bool) (graph : PlanGraph) (c : EngineCell)
    (call : EngineCall) : Prop :=
  (call.runOn io graph c).1 ≠ none →
    (∀ id, (call.runOn io graph c).2.1.nodes.lookup id = c.1.nodes.lookup id) ∧
      ¬ (call.runOn io graph c).2.2.Torn graph.workflowId call.node (call.attempt c.1)

/-! ### When an error leaves no trace -/

/-- The call passes the checks that come before its first write. -/
def Accepts (graph : PlanGraph) (c : EngineCell) : EngineCall → Prop
  | .materialize node _ =>
      ∃ spec, graph.node node = some spec ∧ (c.1.progress node).done = false ∧
        (c.1.progress node).inDoubt = false
  | .done node attempt outputs =>
      ∃ spec p, graph.node node = some spec ∧ c.1.nodes.lookup node = some p ∧ p.done = false ∧
        attempt = p.activeAttempt ∧ outputsValid spec outputs = true
  | .failed node attempt _ =>
      ∃ spec p, graph.node node = some spec ∧ c.1.nodes.lookup node = some p ∧ p.done = false ∧
        attempt = p.activeAttempt

/-- The constraints of `attempts` let a row be written under this key. -/
def Recordable (j : Journal) (key : AttemptKey) (taskId : String) : Prop :=
  key ∈ j.attempts ∨ j.taskIdTaken taskId = false ∧ key.1 ∈ j.workflows

/-- The condition on a call that passes its checks. A materialisation must find
the node in memory with an attempt, a reservation that is not consumed, and, if
the attempt is over, one it cannot get either. A DONE result has no such case.
A FAILED result must find the attempt untorn and no retry that could be
recorded. -/
def LeavesNoTrace (graph : PlanGraph) (c : EngineCell) : EngineCall → Prop
  | .materialize node microunits =>
      (∃ p, c.1.nodes.lookup node = some p ∧ 1 ≤ p.activeAttempt) ∧
        ¬ c.2.Spent (reservationKey graph.workflowId node (c.1.started node).activeAttempt) ∧
        (c.2.Closed (graph.workflowId, node, (c.1.started node).activeAttempt) →
          ¬ Grantable c.2 graph.workflowId
            (reservationKey graph.workflowId node (c.1.started node).activeAttempt) microunits)
  | .done _ _ _ => False
  | .failed node attempt failoverEnabled =>
      ¬ c.2.Torn graph.workflowId node attempt ∧
        ((failoverEnabled = true ∧ ∃ spec, graph.node node = some spec ∧
            attempt < spec.maxAttempts) →
          ¬ Recordable c.2 (graph.workflowId, node, attempt) (taskIdOf graph node attempt))

/-- The call is refused by its checks and the attempt is untorn already, or it
passes them and leaves no trace. -/
def SurvivesErrors (graph : PlanGraph) (c : EngineCell) (call : EngineCall) : Prop :=
  (Accepts graph c call → LeavesNoTrace graph c call) ∧
    (¬ Accepts graph c call → ¬ c.2.Torn graph.workflowId call.node (call.attempt c.1))

/-! ### The condition is enough -/

section Calls

variable {graph : PlanGraph} {s : EngineState} {j j' : Journal} {node : String}

theorem Journal.Closed.of_eq {key : AttemptKey} (h : j'.Closed key)
    (hattempts : j'.attempts = j.attempts) : j.Closed key := by
  obtain ⟨row, hrow, hstate⟩ := h
  exact ⟨row, hattempts ▸ hrow, hstate⟩

theorem Journal.Held.grantable {workflowId key : String} {microunits : UInt64} (h : j.Held key) :
    Grantable j workflowId key microunits :=
  .inl h

/-- A reservation that was made or found is held. -/
theorem EngineState.Reserves.held {workflowId key : String} {tokens microunits : UInt64}
    (h : Reserves workflowId key tokens microunits j j') : j'.Held key := by
  obtain ⟨out, hout, hstep⟩ := h
  cases hstep with
  | replayed row hrow hstate => exact ⟨row, hrow, hstate⟩
  | consumed => exact absurd rfl hout
  | reserved row => exact ⟨_, Map.lookup_insert_eq_some.mpr (.inl ⟨rfl, rfl⟩), rfl⟩

/-- A release holds nothing that was not held before. -/
theorem Journal.Held.of_release {io : JournalCall → Bool} {key : String} {measured : Option UInt64}
    (h : (j.releaseReservation io key measured).2.Held key) : j.Held key := by
  have hstep := Journal.releaseReservation_step io key measured j
  generalize j.releaseReservation io key measured = out at hstep h
  obtain ⟨result, j'⟩ := out
  dsimp only at hstep h
  cases hstep with
  | failed => exact h
  | orphan row hrow hstate => exact ⟨row, hrow, hstate⟩
  | released row w hrow hstate => exact ⟨row, hrow, hstate⟩

/-- What was written could have been written before the release. -/
theorem Journal.RecordStep.recordable {io : JournalCall → Bool} {key : AttemptKey}
    {taskId reservation : String} {state : AttemptState} {measured : Option UInt64}
    (h : Journal.RecordStep key taskId state (j.releaseReservation io reservation measured).2
      (.ok ()) j') : Recordable j key taskId := by
  have hattempts := Journal.releaseReservation_attempts io reservation measured j
  have hworkflows : ∀ id, id ∈ (j.releaseReservation io reservation measured).2.workflows →
      id ∈ j.workflows := by
    have hstep := Journal.releaseReservation_step io reservation measured j
    generalize j.releaseReservation io reservation measured = out at hstep ⊢
    obtain ⟨result, j₁⟩ := out
    intro id hid
    cases hstep with
    | failed | orphan => exact hid
    | released row w hrow hstate hworkflow =>
        rcases (AList.mem_insert _).mp hid with rfl | hid
        · exact Map.mem_iff_lookup.mpr ⟨w, hworkflow⟩
        · exact hid
  cases h with
  | ignored row hrow =>
      rw [hattempts] at hrow
      exact .inl (Map.mem_iff_lookup.mpr ⟨row, hrow⟩)
  | written hsame hfresh =>
      rw [hattempts] at hfresh
      by_cases hkey : key ∈ j.attempts
      · exact .inl hkey
      · obtain ⟨hfree, hknown⟩ := hfresh (AList.lookup_eq_none.mpr hkey)
        exact .inr ⟨Journal.taskIdTaken_eq_false.mpr hfree, hworkflows _ hknown⟩

/-- A node that is in memory with an attempt is started as it is. -/
theorem lookup_set_started {p : NodeProgress} (hp : s.nodes.lookup node = some p)
    (hactive : 1 ≤ p.activeAttempt) (id : String) :
    (s.set node (s.started node)).nodes.lookup id = s.nodes.lookup id := by
  have hstarted : s.started node = p := by
    simp [started, progress, hp, Nat.max_eq_left hactive]
  rw [lookup_set, hstarted, ← lookup_of_same hp]

theorem errorAtomic_materialize {microunits : UInt64}
    (h : SurvivesErrors graph (s, j) (.materialize node microunits)) (io : JournalCall → Bool) :
    ErrorAtomic io graph (s, j) (.materialize node microunits) := by
  obtain ⟨haccepted, hrefused⟩ := h
  have hstep := EngineState.materialize_step io graph node microunits s j
  unfold ErrorAtomic EngineCall.runOn
  simp only [EngineCall.node, EngineCall.attempt] at haccepted hrefused ⊢
  generalize s.materialize io graph node microunits j = out at hstep ⊢
  obtain ⟨result, s', j'⟩ := out
  dsimp only at hstep ⊢
  intro herr
  cases hstep with
  | unknown hspec =>
      refine ⟨fun _ => rfl, hrefused ?_⟩
      rintro ⟨spec, hsome, -⟩
      cases hspec.symm.trans hsome
  | done hdone =>
      refine ⟨fun _ => rfl, hrefused ?_⟩
      rintro ⟨spec, -, hnot, -⟩
      cases hdone.symm.trans hnot
  | doubtful hdoubt =>
      refine ⟨fun _ => rfl, hrefused ?_⟩
      rintro ⟨spec, -, -, hnot⟩
      cases hdoubt.symm.trans hnot
  | unreserved hdone hdoubt spec hspec =>
      obtain ⟨⟨p, hp, hactive⟩, -, hfree⟩ := haccepted ⟨spec, hspec, hdone, hdoubt⟩
      refine ⟨lookup_set_started hp hactive, ?_⟩
      rintro ⟨hclosed, hheld⟩
      exact hfree hclosed hheld.grantable
  | consumed hdone spec hspec row hrow hstate hdoubt =>
      obtain ⟨-, hspent, -⟩ := haccepted ⟨spec, hspec, hdone, hdoubt⟩
      exact absurd ⟨row, hrow, hstate⟩ hspent
  | unrecorded hdone hdoubt spec hspec j₁ hreserve =>
      obtain ⟨⟨p, hp, hactive⟩, -, hfree⟩ := haccepted ⟨spec, hspec, hdone, hdoubt⟩
      refine ⟨lookup_set_started hp hactive, ?_⟩
      rintro ⟨hclosed, -⟩
      have hgrant := hreserve.grantable
      obtain ⟨_, -, hreserve⟩ := hreserve
      exact hfree (hclosed.of_eq hreserve.attempts_eq) hgrant
  | recorded hdone hdoubt spec hspec j₁ j₂ hreserve hrecord rows =>
      obtain ⟨⟨p, hp, hactive⟩, -, hfree⟩ := haccepted ⟨spec, hspec, hdone, hdoubt⟩
      refine ⟨lookup_set_started hp hactive, ?_⟩
      rintro ⟨hclosed, -⟩
      have hgrant := hreserve.grantable
      obtain ⟨_, -, hreserve⟩ := hreserve
      cases hrecord with
      | ignored => exact hfree (hclosed.of_eq hreserve.attempts_eq) hgrant
      | written =>
          obtain ⟨row, hrow, hstate⟩ := hclosed
          rcases Map.lookup_insert_eq_some.mp hrow with ⟨-, rfl⟩ | ⟨hne, -⟩
          · simp at hstate
          · exact hne rfl

theorem errorAtomic_failed {attempt : Nat} {failoverEnabled : Bool}
    (h : SurvivesErrors graph (s, j) (.failed node attempt failoverEnabled))
    (io : JournalCall → Bool) :
    ErrorAtomic io graph (s, j) (.failed node attempt failoverEnabled) := by
  obtain ⟨haccepted, hrefused⟩ := h
  have hstep := EngineState.onFailed_step io graph node attempt failoverEnabled s j
  have herror : ∀ e, (s.onFailed io graph node attempt failoverEnabled j).1 = .error e →
      Accepts graph (s, j) (.failed node attempt failoverEnabled) → ∃ e', e = .journal e' := by
    rintro e he ⟨spec, p, hspec, hp, hdone, hattempt⟩
    exact onFailed_error io j failoverEnabled hspec hp hdone hattempt e he
  unfold ErrorAtomic EngineCall.runOn
  simp only [EngineCall.node, EngineCall.attempt] at hrefused ⊢
  generalize s.onFailed io graph node attempt failoverEnabled j = out at hstep herror ⊢
  obtain ⟨result, s', j'⟩ := out
  dsimp only at hstep herror ⊢
  intro herr
  cases hstep with
  | refused e he =>
      refine ⟨fun _ => rfl, hrefused fun hacc => ?_⟩
      obtain ⟨e', rfl⟩ := herror e rfl hacc
      exact he e' rfl
  | unrecorded p hp hdone hattempt e spec hspec =>
      obtain ⟨huntorn, -⟩ := haccepted ⟨spec, p, hspec, hp, hdone, hattempt⟩
      refine ⟨fun _ => rfl, ?_⟩
      rintro ⟨hclosed, hheld⟩
      exact huntorn ⟨hclosed.of_eq (Journal.releaseReservation_attempts io _ none j),
        hheld.of_release⟩
  | retried spec hspec p hp hdone hattempt j₂ hrecord hretry =>
      obtain ⟨-, hlast⟩ := haccepted ⟨spec, p, hspec, hp, hdone, hattempt⟩
      exact absurd hrecord.recordable (hlast ⟨hretry.1, spec, hspec, hretry.2⟩)
  | closed => exact absurd rfl herr

theorem errorAtomic_done {attempt : Nat} {outputs : List (String × String)}
    (h : SurvivesErrors graph (s, j) (.done node attempt outputs)) (io : JournalCall → Bool) :
    ErrorAtomic io graph (s, j) (.done node attempt outputs) := by
  obtain ⟨haccepted, hrefused⟩ := h
  have hstep := EngineState.onDone_step io graph node attempt outputs s j
  unfold ErrorAtomic EngineCall.runOn
  simp only [EngineCall.node, EngineCall.attempt] at hrefused ⊢
  generalize s.onDone io graph node attempt outputs j = out at hstep ⊢
  obtain ⟨result, s', j'⟩ := out
  dsimp only at hstep ⊢
  intro herr
  cases hstep with
  | refused => exact ⟨fun _ => rfl, hrefused haccepted⟩
  | unrecorded spec hspec p hp hdone hattempt hvalid
  | unsent spec hspec p hp hdone hattempt hvalid =>
      exact absurd ⟨spec, p, hspec, hp, hdone, hattempt, hvalid⟩ haccepted
  | completed => exact absurd rfl herr

/-! ### The condition is necessary

For each part of it there is a medium on which the call fails and shows. -/

/-- Nothing is written. -/
def broken : JournalCall → Bool := fun _ => true

/-- Attempts are not written; everything else is. -/
def attemptsFail : JournalCall → Bool
  | .recordAttempt _ _ => true
  | _ => false

/-- Only attempts are written. -/
def onlyAttempts : JournalCall → Bool
  | .recordAttempt _ _ => false
  | _ => true

theorem recordAttempt_of_recordable {io : JournalCall → Bool} {key : AttemptKey} {taskId : String}
    {state : AttemptState} (hio : io (.recordAttempt key state) = false)
    (h : Recordable j key taskId) :
    ∃ j', j.recordAttempt io key taskId state = (.ok (), j') := by
  simp only [Journal.recordAttempt, hio, Bool.false_eq_true, if_false]
  cases hrow : j.attempts.lookup key with
  | none =>
      obtain ⟨hfree, hknown⟩ := h.resolve_left (AList.lookup_eq_none.mp hrow)
      simp [hfree, hknown]
  | some row =>
      by_cases hsame : row.taskId = taskId
      · simp [hsame]
      · simp [hsame]

theorem leavesNoTrace_materialize {microunits : UInt64}
    (h : ∀ io, ErrorAtomic io graph (s, j) (.materialize node microunits))
    (haccepts : Accepts graph (s, j) (.materialize node microunits)) :
    LeavesNoTrace graph (s, j) (.materialize node microunits) := by
  obtain ⟨spec, hspec, hdone, hdoubt⟩ := haccepts
  dsimp only at hdone hdoubt
  refine ⟨?_, ?_, ?_⟩
  · -- The first write fails: the node is in memory all the same.
    have hrun : (EngineCall.materialize node microunits).runOn broken graph (s, j) =
        (some (.journal ioFailure), s.set node (s.started node), j) := by
      simp [EngineCall.runOn, materialize, hspec, hdone, hdoubt, Journal.reserve, broken,
        Except.refusal, started]
    have hsame := h broken
    rw [ErrorAtomic, hrun] at hsame
    have hnode := (hsame (by simp)).1 node
    rw [lookup_set, if_pos rfl] at hnode
    exact ⟨_, hnode.symm, le_max_right _ _⟩
  · -- A consumed reservation puts the node in doubt.
    rintro ⟨row, hrow, hstate⟩
    simp only [started] at hrow
    have hrun : (EngineCall.materialize node microunits).runOn healthy graph (s, j) =
        (some (.reservationConsumed node (s.started node).activeAttempt),
          s.set node { s.started node with inDoubt := true }, j) := by
      simp [EngineCall.runOn, materialize, hspec, hdone, hdoubt, Journal.reserve, healthy,
        hrow, hstate, Except.refusal, started, set_set]
    have hsame := h healthy
    rw [ErrorAtomic, hrun] at hsame
    have hnode := (hsame (by simp)).1 node
    rw [lookup_set, if_pos rfl] at hnode
    simp [progress, ← hnode] at hdoubt
  · -- The reservation is made and the row of the closed attempt is not written.
    intro hclosed hgrant
    obtain ⟨out, j₁, hout, hreserve⟩ := reserve_of_grantable
      (show attemptsFail (.reserve _) = false from rfl)
      (reservationKey graph.workflowId node (s.started node).activeAttempt) spec.maxTokens hgrant
    have hstep := Journal.reserve_step attemptsFail graph.workflowId
      (reservationKey graph.workflowId node (s.started node).activeAttempt)
      (reservationKey graph.workflowId node (s.started node).activeAttempt) spec.maxTokens
      microunits j
    rw [hreserve] at hstep
    have hrun : (EngineCall.materialize node microunits).runOn attemptsFail graph (s, j) =
        (some (.journal ioFailure), s.set node (s.started node), j₁) := by
      simp only [started] at hreserve
      cases out with
      | alreadyConsumed => exact absurd rfl hout
      | reserved | replayed =>
          simp [EngineCall.runOn, materialize, hspec, hdone, hdoubt, hreserve,
            Journal.recordAttempt, attemptsFail, Except.refusal, started]
    have hsame := h attemptsFail
    rw [ErrorAtomic, hrun] at hsame
    have hheld : j₁.Held _ := EngineState.Reserves.held ⟨out, hout, hstep⟩
    exact (hsame (by simp)).2 ⟨hclosed.of_eq hstep.attempts_eq.symm, hheld⟩

theorem leavesNoTrace_done {attempt : Nat} {outputs : List (String × String)}
    (h : ErrorAtomic broken graph (s, j) (.done node attempt outputs)) :
    ¬ Accepts graph (s, j) (.done node attempt outputs) := by
  rintro ⟨spec, p, hspec, hp, hdone, hattempt, hvalid⟩
  dsimp only at hp
  have hrun : (EngineCall.done node attempt outputs).runOn broken graph (s, j) =
      (some (.journal ioFailure), s.set node { p with done := true, outputs := outputs }, j) := by
    simp [EngineCall.runOn, onDone, hspec, hp, hdone, hattempt, hvalid, Journal.recordAttempt,
      broken, Except.refusal]
  rw [ErrorAtomic, hrun] at h
  have hnode := (h (by simp)).1 node
  rw [lookup_set, if_pos rfl, hp, Option.some.injEq] at hnode
  rw [← hnode] at hdone
  cases hdone

theorem leavesNoTrace_failed {attempt : Nat} {failoverEnabled : Bool}
    (h : ∀ io, ErrorAtomic io graph (s, j) (.failed node attempt failoverEnabled))
    (haccepts : Accepts graph (s, j) (.failed node attempt failoverEnabled)) :
    LeavesNoTrace graph (s, j) (.failed node attempt failoverEnabled) := by
  obtain ⟨spec, p, hspec, hp, hdone, hattempt⟩ := haccepts
  dsimp only at hp
  refine ⟨?_, ?_⟩
  · -- Neither the release nor the row is written.
    have hrun : (EngineCall.failed node attempt failoverEnabled).runOn broken graph (s, j) =
        (some (.journal ioFailure), s, j) := by
      simp [EngineCall.runOn, onFailed, hspec, hp, hdone, hattempt, Journal.releaseReservation,
        Journal.recordAttempt, broken, Except.refusal]
    have hsame := h broken
    rw [ErrorAtomic, hrun] at hsame
    exact (hsame (by simp)).2
  · -- The row is written and the retry is not announced.
    rintro ⟨hfailover, spec', hspec', hlt⟩ hrecordable
    cases hspec.symm.trans hspec'
    obtain ⟨j', hrecord⟩ := recordAttempt_of_recordable
      (show onlyAttempts (.recordAttempt _ .failed) = false from rfl) hrecordable
    have hrun : (EngineCall.failed node attempt failoverEnabled).runOn onlyAttempts graph (s, j) =
        (some (.journal ioFailure), s.set node { p with activeAttempt := attempt + 1 }, j') := by
      dsimp only [taskIdOf] at hrecord
      have hrelease : (j.releaseReservation onlyAttempts
          (reservationKey graph.workflowId node attempt) none).2 = j := rfl
      simp only [EngineCall.runOn, onFailed, hspec, hp, hdone, ← hattempt, hrelease, hrecord,
        Bool.false_eq_true, if_false, ne_eq, not_true_eq_false]
      rw [if_pos ⟨hfailover, hlt⟩]
      rfl
    have hsame := h onlyAttempts
    rw [ErrorAtomic, hrun] at hsame
    have hnode := (hsame (by simp)).1 node
    rw [lookup_set, if_pos rfl, hp, Option.some.injEq] at hnode
    rw [← hnode] at hattempt
    simp at hattempt

theorem EngineCall.runOn_of_refused {c : EngineCell} {call : EngineCall}
    (h : ¬ Accepts graph c call) : ∃ e, call.runOn healthy graph c = (some e, c) := by
  obtain ⟨s, j⟩ := c
  cases call with
  | materialize node microunits =>
      have hstep := EngineState.materialize_step healthy graph node microunits s j
      unfold EngineCall.runOn
      dsimp only
      generalize s.materialize healthy graph node microunits j = out at hstep ⊢
      obtain ⟨result, s', j'⟩ := out
      dsimp only at hstep ⊢
      cases hstep with
      | unknown | done | doubtful => exact ⟨_, rfl⟩
      | unreserved hdone hdoubt spec hspec | unrecorded hdone hdoubt spec hspec
      | recorded hdone hdoubt spec hspec | consumed hdone spec hspec _ _ _ hdoubt =>
          exact absurd ⟨spec, hspec, hdone, hdoubt⟩ h
  | done node attempt outputs =>
      have hstep := EngineState.onDone_step healthy graph node attempt outputs s j
      unfold EngineCall.runOn
      dsimp only
      generalize s.onDone healthy graph node attempt outputs j = out at hstep ⊢
      obtain ⟨result, s', j'⟩ := out
      dsimp only at hstep ⊢
      cases hstep with
      | refused => exact ⟨_, rfl⟩
      | unrecorded spec hspec p hp hdone hattempt hvalid
      | unsent spec hspec p hp hdone hattempt hvalid
      | completed spec hspec p hp hdone hattempt hvalid =>
          exact absurd ⟨spec, p, hspec, hp, hdone, hattempt, hvalid⟩ h
  | failed node attempt failoverEnabled =>
      have hstep := EngineState.onFailed_step healthy graph node attempt failoverEnabled s j
      unfold EngineCall.runOn
      dsimp only
      generalize s.onFailed healthy graph node attempt failoverEnabled j = out at hstep ⊢
      obtain ⟨result, s', j'⟩ := out
      dsimp only at hstep ⊢
      cases hstep with
      | refused => exact ⟨_, rfl⟩
      | unrecorded p hp hdone hattempt _ spec hspec
      | retried spec hspec p hp hdone hattempt
      | closed spec hspec p hp hdone hattempt =>
          exact absurd ⟨spec, p, hspec, hp, hdone, hattempt⟩ h

end Calls

/-- A call is atomic over every medium exactly when it is refused with its
attempt untorn or leaves no trace. -/
theorem error_atomic_iff (graph : PlanGraph) (c : EngineCell) (call : EngineCall) :
    (∀ io, ErrorAtomic io graph c call) ↔ SurvivesErrors graph c call := by
  obtain ⟨s, j⟩ := c
  constructor
  · intro h
    refine ⟨fun haccepts => ?_, fun hrefused => ?_⟩
    · cases call with
      | materialize node microunits => exact leavesNoTrace_materialize h haccepts
      | done node attempt outputs => exact leavesNoTrace_done (h broken) haccepts
      | failed node attempt failoverEnabled => exact leavesNoTrace_failed h haccepts
    · obtain ⟨e, hrun⟩ := EngineCall.runOn_of_refused hrefused
      have hsame := h healthy
      rw [ErrorAtomic, hrun] at hsame
      exact (hsame (by simp)).2
  · intro h io
    cases call with
    | materialize node microunits => exact errorAtomic_materialize h io
    | done node attempt outputs => exact errorAtomic_done h io
    | failed node attempt failoverEnabled => exact errorAtomic_failed h io

namespace Deployment

/-- The outbox is not written; everything else is. -/
def outboxFails : JournalCall → Bool
  | .outboxAppend _ _ _ => true
  | _ => false

/-- The node of the template in its first attempt. -/
def materialized : EngineCell :=
  advance templateGraph (default, admittedJournal) (.materialize "direct-0" 1)

end Deployment

open Deployment in
/-- The outbox row of a DONE result cannot be written: the call is refused, the
node is done in memory, and the row of its attempt is closed while the
reservation is held. -/
theorem done_error_tears :
    ((EngineCall.done "direct-0" 1 [("out", "hash")]).runOn outboxFails templateGraph
        materialized).1 = some (.journal ioFailure) ∧
      (materialized.1.progress "direct-0").done = false ∧
      (((EngineCall.done "direct-0" 1 [("out", "hash")]).runOn outboxFails templateGraph
        materialized).2.1.progress "direct-0").done = true ∧
      ((EngineCall.done "direct-0" 1 [("out", "hash")]).runOn outboxFails templateGraph
        materialized).2.2.Torn "wf-1" "direct-0" 1 ∧
      ¬ ErrorAtomic outboxFails templateGraph materialized
        (.done "direct-0" 1 [("out", "hash")]) := by
  obtain ⟨herr, hbefore, hafter, hrow, hreservation⟩ :
      ((EngineCall.done "direct-0" 1 [("out", "hash")]).runOn outboxFails templateGraph
          materialized).1 = some (.journal ioFailure) ∧
        (materialized.1.progress "direct-0").done = false ∧
        (((EngineCall.done "direct-0" 1 [("out", "hash")]).runOn outboxFails templateGraph
          materialized).2.1.progress "direct-0").done = true ∧
        (((EngineCall.done "direct-0" 1 [("out", "hash")]).runOn outboxFails templateGraph
          materialized).2.2.attempts.lookup ("wf-1", "direct-0", 1)).map (·.state) =
            some .done ∧
        (((EngineCall.done "direct-0" 1 [("out", "hash")]).runOn outboxFails templateGraph
          materialized).2.2.reservations.lookup
            (reservationKey "wf-1" "direct-0" 1)).map (·.state) = some .reserved := by
    decide +kernel
  obtain ⟨row, hrow, hdone⟩ := Option.map_eq_some_iff.mp hrow
  have htorn : ((EngineCall.done "direct-0" 1 [("out", "hash")]).runOn outboxFails templateGraph
      materialized).2.2.Torn "wf-1" "direct-0" 1 :=
    ⟨⟨row, hrow, .inl hdone⟩, Option.map_eq_some_iff.mp hreservation⟩
  refine ⟨herr, hbefore, hafter, htorn, fun h => ?_⟩
  exact (h (by simp [herr])).2 htorn

end DdsOrchestrator.WorkflowEngine
