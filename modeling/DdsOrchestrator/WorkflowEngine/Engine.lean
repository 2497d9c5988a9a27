import Mathlib.Data.Finset.Basic
import DdsOrchestrator.WorkflowEngine.Dag
import DdsOrchestrator.WorkflowEngine.Journal

/-!
Scheduler, materialiser and recovery of one workflow, over the journal.
Readiness is by dependency; a node is materialised under a physical task id of
its active attempt; a failed attempt is retried under a new attempt when
failover is on; results of attempts that are not active are refused.

The three operations change the in-memory state and the journal in the order
of the source and keep what they have changed when they fail.
-/

namespace DdsOrchestrator.WorkflowEngine

/-! ### Plan graphs -/

structure NodeSpec where
  nodeId : String
  dependencies : List String
  outputNames : List String
  maxAttempts : Nat
  maxTokens : UInt64
  priority : Int
  modelId : String
  targetAgentId : String
  deriving DecidableEq

def NodeSpec.fromCandidate (c : CandidateNode) : NodeSpec where
  nodeId := c.nodeId
  dependencies := c.dependencies
  outputNames := c.outputNames
  maxAttempts := max c.maxAttempts.toNat 1
  maxTokens := c.maxTokens
  priority := c.priority
  modelId := c.modelId
  targetAgentId := c.targetAgentId

structure PlanGraph where
  workflowId : String
  planRevision : Nat
  nodes : List NodeSpec
  deriving DecidableEq

namespace PlanGraph

def fromCandidate (workflowId : String) (planRevision : Nat) (c : PlanCandidate) : PlanGraph :=
  ⟨workflowId, planRevision, c.nodes.map NodeSpec.fromCandidate⟩

def node (graph : PlanGraph) (id : String) : Option NodeSpec :=
  graph.nodes.find? fun n => n.nodeId = id

/-- The nodes that are not done and all of whose dependencies are. -/
def readyNodes (graph : PlanGraph) (done : Finset String) : List NodeSpec :=
  graph.nodes.filter fun n => n.nodeId ∉ done ∧ ∀ d ∈ n.dependencies, d ∈ done

theorem node_eq_some {graph : PlanGraph} {id : String} {spec : NodeSpec}
    (h : graph.node id = some spec) : spec ∈ graph.nodes ∧ spec.nodeId = id :=
  ⟨List.mem_of_find?_eq_some h, by simpa using List.find?_some h⟩

theorem node_isSome {graph : PlanGraph} {spec : NodeSpec} (h : spec ∈ graph.nodes) :
    ∃ found, graph.node spec.nodeId = some found := by
  have hsome : (graph.node spec.nodeId).isSome := by
    rw [node, List.find?_isSome]
    exact ⟨spec, h, by simp⟩
  exact Option.isSome_iff_exists.mp hsome

end PlanGraph

/-! ### Progress -/

inductive EngineError where
  | journal (e : JournalError)
  | unknownNode (node : String)
  | invalidOutput (node : String)
  | staleAttempt (node : String) (attempt active : Nat)
  | alreadyDone (node : String)
  | reservationConsumed (node : String) (attempt : Nat)
  /-- A panic of the source, kept as an outcome. -/
  | panicked (message : String)
  deriving DecidableEq

def EngineError.message : EngineError → String
  | journal e => "journal: " ++ e.message
  | unknownNode node => "nó " ++ node ++ " desconhecido no plano"
  | invalidOutput node =>
      "output inválido do nó " ++ node ++ ": hash vazio ou tamanho > declarado"
  | staleAttempt node attempt active =>
      "resultado de tentativa antiga (" ++ node ++ "@" ++ toString attempt ++
        ") ignorado: ativa é " ++ toString active
  | alreadyDone node => "nó " ++ node ++ " já concluído (duplicata ignorada)"
  | reservationConsumed node attempt =>
      "tentativa " ++ toString attempt ++ " do nó " ++ node ++
        " com reserva consumida/IN_DOUBT: re-execução automática bloqueada"
  | panicked message => message

structure NodeProgress where
  activeAttempt : Nat
  done : Bool
  failed : Bool
  inDoubt : Bool
  outputs : List (String × String)
  deriving DecidableEq

instance : Inhabited NodeProgress := ⟨⟨0, false, false, false, []⟩⟩

/-- The progress of a node before its first attempt. -/
def NodeProgress.fresh : NodeProgress := { (default : NodeProgress) with activeAttempt := 1 }

structure EngineState where
  nodes : Map String NodeProgress
  deriving DecidableEq

instance : Inhabited EngineState := ⟨⟨∅⟩⟩

namespace EngineState

def set (s : EngineState) (node : String) (p : NodeProgress) : EngineState :=
  ⟨s.nodes.insert node p⟩

@[simp] theorem lookup_set (s : EngineState) (node : String) (p : NodeProgress) (id : String) :
    (s.set node p).nodes.lookup id = if id = node then some p else s.nodes.lookup id :=
  Map.lookup_insert_if _ _ _ _

def doneSet (s : EngineState) : Finset String :=
  ((s.nodes.entries.filter fun e => e.2.done).map fun e => e.1).toFinset

theorem mem_doneSet {s : EngineState} {id : String} :
    id ∈ s.doneSet ↔ ∃ p, s.nodes.lookup id = some p ∧ p.done := by
  simp only [doneSet, List.mem_toFinset, List.mem_map, List.mem_filter]
  constructor
  · rintro ⟨⟨k, p⟩, ⟨he, hdone⟩, rfl⟩
    exact ⟨p, Map.mem_entries.mp he, hdone⟩
  · rintro ⟨p, hp, hdone⟩
    exact ⟨⟨id, p⟩, ⟨Map.mem_entries.mpr hp, hdone⟩, rfl⟩

/-- `nodes.values().all(|p| p.done)`. -/
def allDone (s : EngineState) : Bool := s.nodes.entries.all fun e => e.2.done

theorem allDone_iff {s : EngineState} :
    s.allDone = true ↔ ∀ id p, s.nodes.lookup id = some p → p.done = true := by
  simp only [allDone, List.all_eq_true]
  constructor
  · intro h id p hp
    exact h ⟨id, p⟩ (Map.mem_entries.mpr hp)
  · rintro h ⟨id, p⟩ he
    exact h id p (Map.mem_entries.mp he)

end EngineState

/-! ### Recovery -/

variable (io : JournalCall → Bool)

/-- The scan over the attempts of one node: a closed attempt ends it, an
attempt in doubt blocks the node, any other row moves the active attempt, and
an attempt that cannot be read is passed over. -/
def scanAttempts (j : Journal) (workflowId node : String) :
    List Nat → NodeProgress → NodeProgress
  | [], p => p
  | attempt :: rest, p =>
      match j.attemptState io (workflowId, node, attempt) with
      | .error _ => scanAttempts j workflowId node rest p
      | .ok .done => { p with done := true, activeAttempt := attempt }
      | .ok .failed | .ok .cancelled => { p with failed := true, activeAttempt := attempt }
      | .ok .inDoubt =>
          scanAttempts j workflowId node rest { p with activeAttempt := attempt, inDoubt := true }
      | .ok _ => scanAttempts j workflowId node rest { p with activeAttempt := attempt }

/-- The progress of one node as the journal has it. -/
def recoverNode (j : Journal) (workflowId : String) (n : NodeSpec) : NodeProgress :=
  scanAttempts io j workflowId n.nodeId (List.range' 1 n.maxAttempts) .fresh

namespace EngineState

/-- The state after a restart; the source never returns an error here. -/
def recover (j : Journal) (graph : PlanGraph) : EngineState :=
  graph.nodes.foldl (fun s n => s.set n.nodeId (recoverNode io j graph.workflowId n)) default

/-! ### Materialisation -/

/-- The idempotency key of an attempt's reservation. -/
def reservationKey (workflowId node : String) (attempt : Nat) : String :=
  "attempt:" ++ workflowId ++ ":" ++ node ++ ":" ++ toString attempt

/-- `self.nodes.entry(node).or_default()`. -/
def progress (s : EngineState) (node : String) : NodeProgress :=
  (s.nodes.lookup node).getD default

/-- The outbox payload of a materialised attempt. -/
def publishTaskPayload (taskId node : String) (attempt : Nat) : String :=
  "\x7b\"task_id\":\"" ++ taskId ++ "\",\"node\":\"" ++ node ++ "\",\"attempt\":" ++
    toString attempt ++ "\x7d"

/-- Materialise the active attempt of a node: reserve its budget, record the
attempt, and leave the publication to the outbox. -/
def materialize (graph : PlanGraph) (node : String) (microunits : UInt64) (s : EngineState)
    (j : Journal) : Except EngineError String × EngineState × Journal :=
  match graph.node node with
  | none => (.error (.unknownNode node), s, j)
  | some spec =>
      let p := s.progress node
      if p.done then (.error (.alreadyDone node), s, j)
      else if p.inDoubt then (.error (.reservationConsumed node p.activeAttempt), s, j)
      else
        let attempt := max p.activeAttempt 1
        let p := { p with activeAttempt := attempt }
        let s := s.set node p
        let taskId := laya1TaskId graph.workflowId graph.planRevision node attempt
        let key := reservationKey graph.workflowId node attempt
        match j.reserve io graph.workflowId key key spec.maxTokens microunits with
        | (.error e, j) => (.error (.journal e), s, j)
        | (.ok .alreadyConsumed, j) =>
            (.error (.reservationConsumed node attempt), s.set node { p with inDoubt := true }, j)
        | (.ok _, j) =>
            match j.recordAttempt io (graph.workflowId, node, attempt) taskId .published with
            | (.error e, j) => (.error (.journal e), s, j)
            | (.ok (), j) =>
                match j.outboxAppend io graph.workflowId "publish_task"
                    (publishTaskPayload taskId node attempt) with
                | (.error e, j) => (.error (.journal e), s, j)
                | (.ok (), j) => (.ok taskId, s, j)

/-! ### Results -/

/-- Every declared output is present with a non-empty hash. -/
def outputsValid (spec : NodeSpec) (outputs : List (String × String)) : Bool :=
  spec.outputNames.all fun name =>
    match outputs.find? fun o => o.1 = name with
    | some (_, hash) => hash != ""
    | none => false

def doneStatePayload (node : String) : String :=
  "\x7b\"node\":\"" ++ node ++ "\",\"status\":\"done\"\x7d"

/-- The DONE result of an attempt; its value is the list of nodes that are
ready afterwards. -/
def onDone (graph : PlanGraph) (node : String) (attempt : Nat) (outputs : List (String × String))
    (s : EngineState) (j : Journal) : Except EngineError (List String) × EngineState × Journal :=
  match graph.node node with
  | none => (.error (.unknownNode node), s, j)
  | some spec =>
      match s.nodes.lookup node with
      | none => (.error (.panicked "materialized"), s, j)
      | some p =>
          if p.done then (.error (.alreadyDone node), s, j)
          else if attempt ≠ p.activeAttempt then
            (.error (.staleAttempt node attempt p.activeAttempt), s, j)
          else if !outputsValid spec outputs then (.error (.invalidOutput node), s, j)
          else
            let s := s.set node { p with done := true, outputs := outputs }
            match j.recordAttempt io (graph.workflowId, node, attempt)
                (laya1TaskId graph.workflowId graph.planRevision node attempt) .done with
            | (.error e, j) => (.error (.journal e), s, j)
            | (.ok (), j) =>
                match j.outboxAppend io graph.workflowId "publish_state"
                    (doneStatePayload node) with
                | (.error e, j) => (.error (.journal e), s, j)
                | (.ok (), j) =>
                    let j := (j.releaseReservation io
                      (reservationKey graph.workflowId node attempt) none).2
                    (.ok ((graph.readyNodes s.doneSet).map (·.nodeId)), s, j)

def retryStatePayload (node : String) (next : Nat) : String :=
  "\x7b\"node\":\"" ++ node ++ "\",\"retry\":" ++ toString next ++ "\x7d"

/-- The FAILED result of an attempt: the next attempt, if there is one. -/
def onFailed (graph : PlanGraph) (node : String) (attempt : Nat) (failoverEnabled : Bool)
    (s : EngineState) (j : Journal) : Except EngineError (Option Nat) × EngineState × Journal :=
  match graph.node node with
  | none => (.error (.unknownNode node), s, j)
  | some spec =>
      match s.nodes.lookup node with
      | none => (.error (.panicked "materialized"), s, j)
      | some p =>
          if p.done then (.error (.alreadyDone node), s, j)
          else if attempt ≠ p.activeAttempt then
            (.error (.staleAttempt node attempt p.activeAttempt), s, j)
          else
            let j := (j.releaseReservation io
              (reservationKey graph.workflowId node attempt) none).2
            match j.recordAttempt io (graph.workflowId, node, attempt)
                (laya1TaskId graph.workflowId graph.planRevision node attempt) .failed with
            | (.error e, j) => (.error (.journal e), s, j)
            | (.ok (), j) =>
                if failoverEnabled ∧ attempt < spec.maxAttempts then
                  let next := attempt + 1
                  let s := s.set node { p with activeAttempt := next }
                  match j.outboxAppend io graph.workflowId "publish_state"
                      (retryStatePayload node next) with
                  | (.error e, j) => (.error (.journal e), s, j)
                  | (.ok (), j) => (.ok (some next), s, j)
                else (.ok none, s.set node { p with failed := true }, j)

/-! ### What an operation can do -/

section Steps

variable {io}

/-- The progress with which an attempt is materialised. -/
def started (s : EngineState) (node : String) : NodeProgress :=
  { s.progress node with activeAttempt := max (s.progress node).activeAttempt 1 }

/-- The reservation under `key` was made now or is still held. -/
def Reserves (workflowId key : String) (tokens microunits : UInt64) (j j' : Journal) : Prop :=
  ∃ out, out ≠ .alreadyConsumed ∧
    Journal.ReserveStep workflowId key key tokens microunits j (.ok out) j'

/-- The physical task id of an attempt of the graph. -/
def taskIdOf (graph : PlanGraph) (node : String) (attempt : Nat) : String :=
  laya1TaskId graph.workflowId graph.planRevision node attempt

inductive MaterializeStep (graph : PlanGraph) (node : String) (microunits : UInt64)
    (s : EngineState) (j : Journal) :
    Except EngineError String → EngineState → Journal → Prop
  | unknown (hspec : graph.node node = none) :
      MaterializeStep graph node microunits s j (.error (.unknownNode node)) s j
  | done (hdone : (s.progress node).done = true) :
      MaterializeStep graph node microunits s j (.error (.alreadyDone node)) s j
  | doubtful (hdoubt : (s.progress node).inDoubt = true) :
      MaterializeStep graph node microunits s j
        (.error (.reservationConsumed node (s.progress node).activeAttempt)) s j
  | unreserved (hdone : (s.progress node).done = false)
      (hdoubt : (s.progress node).inDoubt = false) (spec : NodeSpec)
      (hspec : graph.node node = some spec) (e : JournalError) :
      MaterializeStep graph node microunits s j (.error (.journal e))
        (s.set node (s.started node)) j
  | consumed (hdone : (s.progress node).done = false) (spec : NodeSpec)
      (hspec : graph.node node = some spec) (row : ReservationRow)
      (hrow : j.reservations.lookup (reservationKey graph.workflowId node
        (s.started node).activeAttempt) = some row)
      (hstate : row.state ≠ .reserved) (hdoubt : (s.progress node).inDoubt = false) :
      MaterializeStep graph node microunits s j
        (.error (.reservationConsumed node (s.started node).activeAttempt))
        (s.set node { s.started node with inDoubt := true }) j
  | unrecorded (hdone : (s.progress node).done = false)
      (hdoubt : (s.progress node).inDoubt = false) (spec : NodeSpec)
      (hspec : graph.node node = some spec) (j₁ : Journal)
      (hreserve : Reserves graph.workflowId
        (reservationKey graph.workflowId node (s.started node).activeAttempt)
        spec.maxTokens microunits j j₁) (e : JournalError) :
      MaterializeStep graph node microunits s j (.error (.journal e))
        (s.set node (s.started node)) j₁
  | recorded (hdone : (s.progress node).done = false)
      (hdoubt : (s.progress node).inDoubt = false) (spec : NodeSpec)
      (hspec : graph.node node = some spec) (j₁ j₂ : Journal)
      (hreserve : Reserves graph.workflowId
        (reservationKey graph.workflowId node (s.started node).activeAttempt)
        spec.maxTokens microunits j j₁)
      (hrecord : Journal.RecordStep (graph.workflowId, node, (s.started node).activeAttempt)
        (taskIdOf graph node (s.started node).activeAttempt) .published j₁ (.ok ()) j₂)
      (rows : List OutboxRow) (r : Except EngineError String)
      (hr : r = .ok (taskIdOf graph node (s.started node).activeAttempt) ∨
        ∃ e, r = .error (.journal e))
      (hrows : Journal.Appended graph.workflowId j₂.outbox rows) :
      MaterializeStep graph node microunits s j r (s.set node (s.started node))
        { j₂ with outbox := rows }

theorem set_set (s : EngineState) (node : String) (p q : NodeProgress) :
    (s.set node p).set node q = s.set node q := by
  simp [set, AList.insert_insert]

/-- The writes of a materialisation that passes its checks. -/
theorem materialize_eq {graph : PlanGraph} {node : String} {s : EngineState} {spec : NodeSpec}
    (microunits : UInt64) (j : Journal) (hspec : graph.node node = some spec)
    (hdone : (s.progress node).done = false) (hdoubt : (s.progress node).inDoubt = false) :
    s.materialize io graph node microunits j =
      match j.reserve io graph.workflowId
          (reservationKey graph.workflowId node (s.started node).activeAttempt)
          (reservationKey graph.workflowId node (s.started node).activeAttempt)
          spec.maxTokens microunits with
      | (.error e, j) => (.error (.journal e), s.set node (s.started node), j)
      | (.ok .alreadyConsumed, j) =>
          (.error (.reservationConsumed node (s.started node).activeAttempt),
            s.set node { s.started node with inDoubt := true }, j)
      | (.ok _, j) =>
          match j.recordAttempt io (graph.workflowId, node, (s.started node).activeAttempt)
              (taskIdOf graph node (s.started node).activeAttempt) .published with
          | (.error e, j) => (.error (.journal e), s.set node (s.started node), j)
          | (.ok (), j) =>
              match j.outboxAppend io graph.workflowId "publish_task"
                  (publishTaskPayload (taskIdOf graph node (s.started node).activeAttempt) node
                    (s.started node).activeAttempt) with
              | (.error e, j) => (.error (.journal e), s.set node (s.started node), j)
              | (.ok (), j) =>
                  (.ok (taskIdOf graph node (s.started node).activeAttempt),
                    s.set node (s.started node), j) := by
  unfold materialize
  simp only [hspec]
  rw [if_neg (by simp [hdone]), if_neg (by simp [hdoubt])]
  simp only [set_set]
  rfl

theorem materialize_step (io : JournalCall → Bool) (graph : PlanGraph) (node : String)
    (microunits : UInt64) (s : EngineState) (j : Journal) :
    MaterializeStep graph node microunits s j (s.materialize io graph node microunits j).1
      (s.materialize io graph node microunits j).2.1
      (s.materialize io graph node microunits j).2.2 := by
  cases hspec : graph.node node with
  | none =>
      unfold materialize
      rw [hspec]
      exact .unknown hspec
  | some spec =>
      by_cases hdone : (s.progress node).done = true
      · unfold materialize
        simp only [hspec]
        rw [if_pos hdone]
        exact .done hdone
      by_cases hdoubt : (s.progress node).inDoubt = true
      · unfold materialize
        simp only [hspec]
        rw [if_neg hdone, if_pos hdoubt]
        exact .doubtful hdoubt
      have hdone : (s.progress node).done = false := by simpa using hdone
      have hdoubt : (s.progress node).inDoubt = false := by simpa using hdoubt
      have hres := Journal.reserve_step io graph.workflowId
        (reservationKey graph.workflowId node (s.started node).activeAttempt)
        (reservationKey graph.workflowId node (s.started node).activeAttempt)
        spec.maxTokens microunits j
      rw [materialize_eq microunits j hspec hdone hdoubt]
      split
      · rename_i e j₁ heq
        simp only [heq] at hres
        cases hres with
        | failed => exact .unreserved hdone hdoubt spec hspec e
      · rename_i j₁ heq
        simp only [heq] at hres
        cases hres with
        | consumed row hrow hstate => exact .consumed hdone spec hspec row hrow hstate hdoubt
      · rename_i out j₁ hout heq
        simp only [heq] at hres
        have hreserve : Reserves graph.workflowId
            (reservationKey graph.workflowId node (s.started node).activeAttempt)
            spec.maxTokens microunits j j₁ := by
          refine ⟨out, ?_, hres⟩
          rintro rfl
          exact hout rfl
        have hrec := Journal.recordAttempt_step io
          (graph.workflowId, node, (s.started node).activeAttempt)
          (taskIdOf graph node (s.started node).activeAttempt) .published j₁
        split
        · rename_i e j₂ heq₂
          simp only [heq₂] at hrec
          cases hrec with
          | failed => exact .unrecorded hdone hdoubt spec hspec j₁ hreserve e
        · rename_i j₂ heq₂
          simp only [heq₂] at hrec
          obtain ⟨rows, hrows, happend⟩ := Journal.outboxAppend_eq io graph.workflowId
            "publish_task" (publishTaskPayload
              (taskIdOf graph node (s.started node).activeAttempt) node
              (s.started node).activeAttempt) j₂
          split
          · rename_i e j₃ heq₃
            simp only [heq₃] at hrows
            subst hrows
            exact .recorded hdone hdoubt spec hspec j₁ j₂ hreserve hrec rows _ (.inr ⟨e, rfl⟩)
              happend
          · rename_i j₃ heq₃
            simp only [heq₃] at hrows
            subst hrows
            exact .recorded hdone hdoubt spec hspec j₁ j₂ hreserve hrec rows _ (.inl rfl)
              happend

theorem doneSet_set_done (s : EngineState) {node : String} {p : NodeProgress}
    (hp : p.done = true) : (s.set node p).doneSet = insert node s.doneSet := by
  ext id
  rw [Finset.mem_insert, mem_doneSet, mem_doneSet]
  by_cases hid : id = node
  · simp [hid, hp]
  · simp [hid]

theorem doneSet_set_undone {s : EngineState} {node : String} {p : NodeProgress}
    (hold : (s.progress node).done = false) (hnew : p.done = false) :
    (s.set node p).doneSet = s.doneSet := by
  ext id
  simp only [mem_doneSet, lookup_set]
  by_cases hid : id = node
  · subst hid
    cases hp : s.nodes.lookup id with
    | none => simp [hnew]
    | some q =>
        have hq : q.done = false := by simpa [progress, hp] using hold
        simp [hnew, hq]
  · simp [hid]

/-- Materialisation finishes no node. -/
theorem materialize_doneSet (io : JournalCall → Bool) (graph : PlanGraph) (node : String)
    (microunits : UInt64) (s : EngineState) (j : Journal) :
    (s.materialize io graph node microunits j).2.1.doneSet = s.doneSet := by
  have hstep := materialize_step io graph node microunits s j
  generalize s.materialize io graph node microunits j = out at hstep ⊢
  obtain ⟨result, s', j'⟩ := out
  dsimp only at hstep ⊢
  cases hstep with
  | unknown | done | doubtful => rfl
  | unreserved hdone => exact doneSet_set_undone hdone (by simpa [started] using hdone)
  | consumed hdone => exact doneSet_set_undone hdone (by simpa [started] using hdone)
  | unrecorded hdone => exact doneSet_set_undone hdone (by simpa [started] using hdone)
  | recorded hdone => exact doneSet_set_undone hdone (by simpa [started] using hdone)

inductive DoneStep (io : JournalCall → Bool) (graph : PlanGraph) (node : String) (attempt : Nat)
    (outputs : List (String × String)) (s : EngineState) (j : Journal) :
    Except EngineError (List String) → EngineState → Journal → Prop
  | refused (e : EngineError) (he : ∀ e', e ≠ .journal e') :
      DoneStep io graph node attempt outputs s j (.error e) s j
  | unrecorded (spec : NodeSpec) (hspec : graph.node node = some spec) (p : NodeProgress)
      (hp : s.nodes.lookup node = some p) (hdone : p.done = false)
      (hattempt : attempt = p.activeAttempt) (hvalid : outputsValid spec outputs = true)
      (e : JournalError) :
      DoneStep io graph node attempt outputs s j (.error (.journal e))
        (s.set node { p with done := true, outputs := outputs }) j
  | unsent (spec : NodeSpec) (hspec : graph.node node = some spec) (p : NodeProgress)
      (hp : s.nodes.lookup node = some p) (hdone : p.done = false)
      (hattempt : attempt = p.activeAttempt) (hvalid : outputsValid spec outputs = true)
      (j₁ : Journal) (hrecord : Journal.RecordStep (graph.workflowId, node, attempt)
        (taskIdOf graph node attempt) .done j (.ok ()) j₁)
      (rows : List OutboxRow) (e : JournalError)
      (hrows : Journal.Appended graph.workflowId j₁.outbox rows) :
      DoneStep io graph node attempt outputs s j (.error (.journal e))
        (s.set node { p with done := true, outputs := outputs }) { j₁ with outbox := rows }
  | completed (spec : NodeSpec) (hspec : graph.node node = some spec) (p : NodeProgress)
      (hp : s.nodes.lookup node = some p) (hdone : p.done = false)
      (hattempt : attempt = p.activeAttempt) (hvalid : outputsValid spec outputs = true)
      (j₁ : Journal) (hrecord : Journal.RecordStep (graph.workflowId, node, attempt)
        (taskIdOf graph node attempt) .done j (.ok ()) j₁)
      (rows : List OutboxRow) (ready : List String)
      (hrows : Journal.Appended graph.workflowId j₁.outbox rows) :
      DoneStep io graph node attempt outputs s j (.ok ready)
        (s.set node { p with done := true, outputs := outputs })
        (Journal.releaseReservation io (reservationKey graph.workflowId node attempt) none
          { j₁ with outbox := rows }).2

theorem onDone_step (io : JournalCall → Bool) (graph : PlanGraph) (node : String) (attempt : Nat)
    (outputs : List (String × String)) (s : EngineState) (j : Journal) :
    DoneStep io graph node attempt outputs s j (s.onDone io graph node attempt outputs j).1
      (s.onDone io graph node attempt outputs j).2.1
      (s.onDone io graph node attempt outputs j).2.2 := by
  unfold onDone
  split
  · exact .refused _ (by simp)
  rename_i spec hspec
  split
  · exact .refused _ (by simp)
  rename_i p hp
  by_cases hdone : p.done = true
  · rw [if_pos hdone]
    exact .refused _ (by simp)
  rw [if_neg hdone]
  by_cases hattempt : attempt = p.activeAttempt
  swap
  · rw [if_pos hattempt]
    exact .refused _ (by simp)
  rw [if_neg (not_not.mpr hattempt)]
  by_cases hvalid : outputsValid spec outputs = true
  swap
  · rw [if_pos (by simpa using hvalid)]
    exact .refused _ (by simp)
  rw [if_neg (by simpa using hvalid)]
  have hdone : p.done = false := by simpa using hdone
  have hrec := Journal.recordAttempt_step io (graph.workflowId, node, attempt)
    (taskIdOf graph node attempt) .done j
  simp only [taskIdOf] at hrec
  split
  · rename_i e j₁ heq
    simp only [heq] at hrec
    cases hrec with
    | failed => exact .unrecorded spec hspec p hp hdone hattempt hvalid e
  · rename_i j₁ heq
    simp only [heq] at hrec
    obtain ⟨rows, hrows, happend⟩ := Journal.outboxAppend_eq io graph.workflowId "publish_state"
      (doneStatePayload node) j₁
    split
    · rename_i e j₂ heq₂
      simp only [heq₂] at hrows
      subst hrows
      exact .unsent spec hspec p hp hdone hattempt hvalid j₁ hrec rows e happend
    · rename_i j₂ heq₂
      simp only [heq₂] at hrows
      subst hrows
      exact .completed spec hspec p hp hdone hattempt hvalid j₁ hrec rows _ happend

inductive FailStep (io : JournalCall → Bool) (graph : PlanGraph) (node : String) (attempt : Nat)
    (failoverEnabled : Bool) (s : EngineState) (j : Journal) :
    Except EngineError (Option Nat) → EngineState → Journal → Prop
  | refused (e : EngineError) (he : ∀ e', e ≠ .journal e') :
      FailStep io graph node attempt failoverEnabled s j (.error e) s j
  | unrecorded (p : NodeProgress) (hp : s.nodes.lookup node = some p) (hdone : p.done = false)
      (hattempt : attempt = p.activeAttempt) (e : JournalError) (spec : NodeSpec)
      (hspec : graph.node node = some spec) :
      FailStep io graph node attempt failoverEnabled s j (.error (.journal e)) s
        (j.releaseReservation io (reservationKey graph.workflowId node attempt) none).2
  | retried (spec : NodeSpec) (hspec : graph.node node = some spec) (p : NodeProgress)
      (hp : s.nodes.lookup node = some p) (hdone : p.done = false)
      (hattempt : attempt = p.activeAttempt) (j₂ : Journal)
      (hrecord : Journal.RecordStep (graph.workflowId, node, attempt)
        (taskIdOf graph node attempt) .failed
        (j.releaseReservation io (reservationKey graph.workflowId node attempt) none).2
        (.ok ()) j₂)
      (hretry : failoverEnabled = true ∧ attempt < spec.maxAttempts) (rows : List OutboxRow)
      (r : Except EngineError (Option Nat))
      (hr : r = .ok (some (attempt + 1)) ∨ ∃ e, r = .error (.journal e))
      (hrows : Journal.Appended graph.workflowId j₂.outbox rows) :
      FailStep io graph node attempt failoverEnabled s j r
        (s.set node { p with activeAttempt := attempt + 1 }) { j₂ with outbox := rows }
  | closed (spec : NodeSpec) (hspec : graph.node node = some spec) (p : NodeProgress)
      (hp : s.nodes.lookup node = some p) (hdone : p.done = false)
      (hattempt : attempt = p.activeAttempt) (j₂ : Journal)
      (hrecord : Journal.RecordStep (graph.workflowId, node, attempt)
        (taskIdOf graph node attempt) .failed
        (j.releaseReservation io (reservationKey graph.workflowId node attempt) none).2
        (.ok ()) j₂)
      (hlast : ¬ (failoverEnabled = true ∧ attempt < spec.maxAttempts)) :
      FailStep io graph node attempt failoverEnabled s j (.ok none)
        (s.set node { p with failed := true }) j₂

theorem onFailed_step (io : JournalCall → Bool) (graph : PlanGraph) (node : String)
    (attempt : Nat) (failoverEnabled : Bool) (s : EngineState) (j : Journal) :
    FailStep io graph node attempt failoverEnabled s j
      (s.onFailed io graph node attempt failoverEnabled j).1
      (s.onFailed io graph node attempt failoverEnabled j).2.1
      (s.onFailed io graph node attempt failoverEnabled j).2.2 := by
  unfold onFailed
  split
  · exact .refused _ (by simp)
  rename_i spec hspec
  split
  · exact .refused _ (by simp)
  rename_i p hp
  by_cases hdone : p.done = true
  · rw [if_pos hdone]
    exact .refused _ (by simp)
  rw [if_neg hdone]
  by_cases hattempt : attempt = p.activeAttempt
  swap
  · rw [if_pos hattempt]
    exact .refused _ (by simp)
  rw [if_neg (not_not.mpr hattempt)]
  have hdone : p.done = false := by simpa using hdone
  have hrec := Journal.recordAttempt_step io (graph.workflowId, node, attempt)
    (taskIdOf graph node attempt) .failed
    (j.releaseReservation io (reservationKey graph.workflowId node attempt) none).2
  simp only [taskIdOf] at hrec
  dsimp only
  split
  · rename_i e j₂ heq
    simp only [heq] at hrec
    cases hrec with
    | failed => exact .unrecorded p hp hdone hattempt e spec hspec
  · rename_i j₂ heq
    simp only [heq] at hrec
    by_cases hretry : failoverEnabled = true ∧ attempt < spec.maxAttempts
    · rw [if_pos hretry]
      obtain ⟨rows, hrows, happend⟩ := Journal.outboxAppend_eq io graph.workflowId "publish_state"
        (retryStatePayload node (attempt + 1)) j₂
      split
      · rename_i e j₃ heq₃
        simp only [heq₃] at hrows
        subst hrows
        exact .retried spec hspec p hp hdone hattempt j₂ hrec hretry rows _ (.inr ⟨e, rfl⟩)
          happend
      · rename_i j₃ heq₃
        simp only [heq₃] at hrows
        subst hrows
        exact .retried spec hspec p hp hdone hattempt j₂ hrec hretry rows _ (.inl rfl)
          happend
    · rw [if_neg hretry]
      exact .closed spec hspec p hp hdone hattempt j₂ hrec hretry

end Steps

end EngineState

/-! ### Planners -/

structure PlanRequest where
  workflowId : String
  prompt : String
  deriving DecidableEq

/-- `DirectTemplatePlanner`: one node, without a model call. -/
def directTemplatePlan (input : PlanRequest) : PlanCandidate where
  plannerId := "static-template"
  plannerRevision := "direct-v1"
  plannerTokens := 0
  nodes :=
    [{ nodeId := "direct-0"
       kind := .inference
       requiredCapabilities := ["summarization"]
       modelId := ""
       targetAgentId := ""
       promptTemplate := input.prompt
       dependencies := []
       outputNames := ["out"]
       inputs := []
       maxAttempts := 2
       maxTokens := 512
       maxOutputBytes := 65536
       deadlineNs := 0
       priority := 5
       sideEffectKey := "" }]

end DdsOrchestrator.WorkflowEngine
