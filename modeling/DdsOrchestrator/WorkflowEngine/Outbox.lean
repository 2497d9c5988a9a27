import DdsOrchestrator.Lib.Joined
import DdsOrchestrator.WorkflowEngine.Attempts
import DdsOrchestrator.WorkflowEngine.Drain

/-!
The filling side of the outbox. Every materialisation that succeeds announces
its attempt in the outbox, also one that finds its reservation and its row
already there, so each tick of the scheduler announces the attempts of the
ready nodes once more. An attempt is announced once when no tick finds a ready
node whose attempt it would announce and which has been announced.
-/

namespace DdsOrchestrator.WorkflowEngine

open Loop EngineRuntime Machine EngineState

/-! ### Announcements -/

/-- The rows of the outbox that announce an attempt. -/
def Journal.announced (j : Journal) (wf node : String) (attempt : Nat) : List OutboxRow :=
  j.outbox.filter fun row => row.workflowId = wf ∧ row.kind = "publish_task" ∧
    row.payload = publishTaskPayload (laya1TaskId wf 1 node attempt) node attempt

/-- Materialising the node comes to its announcement: it is not in doubt, its
reservation is not consumed, and the medium takes the three writes. -/
structure Announces (i : Input) (r : EngineRuntime) (wf node : String) (wfr : WfRuntime) :
    Prop where
  certain : (wfr.state.progress node).inDoubt = false
  unspent : ¬ r.journal.Spent (reservationKey wf node (wfr.state.started node).activeAttempt)
  reserve : i.env.journalFails
    (.reserve (reservationKey wf node (wfr.state.started node).activeAttempt)) = false
  record : i.env.journalFails
    (.recordAttempt (wf, node, (wfr.state.started node).activeAttempt) .published) = false
  append : i.env.journalFails (.outboxAppend wf "publish_task" (publishTaskPayload
    (laya1TaskId wf 1 node (wfr.state.started node).activeAttempt) node
    (wfr.state.started node).activeAttempt)) = false

/-- No node is twice among the ready ones of the workflow, and none whose
attempt would be announced is announced already. -/
def QuietFor (i : Input) (r : EngineRuntime) (wf : String) (wfr : WfRuntime) : Prop :=
  ((wfr.graph.readyNodes wfr.state.doneSet).map (·.nodeId)).Nodup ∧
    ∀ node ∈ (wfr.graph.readyNodes wfr.state.doneSet).map (·.nodeId),
      Announces i r wf node wfr →
        r.journal.announced wf node (wfr.state.started node).activeAttempt = []

/-- A tick of the scheduler finds every live workflow quiet. -/
def AnnouncesOnce (r : EngineRuntime) (i : Input) : Prop :=
  i.call = .tickScheduler → ∀ wf wfr, r.workflows.lookup wf = some wfr → wfr.terminal = false →
    QuietFor i r wf wfr

/-- No attempt is announced twice. -/
def AtMostOneEntry (j : Journal) : Prop :=
  ∀ wf node attempt, (j.announced wf node attempt).length ≤ 1

/-! ### One announcement says one attempt -/

theorem length_laya1TaskId (wf : String) (rev : Nat) (node : String) (attempt : Nat) :
    (laya1TaskId wf rev node attempt).toList.length = 70 := by
  rw [laya1TaskId, String.toList_append, List.length_append, length_sha256Hex]
  rfl

/-- The task id has a fixed length and the attempt is behind the last colon. -/
theorem payload_inj {wf node node' : String} {attempt attempt' : Nat}
    (h : publishTaskPayload (laya1TaskId wf 1 node attempt) node attempt =
      publishTaskPayload (laya1TaskId wf 1 node' attempt') node' attempt') :
    node = node' ∧ attempt = attempt' := by
  unfold publishTaskPayload at h
  have hattempt : "\",\"attempt\":" = "\",\"attempt\"" ++ String.singleton ':' := rfl
  rw [hattempt, ← String.append_assoc, ← String.append_assoc] at h
  have hnumbered := (String.append_left_inj _).mp h
  obtain ⟨hrest, rfl⟩ := (Joined.numbered_inj rfl).mp hnumbered
  refine ⟨?_, rfl⟩
  have hfields := congrArg String.toList ((String.append_left_inj _).mp hrest)
  simp only [String.toList_append, List.append_assoc] at hfields
  have htail := List.append_cancel_left hfields
  have hnode := (List.append_inj htail (by rw [length_laya1TaskId, length_laya1TaskId])).2
  exact String.toList_inj.mp (List.append_cancel_left hnode)

theorem announced_append (j : Journal) (wf node : String) (attempt : Nat) (row : OutboxRow) :
    Journal.announced { j with outbox := j.outbox ++ [row] } wf node attempt =
      j.announced wf node attempt ++
        if row.workflowId = wf ∧ row.kind = "publish_task" ∧
          row.payload = publishTaskPayload (laya1TaskId wf 1 node attempt) node attempt
        then [row] else [] := by
  simp [Journal.announced, List.filter_append, List.filter_cons]

theorem announced_of_eq {j j' : Journal} (h : j'.outbox = j.outbox) (wf node : String)
    (attempt : Nat) : j'.announced wf node attempt = j.announced wf node attempt := by
  rw [Journal.announced, Journal.announced, h]

/-- Rows of another kind announce nothing. -/
theorem outboxAppend_announced (io : JournalCall → Bool) {kind : String}
    (hkind : kind ≠ "publish_task") (workflowId payload : String) (j : Journal) (wf node : String)
    (attempt : Nat) :
    (j.outboxAppend io workflowId kind payload).2.announced wf node attempt =
      j.announced wf node attempt := by
  unfold Journal.outboxAppend
  split
  · rfl
  · rw [announced_append, if_neg (by simp [hkind]), List.append_nil]

/-! ### What the engine announces -/

section Engine

variable {io : JournalCall → Bool} {graph : PlanGraph} {node : String} {s : EngineState}
  {j : Journal}

theorem reserve_ok_io {workflowId key purpose : String} {tokens microunits : UInt64}
    {out : Journal.ReserveOutcome}
    (h : (j.reserve io workflowId key purpose tokens microunits).1 = .ok out) :
    io (.reserve key) = false := by
  unfold Journal.reserve at h
  cases hio : io (.reserve key) with
  | false => rfl
  | true => simp [hio] at h

theorem recordAttempt_ok_io {key : AttemptKey} {taskId : String} {state : AttemptState}
    (h : (j.recordAttempt io key taskId state).1 = .ok ()) :
    io (.recordAttempt key state) = false := by
  unfold Journal.recordAttempt at h
  cases hio : io (.recordAttempt key state) with
  | false => rfl
  | true => simp [hio] at h

/-- A materialisation leaves the outbox as it is or comes to its announcement. -/
theorem materialize_outbox (io : JournalCall → Bool) (graph : PlanGraph) (node : String)
    (microunits : UInt64) (s : EngineState) (j : Journal) :
    (s.materialize io graph node microunits j).2.2.outbox = j.outbox ∨
      ((s.progress node).inDoubt = false ∧
        ¬ j.Spent (reservationKey graph.workflowId node (s.started node).activeAttempt) ∧
        io (.reserve (reservationKey graph.workflowId node (s.started node).activeAttempt)) =
          false ∧
        io (.recordAttempt (graph.workflowId, node, (s.started node).activeAttempt) .published) =
          false ∧
        io (.outboxAppend graph.workflowId "publish_task" (publishTaskPayload
          (taskIdOf graph node (s.started node).activeAttempt) node
          (s.started node).activeAttempt)) = false) ∧
      (s.materialize io graph node microunits j).2.2.outbox = j.outbox ++
        [⟨j.outbox.length + 1, graph.workflowId, "publish_task", publishTaskPayload
          (taskIdOf graph node (s.started node).activeAttempt) node
          (s.started node).activeAttempt, false⟩] := by
  by_cases haccepts : ∃ spec, graph.node node = some spec ∧ (s.progress node).done = false ∧
      (s.progress node).inDoubt = false
  swap
  · have hstep := materialize_step io graph node microunits s j
    generalize s.materialize io graph node microunits j = out at hstep ⊢
    obtain ⟨result, s', j'⟩ := out
    dsimp only at hstep ⊢
    cases hstep with
    | unknown | done | doubtful | unreserved | consumed => exact .inl rfl
    | unrecorded hdone hdoubt spec hspec | recorded hdone hdoubt spec hspec =>
        exact absurd ⟨spec, hspec, hdone, hdoubt⟩ haccepts
  obtain ⟨spec, hspec, hdone, hdoubt⟩ := haccepts
  rw [materialize_eq microunits j hspec hdone hdoubt]
  generalize hattempt : (s.started node).activeAttempt = attempt
  generalize hkey : reservationKey graph.workflowId node attempt = key
  have hreserve := Journal.reserve_step io graph.workflowId key key spec.maxTokens microunits j
  rcases hres : j.reserve io graph.workflowId key key spec.maxTokens microunits with ⟨result, j₁⟩
  rw [hres] at hreserve
  have hsame : j₁.outbox = j.outbox := by cases hreserve <;> rfl
  cases result with
  | error e => exact .inl hsame
  | ok granted =>
      cases granted with
      | alreadyConsumed => exact .inl hsame
      | reserved | replayed =>
          have hio : io (.reserve key) = false := reserve_ok_io (congrArg Prod.fst hres)
          have hunspent : ¬ j.Spent key := (Reserves.free ⟨_, by simp, hreserve⟩).1
          generalize htask : taskIdOf graph node attempt = taskId
          have hrecord := Journal.recordAttempt_step io (graph.workflowId, node, attempt) taskId
            .published j₁
          dsimp only
          rcases hrec : j₁.recordAttempt io (graph.workflowId, node, attempt) taskId .published
            with ⟨recorded, j₂⟩
          rw [hrec] at hrecord
          have hsame₂ : j₂.outbox = j.outbox := by cases hrecord <;> exact hsame
          cases recorded with
          | error e => exact .inl hsame₂
          | ok _ =>
              have hio₂ := recordAttempt_ok_io (congrArg Prod.fst hrec)
              dsimp only
              unfold Journal.outboxAppend
              cases hio₃ : io (.outboxAppend graph.workflowId "publish_task"
                (publishTaskPayload taskId node attempt)) with
              | true => exact .inl hsame₂
              | false =>
                  refine .inr ⟨⟨hdoubt, hunspent, hio, hio₂, rfl⟩, ?_⟩
                  simp [hsame₂]

theorem releaseReservation_outbox (io : JournalCall → Bool) (key : String)
    (measured : Option UInt64) (j : Journal) :
    (j.releaseReservation io key measured).2.outbox = j.outbox := by
  have h := Journal.releaseReservation_step io key measured j
  generalize j.releaseReservation io key measured = out at h ⊢
  obtain ⟨result, j'⟩ := out
  cases h <;> rfl

theorem recordAttempt_outbox (io : JournalCall → Bool) (key : AttemptKey) (taskId : String)
    (state : AttemptState) (j : Journal) :
    (j.recordAttempt io key taskId state).2.outbox = j.outbox := by
  have h := Journal.recordAttempt_step io key taskId state j
  generalize j.recordAttempt io key taskId state = out at h ⊢
  obtain ⟨result, j'⟩ := out
  cases h <;> rfl

/-- A DONE result announces no attempt. -/
theorem onDone_announced {attempt : Nat} {outputs : List (String × String)} {s' : EngineState}
    {j' : Journal} {result : Except EngineError (List String)}
    (h : s.onDone io graph node attempt outputs j = (result, s', j')) (wf node' : String)
    (attempt' : Nat) : j'.announced wf node' attempt' = j.announced wf node' attempt' := by
  rw [show j' = (s.onDone io graph node attempt outputs j).2.2 from (congrArg (·.2.2) h).symm]
  have hrecord := recordAttempt_outbox io (graph.workflowId, node, attempt)
    (laya1TaskId graph.workflowId graph.planRevision node attempt) .done j
  unfold onDone
  split
  · rfl
  split
  · rfl
  split
  · rfl
  split
  · rfl
  split
  · rfl
  dsimp only
  split
  · rename_i heq
    rw [heq] at hrecord
    exact announced_of_eq hrecord wf node' attempt'
  · rename_i j₁ heq
    rw [heq] at hrecord
    have happend := outboxAppend_announced io (by decide : "publish_state" ≠ "publish_task")
      graph.workflowId (doneStatePayload node) j₁ wf node' attempt'
    split
    · rename_i heq₂
      rw [heq₂] at happend
      exact happend.trans (announced_of_eq hrecord wf node' attempt')
    · rename_i heq₂
      rw [heq₂] at happend
      exact (announced_of_eq (releaseReservation_outbox io _ none _) wf node' attempt').trans
        (happend.trans (announced_of_eq hrecord wf node' attempt'))

/-- Nor does a FAILED result. -/
theorem onFailed_announced {attempt : Nat} {failoverEnabled : Bool} {s' : EngineState}
    {j' : Journal} {result : Except EngineError (Option Nat)}
    (h : s.onFailed io graph node attempt failoverEnabled j = (result, s', j')) (wf node' : String)
    (attempt' : Nat) : j'.announced wf node' attempt' = j.announced wf node' attempt' := by
  rw [show j' = (s.onFailed io graph node attempt failoverEnabled j).2.2 from
    (congrArg (·.2.2) h).symm]
  have hrecord := (recordAttempt_outbox io (graph.workflowId, node, attempt)
    (laya1TaskId graph.workflowId graph.planRevision node attempt) .failed
    (j.releaseReservation io (reservationKey graph.workflowId node attempt) none).2).trans
    (releaseReservation_outbox io _ none j)
  unfold onFailed
  split
  · rfl
  split
  · rfl
  split
  · rfl
  split
  · rfl
  dsimp only
  split
  · rename_i heq
    rw [heq] at hrecord
    exact announced_of_eq hrecord wf node' attempt'
  · rename_i j₁ heq
    rw [heq] at hrecord
    split
    · have happend := outboxAppend_announced io (by decide : "publish_state" ≠ "publish_task")
        graph.workflowId (retryStatePayload node (attempt + 1)) j₁ wf node' attempt'
      split
      · rename_i heq₂
        rw [heq₂] at happend
        exact happend.trans (announced_of_eq hrecord wf node' attempt')
      · rename_i heq₂
        rw [heq₂] at happend
        exact happend.trans (announced_of_eq hrecord wf node' attempt')
    · exact announced_of_eq hrecord wf node' attempt'

end Engine

/-! ### What a call announces -/

section Calls

variable {r₀ r r' : EngineRuntime} {i : Input}

theorem Journal.AdmitStep.outbox_eq {a : Journal.Admission} {j j' : Journal}
    {result : Except JournalError Journal.AdmitOutcome} (h : Journal.AdmitStep a j result j') :
    j'.outbox = j.outbox := by
  cases h with
  | failed | replay | conflict => rfl
  | admitted =>
      unfold Journal.insertIntentOrIgnore
      split <;> rfl

/-- Only the scheduler announces attempts. -/
theorem Move.announced (h : Move r₀ i r r') (hcall : i.call ≠ .tickScheduler) (wf node : String)
    (attempt : Nat) :
    r'.journal.announced wf node attempt = r.journal.announced wf node attempt := by
  cases h with
  | submitted | cancelled | observed | refused | rehydrated | unswept | sweptUnindexed | swept
  | doubted | restarted => rfl
  | admitted _ _ _ _ _ _ _ j hentry => exact announced_of_eq hentry.outbox_eq wf node attempt
  | planned _ _ _ _ _ _ _ j hentry => exact announced_of_eq hentry.outbox_eq wf node attempt
  | held _ _ _ hdue => exact absurd hdue.call hcall
  | dispatched _ _ _ hdue => exact absurd hdue.call hcall
  | incomplete _ _ _ _ _ _ _ _ _ _ hdone | completed _ _ _ _ _ _ _ _ _ _ hdone =>
      exact onDone_announced hdone wf node attempt
  | unfailed _ _ _ _ _ _ _ _ _ hfail | retried _ _ _ _ _ _ _ _ _ hfail
  | exhausted _ _ _ _ _ _ _ _ hfail => exact onFailed_announced hfail wf node attempt

/-- Scheduling a node materialises it and touches no other record. -/
theorem scheduleNode_eq {wf node : String} {wfr : WfRuntime} (hdue : Due i r wf node wfr) :
    ∃ w result, w.graph = wfr.graph ∧ w.terminal = false ∧
      wfr.state.materialize i.env.journalFails wfr.graph node r.cfg.perAttemptMicrounits
        r.journal = (result, w.state, (scheduleNode i.env wf node r).2.journal) ∧
      ∀ id, (scheduleNode i.env wf node r).2.workflows.lookup id =
        if id = wf then some w else r.workflows.lookup id := by
  unfold scheduleNode
  simp only [hdue.registered]
  rcases hmat : wfr.state.materialize i.env.journalFails wfr.graph node
    r.cfg.perAttemptMicrounits r.journal with ⟨result, state, j⟩
  dsimp only
  have hheld : ∀ id, ({ r.setWf wf { wfr with state := state } with journal := j } :
      EngineRuntime).workflows.lookup id =
        if id = wf then some { wfr with state := state } else r.workflows.lookup id :=
    fun id => lookup_setWf r wf _ id
  split
  · exact ⟨{ wfr with state := state }, _, rfl, hdue.live, rfl, hheld⟩
  · exact ⟨{ wfr with state := state }, _, rfl, hdue.live, rfl, hheld⟩
  · exact ⟨{ wfr with state := state }, _, rfl, hdue.live, rfl, hheld⟩
  · split
    · exact ⟨{ wfr with state := state }, _, rfl, hdue.live, rfl, hheld⟩
    · obtain ⟨n, ext, -, heq⟩ := dispatch_eq _ state j hdue
      rw [heq]
      exact ⟨{ wfr with state := state, stateRev := n }, _, rfl, hdue.live, rfl,
        fun id => lookup_record r wf _ ext id⟩

/-- A materialisation announces the attempt it is about and no other. -/
theorem materialize_announced {wf node : String} {wfr : WfRuntime} {state : EngineState}
    {j : Journal} {result : Except EngineError String} (hr : Coherent r)
    (hdue : Due i r wf node wfr)
    (hmat : wfr.state.materialize i.env.journalFails wfr.graph node r.cfg.perAttemptMicrounits
      r.journal = (result, state, j)) :
    (∀ wf' node' a, j.announced wf' node' a = r.journal.announced wf' node' a) ∨
      Announces i r wf node wfr ∧
        ((j.announced wf node (wfr.state.started node).activeAttempt).length =
          (r.journal.announced wf node (wfr.state.started node).activeAttempt).length + 1) ∧
        ∀ wf' node' a, (wf', node', a) ≠ (wf, node, (wfr.state.started node).activeAttempt) →
          j.announced wf' node' a = r.journal.announced wf' node' a := by
  have hok := hr.records wf wfr hdue.registered
  have hgraph := hok.graph
  obtain ⟨spec, hspec, hid⟩ := hdue.node
  obtain ⟨found, hfound⟩ := PlanGraph.node_isSome hspec
  have hplan := hok.rev_of_node found (hid ▸ hfound)
  have houtbox := materialize_outbox i.env.journalFails wfr.graph node r.cfg.perAttemptMicrounits
    wfr.state r.journal
  rw [hmat] at houtbox
  simp only [taskIdOf, hgraph, hplan] at houtbox
  rcases houtbox with hsame | ⟨⟨hdoubt, hunspent, hio, hio₂, hio₃⟩, hrows⟩
  · exact .inl fun wf' node' a => announced_of_eq hsame wf' node' a
  have hannounced : ∀ wf' node' a, j.announced wf' node' a = _ := fun wf' node' a =>
    (announced_of_eq (j := { r.journal with outbox := _ }) hrows wf' node' a).trans
      (announced_append r.journal wf' node' a _)
  refine .inr ⟨⟨hdoubt, hunspent, hio, hio₂, hio₃⟩, ?_, ?_⟩
  · rw [hannounced, if_pos ⟨rfl, rfl, rfl⟩, List.length_append, List.length_singleton]
  · intro wf' node' a hne
    rw [hannounced, if_neg ?_, List.append_nil]
    rintro ⟨hwf, -, hpayload⟩
    dsimp only at hwf hpayload
    subst hwf
    obtain ⟨rfl, rfl⟩ := payload_inj hpayload
    exact hne rfl

theorem materialize_progress_ne {graph : PlanGraph} {node : String} {microunits : UInt64}
    {s s' : EngineState} {j j' : Journal} {result : Except EngineError String}
    (h : MaterializeStep graph node microunits s j result s' j') {id : String} (hid : id ≠ node) :
    s'.progress id = s.progress id := by
  cases h with
  | unknown | done | doubtful => rfl
  | unreserved | consumed | unrecorded | recorded => rw [progress_set, if_neg hid]

theorem EngineState.MaterializeStep.keysGrow {graph : PlanGraph} {node : String}
    {microunits : UInt64}
    {s s' : EngineState} {j j' : Journal} {result : Except EngineError String}
    (h : MaterializeStep graph node microunits s j result s' j') : KeysGrow j j' := by
  cases h with
  | unknown | done | doubtful | unreserved | consumed => exact .of_eq rfl
  | unrecorded _ _ _ _ _ hreserve =>
      obtain ⟨_, -, hreserve⟩ := hreserve
      exact hreserve.keysGrow
  | recorded _ _ _ _ _ j₂ hreserve hrecord =>
      obtain ⟨_, -, hreserve⟩ := hreserve
      exact hreserve.keysGrow.trans (.of_eq hrecord.reservations_eq)

/-- The pass over the ready nodes of `wf` has come to `rest`. The nodes still to
come are as they were when the pass began, in memory and in the outbox. -/
structure Announcing (r : EngineRuntime) (wf : String) (wfr : WfRuntime) (rest : List String)
    (t : EngineRuntime) : Prop where
  coherent : Coherent t
  once : AtMostOneEntry t.journal
  keys : KeysGrow r.journal t.journal
  record : ∃ w, t.workflows.lookup wf = some w ∧ w.graph = wfr.graph ∧ w.terminal = false ∧
    w.state.doneSet = wfr.state.doneSet ∧ ∀ node ∈ rest, w.state.progress node =
      wfr.state.progress node
  records : ∀ id, id ≠ wf → t.workflows.lookup id = r.workflows.lookup id
  pending : ∀ node ∈ rest, ∀ a, t.journal.announced wf node a = r.journal.announced wf node a
  others : ∀ wf', wf' ≠ wf → ∀ node a,
    t.journal.announced wf' node a = r.journal.announced wf' node a
  nodup : rest.Nodup
  ready : ∀ node ∈ rest, node ∈ (wfr.graph.readyNodes wfr.state.doneSet).map (·.nodeId)

theorem Announcing.node {wf node : String} {wfr : WfRuntime} {rest : List String}
    {t : EngineRuntime} (hcall : i.call = .tickScheduler) (hquiet : QuietFor i r wf wfr)
    (h : Announcing r wf wfr (node :: rest) t) :
    Announcing r wf wfr rest (scheduleNode i.env wf node t).2 := by
  obtain ⟨w, hw, hgraph, hterm, hdone, hprogress⟩ := h.record
  have hready := h.ready node (by simp)
  have hdue : Due i t wf node w := by
    refine ⟨hcall, hw, hterm, ?_⟩
    rw [hgraph, hdone]
    exact List.mem_map.mp hready
  have hnode : node ∉ rest := (List.nodup_cons.mp h.nodup).1
  have hmove : Move t i t (scheduleNode i.env wf node t).2 := (scheduleNode_move hdue).1
  obtain ⟨w', result, hgraph', hterm', hmat, hlookup⟩ := scheduleNode_eq hdue
  have hcoherent := h.coherent.move hmove
  have hstep := (hdue.materialized h.coherent hmat).1
  have hdone' := materialize_doneSet i.env.journalFails w.graph node t.cfg.perAttemptMicrounits
    w.state t.journal
  rw [hmat] at hdone'
  have hstarted : w.state.started node = wfr.state.started node := by
    rw [started, started, hprogress node (by simp)]
  have hannounced := materialize_announced h.coherent hdue hmat
  have hother : ∀ wf' node' a, (wf', node', a) ≠ (wf, node, (w.state.started node).activeAttempt) →
      (scheduleNode i.env wf node t).2.journal.announced wf' node' a =
        t.journal.announced wf' node' a := by
    intro wf' node' a hne
    rcases hannounced with hsame | ⟨-, -, hsame⟩
    · exact hsame wf' node' a
    · exact hsame wf' node' a hne
  refine ⟨hcoherent, ?_, h.keys.trans hstep.keysGrow, ?_, ?_, ?_, ?_,
    (List.nodup_cons.mp h.nodup).2, fun id hid => h.ready id (by simp [hid])⟩
  · intro wf' node' a
    rcases hannounced with hsame | ⟨hann, hlength, hsame⟩
    · rw [hsame]
      exact h.once wf' node' a
    · by_cases heq : (wf', node', a) = (wf, node, (w.state.started node).activeAttempt)
      · simp only [Prod.mk.injEq] at heq
        obtain ⟨rfl, rfl, rfl⟩ := heq
        have hquiet' : Announces i r wf' node' wfr := by
          refine ⟨hprogress node' (by simp) ▸ hann.certain, fun hspent => ?_,
            hstarted ▸ hann.reserve, hstarted ▸ hann.record, hstarted ▸ hann.append⟩
          exact hann.unspent (hstarted ▸ h.keys.spent _ hspent)
        rw [hlength, h.pending node' (by simp), hstarted, hquiet.2 node' hready hquiet']
        rfl
      · rw [hsame wf' node' a heq]
        exact h.once wf' node' a
  · refine ⟨w', by rw [hlookup, if_pos rfl], hgraph'.trans hgraph, hterm', hdone'.trans hdone, ?_⟩
    intro id hid
    rw [materialize_progress_ne hstep (by rintro rfl; exact hnode hid)]
    exact hprogress id (by simp [hid])
  · intro id hid
    rw [hlookup, if_neg hid]
    exact h.records id hid
  · intro id hid a
    rw [hother wf id a (by simp only [ne_eq, Prod.mk.injEq]; rintro ⟨-, rfl, -⟩; exact hnode hid)]
    exact h.pending id (by simp [hid]) a
  · intro wf' hwf' id a
    rw [hother wf' id a (by simp [hwf'])]
    exact h.others wf' hwf' id a

/-- What the pass over one workflow leaves for the others. -/
structure Passed (r : EngineRuntime) (wf : String) (t : EngineRuntime) : Prop where
  coherent : Coherent t
  once : AtMostOneEntry t.journal
  keys : KeysGrow r.journal t.journal
  records : ∀ id, id ≠ wf → t.workflows.lookup id = r.workflows.lookup id
  others : ∀ wf', wf' ≠ wf → ∀ node a,
    t.journal.announced wf' node a = r.journal.announced wf' node a

theorem scheduleWorkflow_announced {wf : String} (hcall : i.call = .tickScheduler)
    (hr : Coherent r) (honce : AtMostOneEntry r.journal)
    (hquiet : ∀ wfr, r.workflows.lookup wf = some wfr → wfr.terminal = false →
      QuietFor i r wf wfr) : Passed r wf (scheduleWorkflow i.env wf r).2 := by
  have hrefl : Passed r wf r :=
    ⟨hr, honce, .of_eq rfl, fun _ _ => rfl, fun _ _ _ _ => rfl⟩
  unfold scheduleWorkflow
  split
  · exact hrefl
  rename_i wfr hwf
  split
  · exact hrefl
  rename_i hlive
  have hlive : wfr.terminal = false := by simpa using hlive
  have hquiet := hquiet wfr hwf hlive
  have hstart : Announcing r wf wfr
      ((wfr.graph.readyNodes wfr.state.doneSet).map (·.nodeId)) r :=
    ⟨hr, honce, .of_eq rfl, ⟨wfr, hwf, rfl, hlive, rfl, fun _ _ => rfl⟩, fun _ _ => rfl,
      fun _ _ _ => rfl, fun _ _ _ _ => rfl, hquiet.1, fun _ h => h⟩
  obtain ⟨rest, h⟩ := forEach_consumes hstart fun node rest t h => h.node hcall hquiet
  exact ⟨h.coherent, h.once, h.keys, h.records, h.others⟩

theorem nodup_workflowIds (env : Env) (r : EngineRuntime) : (r.workflowIds env).Nodup :=
  (List.perm_insertionSort _ _).nodup_iff.mpr r.workflows.keys_nodup

/-- The tick has come to the workflows `rest`, which are as they were. -/
structure Ticking (r : EngineRuntime) (rest : List String) (t : EngineRuntime) : Prop where
  coherent : Coherent t
  once : AtMostOneEntry t.journal
  keys : KeysGrow r.journal t.journal
  nodup : rest.Nodup
  records : ∀ wf ∈ rest, t.workflows.lookup wf = r.workflows.lookup wf
  pending : ∀ wf ∈ rest, ∀ node a,
    t.journal.announced wf node a = r.journal.announced wf node a

theorem Ticking.workflow {wf : String} {rest : List String} {t : EngineRuntime}
    (hcall : i.call = .tickScheduler) (hquiet : AnnouncesOnce r i)
    (h : Ticking r (wf :: rest) t) : Ticking r rest (scheduleWorkflow i.env wf t).2 := by
  obtain ⟨hnotMem, hnodup⟩ := List.nodup_cons.mp h.nodup
  have hdone : Passed t wf (scheduleWorkflow i.env wf t).2 := by
    refine scheduleWorkflow_announced hcall h.coherent h.once fun wfr hwf hlive => ?_
    rw [h.records wf (by simp)] at hwf
    obtain ⟨hdistinct, hfresh⟩ := hquiet hcall wf wfr hwf hlive
    refine ⟨hdistinct, fun node hnode hann => ?_⟩
    rw [h.pending wf (by simp)]
    refine hfresh node hnode ⟨hann.certain, fun hspent => ?_, hann.reserve, hann.record,
      hann.append⟩
    exact hann.unspent (h.keys.spent _ hspent)
  have hne : ∀ wf' ∈ rest, wf' ≠ wf := by
    rintro wf' hwf' rfl
    exact hnotMem hwf'
  refine ⟨hdone.coherent, hdone.once, h.keys.trans hdone.keys, hnodup, ?_, ?_⟩
  · intro wf' hwf'
    exact (hdone.records wf' (hne wf' hwf')).trans (h.records wf' (by simp [hwf']))
  · intro wf' hwf' node a
    exact (hdone.others wf' (hne wf' hwf') node a).trans (h.pending wf' (by simp [hwf']) node a)

/-- A tick that announces once keeps every attempt at one entry. -/
theorem tickScheduler_once (hcall : i.call = .tickScheduler) (hr : Coherent r)
    (honce : AtMostOneEntry r.journal) (hquiet : AnnouncesOnce r i) :
    AtMostOneEntry (r.tickScheduler i.env).2.journal := by
  have hstart : Ticking r (r.workflowIds i.env) r :=
    ⟨hr, honce, .of_eq rfl, nodup_workflowIds i.env r, fun _ _ => rfl, fun _ _ _ _ => rfl⟩
  obtain ⟨rest, h⟩ := forEach_consumes hstart fun wf rest t h => h.workflow hcall hquiet
  exact h.once

theorem step_once (hr : Coherent r) (honce : AtMostOneEntry r.journal)
    (hquiet : AnnouncesOnce r i) : AtMostOneEntry (step r i).journal := by
  by_cases hcall : i.call = .tickScheduler
  · have htick := tickScheduler_once hcall hr honce hquiet
    simpa only [step, hcall] using htick
  · refine step_invariant (I := fun t => AtMostOneEntry t.journal) honce ?_
    intro t t' ht hmove wf node attempt
    rw [hmove.announced hcall]
    exact ht wf node attempt

end Calls

/-- The outbox delivers, over every sequence of calls; and in every run of the
engine whose ticks announce once, no attempt has two entries. -/
theorem outbox_delivers (cfg : RuntimeConfig) (inputs : List Input)
    (hrun : Along step AnnouncesOnce (initial cfg) inputs) :
    (∀ (κ : Type) (j : Journal) (calls : List (OutboxCall κ)),
      (∀ row ∈ (calls.foldl deliver (.start j)).journal.outbox, row.published = true →
        ∃ h ∈ (calls.foldl deliver (.start j)).handed, h.seq = row.seq ∧ h.ok = true) ∧
      ∀ io (publish : κ → String → String → Except JournalError Unit × κ) k,
        Delivers (calls.foldl deliver (.start j)) io publish k) ∧
      AtMostOneEntry (run cfg inputs).journal := by
  refine ⟨fun κ j calls => calls_deliver j calls, ?_⟩
  have hstart : Coherent (initial cfg) ∧ AtMostOneEntry (initial cfg).journal :=
    ⟨coherent_run cfg [], fun _ _ _ => Nat.zero_le _⟩
  exact (hrun.invariant (I := fun r => Coherent r ∧ AtMostOneEntry r.journal) hstart
    fun r i hr hi => ⟨hr.1.step i, step_once hr.1 hr.2 hi⟩).2

namespace Deployment

/-- The workflow is admitted, scheduled and done. -/
def scheduledDone : List Input :=
  admitted ++ [⟨env, .tickScheduler⟩] ++ [⟨showing [seen taskId tsDone 0], .tickWatchTasks⟩]

/-- The scheduler ticks twice before the task is done. -/
def scheduledTwice : List Input := admitted ++ [⟨env, .tickScheduler⟩, ⟨env, .tickScheduler⟩]

theorem announcesOnce_of_ne {r : EngineRuntime} {i : Input} (h : i.call ≠ .tickScheduler) :
    AnnouncesOnce r i := fun hcall => absurd hcall h

theorem announcesOnce_admitted : AnnouncesOnce (run config admitted) ⟨env, .tickScheduler⟩ := by
  have hempty : (run config admitted).journal.outbox = [] := by decide +kernel
  have hnodup : (run config admitted).workflows.entries.all (fun e =>
      decide ((e.2.graph.readyNodes e.2.state.doneSet).map (·.nodeId)).Nodup) = true := by
    decide +kernel
  intro _ wf wfr hwf _
  have hready := List.all_eq_true.mp hnodup _ (Map.mem_entries.mpr hwf)
  simp only [decide_eq_true_eq] at hready
  refine ⟨hready, fun node _ _ => ?_⟩
  rw [Journal.announced, hempty]
  rfl

theorem announcesOnce_done : AnnouncesOnce (run config scheduledDone) ⟨env, .tickScheduler⟩ := by
  have hdone : (run config scheduledDone).workflows.entries.all (fun e => e.2.terminal) = true := by
    decide +kernel
  intro _ wf wfr hwf hlive
  have hterm := List.all_eq_true.mp hdone _ (Map.mem_entries.mpr hwf)
  dsimp only at hterm
  rw [hlive] at hterm
  cases hterm

end Deployment

open Deployment in
/-- Ticks before and after the only attempt is active announce it once. -/
theorem scheduledDone_delivers :
    Along step AnnouncesOnce (initial config) (scheduledDone ++ [⟨env, .tickScheduler⟩]) ∧
      AtMostOneEntry (run config (scheduledDone ++ [⟨env, .tickScheduler⟩])).journal := by
  have hadmitted : Along step AnnouncesOnce (initial config) admitted :=
    ⟨announcesOnce_of_ne (by simp), announcesOnce_of_ne (by simp), trivial⟩
  have hrun : Along step AnnouncesOnce (initial config)
      (scheduledDone ++ [⟨env, .tickScheduler⟩]) := by
    rw [along_concat, scheduledDone, along_concat, along_concat]
    exact ⟨⟨⟨hadmitted, announcesOnce_admitted⟩, announcesOnce_of_ne (by simp)⟩, announcesOnce_done⟩
  exact ⟨hrun, (outbox_delivers config _ hrun).2⟩

open Deployment in
/-- Two ticks announce the same attempt twice. -/
theorem scheduledTwice_announces_twice :
    ((run config scheduledTwice).journal.announced "wf-1" "direct-0" 1).length = 2 ∧
      ¬ AtMostOneEntry (run config scheduledTwice).journal := by
  have htwice : ((run config scheduledTwice).journal.announced "wf-1" "direct-0" 1).length = 2 := by
    decide +kernel
  refine ⟨htwice, fun h => ?_⟩
  have hle := h "wf-1" "direct-0" 1
  omega

end DdsOrchestrator.WorkflowEngine
