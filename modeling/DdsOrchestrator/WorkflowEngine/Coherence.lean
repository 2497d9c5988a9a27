import DdsOrchestrator.Lib.Machine
import DdsOrchestrator.WorkflowEngine.Moves

/-!
What holds in every reachable state of the runtime, whatever fails: the tables
of the journal agree on which workflows were admitted, attempt rows carry the
physical id of their attempt and no two the same, every record is filed under
the workflow of its intent and tracks exactly the nodes of its graph, and the
task index points at nodes of registered workflows.
-/

namespace DdsOrchestrator.WorkflowEngine

open Loop EngineRuntime Machine

/-! ### The journal -/

structure JournalOk (j : Journal) : Prop where
  intents : ∀ id, id ∈ j.intents ↔ id ∈ j.decisions
  workflows : ∀ id, id ∈ j.workflows ↔ id ∈ j.decisions
  /-- Workflow ids come from DDS strings, so they survive the way back. -/
  stored : ∀ id ∈ j.intents, (toS id).val = id
  check : ∀ id row, j.workflows.lookup id = some row → row.Check
  attempts : ∀ key row, j.attempts.lookup key = some row →
    key.1 ∈ j.workflows ∧ row.taskId = laya1TaskId key.1 1 key.2.1 key.2.2
  unique : ∀ key key' row row', j.attempts.lookup key = some row →
    j.attempts.lookup key' = some row' → row.taskId = row'.taskId → key = key'

theorem journalOk_empty : JournalOk .empty := by
  constructor <;> simp [Journal.empty]

section Journal

variable {j j' : Journal}

theorem JournalOk.outbox (hj : JournalOk j) (rows : List OutboxRow) :
    JournalOk { j with outbox := rows } :=
  ⟨hj.intents, hj.workflows, hj.stored, hj.check, hj.attempts, hj.unique⟩

/-- Everything but the admission tables' key sets and the `CHECK` is kept by a
change of counters and reservations. -/
theorem JournalOk.counters (hj : JournalOk j) {id : String} {row : WorkflowRow}
    (hid : id ∈ j.workflows) (hcheck : row.Check) (reservations : Map String ReservationRow) :
    JournalOk { j with
      workflows := j.workflows.insert id row
      reservations := reservations } := by
  have hmem : ∀ k, k ∈ j.workflows.insert id row ↔ k ∈ j.workflows := by
    intro k
    rw [AList.mem_insert]
    constructor
    · rintro (rfl | hk)
      · exact hid
      · exact hk
    · exact .inr
  refine ⟨hj.intents, fun k => (hmem k).trans (hj.workflows k), hj.stored, ?_, ?_, hj.unique⟩
  · intro k w hw
    rcases Map.lookup_insert_eq_some.mp hw with ⟨-, rfl⟩ | ⟨-, hold⟩
    · exact hcheck
    · exact hj.check k w hold
  · intro key w hw
    exact ⟨(hmem _).mpr (hj.attempts key w hw).1, (hj.attempts key w hw).2⟩

theorem Journal.ReserveStep.journalOk {workflowId key purpose : String}
    {tokens microunits : UInt64} {result : Except JournalError Journal.ReserveOutcome}
    (h : Journal.ReserveStep workflowId key purpose tokens microunits j result j')
    (hj : JournalOk j) : JournalOk j' := by
  cases h with
  | failed | replayed | consumed => exact hj
  | reserved row _ hrow hgrants =>
      exact hj.counters (Map.mem_iff_lookup.mpr ⟨row, hrow⟩) hgrants.check _

theorem Journal.ReleaseStep.journalOk {key : String} {measured : Option UInt64}
    {result : Except JournalError Unit} (h : Journal.ReleaseStep key measured j result j')
    (hj : JournalOk j) : JournalOk j' := by
  cases h with
  | failed => exact hj
  | orphan => exact ⟨hj.intents, hj.workflows, hj.stored, hj.check, hj.attempts, hj.unique⟩
  | released row w _ _ hworkflow hcheck =>
      exact hj.counters (Map.mem_iff_lookup.mpr ⟨w, hworkflow⟩) hcheck _

theorem Journal.RecordStep.journalOk {key : AttemptKey} {taskId : String} {state : AttemptState}
    {result : Except JournalError Unit} (h : Journal.RecordStep key taskId state j result j')
    (htask : taskId = laya1TaskId key.1 1 key.2.1 key.2.2) (hj : JournalOk j) :
    JournalOk j' := by
  cases h with
  | failed | ignored => exact hj
  | written hsame hfresh =>
      have hknown : key.1 ∈ j.workflows := by
        cases hrow : j.attempts.lookup key with
        | none => exact (hfresh hrow).2
        | some row => exact (hj.attempts key row hrow).1
      -- No other row has this task id, neither before an insertion nor before
      -- an update.
      have hother : ∀ k row, k ≠ key → j.attempts.lookup k = some row → row.taskId ≠ taskId := by
        intro k row hk hrow
        cases hold : j.attempts.lookup key with
        | none => exact (hfresh hold).1 k row hrow
        | some row' =>
            rintro rfl
            exact hk (hj.unique k key row row' hrow hold (hsame row' hold).symm)
      refine ⟨hj.intents, hj.workflows, hj.stored, hj.check, ?_, ?_⟩
      · intro k row hrow
        rcases Map.lookup_insert_eq_some.mp hrow with ⟨rfl, rfl⟩ | ⟨-, hold⟩
        · exact ⟨hknown, htask⟩
        · exact hj.attempts k row hold
      · intro k k' row row' hrow hrow' heq
        rcases Map.lookup_insert_eq_some.mp hrow with ⟨rfl, rfl⟩ | ⟨hk, hold⟩ <;>
          rcases Map.lookup_insert_eq_some.mp hrow' with ⟨rfl, rfl⟩ | ⟨hk', hold'⟩
        · rfl
        · exact absurd heq.symm (hother k' row' hk' hold')
        · exact absurd heq (hother k row hk hold)
        · exact hj.unique k k' row row' hold hold' heq

theorem JournalOk.inDoubted (hj : JournalOk j) (taskId : String) :
    JournalOk (j.inDoubted taskId) := by
  have hlookup : ∀ key row, (j.inDoubted taskId).attempts.lookup key = some row →
      ∃ old, j.attempts.lookup key = some old ∧ row.taskId = old.taskId := by
    intro key row hrow
    simp only [Journal.inDoubted, Map.lookup_mapVals, Option.map_eq_some_iff] at hrow
    obtain ⟨old, hold, rfl⟩ := hrow
    refine ⟨old, hold, ?_⟩
    split <;> rfl
  refine ⟨hj.intents, hj.workflows, hj.stored, hj.check, ?_, ?_⟩
  · intro key row hrow
    obtain ⟨old, hold, hid⟩ := hlookup key row hrow
    rw [hid]
    exact hj.attempts key old hold
  · intro key key' row row' hrow hrow' heq
    obtain ⟨old, hold, hid⟩ := hlookup key row hrow
    obtain ⟨old', hold', hid'⟩ := hlookup key' row' hrow'
    exact hj.unique key key' old old' hold hold' (by rw [← hid, ← hid', heq])

theorem Journal.mem_insertIntentOrIgnore {id k : String} {row : IntentRow} :
    k ∈ (Journal.insertIntentOrIgnore id row j).intents ↔ k = id ∨ k ∈ j.intents := by
  unfold Journal.insertIntentOrIgnore
  split
  · rename_i hid
    constructor
    · exact .inr
    · rintro (rfl | hk)
      · exact hid
      · exact hk
  · exact AList.mem_insert _

theorem Journal.AdmitStep.admitted_journalOk {a : Journal.Admission}
    (h : Journal.AdmitStep a j (.ok .admitted) j') (hid : (toS a.workflowId).val = a.workflowId)
    (hj : JournalOk j) :
    JournalOk j' ∧ a.workflowId ∈ j'.decisions ∧ a.workflowId ∉ j.decisions ∧
      (∀ id ∈ j.decisions, id ∈ j'.decisions) ∧ j'.attempts = j.attempts ∧
      j'.reservations = j.reservations := by
  cases h with
  | admitted hdecision hworkflow hcheck =>
      set j₁ : Journal := { j with
        decisions := j.decisions.insert a.workflowId a.decisionRow
        workflows := j.workflows.insert a.workflowId a.workflowRow } with hj₁
      have hfields : (Journal.insertIntentOrIgnore a.workflowId a.intentRow j₁).decisions =
          j₁.decisions ∧
          (Journal.insertIntentOrIgnore a.workflowId a.intentRow j₁).workflows = j₁.workflows ∧
          (Journal.insertIntentOrIgnore a.workflowId a.intentRow j₁).attempts = j.attempts ∧
          (Journal.insertIntentOrIgnore a.workflowId a.intentRow j₁).reservations =
            j.reservations := by
        unfold Journal.insertIntentOrIgnore
        split <;> exact ⟨rfl, rfl, rfl, rfl⟩
      obtain ⟨hd, hw, ha, hr⟩ := hfields
      refine ⟨⟨?_, ?_, ?_, ?_, ?_, ?_⟩, ?_, AList.lookup_eq_none.mp hdecision, ?_, ha, hr⟩
      · intro id
        rw [Journal.mem_insertIntentOrIgnore, hd, hj₁, AList.mem_insert]
        exact or_congr_right (hj.intents id)
      · intro id
        rw [hw, hd, hj₁, AList.mem_insert, AList.mem_insert]
        exact or_congr_right (hj.workflows id)
      · intro id hmem
        rcases Journal.mem_insertIntentOrIgnore.mp hmem with rfl | hmem
        · exact hid
        · exact hj.stored id hmem
      · intro id row hrow
        rw [hw] at hrow
        rcases Map.lookup_insert_eq_some.mp hrow with ⟨-, rfl⟩ | ⟨-, hold⟩
        · exact hcheck
        · exact hj.check id row hold
      · intro key row hrow
        rw [ha] at hrow
        rw [hw]
        obtain ⟨hmem, htask⟩ := hj.attempts key row hrow
        exact ⟨by simp [hj₁, hmem], htask⟩
      · rw [ha]
        exact hj.unique
      · rw [hd]
        simp [hj₁]
      · intro id hmem
        rw [hd]
        simp [hj₁, hmem]

/-! What the calls leave of the attempt rows. -/

theorem Journal.ReserveStep.attempts_eq {workflowId key purpose : String}
    {tokens microunits : UInt64} {result : Except JournalError Journal.ReserveOutcome}
    (h : Journal.ReserveStep workflowId key purpose tokens microunits j result j') :
    j'.attempts = j.attempts := by
  cases h <;> rfl

theorem Journal.releaseReservation_attempts (io : JournalCall → Bool) (key : String)
    (measured : Option UInt64) (j : Journal) :
    (j.releaseReservation io key measured).2.attempts = j.attempts := by
  have h := Journal.releaseReservation_step io key measured j
  generalize j.releaseReservation io key measured = out at h ⊢
  obtain ⟨result, j'⟩ := out
  cases h <;> rfl

/-- A record under the task id the row already has, if there is one. -/
theorem Journal.RecordStep.attempts_eq {key : AttemptKey} {taskId : String} {state : AttemptState}
    (h : Journal.RecordStep key taskId state j (.ok ()) j')
    (hsame : ∀ row, j.attempts.lookup key = some row → row.taskId = taskId) :
    j'.attempts = j.attempts.insert key ⟨taskId, state⟩ := by
  cases h with
  | ignored row hrow hother => exact absurd (hsame row hrow) hother
  | written => rfl

end Journal

/-! ### The operations of the engine -/

theorem progress_set (s : EngineState) (node : String) (p : NodeProgress) (id : String) :
    (s.set node p).progress id = if id = node then p else s.progress id := by
  unfold EngineState.progress
  rw [EngineState.lookup_set]
  split <;> rfl

/-- The effect of an engine operation on the journal: it keeps the invariant
and does not touch the admission. -/
structure Kept (j j' : Journal) : Prop where
  ok : JournalOk j → JournalOk j'
  decisions : j'.decisions = j.decisions
  intents : j'.intents = j.intents

theorem Kept.refl (j : Journal) : Kept j j := ⟨id, rfl, rfl⟩

theorem Kept.trans {j j' j'' : Journal} (h : Kept j j') (h' : Kept j' j'') : Kept j j'' :=
  ⟨h'.ok ∘ h.ok, h'.decisions.trans h.decisions, h'.intents.trans h.intents⟩

theorem Kept.outbox (j : Journal) (rows : List OutboxRow) : Kept j { j with outbox := rows } :=
  ⟨fun hj => hj.outbox rows, rfl, rfl⟩

theorem Journal.ReserveStep.kept {j j' : Journal} {workflowId key purpose : String}
    {tokens microunits : UInt64} {result : Except JournalError Journal.ReserveOutcome}
    (h : Journal.ReserveStep workflowId key purpose tokens microunits j result j') : Kept j j' :=
  ⟨h.journalOk, by cases h <;> rfl, by cases h <;> rfl⟩

theorem Journal.releaseReservation_kept (io : JournalCall → Bool) (key : String)
    (measured : Option UInt64) (j : Journal) :
    Kept j (j.releaseReservation io key measured).2 := by
  have h := Journal.releaseReservation_step io key measured j
  generalize j.releaseReservation io key measured = out at h ⊢
  obtain ⟨result, j'⟩ := out
  exact ⟨h.journalOk, by cases h <;> rfl, by cases h <;> rfl⟩

theorem Journal.RecordStep.kept {j j' : Journal} {key : AttemptKey} {taskId : String}
    {state : AttemptState} {result : Except JournalError Unit}
    (h : Journal.RecordStep key taskId state j result j')
    (htask : taskId = laya1TaskId key.1 1 key.2.1 key.2.2) : Kept j j' :=
  ⟨h.journalOk htask, by cases h <;> rfl, by cases h <;> rfl⟩

/-- The state tracks exactly the nodes of the graph. -/
structure Tracks (graph : PlanGraph) (s : EngineState) : Prop where
  nodes : ∀ id, (∃ p, s.nodes.lookup id = some p) ↔ ∃ spec ∈ graph.nodes, spec.nodeId = id
  active : ∀ id p, s.nodes.lookup id = some p → 1 ≤ p.activeAttempt

theorem Tracks.set {graph : PlanGraph} {s : EngineState} {node : String} {spec : NodeSpec}
    {p : NodeProgress} (h : Tracks graph s) (hspec : graph.node node = some spec)
    (hp : 1 ≤ p.activeAttempt) : Tracks graph (s.set node p) := by
  obtain ⟨hmem, hid⟩ := PlanGraph.node_eq_some hspec
  refine ⟨fun id => ?_, fun id q hq => ?_⟩
  · rw [EngineState.lookup_set]
    by_cases h' : id = node
    · simp only [h', if_true, Option.some.injEq, exists_eq', true_iff]
      exact ⟨spec, hmem, hid⟩
    · rw [if_neg h']
      exact h.nodes id
  · rw [EngineState.lookup_set] at hq
    split at hq
    · injection hq with hq
      exact hq ▸ hp
    · exact h.active id q hq

section Operations

variable {io : JournalCall → Bool} {graph : PlanGraph} {node : String} {s s' : EngineState}
  {j j' : Journal}

theorem EngineState.one_le_started (s : EngineState) (node : String) :
    1 ≤ (s.started node).activeAttempt :=
  le_max_right _ _

theorem EngineState.MaterializeStep.tracks {microunits : UInt64}
    {result : Except EngineError String}
    (h : EngineState.MaterializeStep graph node microunits s j result s' j')
    (hs : Tracks graph s) : Tracks graph s' := by
  have hone := s.one_le_started node
  cases h with
  | unknown | done | doubtful => exact hs
  | unreserved _ _ _ hspec => exact hs.set hspec hone
  | consumed _ _ hspec => exact hs.set hspec hone
  | unrecorded _ _ _ hspec => exact hs.set hspec hone
  | recorded _ _ _ hspec => exact hs.set hspec hone

theorem EngineState.MaterializeStep.kept {microunits : UInt64}
    {result : Except EngineError String}
    (h : EngineState.MaterializeStep graph node microunits s j result s' j')
    (hplan : ∀ spec, graph.node node = some spec → graph.planRevision = 1) : Kept j j' := by
  cases h with
  | unknown | done | doubtful | unreserved | consumed => exact .refl j
  | unrecorded _ _ _ _ _ hreserve =>
      obtain ⟨_, -, hstep⟩ := hreserve
      exact hstep.kept
  | recorded _ _ spec hspec j₁ j₂ hreserve hrecord rows =>
      obtain ⟨_, -, hstep⟩ := hreserve
      refine hstep.kept.trans ((hrecord.kept ?_).trans (.outbox j₂ rows))
      rw [EngineState.taskIdOf, hplan spec hspec]

theorem EngineState.DoneStep.tracks {attempt : Nat} {outputs : List (String × String)}
    {result : Except EngineError (List String)}
    (h : EngineState.DoneStep io graph node attempt outputs s j result s' j')
    (hs : Tracks graph s) : Tracks graph s' := by
  cases h with
  | refused => exact hs
  | unrecorded _ hspec p hp => exact hs.set hspec (hs.active node p hp)
  | unsent _ hspec p hp => exact hs.set hspec (hs.active node p hp)
  | completed _ hspec p hp => exact hs.set hspec (hs.active node p hp)

theorem EngineState.DoneStep.kept {attempt : Nat} {outputs : List (String × String)}
    {result : Except EngineError (List String)}
    (h : EngineState.DoneStep io graph node attempt outputs s j result s' j')
    (hplan : ∀ spec, graph.node node = some spec → graph.planRevision = 1) : Kept j j' := by
  have htask : ∀ spec, graph.node node = some spec →
      EngineState.taskIdOf graph node attempt = laya1TaskId graph.workflowId 1 node attempt := by
    intro spec hspec
    rw [EngineState.taskIdOf, hplan spec hspec]
  cases h with
  | refused | unrecorded => exact .refl j
  | unsent spec hspec _ _ _ _ _ j₁ hrecord rows =>
      exact (hrecord.kept (htask spec hspec)).trans (.outbox j₁ rows)
  | completed spec hspec _ _ _ _ _ j₁ hrecord rows =>
      exact (hrecord.kept (htask spec hspec)).trans ((Kept.outbox j₁ rows).trans
        (Journal.releaseReservation_kept io _ none _))

theorem EngineState.FailStep.tracks {attempt : Nat} {failover : Bool}
    {result : Except EngineError (Option Nat)}
    (h : EngineState.FailStep io graph node attempt failover s j result s' j')
    (hs : Tracks graph s) : Tracks graph s' := by
  cases h with
  | refused | unrecorded => exact hs
  | retried _ hspec p hp => exact hs.set hspec (Nat.le_add_left 1 attempt)
  | closed _ hspec p hp => exact hs.set hspec (hs.active node p hp)

theorem EngineState.FailStep.kept {attempt : Nat} {failover : Bool}
    {result : Except EngineError (Option Nat)}
    (h : EngineState.FailStep io graph node attempt failover s j result s' j')
    (hplan : ∀ spec, graph.node node = some spec → graph.planRevision = 1) : Kept j j' := by
  have hrelease := Journal.releaseReservation_kept io
    (EngineState.reservationKey graph.workflowId node attempt) none j
  have htask : ∀ spec, graph.node node = some spec →
      EngineState.taskIdOf graph node attempt = laya1TaskId graph.workflowId 1 node attempt := by
    intro spec hspec
    rw [EngineState.taskIdOf, hplan spec hspec]
  cases h with
  | refused => exact .refl j
  | unrecorded => exact hrelease
  | retried spec hspec _ _ _ _ j₂ hrecord _ rows =>
      exact hrelease.trans ((hrecord.kept (htask spec hspec)).trans (.outbox j₂ rows))
  | closed spec hspec _ _ _ _ _ hrecord =>
      exact hrelease.trans (hrecord.kept (htask spec hspec))

end Operations

/-! ### Recovery -/

theorem scanAttempts_active (io : JournalCall → Bool) (j : Journal) (workflowId node : String)
    (attempts : List Nat) (p : NodeProgress) :
    (scanAttempts io j workflowId node attempts p).activeAttempt = p.activeAttempt ∨
      ((scanAttempts io j workflowId node attempts p).activeAttempt ∈ attempts ∧
        ∃ row, j.attempts.lookup (workflowId, node,
          (scanAttempts io j workflowId node attempts p).activeAttempt) = some row) := by
  induction attempts generalizing p with
  | nil => exact .inl rfl
  | cons a rest ih =>
      have hrest : ∀ q : NodeProgress,
          (q.activeAttempt = p.activeAttempt ∨ q.activeAttempt = a ∧
            ∃ row, j.attempts.lookup (workflowId, node, a) = some row) →
          (scanAttempts io j workflowId node rest q).activeAttempt = p.activeAttempt ∨
            ((scanAttempts io j workflowId node rest q).activeAttempt ∈ a :: rest ∧
              ∃ row, j.attempts.lookup (workflowId, node,
                (scanAttempts io j workflowId node rest q).activeAttempt) = some row) := by
        intro q hq
        rcases ih q with h | ⟨h, hrow⟩
        · rcases hq with hq | ⟨hq, hrow⟩
          · exact .inl (h.trans hq)
          · exact .inr ⟨by rw [h, hq]; simp, by rw [h, hq]; exact hrow⟩
        · exact .inr ⟨List.mem_cons_of_mem _ h, hrow⟩
      have hread : ∀ state, j.attemptState io (workflowId, node, a) = .ok state →
          ∃ row, j.attempts.lookup (workflowId, node, a) = some row := by
        intro state hstate
        unfold Journal.attemptState at hstate
        split at hstate
        · cases hstate
        split at hstate
        · rename_i row hrow
          exact ⟨row, hrow⟩
        · cases hstate
      have hstop : ∀ q : NodeProgress, scanAttempts io j workflowId node (a :: rest) p = q →
          q.activeAttempt = a → (∃ row, j.attempts.lookup (workflowId, node, a) = some row) →
          (scanAttempts io j workflowId node (a :: rest) p).activeAttempt = p.activeAttempt ∨
            ((scanAttempts io j workflowId node (a :: rest) p).activeAttempt ∈ a :: rest ∧
              ∃ row, j.attempts.lookup (workflowId, node,
                (scanAttempts io j workflowId node (a :: rest) p).activeAttempt) = some row) := by
        intro q hq ha hrow
        rw [hq, ha]
        exact .inr ⟨by simp, hrow⟩
      have hgo : ∀ q, scanAttempts io j workflowId node (a :: rest) p =
          scanAttempts io j workflowId node rest q → _ → _ :=
        fun q hq hcase => hq ▸ hrest q hcase
      cases hstate : j.attemptState io (workflowId, node, a) with
      | error e => exact hgo p (by simp only [scanAttempts, hstate]) (.inl rfl)
      | ok state =>
          have hrow := hread state hstate
          cases state with
          | done =>
              exact hstop { p with done := true, activeAttempt := a }
                (by simp only [scanAttempts, hstate]) rfl hrow
          | failed | cancelled =>
              exact hstop { p with failed := true, activeAttempt := a }
                (by simp only [scanAttempts, hstate]) rfl hrow
          | inDoubt =>
              exact hgo { p with activeAttempt := a, inDoubt := true }
                (by simp only [scanAttempts, hstate]) (.inr ⟨rfl, hrow⟩)
          | pending | published | inFlight =>
              exact hgo { p with activeAttempt := a }
                (by simp only [scanAttempts, hstate]) (.inr ⟨rfl, hrow⟩)

theorem scanAttempts_of_none {io : JournalCall → Bool} {j : Journal} {workflowId node : String}
    {attempts : List Nat}
    (hnone : ∀ a ∈ attempts, j.attempts.lookup (workflowId, node, a) = none) (p : NodeProgress) :
    scanAttempts io j workflowId node attempts p = p := by
  induction attempts with
  | nil => rfl
  | cons a rest ih =>
      have hread : ∃ e, j.attemptState io (workflowId, node, a) = .error e := by
        rw [Journal.attemptState, hnone a (by simp)]
        split
        · exact ⟨_, rfl⟩
        · exact ⟨_, rfl⟩
      obtain ⟨e, hread⟩ := hread
      simp only [scanAttempts, hread]
      exact ih fun b hb => hnone b (by simp [hb])

/-- The recovered attempt is the first one or one that the journal has. -/
theorem recoverNode_active (io : JournalCall → Bool) (j : Journal) (workflowId : String)
    (n : NodeSpec) :
    (recoverNode io j workflowId n).activeAttempt = 1 ∨
      1 ≤ (recoverNode io j workflowId n).activeAttempt ∧
        ∃ row, j.attempts.lookup (workflowId, n.nodeId,
          (recoverNode io j workflowId n).activeAttempt) = some row := by
  rcases scanAttempts_active io j workflowId n.nodeId (List.range' 1 n.maxAttempts) .fresh with
    h | ⟨hmem, hrow⟩
  · exact .inl h
  · exact .inr ⟨(List.mem_range'_1.mp hmem).1, hrow⟩

theorem one_le_recoverNode (io : JournalCall → Bool) (j : Journal) (workflowId : String)
    (n : NodeSpec) : 1 ≤ (recoverNode io j workflowId n).activeAttempt := by
  rcases recoverNode_active io j workflowId n with h | ⟨h, -⟩
  · exact h.ge
  · exact h

/-- A recovered node is one of the graph, with the progress read for it. -/
theorem lookup_recover (io : JournalCall → Bool) (j : Journal) (graph : PlanGraph) (id : String) :
    (∀ p, (EngineState.recover io j graph).nodes.lookup id = some p →
      ∃ n ∈ graph.nodes, n.nodeId = id ∧ p = recoverNode io j graph.workflowId n) ∧
    ((∃ n ∈ graph.nodes, n.nodeId = id) →
      ∃ p, (EngineState.recover io j graph).nodes.lookup id = some p) := by
  have key : ∀ (nodes : List NodeSpec) (s : EngineState),
      (∀ p, (nodes.foldl (fun s n => s.set n.nodeId (recoverNode io j graph.workflowId n))
          s).nodes.lookup id = some p →
        s.nodes.lookup id = some p ∨
          ∃ n ∈ nodes, n.nodeId = id ∧ p = recoverNode io j graph.workflowId n) ∧
      ((∃ p, s.nodes.lookup id = some p) ∨ (∃ n ∈ nodes, n.nodeId = id) →
        ∃ p, (nodes.foldl (fun s n => s.set n.nodeId (recoverNode io j graph.workflowId n))
          s).nodes.lookup id = some p) := by
    intro nodes
    induction nodes with
    | nil =>
        intro s
        exact ⟨fun p hp => .inl hp, by simp⟩
    | cons n nodes ih =>
        intro s
        obtain ⟨hfrom, hto⟩ := ih (s.set n.nodeId (recoverNode io j graph.workflowId n))
        constructor
        · intro p hp
          rcases hfrom p hp with h | ⟨m, hm, hid, hpm⟩
          · rw [EngineState.lookup_set] at h
            split at h
            · injection h with h
              exact .inr ⟨n, by simp, Eq.symm ‹_›, h.symm⟩
            · exact .inl h
          · exact .inr ⟨m, by simp [hm], hid, hpm⟩
        · intro h
          refine hto ?_
          by_cases hid : id = n.nodeId
          · exact .inl ⟨_, by simp [hid]; rfl⟩
          · rcases h with ⟨p, hp⟩ | ⟨m, hm, hmid⟩
            · exact .inl ⟨p, by simp [hid, hp]⟩
            · rcases List.mem_cons.mp hm with rfl | hm
              · exact absurd hmid.symm hid
              · exact .inr ⟨m, hm, hmid⟩
  obtain ⟨hfrom, hto⟩ := key graph.nodes default
  constructor
  · intro p hp
    rcases hfrom p hp with h | h
    · exact absurd h (by simp [default])
    · exact h
  · intro h
    exact hto (.inr h)

theorem recover_tracks (io : JournalCall → Bool) (j : Journal) (graph : PlanGraph) :
    Tracks graph (EngineState.recover io j graph) := by
  refine ⟨fun id => ⟨?_, (lookup_recover io j graph id).2⟩, fun id p hp => ?_⟩
  · rintro ⟨p, hp⟩
    obtain ⟨n, hn, hid, -⟩ := (lookup_recover io j graph id).1 p hp
    exact ⟨n, hn, hid⟩
  · obtain ⟨n, -, -, rfl⟩ := (lookup_recover io j graph id).1 p hp
    exact one_le_recoverNode io j graph.workflowId n

/-! ### The runtime -/

structure RecordOk (j : Journal) (wf : String) (wfr : WfRuntime) : Prop where
  key : wfr.intent.workflowId.val = wf
  graph : wfr.graph.workflowId = wf
  plan : wfr.graph.planRevision = 1 ∧ wf ∈ j.decisions ∨
    wfr.graph.planRevision = 0 ∧ wfr.graph.nodes = []
  tracks : Tracks wfr.graph wfr.state

structure Coherent (r : EngineRuntime) : Prop where
  journal : JournalOk r.journal
  records : ∀ wf wfr, r.workflows.lookup wf = some wfr → RecordOk r.journal wf wfr
  index : ∀ taskId wf node, r.taskIndex.lookup taskId = some (wf, node) →
    ∃ wfr, r.workflows.lookup wf = some wfr ∧ ∃ spec ∈ wfr.graph.nodes, spec.nodeId = node

theorem coherent_new {j : Journal} (hj : JournalOk j) (log : List Sample) (cfg : RuntimeConfig) :
    Coherent (EngineRuntime.new j log cfg) :=
  ⟨hj, by simp [EngineRuntime.new], by simp [EngineRuntime.new]⟩

theorem RecordOk.rev_of_node {j : Journal} {wf node : String} {wfr : WfRuntime}
    (h : RecordOk j wf wfr) : ∀ spec, wfr.graph.node node = some spec →
      wfr.graph.planRevision = 1 := by
  intro spec hspec
  rcases h.plan with ⟨hrev, -⟩ | ⟨-, hnil⟩
  · exact hrev
  · have hmem := (PlanGraph.node_eq_some hspec).1
    rw [hnil] at hmem
    cases hmem

theorem RecordOk.mono {j j' : Journal} {wf : String} {wfr : WfRuntime} (h : RecordOk j wf wfr)
    (hsub : ∀ id ∈ j.decisions, id ∈ j'.decisions) : RecordOk j' wf wfr :=
  ⟨h.key, h.graph, h.plan.imp (fun hp => ⟨hp.1, hsub _ hp.2⟩) id, h.tracks⟩

/-- The one way in which moves change a coherent runtime: the record of one
workflow, whose graph stays unless it had no nodes, the journal, and the
index. -/
theorem Coherent.update {r : EngineRuntime} (hr : Coherent r) {wf : String} {wfr : WfRuntime}
    {j : Journal} {log : List Sample} {index : Map String (String × String)}
    {marked : Finset String} (hj : JournalOk j)
    (hsub : ∀ id ∈ r.journal.decisions, id ∈ j.decisions)
    (hrecord : RecordOk j wf wfr)
    (hgraph : ∀ old, r.workflows.lookup wf = some old → old.graph.nodes = [] ∨
      wfr.graph = old.graph)
    (hindex : ∀ taskId wf' node, index.lookup taskId = some (wf', node) →
      r.taskIndex.lookup taskId = some (wf', node) ∨
        wf' = wf ∧ ∃ spec ∈ wfr.graph.nodes, spec.nodeId = node) :
    Coherent { r.setWf wf wfr with
      journal := j, log := log, taskIndex := index, inDoubtMarked := marked } := by
  refine ⟨hj, ?_, ?_⟩
  · intro wf' wfr' hwf'
    rw [lookup_setWf] at hwf'
    split at hwf'
    · injection hwf' with hwf'
      subst hwf'
      exact ‹wf' = wf› ▸ hrecord
    · exact (hr.records wf' wfr' hwf').mono hsub
  · intro taskId wf' node htask
    rcases hindex taskId wf' node htask with hold | ⟨rfl, hspec⟩
    · obtain ⟨old, hold, spec, hspec, hid⟩ := hr.index taskId wf' node hold
      by_cases heq : wf' = wf
      · subst heq
        refine ⟨wfr, by simp, spec, ?_, hid⟩
        rcases hgraph old hold with hnil | hsame
        · rw [hnil] at hspec
          cases hspec
        · exact hsame ▸ hspec
      · exact ⟨old, by simp [heq, hold], spec, hspec, hid⟩
    · exact ⟨wfr, by simp, hspec⟩

theorem Kept.sub {j j' : Journal} (h : Kept j j') : ∀ id ∈ j.decisions, id ∈ j'.decisions := by
  rw [h.decisions]
  exact fun _ h => h

/-- A change of the journal alone. -/
theorem Coherent.withJournal {r : EngineRuntime} (hr : Coherent r) {j : Journal}
    {marked : Finset String} (hj : JournalOk j)
    (hsub : ∀ id ∈ r.journal.decisions, id ∈ j.decisions) :
    Coherent { r with journal := j, inDoubtMarked := marked } :=
  ⟨hj, fun wf wfr hwf => (hr.records wf wfr hwf).mono hsub, hr.index⟩

/-- A record whose graph stays, with a state that tracks it. -/
theorem Coherent.updateState {r : EngineRuntime} (hr : Coherent r) {wf : String}
    {old wfr : WfRuntime} {j : Journal} {log : List Sample}
    {index : Map String (String × String)} {marked : Finset String}
    (hold : r.workflows.lookup wf = some old) (hj : Kept r.journal j)
    (hintent : wfr.intent = old.intent) (hgraph : wfr.graph = old.graph)
    (htracks : Tracks old.graph wfr.state)
    (hindex : ∀ taskId wf' node, index.lookup taskId = some (wf', node) →
      r.taskIndex.lookup taskId = some (wf', node) ∨
        wf' = wf ∧ ∃ spec ∈ old.graph.nodes, spec.nodeId = node) :
    Coherent { r.setWf wf wfr with
      journal := j, log := log, taskIndex := index, inDoubtMarked := marked } := by
  obtain ⟨hkey, hwf, hplan, -⟩ := (hr.records wf old hold).mono hj.sub
  refine hr.update (hj.ok hr.journal) hj.sub ⟨?_, ?_, ?_, ?_⟩ ?_ ?_
  · rw [hintent]
    exact hkey
  · rw [hgraph]
    exact hwf
  · rw [hgraph]
    exact hplan
  · rw [hgraph]
    exact htracks
  · intro old' hold'
    rw [hold, Option.some.injEq] at hold'
    exact .inr (hgraph.trans (by rw [hold']))
  · rw [hgraph]
    exact hindex

section Moves

variable {r₀ r r' : EngineRuntime} {i : Input}

theorem Due.node {wf node : String} {wfr : WfRuntime} (hdue : Due i r wf node wfr) :
    ∃ spec ∈ wfr.graph.nodes, spec.nodeId = node := by
  obtain ⟨spec, hspec, hid⟩ := hdue.ready
  exact ⟨spec, List.mem_of_mem_filter hspec, hid⟩

theorem Watched.node {task : Task} {wf node : String} {wfr : WfRuntime} (hr : Coherent r)
    (hwatch : Watched i r task wf node wfr) : ∃ spec ∈ wfr.graph.nodes, spec.nodeId = node := by
  obtain ⟨old, hold, hspec⟩ := hr.index _ _ _ hwatch.indexed
  rw [hwatch.registered, Option.some.injEq] at hold
  exact hold ▸ hspec

theorem Due.materialized {wf node : String} {wfr : WfRuntime} {state : EngineState} {j : Journal}
    {result : Except EngineError String} (hr : Coherent r) (hdue : Due i r wf node wfr)
    (hmat : wfr.state.materialize i.env.journalFails wfr.graph node r.cfg.perAttemptMicrounits
      r.journal = (result, state, j)) :
    EngineState.MaterializeStep wfr.graph node r.cfg.perAttemptMicrounits wfr.state r.journal
        result state j ∧ Tracks wfr.graph state ∧ Kept r.journal j := by
  have hstep := EngineState.materialize_step i.env.journalFails wfr.graph node
    r.cfg.perAttemptMicrounits wfr.state r.journal
  rw [hmat] at hstep
  have hok := hr.records wf wfr hdue.registered
  exact ⟨hstep, hstep.tracks hok.tracks, hstep.kept hok.rev_of_node⟩

theorem Watched.completed {task : Task} {wf node : String} {wfr : WfRuntime}
    {outputs : List (String × String)} {state : EngineState} {j : Journal}
    {result : Except EngineError (List String)} (hr : Coherent r)
    (hwatch : Watched i r task wf node wfr)
    (hdone : wfr.state.onDone i.env.journalFails wfr.graph node (watchedAttempt wfr node)
      outputs r.journal = (result, state, j)) :
    EngineState.DoneStep i.env.journalFails wfr.graph node (watchedAttempt wfr node) outputs
        wfr.state r.journal result state j ∧ Tracks wfr.graph state ∧ Kept r.journal j := by
  have hstep := EngineState.onDone_step i.env.journalFails wfr.graph node
    (watchedAttempt wfr node) outputs wfr.state r.journal
  rw [hdone] at hstep
  have hok := hr.records wf wfr hwatch.registered
  exact ⟨hstep, hstep.tracks hok.tracks, hstep.kept hok.rev_of_node⟩

theorem Watched.failed {task : Task} {wf node : String} {wfr : WfRuntime}
    {state : EngineState} {j : Journal} {result : Except EngineError (Option Nat)}
    (hr : Coherent r) (hwatch : Watched i r task wf node wfr)
    (hfail : wfr.state.onFailed i.env.journalFails wfr.graph node (watchedAttempt wfr node)
      wfr.failover r.journal = (result, state, j)) :
    EngineState.FailStep i.env.journalFails wfr.graph node (watchedAttempt wfr node)
        wfr.failover wfr.state r.journal result state j ∧ Tracks wfr.graph state ∧
      Kept r.journal j := by
  have hstep := EngineState.onFailed_step i.env.journalFails wfr.graph node
    (watchedAttempt wfr node) wfr.failover wfr.state r.journal
  rw [hfail] at hstep
  have hok := hr.records wf wfr hwatch.registered
  exact ⟨hstep, hstep.tracks hok.tracks, hstep.kept hok.rev_of_node⟩

theorem Coherent.move (hr : Coherent r) (h : Move r₀ i r r') : Coherent r' := by
  have hsame : ∀ {wf : String} {old wfr : WfRuntime} {log : List Sample},
      r.workflows.lookup wf = some old → wfr.intent = old.intent → wfr.graph = old.graph →
      wfr.state = old.state →
      Coherent { r.setWf wf wfr with
        journal := r.journal, log := log, taskIndex := r.taskIndex,
        inDoubtMarked := r.inDoubtMarked } := by
    intro wf old wfr log hold hintent hgraph hstate
    refine hr.updateState hold (.refl _) hintent hgraph ?_ fun _ _ _ h => .inl h
    rw [hstate]
    exact (hr.records wf old hold).tracks
  cases h with
  | submitted intent hcall hstart hnew =>
      refine hr.update hr.journal (fun _ h => h) ⟨rfl, rfl, .inr ⟨rfl, rfl⟩, ?_⟩ ?_
        fun _ _ _ h => .inl h
      · constructor <;> simp [awaiting, default]
      · intro old hold
        rw [hnew] at hold
        cases hold
  | cancelled intent wfr hcall hcancel hwf => exact hsame hwf rfl rfl rfl
  | observed decision wf wfr hres => exact hsame hres.registered rfl rfl rfl
  | refused decision wf wfr reason hres => exact hsame hres.registered rfl rfl rfl
  | admitted decision wf wfr e hres hshadow hmap j hentry =>
      obtain ⟨hj, -, -, hsub, -⟩ := hentry.admitted_journalOk (toS_val wfr.intent.workflowId.noNul)
        hr.journal
      exact hr.withJournal hj hsub
  | planned decision wf wfr e hres hshadow hmap j hentry cand =>
      obtain ⟨hj, hmem, hfresh, hsub, -⟩ := hentry.admitted_journalOk
        (toS_val wfr.intent.workflowId.noNul) hr.journal
      have hok := hr.records wf wfr hres.registered
      refine hr.update hj hsub ⟨hok.key, hok.key, .inl ⟨rfl, ?_⟩, recover_tracks _ _ _⟩ ?_
        fun _ _ _ h => .inl h
      · exact hok.key ▸ hmem
      · intro old hold
        rw [hres.registered, Option.some.injEq] at hold
        subst hold
        rcases hok.plan with ⟨-, hdecided⟩ | ⟨-, hnil⟩
        · have hmem' : wfr.intent.workflowId.val ∈ r₀.journal.decisions := by
            rw [hok.key]
            exact hdecided
          exact absurd hmem' hfresh
        · exact .inl hnil
  | rehydrated id row cand hcall hrow hnew =>
      have hmem : id ∈ r.journal.intents := Map.mem_iff_lookup.mpr ⟨row, hrow⟩
      refine hr.update hr.journal (fun _ h => h)
        ⟨hr.journal.stored id hmem, rfl, .inl ⟨rfl, (hr.journal.intents id).mp hmem⟩,
          recover_tracks _ _ _⟩ ?_ fun _ _ _ h => .inl h
      intro old hold
      rw [hnew] at hold
      cases hold
  | held wf node wfr hdue result state j hmat =>
      obtain ⟨-, htracks, hkept⟩ := hdue.materialized hr hmat
      exact hr.updateState hdue.registered hkept rfl rfl htracks fun _ _ _ h => .inl h
  | dispatched wf node wfr hdue taskId state j hmat =>
      obtain ⟨-, htracks, hkept⟩ := hdue.materialized hr hmat
      refine hr.updateState hdue.registered hkept rfl rfl htracks ?_
      intro t wf' node' ht
      rcases Map.lookup_insert_eq_some.mp ht with ⟨-, heq⟩ | ⟨-, hold⟩
      · injection heq with hwf hnode
        obtain ⟨spec, hspec, hid⟩ := hdue.ready
        exact .inr ⟨hwf, spec, List.mem_of_mem_filter hspec, hid.trans hnode.symm⟩
      · exact .inl hold
  | incomplete task wf node wfr hwatch hstatus outputs e state j hdone =>
      obtain ⟨-, htracks, hkept⟩ := hwatch.completed hr hdone
      exact hr.updateState hwatch.registered hkept rfl rfl htracks fun _ _ _ h => .inl h
  | completed task wf node wfr hwatch hstatus outputs ready state j hdone =>
      obtain ⟨-, htracks, hkept⟩ := hwatch.completed hr hdone
      exact hr.updateState hwatch.registered hkept rfl rfl htracks fun _ _ _ h => .inl h
  | unfailed task wf node wfr hwatch hstatus e state j hfail =>
      obtain ⟨-, htracks, hkept⟩ := hwatch.failed hr hfail
      exact hr.updateState hwatch.registered hkept rfl rfl htracks fun _ _ _ h => .inl h
  | retried task wf node wfr hwatch hstatus next state j hfail =>
      obtain ⟨-, htracks, hkept⟩ := hwatch.failed hr hfail
      exact hr.updateState hwatch.registered hkept rfl rfl htracks fun _ _ _ ht =>
        .inl (Map.lookup_of_lookup_erase ht)
  | exhausted task wf node wfr hwatch hstatus state j hfail =>
      obtain ⟨-, htracks, hkept⟩ := hwatch.failed hr hfail
      exact hr.updateState hwatch.registered hkept rfl rfl htracks fun _ _ _ h => .inl h
  | unswept task hover => exact hr.withJournal hr.journal fun _ h => h
  | sweptUnindexed task hover hnew =>
      exact hr.withJournal (hr.journal.inDoubted _) fun _ h => h
  | swept task hover hnew wf node wfr hindex hwf =>
      exact hr.updateState hwf ⟨fun hj => hj.inDoubted _, rfl, rfl⟩ rfl rfl
        (hr.records wf wfr hwf).tracks fun _ _ _ h => .inl h
  | doubted task hover hnew wf node wfr hindex hindex' hwf => exact hsame hwf rfl rfl rfl
  | restarted cfg => exact coherent_new hr.journal _ cfg

end Moves

theorem Coherent.step {r : EngineRuntime} (hr : Coherent r) (i : Input) : Coherent (step r i) :=
  step_invariant hr fun _ _ ht h => ht.move h

/-- Every reachable state is coherent. -/
theorem coherent_run (cfg : RuntimeConfig) (inputs : List Input) : Coherent (run cfg inputs) :=
  foldl_invariant inputs (coherent_new journalOk_empty [] cfg) fun _ i hr => hr.step i

end DdsOrchestrator.WorkflowEngine
