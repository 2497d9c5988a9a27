import DdsOrchestrator.WorkflowEngine.Attempts
import DdsOrchestrator.WorkflowEngine.Ledger

/-!
What becomes of an attempt that the sweeper marked in doubt. The mark is one
row of the journal; whether the attempt can go out again is decided by its
reservation and by the progress in memory, which the sweeper does not touch.
The attempt stays closed as long as every mark falls on an attempt that one of
these two holds back, and the sweeper breaks this in one place: it also marks
tasks that the process has not indexed, and leaves their workflow running.
-/

namespace DdsOrchestrator.WorkflowEngine

open Loop EngineRuntime Machine EngineState

/-! ### What recovery reads -/

section Recovery

variable {io : JournalCall → Bool} {j : Journal} {wf node : String}

theorem attemptState_of_row (hio : ∀ key, io (.attemptState key) = false) {a : Nat}
    {state : AttemptState} (hrow : attemptAt j wf node a = some state) :
    j.attemptState io (wf, node, a) = .ok state := by
  obtain ⟨row, hlookup, rfl⟩ := Option.map_eq_some_iff.mp hrow
  simp [Journal.attemptState, hio, hlookup]

theorem scanAttempts_inDoubt (attempts : List Nat) (p : NodeProgress) (hp : p.inDoubt = true) :
    (scanAttempts io j wf node attempts p).inDoubt = true := by
  induction attempts generalizing p with
  | nil => exact hp
  | cons a rest ih =>
      unfold scanAttempts
      split
      · exact ih p hp
      · exact hp
      · exact hp
      · exact hp
      · exact ih _ rfl
      · exact ih _ hp

variable {n : NodeSpec}

theorem recoverNode_of_failed (hio : ∀ key, io (.attemptState key) = false)
    (hmax : 1 ≤ n.maxAttempts) (hrow : attemptAt j wf n.nodeId 1 = some .failed) :
    (recoverNode io j wf n).activeAttempt = 1 := by
  obtain ⟨m, hm⟩ := Nat.exists_eq_add_of_le' hmax
  rw [recoverNode, hm, List.range'_succ, scanAttempts, attemptState_of_row hio hrow]

theorem recoverNode_of_inDoubt (hio : ∀ key, io (.attemptState key) = false)
    (hmax : 1 ≤ n.maxAttempts) (hrow : attemptAt j wf n.nodeId 1 = some .inDoubt) :
    (recoverNode io j wf n).inDoubt = true := by
  obtain ⟨m, hm⟩ := Nat.exists_eq_add_of_le' hmax
  rw [recoverNode, hm, List.range'_succ, scanAttempts, attemptState_of_row hio hrow]
  exact scanAttempts_inDoubt _ _ rfl

/-- A recovered node is blocked on any attempt in doubt, or stands at the first
attempt, which failed. -/
theorem recoverNode_blocked (hio : ∀ key, io (.attemptState key) = false)
    (hmax : 1 ≤ n.maxAttempts) (hrows : RowsOk j wf n.nodeId) {a : Nat}
    (hrow : attemptAt j wf n.nodeId a = some .inDoubt) :
    (recoverNode io j wf n).inDoubt = true ∨ (recoverNode io j wf n).activeAttempt ≠ a := by
  have hsome : (attemptAt j wf n.nodeId a).isSome := by rw [hrow]; rfl
  rcases (hrows.positive a hsome).eq_or_lt with rfl | hle
  · exact .inl (recoverNode_of_inDoubt hio hmax hrow)
  · rcases (hrows.later a hsome hle).row with hfailed | hdoubt
    · right
      rw [recoverNode_of_failed hio hmax hfailed]
      omega
    · exact .inl (recoverNode_of_inDoubt hio hmax hdoubt)

theorem recoverNode_progressOk {index : Map String (String × String)} {terminal : Bool}
    (hio : ∀ key, io (.attemptState key) = false) (hmax : 1 ≤ n.maxAttempts)
    (hrows : RowsOk j wf n.nodeId) (hindex : ¬ Indexed index wf n.nodeId) :
    ProgressOk wf n.nodeId ⟨j, index, terminal, recoverNode io j wf n⟩ := by
  have hshut : ¬ NodeView.Open ⟨j, index, terminal, recoverNode io j wf n⟩ wf n.nodeId :=
    fun h => hindex h.indexed
  have hlater : 2 ≤ (recoverNode io j wf n).activeAttempt → FirstClosed j wf n.nodeId := by
    intro hle
    rcases recoverNode_active io j wf n with hone | ⟨-, row, hrow⟩
    · omega
    · refine hrows.later _ ?_ hle
      rw [attemptAt, hrow]
      rfl
  refine ⟨one_le_recoverNode io j wf n, hlater, ?_, fun t ht => absurd ⟨t, ht⟩ hindex,
    fun h => absurd h hshut, fun h => absurd h hshut, fun _ h => absurd h hshut⟩
  -- A node past its first attempt was recovered as in doubt.
  intro hclear _ hle
  rcases (hlater hle).row with hfailed | hdoubt
  · have hone := recoverNode_of_failed hio hmax hfailed
    exact absurd hle (by rw [NodeView.active, hone]; decide)
  · exact absurd hclear (by rw [recoverNode_of_inDoubt hio hmax hdoubt]; simp)

end Recovery

/-! ### The budget -/

section Budget

variable {r₀ r r' : EngineRuntime} {i : Input} {graph : PlanGraph} {node : String}
  {s s' : EngineState} {j j' : Journal}

theorem Journal.RecordStep.ledgerInv {key : AttemptKey} {taskId : String} {state : AttemptState}
    {result : Except JournalError Unit} (h : Journal.RecordStep key taskId state j result j')
    (hj : LedgerInv j) : LedgerInv j' := by
  cases h with
  | failed | ignored => exact hj
  | written => exact hj.of_eq rfl rfl

theorem LedgerInv.releaseReservation (hj : LedgerInv j) (io : JournalCall → Bool) (key : String) :
    LedgerInv (j.releaseReservation io key none).2 :=
  (Journal.releaseReservation_step io key none j).ledgerInv hj (by simp)

theorem EngineState.MaterializeStep.ledgerInv {microunits : UInt64}
    {result : Except EngineError String}
    (h : EngineState.MaterializeStep graph node microunits s j result s' j') (hj : LedgerInv j)
    (hfits : microunits.toNat < 2 ^ 63) : LedgerInv j' := by
  cases h with
  | unknown | done | doubtful | unreserved | consumed => exact hj
  | unrecorded _ _ _ _ _ hreserve =>
      obtain ⟨_, -, hreserve⟩ := hreserve
      exact hreserve.ledgerInv hj hfits
  | recorded _ _ _ _ j₁ j₂ hreserve hrecord =>
      obtain ⟨_, -, hreserve⟩ := hreserve
      exact (hrecord.ledgerInv (hreserve.ledgerInv hj hfits)).of_eq rfl rfl

theorem EngineState.DoneStep.ledgerInv {io : JournalCall → Bool} {attempt : Nat}
    {outputs : List (String × String)} {result : Except EngineError (List String)}
    (h : EngineState.DoneStep io graph node attempt outputs s j result s' j')
    (hj : LedgerInv j) : LedgerInv j' := by
  cases h with
  | refused | unrecorded => exact hj
  | unsent _ _ _ _ _ _ _ j₁ hrecord => exact (hrecord.ledgerInv hj).of_eq rfl rfl
  | completed _ _ _ _ _ _ _ j₁ hrecord rows =>
      have hrows : LedgerInv { j₁ with outbox := rows } := (hrecord.ledgerInv hj).of_eq rfl rfl
      exact hrows.releaseReservation io _

theorem EngineState.FailStep.ledgerInv {io : JournalCall → Bool} {attempt : Nat}
    {failover : Bool} {result : Except EngineError (Option Nat)}
    (h : EngineState.FailStep io graph node attempt failover s j result s' j')
    (hj : LedgerInv j) : LedgerInv j' := by
  cases h with
  | refused => exact hj
  | unrecorded => exact hj.releaseReservation io _
  | retried _ _ _ _ _ _ j₂ hrecord =>
      exact (hrecord.ledgerInv (hj.releaseReservation io _)).of_eq rfl rfl
  | closed _ _ _ _ _ _ j₂ hrecord => exact hrecord.ledgerInv (hj.releaseReservation io _)

/-- Only the scheduler reserves, and a scheduler has one amount for its attempts. -/
theorem Move.ledgerInv (hr : Coherent r) (hj : LedgerInv r.journal)
    (hamount : i.call = .tickScheduler → r.cfg.perAttemptMicrounits.toNat < 2 ^ 63)
    (h : Move r₀ i r r') : LedgerInv r'.journal := by
  cases h with
  | submitted | cancelled | observed | refused | rehydrated | unswept | doubted | restarted =>
      exact hj
  | admitted _ _ _ _ _ _ _ j hentry => exact hentry.ledgerInv hj
  | planned _ _ _ _ _ _ _ j hentry => exact hentry.ledgerInv hj
  | held _ _ _ hdue _ _ _ hmat =>
      exact (hdue.materialized hr hmat).1.ledgerInv hj (hamount hdue.call)
  | dispatched _ _ _ hdue _ _ _ hmat =>
      exact (hdue.materialized hr hmat).1.ledgerInv hj (hamount hdue.call)
  | incomplete _ _ _ _ hwatch _ _ _ _ _ hdone => exact (hwatch.completed hr hdone).1.ledgerInv hj
  | completed _ _ _ _ hwatch _ _ _ _ _ hdone => exact (hwatch.completed hr hdone).1.ledgerInv hj
  | unfailed _ _ _ _ hwatch _ _ _ _ hfail => exact (hwatch.failed hr hfail).1.ledgerInv hj
  | retried _ _ _ _ hwatch _ _ _ _ hfail => exact (hwatch.failed hr hfail).1.ledgerInv hj
  | exhausted _ _ _ _ hwatch _ _ _ hfail => exact (hwatch.failed hr hfail).1.ledgerInv hj
  | sweptUnindexed | swept => exact hj.of_eq rfl rfl

theorem Move.cfg_eq (h : Move r₀ i r r') (hcall : i.call = .tickScheduler) :
    r'.cfg = r.cfg := by
  cases h with
  | restarted cfg hrestart => rw [hcall] at hrestart; cases hrestart
  | _ => rfl

end Budget

/-! ### Attempts that cannot go out -/

/-- No process state makes the attempt due. -/
def Idle (r : EngineRuntime) (wf node : String) (a : Nat) : Prop :=
  ∀ wfr p, r.workflows.lookup wf = some wfr → wfr.state.nodes.lookup node = some p →
    wfr.terminal = true ∨ p.inDoubt = true ∨ p.done = true ∨ p.activeAttempt ≠ a

/-- The attempt cannot go out: its reservation is consumed or no process state
makes it due. -/
def Blocked (r : EngineRuntime) (wf node : String) (a : Nat) : Prop :=
  r.journal.Spent (reservationKey wf node a) ∨ Idle r wf node a

/-- The attempt is over, or in doubt and cannot go out. -/
structure Sealed (r : EngineRuntime) (wf node : String) (a : Nat) : Prop where
  row : ∃ state, attemptAt r.journal wf node a = some state ∧ state ≠ .published
  blocked : r.journal.Spent (reservationKey wf node a) ∨
    attemptAt r.journal wf node a = some .inDoubt ∧ Idle r wf node a

/-- The two journal calls whose failures the engine passes over succeed, and
whatever a sweep marks that the process has not indexed cannot go out. An attempt
is reserved at an amount that keeps its sign, so that the `CHECK` of the budget
never refuses a release. -/
structure Careful (r : EngineRuntime) (i : Input) : Prop where
  releases : ∀ key, i.env.journalFails (.releaseReservation key) = false
  amounts : i.call = .tickScheduler → r.cfg.perAttemptMicrounits.toNat < 2 ^ 63
  reads : ∀ key, i.env.journalFails (.attemptState key) = false
  sweeps : ∀ task, Overdue i task → task.taskId ∉ r.inDoubtMarked →
    r.taskIndex.lookup task.taskId = none →
    ∀ wf node a row, r.journal.attempts.lookup (wf, node, a) = some row →
      row.taskId = task.taskId → Blocked r wf node a

/-! ### What a move does to the attempts -/

/-- The record was rebuilt from the journal, and nothing of it is indexed. -/
def Rebuilt (r : EngineRuntime) (wf : String) (wfr : WfRuntime) : Prop :=
  ∃ io : JournalCall → Bool, (∀ key, io (.attemptState key) = false) ∧
    ∀ node p, wfr.state.nodes.lookup node = some p →
      ¬ Indexed r.taskIndex wf node ∧
        ∃ n : NodeSpec, n.nodeId = node ∧ 1 ≤ n.maxAttempts ∧ p = recoverNode io r.journal wf n

/-- No node is operated on. Records keep their state or are rebuilt, and rows
stay or are marked in doubt. -/
structure Rests (r r' : EngineRuntime) : Prop where
  keys : KeysGrow r.journal r'.journal
  rows : ∀ wf node, RowsKept r.journal r'.journal wf node
  index : ∀ t e, r'.taskIndex.lookup t = some e → r.taskIndex.lookup t = some e
  records : ∀ wf wfr', r'.workflows.lookup wf = some wfr' →
    (∃ wfr, r.workflows.lookup wf = some wfr ∧ wfr'.state = wfr.state ∧
      (wfr'.terminal = false → wfr.terminal = false)) ∨ Rebuilt r' wf wfr'
  marks : ∀ wf node a, attemptAt r'.journal wf node a = some .inDoubt →
    attemptAt r.journal wf node a = some .inDoubt ∨ Blocked r' wf node a

/-- The invariant of careful runs. -/
structure Guarded (r : EngineRuntime) : Prop where
  coherent : Coherent r
  ledger : LedgerInv r.journal
  rows : ∀ wf node, RowsOk r.journal wf node
  progress : ∀ wf wfr node p, r.workflows.lookup wf = some wfr →
    wfr.state.nodes.lookup node = some p → ProgressOk wf node (viewOf r wfr p)
  doubts : ∀ wf node a, attemptAt r.journal wf node a = some .inDoubt → Sealed r wf node a

section Keeping

variable {r r' : EngineRuntime} {wf node : String} {wfr wfr' : WfRuntime} {p p' : NodeProgress}

/-- An operation marks nothing in doubt. -/
theorem Operates.inDoubt_of (h : Operates r r' wf node wfr wfr' p p') {wf' node' : String}
    {a : Nat} (hrow : attemptAt r'.journal wf' node' a = some .inDoubt) :
    attemptAt r.journal wf' node' a = some .inDoubt := by
  by_cases hne : wf' ≠ wf ∨ node' ≠ node
  · rw [← h.attemptAt_other hne]
    exact hrow
  obtain ⟨rfl, rfl⟩ : wf' = wf ∧ node' = node := by simpa [not_or] using hne
  have hwritten : ∀ {state : AttemptState}, state ≠ .inDoubt →
      RowWritten wf' node' state (viewOf r wfr p) (viewOf r' wfr' p') →
      attemptAt r.journal wf' node' a = some .inDoubt := by
    intro state hstate hw
    by_cases ha : a = (viewOf r wfr p).active
    · subst ha
      exact absurd (Option.some.inj (hw.active.symm.trans hrow)) hstate
    · exact (hw.other ha).symm.trans hrow
  cases h.acts.effect with
  | kept hrows => exact (hrows a).symm.trans hrow
  | recorded hw => exact hwritten (by simp) hw
  | finished _ hw => exact hwritten (by simp) hw
  | retried _ hw => exact hwritten (by simp) hw
  | closed _ hw => exact hwritten (by simp) hw

/-! A sealed attempt stays sealed. -/

variable {a : Nat}

theorem Idle.rests (hidle : Idle r wf node a) (h : Rests r r')
    (hrows : RowsOk r'.journal wf node)
    (hrow : attemptAt r'.journal wf node a = some .inDoubt) : Idle r' wf node a := by
  intro wfr' p hwf hp
  rcases h.records wf wfr' hwf with ⟨wfr, hold, hstate, hlive⟩ | ⟨io, hio, hnodes⟩
  · rcases hidle wfr p hold (hstate ▸ hp) with hterminal | hrest
    · left
      by_contra hne
      rw [hlive (by simpa using hne)] at hterminal
      cases hterminal
    · exact .inr hrest
  · obtain ⟨-, n, rfl, hmax, rfl⟩ := hnodes node p hp
    rcases recoverNode_blocked hio hmax hrows hrow with hdoubt | hactive
    · exact .inr (.inl hdoubt)
    · exact .inr (.inr (.inr hactive))

theorem Sealed.rests (hs : Sealed r wf node a) (h : Rests r r')
    (hrows : RowsOk r'.journal wf node) : Sealed r' wf node a := by
  have hkeep : attemptAt r.journal wf node a = some .inDoubt →
      attemptAt r'.journal wf node a = some .inDoubt := by
    intro hrow
    rcases h.rows wf node a with heq | ⟨-, heq⟩
    · rw [heq, hrow]
    · exact heq
  refine ⟨?_, ?_⟩
  · obtain ⟨state, hrow, hstate⟩ := hs.row
    rcases h.rows wf node a with heq | ⟨-, heq⟩
    · exact ⟨state, heq.trans hrow, hstate⟩
    · exact ⟨.inDoubt, heq, by simp⟩
  · rcases hs.blocked with hspent | ⟨hrow, hidle⟩
    · exact .inl (h.keys.spent _ hspent)
    · exact .inr ⟨hkeep hrow, hidle.rests h hrows (hkeep hrow)⟩

/-- An attempt of the node operated on, unless it is the one written. -/
theorem Idle.operates (hidle : Idle r wf node a) (h : Operates r r' wf node wfr wfr' p p')
    (hp : p.inDoubt = true ∨ p.done = true ∨ p.activeAttempt ≠ a →
      wfr'.terminal = true ∨ p'.inDoubt = true ∨ p'.done = true ∨ p'.activeAttempt ≠ a) :
    Idle r' wf node a := by
  intro w q hw hq
  rw [h.records, if_pos rfl, Option.some.injEq] at hw
  subst hw
  rw [h.acts.state, if_pos rfl, Option.some.injEq] at hq
  subst hq
  rcases hidle wfr p h.registered h.tracked with hterminal | hrest
  · rw [h.live] at hterminal
    cases hterminal
  · exact hp hrest

/-- An attempt of another node. -/
theorem Idle.operates_other {wf' node' : String} (hidle : Idle r wf' node' a)
    (h : Operates r r' wf node wfr wfr' p p') (hne : wf' ≠ wf ∨ node' ≠ node) :
    Idle r' wf' node' a := by
  intro w q hw hq
  rw [h.records] at hw
  split at hw
  · rename_i heq
    subst heq
    injection hw with hw
    subst hw
    rw [h.acts.state, if_neg (hne.resolve_left (by simp))] at hq
    rcases hidle wfr q h.registered hq with hterminal | hrest
    · rw [h.live] at hterminal
      cases hterminal
    · exact .inr hrest
  · exact hidle w q hw hq

/-- A sealed attempt that an operation would write has its reservation
consumed. -/
theorem Sealed.spent_of_open (hs : Sealed r wf node p.activeAttempt)
    (hprogress : ProgressOk wf node (viewOf r wfr p)) (hopen : (viewOf r wfr p).Open wf node)
    (hwf : r.workflows.lookup wf = some wfr) (hp : wfr.state.nodes.lookup node = some p) :
    r.journal.Spent (reservationKey wf node p.activeAttempt) := by
  rcases hs.blocked with hspent | ⟨hrow, hidle⟩
  · exact hspent
  · rcases hidle wfr p hwf hp with hterminal | hdoubt | hdone | hactive
    · exact absurd (hopen.live.symm.trans hterminal) (by simp)
    · refine hprogress.doubt hdoubt hopen ?_
      show (attemptAt r.journal wf node p.activeAttempt).isSome
      rw [hrow]
      rfl
    · exact absurd (hopen.undone.symm.trans hdone) (by simp)
    · exact absurd rfl hactive

theorem Sealed.operates_node (hs : Sealed r wf node a) (h : Operates r r' wf node wfr wfr' p p')
    (hprogress : ProgressOk wf node (viewOf r wfr p)) : Sealed r' wf node a := by
  have hkeys : KeysGrow r.journal r'.journal := h.acts.keys
  obtain ⟨state, hrow, hstate⟩ := hs.row
  -- The attempt written by a result; its reservation is consumed by now.
  have hresult : ∀ {new : AttemptState}, new ≠ .published → (viewOf r wfr p).Open wf node →
      RowWritten wf node new (viewOf r wfr p) (viewOf r' wfr' p') → a = p.activeAttempt →
      Sealed r' wf node a := by
    rintro new hnew hopen hw rfl
    refine ⟨⟨new, hw.active, hnew⟩, .inl (hkeys.spent _ ?_)⟩
    exact hs.spent_of_open hprogress hopen h.registered h.tracked
  -- Any other attempt.
  have hother : attemptAt r'.journal wf node a = attemptAt r.journal wf node a →
      (p.inDoubt = true ∨ p.done = true ∨ p.activeAttempt ≠ a →
        wfr'.terminal = true ∨ p'.inDoubt = true ∨ p'.done = true ∨ p'.activeAttempt ≠ a) →
      Sealed r' wf node a := by
    intro hsame hp
    refine ⟨⟨state, hsame.trans hrow, hstate⟩, hs.blocked.imp (hkeys.spent _) fun hb => ?_⟩
    exact ⟨hsame.trans hb.1, hb.2.operates h hp⟩
  cases h.acts.effect with
  | kept hrows hsame =>
      refine hother (hrows a) ?_
      rintro (hdoubt | hdone | hactive)
      · refine .inr (.inl ?_)
        by_contra hne
        exact Bool.false_ne_true ((hsame.clear (eq_false_of_ne_true hne)).symm.trans hdoubt)
      · refine .inr (.inr (.inl ?_))
        by_contra hne
        exact Bool.false_ne_true ((hsame.undone (eq_false_of_ne_true hne)).symm.trans hdone)
      · have hmoved : p'.activeAttempt = p.activeAttempt := hsame.active
        exact .inr (.inr (.inr (hmoved ▸ hactive)))
  | recorded hw hindex hlive hdone hdoubt hfree hheld hp =>
      by_cases ha : a = p.activeAttempt
      · -- Nothing sealed is recorded again.
        subst ha
        rcases hs.blocked with hspent | ⟨-, hidle⟩
        · exact absurd hspent hfree
        · rcases hidle wfr p h.registered h.tracked with h' | h' | h' | h'
          · exact absurd (hlive.symm.trans h') (by simp)
          · exact absurd (hdoubt.symm.trans h') (by simp)
          · exact absurd (hdone.symm.trans h') (by simp)
          · exact absurd rfl h'
      · refine hother (hw.other ha) fun hp' => .inr ?_
        have hsame : p' = p := hp
        rw [hsame]
        exact hp'
  | finished hopen hw hindex hactive hdone =>
      by_cases ha : a = p.activeAttempt
      · exact hresult (by simp) hopen hw ha
      · exact hother (hw.other ha) fun _ => .inr (.inr (.inl hdone))
  | retried hopen hw hindex hspent hp =>
      by_cases ha : a = p.activeAttempt
      · exact hresult (by simp) hopen hw ha
      · refine hother (hw.other ha) fun _ => .inr (.inr (.inr ?_))
        have hnext : p'.activeAttempt = p.activeAttempt + 1 :=
          congrArg NodeProgress.activeAttempt hp
        rintro rfl
        have hnone := hprogress.clear hopen p'.activeAttempt (by
          show p.activeAttempt < _
          omega)
        exact absurd (hrow.symm.trans hnone) (by simp)
  | closed hopen hw hindex hspent hp hterminal =>
      by_cases ha : a = p.activeAttempt
      · exact hresult (by simp) hopen hw ha
      · exact hother (hw.other ha) fun _ => .inl hterminal

theorem Sealed.operates {wf' node' : String} (hs : Sealed r wf' node' a)
    (h : Operates r r' wf node wfr wfr' p p') (hr : Guarded r) : Sealed r' wf' node' a := by
  by_cases hne : wf' ≠ wf ∨ node' ≠ node
  · have hkeys : KeysGrow r.journal r'.journal := h.acts.keys
    have hsame := h.attemptAt_other hne a
    refine ⟨?_, hs.blocked.imp (hkeys.spent _) fun hb => ?_⟩
    · rw [hsame]
      exact hs.row
    · exact ⟨hsame.trans hb.1, hb.2.operates_other h hne⟩
  · obtain ⟨rfl, rfl⟩ : wf' = wf ∧ node' = node := by simpa [not_or] using hne
    exact hs.operates_node h (hr.progress _ _ _ _ h.registered h.tracked)

/-! And so does the invariant. -/

theorem Guarded.rests (hr : Guarded r) (h : Rests r r') (hcoherent : Coherent r')
    (hledger : LedgerInv r'.journal) : Guarded r' := by
  have hrows : ∀ wf node, RowsOk r'.journal wf node :=
    fun wf node => (hr.rows wf node).frame (h.rows wf node) h.keys
  refine ⟨hcoherent, hledger, hrows, ?_, ?_⟩
  · intro wf wfr' node p hwf hp
    rcases h.records wf wfr' hwf with ⟨wfr, hold, hstate, hlive⟩ | ⟨io, hio, hnodes⟩
    · exact (hr.progress wf wfr node p hold (hstate ▸ hp)).frame
        ⟨fun t => h.index t _, hlive, rfl, id, id, .inl⟩ (h.rows wf node) h.keys
    · obtain ⟨hindex, n, rfl, hmax, rfl⟩ := hnodes node p hp
      exact recoverNode_progressOk hio hmax (hrows wf n.nodeId) hindex
  · intro wf node a hrow
    rcases h.marks wf node a hrow with hold | hblocked
    · exact (hr.doubts wf node a hold).rests h (hrows wf node)
    · exact ⟨⟨.inDoubt, hrow, by simp⟩, hblocked.imp id fun hidle => ⟨hrow, hidle⟩⟩

theorem Guarded.operates (hr : Guarded r) (h : Operates r r' wf node wfr wfr' p p')
    (hcoherent : Coherent r') (hledger : LedgerInv r'.journal) : Guarded r' := by
  have hkeys : KeysGrow r.journal r'.journal := h.acts.keys
  have hown := hr.progress wf wfr node p h.registered h.tracked
  refine ⟨hcoherent, hledger, ?_, ?_, ?_⟩
  · intro wf' node'
    by_cases hne : wf' ≠ wf ∨ node' ≠ node
    · exact (hr.rows wf' node').frame (.of_eq (h.attemptAt_other hne)) hkeys
    · obtain ⟨rfl, rfl⟩ : wf' = wf ∧ node' = node := by simpa [not_or] using hne
      exact h.acts.effect.rowsOk (hr.rows wf' node') hown hkeys hr.ledger.releasable
  · -- Every node but the one operated on has kept its progress.
    have hframe : ∀ wf' w w' node' q, (wf' ≠ wf ∨ node' ≠ node) →
        r.workflows.lookup wf' = some w → w.state.nodes.lookup node' = some q →
        (w'.terminal = false → w.terminal = false) →
        ProgressOk wf' node' (viewOf r' w' q) := by
      intro wf' w w' node' q hne hw hq hlive
      refine (hr.progress wf' w node' q hw hq).frame ⟨?_, hlive, rfl, id, id, .inl⟩
        (.of_eq (h.attemptAt_other hne)) hkeys
      intro t ht
      refine h.index t _ ht ?_
      rintro ⟨⟩
      simp at hne
    intro wf' w' node' q hw hq
    rw [h.records] at hw
    split at hw
    · rename_i heq
      subst heq
      injection hw with hw
      subst hw
      rw [h.acts.state] at hq
      split at hq
      · rename_i heq
        subst heq
        injection hq with hq
        subst hq
        exact h.acts.effect.progressOk (hr.rows wf' node') hown hkeys hr.ledger.releasable
      · rename_i hne
        exact hframe wf' wfr _ node' q (.inr hne) h.registered hq fun _ => h.live
    · rename_i hne
      exact hframe wf' w' w' node' q (.inl hne) hw hq id
  · intro wf' node' a hrow
    exact (hr.doubts wf' node' a (h.inDoubt_of hrow)).operates h hr

end Keeping

/-! ### Every move rests or operates -/

section Moves

variable {r₀ r r' : EngineRuntime} {i : Input}

/-- A move that writes no row and no reservation and at most one record. -/
theorem Rests.of_record {wf : String} {wfr : WfRuntime}
    (hattempts : r'.journal.attempts = r.journal.attempts)
    (hkeys : r'.journal.reservations = r.journal.reservations)
    (hindex : r'.taskIndex = r.taskIndex)
    (hrecords : ∀ id, r'.workflows.lookup id = if id = wf then some wfr else r.workflows.lookup id)
    (hrecord : (∃ old, r.workflows.lookup wf = some old ∧ wfr.state = old.state ∧
      (wfr.terminal = false → old.terminal = false)) ∨ Rebuilt r' wf wfr) : Rests r r' := by
  have hrows : ∀ wf node a, attemptAt r'.journal wf node a = attemptAt r.journal wf node a := by
    intro wf node a
    rw [attemptAt, attemptAt, hattempts]
  refine ⟨.of_eq hkeys, fun wf node => .of_eq (hrows wf node), fun t e h => hindex ▸ h, ?_, ?_⟩
  · intro wf' w hw
    rw [hrecords] at hw
    split at hw
    · rename_i heq
      subst heq
      injection hw with hw
      subst hw
      exact hrecord
    · exact .inl ⟨w, hw, rfl, id⟩
  · intro wf node a hrow
    exact .inl ((hrows wf node a).symm.trans hrow)

theorem inDoubted_row (j : Journal) (taskId wf node : String) (a : Nat) :
    attemptAt (j.inDoubted taskId) wf node a = attemptAt j wf node a ∨
      ∃ row, j.attempts.lookup (wf, node, a) = some row ∧ row.taskId = taskId ∧
        attemptAt (j.inDoubted taskId) wf node a = some .inDoubt := by
  simp only [attemptAt, Journal.inDoubted, Map.lookup_mapVals]
  cases hrow : j.attempts.lookup (wf, node, a) with
  | none => exact .inl rfl
  | some row =>
      by_cases htask : row.taskId = taskId
      · exact .inr ⟨row, rfl, htask, by simp [htask]⟩
      · exact .inl (by simp [htask])

/-- A sweep that marks one task and changes at most the record of one workflow,
which becomes terminal. -/
theorem Rests.of_sweep {taskId : String}
    (hjournal : r'.journal = r.journal.inDoubted taskId) (hindex : r'.taskIndex = r.taskIndex)
    (hrecords : ∀ wf wfr', r'.workflows.lookup wf = some wfr' →
      ∃ wfr, r.workflows.lookup wf = some wfr ∧ wfr'.state = wfr.state ∧
        (wfr'.terminal = false → wfr.terminal = false))
    (hblocked : ∀ wf node a row, r.journal.attempts.lookup (wf, node, a) = some row →
      row.taskId = taskId → Blocked r' wf node a) : Rests r r' := by
  refine ⟨.of_eq (by rw [hjournal]; rfl), ?_, fun t e h => hindex ▸ h,
    fun wf w hw => .inl (hrecords wf w hw), ?_⟩
  · intro wf node a
    rw [hjournal]
    refine (inDoubted_row r.journal taskId wf node a).imp id ?_
    rintro ⟨row, hrow, -, hmark⟩
    refine ⟨?_, hmark⟩
    rw [attemptAt, hrow]
    rfl
  · intro wf node a hdoubt
    rw [hjournal] at hdoubt
    rcases inDoubted_row r.journal taskId wf node a with hsame | ⟨row, hrow, htask, -⟩
    · exact .inl (hsame.symm.trans hdoubt)
    · exact .inr (hblocked wf node a row hrow htask)

/-- A record built by `recover` from this journal. -/
theorem rebuilt_of_recover {io : JournalCall → Bool} {wf : String} {wfr : WfRuntime}
    (cand : PlanCandidate) (hio : ∀ key, io (.attemptState key) = false)
    (hstate : wfr.state = EngineState.recover io r.journal (PlanGraph.fromCandidate wf 1 cand))
    (hindex : ∀ node, ¬ Indexed r.taskIndex wf node) : Rebuilt r wf wfr := by
  refine ⟨io, hio, fun node p hp => ⟨hindex node, ?_⟩⟩
  rw [hstate] at hp
  obtain ⟨n, hn, hid, hp⟩ := (lookup_recover _ _ _ _).1 p hp
  obtain ⟨c, -, rfl⟩ := List.mem_map.mp hn
  exact ⟨NodeSpec.fromCandidate c, hid, le_max_right _ _, hp⟩

theorem Guarded.sweptUnindexed (hr : Guarded r) (hcare : Careful r₀ i) {task : Task}
    (hover : Overdue i task) (hnew : task.taskId ∉ r.inDoubtMarked)
    (hindex : ∀ wf node, r.taskIndex.lookup task.taskId = some (wf, node) →
      r.workflows.lookup wf = none) (hsweep : SweepFrame r₀ r) (wf node : String) (a : Nat)
    (row : AttemptRow) (hrow : r.journal.attempts.lookup (wf, node, a) = some row)
    (htask : row.taskId = task.taskId) : Blocked r wf node a := by
  have hnone : r.taskIndex.lookup task.taskId = none := by
    cases hentry : r.taskIndex.lookup task.taskId with
    | none => rfl
    | some entry =>
        obtain ⟨wfr, hwf, -⟩ := hr.coherent.index task.taskId entry.1 entry.2 hentry
        exact absurd (hwf.symm.trans (hindex _ _ hentry)) (by simp)
  obtain ⟨old, hold, hid⟩ := hsweep.tasks _ _ hrow
  rcases hcare.sweeps task hover (fun h => hnew (hsweep.marked h)) (hsweep.index ▸ hnone)
    wf node a old hold (hid.trans htask) with ⟨res, hres, hstate⟩ | hidle
  · exact .inl ⟨res, hsweep.reservations ▸ hres, hstate⟩
  · refine .inr fun wfr p hwf hp => ?_
    cases hlive : wfr.terminal with
    | true => exact .inl rfl
    | false =>
        have := hidle wfr p (hsweep.live wf wfr hwf hlive) hp
        rwa [hlive] at this

/-- An indexed task belongs to the workflow the index gives. -/
theorem Guarded.indexed_row (hr : Guarded r) {taskId wf node wf' node' : String} {a : Nat}
    {row : AttemptRow} (hindex : r.taskIndex.lookup taskId = some (wf', node'))
    (hrow : r.journal.attempts.lookup (wf, node, a) = some row) (htask : row.taskId = taskId) :
    wf = wf' := by
  obtain ⟨wfr, hwf, hnode⟩ := hr.coherent.index _ _ _ hindex
  obtain ⟨p, hp⟩ := hr.coherent.tracked hwf hnode
  obtain ⟨b, -, -, htask', hsome, -⟩ := (hr.progress _ _ _ _ hwf hp).indexed taskId hindex
  obtain ⟨_, hstate⟩ := Option.isSome_iff_exists.mp hsome
  obtain ⟨row', hrow', -⟩ := Option.map_eq_some_iff.mp hstate
  have hkey := hr.coherent.journal.unique _ _ _ _ hrow hrow' (by
    rw [htask, htask', (hr.coherent.journal.attempts _ _ hrow').2])
  exact congrArg Prod.fst hkey

theorem Move.rests_or_operates (hr : Guarded r) (hcare : Careful r₀ i) (h : Move r₀ i r r') :
    Rests r r' ∨ ∃ wf node wfr wfr' p p', Operates r r' wf node wfr wfr' p p' := by
  have hsame : ∀ {wf : String} {old wfr : WfRuntime} {ext : List Sample},
      r.workflows.lookup wf = some old → wfr.state = old.state →
      (wfr.terminal = false → old.terminal = false) → Rests r (r.record wf wfr ext) :=
    fun hold hstate hlive =>
      .of_record rfl rfl rfl (lookup_record _ _ _ _) (.inl ⟨_, hold, hstate, hlive⟩)
  cases h with
  | submitted intent hcall hstart hnew =>
      refine .inl (.of_record rfl rfl rfl (lookup_setWf _ _ _) (.inr ⟨fun _ => false, ?_, ?_⟩))
      · simp
      · simp [awaiting, default]
  | cancelled intent wfr hcall hcancel hwf => exact .inl (hsame hwf rfl (by simp))
  | observed decision wf wfr hres =>
      exact .inl (.of_record rfl rfl rfl (lookup_setWf _ _ _)
        (.inl ⟨wfr, hres.registered, rfl, id⟩))
  | refused decision wf wfr reason hres => exact .inl (hsame hres.registered rfl (by simp))
  | admitted decision wf wfr e hres hshadow hmap j hentry =>
      obtain ⟨-, -, -, -, hattempts, hkeys⟩ := hentry.admitted_journalOk
        (toS_val wfr.intent.workflowId.noNul) hr.coherent.journal
      exact .inl (.of_record hattempts hkeys rfl
        (fun id => by
          by_cases hid : id = wf
          · rw [if_pos hid, hid]
            exact hres.registered
          · rw [if_neg hid])
        (.inl ⟨wfr, hres.registered, rfl, id⟩))
  | planned decision wf wfr e hres hshadow hmap j hentry cand =>
      obtain ⟨-, -, hfresh, -, hattempts, hkeys⟩ := hentry.admitted_journalOk
        (toS_val wfr.intent.workflowId.noNul) hr.coherent.journal
      have hok := hr.coherent.records wf wfr hres.registered
      refine .inl (.of_record hattempts hkeys rfl (lookup_record _ _ _ _)
        (.inr (rebuilt_of_recover cand hcare.reads ?_ ?_)))
      · rw [← hok.key]
        rfl
      · -- The workflow had no plan yet, so no node of it is indexed.
        rintro node ⟨t, ht⟩
        obtain ⟨w, hw, spec, hspec, -⟩ := hr.coherent.index t wf node ht
        rw [hres.registered, Option.some.injEq] at hw
        subst hw
        rcases hok.plan with ⟨-, hdecided⟩ | ⟨-, hnil⟩
        · rw [← hok.key] at hdecided
          exact hfresh hdecided
        · rw [hnil] at hspec
          cases hspec
  | rehydrated id row cand hcall hrow hnew =>
      refine .inl (.of_record rfl rfl rfl (lookup_record _ _ _ _)
        (.inr (rebuilt_of_recover cand hcare.reads rfl ?_)))
      rintro node ⟨t, ht⟩
      obtain ⟨w, hw, -⟩ := hr.coherent.index t id node ht
      exact absurd (hw.symm.trans hnew) (by simp)
  | held wf node wfr hdue result state j hmat =>
      exact .inr ⟨wf, node, wfr, _, hdue.operates hr.coherent hmat (lookup_setWf _ _ _)
        (fun _ _ h => .inl h) hdue.live⟩
  | dispatched wf node wfr hdue taskId state j hmat _ n ext =>
      exact .inr ⟨wf, node, wfr, _, hdue.operates_dispatched hr.coherent hmat
        (lookup_record r wf _ ext) rfl hdue.live⟩
  | incomplete task wf node wfr hwatch hstatus outputs e state j hdone =>
      exact .inr ⟨wf, node, wfr, _, hwatch.operates_done hr.coherent hdone (lookup_setWf _ _ _) rfl⟩
  | completed task wf node wfr hwatch hstatus outputs ready state j hdone n ext =>
      exact .inr ⟨wf, node, wfr, _, hwatch.operates_done hr.coherent hdone
        (lookup_record r wf _ ext) rfl⟩
  | unfailed task wf node wfr hwatch hstatus e state j hfail =>
      exact .inr ⟨wf, node, wfr, _, hwatch.operates_failed hr.coherent hfail (lookup_setWf _ _ _)
        (fun _ _ h => h) (by simp) hcare.releases⟩
  | retried task wf node wfr hwatch hstatus next state j hfail n ext =>
      exact .inr ⟨wf, node, wfr, _, hwatch.operates_failed hr.coherent hfail
        (lookup_record r wf _ ext) (fun _ _ => Map.lookup_of_lookup_erase) (by simp)
        hcare.releases⟩
  | exhausted task wf node wfr hwatch hstatus state j hfail n ext =>
      exact .inr ⟨wf, node, wfr, _, hwatch.operates_failed hr.coherent hfail
        (lookup_record r wf _ ext) (fun _ _ h => h) (fun _ => rfl) hcare.releases⟩
  | unswept task hover =>
      exact .inl ⟨.of_eq rfl, fun _ _ => .of_eq fun _ => rfl, fun _ _ h => h,
        fun _ w hw => .inl ⟨w, hw, rfl, id⟩, fun _ _ _ h => .inl h⟩
  | sweptUnindexed task hover hnew hindex hsweep =>
      exact .inl (.of_sweep rfl rfl (fun _ w hw => ⟨w, hw, rfl, id⟩)
        (hr.sweptUnindexed hcare hover hnew hindex hsweep))
  | swept task hover hnew wf node wfr hindex hwf hsweep =>
      refine .inl (.of_sweep rfl rfl ?_ ?_)
      · intro wf' w hw
        rw [lookup_setWf] at hw
        split at hw
        · rename_i heq
          injection hw with hw
          subst hw
          exact ⟨wfr, heq ▸ hwf, rfl, by simp [doubt]⟩
        · exact ⟨w, hw, rfl, id⟩
      · intro wf' node' a row hrow htask
        obtain rfl := hr.indexed_row hindex hrow htask
        refine .inr fun w p hw _ => .inl ?_
        rw [lookup_setWf, if_pos rfl, Option.some.injEq] at hw
        rw [← hw]
        rfl
  | doubted task hover hnew wf node wfr hindex hindex' hwf hterminal =>
      exact .inl (hsame hwf rfl id)
  | restarted cfg =>
      exact .inl ⟨.of_eq rfl, fun _ _ => .of_eq fun _ => rfl, by simp [EngineRuntime.new],
        by simp [EngineRuntime.new], fun _ _ _ h => .inl h⟩

/-- The scheduler works with the configuration it started with. -/
def Configured (r₀ : EngineRuntime) (i : Input) (r : EngineRuntime) : Prop :=
  i.call = .tickScheduler → r.cfg = r₀.cfg

theorem Configured.move (hcfg : Configured r₀ i r) (h : Move r₀ i r r') : Configured r₀ i r' :=
  fun hcall => (h.cfg_eq hcall).trans (hcfg hcall)

theorem Guarded.move (hr : Guarded r) (hcare : Careful r₀ i) (hcfg : Configured r₀ i r)
    (h : Move r₀ i r r') : Guarded r' := by
  have hledger := h.ledgerInv hr.coherent hr.ledger fun hcall => by
    rw [hcfg hcall]
    exact hcare.amounts hcall
  rcases h.rests_or_operates hr hcare with hrests | ⟨wf, node, wfr, wfr', p, p', hops⟩
  · exact hr.rests hrests (hr.coherent.move h) hledger
  · exact hr.operates hops (hr.coherent.move h) hledger

theorem Sealed.move {wf node : String} {a : Nat} (hs : Sealed r wf node a) (hr : Guarded r)
    (hcare : Careful r₀ i) (hcfg : Configured r₀ i r) (h : Move r₀ i r r') :
    Sealed r' wf node a := by
  rcases h.rests_or_operates hr hcare with hrests | ⟨wf', node', wfr, wfr', p, p', hops⟩
  · exact hs.rests hrests ((hr.move hcare hcfg h).rows wf node)
  · exact hs.operates hops hr

/-- An attempt that goes out is recorded as published. -/
theorem Dispatches.published (hr : Coherent r) {wf node : String} {a : Nat}
    (h : Dispatches i r r' wf node a) : attemptAt r'.journal wf node a = some .published := by
  obtain ⟨wfr, taskId, state, hdue, hmat, -, rfl⟩ := h
  exact (hdue.recorded hr hmat).2

end Moves

/-! ### Careful runs -/

theorem Guarded.step {r : EngineRuntime} {i : Input} (hr : Guarded r) (hcare : Careful r i) :
    Guarded (step r i) := by
  have hkeep := step_invariant (r := r) (i := i) (I := fun t => Guarded t ∧ Configured r i t)
    ⟨hr, fun _ => rfl⟩ fun t t' ht h => ⟨ht.1.move hcare ht.2 h, ht.2.move h⟩
  exact hkeep.1

/-- A sealed attempt publishes no task. -/
theorem Sealed.step {r : EngineRuntime} {i : Input} {wf node : String} {a : Nat}
    (hs : Sealed r wf node a) (hr : Guarded r) (hcare : Careful r i) :
    Sealed (step r i) wf node a ∧
      ∃ ext, (step r i).log = r.log ++ ext ∧ ∀ task, .task wf node a task ∉ ext := by
  have hkeep := step_invariant (r := r) (i := i)
    (I := fun t => Guarded t ∧ Configured r i t ∧ Sealed t wf node a ∧
      ∃ ext, t.log = r.log ++ ext ∧ ∀ task, .task wf node a task ∉ ext)
    ⟨hr, fun _ => rfl, hs, [], by simp, by simp⟩ ?_
  · exact hkeep.2.2
  rintro t t' ⟨ht, hcfg, hsealed, ext, hlog, hnone⟩ hmove
  have hsealed' := hsealed.move ht hcare hcfg hmove
  obtain ⟨new, hnew, htasks⟩ := hmove.tasks
  refine ⟨ht.move hcare hcfg hmove, hcfg.move hmove, hsealed', ext ++ new, ?_, ?_⟩
  · rw [hnew, hlog, List.append_assoc]
  · intro task hmem
    rcases List.mem_append.mp hmem with hold | hmem
    · exact hnone task hold
    · -- A dispatch leaves the row published, and a sealed row is not.
      obtain ⟨state, hrow, hstate⟩ := hsealed'.row
      have hpublished := (htasks _ _ _ _ hmem).published ht.coherent
      exact hstate (Option.some.inj (hrow.symm.trans hpublished))

theorem guarded_initial (cfg : RuntimeConfig) : Guarded (initial cfg) := by
  have hnone : ∀ wf node a, attemptAt (initial cfg).journal wf node a = none := fun _ _ _ => rfl
  refine ⟨coherent_new journalOk_empty [] cfg, ledgerInv_empty, fun wf node => ⟨?_, ?_, ?_⟩,
    ?_, ?_⟩
  · intro a ha
    rw [hnone] at ha
    cases ha
  · intro a ha
    rw [hnone] at ha
    cases ha
  · simp [hnone]
  · simp [initial, EngineRuntime.new]
  · simp [hnone]

/-- In a careful run an attempt in doubt is never published again: not in its
row, and not as a task. -/
theorem in_doubt_is_final (cfg : RuntimeConfig) (before after : List Input)
    (hcare : Along step Careful (initial cfg) (before ++ after)) (wf node : String) (a : Nat)
    (hdoubt : attemptAt (run cfg before).journal wf node a = some .inDoubt) :
    attemptAt (run cfg (before ++ after)).journal wf node a ≠ some .published ∧
      ∃ ext, (run cfg (before ++ after)).log = (run cfg before).log ++ ext ∧
        ∀ task, .task wf node a task ∉ ext := by
  rw [along_append] at hcare
  obtain ⟨hbefore, hafter⟩ := hcare
  have hr : Guarded (run cfg before) :=
    hbefore.invariant (guarded_initial cfg) fun _ _ hr hc => hr.step hc
  have hkeep := hafter.invariant (I := fun t => Guarded t ∧ Sealed t wf node a ∧
      ∃ ext, t.log = (run cfg before).log ++ ext ∧ ∀ task, .task wf node a task ∉ ext)
    ⟨hr, hr.doubts wf node a hdoubt, [], by simp [run], by simp⟩ ?_
  · rw [run, List.foldl_append]
    obtain ⟨-, hsealed, hlog⟩ := hkeep
    obtain ⟨state, hrow, hstate⟩ := hsealed.row
    refine ⟨fun hpublished => ?_, hlog⟩
    exact hstate (Option.some.inj (hrow.symm.trans hpublished))
  · rintro t i ⟨ht, hsealed, ext, hlog, hnone⟩ hc
    obtain ⟨hsealed', new, hnew, htasks⟩ := hsealed.step ht hc
    refine ⟨ht.step hc, hsealed', ext ++ new, ?_, ?_⟩
    · rw [hnew, hlog, List.append_assoc]
    · intro task hmem
      rcases List.mem_append.mp hmem with hold | hmem
      · exact hnone task hold
      · exact htasks task hmem

namespace Deployment

/-- The task is indexed when its deadline passes. -/
def doubted : List Input :=
  admitted ++ [⟨env, .tickScheduler⟩, ⟨showing [seen taskId tsPending 5], .tickTimeouts⟩]

/-- A new process takes the workflow up again. -/
def resumed : List Input :=
  [⟨env, .restart config⟩, ⟨env, .recoverFromJournal⟩, ⟨env, .tickScheduler⟩]

/-- The deadline passes in a new process, which has recovered the workflow and
not scheduled it yet. -/
def orphaned : List Input :=
  admitted ++ [⟨env, .tickScheduler⟩, ⟨env, .restart config⟩, ⟨env, .recoverFromJournal⟩,
    ⟨showing [seen taskId tsPending 5], .tickTimeouts⟩]

theorem careful_of_call {r : EngineRuntime} {call : Call} (h : call ≠ .tickTimeouts)
    (hamount : call = .tickScheduler → r.cfg.perAttemptMicrounits.toNat < 2 ^ 63) :
    Careful r ⟨env, call⟩ :=
  ⟨fun _ => rfl, hamount, fun _ => rfl, fun _ hover => absurd hover.call h⟩

theorem careful_doubted : Along step Careful (initial config) (doubted ++ resumed) := by
  have hindexed : (run config (admitted ++ [⟨env, .tickScheduler⟩])).taskIndex.lookup taskId ≠
      none := by
    decide +kernel
  refine ⟨careful_of_call (by simp) (by simp), careful_of_call (by simp) (by simp),
    careful_of_call (by simp) fun _ => by decide +kernel,
    ⟨fun _ => rfl, by simp, fun _ => rfl, ?_⟩, careful_of_call (by simp) (by simp),
    careful_of_call (by simp) (by simp), careful_of_call (by simp) fun _ => by decide +kernel,
    trivial⟩
  intro task hover _ hnone
  obtain ⟨tasks, htasks, htask⟩ := hover.visible
  cases htasks
  rw [List.mem_singleton.mp htask] at hnone
  exact absurd hnone hindexed

end Deployment

open Deployment in
/-- An indexed task in doubt stays in doubt through a restart. -/
theorem in_doubt_survives_restart :
    attemptAt (run config doubted).journal "wf-1" "direct-0" 1 = some .inDoubt ∧
      attemptAt (run config (doubted ++ resumed)).journal "wf-1" "direct-0" 1 ≠
        some .published ∧
      ∃ ext, (run config (doubted ++ resumed)).log = (run config doubted).log ++ ext ∧
        ∀ task, .task "wf-1" "direct-0" 1 task ∉ ext := by
  have hdoubt : attemptAt (run config doubted).journal "wf-1" "direct-0" 1 = some .inDoubt := by
    decide +kernel
  exact ⟨hdoubt, in_doubt_is_final config doubted resumed careful_doubted _ _ _ hdoubt⟩

open Deployment in
/-- A task that the new process has not indexed is marked in doubt, and the
next tick of the scheduler records it as published and publishes it again. -/
theorem in_doubt_republished :
    attemptAt (run config orphaned).journal "wf-1" "direct-0" 1 = some .inDoubt ∧
      attemptAt (run config (orphaned ++ [⟨env, .tickScheduler⟩])).journal "wf-1" "direct-0" 1 =
        some .published ∧
      ∃ task, .task "wf-1" "direct-0" 1 task ∈
        (run config (orphaned ++ [⟨env, .tickScheduler⟩])).log.drop
          (run config orphaned).log.length := by
  obtain ⟨hdoubt, hpublished, htask⟩ :
      attemptAt (run config orphaned).journal "wf-1" "direct-0" 1 = some .inDoubt ∧
        attemptAt (run config (orphaned ++ [⟨env, .tickScheduler⟩])).journal "wf-1" "direct-0" 1 =
          some .published ∧
        ((run config (orphaned ++ [⟨env, .tickScheduler⟩])).log.drop
          (run config orphaned).log.length).any (fun s =>
            s.attempt = some ("wf-1", "direct-0", 1)) = true := by
    decide +kernel
  refine ⟨hdoubt, hpublished, ?_⟩
  obtain ⟨s, hs, hattempt⟩ := List.any_eq_true.mp htask
  obtain ⟨task, rfl⟩ := Sample.attempt_eq_some.mp (of_decide_eq_true hattempt)
  exact ⟨task, hs⟩

end DdsOrchestrator.WorkflowEngine
