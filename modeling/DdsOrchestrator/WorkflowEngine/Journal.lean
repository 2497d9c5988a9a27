import DdsOrchestrator.Lib.Loop
import DdsOrchestrator.Lib.SqliteNumber
import DdsOrchestrator.WorkflowEngine.Contract

/-!
The SQLite journal of the engine: accepted decisions, intents, budgets and
reservations, attempts, and the outbox. A table is a map from its primary key
to the other columns. Statements check the constraints of the schema (primary
keys, `UNIQUE`, `CHECK` and the enforced foreign keys), `atomically` is a
transaction, and the counters of the budget are added as SQLite adds them.

Every call takes the verdict of the medium as `io`: a call for which it is
`true` fails with an I/O error before it has changed anything. Which calls
fail is the environment's choice.
-/

namespace DdsOrchestrator.WorkflowEngine

open Loop

/-! ### Casts between `u64` and the signed columns -/

/-- `u as i64`. -/
def asI64 (u : UInt64) : Int :=
  if u.toNat < 2 ^ 63 then u.toNat else (u.toNat : Int) - 2 ^ 64

/-- `i as u64`. -/
def asU64 (i : Int) : UInt64 := UInt64.ofNat (i % 2 ^ 64).toNat

theorem asI64_of_lt {u : UInt64} (h : u.toNat < 2 ^ 63) : asI64 u = u.toNat := by
  unfold asI64
  rw [if_pos h]

theorem asI64_of_le {u : UInt64} (h : 2 ^ 63 ≤ u.toNat) : asI64 u = (u.toNat : Int) - 2 ^ 64 := by
  unfold asI64
  rw [if_neg (by omega)]

theorem asI64_nonneg {u : UInt64} (h : u.toNat < 2 ^ 63) : 0 ≤ asI64 u := by
  rw [asI64_of_lt h]
  omega

theorem asI64_neg {u : UInt64} (h : 2 ^ 63 ≤ u.toNat) : asI64 u < 0 := by
  have hu := u.toNat_lt
  rw [asI64_of_le h]
  omega

theorem neg_le_asI64 (u : UInt64) : -2 ^ 63 ≤ asI64 u := by
  unfold asI64
  split <;> omega

theorem asI64_lt (u : UInt64) : asI64 u < 2 ^ 63 := by
  have hu := u.toNat_lt
  unfold asI64
  split <;> omega

/-! ### Tables -/

structure DecisionRow where
  requestId : String
  decisionId : String
  payloadHash : String
  effective : Int
  verdict : String
  deriving DecidableEq

structure IntentRow where
  requestId : String
  prompt : String
  createdAtNs : Int
  deadlineNs : Int
  maxTokens : Int
  maxCostMicrounits : Int
  intentRevision : UInt32
  questionsRevision : UInt32
  policyRevision : UInt32
  capabilityCatalogRevision : UInt32
  checkpointRevision : String
  deriving DecidableEq

structure WorkflowRow where
  requestId : String
  budgetMicrounits : Int
  budgetReserved : SqliteNumber
  budgetConsumed : SqliteNumber
  maxTokens : Int
  status : String
  deriving DecidableEq

/-- The `CHECK` of the table. -/
def WorkflowRow.Check (r : WorkflowRow) : Prop :=
  (r.budgetReserved + r.budgetConsumed).value ≤ r.budgetMicrounits

instance (r : WorkflowRow) : Decidable r.Check := inferInstanceAs (Decidable (_ ≤ _))

/-- What is left of the budget, as a query finds it. -/
def WorkflowRow.remaining (r : WorkflowRow) : SqliteNumber :=
  .integer r.budgetMicrounits - r.budgetReserved - r.budgetConsumed

inductive ReservationState where
  | reserved
  | consumedMeasured
  | consumedFull
  deriving DecidableEq

structure ReservationRow where
  workflowId : String
  purpose : String
  tokensReserved : Int
  microunitsReserved : Int
  state : ReservationState
  deriving DecidableEq

inductive AttemptState where
  | pending
  | published
  | inFlight
  | inDoubt
  | done
  | failed
  | cancelled
  deriving DecidableEq

structure AttemptRow where
  taskId : String
  state : AttemptState
  deriving DecidableEq

structure OutboxRow where
  seq : Nat
  workflowId : String
  kind : String
  payload : String
  published : Bool
  deriving DecidableEq

/-- The key of `attempts`: workflow, node, attempt. -/
abbrev AttemptKey := String × String × Nat

/-- The database. -/
structure Journal where
  decisions : Map String DecisionRow
  intents : Map String IntentRow
  workflows : Map String WorkflowRow
  reservations : Map String ReservationRow
  attempts : Map AttemptKey AttemptRow
  outbox : List OutboxRow
  deriving DecidableEq

/-- A new database. -/
def Journal.empty : Journal := ⟨∅, ∅, ∅, ∅, ∅, []⟩

inductive SqliteError where
  | queryReturnedNoRows
  | invalidColumnType (kind : String) (index : Nat) (name : String)
  | constraint (message : String)
  | ioError
  deriving DecidableEq

def SqliteError.message : SqliteError → String
  | queryReturnedNoRows => "Query returned no rows"
  | invalidColumnType kind index name =>
      "Invalid column type " ++ kind ++ " at index: " ++ toString index ++ ", name: " ++ name
  | constraint message => message
  | ioError => "disk I/O error"

/-- The message of the one `CHECK` on the budget counters. -/
def budgetCheckFailed : String :=
  "CHECK constraint failed: budget_reserved + budget_consumed <= budget_microunits"

inductive JournalError where
  | sqlite (e : SqliteError)
  | insufficientBudget (scope : String) (requested : UInt64) (budget : Nat)
  | corrupted (message : String)
  deriving DecidableEq

def JournalError.message : JournalError → String
  | sqlite e => "sqlite: " ++ e.message
  | insufficientBudget scope requested budget =>
      "orçamento insuficiente: reservado+pedido " ++ toString requested ++ " > teto " ++
        toString budget ++ " (" ++ scope ++ ")"
  | corrupted message => "journal corrompido (migration/estado inválido): " ++ message

/-- The calls of the journal, as the medium sees them. -/
inductive JournalCall where
  | admitWorkflow (workflowId : String)
  | reserve (key : String)
  | releaseReservation (key : String)
  | recordAttempt (key : AttemptKey) (state : AttemptState)
  | attemptState (key : AttemptKey)
  | markInDoubt (taskId : String)
  | outboxAppend (workflowId kind payload : String)
  | storedIntents
  deriving DecidableEq

def ioFailure : JournalError := .sqlite .ioError

/-- A REAL is not read as an `i64`. -/
def remainingNotInteger : JournalError :=
  .sqlite (.invalidColumnType "Real" 0 "budget_microunits - budget_reserved - budget_consumed")

/-- `UPDATE workflows SET budget_reserved = budget_reserved + ..`. -/
def WorkflowRow.reserve (microunits : UInt64) (r : WorkflowRow) : WorkflowRow :=
  { r with budgetReserved := (r.budgetReserved + .integer (asI64 microunits)).stored }

/-- `UPDATE workflows SET budget_reserved = budget_reserved - ..,
budget_consumed = budget_consumed + ..`. -/
def WorkflowRow.release (reserved charged : Int) (r : WorkflowRow) : WorkflowRow :=
  { r with
    budgetReserved := (r.budgetReserved - .integer reserved).stored
    budgetConsumed := (r.budgetConsumed + .integer charged).stored }

namespace Journal

/-! ### Statements -/

def insertDecision (workflowId : String) (row : DecisionRow) (j : Journal) :
    Except JournalError Journal :=
  if workflowId ∈ j.decisions then
    .error (.sqlite (.constraint "UNIQUE constraint failed: decisions.workflow_id"))
  else .ok { j with decisions := j.decisions.insert workflowId row }

def insertWorkflow (workflowId : String) (row : WorkflowRow) (j : Journal) :
    Except JournalError Journal :=
  if workflowId ∈ j.workflows then
    .error (.sqlite (.constraint "UNIQUE constraint failed: workflows.workflow_id"))
  else if ¬ row.Check then .error (.sqlite (.constraint budgetCheckFailed))
  else .ok { j with workflows := j.workflows.insert workflowId row }

/-- `INSERT OR IGNORE INTO intents`. -/
def insertIntentOrIgnore (workflowId : String) (row : IntentRow) (j : Journal) : Journal :=
  if workflowId ∈ j.intents then j
  else { j with intents := j.intents.insert workflowId row }

/-- `UPDATE workflows SET .. WHERE workflow_id = ..`. -/
def updateWorkflow (workflowId : String) (f : WorkflowRow → WorkflowRow) (j : Journal) :
    Except JournalError Journal :=
  match j.workflows.lookup workflowId with
  | none => .ok j
  | some row =>
      if ¬ (f row).Check then .error (.sqlite (.constraint budgetCheckFailed))
      else .ok { j with workflows := j.workflows.insert workflowId (f row) }

def insertReservation (key : String) (row : ReservationRow) (j : Journal) :
    Except JournalError Journal :=
  if key ∈ j.reservations then
    .error (.sqlite (.constraint "UNIQUE constraint failed: reservations.idempotency_key"))
  else if row.workflowId ∉ j.workflows then
    .error (.sqlite (.constraint "FOREIGN KEY constraint failed"))
  else .ok { j with reservations := j.reservations.insert key row }

/-! ### Admission -/

inductive AdmitOutcome where
  | admitted
  | replay
  | conflict
  deriving DecidableEq

/-- The arguments of `admit_workflow`. -/
structure Admission where
  workflowId : String
  requestId : String
  decisionId : String
  payloadHash : String
  verdict : String
  budgetMicrounits : UInt64
  maxTokens : UInt64
  prompt : String
  createdAtNs : UInt64
  deadlineNs : UInt64
  intentRevision : UInt32
  questionsRevision : UInt32
  policyRevision : UInt32
  capabilityCatalogRevision : UInt32
  checkpointRevision : String
  deriving DecidableEq

def Admission.decisionRow (a : Admission) : DecisionRow :=
  ⟨a.requestId, a.decisionId, a.payloadHash, 1, a.verdict⟩

def Admission.workflowRow (a : Admission) : WorkflowRow :=
  ⟨a.requestId, asI64 a.budgetMicrounits, .integer 0, .integer 0, asI64 a.maxTokens, "accepted"⟩

/-- The only budgets that are refused are the negative ones. -/
theorem Admission.check_workflowRow (a : Admission) :
    a.workflowRow.Check ↔ 0 ≤ asI64 a.budgetMicrounits := by
  show (SqliteNumber.integer 0 + .integer 0).value ≤ asI64 a.budgetMicrounits ↔ _
  rw [SqliteNumber.integer_add (by decide)]
  rfl

/-- A budget that is admitted fits its column. -/
theorem Admission.budget_lt_of_check {a : Admission} (h : a.workflowRow.Check) :
    a.budgetMicrounits.toNat < 2 ^ 63 := by
  by_contra hlarge
  exact absurd (a.check_workflowRow.mp h) (not_le.mpr (asI64_neg (not_lt.mp hlarge)))

def Admission.intentRow (a : Admission) : IntentRow where
  requestId := a.requestId
  prompt := a.prompt
  createdAtNs := asI64 a.createdAtNs
  deadlineNs := asI64 a.deadlineNs
  maxTokens := asI64 a.maxTokens
  maxCostMicrounits := asI64 a.budgetMicrounits
  intentRevision := a.intentRevision
  questionsRevision := a.questionsRevision
  policyRevision := a.policyRevision
  capabilityCatalogRevision := a.capabilityCatalogRevision
  checkpointRevision := a.checkpointRevision

def admitTx (a : Admission) (j : Journal) : Except JournalError (AdmitOutcome × Journal) := do
  let j ← j.insertDecision a.workflowId a.decisionRow
  let j ← j.insertWorkflow a.workflowId a.workflowRow
  .ok (.admitted, j.insertIntentOrIgnore a.workflowId a.intentRow)

variable (io : JournalCall → Bool)

/-- Register the workflow and its effective decision: the first decision of a
workflow is admitted, the same payload again is a replay, another a conflict. -/
def admitWorkflow (a : Admission) (j : Journal) : Except JournalError AdmitOutcome × Journal :=
  if io (.admitWorkflow a.workflowId) then (.error ioFailure, j)
  else match j.decisions.lookup a.workflowId with
  | some row => (.ok (if row.payloadHash = a.payloadHash then .replay else .conflict), j)
  | none => atomically (admitTx a) j

/-! ### Reservations -/

inductive ReserveOutcome where
  | reserved (tokens microunits : UInt64)
  | replayed (tokens : UInt64)
  | alreadyConsumed
  deriving DecidableEq

def reserveTx (workflowId key purpose : String) (tokens microunits : UInt64) (j : Journal) :
    Except JournalError (ReserveOutcome × Journal) :=
  match j.workflows.lookup workflowId with
  | none => .error (.sqlite .queryReturnedNoRows)
  | some row =>
      match row.remaining with
      | .real _ => .error remainingNotInteger
      | .integer budget =>
          if budget < asI64 microunits then
            .error (.insufficientBudget purpose microunits budget.natAbs)
          else do
            let j ← j.updateWorkflow workflowId (·.reserve microunits)
            let j ← j.insertReservation key
              ⟨workflowId, purpose, asI64 tokens, asI64 microunits, .reserved⟩
            .ok (.reserved tokens microunits, j)

/-- Reserve under an idempotency key: a key that exists is never reserved
again. -/
def reserve (workflowId key purpose : String) (tokens microunits : UInt64) (j : Journal) :
    Except JournalError ReserveOutcome × Journal :=
  if io (.reserve key) then (.error ioFailure, j)
  else match j.reservations.lookup key with
  | some row =>
      (.ok (if row.state = .reserved then .replayed (asU64 row.tokensReserved)
        else .alreadyConsumed), j)
  | none => atomically (reserveTx workflowId key purpose tokens microunits) j

def releaseTx (key : String) (measured : Option UInt64) (j : Journal) :
    Except JournalError (Unit × Journal) :=
  match j.reservations.lookup key with
  | none => .error (.sqlite .queryReturnedNoRows)
  | some row =>
      if row.state ≠ .reserved then .error (.sqlite .queryReturnedNoRows)
      else do
        let charged := (measured.map asI64).getD row.microunitsReserved
        let state := if measured.isSome then .consumedMeasured else .consumedFull
        let j ← updateWorkflow row.workflowId (·.release row.microunitsReserved charged)
          { j with reservations := j.reservations.insert key { row with state := state } }
        .ok ((), j)

/-- Release a reservation; without a measure the whole of it is charged. -/
def releaseReservation (key : String) (measured : Option UInt64) (j : Journal) :
    Except JournalError Unit × Journal :=
  if io (.releaseReservation key) then (.error ioFailure, j)
  else atomically (releaseTx key measured) j

/-! ### Attempts -/

/-- Some attempt already has this task id. -/
def taskIdTaken (j : Journal) (taskId : String) : Bool :=
  j.attempts.entries.any fun e => e.2.taskId == taskId

/-- The upsert of an attempt row: an existing row only changes its state, and
only under the same task id. -/
def recordAttempt (key : AttemptKey) (taskId : String) (state : AttemptState) (j : Journal) :
    Except JournalError Unit × Journal :=
  if io (.recordAttempt key state) then (.error ioFailure, j)
  else match j.attempts.lookup key with
  | some row =>
      if row.taskId = taskId then
        (.ok (), { j with attempts := j.attempts.insert key { row with state := state } })
      else (.ok (), j)
  | none =>
      if j.taskIdTaken taskId then
        (.error (.sqlite (.constraint "UNIQUE constraint failed: attempts.task_id")), j)
      else if key.1 ∉ j.workflows then
        (.error (.sqlite (.constraint "FOREIGN KEY constraint failed")), j)
      else (.ok (), { j with attempts := j.attempts.insert key ⟨taskId, state⟩ })

def attemptState (key : AttemptKey) (j : Journal) : Except JournalError AttemptState :=
  if io (.attemptState key) then .error ioFailure
  else match j.attempts.lookup key with
  | some row => .ok row.state
  | none => .error (.sqlite .queryReturnedNoRows)

/-- `UPDATE attempts SET state = 'in_doubt' WHERE task_id = ..`. -/
def inDoubted (taskId : String) (j : Journal) : Journal :=
  { j with attempts := j.attempts.mapVals fun _ row =>
      if row.taskId = taskId then { row with state := .inDoubt } else row }

def markInDoubt (taskId : String) (j : Journal) : Except JournalError Unit × Journal :=
  if io (.markInDoubt taskId) then (.error ioFailure, j) else (.ok (), j.inDoubted taskId)

/-! ### Outbox and stored intents -/

def outboxAppend (workflowId kind payload : String) (j : Journal) :
    Except JournalError Unit × Journal :=
  if io (.outboxAppend workflowId kind payload) then (.error ioFailure, j)
  else (.ok (), { j with outbox := j.outbox ++
    [⟨j.outbox.length + 1, workflowId, kind, payload, false⟩] })

/-- An intent as it is read back after a restart. -/
structure StoredIntent where
  workflowId : String
  requestId : String
  prompt : String
  createdAtNs : UInt64
  deadlineNs : UInt64
  maxTokens : UInt64
  maxCostMicrounits : UInt64
  intentRevision : UInt32
  questionsRevision : UInt32
  policyRevision : UInt32
  capabilityCatalogRevision : UInt32
  checkpointRevision : String
  deriving DecidableEq

def IntentRow.stored (workflowId : String) (row : IntentRow) : StoredIntent where
  workflowId := workflowId
  requestId := row.requestId
  prompt := row.prompt
  createdAtNs := asU64 row.createdAtNs
  deadlineNs := asU64 row.deadlineNs
  maxTokens := asU64 row.maxTokens
  maxCostMicrounits := asU64 row.maxCostMicrounits
  intentRevision := row.intentRevision
  questionsRevision := row.questionsRevision
  policyRevision := row.policyRevision
  capabilityCatalogRevision := row.capabilityCatalogRevision
  checkpointRevision := row.checkpointRevision

/-- The rows in the order in which they were inserted. -/
def storedIntents (j : Journal) : Except JournalError (List StoredIntent) :=
  if io .storedIntents then .error ioFailure
  else .ok (j.intents.entries.reverse.map fun e => IntentRow.stored e.1 e.2)

/-! ### What a call can do

One description per call: every later proof takes a call apart through it. -/

variable {io : JournalCall → Bool} {j : Journal}

inductive AdmitStep (a : Admission) (j : Journal) :
    Except JournalError AdmitOutcome → Journal → Prop
  | failed (e : JournalError) : AdmitStep a j (.error e) j
  | replay (row : DecisionRow) (hrow : j.decisions.lookup a.workflowId = some row)
      (hsame : row.payloadHash = a.payloadHash) : AdmitStep a j (.ok .replay) j
  | conflict (row : DecisionRow) (hrow : j.decisions.lookup a.workflowId = some row)
      (hother : row.payloadHash ≠ a.payloadHash) : AdmitStep a j (.ok .conflict) j
  | admitted (hdecision : j.decisions.lookup a.workflowId = none)
      (hworkflow : j.workflows.lookup a.workflowId = none) (hcheck : a.workflowRow.Check) :
      AdmitStep a j (.ok .admitted) (insertIntentOrIgnore a.workflowId a.intentRow
        { j with
          decisions := j.decisions.insert a.workflowId a.decisionRow
          workflows := j.workflows.insert a.workflowId a.workflowRow })

theorem admitTx_eq_ok {a : Admission} {out : AdmitOutcome} {j' : Journal}
    (h : admitTx a j = .ok (out, j')) :
    a.workflowId ∉ j.decisions ∧ a.workflowId ∉ j.workflows ∧ a.workflowRow.Check ∧
      out = .admitted ∧ j' = insertIntentOrIgnore a.workflowId a.intentRow
        { j with
          decisions := j.decisions.insert a.workflowId a.decisionRow
          workflows := j.workflows.insert a.workflowId a.workflowRow } := by
  simp only [admitTx, bind_eq_ok] at h
  obtain ⟨j₁, h₁, j₂, h₂, h₃⟩ := h
  unfold insertDecision at h₁
  split at h₁
  · cases h₁
  rename_i hdecision
  injection h₁ with h₁
  subst h₁
  unfold insertWorkflow at h₂
  split at h₂
  · cases h₂
  rename_i hworkflow
  split at h₂
  · cases h₂
  rename_i hcheck
  injection h₂ with h₂
  subst h₂
  injection h₃ with h₃
  injection h₃ with hout hj
  exact ⟨hdecision, hworkflow, not_not.mp hcheck, hout.symm, hj.symm⟩

theorem admitWorkflow_step (io : JournalCall → Bool) (a : Admission) (j : Journal) :
    AdmitStep a j (j.admitWorkflow io a).1 (j.admitWorkflow io a).2 := by
  unfold admitWorkflow
  split
  · exact .failed _
  split
  · rename_i row hrow
    by_cases hsame : row.payloadHash = a.payloadHash
    · simpa [hsame] using AdmitStep.replay row hrow hsame
    · simpa [hsame] using AdmitStep.conflict row hrow hsame
  · rename_i hnone
    rcases htx : admitTx a j with e | ⟨out, j'⟩
    · rw [atomically_of_error htx]
      exact .failed e
    · rw [atomically_of_ok htx]
      obtain ⟨-, hworkflow, hcheck, rfl, rfl⟩ := admitTx_eq_ok htx
      exact .admitted hnone (AList.lookup_eq_none.mpr hworkflow) hcheck

theorem admitWorkflow_of_new {a : Admission} (hio : io (.admitWorkflow a.workflowId) = false)
    (hdecision : a.workflowId ∉ j.decisions) (hworkflow : a.workflowId ∉ j.workflows)
    (hsmall : a.budgetMicrounits.toNat < 2 ^ 63) :
    ∃ j', j.admitWorkflow io a = (.ok .admitted, j') := by
  have hcheck : a.workflowRow.Check := a.check_workflowRow.mpr (asI64_nonneg hsmall)
  simp only [admitWorkflow, hio, Bool.false_eq_true, if_false, AList.lookup_eq_none.mpr hdecision]
  refine ⟨insertIntentOrIgnore a.workflowId a.intentRow { j with
    decisions := j.decisions.insert a.workflowId a.decisionRow
    workflows := j.workflows.insert a.workflowId a.workflowRow }, atomically_of_ok ?_⟩
  simp [admitTx, insertDecision, hdecision, insertWorkflow, hworkflow, hcheck, bind, Except.bind]

/-- The row lets a new reservation be made. -/
structure Grants (row : WorkflowRow) (microunits : UInt64) : Prop where
  fits : ∃ budget, row.remaining = .integer budget ∧ asI64 microunits ≤ budget
  check : (row.reserve microunits).Check

inductive ReserveStep (workflowId key purpose : String) (tokens microunits : UInt64)
    (j : Journal) : Except JournalError ReserveOutcome → Journal → Prop
  | failed (e : JournalError) : ReserveStep workflowId key purpose tokens microunits j (.error e) j
  | replayed (row : ReservationRow) (hrow : j.reservations.lookup key = some row)
      (hstate : row.state = .reserved) :
      ReserveStep workflowId key purpose tokens microunits j
        (.ok (.replayed (asU64 row.tokensReserved))) j
  | consumed (row : ReservationRow) (hrow : j.reservations.lookup key = some row)
      (hstate : row.state ≠ .reserved) :
      ReserveStep workflowId key purpose tokens microunits j (.ok .alreadyConsumed) j
  | reserved (row : WorkflowRow) (hkey : j.reservations.lookup key = none)
      (hrow : j.workflows.lookup workflowId = some row)
      (hgrants : Grants row microunits) :
      ReserveStep workflowId key purpose tokens microunits j (.ok (.reserved tokens microunits))
        { j with
          workflows := j.workflows.insert workflowId (row.reserve microunits)
          reservations := j.reservations.insert key
            ⟨workflowId, purpose, asI64 tokens, asI64 microunits, .reserved⟩ }

theorem reserve_step (io : JournalCall → Bool) (workflowId key purpose : String)
    (tokens microunits : UInt64) (j : Journal) :
    ReserveStep workflowId key purpose tokens microunits j
      (j.reserve io workflowId key purpose tokens microunits).1
      (j.reserve io workflowId key purpose tokens microunits).2 := by
  unfold reserve
  split
  · exact .failed _
  split
  · rename_i row hrow
    by_cases hstate : row.state = .reserved
    · simpa [hstate] using ReserveStep.replayed row hrow hstate
    · simpa [hstate] using ReserveStep.consumed row hrow hstate
  · rename_i hkey
    rcases htx : reserveTx workflowId key purpose tokens microunits j with e | ⟨out, j'⟩
    · rw [atomically_of_error htx]
      exact .failed e
    · rw [atomically_of_ok htx]
      unfold reserveTx at htx
      split at htx
      · cases htx
      rename_i row hrow
      split at htx
      · cases htx
      rename_i budget hbudget
      split at htx
      · cases htx
      rename_i hfits
      simp only [bind_eq_ok, updateWorkflow, hrow] at htx
      obtain ⟨j₁, h₁, j₂, h₂, h₃⟩ := htx
      split at h₁
      · cases h₁
      rename_i hcheck
      injection h₁ with h₁
      subst h₁
      unfold insertReservation at h₂
      split at h₂
      · cases h₂
      split at h₂
      · cases h₂
      injection h₂ with h₂
      subst h₂
      injection h₃ with h₃
      injection h₃ with hout hj
      subst hout hj
      exact .reserved row hkey hrow ⟨⟨budget, hbudget, not_lt.mp hfits⟩, not_not.mp hcheck⟩

theorem reserve_of_grants {workflowId key : String} {microunits : UInt64} {row : WorkflowRow}
    (purpose : String) (tokens : UInt64) (hio : io (.reserve key) = false)
    (hkey : j.reservations.lookup key = none) (hrow : j.workflows.lookup workflowId = some row)
    (hgrants : Grants row microunits) :
    j.reserve io workflowId key purpose tokens microunits =
      (.ok (.reserved tokens microunits), { j with
        workflows := j.workflows.insert workflowId (row.reserve microunits)
        reservations := j.reservations.insert key
          ⟨workflowId, purpose, asI64 tokens, asI64 microunits, .reserved⟩ }) := by
  obtain ⟨budget, hbudget, hfits⟩ := hgrants.fits
  have hcheck := hgrants.check
  simp only [reserve, hio, hkey, Bool.false_eq_true, if_false]
  refine atomically_of_ok ?_
  simp [reserveTx, hrow, hbudget, not_lt.mpr hfits, updateWorkflow, hcheck, bind, Except.bind,
    insertReservation, AList.lookup_eq_none.mp hkey]

/-- The state a release leaves the reservation in. -/
def releasedState (measured : Option UInt64) : ReservationState :=
  if measured.isSome then .consumedMeasured else .consumedFull

theorem releasedState_ne (measured : Option UInt64) : releasedState measured ≠ .reserved := by
  cases measured <;> simp [releasedState]

/-- What a release charges. -/
def charge (measured : Option UInt64) (row : ReservationRow) : Int :=
  (measured.map asI64).getD row.microunitsReserved

/-- The workflow row after a release. -/
def settle (measured : Option UInt64) (row : ReservationRow) (w : WorkflowRow) : WorkflowRow :=
  w.release row.microunitsReserved (charge measured row)

inductive ReleaseStep (key : String) (measured : Option UInt64) (j : Journal) :
    Except JournalError Unit → Journal → Prop
  | failed (e : JournalError) : ReleaseStep key measured j (.error e) j
  | orphan (row : ReservationRow) (hrow : j.reservations.lookup key = some row)
      (hstate : row.state = .reserved) (hworkflow : j.workflows.lookup row.workflowId = none) :
      ReleaseStep key measured j (.ok ())
        { j with reservations :=
            j.reservations.insert key { row with state := releasedState measured } }
  | released (row : ReservationRow) (w : WorkflowRow)
      (hrow : j.reservations.lookup key = some row) (hstate : row.state = .reserved)
      (hworkflow : j.workflows.lookup row.workflowId = some w)
      (hcheck : (settle measured row w).Check) :
      ReleaseStep key measured j (.ok ())
        { j with
          workflows := j.workflows.insert row.workflowId (settle measured row w)
          reservations :=
            j.reservations.insert key { row with state := releasedState measured } }

theorem releaseReservation_step (io : JournalCall → Bool) (key : String)
    (measured : Option UInt64) (j : Journal) :
    ReleaseStep key measured j (j.releaseReservation io key measured).1
      (j.releaseReservation io key measured).2 := by
  unfold releaseReservation
  split
  · exact .failed _
  rcases htx : releaseTx key measured j with e | ⟨out, j'⟩
  · rw [atomically_of_error htx]
    exact .failed e
  · rw [atomically_of_ok htx]
    unfold releaseTx at htx
    split at htx
    · cases htx
    rename_i row hrow
    split at htx
    · cases htx
    rename_i hstate
    simp only [bind_eq_ok, updateWorkflow] at htx
    obtain ⟨j₁, h₁, h₂⟩ := htx
    injection h₂ with h₂
    injection h₂ with hout hj
    subst hj
    split at h₁
    · rename_i hworkflow
      injection h₁ with h₁
      subst h₁
      exact .orphan row hrow (not_not.mp hstate) hworkflow
    · rename_i w hworkflow
      split at h₁
      · cases h₁
      rename_i hcheck
      injection h₁ with h₁
      subst h₁
      exact .released row w hrow (not_not.mp hstate) hworkflow (not_not.mp hcheck)

/-- The `CHECK` lets the whole of the reservation be charged. -/
def Releasable (j : Journal) (key : String) : Prop :=
  ∀ row w, j.reservations.lookup key = some row → row.state = .reserved →
    j.workflows.lookup row.workflowId = some w → (settle none row w).Check

theorem releaseReservation_of_check {key : String} {measured : Option UInt64}
    {row : ReservationRow} {w : WorkflowRow} (hio : io (.releaseReservation key) = false)
    (hrow : j.reservations.lookup key = some row) (hstate : row.state = .reserved)
    (hworkflow : j.workflows.lookup row.workflowId = some w)
    (hcheck : (settle measured row w).Check) :
    j.releaseReservation io key measured = (.ok (), { j with
      workflows := j.workflows.insert row.workflowId (settle measured row w)
      reservations := j.reservations.insert key
        { row with state := releasedState measured } }) := by
  simp only [settle, charge] at hcheck
  simp only [releaseReservation, hio, Bool.false_eq_true, if_false]
  refine atomically_of_ok ?_
  simp [releaseTx, hrow, hstate, updateWorkflow, hworkflow, hcheck, settle, charge, releasedState,
    bind, Except.bind]

/-- An unmeasured release that the `CHECK` lets through consumes a live reservation. -/
theorem releaseReservation_of_reserved {key : String} {row : ReservationRow}
    (hio : io (.releaseReservation key) = false)
    (hrow : j.reservations.lookup key = some row) (hstate : row.state = .reserved)
    (hfree : Releasable j key) :
    (j.releaseReservation io key none).2.reservations =
      j.reservations.insert key { row with state := .consumedFull } := by
  cases hworkflow : j.workflows.lookup row.workflowId with
  | none =>
      have htx : releaseTx key none j = .ok ((),
          { j with reservations :=
              j.reservations.insert key { row with state := .consumedFull } }) := by
        simp [releaseTx, hrow, hstate, updateWorkflow, hworkflow, bind, Except.bind]
      simp only [releaseReservation, hio, Bool.false_eq_true, if_false]
      rw [atomically_of_ok htx]
  | some w =>
      rw [releaseReservation_of_check hio hrow hstate hworkflow
        (hfree row w hrow hstate hworkflow)]
      rfl

inductive RecordStep (key : AttemptKey) (taskId : String) (state : AttemptState) (j : Journal) :
    Except JournalError Unit → Journal → Prop
  | failed (e : JournalError) : RecordStep key taskId state j (.error e) j
  | ignored (row : AttemptRow) (hrow : j.attempts.lookup key = some row)
      (hother : row.taskId ≠ taskId) : RecordStep key taskId state j (.ok ()) j
  | written (hsame : ∀ row, j.attempts.lookup key = some row → row.taskId = taskId)
      (hfresh : j.attempts.lookup key = none →
        (∀ k row, j.attempts.lookup k = some row → row.taskId ≠ taskId) ∧ key.1 ∈ j.workflows) :
      RecordStep key taskId state j (.ok ())
        { j with attempts := j.attempts.insert key ⟨taskId, state⟩ }

theorem taskIdTaken_eq_false {taskId : String} :
    j.taskIdTaken taskId = false ↔
      ∀ k row, j.attempts.lookup k = some row → row.taskId ≠ taskId := by
  simp only [taskIdTaken, List.any_eq_false, beq_iff_eq]
  constructor
  · intro h k row hrow
    exact h ⟨k, row⟩ (Map.mem_entries.mpr hrow)
  · rintro h ⟨k, row⟩ he
    exact h k row (Map.mem_entries.mp he)

theorem recordAttempt_step (io : JournalCall → Bool) (key : AttemptKey) (taskId : String)
    (state : AttemptState) (j : Journal) :
    RecordStep key taskId state j (j.recordAttempt io key taskId state).1
      (j.recordAttempt io key taskId state).2 := by
  unfold recordAttempt
  split
  · exact .failed _
  split
  · rename_i row hrow
    split
    · rename_i hsame
      subst hsame
      refine .written ?_ (by simp [hrow])
      intro row' hrow'
      rw [hrow, Option.some.injEq] at hrow'
      rw [hrow']
    · rename_i hother
      exact .ignored row hrow hother
  · rename_i hnone
    split
    · exact .failed _
    rename_i hfree
    split
    · exact .failed _
    rename_i hworkflow
    refine .written (by simp [hnone]) fun _ => ⟨?_, not_not.mp hworkflow⟩
    exact taskIdTaken_eq_false.mp (by simpa using hfree)

/-- The outbox gained at most one row, of this workflow. -/
def Appended (workflowId : String) (old rows : List OutboxRow) : Prop :=
  rows = old ∨ ∃ row, row.workflowId = workflowId ∧ rows = old ++ [row]

theorem outboxAppend_eq (io : JournalCall → Bool) (workflowId kind payload : String)
    (j : Journal) :
    ∃ rows, (j.outboxAppend io workflowId kind payload).2 = { j with outbox := rows } ∧
      Appended workflowId j.outbox rows := by
  unfold outboxAppend
  split
  · exact ⟨j.outbox, rfl, .inl rfl⟩
  · exact ⟨_, rfl, .inr ⟨_, rfl, rfl⟩⟩

end Journal

end DdsOrchestrator.WorkflowEngine
