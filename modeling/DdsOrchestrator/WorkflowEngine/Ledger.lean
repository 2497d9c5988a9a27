import DdsOrchestrator.Lib.Machine
import DdsOrchestrator.WorkflowEngine.Journal

/-!
The budget ledger. A workflow's budget is kept twice: in the counters of its
row, and in the reservations made for it. The two agree in every database that
admissions, reservations and releases can produce, the counters stay within
the budget, and a key is charged at most once in each counter.
-/

namespace DdsOrchestrator.WorkflowEngine

open Journal Machine

/-! ### The machine -/

inductive LedgerCall where
  | admitWorkflow (admission : Admission)
  | reserve (workflowId key purpose : String) (tokens microunits : UInt64)
  | release (key : String) (measured : Option UInt64)

/-- A call and what the medium does to it. -/
structure LedgerInput where
  io : JournalCall → Bool
  call : LedgerCall

namespace LedgerInput

/-- The idempotency key a call is made under. -/
def key? (x : LedgerInput) : Option String :=
  match x.call with
  | .admitWorkflow _ => none
  | .reserve _ key _ _ _ => some key
  | .release key _ => some key

/-- The microunit amount of the call fits the signed column. -/
def AmountFits (x : LedgerInput) : Prop :=
  match x.call with
  | .admitWorkflow a => a.budgetMicrounits.toNat < 2 ^ 63
  | .reserve _ _ _ _ microunits => microunits.toNat < 2 ^ 63
  | .release _ measured => ∀ m ∈ measured, m.toNat < 2 ^ 63

/-- The call returns an error. -/
def Fails (x : LedgerInput) (j : Journal) : Prop :=
  match x.call with
  | .admitWorkflow a => ∃ e, (j.admitWorkflow x.io a).1 = .error e
  | .reserve workflowId key purpose tokens microunits =>
      ∃ e, (j.reserve x.io workflowId key purpose tokens microunits).1 = .error e
  | .release key measured => ∃ e, (j.releaseReservation x.io key measured).1 = .error e

end LedgerInput

def ledgerStep (j : Journal) (x : LedgerInput) : Journal :=
  match x.call with
  | .admitWorkflow a => (j.admitWorkflow x.io a).2
  | .reserve workflowId key purpose tokens microunits =>
      (j.reserve x.io workflowId key purpose tokens microunits).2
  | .release key measured => (j.releaseReservation x.io key measured).2

/-! ### The invariant -/

/-- What a reservation holds of the budget of `workflowId`. -/
def heldFor (workflowId : String) (_key : String) (row : ReservationRow) : ℤ :=
  if row.workflowId = workflowId ∧ row.state = .reserved then row.microunitsReserved else 0

/-- The ledger is balanced. -/
structure Ledger (j : Journal) : Prop where
  reserved : ∀ id row, j.workflows.lookup id = some row →
    row.budgetReserved = .integer (Map.sumOf (heldFor id) j.reservations)
  nonneg : ∀ id row, j.workflows.lookup id = some row →
    0 ≤ row.budgetReserved.value ∧ 0 ≤ row.budgetConsumed.value
  capped : ∀ id row, j.workflows.lookup id = some row →
    row.budgetReserved.value + row.budgetConsumed.value ≤ row.budgetMicrounits

@[simp] theorem insertIntentOrIgnore_workflows (id : String) (row : IntentRow) (j : Journal) :
    (insertIntentOrIgnore id row j).workflows = j.workflows := by
  unfold insertIntentOrIgnore
  split <;> rfl

@[simp] theorem insertIntentOrIgnore_reservations (id : String) (row : IntentRow) (j : Journal) :
    (insertIntentOrIgnore id row j).reservations = j.reservations := by
  unfold insertIntentOrIgnore
  split <;> rfl

/-! ### A row whose counters are integers -/

section Rows

open SqliteNumber

/-- The counters of the row. -/
structure WorkflowRow.Counts (w : WorkflowRow) (reserved consumed : ℤ) : Prop where
  reserved : w.budgetReserved = integer reserved
  consumed : w.budgetConsumed = integer consumed

/-- So much is reserved, and with what is consumed it stays within a budget
that fits its column. -/
structure WorkflowRow.Within (w : WorkflowRow) (reserved : ℤ) : Prop where
  counts : ∃ c, w.Counts reserved c ∧ 0 ≤ c ∧ reserved + c ≤ w.budgetMicrounits
  nonneg : 0 ≤ reserved
  small : w.budgetMicrounits < 2 ^ 63

variable {w : WorkflowRow} {b c reserved charged : ℤ} {microunits : UInt64}

theorem WorkflowRow.Counts.check_iff (h : w.Counts b c) (hfits : Fits (b + c)) :
    w.Check ↔ b + c ≤ w.budgetMicrounits := by
  rw [WorkflowRow.Check, h.reserved, h.consumed, integer_add hfits, value_integer]

theorem WorkflowRow.Counts.remaining_eq (h : w.Counts b c) {budget : ℤ}
    (hbudget : w.remaining = integer budget) : budget = w.budgetMicrounits - b - c := by
  obtain ⟨a, c', hleft, hc, rfl, -⟩ := sub_eq_integer hbudget
  obtain ⟨m, b', hm, hb, rfl, -⟩ := sub_eq_integer hleft
  rw [h.reserved] at hb
  rw [h.consumed] at hc
  cases hm
  cases hb
  cases hc
  rfl

theorem WorkflowRow.Counts.reserve (h : w.Counts b c) (microunits : UInt64)
    (hfits : Fits (b + asI64 microunits)) :
    (w.reserve microunits).Counts (b + asI64 microunits) c := by
  refine ⟨?_, h.consumed⟩
  rw [WorkflowRow.reserve, h.reserved, integer_add hfits, stored_integer]

theorem WorkflowRow.Counts.release (h : w.Counts b c) (reserved charged : ℤ)
    (hfits : Fits (b - reserved)) (hfits' : Fits (c + charged)) :
    (w.release reserved charged).Counts (b - reserved) (c + charged) := by
  constructor
  · rw [WorkflowRow.release, h.reserved, integer_sub hfits, stored_integer]
  · rw [WorkflowRow.release, h.consumed, integer_add hfits', stored_integer]

theorem WorkflowRow.Within.grants_iff (h : w.Within b) (hcounts : w.Counts b c) (hc : 0 ≤ c)
    (hle : b + c ≤ w.budgetMicrounits) :
    Grants w microunits ↔ asI64 microunits ≤ w.budgetMicrounits - b - c := by
  have hb := h.nonneg
  have hsmall := h.small
  have hamount := neg_le_asI64 microunits
  constructor
  · rintro ⟨⟨budget, hbudget, hfits⟩, -⟩
    rwa [hcounts.remaining_eq hbudget] at hfits
  · intro hfits
    refine ⟨⟨w.budgetMicrounits - b - c, ?_, hfits⟩, ?_⟩
    · rw [WorkflowRow.remaining, hcounts.reserved, hcounts.consumed,
        integer_sub ⟨by omega, by omega⟩, integer_sub ⟨by omega, by omega⟩]
    · have hafter := hcounts.reserve microunits ⟨by omega, by omega⟩
      refine (hafter.check_iff ⟨by omega, by omega⟩).mpr ?_
      show b + asI64 microunits + c ≤ w.budgetMicrounits
      omega

/-- A reservation that is granted stays within the budget. -/
theorem WorkflowRow.Within.reserve (h : w.Within b) (hamount : 0 ≤ asI64 microunits)
    (hgrants : Grants w microunits) : (w.reserve microunits).Within (b + asI64 microunits) := by
  obtain ⟨c, hcounts, hc, hle⟩ := h.counts
  have hfits := (h.grants_iff hcounts hc hle).mp hgrants
  have hb := h.nonneg
  have hsmall := h.small
  refine ⟨⟨c, hcounts.reserve microunits ⟨by omega, by omega⟩, hc, ?_⟩, by omega, hsmall⟩
  show b + asI64 microunits + c ≤ w.budgetMicrounits
  omega

theorem WorkflowRow.Within.release_reserved (h : w.Within b) (charged : ℤ)
    (hreserved : 0 ≤ reserved) (hheld : reserved ≤ b) :
    (w.release reserved charged).budgetReserved = integer (b - reserved) := by
  obtain ⟨c, hcounts, hc, hle⟩ := h.counts
  have hsmall := h.small
  rw [WorkflowRow.release, hcounts.reserved, integer_sub ⟨by omega, by omega⟩, stored_integer]

/-- A charge that the column would hold as a REAL is refused by the `CHECK`. -/
theorem WorkflowRow.Within.fits_of_check (h : w.Within b) (hcounts : w.Counts b c) (hc : 0 ≤ c)
    (hle : b + c ≤ w.budgetMicrounits) (hreserved : 0 ≤ reserved) (hheld : reserved ≤ b)
    (hcharged : 0 ≤ charged) (hcheck : (w.release reserved charged).Check) :
    b - reserved + (c + charged) < 2 ^ 63 := by
  have hb := h.nonneg
  have hsmall := h.small
  rw [WorkflowRow.Check, h.release_reserved charged hreserved hheld] at hcheck
  by_contra hlarge
  refine absurd (le_trans ?_ hcheck) (not_le.mpr hsmall)
  by_cases hconsumed : c + charged < 2 ^ 63
  · rw [WorkflowRow.release, hcounts.consumed, integer_add ⟨by omega, hconsumed⟩, stored_integer]
    exact le_value_add (by omega) (by omega) (by omega) (not_lt.mp hlarge)
  · refine le_value_add_of_le (by omega) ?_
    rw [WorkflowRow.release, hcounts.consumed, value_stored]
    exact le_value_add hc hcharged (by omega) (not_lt.mp hconsumed)

theorem WorkflowRow.Within.release_counts (h : w.Within b) (hcounts : w.Counts b c) (hc : 0 ≤ c)
    (hle : b + c ≤ w.budgetMicrounits) (hreserved : 0 ≤ reserved) (hheld : reserved ≤ b)
    (hcharged : 0 ≤ charged) (hcheck : (w.release reserved charged).Check) :
    (w.release reserved charged).Counts (b - reserved) (c + charged) ∧
      b - reserved + (c + charged) ≤ w.budgetMicrounits := by
  have hsmall := h.small
  have hsum := h.fits_of_check hcounts hc hle hreserved hheld hcharged hcheck
  have hafter := hcounts.release reserved charged ⟨by omega, by omega⟩ ⟨by omega, by omega⟩
  exact ⟨hafter, (hafter.check_iff ⟨by omega, hsum⟩).mp hcheck⟩

/-- So does what is left of it when a reservation is released. -/
theorem WorkflowRow.Within.release (h : w.Within b) (hreserved : 0 ≤ reserved)
    (hheld : reserved ≤ b) (hcharged : 0 ≤ charged) (hcheck : (w.release reserved charged).Check) :
    (w.release reserved charged).Within (b - reserved) := by
  obtain ⟨c, hcounts, hc, hle⟩ := h.counts
  obtain ⟨hafter, hle'⟩ := h.release_counts hcounts hc hle hreserved hheld hcharged hcheck
  exact ⟨⟨c + charged, hafter, by omega, hle'⟩, by omega, h.small⟩

/-- Without a measure the reservation moves from one counter to the other, which
the `CHECK` lets through. -/
theorem WorkflowRow.Within.check_release (h : w.Within b) (hreserved : 0 ≤ reserved)
    (hheld : reserved ≤ b) : (w.release reserved reserved).Check := by
  obtain ⟨c, hcounts, hc, hle⟩ := h.counts
  have hb := h.nonneg
  have hsmall := h.small
  have hafter := hcounts.release reserved reserved ⟨by omega, by omega⟩ ⟨by omega, by omega⟩
  refine (hafter.check_iff ⟨by omega, by omega⟩).mpr ?_
  show b - reserved + (c + reserved) ≤ w.budgetMicrounits
  omega

end Rows

/-- What keeps the balance: every row is within its budget, no reservation is
negative, and each is made for a workflow that exists. -/
structure LedgerInv (j : Journal) : Prop where
  rows : ∀ id row, j.workflows.lookup id = some row →
    row.Within (Map.sumOf (heldFor id) j.reservations)
  amounts : ∀ key row, j.reservations.lookup key = some row → 0 ≤ row.microunitsReserved
  known : ∀ key row, j.reservations.lookup key = some row → row.workflowId ∈ j.workflows

theorem LedgerInv.ledger {j : Journal} (hj : LedgerInv j) : Ledger j := by
  constructor <;> intro id row hrow <;>
    obtain ⟨⟨c, ⟨hb, hc⟩, hnonneg, hle⟩, hheld, -⟩ := hj.rows id row hrow
  · exact hb
  · rw [hb, hc]
    exact ⟨hheld, hnonneg⟩
  · rw [hb, hc]
    exact hle

theorem heldFor_nonneg {j : Journal} (hj : LedgerInv j) (id : String) :
    ∀ key row, j.reservations.lookup key = some row → 0 ≤ heldFor id key row := by
  intro key row hrow
  unfold heldFor
  split
  · exact hj.amounts key row hrow
  · exact le_rfl

theorem heldFor_of_reserved {key : String} {row : ReservationRow} (hstate : row.state = .reserved) :
    heldFor row.workflowId key row = row.microunitsReserved := by
  simp [heldFor, hstate]

/-- A reservation holds no more than the counter of its workflow. -/
theorem LedgerInv.held_le {j : Journal} (hj : LedgerInv j) {key : String} {row : ReservationRow}
    (hrow : j.reservations.lookup key = some row) (hstate : row.state = .reserved) :
    row.microunitsReserved ≤ Map.sumOf (heldFor row.workflowId) j.reservations := by
  have hheld : heldFor row.workflowId key row = row.microunitsReserved :=
    heldFor_of_reserved hstate
  rw [← hheld]
  exact Map.le_sumOf (heldFor row.workflowId) (heldFor_nonneg hj row.workflowId) hrow

theorem LedgerInv.charge_nonneg {j : Journal} (hj : LedgerInv j) {key : String}
    {row : ReservationRow} {measured : Option UInt64}
    (hrow : j.reservations.lookup key = some row) (hfits : ∀ m ∈ measured, m.toNat < 2 ^ 63) :
    0 ≤ charge measured row := by
  unfold charge
  cases measured with
  | none => exact hj.amounts key row hrow
  | some m => exact asI64_nonneg (hfits m rfl)

/-- In a balanced ledger every reservation can be charged as a whole. -/
theorem LedgerInv.releasable {j : Journal} (hj : LedgerInv j) (key : String) :
    Releasable j key := by
  intro row w hrow hstate hw
  exact (hj.rows _ _ hw).check_release (hj.amounts key row hrow) (hj.held_le hrow hstate)

/-- Only the two tables count. -/
theorem LedgerInv.of_eq {j j' : Journal} (hj : LedgerInv j)
    (hworkflows : j'.workflows = j.workflows) (hreservations : j'.reservations = j.reservations) :
    LedgerInv j' := by
  refine ⟨?_, ?_, ?_⟩
  · rw [hworkflows, hreservations]
    exact hj.rows
  · rw [hreservations]
    exact hj.amounts
  · rw [hworkflows, hreservations]
    exact hj.known

theorem ledgerInv_empty : LedgerInv .empty := by
  constructor <;> simp [Journal.empty]

/-! ### Each call keeps it -/

section Steps

variable {j j' : Journal}

theorem Journal.AdmitStep.ledgerInv {a : Admission} {result : Except JournalError AdmitOutcome}
    (h : AdmitStep a j result j') (hj : LedgerInv j) : LedgerInv j' := by
  cases h with
  | failed | replay | conflict => exact hj
  | admitted _ hworkflow hcheck =>
      have hbudget := a.check_workflowRow.mp hcheck
      -- Nothing can be held for a workflow that did not exist.
      have hnone : Map.sumOf (heldFor a.workflowId) j.reservations = 0 := by
        apply Map.sumOf_eq_zero
        intro key row hrow
        have hne : row.workflowId ≠ a.workflowId := by
          intro heq
          have hmem := hj.known key row hrow
          rw [heq] at hmem
          exact AList.lookup_eq_none.mp hworkflow hmem
        simp [heldFor, hne]
      constructor
      · intro id row hrow
        rw [insertIntentOrIgnore_reservations]
        rcases Map.lookup_insert_eq_some.mp (by simpa using hrow) with ⟨rfl, rfl⟩ | ⟨-, hold⟩
        · rw [hnone]
          exact ⟨⟨0, ⟨rfl, rfl⟩, le_rfl, by simpa [Admission.workflowRow] using hbudget⟩, le_rfl,
            asI64_lt _⟩
        · exact hj.rows id row hold
      · simpa using hj.amounts
      · intro key row hrow
        have hmem := hj.known key row (by simpa using hrow)
        simp [hmem]

theorem Journal.ReserveStep.ledgerInv {workflowId key purpose : String} {tokens microunits : UInt64}
    {result : Except JournalError ReserveOutcome}
    (h : ReserveStep workflowId key purpose tokens microunits j result j') (hj : LedgerInv j)
    (hfits : microunits.toNat < 2 ^ 63) : LedgerInv j' := by
  cases h with
  | failed | replayed | consumed => exact hj
  | reserved row hkey hrow hgrants =>
      have hamount := asI64_nonneg hfits
      set made : ReservationRow := ⟨workflowId, purpose, asI64 tokens, asI64 microunits, .reserved⟩
      have hsum : ∀ id, Map.sumOf (heldFor id) (j.reservations.insert key made) =
          heldFor id key made + Map.sumOf (heldFor id) j.reservations :=
        fun id => Map.sumOf_insert_of_notMem _ _ hkey
      constructor
      · intro id w hw
        rw [hsum]
        rcases Map.lookup_insert_eq_some.mp hw with ⟨rfl, rfl⟩ | ⟨hne, hold⟩
        · have hheld : heldFor id key made = asI64 microunits := heldFor_of_reserved rfl
          rw [hheld, add_comm]
          exact (hj.rows _ _ hrow).reserve hamount hgrants
        · rw [heldFor, if_neg (by simp [made, Ne.symm hne]), zero_add]
          exact hj.rows id w hold
      · intro k w hw
        rcases Map.lookup_insert_eq_some.mp hw with ⟨-, rfl⟩ | ⟨-, hold⟩
        · exact hamount
        · exact hj.amounts k w hold
      · intro k w hw
        rcases Map.lookup_insert_eq_some.mp hw with ⟨-, rfl⟩ | ⟨-, hold⟩
        · simp [made]
        · simp [hj.known k w hold]

theorem Journal.ReleaseStep.ledgerInv {key : String} {measured : Option UInt64}
    {result : Except JournalError Unit} (h : ReleaseStep key measured j result j')
    (hj : LedgerInv j) (hfits : ∀ m ∈ measured, m.toNat < 2 ^ 63) : LedgerInv j' := by
  cases h with
  | failed => exact hj
  | orphan row hrow _ hworkflow =>
      exact absurd (hj.known key row hrow) (AList.lookup_eq_none.mp hworkflow)
  | released row w hrow hstate hworkflow hcheck =>
      set closed : ReservationRow := { row with state := releasedState measured } with hclosed
      have hclosedHeld : ∀ id, heldFor id key closed = 0 := by
        intro id
        simp [heldFor, hclosed, releasedState_ne]
      have hsum : ∀ id, Map.sumOf (heldFor id) (j.reservations.insert key closed) =
          Map.sumOf (heldFor id) j.reservations - heldFor id key row := by
        intro id
        rw [Map.sumOf_insert_of_lookup _ _ hrow, hclosedHeld, add_zero]
      have hcharge := hj.charge_nonneg hrow hfits
      constructor
      · intro id v hv
        rw [hsum]
        rcases Map.lookup_insert_eq_some.mp hv with ⟨rfl, rfl⟩ | ⟨hne, hold⟩
        · rw [heldFor_of_reserved hstate]
          exact (hj.rows _ _ hworkflow).release (hj.amounts key row hrow)
            (hj.held_le hrow hstate) hcharge hcheck
        · rw [heldFor, if_neg (by simp [Ne.symm hne]), sub_zero]
          exact hj.rows id v hold
      · intro k v hv
        rcases Map.lookup_insert_eq_some.mp hv with ⟨-, rfl⟩ | ⟨-, hold⟩
        · exact hj.amounts key row hrow
        · exact hj.amounts k v hold
      · intro k v hv
        rcases Map.lookup_insert_eq_some.mp hv with ⟨-, rfl⟩ | ⟨-, hold⟩
        · simp [hclosed]
        · simp [hj.known k v hold]

end Steps

theorem ledgerStep_inv {j : Journal} {x : LedgerInput} (hj : LedgerInv j) (hx : x.AmountFits) :
    LedgerInv (ledgerStep j x) := by
  unfold ledgerStep
  unfold LedgerInput.AmountFits at hx
  split <;> rename_i hcall <;> rw [hcall] at hx
  · exact (admitWorkflow_step _ _ _).ledgerInv hj
  · exact (reserve_step _ _ _ _ _ _ _).ledgerInv hj hx
  · exact (releaseReservation_step _ _ _ _).ledgerInv hj hx

/-! ### A key is charged at most once -/

/-- A call under `key` adds to a counter of some workflow. -/
def Raises (counter : WorkflowRow → ℤ) (key : String) (j : Journal) (x : LedgerInput) : Prop :=
  x.key? = some key ∧ ∃ id row row', j.workflows.lookup id = some row ∧
    (ledgerStep j x).workflows.lookup id = some row' ∧ counter row < counter row'

/-- A call under a key is a reservation or a release, with the one result its
description allows. -/
theorem ledgerStep_keyed {j : Journal} {x : LedgerInput} {key : String}
    (hkey : x.key? = some key) :
    (∃ workflowId purpose tokens microunits result,
      ReserveStep workflowId key purpose tokens microunits j result (ledgerStep j x)) ∨
    ∃ measured result, x.call = .release key measured ∧
      ReleaseStep key measured j result (ledgerStep j x) := by
  unfold LedgerInput.key? at hkey
  unfold ledgerStep
  split at hkey <;> rename_i hcall <;> rw [hcall]
  · cases hkey
  · injection hkey with hkey
    subst hkey
    exact .inl ⟨_, _, _, _, _, reserve_step _ _ _ _ _ _ _⟩
  · injection hkey with hkey
    subst hkey
    exact .inr ⟨_, _, rfl, releaseReservation_step _ _ _ _⟩

/-- Reservations are never deleted, and a consumed one is never revived. -/
theorem ledgerStep_reservations {j : Journal} {key : String} {row : ReservationRow}
    (x : LedgerInput) (hrow : j.reservations.lookup key = some row) :
    ∃ row', (ledgerStep j x).reservations.lookup key = some row' ∧
      (row.state ≠ .reserved → row'.state ≠ .reserved) := by
  have hsame : ∃ row', j.reservations.lookup key = some row' ∧
      (row.state ≠ .reserved → row'.state ≠ .reserved) := ⟨row, hrow, id⟩
  unfold ledgerStep
  split
  · rename_i a _
    have hstep := admitWorkflow_step x.io a j
    generalize j.admitWorkflow x.io a = out at hstep ⊢
    obtain ⟨result, j'⟩ := out
    dsimp only at hstep ⊢
    cases hstep with
    | failed | replay | conflict => exact hsame
    | admitted => simpa using hsame
  · rename_i workflowId key' purpose tokens microunits _
    have hstep := reserve_step x.io workflowId key' purpose tokens microunits j
    generalize j.reserve x.io workflowId key' purpose tokens microunits = out at hstep ⊢
    obtain ⟨result, j'⟩ := out
    dsimp only at hstep ⊢
    cases hstep with
    | failed | replayed | consumed => exact hsame
    | reserved w hkey =>
        refine ⟨row, Map.lookup_insert_eq_some.mpr (.inr ⟨?_, hrow⟩), id⟩
        rintro rfl
        rw [hkey] at hrow
        cases hrow
  · rename_i key' measured _
    have hstep := releaseReservation_step x.io key' measured j
    have hclosed : ∀ row' : ReservationRow, ∃ row'', (j.reservations.insert key'
        { row' with state := releasedState measured }).lookup key = some row'' ∧
          (row.state ≠ .reserved → row''.state ≠ .reserved) := by
      intro row'
      by_cases hk : key = key'
      · exact ⟨_, Map.lookup_insert_eq_some.mpr (.inl ⟨hk, rfl⟩), fun _ => releasedState_ne _⟩
      · exact ⟨row, Map.lookup_insert_eq_some.mpr (.inr ⟨hk, hrow⟩), id⟩
    generalize j.releaseReservation x.io key' measured = out at hstep ⊢
    obtain ⟨result, j'⟩ := out
    dsimp only at hstep ⊢
    cases hstep with
    | failed => exact hsame
    | orphan row' => exact hclosed row'
    | released row' => exact hclosed row'

theorem raises_reserved_sets {j : Journal} {x : LedgerInput} {key : String}
    (h : Raises (·.budgetReserved.value) key j x) :
    ∃ row, (ledgerStep j x).reservations.lookup key = some row := by
  obtain ⟨hkey, id, row, row', hold, hnew, hlt⟩ := h
  have hmoved : ledgerStep j x ≠ j := by
    intro heq
    rw [heq, hold, Option.some.injEq] at hnew
    rw [hnew] at hlt
    exact lt_irrefl _ hlt
  rcases ledgerStep_keyed hkey with ⟨_, _, _, _, _, hstep⟩ | ⟨_, _, -, hstep⟩
  · generalize ledgerStep j x = j' at hstep hmoved ⊢
    cases hstep with
    | failed | replayed | consumed => exact absurd rfl hmoved
    | reserved => exact ⟨_, by simp; rfl⟩
  · generalize ledgerStep j x = j' at hstep hmoved ⊢
    cases hstep with
    | failed => exact absurd rfl hmoved
    | orphan => exact ⟨_, by simp; rfl⟩
    | released => exact ⟨_, by simp; rfl⟩

theorem not_raises_reserved {j : Journal} {x : LedgerInput} {key : String}
    (hj : LedgerInv j) (hrow : ∃ row, j.reservations.lookup key = some row) :
    ¬ Raises (·.budgetReserved.value) key j x := by
  rintro ⟨hkey, id, row, row', hold, hnew, hlt⟩
  obtain ⟨res, hres⟩ := hrow
  have hsame : j.workflows.lookup id ≠ some row' := by
    rw [hold]
    rintro ⟨⟩
    exact lt_irrefl _ hlt
  rcases ledgerStep_keyed hkey with ⟨_, _, _, _, _, hstep⟩ | ⟨measured, _, -, hstep⟩
  · generalize ledgerStep j x = j' at hstep hnew
    cases hstep with
    | failed | replayed | consumed => exact hsame hnew
    | reserved _ hfree =>
        rw [hfree] at hres
        cases hres
  · generalize ledgerStep j x = j' at hstep hnew
    cases hstep with
    | failed => exact hsame hnew
    | orphan => exact hsame hnew
    | released r w hr hlive hw _ =>
        rcases Map.lookup_insert_eq_some.mp hnew with ⟨rfl, rfl⟩ | ⟨-, h⟩
        · rw [hw, Option.some.injEq] at hold
          subst hold
          have hamount := hj.amounts key r hr
          have hafter := (hj.rows _ _ hw).release_reserved (charge measured r) hamount
            (hj.held_le hr hlive)
          dsimp only [settle] at hlt
          rw [hafter, hj.ledger.reserved _ _ hw] at hlt
          exact absurd hlt (not_lt.mpr (Int.sub_le_self _ hamount))
        · exact hsame h

theorem raises_consumed_sets {j : Journal} {x : LedgerInput} {key : String}
    (h : Raises (·.budgetConsumed.value) key j x) :
    ∃ row, (ledgerStep j x).reservations.lookup key = some row ∧ row.state ≠ .reserved := by
  obtain ⟨hkey, id, row, row', hold, hnew, hlt⟩ := h
  have hsame : j.workflows.lookup id ≠ some row' := by
    rw [hold]
    rintro ⟨⟩
    exact lt_irrefl _ hlt
  rcases ledgerStep_keyed hkey with ⟨_, _, _, _, _, hstep⟩ | ⟨measured, _, -, hstep⟩
  · generalize ledgerStep j x = j' at hstep hnew
    cases hstep with
    | failed | replayed | consumed => exact absurd hnew hsame
    | reserved w _ hw =>
        -- A reservation leaves the second counter alone.
        rcases Map.lookup_insert_eq_some.mp hnew with ⟨rfl, rfl⟩ | ⟨-, h⟩
        · rw [hw, Option.some.injEq] at hold
          subst hold
          exact absurd hlt (lt_irrefl _)
        · exact absurd h hsame
  · generalize ledgerStep j x = j' at hstep hnew ⊢
    cases hstep with
    | failed => exact absurd hnew hsame
    | orphan => exact ⟨_, by simp; rfl, releasedState_ne measured⟩
    | released => exact ⟨_, by simp; rfl, releasedState_ne measured⟩

theorem not_raises_consumed {j : Journal} {x : LedgerInput} {key : String}
    (hrow : ∃ row, j.reservations.lookup key = some row ∧ row.state ≠ .reserved) :
    ¬ Raises (·.budgetConsumed.value) key j x := by
  rintro ⟨hkey, id, row, row', hold, hnew, hlt⟩
  obtain ⟨res, hres, hstate⟩ := hrow
  have hmoved : ledgerStep j x ≠ j := by
    intro heq
    rw [heq, hold, Option.some.injEq] at hnew
    rw [hnew] at hlt
    exact lt_irrefl _ hlt
  rcases ledgerStep_keyed hkey with ⟨_, _, _, _, _, hstep⟩ | ⟨_, _, -, hstep⟩
  · generalize ledgerStep j x = j' at hstep hmoved
    cases hstep with
    | failed | replayed | consumed => exact hmoved rfl
    | reserved _ hfree =>
        rw [hfree] at hres
        cases hres
  · generalize ledgerStep j x = j' at hstep hmoved
    cases hstep with
    | failed => exact hmoved rfl
    | orphan r hr hlive =>
        rw [hr, Option.some.injEq] at hres
        exact hstate (hres ▸ hlive)
    | released r _ hr hlive =>
        rw [hr, Option.some.injEq] at hres
        exact hstate (hres ▸ hlive)

/-! ### Failed calls -/

theorem ledgerStep_of_fails {j : Journal} {x : LedgerInput} (h : x.Fails j) :
    ledgerStep j x = j := by
  unfold LedgerInput.Fails at h
  unfold ledgerStep
  split at h <;> obtain ⟨e, he⟩ := h
  · rename_i a _
    have hstep := admitWorkflow_step x.io a j
    rw [he] at hstep
    generalize (j.admitWorkflow x.io a).2 = j' at hstep
    cases hstep
    rfl
  · rename_i workflowId key purpose tokens microunits _
    have hstep := reserve_step x.io workflowId key purpose tokens microunits j
    rw [he] at hstep
    generalize (j.reserve x.io workflowId key purpose tokens microunits).2 = j' at hstep
    cases hstep
    rfl
  · rename_i key measured _
    have hstep := releaseReservation_step x.io key measured j
    rw [he] at hstep
    generalize (j.releaseReservation x.io key measured).2 = j' at hstep
    cases hstep
    rfl

/-! ### Every run -/

theorem along_amountFits {xs : List LedgerInput} (hxs : ∀ x ∈ xs, x.AmountFits) (j : Journal) :
    Along ledgerStep (fun _ x => x.AmountFits) j xs := by
  induction xs generalizing j with
  | nil => trivial
  | cons x xs ih =>
      exact ⟨hxs x (by simp), ih (fun y hy => hxs y (by simp [hy])) _⟩

/-- In every database that calls with amounts below `2 ^ 63` can produce, the
counters equal what is held by live reservations and stay within the budget;
no key adds to a counter twice; and a call that fails changes nothing. -/
theorem ledger_balanced (xs : List LedgerInput) (hxs : ∀ x ∈ xs, x.AmountFits) :
    Ledger (xs.foldl ledgerStep .empty) ∧
      (∀ key, AtMostOnce ledgerStep (Raises (·.budgetReserved.value) key) .empty xs ∧
        AtMostOnce ledgerStep (Raises (·.budgetConsumed.value) key) .empty xs) ∧
      ∀ (j : Journal) (x : LedgerInput), x.Fails j → ledgerStep j x = j := by
  have hrun := along_amountFits hxs .empty
  have hstep : ∀ j x, LedgerInv j → LedgerInput.AmountFits x → LedgerInv (ledgerStep j x) :=
    fun _ _ hj hx => ledgerStep_inv hj hx
  refine ⟨(hrun.invariant ledgerInv_empty hstep).ledger, fun key => ⟨?_, ?_⟩,
    fun _ _ h => ledgerStep_of_fails h⟩
  · refine atMostOnce_of_flag (Q := fun j => ∃ row, j.reservations.lookup key = some row)
      hrun ledgerInv_empty hstep (fun _ _ _ _ h => raises_reserved_sets h) ?_
      fun _ _ hj _ h => not_raises_reserved hj h
    rintro j x ⟨row, hrow⟩
    obtain ⟨row', hrow', -⟩ := ledgerStep_reservations x hrow
    exact ⟨row', hrow'⟩
  · refine atMostOnce_of_flag
      (Q := fun j => ∃ row, j.reservations.lookup key = some row ∧ row.state ≠ .reserved)
      hrun ledgerInv_empty hstep (fun _ _ _ _ h => raises_consumed_sets h) ?_
      fun _ _ _ _ h => not_raises_consumed h
    rintro j x ⟨row, hrow, hstate⟩
    obtain ⟨row', hrow', hkeep⟩ := ledgerStep_reservations x hrow
    exact ⟨row', hrow', hkeep hstate⟩

/-- An admission, a reservation, its replay, a release and a second release. -/
def chargedOnce : List LedgerInput :=
  [.admitWorkflow
      { workflowId := "wf", requestId := "r", decisionId := "d", payloadHash := "h"
        verdict := "accept", budgetMicrounits := 1000, maxTokens := 100, prompt := "prompt"
        createdAtNs := 1, deadlineNs := 9, intentRevision := 1, questionsRevision := 1
        policyRevision := 1, capabilityCatalogRevision := 1, checkpointRevision := "" },
   .reserve "wf" "call-9" "attempt:x:1" 80 300,
   .reserve "wf" "call-9" "attempt:x:1" 80 300,
   .release "call-9" none,
   .release "call-9" none].map fun call => ⟨fun _ => false, call⟩

theorem chargedOnce_balanced :
    (∀ x ∈ chargedOnce, x.AmountFits) ∧
      ((chargedOnce.foldl ledgerStep .empty).workflows.lookup "wf").map
        (fun w => (w.budgetMicrounits, w.budgetReserved, w.budgetConsumed)) =
        some (1000, .integer 0, .integer 300) ∧
      Ledger (chargedOnce.foldl ledgerStep .empty) := by
  have hfits : ∀ x ∈ chargedOnce, x.AmountFits := by
    simp [chargedOnce, LedgerInput.AmountFits]
  exact ⟨hfits, by decide +kernel, (ledger_balanced chargedOnce hfits).1⟩

end DdsOrchestrator.WorkflowEngine
