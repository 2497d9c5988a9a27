import DdsOrchestrator.WorkflowEngine.Ledger

/-!
The amounts of reservations as `u64`. They are cast to the signed columns without a check,
so an amount from `2 ^ 63` on is stored as a negative one: a reservation of it raises what
is available, and a release that measures it lowers what was consumed. An admission is
safe from this, because a negative budget fails the `CHECK` of its table.

The calls of a run do what they say exactly if no such amount comes through: to a fresh key
of a known workflow, or to a live reservation.
-/

namespace DdsOrchestrator.WorkflowEngine

open Journal Machine

/-! ### What the calls say they do -/

/-- What is left of the budget. -/
def WorkflowRow.available (r : WorkflowRow) : ℤ :=
  r.budgetMicrounits - r.budgetReserved.value - r.budgetConsumed.value

/-- A reservation that is made was affordable and takes its amount from what is available,
a measured release charges what was measured, and an admission stores its budget. -/
def Exact (j : Journal) (x : LedgerInput) : Prop :=
  match x.call with
  | .admitWorkflow a => (j.admitWorkflow x.io a).1 = .ok .admitted →
      ∃ row, (ledgerStep j x).workflows.lookup a.workflowId = some row ∧
        row.budgetMicrounits = a.budgetMicrounits.toNat ∧ row.available = a.budgetMicrounits.toNat
  | .reserve workflowId key purpose tokens microunits =>
      (j.reserve x.io workflowId key purpose tokens microunits).1 =
          .ok (.reserved tokens microunits) →
        ∃ row row', j.workflows.lookup workflowId = some row ∧
          (ledgerStep j x).workflows.lookup workflowId = some row' ∧
          (microunits.toNat : ℤ) ≤ row.available ∧
          row'.available = row.available - microunits.toNat
  | .release key measured => ∀ m, measured = some m →
      (j.releaseReservation x.io key measured).1 = .ok () →
        ∃ res row row', j.reservations.lookup key = some res ∧
          j.workflows.lookup res.workflowId = some row ∧
          (ledgerStep j x).workflows.lookup res.workflowId = some row' ∧
          row'.budgetConsumed.value = row.budgetConsumed.value + m.toNat

/-- The call comes through with an amount that changes its sign. -/
def Overflows (j : Journal) (x : LedgerInput) : Prop :=
  match x.call with
  | .admitWorkflow _ => False
  | .reserve workflowId key _ _ microunits =>
      2 ^ 63 ≤ microunits.toNat ∧ x.io (.reserve key) = false ∧
        j.reservations.lookup key = none ∧ workflowId ∈ j.workflows
  | .release key measured =>
      (∃ m, measured = some m ∧ 2 ^ 63 ≤ m.toNat) ∧ x.io (.releaseReservation key) = false ∧
        ∃ row, j.reservations.lookup key = some row ∧ row.state = .reserved

variable {j j' : Journal} {x : LedgerInput}

theorem WorkflowRow.Counts.available_eq {row : WorkflowRow} {b c : ℤ} (h : row.Counts b c) :
    row.available = row.budgetMicrounits - b - c := by
  rw [WorkflowRow.available, h.reserved, h.consumed]
  rfl

@[simp] theorem WorkflowRow.reserve_budgetMicrounits (w : WorkflowRow) (microunits : UInt64) :
    (w.reserve microunits).budgetMicrounits = w.budgetMicrounits := rfl

@[simp] theorem WorkflowRow.reserve_budgetConsumed (w : WorkflowRow) (microunits : UInt64) :
    (w.reserve microunits).budgetConsumed = w.budgetConsumed := rfl

/-- The columns after a reservation that is granted. -/
theorem WorkflowRow.Within.reserve_value {w : WorkflowRow} {b : ℤ} {microunits : UInt64}
    (h : w.Within b) (hamount : 0 ≤ asI64 microunits) (hgrants : Grants w microunits) :
    asI64 microunits ≤ w.available ∧
      (w.reserve microunits).budgetReserved.value = w.budgetReserved.value + asI64 microunits := by
  obtain ⟨c, hcounts, hc, hle⟩ := h.counts
  have hfits := (h.grants_iff hcounts hc hle).mp hgrants
  have hb := h.nonneg
  have hsmall := h.small
  have hafter := hcounts.reserve microunits ⟨by omega, by omega⟩
  rw [hcounts.available_eq, hafter.reserved, hcounts.reserved]
  exact ⟨hfits, rfl⟩

/-- The columns after a release that the `CHECK` lets through. -/
theorem WorkflowRow.Within.release_value {w : WorkflowRow} {b reserved charged : ℤ}
    (h : w.Within b) (hreserved : 0 ≤ reserved) (hheld : reserved ≤ b) (hcharged : 0 ≤ charged)
    (hcheck : (w.release reserved charged).Check) :
    (w.release reserved charged).budgetReserved.value = w.budgetReserved.value - reserved ∧
      (w.release reserved charged).budgetConsumed.value = w.budgetConsumed.value + charged := by
  obtain ⟨c, hcounts, hc, hle⟩ := h.counts
  obtain ⟨hafter, -⟩ := h.release_counts hcounts hc hle hreserved hheld hcharged hcheck
  rw [hafter.reserved, hafter.consumed, hcounts.reserved, hcounts.consumed]
  exact ⟨rfl, rfl⟩

/-- A negative charge lowers what was consumed. -/
theorem WorkflowRow.Within.release_lowers {w : WorkflowRow} {b charged : ℤ}
    (h : w.Within b) (reserved : ℤ) (hcharged : charged < 0) (hbelow : -2 ^ 63 ≤ charged) :
    (w.release reserved charged).budgetConsumed.value < w.budgetConsumed.value := by
  obtain ⟨c, hcounts, hc, hle⟩ := h.counts
  have hb := h.nonneg
  have hsmall := h.small
  rw [WorkflowRow.release, hcounts.consumed, SqliteNumber.integer_add ⟨by omega, by omega⟩]
  show c + charged < c
  omega

theorem LedgerInv.available_nonneg (hj : LedgerInv j) {id : String} {row : WorkflowRow}
    (hrow : j.workflows.lookup id = some row) :
    0 ≤ row.available ∧ row.available < 2 ^ 63 := by
  obtain ⟨⟨c, hcounts, hc, hle⟩, hb, hsmall⟩ := hj.rows id row hrow
  rw [hcounts.available_eq]
  omega

/-! ### Calls that come through -/

/-- An amount that becomes negative is always affordable. -/
theorem reserve_overflows {io : JournalCall → Bool} {workflowId key : String}
    {microunits : UInt64} (purpose : String) (tokens : UInt64) (hj : LedgerInv j)
    (hlarge : 2 ^ 63 ≤ microunits.toNat) (hio : io (.reserve key) = false)
    (hkey : j.reservations.lookup key = none)
    (hworkflow : workflowId ∈ j.workflows) :
    (j.reserve io workflowId key purpose tokens microunits).1 =
      .ok (.reserved tokens microunits) := by
  obtain ⟨row, hrow⟩ := Map.mem_iff_lookup.mp hworkflow
  have hneg := asI64_neg hlarge
  have hwithin := hj.rows _ _ hrow
  obtain ⟨c, hcounts, hc, hle⟩ := hwithin.counts
  have hgrants : Grants row microunits :=
    (hwithin.grants_iff hcounts hc hle).mpr (by omega)
  rw [reserve_of_grants purpose tokens hio hkey hrow hgrants]

theorem release_overflows {io : JournalCall → Bool} {key : String} {m : UInt64}
    (hj : LedgerInv j) (hlarge : 2 ^ 63 ≤ m.toNat) (hio : io (.releaseReservation key) = false)
    {row : ReservationRow} (hrow : j.reservations.lookup key = some row)
    (hstate : row.state = .reserved) {w : WorkflowRow}
    (hw : j.workflows.lookup row.workflowId = some w) :
    (j.releaseReservation io key (some m)).1 = .ok () := by
  have hneg := asI64_neg hlarge
  have hbelow := neg_le_asI64 m
  obtain ⟨⟨c, hcounts, hc, hle⟩, hb, hsmall⟩ := hj.rows _ _ hw
  have hamount := hj.amounts key row hrow
  have hheld := hj.held_le hrow hstate
  have hafter := hcounts.release row.microunitsReserved (asI64 m)
    ⟨by omega, by omega⟩ ⟨by omega, by omega⟩
  have hcheck : (settle (some m) row w).Check := by
    refine (hafter.check_iff ⟨by omega, by omega⟩).mpr ?_
    show _ ≤ w.budgetMicrounits
    omega
  rw [releaseReservation_of_check hio hrow hstate hw hcheck]

/-- A reservation that does not overflow has a small amount, or is not made. -/
theorem reserve_small_or_idle {io : JournalCall → Bool} {workflowId key : String}
    {microunits : UInt64} (purpose : String) (tokens : UInt64)
    (hx : ¬ (2 ^ 63 ≤ microunits.toNat ∧ io (.reserve key) = false ∧
      j.reservations.lookup key = none ∧ workflowId ∈ j.workflows)) :
    microunits.toNat < 2 ^ 63 ∨
      (j.reserve io workflowId key purpose tokens microunits).2 = j ∧
        (j.reserve io workflowId key purpose tokens microunits).1 ≠
          .ok (.reserved tokens microunits) := by
  by_cases hsmall : microunits.toNat < 2 ^ 63
  · exact .inl hsmall
  refine .inr ?_
  by_cases hio : io (.reserve key) = true
  · simp [reserve, hio]
  have hstep := reserve_step io workflowId key purpose tokens microunits j
  generalize j.reserve io workflowId key purpose tokens microunits = out at hstep ⊢
  obtain ⟨result, j'⟩ := out
  dsimp only at hstep ⊢
  cases hstep with
  | failed e | replayed row | consumed row =>
      refine ⟨rfl, fun h => ?_⟩
      cases h
  | reserved row hkey hrow _ =>
      exact absurd ⟨not_lt.mp hsmall, Bool.eq_false_of_not_eq_true hio, hkey,
        Map.mem_iff_lookup.mpr ⟨row, hrow⟩⟩ hx

/-- A release that does not overflow has a small measure, or fails. -/
theorem release_small_or_idle {io : JournalCall → Bool} {key : String} {measured : Option UInt64}
    (hx : ¬ ((∃ m, measured = some m ∧ 2 ^ 63 ≤ m.toNat) ∧
      io (.releaseReservation key) = false ∧
        ∃ row, j.reservations.lookup key = some row ∧ row.state = .reserved)) :
    (∀ m ∈ measured, m.toNat < 2 ^ 63) ∨
      (j.releaseReservation io key measured).2 = j ∧
        (j.releaseReservation io key measured).1 ≠ .ok () := by
  by_cases hsmall : ∀ m ∈ measured, m.toNat < 2 ^ 63
  · exact .inl hsmall
  refine .inr ?_
  have hlarge : ∃ m, measured = some m ∧ 2 ^ 63 ≤ m.toNat := by
    push Not at hsmall
    obtain ⟨m, hm, hle⟩ := hsmall
    exact ⟨m, hm, hle⟩
  by_cases hio : io (.releaseReservation key) = true
  · simp [releaseReservation, hio]
  have hio := Bool.eq_false_of_not_eq_true hio
  have hstep := releaseReservation_step io key measured j
  generalize j.releaseReservation io key measured = out at hstep ⊢
  obtain ⟨result, j'⟩ := out
  dsimp only at hstep ⊢
  cases hstep with
  | failed e =>
      refine ⟨rfl, fun h => ?_⟩
      cases h
  | orphan row hrow hstate => exact absurd ⟨hlarge, hio, row, hrow, hstate⟩ hx
  | released row _ hrow hstate => exact absurd ⟨hlarge, hio, row, hrow, hstate⟩ hx

theorem LedgerInv.step (hj : LedgerInv j) (hx : ¬ Overflows j x) : LedgerInv (ledgerStep j x) := by
  unfold Overflows at hx
  unfold ledgerStep
  split <;> rename_i hcall <;> rw [hcall] at hx
  · exact (admitWorkflow_step _ _ _).ledgerInv hj
  · rename_i workflowId key purpose tokens microunits
    rcases reserve_small_or_idle purpose tokens hx with hsmall | ⟨hsame, -⟩
    · exact (reserve_step _ _ _ _ _ _ _).ledgerInv hj hsmall
    · rw [hsame]
      exact hj
  · rename_i key measured
    rcases release_small_or_idle hx with hsmall | ⟨hsame, -⟩
    · exact (releaseReservation_step _ _ _ _).ledgerInv hj hsmall
    · rw [hsame]
      exact hj

/-! ### Exactly the calls that do not overflow are exact -/

theorem exact_admit {a : Admission} {io : JournalCall → Bool} :
    Exact j ⟨io, .admitWorkflow a⟩ := by
  unfold Exact ledgerStep
  have hstep := admitWorkflow_step io a j
  dsimp only
  generalize j.admitWorkflow io a = out at hstep ⊢
  obtain ⟨result, j'⟩ := out
  dsimp only at hstep ⊢
  rintro rfl
  cases hstep with
  | admitted _ _ hcheck =>
      have hbudget := asI64_of_lt (Admission.budget_lt_of_check hcheck)
      exact ⟨a.workflowRow, by simp, hbudget, by simp [WorkflowRow.available,
        Admission.workflowRow, hbudget]⟩

theorem exact_reserve_iff {io : JournalCall → Bool} {workflowId key purpose : String}
    {tokens microunits : UInt64} (hj : LedgerInv j) :
    Exact j ⟨io, .reserve workflowId key purpose tokens microunits⟩ ↔
      ¬ Overflows j ⟨io, .reserve workflowId key purpose tokens microunits⟩ := by
  constructor
  · rintro hexact ⟨hlarge, hio, hkey, hworkflow⟩
    obtain ⟨row, -, hrow, -, hle, -⟩ :=
      hexact (reserve_overflows purpose tokens hj hlarge hio hkey hworkflow)
    have havailable := hj.available_nonneg hrow
    omega
  · intro hx
    unfold Exact ledgerStep
    dsimp only
    rcases reserve_small_or_idle purpose tokens hx with
      hsmall | ⟨-, hidle⟩
    · have hstep := reserve_step io workflowId key purpose tokens microunits j
      generalize j.reserve io workflowId key purpose tokens microunits = out at hstep ⊢
      obtain ⟨result, j'⟩ := out
      dsimp only at hstep ⊢
      rintro rfl
      cases hstep with
      | reserved row _ hrow hgrants =>
          obtain ⟨hfits, hvalue⟩ := (hj.rows _ _ hrow).reserve_value (asI64_nonneg hsmall) hgrants
          rw [asI64_of_lt hsmall] at hfits hvalue
          refine ⟨row, _, hrow, AList.lookup_insert .., hfits, ?_⟩
          rw [WorkflowRow.available, WorkflowRow.available, hvalue,
            WorkflowRow.reserve_budgetConsumed, WorkflowRow.reserve_budgetMicrounits]
          omega
    · exact fun h => absurd h hidle

theorem exact_release_iff {io : JournalCall → Bool} {key : String} {measured : Option UInt64}
    (hj : LedgerInv j) :
    Exact j ⟨io, .release key measured⟩ ↔ ¬ Overflows j ⟨io, .release key measured⟩ := by
  constructor
  · rintro hexact ⟨⟨m, rfl, hlarge⟩, hio, row, hrow, hstate⟩
    obtain ⟨v, hv⟩ := Map.mem_iff_lookup.mp (hj.known key row hrow)
    have hok := release_overflows hj hlarge hio hrow hstate hv
    obtain ⟨res, w, w', hres, hw, hw', hcharged⟩ := hexact m rfl hok
    have hstep := releaseReservation_step io key (some m) j
    rw [hok] at hstep
    unfold ledgerStep at hw'
    dsimp only at hw'
    generalize (j.releaseReservation io key (some m)).2 = j' at hstep hw'
    rw [hrow, Option.some.injEq] at hres
    subst hres
    cases hstep with
    | orphan res hres _ hnone =>
        rw [hrow, Option.some.injEq] at hres
        rw [← hres, hw] at hnone
        cases hnone
    | released res v hres _ hv _ =>
        rw [hrow, Option.some.injEq] at hres
        subst hres
        rw [hw, Option.some.injEq] at hv
        subst hv
        rw [AList.lookup_insert, Option.some.injEq] at hw'
        subst hw'
        have hlower := (hj.rows _ _ hw).release_lowers row.microunitsReserved
          (asI64_neg hlarge) (neg_le_asI64 m)
        simp only [settle, charge, Option.map_some, Option.getD_some] at hcharged
        omega
  · intro hx
    unfold Exact ledgerStep
    dsimp only
    rintro m rfl
    rcases release_small_or_idle hx with hsmall | ⟨-, hidle⟩
    · have hstep := releaseReservation_step io key (some m) j
      generalize j.releaseReservation io key (some m) = out at hstep ⊢
      obtain ⟨result, j'⟩ := out
      dsimp only at hstep ⊢
      rintro rfl
      cases hstep with
      | orphan row hrow _ hnone =>
          exact absurd (hj.known key row hrow) (AList.lookup_eq_none.mp hnone)
      | released row w hrow hstate hw hcheck =>
          have hvalue := ((hj.rows _ _ hw).release_value (hj.amounts key row hrow)
            (hj.held_le hrow hstate) (hj.charge_nonneg hrow hsmall) hcheck).2
          refine ⟨row, w, _, hrow, hw, AList.lookup_insert .., ?_⟩
          rw [settle, hvalue, charge, Option.map_some, Option.getD_some,
            asI64_of_lt (hsmall m rfl)]
    · exact fun h => absurd h hidle

theorem exact_iff (hj : LedgerInv j) : Exact j x ↔ ¬ Overflows j x := by
  obtain ⟨io, call⟩ := x
  cases call with
  | admitWorkflow a => exact iff_of_true exact_admit id
  | reserve workflowId key purpose tokens microunits => exact exact_reserve_iff hj
  | release key measured => exact exact_release_iff hj

/-! ### What a workflow is granted -/

/-- What a call adds to the total of a workflow: the amount of a reservation that is made,
and what a release charges less what it gives back. -/
def granted (id : String) (j : Journal) (x : LedgerInput) : List ℤ :=
  match x.call with
  | .admitWorkflow _ => []
  | .reserve workflowId key purpose tokens microunits =>
      if workflowId = id ∧ (j.reserve x.io workflowId key purpose tokens microunits).1 =
          .ok (.reserved tokens microunits) then [(microunits.toNat : ℤ)] else []
  | .release key measured =>
      match measured, j.reservations.lookup key with
      | some m, some row =>
          if row.workflowId = id ∧ (j.releaseReservation x.io key measured).1 = .ok () then
            [(m.toNat : ℤ) - row.microunitsReserved] else []
      | _, _ => []

/-- The counters of the workflow add up to what it was granted since its admission. -/
structure Accounts (id : String) (budget : Nat) (grants : List ℤ) (j : Journal) : Prop
    extends LedgerInv j where
  total : ∃ row, j.workflows.lookup id = some row ∧ row.budgetMicrounits = budget ∧
    row.budgetReserved.value + row.budgetConsumed.value = grants.sum

variable {id : String} {budget : Nat} {grants : List ℤ}

theorem Accounts.reserve (h : Accounts id budget grants j) {io : JournalCall → Bool}
    {workflowId key purpose : String} {tokens microunits : UInt64}
    (hx : ¬ Overflows j ⟨io, .reserve workflowId key purpose tokens microunits⟩) :
    ∃ row, (j.reserve io workflowId key purpose tokens microunits).2.workflows.lookup id =
        some row ∧ row.budgetMicrounits = budget ∧
      row.budgetReserved.value + row.budgetConsumed.value =
        (grants ++ granted id j ⟨io, .reserve workflowId key purpose tokens microunits⟩).sum := by
  obtain ⟨row, hrow, hbudget, htotal⟩ := h.total
  unfold granted
  dsimp only
  rcases reserve_small_or_idle purpose tokens hx with
    hsmall | ⟨hsame, hidle⟩
  · have hstep := reserve_step io workflowId key purpose tokens microunits j
    generalize j.reserve io workflowId key purpose tokens microunits = out at hstep ⊢
    obtain ⟨result, j'⟩ := out
    dsimp only at hstep ⊢
    cases hstep with
    | failed | replayed | consumed => exact ⟨row, hrow, hbudget, by simpa using htotal⟩
    | reserved w _ hw hgrants =>
        by_cases hid : workflowId = id
        · subst hid
          rw [hrow, Option.some.injEq] at hw
          subst hw
          have hvalue := ((h.rows _ _ hrow).reserve_value (asI64_nonneg hsmall) hgrants).2
          refine ⟨_, AList.lookup_insert .., hbudget, ?_⟩
          rw [if_pos ⟨rfl, rfl⟩, List.sum_append, List.sum_singleton, hvalue,
            WorkflowRow.reserve_budgetConsumed, asI64_of_lt hsmall]
          omega
        · rw [if_neg fun h => hid h.1, List.append_nil]
          exact ⟨row, (AList.lookup_insert_ne (Ne.symm hid)).trans hrow, hbudget, htotal⟩
  · rw [if_neg fun h => hidle h.2, List.append_nil, hsame]
    exact ⟨row, hrow, hbudget, htotal⟩

/-- A release adds what it charges beyond what was reserved. -/
theorem sum_granted_release {io : JournalCall → Bool} {key : String} {measured : Option UInt64}
    {res : ReservationRow} (hres : j.reservations.lookup key = some res)
    (hok : (j.releaseReservation io key measured).1 = .ok ())
    (hsmall : ∀ m ∈ measured, m.toNat < 2 ^ 63) :
    (granted id j ⟨io, .release key measured⟩).sum =
      if res.workflowId = id then charge measured res - res.microunitsReserved else 0 := by
  unfold granted
  dsimp only
  cases measured with
  | none => simp [charge]
  | some m =>
      have hcharge : charge (some m) res = m.toNat := by
        simp [charge, asI64_of_lt (hsmall m rfl)]
      rw [hres, hok, hcharge]
      by_cases hid : res.workflowId = id
      · simp [hid]
      · simp [hid]

theorem granted_release_failed {io : JournalCall → Bool} {key : String}
    {measured : Option UInt64} (hfails : (j.releaseReservation io key measured).1 ≠ .ok ()) :
    granted id j ⟨io, .release key measured⟩ = [] := by
  unfold granted
  dsimp only
  split
  · rw [if_neg fun h => hfails h.2]
  · rfl

theorem Accounts.release (h : Accounts id budget grants j) {io : JournalCall → Bool}
    {key : String} {measured : Option UInt64} (hx : ¬ Overflows j ⟨io, .release key measured⟩) :
    ∃ row, (j.releaseReservation io key measured).2.workflows.lookup id = some row ∧
      row.budgetMicrounits = budget ∧
      row.budgetReserved.value + row.budgetConsumed.value =
        (grants ++ granted id j ⟨io, .release key measured⟩).sum := by
  obtain ⟨row, hrow, hbudget, htotal⟩ := h.total
  rcases release_small_or_idle hx with hsmall | ⟨hsame, hidle⟩
  · have hstep := releaseReservation_step io key measured j
    generalize hout : j.releaseReservation io key measured = out at hstep ⊢
    obtain ⟨result, j'⟩ := out
    have hresult := congrArg Prod.fst hout
    dsimp only at hstep hresult ⊢
    cases hstep with
    | failed =>
        rw [granted_release_failed (by rw [hresult]; exact nofun), List.append_nil]
        exact ⟨row, hrow, hbudget, htotal⟩
    | orphan res hres _ hnone =>
        exact absurd (h.known key res hres) (AList.lookup_eq_none.mp hnone)
    | released res w hres hstate hw hcheck =>
        rw [List.sum_append, sum_granted_release hres hresult hsmall]
        by_cases hid : res.workflowId = id
        · subst hid
          rw [hrow, Option.some.injEq] at hw
          subst hw
          obtain ⟨hreserved, hconsumed⟩ := (h.rows _ _ hrow).release_value (h.amounts key res hres)
            (h.held_le hres hstate) (h.toLedgerInv.charge_nonneg hres hsmall) hcheck
          refine ⟨_, AList.lookup_insert .., hbudget, ?_⟩
          rw [if_pos rfl, settle, hreserved, hconsumed]
          omega
        · rw [if_neg hid, add_zero]
          exact ⟨row, (AList.lookup_insert_ne (Ne.symm hid)).trans hrow, hbudget, htotal⟩
  · rw [hsame, granted_release_failed hidle, List.append_nil]
    exact ⟨row, hrow, hbudget, htotal⟩

theorem Accounts.step (h : Accounts id budget grants j) (hx : ¬ Overflows j x) :
    Accounts id budget (grants ++ granted id j x) (ledgerStep j x) := by
  refine ⟨h.toLedgerInv.step hx, ?_⟩
  obtain ⟨io, call⟩ := x
  cases call with
  | admitWorkflow a =>
      obtain ⟨row, hrow, hbudget, htotal⟩ := h.total
      have hstep := admitWorkflow_step io a j
      unfold ledgerStep granted
      dsimp only
      rw [List.append_nil]
      generalize j.admitWorkflow io a = out at hstep ⊢
      obtain ⟨result, j'⟩ := out
      dsimp only at hstep ⊢
      cases hstep with
      | failed | replay | conflict => exact ⟨row, hrow, hbudget, htotal⟩
      | admitted _ hnone _ =>
          have hid : id ≠ a.workflowId := by
            rintro rfl
            rw [hrow] at hnone
            cases hnone
          exact ⟨row, by simp [AList.lookup_insert_ne hid, hrow], hbudget, htotal⟩
  | reserve workflowId key purpose tokens microunits => exact h.reserve hx
  | release key measured => exact h.release hx

/-- The admission of a workflow opens its account. -/
theorem accounts_of_admitted {io : JournalCall → Bool} {a : Admission} (hj : LedgerInv j)
    (h : (j.admitWorkflow io a).1 = .ok .admitted) :
    Accounts a.workflowId a.budgetMicrounits.toNat [] (ledgerStep j ⟨io, .admitWorkflow a⟩) := by
  refine ⟨hj.step (x := ⟨io, .admitWorkflow a⟩) id, ?_⟩
  have hstep := admitWorkflow_step io a j
  unfold ledgerStep
  dsimp only
  generalize j.admitWorkflow io a = out at h hstep ⊢
  obtain ⟨result, j'⟩ := out
  dsimp only at h hstep ⊢
  subst h
  cases hstep with
  | admitted _ _ hcheck =>
      exact ⟨a.workflowRow, by simp, asI64_of_lt (Admission.budget_lt_of_check hcheck), by
        simp [Admission.workflowRow]⟩

/-- The calls of a run are exact if and only if none comes through with an amount from
`2 ^ 63` on. In such a run what a workflow is granted after its admission never totals more
than its budget. -/
theorem reservations_exact_iff (xs : List LedgerInput) :
    (Along ledgerStep Exact .empty xs ↔
      Along ledgerStep (fun j x => ¬ Overflows j x) .empty xs) ∧
    ∀ before io a later after, xs = before ++ ⟨io, .admitWorkflow a⟩ :: (later ++ after) →
      Along ledgerStep (fun j x => ¬ Overflows j x) .empty xs →
        ((before.foldl ledgerStep .empty).admitWorkflow io a).1 = .ok .admitted →
          (trace ledgerStep (granted a.workflowId)
            ((before ++ [⟨io, .admitWorkflow a⟩]).foldl ledgerStep .empty) later).sum ≤
              a.budgetMicrounits.toNat := by
  refine ⟨⟨fun h => ?_, fun h => ?_⟩, ?_⟩
  · exact h.of_invariant ledgerInv_empty (fun j x hj hx => hj.step ((exact_iff hj).mp hx))
      fun j x hj => (exact_iff hj).mp
  · exact h.of_invariant ledgerInv_empty (fun j x hj hx => hj.step hx)
      fun j x hj => (exact_iff hj).mpr
  · rintro before io a later after rfl hrun hadmitted
    rw [along_append, along_cons, along_append] at hrun
    obtain ⟨hbefore, -, hlater, -⟩ := hrun
    have hbalanced := hbefore.invariant ledgerInv_empty fun j x hj hx => hj.step hx
    have hopen := accounts_of_admitted hbalanced hadmitted
    have hend : Accounts a.workflowId a.budgetMicrounits.toNat
        (trace ledgerStep (granted a.workflowId) _ later) (later.foldl ledgerStep _) :=
      hlater.trace_invariant_nil hopen fun grants j x hj hx => hj.step hx
    obtain ⟨row, hrow, hbudget, htotal⟩ := hend.total
    have hcapped := hend.ledger.capped _ row hrow
    rw [List.foldl_append, List.foldl_cons, List.foldl_nil]
    omega

/-- The workflow `wf` with a budget of 1000. -/
def thousand : Admission where
  workflowId := "wf"
  requestId := "r"
  decisionId := "d"
  payloadHash := "h"
  verdict := "v"
  budgetMicrounits := 1000
  maxTokens := 10
  prompt := "p"
  createdAtNs := 1
  deadlineNs := 100
  intentRevision := 1
  questionsRevision := 1
  policyRevision := 1
  capabilityCatalogRevision := 1
  checkpointRevision := ""

/-- A reservation of `2 ^ 63` from a budget of 1000 is made, its release charges a negative
amount, and while it is live no number is left to reserve from. After one of `2 ^ 64 - 2000`
there are 3000 left. -/
theorem large_reservation_made :
    let admitted := (Journal.empty.admitWorkflow (fun _ => false) thousand).2
    let first := admitted.reserve (fun _ => false) "wf" "k1" "planner" 1 9223372036854775808
    let second := first.2.reserve (fun _ => false) "wf" "k2" "planner" 1 2000
    let released := first.2.releaseReservation (fun _ => false) "k1" (some 9223372036854775808)
    let raised := admitted.reserve (fun _ => false) "wf" "k1" "planner" 1 18446744073709549616
    let taken := raised.2.reserve (fun _ => false) "wf" "k2" "planner" 1 3000
    first.1 = .ok (.reserved 1 9223372036854775808) ∧ second.1 = .error remainingNotInteger ∧
      released.1 = .ok () ∧
      (released.2.workflows.lookup "wf").map (·.budgetConsumed) =
        some (.integer (-9223372036854775808)) ∧
      raised.1 = .ok (.reserved 1 18446744073709549616) ∧ taken.1 = .ok (.reserved 1 3000) := by
  decide +kernel

end DdsOrchestrator.WorkflowEngine
