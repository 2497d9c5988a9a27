import DdsOrchestrator.WorkflowEngine.Coherence

/-!
What the attempt rows of a node, its reservations, its progress in memory and
the task index know of each other. An attempt beyond the first exists only
after the first was closed and its reservation consumed, so a process that
starts over at the first attempt finds that reservation consumed.

The invariant needs two calls of the journal not to fail: a release, whose
failure the engine ignores, and the reading of an attempt, which recovery
passes over when it fails.
-/

namespace DdsOrchestrator.WorkflowEngine

open Loop EngineRuntime Machine EngineState

/-! ### Reservations only move forward -/

/-- The reservation is consumed. -/
def Journal.Spent (j : Journal) (key : String) : Prop :=
  ∃ row, j.reservations.lookup key = some row ∧ row.state ≠ .reserved

structure KeysGrow (j j' : Journal) : Prop where
  held : ∀ key ∈ j.reservations, key ∈ j'.reservations
  spent : ∀ key, j.Spent key → j'.Spent key

section Keys

variable {j j' j'' : Journal}

theorem KeysGrow.of_eq (h : j'.reservations = j.reservations) : KeysGrow j j' :=
  ⟨fun _ hkey => h ▸ hkey, fun _ ⟨row, hrow, hstate⟩ => ⟨row, h ▸ hrow, hstate⟩⟩

theorem KeysGrow.trans (h : KeysGrow j j') (h' : KeysGrow j' j'') : KeysGrow j j'' :=
  ⟨fun key hkey => h'.held key (h.held key hkey), fun key hkey => h'.spent key (h.spent key hkey)⟩

/-- A reservation written over one that was not consumed, or consumed now. -/
theorem KeysGrow.insert {key : String} {row : ReservationRow} (workflows : Map String WorkflowRow)
    (hrow : j.Spent key → row.state ≠ .reserved) :
    KeysGrow j { j with
      workflows := workflows, reservations := j.reservations.insert key row } := by
  refine ⟨fun k hk => by simp [hk], ?_⟩
  rintro k ⟨old, hold, hstate⟩
  by_cases heq : k = key
  · subst heq
    exact ⟨row, Map.lookup_insert_eq_some.mpr (.inl ⟨rfl, rfl⟩), hrow ⟨old, hold, hstate⟩⟩
  · exact ⟨old, Map.lookup_insert_eq_some.mpr (.inr ⟨heq, hold⟩), hstate⟩

theorem Journal.ReserveStep.keysGrow {workflowId key purpose : String}
    {tokens microunits : UInt64} {result : Except JournalError Journal.ReserveOutcome}
    (h : Journal.ReserveStep workflowId key purpose tokens microunits j result j') :
    KeysGrow j j' := by
  cases h with
  | failed | replayed | consumed => exact .of_eq rfl
  | reserved row hkey =>
      refine .insert _ ?_
      rintro ⟨old, hold, -⟩
      exact absurd (hkey.symm.trans hold) (by simp)

theorem Journal.releaseReservation_keysGrow (io : JournalCall → Bool) (key : String)
    (measured : Option UInt64) (j : Journal) :
    KeysGrow j (j.releaseReservation io key measured).2 := by
  have h := Journal.releaseReservation_step io key measured j
  generalize j.releaseReservation io key measured = out at h ⊢
  obtain ⟨result, j'⟩ := out
  cases h with
  | failed => exact .of_eq rfl
  | orphan row => exact .insert j.workflows fun _ => Journal.releasedState_ne _
  | released row w => exact .insert _ fun _ => Journal.releasedState_ne _

/-- A release that does not fail leaves no reservation under its key unspent. -/
theorem Journal.releaseReservation_spent {io : JournalCall → Bool} {key : String}
    (hio : io (.releaseReservation key) = false) (hfree : j.Releasable key)
    (hkey : key ∈ j.reservations) : (j.releaseReservation io key none).2.Spent key := by
  obtain ⟨row, hrow⟩ := Map.mem_iff_lookup.mp hkey
  by_cases hstate : row.state = .reserved
  · have hafter := Journal.releaseReservation_of_reserved hio hrow hstate hfree
    refine ⟨{ row with state := .consumedFull }, ?_, by simp⟩
    rw [hafter]
    exact Map.lookup_insert_eq_some.mpr (.inl ⟨rfl, rfl⟩)
  · exact (Journal.releaseReservation_keysGrow io key none j).spent key ⟨row, hrow, hstate⟩

theorem Journal.RecordStep.reservations_eq {key : AttemptKey} {taskId : String}
    {state : AttemptState} {result : Except JournalError Unit}
    (h : Journal.RecordStep key taskId state j result j') :
    j'.reservations = j.reservations := by
  cases h <;> rfl

end Keys

/-! ### The rows and the progress of a node -/

/-- The state of an attempt, if it has a row. -/
def attemptAt (j : Journal) (wf node : String) (attempt : Nat) : Option AttemptState :=
  (j.attempts.lookup (wf, node, attempt)).map (·.state)

/-- The first attempt failed or is in doubt, and its reservation is consumed. -/
structure FirstClosed (j : Journal) (wf node : String) : Prop where
  row : attemptAt j wf node 1 = some .failed ∨ attemptAt j wf node 1 = some .inDoubt
  spent : j.Spent (reservationKey wf node 1)

structure RowsOk (j : Journal) (wf node : String) : Prop where
  positive : ∀ a, (attemptAt j wf node a).isSome → 1 ≤ a
  later : ∀ a, (attemptAt j wf node a).isSome → 2 ≤ a → FirstClosed j wf node
  failed : attemptAt j wf node 1 = some .failed → j.Spent (reservationKey wf node 1)

/-- Some task of the node is indexed. -/
def Indexed (index : Map String (String × String)) (wf node : String) : Prop :=
  ∃ taskId, index.lookup taskId = some (wf, node)

/-- What an operation sees of its node. -/
structure NodeView where
  journal : Journal
  index : Map String (String × String)
  terminal : Bool
  progress : NodeProgress

namespace NodeView

variable (v : NodeView) (wf node : String)

def active : Nat := v.progress.activeAttempt

/-- The node can still be watched: it is indexed and its workflow is live. -/
structure Open : Prop where
  indexed : Indexed v.index wf node
  live : v.terminal = false
  undone : v.progress.done = false

end NodeView

structure ProgressOk (wf node : String) (v : NodeView) : Prop where
  active : 1 ≤ v.active
  later : 2 ≤ v.active → FirstClosed v.journal wf node
  ahead : v.progress.inDoubt = false → v.progress.done = false → 2 ≤ v.active →
    ∀ a, v.active < a → attemptAt v.journal wf node a = none
  /-- The index knows only attempts that were recorded and reserved. -/
  indexed : ∀ taskId, v.index.lookup taskId = some (wf, node) →
    ∃ a, 1 ≤ a ∧ a ≤ v.active ∧ taskId = laya1TaskId wf 1 node a ∧
      (attemptAt v.journal wf node a).isSome ∧ reservationKey wf node a ∈ v.journal.reservations
  /-- What can still be watched has no attempt ahead and has not failed. -/
  clear : v.Open wf node → ∀ a, v.active < a → attemptAt v.journal wf node a = none
  unfailed : v.Open wf node → v.active = 1 → attemptAt v.journal wf node 1 ≠ some .failed
  doubt : v.progress.inDoubt = true → v.Open wf node →
    (attemptAt v.journal wf node v.active).isSome →
    v.journal.Spent (reservationKey wf node v.active)

/-- The rows of the node are as before, or in doubt now. -/
def RowsKept (j j' : Journal) (wf node : String) : Prop :=
  ∀ a, attemptAt j' wf node a = attemptAt j wf node a ∨
    (attemptAt j wf node a).isSome ∧ attemptAt j' wf node a = some .inDoubt

section Frames

variable {j j' : Journal} {wf node : String} {v v' : NodeView}

theorem RowsKept.of_eq (h : ∀ a, attemptAt j' wf node a = attemptAt j wf node a) :
    RowsKept j j' wf node := fun a => .inl (h a)

theorem RowsKept.isSome (h : RowsKept j j' wf node) (a : Nat) :
    (attemptAt j' wf node a).isSome = (attemptAt j wf node a).isSome := by
  rcases h a with heq | ⟨hsome, heq⟩
  · rw [heq]
  · rw [heq, hsome]
    rfl

theorem RowsKept.none (h : RowsKept j j' wf node) {a : Nat} (hnone : attemptAt j wf node a = none) :
    attemptAt j' wf node a = none := by
  have := h.isSome a
  rw [hnone] at this
  simpa using this

theorem RowsKept.failed (h : RowsKept j j' wf node) {a : Nat}
    (hfailed : attemptAt j' wf node a = some .failed) :
    attemptAt j wf node a = some .failed := by
  rcases h a with heq | ⟨-, heq⟩
  · exact heq ▸ hfailed
  · rw [heq] at hfailed
    cases hfailed

theorem FirstClosed.of_row (h : FirstClosed j wf node)
    (hrow : attemptAt j' wf node 1 = attemptAt j wf node 1) (hkeys : KeysGrow j j') :
    FirstClosed j' wf node :=
  ⟨hrow ▸ h.row, hkeys.spent _ h.spent⟩

theorem FirstClosed.frame (h : FirstClosed j wf node) (hrows : RowsKept j j' wf node)
    (hkeys : KeysGrow j j') : FirstClosed j' wf node := by
  rcases hrows 1 with heq | ⟨-, heq⟩
  · exact h.of_row heq hkeys
  · exact ⟨.inr heq, hkeys.spent _ h.spent⟩

theorem RowsOk.frame (h : RowsOk j wf node) (hrows : RowsKept j j' wf node)
    (hkeys : KeysGrow j j') : RowsOk j' wf node := by
  refine ⟨fun a ha => h.positive a (hrows.isSome a ▸ ha), fun a ha hle => ?_, fun hfailed => ?_⟩
  · exact (h.later a (hrows.isSome a ▸ ha) hle).frame hrows hkeys
  · exact hkeys.spent _ (h.failed (hrows.failed hfailed))

/-- The attempt does not move; a node may be done or in doubt now. -/
structure Unmoved (wf node : String) (v v' : NodeView) : Prop where
  index : ∀ t, v'.index.lookup t = some (wf, node) → v.index.lookup t = some (wf, node)
  live : v'.terminal = false → v.terminal = false
  active : v'.active = v.active
  undone : v'.progress.done = false → v.progress.done = false
  clear : v'.progress.inDoubt = false → v.progress.inDoubt = false
  doubt : v'.progress.inDoubt = true → v.progress.inDoubt = true ∨
    v'.journal.Spent (reservationKey wf node v.active)

theorem Unmoved.open_of (h : Unmoved wf node v v') (hopen : v'.Open wf node) :
    v.Open wf node := by
  obtain ⟨⟨t, ht⟩, hlive, hundone⟩ := hopen
  exact ⟨⟨t, h.index t ht⟩, h.live hlive, h.undone hundone⟩

theorem ProgressOk.frame (hv : ProgressOk wf node v) (h : Unmoved wf node v v')
    (hrows : RowsKept v.journal v'.journal wf node) (hkeys : KeysGrow v.journal v'.journal) :
    ProgressOk wf node v' := by
  refine ⟨?_, ?_, ?_, ?_, ?_, ?_, ?_⟩
  · rw [h.active]
    exact hv.active
  · intro hle
    exact (hv.later (h.active ▸ hle)).frame hrows hkeys
  · intro hclear hundone hle a ha
    rw [h.active] at hle ha
    exact hrows.none (hv.ahead (h.clear hclear) (h.undone hundone) hle a ha)
  · intro t ht
    obtain ⟨a, hpos, hle, htask, hrow, hkey⟩ := hv.indexed t (h.index t ht)
    exact ⟨a, hpos, h.active ▸ hle, htask, hrows.isSome a ▸ hrow, hkeys.held _ hkey⟩
  · intro hopen a ha
    exact hrows.none (hv.clear (h.open_of hopen) a (h.active ▸ ha))
  · intro hopen hone hfailed
    exact hv.unfailed (h.open_of hopen) (h.active ▸ hone) (hrows.failed hfailed)
  · intro hdoubt hopen hrow
    rw [h.active] at hrow ⊢
    rcases h.doubt hdoubt with hold | hspent
    · exact hkeys.spent _ (hv.doubt hold (h.open_of hopen) (hrows.isSome _ ▸ hrow))
    · exact hspent

end Frames

/-! ### What an operation does to its node -/

/-- The row of the active attempt is written, and no other. -/
def RowWritten (wf node : String) (state : AttemptState) (v v' : NodeView) : Prop :=
  ∀ a, attemptAt v'.journal wf node a =
    if a = v.active then some state else attemptAt v.journal wf node a

/-- The effect of an operation on the node it is about. -/
inductive NodeEffect (wf node : String) (v v' : NodeView) : Prop
  | kept (hrows : ∀ a, attemptAt v'.journal wf node a = attemptAt v.journal wf node a)
      (hsame : Unmoved wf node v v')
  | recorded (hrows : RowWritten wf node .published v v')
      (hindex : ∀ t, v'.index.lookup t = some (wf, node) →
        v.index.lookup t = some (wf, node) ∨ t = laya1TaskId wf 1 node v.active)
      (hlive : v.terminal = false) (hdone : v.progress.done = false)
      (hdoubt : v.progress.inDoubt = false)
      (hfree : ¬ v.journal.Spent (reservationKey wf node v.active))
      (hheld : reservationKey wf node v.active ∈ v'.journal.reservations)
      (hp : v'.progress = v.progress)
  | finished (hopen : v.Open wf node) (hrows : RowWritten wf node .done v v')
      (hindex : ∀ t, v'.index.lookup t = some (wf, node) → v.index.lookup t = some (wf, node))
      (hactive : v'.active = v.active) (hdone : v'.progress.done = true)
  | retried (hopen : v.Open wf node) (hrows : RowWritten wf node .failed v v')
      (hindex : ∀ t, v'.index.lookup t = some (wf, node) → v.index.lookup t = some (wf, node))
      (hspent : v.journal.Releasable (reservationKey wf node v.active) →
        reservationKey wf node v.active ∈ v.journal.reservations →
          v'.journal.Spent (reservationKey wf node v.active))
      (hp : v'.progress = { v.progress with activeAttempt := v.active + 1 })
  | closed (hopen : v.Open wf node) (hrows : RowWritten wf node .failed v v')
      (hindex : ∀ t, v'.index.lookup t = some (wf, node) → v.index.lookup t = some (wf, node))
      (hspent : v.journal.Releasable (reservationKey wf node v.active) →
        reservationKey wf node v.active ∈ v.journal.reservations →
          v'.journal.Spent (reservationKey wf node v.active))
      (hp : v'.progress = { v.progress with failed := true }) (hterminal : v'.terminal = true)

section Effects

variable {wf node : String} {state : AttemptState} {v v' : NodeView}

theorem RowWritten.active (h : RowWritten wf node state v v') :
    attemptAt v'.journal wf node v.active = some state := by
  rw [h, if_pos rfl]

theorem RowWritten.other (h : RowWritten wf node state v v') {a : Nat} (ha : a ≠ v.active) :
    attemptAt v'.journal wf node a = attemptAt v.journal wf node a := by
  rw [h, if_neg ha]

theorem RowWritten.isSome (h : RowWritten wf node state v v') {a : Nat}
    (ha : (attemptAt v.journal wf node a).isSome) : (attemptAt v'.journal wf node a).isSome := by
  rw [h]
  split
  · rfl
  · exact ha

theorem RowWritten.firstClosed (h : RowWritten wf node state v v')
    (hkeys : KeysGrow v.journal v'.journal) (hle : 2 ≤ v.active)
    (hclosed : FirstClosed v.journal wf node) : FirstClosed v'.journal wf node :=
  hclosed.of_row (h.other (by omega)) hkeys

/-- The first attempt is written only while no later one exists. -/
theorem RowsOk.written (hrows : RowsOk v.journal wf node) (hv : ProgressOk wf node v)
    (h : RowWritten wf node state v v') (hkeys : KeysGrow v.journal v'.journal)
    (hfirst : ∀ a, v.active = 1 → 2 ≤ a → attemptAt v.journal wf node a = none)
    (hfailed : state = .failed → v.active = 1 → v'.journal.Spent (reservationKey wf node 1)) :
    RowsOk v'.journal wf node := by
  refine ⟨fun a ha => ?_, fun a ha hle => ?_, fun hstate => ?_⟩
  · by_cases heq : a = v.active
    · exact heq ▸ hv.active
    · exact hrows.positive a (h.other heq ▸ ha)
  · rcases hv.active.eq_or_lt with hone | htwo
    · have hnone := hfirst a hone.symm hle
      have hsome : (attemptAt v'.journal wf node a).isSome := ha
      rw [h.other (by omega), hnone] at hsome
      cases hsome
    · refine h.firstClosed hkeys htwo ?_
      by_cases heq : a = v.active
      · exact hv.later htwo
      · exact hrows.later a (h.other heq ▸ ha) hle
  · by_cases hone : v.active = 1
    · have hrow : attemptAt v'.journal wf node 1 = some state := hone ▸ h.active
      exact hfailed (Option.some.inj (hrow.symm.trans hstate)) hone
    · exact hkeys.spent _ (hrows.failed (h.other (Ne.symm hone) ▸ hstate))

/-- An open node has the reservation of its first attempt. -/
theorem ProgressOk.held (hv : ProgressOk wf node v) (hopen : v.Open wf node)
    (hone : v.active = 1) : reservationKey wf node 1 ∈ v.journal.reservations := by
  obtain ⟨t, ht⟩ := hopen.indexed
  obtain ⟨a, hpos, hle, -, -, hkey⟩ := hv.indexed t ht
  obtain rfl : a = 1 := by omega
  exact hkey

/-- While the first attempt is not spent, there is no later one. -/
theorem RowsOk.none_of_free (hrows : RowsOk v.journal wf node)
    (hfree : ¬ v.journal.Spent (reservationKey wf node v.active)) (a : Nat) (hone : v.active = 1)
    (hle : 2 ≤ a) : attemptAt v.journal wf node a = none := by
  by_contra hsome
  have hsome : (attemptAt v.journal wf node a).isSome := Option.isSome_iff_ne_none.mpr hsome
  exact hfree (hone ▸ (hrows.later a hsome hle).spent)

theorem NodeEffect.rowsOk (h : NodeEffect wf node v v') (hrows : RowsOk v.journal wf node)
    (hv : ProgressOk wf node v) (hkeys : KeysGrow v.journal v'.journal)
    (hfree : ∀ key, v.journal.Releasable key) : RowsOk v'.journal wf node := by
  cases h with
  | kept hsame => exact hrows.frame (.of_eq hsame) hkeys
  | recorded hw hindex hlive hdone hdoubt hunspent =>
      exact hrows.written hv hw hkeys (hrows.none_of_free hunspent) (by simp)
  | finished hopen hw =>
      exact hrows.written hv hw hkeys
        (fun a hone hle => hv.clear hopen a (by omega)) (by simp)
  | retried hopen hw hindex hspent | closed hopen hw hindex hspent =>
      refine hrows.written hv hw hkeys (fun a hone hle => hv.clear hopen a (by omega)) ?_
      intro _ hone
      rw [hone] at hspent
      exact hspent (hfree _) (hv.held hopen hone)

/-- The entries of the index after a row was written. -/
theorem ProgressOk.indexed_written (hv : ProgressOk wf node v)
    (h : RowWritten wf node state v v') (hkeys : KeysGrow v.journal v'.journal)
    (hle : v.active ≤ v'.active) {t : String} (ht : v.index.lookup t = some (wf, node)) :
    ∃ a, 1 ≤ a ∧ a ≤ v'.active ∧ t = laya1TaskId wf 1 node a ∧
      (attemptAt v'.journal wf node a).isSome ∧
      reservationKey wf node a ∈ v'.journal.reservations := by
  obtain ⟨a, hpos, hbound, htask, hrow, hkey⟩ := hv.indexed t ht
  exact ⟨a, hpos, hbound.trans hle, htask, h.isSome hrow, hkeys.held _ hkey⟩

theorem NodeEffect.progressOk (h : NodeEffect wf node v v') (hrows : RowsOk v.journal wf node)
    (hv : ProgressOk wf node v) (hkeys : KeysGrow v.journal v'.journal)
    (hfree : ∀ key, v.journal.Releasable key) : ProgressOk wf node v' := by
  cases h with
  | kept hsame hunmoved => exact hv.frame hunmoved (.of_eq hsame) hkeys
  | recorded hw hindex hlive hdone hdoubt hunspent hheld hp =>
      have hactive : v'.active = v.active := by rw [NodeView.active, hp, NodeView.active]
      have hclear : ∀ a, v.active < a → attemptAt v'.journal wf node a = none := by
        intro a ha
        rw [hw.other (by omega)]
        rcases hv.active.eq_or_lt with hone | htwo
        · exact hrows.none_of_free hunspent a hone.symm (by omega)
        · exact hv.ahead hdoubt hdone htwo a ha
      refine ⟨?_, ?_, ?_, ?_, ?_, ?_, ?_⟩
      · rw [hactive]
        exact hv.active
      · rw [hactive]
        exact fun hle => hw.firstClosed hkeys hle (hv.later hle)
      · rw [hactive]
        exact fun _ _ _ => hclear
      · intro t ht
        rcases hindex t ht with hold | rfl
        · exact hv.indexed_written hw hkeys hactive.ge hold
        · refine ⟨v.active, hv.active, hactive.ge, rfl, ?_, hheld⟩
          rw [hw.active]
          rfl
      · rw [hactive]
        exact fun _ => hclear
      · intro _ hone
        rw [hactive] at hone
        rw [← hone, hw.active]
        simp
      · rw [hp, hdoubt]
        simp
  | finished hopen hw hindex hactive hdone =>
      have hshut : ¬ v'.Open wf node := fun h => Bool.false_ne_true (h.undone.symm.trans hdone)
      refine ⟨hactive ▸ hv.active, ?_, ?_, ?_, fun h => absurd h hshut, fun h => absurd h hshut,
        fun _ h => absurd h hshut⟩
      · rw [hactive]
        exact fun hle => hw.firstClosed hkeys hle (hv.later hle)
      · rw [hdone]
        simp
      · exact fun t ht => hv.indexed_written hw hkeys hactive.ge (hindex t ht)
  | retried hopen hw hindex hspent hp =>
      have hactive : v'.active = v.active + 1 := by rw [NodeView.active, hp]
      have hnext : ∀ a, v.active < a → attemptAt v'.journal wf node a = none := by
        intro a ha
        rw [hw.other (by omega)]
        exact hv.clear hopen a ha
      have hclear : ∀ a, v'.active < a → attemptAt v'.journal wf node a = none :=
        fun a ha => hnext a (by omega)
      refine ⟨by omega, fun _ => ?_, fun _ _ _ => hclear, ?_, fun _ => hclear, ?_, ?_⟩
      · rcases hv.active.eq_or_lt with hone | htwo
        · have hkey := hspent (hfree _) (hone ▸ hv.held hopen hone.symm)
          exact ⟨.inl (hone ▸ hw.active), hone ▸ hkey⟩
        · exact hw.firstClosed hkeys htwo (hv.later htwo)
      · exact fun t ht => hv.indexed_written hw hkeys (by omega) (hindex t ht)
      · intro _ hone
        have := hv.active
        omega
      · intro _ _ hrow
        rw [hactive, hnext _ (by omega)] at hrow
        cases hrow
  | closed hopen hw hindex hspent hp hterminal =>
      have hshut : ¬ v'.Open wf node := fun h => Bool.false_ne_true (h.live.symm.trans hterminal)
      have hactive : v'.active = v.active := by rw [NodeView.active, hp, NodeView.active]
      refine ⟨hactive ▸ hv.active, ?_, ?_, ?_, fun h => absurd h hshut, fun h => absurd h hshut,
        fun _ h => absurd h hshut⟩
      · rw [hactive]
        exact fun hle => hw.firstClosed hkeys hle (hv.later hle)
      · intro _ _ _ a ha
        rw [hw.other (by omega)]
        exact hv.clear hopen a (by omega)
      · exact fun t ht => hv.indexed_written hw hkeys hactive.ge (hindex t ht)

end Effects

/-! ### The operations of the engine -/

/-- An operation at one node, on the state of its workflow. -/
structure Acts (wf node : String) (s s' : EngineState) (v v' : NodeView) : Prop where
  keys : KeysGrow v.journal v'.journal
  rows : ∀ key : AttemptKey, key.1 ≠ wf ∨ key.2.1 ≠ node →
    v'.journal.attempts.lookup key = v.journal.attempts.lookup key
  state : ∀ id, s'.nodes.lookup id = if id = node then some v'.progress else s.nodes.lookup id
  effect : NodeEffect wf node v v'

section Operations

variable {io : JournalCall → Bool} {graph : PlanGraph} {wf node : String} {s s' : EngineState}
  {j j' : Journal} {index index' : Map String (String × String)} {p : NodeProgress}

theorem attemptAt_insert {attempt : Nat} {row : AttemptRow}
    (h : j'.attempts = j.attempts.insert (wf, node, attempt) row) (a : Nat) :
    attemptAt j' wf node a = if a = attempt then some row.state else attemptAt j wf node a := by
  rw [attemptAt, h, Map.lookup_insert_if]
  by_cases ha : a = attempt
  · simp [ha]
  · simp [ha, attemptAt]

theorem attempts_insert_of_ne {attempt : Nat} {row : AttemptRow}
    (h : j'.attempts = j.attempts.insert (wf, node, attempt) row) (key : AttemptKey)
    (hne : key.1 ≠ wf ∨ key.2.1 ≠ node) : j'.attempts.lookup key = j.attempts.lookup key := by
  rw [h, Map.lookup_insert_if, if_neg]
  rintro rfl
  rcases hne with hne | hne <;> exact hne rfl

/-- An operation that writes no row and leaves the node in its place. -/
theorem Acts.idle {terminal terminal' : Bool} {p' : NodeProgress}
    (hkeys : KeysGrow j j') (hattempts : j'.attempts = j.attempts)
    (hstate : ∀ id, s'.nodes.lookup id = if id = node then some p' else s.nodes.lookup id)
    (hsame : Unmoved wf node ⟨j, index, terminal, p⟩ ⟨j', index', terminal', p'⟩) :
    Acts wf node s s' ⟨j, index, terminal, p⟩ ⟨j', index', terminal', p'⟩ := by
  refine ⟨hkeys, fun _ _ => by rw [hattempts], hstate, .kept (fun a => ?_) hsame⟩
  rw [attemptAt, attemptAt, hattempts]

/-- No operation of a live workflow moves a node whose progress it keeps. -/
theorem Unmoved.same {terminal' : Bool}
    (hindex : ∀ t, index'.lookup t = some (wf, node) → index.lookup t = some (wf, node)) :
    Unmoved wf node ⟨j, index, false, p⟩ ⟨j', index', terminal', p⟩ :=
  ⟨hindex, fun _ => rfl, rfl, id, id, .inl⟩

theorem lookup_of_same (hp : s.nodes.lookup node = some p) (id : String) :
    s.nodes.lookup id = if id = node then some p else s.nodes.lookup id := by
  by_cases hid : id = node
  · rw [if_pos hid, hid, hp]
  · rw [if_neg hid]

/-- The row of an attempt carries the task id of the attempt. -/
theorem JournalOk.taskId_of (hj : JournalOk j) (hplan : graph.planRevision = 1)
    (hwf : graph.workflowId = wf) (attempt : Nat) (row : AttemptRow)
    (hrow : j.attempts.lookup (wf, node, attempt) = some row) :
    row.taskId = taskIdOf graph node attempt := by
  rw [(hj.attempts _ _ hrow).2, taskIdOf, hplan, hwf]

theorem EngineState.Reserves.free {key : String} {tokens microunits : UInt64}
    (h : EngineState.Reserves wf key tokens microunits j j') :
    ¬ j.Spent key ∧ key ∈ j'.reservations := by
  obtain ⟨out, hout, hstep⟩ := h
  cases hstep with
  | replayed row hrow hstate =>
      refine ⟨?_, Map.mem_iff_lookup.mpr ⟨row, hrow⟩⟩
      rintro ⟨row', hrow', hstate'⟩
      rw [hrow, Option.some.injEq] at hrow'
      exact hstate' (hrow' ▸ hstate)
  | consumed => exact absurd rfl hout
  | reserved row hkey =>
      refine ⟨?_, by simp⟩
      rintro ⟨row', hrow', -⟩
      exact absurd (hkey.symm.trans hrow') (by simp)

theorem EngineState.MaterializeStep.acts {microunits : UInt64}
    {result : Except EngineError String}
    (h : EngineState.MaterializeStep graph node microunits s j result s' j') (hj : JournalOk j)
    (hwf : graph.workflowId = wf)
    (hplan : ∀ spec, graph.node node = some spec → graph.planRevision = 1)
    (hp : s.nodes.lookup node = some p) (hactive : 1 ≤ p.activeAttempt)
    (hindex : ∀ t, index'.lookup t = some (wf, node) →
      index.lookup t = some (wf, node) ∨ result = .ok t) :
    ∃ p', Acts wf node s s' ⟨j, index, false, p⟩ ⟨j', index', false, p'⟩ := by
  have hprogress : s.progress node = p := by simp [EngineState.progress, hp]
  have hstarted : s.started node = p := by
    rw [EngineState.started, hprogress, Nat.max_eq_left hactive]
  have hset : ∀ id, (s.set node (s.started node)).nodes.lookup id =
      if id = node then some p else s.nodes.lookup id := by
    rw [hstarted]
    exact EngineState.lookup_set s node p
  have hsub : ∀ {e}, result = .error e →
      ∀ t, index'.lookup t = some (wf, node) → index.lookup t = some (wf, node) := by
    rintro e rfl t ht
    rcases hindex t ht with hold | h
    · exact hold
    · cases h
  cases h with
  | unknown | done | doubtful =>
      exact ⟨p, .idle (.of_eq rfl) rfl (lookup_of_same hp) (.same (hsub rfl))⟩
  | unreserved => exact ⟨p, .idle (.of_eq rfl) rfl hset (.same (hsub rfl))⟩
  | consumed hdone spec hspec row hrow hstate =>
      rw [hstarted, hwf] at hrow
      refine ⟨{ p with inDoubt := true }, .idle (.of_eq rfl) rfl ?_ ?_⟩
      · rw [hstarted]
        exact EngineState.lookup_set s node _
      · exact ⟨hsub rfl, fun _ => rfl, rfl, id, by simp, fun _ => .inr ⟨row, hrow, hstate⟩⟩
  | unrecorded _ _ _ _ _ hreserve =>
      obtain ⟨_, -, hreserve⟩ := hreserve
      exact ⟨p, .idle hreserve.keysGrow hreserve.attempts_eq hset (.same (hsub rfl))⟩
  | recorded hdone hdoubt spec hspec j₁ j₂ hreserve hrecord rows _ hr =>
      rw [hstarted, hwf] at hreserve hrecord
      obtain ⟨hfree, hheld⟩ := hreserve.free
      obtain ⟨_, -, hreserve⟩ := hreserve
      have hattempts : j₂.attempts = j.attempts.insert (wf, node, p.activeAttempt)
          ⟨taskIdOf graph node p.activeAttempt, .published⟩ := by
        rw [hrecord.attempts_eq ?_, hreserve.attempts_eq]
        rw [hreserve.attempts_eq]
        exact hj.taskId_of (hplan spec hspec) hwf p.activeAttempt
      rw [hprogress] at hdone hdoubt
      refine ⟨p, ?_, attempts_insert_of_ne hattempts, hset,
        .recorded (attemptAt_insert hattempts) ?_ rfl hdone hdoubt hfree ?_ rfl⟩
      · exact hreserve.keysGrow.trans (.of_eq hrecord.reservations_eq)
      · intro t ht
        refine (hindex t ht).imp id fun hok => ?_
        rw [hok, hstarted] at hr
        rcases hr with hr | ⟨e, hr⟩
        · rw [Except.ok.inj hr, taskIdOf, hplan spec hspec, hwf]
          rfl
        · cases hr
      · show _ ∈ j₂.reservations
        rw [hrecord.reservations_eq]
        exact hheld

theorem EngineState.DoneStep.acts {attempt : Nat} {outputs : List (String × String)}
    {result : Except EngineError (List String)}
    (h : EngineState.DoneStep io graph node attempt outputs s j result s' j') (hj : JournalOk j)
    (hwf : graph.workflowId = wf)
    (hplan : ∀ spec, graph.node node = some spec → graph.planRevision = 1)
    (hp : s.nodes.lookup node = some p) (hindexed : Indexed index wf node) (terminal : Bool) :
    ∃ p', Acts wf node s s' ⟨j, index, false, p⟩ ⟨j', index, terminal, p'⟩ := by
  have hsame : ∀ {q : NodeProgress}, s.nodes.lookup node = some q → q = p := by
    intro q hq
    exact Option.some.inj (hq.symm.trans hp)
  have hwritten : ∀ (spec : NodeSpec) (j₁ : Journal), graph.node node = some spec →
      Journal.RecordStep (graph.workflowId, node, p.activeAttempt)
        (taskIdOf graph node p.activeAttempt) .done j (.ok ()) j₁ →
      j₁.attempts = j.attempts.insert (wf, node, p.activeAttempt)
        ⟨taskIdOf graph node p.activeAttempt, .done⟩ := by
    intro spec j₁ hspec hrecord
    rw [hwf] at hrecord
    exact hrecord.attempts_eq (hj.taskId_of (hplan spec hspec) hwf _)
  cases h with
  | refused =>
      exact ⟨p, .idle (.of_eq rfl) rfl (lookup_of_same hp) (.same fun _ h => h)⟩
  | unrecorded spec hspec q hq hdone hattempt =>
      obtain rfl := hsame hq
      exact ⟨{ q with done := true, outputs := outputs },
        .idle (.of_eq rfl) rfl (EngineState.lookup_set s node _)
          ⟨fun _ h => h, fun _ => rfl, rfl, by simp, id, .inl⟩⟩
  | unsent spec hspec q hq hdone hattempt hvalid j₁ hrecord rows =>
      obtain rfl := hsame hq
      subst hattempt
      have hattempts := hwritten spec j₁ hspec hrecord
      exact ⟨{ q with done := true, outputs := outputs }, .of_eq hrecord.reservations_eq,
        attempts_insert_of_ne hattempts, EngineState.lookup_set s node _,
        .finished ⟨hindexed, rfl, hdone⟩ (attemptAt_insert hattempts) (fun _ h => h) rfl rfl⟩
  | completed spec hspec q hq hdone hattempt hvalid j₁ hrecord rows =>
      obtain rfl := hsame hq
      subst hattempt
      have hkeys : KeysGrow j { j₁ with outbox := rows } := .of_eq hrecord.reservations_eq
      have hattempts := (Journal.releaseReservation_attempts io
        (reservationKey graph.workflowId node q.activeAttempt) none
        { j₁ with outbox := rows }).trans (hwritten spec j₁ hspec hrecord)
      exact ⟨{ q with done := true, outputs := outputs },
        hkeys.trans (Journal.releaseReservation_keysGrow io _ none _),
        attempts_insert_of_ne hattempts, EngineState.lookup_set s node _,
        .finished ⟨hindexed, rfl, hdone⟩ (attemptAt_insert hattempts) (fun _ h => h) rfl rfl⟩

/-- The reservation is released before the row is written, so the row of a
failed attempt is never ahead of its reservation. -/
theorem EngineState.FailStep.acts {attempt : Nat} {failover terminal : Bool}
    {result : Except EngineError (Option Nat)}
    (h : EngineState.FailStep io graph node attempt failover s j result s' j') (hj : JournalOk j)
    (hio : ∀ key, io (.releaseReservation key) = false) (hwf : graph.workflowId = wf)
    (hplan : ∀ spec, graph.node node = some spec → graph.planRevision = 1)
    (hp : s.nodes.lookup node = some p) (hindexed : Indexed index wf node)
    (hindex : ∀ t, index'.lookup t = some (wf, node) → index.lookup t = some (wf, node))
    (hterminal : result = .ok none → terminal = true) :
    ∃ p', Acts wf node s s' ⟨j, index, false, p⟩ ⟨j', index', terminal, p'⟩ := by
  have hsame : ∀ {q : NodeProgress}, s.nodes.lookup node = some q → q = p := by
    intro q hq
    exact Option.some.inj (hq.symm.trans hp)
  have hkeys := Journal.releaseReservation_keysGrow io (reservationKey wf node attempt) none j
  have hattempts := Journal.releaseReservation_attempts io (reservationKey wf node attempt) none j
  have hspent := Journal.releaseReservation_spent (j := j) (hio (reservationKey wf node attempt))
  -- What is known once the failed row is written over the released journal.
  have hwritten : ∀ (spec : NodeSpec) (j₂ : Journal), graph.node node = some spec →
      Journal.RecordStep (wf, node, attempt) (taskIdOf graph node attempt) .failed
        (j.releaseReservation io (reservationKey wf node attempt) none).2 (.ok ()) j₂ →
      KeysGrow j j₂ ∧
        j₂.attempts = j.attempts.insert (wf, node, attempt)
          ⟨taskIdOf graph node attempt, .failed⟩ ∧
        (j.Releasable (reservationKey wf node attempt) →
          reservationKey wf node attempt ∈ j.reservations →
            j₂.Spent (reservationKey wf node attempt)) := by
    intro spec j₂ hspec hrecord
    have hgrow := KeysGrow.of_eq hrecord.reservations_eq
    refine ⟨hkeys.trans hgrow, ?_, fun hfree hkey => hgrow.spent _ (hspent hfree hkey)⟩
    rw [hrecord.attempts_eq ?_, hattempts]
    rw [hattempts]
    exact hj.taskId_of (hplan spec hspec) hwf _
  subst hwf
  cases h with
  | refused => exact ⟨p, .idle (.of_eq rfl) rfl (lookup_of_same hp) (.same hindex)⟩
  | unrecorded => exact ⟨p, .idle hkeys hattempts (lookup_of_same hp) (.same hindex)⟩
  | retried spec hspec q hq hdone hattempt j₂ hrecord hretry rows =>
      obtain rfl := hsame hq
      subst hattempt
      obtain ⟨hgrow, hins, hkey⟩ := hwritten spec j₂ hspec hrecord
      exact ⟨{ q with activeAttempt := q.activeAttempt + 1 }, hgrow.trans (.of_eq rfl),
        attempts_insert_of_ne hins, EngineState.lookup_set s node _,
        .retried ⟨hindexed, rfl, hdone⟩ (attemptAt_insert hins) hindex hkey rfl⟩
  | closed spec hspec q hq hdone hattempt _ hrecord =>
      obtain rfl := hsame hq
      subst hattempt
      obtain ⟨hgrow, hins, hkey⟩ := hwritten spec j' hspec hrecord
      exact ⟨{ q with failed := true }, hgrow, attempts_insert_of_ne hins,
        EngineState.lookup_set s node _,
        .closed ⟨hindexed, rfl, hdone⟩ (attemptAt_insert hins) hindex hkey rfl (hterminal rfl)⟩

end Operations

/-! ### The records of the runtime -/

/-- The view an operation has of a node of this record. -/
def viewOf (r : EngineRuntime) (wfr : WfRuntime) (p : NodeProgress) : NodeView :=
  ⟨r.journal, r.taskIndex, wfr.terminal, p⟩

/-- One node of one live workflow is operated on. -/
structure Operates (r r' : EngineRuntime) (wf node : String) (wfr wfr' : WfRuntime)
    (p p' : NodeProgress) : Prop where
  registered : r.workflows.lookup wf = some wfr
  live : wfr.terminal = false
  tracked : wfr.state.nodes.lookup node = some p
  records : ∀ id, r'.workflows.lookup id = if id = wf then some wfr' else r.workflows.lookup id
  index : ∀ t e, r'.taskIndex.lookup t = some e → e ≠ (wf, node) → r.taskIndex.lookup t = some e
  acts : Acts wf node wfr.state wfr'.state (viewOf r wfr p) (viewOf r' wfr' p')

section Records

variable {r r' : EngineRuntime} {i : Input}

theorem Operates.attemptAt_other {wf node wf' node' : String} {wfr wfr' : WfRuntime}
    {p p' : NodeProgress} (h : Operates r r' wf node wfr wfr' p p')
    (hne : wf' ≠ wf ∨ node' ≠ node) (a : Nat) :
    attemptAt r'.journal wf' node' a = attemptAt r.journal wf' node' a := by
  have hrow := h.acts.rows (wf', node', a) hne
  rw [attemptAt, attemptAt]
  exact congrArg (Option.map AttemptRow.state) hrow

theorem viewOf_live {wfr : WfRuntime} (hlive : wfr.terminal = false) (p : NodeProgress) :
    viewOf r wfr p = ⟨r.journal, r.taskIndex, false, p⟩ := by
  rw [viewOf, hlive]

/-- The node of a coherent record is tracked. -/
theorem Coherent.tracked (hr : Coherent r) {wf node : String} {wfr : WfRuntime}
    (hwf : r.workflows.lookup wf = some wfr)
    (hnode : ∃ spec ∈ wfr.graph.nodes, spec.nodeId = node) :
    ∃ p, wfr.state.nodes.lookup node = some p :=
  ((hr.records wf wfr hwf).tracks.nodes node).mpr hnode

theorem Due.operates (hr : Coherent r) {wf node : String} {wfr wfr' : WfRuntime}
    (hdue : Due i r wf node wfr) {result : Except EngineError String}
    (hmat : wfr.state.materialize i.env.journalFails wfr.graph node r.cfg.perAttemptMicrounits
      r.journal = (result, wfr'.state, r'.journal))
    (hrecords : ∀ id, r'.workflows.lookup id =
      if id = wf then some wfr' else r.workflows.lookup id)
    (hindex : ∀ t e, r'.taskIndex.lookup t = some e →
      r.taskIndex.lookup t = some e ∨ result = .ok t ∧ e = (wf, node))
    (hlive : wfr'.terminal = false) :
    ∃ p p', Operates r r' wf node wfr wfr' p p' := by
  have hok := hr.records wf wfr hdue.registered
  obtain ⟨hstep, -, -⟩ := hdue.materialized hr hmat
  obtain ⟨p, hp⟩ := hr.tracked hdue.registered hdue.node
  obtain ⟨p', hacts⟩ := hstep.acts hr.journal hok.graph hok.rev_of_node hp
    (hok.tracks.active node p hp) fun t ht => (hindex t (wf, node) ht).imp id And.left
  refine ⟨p, p', hdue.registered, hdue.live, hp, hrecords, ?_, ?_⟩
  · intro t e ht hne
    exact (hindex t e ht).resolve_right fun h => hne h.2
  · rw [viewOf_live hdue.live, viewOf_live hlive]
    exact hacts

/-- The attempt is published, and its task indexed. -/
theorem Due.operates_dispatched (hr : Coherent r) {wf node taskId : String} {wfr wfr' : WfRuntime}
    (hdue : Due i r wf node wfr)
    (hmat : wfr.state.materialize i.env.journalFails wfr.graph node r.cfg.perAttemptMicrounits
      r.journal = (.ok taskId, wfr'.state, r'.journal))
    (hrecords : ∀ id, r'.workflows.lookup id =
      if id = wf then some wfr' else r.workflows.lookup id)
    (hindex : r'.taskIndex = r.taskIndex.insert taskId (wf, node))
    (hlive : wfr'.terminal = false) :
    ∃ p p', Operates r r' wf node wfr wfr' p p' := by
  refine hdue.operates hr hmat hrecords (fun t e ht => ?_) hlive
  rw [hindex] at ht
  rcases Map.lookup_insert_eq_some.mp ht with ⟨rfl, rfl⟩ | ⟨-, hold⟩
  · exact .inr ⟨rfl, rfl⟩
  · exact .inl hold

theorem Watched.operates_done (hr : Coherent r) {task : Task} {wf node : String}
    {wfr wfr' : WfRuntime} (hwatch : Watched i r task wf node wfr)
    {outputs : List (String × String)} {result : Except EngineError (List String)}
    (hdone : wfr.state.onDone i.env.journalFails wfr.graph node (watchedAttempt wfr node)
      outputs r.journal = (result, wfr'.state, r'.journal))
    (hrecords : ∀ id, r'.workflows.lookup id =
      if id = wf then some wfr' else r.workflows.lookup id)
    (hindex : r'.taskIndex = r.taskIndex) :
    ∃ p p', Operates r r' wf node wfr wfr' p p' := by
  have hok := hr.records wf wfr hwatch.registered
  obtain ⟨hstep, -, -⟩ := hwatch.completed hr hdone
  obtain ⟨p, hp⟩ := hr.tracked hwatch.registered (hwatch.node hr)
  obtain ⟨p', hacts⟩ := hstep.acts hr.journal hok.graph hok.rev_of_node hp
    ⟨task.taskId, hwatch.indexed⟩ wfr'.terminal
  refine ⟨p, p', hwatch.registered, hwatch.live, hp, hrecords, fun t e ht _ => hindex ▸ ht, ?_⟩
  rw [viewOf_live hwatch.live, viewOf, hindex]
  exact hacts

theorem Watched.operates_failed (hr : Coherent r) {task : Task}
    {wf node : String} {wfr wfr' : WfRuntime} (hwatch : Watched i r task wf node wfr)
    {result : Except EngineError (Option Nat)}
    (hfail : wfr.state.onFailed i.env.journalFails wfr.graph node (watchedAttempt wfr node)
      wfr.failover r.journal = (result, wfr'.state, r'.journal))
    (hrecords : ∀ id, r'.workflows.lookup id =
      if id = wf then some wfr' else r.workflows.lookup id)
    (hindex : ∀ t e, r'.taskIndex.lookup t = some e → r.taskIndex.lookup t = some e)
    (hterminal : result = .ok none → wfr'.terminal = true)
    (hio : ∀ key, i.env.journalFails (.releaseReservation key) = false) :
    ∃ p p', Operates r r' wf node wfr wfr' p p' := by
  have hok := hr.records wf wfr hwatch.registered
  obtain ⟨hstep, -, -⟩ := hwatch.failed hr hfail
  obtain ⟨p, hp⟩ := hr.tracked hwatch.registered (hwatch.node hr)
  obtain ⟨p', hacts⟩ := hstep.acts hr.journal hio hok.graph hok.rev_of_node hp
    ⟨task.taskId, hwatch.indexed⟩ (fun t => hindex t _) hterminal
  refine ⟨p, p', hwatch.registered, hwatch.live, hp, hrecords, fun t e ht _ => hindex t e ht, ?_⟩
  rw [viewOf_live hwatch.live]
  exact hacts

/-- An attempt that is materialised has its row, under its task id. -/
theorem Due.recorded (hr : Coherent r) {wf node taskId : String} {wfr : WfRuntime}
    {state : EngineState} {j : Journal} (hdue : Due i r wf node wfr)
    (hmat : wfr.state.materialize i.env.journalFails wfr.graph node r.cfg.perAttemptMicrounits
      r.journal = (.ok taskId, state, j)) :
    taskId = laya1TaskId wf 1 node (state.progress node).activeAttempt ∧
      attemptAt j wf node (state.progress node).activeAttempt = some .published := by
  have hok := hr.records wf wfr hdue.registered
  obtain ⟨hstep, -, -⟩ := hdue.materialized hr hmat
  cases hstep with
  | recorded hdone hdoubt spec hspec j₁ j₂ hreserve hrecord rows _ hresult =>
      obtain ⟨_, -, hreserve⟩ := hreserve
      rw [hok.graph] at hrecord
      have hattempts := hrecord.attempts_eq (by
        rw [hreserve.attempts_eq]
        exact hr.journal.taskId_of (hok.rev_of_node spec hspec) hok.graph _)
      rw [progress_set, if_pos rfl]
      constructor
      · rcases hresult with h | ⟨e, h⟩
        · rw [Except.ok.inj h, taskIdOf, hok.rev_of_node spec hspec, hok.graph]
        · cases h
      · rw [attemptAt, hattempts]
        simp

end Records

end DdsOrchestrator.WorkflowEngine
