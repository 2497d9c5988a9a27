import Mathlib.Data.List.Sort
import Mathlib.Data.List.Range
import DdsOrchestrator.WorkflowEngine.Journal

/-!
The delivery side of the outbox. Rows are appended with consecutive numbers and
handed to a callback in that order; a row is marked once the callback has taken
it, and the first failure ends the drain. What is marked is therefore always
the front of the outbox, and a drain goes on from there.
-/

namespace DdsOrchestrator.WorkflowEngine

open Loop

/-! ### Draining -/

/-- The statements of a drain, as the medium sees them. -/
inductive DrainCall where
  | select
  | mark (seq : Nat)
  deriving DecidableEq

/-- What the callback was handed, and whether it returned `Ok`. -/
structure Handover where
  seq : Nat
  kind : String
  payload : String
  ok : Bool
  deriving DecidableEq

def OutboxRow.handover (row : OutboxRow) (ok : Bool) : Handover :=
  ⟨row.seq, row.kind, row.payload, ok⟩

namespace Journal

/-- `SELECT .. FROM outbox WHERE published_ns IS NULL ORDER BY seq`. -/
def pendingRows (j : Journal) : List OutboxRow :=
  (j.outbox.filter fun row => !row.published).insertionSort fun a b => a.seq ≤ b.seq

/-- `UPDATE outbox SET published_ns = 1 WHERE seq = ..`. -/
def markPublished (seq : Nat) (j : Journal) : Journal :=
  { j with outbox := j.outbox.map fun row =>
      if row.seq = seq then { row with published := true } else row }

variable {κ : Type} (io : DrainCall → Bool)
  (publish : κ → String → String → Except JournalError Unit × κ)

/-- One row of a drain. The state is that of the callback, the journal, and what
the callback has been handed so far. -/
def drainRow (row : OutboxRow) : κ × Journal × List Handover →
    Except JournalError Nat × κ × Journal × List Handover
  | (k, j, handed) =>
      match publish k row.kind row.payload with
      | (.error e, k) => (.error e, k, j, handed ++ [row.handover false])
      | (.ok (), k) =>
          if io (.mark row.seq) then (.error ioFailure, k, j, handed ++ [row.handover true])
          else (.ok 1, k, j.markPublished row.seq, handed ++ [row.handover true])

/-- Hand every pending row to the callback `publish`, which starts in state `k`,
and count those it takes. -/
def outboxDrain (k : κ) (j : Journal) : Except JournalError Nat × κ × Journal × List Handover :=
  if io .select then (.error ioFailure, k, j, [])
  else forEach (drainRow io publish) j.pendingRows (k, j, [])

end Journal

/-! ### Sequences of calls -/

inductive OutboxCall (κ : Type) where
  | append (io : JournalCall → Bool) (workflowId kind payload : String)
  | drain (io : DrainCall → Bool) (publish : κ → String → String → Except JournalError Unit × κ)
      (k : κ)

/-- The journal and everything that was ever handed over. -/
structure Delivery where
  journal : Journal
  handed : List Handover

def Delivery.start (j : Journal) : Delivery := ⟨{ j with outbox := [] }, []⟩

/-- A drain of the delivery: its result and what it hands over. -/
def Delivery.drain {κ : Type} (d : Delivery) (io : DrainCall → Bool)
    (publish : κ → String → String → Except JournalError Unit × κ) (k : κ) :
    Except JournalError Nat × Journal × List Handover :=
  let out := d.journal.outboxDrain io publish k
  (out.1, out.2.2.1, out.2.2.2)

def deliver {κ : Type} (d : Delivery) : OutboxCall κ → Delivery
  | .append io workflowId kind payload =>
      ⟨(d.journal.outboxAppend io workflowId kind payload).2, d.handed⟩
  | .drain io publish k =>
      ⟨(d.drain io publish k).2.1, d.handed ++ (d.drain io publish k).2.2⟩

/-! ### The front of the outbox -/

/-- The rows are numbered as they stand, those up to `n` are marked and no
others, and every marked row was handed to a callback that took it. -/
structure Delivery.Drained (d : Delivery) (n : Nat) : Prop where
  numbered : d.journal.outbox.map (·.seq) = List.range' 1 d.journal.outbox.length
  bound : n ≤ d.journal.outbox.length
  front : ∀ row ∈ d.journal.outbox, row.published = true ↔ row.seq ≤ n
  taken : ∀ row ∈ d.journal.outbox, row.published = true →
    ∃ h ∈ d.handed, h.seq = row.seq ∧ h.ok = true

/-- Mark the rows from `lo` on, `lo` excluded, up to `hi`. -/
def Journal.markBetween (lo hi : Nat) (j : Journal) : Journal :=
  { j with outbox := j.outbox.map fun row =>
      if lo < row.seq ∧ row.seq ≤ hi then { row with published := true } else row }

theorem markBetween_self (lo : Nat) (j : Journal) : j.markBetween lo lo = j := by
  have hid : (fun row : OutboxRow =>
      if lo < row.seq ∧ row.seq ≤ lo then { row with published := true } else row) = id := by
    funext row
    rw [if_neg (by omega)]
    rfl
  simp only [Journal.markBetween, hid, List.map_id]

theorem markBetween_succ (lo n : Nat) (j : Journal) :
    (j.markPublished (lo + 1)).markBetween (lo + 1) (lo + 1 + n) =
      j.markBetween lo (lo + (n + 1)) := by
  simp only [Journal.markBetween, Journal.markPublished, List.map_map]
  congr 2
  funext row
  simp only [Function.comp_apply]
  by_cases hseq : row.seq = lo + 1
  · simp only [hseq, if_true, Nat.lt_irrefl, false_and, if_false]
    rw [if_pos (by omega)]
  · simp only [hseq, if_false]
    by_cases hin : lo + 1 < row.seq ∧ row.seq ≤ lo + 1 + n
    · rw [if_pos hin, if_pos (by omega)]
    · rw [if_neg hin, if_neg (by omega)]

/-- What a drain of consecutive rows does: it marks some of them from the
first on, hands over these and at most the one that follows, and stops before
the end only with an error. -/
structure Drains (lo : Nat) (rows : List OutboxRow) (j j' : Journal)
    (handed : List Handover) (count : Nat) : Prop where
  le : count ≤ rows.length
  journal : j' = j.markBetween lo (lo + count)
  seqs : handed.map (·.seq) = List.range' (lo + 1) handed.length
  covers : count ≤ handed.length
  ok : ∀ h ∈ handed, h.seq ≤ lo + count → h.ok = true
  failed : ∀ h ∈ handed, h.ok = false → h.seq = lo + count + 1

section Loop

variable {κ : Type} (io : DrainCall → Bool)
  (publish : κ → String → String → Except JournalError Unit × κ)

theorem drainRow_drains (rows : List OutboxRow) (lo : Nat) (k : κ) (j : Journal)
    (log : List Handover) (hseqs : rows.map (·.seq) = List.range' (lo + 1) rows.length) :
    ∃ handed count,
      (forEach (Journal.drainRow io publish) rows (k, j, log)).2.2.2 = log ++ handed ∧
      Drains lo rows j (forEach (Journal.drainRow io publish) rows (k, j, log)).2.2.1 handed
        count ∧
      ((forEach (Journal.drainRow io publish) rows (k, j, log)).1.isOk = true →
        count = rows.length) := by
  induction rows generalizing lo k j log with
  | nil =>
      refine ⟨[], 0, by simp, ⟨le_rfl, ?_, rfl, le_rfl, by simp, by simp⟩, fun _ => rfl⟩
      exact (markBetween_self lo j).symm
  | cons row rest ih =>
      rw [List.map_cons, List.length_cons, List.range'_succ, List.cons.injEq] at hseqs
      obtain ⟨hseq, hrest⟩ := hseqs
      -- The row is not marked: the drain ends here.
      have hstop : ∀ (e : JournalError) (k' : κ) (ok : Bool),
          Journal.drainRow io publish row (k, j, log) =
            (.error e, k', j, log ++ [row.handover ok]) →
          ∃ handed count,
            (forEach (Journal.drainRow io publish) (row :: rest) (k, j, log)).2.2.2 =
              log ++ handed ∧
            Drains lo (row :: rest) j
              (forEach (Journal.drainRow io publish) (row :: rest) (k, j, log)).2.2.1 handed
              count ∧
            ((forEach (Journal.drainRow io publish) (row :: rest) (k, j, log)).1.isOk = true →
              count = (row :: rest).length) := by
        intro e k' ok hrow
        rw [forEach_cons_error hrow]
        refine ⟨[row.handover ok], 0, rfl, ⟨Nat.zero_le _, (markBetween_self lo j).symm, ?_,
          Nat.zero_le _, ?_, ?_⟩, by simp [Except.isOk, Except.toBool]⟩
        · simp [OutboxRow.handover, hseq]
        · simp [OutboxRow.handover, hseq]
        · simp [OutboxRow.handover, hseq]
      rcases hpublish : publish k row.kind row.payload with ⟨e | _, k'⟩
      · exact hstop e k' false (by simp [Journal.drainRow, hpublish])
      · cases hio : io (.mark row.seq) with
        | true => exact hstop ioFailure k' true (by simp [Journal.drainRow, hpublish, hio])
        | false =>
            have hrow : Journal.drainRow io publish row (k, j, log) =
                (.ok 1, k', j.markPublished row.seq, log ++ [row.handover true]) := by
              simp [Journal.drainRow, hpublish, hio]
            obtain ⟨hstate, hresult⟩ : (forEach (Journal.drainRow io publish) (row :: rest)
                (k, j, log)).2 = (forEach (Journal.drainRow io publish) rest _).2 ∧ _ :=
              forEach_cons_ok hrow
            obtain ⟨handed, count, hhanded, hdrains, hok⟩ := ih (lo + 1) k'
              (j.markPublished row.seq) (log ++ [row.handover true]) hrest
            rw [hstate, hresult]
            refine ⟨row.handover true :: handed, count + 1, ?_, ⟨?_, ?_, ?_, ?_, ?_, ?_⟩, ?_⟩
            · rw [hhanded, List.append_assoc, List.singleton_append]
            · simpa using hdrains.le
            · rw [hdrains.journal, hseq, markBetween_succ]
            · rw [List.map_cons, List.length_cons, List.range'_succ, hdrains.seqs]
              simp [OutboxRow.handover, hseq]
            · simpa using hdrains.covers
            · intro h hh hle
              rcases List.mem_cons.mp hh with rfl | hh
              · rfl
              · exact hdrains.ok h hh (by omega)
            · intro h hh hfail
              rcases List.mem_cons.mp hh with rfl | hh
              · cases hfail
              · have := hdrains.failed h hh hfail
                omega
            · intro hall
              rw [List.length_cons, hok hall]

end Loop

/-! ### One call -/

section Calls

variable {κ : Type} {d : Delivery} {n : Nat}

theorem Delivery.Drained.seq_get (h : d.Drained n) {i : Nat} (hi : i < d.journal.outbox.length) :
    d.journal.outbox[i].seq = i + 1 := by
  have hget := congrArg (fun l => l[i]?) h.numbered
  simp only [List.getElem?_map, List.getElem?_eq_getElem hi, Option.map_some,
    List.getElem?_range' hi, Option.some.injEq] at hget
  omega

theorem Delivery.Drained.seq_le (h : d.Drained n) {row : OutboxRow}
    (hrow : row ∈ d.journal.outbox) : 1 ≤ row.seq ∧ row.seq ≤ d.journal.outbox.length := by
  have hmem := List.mem_map_of_mem (f := fun row : OutboxRow => row.seq) hrow
  rw [h.numbered, List.mem_range'_1] at hmem
  omega

/-- The pending rows are those behind the front, in their order. -/
theorem Delivery.Drained.pendingRows_eq (h : d.Drained n) :
    d.journal.pendingRows = d.journal.outbox.drop n := by
  have hfilter : (d.journal.outbox.filter fun row => !row.published) =
      d.journal.outbox.drop n := by
    conv_lhs => rw [← List.take_append_drop n d.journal.outbox]
    rw [List.filter_append]
    have hfront : ((d.journal.outbox.take n).filter fun row => !row.published) = [] := by
      rw [List.filter_eq_nil_iff]
      intro row hrow
      obtain ⟨i, hi, rfl⟩ := List.mem_take_iff_getElem.mp hrow
      have hseq := h.seq_get (i := i) (by omega)
      have hpub := (h.front _ (List.mem_of_mem_take hrow)).mpr (by omega)
      simp [hpub]
    have hrest : ((d.journal.outbox.drop n).filter fun row => !row.published) =
        d.journal.outbox.drop n := by
      rw [List.filter_eq_self]
      intro row hrow
      obtain ⟨i, hi, rfl⟩ := List.mem_drop_iff_getElem.mp hrow
      have hseq := h.seq_get (i := n + i) (by omega)
      have hnot : ¬ (d.journal.outbox[n + i].published = true) := fun hpub => by
        have := (h.front _ (List.getElem_mem _)).mp hpub
        omega
      simpa using hnot
    rw [hfront, hrest, List.nil_append]
  have hsorted : (d.journal.outbox.drop n).Pairwise fun a b => a.seq ≤ b.seq := by
    have hrange : (d.journal.outbox.map (·.seq)).Pairwise (· ≤ ·) := by
      rw [h.numbered]
      exact List.pairwise_le_range'
    exact (List.pairwise_map.mp hrange).sublist (List.drop_sublist _ _)
  rw [Journal.pendingRows, hfilter]
  exact hsorted.insertionSort_eq

theorem Delivery.Drained.append (h : d.Drained n) (io : JournalCall → Bool)
    (workflowId kind payload : String) :
    Delivery.Drained ⟨(d.journal.outboxAppend io workflowId kind payload).2, d.handed⟩ n := by
  unfold Journal.outboxAppend
  split
  · exact h
  refine ⟨?_, ?_, ?_, ?_⟩
  · simp only [List.map_append, List.map_cons, List.map_nil, List.length_append,
      List.length_singleton, List.range'_concat, h.numbered]
    simp [Nat.add_comm]
  · exact h.bound.trans (by simp)
  · intro row hrow
    rcases List.mem_append.mp hrow with hrow | hrow
    · exact h.front row hrow
    · rw [List.mem_singleton.mp hrow]
      have := h.bound
      simp only [Bool.false_eq_true, false_iff]
      omega
  · intro row hrow hpub
    rcases List.mem_append.mp hrow with hrow | hrow
    · exact h.taken row hrow hpub
    · rw [List.mem_singleton.mp hrow] at hpub
      cases hpub

theorem mem_markBetween {lo hi : Nat} {j : Journal} {row' : OutboxRow}
    (h : row' ∈ (j.markBetween lo hi).outbox) :
    ∃ row ∈ j.outbox, row'.seq = row.seq ∧
      (row'.published = true ↔ row.published = true ∨ lo < row.seq ∧ row.seq ≤ hi) := by
  obtain ⟨row, hrow, rfl⟩ := List.mem_map.mp h
  refine ⟨row, hrow, ?_⟩
  by_cases hin : lo < row.seq ∧ row.seq ≤ hi
  · rw [if_pos hin]
    exact ⟨rfl, by simp [hin]⟩
  · rw [if_neg hin]
    exact ⟨rfl, by simp [hin]⟩

/-- The rows behind the front that were handed over and taken become part of
it. -/
theorem Delivery.Drained.mark (h : d.Drained n) {handed : List Handover} {count : Nat}
    {rows : List OutboxRow} {j' : Journal} (hdrains : Drains n rows d.journal j' handed count)
    (hbound : n + count ≤ d.journal.outbox.length) :
    Delivery.Drained ⟨j', d.handed ++ handed⟩ (n + count) := by
  obtain ⟨-, rfl, hseqs, hcovers, hok, -⟩ := hdrains
  refine ⟨?_, ?_, ?_, ?_⟩
  · have hmap : (d.journal.markBetween n (n + count)).outbox.map (·.seq) =
        d.journal.outbox.map (·.seq) := by
      simp only [Journal.markBetween, List.map_map]
      refine List.map_congr_left fun row _ => ?_
      simp only [Function.comp_apply]
      split <;> rfl
    rw [hmap, h.numbered]
    simp [Journal.markBetween]
  · simpa [Journal.markBetween] using hbound
  · intro row' hrow'
    obtain ⟨row, hrow, hseq, hpub⟩ := mem_markBetween hrow'
    rw [hpub, h.front row hrow, hseq]
    omega
  · intro row' hrow' hpub'
    obtain ⟨row, hrow, hseq, hpub⟩ := mem_markBetween hrow'
    rcases hpub.mp hpub' with hold | hnew
    · obtain ⟨g, hg, hgseq, hgok⟩ := h.taken row hrow hold
      exact ⟨g, List.mem_append_left _ hg, by omega, hgok⟩
    · have hmem : row.seq ∈ handed.map (·.seq) := by
        rw [hseqs, List.mem_range'_1]
        omega
      obtain ⟨g, hg, hgseq⟩ := List.mem_map.mp hmem
      exact ⟨g, List.mem_append_right _ hg, by omega, hok g hg (by omega)⟩

/-- A row without its mark. -/
def OutboxRow.entry (row : OutboxRow) : Nat × String × String × String :=
  (row.seq, row.workflowId, row.kind, row.payload)

theorem markBetween_entries (lo hi : Nat) (j : Journal) :
    (j.markBetween lo hi).outbox.map (·.entry) = j.outbox.map (·.entry) := by
  simp only [Journal.markBetween, List.map_map]
  refine List.map_congr_left fun row _ => ?_
  simp only [Function.comp_apply]
  split <;> rfl

/-- A drain moves the front on, past what it has marked. -/
theorem Delivery.Drained.drain (h : d.Drained n) (io : DrainCall → Bool)
    (publish : κ → String → String → Except JournalError Unit × κ) (k : κ) :
    ∃ m, n ≤ m ∧
      Delivery.Drained ⟨(d.drain io publish k).2.1, d.handed ++ (d.drain io publish k).2.2⟩ m ∧
      (d.drain io publish k).2.1.outbox.map (·.entry) = d.journal.outbox.map (·.entry) ∧
      (d.drain io publish k).2.2.map (·.seq) =
        List.range' (n + 1) (d.drain io publish k).2.2.length ∧
      (∀ h ∈ (d.drain io publish k).2.2, h.ok = false → h.seq = m + 1) ∧
      ((d.drain io publish k).1.isOk = true → m = d.journal.outbox.length) := by
  unfold Delivery.drain Journal.outboxDrain
  cases hio : io .select with
  | true =>
      refine ⟨n, le_rfl, ?_, rfl, rfl, by simp, by simp [Except.isOk, Except.toBool]⟩
      simpa using h
  | false =>
      have hlen := h.bound
      have hseqs : (d.journal.outbox.drop n).map (·.seq) =
          List.range' (n + 1) (d.journal.outbox.drop n).length := by
        rw [List.map_drop, h.numbered, List.drop_range', List.length_drop]
        simp [Nat.add_comm]
      obtain ⟨handed, count, hhanded, hdrains, hok⟩ := drainRow_drains io publish
        (d.journal.outbox.drop n) n k d.journal [] hseqs
      have hle := hdrains.le
      rw [List.length_drop] at hle
      rw [if_neg (by simp), h.pendingRows_eq]
      dsimp only
      rw [hhanded, List.nil_append]
      refine ⟨n + count, Nat.le_add_right _ _, h.mark hdrains (by omega), ?_, hdrains.seqs,
        hdrains.failed, ?_⟩
      · rw [hdrains.journal, markBetween_entries]
      · intro hall
        rw [hok hall, List.length_drop]
        omega

/-- What later calls hand over lies behind the front. -/
theorem Delivery.Drained.later (h : d.Drained n) (calls : List (OutboxCall κ)) :
    ∃ m handed, n ≤ m ∧ (calls.foldl deliver d).Drained m ∧
      (calls.foldl deliver d).handed = d.handed ++ handed ∧ ∀ g ∈ handed, n < g.seq := by
  induction calls generalizing d n with
  | nil => exact ⟨n, [], le_rfl, h, by simp, by simp⟩
  | cons call calls ih =>
      rw [List.foldl_cons]
      cases call with
      | append io workflowId kind payload =>
          obtain ⟨m, handed, hle, hdrained, hhanded, hbehind⟩ :=
            ih (h.append io workflowId kind payload)
          exact ⟨m, handed, hle, hdrained, hhanded, hbehind⟩
      | drain io publish k =>
          obtain ⟨m₁, hle₁, hdrained₁, -, hseqs, -⟩ := h.drain io publish k
          obtain ⟨m, handed, hle, hdrained, hhanded, hbehind⟩ := ih hdrained₁
          refine ⟨m, (d.drain io publish k).2.2 ++ handed, hle₁.trans hle, hdrained, ?_, ?_⟩
          · exact hhanded.trans (List.append_assoc ..)
          · intro g hg
            rcases List.mem_append.mp hg with hg | hg
            · have hmem := List.mem_map_of_mem (f := fun g : Handover => g.seq) hg
              rw [hseqs, List.mem_range'_1] at hmem
              omega
            · exact lt_of_le_of_lt hle₁ (hbehind g hg)

end Calls

/-! ### Delivery -/

/-- A drain hands the rows over in increasing order and loses none; when it
returns `Ok` every row was taken by a callback; and when the callback fails at
a row, what comes before that row is marked and never handed over again, while
the row and all that come after it stay pending. -/
structure Delivers {κ : Type} (d : Delivery) (io : DrainCall → Bool)
    (publish : κ → String → String → Except JournalError Unit × κ) (k : κ) : Prop where
  ordered : ((d.drain io publish k).2.2.map (·.seq)).Pairwise (· < ·)
  kept : (d.drain io publish k).2.1.outbox.map (·.entry) = d.journal.outbox.map (·.entry)
  complete : (d.drain io publish k).1.isOk = true → ∀ row ∈ d.journal.outbox,
    ∃ h ∈ d.handed ++ (d.drain io publish k).2.2, h.seq = row.seq ∧ h.ok = true
  stopped : ∀ h ∈ (d.drain io publish k).2.2, h.ok = false →
    (∀ row ∈ (d.drain io publish k).2.1.outbox, row.published = true ↔ row.seq < h.seq) ∧
      ∀ later : List (OutboxCall κ), ∃ handed,
        (later.foldl deliver (deliver d (.drain io publish k))).handed =
          (deliver d (.drain io publish k)).handed ++ handed ∧
        ∀ g ∈ handed, h.seq ≤ g.seq

theorem Delivery.Drained.delivers {κ : Type} {d : Delivery} {n : Nat} (h : d.Drained n)
    (io : DrainCall → Bool) (publish : κ → String → String → Except JournalError Unit × κ) (k : κ) :
    Delivers d io publish k := by
  obtain ⟨m, hle, hdrained, hentries, hseqs, hfailed, hok⟩ := h.drain io publish k
  refine ⟨?_, hentries, ?_, ?_⟩
  · rw [hseqs]
    exact List.pairwise_lt_range'
  · intro hall row hrow
    have hmem : row.entry ∈ (d.drain io publish k).2.1.outbox.map (·.entry) := by
      rw [hentries]
      exact List.mem_map_of_mem hrow
    obtain ⟨row', hrow', hentry⟩ := List.mem_map.mp hmem
    have hseq : row'.seq = row.seq := congrArg Prod.fst hentry
    have hbound := (h.seq_le hrow).2
    have hpub := (hdrained.front row' hrow').mpr (by rw [hseq, hok hall]; exact hbound)
    rw [← hseq]
    exact hdrained.taken row' hrow' hpub
  · intro g hg hfail
    have hseq := hfailed g hg hfail
    refine ⟨fun row hrow => ?_, fun later => ?_⟩
    · rw [hdrained.front row hrow]
      omega
    · obtain ⟨-, handed, -, -, hhanded, hbehind⟩ := hdrained.later later
      exact ⟨handed, hhanded, fun g' hg' => by have := hbehind g' hg'; omega⟩

/-- After any calls a marked row was handed to a callback that took it, and
every drain delivers. -/
theorem calls_deliver {κ : Type} (j : Journal) (calls : List (OutboxCall κ)) :
    (∀ row ∈ (calls.foldl deliver (.start j)).journal.outbox, row.published = true →
        ∃ h ∈ (calls.foldl deliver (.start j)).handed, h.seq = row.seq ∧ h.ok = true) ∧
      ∀ io (publish : κ → String → String → Except JournalError Unit × κ) k,
        Delivers (calls.foldl deliver (.start j)) io publish k := by
  have hstart : (Delivery.start j).Drained 0 := ⟨rfl, le_rfl, by simp [Delivery.start],
    by simp [Delivery.start]⟩
  obtain ⟨m, -, -, hdrained, -⟩ := hstart.later calls
  exact ⟨hdrained.taken, fun io publish k => hdrained.delivers io publish k⟩

end DdsOrchestrator.WorkflowEngine
