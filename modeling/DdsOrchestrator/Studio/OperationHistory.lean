import Mathlib.Data.List.DropRight
import DdsOrchestrator.Studio.Operations

/-!
The log of a node's operations against the history of what it has applied. The log is the
end of the history: a map and a list of ids that say the same, and from which the state in
which a service is wanted can be read.

A call is checked against the scope before its id is looked up, so that an id that is used
again with another operation is not always told from a foreign service.
-/

namespace DdsOrchestrator.Studio

/-- The operation that a call has applied, if it has. -/
def OpOutcome.applied? : OpOutcome → Option OpRecord
  | applied record => some record
  | alreadyApplied _ => none

namespace OperationLog

/-! ### Runs -/

/-- The log after one more call. -/
def called (l : OperationLog) (call : OperationId × AdminOp) : OperationLog :=
  (l.apply call.1 call.2).2

/-- What the call applies. -/
def appliedBy (l : OperationLog) (call : OperationId × AdminOp) : List OpRecord :=
  ((l.apply call.1 call.2).1.toOption.bind OpOutcome.applied?).toList

def run (ownedServices : List String) (calls : List (OperationId × AdminOp)) : OperationLog :=
  calls.foldl called (new ownedServices)

/-- The operations that were applied, in their order. -/
def history (ownedServices : List String) (calls : List (OperationId × AdminOp)) :
    List OpRecord :=
  Machine.trace called appliedBy (new ownedServices) calls

variable {ownedServices : List String} {calls : List (OperationId × AdminOp)}
  {call : OperationId × AdminOp} {l : OperationLog} {h : List OpRecord} {id : OperationId}
  {op : AdminOp} {service : String}

theorem run_concat :
    run ownedServices (calls ++ [call]) = (run ownedServices calls).called call := by
  rw [run, List.foldl_append]
  rfl

theorem history_concat :
    history ownedServices (calls ++ [call]) =
      history ownedServices calls ++ (run ownedServices calls).appliedBy call := by
  rw [history, Machine.trace_append, Machine.trace, Machine.trace, List.append_nil]
  rfl

/-! ### The end of the history -/

/-- The operations of a history that a log keeps. -/
def retained (h : List OpRecord) : List OpRecord := h.rtake maxRecords

theorem length_retained (h : List OpRecord) :
    (retained h).length = min maxRecords h.length := by
  rw [retained, List.rtake, List.length_drop]
  omega

/-- One more operation goes behind those that are kept, and the first of them may go. -/
theorem retained_concat (h : List OpRecord) (record : OpRecord) :
    retained (h ++ [record]) =
      (retained h).drop ((retained h).length + 1 - maxRecords) ++ [record] := by
  have hmax : 1 ≤ maxRecords := by decide
  rw [length_retained, retained, retained]
  generalize maxRecords = bound at hmax ⊢
  have hdrop : h.length + 1 - bound = h.length - bound + (min bound h.length + 1 - bound) := by
    omega
  have hshort : h.length + 1 - bound ≤ h.length := by omega
  rw [List.rtake, List.rtake, List.drop_drop, ← hdrop, List.length_append, List.length_singleton,
    List.drop_append_of_le_length hshort]

/-- The log is the end of the history. -/
structure Refines (l : OperationLog) (h : List OpRecord) : Prop where
  sound : Sound l
  order : l.order = (retained h).map OpRecord.id
  lookup : ∀ record ∈ retained h, l.records.lookup record.id = some record
  inScope : ∀ record ∈ retained h, l.outOfScope record.op = none

theorem refines_new (ownedServices : List String) : Refines (new ownedServices) [] where
  sound := sound_new ownedServices
  order := rfl
  lookup _ hrecord := by cases hrecord
  inScope _ hrecord := by cases hrecord

theorem outOfScope_congr {l' : OperationLog} (hsame : l'.ownedServices = l.ownedServices)
    (op : AdminOp) : l'.outOfScope op = l.outOfScope op := by
  cases op with
  | bootstrap nodeName => rfl
  | setService name running => rw [outOfScope, outOfScope, hsame]

theorem Refines.recorded (hl : Refines l h) (hnew : l.records.lookup id = none)
    (hscope : l.outOfScope op = none) : Refines (l.recorded id op) (h ++ [⟨id, op⟩]) := by
  have hlength : l.order.length = (retained h).length := by
    rw [hl.order, List.length_map]
  have howned : (l.recorded id op).ownedServices = l.ownedServices := ownedServices_evict
  refine ⟨hl.sound.recorded hnew op, ?_, fun record hrecord => ?_, fun record hrecord => ?_⟩
  · rw [order_recorded, hlength, hl.order, retained_concat, List.map_append, List.map_drop]
    rfl
  · rw [retained_concat, List.mem_append, List.mem_singleton] at hrecord
    have hmem : record.id ∈ (l.recorded id op).order := by
      rw [order_recorded, hlength, hl.order, ← List.map_drop, List.mem_append]
      refine hrecord.imp (List.mem_map_of_mem (f := OpRecord.id)) ?_
      rintro rfl
      exact List.mem_singleton_self _
    -- what the order keeps has a record, which is the new one or was there
    obtain ⟨other, hother⟩ := Option.isSome_iff_exists.mp
      (AList.lookup_isSome.mpr (((hl.sound.recorded hnew op).mem_order record.id).mp hmem))
    rw [hother]
    obtain ⟨hsame, rfl⟩ | hold := hl.sound.lookup_recorded hnew hother
    · obtain hdrop | rfl := hrecord
      · have hlookup := hl.lookup record (List.mem_of_mem_drop hdrop)
        rw [hsame, hnew] at hlookup
        cases hlookup
      · rfl
    · obtain hdrop | rfl := hrecord
      · rw [← hold, hl.lookup record (List.mem_of_mem_drop hdrop)]
      · rw [hnew] at hold
        cases hold
  · rw [outOfScope_congr howned]
    rw [retained_concat, List.mem_append, List.mem_singleton] at hrecord
    obtain hdrop | rfl := hrecord
    · exact hl.inScope record (List.mem_of_mem_drop hdrop)
    · exact hscope

theorem Refines.called (hl : Refines l h) (call : OperationId × AdminOp) :
    Refines (l.called call) (h ++ l.appliedBy call) := by
  obtain ⟨e, he⟩ | ⟨record, -, -, -, hknown⟩ | ⟨hnew, hscope, happlied⟩ :=
    apply_cases l call.1 call.2
  · rw [OperationLog.called, appliedBy, he]
    exact (List.append_nil h).symm ▸ hl
  · rw [OperationLog.called, appliedBy, hknown]
    exact (List.append_nil h).symm ▸ hl
  · rw [OperationLog.called, appliedBy, happlied]
    exact hl.recorded hnew hscope

theorem refines_run (ownedServices : List String) (calls : List (OperationId × AdminOp)) :
    Refines (run ownedServices calls) (history ownedServices calls) := by
  induction calls using List.reverseRecOn with
  | nil => exact refines_new ownedServices
  | append_singleton calls call ih =>
      rw [run_concat, history_concat]
      exact ih.called call

/-! ### What can be read from the log -/

theorem Refines.lookup_iff (hl : Refines l h) {record : OpRecord} :
    l.records.lookup id = some record ↔ record ∈ retained h ∧ record.id = id := by
  constructor
  · intro hrecord
    have hmem : id ∈ l.order := by
      rw [hl.sound.mem_order, ← AList.lookup_isSome, hrecord]
      rfl
    rw [hl.order] at hmem
    obtain ⟨other, hother, rfl⟩ := List.mem_map.mp hmem
    rw [hl.lookup other hother] at hrecord
    cases hrecord
    exact ⟨hother, rfl⟩
  · rintro ⟨hrecord, rfl⟩
    exact hl.lookup record hrecord

/-- The last operation on the service wants it in this state. -/
def LastWants (h : List OpRecord) (service : String) (running : Bool) : Prop :=
  ∃ before id after, h = before ++ ⟨id, .setService service running⟩ :: after ∧
    ∀ record ∈ after, ∀ other, record.op ≠ .setService service other

theorem wants_eq_some {running : Bool} :
    op.wants service = some running ↔ op = .setService service running := by
  cases op with
  | bootstrap nodeName => simp [AdminOp.wants]
  | setService name flag =>
      rw [AdminOp.wants]
      split_ifs with hname
      · simp [hname]
      · simp [hname]

theorem wants_eq_none :
    op.wants service = none ↔ ∀ running, op ≠ .setService service running := by
  rw [Option.eq_none_iff_forall_ne_some]
  simp only [ne_eq, wants_eq_some]

theorem Refines.wanted_eq (hl : Refines l h) (service : String) :
    l.wanted service = (retained h).reverse.findSome? fun record => record.op.wants service := by
  rw [OperationLog.wanted_eq, hl.order, ← List.map_reverse, List.findSome?_map]
  refine findSome?_congr fun record hrecord => ?_
  rw [Function.comp_apply, wants, hl.lookup record (List.mem_reverse.mp hrecord)]

theorem findSome?_reverse_eq_some {running : Bool} :
    (h.reverse.findSome? fun record => record.op.wants service) = some running ↔
      LastWants h service running := by
  rw [List.findSome?_eq_some_iff]
  constructor
  · rintro ⟨after, ⟨id, op⟩, before, heq, hop, hafter⟩
    obtain rfl := wants_eq_some.mp hop
    refine ⟨before.reverse, id, after.reverse, ?_, fun record hrecord => ?_⟩
    · rw [← List.reverse_reverse h, heq]
      simp
    · exact wants_eq_none.mp (hafter record (List.mem_reverse.mp hrecord))
  · rintro ⟨before, id, after, rfl, hafter⟩
    refine ⟨after.reverse, ⟨id, .setService service running⟩, before.reverse, by simp,
      wants_eq_some.mpr rfl, fun record hrecord => ?_⟩
    exact wants_eq_none.mpr (hafter record (List.mem_reverse.mp hrecord))

theorem Refines.wanted_eq_none (hl : Refines l h) :
    l.wanted service = none ↔
      ∀ record ∈ retained h, ∀ running, record.op ≠ .setService service running := by
  rw [hl.wanted_eq, List.findSome?_eq_none_iff]
  simp only [List.mem_reverse, wants_eq_none]

/-- A kept operation is known by its id, and the id stands for no other one. -/
theorem Refines.apply_known (hl : Refines l h) {record : OpRecord} (hrecord : record ∈ retained h) :
    l.apply record.id record.op = (.ok (.alreadyApplied record), l) ∧
      ∀ op, op ≠ record.op → l.outOfScope op = none →
        l.apply record.id op = (.error .operationIdConflict, l) := by
  have hlookup := hl.lookup record hrecord
  constructor
  · rw [apply, hl.inScope record hrecord]
    dsimp only
    rw [hlookup]
    exact if_pos rfl
  · intro op hne hscope
    rw [apply, hscope]
    dsimp only
    rw [hlookup]
    exact if_neg hne.symm

/-- After any calls the log is the end of what they have applied, an id that is kept stands for
its operation, and what is wanted is what the last operation on the service wants. -/
theorem log_refines_history (ownedServices : List String)
    (calls : List (OperationId × AdminOp)) :
    let l := run ownedServices calls
    let kept := (history ownedServices calls).rtake 1000
    (kept.length = min 1000 (history ownedServices calls).length ∧
      kept <:+ history ownedServices calls ∧
      l.order = kept.map OpRecord.id ∧ l.order.Nodup ∧
      ∀ id record, l.records.lookup id = some record ↔ record ∈ kept ∧ record.id = id) ∧
    (∀ record ∈ kept,
      l.apply record.id record.op = (.ok (.alreadyApplied record), l) ∧
        ∀ op, op ≠ record.op → l.outOfScope op = none →
          l.apply record.id op = (.error .operationIdConflict, l)) ∧
    (∀ id op service, l.outOfScope op = some service →
      l.apply id op = (.error (.outOfScope service), l)) ∧
    ∀ service,
      (∀ running, l.wanted service = some running ↔ LastWants kept service running) ∧
      (l.wanted service = none ↔
        ∀ record ∈ kept, ∀ running, record.op ≠ .setService service running) := by
  intro l kept
  have hl : Refines l (history ownedServices calls) := refines_run ownedServices calls
  refine ⟨⟨length_retained _, List.drop_suffix _ _, hl.order, hl.sound.nodup,
    fun id record => hl.lookup_iff⟩, fun record hrecord => hl.apply_known hrecord, ?_, ?_⟩
  · intro id op service hscope
    rw [apply, hscope]
  · refine fun service => ⟨fun running => ?_, hl.wanted_eq_none⟩
    rw [hl.wanted_eq]
    exact findSome?_reverse_eq_some

/-- An id that is kept and comes with another operation on a foreign service: the scope is
looked at first. -/
theorem foreign_service_hides_conflict :
    (run ["gateway"] [("op-1", .setService "gateway" true)]).records.lookup "op-1" =
        some ⟨"op-1", .setService "gateway" true⟩ ∧
      ((run ["gateway"] [("op-1", .setService "gateway" true)]).apply "op-1"
        (.setService "agent" true)).1 = .error (.outOfScope "agent") ∧
      ¬ ∀ (ownedServices : List String) (calls : List (OperationId × AdminOp)) (record : OpRecord),
        (run ownedServices calls).records.lookup record.id = some record →
          ∀ op, op ≠ record.op →
            ((run ownedServices calls).apply record.id op).1 = .error .operationIdConflict := by
  have hkept : (run ["gateway"] [("op-1", .setService "gateway" true)]).records.lookup "op-1" =
      some ⟨"op-1", .setService "gateway" true⟩ := by decide
  have hscope : ((run ["gateway"] [("op-1", .setService "gateway" true)]).apply "op-1"
      (.setService "agent" true)).1 = .error (.outOfScope "agent") := by decide
  refine ⟨hkept, hscope, fun h => ?_⟩
  have hconflict := h ["gateway"] [("op-1", .setService "gateway" true)]
    ⟨"op-1", .setService "gateway" true⟩ hkept (.setService "agent" true) (by decide)
  rw [hscope] at hconflict
  cases hconflict

end OperationLog

end DdsOrchestrator.Studio
