import DdsOrchestrator.Lib.Assoc
import DdsOrchestrator.Lib.Machine

/-!
The log of a node's operations. An operation is known by its id: the same id with the same
payload is answered from its record, and with another payload it is refused. The last
operations are kept, and the last one on a service says in which state it is wanted.
-/

namespace DdsOrchestrator.Studio

abbrev OperationId := String

inductive AdminOp where
  | bootstrap (nodeName : String)
  | setService (service : String) (running : Bool)
  deriving DecidableEq

structure OpRecord where
  id : OperationId
  op : AdminOp
  deriving DecidableEq

inductive OpOutcome where
  | applied (record : OpRecord)
  | alreadyApplied (record : OpRecord)
  deriving DecidableEq

inductive NodeError where
  | operationIdConflict
  | outOfScope (service : String)
  | storage (detail : String)
  deriving DecidableEq

def NodeError.message : NodeError → String
  | operationIdConflict => "operation_id reutilizado com payload distinto"
  | outOfScope service => "servico fora do escopo do no: " ++ service
  | storage detail => "falha de persistencia: " ++ detail

def maxRecords : ℕ := 1000

structure OperationLog where
  ownedServices : List String
  records : Map OperationId OpRecord
  order : List OperationId

/-- The state in which an operation wants the service. -/
def AdminOp.wants (service : String) : AdminOp → Option Bool
  | setService name running => if name = service then some running else none
  | bootstrap _ => none

namespace OperationLog

def new (ownedServices : List String) : OperationLog := ⟨ownedServices, ∅, []⟩

/-- Drop the oldest operations until few enough are left. -/
def evict (ownedServices : List String) (records : Map OperationId OpRecord) :
    List OperationId → OperationLog
  | [] => ⟨ownedServices, records, []⟩
  | oldest :: order =>
      if maxRecords < (oldest :: order).length then
        evict ownedServices (records.erase oldest) order
      else ⟨ownedServices, records, oldest :: order⟩

/-- The service of an operation if it is not one of the node's own. -/
def outOfScope (l : OperationLog) : AdminOp → Option String
  | .setService service _ => if service ∈ l.ownedServices then none else some service
  | .bootstrap _ => none

/-- The log with one more operation. -/
def recorded (l : OperationLog) (id : OperationId) (op : AdminOp) : OperationLog :=
  evict l.ownedServices (l.records.insert id ⟨id, op⟩) (l.order ++ [id])

def apply (l : OperationLog) (id : OperationId) (op : AdminOp) :
    Except NodeError OpOutcome × OperationLog :=
  match l.outOfScope op with
  | some service => (.error (.outOfScope service), l)
  | none =>
      match l.records.lookup id with
      | some record =>
          if record.op = op then (.ok (.alreadyApplied record), l)
          else (.error .operationIdConflict, l)
      | none => (.ok (.applied ⟨id, op⟩), l.recorded id op)

def reconcile (l : OperationLog) (id : OperationId) : Option OpRecord := l.records.lookup id

/-- The last operation on the service, as far as the log goes back. -/
def wanted (l : OperationLog) (service : String) : Option Bool :=
  l.order.reverse.findSome? fun id =>
    match l.records.lookup id with
    | none => none
    | some record => record.op.wants service

/-- One more of the records that were kept; of an id that comes twice the first. -/
def adopt (l : OperationLog) (record : OpRecord) : OperationLog :=
  if record.id ∈ l.records then l
  else { l with records := l.records.insert record.id record, order := l.order ++ [record.id] }

def restore (ownedServices : List String) (recordsInOrder : List OpRecord) : OperationLog :=
  let l := recordsInOrder.foldl adopt (new ownedServices)
  evict l.ownedServices l.records l.order

/-! ### What a log keeps -/

/-- The log is its records in their order. -/
structure Sound (l : OperationLog) : Prop where
  nodup : l.order.Nodup
  mem_order : ∀ id, id ∈ l.order ↔ id ∈ l.records
  id_eq : ∀ id record, l.records.lookup id = some record → record.id = id
  bounded : l.order.length ≤ maxRecords

theorem sound_new (ownedServices : List String) : Sound (new ownedServices) where
  nodup := .nil
  mem_order id := by simp [new]
  id_eq id record h := by simp [new] at h
  bounded := Nat.zero_le _

variable {ownedServices : List String} {records : Map OperationId OpRecord}
  {order : List OperationId} {id : OperationId} {op : AdminOp} {l : OperationLog}
  {service : String}

@[simp] theorem ownedServices_evict :
    (evict ownedServices records order).ownedServices = ownedServices := by
  induction order generalizing records with
  | nil => rfl
  | cons oldest order ih =>
      rw [evict]
      split
      · exact ih
      · rfl

theorem order_evict :
    (evict ownedServices records order).order = order.drop (order.length - maxRecords) := by
  induction order generalizing records with
  | nil => rfl
  | cons oldest order ih =>
      rw [evict]
      split
      · next hlong =>
          rw [List.length_cons] at hlong
          have hdrop : (oldest :: order).length - maxRecords =
              (order.length - maxRecords) + 1 := by
            rw [List.length_cons]
            omega
          rw [ih, hdrop, List.drop_succ_cons]
      · next hshort =>
          have hdrop : (oldest :: order).length - maxRecords = 0 := by omega
          rw [hdrop, List.drop_zero]

/-- The records of the ids that are dropped go, the others stay. -/
theorem lookup_evict (hnodup : order.Nodup) (id : OperationId) :
    (evict ownedServices records order).records.lookup id =
      if id ∈ order.take (order.length - maxRecords) then none else records.lookup id := by
  induction order generalizing records with
  | nil => rfl
  | cons oldest order ih =>
      obtain ⟨hnotMem, hrest⟩ := List.nodup_cons.mp hnodup
      rw [evict]
      split
      · next hlong =>
          rw [List.length_cons] at hlong
          have htake : (oldest :: order).length - maxRecords =
              (order.length - maxRecords) + 1 := by
            rw [List.length_cons]
            omega
          rw [ih hrest, htake, List.take_succ_cons, Map.lookup_erase_if]
          by_cases hid : id = oldest
          · subst hid
            simp
          · simp [hid]
      · next hshort =>
          have htake : (oldest :: order).length - maxRecords = 0 := by omega
          rw [htake, List.take_zero]
          simp

/-- Eviction makes a log of records in their order bounded, and keeps it one. -/
theorem sound_evict (hnodup : order.Nodup) (hmem : ∀ id, id ∈ order ↔ id ∈ records)
    (hid : ∀ id record, records.lookup id = some record → record.id = id) :
    Sound (evict ownedServices records order) where
  nodup := by
    rw [order_evict]
    exact hnodup.sublist (List.drop_sublist _ _)
  mem_order id := by
    have hsplit : (order.take (order.length - maxRecords) ++
        order.drop (order.length - maxRecords)).Nodup := by
      rw [List.take_append_drop]
      exact hnodup
    have hor : id ∈ order.take (order.length - maxRecords) ∨
        id ∈ order.drop (order.length - maxRecords) ↔ id ∈ records := by
      rw [← List.mem_append, List.take_append_drop]
      exact hmem id
    -- an id is dropped or kept, never both
    rw [order_evict, ← AList.lookup_isSome, lookup_evict hnodup]
    split
    · next hdropped =>
        have hgone : id ∉ order.drop (order.length - maxRecords) :=
          List.disjoint_of_nodup_append hsplit hdropped
        simp [hgone]
    · next hkept =>
        rw [AList.lookup_isSome, ← hor]
        simp [hkept]
  id_eq id record h := by
    rw [lookup_evict hnodup] at h
    split at h
    · cases h
    · exact hid id record h
  bounded := by
    rw [order_evict, List.length_drop]
    omega

theorem evict_of_le (h : order.length ≤ maxRecords) :
    evict ownedServices records order = ⟨ownedServices, records, order⟩ := by
  cases order with
  | nil => rfl
  | cons oldest order =>
      rw [evict, if_neg]
      omega

/-- A record with an id of its own goes behind the others. -/
theorem concat_kept (hnodup : order.Nodup) (hmem : ∀ id, id ∈ order ↔ id ∈ records)
    (hid : ∀ id record, records.lookup id = some record → record.id = id) (record : OpRecord)
    (hnew : record.id ∉ order) :
    (order ++ [record.id]).Nodup ∧
      (∀ id, id ∈ order ++ [record.id] ↔ id ∈ records.insert record.id record) ∧
      ∀ id other, (records.insert record.id record).lookup id = some other → other.id = id := by
  refine ⟨?_, fun id => ?_, fun id other h => ?_⟩
  · rw [List.nodup_append_comm]
    exact List.nodup_cons.mpr ⟨hnew, hnodup⟩
  · rw [List.mem_append, hmem, List.mem_singleton, AList.mem_insert, or_comm]
  · obtain ⟨rfl, rfl⟩ | ⟨-, hold⟩ := Map.lookup_insert_eq_some.mp h
    · rfl
    · exact hid id other hold

/-- Whatever records are given. -/
theorem sound_restore (ownedServices : List String) (recordsInOrder : List OpRecord) :
    Sound (restore ownedServices recordsInOrder) := by
  have hkeep : ∀ (l : OperationLog) (record : OpRecord),
      (l.order.Nodup ∧ (∀ id, id ∈ l.order ↔ id ∈ l.records) ∧
        ∀ id record, l.records.lookup id = some record → record.id = id) →
      (l.adopt record).order.Nodup ∧
        (∀ id, id ∈ (l.adopt record).order ↔ id ∈ (l.adopt record).records) ∧
        ∀ id other, (l.adopt record).records.lookup id = some other → other.id = id := by
    rintro l record ⟨hnodup, hmem, hid⟩
    unfold adopt
    split
    · exact ⟨hnodup, hmem, hid⟩
    · next hnew =>
        exact concat_kept hnodup hmem hid record fun h => hnew ((hmem record.id).mp h)
  have hnew := sound_new ownedServices
  obtain ⟨hnodup, hmem, hid⟩ := Machine.foldl_invariant recordsInOrder
    ⟨hnew.nodup, hnew.mem_order, hnew.id_eq⟩ hkeep
  exact sound_evict hnodup hmem hid

/-- Records with ids of their own are all taken. -/
theorem foldl_adopt {rs : List OpRecord} (hnodup : (rs.map OpRecord.id).Nodup)
    (hnew : ∀ record ∈ rs, record.id ∉ l.records) :
    (rs.foldl adopt l).ownedServices = l.ownedServices ∧
      (rs.foldl adopt l).order = l.order ++ rs.map OpRecord.id ∧
      (∀ record ∈ rs, (rs.foldl adopt l).records.lookup record.id = some record) ∧
      ∀ id, id ∉ rs.map OpRecord.id →
        (rs.foldl adopt l).records.lookup id = l.records.lookup id := by
  induction rs generalizing l with
  | nil => simp
  | cons record rs ih =>
      obtain ⟨hnotMem, hrest⟩ := List.nodup_cons.mp hnodup
      have hstep : l.adopt record = { l with
          records := l.records.insert record.id record, order := l.order ++ [record.id] } :=
        if_neg (hnew record List.mem_cons_self)
      have hothers : ∀ other ∈ rs, other.id ∉ (l.adopt record).records := by
        intro other hother
        rw [hstep, AList.mem_insert]
        rintro (hsame | hold)
        · exact hnotMem (hsame ▸ List.mem_map_of_mem hother)
        · exact hnew other (List.mem_cons_of_mem _ hother) hold
      obtain ⟨howned, horder, hmem, hrestLookup⟩ := ih hrest hothers
      rw [List.foldl_cons]
      refine ⟨?_, ?_, ?_, ?_⟩
      · rw [howned, hstep]
      · rw [horder, hstep, List.append_assoc]
        rfl
      · intro other hother
        obtain rfl | hother := List.mem_cons.mp hother
        · rw [hrestLookup _ hnotMem, hstep, AList.lookup_insert]
        · exact hmem other hother
      · intro id hid
        rw [List.map_cons, List.mem_cons, not_or] at hid
        rw [hrestLookup id hid.2, hstep, AList.lookup_insert_ne hid.1]

/-- What a call does: it is refused, it is known, or it is recorded behind the others. -/
theorem apply_cases (l : OperationLog) (id : OperationId) (op : AdminOp) :
    (∃ e, l.apply id op = (.error e, l)) ∨
      (∃ record, l.records.lookup id = some record ∧ record.op = op ∧
        l.outOfScope op = none ∧ l.apply id op = (.ok (.alreadyApplied record), l)) ∨
      (l.records.lookup id = none ∧ l.outOfScope op = none ∧
        l.apply id op = (.ok (.applied ⟨id, op⟩), l.recorded id op)) := by
  unfold apply
  split
  · exact .inl ⟨_, rfl⟩
  · next hscope =>
      split
      · next record hrecord =>
          split
          · next heq => exact .inr (.inl ⟨record, hrecord, heq, hscope, rfl⟩)
          · exact .inl ⟨_, rfl⟩
      · next hnone => exact .inr (.inr ⟨hnone, hscope, rfl⟩)

/-- The new id is never the one that is evicted. -/
theorem kept_le (l : OperationLog) : l.order.length + 1 - maxRecords ≤ l.order.length := by
  have hmax : 1 ≤ maxRecords := by decide
  omega

theorem order_recorded (l : OperationLog) (id : OperationId) (op : AdminOp) :
    (l.recorded id op).order = l.order.drop (l.order.length + 1 - maxRecords) ++ [id] := by
  rw [recorded, order_evict, List.length_append, List.length_singleton,
    List.drop_append_of_le_length l.kept_le]

theorem Sound.notMem_order (hl : Sound l) (hnew : l.records.lookup id = none) :
    id ∉ l.order := by
  rw [hl.mem_order]
  exact AList.lookup_eq_none.mp hnew

theorem Sound.recorded (hl : Sound l) (hnew : l.records.lookup id = none) (op : AdminOp) :
    Sound (l.recorded id op) := by
  obtain ⟨hnodup, hmem, hid⟩ :=
    concat_kept hl.nodup hl.mem_order hl.id_eq ⟨id, op⟩ (hl.notMem_order hnew)
  exact sound_evict hnodup hmem hid

theorem Sound.lookup_evict (hl : Sound l) (hnew : l.records.lookup id = none) (op : AdminOp)
    (other : OperationId) :
    (l.recorded id op).records.lookup other =
      if other ∈ (l.order ++ [id]).take ((l.order ++ [id]).length - maxRecords) then none
      else (l.records.insert id ⟨id, op⟩).lookup other := by
  apply OperationLog.lookup_evict
  rw [List.nodup_append_comm]
  exact List.nodup_cons.mpr ⟨hl.notMem_order hnew, hl.nodup⟩

/-- A record is the new one or was there. -/
theorem Sound.lookup_recorded (hl : Sound l) (hnew : l.records.lookup id = none)
    {other : OperationId} {record : OpRecord}
    (h : (l.recorded id op).records.lookup other = some record) :
    other = id ∧ record = ⟨id, op⟩ ∨ l.records.lookup other = some record := by
  rw [hl.lookup_evict hnew] at h
  split at h
  · cases h
  · exact (Map.lookup_insert_eq_some.mp h).imp_right And.right

theorem Sound.apply (hl : Sound l) (id : OperationId) (op : AdminOp) :
    Sound (l.apply id op).2 := by
  obtain ⟨e, he⟩ | ⟨record, -, -, -, hknown⟩ | ⟨hnew, -, happlied⟩ := apply_cases l id op
  · rw [he]
    exact hl
  · rw [hknown]
    exact hl
  · rw [happlied]
    exact hl.recorded hnew op

/-- The state in which the record of an id wants the service. -/
def wants (records : Map OperationId OpRecord) (service : String) (id : OperationId) :
    Option Bool :=
  match records.lookup id with
  | none => none
  | some record => record.op.wants service

theorem wanted_eq (l : OperationLog) (service : String) :
    l.wanted service = l.order.reverse.findSome? (wants l.records service) := rfl

theorem findSome?_congr {α β : Type*} {f g : α → Option β} {l : List α}
    (h : ∀ a ∈ l, f a = g a) : l.findSome? f = l.findSome? g := by
  induction l with
  | nil => rfl
  | cons a l ih =>
      rw [List.findSome?_cons, List.findSome?_cons, h a List.mem_cons_self,
        ih fun b hb => h b (List.mem_cons_of_mem _ hb)]

/-- The new record is the last one of its log. -/
theorem Sound.wanted_recorded_eq (hl : Sound l) (hnew : l.records.lookup id = none)
    (op : AdminOp) (service : String) :
    (l.recorded id op).wanted service =
      (op.wants service).or
        ((l.order.drop (l.order.length + 1 - maxRecords)).reverse.findSome?
          (wants l.records service)) := by
  have hnotMem := hl.notMem_order hnew
  have hlook := hl.lookup_evict hnew op
  rw [List.length_append, List.length_singleton, List.take_append_of_le_length l.kept_le] at hlook
  have hself : id ∉ l.order.take (l.order.length + 1 - maxRecords) :=
    fun hmem => hnotMem (List.mem_of_mem_take hmem)
  have hid : wants (l.recorded id op).records service id = op.wants service := by
    rw [wants, hlook, if_neg hself, AList.lookup_insert]
  -- an older id that is still in the order has the record it had
  have hothers : ∀ other ∈ (l.order.drop (l.order.length + 1 - maxRecords)).reverse,
      wants (l.recorded id op).records service other = wants l.records service other := by
    intro other hother
    rw [List.mem_reverse] at hother
    have hkept : other ∉ l.order.take (l.order.length + 1 - maxRecords) := by
      intro hdropped
      have hsplit := hl.nodup
      rw [← List.take_append_drop (l.order.length + 1 - maxRecords) l.order] at hsplit
      exact List.disjoint_of_nodup_append hsplit hdropped hother
    have hne : other ≠ id := by
      rintro rfl
      exact hnotMem (List.mem_of_mem_drop hother)
    rw [wants, hlook, if_neg hkept, AList.lookup_insert_ne hne]
    rfl
  rw [wanted_eq, order_recorded, List.reverse_append, List.reverse_singleton,
    List.singleton_append, List.findSome?_cons, hid]
  cases op.wants service with
  | some running => rfl
  | none =>
      rw [Option.none_or]
      exact findSome?_congr hothers

/-- An operation on the service is what is wanted from then on. -/
theorem Sound.wanted_recorded_self (hl : Sound l) (hnew : l.records.lookup id = none)
    {running : Bool} (hop : op.wants service = some running) :
    (l.recorded id op).wanted service = some running := by
  rw [hl.wanted_recorded_eq hnew, hop]
  rfl

/-- Any other operation leaves what is wanted, unless the log forgets it. -/
theorem Sound.wanted_recorded_other (hl : Sound l) (hnew : l.records.lookup id = none)
    {running : Bool} (hop : op.wants service = none)
    (h : (l.recorded id op).wanted service = some running) : l.wanted service = some running := by
  rw [hl.wanted_recorded_eq hnew, hop, Option.none_or] at h
  rw [wanted_eq, ← List.take_append_drop (l.order.length + 1 - maxRecords) l.order,
    List.reverse_append, List.findSome?_append, h]
  rfl

end OperationLog

end DdsOrchestrator.Studio
