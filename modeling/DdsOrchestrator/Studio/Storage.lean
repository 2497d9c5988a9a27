import Mathlib.Data.List.Sort
import DdsOrchestrator.Studio.Operations

/-!
Where a node keeps its log: a file of JSON that has the whole log, or a database that has
the services and, in their order, the records. A database that was never written takes over
the file that stands beside it. The reader and the writer of JSON are not part of the
repository, and what files and database answer is given with each call; a transaction is
made as a whole or not at all.
-/

namespace DdsOrchestrator.Studio

/-- The log as the file has it. Old files have no order. -/
structure LogJson where
  ownedServices : List String
  records : Map OperationId OpRecord
  order : Option (List OperationId)

def LogJson.log (j : LogJson) : OperationLog := ⟨j.ownedServices, j.records, j.order.getD []⟩

def OperationLog.toJson (l : OperationLog) : LogJson := ⟨l.ownedServices, l.records, some l.order⟩

structure LogSerde where
  logToString : LogJson → Except String String
  logFromStr : String → Except String LogJson
  ownedToString : List String → Except String String
  ownedFromStr : String → Except String (List String)
  opToString : AdminOp → Except String String
  opFromStr : String → Except String AdminOp

/-- What is written of the log is read as it was. -/
structure LogSerde.RoundTripsOn (serde : LogSerde) (l : OperationLog) : Prop where
  log : ∃ text, serde.logToString l.toJson = .ok text ∧ serde.logFromStr text = .ok l.toJson
  owned : ∃ text, serde.ownedToString l.ownedServices = .ok text ∧
    serde.ownedFromStr text = .ok l.ownedServices
  op : ∀ id record, l.records.lookup id = some record →
    ∃ text, serde.opToString record.op = .ok text ∧ serde.opFromStr text = .ok record.op

inductive ConnectIo where
  | ok
  | mkdirFails (parent err : String)
  | openFails (err : String)
  | schemaFails (err : String)
  deriving DecidableEq

/-- What the file system and the database answer, where they fail. A write of a file that
fails leaves something in its place. -/
structure StorageIo where
  fileRead : Option String
  fileWrite : Option (String × Option String)
  connection : ConnectIo
  count : Option String
  transaction : Option String
  rename : Option String
  select : Option String

/-- Nothing fails. -/
def StorageIo.ok : StorageIo := ⟨none, none, .ok, none, none, none, none⟩

section

variable (serde : LogSerde) (io : StorageIo)

/-! ### The file -/

def OperationLog.save (l : OperationLog) (file : Option String) :
    Except NodeError Unit × Option String :=
  match serde.logToString l.toJson with
  | .error err => (.error (.storage err), file)
  | .ok json =>
      match io.fileWrite with
      | some (err, left) => (.error (.storage err), left)
      | none => (.ok (), some json)

def OperationLog.load (json : String) : Except NodeError OperationLog :=
  match io.fileRead with
  | some err => .error (.storage err)
  | none =>
      match serde.logFromStr json with
      | .error err => .error (.storage err)
      | .ok j => .ok j.log

structure JsonStorage where
  file : Option String

namespace JsonStorage

def save (s : JsonStorage) (l : OperationLog) : Except NodeError Unit × JsonStorage :=
  let (result, file) := l.save serde io s.file
  (result, ⟨file⟩)

def load (s : JsonStorage) : Except NodeError (Option OperationLog) :=
  match s.file with
  | none => .ok none
  | some json =>
      match OperationLog.load serde io json with
      | .error e => .error e
      | .ok l => .ok (some l)

end JsonStorage

/-! ### The database -/

/-- A row of `operations`. -/
structure OpRow where
  seq : ℕ
  opId : String
  opJson : String
  deriving DecidableEq

structure Db where
  logMeta : List (String × String)
  operations : List OpRow
  deriving DecidableEq

/-- The database, the file of JSON beside it and the one that was taken over. -/
structure SqliteStorage where
  db : Db
  json : Option String
  imported : Option String
  deriving DecidableEq

namespace SqliteStorage

def connection : Except NodeError Unit :=
  match io.connection with
  | .ok => .ok ()
  | .mkdirFails parent err => .error (.storage (parent ++ ": " ++ err))
  | .openFails err => .error (.storage ("sqlite: " ++ err))
  | .schemaFails err => .error (.storage ("sqlite schema: " ++ err))

def rowOf (l : OperationLog) (e : OperationId × ℕ) : Option OpRow :=
  match l.reconcile e.1 with
  | none => none
  | some record =>
      match serde.opToString record.op with
      | .error _ => none
      | .ok opJson => some ⟨e.2 + 1, e.1, opJson⟩

/-- The rows of the records that the order leads to. -/
def rowsOf (l : OperationLog) : List OpRow := l.order.zipIdx.filterMap (rowOf serde l)

/-- `seq` is the primary key, and `op_id` is unique. -/
def insertRow (rows : List OpRow) (row : OpRow) : Except String (List OpRow) :=
  if row.seq ∈ rows.map OpRow.seq then .error "UNIQUE constraint failed: operations.seq"
  else if row.opId ∈ rows.map OpRow.opId then
    .error "UNIQUE constraint failed: operations.op_id"
  else .ok (rows ++ [row])

def insertRows (rows : List OpRow) : List OpRow → Except String (List OpRow)
  | [] => .ok rows
  | row :: more =>
      match insertRow rows row with
      | .error err => .error err
      | .ok rows' => insertRows rows' more

def write (db : Db) (l : OperationLog) : Except NodeError Unit × Db :=
  match serde.ownedToString l.ownedServices with
  | .error err => (.error (.storage err), db)
  | .ok owned =>
      match io.transaction with
      | some err => (.error (.storage ("sqlite: " ++ err)), db)
      | none =>
          match insertRows [] (rowsOf serde l) with
          | .error err => (.error (.storage ("sqlite: " ++ err)), db)
          | .ok rows => (.ok (), ⟨[("owned_services", owned)], rows⟩)

def readRecords : List OpRow → Except NodeError (List OpRecord)
  | [] => .ok []
  | row :: rows =>
      match serde.opFromStr row.opJson with
      | .error err => .error (.storage ("op corrompida " ++ row.opId ++ ": " ++ err))
      | .ok op =>
          match readRecords rows with
          | .error e => .error e
          | .ok records => .ok (⟨row.opId, op⟩ :: records)

def read (db : Db) : Except NodeError (Option OperationLog) :=
  match io.select with
  | some err => .error (.storage ("sqlite: " ++ err))
  | none =>
      match db.logMeta.lookup "owned_services" with
      | none => .ok none
      | some owned =>
          match serde.ownedFromStr owned with
          | .error err => .error (.storage ("meta corrompida: " ++ err))
          | .ok ownedServices =>
              match readRecords serde (db.operations.insertionSort fun a b => a.seq ≤ b.seq) with
              | .error e => .error e
              | .ok records => .ok (some (.restore ownedServices records))

@[simp] theorem connection_ok : connection .ok = .ok () := rfl

def fresh (s : SqliteStorage) : Bool :=
  s.db.logMeta.length = 0 ∧ s.db.operations.length = 0

def migrateFromJsonIfFresh (s : SqliteStorage) : Except NodeError Unit × SqliteStorage :=
  match io.count with
  | some err => (.error (.storage ("sqlite: " ++ err)), s)
  | none =>
      if s.fresh then
        match s.json with
        | none => (.ok (), s)
        | some json =>
            match OperationLog.load serde io json with
            | .error e => (.error e, s)
            | .ok l =>
                match write serde io s.db l with
                | (.error e, db) => (.error e, { s with db := db })
                | (.ok (), db) =>
                    -- the rows stay when the file cannot be put aside
                    match io.rename with
                    | some err => (.error (.storage ("migração: " ++ err)), { s with db := db })
                    | none => (.ok (), ⟨db, none, some json⟩)
      else (.ok (), s)

def save (s : SqliteStorage) (l : OperationLog) : Except NodeError Unit × SqliteStorage :=
  match connection io with
  | .error e => (.error e, s)
  | .ok () =>
      let (result, db) := write serde io s.db l
      (result, { s with db := db })

def load (s : SqliteStorage) : Except NodeError (Option OperationLog) × SqliteStorage :=
  match connection io with
  | .error e => (.error e, s)
  | .ok () =>
      match s.migrateFromJsonIfFresh serde io with
      | (.error e, s') => (.error e, s')
      | (.ok (), s') => (read serde io s'.db, s')

end SqliteStorage

end

/-! ### The same log -/

namespace OperationLog

inductive Call where
  | apply (id : OperationId) (op : AdminOp)
  | reconcile (id : OperationId)
  | wanted (service : String)

inductive Answer where
  | applied (result : Except NodeError OpOutcome)
  | reconciled (record : Option OpRecord)
  | wanted (running : Option Bool)

def next (l : OperationLog) : Call → OperationLog
  | .apply id op => (l.apply id op).2
  | .reconcile _ | .wanted _ => l

def answer (l : OperationLog) : Call → List Answer
  | .apply id op => [.applied (l.apply id op).1]
  | .reconcile id => [.reconciled (l.reconcile id)]
  | .wanted service => [.wanted (l.wanted service)]

/-- What a log answers, call after call. -/
def answers (l : OperationLog) (calls : List Call) : List Answer :=
  Machine.trace next answer l calls

/-- The same services, the same record under every id and the same order. -/
structure Same (a b : OperationLog) : Prop where
  ownedServices_eq : a.ownedServices = b.ownedServices
  lookup_eq : ∀ id, a.records.lookup id = b.records.lookup id
  order_eq : a.order = b.order

variable {a b : OperationLog} {l : OperationLog} {id : OperationId} {op : AdminOp}

theorem Same.evict {owned : List String} {order : List OperationId}
    {records records' : Map OperationId OpRecord}
    (h : ∀ id, records.lookup id = records'.lookup id) :
    Same (OperationLog.evict owned records order) (OperationLog.evict owned records' order) := by
  induction order generalizing records records' with
  | nil => exact ⟨rfl, h, rfl⟩
  | cons oldest order ih =>
      rw [OperationLog.evict, OperationLog.evict]
      split
      · apply ih
        intro id
        rw [Map.lookup_erase_if, Map.lookup_erase_if, h]
      · exact ⟨rfl, h, rfl⟩

theorem Same.apply (h : Same a b) (id : OperationId) (op : AdminOp) :
    (a.apply id op).1 = (b.apply id op).1 ∧ Same (a.apply id op).2 (b.apply id op).2 := by
  have hscope : a.outOfScope op = b.outOfScope op := by
    cases op with
    | bootstrap name => rfl
    | setService service running => rw [outOfScope, outOfScope, h.ownedServices_eq]
  have hrecorded : Same (a.recorded id op) (b.recorded id op) := by
    rw [recorded, recorded, h.ownedServices_eq, h.order_eq]
    apply Same.evict
    intro other
    rw [Map.lookup_insert_if, Map.lookup_insert_if, h.lookup_eq]
  rw [OperationLog.apply, OperationLog.apply, hscope, h.lookup_eq id]
  split
  · exact ⟨rfl, h⟩
  · split
    · split
      · exact ⟨rfl, h⟩
      · exact ⟨rfl, h⟩
    · exact ⟨rfl, hrecorded⟩

theorem Same.wanted (h : Same a b) (service : String) : a.wanted service = b.wanted service := by
  rw [wanted_eq, wanted_eq, h.order_eq]
  refine findSome?_congr fun id _ => ?_
  rw [wants, wants, h.lookup_eq]

theorem Same.answer_eq (h : Same a b) (c : Call) :
    a.answer c = b.answer c ∧ Same (a.next c) (b.next c) := by
  cases c with
  | apply id op =>
      obtain ⟨hresult, hnext⟩ := h.apply id op
      exact ⟨congrArg (fun result => [Answer.applied result]) hresult, hnext⟩
  | reconcile id => exact ⟨congrArg (fun record => [Answer.reconciled record]) (h.lookup_eq id), h⟩
  | wanted service =>
      exact ⟨congrArg (fun running => [Answer.wanted running]) (h.wanted service), h⟩

theorem Same.answers_eq (h : Same a b) (calls : List Call) : a.answers calls = b.answers calls := by
  induction calls generalizing a b with
  | nil => rfl
  | cons c calls ih =>
      obtain ⟨hanswer, hnext⟩ := h.answer_eq c
      have htail := ih hnext
      unfold answers at htail ⊢
      rw [Machine.trace, Machine.trace, hanswer, htail]

/-- Only a log of records in their order is the same as one. -/
theorem Same.sound (h : Same a b) (ha : a.Sound) : b.Sound where
  nodup := h.order_eq ▸ ha.nodup
  mem_order id := by
    rw [← h.order_eq, ha.mem_order, ← AList.lookup_isSome, ← AList.lookup_isSome, h.lookup_eq]
  id_eq id record hrecord := ha.id_eq id record ((h.lookup_eq id).trans hrecord)
  bounded := h.order_eq ▸ ha.bounded

/-- The records in their order give the log again. -/
theorem Sound.restore (hl : l.Sound) :
    Same (OperationLog.restore l.ownedServices (l.order.filterMap l.records.lookup)) l := by
  have hids : ∀ order : List OperationId, (∀ id ∈ order, id ∈ l.records) →
      (order.filterMap l.records.lookup).map OpRecord.id = order := by
    intro order hmem
    induction order with
    | nil => rfl
    | cons id order ih =>
        obtain ⟨record, hrecord⟩ := Option.isSome_iff_exists.mp
          (AList.lookup_isSome.mpr (hmem id List.mem_cons_self))
        have hcons : (id :: order).filterMap l.records.lookup =
            record :: order.filterMap l.records.lookup := List.filterMap_cons_some hrecord
        rw [hcons, List.map_cons, hl.id_eq id record hrecord,
          ih fun other hother => hmem other (List.mem_cons_of_mem _ hother)]
  have hall := hids l.order fun id hid => (hl.mem_order id).mp hid
  obtain ⟨howned, horder, hmem, hrest⟩ := foldl_adopt (l := new l.ownedServices)
    (hall ▸ hl.nodup) fun record _ => by simp [new]
  have hlen : (l.order.filterMap l.records.lookup |>.foldl adopt
      (new l.ownedServices)).order.length ≤ maxRecords := by
    rw [horder, hall]
    exact hl.bounded
  rw [OperationLog.restore, evict_of_le hlen]
  refine ⟨howned, fun id => ?_, by rw [horder, hall]; rfl⟩
  by_cases hid : id ∈ l.order
  · obtain ⟨record, hrecord⟩ := Option.isSome_iff_exists.mp
      (AList.lookup_isSome.mpr ((hl.mem_order id).mp hid))
    have hself := hl.id_eq id record hrecord
    rw [hrecord, ← hself]
    exact hmem record (List.mem_filterMap.mpr ⟨id, hid, hrecord⟩)
  · -- an id that is not in the order has no record in either log
    rw [hrest id (by rwa [hall])]
    exact (AList.lookup_eq_none.mpr fun h => hid ((hl.mem_order id).mpr h)).symm

end OperationLog

/-! ### What the database gives back -/

namespace SqliteStorage

variable {serde : LogSerde} {io : StorageIo} {l : OperationLog} {s : SqliteStorage}

/-- Rows of records that are there are written in the order, and read as the records. -/
theorem rows_of_order {order : List OperationId} {k : ℕ}
    (h : ∀ id ∈ order, ∃ record, l.records.lookup id = some record ∧ record.id = id ∧
      ∃ text, serde.opToString record.op = .ok text ∧ serde.opFromStr text = .ok record.op) :
    ((order.zipIdx k).filterMap (rowOf serde l)).map OpRow.opId = order ∧
      ((order.zipIdx k).filterMap (rowOf serde l)).Pairwise (fun a b => a.seq < b.seq) ∧
      (∀ row ∈ (order.zipIdx k).filterMap (rowOf serde l), k < row.seq) ∧
      readRecords serde ((order.zipIdx k).filterMap (rowOf serde l)) =
        .ok (order.filterMap l.records.lookup) := by
  induction order generalizing k with
  | nil => exact ⟨rfl, .nil, nofun, rfl⟩
  | cons id order ih =>
      obtain ⟨record, hrecord, hid, text, hto, hfrom⟩ := h id List.mem_cons_self
      obtain ⟨hids, hsorted, hlater, hread⟩ :=
        ih (k := k + 1) fun other hother => h other (List.mem_cons_of_mem _ hother)
      have hrow : rowOf serde l (id, k) = some ⟨k + 1, id, text⟩ := by
        simp only [rowOf, OperationLog.reconcile, hrecord, hto]
      have hrows : ((id :: order).zipIdx k).filterMap (rowOf serde l) =
          ⟨k + 1, id, text⟩ :: (order.zipIdx (k + 1)).filterMap (rowOf serde l) := by
        rw [List.zipIdx_cons, List.filterMap_cons_some hrow]
      have hrecords : (id :: order).filterMap l.records.lookup =
          record :: order.filterMap l.records.lookup := List.filterMap_cons_some hrecord
      rw [hrows, hrecords]
      refine ⟨by rw [List.map_cons, hids], List.pairwise_cons.mpr ⟨hlater, hsorted⟩, ?_, ?_⟩
      · intro row hrow
        obtain rfl | hrow := List.mem_cons.mp hrow
        · exact Nat.lt_succ_self k
        · have hlt := hlater row hrow
          omega
      · rw [readRecords, hfrom, hread]
        simp [← hid]

theorem insertRows_eq {rows more : List OpRow} (hseq : ((rows ++ more).map OpRow.seq).Nodup)
    (hid : ((rows ++ more).map OpRow.opId).Nodup) : insertRows rows more = .ok (rows ++ more) := by
  induction more generalizing rows with
  | nil => rw [List.append_nil, insertRows]
  | cons row more ih =>
      have happend : rows ++ row :: more = (rows ++ [row]) ++ more := by simp
      have hrow : insertRow rows row = .ok (rows ++ [row]) := by
        rw [List.map_append, List.map_cons] at hseq hid
        have hseqNew : row.seq ∉ rows.map OpRow.seq := fun hmem =>
          List.disjoint_of_nodup_append hseq hmem List.mem_cons_self
        have hidNew : row.opId ∉ rows.map OpRow.opId := fun hmem =>
          List.disjoint_of_nodup_append hid hmem List.mem_cons_self
        rw [insertRow, if_neg hseqNew, if_neg hidNew]
      rw [happend] at hseq hid ⊢
      rw [insertRows, hrow]
      exact ih hseq hid

/-- A log of records in their order is written, and read back as it was. -/
theorem read_write (hserde : serde.RoundTripsOn l) (hl : l.Sound) (db : Db) :
    ∃ db' l', write serde .ok db l = (.ok (), db') ∧ db'.logMeta ≠ [] ∧
      read serde .ok db' = .ok (some l') ∧ OperationLog.Same l' l := by
  obtain ⟨owned, hownedTo, hownedFrom⟩ := hserde.owned
  have hrecords : ∀ id ∈ l.order, ∃ record, l.records.lookup id = some record ∧ record.id = id ∧
      ∃ text, serde.opToString record.op = .ok text ∧ serde.opFromStr text = .ok record.op := by
    intro id hid
    obtain ⟨record, hrecord⟩ := Option.isSome_iff_exists.mp
      (AList.lookup_isSome.mpr ((hl.mem_order id).mp hid))
    exact ⟨record, hrecord, hl.id_eq id record hrecord, hserde.op id record hrecord⟩
  obtain ⟨hids, hsorted, -, hread⟩ := rows_of_order (k := 0) hrecords
  have hinsert : insertRows [] (rowsOf serde l) = .ok (rowsOf serde l) := by
    apply insertRows_eq
    · exact List.pairwise_map.mpr (hsorted.imp Nat.ne_of_lt)
    · rw [List.nil_append, rowsOf, hids]
      exact hl.nodup
  have hwrite : write serde .ok db l =
      (.ok (), ⟨[("owned_services", owned)], rowsOf serde l⟩) := by
    simp only [write, StorageIo.ok, hownedTo, hinsert]
  have hselect : (rowsOf serde l).insertionSort (fun a b => a.seq ≤ b.seq) = rowsOf serde l :=
    List.Pairwise.insertionSort_eq (hsorted.imp Nat.le_of_lt)
  refine ⟨_, _, hwrite, List.cons_ne_nil _ _, ?_, hl.restore⟩
  have hkey : List.lookup "owned_services" [("owned_services", owned)] = some owned := rfl
  simp only [read, StorageIo.ok, hkey, hownedFrom, hselect]
  rw [rowsOf, hread]

/-- Whatever makes it fail, it has not moved the file. -/
theorem migrate_ok_or_json_eq (serde : LogSerde) (io : StorageIo) (s : SqliteStorage) :
    (s.migrateFromJsonIfFresh serde io).1 = .ok () ∨
      (s.migrateFromJsonIfFresh serde io).2.json = s.json := by
  unfold migrateFromJsonIfFresh
  split
  · exact .inr rfl
  · split
    · split
      · exact .inl rfl
      · split
        · exact .inr rfl
        · split
          · exact .inr rfl
          · split
            · exact .inr rfl
            · exact .inl rfl
    · exact .inl rfl

theorem sound_of_read {db : Db} (h : read serde io db = .ok (some l)) : l.Sound := by
  unfold read at h
  split at h
  · cases h
  · split at h
    · cases h
    · split at h
      · cases h
      · split at h
        · cases h
        · cases h
          exact OperationLog.sound_restore _ _

theorem sound_of_load (h : (s.load serde io).1 = .ok (some l)) : l.Sound := by
  unfold load at h
  split at h
  · cases h
  · split at h
    · cases h
    · exact sound_of_read h

end SqliteStorage

/-- The database gives the log as the file does: when it is saved and loaded, and when a
database that was never written takes over a file that says it. And no file is moved by a
migration that fails. -/
structure BackendsAgree (serde : LogSerde) (l : OperationLog) : Prop where
  filed : ∀ s : JsonStorage, (s.save serde .ok l).1 = .ok () ∧
    (s.save serde .ok l).2.load serde .ok = .ok (some l)
  saved : ∀ s : SqliteStorage, (s.save serde .ok l).1 = .ok () ∧
    ∃ l', ((s.save serde .ok l).2.load serde .ok).1 = .ok (some l') ∧ OperationLog.Same l' l ∧
      ∀ calls, l'.answers calls = l.answers calls
  migrated : ∀ (s : SqliteStorage) (json : String), s.fresh = true → s.json = some json →
    OperationLog.load serde .ok json = .ok l →
    ∃ l', (s.load serde .ok).1 = .ok (some l') ∧ OperationLog.Same l' l ∧
      ∀ calls, l'.answers calls = l.answers calls
  kept : ∀ (io : StorageIo) (s : SqliteStorage) (e : NodeError),
    (s.migrateFromJsonIfFresh serde io).1 = .error e →
      (s.migrateFromJsonIfFresh serde io).2.json = s.json

/-- What the database gives back is a log of records in their order, whatever was saved. -/
theorem BackendsAgree.sound {serde : LogSerde} {l : OperationLog} (h : BackendsAgree serde l) :
    l.Sound := by
  obtain ⟨-, l', hload, hsame, -⟩ := h.saved ⟨⟨[], []⟩, none, none⟩
  exact hsame.sound (SqliteStorage.sound_of_load hload)

/-- The backends agree on the logs of records in their order, which are all that operations
lead to, and on no other log that a file may have. -/
theorem backends_agree_iff {serde : LogSerde} {l : OperationLog} (hserde : serde.RoundTripsOn l) :
    BackendsAgree serde l ↔ l.Sound := by
  refine ⟨BackendsAgree.sound, fun hl => ⟨?_, ?_, ?_, ?_⟩⟩
  · intro s
    obtain ⟨text, hto, hfrom⟩ := hserde.log
    have hsave : s.save serde .ok l = (.ok (), ⟨some text⟩) := by
      simp only [JsonStorage.save, OperationLog.save, StorageIo.ok, hto]
    rw [hsave]
    refine ⟨rfl, ?_⟩
    simp only [JsonStorage.load, OperationLog.load, StorageIo.ok, hfrom]
    rfl
  · intro s
    obtain ⟨db, l', hwrite, hmeta, hread, hsame⟩ := SqliteStorage.read_write hserde hl s.db
    have hsave : s.save serde .ok l = (.ok (), { s with db := db }) := by
      simp only [SqliteStorage.save, SqliteStorage.connection_ok, hwrite]
    have hused : SqliteStorage.fresh { s with db := db } = false := by
      simp [SqliteStorage.fresh, hmeta]
    refine ⟨by rw [hsave], l', ?_, hsame, hsame.answers_eq⟩
    have hstay : SqliteStorage.migrateFromJsonIfFresh serde .ok { s with db := db } =
        (.ok (), { s with db := db }) := by
      simp [SqliteStorage.migrateFromJsonIfFresh, StorageIo.ok, hused]
    rw [hsave, SqliteStorage.load, hstay]
    exact hread
  · intro s json hfresh hjson hload
    obtain ⟨db, l', hwrite, -, hread, hsame⟩ := SqliteStorage.read_write hserde hl s.db
    have hmigrate : s.migrateFromJsonIfFresh serde .ok = (.ok (), ⟨db, none, some json⟩) := by
      simp only [SqliteStorage.migrateFromJsonIfFresh, StorageIo.ok, hfresh, hjson, if_true]
      rw [← StorageIo.ok, hload]
      simp only [hwrite]
    refine ⟨l', ?_, hsame, hsame.answers_eq⟩
    rw [SqliteStorage.load, hmigrate]
    exact hread
  · intro io s e herror
    obtain hok | hkept := SqliteStorage.migrate_ok_or_json_eq serde io s
    · rw [hok] at herror
      cases herror
    · exact hkept

/-! A node with one operation, and its file before logs had an order. -/

def gatewayStart : OpRecord := ⟨"op-1", .setService "gateway" true⟩

def gatewayLog : OperationLog := ⟨["gateway"], AList.insert "op-1" gatewayStart ∅, ["op-1"]⟩

def gatewayText : String :=
  "\x7b\n  \"owned_services\": [\n    \"gateway\"\n  ],\n  \"records\": \x7b\n    \"op-1\": \x7b\n" ++
  "      \"id\": \"op-1\",\n      \"op\": \x7b\n        \"kind\": \"set_service\",\n" ++
  "        \"service\": \"gateway\",\n        \"running\": true\n      \x7d\n    \x7d\n  \x7d"

def gatewayOpText : String :=
  "\x7b\"kind\":\"set_service\",\"service\":\"gateway\",\"running\":true\x7d"

def newGatewayText : String := gatewayText ++ ",\n  \"order\": [\n    \"op-1\"\n  ]\n\x7d"

def oldGatewayText : String := gatewayText ++ "\n\x7d"

/-- The texts of that node, as they are read and written. -/
def gatewaySerde : LogSerde where
  logToString j :=
    if j.order = some ["op-1"] then .ok newGatewayText else .error "not of this node"
  logFromStr text :=
    if text = newGatewayText then .ok gatewayLog.toJson
    else if text = oldGatewayText then .ok { gatewayLog.toJson with order := none }
    else .error "expected value at line 1 column 1"
  ownedToString owned :=
    if owned = ["gateway"] then .ok "[\"gateway\"]" else .error "not of this node"
  ownedFromStr text :=
    if text = "[\"gateway\"]" then .ok ["gateway"] else .error "expected value at line 1 column 1"
  opToString op :=
    if op = gatewayStart.op then .ok gatewayOpText else .error "not of this node"
  opFromStr text :=
    if text = gatewayOpText then .ok gatewayStart.op
    else .error "expected value at line 1 column 1"

theorem gatewaySerde_roundTrips : gatewaySerde.RoundTripsOn gatewayLog where
  log := ⟨newGatewayText, by simp [gatewaySerde, OperationLog.toJson, gatewayLog],
    by simp [gatewaySerde]⟩
  owned := ⟨"[\"gateway\"]", by simp [gatewaySerde, gatewayLog],
    by simp [gatewaySerde, gatewayLog]⟩
  op id record h := by
    obtain ⟨-, rfl⟩ | ⟨-, hold⟩ := Map.lookup_insert_eq_some.mp h
    · exact ⟨gatewayOpText, by simp [gatewaySerde], by simp [gatewaySerde]⟩
    · cases hold

theorem gateway_log_agrees : BackendsAgree gatewaySerde gatewayLog :=
  (backends_agree_iff gatewaySerde_roundTrips).mpr
    ((OperationLog.sound_new ["gateway"]).apply "op-1" (.setService "gateway" true))

/-- The old file has the operation; the database that takes it over does not. -/
theorem old_file_loses_record :
    (∃ l, OperationLog.load gatewaySerde .ok oldGatewayText = .ok l ∧
      l.reconcile "op-1" = some gatewayStart ∧ ¬ BackendsAgree gatewaySerde l) ∧
    ∃ l', (SqliteStorage.load gatewaySerde .ok ⟨⟨[], []⟩, some oldGatewayText, none⟩).1 =
        .ok (some l') ∧ l'.reconcile "op-1" = none := by
  have hne : oldGatewayText ≠ newGatewayText := by
    rw [oldGatewayText, newGatewayText, ne_eq, String.append_right_inj]
    decide
  have hload : OperationLog.load gatewaySerde .ok oldGatewayText =
      .ok { gatewayLog with order := [] } := by
    have hfrom : gatewaySerde.logFromStr oldGatewayText =
        .ok { gatewayLog.toJson with order := none } := by
      simp only [gatewaySerde, if_neg hne, if_true]
    simp only [OperationLog.load, StorageIo.ok, hfrom]
    rfl
  -- without an order there is no row to write, so the records are lost
  refine ⟨⟨{ gatewayLog with order := [] }, hload, rfl, fun hagree => ?_⟩,
    OperationLog.new ["gateway"], ?_, rfl⟩
  · have hmem := (hagree.sound.mem_order "op-1").mpr (by decide)
    cases hmem
  · have hmigrate : SqliteStorage.migrateFromJsonIfFresh gatewaySerde .ok
        ⟨⟨[], []⟩, some oldGatewayText, none⟩ =
        (.ok (), ⟨⟨[("owned_services", "[\"gateway\"]")], []⟩, none, some oldGatewayText⟩) := by
      simp only [SqliteStorage.migrateFromJsonIfFresh, hload]
      rfl
    rw [SqliteStorage.load, hmigrate]
    rfl

end DdsOrchestrator.Studio
