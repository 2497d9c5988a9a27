import Mathlib.Data.Fintype.EquivFin
import DdsOrchestrator.Studio.Authority
import DdsOrchestrator.Studio.Storage

/-!
A node from its boot on. The services that are declared for it go into the log of a first
boot; a log that was kept has its own. Whatever the node does then, the services of its log
stay what they were at the boot.
-/

namespace DdsOrchestrator.Studio

def AuthorityError.message : AuthorityError → String
  | conflict _ => "conflito de revisao"
  | staleGeneration got current =>
      "geracao obsoleta: proposta " ++ toString got ++ ", vigente " ++ toString current
  | tombstoned _ => "id removido"
  | cursorExpired => "cursor expirado"
  | corrupt path detail => "journal corrompido em " ++ path ++ ": " ++ detail

/-- A file of JSON or a database. -/
inductive Storage where
  | json (s : JsonStorage)
  | sqlite (s : SqliteStorage)

namespace Storage

variable (serde : LogSerde) (io : StorageIo)

def save (storage : Storage) (l : OperationLog) : Except NodeError Unit × Storage :=
  match storage with
  | json s =>
      let (result, s') := s.save serde io l
      (result, json s')
  | sqlite s =>
      let (result, s') := s.save serde io l
      (result, sqlite s')

def load (storage : Storage) : Except NodeError (Option OperationLog) × Storage :=
  match storage with
  | json s => (s.load serde io, json s)
  | sqlite s =>
      let (result, s') := s.load serde io
      (result, sqlite s')

end Storage

structure NodeState where
  log : OperationLog
  storage : Option Storage
  catalog : CatalogAuthority

/-- What a node does with its log. -/
inductive NodeOp where
  | apply (id : OperationId) (op : AdminOp)
  | save (io : StorageIo)

namespace NodeState

/-- A node without a storage. -/
def new (ownedServices : List String) : NodeState := ⟨.new ownedServices, none, .new⟩

def withStorage (serde : LogSerde) (entries : SerdeJson) (io : StorageIo) (storage : Storage)
    (journalPath : String) (journalFile : Option ByteArray) (ownedServices : List String) :
    Except NodeError NodeState :=
  match storage.load serde io with
  | (.error e, _) => .error e
  | (.ok loaded, storage') =>
      -- the declared services count only where no log was kept
      let log := loaded.getD (.new ownedServices)
      match CatalogAuthority.withJournal entries journalPath journalFile with
      | .error err => .error (.storage ("catalogo: " ++ err.message))
      | .ok catalog => .ok ⟨log, some storage', catalog⟩

def step (serde : LogSerde) (n : NodeState) : NodeOp → NodeState
  | .apply id op => { n with log := (n.log.apply id op).2 }
  | .save io =>
      match n.storage with
      | none => n
      | some storage => { n with storage := some (storage.save serde io n.log).2 }

def run (serde : LogSerde) (n : NodeState) (ops : List NodeOp) : NodeState :=
  ops.foldl (step serde) n

variable {serde : LogSerde} {entries : SerdeJson} {io : StorageIo} {storage : Storage}
  {journalPath : String} {journalFile : Option ByteArray} {declared : List String}
  {n : NodeState}

theorem ownedServices_step (op : NodeOp) :
    (n.step serde op).log.ownedServices = n.log.ownedServices := by
  cases op with
  | apply id op =>
      obtain ⟨e, h⟩ | ⟨record, -, -, -, h⟩ | ⟨-, -, h⟩ := n.log.apply_cases id op
      · rw [step, h]
      · rw [step, h]
      · rw [step, h]
        exact OperationLog.ownedServices_evict
  | save io =>
      rw [step]
      split
      · rfl
      · rfl

theorem ownedServices_run (ops : List NodeOp) :
    (n.run serde ops).log.ownedServices = n.log.ownedServices := by
  induction ops generalizing n with
  | nil => rfl
  | cons op ops ih =>
      rw [run, List.foldl_cons]
      exact ih.trans (ownedServices_step op)

/-- The services of a node: those of the log that was kept, or those that are declared. -/
theorem ownedServices_withStorage
    (h : withStorage serde entries io storage journalPath journalFile declared = .ok n) :
    ∃ loaded, (storage.load serde io).1 = .ok loaded ∧
      n.log.ownedServices = (loaded.map OperationLog.ownedServices).getD declared := by
  unfold withStorage at h
  split at h
  · cases h
  · next loaded storage' hload =>
      split at h
      · cases h
      · cases h
        refine ⟨loaded, congrArg Prod.fst hload, ?_⟩
        cases loaded with
        | none => rfl
        | some log => rfl

end NodeState

namespace OperationLog

variable {l : OperationLog} {id : OperationId} {service : String} {running : Bool}

theorem mem_of_accepted {outcome : OpOutcome}
    (h : (l.apply id (.setService service running)).1 = .ok outcome) :
    service ∈ l.ownedServices := by
  by_contra hnot
  rw [apply, outOfScope, if_neg hnot] at h
  cases h

/-- An operation with a new id on one of the services is accepted. -/
theorem accepted_of_mem (h : service ∈ l.ownedServices) (hnew : id ∉ l.records) :
    (l.apply id (.setService service running)).1 =
      .ok (.applied ⟨id, .setService service running⟩) := by
  rw [apply, outOfScope, if_pos h, AList.lookup_eq_none.mpr hnew]

theorem exists_new_id (l : OperationLog) : ∃ id, id ∉ l.records := by
  obtain ⟨id, hid⟩ := Infinite.exists_notMem_finset l.records.keys.toFinset
  exact ⟨id, fun hmem => hid (List.mem_toFinset.mpr (AList.mem_keys.mp hmem))⟩

end OperationLog

namespace NodeState

variable {serde : LogSerde} {entries : SerdeJson} {io : StorageIo} {storage : Storage}
  {journalPath : String} {journalFile : Option ByteArray} {declared : List String}
  {n : NodeState}

/-- A node keeps to the services that are declared at its boot exactly if the log that was
kept, if there is one, has no other services. -/
theorem accepts_declared_iff
    (h : withStorage serde entries io storage journalPath journalFile declared = .ok n) :
    (∀ (ops : List NodeOp) (id : OperationId) (service : String) (running : Bool)
        (outcome : OpOutcome),
      ((n.run serde ops).log.apply id (.setService service running)).1 = .ok outcome →
        service ∈ declared) ↔
      ∀ persisted, (storage.load serde io).1 = .ok (some persisted) →
        ∀ service ∈ persisted.ownedServices, service ∈ declared := by
  obtain ⟨loaded, hload, howned⟩ := ownedServices_withStorage h
  rw [hload]
  constructor
  · intro hall persisted hpersisted service hservice
    cases hpersisted
    -- already at the boot, an operation with a new id on the service is accepted
    obtain ⟨id, hnew⟩ := n.log.exists_new_id
    have hmem : service ∈ n.log.ownedServices := by
      rw [howned]
      exact hservice
    exact hall [] id service true _ (OperationLog.accepted_of_mem hmem hnew)
  · intro hsub ops id service running outcome haccepted
    have hmem := OperationLog.mem_of_accepted haccepted
    rw [ownedServices_run, howned] at hmem
    cases loaded with
    | none => exact hmem
    | some persisted => exact hsub persisted rfl service hmem

/-- The node that boots from the file of `gatewayLog`, whatever is declared for it. -/
def gatewayNode : NodeState :=
  ⟨gatewayLog, some (.json ⟨some newGatewayText⟩),
    ⟨.new, some ⟨"operations.catalog.jsonl", none⟩⟩⟩

/-- There is no journal of the catalog to be read. -/
def noEntries : SerdeJson := ⟨fun _ => .error "EOF while parsing a value at line 1 column 0"⟩

theorem load_newGatewayText : (Storage.json ⟨some newGatewayText⟩).load gatewaySerde .ok =
    (.ok (some gatewayLog), .json ⟨some newGatewayText⟩) := by
  have hload : OperationLog.load gatewaySerde .ok newGatewayText = .ok gatewayLog := by
    simp only [OperationLog.load, StorageIo.ok, gatewaySerde, if_true]
    rfl
  simp only [Storage.load, JsonStorage.load, hload]

theorem gatewayNode_boots (declared : List String) :
    withStorage gatewaySerde noEntries .ok (.json ⟨some newGatewayText⟩)
      "operations.catalog.jsonl" none declared = .ok gatewayNode := by
  simp only [withStorage, load_newGatewayText]
  rfl

/-- With the services of the file declared, the node keeps to them. -/
theorem gatewayNode_keeps_to_declared :
    withStorage gatewaySerde noEntries .ok (.json ⟨some newGatewayText⟩)
        "operations.catalog.jsonl" none ["dds-agent", "gateway"] = .ok gatewayNode ∧
      ∀ (ops : List NodeOp) (id : OperationId) (service : String) (running : Bool)
          (outcome : OpOutcome),
        ((gatewayNode.run gatewaySerde ops).log.apply id (.setService service running)).1 =
            .ok outcome →
          service ∈ ["dds-agent", "gateway"] := by
  refine ⟨gatewayNode_boots _, ?_⟩
  apply (accepts_declared_iff (gatewayNode_boots ["dds-agent", "gateway"])).mpr
  intro persisted hload service hservice
  rw [load_newGatewayText] at hload
  cases hload
  obtain rfl := List.mem_singleton.mp hservice
  decide

/-- The node was booted with `dds-agent` alone, and starts and stops `gateway`. -/
theorem revoked_service_accepted :
    withStorage gatewaySerde noEntries .ok (.json ⟨some newGatewayText⟩)
        "operations.catalog.jsonl" none ["dds-agent"] = .ok gatewayNode ∧
      ((gatewayNode.run gatewaySerde []).log.apply "op-2" (.setService "gateway" false)).1 =
        .ok (.applied ⟨"op-2", .setService "gateway" false⟩) ∧
      "gateway" ∉ ["dds-agent"] :=
  ⟨gatewayNode_boots ["dds-agent"],
    OperationLog.accepted_of_mem (by decide) (by decide), by decide⟩

end NodeState

end DdsOrchestrator.Studio
