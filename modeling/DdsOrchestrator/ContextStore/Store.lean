import DdsOrchestrator.Lib.Assoc
import DdsOrchestrator.Lib.Json
import DdsOrchestrator.Lib.JsonText
import DdsOrchestrator.Lib.Lines
import DdsOrchestrator.Lib.Machine

/-!
The store of conversation contexts: a map in memory and a journal of one line a
write. A write goes to the journal first and to the map then, and a store that is
opened runs the lines of its journal again.

`SerdeJson` stands for the readers and writers of JSON that are not part of the
repository. Clock readings and the order in which the map is walked are given with
each call. Writes to the file do not fail, and the lock around them makes the calls
take place one after the other.
-/

namespace DdsOrchestrator.ContextStore

structure ContextSnapshot where
  contextId : String
  clientId : String
  sessionId : String
  messagesJson : String
  metadataJson : String
  securityLevel : Int32
  createdAtNs : UInt64
  updatedAtNs : UInt64
  ttlSeconds : UInt32
  deriving DecidableEq

structure ContextUpdate where
  contextId : String
  updateType : Int32
  messagesDeltaJson : String
  metadataDeltaJson : String
  updatedAtNs : UInt64
  deriving DecidableEq

def updateAppend : Int32 := 0
def updateReplace : Int32 := 1
def updateClear : Int32 := 2

def defaultTtlSeconds : UInt32 := 3600

inductive StoreError where
  | io
  | json (message : String)
  | notJsonArray (contextId field : String)
  deriving DecidableEq

/-- A line of the journal: a snapshot that was put, an update that was tried, or a
context that was removed. -/
inductive JournalRecord where
  | put (snapshot : ContextSnapshot) (expiresAtNs : UInt64)
  | update (update : ContextUpdate) (expiresAtNs : UInt64)
  | expire (contextId : String)
  deriving DecidableEq

/-- Reading and writing JSON: values, and the records of the journal. -/
structure SerdeJson where
  fromStr : String → Except String Json
  toText : Json → String
  recordFromStr : String → Option JournalRecord

namespace JournalRecord

/-- The members of a record's object, the tag first. -/
def fields : JournalRecord → List (String × Json.Scalar)
  | put s expiresAtNs =>
      [("op", .str "put"), ("context_id", .str s.contextId), ("client_id", .str s.clientId),
        ("session_id", .str s.sessionId), ("messages_json", .str s.messagesJson),
        ("metadata_json", .str s.metadataJson), ("security_level", .int s.securityLevel.toInt),
        ("created_at_ns", .int s.createdAtNs.toNat), ("updated_at_ns", .int s.updatedAtNs.toNat),
        ("ttl_seconds", .int s.ttlSeconds.toNat), ("expires_at_ns", .int expiresAtNs.toNat)]
  | update u expiresAtNs =>
      [("op", .str "update"), ("context_id", .str u.contextId),
        ("update_type", .int u.updateType.toInt),
        ("messages_delta_json", .str u.messagesDeltaJson),
        ("metadata_delta_json", .str u.metadataDeltaJson),
        ("updated_at_ns", .int u.updatedAtNs.toNat), ("expires_at_ns", .int expiresAtNs.toNat)]
  | expire contextId => [("op", .str "expire"), ("context_id", .str contextId)]

/-- The record as `serde_json` writes it. -/
def toText (r : JournalRecord) : String := Json.object r.fields

/-- What one write appends to the file. -/
def line (r : JournalRecord) : ByteArray := (r.toText ++ "\n").toUTF8

end JournalRecord

structure ContextEntry where
  snapshot : ContextSnapshot
  expiresAtNs : UInt64
  deriving DecidableEq

abbrev Entries := Map String ContextEntry

/-- `expires_from_now` at the clock reading `nowNs`. -/
def expiresFromNow (nowNs : UInt64) (ttlSeconds : UInt32) : UInt64 :=
  let expires := nowNs.toNat + ttlSeconds.toNat * 1000000000
  if expires < UInt64.size then UInt64.ofNat expires else UInt64.ofNat (UInt64.size - 1)

def snapshotFromUpdate (update : ContextUpdate) (nowNs : UInt64) : ContextSnapshot where
  contextId := update.contextId
  clientId := ""
  sessionId := ""
  messagesJson := "[]"
  metadataJson := "\x7b\x7d"
  securityLevel := 0
  createdAtNs := nowNs
  updatedAtNs := update.updatedAtNs
  ttlSeconds := defaultTtlSeconds

/-- A put of a context that is there keeps its client, its session and the time it
was created. -/
def upsertEntry (entries : Entries) (snapshot : ContextSnapshot) (expiresAtNs : UInt64) :
    Entries :=
  match entries.lookup snapshot.contextId with
  | some entry =>
      entries.insert snapshot.contextId
        { snapshot := { entry.snapshot with
            messagesJson := snapshot.messagesJson
            metadataJson := snapshot.metadataJson
            securityLevel := snapshot.securityLevel
            updatedAtNs := snapshot.updatedAtNs
            ttlSeconds := snapshot.ttlSeconds }
          expiresAtNs := expiresAtNs }
  | none => entries.insert snapshot.contextId ⟨snapshot, expiresAtNs⟩

section

variable (serde : SerdeJson)

/-- Both texts of an append are read before either is asked whether it is an array. -/
def applyMessagesDelta (contextId current : String) (update : ContextUpdate) :
    Except StoreError String :=
  if update.updateType = updateAppend then
    match serde.fromStr current, serde.fromStr update.messagesDeltaJson with
    | .error e, _ => .error (.json e)
    | .ok _, .error e => .error (.json e)
    | .ok existing, .ok delta =>
        match existing.asArray, delta.asArray with
        | none, _ => .error (.notJsonArray contextId "messages_json")
        | some _, none => .error (.notJsonArray contextId "messages_delta_json")
        | some arr, some d => .ok (serde.toText (.arr (.ofList (arr ++ d))))
  else if update.updateType = updateReplace then .ok update.messagesDeltaJson
  else if update.updateType = updateClear then .ok "[]"
  else .ok current

/-- A context that is not there is created at the clock reading `nowNs`; a delta that
is refused changes nothing. -/
def applyUpdateEntry (nowNs : UInt64) (entries : Entries) (update : ContextUpdate)
    (expiresAtNs : UInt64) : Except StoreError Entries :=
  match entries.lookup update.contextId with
  | some entry =>
      (applyMessagesDelta serde update.contextId entry.snapshot.messagesJson update).map
        fun newMessages => entries.insert update.contextId
          { snapshot := { entry.snapshot with
              messagesJson := newMessages
              updatedAtNs := update.updatedAtNs }
            expiresAtNs := expiresAtNs }
  | none =>
      (applyMessagesDelta serde update.contextId "[]" update).map
        fun newMessages => entries.insert update.contextId
          { snapshot := { snapshotFromUpdate update nowNs with messagesJson := newMessages }
            expiresAtNs := expiresAtNs }

/-- What the replay does with a record that it could read: an update that is refused
is passed over. -/
def applyRecord (nowNs : UInt64) (entries : Entries) : JournalRecord → Entries
  | .put snapshot expiresAtNs => upsertEntry entries snapshot expiresAtNs
  | .update update expiresAtNs =>
      match applyUpdateEntry serde nowNs entries update expiresAtNs with
      | .ok entries' => entries'
      | .error _ => entries
  | .expire contextId => entries.erase contextId

/-- One line of the replay, with the entries and the count of the lines applied so
far; a line that is blank or that is no record is passed over. -/
def replayLine (nowNs : UInt64) (state : Entries × Nat) (line : List Char) : Entries × Nat :=
  let line := Lines.trim line
  if line = [] then state
  else
    match serde.recordFromStr (String.ofList line) with
    | none => state
    | some record => (applyRecord serde nowNs state.1 record, state.2 + 1)

/-- The replay of a journal, where the clock shows `clock n` at the line `n`. -/
def replay (clock : Nat → UInt64) (content : String) : Entries × Nat :=
  (Lines.lines content.toList).zipIdx.foldl
    (fun state l => replayLine serde (clock l.2) state l.1) (∅, 0)

end

/-- The store, with what its journal file holds; a store in memory has no file. -/
structure LocalContextStore where
  entries : Entries
  journal : Option ByteArray
  journaledOps : Nat

/-- An order in which a map is walked: every key once. -/
structure Walk where
  order : List String → List String
  perm : ∀ keys, (order keys).Perm keys

/-- The calls that write, with the readings of the clock they make: the one behind
the time of expiry, and for an update the one behind the time of creation. -/
inductive Call where
  | putSnapshot (nowNs : UInt64) (snapshot : ContextSnapshot)
  | applyUpdate (nowNs createdNs : UInt64) (update : ContextUpdate)
  | expireTtl (nowNs : UInt64) (walk : Walk)

namespace LocalContextStore

def inMemory : LocalContextStore := ⟨∅, none, 0⟩

variable (serde : SerdeJson)

/-- `LocalContextStore::open`. A file that is not there is created; one that is not
UTF-8 cannot be read. -/
def openStore (clock : Nat → UInt64) (file : Option ByteArray) :
    Except StoreError LocalContextStore :=
  match file with
  | none => .ok { inMemory with journal := some .empty }
  | some bytes =>
      match String.fromUTF8? bytes with
      | none => .error .io
      | some content =>
          let (entries, applied) := replay serde clock content
          .ok ⟨entries, some bytes, applied⟩

def journalAppend (s : LocalContextStore) (r : JournalRecord) : LocalContextStore :=
  match s.journal with
  | none => s
  | some bytes => { s with journal := some (bytes ++ r.line), journaledOps := s.journaledOps + 1 }

def putSnapshot (nowNs : UInt64) (snapshot : ContextSnapshot) (s : LocalContextStore) :
    LocalContextStore :=
  let expiresAtNs := expiresFromNow nowNs snapshot.ttlSeconds
  let s := s.journalAppend (.put snapshot expiresAtNs)
  { s with entries := upsertEntry s.entries snapshot expiresAtNs }

/-- When an update makes its context expire: by the time to live the context has. -/
def updateExpires (nowNs : UInt64) (update : ContextUpdate) (s : LocalContextStore) : UInt64 :=
  expiresFromNow nowNs
    (((s.entries.lookup update.contextId).map (·.snapshot.ttlSeconds)).getD defaultTtlSeconds)

/-- The update is in the journal before it is known whether its delta is refused. -/
def applyUpdate (nowNs createdNs : UInt64) (update : ContextUpdate) (s : LocalContextStore) :
    Except StoreError Unit × LocalContextStore :=
  let expiresAtNs := s.updateExpires nowNs update
  let s := s.journalAppend (.update update expiresAtNs)
  match applyUpdateEntry serde createdNs s.entries update expiresAtNs with
  | .ok entries => (.ok (), { s with entries := entries })
  | .error e => (.error e, s)

/-- The contexts whose time is over. -/
def expired (nowNs : UInt64) (walk : Walk) (s : LocalContextStore) : List String :=
  (walk.order s.entries.keys).filter fun contextId =>
    ((s.entries.lookup contextId).map fun e => decide (e.expiresAtNs ≤ nowNs)).getD false

/-- A context's removal is in the journal before the context is removed. -/
def removeExpired (s : LocalContextStore) (contextId : String) : LocalContextStore :=
  let s := s.journalAppend (.expire contextId)
  { s with entries := s.entries.erase contextId }

def expireTtl (nowNs : UInt64) (walk : Walk) (s : LocalContextStore) : Nat × LocalContextStore :=
  let contextIds := s.expired nowNs walk
  (contextIds.length, contextIds.foldl removeExpired s)

/-- The store after a call. -/
def perform (s : LocalContextStore) : Call → LocalContextStore
  | .putSnapshot nowNs snapshot => s.putSnapshot nowNs snapshot
  | .applyUpdate nowNs createdNs update => (s.applyUpdate serde nowNs createdNs update).2
  | .expireTtl nowNs walk => (s.expireTtl nowNs walk).2

end LocalContextStore

end DdsOrchestrator.ContextStore
