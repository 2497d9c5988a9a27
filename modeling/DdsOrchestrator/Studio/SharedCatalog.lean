import DdsOrchestrator.Studio.Replay

/-!
The catalog as the Studio shows it. A request is made by a worker, one HTTP exchange at a
time, and what came of it is applied when the frame polls; while a worker is on its way no
other one is begun. Between two exchanges the node goes on: its other clients change the
catalog, and it is restarted over its journal. The feed of the panel and the token are left
out: the one is only shown, and a token that is refused is one way to fail.
-/

namespace DdsOrchestrator.Studio

inductive SharedCatalogError where
  | conflict (current : Option UInt64)
  | tombstoned
  | cursorExpired
  | unauthorized
  | unreachable (url detail : String)
  deriving DecidableEq

def debugOption : Option UInt64 → String
  | none => "None"
  | some n => "Some(" ++ toString n.toNat ++ ")"

def SharedCatalogError.message : SharedCatalogError → String
  | conflict current => "base obsoleta; vigente: " ++ debugOption current
  | tombstoned => "id removido; recriar exige identidade nova"
  | cursorExpired => "cursor expirado; refazer snapshot"
  | unauthorized => "token recusado (401)"
  | unreachable url detail => "falha no catalogo em " ++ url ++ ": " ++ detail

/-- The status a refusal of the authority is answered with. -/
def AuthorityError.status : AuthorityError → ℕ
  | conflict _ | staleGeneration _ _ => 409
  | tombstoned _ | cursorExpired => 410
  | corrupt _ _ => 500

/-- The revision in the details of the answer. -/
def AuthorityError.detailsCurrent : AuthorityError → Option UInt64
  | conflict current => current
  | staleGeneration _ current => some current
  | _ => none

/-- How an exchange fails: the token is refused, or there is no answer one can use. -/
inductive Failure where
  | unauthorized
  | transport (detail : String)
  deriving DecidableEq

def Failure.error (url : String) : Failure → SharedCatalogError
  | unauthorized => .unauthorized
  | transport detail => .unreachable url detail

/-- What becomes of an exchange: the node answers, the request does not reach it, or the
answer is lost behind the effect. An answer to a mutation comes with the append. -/
inductive Wire where
  | answered (io : AppendIo)
  | failed (f : Failure)
  | lost (io : AppendIo) (f : Failure)
  deriving DecidableEq

inductive FollowOutcome where
  | upToDate
  | deleted (events : List Event)
  | applied (events : List Event) (snapshot : Except String Snapshot)
  | resync (snapshot : Except String Snapshot)
  | failed (err : String)

inductive CatalogMsg where
  | snapshot (result : Except String Snapshot)
  | mutated (notice : String) (thenSnapshot : Option (Except String Snapshot)) (id : String)
      (base : Option UInt64) (isDelete : Bool) (result : Except SharedCatalogError UInt64)
  | followed (outcome : FollowOutcome)

/-- The exchange a worker comes to next. -/
inductive Worker where
  | snapshot
  | mutate (id : String) (base : Option UInt64) (isDelete : Bool) (entry : JournalEntry)
  | reread (id : String) (base : Option UInt64) (isDelete : Bool)
      (result : Except SharedCatalogError UInt64)
  | events (since : ℕ)
  | applied (events : List Event)
  | resync

/-- The channel of a worker: it is at work, or its message is there. -/
inductive Receiver where
  | working (w : Worker)
  | ready (msg : CatalogMsg)

structure ConflictInfo where
  attemptedBase : Option UInt64
  current : Option UInt64
  deriving DecidableEq

/-- The form as it is read: the id without its blanks, and the base if it is a number. -/
structure Form where
  id : String
  value : String
  base : Option UInt64
  deriving DecidableEq

structure SharedCatalog where
  url : String
  snapshot : Option Snapshot
  cursor : ℕ
  notice : String
  busy : Bool
  conflict : Option ConflictInfo
  sessionTombstones : ℕ
  followAfter : Bool
  receiver : Option Receiver

namespace SharedCatalog

def withUrl (url : String) : SharedCatalog :=
  { url, snapshot := none, cursor := 0, notice := "", busy := false, conflict := none
    sessionTombstones := 0, followAfter := false, receiver := none }

/-! ### What the user starts -/

def start (s : SharedCatalog) (w : Worker) (notice : String) : SharedCatalog :=
  if s.busy then s
  else { s with receiver := some (.working w), busy := true, notice := notice }

def refresh (s : SharedCatalog) : SharedCatalog := s.start .snapshot "lendo snapshot…"

def followEvents (s : SharedCatalog) : SharedCatalog :=
  s.start (.events s.cursor)
    ("acompanhando eventos desde o cursor " ++ toString s.cursor ++ "…")

def forceSync (s : SharedCatalog) : SharedCatalog :=
  if s.busy then s else ({ s with followAfter := true } : SharedCatalog).refresh

/-- The generation is made from the base, which the snapshot does not carry. -/
def publishForm (s : SharedCatalog) (form : Form) : SharedCatalog :=
  let generation := form.base.elim 0 (· + 1)
  s.start (.mutate form.id form.base false (.publish form.id form.base form.value generation))
    "publicando…"

def deleteForm (s : SharedCatalog) (form : Form) : SharedCatalog :=
  let base := form.base.getD (UInt64.ofNat (UInt64.size - 1))
  s.start (.mutate form.id (some base) true (.delete form.id base)) "removendo…"

/-! ### What the frame applies -/

/-- A snapshot takes its cursor with it. -/
def hold (s : SharedCatalog) (fresh : Snapshot) : SharedCatalog :=
  { s with snapshot := some fresh, cursor := fresh.cursor }

def applyMutated (s : SharedCatalog) (notice : String)
    (thenSnapshot : Option (Except String Snapshot)) (base : Option UInt64) (isDelete : Bool)
    (result : Except SharedCatalogError UInt64) : SharedCatalog :=
  let s : SharedCatalog :=
    match result with
    | .ok _ =>
        { s with
          conflict := none
          sessionTombstones := s.sessionTombstones + if isDelete then 1 else 0 }
    | .error (.conflict current) => { s with conflict := some ⟨base, current⟩ }
    | .error _ => { s with conflict := none }
  let s : SharedCatalog := { s with notice := notice }
  match thenSnapshot with
  | none => s
  | some (.ok fresh) => { s.hold fresh with notice := "" }
  | some (.error err) => { s with notice := err }

def applyFollowed (s : SharedCatalog) : FollowOutcome → SharedCatalog
  | .upToDate => { s with notice := "sem eventos novos (cursor " ++ toString s.cursor ++ ")" }
  | .deleted events =>
      let removed := events.map Event.id
      let cursor := (events.getLast?.map (·.seq + 1)).getD s.cursor
      { s with
        sessionTombstones := s.sessionTombstones + events.length
        snapshot := s.snapshot.map fun shown =>
          { shown with items := shown.items.filter fun item => item.id ∉ removed }
        cursor := cursor
        notice := toString events.length ++ " exclusão(ões) aplicada(s) (cursor " ++
          toString cursor ++ ")" }
  | .applied events snapshot =>
      let s : SharedCatalog := { s with
        sessionTombstones := s.sessionTombstones +
          (events.filter fun event => event.kind = .deleted).length }
      match snapshot with
      | .ok fresh =>
          { s.hold fresh with
            notice := toString events.length ++ " novo(s) evento(s) aplicado(s) (cursor " ++
              toString fresh.cursor ++ ")" }
      | .error err => { s with notice := err }
  | .resync (.ok fresh) =>
      { s.hold fresh with
        notice := "cursor expirado; snapshot reaplicado (cursor " ++ toString fresh.cursor ++
          ")" }
  | .resync (.error err) => { s with notice := err }
  | .failed err => { s with notice := err }

/-- The state after a message, and whether the events are to be followed from there. -/
def apply (s : SharedCatalog) : CatalogMsg → SharedCatalog × Bool
  | .snapshot (.ok fresh) =>
      ({ s.hold fresh with conflict := none, notice := "", followAfter := false },
        s.followAfter)
  | .snapshot (.error err) => ({ s with followAfter := false, notice := err }, false)
  | .mutated notice thenSnapshot _ base isDelete result =>
      (s.applyMutated notice thenSnapshot base isDelete result, false)
  | .followed outcome => (s.applyFollowed outcome, false)

def poll (s : SharedCatalog) : SharedCatalog :=
  match s.receiver with
  | some (.ready msg) =>
      let (s, chainFollow) := s.apply msg
      let s : SharedCatalog := { s with receiver := none, busy := false }
      if chainFollow then s.followEvents else s
  | _ => s

end SharedCatalog

/-! ### The exchanges -/

section

variable (serde : SerdeJson) (url : String)

def fetchSnapshot (node : CatalogAuthority) : Wire → Except String Snapshot
  | .answered _ => .ok node.snapshot
  | .failed f | .lost _ f => .error (f.error url).message

def statusError (status : ℕ) : SharedCatalogError :=
  .unreachable url ("status inesperado: " ++ toString status)

def requestEvents (node : CatalogAuthority) (since : ℕ) : Wire →
    Except SharedCatalogError (List Event)
  | .answered _ =>
      match node.eventsSince since with
      | .ok events => .ok events
      | .error e => .error (if e.status = 410 then .cursorExpired else statusError url e.status)
  | .failed f | .lost _ f => .error (f.error url)

def mutateError (e : AuthorityError) : SharedCatalogError :=
  if e.status = 409 then .conflict e.detailsCurrent
  else if e.status = 410 then .tombstoned
  else statusError url e.status

/-- The mutation as the node makes it, if the request reaches it. -/
def requestMutation (node : CatalogAuthority) (entry : JournalEntry) : Wire →
    Except SharedCatalogError UInt64 × CatalogAuthority
  | .answered io =>
      let (result, node) := node.mutate serde entry io
      (result.mapError (mutateError url), node)
  | .failed f => (.error (f.error url), node)
  | .lost io f => (.error (f.error url), (node.mutate serde entry io).2)

def mutationNotice (isDelete : Bool) : Except SharedCatalogError UInt64 → String
  | .ok revision =>
      (if isDelete then "removido em r" else "publicado em r") ++ toString revision.toNat
  | .error err => err.message

/-- The next exchange of a worker: the node behind it, and where the worker is then. -/
def Worker.exchange (node : CatalogAuthority) (wire : Wire) : Worker → CatalogAuthority × Receiver
  | .snapshot => (node, .ready (.snapshot (fetchSnapshot url node wire)))
  | .mutate id base isDelete entry =>
      let (result, node) := requestMutation serde url node entry wire
      (node, .working (.reread id base isDelete result))
  | .reread id base isDelete result =>
      (node, .ready (.mutated (mutationNotice isDelete result)
        (some (fetchSnapshot url node wire)) id base isDelete result))
  | .events since =>
      match requestEvents url node since wire with
      | .ok [] => (node, .ready (.followed .upToDate))
      | .ok batch =>
          if ∀ event ∈ batch, event.kind = .deleted then
            (node, .ready (.followed (.deleted batch)))
          else (node, .working (.applied batch))
      | .error .cursorExpired => (node, .working .resync)
      | .error err => (node, .ready (.followed (.failed err.message)))
  | .applied batch =>
      (node, .ready (.followed (.applied batch (fetchSnapshot url node wire))))
  | .resync => (node, .ready (.followed (.resync (fetchSnapshot url node wire))))

end

/-! ### Runs -/

structure SharedWorld where
  node : CatalogAuthority
  studio : SharedCatalog

/-- A step of the node or of the Studio. -/
inductive SharedStep where
  | node (event : AuthorityEvent)
  | refresh
  | followEvents
  | forceSync
  | publishForm (form : Form)
  | deleteForm (form : Form)
  | exchange (wire : Wire)
  | poll

namespace SharedWorld

def init (path url : String) : SharedWorld := ⟨.fresh path, .withUrl url⟩

variable (serde : SerdeJson)

def step (w : SharedWorld) : SharedStep → SharedWorld
  | .node event => { w with node := w.node.step serde event }
  | .refresh => { w with studio := w.studio.refresh }
  | .followEvents => { w with studio := w.studio.followEvents }
  | .forceSync => { w with studio := w.studio.forceSync }
  | .publishForm form => { w with studio := w.studio.publishForm form }
  | .deleteForm form => { w with studio := w.studio.deleteForm form }
  | .exchange wire =>
      match w.studio.receiver with
      | some (.working worker) =>
          let (node, receiver) := worker.exchange serde w.studio.url w.node wire
          ⟨node, { w.studio with receiver := some receiver }⟩
      | _ => w
  | .poll => { w with studio := w.studio.poll }

end SharedWorld

end DdsOrchestrator.Studio
