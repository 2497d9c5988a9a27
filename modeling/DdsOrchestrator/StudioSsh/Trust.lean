import DdsOrchestrator.Lib.Recency
import DdsOrchestrator.StudioSsh.Bridge

/-!
The hosts that an operator trusts. There is one approval a host and port, with the key that
was approved there, and it goes only with a new approval of the same host and port. The file
that keeps the approvals is read and written as a whole, and a write that breaks off leaves it
unreadable.
-/

namespace DdsOrchestrator.StudioSsh

/-- An approval with the circumstances it was given in. -/
structure ApprovalRecord extends Approval where
  project : String
  hostAlias : String
  approvedBy : String
  approvedAtUnix : UInt64
  /-- The key that was approved before. -/
  replaced : Option KeyIdentity
  deriving DecidableEq

inductive TrustError where
  | unknown (host : String) (port : UInt16) (fingerprint : String)
  | changed (host : String) (port : UInt16) (known presented : String)
  | unreadable (path detail : String)
  deriving DecidableEq

def TrustError.text : TrustError → String
  | unknown host port fingerprint =>
    "host " ++ host ++ ":" ++ toString port ++ " desconhecido: confira a impressao " ++
      fingerprint ++ " por fonte independente antes de aprovar"
  | changed host port known presented =>
    "host " ++ host ++ ":" ++ toString port ++ " mudou a chave (era " ++ known ++ ", veio " ++
      presented ++ "): conexao bloqueada"
  | unreadable path detail => "arquivo de confianca ilegivel em " ++ path ++ ": " ++ detail

structure TrustStore where
  approvals : List ApprovalRecord
  deriving DecidableEq

namespace TrustStore

def new : TrustStore := ⟨[]⟩

/-- What the bridge reads of the store. -/
def trusted (s : TrustStore) : List Approval := s.approvals.map ApprovalRecord.toApproval

def find (host : String) (port : UInt16) (s : TrustStore) : Option ApprovalRecord :=
  s.approvals.find? fun item => item.host = host ∧ item.port = port

def check (host : String) (port : UInt16) (presented : KeyIdentity) (s : TrustStore) :
    Except TrustError Unit :=
  match s.find host port with
  | none => .error (.unknown host port presented.fingerprint)
  | some approval =>
    if approval.key = presented then .ok ()
    else .error (.changed host port approval.key.fingerprint presented.fingerprint)

/-- Where an approval belongs. -/
def place (a : ApprovalRecord) : String × UInt16 := (a.host, a.port)

/-- The approval as it goes into the store. -/
def record (a : ApprovalRecord) (s : TrustStore) : ApprovalRecord :=
  { a with replaced := a.replaced.or ((s.find a.host a.port).map fun item => item.key) }

def approve (a : ApprovalRecord) (s : TrustStore) : TrustStore :=
  ⟨Recency.touch place s.approvals (s.record a)⟩

variable {s : TrustStore} {a : ApprovalRecord} {host : String} {port : UInt16} {key : KeyIdentity}

theorem of_find_eq_some (h : s.find host port = some a) :
    a ∈ s.approvals ∧ a.host = host ∧ a.port = port := by
  have hplace : a.host = host ∧ a.port = port := by simpa using List.find?_some h
  exact ⟨List.mem_of_find?_eq_some h, hplace⟩

theorem find_eq_none_iff :
    s.find host port = none ↔ ∀ a ∈ s.approvals, ¬ (a.host = host ∧ a.port = port) := by
  simp [find]

theorem mem_approve {b : ApprovalRecord} :
    b ∈ (s.approve a).approvals ↔ b ∈ s.approvals ∧ place b ≠ place a ∨ b = s.record a :=
  Recency.mem_touch

theorem nodup_approve (h : (s.approvals.map place).Nodup) :
    ((s.approve a).approvals.map place).Nodup :=
  Recency.nodup_touch h _

theorem approved_trusted (target : SshTarget) :
    approved s.trusted target = (s.find target.host target.port).map fun item => item.key := by
  rw [approved, trusted, find, List.find?_map, Option.map_map]
  rfl

/-- The check lets a key pass if it is the one approved for the place. -/
theorem check_eq_ok_iff {target : SshTarget} :
    s.check target.host target.port key = .ok () ↔ approved s.trusted target = some key := by
  rw [approved_trusted, check]
  cases s.find target.host target.port with
  | none => simp
  | some a => by_cases hkey : a.key = key <;> simp [hkey]

end TrustStore

/-- What is on the disk in place of the file of approvals. -/
inductive TrustFile where
  | absent
  | readable (store : TrustStore)
  | torn (detail : String)
  deriving DecidableEq

/-- How a write of the file breaks off: before it has begun, or with the file torn. -/
inductive SaveFault where
  | unopened (detail : String)
  | broken (detail torn : String)

namespace TrustFile

/-- `fault` is the error of the read, of a file that is there. -/
def openFile (path : String) (fault : Option String) : TrustFile → Except TrustError TrustStore
  | absent => .ok .new
  | readable store =>
    match fault with
    | some detail => .error (.unreadable path detail)
    | none => .ok store
  | torn detail => .error (.unreadable path (fault.getD detail))

def save (path : String) (fault : Option SaveFault) (store : TrustStore) (f : TrustFile) :
    Except TrustError Unit × TrustFile :=
  match fault with
  | none => (.ok (), readable store)
  | some (.unopened detail) => (.error (.unreadable path detail), f)
  | some (.broken detail left) => (.error (.unreadable path detail), torn left)

end TrustFile

end DdsOrchestrator.StudioSsh
