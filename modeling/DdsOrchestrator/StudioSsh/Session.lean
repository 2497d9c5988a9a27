import DdsOrchestrator.Lib.Lines
import DdsOrchestrator.StudioSsh.Trust

/-!
The panel from which an operator runs a command on a host. A run goes to a worker of its own,
which reads the file of approvals and then connects. Where the host is not known the panel
shows the key that the host has shown and waits; the approval is for the key on display and
for the host that the form names by then.
-/

namespace DdsOrchestrator.StudioSsh

structure Form where
  host : String
  port : String
  username : String
  hostAlias : String
  project : String
  operator : String
  passphrase : String
  command : String

inductive SshPhase where
  | idle
  | connecting
  | awaitingApproval (keyType fingerprint : String)
  | done
  | failed
  deriving DecidableEq

inductive SessionError where
  | bridge (e : BridgeError)
  | identity (text : String)
  | trust (e : TrustError)

def BridgeError.text : BridgeError → String
  | unknownHost host port keyType fingerprint =>
    "host desconhecido " ++ host ++ ":" ++ toString port ++ ": confira " ++ fingerprint ++ " (" ++
      keyType ++ ") por fonte independente e aprove antes"
  | changedKey host port known presented =>
    "host " ++ host ++ ":" ++ toString port ++ " mudou a chave (era " ++ known ++ ", veio " ++
      presented ++ "): conexao bloqueada"
  | authFailed username host port =>
    "autenticacao publickey recusada por " ++ username ++ "@" ++ host ++ ":" ++ toString port
  | transport host port detail =>
    "transporte SSH falhou para " ++ host ++ ":" ++ toString port ++ ": " ++ detail
  | commandFailed host port status _ stderr =>
    "comando remoto falhou em " ++ host ++ ":" ++ toString port ++ " (status " ++
      toString status ++ "): " ++ stderr
  | commandSignaled host port signal _ stderr =>
    "comando remoto morto por " ++ signal ++ " em " ++ host ++ ":" ++ toString port ++ ": " ++
      stderr

def SessionError.text : SessionError → String
  | bridge e => e.text
  | identity text => text
  | trust e => e.text

inductive Worker where
  | unlocking (target : SshTarget) (passphrase command : String)
  | connecting (target : SshTarget) (command : String) (store : TrustStore)
  | finished (result : Except SessionError String)

structure SshSession where
  form : Form
  phase : SshPhase
  output : String
  notice : String
  privatePem : String
  trustPath : String
  receiver : Option Worker

/-! ### The form -/

def trim (s : String) : String := .ofList (Lines.trim s.toList)

/-- A sign may stand before the digits. -/
def parsePort (s : String) : Option UInt16 :=
  let digits := match s.toList with
    | '+' :: rest => rest
    | other => other
  if digits = [] then none
  else if digits.all Char.isDigit then
    let value := digits.foldl (fun n c => n * 10 + (c.toNat - '0'.toNat)) 0
    if value < 65536 then some (.ofNat value) else none
  else none

namespace Form

/-- The host and the port that the form names. -/
def place (f : Form) : Option (String × UInt16) :=
  (parsePort (trim f.port)).map fun port => (trim f.host, port)

def target (f : Form) : Except String SshTarget :=
  if trim f.host = "" ∨ trim f.username = "" then .error "host e usuário são obrigatórios"
  else match parsePort (trim f.port) with
    | some port => .ok { host := trim f.host, port, username := trim f.username }
    | none => .error "porta inválida (esperado 1..=65535)"

def approval (target : SshTarget) (key : KeyIdentity) (nowUnix : UInt64) (f : Form) :
    ApprovalRecord :=
  { host := target.host, port := target.port, key
    project := trim f.project
    hostAlias := if trim f.hostAlias = "" then target.host else trim f.hostAlias
    approvedBy := if trim f.operator = "" then "operador" else trim f.operator
    approvedAtUnix := nowUnix, replaced := none }

theorem place_of_target {f : Form} {target : SshTarget} (h : f.target = .ok target) :
    f.place = some (target.host, target.port) := by
  unfold Form.target at h
  split at h
  · cases h
  · split at h
    next port hport =>
      obtain rfl := Except.ok.inj h
      rw [place, hport, Option.map_some]
    next => cases h

end Form

/-! ### The panel -/

namespace SshSession

def withPaths (privatePem trustPath : String) : SshSession :=
  { form :=
      { host := "", port := "22", username := "", hostAlias := "", project := "studio"
        operator := "", passphrase := "", command := "hostname && uname -s" }
    phase := .idle, output := "", notice := "", privatePem, trustPath, receiver := none }

def busy (s : SshSession) : Bool := s.phase = .connecting

def fail (notice : String) (s : SshSession) : SshSession := { s with phase := .failed, notice }

/-- `pem` tells whether the private key is there. -/
def start (pem : Bool) (s : SshSession) : SshSession :=
  if s.busy then s
  else match s.form.target with
    | .error err => s.fail err
    | .ok target =>
      if pem then
        { s with
          receiver := some (.unlocking target s.form.passphrase s.form.command)
          phase := .connecting, notice := "conectando (handshake + publickey)…" }
      else
        s.fail ("identidade dedicada ausente em " ++ s.privatePem ++
          " — gere a identidade antes de conectar")

def poll (s : SshSession) : SshSession :=
  match s.receiver with
  | some (.finished result) =>
    let s := { s with receiver := none }
    match result with
    | .ok output => { s with output, phase := .done, notice := "comando concluído" }
    | .error (.bridge (.unknownHost _ _ keyType fingerprint)) =>
      { s with
        phase := .awaitingApproval keyType fingerprint
        notice := "host desconhecido: confira a impressão " ++ fingerprint ++ " (" ++ keyType ++
          ") por fonte independente antes de aprovar" }
    | .error err => s.fail err.text
  | _ => s

def generateIdentity (result : Except String String) (s : SshSession) : SshSession :=
  { s with notice := match result with
      | .ok path => "identidade gerada em " ++ path ++
          " — cadastre a .pub no host antes de conectar"
      | .error err => "falha ao gerar identidade: " ++ err }

end SshSession

/-- The panel, its worker and the file of approvals. -/
structure Panel where
  session : SshSession
  file : TrustFile

namespace Panel

/-- What the disk answers to an approval. -/
structure ApprovalIo where
  nowUnix : UInt64
  readFault : Option String
  saveFault : Option SaveFault
  pem : Bool

inductive Event where
  | edit (form : Form)
  | generate (result : Except String String)
  | start (pem : Bool)
  /-- The worker unlocks the key, reads the file and sets up its runtime. -/
  | unlock (unlocked : Except String Unit) (readFault runtime : Option String)
  | connect (io : SessionIo) (messages : List ChannelMsg)
  | poll
  | approve (io : ApprovalIo)
  /-- The program is started anew. -/
  | restart

def onSession (f : SshSession → SshSession) (p : Panel) : Panel := { p with session := f p.session }

def goOn (w : Worker) (p : Panel) : Panel := p.onSession fun s => { s with receiver := some w }

def unlock (unlocked : Except String Unit) (readFault runtime : Option String) (target : SshTarget)
    (command : String) (p : Panel) : Worker :=
  match unlocked with
  | .error text => .finished (.error (.identity text))
  | .ok () =>
    match p.file.openFile p.session.trustPath readFault, runtime with
    | .error e, _ => .finished (.error (.trust e))
    | .ok _, some err => .finished (.error (.bridge (target.fail ("runtime: " ++ err))))
    | .ok store, none => .connecting target command store

def runCommand (target : SshTarget) (store : TrustStore) (io : SessionIo)
    (messages : List ChannelMsg) : Worker :=
  .finished ((StudioSsh.runCommand target store.trusted io messages).mapError .bridge)

/-- The approval of a key, with the store it goes into. -/
def approval (key : KeyIdentity) (io : ApprovalIo) (p : Panel) :
    Except String (ApprovalRecord × TrustStore) :=
  match p.session.form.target with
  | .error err => .error err
  | .ok target =>
    match p.file.openFile p.session.trustPath io.readFault with
    | .error e => .error ("falha ao persistir aprovação: " ++ e.text)
    | .ok store => .ok (p.session.form.approval target key io.nowUnix, store)

def approve (io : ApprovalIo) (p : Panel) : Panel :=
  match p.session.phase with
  | .awaitingApproval keyType fingerprint =>
    match p.approval ⟨keyType, fingerprint⟩ io with
    | .error err => p.onSession (·.fail err)
    | .ok (a, store) =>
      match p.file.save p.session.trustPath io.saveFault (store.approve a) with
      | (.ok (), file) =>
        let notice := "impressão aprovada para " ++ a.host ++ ":" ++ toString a.port ++
          " — reconectando"
        { session := { p.session with phase := .idle, notice }.start io.pem, file }
      | (.error e, file) =>
        { session := p.session.fail ("falha ao persistir aprovação: " ++ e.text), file }
  | _ => p

def step (p : Panel) : Event → Panel
  | .edit form => p.onSession fun s => { s with form }
  | .generate result => p.onSession (·.generateIdentity result)
  | .start pem => p.onSession (·.start pem)
  | .unlock unlocked readFault runtime =>
    match p.session.receiver with
    | some (.unlocking target _ command) =>
      p.goOn (p.unlock unlocked readFault runtime target command)
    | _ => p
  | .connect io messages =>
    match p.session.receiver with
    | some (.connecting target _ store) => p.goOn (runCommand target store io messages)
    | _ => p
  | .poll => p.onSession (·.poll)
  | .approve io => p.approve io
  | .restart =>
    { p with session := .withPaths p.session.privatePem p.session.trustPath }

/-! ### What can be seen of it -/

inductive Seen where
  | shown (host : String) (port : UInt16) (key : KeyIdentity)
  | sent (target : SshTarget) (key : KeyIdentity) (command : String)
  | approved (a : ApprovalRecord)

/-- The key of the server that the command is sent to, if it is sent. -/
def sentTo (target : SshTarget) (trust : List Approval) (io : SessionIo) : Option KeyIdentity :=
  match connect target trust io.handshake, io.handshake, io.authenticate, io.channelOpen with
  | .ok (), .shown key _, .ok true, none => some key
  | _, _, _, _ => none

def seen (p : Panel) : Event → List Seen
  | .connect io _ =>
    match p.session.receiver with
    | some (.connecting target command store) =>
      (match io.handshake with
        | .shown key _ => [.shown target.host target.port key]
        | .noKey _ => []) ++
      (match sentTo target store.trusted io with
        | some key => [.sent target key command]
        | none => [])
    | _ => []
  | .approve io =>
    match p.session.phase, io.saveFault with
    | .awaitingApproval keyType fingerprint, none =>
      match p.approval ⟨keyType, fingerprint⟩ io with
      | .ok (a, store) => [.approved (store.record a)]
      | .error _ => []
    | _, _ => []
  | _ => []

end Panel

end DdsOrchestrator.StudioSsh
