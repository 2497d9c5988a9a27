import DdsOrchestrator.Lib.History
import DdsOrchestrator.McpGateway.Claim
import DdsOrchestrator.McpGateway.Policy
import DdsOrchestrator.Dataspace.ToolCalls
import DdsOrchestrator.WorkflowEngine.Runtime

/-!
Gateways that serve tool calls over one dataspace and one claim store. Every
`process_one` and every `reject_overloaded` is a job of its gateway, and its
code is cut at each verdict, claim, read, write and dispatch: one such step of
one job is one step of the whole. Requests may be delivered any number of times
and to any gateway, and the policies of the gateways change in between, each on
its own.

`parse` is the JSON parser the policies are read with.
-/

namespace DdsOrchestrator.McpGateway

open Dataspace

namespace Status

def pending : Int := 0

def denied : Int := 2

def executing : Int := 3

def completed : Int := 4

def failed : Int := 5

end Status

def deniedMessage : String := "Negado pela politica de seguranca local"

def overloadMessage : String := "gateway sobrecarregado"

def maxInflightJobs : Nat := 64

inductive ToolError where
  | invalidArguments (text : String)
  | pathTraversal (path : String)
  | notFound (text : String)
  | tooLarge (size max : Nat)
  | unknownTool (name : String)
  | notConfigured (text : String)
  | io (text : String)
  deriving DecidableEq

/-- The text that goes into `error_message`. -/
def ToolError.text : ToolError → String
  | invalidArguments text => "argumentos inválidos: " ++ text
  | pathTraversal path => "path traversal negado: '" ++ path ++ "' foge da raiz do sandbox"
  | notFound text => "não encontrado: " ++ text
  | tooLarge size max =>
      "tamanho " ++ toString size ++ " bytes excede o limite de " ++ toString max ++ " bytes"
  | unknownTool name => "ferramenta desconhecida: " ++ name
  | notConfigured text => "ferramenta não configurada: " ++ text
  | io text => "erro de E/S: " ++ text

inductive ServiceError where
  | dataSpace (e : DataSpaceError)
  | claim (e : ClaimError)
  | alreadyClaimed
  deriving DecidableEq

/-- The names under which handlers are registered. -/
structure ToolRegistry where
  handlers : List String
  deriving DecidableEq

/-- `answer` is what the handler would give. -/
def ToolRegistry.dispatch (registry : ToolRegistry) (toolName : String)
    (answer : Except ToolError String) : Except ToolError String :=
  if toolName ∈ registry.handlers then answer else .error (.unknownTool toolName)

/-! ### The samples a job writes -/

def deniedCall (nowNs : UInt64) (request : ToolCallRequest) : ToolCallRequest :=
  { request with
    status := Status.denied
    errorMessage := deniedMessage
    completedAtNs := nowNs }

def executingCall (request : ToolCallRequest) : ToolCallRequest :=
  { request with status := Status.executing }

def concludedCall (result : Except ToolError String) (nowNs : UInt64)
    (request : ToolCallRequest) : ToolCallRequest :=
  match result with
  | .ok text =>
      { request with
        status := Status.completed
        resultJson := "\x7b\"result\":" ++ WorkflowEngine.EngineRuntime.jsonString text ++ "\x7d"
        completedAtNs := nowNs }
  | .error e =>
      { request with
        status := Status.failed
        errorMessage := e.text
        completedAtNs := nowNs }

def overloadedCall (nowNs : UInt64) (request : ToolCallRequest) : ToolCallRequest :=
  { request with
    status := Status.failed
    errorMessage := overloadMessage
    completedAtNs := nowNs }

/-! ### Jobs -/

/-- Where a job is: about to take the named step, or over. The first seven are
of `process_one`, the next two of `reject_overloaded`. -/
inductive Stage where
  | evaluate
  | deny
  | claim
  | execute
  | dispatch
  | handle
  | conclude (result : Except ToolError String)
  | consult
  | refuse
  | returned (result : Except ServiceError ToolCallRequest)
  | rejected

def Stage.isReturned : Stage → Bool
  | returned _ => true
  | _ => false

/-- What a job does that others can see, and what it learns: its verdict, the
claim, the call of the registry, its writes and whether they succeed, and its
read. -/
inductive Act where
  | judged (decision : PolicyDecision)
  | won
  | dispatched (toolName argumentsJson : String)
  | wrote (call : ToolCallRequest) (ok : Bool)
  | consulted (found : Option ToolCallRequest)
  | wroteWithoutOwnership (call : ToolCallRequest) (ok : Bool)
  deriving DecidableEq

/-- `jobs.spawn` puts a job into the set that is bounded. -/
structure Job where
  request : ToolCallRequest
  stage : Stage
  inSet : Bool

/-- What is outside the model at a step: the clock, the file system and the
handler of the tool. -/
structure World where
  nowNs : UInt64
  storage : Storage
  answer : Except ToolError String

structure Gateway where
  owner : OwnerId
  registry : ToolRegistry
  policy : DistributedPolicy
  jobs : List Job

/-- What the gateways share. -/
structure Shared (D : Type) where
  claims : ClaimStore
  space : D

variable {D : Type} [DataSpaceApi D]

/-- The write of a sample, with where the job goes when it succeeds. -/
def Shared.writeToolCall (m : Shared D) (call : ToolCallRequest) (next : Stage) :
    Shared D × Stage × List Act :=
  match DataSpaceApi.writeToolCall call m.space with
  | (.ok _, space) => ({ m with space }, next, [.wrote call true])
  | (.error e, space) =>
      ({ m with space }, .returned (.error (.dataSpace e)), [.wrote call false])

/-- The next step of a job of `gw`, and its acts. -/
def advance (gw : Gateway) (w : World) (request : ToolCallRequest) (m : Shared D) :
    Stage → Shared D × Stage × List Act
  | .evaluate =>
      match gw.policy.evaluateAt request w.nowNs with
      | .denied reason => (m, .deny, [.judged (.denied reason)])
      | .allowed version => (m, .claim, [.judged (.allowed version)])
  | .deny =>
      let call := deniedCall w.nowNs request
      m.writeToolCall call (.returned (.ok call))
  | .claim =>
      match m.claims.tryClaim w.storage request.callId gw.owner with
      | (.ok .won, claims) => ({ m with claims }, .execute, [.won])
      | (.ok .alreadyClaimed, claims) =>
          ({ m with claims }, .returned (.error .alreadyClaimed), [])
      | (.error e, claims) => ({ m with claims }, .returned (.error (.claim e)), [])
  | .execute => m.writeToolCall (executingCall request) .dispatch
  | .dispatch => (m, .handle, [.dispatched request.toolName request.argumentsJson])
  | .handle => (m, .conclude (gw.registry.dispatch request.toolName w.answer), [])
  | .conclude result =>
      let call := concludedCall result w.nowNs request
      m.writeToolCall call (.returned (.ok call))
  | .consult =>
      match DataSpaceApi.readToolCall request.callId m.space with
      | .ok found =>
          if ∃ current ∈ found, current.status ≠ Status.pending then
            (m, .rejected, [.consulted found])
          else (m, .refuse, [.consulted found])
      | .error _ => (m, .rejected, [])
  | .refuse =>
      let call := overloadedCall w.nowNs request
      match DataSpaceApi.writeToolCallWithoutOwnership call m.space with
      | (.ok _, space) => ({ m with space }, .rejected, [.wroteWithoutOwnership call true])
      | (.error _, space) => ({ m with space }, .rejected, [.wroteWithoutOwnership call false])
  | .returned result => (m, .returned result, [])
  | .rejected => (m, .rejected, [])

/-! ### The gateways together -/

/-- A job by its gateway and its number there, with the call it is about. -/
structure JobId where
  gateway : Nat
  number : Nat
  callId : String
  deriving DecidableEq

structure Mesh (D : Type) where
  shared : Shared D
  gateways : List Gateway
  log : History JobId Act

/-- The gateways as they start, over whatever claims and samples there are. -/
def Mesh.start (claims : ClaimStore) (space : D) : Mesh D := ⟨⟨claims, space⟩, [], []⟩

inductive Step (D : Type) where
  /-- A gateway starts, or starts again. -/
  | launch (owner : OwnerId) (registry : ToolRegistry) (policy : DistributedPolicy)
  /-- The loop of `run` takes a request from its stream. -/
  | receive (g : Nat) (request : ToolCallRequest)
  /-- `process_one` is called. -/
  | process (g : Nat) (request : ToolCallRequest)
  /-- `reject_overloaded` is called. -/
  | reject (g : Nat) (request : ToolCallRequest)
  | acceptSnapshot (g : Nat) (snapshot : SecurityPolicySnapshot) (nowNs : UInt64)
  | acceptUpdate (g : Nat) (update : SecurityPolicyUpdate) (nowNs : UInt64)
  /-- A job takes its next step. -/
  | advance (g n : Nat) (w : World)
  /-- The loop of `run` collects a job. -/
  | joined (g n : Nat)
  /-- The other participants change the dataspace. -/
  | others (change : D → D)

namespace Gateway

def addJob (request : ToolCallRequest) (stage : Stage) (inSet : Bool) (gw : Gateway) : Gateway :=
  { gw with jobs := gw.jobs ++ [⟨request, stage, inSet⟩] }

def inflight (gw : Gateway) : Nat := gw.jobs.countP Job.inSet

/-- Only requests that are `PENDING` are taken up. Where the set stays full, the
request is refused instead. -/
def receive (request : ToolCallRequest) (gw : Gateway) : Gateway :=
  if request.status = Status.pending then
    if gw.inflight < maxInflightJobs then gw.addJob request .evaluate true
    else gw.addJob request .consult false
  else gw

def setStage (n : Nat) (stage : Stage) (gw : Gateway) : Gateway :=
  { gw with jobs := gw.jobs.modify n fun job => { job with stage := stage } }

/-- A job that has returned leaves the set. -/
def join (n : Nat) (gw : Gateway) : Gateway :=
  { gw with jobs := gw.jobs.modify n fun job =>
      { job with inSet := job.inSet && !job.stage.isReturned } }

end Gateway

namespace Mesh

/-- One gateway changes. -/
def on (m : Mesh D) (g : Nat) (change : Gateway → Gateway) : Mesh D :=
  { m with gateways := m.gateways.modify g change }

/-- The step of a job: what it does to the shared state, where the job is then,
and what is added to the log. -/
def advance (m : Mesh D) (g n : Nat) (w : World) : Mesh D :=
  match m.gateways[g]? with
  | none => m
  | some gw =>
      match gw.jobs[n]? with
      | none => m
      | some job =>
          let (shared, stage, acts) := McpGateway.advance gw w job.request m.shared job.stage
          { shared
            gateways := m.gateways.modify g (·.setStage n stage)
            log := m.log ++ acts.map (⟨g, n, job.request.callId⟩, ·) }

variable (parse : String → Except String Json)

def step (m : Mesh D) : Step D → Mesh D
  | .launch owner registry policy =>
      { m with gateways := m.gateways ++ [⟨owner, registry, policy, []⟩] }
  | .receive g request => m.on g (·.receive request)
  | .process g request => m.on g (·.addJob request .evaluate false)
  | .reject g request => m.on g (·.addJob request .consult false)
  | .acceptSnapshot g snapshot nowNs => m.on g fun gw =>
      { gw with policy := (gw.policy.ingestSnapshotAt parse snapshot nowNs).2 }
  | .acceptUpdate g update nowNs => m.on g fun gw =>
      { gw with policy := (gw.policy.ingestUpdateAt parse update nowNs).2 }
  | .advance g n w => m.advance g n w
  | .joined g n => m.on g (·.join n)
  | .others change => { m with shared := { m.shared with space := change m.shared.space } }

def run (m : Mesh D) (steps : List (Step D)) : Mesh D := steps.foldl (step parse) m

end Mesh

end DdsOrchestrator.McpGateway
