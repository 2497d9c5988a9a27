import DdsOrchestrator.Dataspace.Samples
import DdsOrchestrator.PolicyEngine.Rules

/-!
The policy a gateway holds. It is fed by snapshots and updates that come over
the dataspace and may be anything; a sample that does not fit is refused and
the policy stays. Without a policy in force every call is denied.

`parse` is the JSON parser throughout, and `nowNs` the clock of the gateway.
-/

namespace DdsOrchestrator.McpGateway

open Dataspace
open PolicyEngine (PolicyDocument PolicyError SecurityLevel)

inductive DenialReason where
  | noSnapshot
  | invalidLevel
  | missingRequester
  | expired
  | toolDenied
  | levelDenied
  deriving DecidableEq

inductive PolicyDecision where
  | allowed (version : Int32)
  | denied (reason : DenialReason)
  deriving DecidableEq

def PolicyDecision.isAllowed : PolicyDecision → Bool
  | allowed _ => true
  | denied _ => false

inductive PolicyIngestError where
  | wrongPolicyId
  | invalidVersion
  | missingPublisher
  | invalidTimestamp
  | invalidDocument (error : PolicyError)
  | versionMismatch
  | emptyDocument
  | staleVersion
  | invalidUpdateChain
  | invalidDeltaJson (text : String)
  deriving DecidableEq

structure ActivePolicy where
  version : Int32
  document : PolicyDocument
  publisher : String
  timestampNs : UInt64
  deriving DecidableEq

structure DistributedPolicy where
  policyId : String
  maxAgeNs : UInt64
  futureSkewNs : UInt64
  active : Option ActivePolicy
  deriving DecidableEq

/-- How an ingest ends. -/
inductive Ingest where
  | ok
  | error (e : PolicyIngestError)
  | panicked
  deriving DecidableEq

/-- Addition of 64 bits that stays at the largest value. -/
def saturatingAdd (a b : UInt64) : UInt64 :=
  if a.toNat + b.toNat < UInt64.size then a + b else UInt64.ofNat (UInt64.size - 1)

namespace DistributedPolicy

def defaultFutureSkewNs : UInt64 := 5000000000

def new (policyId : String) (maxAgeNs : UInt64) : DistributedPolicy :=
  ⟨policyId, maxAgeNs, defaultFutureSkewNs, none⟩

def activate (p : DistributedPolicy) (policy : ActivePolicy) : DistributedPolicy :=
  { p with active := some policy }

def validateEnvelope (p : DistributedPolicy) (policyId : String) (version : Int32)
    (publishedBy : String) (timestampNs nowNs : UInt64) : Except PolicyIngestError Unit :=
  if policyId ≠ p.policyId then .error .wrongPolicyId
  else if version ≤ 0 then .error .invalidVersion
  else if publishedBy = "" then .error .missingPublisher
  else if timestampNs = 0 ∨ p.futureSkewNs.toNat < timestampNs.toNat - nowNs.toNat ∨
      p.maxAgeNs.toNat < nowNs.toNat - timestampNs.toNat then .error .invalidTimestamp
  else .ok ()

/-- The snapshot does not go on from the policy in force. -/
def isStale (snapshot : SecurityPolicySnapshot) (document : PolicyDocument)
    (current : ActivePolicy) : Prop :=
  snapshot.version < current.version ∨ snapshot.timestampNs ≤ current.timestampNs ∨
    (snapshot.version = current.version ∧
      (document ≠ current.document ∨ snapshot.publishedBy ≠ current.publisher))

instance (snapshot : SecurityPolicySnapshot) (document : PolicyDocument)
    (current : ActivePolicy) : Decidable (isStale snapshot document current) :=
  inferInstanceAs (Decidable (_ ∨ _ ∨ (_ ∧ (_ ∨ _))))

variable (parse : String → Except String Json)

def ingestSnapshotAt (p : DistributedPolicy) (snapshot : SecurityPolicySnapshot)
    (nowNs : UInt64) : Ingest × DistributedPolicy :=
  match p.validateEnvelope snapshot.policyId snapshot.version snapshot.publishedBy
      snapshot.timestampNs nowNs with
  | .error e => (.error e, p)
  | .ok _ =>
      match PolicyDocument.fromJsonStr parse snapshot.policyJson with
      | .error e => (.error (.invalidDocument e), p)
      | .ok document =>
          if document.isEmpty then (.error .emptyDocument, p)
          else if document.version ≠ snapshot.version then (.error .versionMismatch, p)
          else if ∃ current ∈ p.active, isStale snapshot document current then
            (.error .staleVersion, p)
          else (.ok, p.activate
            ⟨snapshot.version, document, snapshot.publishedBy, snapshot.timestampNs⟩)

/-- The document once the delta is applied and the version set. -/
def updateDocument (document : PolicyDocument) (update : SecurityPolicyUpdate) (delta : Json) :
    Except PolicyIngestError (Option PolicyDocument) :=
  match document.applyDelta update.operation delta with
  | .error e => .error (.invalidDocument e)
  | .ok document => .ok (document.setVersion update.newVersion)

def ingestUpdateAt (p : DistributedPolicy) (update : SecurityPolicyUpdate) (nowNs : UInt64) :
    Ingest × DistributedPolicy :=
  match p.validateEnvelope update.policyId update.newVersion update.publishedBy
      update.timestampNs nowNs with
  | .error e => (.error e, p)
  | .ok _ =>
      match parse update.ruleDeltaJson with
      | .error text => (.error (.invalidDeltaJson text), p)
      | .ok delta =>
          match p.active with
          | none => (.error .invalidUpdateChain, p)
          | some current =>
              if update.previousVersion ≠ current.version ∨
                  update.newVersion ≤ current.version ∨
                  update.publishedBy ≠ current.publisher ∨
                  update.timestampNs ≤ current.timestampNs then
                (.error .invalidUpdateChain, p)
              else
                match updateDocument current.document update delta with
                | .error e => (.error e, p)
                | .ok none => (.panicked, p)
                | .ok (some document) =>
                    if document.isEmpty then (.error .emptyDocument, p)
                    else (.ok, p.activate
                      ⟨update.newVersion, document, update.publishedBy, update.timestampNs⟩)

/-- The policy was made too far in the future, or too long ago. -/
def isExpired (p : DistributedPolicy) (policy : ActivePolicy) (nowNs : UInt64) : Prop :=
  saturatingAdd nowNs p.futureSkewNs < policy.timestampNs ∨
    p.maxAgeNs.toNat < nowNs.toNat - policy.timestampNs.toNat

instance (p : DistributedPolicy) (policy : ActivePolicy) (nowNs : UInt64) :
    Decidable (p.isExpired policy nowNs) :=
  inferInstanceAs (Decidable (_ ∨ _))

def evaluateAt (p : DistributedPolicy) (request : ToolCallRequest) (nowNs : UInt64) :
    PolicyDecision :=
  match SecurityLevel.tryFrom request.securityLevel with
  | .error _ => .denied .invalidLevel
  | .ok level =>
      if request.requesterId = "" then .denied .missingRequester
      else match p.active with
      | none => .denied .noSnapshot
      | some policy =>
          if p.isExpired policy nowNs then .denied .expired
          else if ¬ (policy.document.checkToolCall request.requesterId
              request.toolName).isAllowed then .denied .toolDenied
          else match policy.document.checkLlmRequest request.requesterId level.toInt with
          | .allowed => .allowed policy.version
          | .allowedNoPolicy | .denied _ => .denied .levelDenied

end DistributedPolicy

end DdsOrchestrator.McpGateway
