import Mathlib.Data.Int.Notation

/-!
The samples of the tool calls and of the security policies, and the errors of a
dataspace. Versions are integers of 32 bits, since documents carry longer ones
that are cut to that size.
-/

namespace DdsOrchestrator.Dataspace

inductive DataSpaceError where
  | dds (text : String)
  | timeout (text : String)
  | notFound (text : String)
  | writeFailed (text : String)
  deriving DecidableEq

structure ToolCallRequest where
  callId : String
  requestId : String
  requesterId : String
  toolName : String
  argumentsJson : String
  securityLevel : Int
  status : Int
  resultJson : String
  errorMessage : String
  createdAtNs : UInt64
  completedAtNs : UInt64
  deriving DecidableEq

structure SecurityPolicySnapshot where
  policyId : String
  version : Int32
  policyJson : String
  publishedBy : String
  timestampNs : UInt64
  deriving DecidableEq

structure SecurityPolicyUpdate where
  policyId : String
  previousVersion : Int32
  newVersion : Int32
  operation : String
  ruleDeltaJson : String
  publishedBy : String
  timestampNs : UInt64
  deriving DecidableEq

end DdsOrchestrator.Dataspace
