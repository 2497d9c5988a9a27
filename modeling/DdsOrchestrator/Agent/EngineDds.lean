import DdsOrchestrator.Lib.Machine
import DdsOrchestrator.Lib.Retained
import DdsOrchestrator.Lib.UntilFirst
import DdsOrchestrator.Agent.Publish
import DdsOrchestrator.Dataspace.TopicSamples

/-!
The engine that asks a server for an inference over the topics of the data space. It opens a
reader of results and one of errors, sends the request, and then takes from whichever of the
two has something, until the final chunk, an error of the request, or the deadline. The readers
see the samples of all requests, and keep only the last of those that have not been taken.
-/

namespace DdsOrchestrator.Agent

open Dataspace (LLMInferenceRequest LLMInferenceResult LLMInferenceError FloatBits)

inductive ProviderConstraint where
  | any
  | localOnly
  | cloudOnly
  deriving DecidableEq

def ProviderConstraint.asIdlLiteral : ProviderConstraint → String
  | any => "ANY"
  | localOnly => "LOCAL_ONLY"
  | cloudOnly => "CLOUD_ONLY"

structure InferRequest where
  requestId : String
  messagesJson : String
  modelName : String
  temperature : FloatBits
  maxTokens : UInt32
  stream : Bool
  timeoutMs : UInt64

structure DdsEngine where
  agentId : String
  providerConstraint : ProviderConstraint

namespace DdsEngine

def llmHistoryDepth : Nat := 10

def llmResultHistoryDepth : Nat := 256

/-- Streaming is asked for whatever the caller wants. -/
def request (e : DdsEngine) (nowNs : UInt64) (req : InferRequest) : LLMInferenceRequest :=
  { requestId := req.requestId, taskId := req.requestId, agentId := e.agentId
    modelName := req.modelName, messagesJson := req.messagesJson
    temperature := req.temperature, maxTokens := req.maxTokens, stream := true
    securityLevel := 0, providerConstraint := e.providerConstraint.asIdlLiteral
    createdAtNs := nowNs }

def chunkOf (r : LLMInferenceResult) : Chunk :=
  { content := r.content, seqNum := r.seqNum, isFinal := r.isFinal
    tokensPrompt := r.tokensPrompt, tokensCompletion := r.tokensCompletion }

def failure (e : LLMInferenceError) : EngineError :=
  .inferenceFailed (e.provider ++ " (" ++ toString e.errorCode ++ "): " ++ e.errorMessage)

/-! ### The stream of one request -/

inductive Stage where
  | opening
  | sending
  | waiting
  /-- A batch of results is gone through. -/
  | yielding (batch : List LLMInferenceResult)
  | ended

structure Inference where
  stage : Stage
  /-- The samples in the readers that have not been taken. -/
  results : List LLMInferenceResult
  errors : List LLMInferenceError
  sent : Option LLMInferenceRequest
  /-- What the stream has yielded. -/
  items : List (Except EngineError Chunk)

inductive Event where
  | opened (fault : Option String)
  | send (nowNs : UInt64) (fault : Option String)
  | result (r : LLMInferenceResult)
  | error (e : LLMInferenceError)
  | takeResults (k : Nat)
  | takeErrors (k : Nat)
  | resultsFail (text : String)
  | errorsFail (text : String)
  | resultsEnd
  /-- The next result of the batch. -/
  | next
  | timeout

namespace Inference

def start : Inference :=
  { stage := .opening, results := [], errors := [], sent := none, items := [] }

/-- The readers are there. -/
def listening (s : Inference) : Bool :=
  match s.stage with
  | .opening | .ended => false
  | .sending | .waiting | .yielding _ => true

def fail (e : EngineError) (s : Inference) : Inference :=
  { s with stage := .ended, items := s.items ++ [.error e] }

def step (engine : DdsEngine) (req : InferRequest) (s : Inference) : Event → Inference
  | .opened fault =>
    match s.stage, fault with
    | .opening, none => { s with stage := .sending }
    | .opening, some text => s.fail (.ddsError text)
    | _, _ => s
  | .send nowNs fault =>
    match s.stage, fault with
    | .sending, none => { s with stage := .waiting, sent := some (engine.request nowNs req) }
    | .sending, some text => s.fail (.ddsError text)
    | _, _ => s
  | .result r =>
    if s.listening then
      { s with results := Retained.lastOf llmResultHistoryDepth (s.results ++ [r]) }
    else s
  | .error e =>
    if s.listening then
      { s with errors := Retained.lastOf llmHistoryDepth (s.errors ++ [e]) }
    else s
  | .takeResults k =>
    match s.stage with
    | .waiting => { s with stage := .yielding (s.results.take k), results := s.results.drop k }
    | _ => s
  | .takeErrors k =>
    match s.stage with
    | .waiting =>
      -- The rest of the batch goes with the first error of the request.
      match (s.errors.take k).find? fun e => e.requestId = req.requestId with
      | some e => { s with errors := s.errors.drop k }.fail (failure e)
      | none => { s with errors := s.errors.drop k }
    | _ => s
  | .resultsFail text | .errorsFail text =>
    match s.stage with
    | .waiting => s.fail (.ddsError text)
    | _ => s
  | .resultsEnd =>
    match s.stage with
    | .waiting => { s with stage := .ended }
    | _ => s
  | .next =>
    match s.stage with
    | .yielding [] => { s with stage := .waiting }
    | .yielding (r :: batch) =>
      if r.requestId = req.requestId then
        { s with
          stage := if r.isFinal then .ended else .yielding batch
          items := s.items ++ [.ok (chunkOf r)] }
      else { s with stage := .yielding batch }
    | _ => s
  | .timeout =>
    match s.stage with
    | .waiting => s.fail (.timeout req.timeoutMs)
    | _ => s

/-- The results that reach the reader. -/
def arrival (s : Inference) : Event → List LLMInferenceResult
  | .result r => if s.listening then [r] else []
  | _ => []

end Inference

end DdsEngine

end DdsOrchestrator.Agent
