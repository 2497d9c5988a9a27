import DdsOrchestrator.Agent.EngineDds
import DdsOrchestrator.Client.Submit
import DdsOrchestrator.DetResponder.Endpoint

/-!
The way of a task from its client to the deterministic responder and back. Agents attempt
tasks, any number of times and side by side; each attempt asks the responder for an inference
and publishes the chunks it gets as outputs; and a client waits for the outputs of its task.
Samples reach whoever reads them in any order, any number of times or not at all.
-/

namespace DdsOrchestrator.DetResponder

open Agent (DdsEngine InferRequest Publisher Move)
open Client (Arrival RecvError)
open Dataspace (Task TaskOutput LLMInferenceResult LLMInferenceError WriteRequest)

/-- The id under which an attempt asks for its inference. -/
def requestId (t : Task) : String := t.taskId ++ "#" ++ toString t.retryCount.toNat

/-- The work of one agent on one task that it has claimed. -/
structure Attempt where
  task : Task
  engine : DdsEngine
  timeoutMs : UInt64
  ensureTerminal : Bool
  inference : DdsEngine.Inference
  publisher : Publisher

namespace Attempt

def inferRequest (a : Attempt) : InferRequest :=
  { requestId := requestId a.task, messagesJson := a.task.messagesJson
    modelName := a.task.modelName, temperature := a.task.temperature
    maxTokens := a.task.maxTokens, stream := a.task.stream, timeoutMs := a.timeoutMs }

/-- What the publisher works on: the stream is what the engine has yielded so far. -/
def job (a : Attempt) : Agent.Job :=
  { task := a.task, agentId := a.engine.agentId, stream := a.inference.items
    ensureTerminal := a.ensureTerminal }

def ended (a : Attempt) : Bool :=
  match a.inference.stage with
  | .ended => true
  | _ => false

/-- The next item is there, or there is none any more. -/
def tells (a : Attempt) : Move → Bool
  | .next _ _ _ =>
    match a.publisher.stage with
    | .streaming position _ => position < a.inference.items.length || a.ended
    | _ => true
  | _ => true

end Attempt

/-- The output of a request to write one. -/
def outputOf : WriteRequest → Option TaskOutput
  | .output _ o | .outputAck _ o => some o
  | .other => none

/-- The output that the move writes. -/
def written (p : Publisher) : Move → Option TaskOutput
  | .write k (.ok _) =>
    match p.pool.workers k with
    | .writing r => outputOf r
    | _ => none
  | _ => none

structure World where
  responder : Responder
  attempts : List Attempt
  /-- What has been written of outputs. -/
  outputs : List TaskOutput
  /-- What has reached the client that waits for its task. -/
  arrivals : List Arrival

inductive Happening where
  | attempt (engine : DdsEngine) (taskId : String) (retryCount : UInt32)
      (assignedAtNs timeoutMs : UInt64) (capacity : ℕ) (ensureTerminal : Bool)
  /-- A step of the engine by itself. -/
  | infer (n : ℕ) (e : DdsEngine.Event)
  | resultArrives (n k : ℕ)
  | errorArrives (n k : ℕ)
  | publish (n : ℕ) (m : Move)
  /-- The request that an attempt has sent arrives. -/
  | request (n arrivalNs : ℕ)
  /-- A step of the responder by itself. -/
  | serve (e : Event)
  | output (elapsedMs : UInt64) (k : ℕ)
  | lost (elapsedMs : UInt64) (e : RecvError)
  | status (elapsedMs : UInt64) (received : Except RecvError Task)

def Responder.results (s : Responder) : List LLMInferenceResult :=
  s.published.filterMap fun p => match p.2 with
    | .result r => some r
    | .error _ => none

def Responder.errors (s : Responder) : List LLMInferenceError :=
  s.published.filterMap fun p => match p.2 with
    | .result _ => none
    | .error e => some e

namespace World

def start (c : Config) : World :=
  { responder := .start c, attempts := [], outputs := [], arrivals := [] }

def infer (n : ℕ) (e : DdsEngine.Event) (w : World) : World :=
  match w.attempts[n]? with
  | some a => { w with
      attempts := w.attempts.set n
        { a with inference := a.inference.step a.engine a.inferRequest e } }
  | none => w

def publish (n : ℕ) (m : Move) (w : World) : World :=
  match w.attempts[n]? with
  | some a =>
    if a.tells m then
      { w with
        attempts := w.attempts.set n { a with publisher := a.publisher.step a.job m }
        outputs := w.outputs ++ (written a.publisher m).toList }
    else w
  | none => w

def arrive (elapsedMs : UInt64) (event : Client.Event) (w : World) : World :=
  { w with arrivals := w.arrivals ++ [{ elapsedMs, event }] }

/-- `submitted` gives the tasks as their clients have submitted them. What is attempted is that
with what assignments and retries have changed. -/
def step (c : Config) (submitted : String → Task) (w : World) : Happening → World
  | .attempt engine taskId retryCount assignedAtNs timeoutMs capacity ensureTerminal =>
    let task : Task := { submitted taskId with
      taskId, retryCount, assignedAtNs, assignedAgent := engine.agentId, status := 1 }
    { w with attempts := w.attempts ++
        [{ task, engine, timeoutMs, ensureTerminal, inference := .start
           publisher := .start capacity }] }
  | .infer n e =>
    match e with
    | .result _ | .error _ => w
    | _ => w.infer n e
  | .resultArrives n k =>
    match w.responder.results[k]? with
    | some r => w.infer n (.result r)
    | none => w
  | .errorArrives n k =>
    match w.responder.errors[k]? with
    | some e => w.infer n (.error e)
    | none => w
  | .publish n m => w.publish n m
  | .request n arrivalNs =>
    match w.attempts[n]? with
    | some a =>
      match a.inference.sent with
      | some request => { w with responder := w.responder.step c (.receive request arrivalNs) }
      | none => w
    | none => w
  | .serve e =>
    match e with
    | .receive _ _ => w
    | _ => { w with responder := w.responder.step c e }
  | .output elapsedMs k =>
    match w.outputs[k]? with
    | some o => w.arrive elapsedMs (.output (.ok o))
    | none => w
  | .lost elapsedMs e => w.arrive elapsedMs (.output (.error e))
  | .status elapsedMs received => w.arrive elapsedMs (.status received)

end World

end DdsOrchestrator.DetResponder
