import DdsOrchestrator.Dataspace.TopicSamples
import DdsOrchestrator.DetResponder.Fixture

/-!
The deterministic responder at work. The loop that takes the requests puts them into a bounded
queue, and refuses them when that is full. Workers take them from its head, and each goes
through the checks, the pause and the two writes by itself, so that what is published about
different requests interleaves in any way.

A request has the number by which it came. Nothing in the program knows that number: it tells
apart what is published about requests of the same id.
-/

namespace DdsOrchestrator.DetResponder

open Dataspace (LLMInferenceRequest LLMInferenceResult LLMInferenceError)

inductive Outcome where
  | ok
  | error
  | rejectedFull
  deriving DecidableEq

/-- What the log says of a request, without the time at which it was written. -/
structure Report where
  seq : UInt64
  request : LLMInferenceRequest
  stage : String
  family : String
  hash : String
  n : ℕ
  arrivalNs : ℕ
  startedNs : ℕ
  delayMs : UInt64
  outcome : Outcome
  detail : Option String

structure Config where
  delayMs : UInt64
  capacity : ℕ
  queue : ℕ
  modelOnly : Option String
  fromStr : String → Option Json

def Config.blank (c : Config) (request : LLMInferenceRequest) (seq : UInt64)
    (arrivalNs startedNs : ℕ) : Report :=
  { seq, request, stage := "", family := "", hash := "", n := 0, arrivalNs, startedNs
    delayMs := c.delayMs, outcome := .error, detail := none }

/-- Where a request stands. -/
inductive Stage where
  | queued
  | starting
  | sleeping (r : Report) (p : Parsed)
  /-- The halves are made, and the first or the second one is to be written. -/
  | writing (r : Report) (p : Parsed) (emittedNs : UInt64) (first : Bool)
  | erring (code : Int) (message : String) (retriable : Bool) (r : Report)
  | counting (r : Report)
  /-- A refused request gets its number in the log last. -/
  | numbering (r : Report)
  | logging (r : Report)
  | settled (r : Report)

structure Job where
  request : LLMInferenceRequest
  arrivalNs : ℕ
  stage : Stage

inductive Publication where
  | result (r : LLMInferenceResult)
  | error (e : LLMInferenceError)

structure Responder where
  accepting : Bool
  /-- The loop is refusing a request. -/
  refusing : Bool
  idle : ℕ
  queue : List ℕ
  jobs : List Job
  seq : UInt64
  nOk : UInt64
  nErr : UInt64
  nRejected : UInt64
  published : List (ℕ × Publication)
  /-- The lines of the log, with the time. -/
  log : List (Report × ℕ)

/-- The clock of the system and the one of the process, and the failure of what is written. -/
structure Io where
  nowNs : UInt64
  elapsedNs : ℕ
  fault : Option String

inductive Event where
  | receive (request : LLMInferenceRequest) (arrivalNs : ℕ)
  /-- A worker takes the head of the queue. -/
  | take
  /-- The next step for a request. -/
  | work (i : ℕ) (io : Io)
  | stop

/-- One half of the answer. -/
def chunk (request : LLMInferenceRequest) (p : Parsed) (emittedNs : UInt64) (first : Bool) :
    LLMInferenceResult :=
  { requestId := request.requestId
    seqNum := if first then 0 else 1
    content := if first then firstHalf p.content else secondHalf p.content
    isFinal := !first
    finishReason := if first then 0 else 1
    modelUsed := request.modelName
    tokensPrompt := if first then 0 else 10
    tokensCompletion := if first then 0 else 5
    emittedAtNs := emittedNs }

def errorOf (request : LLMInferenceRequest) (code : Int) (message : String) (retriable : Bool)
    (nowNs : UInt64) : LLMInferenceError :=
  { requestId := request.requestId, errorCode := code, errorMessage := message
    provider := "det-responder", retriable, emittedAtNs := nowNs }

/-- The checks, in their order. What is wrong with the request is what the log says too. -/
def Config.admitted (c : Config) (request : LLMInferenceRequest) (r : Report) : Stage :=
  let refuse := fun message => .erring 400 message false { r with detail := some message }
  match parse c.fromStr request.messagesJson with
  | .error invalid => refuse invalid.message
  | .ok p =>
    match c.modelOnly with
    | some only =>
      if request.modelName ≠ only then
        refuse ("model '" ++ request.modelName ++ "' fora de --model '" ++ only ++ "'")
      else if request.modelName.isEmpty then refuse Invalid.emptyModel.message
      else .sleeping r p
    | none =>
      if request.modelName.isEmpty then refuse Invalid.emptyModel.message else .sleeping r p

def publicationsOf (i : ℕ) (published : List (ℕ × Publication)) : List Publication :=
  (published.filter fun p => p.1 = i).map Prod.snd

namespace Responder

def start (c : Config) : Responder :=
  { accepting := true, refusing := false, idle := c.capacity, queue := [], jobs := [], seq := 0
    nOk := 0, nErr := 0, nRejected := 0, published := [], log := [] }

def move (i : ℕ) (j : Job) (stage : Stage) (s : Responder) : Responder :=
  { s with jobs := s.jobs.set i { j with stage } }

def receive (c : Config) (request : LLMInferenceRequest) (arrivalNs : ℕ) (s : Responder) :
    Responder :=
  if s.queue.length < c.queue then
    { s with
      queue := s.queue ++ [s.jobs.length]
      jobs := s.jobs ++ [{ request, arrivalNs, stage := .queued }] }
  else
    let report : Report := { c.blank request 0 arrivalNs arrivalNs with
      outcome := .rejectedFull, detail := some "fila cheia" }
    { s with
      refusing := true
      jobs := s.jobs ++
        [{ request, arrivalNs, stage := .erring 429 "responder saturado" true report }] }

def take (s : Responder) : Responder :=
  match s.queue with
  | [] => s
  | i :: rest =>
    match s.jobs[i]?, s.idle with
    | some j, idle + 1 => { s with queue := rest, idle }.move i j .starting
    | _, _ => s

def publish (i : ℕ) (p : Publication) (s : Responder) : Responder :=
  { s with published := s.published ++ [(i, p)] }

def count (outcome : Outcome) (s : Responder) : Responder :=
  match outcome with
  | .ok => { s with nOk := s.nOk + 1 }
  | .error => { s with nErr := s.nErr + 1 }
  | .rejectedFull => { s with nRejected := s.nRejected + 1 }

/-- Whoever was busy with a request is free again. -/
def release (outcome : Outcome) (s : Responder) : Responder :=
  if outcome = .rejectedFull then { s with refusing := false } else { s with idle := s.idle + 1 }

/-- The next step for request `i`. -/
def advance (c : Config) (i : ℕ) (j : Job) (io : Io) (s : Responder) : Responder :=
  match j.stage with
  | .queued | .settled _ => s
  | .starting =>
    let report := c.blank j.request (s.seq + 1) j.arrivalNs io.elapsedNs
    { s with seq := s.seq + 1 }.move i j (c.admitted j.request report)
  | .sleeping r p => s.move i j (.writing r p io.nowNs true)
  | .writing r p emittedNs first =>
    let report := { r with
      stage := p.stage, family := p.family, hash := contentHash p.normalized
      n := p.messages.length }
    match io.fault with
    | some text =>
      let message := "falha ao publicar resultado: " ++ text
      s.move i j (.erring 500 message true
        { report with outcome := .error, detail := some message })
    | none =>
      (s.publish i (.result (chunk j.request p emittedNs first))).move i j
        (if first then .writing r p emittedNs false
        else .counting { report with outcome := .ok, detail := none })
  | .erring code message retriable r =>
    -- An error that cannot be published is passed over.
    match io.fault with
    | some _ => s.move i j (.counting r)
    | none =>
      (s.publish i (.error (errorOf j.request code message retriable io.nowNs))).move i j
        (.counting r)
  | .counting r =>
    (s.count r.outcome).move i j (if r.outcome = .rejectedFull then .numbering r else .logging r)
  | .numbering r =>
    { s with seq := s.seq + 1 }.move i j (.logging { r with seq := s.seq + 1 })
  | .logging r =>
    let s := match io.fault with
      | some _ => s
      | none => { s with log := s.log ++ [(r, io.elapsedNs)] }
    (s.release r.outcome).move i j (.settled r)

/-- Requests are only taken as long as the loop runs and is not busy with refusing one. -/
def step (c : Config) (s : Responder) : Event → Responder
  | .receive request arrivalNs =>
    if s.accepting && !s.refusing then s.receive c request arrivalNs else s
  | .take => s.take
  | .work i io =>
    match s.jobs[i]? with
    | some j => s.advance c i j io
    | none => s
  | .stop => if s.refusing then s else { s with accepting := false }

/-- What has been published about request `i`, in order. -/
def publications (i : ℕ) (s : Responder) : List Publication := publicationsOf i s.published

end Responder

end DdsOrchestrator.DetResponder
