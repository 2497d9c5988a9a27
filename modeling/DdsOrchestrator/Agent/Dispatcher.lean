import Mathlib.Data.Finset.Basic
import DdsOrchestrator.Lib.Machine
import DdsOrchestrator.Lib.Roster
import DdsOrchestrator.Agent.Claim
import DdsOrchestrator.Agent.Heartbeat

/-!
The dispatcher of an agent with the attempts it has started, over all tasks. An attempt comes
with a permit of the semaphore, takes a slot once its claim is confirmed, and gives both back
when it ends, the slot first. Its task is marked while it is at it, and the dispatcher passes
over tasks that are marked.

An attempt that panics gives back what it holds and does not take back the mark.
-/

namespace DdsOrchestrator.Agent

open Dataspace (Task)

/-- What an attempt holds of the capacity. A slot is never held without a permit. -/
inductive Share where
  | nothing
  | permit
  | slot
  deriving DecidableEq

namespace Share

def permits : Share → Nat
  | nothing => 0
  | permit | slot => 1

def slots : Share → Nat
  | nothing | permit => 0
  | slot => 1

/-- The guard releases the slot first, and then the permit in it. -/
def release : Share → Share
  | slot => permit
  | permit | nothing => nothing

theorem slots_le_permits : ∀ share : Share, share.slots ≤ share.permits
  | nothing => Nat.le_refl 0
  | permit => Nat.zero_le 1
  | slot => Nat.le_refl 1

end Share

/-- What an attempt does next. -/
inductive AttemptStage where
  | writing
  | confirming
  | acquiring
  | processing
  /-- It takes back the mark of the task. -/
  | leaving (share : Share)
  | freeing (share : Share)
  /-- It has panicked. -/
  | unwinding (share : Share)
  deriving DecidableEq

namespace AttemptStage

def share : AttemptStage → Share
  | writing | confirming | acquiring => .permit
  | processing => .slot
  | leaving share | freeing share | unwinding share => share

/-- The attempt is at the task, and the mark is its own. -/
def AtWork : AttemptStage → Prop
  | writing | confirming | acquiring | processing | leaving _ => True
  | freeing _ | unwinding _ => False

def Panicked : AttemptStage → Prop
  | unwinding _ => True
  | _ => False

/-- The task is marked on behalf of the attempt. -/
def Marked (stage : AttemptStage) : Prop := stage.AtWork ∨ stage.Panicked

end AttemptStage

structure Running where
  taskId : String
  stage : AttemptStage

namespace Running

def permits (a : Running) : Nat := a.stage.share.permits

def slots (a : Running) : Nat := a.stage.share.slots

def Marked (a : Running) : Prop := a.stage.Marked

end Running

/-- Where the dispatcher is with a task. -/
inductive Turn where
  | waiting
  | queued (taskId : String)
  | permitted (taskId : String)
  | fresh (task : Task)
  | cleared (taskId : String)

def Turn.permits : Turn → Nat
  | waiting | queued _ => 0
  | permitted _ | fresh _ | cleared _ => 1

structure Dispatcher where
  status : AgentStatus
  /-- The permits that are free. -/
  permits : Nat
  claimed : Finset String
  queue : List Task
  turn : Turn
  attempts : List Running

namespace Dispatcher

def queueCap (slots : UInt32) : Nat := max (slots.toNat * 4) 16

def start (status : AgentStatus) : Dispatcher :=
  { status, permits := status.slotsTotal.toNat, claimed := ∅, queue := [], turn := .waiting
    attempts := [] }

inductive Event where
  /-- A task that was eligible when it was looked at comes into the queue. -/
  | offer (task : Task)
  | receive
  | permit
  /-- The mesh is read, with nothing found where the read fails. -/
  | read (sample : Option Task)
  /-- `barrier` is the answer of the barrier. -/
  | check (nowNs laterNs : UInt64) (barrier : Bool)
  | spawn
  | write (n : Nat) (ok : Bool)
  | readback (n : Nat) (sample : Option Task) (late : Bool)
  | slot (n : Nat)
  /-- The processing ends, with its outcome if one is recorded. -/
  | finish (n : Nat) (completed : Option Bool)
  | unmark (n : Nat)
  | free (n : Nat)
  | panic (n : Nat)

/-- How a readback ends the confirmation, if it does. -/
def confirm (agentId : String) (sample : Option Task) (late : Bool) : Option Bool :=
  match sample with
  | some current =>
    if confirmOwnership current agentId then some true
    else if current.status ≠ 0 then some false
    else if late then some false
    else none
  | none => if late then some false else none

def move (n : Nat) (a : Running) (stage : AttemptStage) (d : Dispatcher) : Dispatcher :=
  { d with attempts := d.attempts.set n { a with stage } }

/-- The dispatcher gives back the permit and goes on to the next task. -/
def pass (d : Dispatcher) : Dispatcher := { d with turn := .waiting, permits := d.permits + 1 }

def record (completed : Option Bool) (d : Dispatcher) : Dispatcher :=
  match completed with
  | some true => { d with status := d.status.recordCompletion }
  | some false => { d with status := d.status.recordFailure }
  | none => d

/-- The part of a step that belongs to one attempt. -/
def act (agentId : String) (n : Nat) (a : Running) (d : Dispatcher) : Event → Dispatcher
  | .write _ ok =>
    match a.stage with
    | .writing => d.move n a (if ok then .confirming else .leaving .permit)
    | _ => d
  | .readback _ sample late =>
    match a.stage, confirm agentId sample late with
    | .confirming, some true => d.move n a .acquiring
    | .confirming, some false => d.move n a (.leaving .permit)
    | _, _ => d
  | .slot _ =>
    match a.stage with
    | .acquiring =>
      match d.status.acquireSlot with
      | some status => { d.move n a .processing with status }
      -- The permit goes with the guard that is not made, and the task is published as failed.
      | none => { d.move n a (.leaving .nothing) with permits := d.permits + 1 }
    | _ => d
  | .finish _ completed =>
    match a.stage with
    | .processing => (d.move n a (.leaving .slot)).record completed
    | _ => d
  | .unmark _ =>
    match a.stage with
    | .leaving share => { d.move n a (.freeing share) with claimed := d.claimed.erase a.taskId }
    | _ => d
  | .free _ =>
    match a.stage with
    | .freeing .slot => { d.move n a (.freeing .permit) with status := d.status.releaseSlot }
    | .unwinding .slot => { d.move n a (.unwinding .permit) with status := d.status.releaseSlot }
    | .freeing .permit => { d.move n a (.freeing .nothing) with permits := d.permits + 1 }
    | .unwinding .permit => { d.move n a (.unwinding .nothing) with permits := d.permits + 1 }
    | _ => d
  | .panic _ =>
    match a.stage with
    | .freeing _ | .unwinding _ => d
    | stage => d.move n a (.unwinding stage.share)
  | _ => d

def ofAttempt (agentId : String) (n : Nat) (d : Dispatcher) (e : Event) : Dispatcher :=
  match d.attempts[n]? with
  | some a => d.act agentId n a e
  | none => d

def step (config : ClaimConfig) (d : Dispatcher) : Event → Dispatcher
  | .offer task =>
    if d.queue.length < queueCap d.status.slotsTotal then { d with queue := d.queue ++ [task] }
    else d
  | .receive =>
    match d.turn, d.queue with
    | .waiting, task :: rest => { d with turn := .queued task.taskId, queue := rest }
    | _, _ => d
  | .permit =>
    match d.turn, d.permits with
    | .queued taskId, permits + 1 => { d with turn := .permitted taskId, permits }
    | _, _ => d
  | .read sample =>
    match d.turn with
    | .permitted taskId =>
      match sample with
      | some task => if task.taskId = taskId then { d with turn := .fresh task } else d
      | none => d.pass
    | _ => d
  | .check nowNs laterNs barrier =>
    match d.turn with
    | .fresh task =>
      if isEligibleWith nowNs task config (fun id => decide (id ∈ d.claimed)) && barrier &&
          !(0 < task.deadlineNs && task.deadlineNs ≤ laterNs) then
        { d with turn := .cleared task.taskId }
      else d.pass
    | _ => d
  | .spawn =>
    match d.turn with
    | .cleared taskId =>
      { d with
        turn := .waiting, claimed := insert taskId d.claimed
        attempts := d.attempts ++ [{ taskId, stage := .writing }] }
    | _ => d
  | .write n ok => d.ofAttempt config.agentId n (.write n ok)
  | .readback n sample late => d.ofAttempt config.agentId n (.readback n sample late)
  | .slot n => d.ofAttempt config.agentId n (.slot n)
  | .finish n completed => d.ofAttempt config.agentId n (.finish n completed)
  | .unmark n => d.ofAttempt config.agentId n (.unmark n)
  | .free n => d.ofAttempt config.agentId n (.free n)
  | .panic n => d.ofAttempt config.agentId n (.panic n)

end Dispatcher

end DdsOrchestrator.Agent
