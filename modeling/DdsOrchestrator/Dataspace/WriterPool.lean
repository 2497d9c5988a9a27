import Mathlib.Logic.Function.Basic
import Mathlib.Tactic.SplitIfs
import DdsOrchestrator.Dataspace.Samples
import DdsOrchestrator.Dataspace.TopicSamples

/-!
The pool of writers. Requests wait in one bounded queue, and workers take them from its head
and write them side by side, so that they need not be written in the order in which they were
submitted. Only a request that asks for it is told how its write went.
-/

namespace DdsOrchestrator.Dataspace

def DataSpaceError.text : DataSpaceError → String
  | dds text => "DDS error: " ++ text
  | timeout text => "timeout: " ++ text
  | notFound text => "entity not found: " ++ text
  | writeFailed text => "write failed: " ++ text

/-- An output goes with its position in the stream it is from. Tasks, agents and the outputs
of other streams are told apart no further. -/
inductive WriteRequest where
  | output (position : Nat) (o : TaskOutput)
  | outputAck (position : Nat) (o : TaskOutput)
  | other
  deriving DecidableEq

namespace WriteRequest

def position? : WriteRequest → Option Nat
  | output i _ | outputAck i _ => some i
  | other => none

end WriteRequest

inductive Worker where
  | idle
  | writing (r : WriteRequest)
  /-- The write is over and its result has still to be sent. -/
  | acking (position : Nat) (result : Except DataSpaceError Unit)
  | crashed

/-- A channel for one result. -/
inductive OneShot where
  | waiting
  | closed
  | sent (result : Except DataSpaceError Unit)

structure WriterPool where
  capacity : Nat
  queue : List WriteRequest
  workers : Nat → Worker
  acks : Nat → OneShot
  submitted : UInt64
  completed : UInt64
  failed : UInt64

namespace WriterPool

def new (capacity : Nat) : WriterPool :=
  { capacity, queue := [], workers := fun _ => .idle, acks := fun _ => .waiting
    submitted := 0, completed := 0, failed := 0 }

/-- Refused where the queue is full, or where the workers are gone. -/
def submit (connected : Bool) (r : WriteRequest) (p : WriterPool) :
    Except DataSpaceError Unit × WriterPool :=
  let p := { p with submitted := p.submitted + 1 }
  if connected then
    if p.queue.length < p.capacity then (.ok (), { p with queue := p.queue ++ [r] })
    else (.error (.writeFailed "backpressure: fila de escrita cheia"),
      { p with failed := p.failed + 1 })
  else (.error (.writeFailed "writer pool encerrado"), { p with failed := p.failed + 1 })

def setWorker (k : Nat) (w : Worker) (p : WriterPool) : WriterPool :=
  { p with workers := Function.update p.workers k w }

/-- An idle worker takes the head of the queue. -/
def take (k : Nat) (p : WriterPool) : WriterPool :=
  match p.workers k, p.queue with
  | .idle, r :: rest => { p.setWorker k (.writing r) with queue := rest }
  | _, _ => p

def count (result : Except DataSpaceError Unit) (p : WriterPool) : WriterPool :=
  match result with
  | .ok _ => { p with completed := p.completed + 1 }
  | .error _ => { p with failed := p.failed + 1 }

/-- The write of a worker ends, and a result that nobody waits for is only counted. -/
def write (k : Nat) (result : Except DataSpaceError Unit) (p : WriterPool) : WriterPool :=
  match p.workers k with
  | .writing (.outputAck i _) => p.setWorker k (.acking i result)
  | .writing _ => (p.count result).setWorker k .idle
  | _ => p

def ack (k : Nat) (p : WriterPool) : WriterPool :=
  match p.workers k with
  | .acking i result =>
    { (p.count result).setWorker k .idle with acks := Function.update p.acks i (.sent result) }
  | _ => p

/-- A worker panics, and with its request goes the end of the channel it holds. -/
def crash (k : Nat) (p : WriterPool) : WriterPool :=
  match p.workers k with
  | .writing (.outputAck i _) =>
    { p.setWorker k .crashed with acks := Function.update p.acks i .closed }
  | .acking i _ => { p.setWorker k .crashed with acks := Function.update p.acks i .closed }
  | _ => p.setWorker k .crashed

/-- The output a worker has in its hands. -/
def inHand (k : Nat) (p : WriterPool) : Option Nat :=
  match p.workers k with
  | .writing r => r.position?
  | _ => none

/-- A success that is told, or about to be told, is that of a write that is among `written`. -/
structure Honest (written : Nat → Prop) (p : WriterPool) : Prop where
  sent : ∀ i, p.acks i = .sent (.ok ()) → written i
  acking : ∀ k i, p.workers k = .acking i (.ok ()) → written i

variable {written : Nat → Prop} {p : WriterPool}

theorem Honest.mono (h : p.Honest written) {written' : Nat → Prop}
    (hmore : ∀ i, written i → written' i) : p.Honest written' where
  sent := fun i hi => hmore i (h.sent i hi)
  acking := fun k i hk => hmore i (h.acking k i hk)

theorem honest_new (capacity : Nat) : (new capacity).Honest written where
  sent := nofun
  acking := nofun

/-- A worker goes on to something that tells no success. -/
theorem Honest.setWorker (h : p.Honest written) (k : Nat) {w : Worker}
    (hw : ∀ i, w = .acking i (.ok ()) → written i) : (p.setWorker k w).Honest written where
  sent := h.sent
  acking := by
    intro k' i hk
    by_cases hkk : k' = k
    · subst hkk
      exact hw i (by simpa [WriterPool.setWorker] using hk)
    · exact h.acking k' i (by simpa [WriterPool.setWorker, hkk] using hk)

theorem Honest.submit (h : p.Honest written) (connected : Bool) (r : WriteRequest) :
    (p.submit connected r).2.Honest written := by
  unfold WriterPool.submit
  dsimp only
  split_ifs <;> exact ⟨h.sent, h.acking⟩

theorem Honest.take (h : p.Honest written) (k : Nat) : (p.take k).Honest written := by
  unfold WriterPool.take
  split
  next r rest _ _ =>
    have hset := h.setWorker k (w := .writing r) (by simp)
    exact ⟨hset.sent, hset.acking⟩
  · exact h

theorem Honest.count (h : p.Honest written) (result : Except DataSpaceError Unit) :
    (p.count result).Honest written := by
  cases result <;> exact ⟨h.sent, h.acking⟩

theorem Honest.write (h : p.Honest written) (k : Nat) (result : Except DataSpaceError Unit)
    (hdone : ∀ i, p.inHand k = some i → result = .ok () → written i) :
    (p.write k result).Honest written := by
  unfold WriterPool.write
  split
  next i o hk =>
    refine h.setWorker k fun j hj => ?_
    obtain ⟨rfl, rfl⟩ : i = j ∧ result = .ok () := by simpa using hj
    exact hdone i (by simp [inHand, hk, WriteRequest.position?]) rfl
  next r _ hk => exact (h.count result).setWorker k (by simp)
  next => exact h

theorem Honest.ack (h : p.Honest written) (k : Nat) : (p.ack k).Honest written := by
  unfold WriterPool.ack
  split
  next i result hk =>
    have hset := (h.count result).setWorker k (w := .idle) (by simp)
    refine ⟨fun j hj => ?_, hset.acking⟩
    by_cases hji : j = i
    · subst hji
      have hok : result = .ok () := by simpa using hj
      exact h.acking k j (by rw [hk, hok])
    · exact h.sent j (by simpa [hji] using hj)
  next => exact h

theorem Honest.crash (h : p.Honest written) (k : Nat) : (p.crash k).Honest written := by
  have hclosed : ∀ i, ({ p.setWorker k .crashed with
      acks := Function.update p.acks i .closed } : WriterPool).Honest written := by
    intro i
    refine ⟨fun j hj => ?_, (h.setWorker k (w := .crashed) (by simp)).acking⟩
    by_cases hji : j = i
    · simp [hji] at hj
    · exact h.sent j (by simpa [hji] using hj)
  unfold WriterPool.crash
  split
  · exact hclosed _
  · exact hclosed _
  · exact h.setWorker k (by simp)

end WriterPool

end DdsOrchestrator.Dataspace
