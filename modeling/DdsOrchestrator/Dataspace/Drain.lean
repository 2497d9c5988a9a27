import Mathlib.Algebra.BigOperators.Group.Finset.Piecewise
import DdsOrchestrator.Lib.Machine
import DdsOrchestrator.Lib.Roster
import DdsOrchestrator.Dataspace.WriterPool

/-!
The pool of writers from its start to its end. Every request is refused, written with its
result, or lost with a worker that has panicked, and the counters say how many of each there
have been. Shutting the pool down closes the queue and waits for workers that have only so much
left to do; when they are through, each caller that was promised a result has been told once.
-/

namespace DdsOrchestrator.Dataspace

open Machine Roster Finset

namespace WriteRequest

/-- The position of which the result is to be sent. -/
def ack? : WriteRequest → Option Nat
  | outputAck i _ => some i
  | output _ _ | other => none

/-- How many results of the position the request asks for. -/
def asks (i : Nat) (r : WriteRequest) : Nat := r.ack?.toList.count i

end WriteRequest

namespace Worker

def ack? : Worker → Option Nat
  | writing r => r.ack?
  | acking i _ => some i
  | idle | crashed => none

def asks (i : Nat) (x : Worker) : Nat := x.ack?.toList.count i

/-- The requests a worker has in its hands. -/
def busy : Worker → Nat
  | writing _ | acking _ _ => 1
  | idle | crashed => 0

/-- The steps it has still to take with them. -/
def toDo : Worker → Nat
  | writing _ => 2
  | acking _ _ => 1
  | idle | crashed => 0

def isCrashed : Worker → Bool
  | crashed => true
  | idle | writing _ | acking _ _ => false

end Worker

structure WriterPoolRun where
  pool : WriterPool
  nWorkers : Nat
  /-- The sender is gone, and nothing can be submitted any more. -/
  closed : Bool
  /-- How many requests have been lost with their workers. -/
  lost : Nat

namespace WriterPoolRun

def new (nWorkers capacity : Nat) : WriterPoolRun :=
  { pool := .new capacity, nWorkers, closed := false, lost := 0 }

inductive Event where
  | submit (r : WriteRequest)
  | take (k : Nat)
  | write (k : Nat) (result : Except DataSpaceError Unit)
  | ack (k : Nat)
  | crash (k : Nat)
  /-- `drain_and_shutdown` drops the sender. -/
  | close

/-- Some worker still listens. -/
def connected (s : WriterPoolRun) : Bool :=
  (List.range s.nWorkers).any fun k => !(s.pool.workers k).isCrashed

def acksOf (queue : List WriteRequest) : List Nat := queue.filterMap WriteRequest.ack?

/-- The channel throws away what is queued when the last worker is gone. -/
def discard (s : WriterPoolRun) : WriterPoolRun :=
  { s with
    pool := { s.pool with
      queue := []
      acks := fun i => if i ∈ acksOf s.pool.queue then .closed else s.pool.acks i }
    lost := s.lost + s.pool.queue.length }

/-- The worker is gone, and with it the request it had in its hands. -/
def without (k : Nat) (s : WriterPoolRun) : WriterPoolRun :=
  { s with pool := s.pool.crash k, lost := s.lost + (s.pool.workers k).busy }

def crash (k : Nat) (s : WriterPoolRun) : WriterPoolRun :=
  if (s.without k).connected then s.without k else (s.without k).discard

def step (s : WriterPoolRun) : Event → WriterPoolRun
  | .submit r => if s.closed then s else { s with pool := (s.pool.submit s.connected r).2 }
  | .take k => if k < s.nWorkers then { s with pool := s.pool.take k } else s
  | .write k result => if k < s.nWorkers then { s with pool := s.pool.write k result } else s
  | .ack k => if k < s.nWorkers then { s with pool := s.pool.ack k } else s
  | .crash k => if k < s.nWorkers then s.crash k else s
  | .close => { s with closed := true }

/-- The position of which the submission promises the result. -/
def promised (s : WriterPoolRun) : Event → List Nat
  | .submit r =>
    match s.closed, (s.pool.submit s.connected r).1 with
    | false, .ok _ => r.ack?.toList
    | _, _ => []
  | _ => []

/-- The positions of which the step sends the result, or drops the channel for it. -/
def answered (s : WriterPoolRun) : Event → List Nat
  | .ack k =>
    match decide (k < s.nWorkers), s.pool.workers k with
    | true, .acking i _ => [i]
    | _, _ => []
  | .crash k =>
    if k < s.nWorkers then
      (s.pool.workers k).ack?.toList ++
        if (s.without k).connected then [] else acksOf s.pool.queue
    else []
  | _ => []

/-- The step brings a request nearer to its end. -/
def advances (s : WriterPoolRun) : Event → Bool
  | .take k =>
    match decide (k < s.nWorkers), s.pool.workers k, s.pool.queue with
    | true, .idle, _ :: _ => true
    | _, _, _ => false
  | .write k _ =>
    match decide (k < s.nWorkers), s.pool.workers k with
    | true, .writing _ => true
    | _, _ => false
  | .ack k =>
    match decide (k < s.nWorkers), s.pool.workers k with
    | true, .acking _ _ => true
    | _, _ => false
  | _ => false

/-- Nothing is queued, and no worker has anything in its hands. -/
def Drained (s : WriterPoolRun) : Prop :=
  s.pool.queue = [] ∧ ∀ k < s.nWorkers, (s.pool.workers k).busy = 0

/-! ### What a step can do -/

/-- What a step does to the pool, with what it promises and answers and whether it brings a
request nearer to its end. -/
inductive Change (s : WriterPoolRun) : WriterPoolRun → List Nat → List Nat → Bool → Prop where
  | stay (closed : Bool) (h : s.closed = true → closed = true) :
      Change s { s with closed } [] [] false
  | refuse (h : s.closed = false) :
      Change s { s with pool := { s.pool with
        submitted := s.pool.submitted + 1, failed := s.pool.failed + 1 } } [] [] false
  | accept (r : WriteRequest) (h : s.closed = false) (hc : s.connected = true) :
      Change s { s with pool := { s.pool with
        submitted := s.pool.submitted + 1, queue := s.pool.queue ++ [r] } } r.ack?.toList [] false
  | take (k : Nat) (r : WriteRequest) (rest : List WriteRequest) (hk : k < s.nWorkers)
      (hidle : s.pool.workers k = .idle) (hq : s.pool.queue = r :: rest) :
      Change s { s with pool := { s.pool.setWorker k (.writing r) with queue := rest } } [] [] true
  | write (k : Nat) (r : WriteRequest) (result : Except DataSpaceError Unit) (hk : k < s.nWorkers)
      (hw : s.pool.workers k = .writing r) (hr : r.ack? = none) :
      Change s { s with pool := (s.pool.count result).setWorker k .idle } [] [] true
  | writeAck (k i : Nat) (o : TaskOutput) (result : Except DataSpaceError Unit)
      (hk : k < s.nWorkers) (hw : s.pool.workers k = .writing (.outputAck i o)) :
      Change s { s with pool := s.pool.setWorker k (.acking i result) } [] [] true
  | ack (k i : Nat) (result : Except DataSpaceError Unit) (hk : k < s.nWorkers)
      (hw : s.pool.workers k = .acking i result) :
      Change s { s with pool := { (s.pool.count result).setWorker k .idle with
        acks := Function.update s.pool.acks i (.sent result) } } [] [i] true
  | crash (k : Nat) (hk : k < s.nWorkers) :
      Change s (s.crash k) []
        ((s.pool.workers k).ack?.toList ++
          if (s.without k).connected then [] else acksOf s.pool.queue) false

theorem change_self (s : WriterPoolRun) : Change s s [] [] false := .stay s.closed id

theorem change_step (s : WriterPoolRun) (e : Event) :
    Change s (step s e) (s.promised e) (s.answered e) (s.advances e) := by
  cases e with
  | submit r =>
      cases hclosed : s.closed with
      | true =>
          simp only [step, promised, answered, advances, hclosed, if_true]
          exact change_self s
      | false =>
          simp only [step, promised, answered, advances, hclosed, WriterPool.submit]
          cases hc : s.connected with
          | false => simpa [hclosed] using Change.refuse hclosed
          | true =>
              by_cases hroom : s.pool.queue.length < s.pool.capacity
              · simpa [hroom, hclosed] using Change.accept r hclosed hc
              · simpa [hroom, hclosed] using Change.refuse hclosed
  | take k =>
      by_cases hk : k < s.nWorkers
      · simp only [step, promised, answered, advances, hk, if_true, decide_true, WriterPool.take]
        cases hw : s.pool.workers k with
        | idle =>
            cases hq : s.pool.queue with
            | nil => exact change_self s
            | cons r rest => exact .take k r rest hk hw hq
        | writing r => exact change_self s
        | acking i result => exact change_self s
        | crashed => exact change_self s
      · simp only [step, promised, answered, advances, hk, if_false, decide_false]
        exact change_self s
  | write k result =>
      by_cases hk : k < s.nWorkers
      · simp only [step, promised, answered, advances, hk, if_true, decide_true, WriterPool.write]
        cases hw : s.pool.workers k with
        | writing r =>
            cases r with
            | outputAck i o => exact .writeAck k i o result hk hw
            | output i o => exact .write k _ result hk hw rfl
            | other => exact .write k _ result hk hw rfl
        | idle => exact change_self s
        | acking i result' => exact change_self s
        | crashed => exact change_self s
      · simp only [step, promised, answered, advances, hk, if_false, decide_false]
        exact change_self s
  | ack k =>
      by_cases hk : k < s.nWorkers
      · simp only [step, promised, answered, advances, hk, if_true, decide_true, WriterPool.ack]
        cases hw : s.pool.workers k with
        | acking i result => exact .ack k i result hk hw
        | idle => exact change_self s
        | writing r => exact change_self s
        | crashed => exact change_self s
      · simp only [step, promised, answered, advances, hk, if_false, decide_false]
        exact change_self s
  | crash k =>
      by_cases hk : k < s.nWorkers
      · simp only [step, promised, answered, advances, hk, if_true]
        exact .crash k hk
      · simp only [step, promised, answered, advances, hk, if_false]
        exact change_self s
  | close => exact .stay true fun _ => rfl

/-! ### What the requests weigh -/

/-- What the requests weigh together, each by where it is. -/
def weigh (v : WriteRequest → Nat) (w : Worker → Nat) (s : WriterPoolRun) : Nat :=
  total v s.pool.queue + ∑ k ∈ range s.nWorkers, w (s.pool.workers k)

variable {s s' : WriterPoolRun} {k : Nat} {v : WriteRequest → Nat} {w : Worker → Nat}
variable {ps as : List Nat} {advance : Bool}

theorem sum_update (f : Nat → Worker) {n : Nat} (hk : k < n) (x : Worker) :
    ∑ i ∈ range n, w (Function.update f k x i) + w (f k) = ∑ i ∈ range n, w (f i) + w x := by
  have hmem : k ∈ range n := mem_range.mpr hk
  have hcomp : (fun i => w (Function.update f k x i)) =
      Function.update (fun i => w (f i)) k (w x) :=
        funext fun i => Function.apply_update (fun _ => w) f k x i
  rw [hcomp, sum_update_of_mem hmem, ← sum_sdiff (singleton_subset_iff.mpr hmem), sum_singleton]
  omega

/-- A worker goes on to something else, and the queue may have got shorter. -/
theorem weigh_setWorker (hk : k < s.nWorkers) (x : Worker) {p : WriterPool}
    (hworkers : p.workers = Function.update s.pool.workers k x) :
    weigh v w { s with pool := p } + w (s.pool.workers k) + total v s.pool.queue =
      weigh v w s + w x + total v p.queue := by
  have hsum := sum_update (w := w) s.pool.workers hk x
  simp only [weigh, hworkers]
  omega

theorem weigh_accept (r : WriteRequest) (submitted : UInt64) :
    weigh v w { s with pool := { s.pool with submitted, queue := s.pool.queue ++ [r] } } =
      weigh v w s + v r := by
  simp only [weigh, total_concat]
  omega

theorem weigh_take (hk : k < s.nWorkers) {r : WriteRequest} {rest : List WriteRequest}
    (hq : s.pool.queue = r :: rest) :
    weigh v w { s with pool := { s.pool.setWorker k (.writing r) with queue := rest } } +
      w (s.pool.workers k) + v r = weigh v w s + w (.writing r) := by
  have hset := weigh_setWorker (v := v) (w := w) hk (.writing r)
    (p := { s.pool.setWorker k (.writing r) with queue := rest }) rfl
  rw [hq, total_cons] at hset
  dsimp only at hset ⊢
  omega

/-- A worker goes on, and the queue is as it was. -/
theorem weigh_work (hk : k < s.nWorkers) (x : Worker) {p : WriterPool}
    (hworkers : p.workers = Function.update s.pool.workers k x) (hqueue : p.queue = s.pool.queue) :
    weigh v w { s with pool := p } + w (s.pool.workers k) = weigh v w s + w x := by
  have hset := weigh_setWorker (v := v) (w := w) hk x hworkers
  rw [hqueue] at hset
  omega

theorem workers_count (result : Except DataSpaceError Unit) (p : WriterPool) :
    (p.count result).workers = p.workers := by
  cases result <;> rfl

theorem queue_count (result : Except DataSpaceError Unit) (p : WriterPool) :
    (p.count result).queue = p.queue := by
  cases result <;> rfl

theorem weigh_write (hk : k < s.nWorkers) (result : Except DataSpaceError Unit) :
    weigh v w { s with pool := (s.pool.count result).setWorker k .idle } +
      w (s.pool.workers k) = weigh v w s + w .idle :=
  weigh_work hk .idle (by rw [WriterPool.setWorker, workers_count]) (queue_count result s.pool)

theorem weigh_writeAck (hk : k < s.nWorkers) (i : Nat) (result : Except DataSpaceError Unit) :
    weigh v w { s with pool := s.pool.setWorker k (.acking i result) } +
      w (s.pool.workers k) = weigh v w s + w (.acking i result) :=
  weigh_work hk (.acking i result) rfl rfl

theorem weigh_ack (hk : k < s.nWorkers) (result : Except DataSpaceError Unit)
    (acks : Nat → OneShot) :
    weigh v w { s with pool := { (s.pool.count result).setWorker k .idle with acks } } +
      w (s.pool.workers k) = weigh v w s + w .idle :=
  weigh_work hk .idle (by rw [WriterPool.setWorker, workers_count]) (queue_count result s.pool)

theorem workers_crash (k : Nat) (p : WriterPool) :
    (p.crash k).workers = Function.update p.workers k .crashed := by
  unfold WriterPool.crash
  split <;> rfl

theorem queue_crash (k : Nat) (p : WriterPool) : (p.crash k).queue = p.queue := by
  unfold WriterPool.crash
  split <;> rfl

theorem counters_crash (k : Nat) (p : WriterPool) : (p.crash k).submitted = p.submitted ∧
    (p.crash k).completed = p.completed ∧ (p.crash k).failed = p.failed := by
  unfold WriterPool.crash
  split <;> exact ⟨rfl, rfl, rfl⟩

theorem weigh_without (hk : k < s.nWorkers) :
    weigh v w (s.without k) + w (s.pool.workers k) = weigh v w s + w .crashed := by
  have hset := weigh_setWorker (v := v) (w := w) hk .crashed (workers_crash k s.pool)
  rw [queue_crash] at hset
  have hsame : weigh v w (s.without k) = weigh v w { s with pool := s.pool.crash k } := rfl
  omega

theorem weigh_discard : weigh v w s.discard + total v s.pool.queue = weigh v w s := by
  simp only [weigh, discard, total_nil]
  omega

/-! ### The accounts -/

/-- Every submission has been refused, written, lost, or is still on its way. -/
def Balanced (s : WriterPoolRun) : Prop :=
  s.pool.submitted = s.pool.completed + s.pool.failed +
    UInt64.ofNat (weigh (fun _ => 1) Worker.busy s + s.lost)

theorem balanced_new (nWorkers capacity : Nat) : (new nWorkers capacity).Balanced := by
  simp [Balanced, new, WriterPool.new, weigh, Worker.busy]

theorem counters_count (result : Except DataSpaceError Unit) (p : WriterPool) :
    (p.count result).submitted = p.submitted ∧
      (p.count result).completed + (p.count result).failed = p.completed + p.failed + 1 := by
  cases result with
  | ok a => exact ⟨rfl, by simp only [WriterPool.count]; grind⟩
  | error e => exact ⟨rfl, by simp only [WriterPool.count]; grind⟩

theorem total_one (l : List WriteRequest) : total (fun _ => 1) l = l.length := by
  induction l with
  | nil => rfl
  | cons r l ih =>
      rw [total_cons, ih, List.length_cons, Nat.add_comm]

theorem Balanced.of_eq (h : s.Balanced)
    (hcounters : s'.pool.submitted = s.pool.submitted ∧
      s'.pool.completed + s'.pool.failed = s.pool.completed + s.pool.failed)
    (hweigh : weigh (fun _ => 1) Worker.busy s' + s'.lost =
      weigh (fun _ => 1) Worker.busy s + s.lost) : s'.Balanced := by
  rw [Balanced, hcounters.1, hcounters.2, hweigh]
  exact h

/-- A write is over and has been counted. -/
theorem Balanced.of_done (h : s.Balanced)
    (hcounters : s'.pool.submitted = s.pool.submitted ∧
      s'.pool.completed + s'.pool.failed = s.pool.completed + s.pool.failed + 1)
    (hweigh : weigh (fun _ => 1) Worker.busy s' + s'.lost + 1 =
      weigh (fun _ => 1) Worker.busy s + s.lost) : s'.Balanced := by
  rw [Balanced, ← hweigh, UInt64.ofNat_add] at h
  rw [Balanced, hcounters.1, hcounters.2, h]
  have hone : UInt64.ofNat 1 = 1 := rfl
  rw [hone]
  grind

theorem Change.balanced (hchange : Change s s' ps as advance) (h : s.Balanced) :
    s'.Balanced := by
  cases hchange with
  | stay closed _ => exact h
  | refuse _ =>
      rw [Balanced] at h ⊢
      simp only [weigh] at h ⊢
      rw [h]
      grind
  | accept r _ _ =>
      rw [Balanced] at h ⊢
      rw [weigh_accept, Nat.add_right_comm, UInt64.ofNat_add]
      have hone : UInt64.ofNat 1 = 1 := rfl
      dsimp only
      rw [h, hone]
      grind
  | take k r rest hk hidle hq =>
      have hset := weigh_take (v := fun _ => 1) (w := Worker.busy) hk hq
      rw [hidle] at hset
      simp only [Worker.busy] at hset
      exact h.of_eq ⟨rfl, rfl⟩ (by dsimp only; omega)
  | write k r result hk hw _ =>
      have hset := weigh_write (v := fun _ => 1) (w := Worker.busy) hk result
      rw [hw] at hset
      simp only [Worker.busy] at hset
      exact h.of_done (counters_count result s.pool) (by dsimp only; omega)
  | writeAck k i o result hk hw =>
      have hset := weigh_writeAck (v := fun _ => 1) (w := Worker.busy) hk i result
      rw [hw] at hset
      simp only [Worker.busy] at hset
      exact h.of_eq ⟨rfl, rfl⟩ (by dsimp only; omega)
  | ack k i result hk hw =>
      have hset := weigh_ack (v := fun _ => 1) (w := Worker.busy) hk result
        (Function.update s.pool.acks i (.sent result))
      rw [hw] at hset
      simp only [Worker.busy] at hset
      exact h.of_done (counters_count result s.pool) (by dsimp only; omega)
  | crash k hk =>
      obtain ⟨hsubmitted, hcompleted, hfailed⟩ := counters_crash k s.pool
      have hwithout := weigh_without (v := fun _ => 1) (w := Worker.busy) hk
      have hlost : (s.without k).lost = s.lost + (s.pool.workers k).busy := rfl
      have hnone : Worker.busy .crashed = 0 := rfl
      have hgone : (s.without k).Balanced := by
        refine h.of_eq ⟨hsubmitted, ?_⟩ (by omega)
        rw [without, hcompleted, hfailed]
      rw [WriterPoolRun.crash]
      split
      · exact hgone
      · have hdiscard := weigh_discard (s := s.without k) (v := fun _ => 1) (w := Worker.busy)
        rw [total_one] at hdiscard
        have hlost' : (s.without k).discard.lost =
          (s.without k).lost + (s.without k).pool.queue.length := rfl
        exact hgone.of_eq ⟨rfl, rfl⟩ (by omega)

/-! ### The results that are asked for -/

theorem asks_writing (i : Nat) (r : WriteRequest) :
    Worker.asks i (.writing r) = WriteRequest.asks i r := rfl

theorem asks_acking (i j : Nat) (result : Except DataSpaceError Unit) :
    Worker.asks i (.acking j result) = [j].count i := rfl

@[simp] theorem asks_idle (i : Nat) : Worker.asks i .idle = 0 := rfl

@[simp] theorem asks_crashed (i : Nat) : Worker.asks i .crashed = 0 := rfl

/-- How many results of the position are still to be sent. -/
def asked (i : Nat) (s : WriterPoolRun) : Nat :=
  weigh (WriteRequest.asks i) (Worker.asks i) s

/-- Each promise has been answered or is still to be answered, and an answer has reached the
channel. -/
structure Answered (s : WriterPoolRun) (ps as : List Nat) : Prop where
  count : ∀ i, ps.count i = as.count i + s.asked i
  told : ∀ i ∈ as, s.pool.acks i ≠ .waiting

theorem answered_new (nWorkers capacity : Nat) : (new nWorkers capacity).Answered [] [] where
  count := fun i => by simp [asked, weigh, new, WriterPool.new]
  told := fun i hi => by cases hi

theorem count_acksOf (i : Nat) (queue : List WriteRequest) :
    (acksOf queue).count i = total (WriteRequest.asks i) queue := by
  induction queue with
  | nil => rfl
  | cons r queue ih =>
      rw [total_cons, ← ih, acksOf, List.filterMap_cons, WriteRequest.asks]
      cases hr : r.ack? with
      | none => simp [acksOf]
      | some j =>
          rw [List.count_cons, Nat.add_comm]
          simp [acksOf, List.count_cons]

theorem acks_crash (k i : Nat) (p : WriterPool) (h : p.acks i ≠ .waiting) :
    (p.crash k).acks i ≠ .waiting := by
  have hupdate : ∀ j, Function.update p.acks j .closed i ≠ .waiting := by
    intro j
    rw [Function.update_apply]
    split
    · intro hclosed
      cases hclosed
    · exact h
  unfold WriterPool.crash
  split
  · exact hupdate _
  · exact hupdate _
  · exact h

theorem acks_crash_of_holds {k i : Nat} {p : WriterPool} (h : i ∈ (p.workers k).ack?.toList) :
    (p.crash k).acks i ≠ .waiting := by
  cases hw : p.workers k with
  | idle => simp [hw, Worker.ack?] at h
  | crashed => simp [hw, Worker.ack?] at h
  | acking j result =>
      obtain rfl : j = i := by simpa [hw, Worker.ack?, eq_comm] using h
      simp [WriterPool.crash, hw]
  | writing r =>
      cases r with
      | output j o => simp [hw, Worker.ack?, WriteRequest.ack?] at h
      | other => simp [hw, Worker.ack?, WriteRequest.ack?] at h
      | outputAck j o =>
          obtain rfl : j = i := by simpa [hw, Worker.ack?, WriteRequest.ack?, eq_comm] using h
          simp [WriterPool.crash, hw]

theorem acks_discard {i : Nat} (h : s.pool.acks i ≠ .waiting ∨ i ∈ acksOf s.pool.queue) :
    s.discard.pool.acks i ≠ .waiting := by
  dsimp only [discard]
  split
  · intro hclosed
    cases hclosed
  · next hnot => exact h.resolve_right hnot

theorem Change.answered (hchange : Change s s' ps as advance) {ps₀ as₀ : List Nat}
    (h : s.Answered ps₀ as₀) : s'.Answered (ps₀ ++ ps) (as₀ ++ as) := by
  have hcount := h.count
  simp only [asked] at hcount
  cases hchange with
  | stay closed _ =>
      rw [List.append_nil, List.append_nil]
      exact ⟨h.count, h.told⟩
  | refuse _ =>
      rw [List.append_nil, List.append_nil]
      exact ⟨h.count, h.told⟩
  | accept r _ _ =>
      rw [List.append_nil]
      refine ⟨fun i => ?_, h.told⟩
      rw [List.count_append, hcount i, asked, weigh_accept]
      exact Nat.add_assoc _ _ _
  | take k r rest hk hidle hq =>
      rw [List.append_nil, List.append_nil]
      refine ⟨fun i => ?_, h.told⟩
      have hset := weigh_take (v := WriteRequest.asks i) (w := Worker.asks i) hk hq
      rw [hidle, asks_idle, asks_writing] at hset
      rw [hcount i, asked]
      omega
  | write k r result hk hw hr =>
      rw [List.append_nil, List.append_nil]
      have hacks : ((s.pool.count result).setWorker k .idle).acks = s.pool.acks := by
        cases result <;> rfl
      refine ⟨fun i => ?_, by simpa [hacks] using h.told⟩
      have hset := weigh_write (v := WriteRequest.asks i) (w := Worker.asks i) hk result
      have hnone : WriteRequest.asks i r = 0 := by simp [WriteRequest.asks, hr]
      rw [hw, asks_idle, asks_writing, hnone] at hset
      rw [hcount i, asked]
      omega
  | writeAck k i o result hk hw =>
      rw [List.append_nil, List.append_nil]
      refine ⟨fun j => ?_, h.told⟩
      have hset := weigh_writeAck (v := WriteRequest.asks j) (w := Worker.asks j) hk i result
      have hsame : WriteRequest.asks j (.outputAck i o) = [i].count j := rfl
      rw [hw, asks_writing, asks_acking, hsame] at hset
      rw [hcount j, asked]
      omega
  | ack k i result hk hw =>
      rw [List.append_nil]
      refine ⟨fun j => ?_, fun j hj => ?_⟩
      · have hset := weigh_ack (v := WriteRequest.asks j) (w := Worker.asks j) hk result
          (Function.update s.pool.acks i (.sent result))
        rw [hw, asks_idle, asks_acking] at hset
        rw [List.count_append, hcount j, asked]
        omega
      · dsimp only
        rw [Function.update_apply]
        split
        · intro hsent
          cases hsent
        · next hne => exact h.told j (by simpa [hne] using hj)
  | crash k hk =>
      have hgone : (s.without k).Answered ps₀ (as₀ ++ (s.pool.workers k).ack?.toList) := by
        refine ⟨fun i => ?_, fun i hi => ?_⟩
        · have hset := weigh_without (v := WriteRequest.asks i) (w := Worker.asks i) hk
          have hheld : (s.pool.workers k).ack?.toList.count i = Worker.asks i (s.pool.workers k) :=
            rfl
          rw [asks_crashed] at hset
          rw [List.count_append, hcount i, asked, hheld]
          omega
        · rcases List.mem_append.mp hi with hold | hnew
          · exact acks_crash k i s.pool (h.told i hold)
          · exact acks_crash_of_holds hnew
      have hqueue : (s.without k).pool.queue = s.pool.queue := queue_crash k s.pool
      rw [WriterPoolRun.crash, ← List.append_assoc, List.append_nil]
      split
      · rwa [List.append_nil]
      · refine ⟨fun i => ?_, fun i hi => acks_discard ?_⟩
        · have hset := weigh_discard (s := s.without k) (v := WriteRequest.asks i)
            (w := Worker.asks i)
          have hold := hgone.count i
          rw [asked] at hold
          rw [List.count_append, count_acksOf, ← hqueue, hold, asked]
          omega
        · rcases List.mem_append.mp hi with hold | hnew
          · exact .inl (hgone.told i hold)
          · exact .inr (by rwa [hqueue])

/-! ### The end -/

/-- The steps the requests have still to take. -/
def left : WriterPoolRun → Nat := weigh (fun _ => 3) Worker.toDo

theorem Change.left_le (hchange : Change s s' ps as advance) (hclosed : s.closed = true) :
    s'.left + advance.toNat ≤ s.left := by
  simp only [left]
  cases hchange with
  | stay closed _ => exact Nat.le_refl _
  | refuse h => rw [hclosed] at h; cases h
  | accept r h _ => rw [hclosed] at h; cases h
  | take k r rest hk hidle hq =>
      have hset := weigh_take (v := fun _ => 3) (w := Worker.toDo) hk hq
      simp only [hidle, Worker.toDo] at hset
      simp only [Bool.toNat_true]
      omega
  | write k r result hk hw hr =>
      have hset := weigh_write (v := fun _ => 3) (w := Worker.toDo) hk result
      simp only [hw, Worker.toDo] at hset
      simp only [Bool.toNat_true]
      omega
  | writeAck k i o result hk hw =>
      have hset := weigh_writeAck (v := fun _ => 3) (w := Worker.toDo) hk i result
      simp only [hw, Worker.toDo] at hset
      simp only [Bool.toNat_true]
      omega
  | ack k i result hk hw =>
      have hset := weigh_ack (v := fun _ => 3) (w := Worker.toDo) hk result
        (Function.update s.pool.acks i (.sent result))
      simp only [hw, Worker.toDo] at hset
      simp only [Bool.toNat_true]
      omega
  | crash k hk =>
      have hset := weigh_without (v := fun _ => 3) (w := Worker.toDo) hk
      have hnone : Worker.toDo .crashed = 0 := rfl
      have hdiscard := weigh_discard (s := s.without k) (v := fun _ => 3) (w := Worker.toDo)
      rw [WriterPoolRun.crash, Bool.toNat_false]
      split <;> omega

theorem Change.closed (hchange : Change s s' ps as advance) (hclosed : s.closed = true) :
    s'.closed = true := by
  cases hchange with
  | stay closed h => exact h hclosed
  | crash k hk =>
      rw [WriterPoolRun.crash]
      split <;> exact hclosed
  | refuse _ | accept _ _ _ | take _ _ _ _ _ _ | write _ _ _ _ _ _ | writeAck _ _ _ _ _ _
  | ack _ _ _ _ _ => exact hclosed

theorem connected_iff : s.connected = true ↔
    ∃ k < s.nWorkers, (s.pool.workers k).isCrashed = false := by
  simp [connected]

/-- Nothing is queued that nobody listens for. -/
def Served (s : WriterPoolRun) : Prop := s.pool.queue = [] ∨ s.connected = true

theorem served_of_working (hk : k < s.nWorkers) (h : (s.pool.workers k).isCrashed = false) :
    s.Served := .inr (connected_iff.mpr ⟨k, hk, h⟩)

theorem Change.served (hchange : Change s s' ps as advance) (h : s.Served) : s'.Served := by
  cases hchange with
  | stay closed _ => exact h
  | refuse _ => exact h
  | accept r _ hc => exact .inr hc
  | take k r rest hk hidle hq =>
      exact served_of_working (k := k) hk (by simp [WriterPool.setWorker, Worker.isCrashed])
  | write k r result hk hw hr =>
      exact served_of_working (k := k) hk (by simp [WriterPool.setWorker, Worker.isCrashed])
  | writeAck k i o result hk hw =>
      exact served_of_working (k := k) hk (by simp [WriterPool.setWorker, Worker.isCrashed])
  | ack k i result hk hw =>
      exact served_of_working (k := k) hk (by simp [WriterPool.setWorker, Worker.isCrashed])
  | crash k hk =>
      rw [WriterPoolRun.crash]
      split
      · next hc => exact .inr hc
      · exact .inl rfl

/-- A worker with something in its hands can go on with it. -/
theorem advances_of_busy (hk : k < s.nWorkers) (h : (s.pool.workers k).busy ≠ 0) :
    ∃ e, s.advances e = true := by
  cases hw : s.pool.workers k with
  | idle => simp [hw, Worker.busy] at h
  | crashed => simp [hw, Worker.busy] at h
  | writing r => exact ⟨.write k (.ok ()), by simp [advances, hk, hw]⟩
  | acking i result => exact ⟨.ack k, by simp [advances, hk, hw]⟩

/-- Until the pool is drained, some worker can go on. -/
theorem advances_of_not_drained (hserved : s.Served) (h : ¬ s.Drained) :
    ∃ e, s.advances e = true := by
  by_cases hbusy : ∀ k < s.nWorkers, (s.pool.workers k).busy = 0
  · have hne : s.pool.queue ≠ [] := fun hnil => h ⟨hnil, hbusy⟩
    obtain ⟨r, rest, hq⟩ := List.exists_cons_of_ne_nil hne
    obtain ⟨k, hk, hlive⟩ := connected_iff.mp (hserved.resolve_left hne)
    have hnone := hbusy k hk
    cases hw : s.pool.workers k with
    | idle => exact ⟨.take k, by simp [advances, hk, hw, hq]⟩
    | crashed => simp [hw, Worker.isCrashed] at hlive
    | writing r => simp [hw, Worker.busy] at hnone
    | acking i result => simp [hw, Worker.busy] at hnone
  · push Not at hbusy
    obtain ⟨k, hk, hne⟩ := hbusy
    exact advances_of_busy hk hne

theorem weigh_of_drained (h : s.Drained) (hw : ∀ x : Worker, x.busy = 0 → w x = 0) :
    weigh v w s = 0 := by
  rw [weigh, h.1, total_nil, Nat.zero_add]
  exact sum_eq_zero fun k hk => hw _ (h.2 k (mem_range.mp hk))

theorem asks_of_not_busy (i : Nat) (x : Worker) (h : x.busy = 0) : Worker.asks i x = 0 := by
  cases x with
  | idle => rfl
  | crashed => rfl
  | writing r => simp [Worker.busy] at h
  | acking j result => simp [Worker.busy] at h

theorem Answered.drained (h : s.Answered ps as) (hdrained : s.Drained) :
    ps.Perm as ∧ ∀ i ∈ ps, s.pool.acks i ≠ .waiting := by
  have hperm : ps.Perm as := by
    rw [List.perm_iff_count]
    intro i
    rw [h.count i, asked, weigh_of_drained hdrained (asks_of_not_busy i), Nat.add_zero]
  exact ⟨hperm, fun i hi => h.told i (hperm.mem_iff.mp hi)⟩

/-! ### Runs -/

theorem balanced_run (nWorkers capacity : Nat) (is : List Event) :
    (is.foldl step (new nWorkers capacity)).Balanced :=
  foldl_invariant is (balanced_new nWorkers capacity) fun t e h => (change_step t e).balanced h

theorem served_run (nWorkers capacity : Nat) (is : List Event) :
    (is.foldl step (new nWorkers capacity)).Served :=
  foldl_invariant is (.inl rfl) fun t e h => (change_step t e).served h

theorem answered_run (nWorkers capacity : Nat) (is : List Event) :
    (is.foldl step (new nWorkers capacity)).Answered
      (trace step promised (new nWorkers capacity) is)
      (trace step answered (new nWorkers capacity) is) := by
  induction is using List.reverseRecOn with
  | nil => exact answered_new nWorkers capacity
  | append_singleton is e ih =>
      rw [trace_append, trace_append, List.foldl_append]
      have hstep := (change_step (is.foldl step (new nWorkers capacity)) e).answered ih
      simpa [trace] using hstep

theorem count_advances_le (hclosed : s.closed = true) (js : List Event) :
    count step advances s js ≤ s.left := by
  have hrun : Along step (fun _ _ => True) s js := along_iff_forall.mpr fun _ _ _ _ => trivial
  refine hrun.count_le (I := fun t => t.closed = true) left hclosed
    (fun t e h => (change_step t e).closed h) (fun t e h _ => ?_) fun t e h _ hadvance => ?_
  · have hle := (change_step t e).left_le h
    omega
  · have hle := (change_step t e).left_le h
    rw [hadvance, Bool.toNat_true] at hle
    omega

/-- The pool accounts for every request, and shutting it down ends. At any time what has been
submitted is what was written, what was refused or went wrong, what was lost with a worker, and
what is still queued or in hand. Once the sender is gone the workers have only so many steps
left to take, and until the pool is drained one of them can take one. Then each promised result
has been answered exactly once, and no caller is left waiting. -/
theorem drain_accounts_for_every_request (nWorkers capacity : Nat) (is : List Event) :
    let s := is.foldl step (new nWorkers capacity)
    s.Balanced ∧
    (s.closed = true → ∀ js, count step advances s js ≤ s.left) ∧
    (¬ s.Drained → ∃ e, s.advances e = true) ∧
    (s.Drained →
      s.pool.submitted = s.pool.completed + s.pool.failed + UInt64.ofNat s.lost ∧
      (trace step promised (new nWorkers capacity) is).Perm
        (trace step answered (new nWorkers capacity) is) ∧
      ∀ i ∈ trace step promised (new nWorkers capacity) is, s.pool.acks i ≠ .waiting) := by
  intro s
  have hbalanced : s.Balanced := balanced_run nWorkers capacity is
  have hserved : s.Served := served_run nWorkers capacity is
  refine ⟨hbalanced, count_advances_le, advances_of_not_drained hserved, fun hdrained => ?_⟩
  obtain ⟨hperm, htold⟩ := (answered_run nWorkers capacity is).drained hdrained
  refine ⟨?_, hperm, htold⟩
  have hzero := weigh_of_drained (v := fun _ => 1) (w := Worker.busy) hdrained fun _ h => h
  rw [Balanced, hzero, Nat.zero_add] at hbalanced
  exact hbalanced

/-- The end of an answer, whose writer is told. -/
def lastOutput : TaskOutput :=
  { taskId := "t", seqNum := 0, content := "42", isFinal := true, finishReason := 0
    agentId := "a", tokenCount := 1, emittedAtNs := 1 }

/-- One of two requests is written, and its worker is lost with the other one. -/
def lastWorkerLost : List Event :=
  [.submit (.outputAck 0 lastOutput), .take 0, .submit (.outputAck 1 lastOutput),
    .write 0 (.ok ()), .ack 0, .take 0, .close, .crash 0]

theorem drain_accounts_for_every_request_lost :
    let s := lastWorkerLost.foldl step (new 1 4)
    s.pool.submitted = s.pool.completed + s.pool.failed + UInt64.ofNat s.lost ∧
      s.pool.submitted = 2 ∧ s.lost = 1 ∧ s.pool.acks 1 ≠ .waiting := by
  intro s
  have hdrained : s.Drained := by
    refine ⟨rfl, fun k hk => ?_⟩
    obtain rfl : k = 0 := Nat.lt_one_iff.mp hk
    rfl
  obtain ⟨hsum, -, htold⟩ :=
    (drain_accounts_for_every_request 1 4 lastWorkerLost).2.2.2 hdrained
  exact ⟨hsum, rfl, rfl, htold 1 (by decide)⟩

end WriterPoolRun

end DdsOrchestrator.Dataspace
