import Mathlib.Data.List.Nodup
import DdsOrchestrator.Lib.Machine
import DdsOrchestrator.Lib.Roster
import DdsOrchestrator.DetResponder.Endpoint

/-!
The responder accounts for every request. Each is in one place, in the queue, with one worker
or with the loop, until it is settled; the counters say how many were counted as what; and what
has been published about a request is what its place says, whatever is published about others
in between.
-/

namespace DdsOrchestrator.DetResponder

open Dataspace (LLMInferenceRequest LLMInferenceResult)
open Roster (total total_concat total_set getElem?_set_of_some)

/-! ### Places and counters -/

inductive Place where
  | queue
  | worker
  | loop
  | nobody
  deriving DecidableEq

namespace Stage

def place : Stage → Place
  | queued => .queue
  | starting | sleeping _ _ | writing _ _ _ _ => .worker
  | erring _ _ _ r | counting r | numbering r | logging r =>
    if r.outcome = .rejectedFull then .loop else .worker
  | settled _ => .nobody

def counted : Stage → Option Outcome
  | numbering r | logging r | settled r => some r.outcome
  | _ => none

/-- A bound on the steps until the request is settled. -/
def left : Stage → ℕ
  | queued => 9
  | starting => 8
  | sleeping _ _ => 7
  | writing _ _ _ first => if first then 6 else 5
  | erring _ _ _ _ => 4
  | counting _ => 3
  | numbering _ => 2
  | logging _ => 1
  | settled _ => 0

end Stage

namespace Job

def sits (p : Place) (j : Job) : ℕ := if j.stage.place = p then 1 else 0

def countedAs (o : Outcome) (j : Job) : ℕ := if j.stage.counted = some o then 1 else 0

def left (j : Job) : ℕ := j.stage.left

end Job

variable {c : Config} {idle i : ℕ} {refusing : Bool} {queue : List ℕ} {jobs : List Job} {j : Job}
  {stage : Stage} {o : Outcome} {published : List (ℕ × Publication)} {p : Publication}

theorem place_admitted (c : Config) (request : LLMInferenceRequest) (r : Report)
    (hr : r.outcome = .error) : (c.admitted request r).place = .worker := by
  have herring : ∀ message, Stage.place
      (.erring 400 message false { r with detail := some message }) = .worker := fun message => by
    simp [Stage.place, hr]
  unfold Config.admitted
  dsimp only
  split
  · exact herring _
  · split
    · split_ifs
      · exact herring _
      · exact herring _
      · rfl
    · split_ifs
      · exact herring _
      · rfl

theorem eq_queued_of_place (h : stage.place = .queue) : stage = .queued := by
  cases stage with
  | queued => rfl
  | starting | sleeping r p | writing r p emittedNs first | settled r => cases h
  | erring code message retriable r | counting r | numbering r | logging r =>
      simp only [Stage.place] at h
      split_ifs at h

/-- Every request sits in one place, and the queue holds those that wait, once each. -/
structure Staffed (c : Config) (idle : ℕ) (refusing : Bool) (queue : List ℕ) (jobs : List Job) :
    Prop where
  workers : idle + total (Job.sits .worker) jobs = c.capacity
  loop : refusing.toNat = total (Job.sits .loop) jobs
  waiting : queue.length = total (Job.sits .queue) jobs
  nodup : queue.Nodup
  queued : ∀ i ∈ queue, ∃ j, jobs[i]? = some j ∧ j.stage.place = .queue
  room : queue.length ≤ c.queue

theorem Staffed.notMem (h : Staffed c idle refusing queue jobs) (hi : jobs[i]? = some j)
    (hplace : j.stage.place ≠ .queue) : i ∉ queue := by
  intro hmem
  obtain ⟨j', hj', hqueue⟩ := h.queued i hmem
  obtain rfl : j = j' := Option.some.inj (hi.symm.trans hj')
  exact hplace hqueue

theorem queued_set {rest : List ℕ}
    (hqueued : ∀ k ∈ rest, ∃ j, jobs[k]? = some j ∧ j.stage.place = .queue)
    (hi : jobs[i]? = some j) (hnot : i ∉ rest) {b : Job} :
    ∀ k ∈ rest, ∃ j, (jobs.set i b)[k]? = some j ∧ j.stage.place = .queue := by
  intro k hk
  have hne : k ≠ i := fun heq => hnot (heq ▸ hk)
  rw [getElem?_set_of_some hi, if_neg hne]
  exact hqueued k hk

/-- A request that is not in the queue goes on where it is. -/
theorem Staffed.stay (h : Staffed c idle refusing queue jobs) (hi : jobs[i]? = some j)
    (hplace : stage.place = j.stage.place) (hnot : j.stage.place ≠ .queue) :
    Staffed c idle refusing queue (jobs.set i { j with stage }) := by
  have hsame : ∀ q, total (Job.sits q) (jobs.set i { j with stage }) = total (Job.sits q) jobs := by
    intro q
    have hset := total_set (Job.sits q) hi { j with stage }
    have hw : Job.sits q { j with stage } = Job.sits q j := by simp only [Job.sits, hplace]
    omega
  exact ⟨(hsame .worker).symm ▸ h.workers, (hsame .loop).symm ▸ h.loop,
    (hsame .queue).symm ▸ h.waiting, h.nodup, queued_set h.queued hi (h.notMem hi hnot), h.room⟩

/-- Whoever was busy with a request is free again. -/
theorem Staffed.settle (h : Staffed c idle refusing queue jobs) (hi : jobs[i]? = some j)
    {r : Report} (hstage : j.stage = .logging r) :
    if r.outcome = .rejectedFull then
      Staffed c idle false queue (jobs.set i { j with stage := .settled r })
    else Staffed c (idle + 1) refusing queue (jobs.set i { j with stage := .settled r }) := by
  have hset := fun q => total_set (Job.sits q) hi { j with stage := .settled r }
  have hgone : ∀ q, q ≠ .nobody → Job.sits q { j with stage := Stage.settled r } = 0 := by
    intro q hq
    exact if_neg fun heq => hq heq.symm
  have hplace : j.stage.place ≠ .queue := by
    rw [hstage, Stage.place]
    split_ifs <;> simp
  have hqueued := queued_set h.queued hi (h.notMem hi hplace)
    (b := { j with stage := .settled r })
  have hworker := hset .worker
  have hloop := hset .loop
  have hqueue := hset .queue
  rw [hgone .worker (by simp)] at hworker
  rw [hgone .loop (by simp)] at hloop
  rw [hgone .queue (by simp)] at hqueue
  have hw := h.workers
  have hl := h.loop
  have hq := h.waiting
  split_ifs with ho
  · have hs : ∀ q, Job.sits q j = if Place.loop = q then 1 else 0 := fun q => by
      rw [Job.sits, hstage, Stage.place, if_pos ho]
    rw [hs, if_neg (by simp)] at hworker
    rw [hs, if_pos rfl] at hloop
    rw [hs, if_neg (by simp)] at hqueue
    refine ⟨by omega, ?_, by omega, h.nodup, hqueued, h.room⟩
    cases refusing with
    | false => rw [Bool.toNat_false] at hl; omega
    | true =>
        rw [Bool.toNat_true] at hl
        rw [Bool.toNat_false]
        omega
  · have hs : ∀ q, Job.sits q j = if Place.worker = q then 1 else 0 := fun q => by
      rw [Job.sits, hstage, Stage.place, if_neg ho]
    rw [hs, if_pos rfl] at hworker
    rw [hs, if_neg (by simp)] at hloop
    rw [hs, if_neg (by simp)] at hqueue
    exact ⟨by omega, by omega, by omega, h.nodup, hqueued, h.room⟩

/-- The head of the queue goes to a worker. -/
theorem Staffed.take {rest : List ℕ} (h : Staffed c (idle + 1) refusing (i :: rest) jobs)
    (hi : jobs[i]? = some j) :
    Staffed c idle refusing rest (jobs.set i { j with stage := .starting }) := by
  obtain ⟨hnot, hnodup⟩ := List.nodup_cons.mp h.nodup
  obtain ⟨j', hj', hplace⟩ := h.queued i List.mem_cons_self
  obtain rfl : j = j' := Option.some.inj (hi.symm.trans hj')
  have hset := fun q => total_set (Job.sits q) hi { j with stage := .starting }
  have hs : ∀ q, Job.sits q j = if Place.queue = q then 1 else 0 := fun q => by
    rw [Job.sits, hplace]
  have hs' : ∀ q, Job.sits q { j with stage := .starting } = if Place.worker = q then 1 else 0 :=
    fun q => rfl
  have hworker := hset .worker
  have hloop := hset .loop
  have hqueue := hset .queue
  rw [hs, hs', if_neg (by simp), if_pos rfl] at hworker
  rw [hs, hs', if_neg (by simp), if_neg (by simp)] at hloop
  rw [hs, hs', if_pos rfl, if_neg (by simp)] at hqueue
  have hw := h.workers
  have hl := h.loop
  have hq := h.waiting
  have hroom := h.room
  rw [List.length_cons] at hq hroom
  exact ⟨by omega, by omega, by omega, hnodup,
    queued_set (fun k hk => h.queued k (List.mem_cons_of_mem i hk)) hi hnot, by omega⟩

theorem queued_concat (hqueued : ∀ k ∈ queue, ∃ j, jobs[k]? = some j ∧ j.stage.place = .queue)
    (b : Job) : ∀ k ∈ queue, ∃ j, (jobs ++ [b])[k]? = some j ∧ j.stage.place = .queue := by
  intro k hk
  obtain ⟨j, hj, hplace⟩ := hqueued k hk
  exact ⟨j, by rw [List.getElem?_append_left (List.getElem?_eq_some_iff.mp hj).1, hj], hplace⟩

theorem Staffed.enqueue (h : Staffed c idle refusing queue jobs) (hroom : queue.length < c.queue)
    {request : LLMInferenceRequest} {arrivalNs : ℕ} :
    Staffed c idle refusing (queue ++ [jobs.length])
      (jobs ++ [{ request, arrivalNs, stage := .queued }]) where
  workers := by rw [total_concat]; exact h.workers
  loop := by rw [total_concat]; exact h.loop
  waiting := by
    rw [total_concat, List.length_append, h.waiting]
    rfl
  nodup := by
    have hnew : jobs.length ∉ queue := by
      intro hmem
      obtain ⟨j, hj, -⟩ := h.queued _ hmem
      rw [List.getElem?_length] at hj
      cases hj
    have hconcat := List.Nodup.concat hnew h.nodup
    rwa [List.concat_eq_append] at hconcat
  queued := by
    intro k hk
    rcases List.mem_append.mp hk with hold | hnew
    · exact queued_concat h.queued _ k hold
    · obtain rfl := List.mem_singleton.mp hnew
      exact ⟨_, List.getElem?_concat_length, rfl⟩
  room := by
    rw [List.length_append, List.length_singleton]
    exact hroom

theorem Staffed.refuse (h : Staffed c idle false queue jobs) {b : Job}
    (hb : b.stage.place = .loop) : Staffed c idle true queue (jobs ++ [b]) := by
  have hs : ∀ q, Job.sits q b = if Place.loop = q then 1 else 0 := fun q => by rw [Job.sits, hb]
  refine ⟨?_, ?_, ?_, h.nodup, queued_concat h.queued b, h.room⟩
  · rw [total_concat, hs, if_neg (by simp)]
    exact h.workers
  · rw [total_concat, hs, if_pos rfl, ← h.loop]
    rfl
  · rw [total_concat, hs, if_neg (by simp)]
    exact h.waiting

/-- A counter says how many requests have been counted so. -/
def Counted (counter : Outcome → UInt64) (jobs : List Job) : Prop :=
  ∀ o, counter o = UInt64.ofNat (total (Job.countedAs o) jobs)

def Responder.counter (s : Responder) : Outcome → UInt64
  | .ok => s.nOk
  | .error => s.nErr
  | .rejectedFull => s.nRejected

variable {counter counter' : Outcome → UInt64}

theorem Counted.keep (h : Counted counter jobs) (hi : jobs[i]? = some j)
    (hstage : stage.counted = j.stage.counted) :
    Counted counter (jobs.set i { j with stage }) := by
  intro q
  have hset := total_set (Job.countedAs q) hi { j with stage }
  have hw : Job.countedAs q { j with stage } = Job.countedAs q j := by
    simp only [Job.countedAs, hstage]
  rw [h q]
  congr 1
  omega

theorem Counted.count (h : Counted counter jobs) (hi : jobs[i]? = some j)
    (hnone : j.stage.counted = none) (hsome : stage.counted = some o)
    (hcounter : ∀ q, counter' q = if q = o then counter q + 1 else counter q) :
    Counted counter' (jobs.set i { j with stage }) := by
  intro q
  have hset := total_set (Job.countedAs q) hi { j with stage }
  have hbefore : Job.countedAs q j = 0 := by simp [Job.countedAs, hnone]
  rw [hcounter q, h q]
  by_cases hq : q = o
  · have hafter : Job.countedAs q { j with stage } = 1 := by simp [Job.countedAs, hsome, hq]
    have htotal : total (Job.countedAs q) (jobs.set i { j with stage }) =
        total (Job.countedAs q) jobs + 1 := by omega
    rw [if_pos hq, htotal, UInt64.ofNat_add]
    rfl
  · have hafter : Job.countedAs q { j with stage } = 0 := by
      simp [Job.countedAs, hsome, Ne.symm hq]
    rw [if_neg hq]
    congr 1
    omega

theorem Counted.concat (h : Counted counter jobs) {b : Job} (hb : b.stage.counted = none) :
    Counted counter (jobs ++ [b]) := by
  intro q
  have hzero : Job.countedAs q b = 0 := by simp [Job.countedAs, hb]
  rw [h q, total_concat, hzero, Nat.add_zero]

end DdsOrchestrator.DetResponder
