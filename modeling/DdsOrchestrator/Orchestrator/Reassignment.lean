import DdsOrchestrator.Dataspace.TaskCache
import DdsOrchestrator.Orchestrator.Dds

/-!
What waits for the mesh, and what is published of it meanwhile. The republisher does not
ask how far the task has come: an agent may have taken it, and it is pending once more in a
sample without ownership. Such a sample is behind of what the agent has written, so no cache
takes it. How long it waits counts from the last reassignment, and the reaper of halted
tasks can reassign the same task again and again.
-/

namespace DdsOrchestrator.Orchestrator

open Dataspace (Task TopicCaches)
open Dataspace.TopicCaches (taskAt)

namespace OrchestratorDds

variable {o : OrchestratorDds} {mesh : String → Option Task} {clock : Clock} {id : String}
  {entry : Task × Nat} {dispatchMode : Bool}

/-! ### Where the entries come from -/

/-- A reaper has reassigned a task of the cache, and the task waits. -/
def Inserts (o : OrchestratorDds) (id : String) (entry : Task × Nat) : Event → Prop
  | .reapDead staleAfter now clock writes => ∃ task ∈ o.allTasks,
      task.assignedAgent ∈ o.staleAgents staleAfter now ∧ task.taskId = id ∧
        Requeues clock writes task entry
  | .reapStalled nowNs clock writes => ∃ task ∈ o.allTasks,
      stalled nowNs task = true ∧ task.taskId = id ∧ Requeues clock writes task entry
  | _ => False

/-- The event is no tick that drops the entry. -/
def Unsettled (id : String) (entry : Task × Nat) : Event → Prop
  | .republish mesh clock => settled mesh clock id entry = false
  | _ => True

/-- A reaper has inserted the entry, and every tick since then has let it wait. -/
def Waits (dispatchMode : Bool) (events : List Event) (id : String) (entry : Task × Nat) : Prop :=
  ∃ before e after, events = before ++ e :: after ∧
    Inserts ((new dispatchMode).run before) id entry e ∧ ∀ e' ∈ after, Unsettled id entry e'

theorem lookup_step {e : Event}
    (h : (o.step e).pendingReassignment.lookup id = some entry) :
    Inserts o id entry e ∨
      (o.pendingReassignment.lookup id = some entry ∧ Unsettled id entry e) := by
  cases e with
  | heartbeat now state => exact .inr ⟨h, trivial⟩
  | dispatch task => exact .inr ⟨h, trivial⟩
  | cache call => exact .inr ⟨h, trivial⟩
  | republish mesh clock => exact .inr (lookup_republish.mp h)
  | reapStalled nowNs clock writes =>
      rcases lookup_reassignAll h with ⟨task, hmem, hid, hrequeues⟩ | hbefore
      · obtain ⟨hheld, hstalled⟩ := List.mem_filter.mp hmem
        exact .inl ⟨task, hheld, hstalled, hid, hrequeues⟩
      · exact .inr ⟨hbefore, trivial⟩
  | reapDead staleAfter now clock writes =>
      have h : (o.reapDeadAgents staleAfter now clock writes).pendingReassignment.lookup id =
        some entry := h
      unfold reapDeadAgents at h
      dsimp only at h
      split at h
      · exact .inr ⟨h, trivial⟩
      · rcases lookup_reassignAll h with ⟨task, hmem, hid, hrequeues⟩ | hbefore
        · obtain ⟨hheld, hdead⟩ := List.mem_filter.mp hmem
          exact .inl ⟨task, hheld, (of_decide_eq_true hdead).1, hid, hrequeues⟩
        · exact .inr ⟨hbefore, trivial⟩

/-- Whatever waits at the end of a run was inserted and has been let wait. -/
theorem waits_of_lookup (events : List Event)
    (h : ((new dispatchMode).run events).pendingReassignment.lookup id = some entry) :
    Waits dispatchMode events id entry := by
  induction events using List.reverseRecOn with
  | nil => cases h
  | append_singleton events e ih =>
      rw [run_concat] at h
      -- the last event has inserted the entry, or the entry has waited through it
      rcases lookup_step h with hinserts | ⟨hbefore, hunsettled⟩
      · exact ⟨events, e, [], rfl, hinserts, fun _ h => absurd h List.not_mem_nil⟩
      · obtain ⟨before, e', after, rfl, hinserts, hrest⟩ := ih hbefore
        refine ⟨before, e', after ++ [e], by simp, hinserts, fun e'' hmem => ?_⟩
        rcases List.mem_append.mp hmem with hold | hlast
        · exact hrest e'' hold
        · rw [List.mem_singleton.mp hlast]
          exact hunsettled

theorem taskId_transition (target : TaskStatus) (task : Task) :
    (transition target task).2.taskId = task.taskId := by
  unfold transition
  split
  · rfl
  · split
    · rfl
    · rfl

/-- What waits under an id is the task of that id, as any agent can take it. -/
theorem Waits.reborn {events : List Event} (h : Waits dispatchMode events id entry) :
    entry.1.taskId = id ∧ ∃ nowNs, Reborn entry.1 nowNs := by
  obtain ⟨before, e, -, -, hinserts, -⟩ := h
  have key : ∀ {clock writes task}, task.taskId = id → Requeues clock writes task entry →
      entry.1.taskId = id ∧ ∃ nowNs, Reborn entry.1 nowNs := by
    rintro clock writes task rfl ⟨hreassign, -, -⟩
    have hok : (reassign maxTaskRetries (clock.wall task.taskId) task).1 = .ok true := by
      rw [hreassign]
    have hreborn := reborn_reassign hok
    rw [hreassign] at hreborn
    refine ⟨?_, _, hreborn⟩
    -- only the branch below the limit of retries returns `true`
    unfold reassign at hreassign
    split at hreassign
    · obtain ⟨_, _, heq⟩ := Loop.andThen_eq_ok (by rw [hreassign])
      rw [heq] at hreassign
      cases hreassign
    · obtain ⟨_, _, heq⟩ := Loop.andThen_eq_ok (by rw [hreassign])
      rw [heq, Prod.mk.injEq] at hreassign
      rw [← hreassign.2]
      exact taskId_transition .pending task
  cases e with
  | reapDead staleAfter now clock writes =>
      obtain ⟨task, -, -, hid, hrequeues⟩ := hinserts
      exact key hid hrequeues
  | reapStalled nowNs clock writes =>
      obtain ⟨task, -, -, hid, hrequeues⟩ := hinserts
      exact key hid hrequeues
  | heartbeat | dispatch | republish | cache => cases hinserts

/-! ### What is published -/

/-- A sample that the republisher writes, of the entry `pending` from `since`. -/
structure HeldBack (mesh : String → Option Task) (clock : Clock) (pending : Task) (since : Nat)
    (sample : Task) : Prop where
  renewed : sample = { pending with createdAtNs := clock.wall sample.taskId }
  status : sample.status = 0
  assignedAgent : sample.assignedAgent = ""
  targetAgent : sample.targetAgent = ""
  unseen : visible (mesh sample.taskId) pending = false
  inTime : clock.instant sample.taskId - since ≤ reassignVisibilityTtl
  behind : ∀ (caches : TopicCaches) (nowNs : UInt64) (cur : Task),
    caches.readTask sample.taskId = some cur → pending.retryCount ≤ cur.retryCount →
    0 < cur.status → caches.upsertTask nowNs sample = (.accepted cur, caches)

theorem isRegression_of_progressed {sample cur : Task} (hstatus : sample.status = 0)
    (hretry : sample.retryCount ≤ cur.retryCount) (hcur : 0 < cur.status) :
    Dataspace.isRegression sample cur = true := by
  unfold Dataspace.isRegression
  rw [if_neg (UInt32.not_lt.mpr hretry)]
  split
  · rfl
  · split
    · rfl
    · exact decide_eq_true (hstatus ▸ hcur)

theorem upsertTask_of_isRegression {c : TopicCaches} {nowNs : UInt64} {sample cur : Task}
    (hcur : c.readTask sample.taskId = some cur)
    (hback : Dataspace.isRegression sample cur = true) :
    c.upsertTask nowNs sample = (.accepted cur, c) := by
  have houtcome := TopicCaches.upsertTask_outcome c nowNs sample
  have hlookup : c.tasks.lookup sample.taskId = some cur := hcur
  generalize c.upsertTask nowNs sample = r at houtcome
  cases houtcome with
  | rejected hnone => simp [hlookup] at hnone
  | kept cur' hcur' =>
      rw [hlookup, Option.some.injEq] at hcur'
      rw [hcur']
  | stored hahead =>
      rw [hahead cur hlookup] at hback
      cases hback

theorem heldBack_of_unsettled {pending : Task} {since : Nat} {nowNs : UInt64}
    (hid : pending.taskId = id) (hreborn : Reborn pending nowNs)
    (hunsettled : settled mesh clock id (pending, since) = false) :
    HeldBack mesh clock pending since (republished clock id pending) := by
  subst hid
  obtain ⟨hunseen, hinTime⟩ := Bool.or_eq_false_iff.mp hunsettled
  refine ⟨rfl, hreborn.status, hreborn.assignedAgent, hreborn.targetAgent, hunseen, ?_, ?_⟩
  · exact Nat.not_lt.mp (of_decide_eq_false hinTime)
  · intro caches nowNs cur hcur hretry hprogressed
    exact upsertTask_of_isRegression hcur
      (isRegression_of_progressed hreborn.status hretry hprogressed)

/-- Each sample that a republisher writes in a run is of an entry that neither the mesh
shows nor 60 s have passed since, and a cache that holds the task further on does not take
it. Each entry that is left was inserted by a reaper, and no tick has seen it in the mesh or
come more than 60 s later. -/
theorem republisher_never_revives (dispatchMode : Bool) (events : List Event) :
    (∀ before mesh clock after, events = before ++ .republish mesh clock :: after →
      ∃ sent, (((new dispatchMode).run before).step (.republish mesh clock)).tasksWriterClient =
          ((new dispatchMode).run before).tasksWriterClient ++ sent ∧
        ∀ sample ∈ sent, ∃ pending since,
          ((new dispatchMode).run before).pendingReassignment.lookup sample.taskId =
            some (pending, since) ∧ HeldBack mesh clock pending since sample) ∧
      ∀ id entry, ((new dispatchMode).run events).pendingReassignment.lookup id = some entry →
        Waits dispatchMode events id entry := by
  refine ⟨?_, fun id entry => waits_of_lookup events⟩
  rintro before mesh clock after -
  refine ⟨_, rfl, fun sample hsample => ?_⟩
  obtain ⟨⟨id, pending, since⟩, hleft, rfl⟩ := List.mem_map.mp hsample
  obtain ⟨hentry, hunsettled⟩ := List.mem_filter.mp hleft
  have hlookup := Map.mem_entries.mp hentry
  obtain ⟨hid, nowNs, hreborn⟩ := (waits_of_lookup before hlookup).reborn
  have hunsettled := (Bool.not_eq_true' _).mp hunsettled
  refine ⟨pending, since, ?_, heldBack_of_unsettled hid hreborn hunsettled⟩
  show ((new dispatchMode).run before).pendingReassignment.lookup pending.taskId = _
  rw [hid]
  exact hlookup

/-! ### A task that has come further -/

/-- The clocks at a second of the run, which begins 100 s after the epoch. -/
def clockAt (seconds : Nat) : Clock :=
  ⟨fun _ => seconds * 1000000000, fun _ => UInt64.ofNat ((100 + seconds) * 1000000000)⟩

def wallAt (seconds : Nat) : UInt64 := UInt64.ofNat ((100 + seconds) * 1000000000)

/-- A tick that finds the mesh as it is and whose writes succeed. -/
def tickAt (seconds : Nat) (mesh : String → Option Task) : List Event :=
  [.reapDead 10000000000 (seconds * 1000000000) (clockAt seconds) fun _ => true,
    .reapStalled (wallAt seconds) (clockAt seconds) fun _ => true,
    .republish mesh (clockAt seconds)]

/-- The task of an agent that has come to a halt. -/
def halted : Task := { taskAt 1 "a" 0 0 with assignedAtNs := 1 }

/-- The halted task, pending again. -/
def requeued : Task := reborn (wallAt 0) { halted with status := 0 }

/-- Another agent has taken it. -/
def claimed : Task := { requeued with status := 1, assignedAgent := "b" }

/-- The task goes out pending although the mesh shows it claimed again. And 100 s after it
was inserted it still waits, because it has been inserted again. -/
theorem claimed_task_republished :
    (let o := (new false).run (.cache (.task 0 halted) :: tickAt 0 fun _ => some halted)
     let sample := republished (clockAt 1) "task" requeued
     o.pendingReassignment.lookup "task" = some (requeued, 0) ∧
       requeued.retryCount ≤ claimed.retryCount ∧ claimed.status = 1 ∧ sample.status = 0 ∧
       (o.step (.republish (fun _ => some claimed) (clockAt 1))).tasksWriterClient =
         o.tasksWriterClient ++ [sample]) ∧
      (let first := (new false).run (.cache (.task 0 halted) :: tickAt 0 fun _ => some halted)
       let last := first.run ((tickAt 50 fun _ => some halted) ++ tickAt 100 fun _ => some halted)
       (first.pendingReassignment.lookup "task").map (fun e => (e.1.retryCount, e.2)) =
           some (1, 0) ∧
         (last.pendingReassignment.lookup "task").map (fun e => e.1.retryCount) = some 1) := by
  decide +kernel

end OrchestratorDds

end DdsOrchestrator.Orchestrator
