import Mathlib.Data.Prod.Lex
import Mathlib.Order.Lattice.Nat
import DdsOrchestrator.Dataspace.TopicCaches

/-!
What the cache of tasks holds of one task. While the cache has room and the task is not
evicted, the samples of the task are settled one after the other, and what is held only
advances. It is not the last word: the rule compares retry counts, the presence of an agent
and statuses, and only where an agent goes with the status are these one order.

A task that has ended can still change. A failure outranks a success, and an evicted task
is forgotten.
-/

namespace DdsOrchestrator.Dataspace

open Machine (Along)

namespace Task

/-- How far the task has come: by retries, and then by status. -/
def progress (t : Task) : Nat ×ₗ Int := toLex (t.retryCount.toNat, t.status)

/-- The retry count rises, or else the status does not fall and the agent is not lost. -/
def Advances (cur new : Task) : Prop :=
  cur.retryCount < new.retryCount ∨
    cur.retryCount = new.retryCount ∧ cur.status ≤ new.status ∧
      (cur.assignedAgent ≠ "" → new.assignedAgent ≠ "")

/-- There is an agent exactly from the status `assigned` on. -/
def AgentFromAssigned (t : Task) : Prop := TaskStatus.assigned ≤ t.status ↔ t.assignedAgent ≠ ""

instance (t : Task) : Decidable t.AgentFromAssigned :=
  inferInstanceAs (Decidable (_ ↔ _))

variable {cur new s : Task}

theorem progress_le_iff : cur.progress ≤ new.progress ↔
    cur.retryCount < new.retryCount ∨
      cur.retryCount = new.retryCount ∧ cur.status ≤ new.status := by
  unfold progress
  rw [Prod.Lex.toLex_le_toLex, UInt32.lt_iff_toNat_lt, ← UInt32.toNat_inj]

theorem Advances.refl (t : Task) : t.Advances t := .inr ⟨rfl, le_rfl, id⟩

theorem Advances.trans (h : cur.Advances new) (h' : new.Advances s) : cur.Advances s := by
  rcases h with hlt | ⟨heq, hstatus, hagent⟩
  · rcases h' with hlt' | ⟨heq', -, -⟩
    · exact .inl (UInt32.lt_trans hlt hlt')
    · exact .inl (heq' ▸ hlt)
  · rcases h' with hlt' | ⟨heq', hstatus', hagent'⟩
    · exact .inl (heq ▸ hlt')
    · exact .inr ⟨heq.trans heq', hstatus.trans hstatus', fun h => hagent' (hagent h)⟩

theorem Advances.progress_le (h : cur.Advances new) : cur.progress ≤ new.progress :=
  progress_le_iff.mpr (h.imp id fun h => ⟨h.1, h.2.1⟩)

/-- At one retry count the agent stays. -/
theorem Advances.keeps_agent (h : cur.Advances new) (hretry : new.retryCount = cur.retryCount)
    (hagent : cur.assignedAgent ≠ "") : new.assignedAgent ≠ "" := by
  rcases h with hlt | ⟨-, -, hkeeps⟩
  · rw [hretry] at hlt
    exact absurd hlt (UInt32.lt_irrefl _)
  · exact hkeeps hagent

end Task

/-- No regression is an advance. -/
theorem isRegression_eq_false_iff {new cur : Task} :
    isRegression new cur = false ↔ cur.Advances new := by
  unfold isRegression Task.Advances
  split_ifs with hhigher hlower hlost
  · exact iff_of_true rfl (.inl hhigher)
  · refine iff_of_false (by simp) fun h => h.elim hhigher fun h => ?_
    rw [h.1] at hlower
    exact UInt32.lt_irrefl _ hlower
  · exact iff_of_false (by simp) fun h => h.elim hhigher fun h => h.2.2 hlost.1 hlost.2
  · have heq : cur.retryCount = new.retryCount :=
      UInt32.le_antisymm (UInt32.not_lt.mp hlower) (UInt32.not_lt.mp hhigher)
    rw [decide_eq_false_iff_not, not_lt]
    constructor
    · exact fun hstatus => .inr ⟨heq, hstatus, fun hagent hnone => hlost ⟨hagent, hnone⟩⟩
    · exact fun h => h.elim (fun h => absurd h hhigher) fun h => h.2.1

theorem isRegression_self (t : Task) : isRegression t t = false :=
  isRegression_eq_false_iff.mpr (.refl t)

/-- With an agent exactly from `assigned` on, the rule is the order of the progress. -/
theorem supersedes_iff_progress_le {new cur : Task} (hnew : new.AgentFromAssigned)
    (hcur : cur.AgentFromAssigned) :
    supersedes new cur = true ↔ cur.progress ≤ new.progress := by
  rw [supersedes, Bool.not_eq_true', isRegression_eq_false_iff, Task.progress_le_iff]
  refine or_congr_right (and_congr_right fun _ => and_iff_left_of_imp fun hstatus hagent => ?_)
  exact hnew.mp ((hcur.mpr hagent).trans hstatus)

namespace TopicCaches

/-! ### One task over a run -/

/-- The call neither meets the full cache nor takes the task `id` away. -/
def Undisturbed (id : String) (c : TopicCaches) : Call → Prop
  | .task _ s => c.readTask s.taskId ≠ none ∨ c.tasks.keys.length < maxTasksInCache
  | .keyed _ _ => True
  | .listed _ _ => True
  | .evict nowNs maxAgeNs => id ∉ c.terminalIds nowNs maxAgeNs
  | .clear => False

/-- The sample of the task that the call delivers. -/
def deliveredBy (id : String) : Call → Option Task
  | .task _ s => if s.taskId = id then some s else none
  | _ => none

def delivered (id : String) (calls : List Call) : List Task := calls.filterMap (deliveredBy id)

variable {c : TopicCaches} {id : String} {calls : List Call}

/-- With room, a task is settled under its id, and the other tasks stay. -/
theorem readTask_upsertTask {nowNs : UInt64} {s : Task} (h : c.Undisturbed id (.task nowNs s)) :
    (c.upsertTask nowNs s).2.readTask id =
      if s.taskId = id then some (Capped.winner supersedes (c.readTask id) s)
      else c.readTask id := by
  have hroomFor : c.roomFor nowNs s = c :=
    if_neg fun hpressed => h.elim (fun hheld => hheld hpressed.1) (not_lt.mpr hpressed.2)
  have houtcome := upsertTask_outcome c nowNs s
  generalize c.upsertTask nowNs s = r at houtcome
  cases houtcome with
  | rejected hnone hfull =>
      rw [hroomFor] at hfull
      exact absurd h (not_or.mpr ⟨not_not.mpr hnone, not_lt.mpr hfull⟩)
  | kept cur hcur hback =>
      split
      · next hid =>
          rw [← hid]
          show c.tasks.lookup s.taskId = some (Capped.winner supersedes (c.tasks.lookup s.taskId) s)
          rw [hcur, Capped.winner_some, if_neg (by simp [supersedes, hback])]
      · rfl
  | stored hahead =>
      rw [hroomFor]
      show (c.tasks.insert s.taskId s).lookup id = _
      rw [Map.lookup_insert_if]
      split
      · next hid =>
          rw [if_pos hid.symm, hid]
          show some s = some (Capped.winner supersedes (c.tasks.lookup s.taskId) s)
          cases hcur : c.tasks.lookup s.taskId with
          | none => rfl
          | some cur => rw [Capped.winner_some, if_pos (by simp [supersedes, hahead cur hcur])]
      · next hid =>
          rw [if_neg (Ne.symm hid)]
          rfl

theorem readTask_step (call : Call) (h : c.Undisturbed id call) :
    (c.step call).readTask id =
      Capped.settle supersedes (c.readTask id) (deliveredBy id call).toList := by
  cases call with
  | task nowNs s =>
      rw [step, readTask_upsertTask h, deliveredBy]
      split
      · rfl
      · rfl
  | keyed t s =>
      show (upsert t s c).2.tasks.lookup id = c.tasks.lookup id
      rw [upsert_eq]
      unfold upsertKeyed
      split
      · rw [tasks_hold]
      · rfl
  | listed t s =>
      show (push t s c).2.tasks.lookup id = c.tasks.lookup id
      rw [push_eq]
      unfold pushListed
      split
      · rw [tasks_enlist]
      · rfl
  | evict nowNs maxAgeNs => exact lookup_tasks_evict id |>.trans (if_neg h)
  | clear => exact h.elim

/-- What is held of the task is settled from the samples that were delivered. -/
theorem readTask_run (h : Along step (Undisturbed id) c calls) :
    (c.run calls).readTask id = Capped.settle supersedes (c.readTask id) (delivered id calls) := by
  induction calls generalizing c with
  | nil => rfl
  | cons call calls ih =>
      have hrest := ih h.2
      rw [readTask_step call h.1] at hrest
      show ((c.step call).run calls).readTask id = _
      rw [hrest]
      unfold delivered
      rw [List.filterMap_cons]
      cases deliveredBy id call with
      | none => rfl
      | some s => rfl

/-! ### Advance and convergence -/

/-- What is held stays or advances. -/
theorem run_advances (h : Along step (Undisturbed id) c calls) {cur : Task}
    (hcur : c.readTask id = some cur) :
    ∃ last, (c.run calls).readTask id = some last ∧ cur.Advances last := by
  rw [readTask_run h, hcur]
  refine Capped.settle_follows Task.Advances.refl (fun _ _ _ h h' => h.trans h')
    (fun new cur hwins => ?_) cur _
  rw [supersedes, Bool.not_eq_true'] at hwins
  exact isRegression_eq_false_iff.mp hwins

/-- Where an agent goes with the status, the farthest sample is held in the end. -/
theorem run_farthest (h : Along step (Undisturbed id) new calls)
    (hagent : ∀ s ∈ delivered id calls, s.AgentFromAssigned) (hne : delivered id calls ≠ []) :
    ∃ last ∈ delivered id calls, (new.run calls).readTask id = some last ∧
      ∀ s ∈ delivered id calls, s.progress ≤ last.progress := by
  rw [readTask_run h]
  exact Capped.settle_highest Task.progress
    (fun _ hnew _ hcur => supersedes_iff_progress_le (hagent _ hnew) (hagent _ hcur)) hne

/-- Between two points of the run the task advances. -/
structure OnlyAdvances (id : String) (c d : TopicCaches) : Prop where
  progress : ∀ cur, c.readTask id = some cur →
    ∃ last, d.readTask id = some last ∧ cur.progress ≤ last.progress
  agent : ∀ cur last, c.readTask id = some cur → d.readTask id = some last →
    last.retryCount = cur.retryCount → cur.assignedAgent ≠ "" → last.assignedAgent ≠ ""

/-- The progress of the task is the highest that was delivered, and none if nothing was. -/
structure HoldsFarthest (id : String) (calls : List Call) : Prop where
  none : delivered id calls = [] → (new.run calls).readTask id = none
  some : ∀ s ∈ delivered id calls, ∃ last ∈ delivered id calls,
    (new.run calls).readTask id = some last ∧ s.progress ≤ last.progress

/-- What is held of a task never goes back. If its samples have an agent exactly from
`assigned` on, it ends at the highest progress that was delivered, and so at the same one
after any other run that delivers the same samples, in any order and any number of times. -/
theorem task_cache_converges (id : String) (calls : List Call)
    (h : Along step (Undisturbed id) new calls) :
    (∀ before between after, calls = before ++ between ++ after →
      OnlyAdvances id (new.run before) (new.run (before ++ between))) ∧
    ((∀ s ∈ delivered id calls, s.AgentFromAssigned) →
      HoldsFarthest id calls ∧
      ∀ calls', Along step (Undisturbed id) new calls' →
        (∀ s, s ∈ delivered id calls' ↔ s ∈ delivered id calls) →
        ((new.run calls').readTask id).map Task.progress =
          ((new.run calls).readTask id).map Task.progress) := by
  refine ⟨?_, fun hagent => ⟨⟨fun hnone => ?_, fun s hs => ?_⟩, fun calls' h' hsame => ?_⟩⟩
  · rintro before between after rfl
    rw [Machine.along_append, Machine.along_append] at h
    have hbetween : Along step (Undisturbed id) (new.run before) between := h.1.2
    have hrun : new.run (before ++ between) = (new.run before).run between := List.foldl_append
    rw [hrun]
    refine ⟨fun cur hcur => ?_, fun cur last hcur hlast hretry hheld => ?_⟩
    · obtain ⟨last, hlast, hadvances⟩ := run_advances hbetween hcur
      exact ⟨last, hlast, hadvances.progress_le⟩
    · obtain ⟨last', hlast', hadvances⟩ := run_advances hbetween hcur
      rw [hlast, Option.some.injEq] at hlast'
      subst hlast'
      exact hadvances.keeps_agent hretry hheld
  · rw [readTask_run h, hnone]
    rfl
  · obtain ⟨last, hmem, hlast, hmax⟩ := run_farthest h hagent (List.ne_nil_of_mem hs)
    exact ⟨last, hmem, hlast, hmax s hs⟩
  · have hagent' : ∀ s ∈ delivered id calls', s.AgentFromAssigned :=
      fun s hs => hagent s ((hsame s).mp hs)
    by_cases hne : delivered id calls = []
    · have hne' : delivered id calls' = [] := by
        rw [List.eq_nil_iff_forall_not_mem]
        intro s hs
        have hmem := (hsame s).mp hs
        rw [hne] at hmem
        cases hmem
      rw [readTask_run h, readTask_run h', hne, hne']
    · have hne' : delivered id calls' ≠ [] := by
        obtain ⟨s, hs⟩ := List.exists_mem_of_ne_nil _ hne
        exact List.ne_nil_of_mem ((hsame s).mpr hs)
      obtain ⟨last, hmem, hlast, hmax⟩ := run_farthest h hagent hne
      obtain ⟨last', hmem', hlast', hmax'⟩ := run_farthest h' hagent' hne'
      rw [hlast, hlast']
      refine congrArg some (le_antisymm ?_ ?_)
      · exact hmax last' ((hsame last').mp hmem')
      · exact hmax' last ((hsame last).mpr hmem)

/-- A sample of the task `task`. -/
def taskAt (status : Int) (assignedAgent : String) (retryCount : UInt32) (completedAtNs : UInt64) :
    Task where
  taskId := "task"
  clientId := "client"
  assignedAgent := assignedAgent
  targetAgent := ""
  modelRequired := 0
  modelName := "qwen"
  messagesJson := "[]"
  temperature := 0
  maxTokens := 8
  stream := false
  status := status
  priority := 5
  createdAtNs := 1
  assignedAtNs := 0
  startedAtNs := 0
  completedAtNs := completedAtNs
  deadlineNs := 0
  retryCount := retryCount
  finishReason := ""
  tSerializationNs := 0
  tTransportSendNs := 0
  tAgentQueueNs := 0
  tInferenceNs := 0
  tTransportReturnNs := 0
  tDeserializationNs := 0

/-- The task is assigned, and assigned again after a retry that comes late. -/
def lateRetry : List Call :=
  [.task 0 (taskAt 1 "a" 0 0), .task 0 (taskAt 1 "b" 1 0), .task 0 (taskAt 0 "" 1 0),
    .task 0 (taskAt 1 "b" 1 0)]

theorem lateRetry_converges : HoldsFarthest "task" lateRetry ∧
    OnlyAdvances "task" (new.run (lateRetry.take 1)) (new.run (lateRetry.take 1 ++
      (lateRetry.drop 1).take 2)) := by
  have h := task_cache_converges "task" lateRetry
    ⟨.inr (by decide), .inr (by decide), .inr (by decide), .inr (by decide), trivial⟩
  exact ⟨(h.2 (by decide)).1, h.1 _ _ (lateRetry.drop 3) rfl⟩

end TopicCaches

end DdsOrchestrator.Dataspace
