import DdsOrchestrator.Lib.Machine
import DdsOrchestrator.Dataspace.TaskCache
import DdsOrchestrator.Orchestrator.Dds

/-!
The monitor of the deadlines. Every call goes through the tasks of the cache and reports
those whose deadline has passed. The ids it has reported are remembered, so that none is
reported again, and when there are too many of them some are forgotten.

A task that is found remembered is passed over before its status is looked at. So the
branch that forgets the tasks that have ended never finds one to forget: a remembered task
that has ended stays remembered until there are too many. And the time a task has taken is
computed without regard for clocks that are ahead of this one.
-/

namespace DdsOrchestrator.Orchestrator

open Dataspace (Task)

def reportedDeadlinesMax : Nat := 10000

/-- What a call finds: the tasks of the cache, the clock, and the orders in which the hash
maps give out their elements. -/
structure Poll where
  tasks : Map String Task
  now : UInt64
  taskOrder : Iteration Task
  idOrder : Iteration String

/-- A violation of the type `requested_deadline_missed`. -/
structure DeadlineMissed where
  taskId : String
  overdueNs : UInt64
  elapsedNs : UInt64
  deriving DecidableEq

/-- The ids that are remembered, and what has been published. -/
structure DeadlineMonitor where
  reportedDeadlines : List String
  violations : List DeadlineMissed
  deriving DecidableEq

/-- The task has ended. -/
def ended (t : Task) : Bool := t.status = 3 ∨ t.status = 4

namespace Poll

def allTasks (p : Poll) : List Task := p.taskOrder.order (p.tasks.entries.map Sigma.snd)

def readTask (p : Poll) (id : String) : Option Task := p.tasks.lookup id

/-- The ids of which the tasks have ended or are gone are forgotten, and if these are not
enough half of the rest. -/
def evict (p : Poll) (ids : List String) : List String :=
  let terminal := (p.idOrder.order ids).filter fun id => (p.readTask id).all ended
  let ids := ids.filter fun id => id ∉ terminal
  if reportedDeadlinesMax < ids.length then
    let keys := (p.idOrder.order ids).take (ids.length / 2)
    ids.filter fun id => id ∉ keys
  else ids

def remember (p : Poll) (id : String) (ids : List String) : List String :=
  let ids := ids ++ [id]
  if reportedDeadlinesMax < ids.length then p.evict ids else ids

end Poll

namespace DeadlineMonitor

def new : DeadlineMonitor := ⟨[], []⟩

/-- What a call does with one task, and whether it reports it. -/
def visit (p : Poll) (t : Task) (m : DeadlineMonitor) : Bool × DeadlineMonitor :=
  if t.taskId = "" ∨ t.taskId ∈ m.reportedDeadlines then (false, m)
  else if ended t then
    (false, { m with reportedDeadlines := m.reportedDeadlines.erase t.taskId })
  else if t.createdAtNs = 0 ∨ t.deadlineNs = 0 then (false, m)
  else if t.deadlineNs < p.now then
    let overdueNs := p.now - t.deadlineNs
    -- wraps where the task was created ahead of this clock
    let elapsedNs := p.now - t.createdAtNs
    (true, {
      reportedDeadlines := p.remember t.taskId m.reportedDeadlines
      violations := m.violations ++ [⟨t.taskId, overdueNs, elapsedNs⟩] })
  else (false, m)

def checkTaskDeadlines (p : Poll) (m : DeadlineMonitor) : Nat × DeadlineMonitor :=
  p.allTasks.foldl (fun acc t =>
    let visited := visit p t acc.2
    (acc.1 + visited.1.toNat, visited.2)) (0, m)

/-- The monitor after a sequence of calls. -/
def run (m : DeadlineMonitor) (polls : List Poll) : DeadlineMonitor :=
  polls.foldl (fun m p => (checkTaskDeadlines p m).2) m

/-! ### A run, task by task -/

/-- The tasks in the order in which the calls come to them. -/
def turns (polls : List Poll) : List (Poll × Task) :=
  polls.flatMap fun p => p.allTasks.map (p, ·)

def turn (m : DeadlineMonitor) (i : Poll × Task) : DeadlineMonitor := (visit i.1 i.2 m).2

theorem checkTaskDeadlines_snd (p : Poll) (m : DeadlineMonitor) :
    (checkTaskDeadlines p m).2 = (p.allTasks.map (p, ·)).foldl turn m := by
  have hacc : ∀ (ts : List Task) (acc : Nat × DeadlineMonitor),
      (ts.foldl (fun acc t =>
        let visited := visit p t acc.2
        (acc.1 + visited.1.toNat, visited.2)) acc).2 = (ts.map (p, ·)).foldl turn acc.2 := by
    intro ts
    induction ts with
    | nil => intro acc; rfl
    | cons t ts ih => intro acc; exact ih _
  exact hacc p.allTasks (0, m)

theorem run_eq (m : DeadlineMonitor) (polls : List Poll) :
    m.run polls = (turns polls).foldl turn m := by
  unfold run turns
  induction polls generalizing m with
  | nil => rfl
  | cons p polls ih =>
      rw [List.foldl_cons, List.flatMap_cons, List.foldl_append, ih, checkTaskDeadlines_snd]

/-! ### What is remembered -/

end DeadlineMonitor

namespace Poll

variable {p : Poll} {id : String} {ids : List String}

theorem evict_sublist : (p.evict ids).Sublist ids := by
  unfold evict
  dsimp only
  split
  · exact List.filter_sublist.trans List.filter_sublist
  · exact List.filter_sublist

theorem length_evict_le (hids : ids.Nodup) (hlen : ids.length ≤ reportedDeadlinesMax + 1) :
    (p.evict ids).length ≤ reportedDeadlinesMax := by
  unfold evict
  extract_lets terminal left keys
  have hleft : left.Nodup := hids.filter _
  have hle : left.length ≤ ids.length := List.length_filter_le ..
  split
  · have hperm := p.idOrder.perm left
    -- half of the ids are among the keys
    have hcount : keys.length ≤ (left.filter fun id => id ∈ keys).length := by
      apply List.Subperm.length_le
      refine List.subperm_of_subset ((hperm.nodup_iff.mpr hleft).sublist (List.take_sublist ..)) ?_
      intro k hk
      exact List.mem_filter.mpr ⟨hperm.subset (List.mem_of_mem_take hk), decide_eq_true hk⟩
    have hkeys : keys.length = left.length / 2 := by
      rw [List.length_take, hperm.length_eq]
      omega
    have hsplit := List.length_eq_length_filter_add (l := left) fun id => decide (id ∈ keys)
    have hnot : (left.filter fun id => decide (id ∉ keys)) =
        left.filter fun id => !decide (id ∈ keys) := by
      simp
    rw [hnot]
    unfold reportedDeadlinesMax at *
    omega
  · next hfew => exact not_lt.mp hfew

theorem nodup_remember (hids : ids.Nodup) (hid : id ∉ ids) : (p.remember id ids).Nodup := by
  have hnew : (ids ++ [id]).Nodup :=
    List.nodup_append.mpr ⟨hids, List.nodup_singleton id, fun a ha b hb hab =>
      hid (List.mem_singleton.mp hb ▸ hab ▸ ha)⟩
  unfold remember
  dsimp only
  split
  · exact hnew.sublist evict_sublist
  · exact hnew

theorem length_remember_le (hids : ids.Nodup) (hid : id ∉ ids)
    (hlen : ids.length ≤ reportedDeadlinesMax) :
    (p.remember id ids).length ≤ reportedDeadlinesMax := by
  unfold remember
  dsimp only
  split
  · refine length_evict_le ?_ (by simpa using hlen)
    exact List.nodup_append.mpr ⟨hids, List.nodup_singleton id, fun a ha b hb hab =>
      hid (List.mem_singleton.mp hb ▸ hab ▸ ha)⟩
  · next hfew => exact not_lt.mp hfew

theorem remember_eq (hroom : ids.length < reportedDeadlinesMax) :
    p.remember id ids = ids ++ [id] := by
  unfold remember
  rw [if_neg]
  rw [List.length_append, List.length_singleton]
  omega

end Poll

namespace DeadlineMonitor

/-- The task has not ended, has both times and is past its deadline. A task without an id
is none. -/
structure Due (now : UInt64) (t : Task) : Prop where
  id : t.taskId ≠ ""
  active : ended t = false
  created : t.createdAtNs ≠ 0
  deadline : t.deadlineNs ≠ 0
  past : t.deadlineNs < now

variable {p : Poll} {t : Task} {m : DeadlineMonitor} {polls : List Poll}

/-- A turn reports a due task that is not remembered, or does nothing: no turn forgets a
task because it has ended. -/
theorem turn_cases (m : DeadlineMonitor) (p : Poll) (t : Task) :
    (Due p.now t ∧ t.taskId ∉ m.reportedDeadlines ∧
      turn m (p, t) = ⟨p.remember t.taskId m.reportedDeadlines,
        m.violations ++ [⟨t.taskId, p.now - t.deadlineNs, p.now - t.createdAtNs⟩]⟩) ∨
    (¬ (Due p.now t ∧ t.taskId ∉ m.reportedDeadlines) ∧ turn m (p, t) = m) := by
  unfold turn visit
  dsimp only
  split_ifs with hskip hended hzero hpast
  · exact .inr ⟨fun h => hskip.elim h.1.id h.2, rfl⟩
  · refine .inr ⟨fun h => ?_, ?_⟩
    · exact Bool.false_ne_true (h.1.active.symm.trans hended)
    · rw [List.erase_of_not_mem fun h => hskip (.inr h)]
  · exact .inr ⟨fun h => hzero.elim h.1.created h.1.deadline, rfl⟩
  · obtain ⟨hid, hnew⟩ := not_or.mp hskip
    obtain ⟨hcreated, hdeadline⟩ := not_or.mp hzero
    exact .inl ⟨⟨hid, Bool.eq_false_of_not_eq_true hended, hcreated, hdeadline, hpast⟩, hnew, rfl⟩
  · exact .inr ⟨fun h => hpast h.1.past, rfl⟩

/-- The ids are distinct and not too many. -/
structure WellKept (m : DeadlineMonitor) : Prop where
  nodup : m.reportedDeadlines.Nodup
  length_le : m.reportedDeadlines.length ≤ reportedDeadlinesMax

theorem WellKept.turn (h : m.WellKept) (i : Poll × Task) : (turn m i).WellKept := by
  rcases turn_cases m i.1 i.2 with ⟨-, hnew, hturn⟩ | ⟨-, hturn⟩
  · rw [hturn]
    exact ⟨Poll.nodup_remember h.nodup hnew, Poll.length_remember_le h.nodup hnew h.length_le⟩
  · rw [hturn]
    exact h

theorem wellKept_new : new.WellKept := ⟨List.nodup_nil, Nat.zero_le _⟩

theorem wellKept_run (polls : List Poll) : (new.run polls).WellKept := by
  rw [run_eq]
  exact Machine.foldl_invariant _ wellKept_new fun m i h => h.turn i

/-! ### What a turn should do -/

/-- The turn reports the task exactly if it is due and not remembered, with the times in
exact arithmetic, and leaves no more ids than allowed and not that of a task that has
ended. -/
structure Monitors (m : DeadlineMonitor) (i : Poll × Task) : Prop where
  reports : (∃ v, (turn m i).violations = m.violations ++ [v] ∧ v.taskId = i.2.taskId) ↔
    Due i.1.now i.2 ∧ i.2.taskId ∉ m.reportedDeadlines
  others : ¬ (Due i.1.now i.2 ∧ i.2.taskId ∉ m.reportedDeadlines) →
    (turn m i).violations = m.violations
  exact : ∀ v, (turn m i).violations = m.violations ++ [v] →
    v.overdueNs.toNat + i.2.deadlineNs.toNat = i.1.now.toNat ∧
      v.elapsedNs.toNat + i.2.createdAtNs.toNat = i.1.now.toNat
  bounded : (turn m i).reportedDeadlines.length ≤ reportedDeadlinesMax
  forgets : ended i.2 = true → i.2.taskId ∉ (turn m i).reportedDeadlines

/-- The task that is reported was not created ahead of the clock, and one that has ended is
not remembered. -/
structure Clear (m : DeadlineMonitor) (i : Poll × Task) : Prop where
  clock : Due i.1.now i.2 → i.2.taskId ∉ m.reportedDeadlines → i.2.createdAtNs ≤ i.1.now
  ended : ended i.2 = true → i.2.taskId ∉ m.reportedDeadlines

theorem sub_add_toNat_iff {a b : UInt64} : (a - b).toNat + b.toNat = a.toNat ↔ b ≤ a := by
  rw [UInt64.le_iff_toNat_le]
  constructor
  · intro h
    omega
  · intro h
    rw [UInt64.toNat_sub_of_le _ _ (UInt64.le_iff_toNat_le.mpr h)]
    omega

theorem monitors_iff {i : Poll × Task} (hm : m.WellKept) : Monitors m i ↔ Clear m i := by
  have hkept := (hm.turn i).length_le
  rcases turn_cases m i.1 i.2 with ⟨hdue, hnew, hturn⟩ | ⟨hidle, hturn⟩
  · have hactive : ¬ Orchestrator.ended i.2 = true := by
      rw [hdue.active]
      exact Bool.false_ne_true
    have hlast : ∀ v, (turn m i).violations = m.violations ++ [v] ↔
        v = ⟨i.2.taskId, i.1.now - i.2.deadlineNs, i.1.now - i.2.createdAtNs⟩ := by
      intro v
      rw [show turn m i = _ from hturn]
      simp [eq_comm]
    constructor
    · intro h
      refine ⟨fun _ _ => ?_, fun h => absurd h hactive⟩
      exact sub_add_toNat_iff.mp (h.exact _ ((hlast _).mpr rfl)).2
    · intro h
      refine ⟨?_, fun hnot => absurd ⟨hdue, hnew⟩ hnot, ?_, hkept, fun h => absurd h hactive⟩
      · exact iff_of_true ⟨_, (hlast _).mpr rfl, rfl⟩ ⟨hdue, hnew⟩
      · intro v hv
        rw [(hlast v).mp hv]
        exact ⟨sub_add_toNat_iff.mpr (UInt64.le_of_lt hdue.past),
          sub_add_toNat_iff.mpr (h.clock hdue hnew)⟩
  · have hsame : (turn m i).violations = m.violations := by rw [show turn m i = m from hturn]
    have hnone : ∀ v, (turn m i).violations ≠ m.violations ++ [v] := by
      intro v hv
      rw [hsame] at hv
      simpa using congrArg List.length hv
    constructor
    · intro h
      refine ⟨fun hdue hnew => absurd ⟨hdue, hnew⟩ hidle, fun hended => ?_⟩
      have hforgets := h.forgets hended
      rwa [show turn m i = m from hturn] at hforgets
    · intro h
      refine ⟨?_, fun _ => hsame, fun v hv => absurd hv (hnone v), hkept, fun hended => ?_⟩
      · exact iff_of_false (fun ⟨v, hv, _⟩ => hnone v hv) hidle
      · rw [show turn m i = m from hturn]
        exact h.ended hended

/-! ### No task is reported again -/

/-- What is remembered is what has been reported, and these are among the ids. -/
structure Remembers (ids : List String) (m : DeadlineMonitor) : Prop where
  reported : m.reportedDeadlines = m.violations.map DeadlineMissed.taskId
  nodup : m.reportedDeadlines.Nodup
  subset : m.reportedDeadlines ⊆ ids

theorem Remembers.turn {ids : List String} {i : Poll × Task}
    (hlen : ids.length ≤ reportedDeadlinesMax) (h : m.Remembers ids)
    (hi : Due i.1.now i.2 → i.2.taskId ∈ ids) :
    (turn m i).Remembers ids := by
  rcases turn_cases m i.1 i.2 with ⟨hdue, hnew, hturn⟩ | ⟨-, hturn⟩
  · have hnodup : (m.reportedDeadlines ++ [i.2.taskId]).Nodup :=
      List.nodup_append.mpr ⟨h.nodup, List.nodup_singleton _, fun a ha b hb hab =>
        hnew (List.mem_singleton.mp hb ▸ hab ▸ ha)⟩
    have hsub : m.reportedDeadlines ++ [i.2.taskId] ⊆ ids :=
      List.append_subset.mpr ⟨h.subset, by simpa using hi hdue⟩
    have hroom : m.reportedDeadlines.length < reportedDeadlinesMax := by
      have hle := (List.subperm_of_subset hnodup hsub).length_le
      rw [List.length_append, List.length_singleton] at hle
      omega
    rw [show DeadlineMonitor.turn m i = _ from hturn, Poll.remember_eq hroom]
    exact ⟨by simp [h.reported], hnodup, hsub⟩
  · rw [show DeadlineMonitor.turn m i = m from hturn]
    exact h

/-- In every run the turns do what they should exactly if in each of them the clock is not
behind the creation of what is reported and no task that has ended is remembered. There
are never too many ids. And as long as no more tasks are due than may be remembered, what
has been reported is remembered, and nothing is reported again. -/
theorem deadlines_monitored (polls : List Poll) :
    (Machine.Along turn Monitors new (turns polls) ↔
      Machine.Along turn Clear new (turns polls)) ∧
    (new.run polls).reportedDeadlines.length ≤ reportedDeadlinesMax ∧
    ∀ ids : List String, ids.length ≤ reportedDeadlinesMax →
      (∀ i ∈ turns polls, Due i.1.now i.2 → i.2.taskId ∈ ids) →
        Machine.Along turn (fun m _ =>
          m.reportedDeadlines = m.violations.map DeadlineMissed.taskId) new (turns polls) ∧
        ((new.run polls).violations.map DeadlineMissed.taskId).Nodup := by
  refine ⟨⟨fun h => ?_, fun h => ?_⟩, (wellKept_run polls).length_le, fun ids hlen hids => ?_⟩
  · exact h.of_invariant wellKept_new (fun m i hm _ => hm.turn i)
      fun m i hm => (monitors_iff hm).mp
  · exact h.of_invariant wellKept_new (fun m i hm _ => hm.turn i)
      fun m i hm => (monitors_iff hm).mpr
  · have hdue : Machine.Along turn (fun _ i => Due i.1.now i.2 → i.2.taskId ∈ ids) new
        (turns polls) := by
      refine Machine.along_iff_forall.mpr fun before i after hcut => hids i ?_
      rw [hcut]
      exact List.mem_append_right _ (List.mem_cons_self ..)
    have hnew : new.Remembers ids := ⟨rfl, List.nodup_nil, List.nil_subset ids⟩
    refine ⟨hdue.of_invariant hnew (fun m i hm => hm.turn hlen) fun m i hm _ => hm.reported, ?_⟩
    have hend := hdue.invariant hnew fun m i hm => hm.turn hlen
    rw [run_eq, ← hend.reported]
    exact hend.nodup

/-- The task `task` alone in the cache, found as the maps give it out. -/
def pollOf (t : Task) (now : UInt64) : Poll where
  tasks := (∅ : Map String Task).insert t.taskId t
  now := now
  taskOrder := ⟨id, fun l => .refl l⟩
  idOrder := ⟨id, fun l => .refl l⟩

def overdue (createdAtNs : UInt64) : Task :=
  { Dataspace.TopicCaches.taskAt 2 "a" 0 0 with createdAtNs := createdAtNs, deadlineNs := 50 }

/-- The task was created 100 ns ahead of this clock, and the time it has taken wraps. And a
task that is reported and then ends is remembered after any number of further calls. -/
theorem ended_task_stays :
    (new.run [pollOf (overdue 200) 100]).violations =
      [⟨"task", 50, 18446744073709551516⟩] ∧
    ∀ n, "task" ∈ (new.run (pollOf (overdue 1) 100 ::
      List.replicate n (pollOf { overdue 1 with status := 3 } 200))).reportedDeadlines := by
  refine ⟨by decide, fun n => ?_⟩
  have hfirst : (checkTaskDeadlines (pollOf (overdue 1) 100) new).2 =
      ⟨["task"], [⟨"task", 50, 99⟩]⟩ := by decide
  have hagain : (checkTaskDeadlines (pollOf { overdue 1 with status := 3 } 200)
      ⟨["task"], [⟨"task", 50, 99⟩]⟩).2 = ⟨["task"], [⟨"task", 50, 99⟩]⟩ := by decide
  have hrest : run ⟨["task"], [⟨"task", 50, 99⟩]⟩
      (List.replicate n (pollOf { overdue 1 with status := 3 } 200)) =
        ⟨["task"], [⟨"task", 50, 99⟩]⟩ := by
    unfold run
    induction n with
    | zero => rfl
    | succ n ih => rw [List.replicate_succ, List.foldl_cons, hagain, ih]
  rw [run, List.foldl_cons, hfirst, ← run, hrest]
  exact List.mem_singleton_self _

end DeadlineMonitor

end DdsOrchestrator.Orchestrator
