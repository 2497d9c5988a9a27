import DdsOrchestrator.Lib.Loop
import DdsOrchestrator.Lib.Machine
import DdsOrchestrator.Agent.Claim

/-!
The state machine of a task. Each call asks for one transition of the status and fills in
what goes with it; where the transition is not there the task stays untouched. A task that
is assigned again starts anew, so that any agent can take it, until its retries are used up.
-/

namespace DdsOrchestrator.Orchestrator

open Dataspace (Task)
open Loop (andThen)
open Agent (ClaimConfig isEligibleWith specializationMatches maxClaimAgeNs)

inductive TaskStatus where
  | pending
  | assigned
  | running
  | done
  | failed
  deriving DecidableEq

inductive TransitionError where
  | invalid (origin target : TaskStatus)
  | unknownStatus (value : Int)
  deriving DecidableEq

namespace TaskStatus

def isTerminal : TaskStatus → Bool
  | done | failed => true
  | _ => false

def toI32 : TaskStatus → Int
  | pending => 0
  | assigned => 1
  | running => 2
  | done => 3
  | failed => 4

def ofI32 : Int → Except TransitionError TaskStatus
  | 0 => .ok pending
  | 1 => .ok assigned
  | 2 => .ok running
  | 3 => .ok done
  | 4 => .ok failed
  | value => .error (.unknownStatus value)

@[simp] theorem ofI32_toI32 (s : TaskStatus) : ofI32 s.toI32 = .ok s := by
  cases s <;> rfl

end TaskStatus

def canTransition : TaskStatus → TaskStatus → Bool
  | .pending, .assigned => true
  | .assigned, .running => true
  | .assigned, .pending => true
  | .assigned, .failed => true
  | .running, .done => true
  | .running, .failed => true
  | .running, .pending => true
  | _, _ => false

def transition (target : TaskStatus) (task : Task) : Except TransitionError Unit × Task :=
  match TaskStatus.ofI32 task.status with
  | .error e => (.error e, task)
  | .ok origin =>
      if canTransition origin target then (.ok (), { task with status := target.toI32 })
      else (.error (.invalid origin target), task)

def assign (agentId : String) (nowNs : UInt64) (task : Task) :
    Except TransitionError Unit × Task :=
  andThen (transition .assigned task) fun _ task =>
    (.ok (), { task with assignedAgent := agentId, assignedAtNs := nowNs })

def startRunning (nowNs : UInt64) (task : Task) : Except TransitionError Unit × Task :=
  andThen (transition .running task) fun _ task => (.ok (), { task with startedAtNs := nowNs })

def complete (nowNs : UInt64) (task : Task) : Except TransitionError Unit × Task :=
  andThen (transition .done task) fun _ task =>
    (.ok (), { task with completedAtNs := nowNs, finishReason := "COMPLETION" })

def fail (reason : String) (nowNs : UInt64) (task : Task) : Except TransitionError Unit × Task :=
  andThen (transition .failed task) fun _ task =>
    (.ok (), { task with completedAtNs := nowNs, finishReason := reason })

/-- One more retry, for anyone, and from now on. -/
def reborn (nowNs : UInt64) (task : Task) : Task :=
  { task with
    retryCount := task.retryCount + 1
    assignedAgent := ""
    targetAgent := ""
    assignedAtNs := 0
    startedAtNs := 0
    createdAtNs := nowNs }

/-- Whether the task is pending again; at the limit of its retries it fails instead. -/
def reassign (maxRetries : UInt32) (nowNs : UInt64) (task : Task) :
    Except TransitionError Bool × Task :=
  if maxRetries ≤ task.retryCount then
    andThen (fail "MAX_RETRIES_EXCEEDED" nowNs task) fun _ task => (.ok false, task)
  else
    andThen (transition .pending task) fun _ task => (.ok true, reborn nowNs task)

/-! ### Calls -/

inductive Op where
  | assign (agentId : String) (nowNs : UInt64)
  | startRunning (nowNs : UInt64)
  | complete (nowNs : UInt64)
  | fail (reason : String) (nowNs : UInt64)
  | reassign (maxRetries : UInt32) (nowNs : UInt64)
  deriving DecidableEq

/-- What the call returns, without the flag of `reassign`, and the task after it. -/
def Op.call : Op → Task → Except TransitionError Unit × Task
  | .assign agentId nowNs, task => Orchestrator.assign agentId nowNs task
  | .startRunning nowNs, task => Orchestrator.startRunning nowNs task
  | .complete nowNs, task => Orchestrator.complete nowNs task
  | .fail reason nowNs, task => Orchestrator.fail reason nowNs task
  | .reassign maxRetries nowNs, task =>
      andThen (Orchestrator.reassign maxRetries nowNs task) fun _ task => (.ok (), task)

def step (task : Task) (op : Op) : Task := (op.call task).2

def run (task : Task) (ops : List Op) : Task := ops.foldl step task

/-- The status goes along an edge of the machine. -/
def Edge (task task' : Task) : Prop :=
  ∃ origin target, TaskStatus.ofI32 task.status = .ok origin ∧ task'.status = target.toI32 ∧
    canTransition origin target = true

/-- The ways in which a transition to `target` ends, where `f` fills in the rest. -/
inductive Moved (target : TaskStatus) (f : Task → Task) (task : Task) :
    Except TransitionError Unit × Task → Prop
  | refused (e : TransitionError) : Moved target f task (.error e, task)
  | done (origin : TaskStatus) (horigin : TaskStatus.ofI32 task.status = .ok origin)
      (hedge : canTransition origin target = true) :
      Moved target f task (.ok (), f { task with status := target.toI32 })

variable {target : TaskStatus} {f : Task → Task} {task : Task}

theorem moved_transition (target : TaskStatus) (f : Task → Task) (task : Task) :
    Moved target f task (andThen (transition target task) fun _ task => (.ok (), f task)) := by
  unfold transition
  cases horigin : TaskStatus.ofI32 task.status with
  | error e => exact .refused e
  | ok origin =>
      dsimp only
      split
      · next hedge => exact .done origin horigin hedge
      · exact .refused _

theorem not_terminal_of_edge {origin target : TaskStatus} (h : canTransition origin target = true) :
    origin.isTerminal = false := by
  cases origin with
  | pending | assigned | running => rfl
  | done | failed => cases target <;> cases h

/-- A call is a transition and what it fills in: never the status, and the retry count only
where it assigns again. -/
structure Transits (op : Op) (task : Task) (target : TaskStatus) (f : Task → Task) : Prop where
  moved : Moved target f task (op.call task)
  status : ∀ t, (f t).status = t.status
  retryCount : (∀ t, (f t).retryCount = t.retryCount) ∨ ∃ maxRetries nowNs,
    op = .reassign maxRetries nowNs ∧ task.retryCount < maxRetries ∧
      ∀ t, (f t).retryCount = t.retryCount + 1

/-- Without its flag `reassign` is the call it makes. -/
theorem andThen_flag (b : Bool) (r : Except TransitionError Unit × Task) :
    andThen (andThen r fun _ t => (.ok b, t)) (fun _ t => (.ok (), t)) = r := by
  obtain ⟨_ | _, t⟩ := r
  · rfl
  · rfl

theorem call_transits (op : Op) (task : Task) : ∃ target f, Transits op task target f := by
  cases op with
  | assign agentId nowNs =>
      exact ⟨_, _, moved_transition _ _ _, fun _ => rfl, .inl fun _ => rfl⟩
  | startRunning nowNs =>
      exact ⟨_, _, moved_transition _ _ _, fun _ => rfl, .inl fun _ => rfl⟩
  | complete nowNs =>
      exact ⟨_, _, moved_transition _ _ _, fun _ => rfl, .inl fun _ => rfl⟩
  | fail reason nowNs =>
      exact ⟨_, _, moved_transition _ _ _, fun _ => rfl, .inl fun _ => rfl⟩
  | reassign maxRetries nowNs =>
      have hcall : (Op.reassign maxRetries nowNs).call task =
          andThen (reassign maxRetries nowNs task) fun _ t => (.ok (), t) := rfl
      by_cases hfull : maxRetries ≤ task.retryCount
      · refine ⟨.failed, fun t => { t with
          completedAtNs := nowNs, finishReason := "MAX_RETRIES_EXCEEDED" }, ?_, fun _ => rfl,
          .inl fun _ => rfl⟩
        rw [hcall, reassign, if_pos hfull, andThen_flag]
        exact moved_transition _ _ _
      · refine ⟨.pending, reborn nowNs, ?_, fun _ => rfl,
          .inr ⟨maxRetries, nowNs, rfl, UInt32.not_le.mp hfull, fun _ => rfl⟩⟩
        rw [hcall, reassign, if_neg hfull]
        have hmoved := moved_transition .pending (reborn nowNs) task
        generalize transition .pending task = r at hmoved ⊢
        obtain ⟨_ | _, t⟩ := r
        · exact hmoved
        · exact hmoved

/-! ### What every call obeys -/

/-- A task that any agent can take. -/
structure Reborn (task : Task) (nowNs : UInt64) : Prop where
  status : task.status = TaskStatus.pending.toI32
  assignedAgent : task.assignedAgent = ""
  targetAgent : task.targetAgent = ""
  assignedAtNs : task.assignedAtNs = 0
  startedAtNs : task.startedAtNs = 0
  eligible : ∀ (config : ClaimConfig) (isClaimed : String → Bool) (laterNs : UInt64),
    specializationMatches config.specialization task.modelRequired = true →
    isClaimed task.taskId = false → laterNs.toNat ≤ nowNs.toNat + maxClaimAgeNs →
    isEligibleWith laterNs task config isClaimed = true

structure Lawful (op : Op) (task : Task) : Prop where
  edge : (step task op).status ≠ task.status → Edge task (step task op)
  terminal : ∀ s, TaskStatus.ofI32 task.status = .ok s → s.isTerminal = true → step task op = task
  error : ∀ e, (op.call task).1 = .error e → step task op = task
  retry : (step task op).retryCount ≠ task.retryCount → ∃ maxRetries nowNs,
    op = .reassign maxRetries nowNs ∧ task.retryCount < maxRetries ∧
      (step task op).retryCount.toNat = task.retryCount.toNat + 1
  requeued : ∀ maxRetries nowNs, (reassign maxRetries nowNs task).1 = .ok true →
    Reborn (reassign maxRetries nowNs task).2 nowNs
  exhausted : ∀ maxRetries nowNs, (reassign maxRetries nowNs task).1 = .ok false →
    (reassign maxRetries nowNs task).2.status = TaskStatus.failed.toI32

theorem retryCount_succ {n m : UInt32} (h : n < m) : (n + 1).toNat = n.toNat + 1 := by
  have hn := UInt32.lt_iff_toNat_lt.mp h
  have hm := m.toNat_lt
  rw [UInt32.toNat_add]
  exact Nat.mod_eq_of_lt (by simp; omega)

theorem reborn_reassign {maxRetries : UInt32} {nowNs : UInt64}
    (h : (reassign maxRetries nowNs task).1 = .ok true) :
    Reborn (reassign maxRetries nowNs task).2 nowNs := by
  unfold reassign at h ⊢
  split at h
  · obtain ⟨_, _, heq⟩ := Loop.andThen_eq_ok h
    rw [heq] at h
    cases h
  · next hbelow =>
      rw [if_neg hbelow]
      obtain ⟨u, hu, heq⟩ := Loop.andThen_eq_ok h
      rw [heq]
      have hstatus : (transition .pending task).2.status = TaskStatus.pending.toI32 := by
        unfold transition at hu ⊢
        cases horigin : TaskStatus.ofI32 task.status with
        | error e =>
            rw [horigin] at hu
            cases hu
        | ok origin =>
            rw [horigin] at hu
            dsimp only at hu ⊢
            split at hu
            · next hedge => rw [if_pos hedge]
            · cases hu
      refine ⟨hstatus, rfl, rfl, rfl, rfl, fun config isClaimed laterNs hkind hclaimed hlater => ?_⟩
      refine Agent.isEligibleWith_iff.mpr ⟨hclaimed, hstatus, fun _ => ?_, hkind, ?_⟩
      · show laterNs.toNat - nowNs.toNat ≤ maxClaimAgeNs
        omega
      · exact fun _ hset => absurd rfl hset

theorem failed_reassign {maxRetries : UInt32} {nowNs : UInt64}
    (h : (reassign maxRetries nowNs task).1 = .ok false) :
    (reassign maxRetries nowNs task).2.status = TaskStatus.failed.toI32 := by
  unfold reassign at h ⊢
  split at h
  · next hfull =>
      rw [if_pos hfull]
      obtain ⟨u, hu, heq⟩ := Loop.andThen_eq_ok h
      rw [heq]
      have hmoved : Moved .failed _ task (fail "MAX_RETRIES_EXCEEDED" nowNs task) :=
        moved_transition _ _ _
      generalize fail "MAX_RETRIES_EXCEEDED" nowNs task = r at hmoved hu
      cases hmoved with
      | refused e => cases hu
      | done => rfl
  · obtain ⟨_, _, heq⟩ := Loop.andThen_eq_ok h
    rw [heq] at h
    cases h

theorem lawful (op : Op) (task : Task) : Lawful op task := by
  obtain ⟨target, f, hmoved, hstatus, hretry⟩ := call_transits op task
  refine ⟨?_, ?_, ?_, ?_, fun _ _ => reborn_reassign, fun _ _ => failed_reassign⟩
  · intro hne
    unfold step at hne ⊢
    generalize op.call task = r at hmoved hne
    cases hmoved with
    | refused e => exact absurd rfl hne
    | done origin horigin hedge => exact ⟨origin, target, horigin, hstatus _, hedge⟩
  · intro s hs hterminal
    unfold step
    generalize op.call task = r at hmoved
    cases hmoved with
    | refused e => rfl
    | done origin horigin hedge =>
        rw [hs, Except.ok.injEq] at horigin
        rw [horigin, not_terminal_of_edge hedge] at hterminal
        cases hterminal
  · intro e he
    unfold step
    generalize op.call task = r at hmoved he
    cases hmoved with
    | refused e' => rfl
    | done => cases he
  · intro hne
    unfold step at hne ⊢
    generalize op.call task = r at hmoved hne
    cases hmoved with
    | refused e => exact absurd rfl hne
    | done origin horigin hedge =>
        rcases hretry with hsame | ⟨maxRetries, nowNs, rfl, hbelow, hnext⟩
        · exact absurd (hsame _) hne
        · refine ⟨maxRetries, nowNs, rfl, hbelow, ?_⟩
          show (f _).retryCount.toNat = _
          rw [hnext]
          exact retryCount_succ hbelow

/-! ### Runs -/

/-- No limit that the calls pass is exceeded, unless it was at first. -/
theorem run_retryCount_le {bound : UInt32} (ops : List Op) (htask : task.retryCount ≤ bound)
    (hops : ∀ maxRetries nowNs, .reassign maxRetries nowNs ∈ ops → maxRetries ≤ bound) :
    (run task ops).retryCount ≤ bound := by
  induction ops generalizing task with
  | nil => exact htask
  | cons op ops ih =>
      refine ih ?_ fun maxRetries nowNs h => hops maxRetries nowNs (List.mem_cons_of_mem _ h)
      by_cases hsame : (step task op).retryCount = task.retryCount
      · rw [hsame]
        exact htask
      · obtain ⟨maxRetries, nowNs, rfl, hbelow, hnext⟩ := (lawful op task).retry hsame
        have hmax := UInt32.le_iff_toNat_le.mp (hops maxRetries nowNs (List.mem_cons_self ..))
        have hlt := UInt32.lt_iff_toNat_lt.mp hbelow
        apply UInt32.le_iff_toNat_le.mpr
        omega

/-- Nothing changes a task that has ended. -/
theorem run_of_terminal {s : TaskStatus} (ops : List Op) (hs : TaskStatus.ofI32 task.status = .ok s)
    (hterminal : s.isTerminal = true) : run task ops = task := by
  induction ops with
  | nil => rfl
  | cons op ops ih =>
      show run (step task op) ops = task
      rw [(lawful op task).terminal s hs hterminal]
      exact ih

/-- In every run each call obeys the state machine, a task that has ended stays as it is,
and the retries stay within the limits. -/
theorem task_state_machine (task : Task) (ops : List Op) :
    (∀ before op after, ops = before ++ op :: after → Lawful op (run task before)) ∧
      (∀ before after s, ops = before ++ after →
        TaskStatus.ofI32 (run task before).status = .ok s → s.isTerminal = true →
        run task ops = run task before) ∧
      ∀ bound : UInt32, task.retryCount ≤ bound →
        (∀ maxRetries nowNs, .reassign maxRetries nowNs ∈ ops → maxRetries ≤ bound) →
        (run task ops).retryCount ≤ bound := by
  refine ⟨fun before op after _ => lawful op _, ?_, fun bound => run_retryCount_le ops⟩
  rintro before after s rfl hs hterminal
  have hrun : run task (before ++ after) = run (run task before) after := List.foldl_append
  rw [hrun]
  exact run_of_terminal after hs hterminal

end DdsOrchestrator.Orchestrator
