import DdsOrchestrator.Lib.Machine
import DdsOrchestrator.Agent.Claim
import DdsOrchestrator.Agent.Barrier
import DdsOrchestrator.Agent.Convergence

/-!
The tasks an agent puts aside. A task that comes before the plan and the state it belongs to
is kept in a buffer, and a sweeper looks at it again from time to time, until it may be
claimed or has expired.

Of a task that has expired the sweeper sees only that it may not be claimed, and puts it back
as it does any other. So it is the tasks that die in the buffer that take the places in it.
-/

namespace DdsOrchestrator.Agent

open Dataspace (Task)

/-- The task as the barrier sees it. -/
def barrierTask (t : Task) : WorkflowEngine.Task :=
  { taskId := t.taskId, clientId := t.clientId, targetAgent := t.targetAgent
    modelName := t.modelName, messagesJson := t.messagesJson, maxTokens := t.maxTokens
    status := t.status, priority := t.priority, createdAtNs := t.createdAtNs
    deadlineNs := t.deadlineNs }

structure AgentSetting where
  config : ClaimConfig
  /-- The agent that the barrier is for. -/
  barrierAgentId : String

/-- What a check finds outside of the buffer: the claims of the agent, its own entry in the
registry, and the order in which the plans are walked. -/
structure View where
  isClaimed : String → Bool
  registry : Option Wire.AgentState
  order : (snap : AdaptiveSnapshot) → snap.PlanOrder

def check (j : AgentSetting) (snap : AdaptiveSnapshot) (v : View)
    (registry : Option Wire.AgentState) (nowNs : UInt64) (t : Task) : AdaptiveDecision :=
  barrierCheck snap (v.order snap) (barrierTask t) j.barrierAgentId
    (snap.capabilities.get? j.barrierAgentId) registry j.config.targetAgentPrefix nowNs

def claimEligible (j : AgentSetting) (adaptive : Option AdaptiveSnapshot) (v : View)
    (nowNs : UInt64) (t : Task) : Bool :=
  if !isEligibleWith nowNs t j.config v.isClaimed then false
  else
    match adaptive with
    | none => true
    | some snap =>
      match check j snap v v.registry nowNs t with
      | .proceed => true
      | .legacy => true
      | .block _ => false

/-- The barrier is incomplete for the task. -/
def unresolved (j : AgentSetting) (adaptive : Option AdaptiveSnapshot) (v : View)
    (nowNs : UInt64) (t : Task) : Bool :=
  match adaptive with
  | none => false
  | some snap => check j snap v none nowNs t = .block .unresolvedNode

def deferredCapacity : ℕ := 64

/-- The tasks put aside, and those that a sweep has taken out and not looked at yet. -/
structure Deferral where
  nowNs : UInt64
  adaptive : Option AdaptiveSnapshot
  deferred : List Task
  retry : List Task
  queue : List Task

namespace Deferral

inductive Event where
  | clock (nowNs : UInt64)
  | barrier (d : Delivery)
  | ingest (t : Task) (v : View)
  /-- The sweeper takes all. -/
  | sweep
  /-- The sweeper looks at the next one. -/
  | recheck (v : View)

def start (nowNs : UInt64) (adaptive : Option AdaptiveSnapshot) : Deferral :=
  { nowNs, adaptive, deferred := [], retry := [], queue := [] }

def eligible (j : AgentSetting) (s : Deferral) (v : View) (t : Task) : Bool :=
  claimEligible j s.adaptive v s.nowNs t

def enqueue (t : Task) (s : Deferral) : Deferral := { s with queue := s.queue ++ [t] }

def put (t : Task) (s : Deferral) : Deferral :=
  if s.deferred.length < deferredCapacity then { s with deferred := s.deferred ++ [t] } else s

def step (j : AgentSetting) (s : Deferral) : Event → Deferral
  | .clock nowNs => { s with nowNs }
  | .barrier d => { s with adaptive := s.adaptive.map (·.receive d) }
  | .ingest t v =>
    if s.eligible j v t then s.enqueue t
    -- The barrier alone is asked, so also a task that is not pending any more comes in here.
    else if unresolved j s.adaptive v s.nowNs t then s.put t
    else s
  | .sweep =>
    match s.retry with
    | [] => { s with deferred := [], retry := s.deferred }
    | _ => s
  | .recheck v =>
    match s.retry with
    | [] => s
    | t :: rest =>
      if s.eligible j v t then { s with retry := rest }.enqueue t
      -- Whatever has made it ineligible, its age and its deadline included.
      else { s with retry := rest }.put t

abbrev run (j : AgentSetting) (s : Deferral) (events : List Event) : Deferral :=
  events.foldl (step j) s

/-! ### What the buffer is for -/

/-- No agent will claim the task any more. -/
def Dead (nowNs : UInt64) (t : Task) : Prop :=
  t.status ≠ 0 ∨ (0 < t.createdAtNs ∧ maxClaimAgeNs < nowNs.toNat - t.createdAtNs.toNat) ∨
    (0 < t.deadlineNs ∧ t.deadlineNs ≤ nowNs)

instance (nowNs : UInt64) (t : Task) : Decidable (Dead nowNs t) :=
  inferInstanceAs (Decidable (_ ∨ _ ∨ _))

def AllAlive (s : Deferral) : Prop := ∀ t ∈ s.deferred, ¬ Dead s.nowNs t

/-- With this event a sweep has looked at all it has taken out. -/
def EndsSweep (j : AgentSetting) (s : Deferral) (e : Event) : Prop :=
  s.retry ≠ [] ∧ (s.step j e).retry = []

/-- A new task whose barrier is incomplete finds no place. -/
def TurnsAway (j : AgentSetting) (s : Deferral) : Event → Prop
  | .ingest t v => s.eligible j v t = false ∧ unresolved j s.adaptive v s.nowNs t = true ∧
      deferredCapacity ≤ s.deferred.length
  | _ => False

/-- After a sweep nothing dead is left, and a new task is turned away only for as many that
are alive as there are places. -/
def NotStarved (j : AgentSetting) (s : Deferral) (events : List Event) : Prop :=
  ∀ before e after, events = before ++ e :: after →
    (EndsSweep j (run j s before) e → AllAlive ((run j s before).step j e)) ∧
    (TurnsAway j (run j s before) e →
      (run j s before).deferred.length = deferredCapacity ∧ AllAlive (run j s before))

/-- No task is dead when it is put aside or put back, and none dies while it waits. -/
def StaysAlive (j : AgentSetting) (s : Deferral) : Event → Prop
  | .clock nowNs => ∀ t ∈ s.deferred, ¬ Dead nowNs t
  | .barrier _ => True
  | .ingest t v => s.eligible j v t = false → unresolved j s.adaptive v s.nowNs t = true →
      s.deferred.length < deferredCapacity → ¬ Dead s.nowNs t
  | .sweep => True
  | .recheck v => ∀ t rest, s.retry = t :: rest → s.eligible j v t = false →
      s.deferred.length < deferredCapacity → ¬ Dead s.nowNs t

variable {j : AgentSetting} {s : Deferral} {e : Event} {t u : Task} {v : View}

/-! ### What a step does to the buffer -/

@[simp] theorem put_nowNs : (s.put t).nowNs = s.nowNs := by
  unfold put
  split <;> rfl

@[simp] theorem put_adaptive : (s.put t).adaptive = s.adaptive := by
  unfold put
  split <;> rfl

@[simp] theorem put_retry : (s.put t).retry = s.retry := by
  unfold put
  split <;> rfl

theorem put_deferred : (s.put t).deferred =
    if s.deferred.length < deferredCapacity then s.deferred ++ [t] else s.deferred := by
  unfold put
  split <;> rfl

theorem length_put (h : s.deferred.length ≤ deferredCapacity) :
    (s.put t).deferred.length = min deferredCapacity (s.deferred.length + 1) := by
  rw [put_deferred]
  split
  · rw [List.length_append, List.length_singleton]
    omega
  · omega

theorem AllAlive.put (h : AllAlive s)
    (ht : s.deferred.length < deferredCapacity → ¬ Dead s.nowNs t) : AllAlive (s.put t) := by
  intro u hu
  rw [put_deferred] at hu
  rw [put_nowNs]
  split at hu
  · next hspace =>
    rcases List.mem_append.mp hu with hold | hnew
    · exact h u hold
    · rw [List.mem_singleton.mp hnew]
      exact ht hspace
  · exact h u hu

/-- What an arrival can do. -/
theorem step_ingest (j : AgentSetting) (s : Deferral) (t : Task) (v : View) :
    s.step j (.ingest t v) = s.enqueue t ∨
      (s.eligible j v t = false ∧ unresolved j s.adaptive v s.nowNs t = true ∧
        s.step j (.ingest t v) = s.put t) ∨
      s.step j (.ingest t v) = s := by
  rw [step]
  split
  · exact .inl rfl
  · next heligible =>
    split
    · next hunresolved => exact .inr (.inl ⟨by simpa using heligible, hunresolved, rfl⟩)
    · exact .inr (.inr rfl)

/-- What a look at the next task of a sweep can do. -/
theorem step_recheck (j : AgentSetting) (s : Deferral) (v : View) :
    s.step j (.recheck v) = s ∨ ∃ t rest, s.retry = t :: rest ∧
      (s.step j (.recheck v) = { s with retry := rest }.enqueue t ∨
        (s.eligible j v t = false ∧ s.step j (.recheck v) = { s with retry := rest }.put t)) := by
  rw [step]
  split
  · exact .inl rfl
  · next t rest hretry =>
    refine .inr ⟨t, rest, hretry, ?_⟩
    split
    · exact .inl rfl
    · next heligible => exact .inr ⟨by simpa using heligible, rfl⟩

theorem AllAlive.step (h : AllAlive s) (he : StaysAlive j s e) : AllAlive (s.step j e) := by
  cases e with
  | clock nowNs => exact he
  | barrier d => exact h
  | ingest t v =>
    rcases step_ingest j s t v with heq | ⟨heligible, hunresolved, heq⟩ | heq <;> rw [heq]
    · exact h
    · exact h.put (he heligible hunresolved)
    · exact h
  | sweep =>
    rw [Deferral.step]
    split
    · intro t ht
      cases ht
    · exact h
  | recheck v =>
    rcases step_recheck j s v with heq | ⟨t, rest, hretry, heq | ⟨heligible, heq⟩⟩ <;> rw [heq]
    · exact h
    · exact h
    · have hrest : AllAlive { s with retry := rest } := h
      exact hrest.put (he t rest hretry heligible)

/-- The buffer stays within its bound, and only an agent with a barrier puts tasks aside. -/
structure Kept (s : Deferral) : Prop where
  bounded : s.deferred.length ≤ deferredCapacity
  deferred : s.deferred ≠ [] → s.adaptive.isSome
  retry : s.retry ≠ [] → s.adaptive.isSome

theorem kept_start (nowNs : UInt64) (adaptive : Option AdaptiveSnapshot) :
    Kept (start nowNs adaptive) where
  bounded := Nat.zero_le _
  deferred := fun h => absurd rfl h
  retry := fun h => absurd rfl h

theorem Kept.put (h : Kept s) (hadaptive : s.adaptive.isSome) (t : Task) : Kept (s.put t) where
  bounded := by
    rw [length_put h.bounded]
    exact Nat.min_le_left _ _
  deferred := fun _ => by rw [put_adaptive]; exact hadaptive
  retry := fun _ => by rw [put_adaptive]; exact hadaptive

theorem isSome_of_unresolved {adaptive : Option AdaptiveSnapshot} {nowNs : UInt64}
    (h : unresolved j adaptive v nowNs t = true) : adaptive.isSome := by
  cases adaptive with
  | none => cases h
  | some snap => rfl

theorem Kept.step (h : Kept s) (e : Event) : Kept (s.step j e) := by
  cases e with
  | clock nowNs => exact ⟨h.bounded, h.deferred, h.retry⟩
  | barrier d =>
    refine ⟨h.bounded, fun hne => ?_, fun hne => ?_⟩
    · simpa [Deferral.step] using h.deferred hne
    · simpa [Deferral.step] using h.retry hne
  | ingest t v =>
    rcases step_ingest j s t v with heq | ⟨-, hunresolved, heq⟩ | heq <;> rw [heq]
    · exact ⟨h.bounded, h.deferred, h.retry⟩
    · exact h.put (isSome_of_unresolved hunresolved) t
    · exact h
  | sweep =>
    rw [Deferral.step]
    split
    · exact ⟨Nat.zero_le _, fun hne => absurd rfl hne, h.deferred⟩
    · exact h
  | recheck v =>
    rcases step_recheck j s v with heq | ⟨t, rest, hretry, hnext⟩
    · rw [heq]
      exact h
    · have hadaptive : s.adaptive.isSome := h.retry (by simp [hretry])
      have hrest : Kept { s with retry := rest } := ⟨h.bounded, h.deferred, fun _ => hadaptive⟩
      rcases hnext with heq | ⟨-, heq⟩ <;> rw [heq]
      · exact ⟨hrest.bounded, hrest.deferred, hrest.retry⟩
      · exact hrest.put hadaptive t

theorem kept_run (nowNs : UInt64) (adaptive : Option AdaptiveSnapshot) (events : List Event) :
    Kept (run j (start nowNs adaptive) events) :=
  Machine.foldl_invariant events (kept_start nowNs adaptive) fun _ e h => h.step e

/-- Runs that keep the tasks alive starve nobody. -/
theorem notStarved_of_along {nowNs : UInt64} {adaptive : Option AdaptiveSnapshot}
    {events : List Event}
    (h : Machine.Along (step j) (StaysAlive j) (start nowNs adaptive) events) :
    NotStarved j (start nowNs adaptive) events := by
  rintro before e after rfl
  obtain ⟨hbefore, he, -⟩ := Machine.along_append.mp h
  have halive : AllAlive (run j (start nowNs adaptive) before) :=
    hbefore.invariant (I := AllAlive) (fun t ht => by cases ht) fun _ _ hs hstep => hs.step hstep
  have hkept := kept_run (j := j) nowNs adaptive before
  constructor
  · intro _
    exact halive.step he
  · intro hturns
    cases e with
    | ingest t v => exact ⟨Nat.le_antisymm hkept.bounded hturns.2.2, halive⟩
    | _ => cases hturns

/-! ### Where a task has died -/

/-- A task of a workflow that nobody knows. -/
def strayTask : Task :=
  { taskId := "laya1-", clientId := "c1", assignedAgent := "", targetAgent := ""
    modelRequired := 0, modelName := "m", messagesJson := "[]", temperature := 0
    maxTokens := 256, stream := false, status := 0, priority := 0, createdAtNs := 0
    assignedAtNs := 0, startedAtNs := 0, completedAtNs := 0, deadlineNs := 0, retryCount := 0
    finishReason := "", tSerializationNs := 0, tTransportSendNs := 0, tAgentQueueNs := 0
    tInferenceNs := 0, tTransportReturnNs := 0, tDeserializationNs := 0 }

theorem values_perm (snap : AdaptiveSnapshot) : snap.plans.values.Perm snap.plans.values :=
  List.Perm.refl _

def anyView : View where
  isClaimed _ := false
  registry := none
  order snap := ⟨snap.plans.values, values_perm snap⟩

theorem strayTask_alive (nowNs : UInt64) : ¬ Dead nowNs strayTask := by
  simp [Dead, strayTask]

/-- No attempt has an id without a hash. -/
theorem check_strayTask (j : AgentSetting) (snap : AdaptiveSnapshot)
    (registry : Option Wire.AgentState) (nowNs : UInt64) :
    check j snap anyView registry nowNs strayTask = .block .unresolvedNode := by
  have hnone : resolve snap (anyView.order snap) (barrierTask strayTask).taskId nowNs = none := by
    cases hresolve : resolve snap (anyView.order snap) (barrierTask strayTask).taskId nowNs with
    | none => rfl
    | some r =>
      obtain ⟨plan, hplan, hplanned⟩ := List.exists_of_findSome?_eq_some hresolve
      obtain ⟨_, ns, _, _, _, _, hid⟩ :=
        resolvePlan_eq_some ((anyView.order snap).perm.mem_iff.mp hplan) hplanned
      have hlength := congrArg (fun id : String => id.toList.length) hid
      simp only [WorkflowEngine.laya1TaskId, String.toList_append, List.length_append,
        length_sha256Hex] at hlength
      have hshort : (barrierTask strayTask).taskId.toList.length = 6 := by decide
      omega
  rw [check, barrierCheck, if_neg (by decide), hnone]

theorem strayTask_unresolved (h : s.adaptive.isSome) :
    s.eligible j anyView strayTask = false ∧
      unresolved j s.adaptive anyView s.nowNs strayTask = true := by
  obtain ⟨snap, hsnap⟩ := Option.isSome_iff_exists.mp h
  constructor
  · rw [eligible, hsnap, claimEligible, check_strayTask, ite_self]
  · rw [hsnap, unresolved, check_strayTask, decide_eq_true_iff]

theorem step_strayTask (h : s.adaptive.isSome) :
    s.step j (.ingest strayTask anyView) = s.put strayTask := by
  obtain ⟨heligible, hunresolved⟩ := strayTask_unresolved (j := j) h
  rw [step, heligible, hunresolved]
  rfl

/-- Arrivals of the stray task fill the buffer and leave in it what is there. -/
theorem run_strayTasks (h : Kept s) (hadaptive : s.adaptive.isSome) (k : ℕ) :
    ∃ s', run j s (List.replicate k (.ingest strayTask anyView)) = s' ∧ Kept s' ∧
      s'.adaptive.isSome ∧ s'.nowNs = s.nowNs ∧ (∀ t ∈ s.deferred, t ∈ s'.deferred) ∧
      s'.deferred.length = min deferredCapacity (s.deferred.length + k) := by
  induction k with
  | zero =>
    refine ⟨s, rfl, h, hadaptive, rfl, fun _ ht => ht, ?_⟩
    have hbound := h.bounded
    omega
  | succ k ih =>
    obtain ⟨s', hrun, hkept, hsome, hnow, hmem, hlength⟩ := ih
    refine ⟨s'.put strayTask, ?_, hkept.put hsome _, ?_, ?_, ?_, ?_⟩
    · rw [List.replicate_succ', run, List.foldl_concat]
      show step j (run j s _) _ = _
      rw [hrun, step_strayTask hsome]
    · rw [put_adaptive]
      exact hsome
    · rw [put_nowNs]
      exact hnow
    · intro t ht
      rw [put_deferred]
      split
      · exact List.mem_append_left _ (hmem t ht)
      · exact hmem t ht
    · rw [length_put hkept.bounded, hlength]
      omega

/-- A step that lets a task die leaves it in the buffer. -/
theorem exists_dead (h : Kept s) (he : ¬ StaysAlive j s e) :
    (s.step j e).adaptive.isSome ∧ ∃ t ∈ (s.step j e).deferred, Dead (s.step j e).nowNs t := by
  cases e with
  | clock nowNs =>
    simp only [StaysAlive, not_forall, not_not] at he
    obtain ⟨t, ht, hdead⟩ := he
    exact ⟨h.deferred (List.ne_nil_of_mem ht), t, ht, hdead⟩
  | barrier d => exact absurd trivial he
  | ingest t v =>
    simp only [StaysAlive, not_forall, not_not] at he
    obtain ⟨heligible, hunresolved, hspace, hdead⟩ := he
    have hstep : s.step j (.ingest t v) = s.put t := by
      rw [step, heligible, hunresolved]
      rfl
    rw [hstep, put_adaptive, put_nowNs, put_deferred, if_pos hspace]
    exact ⟨isSome_of_unresolved hunresolved, t, by simp, hdead⟩
  | sweep => exact absurd trivial he
  | recheck v =>
    simp only [StaysAlive, not_forall, not_not] at he
    obtain ⟨t, rest, hretry, heligible, hspace, hdead⟩ := he
    have hstep : s.step j (.recheck v) = { s with retry := rest }.put t := by
      rw [step, hretry]
      simp [heligible]
    rw [hstep, put_adaptive, put_nowNs, put_deferred, if_pos hspace]
    exact ⟨h.retry (by simp [hretry]), t, by simp, hdead⟩

theorem step_ingest_nowNs : (s.step j (.ingest t v)).nowNs = s.nowNs := by
  rcases step_ingest j s t v with heq | ⟨-, -, heq⟩ | heq <;> rw [heq]
  · rfl
  · exact put_nowNs

theorem along_arrivals (h : ¬ Dead s.nowNs t) (k : ℕ) :
    Machine.Along (step j) (StaysAlive j) s (List.replicate k (.ingest t v)) := by
  induction k generalizing s with
  | zero => trivial
  | succ k ih =>
    refine ⟨fun _ _ _ => h, ih ?_⟩
    rw [step_ingest_nowNs]
    exact h

/-- A dead task in the buffer is in the way of one that comes. -/
theorem not_notStarved_of_dead (h : Kept s) (hadaptive : s.adaptive.isSome) (hu : u ∈ s.deferred)
    (hdead : Dead s.nowNs u) :
    ¬ NotStarved j s (List.replicate (deferredCapacity + 1) (.ingest strayTask anyView)) := by
  intro hall
  obtain ⟨s', hrun, -, hsome, hnow, hmem, hlength⟩ :=
    run_strayTasks (j := j) h hadaptive deferredCapacity
  have hlast := (hall (List.replicate deferredCapacity (.ingest strayTask anyView))
    (.ingest strayTask anyView) [] List.replicate_succ').2
  rw [hrun] at hlast
  have hfull : deferredCapacity ≤ s'.deferred.length := by omega
  obtain ⟨heligible, hunresolved⟩ := strayTask_unresolved (j := j) hsome
  have halive := (hlast ⟨heligible, hunresolved, hfull⟩).2
  refine halive u (hmem u hu) ?_
  rw [hnow]
  exact hdead

theorem NotStarved.suffix {before after : List Event} (h : NotStarved j s (before ++ after)) :
    NotStarved j (run j s before) after := by
  rintro first e rest rfl
  have hat := h (before ++ first) e rest (by simp)
  rwa [run, List.foldl_append] at hat

/-- Nobody is starved, in the run or in any way it goes on with arrivals of a task that is
alive, exactly if no task is dead when it is put aside or back, and none dies while it waits. -/
theorem notStarved_iff (j : AgentSetting) (nowNs : UInt64) (adaptive : Option AdaptiveSnapshot)
    (events : List Event) :
    Machine.Along (step j) (StaysAlive j) (start nowNs adaptive) events ↔
      ∀ before after, events = before ++ after → ∀ k t v,
        ¬ Dead (run j (start nowNs adaptive) before).nowNs t →
          NotStarved j (start nowNs adaptive) (before ++ List.replicate k (.ingest t v)) := by
  constructor
  · rintro h before after rfl k t v halive
    apply notStarved_of_along
    exact Machine.along_append.mpr ⟨(Machine.along_append.mp h).1, along_arrivals halive k⟩
  · intro h
    refine Machine.along_iff_forall.mpr ?_
    rintro before e after rfl
    by_contra hdies
    have hkept := kept_run (j := j) nowNs adaptive before
    -- The task that has died stays, and strays fill the places behind it.
    obtain ⟨hsome, u, hu, hdead⟩ := exists_dead hkept hdies
    have hall := h (before ++ [e]) after (by simp) (deferredCapacity + 1) strayTask anyView
      (strayTask_alive _)
    have hafter := hall.suffix
    rw [run, List.foldl_concat] at hafter
    exact not_notStarved_of_dead (hkept.step e) hsome hu hdead hafter

def textAgent : AgentSetting :=
  { config := { agentId := "a1", specialization := .text, targetAgentPrefix := "" }
    barrierAgentId := "a1" }

/-- A task of the workflow, with its number for the hash. -/
def lostTask (n : ℕ) : Task :=
  { strayTask with taskId := "laya1-" ++ toString n, createdAtNs := 1000000000 }

/-- The plan and the state of 64 tasks never come. Eleven seconds later there is a sweep,
which has looked at all but the last of them. -/
def lostWorkflow : List Event :=
  (List.range 64).map (fun n => .ingest (lostTask n) anyView) ++
    .clock 12000000000 :: .sweep :: List.replicate 63 (.recheck anyView)

def lostWorkflowSwept : List Event := lostWorkflow ++ [.recheck anyView]

def startWith : Deferral := start 1000000000 (some .empty)

def newcomer : Task := { lostTask 64 with createdAtNs := 12000000000 }

theorem run_lostWorkflow :
    (EndsSweep textAgent (run textAgent startWith lostWorkflow) (.recheck anyView) ∧
      (run textAgent startWith lostWorkflowSwept).eligible textAgent anyView newcomer = false ∧
      unresolved textAgent (run textAgent startWith lostWorkflowSwept).adaptive anyView
        (run textAgent startWith lostWorkflowSwept).nowNs newcomer = true) ∧
    deferredCapacity ≤ (run textAgent startWith lostWorkflowSwept).deferred.length ∧
      ∀ t ∈ (run textAgent startWith lostWorkflowSwept).deferred,
        Dead (run textAgent startWith lostWorkflowSwept).nowNs t := by
  unfold EndsSweep
  decide +kernel

/-- All 64 are put back, and a new task has no place. -/
theorem lost_workflow_starves :
    ¬ NotStarved textAgent startWith lostWorkflowSwept ∧
      TurnsAway textAgent (run textAgent startWith lostWorkflowSwept)
        (.ingest newcomer anyView) ∧
      ∀ t ∈ (run textAgent startWith lostWorkflowSwept).deferred,
        Dead (run textAgent startWith lostWorkflowSwept).nowNs t := by
  obtain ⟨⟨hends, heligible, hunresolved⟩, hfull, hdead⟩ := run_lostWorkflow
  refine ⟨?_, ⟨heligible, hunresolved, hfull⟩, hdead⟩
  intro h
  have halive := (h lostWorkflow (.recheck anyView) [] rfl).1 hends
  have hlast : (run textAgent startWith lostWorkflow).step textAgent (.recheck anyView) =
      run textAgent startWith lostWorkflowSwept := by
    rw [run, run, lostWorkflowSwept, List.foldl_concat]
  rw [hlast] at halive
  have hpos : 0 < deferredCapacity := by decide
  obtain ⟨t, ht⟩ := List.exists_mem_of_length_pos (Nat.lt_of_lt_of_le hpos hfull)
  exact halive t ht (hdead t ht)

end Deferral

end DdsOrchestrator.Agent
