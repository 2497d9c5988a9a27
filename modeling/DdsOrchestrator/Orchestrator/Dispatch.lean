import DdsOrchestrator.Lib.Machine
import DdsOrchestrator.Dataspace.TaskCache
import DdsOrchestrator.Orchestrator.Dds

/-!
Which agents a task is directed at. The reaper takes a dead agent out of the map of the last
heartbeats, and the registry, out of which the agents are chosen, keeps it as it was. So a
dead agent that was healthy and had a free slot is chosen as before, unless another one is
less busy.
-/

namespace DdsOrchestrator.Orchestrator

open Dataspace (Task AgentState)
open Dataspace.TopicCaches (taskAt)
open Machine (Along)

namespace OrchestratorDds

variable {o : OrchestratorDds} {dispatchMode : Bool} {events : List Event} {id : String}

/-- A reaper has declared the agent dead, and no heartbeat of it has come since. -/
def DeclaredDead (dispatchMode : Bool) (events : List Event) (id : String) : Prop :=
  ∃ before staleAfter now clock writes after,
    events = before ++ .reapDead staleAfter now clock writes :: after ∧
      id ∈ ((new dispatchMode).run before).staleAgents staleAfter now ∧
      ∀ now state, .heartbeat now state ∈ after → state.agentId ≠ id

theorem declaredDead_concat {e : Event} : DeclaredDead dispatchMode (events ++ [e]) id ↔
    (∃ staleAfter now clock writes, e = .reapDead staleAfter now clock writes ∧
      id ∈ ((new dispatchMode).run events).staleAgents staleAfter now) ∨
    (DeclaredDead dispatchMode events id ∧
      ∀ now state, e = .heartbeat now state → state.agentId ≠ id) := by
  constructor
  · rintro ⟨before, staleAfter, now, clock, writes, after, heq, hstale, hsince⟩
    induction after using List.reverseRecOn with
    | nil =>
        obtain ⟨rfl, he⟩ := List.append_inj' heq rfl
        exact .inl ⟨staleAfter, now, clock, writes, List.singleton_inj.mp he, hstale⟩
    | append_singleton after e' _ =>
        have heq : events ++ [e] =
            (before ++ .reapDead staleAfter now clock writes :: after) ++ [e'] := by
          rw [heq, List.append_assoc, List.cons_append]
        obtain ⟨rfl, he⟩ := List.append_inj' heq rfl
        have he := List.singleton_inj.mp he
        refine .inr ⟨⟨before, staleAfter, now, clock, writes, after, rfl, hstale, ?_⟩, ?_⟩
        · exact fun now state hmem => hsince now state (List.mem_append_left _ hmem)
        · rintro now state rfl
          exact hsince now state (List.mem_append_right _ (List.mem_singleton.mpr he))
  · rintro (⟨staleAfter, now, clock, writes, rfl, hstale⟩ | ⟨hdead, hlast⟩)
    · exact ⟨events, staleAfter, now, clock, writes, [], rfl, hstale,
        fun _ _ h => absurd h List.not_mem_nil⟩
    · obtain ⟨before, staleAfter, now, clock, writes, after, rfl, hstale, hsince⟩ := hdead
      refine ⟨before, staleAfter, now, clock, writes, after ++ [e], by simp, hstale, ?_⟩
      intro now state hmem
      rcases List.mem_append.mp hmem with hold | hnew
      · exact hsince now state hold
      · exact hlast now state (List.mem_singleton.mp hnew).symm

theorem declaredDead_heartbeat {now : Nat} {state : AgentState} :
    DeclaredDead dispatchMode (events ++ [.heartbeat now state]) id ↔
      DeclaredDead dispatchMode events id ∧ id ≠ state.agentId := by
  rw [declaredDead_concat]
  constructor
  · rintro (⟨_, _, _, _, he, -⟩ | ⟨hdead, hlast⟩)
    · cases he
    · exact ⟨hdead, (hlast now state rfl).symm⟩
  · rintro ⟨hdead, hne⟩
    refine .inr ⟨hdead, fun now' state' he => ?_⟩
    cases he
    exact hne.symm

theorem declaredDead_reapDead {staleAfter now : Nat} {clock : Clock} {writes : String → Bool} :
    DeclaredDead dispatchMode (events ++ [.reapDead staleAfter now clock writes]) id ↔
      id ∈ ((new dispatchMode).run events).staleAgents staleAfter now ∨
        DeclaredDead dispatchMode events id := by
  rw [declaredDead_concat]
  constructor
  · rintro (⟨_, _, _, _, he, hstale⟩ | ⟨hdead, -⟩)
    · cases he
      exact .inl hstale
    · exact .inr hdead
  · rintro (hstale | hdead)
    · exact .inl ⟨_, _, _, _, rfl, hstale⟩
    · exact .inr ⟨hdead, fun _ _ he => by cases he⟩

/-- No other event declares an agent dead or alive. -/
theorem declaredDead_other {e : Event}
    (hreap : ∀ staleAfter now clock writes, e ≠ .reapDead staleAfter now clock writes)
    (hheartbeat : ∀ now state, e ≠ .heartbeat now state) :
    DeclaredDead dispatchMode (events ++ [e]) id ↔ DeclaredDead dispatchMode events id := by
  rw [declaredDead_concat]
  constructor
  · rintro (⟨_, _, _, _, he, -⟩ | ⟨hdead, -⟩)
    · exact absurd he (hreap _ _ _ _)
    · exact hdead
  · exact fun hdead => .inr ⟨hdead, fun _ _ he => absurd he (hheartbeat _ _)⟩

/-! ### The registry and the last heartbeats -/

/-- The agents of the registry that have no last heartbeat are the dead ones. -/
structure Tracks (o : OrchestratorDds) (dead : String → Prop) : Prop where
  agentId : ∀ key a, o.registry.lookup key = some a → a.agentId = key
  unseen : ∀ key a, o.registry.lookup key = some a → (o.lastSeen.lookup key = none ↔ dead key)

theorem Tracks.heartbeat {dead dead' : String → Prop} {state : AgentState} (now : Nat)
    (h : Tracks o dead) (hself : ¬ dead' state.agentId)
    (hother : ∀ key, key ≠ state.agentId → (dead' key ↔ dead key)) :
    Tracks (o.heartbeat now state) dead' := by
  refine ⟨fun key a ha => ?_, fun key a ha => ?_⟩
  · rcases Map.lookup_insert_eq_some.mp ha with ⟨rfl, rfl⟩ | ⟨-, hold⟩
    · rfl
    · exact h.agentId key a hold
  · show (o.lastSeen.insert state.agentId now).lookup key = none ↔ dead' key
    rw [Map.lookup_insert_if]
    rcases Map.lookup_insert_eq_some.mp ha with ⟨rfl, rfl⟩ | ⟨hne, hold⟩
    · rw [if_pos rfl]
      exact iff_of_false (fun hnone => by cases hnone) hself
    · rw [if_neg hne, hother key hne]
      exact h.unseen key a hold

theorem reapDeadAgents_registry (staleAfter now : Nat) (clock : Clock) (writes : String → Bool) :
    (o.reapDeadAgents staleAfter now clock writes).registry = o.registry := by
  unfold reapDeadAgents
  dsimp only
  split
  · rfl
  · exact (frame_reassignAll _ _).registry

theorem reapDeadAgents_lastSeen (staleAfter now : Nat) (clock : Clock) (writes : String → Bool) :
    (o.reapDeadAgents staleAfter now clock writes).lastSeen.lookup id =
      if id ∈ o.staleAgents staleAfter now then none else o.lastSeen.lookup id := by
  unfold reapDeadAgents
  dsimp only
  split
  · next hnobody =>
      rw [List.isEmpty_iff.mp hnobody, if_neg List.not_mem_nil]
  · rw [(frame_reassignAll _ _).lastSeen]
    exact Capped.lookup_removeAll _ _ _

theorem Tracks.reapDead {dead dead' : String → Prop} {staleAfter now : Nat} {clock : Clock}
    {writes : String → Bool} (h : Tracks o dead)
    (hdead : ∀ key, dead' key ↔ key ∈ o.staleAgents staleAfter now ∨ dead key) :
    Tracks (o.reapDeadAgents staleAfter now clock writes) dead' := by
  refine ⟨fun key a ha => ?_, fun key a ha => ?_⟩
  · rw [reapDeadAgents_registry] at ha
    exact h.agentId key a ha
  · rw [reapDeadAgents_registry] at ha
    rw [reapDeadAgents_lastSeen, hdead, ← h.unseen key a ha]
    split
    · next hstale => exact iff_of_true rfl (.inl hstale)
    · next hfresh => exact ⟨.inr, fun hor => hor.resolve_left hfresh⟩

/-- The two maps are as they were, and so are the dead. -/
theorem Tracks.frame {dead dead' : String → Prop} {o' : OrchestratorDds} (h : Tracks o dead)
    (hregistry : o'.registry = o.registry) (hlastSeen : o'.lastSeen = o.lastSeen)
    (hdead : ∀ key, dead' key ↔ dead key) : Tracks o' dead' := by
  refine ⟨fun key a ha => ?_, fun key a ha => ?_⟩
  · rw [hregistry] at ha
    exact h.agentId key a ha
  · rw [hregistry] at ha
    rw [hlastSeen, hdead]
    exact h.unseen key a ha

theorem tracks_run (dispatchMode : Bool) (events : List Event) :
    Tracks ((new dispatchMode).run events) (DeclaredDead dispatchMode events) := by
  induction events using List.reverseRecOn with
  | nil =>
      refine ⟨fun _ _ h => ?_, fun _ _ h => ?_⟩
      · cases h
      · cases h
  | append_singleton events e ih =>
      rw [run_concat]
      cases e with
      | heartbeat now state =>
          refine ih.heartbeat now (fun hdead => ?_) fun key hkey => ?_
          · exact (declaredDead_heartbeat.mp hdead).2 rfl
          · exact declaredDead_heartbeat.trans (and_iff_left hkey)
      | reapDead staleAfter now clock writes => exact ih.reapDead fun _ => declaredDead_reapDead
      | reapStalled nowNs clock writes =>
          have hframe : Frame ((new dispatchMode).run events)
              (((new dispatchMode).run events).reapStalledTasks nowNs clock writes) :=
            frame_reassignAll _ _
          exact ih.frame hframe.registry hframe.lastSeen fun _ =>
            declaredDead_other (by simp) (by simp)
      | dispatch | republish | cache =>
          exact ih.frame rfl rfl fun _ => declaredDead_other (by simp) (by simp)

/-! ### The choice -/

theorem bySlotsBusy_trans (a b c : AgentState) (hab : bySlotsBusy a b = true)
    (hbc : bySlotsBusy b c = true) : bySlotsBusy a c = true :=
  decide_eq_true (UInt32.le_trans (of_decide_eq_true hab) (of_decide_eq_true hbc))

theorem bySlotsBusy_total (a b : AgentState) : (bySlotsBusy a b || bySlotsBusy b a) = true := by
  unfold bySlotsBusy
  simpa using UInt32.le_total a.slotsBusy b.slotsBusy

theorem mergeSort_head {l rest : List AgentState} {a : AgentState}
    (h : l.mergeSort bySlotsBusy = a :: rest) :
    a ∈ l ∧ ∀ b ∈ l, a.slotsBusy ≤ b.slotsBusy := by
  have hmem : ∀ b, b ∈ l ↔ b ∈ a :: rest := fun b => by rw [← h, List.mem_mergeSort]
  refine ⟨(hmem a).mpr (List.mem_cons_self ..), fun b hb => ?_⟩
  have hsorted := List.pairwise_mergeSort bySlotsBusy_trans bySlotsBusy_total l
  rw [h, List.pairwise_cons] at hsorted
  rcases List.mem_cons.mp ((hmem b).mp hb) with rfl | hrest
  · exact UInt32.le_refl _
  · exact of_decide_eq_true (hsorted.1 b hrest)

/-- Among those that are least busy, whichever comes first is taken. -/
theorem mergeSort_cons {l : List AgentState} {a : AgentState}
    (h : ∀ b ∈ l, a.slotsBusy ≤ b.slotsBusy) :
    ∃ rest, (a :: l).mergeSort bySlotsBusy = a :: rest := by
  obtain ⟨before, after, hcons, hrest, hbefore⟩ :=
    List.mergeSort_cons bySlotsBusy_trans bySlotsBusy_total a l
  -- what the sort puts before `a` is less busy, and there is no such agent
  cases before with
  | nil => exact ⟨after, hcons⟩
  | cons b before =>
      have hb : b ∈ l := by
        rw [← List.mem_mergeSort, hrest]
        exact List.mem_cons_self ..
      have hle : bySlotsBusy a b = true := decide_eq_true (h b hb)
      have hnot := hbefore b (List.mem_cons_self ..)
      rw [hle] at hnot
      cases hnot

/-- The agent comes first, if it is there. -/
def firstOf (a : AgentState) : Iteration AgentState where
  order l := if a ∈ l then a :: l.erase a else l
  perm l := by
    split
    · next ha => exact (List.perm_cons_erase ha).symm
    · exact .refl l

/-- Where tasks are dispatched, each available agent without a last heartbeat is busier than
another one. -/
def DeadAreBusier (o : OrchestratorDds) : Event → Prop
  | .dispatch _ => o.dispatchMode = true → ∀ a ∈ o.registry.available,
      o.lastSeen.lookup a.agentId = none → ∃ b ∈ o.registry.available, b.slotsBusy < a.slotsBusy
  | _ => True

variable {iteration : Iteration AgentState} {task : Task}

/-- The agent that is chosen is available, and no other one is less busy. -/
theorem dispatchTask_true (h : (o.dispatchTask iteration task).1 = true) :
    o.dispatchMode = true ∧ ∃ a ∈ o.registry.available,
      (∀ b ∈ o.registry.available, a.slotsBusy ≤ b.slotsBusy) ∧
      (o.dispatchTask iteration task).2 = { task with targetAgent := a.agentId } := by
  unfold dispatchTask at h ⊢
  cases hmode : o.dispatchMode with
  | false =>
      rw [hmode] at h
      cases h
  | true =>
      rw [hmode] at h
      refine ⟨rfl, ?_⟩
      cases hsort : (iteration.order o.registry.available).mergeSort bySlotsBusy with
      | nil =>
          rw [hsort] at h
          cases h
      | cons a rest =>
          obtain ⟨ha, hleast⟩ := mergeSort_head hsort
          have hmem := fun b => (iteration.perm o.registry.available).mem_iff (a := b)
          exact ⟨a, (hmem a).mp ha, fun b hb => hleast b ((hmem b).mpr hb), rfl⟩

variable (task) in
/-- Each agent that is least busy is chosen in some order. -/
theorem exists_dispatchTask {a : AgentState} (hmode : o.dispatchMode = true)
    (ha : a ∈ o.registry.available)
    (hleast : ∀ b ∈ o.registry.available, a.slotsBusy ≤ b.slotsBusy) :
    ∃ iteration,
      o.dispatchTask iteration task = (true, { task with targetAgent := a.agentId }) := by
  obtain ⟨rest, hrest⟩ : ∃ rest,
      (a :: o.registry.available.erase a).mergeSort bySlotsBusy = a :: rest :=
    mergeSort_cons fun b hb => hleast b (List.mem_of_mem_erase hb)
  refine ⟨firstOf a, ?_⟩
  have horder : (firstOf a).order o.registry.available = a :: o.registry.available.erase a :=
    if_pos ha
  unfold dispatchTask
  rw [hmode, horder, hrest]
  rfl

/-- A dispatch spares the dead in every order exactly if they are busier than another one. -/
theorem Tracks.spares_iff {dead : String → Prop} (h : Tracks o dead) (task : Task) :
    (∀ iteration, (o.dispatchTask iteration task).1 = true →
      ¬ dead (o.dispatchTask iteration task).2.targetAgent) ↔ DeadAreBusier o (.dispatch task) := by
  have hunseen : ∀ a ∈ o.registry.available,
      (o.lastSeen.lookup a.agentId = none ↔ dead a.agentId) := by
    intro a ha
    obtain ⟨⟨key, hkey⟩, -, -⟩ := mem_available.mp ha
    rw [h.agentId key a hkey]
    exact h.unseen key a hkey
  constructor
  · intro hspares hmode a ha hnone
    -- otherwise some order of the registry puts the dead agent first
    by_contra hleast
    obtain ⟨iteration, hdispatch⟩ := exists_dispatchTask task hmode ha
      fun b hb => UInt32.not_lt.mp fun hlt => hleast ⟨b, hb, hlt⟩
    have hspared := hspares iteration
    rw [hdispatch] at hspared
    exact hspared rfl ((hunseen a ha).mp hnone)
  · intro hbusier iteration htrue hdead
    obtain ⟨hmode, a, ha, hleast, hchosen⟩ := dispatchTask_true htrue
    rw [hchosen] at hdead
    obtain ⟨b, hb, hlt⟩ := hbusier hmode a ha ((hunseen a ha).mpr hdead)
    exact absurd hlt (UInt32.not_lt.mpr (hleast b hb))

/-- No dispatch of the run directs a task at a dead agent, in whatever order the registry is
gone through, exactly if at each dispatch the dead are busier than another agent. -/
theorem dispatch_spares_dead_iff (dispatchMode : Bool) (events : List Event) :
    (∀ before task after, events = before ++ .dispatch task :: after → ∀ iteration,
      (((new dispatchMode).run before).dispatchTask iteration task).1 = true →
      ¬ DeclaredDead dispatchMode before
        (((new dispatchMode).run before).dispatchTask iteration task).2.targetAgent) ↔
      Along step DeadAreBusier (new dispatchMode) events := by
  rw [Machine.along_iff_forall]
  constructor
  · intro h before e after hevents
    cases e with
    | heartbeat | reapDead | reapStalled | republish | cache => trivial
    | dispatch task =>
        exact ((tracks_run dispatchMode before).spares_iff task).mp (h before task after hevents)
  · intro h before task after hevents
    exact ((tracks_run dispatchMode before).spares_iff task).mpr
      (h before (.dispatch task) after hevents)

/-! ### A dead agent that is dispatched to -/

def idleAgent : AgentState where
  agentId := "a"
  hostname := "h"
  model := "qwen"
  specialization := "TEXT"
  slotsTotal := 4
  slotsBusy := 0
  vramTotalMb := 0
  vramUsedMb := 0
  emaLatencyMs := 0
  completedTotal := 0
  failedTotal := 0
  health := 2
  lastUpdateNs := 0
  uptimeSeconds := 1

/-- The agent is heard of once, and is declared dead 3 s later. -/
def lostAgent : List Event :=
  [.heartbeat 0 idleAgent, .reapDead 2000000000 3000000000 ⟨fun _ => 3000000000, fun _ => 0⟩
    fun _ => true]

/-- The order in which the entries are kept. -/
def asKept : Iteration AgentState := ⟨fun l => l, fun _ => .refl _⟩

/-- A task goes to the agent that has just been declared dead. -/
theorem dead_agent_dispatched :
    (((new true).run lostAgent).dispatchTask asKept (taskAt 0 "" 0 0)).1 = true ∧
      DeclaredDead true lostAgent
        (((new true).run lostAgent).dispatchTask asKept (taskAt 0 "" 0 0)).2.targetAgent := by
  have havailable : ((new true).run lostAgent).registry.available = [idleAgent] := by decide +kernel
  have hmode : ((new true).run lostAgent).dispatchMode = true := rfl
  have hdispatch : ((new true).run lostAgent).dispatchTask asKept (taskAt 0 "" 0 0) =
      (true, { taskAt 0 "" 0 0 with targetAgent := "a" }) := by
    have horder : asKept.order [idleAgent] = [idleAgent] := rfl
    unfold dispatchTask
    rw [hmode, havailable, horder, List.mergeSort_singleton]
    rfl
  rw [hdispatch]
  refine ⟨rfl, [.heartbeat 0 idleAgent], 2000000000, 3000000000, _, _, [], rfl, ?_, ?_⟩
  · decide +kernel
  · exact fun _ _ h => absurd h List.not_mem_nil

end OrchestratorDds

end DdsOrchestrator.Orchestrator
