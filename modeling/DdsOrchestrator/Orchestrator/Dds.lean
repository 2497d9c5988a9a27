import DdsOrchestrator.Lib.Capped
import DdsOrchestrator.Orchestrator.StateMachine
import DdsOrchestrator.Dataspace.TopicCaches

/-!
The supervision of tasks and agents by the orchestrator. Heartbeats fill the registry and
say when each agent was last seen. Two reapers give back the tasks of dead agents and the
tasks that have come to a halt, and since a write without ownership can be discarded, what
they have given back is published again until the mesh shows it. Agents write to the mesh
at any time, so every tick brings what its reads of the mesh return. Log lines are left out.
-/

namespace DdsOrchestrator.Orchestrator

open Dataspace (Task AgentState TopicCaches)
open Capped (removeAll lookup_removeAll)

def maxTaskRetries : UInt32 := 3

/-- 30 s in nanoseconds. -/
def assignedStallAfter : Nat := 30000000000

/-- 60 s. -/
def runningStallAfter : Nat := 60000000000

/-- 60 s. -/
def reassignVisibilityTtl : Nat := 60000000000

/-- What the clocks read when a loop comes to a task. -/
structure Clock where
  instant : String → Nat
  wall : String → UInt64

abbrev AgentRegistry := Map String AgentState

namespace AgentRegistry

def upsert (state : AgentState) (agents : AgentRegistry) : AgentRegistry :=
  agents.insert state.agentId state

/-- The healthy agents with a free slot. -/
def available (agents : AgentRegistry) : List AgentState :=
  (agents.entries.map Sigma.snd).filter fun a => a.health = 2 ∧ a.slotsBusy < a.slotsTotal

end AgentRegistry

/-- The order in which a hash map gives out its elements. -/
structure Iteration (α : Type) where
  order : List α → List α
  perm : ∀ l, (order l).Perm l

structure OrchestratorDds where
  registry : AgentRegistry
  lastSeen : Map String Nat
  pendingReassignment : Map String (Task × Nat)
  dispatchMode : Bool
  caches : TopicCaches
  /-- The samples that went to the writer without ownership. -/
  tasksWriterClient : List Task
  /-- The agents whose loss was published, with the lease in milliseconds. -/
  livelinessLost : List (String × UInt64)

namespace OrchestratorDds

def new (dispatchMode : Bool) : OrchestratorDds :=
  ⟨∅, ∅, ∅, dispatchMode, TopicCaches.new, [], []⟩

/-- A sample of the stream of agent states. -/
def heartbeat (now : Nat) (state : AgentState) (o : OrchestratorDds) : OrchestratorDds :=
  { o with
    lastSeen := o.lastSeen.insert state.agentId now
    registry := o.registry.upsert state }

/-- The key by which candidates are sorted. -/
def bySlotsBusy (a b : AgentState) : Bool := a.slotsBusy ≤ b.slotsBusy

def dispatchTask (iteration : Iteration AgentState) (task : Task) (o : OrchestratorDds) :
    Bool × Task :=
  if !o.dispatchMode then (false, task)
  else
    match (iteration.order o.registry.available).mergeSort bySlotsBusy with
    | [] => (false, task)
    | a :: _ => (true, { task with targetAgent := a.agentId })

def allTasks (o : OrchestratorDds) : List Task := o.caches.tasks.entries.map Sigma.snd

/-- What the reapers do with a task. The write can fail, and then nothing waits. -/
def reassignAndPublish (clock : Clock) (writes : String → Bool) (o : OrchestratorDds)
    (task : Task) : OrchestratorDds :=
  match reassign maxTaskRetries (clock.wall task.taskId) task with
  | (.error _, _) => o
  -- at the limit of its retries the task has failed, and that is published too
  | (.ok requeued, reassigned) =>
      let o := { o with tasksWriterClient := o.tasksWriterClient ++ [reassigned] }
      if writes task.taskId && requeued then
        { o with
          pendingReassignment := o.pendingReassignment.insert task.taskId
            (reassigned, clock.instant task.taskId) }
      else o

/-- The agents whose heartbeat has stopped. -/
def staleAgents (staleAfter now : Nat) (o : OrchestratorDds) : List String :=
  (o.lastSeen.entries.filter fun e => staleAfter < now - e.2).map Sigma.fst

def reapDeadAgents (staleAfter now : Nat) (clock : Clock) (writes : String → Bool)
    (o : OrchestratorDds) : OrchestratorDds :=
  let dead := o.staleAgents staleAfter now
  if dead.isEmpty then o
  else
    -- the registry keeps what it has of them
    let left := { o with
      livelinessLost := o.livelinessLost ++ dead.map fun agentId =>
        (agentId, UInt64.ofNat (staleAfter / 1000000))
      lastSeen := removeAll dead o.lastSeen }
    (o.allTasks.filter fun t => t.assignedAgent ∈ dead ∧ (t.status = 1 ∨ t.status = 2)).foldl
      (reassignAndPublish clock writes) left

def stalled (nowNs : UInt64) (t : Task) : Bool :=
  if t.status = 1 then
    0 < t.assignedAtNs ∧ assignedStallAfter < nowNs.toNat - t.assignedAtNs.toNat
  else if t.status = 2 then
    0 < t.startedAtNs ∧ runningStallAfter < nowNs.toNat - t.startedAtNs.toNat
  else false

def reapStalledTasks (nowNs : UInt64) (clock : Clock) (writes : String → Bool)
    (o : OrchestratorDds) : OrchestratorDds :=
  (o.allTasks.filter (stalled nowNs)).foldl (reassignAndPublish clock writes) o

/-- The mesh shows the task pending again, with nobody's name on it. -/
def visible (mesh : Option Task) (pending : Task) : Bool :=
  match mesh with
  | some mesh =>
      mesh.status = 0 ∧ mesh.retryCount = pending.retryCount ∧ mesh.assignedAgent = ""
  | none => false

/-- The entry is dropped, because the mesh shows it or after its time. -/
def settled (mesh : String → Option Task) (clock : Clock) (taskId : String)
    (entry : Task × Nat) : Bool :=
  visible (mesh taskId) entry.1 || reassignVisibilityTtl < clock.instant taskId - entry.2

def republished (clock : Clock) (taskId : String) (pending : Task) : Task :=
  { pending with createdAtNs := clock.wall taskId }

/-- `mesh` gives what a read of the task shows, nothing if it fails. -/
def republisheReatribuicoesPendentes (mesh : String → Option Task) (clock : Clock)
    (o : OrchestratorDds) : OrchestratorDds :=
  let entries := o.pendingReassignment.entries
  let done := (entries.filter fun e => settled mesh clock e.1 e.2).map Sigma.fst
  let left := entries.filter fun e => !settled mesh clock e.1 e.2
  { o with
    tasksWriterClient :=
      o.tasksWriterClient ++ left.map fun e => republished clock e.1 e.2.1
    pendingReassignment := removeAll done o.pendingReassignment }

/-! ### Runs -/

inductive Event where
  | heartbeat (now : Nat) (state : AgentState)
  | dispatch (task : Task)
  | reapDead (staleAfter now : Nat) (clock : Clock) (writes : String → Bool)
  | reapStalled (nowNs : UInt64) (clock : Clock) (writes : String → Bool)
  | republish (mesh : String → Option Task) (clock : Clock)
  | cache (call : TopicCaches.Call)

/-- A dispatch changes the task that is passed and nothing here. -/
def step (o : OrchestratorDds) : Event → OrchestratorDds
  | .heartbeat now state => o.heartbeat now state
  | .dispatch _ => o
  | .reapDead staleAfter now clock writes => o.reapDeadAgents staleAfter now clock writes
  | .reapStalled nowNs clock writes => o.reapStalledTasks nowNs clock writes
  | .republish mesh clock => o.republisheReatribuicoesPendentes mesh clock
  | .cache call => { o with caches := o.caches.step call }

def run (o : OrchestratorDds) (events : List Event) : OrchestratorDds := events.foldl step o

theorem run_concat (o : OrchestratorDds) (events : List Event) (e : Event) :
    o.run (events ++ [e]) = (o.run events).step e :=
  List.foldl_concat ..

/-! ### What the functions do -/

variable {o : OrchestratorDds} {clock : Clock} {writes : String → Bool} {task : Task} {id : String}

theorem mem_available {a : AgentState} : a ∈ o.registry.available ↔
    (∃ key, o.registry.lookup key = some a) ∧ a.health = 2 ∧ a.slotsBusy < a.slotsTotal := by
  unfold AgentRegistry.available
  rw [List.mem_filter]
  refine and_congr ?_ decide_eq_true_iff
  constructor
  · intro h
    obtain ⟨⟨key, a⟩, he, rfl⟩ := List.mem_map.mp h
    exact ⟨key, Map.mem_entries.mp he⟩
  · rintro ⟨key, hkey⟩
    exact List.mem_map.mpr ⟨⟨key, a⟩, Map.mem_entries.mpr hkey, rfl⟩

/-- What a reassignment leaves alone. -/
structure Frame (o o' : OrchestratorDds) : Prop where
  registry : o'.registry = o.registry
  lastSeen : o'.lastSeen = o.lastSeen
  dispatchMode : o'.dispatchMode = o.dispatchMode
  caches : o'.caches = o.caches

theorem Frame.trans {o' o'' : OrchestratorDds} (h : Frame o o') (h' : Frame o' o'') :
    Frame o o'' :=
  ⟨h'.registry.trans h.registry, h'.lastSeen.trans h.lastSeen,
    h'.dispatchMode.trans h.dispatchMode, h'.caches.trans h.caches⟩

theorem frame_reassignAndPublish (o : OrchestratorDds) (task : Task) :
    Frame o (reassignAndPublish clock writes o task) := by
  unfold reassignAndPublish
  split
  · exact ⟨rfl, rfl, rfl, rfl⟩
  · dsimp only
    split
    · exact ⟨rfl, rfl, rfl, rfl⟩
    · exact ⟨rfl, rfl, rfl, rfl⟩

theorem frame_reassignAll (tasks : List Task) (o : OrchestratorDds) :
    Frame o (tasks.foldl (reassignAndPublish clock writes) o) := by
  induction tasks generalizing o with
  | nil => exact ⟨rfl, rfl, rfl, rfl⟩
  | cons task tasks ih => exact (frame_reassignAndPublish o task).trans (ih _)

/-- A reassignment of the task that makes it wait for the mesh. -/
def Requeues (clock : Clock) (writes : String → Bool) (task : Task) (entry : Task × Nat) : Prop :=
  reassign maxTaskRetries (clock.wall task.taskId) task = (.ok true, entry.1) ∧
    writes task.taskId = true ∧ entry.2 = clock.instant task.taskId

theorem lookup_reassignAndPublish {entry : Task × Nat}
    (h : (reassignAndPublish clock writes o task).pendingReassignment.lookup id = some entry) :
    (task.taskId = id ∧ Requeues clock writes task entry) ∨
      o.pendingReassignment.lookup id = some entry := by
  unfold reassignAndPublish at h
  split at h
  · exact .inr h
  · next requeued reassigned hreassign =>
      dsimp only at h
      split at h
      · next hboth =>
          obtain ⟨hwrites, rfl⟩ := Bool.and_eq_true_iff.mp hboth
          rcases Map.lookup_insert_eq_some.mp h with ⟨rfl, rfl⟩ | ⟨-, hold⟩
          · exact .inl ⟨rfl, hreassign, hwrites, rfl⟩
          · exact .inr hold
      · exact .inr h

theorem lookup_reassignAll {tasks : List Task} {entry : Task × Nat}
    (h : (tasks.foldl (reassignAndPublish clock writes) o).pendingReassignment.lookup id =
      some entry) :
    (∃ task ∈ tasks, task.taskId = id ∧ Requeues clock writes task entry) ∨
      o.pendingReassignment.lookup id = some entry := by
  induction tasks generalizing o with
  | nil => exact .inr h
  | cons task tasks ih =>
      rcases ih h with ⟨task', hmem, hboth⟩ | hbefore
      · exact .inl ⟨task', List.mem_cons_of_mem _ hmem, hboth⟩
      · exact (lookup_reassignAndPublish hbefore).imp_left fun hboth =>
          ⟨task, List.mem_cons_self .., hboth⟩

theorem lookup_republish {mesh : String → Option Task} {entry : Task × Nat} :
    (o.republisheReatribuicoesPendentes mesh clock).pendingReassignment.lookup id = some entry ↔
      o.pendingReassignment.lookup id = some entry ∧ settled mesh clock id entry = false := by
  have hdone : ∀ {entry}, o.pendingReassignment.lookup id = some entry →
      (id ∈ (o.pendingReassignment.entries.filter fun e => settled mesh clock e.1 e.2).map
        Sigma.fst ↔ settled mesh clock id entry = true) := by
    intro entry hentry
    constructor
    · intro h
      obtain ⟨⟨key, held⟩, he, rfl⟩ := List.mem_map.mp h
      obtain ⟨hheld, hsettled⟩ := List.mem_filter.mp he
      have hsame := Map.mem_entries.mp hheld
      rw [hentry, Option.some.injEq] at hsame
      exact hsame ▸ hsettled
    · intro h
      exact List.mem_map.mpr ⟨⟨id, entry⟩, List.mem_filter.mpr ⟨Map.mem_entries.mpr hentry, h⟩, rfl⟩
  show (removeAll _ o.pendingReassignment).lookup id = some entry ↔ _
  rw [lookup_removeAll]
  constructor
  · intro h
    split at h
    · cases h
    · next hleft =>
        refine ⟨h, Bool.not_eq_true _ ▸ fun hsettled => hleft ((hdone h).mpr hsettled)⟩
  · rintro ⟨hentry, hsettled⟩
    rw [if_neg, hentry]
    rw [hdone hentry, hsettled]
    exact Bool.false_ne_true

end OrchestratorDds

end DdsOrchestrator.Orchestrator
