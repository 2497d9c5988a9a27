import DdsOrchestrator.Dataspace.TaskCache

/-!
Tasks that have ended, and what the cache may still show of them. Once a terminal sample
is in the cache, a sample of the same task that is not past its retry count has to have
the same status. The cache compares numbers and knows only what it holds, so this is so
exactly if every later sample that says otherwise finds something it is behind of, or a
full cache. A failure after a success is not behind, and after an eviction there is nothing
to be behind of.
-/

namespace DdsOrchestrator.Dataspace

open Machine (Along)

namespace TopicCaches

/-- The caches, and the terminal samples that have been taken in. -/
structure Watch where
  caches : TopicCaches
  ended : List Task

namespace Watch

def new : Watch := ⟨TopicCaches.new, []⟩

/-- The terminal sample that the call has taken in. -/
def endedBy (c : TopicCaches) : Call → List Task
  | .task nowNs s =>
      if TaskStatus.isTerminalI32 s.status ∧ (c.step (.task nowNs s)).readTask s.taskId = some s
        then [s] else []
  | _ => []

def step (w : Watch) (call : Call) : Watch :=
  ⟨w.caches.step call, w.ended ++ endedBy w.caches call⟩

def run (w : Watch) (calls : List Call) : Watch := calls.foldl step w

/-- What is held of a task that has ended at some retry count has the same status, or a
higher retry count. -/
def StaysEnded (w : Watch) : Prop :=
  ∀ d ∈ w.ended, ∀ cur, w.caches.readTask d.taskId = some cur →
    cur.retryCount ≤ d.retryCount → cur.status = d.status

/-- The sample is behind the one that is held, or finds none and the cache full. -/
def TurnedAway (nowNs : UInt64) (s : Task) (c : TopicCaches) : Prop :=
  (∃ cur, c.readTask s.taskId = some cur ∧ isRegression s cur = true) ∨
    (c.readTask s.taskId = none ∧ maxTasksInCache ≤ (c.roomFor nowNs s).tasks.keys.length)

/-- A sample that contradicts the end of its task is turned away. -/
def LateTurnedAway (w : Watch) : Call → Prop
  | .task nowNs s => ∀ d ∈ w.ended, d.taskId = s.taskId → s.retryCount ≤ d.retryCount →
      s.status ≠ d.status → TurnedAway nowNs s w.caches
  | _ => True

variable {w : Watch}

/-- What a call leaves of the caches keeps what was so of them. -/
theorem StaysEnded.partOf (h : w.StaysEnded) {c : TopicCaches}
    (hc : ∀ id cur, c.readTask id = some cur → w.caches.readTask id = some cur) :
    StaysEnded ⟨c, w.ended ++ []⟩ := by
  intro d hd cur hcur
  rw [List.append_nil] at hd
  exact h d hd cur (hc _ _ hcur)

/-- Where the sample is taken in, it has to be of the status of every end before it. -/
theorem staysEnded_store_iff (h : w.StaysEnded) {c : TopicCaches} {s : Task} {new : List Task}
    (hnew : ∀ d ∈ new, d = s)
    (hc : ∀ id cur, c.readTask id = some cur → w.caches.readTask id = some cur) :
    StaysEnded ⟨c.storeTask s, w.ended ++ new⟩ ↔
      ∀ d ∈ w.ended, d.taskId = s.taskId → s.retryCount ≤ d.retryCount → s.status = d.status := by
  have hread : ∀ id, (c.storeTask s).readTask id =
      if id = s.taskId then some s else c.readTask id :=
    fun id => Map.lookup_insert_if _ _ _ _
  constructor
  · intro hstays d hd hid
    refine hstays d (List.mem_append_left _ hd) s ?_
    show (c.storeTask s).readTask d.taskId = some s
    rw [hread, if_pos hid]
  · intro hall d hd cur hcur hretry
    have hcur : (c.storeTask s).readTask d.taskId = some cur := hcur
    rw [hread] at hcur
    rcases List.mem_append.mp hd with hold | hlast
    · split at hcur
      · next hid =>
          cases hcur
          exact hall d hold hid hretry
      · exact h d hold cur (hc _ _ hcur) hretry
    · rw [hnew d hlast, if_pos rfl, Option.some.injEq] at hcur
      rw [← hcur, hnew d hlast]

theorem staysEnded_task_iff (h : w.StaysEnded) (nowNs : UInt64) (s : Task) :
    (w.step (.task nowNs s)).StaysEnded ↔ w.LateTurnedAway (.task nowNs s) := by
  have hstep : w.step (.task nowNs s) = ⟨(w.caches.upsertTask nowNs s).2, w.ended ++
      if TaskStatus.isTerminalI32 s.status ∧
        (w.caches.upsertTask nowNs s).2.readTask s.taskId = some s then [s] else []⟩ := rfl
  rw [hstep]
  have houtcome := upsertTask_outcome w.caches nowNs s
  generalize w.caches.upsertTask nowNs s = r at houtcome
  have hroomFor : ∀ id cur, (w.caches.roomFor nowNs s).readTask id = some cur →
      w.caches.readTask id = some cur := roomFor_partOf.tasks
  cases houtcome with
  | rejected hnone hfull =>
      refine iff_of_true ?_ fun d _ _ _ _ => .inr ⟨hnone, hfull⟩
      have hgone : (w.caches.roomFor nowNs s).readTask s.taskId ≠ some s := by
        intro hread
        have hheld : w.caches.tasks.lookup s.taskId = some s := hroomFor _ _ hread
        simp [hheld] at hnone
      rw [if_neg fun hboth => hgone hboth.2]
      exact h.partOf hroomFor
  | kept cur hcur hback =>
      refine iff_of_true ?_ fun d _ _ _ _ => .inl ⟨cur, hcur, hback⟩
      have hother : w.caches.readTask s.taskId ≠ some s := by
        intro hread
        rw [readTask, hcur, Option.some.injEq] at hread
        rw [hread, isRegression_self] at hback
        cases hback
      rw [if_neg fun hboth => hother hboth.2]
      exact h.partOf fun _ _ => id
  | stored hahead hroom =>
      -- a sample that is taken in was not turned away, so it must not contradict an end
      rw [staysEnded_store_iff h ?_ hroomFor]
      · have hin : ¬ TurnedAway nowNs s w.caches := by
          rintro (⟨cur, hcur, hback⟩ | ⟨hnone, hfull⟩)
          · rw [hahead cur hcur] at hback
            cases hback
          · exact absurd hfull (not_le.mpr (hroom hnone))
        refine forall₂_congr fun d _ => imp_congr_right fun _ => imp_congr_right fun _ => ?_
        exact ⟨fun hsame hne => absurd hsame hne, fun hlate => by
          by_contra hne
          exact hin (hlate hne)⟩
      · intro d hd
        split at hd
        · exact List.mem_singleton.mp hd
        · cases hd

theorem staysEnded_step_iff (h : w.StaysEnded) (call : Call) :
    (w.step call).StaysEnded ↔ w.LateTurnedAway call := by
  cases call with
  | task nowNs s => exact staysEnded_task_iff h nowNs s
  | keyed t s =>
      refine iff_of_true (h.partOf fun id cur hcur => ?_) trivial
      rw [← hcur]
      have hundisturbed : w.caches.Undisturbed id (.keyed t s) := trivial
      exact (readTask_step (.keyed t s) hundisturbed).symm
  | listed t s =>
      refine iff_of_true (h.partOf fun id cur hcur => ?_) trivial
      rw [← hcur]
      have hundisturbed : w.caches.Undisturbed id (.listed t s) := trivial
      exact (readTask_step (.listed t s) hundisturbed).symm
  | evict nowNs maxAgeNs => exact iff_of_true (h.partOf evict_partOf.tasks) trivial
  | clear =>
      refine iff_of_true (h.partOf fun id cur hcur => ?_) trivial
      cases hcur

/-- In every state of a run the tasks that have ended stay so, exactly if every late sample
of the run that contradicts an end is turned away. -/
theorem terminal_stays_iff (calls : List Call) :
    (∀ before after, calls = before ++ after → (new.run before).StaysEnded) ↔
      Along step LateTurnedAway new calls :=
  Machine.along_iff_prefixes (J := fun _ => True) (fun _ hd => absurd hd List.not_mem_nil) trivial
    (fun _ _ _ => trivial) fun _ call _ h => staysEnded_step_iff h call

instance (w : Watch) (d : Task) : Decidable (∀ cur, w.caches.readTask d.taskId = some cur →
    cur.retryCount ≤ d.retryCount → cur.status = d.status) :=
  match h : w.caches.readTask d.taskId with
  | none => isTrue (by simp)
  | some cur =>
      decidable_of_iff (cur.retryCount ≤ d.retryCount → cur.status = d.status) (by simp)

instance (w : Watch) : Decidable w.StaysEnded :=
  inferInstanceAs (Decidable (∀ d ∈ w.ended, _))

/-- A failure takes the place of a success, and a pending sample that of an evicted one. -/
theorem ended_task_changes :
    ¬ (new.run [.task 0 (taskAt 3 "a" 0 2), .task 0 (taskAt 4 "a" 0 2)]).StaysEnded ∧
      ¬ (new.run [.task 0 (taskAt 3 "a" 0 2), .evict 40000000000 30000000000,
        .task 0 (taskAt 0 "" 0 0)]).StaysEnded := by
  constructor
  · decide
  · decide

end Watch

end TopicCaches

end DdsOrchestrator.Dataspace
