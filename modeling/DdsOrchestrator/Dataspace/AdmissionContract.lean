import DdsOrchestrator.Dataspace.TopicCaches

/-!
What the caches promise with the result of a call. A sample that comes back as admitted
can be read at once, and a rejected one has changed no cache. The caches of one sample for
each key return what they hold; the caches of lists return the sample itself, also where
an element of its number is newer and stays.
-/

namespace DdsOrchestrator.Dataspace

open Capped (acceptsKey winner)

/-- Elements have different numbers, where they are numbered. -/
def ListTopic.Distinct : (t : ListTopic) → List t.Sample → Prop
  | output, l => (l.map TaskOutput.seqNum).Nodup
  | llmResult, l => (l.map LLMInferenceResult.seqNum).Nodup
  | contextUpdate, _ => True
  | executionTrace, l => (l.map ExecutionTraceEvent.seqNum).Nodup
  | securityUpdate, _ => True

/-- `b` has the number of `s` and is newer. -/
def ListTopic.Outdates : (t : ListTopic) → t.Sample → t.Sample → Prop
  | output, b, s => b.seqNum = s.seqNum ∧ s.emittedAtNs < b.emittedAtNs
  | llmResult, b, s => b.seqNum = s.seqNum ∧ s.emittedAtNs < b.emittedAtNs
  | contextUpdate, _, _ => False
  | executionTrace, b, s => b.seqNum = s.seqNum ∧ s.timestampNs < b.timestampNs
  | securityUpdate, _, _ => False

theorem ListTopic.distinct_nil (t : ListTopic) : t.Distinct [] := by
  cases t with
  | output => exact List.nodup_nil
  | llmResult => exact List.nodup_nil
  | contextUpdate => trivial
  | executionTrace => exact List.nodup_nil
  | securityUpdate => trivial

theorem ListTopic.distinct_add {t : ListTopic} {l : List t.Sample} {s : t.Sample}
    (h : t.Distinct l) : t.Distinct (t.add l s) := by
  cases t with
  | output => exact Capped.nodup_put h
  | llmResult => exact Capped.nodup_put h
  | contextUpdate => trivial
  | executionTrace => exact Capped.nodup_put h
  | securityUpdate => trivial

/-- In a list with distinct numbers a sample is in it unless it is outdated. -/
theorem mem_put_newest_iff {S : Type} {number : S → UInt32} {time : S → UInt64} {l : List S} {s : S}
    (h : (l.map number).Nodup) : s ∈ Capped.put number (newest time) maxChunksPerKey l s ↔
      ∀ b ∈ l, ¬ (number b = number s ∧ time s < time b) := by
  rw [Capped.mem_put_iff h (by simp [newest])]
  refine forall₂_congr fun b _ => ?_
  rw [not_and]
  exact imp_congr_right fun _ => by simp [newest]

theorem ListTopic.mem_add_iff {t : ListTopic} {l : List t.Sample} {s : t.Sample}
    (h : t.Distinct l) : s ∈ t.add l s ↔ ∀ b ∈ l, ¬ t.Outdates b s := by
  cases t with
  | output => exact mem_put_newest_iff h
  | llmResult => exact mem_put_newest_iff h
  | contextUpdate => exact iff_of_true (Capped.mem_append_self _ _ _) fun _ _ => id
  | executionTrace => exact mem_put_newest_iff h
  | securityUpdate => exact iff_of_true (Capped.mem_append_self _ _ _) fun _ _ => id

namespace TopicCaches

/-! ### The contract -/

/-- Every cache is as it was. -/
structure SameMaps (c d : TopicCaches) : Prop where
  tasks : d.tasks = c.tasks
  held : ∀ t : KeyedTopic, d.held t = c.held t
  listed : ∀ t : ListTopic, d.listed t = c.listed t

structure TaskContract (nowNs : UInt64) (s : Task) (c : TopicCaches) : Prop where
  accepted : ∀ a, (c.upsertTask nowNs s).1 = .accepted a →
    (c.upsertTask nowNs s).2.readTask a.taskId = some a
  rejected : ∀ a, (c.upsertTask nowNs s).1 = .rejected a →
    SameMaps (c.evictTerminalTasks nowNs terminalTtlUnderPressure) (c.upsertTask nowNs s).2

structure KeyedContract (t : KeyedTopic) (s : t.Sample) (c : TopicCaches) : Prop where
  accepted : ∀ a, (upsert t s c).1 = (a, true) →
    ((upsert t s c).2.held t).lookup (t.key a) = some a
  rejected : ∀ a, (upsert t s c).1 = (a, false) → SameMaps c (upsert t s c).2

structure ListContract (t : ListTopic) (s : t.Sample) (c : TopicCaches) : Prop where
  accepted : ∀ a, (push t s c).1 = (a, true) →
    ∃ l, ((push t s c).2.listed t).lookup (t.key a) = some l ∧ a ∈ l
  rejected : ∀ a, (push t s c).1 = (a, false) → SameMaps c (push t s c).2

/-- What a call promises with its result. -/
def Contract (c : TopicCaches) : Call → Prop
  | .task nowNs s => TaskContract nowNs s c
  | .keyed t s => KeyedContract t s c
  | .listed t s => ListContract t s c
  | .evict _ _ => True
  | .clear => True

/-- No element of the list to which the sample is added outdates it. -/
def NotOutdated (c : TopicCaches) : Call → Prop
  | .listed t s => ∀ l, (c.listed t).lookup (t.key s) = some l → ∀ b ∈ l, ¬ t.Outdates b s
  | _ => True

/-! ### What holds after any run -/

/-- Samples are under their keys, and numbered lists have distinct numbers. -/
structure Indexed (c : TopicCaches) : Prop where
  tasks : ∀ key t, c.tasks.lookup key = some t → t.taskId = key
  held : ∀ (t : KeyedTopic) key s, (c.held t).lookup key = some s → t.key s = key
  listed : ∀ (t : ListTopic) key l, (c.listed t).lookup key = some l → t.Distinct l

variable {c d : TopicCaches}

theorem Indexed.partOf (h : c.Indexed) (hd : d.PartOf c) : d.Indexed :=
  ⟨fun key t ht => h.tasks key t (hd.tasks key t ht),
    fun t key s hs => h.held t key s (hd.held t key s hs),
    fun t key l hl => h.listed t key l (hd.listed t key l hl)⟩

theorem Indexed.sameMaps (h : c.Indexed) (hd : SameMaps c d) : d.Indexed := by
  refine ⟨fun key t ht => ?_, fun t key s hs => ?_, fun t key l hl => ?_⟩
  · rw [hd.tasks] at ht
    exact h.tasks key t ht
  · rw [hd.held] at hs
    exact h.held t key s hs
  · rw [hd.listed] at hl
    exact h.listed t key l hl

theorem sameMaps_reject : SameMaps c c.reject :=
  ⟨rfl, held_reject, listed_reject⟩

theorem Indexed.upsertTask (h : c.Indexed) (nowNs : UInt64) (s : Task) :
    (c.upsertTask nowNs s).2.Indexed := by
  have houtcome := upsertTask_outcome c nowNs s
  generalize c.upsertTask nowNs s = r at houtcome
  have hroomFor : (c.roomFor nowNs s).Indexed := h.partOf roomFor_partOf
  cases houtcome with
  | rejected =>
      exact hroomFor.sameMaps ⟨rfl, fun t => by cases t <;> rfl, fun t => by cases t <;> rfl⟩
  | kept => exact h
  | stored =>
      refine ⟨fun key t ht => ?_, fun t key s' hs => ?_, fun t key l hl => ?_⟩
      · rcases Map.lookup_insert_eq_some.mp ht with ⟨rfl, rfl⟩ | ⟨-, hold⟩
        · rfl
        · exact hroomFor.tasks key t hold
      · exact hroomFor.held t key s' (by cases t <;> exact hs)
      · exact hroomFor.listed t key l (by cases t <;> exact hl)

theorem Indexed.upsert (h : c.Indexed) (t : KeyedTopic) (s : t.Sample) :
    (upsert t s c).2.Indexed := by
  rw [upsert_eq]
  unfold upsertKeyed
  split
  · refine ⟨fun key u hu => ?_, fun u key s' hs => ?_, fun u key l hl => ?_⟩
    · rw [tasks_hold] at hu
      exact h.tasks key u hu
    · by_cases hut : u = t
      · subst hut
        rw [held_hold_self, Capped.lookup_upsert] at hs
        split at hs
        · next hkey =>
            cases hs
            rw [hkey]
            cases hcur : (c.held u).lookup (u.key s) with
            | none => rfl
            | some cur =>
                rw [Capped.winner_some]
                split
                · rfl
                · exact h.held u _ cur hcur
        · exact h.held u key s' hs
      · rw [held_hold_of_ne hut] at hs
        exact h.held u key s' hs
    · rw [listed_hold] at hl
      exact h.listed u key l hl
  · exact h.sameMaps sameMaps_reject

theorem Indexed.getD (h : c.Indexed) (t : ListTopic) (key : String) :
    t.Distinct (((c.listed t).lookup key).getD []) := by
  cases hl : (c.listed t).lookup key with
  | none => exact t.distinct_nil
  | some l => exact h.listed t key l hl

theorem Indexed.push (h : c.Indexed) (t : ListTopic) (s : t.Sample) : (push t s c).2.Indexed := by
  rw [push_eq]
  unfold pushListed
  split
  · refine ⟨fun key u hu => ?_, fun u key s' hs => ?_, fun u key l hl => ?_⟩
    · rw [tasks_enlist] at hu
      exact h.tasks key u hu
    · rw [held_enlist] at hs
      exact h.held u key s' hs
    · by_cases hut : u = t
      · subst hut
        rw [listed_enlist_self] at hl
        rcases Map.lookup_insert_eq_some.mp hl with ⟨-, rfl⟩ | ⟨-, hold⟩
        · exact ListTopic.distinct_add (h.getD u _)
        · exact h.listed u key l hold
      · rw [listed_enlist_of_ne hut] at hl
        exact h.listed u key l hl
  · exact h.sameMaps sameMaps_reject

theorem indexed_new : new.Indexed := by
  refine ⟨fun key t h => ?_, fun t key s h => ?_, fun t key l h => ?_⟩
  · cases h
  · cases t <;> cases h
  · cases t <;> cases h

theorem Indexed.clearAll : c.clearAll.Indexed :=
  indexed_new.sameMaps ⟨rfl, fun t => by cases t <;> rfl, fun t => by cases t <;> rfl⟩

theorem Indexed.step (h : c.Indexed) (call : Call) : (c.step call).Indexed := by
  cases call with
  | task nowNs s => exact h.upsertTask nowNs s
  | keyed t s => exact h.upsert t s
  | listed t s => exact h.push t s
  | evict nowNs maxAgeNs => exact h.partOf evict_partOf
  | clear => exact .clearAll

theorem indexed_run (calls : List Call) : (new.run calls).Indexed :=
  Machine.foldl_invariant calls indexed_new fun _ call h => h.step call

/-! ### Who keeps the contract -/

theorem Indexed.taskContract (h : c.Indexed) (nowNs : UInt64) (s : Task) :
    TaskContract nowNs s c := by
  have houtcome := upsertTask_outcome c nowNs s
  constructor
  · generalize c.upsertTask nowNs s = r at houtcome
    intro a ha
    cases houtcome with
    | rejected => cases ha
    | kept cur hcur =>
        cases ha
        rw [readTask, h.tasks _ _ hcur]
        exact hcur
    | stored =>
        cases ha
        exact Map.lookup_insert_if _ _ _ _ |>.trans (if_pos rfl)
  · generalize c.upsertTask nowNs s = r at houtcome
    intro a ha
    cases houtcome with
    | rejected hnone hfull =>
        have hroomFor : c.roomFor nowNs s =
            c.evictTerminalTasks nowNs terminalTtlUnderPressure := by
          refine if_pos ⟨hnone, ?_⟩
          by_contra hroom
          have hsame : c.roomFor nowNs s = c := if_neg fun h => hroom h.2
          rw [hsame] at hfull
          exact hroom hfull
        rw [← hroomFor]
        exact ⟨rfl, fun t => by cases t <;> rfl, fun t => by cases t <;> rfl⟩
    | kept => cases ha
    | stored => cases ha

theorem Indexed.keyedContract (h : c.Indexed) (t : KeyedTopic) (s : t.Sample) :
    KeyedContract t s c := by
  have hkey : t.key (winner t.wins ((c.held t).lookup (t.key s)) s) = t.key s := by
    cases hcur : (c.held t).lookup (t.key s) with
    | none => rfl
    | some cur =>
        rw [Capped.winner_some]
        split
        · rfl
        · exact h.held t _ cur hcur
  constructor
  · intro a ha
    rw [upsert_eq] at ha ⊢
    unfold upsertKeyed at ha ⊢
    split at ha
    · cases ha
      rw [if_pos (by assumption), held_hold_self, Capped.lookup_upsert, if_pos hkey]
    · cases ha
  · intro a ha
    rw [upsert_eq] at ha ⊢
    unfold upsertKeyed at ha ⊢
    split at ha
    · cases ha
    · rw [if_neg (by assumption)]
      exact sameMaps_reject

theorem Indexed.listContract_iff (h : c.Indexed) (t : ListTopic) (s : t.Sample) :
    ListContract t s c ↔ c.NotOutdated (.listed t s) := by
  have hmem := ListTopic.mem_add_iff (s := s) (h.getD t (t.key s))
  have hadmitted : acceptsKey maxTasksInCache (c.listed t) (t.key s) = true →
      TopicCaches.push t s c = ((s, true), c.enlist t ((c.listed t).insert (t.key s)
        (t.add (((c.listed t).lookup (t.key s)).getD []) s))) := by
    intro haccepts
    rw [push_eq]
    exact if_pos haccepts
  constructor
  · intro hcontract l hl b hb
    have haccepts : acceptsKey maxTasksInCache (c.listed t) (t.key s) = true := by
      simp [acceptsKey, hl]
    obtain ⟨l', hl', hin⟩ := hcontract.accepted s (by rw [hadmitted haccepts])
    rw [hadmitted haccepts, listed_enlist_self, Map.lookup_insert_if, if_pos rfl,
      Option.some.injEq] at hl'
    subst hl'
    exact hmem.mp hin b (by rw [hl]; exact hb)
  · intro hnot
    have hnone : ∀ b ∈ ((c.listed t).lookup (t.key s)).getD [], ¬ t.Outdates b s := by
      intro b hb
      cases hl : (c.listed t).lookup (t.key s) with
      | none =>
          rw [hl] at hb
          cases hb
      | some l =>
          rw [hl] at hb
          exact hnot l hl b hb
    by_cases haccepts : acceptsKey maxTasksInCache (c.listed t) (t.key s) = true
    · refine ⟨fun a ha => ?_, fun a ha => ?_⟩
      · rw [hadmitted haccepts] at ha ⊢
        cases ha
        refine ⟨_, ?_, hmem.mpr hnone⟩
        rw [listed_enlist_self, Map.lookup_insert_if, if_pos rfl]
      · rw [hadmitted haccepts] at ha
        cases ha
    · have hrejected : TopicCaches.push t s c = ((s, false), c.reject) := by
        rw [push_eq]
        exact if_neg haccepts
      refine ⟨fun a ha => ?_, fun a ha => ?_⟩
      · rw [hrejected] at ha
        cases ha
      · rw [hrejected]
        exact sameMaps_reject

/-- After any run, a call keeps its promise exactly if its sample is not added to a list
with a newer element of its number. -/
theorem admission_contract_iff (calls : List Call) (call : Call) :
    (new.run calls).Contract call ↔ (new.run calls).NotOutdated call := by
  have h := indexed_run calls
  cases call with
  | task nowNs s => exact iff_of_true (h.taskContract nowNs s) trivial
  | keyed t s => exact iff_of_true (h.keyedContract t s) trivial
  | listed t s => exact h.listContract_iff t s
  | evict => exact Iff.rfl
  | clear => exact Iff.rfl

/-- A chunk of the task `task`. -/
def chunk (seqNum : UInt32) (content : String) (emittedAtNs : UInt64) : TaskOutput where
  taskId := "task"
  seqNum := seqNum
  content := content
  isFinal := false
  finishReason := 0
  agentId := "agent"
  tokenCount := 1
  emittedAtNs := emittedAtNs

/-- An older delivery of a chunk comes back as admitted, and is not in the list. -/
theorem stale_chunk_not_readable :
    (pushOutput (chunk 0 "old" 10) (new.run [.listed .output (chunk 0 "new" 20)])).1 =
        (chunk 0 "old" 10, true) ∧
      (pushOutput (chunk 0 "old" 10)
        (new.run [.listed .output (chunk 0 "new" 20)])).2.outputs.lookup
        "task" = some [chunk 0 "new" 20] ∧
      ¬ (new.run [.listed .output (chunk 0 "new" 20)]).Contract
        (.listed .output (chunk 0 "old" 10)) := by
  refine ⟨rfl, rfl, fun h => ?_⟩
  obtain ⟨l, hl, hin⟩ := h.accepted (chunk 0 "old" 10) rfl
  have hheld : l = [chunk 0 "new" 20] := (Option.some.inj hl).symm
  rw [hheld] at hin
  revert hin
  decide

end TopicCaches

end DdsOrchestrator.Dataspace
