import DdsOrchestrator.Lib.Chunked
import DdsOrchestrator.Dataspace.TopicCaches

/-!
The chunks of a task, of a request and of a trace. The three caches of numbered lists do the
same with a sample: it is rejected if its key is new and as many keys are held as there may
be, and otherwise it goes into the list of its key. What is said of the lists is said of
all the samples that are pushed, in any order and with any redelivery; what is said of
samples that must not get lost is said of those that the cache admits.
-/

namespace DdsOrchestrator.Dataspace

open Capped (acceptsKey LatestOf)

namespace TopicCaches

variable {S : Type} (push : S → TopicCaches → (S × Bool) × TopicCaches)
variable (lists : TopicCaches → Map String (List S)) (key : S → String)
variable (number : S → UInt32) (time : S → UInt64)

/-- The caches after these samples. -/
def pushAll (c : TopicCaches) (samples : List S) : TopicCaches :=
  samples.foldl (fun c s => (push s c).2) c

theorem pushAll_concat (c : TopicCaches) (samples : List S) (s : S) :
    pushAll push c (samples ++ [s]) = (push s (pushAll push c samples)).2 := by
  simp [pushAll]

/-- The list of a key, empty if there is none. -/
def chunks (k : String) (c : TopicCaches) : List S := ((lists c).lookup k).getD []

/-- The samples of a key that the pushes of a run admit. -/
def admitted (k : String) (c : TopicCaches) (samples : List S) : List S :=
  Machine.trace (fun c s => (push s c).2)
    (fun c s => if (push s c).1.2 = true ∧ key s = k then [s] else []) c samples

/-- A push into a cache of numbered lists. -/
structure PushesChunks : Prop where
  accepted : ∀ s c, (push s c).1.2 = acceptsKey maxTasksInCache (lists c) (key s)
  lists : ∀ s c, lists (push s c).2 =
    if (push s c).1.2 = true then (lists c).insert (key s)
      (Capped.put number (newest time) maxChunksPerKey (((lists c).lookup (key s)).getD []) s)
    else lists c

/-- What the lists are after any run that starts with empty caches. -/
structure ChunkLists : Prop where
  length_le : ∀ samples k,
    (chunks lists k (pushAll push new samples)).length ≤ maxChunksPerKey
  distinct : ∀ samples k, ((chunks lists k (pushAll push new samples)).map number).Nodup
  latest : ∀ samples k, ∀ e ∈ chunks lists k (pushAll push new samples),
    ∃ before first after, samples = before ++ first :: after ∧
      key first = k ∧ number first = number e ∧
      (∀ b ∈ chunks lists k (pushAll push new before), number b ≠ number e) ∧
      (∀ m s m', after = m ++ s :: m' → number e ∈
        (chunks lists k (pushAll push new (before ++ first :: m))).map number) ∧
      LatestOf time ((first :: after).filter fun s => key s = k ∧ number s = number e) e
  none_lost : ∀ samples k,
    ((admitted push key k new samples).map number).toFinset.card ≤ maxChunksPerKey →
      ∀ s ∈ admitted push key k new samples,
        number s ∈ (chunks lists k (pushAll push new samples)).map number
  order : ∀ samples samples' k,
    (admitted push key k new samples).Perm (admitted push key k new samples') →
    ((admitted push key k new samples).map number).toFinset.card ≤ maxChunksPerKey →
    (∀ s ∈ admitted push key k new samples, ∀ s' ∈ admitted push key k new samples,
      number s = number s' → time s = time s' → s = s') →
      ∀ e, e ∈ chunks lists k (pushAll push new samples) ↔
        e ∈ chunks lists k (pushAll push new samples')
  /-- A push is refused for a key that is not held while all that there may be are. -/
  refused : ∀ samples s, (push s (pushAll push new samples)).1.2 = false ↔
    key s ∉ lists (pushAll push new samples) ∧
      (lists (pushAll push new samples)).keys.length = maxTasksInCache
  admits : ∀ samples, (samples.map key).toFinset.card ≤ maxTasksInCache →
    ∀ k, admitted push key k new samples = samples.filter fun s => key s = k

theorem pushesChunks_listed (t : ListTopic) (key : t.Sample → String)
    (number : t.Sample → UInt32) (time : t.Sample → UInt64) :
    PushesChunks (fun s c => c.pushListed t (key s)
      (Capped.put number (newest time) maxChunksPerKey) s) (fun c => c.listed t)
      key number time := by
  constructor
  · intro s c
    show (c.pushListed t (key s) _ s).1.2 = _
    unfold pushListed
    split
    · next h => exact h.symm
    · next h => exact (Bool.not_eq_true _ ▸ h).symm
  · intro s c
    show (c.pushListed t (key s) _ s).2.listed t = _
    unfold pushListed
    split
    · rw [if_pos rfl, listed_enlist_self]
    · rw [if_neg Bool.false_ne_true, listed_reject]

variable {push lists key number time} {c : TopicCaches} {samples : List S} {s : S} {k : String}

/-! ### The list of one key -/

theorem PushesChunks.chunks_push (h : PushesChunks push lists key number time) (k : String)
    (c : TopicCaches) (s : S) : chunks lists k (push s c).2 =
      if (push s c).1.2 = true ∧ key s = k then
        Capped.put number (newest time) maxChunksPerKey (chunks lists k c) s
      else chunks lists k c := by
  unfold chunks
  rw [h.lists]
  by_cases haccepted : (push s c).1.2 = true
  · rw [if_pos haccepted, Map.lookup_insert_if]
    by_cases hkey : key s = k
    · rw [if_pos hkey.symm, if_pos ⟨haccepted, hkey⟩, hkey]
      rfl
    · rw [if_neg (Ne.symm hkey), if_neg fun h => hkey h.2]
  · rw [if_neg haccepted, if_neg fun h => haccepted h.1]

theorem PushesChunks.fills (h : PushesChunks push lists key number time) (k : String) :
    Capped.Fills (fun c s => (push s c).2) (chunks lists k)
      (fun c s => (push s c).1.2 = true ∧ key s = k) number (newest time) maxChunksPerKey :=
  h.chunks_push k

theorem newest_iff (time : S → UInt64) (new cur : S) :
    newest time new cur = true ↔ (time cur).toNat ≤ (time new).toNat := by
  rw [newest, decide_eq_true_eq, UInt64.le_iff_toNat_le]

section

variable (h : PushesChunks push lists key number time) (hempty : lists new = ∅)

include h in
/-- Where a key is held, every sample of the key is admitted. -/
theorem PushesChunks.admitted_of_held (hheld : ((lists c).lookup k).isSome) :
    admitted push key k c samples = samples.filter fun s => key s = k := by
  induction samples generalizing c with
  | nil => rfl
  | cons s samples ih =>
      have hnext : ((lists (push s c).2).lookup k).isSome := by
        rw [h.lists]
        split
        · rw [Map.lookup_insert_if]
          split
          · rfl
          · exact hheld
        · exact hheld
      rw [admitted, Machine.trace, ← admitted, ih hnext, List.filter_cons]
      by_cases hkey : key s = k
      · have haccepted : (push s c).1.2 = true := by
          rw [h.accepted, acceptsKey, hkey, hheld, Bool.true_or]
        rw [if_pos ⟨haccepted, hkey⟩, if_pos (decide_eq_true hkey)]
        rfl
      · rw [if_neg fun h => hkey h.2, if_neg (by simpa using hkey)]
        rfl

include h hempty in
theorem PushesChunks.chunks_eq_fill (samples : List S) (k : String) :
    chunks lists k (pushAll push new samples) =
      Capped.fill number (newest time) maxChunksPerKey (admitted push key k new samples) :=
  (h.fills k).view_run (by simp [chunks, hempty])

include h hempty in
theorem PushesChunks.latest_of_mem (samples : List S) (k : String) (e : S)
    (he : e ∈ chunks lists k (pushAll push new samples)) :
    ∃ before first after, samples = before ++ first :: after ∧
      key first = k ∧ number first = number e ∧
      (∀ b ∈ chunks lists k (pushAll push new before), number b ≠ number e) ∧
      (∀ m s m', after = m ++ s :: m' → number e ∈
        (chunks lists k (pushAll push new (before ++ first :: m))).map number) ∧
      LatestOf time ((first :: after).filter fun s => key s = k ∧ number s = number e) e := by
  have hfills := h.fills k
  obtain ⟨before, first, after, rfl, hsince⟩ :=
    hfills.heldSince (by simp [chunks, hempty]) (newest_iff time) he
  obtain ⟨haccepted, hkey⟩ := hsince.taken_first
  refine ⟨before, first, after, rfl, hkey, hsince.number_first, hsince.absent,
    hsince.present, ?_⟩
  -- with the first one the key is held, and every later one is admitted
  have hall : admitted push key k (pushAll push new before) (first :: after) =
      (first :: after).filter fun s => key s = k := by
    have hheld : ((lists (push first (pushAll push new before)).2).lookup k).isSome := by
      rw [h.lists, pushAll, if_pos haccepted, hkey]
      simp
    rw [admitted, Machine.trace, ← admitted, h.admitted_of_held hheld, pushAll,
      if_pos ⟨haccepted, hkey⟩, List.filter_cons, if_pos (decide_eq_true hkey)]
    rfl
  have hlatest : LatestOf (fun s => (time s).toNat)
      ((admitted push key k (pushAll push new before) (first :: after)).filter
        fun b => number b = number e) e := hsince.latest
  rw [hall, List.filter_filter] at hlatest
  have hfilter : (fun s => decide (key s = k ∧ number s = number e)) =
      fun s => decide (number s = number e) && decide (key s = k) :=
    funext fun s => by rw [Bool.decide_and, Bool.and_comm]
  rw [hfilter]
  exact hlatest

/-! ### Room for the keys -/

include h hempty in
theorem PushesChunks.key_mem_of_held (samples : List S) {k : String}
    (hk : k ∈ (lists (pushAll push new samples)).keys) : k ∈ samples.map key := by
  induction samples using List.reverseRecOn with
  | nil => rw [pushAll, List.foldl_nil, hempty] at hk; cases hk
  | append_singleton samples s ih =>
      rw [List.map_append, List.map_singleton]
      rw [pushAll_concat, h.lists] at hk
      split at hk
      · rcases AList.mem_insert _ |>.mp hk with rfl | hk
        · exact List.mem_append_right _ (List.mem_singleton_self _)
        · exact List.mem_append_left _ (ih hk)
      · exact List.mem_append_left _ (ih hk)

include h hempty in
theorem PushesChunks.length_keys_le (samples : List S) :
    (lists (pushAll push new samples)).keys.length ≤ maxTasksInCache := by
  induction samples using List.reverseRecOn with
  | nil =>
      rw [pushAll, List.foldl_nil, hempty]
      exact Nat.zero_le _
  | append_singleton samples s ih =>
      rw [pushAll_concat, h.lists]
      split
      · next haccepted =>
          rw [h.accepted, acceptsKey, Bool.or_eq_true, decide_eq_true_eq] at haccepted
          rw [AList.keys_insert, List.length_cons]
          by_cases hheld : key s ∈ (lists (pushAll push new samples)).keys
          · rw [List.length_erase_of_mem hheld]
            have := List.length_pos_of_mem hheld
            omega
          · rw [List.erase_of_not_mem hheld]
            refine haccepted.resolve_left fun hsome => hheld ?_
            exact AList.mem_keys.mp (AList.lookup_isSome.mp hsome)
      · exact ih

include h hempty in
theorem PushesChunks.refused_iff (samples : List S) (s : S) :
    (push s (pushAll push new samples)).1.2 = false ↔
      key s ∉ lists (pushAll push new samples) ∧
        (lists (pushAll push new samples)).keys.length = maxTasksInCache := by
  have hle := h.length_keys_le hempty samples
  rw [h.accepted, acceptsKey, Bool.or_eq_false_iff, decide_eq_false_iff_not, not_lt,
    Bool.eq_false_iff, ne_eq, AList.lookup_isSome]
  exact and_congr_right fun _ => ⟨fun hfull => le_antisymm hle hfull, fun hfull => hfull.ge⟩

include h hempty in
/-- While the keys fit, every sample is admitted. -/
theorem PushesChunks.admitted_eq_filter (samples : List S)
    (hkeys : (samples.map key).toFinset.card ≤ maxTasksInCache) (k : String) :
    admitted push key k new samples = samples.filter fun s => key s = k := by
  induction samples using List.reverseRecOn with
  | nil => rfl
  | append_singleton samples s ih =>
      have haccepted : (push s (pushAll push new samples)).1.2 = true := by
        rw [h.accepted, acceptsKey, Bool.or_eq_true]
        by_cases hheld : ((lists (pushAll push new samples)).lookup (key s)).isSome
        · exact .inl hheld
        · right
          have hnew : key s ∉ (lists (pushAll push new samples)).keys := fun hmem =>
            hheld (AList.lookup_isSome.mpr (AList.mem_keys.mpr hmem))
          have hsub : insert (key s) (lists (pushAll push new samples)).keys.toFinset ⊆
              ((samples ++ [s]).map key).toFinset := by
            intro k hk
            rw [List.mem_toFinset, List.map_append]
            rcases Finset.mem_insert.mp hk with rfl | hk
            · exact List.mem_append_right _ (List.mem_singleton_self _)
            · exact List.mem_append_left _
                (h.key_mem_of_held hempty samples (List.mem_toFinset.mp hk))
          have hcard := (Finset.card_le_card hsub).trans hkeys
          rw [Finset.card_insert_of_notMem (by rwa [List.mem_toFinset]),
            List.toFinset_card_of_nodup (AList.keys_nodup _)] at hcard
          exact decide_eq_true hcard
      have hbegins := ih ((Capped.card_numbers_concat_le samples s).trans hkeys)
      rw [admitted, Machine.trace_append, ← admitted, ← pushAll, hbegins, List.filter_append,
        Machine.trace, Machine.trace, List.append_nil]
      by_cases hkey : key s = k
      · rw [if_pos ⟨haccepted, hkey⟩, List.filter_cons, if_pos (decide_eq_true hkey)]
        rfl
      · rw [if_neg fun h => hkey h.2, List.filter_cons, if_neg (by simpa using hkey)]
        rfl

include h hempty in
theorem PushesChunks.chunkLists : ChunkLists push lists key number time where
  length_le samples k := by
    rw [h.chunks_eq_fill hempty]
    exact Capped.length_fill_le (by decide) _
  distinct samples k := by
    rw [h.chunks_eq_fill hempty]
    exact Capped.nodup_fill _
  latest := h.latest_of_mem hempty
  none_lost samples k hcap s hs := by
    rw [h.chunks_eq_fill hempty]
    exact Capped.number_mem_fill hcap (List.mem_map.mpr ⟨s, hs, rfl⟩)
  order samples samples' k hperm hcap hties e := by
    rw [h.chunks_eq_fill hempty, h.chunks_eq_fill hempty]
    exact Capped.mem_fill_perm (newest_iff time) hperm hcap fun s hs s' hs' hnumber htime =>
      hties s hs s' hs' hnumber (UInt64.toNat_inj.mp htime)
  refused := h.refused_iff hempty
  admits := h.admitted_eq_filter hempty

include h hempty in
/-- Samples of different keys take a key each. -/
theorem PushesChunks.length_keys (samples : List S) (hnodup : (samples.map key).Nodup)
    (hlength : samples.length ≤ maxTasksInCache) :
    (lists (pushAll push new samples)).keys.length = samples.length := by
  induction samples using List.reverseRecOn with
  | nil => rw [pushAll, List.foldl_nil, hempty]; rfl
  | append_singleton samples s ih =>
      rw [List.map_append, List.map_singleton] at hnodup
      rw [List.length_append, List.length_singleton] at hlength ⊢
      have hheld := ih hnodup.of_append_left (by omega)
      have hnew : key s ∉ (lists (pushAll push new samples)).keys := fun hmem =>
        (List.disjoint_of_nodup_append hnodup) (h.key_mem_of_held hempty samples hmem)
          (List.mem_singleton_self _)
      have haccepted : (push s (pushAll push new samples)).1.2 = true := by
        rw [h.accepted, acceptsKey, hheld, Bool.or_eq_true]
        exact .inr (decide_eq_true (by omega))
      rw [pushAll_concat, h.lists, if_pos haccepted, AList.keys_insert,
        List.erase_of_not_mem hnew, List.length_cons, hheld]

include h hempty in
/-- With all keys taken a sample of another key leaves nothing behind. -/
theorem PushesChunks.chunks_of_full (samples : List S) (s : S)
    (hnodup : ((samples ++ [s]).map key).Nodup) (hlength : samples.length = maxTasksInCache) :
    chunks lists (key s) (pushAll push new (samples ++ [s])) = [] := by
  rw [List.map_append, List.map_singleton] at hnodup
  have hfull := h.length_keys hempty samples hnodup.of_append_left hlength.le
  have hnone : (lists (pushAll push new samples)).lookup (key s) = none := by
    rw [AList.lookup_eq_none]
    intro hmem
    exact (List.disjoint_of_nodup_append hnodup)
      (h.key_mem_of_held hempty samples (AList.mem_keys.mp hmem)) (List.mem_singleton_self _)
  have hrejected : ¬ (push s (pushAll push new samples)).1.2 = true := by
    rw [h.accepted, acceptsKey, hnone, hfull, hlength]
    simp
  rw [pushAll_concat, h.chunks_push, if_neg fun h => hrejected h.1, chunks, hnone]
  rfl

end

/-- Outputs, results and traces are kept in the same way. -/
theorem chunk_lists :
    ChunkLists pushOutput outputs TaskOutput.taskId TaskOutput.seqNum TaskOutput.emittedAtNs ∧
    ChunkLists pushLlmResult llmResults LLMInferenceResult.requestId LLMInferenceResult.seqNum
      LLMInferenceResult.emittedAtNs ∧
    ChunkLists pushExecutionTrace executionTraces ExecutionTraceEvent.traceId
      ExecutionTraceEvent.seqNum ExecutionTraceEvent.timestampNs :=
  ⟨(pushesChunks_listed .output _ _ _).chunkLists rfl,
    (pushesChunks_listed .llmResult _ _ _).chunkLists rfl,
    (pushesChunks_listed .executionTrace _ _ _).chunkLists rfl⟩

/-! ### One key too many -/

/-- The only output of a task of its own. -/
def onlyOutput (n : Nat) : TaskOutput :=
  { taskId := String.ofList (List.replicate (n + 1) 'a'), seqNum := 0, content := ""
    isFinal := true, finishReason := 0, agentId := "agent-1", tokenCount := 0, emittedAtNs := 1 }

theorem nodup_onlyOutput (n : Nat) :
    (((List.range n).map onlyOutput).map TaskOutput.taskId).Nodup := by
  rw [List.map_map]
  refine List.Nodup.map (fun m m' h => ?_) List.nodup_range
  have hlength := congrArg List.length (String.ofList_injective h)
  simpa using hlength

/-- The task after as many as there may be has one number only, and its output is lost. -/
theorem output_beyond_keys_lost :
    let samples := (List.range (maxTasksInCache + 1)).map onlyOutput
    let last := onlyOutput maxTasksInCache
    last ∈ samples ∧
      ((samples.filter fun s => s.taskId = last.taskId).map
        TaskOutput.seqNum).toFinset.card ≤ maxChunksPerKey ∧
      last.seqNum ∉ (chunks outputs last.taskId (pushAll pushOutput new samples)).map
        TaskOutput.seqNum := by
  intro samples last
  have hsplit : samples = (List.range maxTasksInCache).map onlyOutput ++ [last] := by
    simp [samples, last, List.range_succ]
  refine ⟨?_, ?_, ?_⟩
  · rw [hsplit]
    exact List.mem_append_right _ (List.mem_singleton_self _)
  · have hzero : ∀ s ∈ samples, s.seqNum = 0 := by
      intro s hs
      obtain ⟨n, -, rfl⟩ := List.mem_map.mp hs
      rfl
    have hsub : ((samples.filter fun s => s.taskId = last.taskId).map
        TaskOutput.seqNum).toFinset ⊆ {0} := by
      intro n hn
      obtain ⟨s, hs, rfl⟩ := List.mem_map.mp (List.mem_toFinset.mp hn)
      exact Finset.mem_singleton.mpr (hzero s (List.mem_of_mem_filter hs))
    exact (Finset.card_le_card hsub).trans (by decide)
  · have hnone : chunks outputs last.taskId (pushAll pushOutput new samples) = [] := by
      have hnodup := nodup_onlyOutput (maxTasksInCache + 1)
      rw [hsplit]
      refine (pushesChunks_listed .output TaskOutput.taskId TaskOutput.seqNum
        TaskOutput.emittedAtNs).chunks_of_full rfl _ last ?_ (by simp)
      rwa [← hsplit]
    rw [hnone]
    exact List.not_mem_nil

end TopicCaches

end DdsOrchestrator.Dataspace
