import Mathlib.Data.List.MinMax
import DdsOrchestrator.Lib.Recency
import DdsOrchestrator.LlmGateway.Gateway

/-!
What the cache of results holds after any insertions. An entry has the number of its
insertion, and at the capacity the one with the least number goes. It goes before the key
that comes is looked at: where that key is held and is not the oldest one, an entry goes
that had not to go, and a cache for no entry holds one.
-/

namespace DdsOrchestrator.LlmGateway

open Dataspace (LLMInferenceResult)
open Recency (touch)
open Retained (lastOf)

/-- The least element of the images is the image of the least one. -/
theorem argmin_map {α β γ : Type*} [LinearOrder γ] (f : α → β) (g : β → γ) (l : List α) :
    (l.map f).argmin g = (l.argmin (g ∘ f)).map f := by
  induction l using List.reverseRecOn with
  | nil => rfl
  | append_singleton l a ih =>
      rw [List.map_append, List.map_singleton, List.argmin_concat, List.argmin_concat, ih]
      cases l.argmin (g ∘ f) with
      | none => rfl
      | some b =>
          show (if g (f a) < g (f b) then some (f a) else some (f b)) =
            Option.map f (if g (f a) < g (f b) then some a else some b)
          split <;> rfl

/-! ### What has been inserted -/

/-- The last insertion of a key. -/
structure Inserted where
  key : String
  number : Nat
  result : LLMInferenceResult
  deriving DecidableEq

namespace Inserted

/-- The number as the cache has it, in 64 bits. -/
def counter (i : Inserted) : UInt64 := UInt64.ofNat i.number

def entry (i : Inserted) : Sigma fun _ : String => CacheEntry := ⟨i.key, ⟨i.counter, i.result⟩⟩

end Inserted

/-- Every key once, at the place of its last insertion and with the result of that one. -/
def recent (calls : List (String × LLMInferenceResult)) : List Inserted :=
  calls.zipIdx.foldl (fun l c => touch Inserted.key l ⟨c.1.1, c.2, c.1.2⟩) []

/-- The most recent ones. -/
def due (maxSize : Nat) (calls : List (String × LLMInferenceResult)) : List Inserted :=
  lastOf maxSize (recent calls)

/-- The key with the least counter. -/
def firstOut (held : List Inserted) : Option String :=
  (held.reverse.argmin fun i => i.counter.toNat).map Inserted.key

/-- The key that has to go for this one: the key itself if it is held, and else the oldest. -/
def hasToGo (held : List Inserted) (key : String) : Option String :=
  if key ∈ held.map Inserted.key then some key else held.head?.map Inserted.key

/-- The insertion finds room, or the key with the least counter is the one that has to go. -/
def Harmless (maxSize : Nat) (before : List (String × LLMInferenceResult)) (key : String) : Prop :=
  0 < maxSize ∧ (maxSize ≤ (recent before).length →
    firstOut (due maxSize before) = hasToGo (due maxSize before) key)

namespace LlmCache

def len (c : LlmCache) : Nat := c.cache.entries.length

def insertAll (c : LlmCache) (calls : List (String × LLMInferenceResult)) : LlmCache :=
  calls.foldl (fun c call => c.insert call.1 call.2) c

end LlmCache

/-- The cache of this size after these insertions. -/
def cacheAfter (maxSize : Nat) (calls : List (String × LLMInferenceResult)) : LlmCache :=
  (LlmCache.new maxSize).insertAll calls

/-- The cache holds the most recent keys with their results. -/
structure HoldsDue (maxSize : Nat) (calls : List (String × LLMInferenceResult)) : Prop where
  len_le : (cacheAfter maxSize calls).len ≤ maxSize
  get_iff : ∀ key result, (cacheAfter maxSize calls).get key = some result ↔
    ∃ i ∈ due maxSize calls, i.key = key ∧ i.result = result

/-- So it does all the time, and a key that is held comes again without the loss of another. -/
structure FifoCache (maxSize : Nat) (calls : List (String × LLMInferenceResult)) : Prop where
  holdsDue : ∀ before after, calls = before ++ after → HoldsDue maxSize before
  reinsert : ∀ before key result after, calls = before ++ (key, result) :: after →
    (cacheAfter maxSize before).get key ≠ none → ∀ other, other ≠ key →
      (cacheAfter maxSize (before ++ [(key, result)])).get other =
        (cacheAfter maxSize before).get other

/-! ### The cache as a list -/

/-- What the eviction leaves. -/
def evicted (maxSize : Nat) (held : List Inserted) : List Inserted :=
  if held.length < maxSize then held
  else match firstOut held with
    | some key => held.filter fun i => i.key ≠ key
    | none => held

/-- The cache holds these, the last one in front. -/
structure Mirrors (maxSize n : Nat) (held : List Inserted) (c : LlmCache) : Prop where
  maxSize : c.maxSize = maxSize
  clock : c.clock = UInt64.ofNat n
  entries : c.cache.entries = (held.map Inserted.entry).reverse

variable {maxSize n : Nat} {held : List Inserted} {c : LlmCache} {key : String}
variable {result : LLMInferenceResult} {calls : List (String × LLMInferenceResult)}

theorem filter_entries (held : List Inserted) (key : String) :
    (held.map Inserted.entry).reverse.filter (fun e => e.1 ≠ key) =
      ((held.filter fun i => i.key ≠ key).map Inserted.entry).reverse := by
  rw [List.filter_reverse, List.filter_map]
  rfl

theorem oldestKey_entries (held : List Inserted) :
    LlmCache.oldestKey (held.map Inserted.entry).reverse = firstOut held := by
  rw [LlmCache.oldestKey, ← List.map_reverse, argmin_map, Option.map_map]
  rfl

theorem Mirrors.evict (h : Mirrors maxSize n held c) :
    Mirrors maxSize n (evicted maxSize held) c.evict := by
  unfold LlmCache.evict evicted
  rw [h.entries, h.maxSize, oldestKey_entries, List.length_reverse, List.length_map]
  split
  · exact h
  · cases firstOut held with
    | none => exact h
    | some key =>
        refine ⟨rfl, h.clock, ?_⟩
        show (c.cache.erase key).entries = _
        rw [Map.entries_erase, h.entries, filter_entries]

/-- An insertion does to the list what it does to the cache. -/
theorem Mirrors.insert (h : Mirrors maxSize n held c) (key : String)
    (result : LLMInferenceResult) :
    Mirrors maxSize (n + 1) (touch Inserted.key (evicted maxSize held) ⟨key, n, result⟩)
      (c.insert key result) := by
  have hevict := h.evict
  refine ⟨hevict.maxSize, ?_, ?_⟩
  · show c.clock + 1 = UInt64.ofNat (n + 1)
    rw [h.clock]
    apply UInt64.toNat_inj.mp
    simp
  · show (c.evict.cache.insert key ⟨c.clock, result⟩).entries = _
    rw [AList.entries_insert, h.clock, touch, List.map_append, List.reverse_append,
      ← filter_entries, ← hevict.entries, ← Map.entries_erase]
    rfl

theorem Mirrors.get_eq_some (h : Mirrors maxSize n held c) :
    c.get key = some result ↔ ∃ i ∈ held, i.key = key ∧ i.result = result := by
  rw [LlmCache.get, Option.map_eq_some_iff]
  constructor
  · rintro ⟨e, he, rfl⟩
    have hmem := Map.mem_entries.mpr he
    rw [h.entries, List.mem_reverse] at hmem
    obtain ⟨i, hi, heq⟩ := List.mem_map.mp hmem
    cases heq
    exact ⟨i, hi, rfl, rfl⟩
  · rintro ⟨i, hi, rfl, rfl⟩
    refine ⟨⟨i.counter, i.result⟩, Map.mem_entries.mp ?_, rfl⟩
    rw [h.entries, List.mem_reverse]
    exact List.mem_map.mpr ⟨i, hi, rfl⟩

theorem Mirrors.len_eq (h : Mirrors maxSize n held c) : c.len = held.length := by
  rw [LlmCache.len, h.entries, List.length_reverse, List.length_map]

/-! ### Runs -/

theorem recent_concat (calls : List (String × LLMInferenceResult))
    (call : String × LLMInferenceResult) : recent (calls ++ [call]) =
      touch Inserted.key (recent calls) ⟨call.1, calls.length, call.2⟩ := by
  rw [recent, List.zipIdx_append, List.foldl_append, ← recent]
  simp

theorem nodup_recent (calls : List (String × LLMInferenceResult)) :
    ((recent calls).map Inserted.key).Nodup := by
  induction calls using List.reverseRecOn with
  | nil => exact List.nodup_nil
  | append_singleton calls call ih => rw [recent_concat]; exact Recency.nodup_touch ih _

theorem nodup_due (maxSize : Nat) (calls : List (String × LLMInferenceResult)) :
    ((due maxSize calls).map Inserted.key).Nodup :=
  (nodup_recent calls).sublist ((List.drop_sublist _ _).map _)

theorem cacheAfter_concat (maxSize : Nat) (calls : List (String × LLMInferenceResult))
    (call : String × LLMInferenceResult) : cacheAfter maxSize (calls ++ [call]) =
      (cacheAfter maxSize calls).insert call.1 call.2 := by
  simp [cacheAfter, LlmCache.insertAll]

/-- The cache holds what is due, entry by entry. -/
def InStep (maxSize : Nat) (calls : List (String × LLMInferenceResult)) : Prop :=
  Mirrors maxSize calls.length (due maxSize calls) (cacheAfter maxSize calls)

theorem InStep.holdsDue (h : InStep maxSize calls) : HoldsDue maxSize calls := by
  refine ⟨?_, fun key result => h.get_eq_some⟩
  rw [h.len_eq, due, Retained.length_lastOf]
  exact Nat.min_le_left _ _

theorem inStep_nil (maxSize : Nat) : InStep maxSize [] :=
  ⟨rfl, rfl, by simp [due, recent, cacheAfter, LlmCache.insertAll, LlmCache.new]⟩

section

variable (maxSize calls) (call : String × LLMInferenceResult)

theorem length_due_lt_iff :
    (due maxSize calls).length < maxSize ↔ (recent calls).length < maxSize := by
  rw [due, Retained.length_lastOf]
  omega

/-- The key that comes is not held, and there is no room. -/
theorem due_concat_of_full (hsize : 0 < maxSize) (hfull : maxSize ≤ (recent calls).length)
    (hnew : call.1 ∉ (due maxSize calls).map Inserted.key) : due maxSize (calls ++ [call]) =
      (due maxSize calls).tail ++ [⟨call.1, calls.length, call.2⟩] := by
  rw [due, recent_concat]
  exact Recency.lastOf_touch_of_full hsize hfull hnew

theorem due_concat_of_room (hroom : (recent calls).length < maxSize ∨
    call.1 ∈ (due maxSize calls).map Inserted.key) : due maxSize (calls ++ [call]) =
      touch Inserted.key (due maxSize calls) ⟨call.1, calls.length, call.2⟩ := by
  rw [due, recent_concat]
  exact Recency.lastOf_touch_of_room (nodup_recent calls) hroom

end

variable {call : String × LLMInferenceResult}

/-- A harmless insertion keeps the cache in step. -/
theorem InStep.concat (h : InStep maxSize calls) (hcall : Harmless maxSize calls call.1) :
    InStep maxSize (calls ++ [call]) := by
  have hnext := h.insert call.1 call.2
  have hlist : touch Inserted.key (evicted maxSize (due maxSize calls))
      ⟨call.1, calls.length, call.2⟩ = due maxSize (calls ++ [call]) := by
    unfold evicted
    split
    · next hroom =>
        exact (due_concat_of_room maxSize calls call
          (.inl ((length_due_lt_iff maxSize calls).mp hroom))).symm
    · next hfull =>
        rw [length_due_lt_iff, not_lt] at hfull
        rw [hcall.2 hfull, hasToGo]
        by_cases hheld : call.1 ∈ (due maxSize calls).map Inserted.key
        · rw [if_pos hheld, due_concat_of_room maxSize calls call (.inr hheld)]
          exact Recency.touch_filter _ _
        · rw [if_neg hheld, due_concat_of_full maxSize calls call hcall.1 hfull hheld]
          have hnodup := nodup_due maxSize calls
          cases hdue : due maxSize calls with
          | nil => rfl
          | cons i rest =>
              rw [hdue] at hnodup hheld
              rw [List.map_cons, List.nodup_cons] at hnodup
              rw [List.map_cons, List.mem_cons, not_or] at hheld
              -- only the oldest entry has its key
              have htail : (i :: rest).filter (fun j => j.key ≠ i.key) = rest := by
                rw [List.filter_cons, if_neg (by simp), List.filter_eq_self]
                intro j hj
                exact decide_eq_true fun hkey => hnodup.1 (hkey ▸ List.mem_map_of_mem hj)
              show touch Inserted.key ((i :: rest).filter fun j => j.key ≠ i.key) _ = _
              rw [htail]
              exact Recency.touch_of_notMem hheld.2
  rw [hlist, ← cacheAfter_concat] at hnext
  rw [InStep, List.length_append, List.length_singleton]
  exact hnext

/-- Any other insertion leaves too many entries, or one is missing. -/
theorem InStep.harmless (h : InStep maxSize calls)
    (hholds : HoldsDue maxSize (calls ++ [call])) : Harmless maxSize calls call.1 := by
  have hnext := h.insert call.1 call.2
  rw [← cacheAfter_concat] at hnext
  have hsize : 0 < maxSize := by
    have hlen := hholds.len_le
    rw [hnext.len_eq, touch, List.length_append, List.length_singleton] at hlen
    omega
  refine ⟨hsize, fun hfull => ?_⟩
  have hnotRoom : ¬ (due maxSize calls).length < maxSize := by
    rw [length_due_lt_iff]
    omega
  have hlength : (due maxSize calls).length = maxSize := by
    rw [due, Retained.length_lastOf]
    omega
  -- some entry goes, and the cache misses it afterwards
  obtain ⟨gone, hgone⟩ : ∃ gone, firstOut (due maxSize calls) = some gone := by
    rw [← Option.ne_none_iff_exists', firstOut, ne_eq, Option.map_eq_none_iff,
      List.argmin_eq_none, List.reverse_eq_nil_iff]
    intro hnil
    rw [hnil] at hlength
    exact absurd hlength (by simp; omega)
  have hmem : gone ∈ (due maxSize calls).map Inserted.key := by
    obtain ⟨i, hi, rfl⟩ := Option.map_eq_some_iff.mp hgone
    exact List.mem_map_of_mem (List.mem_reverse.mp (List.argmin_mem hi))
  by_contra hother
  rw [hgone, hasToGo] at hother
  obtain ⟨hne, hstill⟩ : gone ≠ call.1 ∧
      gone ∈ (due maxSize (calls ++ [call])).map Inserted.key := by
    by_cases hheld : call.1 ∈ (due maxSize calls).map Inserted.key
    · rw [if_pos hheld, Option.some.injEq] at hother
      obtain ⟨i, hi, hkey⟩ := List.mem_map.mp hmem
      refine ⟨hother, List.mem_map.mpr ⟨i, ?_, hkey⟩⟩
      rw [due_concat_of_room maxSize calls call (.inr hheld), Recency.mem_touch]
      exact .inl ⟨hi, hkey ▸ hother⟩
    · rw [if_neg hheld] at hother
      refine ⟨fun heq => hheld (heq ▸ hmem), ?_⟩
      rw [due_concat_of_full maxSize calls call hsize hfull hheld, List.map_append]
      apply List.mem_append_left
      cases hdue : due maxSize calls with
      | nil => rw [hdue] at hmem; cases hmem
      | cons i rest =>
          rw [hdue] at hmem hother
          rw [List.map_cons, List.mem_cons] at hmem
          exact hmem.resolve_left fun heq => hother (congrArg some heq)
  obtain ⟨i, hi, hkey⟩ := List.mem_map.mp hstill
  have hget := (hholds.get_iff gone i.result).mpr ⟨i, hi, hkey, rfl⟩
  obtain ⟨j, hj, hjkey, -⟩ := hnext.get_eq_some.mp hget
  rw [Recency.mem_touch, evicted, if_neg hnotRoom, hgone] at hj
  rcases hj with ⟨hj, -⟩ | rfl
  · exact of_decide_eq_true (List.mem_filter.mp hj).2 hjkey
  · exact hne hjkey.symm

theorem inStep_of_harmless (h : ∀ before call after, calls = before ++ call :: after →
    Harmless maxSize before call.1) : InStep maxSize calls := by
  induction calls using List.reverseRecOn with
  | nil => exact inStep_nil maxSize
  | append_singleton calls call ih =>
      refine (ih fun before c after hsplit => ?_).concat (h calls call [] rfl)
      exact h before c (after ++ [call]) (by rw [hsplit]; simp)

/-- Where a key is held, a harmless insertion leaves the others. -/
theorem HoldsDue.get_other (h : HoldsDue maxSize calls)
    (hnext : HoldsDue maxSize (calls ++ [call]))
    (hheld : (cacheAfter maxSize calls).get call.1 ≠ none) {other : String} (hne : other ≠ call.1) :
    (cacheAfter maxSize (calls ++ [call])).get other = (cacheAfter maxSize calls).get other := by
  obtain ⟨result, hresult⟩ := Option.ne_none_iff_exists'.mp hheld
  obtain ⟨i, hi, hkey, -⟩ := (h.get_iff _ _).mp hresult
  have hdue := due_concat_of_room maxSize calls call (.inr (hkey ▸ List.mem_map_of_mem hi))
  apply Option.ext
  intro r
  rw [hnext.get_iff, h.get_iff, hdue]
  constructor
  · rintro ⟨j, hj, hjkey, hjresult⟩
    rcases Recency.mem_touch.mp hj with ⟨hj, -⟩ | rfl
    · exact ⟨j, hj, hjkey, hjresult⟩
    · exact absurd hjkey.symm hne
  · rintro ⟨j, hj, hjkey, hjresult⟩
    exact ⟨j, Recency.mem_touch.mpr (.inl ⟨hj, fun h => hne (hjkey.symm.trans h)⟩),
      hjkey, hjresult⟩

/-! ### Before the counter starts again -/

theorem recent_ascending (calls : List (String × LLMInferenceResult)) :
    (recent calls).Pairwise (fun i j => i.number < j.number) ∧
      ∀ i ∈ recent calls, i.number < calls.length := by
  induction calls using List.reverseRecOn with
  | nil => exact ⟨.nil, fun i hi => by cases hi⟩
  | append_singleton calls call ih =>
      obtain ⟨hpairwise, hlt⟩ := ih
      rw [recent_concat, List.length_append, List.length_singleton]
      refine ⟨List.pairwise_append.mpr ⟨hpairwise.filter _, List.pairwise_singleton _ _, ?_⟩, ?_⟩
      · intro i hi j hj
        rw [List.mem_singleton.mp hj]
        exact hlt i (List.mem_of_mem_filter hi)
      · intro i hi
        rcases Recency.mem_touch.mp hi with ⟨hi, -⟩ | rfl
        · exact (hlt i hi).trans (Nat.lt_succ_self _)
        · exact Nat.lt_succ_self _

/-- The key with the least counter is the oldest one. -/
theorem firstOut_due (hshort : calls.length ≤ UInt64.size) :
    firstOut (due maxSize calls) = (due maxSize calls).head?.map Inserted.key := by
  obtain ⟨hpairwise, hlt⟩ := recent_ascending calls
  have hdrop := hpairwise.sublist (List.drop_sublist ((recent calls).length - maxSize) _)
  have hmem : ∀ i ∈ due maxSize calls, i.counter.toNat = i.number := by
    intro i hi
    have := hlt i (List.mem_of_mem_drop hi)
    exact UInt64.toNat_ofNat_of_lt' (by omega)
  rw [firstOut]
  change (due maxSize calls).Pairwise _ at hdrop
  cases hdue : due maxSize calls with
  | nil => rfl
  | cons i rest =>
      rw [hdue] at hdrop hmem
      have hfirst := (List.pairwise_cons.mp hdrop).1
      cases hleast : (i :: rest).reverse.argmin (fun i => i.counter.toNat) with
      | none => simp [List.argmin_eq_none] at hleast
      | some least =>
          have hleastMem := List.mem_reverse.mp (List.argmin_mem hleast)
          have hle := List.le_of_mem_argmin
            (List.mem_reverse.mpr (List.mem_cons_self (a := i) (l := rest))) hleast
          rcases List.mem_cons.mp hleastMem with rfl | hrest
          · rfl
          · have hlater := hfirst least hrest
            rw [hmem i List.mem_cons_self, hmem least hleastMem] at hle
            omega

/-- Then an insertion does harm if it finds its key in the full cache, and not as the oldest
one. -/
theorem harmless_iff_of_short (hshort : calls.length ≤ UInt64.size) :
    Harmless maxSize calls key ↔ 0 < maxSize ∧ (maxSize ≤ (recent calls).length →
      key ∈ (due maxSize calls).map Inserted.key →
        (due maxSize calls).head?.map Inserted.key = some key) := by
  rw [Harmless, firstOut_due hshort, hasToGo]
  refine and_congr_right fun _ => imp_congr_right fun _ => ?_
  split
  · next hheld => exact ⟨fun h _ => h, fun h => h hheld⟩
  · next hnew => exact iff_of_true rfl fun h => absurd h hnew

/-- The cache is as it should be all the time exactly if every insertion is harmless. -/
theorem fifoCache_iff (maxSize : Nat) (calls : List (String × LLMInferenceResult)) :
    FifoCache maxSize calls ↔ ∀ before call after, calls = before ++ call :: after →
      Harmless maxSize before call.1 := by
  constructor
  · intro h
    have hall : ∀ before after, calls = before ++ after →
        (∀ b call a, before = b ++ call :: a → Harmless maxSize b call.1) := by
      intro before
      induction before using List.reverseRecOn with
      | nil => intro after _ b call a hsplit; simp at hsplit
      | append_singleton before call ih =>
          intro after hcalls b c a hsplit
          have hbegins := ih (call :: after) (by rw [hcalls]; simp)
          rcases List.eq_nil_or_concat a with rfl | ⟨a', d, rfl⟩
          · obtain ⟨rfl, hlast⟩ := List.append_inj' hsplit rfl
            obtain rfl := List.singleton_inj.mp hlast
            exact (inStep_of_harmless hbegins).harmless (h.holdsDue _ after hcalls)
          · rw [List.concat_eq_append, ← List.cons_append, ← List.append_assoc] at hsplit
            exact hbegins b c a' (List.append_inj' hsplit rfl).1
    exact hall calls [] (List.append_nil calls).symm
  · intro h
    have hholds : ∀ before after, calls = before ++ after → HoldsDue maxSize before := by
      intro before after hsplit
      refine (inStep_of_harmless fun b c a hb => ?_).holdsDue
      exact h b c (a ++ after) (by rw [hsplit, hb]; simp)
    refine ⟨hholds, ?_⟩
    intro before key result after hsplit hheld other hne
    exact (hholds before _ hsplit).get_other (hholds (before ++ [(key, result)]) after
      (by rw [hsplit]; simp)) hheld hne

/-! ### A key that comes again -/

def answered (content : String) : LLMInferenceResult :=
  { requestId := "req-1", seqNum := 0, content := content, isFinal := true, finishReason := 1
    modelUsed := "model", tokensPrompt := 1, tokensCompletion := 1, emittedAtNs := 1 }

/-- Two entries fit, the second key comes again and the first one is lost. Where none fits
there is one. -/
theorem reinsertion_evicts_other :
    let calls := [("a", answered "1"), ("b", answered "2"), ("b", answered "3")]
    (cacheAfter 2 (calls.take 2)).get "a" = some (answered "1") ∧
      (cacheAfter 2 calls).get "a" = none ∧ ¬ FifoCache 2 calls ∧
      (cacheAfter 0 (calls.take 1)).len = 1 ∧ ¬ FifoCache 0 (calls.take 1) := by
  intro calls
  have hbefore : (cacheAfter 2 (calls.take 2)).get "a" = some (answered "1") := by decide
  have hafter : (cacheAfter 2 calls).get "a" = none := by decide
  have hlen : (cacheAfter 0 (calls.take 1)).len = 1 := by decide
  refine ⟨hbefore, hafter, fun h => ?_, hlen, fun h => ?_⟩
  · have hkept := h.reinsert (calls.take 2) "b" (answered "3") [] rfl (by decide) "a" (by decide)
    exact absurd (hafter.symm.trans (hkept.trans hbefore)) (by simp)
  · have hle := (h.holdsDue (calls.take 1) [] (List.append_nil _).symm).len_le
    omega

end DdsOrchestrator.LlmGateway
