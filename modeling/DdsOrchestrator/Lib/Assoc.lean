import Mathlib.Data.List.AList
import Mathlib.Algebra.BigOperators.Group.List.Basic
import Mathlib.Algebra.Order.BigOperators.Group.List
import Mathlib.Algebra.Order.Group.Int
import Mathlib.Algebra.BigOperators.Group.Multiset.Basic
import Mathlib.Algebra.Order.BigOperators.Group.Multiset
import Mathlib.Tactic.Abel

/-!
Finite maps as association lists with distinct keys, in the non-dependent form
in which hash maps and keyed tables use them. Mathlib's `AList` has lookup,
insertion and erasure; added here are the update of every value, and sums over
the entries with the two equations an insertion obeys.
-/

namespace DdsOrchestrator

/-- A finite map with values of one type. -/
abbrev Map (α β : Type*) := AList (fun _ : α => β)

namespace Map

variable {α β : Type*}

/-- Apply `f` to every value; the keys stay. -/
def mapVals (f : α → β → β) (m : Map α β) : Map α β where
  entries := m.entries.map fun e => ⟨e.1, f e.1 e.2⟩
  nodupKeys := by
    have h : (m.entries.map fun e => (⟨e.1, f e.1 e.2⟩ : Sigma fun _ : α => β)).keys =
        m.entries.keys := by
      simp [List.keys, Function.comp_def]
    rw [List.NodupKeys, h]
    exact m.nodupKeys

/-- The sum of `f` over the entries. -/
def sumOf (f : α → β → ℤ) (m : Map α β) : ℤ :=
  (m.entries.map fun e => f e.1 e.2).sum

theorem sumOf_empty (f : α → β → ℤ) : sumOf f (∅ : Map α β) = 0 := rfl

variable [DecidableEq α]

theorem lookup_insert_if (m : Map α β) (a b : α) (v : β) :
    (m.insert b v).lookup a = if a = b then some v else m.lookup a := by
  by_cases h : a = b
  · subst h; simp
  · simp [h, AList.lookup_insert_ne h]

theorem lookup_insert_eq_some {m : Map α β} {a b : α} {v w : β} :
    (m.insert b v).lookup a = some w ↔ (a = b ∧ w = v) ∨ (a ≠ b ∧ m.lookup a = some w) := by
  rw [lookup_insert_if]
  by_cases h : a = b
  · simp [h, eq_comm]
  · simp [h]

theorem lookup_erase_if (m : Map α β) (a b : α) :
    (m.erase b).lookup a = if a = b then none else m.lookup a := by
  by_cases h : a = b
  · subst h; simp
  · simp [h, AList.lookup_erase_ne h]

/-- Erasing a key leaves the entries of the other keys. -/
theorem entries_erase (m : Map α β) (a : α) :
    (m.erase a).entries = m.entries.filter fun e => e.1 ≠ a := by
  have key : ∀ l : List (Sigma fun _ : α => β), l.NodupKeys →
      List.kerase a l = l.filter fun e => e.1 ≠ a := by
    intro l hl
    induction l with
    | nil => rfl
    | cons e l ih =>
        obtain ⟨hnotMem, hrest⟩ := List.nodupKeys_cons.mp hl
        by_cases he : a = e.1
        · have hall : l.filter (fun f => f.1 ≠ a) = l := by
            rw [List.filter_eq_self]
            intro f hf
            rw [decide_eq_true_eq]
            intro hfa
            rw [he] at hfa
            exact hnotMem (hfa ▸ List.mem_keys_of_mem hf)
          rw [List.kerase_cons_eq he, List.filter_cons_of_neg (by simp [he]), hall]
        · have hkeep : decide (e.1 ≠ a) = true := decide_eq_true (Ne.symm he)
          rw [List.kerase_cons_ne he, ih hrest, List.filter_cons, if_pos hkeep]
  exact key m.entries m.nodupKeys

theorem lookup_of_lookup_erase {m : Map α β} {a b : α} {v : β}
    (h : (m.erase b).lookup a = some v) : m.lookup a = some v := by
  rw [lookup_erase_if] at h
  split at h
  · cases h
  · exact h

theorem mem_iff_lookup {m : Map α β} {a : α} : a ∈ m ↔ ∃ v, m.lookup a = some v := by
  rw [← AList.lookup_isSome, Option.isSome_iff_exists]

theorem mem_entries {m : Map α β} {a : α} {v : β} :
    (⟨a, v⟩ : Sigma fun _ : α => β) ∈ m.entries ↔ m.lookup a = some v :=
  (List.mem_dlookup_iff m.nodupKeys).symm

@[simp] theorem lookup_mapVals (f : α → β → β) (m : Map α β) (a : α) :
    (mapVals f m).lookup a = (m.lookup a).map (f a) := by
  have key : ∀ l : List (Sigma fun _ : α => β),
      List.dlookup a (l.map fun e => (⟨e.1, f e.1 e.2⟩ : Sigma fun _ : α => β)) =
        (List.dlookup a l).map (f a) := by
    intro l
    induction l with
    | nil => simp
    | cons e l ih =>
        obtain ⟨b, v⟩ := e
        by_cases h : b = a
        · subst h; simp
        · rw [List.map_cons, List.dlookup_cons_ne _ _ (Ne.symm h),
            List.dlookup_cons_ne _ _ (Ne.symm h), ih]
  exact key m.entries

theorem sumOf_insert_of_notMem (f : α → β → ℤ) {m : Map α β} {a : α} (v : β)
    (h : m.lookup a = none) : sumOf f (m.insert a v) = f a v + sumOf f m := by
  simp only [sumOf, AList.entries_insert_of_notMem (AList.lookup_eq_none.mp h),
    List.map_cons, List.sum_cons]

/-- Replacing a value changes the sum by the new term minus the old one. -/
theorem sumOf_insert_of_lookup (f : α → β → ℤ) {m : Map α β} {a : α} {v₀ : β} (v : β)
    (h : m.lookup a = some v₀) :
    sumOf f (m.insert a v) = sumOf f m - f a v₀ + f a v := by
  have key : ∀ l : List (Sigma fun _ : α => β), List.dlookup a l = some v₀ →
      (l.map fun e => f e.1 e.2).sum =
        f a v₀ + ((List.kerase a l).map fun e => f e.1 e.2).sum := by
    intro l
    induction l with
    | nil => simp
    | cons e l ih =>
        obtain ⟨b, w⟩ := e
        intro hl
        by_cases hb : a = b
        · subst hb
          have hw : w = v₀ := by simpa using hl
          simp [hw]
        · rw [List.dlookup_cons_ne _ _ hb] at hl
          rw [List.kerase_cons_ne hb]
          simp only [List.map_cons, List.sum_cons, ih hl]
          abel
  simp only [sumOf, AList.entries_insert, List.map_cons, List.sum_cons]
  rw [key m.entries h]
  abel

theorem sumOf_nonneg (f : α → β → ℤ) (m : Map α β)
    (h : ∀ a v, m.lookup a = some v → 0 ≤ f a v) : 0 ≤ sumOf f m := by
  apply List.sum_nonneg
  intro x hx
  obtain ⟨⟨a, v⟩, he, rfl⟩ := List.mem_map.mp hx
  exact h a v (mem_entries.mp he)

/-- A nonnegative sum is at least each of its terms. -/
theorem le_sumOf (f : α → β → ℤ) {m : Map α β} {a : α} {v : β}
    (h : ∀ a v, m.lookup a = some v → 0 ≤ f a v) (hv : m.lookup a = some v) :
    f a v ≤ sumOf f m := by
  refine List.single_le_sum ?_ _ (List.mem_map.mpr ⟨⟨a, v⟩, mem_entries.mpr hv, rfl⟩)
  intro x hx
  obtain ⟨⟨b, w⟩, he, rfl⟩ := List.mem_map.mp hx
  exact h b w (mem_entries.mp he)

/-- The sum over a part of a map is at most that over the map. -/
theorem sumOf_le_of_lookup (f : α → β → ℤ) {m m' : Map α β}
    (hsub : ∀ a v, m.lookup a = some v → m'.lookup a = some v)
    (h : ∀ a v, m'.lookup a = some v → 0 ≤ f a v) : sumOf f m ≤ sumOf f m' := by
  have hsubset : m.entries ⊆ m'.entries := fun e he =>
    mem_entries.mpr (hsub e.1 e.2 (mem_entries.mp he))
  obtain ⟨rest, hrest⟩ := Multiset.le_iff_exists_add.mp
    (Multiset.coe_le.mpr (List.subperm_of_subset m.nodupKeys.nodup hsubset))
  have hsum : sumOf f m' = sumOf f m + (rest.map fun e => f e.1 e.2).sum := by
    have hmap := congrArg (fun l => (Multiset.map (fun e => f e.1 e.2) l).sum) hrest
    simp only [Multiset.map_add, Multiset.sum_add, Multiset.map_coe, Multiset.sum_coe] at hmap
    exact hmap
  have hnonneg : 0 ≤ (rest.map fun e => f e.1 e.2).sum := by
    apply Multiset.sum_nonneg
    intro x hx
    obtain ⟨e, he, rfl⟩ := Multiset.mem_map.mp hx
    have hmem : e ∈ (m'.entries : Multiset (Sigma fun _ : α => β)) := by
      rw [hrest]
      exact Multiset.mem_add.mpr (.inr he)
    exact h e.1 e.2 (mem_entries.mp hmem)
  omega

/-- A part of a map has no more keys. -/
theorem length_keys_le {m m' : Map α β}
    (hsub : ∀ a v, m.lookup a = some v → m'.lookup a = some v) :
    m.keys.length ≤ m'.keys.length := by
  apply List.Subperm.length_le
  apply List.subperm_of_subset m.keys_nodup
  intro a ha
  obtain ⟨v, hv⟩ := mem_iff_lookup.mp (AList.mem_keys.mpr ha)
  exact AList.mem_keys.mp (mem_iff_lookup.mpr ⟨v, hsub a v hv⟩)

/-- A sum all of whose terms vanish vanishes. -/
theorem sumOf_eq_zero (f : α → β → ℤ) (m : Map α β)
    (h : ∀ a v, m.lookup a = some v → f a v = 0) : sumOf f m = 0 := by
  apply List.sum_eq_zero
  intro x hx
  obtain ⟨⟨a, v⟩, he, rfl⟩ := List.mem_map.mp hx
  exact h a v (mem_entries.mp he)

/-- Keep the entries with a property. -/
def retain (p : α → β → Bool) (m : Map α β) : Map α β where
  entries := m.entries.filter fun e => p e.1 e.2
  nodupKeys := m.nodupKeys.sublist List.filter_sublist

theorem lookup_retain {p : α → β → Bool} {m : Map α β} {a : α} {v : β} :
    (retain p m).lookup a = some v ↔ m.lookup a = some v ∧ p a v := by
  rw [← mem_entries, ← mem_entries]
  exact List.mem_filter

/-! ### Assignments, the last of which holds -/

theorem lookup_union (m m' : Map α β) (a : α) :
    (m ∪ m').lookup a = (m.lookup a).or (m'.lookup a) := by
  cases h : m.lookup a with
  | some v =>
      have hmem : a ∈ m := mem_iff_lookup.mpr ⟨v, h⟩
      rw [AList.lookup_union_left hmem, h]
      rfl
  | none =>
      rw [AList.lookup_union_right (AList.lookup_eq_none.mp h)]
      rfl

/-- The value of the last pair with the key. -/
def lastOf (l : List (α × β)) (a : α) : Option β :=
  (l.reverse.find? fun e => e.1 = a).map (·.2)

theorem lastOf_append (l l' : List (α × β)) (a : α) :
    lastOf (l ++ l') a = (lastOf l' a).or (lastOf l a) := by
  rw [lastOf, List.reverse_append, List.find?_append, Option.map_or]
  rfl

theorem lastOf_singleton (e : α × β) (a : α) :
    lastOf [e] a = if e.1 = a then some e.2 else none := by
  by_cases h : e.1 = a
  · simp [lastOf, h]
  · simp [lastOf, h]

/-- Pairs of which all have the same first half of the key. -/
theorem lastOf_map_prod {γ : Type*} [DecidableEq γ] (l : List (α × β)) (b c : γ) (a : α) :
    lastOf (l.map fun e => ((b, e.1), e.2)) (c, a) = if c = b then lastOf l a else none := by
  induction l with
  | nil =>
      split
      · rfl
      · rfl
  | cons e l ih =>
      rw [List.map_cons, ← List.singleton_append, lastOf_append, ih, lastOf_singleton,
        ← List.singleton_append (l := l), lastOf_append, lastOf_singleton]
      by_cases h : c = b
      · subst h
        simp
      · simp [h, Ne.symm h]

/-- No pair with the key comes behind. -/
theorem lastOf_eq_some_iff {l : List (α × β)} {a : α} {v : β} :
    lastOf l a = some v ↔ ∃ before after, l = before ++ (a, v) :: after ∧ ∀ e ∈ after, e.1 ≠ a := by
  constructor
  · intro h
    obtain ⟨⟨b, w⟩, hfind, rfl⟩ := Option.map_eq_some_iff.mp h
    obtain ⟨hkey, after, before, heq, hnone⟩ := List.find?_eq_some_iff_append.mp hfind
    obtain rfl : b = a := by simpa using hkey
    refine ⟨before.reverse, after.reverse, ?_, ?_⟩
    · simpa using congrArg List.reverse heq
    · intro e he
      simpa using hnone e (List.mem_reverse.mp he)
  · rintro ⟨before, after, rfl, hnone⟩
    have hafter : lastOf after a = none := by
      rw [lastOf, Option.map_eq_none_iff, List.find?_eq_none]
      intro e he
      simpa using hnone e (List.mem_reverse.mp he)
    rw [List.append_cons, lastOf_append, lastOf_append, hafter, lastOf_singleton, if_pos rfl]
    rfl

theorem exists_lastOf {l : List (α × β)} {a : α} {v : β} (h : (a, v) ∈ l) :
    ∃ w, lastOf l a = some w ∧ (a, w) ∈ l := by
  have hsome : (l.reverse.find? fun e => e.1 = a).isSome := by
    rw [List.find?_isSome]
    exact ⟨(a, v), List.mem_reverse.mpr h, by simp⟩
  obtain ⟨⟨b, w⟩, hfind⟩ := Option.isSome_iff_exists.mp hsome
  have hlast : lastOf l a = some w := by rw [lastOf, hfind, Option.map_some]
  obtain ⟨before, after, heq, -⟩ := lastOf_eq_some_iff.mp hlast
  exact ⟨w, hlast, by simp [heq]⟩

/-- Pairs inserted one after the other. -/
theorem lookup_foldl_insert (l : List (α × β)) (m : Map α β) (a : α) :
    (l.foldl (fun m e => m.insert e.1 e.2) m).lookup a = (lastOf l a).or (m.lookup a) := by
  induction l generalizing m with
  | nil => rfl
  | cons e l ih =>
      rw [List.foldl_cons, ih, ← List.singleton_append, lastOf_append, lastOf_singleton,
        lookup_insert_if, Option.or_assoc]
      by_cases h : e.1 = a
      · rw [if_pos h, if_pos h.symm]
        rfl
      · rw [if_neg h, if_neg (Ne.symm h)]
        rfl

end Map

end DdsOrchestrator
