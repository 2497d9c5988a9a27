import Mathlib.Data.List.Induction
import Mathlib.Tactic.Common

/-!
Groups that list members and take in other groups, as a sequence of statements. Read in one
pass, an inclusion takes what the other group has so far. So a member is met through a chain
of statements that follow one another, and what only a chain against the order leads to is
lost.
-/

namespace DdsOrchestrator.Inclusion

inductive Statement (G M : Type*) where
  | lists (group : G) (member : M)
  | includes (group part : G)
  deriving DecidableEq

variable {G M : Type*} {l : List (Statement G M)} {g : G} {m : M}

/-- The group that a statement adds to. -/
def Statement.group : Statement G M → G
  | .lists g _ => g
  | .includes g _ => g

/-- The members of the groups, whatever the order of the statements. -/
inductive Reached (l : List (Statement G M)) : G → M → Prop
  | listed {g : G} {m : M} (h : .lists g m ∈ l) : Reached l g m
  | through {g part : G} {m : M} (h : .includes g part ∈ l) (hpart : Reached l part m) :
      Reached l g m

/-- The members through the statements before a position, each inclusion behind those that
it draws on. -/
inductive ReachedBefore (l : List (Statement G M)) : ℕ → G → M → Prop
  | listed {n i : ℕ} {g : G} {m : M} (h : l[i]? = some (.lists g m)) (hlt : i < n) :
      ReachedBefore l n g m
  | through {n i : ℕ} {g part : G} {m : M} (h : l[i]? = some (.includes g part)) (hlt : i < n)
      (hpart : ReachedBefore l i part m) : ReachedBefore l n g m

/-- Every member is one by a chain in order. -/
def InOrder (l : List (Statement G M)) : Prop :=
  ∀ g m, Reached l g m → ReachedBefore l l.length g m

theorem ReachedBefore.mono {n k : ℕ} (h : ReachedBefore l n g m) (hle : n ≤ k) :
    ReachedBefore l k g m := by
  cases h with
  | listed h hlt => exact .listed h (by omega)
  | through h hlt hpart => exact .through h (by omega) hpart

theorem ReachedBefore.reached {n : ℕ} (h : ReachedBefore l n g m) : Reached l g m := by
  induction h with
  | listed h hlt => exact .listed (List.mem_of_getElem? h)
  | through h hlt hpart ih => exact .through (List.mem_of_getElem? h) ih

/-- Where every inclusion stands behind all that adds to the other group, no chain is against
the order. -/
theorem inOrder_of_parts_first (h : ∀ (i j : ℕ) (g part : G) (s : Statement G M),
    l[i]? = some (.includes g part) → l[j]? = some s → s.group = part → j < i) : InOrder l := by
  intro g m hreached
  have hany : ∀ n, (∀ (j : ℕ) (s : Statement G M), l[j]? = some s → s.group = g → j < n) →
      ReachedBefore l n g m := by
    induction hreached with
    | listed hmem =>
        intro n hn
        obtain ⟨i, hi⟩ := List.getElem?_of_mem hmem
        exact .listed hi (hn i _ hi rfl)
    | through hmem hpart ih =>
        intro n hn
        obtain ⟨i, hi⟩ := List.getElem?_of_mem hmem
        exact .through hi (hn i _ hi rfl) (ih i fun j s hj hs => h i j _ _ s hi hj hs)
  exact hany _ fun j s hj _ => (List.getElem?_eq_some_iff.mp hj).1

/-! ### One pass -/

/-- What is known behind a statement. -/
def Statement.apply (known : G → M → Prop) : Statement G M → G → M → Prop
  | .lists g m => fun g' m' => known g' m' ∨ (g' = g ∧ m' = m)
  | .includes g part => fun g' m' => known g' m' ∨ (g' = g ∧ known part m')

def pass (l : List (Statement G M)) : G → M → Prop :=
  l.foldl Statement.apply fun _ _ => False

theorem pass_concat (l : List (Statement G M)) (s : Statement G M) :
    pass (l ++ [s]) = s.apply (pass l) := by
  simp only [pass, List.foldl_append, List.foldl_cons, List.foldl_nil]

theorem reachedBefore_append {l' : List (Statement G M)} {n : ℕ} (hn : n ≤ l.length) :
    ReachedBefore (l ++ l') n g m ↔ ReachedBefore l n g m := by
  constructor
  · intro h
    induction h with
    | listed h hlt =>
        rw [List.getElem?_append_left (by omega)] at h
        exact .listed h hlt
    | through h hlt hpart ih =>
        rw [List.getElem?_append_left (by omega)] at h
        exact .through h hlt (ih (by omega))
  · intro h
    induction h with
    | listed h hlt => exact .listed (by rwa [List.getElem?_append_left (by omega)]) hlt
    | through h hlt hpart ih =>
        exact .through (by rwa [List.getElem?_append_left (by omega)]) hlt (ih (by omega))

/-- A statement more, as it is read in the pass. -/
theorem reachedBefore_concat {s : Statement G M} :
    ReachedBefore (l ++ [s]) (l.length + 1) g m ↔
      s.apply (ReachedBefore l l.length) g m := by
  have hold : ReachedBefore l l.length g m → ReachedBefore (l ++ [s]) (l.length + 1) g m :=
    fun h => ((reachedBefore_append (Nat.le_refl _)).mpr h).mono (Nat.le_succ _)
  constructor
  · intro h
    cases h with
    | @listed _ i _ _ h hlt =>
        rcases Nat.lt_succ_iff_lt_or_eq.mp hlt with hlt | rfl
        · rw [List.getElem?_append_left hlt] at h
          cases s with
          | lists => exact .inl (.listed h hlt)
          | includes => exact .inl (.listed h hlt)
        · obtain rfl : s = .lists g m := by simpa using h
          exact .inr ⟨rfl, rfl⟩
    | @through _ i _ part _ h hlt hpart =>
        rw [reachedBefore_append (by omega)] at hpart
        rcases Nat.lt_succ_iff_lt_or_eq.mp hlt with hlt | rfl
        · rw [List.getElem?_append_left hlt] at h
          cases s with
          | lists => exact .inl (.through h hlt hpart)
          | includes => exact .inl (.through h hlt hpart)
        · obtain rfl : s = .includes g part := by simpa using h
          exact .inr ⟨rfl, hpart⟩
  · intro h
    have hlast : (l ++ [s])[l.length]? = some s := by simp
    cases s with
    | lists g' m' =>
        rcases h with h | ⟨rfl, rfl⟩
        · exact hold h
        · exact .listed hlast (Nat.lt_succ_self _)
    | includes g' part =>
        rcases h with h | ⟨rfl, h⟩
        · exact hold h
        · exact .through hlast (Nat.lt_succ_self _) ((reachedBefore_append (Nat.le_refl _)).mpr h)

/-- One pass finds the members by chains in order. -/
theorem pass_iff (l : List (Statement G M)) (g : G) (m : M) :
    pass l g m ↔ ReachedBefore l l.length g m := by
  induction l using List.reverseRecOn generalizing g m with
  | nil =>
      constructor
      · exact False.elim
      · intro h
        cases h with
        | listed h hlt => cases hlt
        | through h hlt hpart => cases hlt
  | append_singleton l s ih =>
      have hknown : pass l = ReachedBefore l l.length := by
        funext g m
        exact propext (ih g m)
      rw [pass_concat, hknown, List.length_append, List.length_singleton, reachedBefore_concat]

/-- The pass finds all members exactly where every one of them has a chain in order. -/
theorem pass_eq_reached_iff : (∀ g m, pass l g m ↔ Reached l g m) ↔ InOrder l := by
  constructor
  · intro h g m hreached
    exact (pass_iff l g m).mp ((h g m).mpr hreached)
  · intro h g m
    rw [pass_iff]
    exact ⟨ReachedBefore.reached, h g m⟩

end DdsOrchestrator.Inclusion
