import Mathlib.Data.List.Chain
import Mathlib.Logic.Relation

/-!
Longest chains of a relation. A chain from an element is a list that starts with it and
in which each element is related to the next. Where the chains from an element are bounded,
one more than the longest of its successors is its own longest, and no chain comes back to
it.
-/

namespace DdsOrchestrator.LongestChain

variable {α : Type*} {r : α → α → Prop} {a b : α}

/-- The longest chain from `a` has `d` elements. -/
structure Longest (r : α → α → Prop) (a : α) (d : Nat) : Prop where
  attained : ∃ l, (a :: l).IsChain r ∧ (a :: l).length = d
  bounded : ∀ l, (a :: l).IsChain r → (a :: l).length ≤ d

theorem Longest.unique {d e : Nat} (h : Longest r a d) (h' : Longest r a e) : d = e := by
  obtain ⟨l, hl, rfl⟩ := h.attained
  obtain ⟨l', hl', rfl⟩ := h'.attained
  exact le_antisymm (h'.bounded l hl) (h.bounded l' hl')

/-- The longest chain goes on with the longest of the successors, if there is one. -/
theorem Longest.of_next {m : Nat} (hbound : ∀ b, r a b → ∃ d, Longest r b d ∧ d ≤ m)
    (hattained : m = 0 ∨ ∃ b, r a b ∧ Longest r b m) : Longest r a (m + 1) := by
  constructor
  · rcases hattained with rfl | ⟨b, hab, hb⟩
    · exact ⟨[], List.isChain_singleton a, rfl⟩
    · obtain ⟨l, hl, hlen⟩ := hb.attained
      exact ⟨b :: l, List.isChain_cons_cons.mpr ⟨hab, hl⟩, by rw [List.length_cons, hlen]⟩
  · intro l hl
    cases l with
    | nil => exact Nat.le_add_left 1 m
    | cons b l =>
        obtain ⟨hab, hrest⟩ := List.isChain_cons_cons.mp hl
        obtain ⟨d, hd, hle⟩ := hbound b hab
        have hlen := hd.bounded l hrest
        rw [List.length_cons]
        omega

/-- A path prolongs the chains from its end. -/
theorem exists_longer (h : Relation.TransGen r a b) {l : List α} (hl : (b :: l).IsChain r) :
    ∃ l', (a :: l').IsChain r ∧ l.length < l'.length := by
  induction h using Relation.TransGen.head_induction_on with
  | single hab => exact ⟨b :: l, List.isChain_cons_cons.mpr ⟨hab, hl⟩, by simp⟩
  | head hac _ ih =>
      obtain ⟨l', hl', hlt⟩ := ih
      exact ⟨_ :: l', List.isChain_cons_cons.mpr ⟨hac, hl'⟩, by rw [List.length_cons]; omega⟩

theorem Longest.not_cyclic {d : Nat} (h : Longest r a d) : ¬ Relation.TransGen r a a := by
  intro hcycle
  obtain ⟨l, hl, rfl⟩ := h.attained
  obtain ⟨l', hl', hlt⟩ := exists_longer hcycle hl
  have hle := h.bounded l' hl'
  rw [List.length_cons, List.length_cons] at hle
  omega

end DdsOrchestrator.LongestChain
