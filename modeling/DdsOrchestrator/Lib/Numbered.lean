import Mathlib.Data.List.Sort

/-!
Lists whose entries carry the numbers 0, 1, … each exactly once, in any order. Sorted by its
numbers such a list shows them in order, which is how one looks for a number that is
missing or there twice.
-/

namespace DdsOrchestrator

variable {α : Type*} (key : α → ℕ)

def Numbered (l : List α) : Prop := (l.map key).Perm (List.range l.length)

instance decidableNumbered (l : List α) : Decidable (Numbered key l) :=
  inferInstanceAs (Decidable ((l.map key).Perm (List.range l.length)))

variable {key} {l l' : List α}

theorem Numbered.perm (h : Numbered key l) (hperm : l.Perm l') : Numbered key l' := by
  show (l'.map key).Perm (List.range l'.length)
  rw [← hperm.length_eq]
  exact (hperm.map key).symm.trans h

theorem numbered_congr (hperm : l.Perm l') : Numbered key l ↔ Numbered key l' :=
  ⟨fun h => h.perm hperm, fun h => h.perm hperm.symm⟩

theorem numbered_iff_of_sorted (hsorted : (l.map key).Pairwise (· ≤ ·)) :
    Numbered key l ↔ l.map key = List.range l.length := by
  constructor
  · intro h
    exact h.eq_of_pairwise (fun _ _ _ _ => Nat.le_antisymm) hsorted List.pairwise_le_range
  · intro h
    show (l.map key).Perm (List.range l.length)
    rw [h]

theorem Numbered.key_lt (h : Numbered key l) {a : α} (ha : a ∈ l) : key a < l.length := by
  have hkey : key a ∈ List.range l.length := h.mem_iff.mp (List.mem_map_of_mem ha)
  exact List.mem_range.mp hkey

theorem Numbered.eq_of_key_eq (h : Numbered key l) {a b : α} (ha : a ∈ l) (hb : b ∈ l)
    (hkey : key a = key b) : a = b := by
  have hnodup : (l.map key).Nodup := h.nodup_iff.mpr List.nodup_range
  exact List.inj_on_of_nodup_map hnodup ha hb hkey

/-- The last entry of the sorted list is the one with the highest number. -/
theorem getLast?_of_map_eq_range (h : l.map key = List.range l.length) {a : α} (ha : a ∈ l) :
    l.getLast? = some a ↔ key a + 1 = l.length := by
  have hnumbered : Numbered key l := by
    show (l.map key).Perm _
    rw [h]
  obtain ⟨hd, tl, rfl⟩ := List.exists_cons_of_ne_nil (List.ne_nil_of_mem ha)
  have hlast : key ((hd :: tl).getLast (List.cons_ne_nil hd tl)) = tl.length := by
    have hmap := congrArg List.getLast? h
    rw [List.getLast?_map, List.getLast?_eq_some_getLast (List.cons_ne_nil hd tl)] at hmap
    simpa [List.getLast?_range] using hmap
  rw [List.getLast?_eq_some_getLast (List.cons_ne_nil hd tl), Option.some_inj]
  constructor
  · rintro rfl
    rw [hlast, List.length_cons]
  · intro hkey
    refine hnumbered.eq_of_key_eq (List.getLast_mem _) ha ?_
    rw [hlast]
    simpa using hkey.symm

end DdsOrchestrator
