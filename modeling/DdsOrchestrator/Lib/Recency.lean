import Mathlib.Data.List.Nodup
import DdsOrchestrator.Lib.Retained

/-!
Entries with keys in the order in which they last came. An entry that comes takes the place
of the one of its key, at the end; the last few of such a list are found again from the last
few before, as long as it is the right one that has to go.
-/

namespace DdsOrchestrator.Recency

open Retained (lastOf)

variable {α κ : Type*} [DecidableEq κ] (key : α → κ)

/-- The entry comes last, and its key has no other one. -/
def touch (l : List α) (a : α) : List α := l.filter (fun b => key b ≠ key a) ++ [a]

variable {key} {l : List α} {a b : α} {cap : ℕ}

theorem mem_touch : b ∈ touch key l a ↔ b ∈ l ∧ key b ≠ key a ∨ b = a := by
  simp [touch]

theorem nodup_touch (h : (l.map key).Nodup) (a : α) : ((touch key l a).map key).Nodup := by
  rw [touch, List.map_append, List.map_singleton]
  refine List.Nodup.append (h.sublist (List.filter_sublist.map key)) (List.nodup_singleton _) ?_
  intro k hk hka
  obtain ⟨b, hb, rfl⟩ := List.mem_map.mp hk
  exact of_decide_eq_true (List.mem_filter.mp hb).2 (List.mem_singleton.mp hka)

theorem touch_of_notMem (h : key a ∉ l.map key) : touch key l a = l ++ [a] := by
  rw [touch, List.filter_eq_self.mpr]
  intro b hb
  exact decide_eq_true fun hkey => h (hkey ▸ List.mem_map_of_mem hb)

/-- It makes no difference whether the entry of the key has been taken out before. -/
theorem touch_filter (l : List α) (a : α) :
    touch key (l.filter fun b => key b ≠ key a) a = touch key l a := by
  rw [touch, List.filter_filter]
  simp only [Bool.and_self]
  rfl

theorem length_touch_le (l : List α) (a : α) : (touch key l a).length ≤ l.length + 1 := by
  rw [touch, List.length_append, List.length_singleton]
  exact Nat.add_le_add_right (List.length_filter_le _ _) 1

theorem length_touch_of_mem (h : (l.map key).Nodup) (hmem : key a ∈ l.map key) :
    (touch key l a).length = l.length := by
  obtain ⟨b, hb, hkey⟩ := List.mem_map.mp hmem
  obtain ⟨before, after, rfl⟩ := List.append_of_mem hb
  have hothers : ∀ c ∈ before ++ after, key c ≠ key a := by
    intro c hc hca
    rw [List.map_append, List.map_cons, List.nodup_middle, ← List.map_append] at h
    exact (List.nodup_cons.mp h).1 (List.mem_map.mpr ⟨c, hc, hca.trans hkey.symm⟩)
  have hfilter : (before ++ b :: after).filter (fun c => key c ≠ key a) = before ++ after := by
    rw [List.filter_append, List.filter_cons, if_neg (by simpa using hkey),
      List.filter_eq_self.mpr fun c hc => decide_eq_true (hothers c (List.mem_append_left _ hc)),
      List.filter_eq_self.mpr fun c hc => decide_eq_true (hothers c (List.mem_append_right _ hc))]
  rw [touch, hfilter]
  simp only [List.length_append, List.length_cons, List.length_nil]
  omega

/-! ### The last ones -/

variable (key) in
/-- The last entries after those that are no longer among them. -/
theorem touch_split (cap : ℕ) (l : List α) (a : α) :
    ∃ before, touch key l a = before ++ touch key (lastOf cap l) a := by
  refine ⟨(l.take (l.length - cap)).filter fun b => key b ≠ key a, ?_⟩
  rw [touch, touch, lastOf, ← List.append_assoc, ← List.filter_append, List.take_append_drop]

/-- If there is room or the key is among the last ones, none of them has to go. -/
theorem lastOf_touch_of_room (hl : (l.map key).Nodup)
    (hroom : l.length < cap ∨ key a ∈ (lastOf cap l).map key) :
    lastOf cap (touch key l a) = touch key (lastOf cap l) a := by
  by_cases hshort : l.length < cap
  · rw [Retained.lastOf_eq_self (Nat.le_of_lt hshort)]
    exact Retained.lastOf_eq_self (Nat.le_trans (length_touch_le l a) hshort)
  · have hmem := hroom.resolve_left hshort
    obtain ⟨before, hsplit⟩ := touch_split key cap l a
    have hnodup : ((lastOf cap l).map key).Nodup := hl.sublist ((List.drop_sublist _ _).map key)
    rw [hsplit]
    apply Retained.lastOf_append_of_length
    rw [length_touch_of_mem hnodup hmem, Retained.length_lastOf]
    omega

/-- If there is none and the key is not among them, the first of them goes. -/
theorem lastOf_touch_of_full (hcap : 0 < cap) (hfull : cap ≤ l.length)
    (hnew : key a ∉ (lastOf cap l).map key) :
    lastOf cap (touch key l a) = (lastOf cap l).tail ++ [a] := by
  obtain ⟨before, hsplit⟩ := touch_split key cap l a
  have hlength : (lastOf cap l).length = cap := by
    rw [Retained.length_lastOf]
    omega
  rw [touch_of_notMem hnew] at hsplit
  cases hlast : lastOf cap l with
  | nil => rw [hlast] at hlength; simp at hlength; omega
  | cons b rest =>
      rw [hlast] at hlength
      rw [hsplit, hlast, List.tail_cons]
      have hregroup : before ++ (b :: rest ++ [a]) = (before ++ [b]) ++ (rest ++ [a]) := by simp
      rw [hregroup]
      apply Retained.lastOf_append_of_length
      rw [List.length_append, List.length_singleton]
      rwa [List.length_cons] at hlength

end DdsOrchestrator.Recency
