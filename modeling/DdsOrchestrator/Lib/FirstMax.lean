import Mathlib.Data.List.Induction
import Mathlib.Order.Lattice
import Mathlib.Tactic.SplitIfs

/-!
The first of the greatest values of a list. A scan that gives up what it has only for
something greater ends with it, and of two lists whose entries have other names the first
greatest is the same entry.
-/

namespace DdsOrchestrator

variable {κ κ' α : Type*} [LinearOrder α]

/-- What comes before is less, and what comes after is not greater. -/
def IsFirstMax (l : List (κ × α)) (k : κ) : Prop :=
  ∃ before p after, l = before ++ (k, p) :: after ∧ (∀ e ∈ before, e.2 < p) ∧
    ∀ e ∈ after, e.2 ≤ p

/-- One round of the scan. At first there is no value to compare with. -/
def better (best : κ × Option α) (e : κ × α) : κ × Option α :=
  if best.2.all (· < e.2) then (e.1, some e.2) else best

theorem foldl_better {l : List (κ × α)} (h : l ≠ []) (k₀ : κ) :
    ∃ before k p after, l.foldl better (k₀, none) = (k, some p) ∧
      l = before ++ (k, p) :: after ∧ (∀ e ∈ before, e.2 < p) ∧ ∀ e ∈ after, e.2 ≤ p := by
  induction l using List.reverseRecOn with
  | nil => exact absurd rfl h
  | append_singleton l e ih =>
    rw [List.foldl_append, List.foldl_cons, List.foldl_nil]
    by_cases hl : l = []
    · subst hl
      exact ⟨[], e.1, e.2, [], rfl, rfl, by simp, by simp⟩
    · obtain ⟨before, k, p, after, hscan, rfl, hbefore, hafter⟩ := ih hl
      rw [hscan, better]
      -- The new element takes over only if it is greater, not if it is as great.
      by_cases hlt : p < e.2
      · refine ⟨before ++ (k, p) :: after, e.1, e.2, [], by simp [hlt], rfl, ?_, by simp⟩
        intro d hd
        rcases List.mem_append.mp hd with hd | hd
        · exact lt_trans (hbefore d hd) hlt
        · rcases List.mem_cons.mp hd with rfl | hd
          · exact hlt
          · exact lt_of_le_of_lt (hafter d hd) hlt
      · refine ⟨before, k, p, after ++ [e], by simp [hlt], by simp, hbefore, ?_⟩
        intro d hd
        rcases List.mem_append.mp hd with hd | hd
        · exact hafter d hd
        · rw [List.mem_singleton.mp hd]
          exact not_lt.mp hlt

theorem IsFirstMax.unique {l : List (κ × α)} {k k' : κ} (h : IsFirstMax l k)
    (h' : IsFirstMax l k') : k = k' := by
  obtain ⟨before, p, after, rfl, hbefore, hafter⟩ := h
  obtain ⟨before', p', after', heq, hbefore', hafter'⟩ := h'
  rcases List.append_eq_append_iff.mp heq with ⟨mid, rfl, hmid⟩ | ⟨mid, rfl, hmid⟩
  · cases mid with
    | nil =>
      rw [List.nil_append, List.cons.injEq, Prod.mk.injEq] at hmid
      exact hmid.1.1
    | cons e mid =>
      rw [List.cons_append, List.cons.injEq] at hmid
      obtain ⟨rfl, rfl⟩ := hmid
      have hlt : p < p' := hbefore' (k, p) (by simp)
      exact absurd (hafter (k', p') (by simp)) (not_le.mpr hlt)
  · cases mid with
    | nil =>
      rw [List.nil_append, List.cons.injEq, Prod.mk.injEq] at hmid
      exact hmid.1.1.symm
    | cons e mid =>
      rw [List.cons_append, List.cons.injEq] at hmid
      obtain ⟨rfl, rfl⟩ := hmid
      have hlt : p' < p := hbefore (k', p') (by simp)
      exact absurd (hafter' (k, p) (by simp)) (not_le.mpr hlt)

/-- The scan ends with the first of the greatest values. -/
theorem isFirstMax_iff_scan {l : List (κ × α)} (h : l ≠ []) (k₀ k : κ) :
    IsFirstMax l k ↔ (l.foldl better (k₀, none)).1 = k := by
  obtain ⟨before, k', p, after, hscan, hl, hbefore, hafter⟩ := foldl_better h k₀
  have hfirst : IsFirstMax l k' := ⟨before, p, after, hl, hbefore, hafter⟩
  rw [hscan]
  constructor
  · intro hk
    exact hfirst.unique hk
  · rintro rfl
    exact hfirst

/-- Other names for the entries. -/
theorem isFirstMax_map {f : κ → κ'} {l : List (κ × α)} {k : κ}
    (hf : ∀ e ∈ l, f e.1 = f k → e.1 = k) :
    IsFirstMax (l.map fun e => (f e.1, e.2)) (f k) ↔ IsFirstMax l k := by
  constructor
  · rintro ⟨before, p, after, heq, hbefore, hafter⟩
    obtain ⟨before', rest, rfl, rfl, hrest⟩ := List.map_eq_append_iff.mp heq
    obtain ⟨e, after', rfl, he, rfl⟩ := List.map_eq_cons_iff.mp hrest
    rw [Prod.mk.injEq] at he
    obtain rfl := hf e (by simp) he.1
    obtain rfl := he.2
    refine ⟨before', e.2, after', rfl, ?_, ?_⟩
    · intro d hd
      exact hbefore (f d.1, d.2) (List.mem_map.mpr ⟨d, hd, rfl⟩)
    · intro d hd
      exact hafter (f d.1, d.2) (List.mem_map.mpr ⟨d, hd, rfl⟩)
  · rintro ⟨before, p, after, rfl, hbefore, hafter⟩
    refine ⟨before.map fun e => (f e.1, e.2), p, after.map fun e => (f e.1, e.2), by simp, ?_, ?_⟩
    · intro d hd
      obtain ⟨e, he, rfl⟩ := List.mem_map.mp hd
      exact hbefore e he
    · intro d hd
      obtain ⟨e, he, rfl⟩ := List.mem_map.mp hd
      exact hafter e he

end DdsOrchestrator
