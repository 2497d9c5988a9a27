import Mathlib.Order.Lattice

/-!
Trying the elements of a list one after the other until one of them does it. The elements
that are tried are the first ones of the list brought into order exactly if none of them
stands before a smaller one.
-/

namespace DdsOrchestrator

variable {α β : Type*} (done : α → Bool)

/-- The elements that are tried. -/
def untilFirst : List α → List α
  | [] => []
  | a :: as => a :: if done a then [] else untilFirst as

/-- Whoever comes after an element that is tried has no smaller key. -/
def TriedInOrder [LE β] (key : α → β) : List α → Prop
  | [] => True
  | a :: as => (∀ b ∈ as, key a ≤ key b) ∧ (done a = false → TriedInOrder key as)

variable {done} {a : α} {as : List α}

theorem untilFirst_cons_of (h : done a = true) : untilFirst done (a :: as) = [a] := by
  rw [untilFirst, if_pos h]

theorem untilFirst_cons_of_not (h : done a = false) :
    untilFirst done (a :: as) = a :: untilFirst done as := by
  rw [untilFirst, if_neg (by rw [h]; exact Bool.false_ne_true)]

theorem untilFirst_of_none (h : ∀ a ∈ as, done a = false) : untilFirst done as = as := by
  induction as with
  | nil => rfl
  | cons a as ih =>
      obtain ⟨ha, has⟩ := List.forall_mem_cons.mp h
      rw [untilFirst_cons_of_not ha, ih has]

theorem untilFirst_prefix (as : List α) : untilFirst done as <+: as := by
  induction as with
  | nil => exact List.nil_prefix
  | cons a as ih =>
      cases ha : done a with
      | true =>
          rw [untilFirst_cons_of ha]
          exact ⟨as, rfl⟩
      | false =>
          rw [untilFirst_cons_of_not ha]
          exact (List.prefix_cons_inj a).mpr ih

theorem untilFirst_map {γ : Type*} {done : γ → Bool} (f : α → γ) (as : List α) :
    untilFirst done (as.map f) = (untilFirst (fun a => done (f a)) as).map f := by
  induction as with
  | nil => rfl
  | cons a as ih =>
      rw [List.map_cons, untilFirst, untilFirst, ih]
      by_cases ha : done (f a) = true
      · simp [ha]
      · simp [ha]

theorem untilFirst_append_of_none {bs : List α} (h : ∀ a ∈ as, done a = false) :
    untilFirst done (as ++ bs) = as ++ untilFirst done bs := by
  induction as with
  | nil => rfl
  | cons a as ih =>
      obtain ⟨ha, has⟩ := List.forall_mem_cons.mp h
      rw [List.cons_append, untilFirst_cons_of_not ha, ih has, List.cons_append]

/-- What is tried of the first elements is among what is tried of all. -/
theorem untilFirst_prefix_append (as bs : List α) :
    untilFirst done as <+: untilFirst done (as ++ bs) := by
  induction as with
  | nil => exact List.nil_prefix
  | cons a as ih =>
      cases ha : done a with
      | true =>
          have hsame : untilFirst done (a :: as ++ bs) = untilFirst done (a :: as) := by
            rw [List.cons_append, untilFirst_cons_of ha, untilFirst_cons_of ha]
          exact hsame ▸ List.prefix_rfl
      | false =>
          rw [List.cons_append, untilFirst_cons_of_not ha, untilFirst_cons_of_not ha]
          exact (List.prefix_cons_inj a).mpr ih

/-- Once an element does it, there is nothing more to try. -/
theorem untilFirst_append_of_mem {bs : List α} (h : a ∈ as) (ha : done a = true) :
    untilFirst done (as ++ bs) = untilFirst done as := by
  induction as with
  | nil => cases h
  | cons b as ih =>
      cases hb : done b with
      | true => rw [List.cons_append, untilFirst_cons_of hb, untilFirst_cons_of hb]
      | false =>
          have hmem : a ∈ as := by
            rcases List.mem_cons.mp h with rfl | hmem
            · rw [ha] at hb
              cases hb
            · exact hmem
          rw [List.cons_append, untilFirst_cons_of_not hb, untilFirst_cons_of_not hb, ih hmem]

theorem TriedInOrder.of_pairwise [LE β] {key : α → β}
    (h : as.Pairwise fun a b => key a ≤ key b) : TriedInOrder done key as := by
  induction as with
  | nil => trivial
  | cons a as ih =>
      obtain ⟨hfirst, hrest⟩ := List.pairwise_cons.mp h
      exact ⟨hfirst, fun _ => ih hrest⟩

theorem exists_ordered [LinearOrder β] (key : α → β) (as : List α) :
    ∃ order : List α, order.Perm as ∧ order.Pairwise fun a b => key a ≤ key b := by
  have hsorted : (as.mergeSort fun a b => decide (key a ≤ key b)).Pairwise
      fun a b => decide (key a ≤ key b) = true := by
    refine List.pairwise_mergeSort (fun a b c hab hbc => ?_) (fun a b => ?_) as
    · exact decide_eq_true (le_trans (of_decide_eq_true hab) (of_decide_eq_true hbc))
    · simpa using le_total (key a) (key b)
  exact ⟨as.mergeSort fun a b => decide (key a ≤ key b), List.mergeSort_perm _ _,
    hsorted.imp of_decide_eq_true⟩

theorem exists_ordered_prefix_iff [LinearOrder β] {key : α → β} :
    (∃ order : List α, order.Perm as ∧ (order.Pairwise fun a b => key a ≤ key b) ∧
      untilFirst done as <+: order) ↔ TriedInOrder done key as := by
  induction as with
  | nil => exact ⟨fun _ => trivial, fun _ => ⟨[], .nil, .nil, List.nil_prefix⟩⟩
  | cons a as ih =>
      constructor
      · rintro ⟨order, hperm, hordered, hbegins⟩
        rw [untilFirst] at hbegins
        obtain ⟨later, rfl⟩ : ∃ later, order = a :: later := by
          obtain ⟨rest, rfl⟩ := hbegins
          exact ⟨_, List.cons_append⟩
        have hlater : later.Perm as := hperm.cons_inv
        obtain ⟨hfirst, hrest⟩ := List.pairwise_cons.mp hordered
        refine ⟨fun b hb => hfirst b (hlater.mem_iff.mpr hb), fun ha => ?_⟩
        rw [if_neg (by rw [ha]; exact Bool.false_ne_true), List.prefix_cons_inj] at hbegins
        exact ih.mp ⟨later, hlater, hrest, hbegins⟩
      · rintro ⟨hfirst, hrest⟩
        cases ha : done a with
        | true =>
            -- the rest is not tried, and any order of it will do
            obtain ⟨later, hlater, hordered⟩ := exists_ordered key as
            refine ⟨a :: later, hlater.cons a, ?_, ?_⟩
            · exact List.pairwise_cons.mpr
                ⟨fun b hb => hfirst b (hlater.mem_iff.mp hb), hordered⟩
            · rw [untilFirst_cons_of ha]
              exact ⟨later, rfl⟩
        | false =>
            obtain ⟨later, hlater, hordered, hbegins⟩ := ih.mpr (hrest ha)
            refine ⟨a :: later, hlater.cons a, ?_, ?_⟩
            · exact List.pairwise_cons.mpr
                ⟨fun b hb => hfirst b (hlater.mem_iff.mp hb), hordered⟩
            · rw [untilFirst_cons_of_not ha]
              exact (List.prefix_cons_inj a).mpr hbegins

end DdsOrchestrator
