import Mathlib.Data.List.Basic
import Mathlib.Tactic.Common

/-!
The end of a history that a bounded log keeps. Entries carry the numbers 0, 1, … in the
order in which they came; a reader names the number from which it wants them, and gets
either every entry from there on or the answer that some of them are gone.
-/

namespace DdsOrchestrator.Retained

variable {α : Type*}

/-- Drop the oldest entries until at most `cap` are left. -/
def retain (cap : ℕ) : List α → List α
  | [] => []
  | a :: as => if cap < (a :: as).length then retain cap as else a :: as

/-- What a log of `cap` entries keeps of a history. -/
def lastOf (cap : ℕ) (history : List α) : List α := history.drop (history.length - cap)

theorem retain_eq_lastOf (cap : ℕ) (l : List α) : retain cap l = lastOf cap l := by
  induction l with
  | nil => simp [retain, lastOf]
  | cons a as ih =>
      rw [retain]
      split
      · next hlong =>
          rw [List.length_cons] at hlong
          have hdrop : (a :: as).length - cap = (as.length - cap) + 1 := by
            rw [List.length_cons]
            omega
          rw [ih, lastOf, lastOf, hdrop, List.drop_succ_cons]
      · next hshort =>
          have hdrop : (a :: as).length - cap = 0 := by omega
          rw [lastOf, hdrop, List.drop_zero]

@[simp] theorem lastOf_nil (cap : ℕ) : lastOf cap ([] : List α) = [] := by
  simp [lastOf]

theorem length_lastOf (cap : ℕ) (history : List α) :
    (lastOf cap history).length = min cap history.length := by
  rw [lastOf, List.length_drop]
  omega

theorem lastOf_eq_self {cap : ℕ} {history : List α} (h : history.length ≤ cap) :
    lastOf cap history = history := by
  rw [lastOf, Nat.sub_eq_zero_of_le h, List.drop_zero]

theorem lastOf_append_of_length {cap : ℕ} {l : List α} (history : List α) (h : l.length = cap) :
    lastOf cap (history ++ l) = l := by
  rw [lastOf, List.length_append, h, Nat.add_sub_cancel, List.drop_left]

/-- A log that is appended to and trimmed keeps the end of the longer history. -/
theorem lastOf_concat (cap : ℕ) (history : List α) (a : α) :
    lastOf cap (lastOf cap history ++ [a]) = lastOf cap (history ++ [a]) := by
  have hlen := length_lastOf cap history
  have hleft : lastOf cap history ++ [a] =
      (history ++ [a]).drop (history.length - cap) := by
    rw [lastOf, List.drop_append_of_le_length (Nat.sub_le _ _)]
  rw [lastOf, hleft, List.drop_drop, lastOf]
  congr 1
  simp only [List.length_drop, List.length_append, List.length_singleton]
  omega

/-- The entries have their positions for numbers. -/
def InOrder (number : α → ℕ) (history : List α) : Prop :=
  history.map number = List.range history.length

variable {number : α → ℕ} {history : List α}

theorem InOrder.concat (h : InOrder number history) {a : α} (ha : number a = history.length) :
    InOrder number (history ++ [a]) := by
  show (history ++ [a]).map number = _
  rw [List.map_append, h, List.length_append, List.length_singleton, List.range_succ]
  simp [ha]

theorem InOrder.number_getElem (h : InOrder number history) (n : ℕ) (hn : n < history.length) :
    number history[n] = n := by
  have hmap : (history.map number)[n]? = some (number history[n]) := by
    rw [List.getElem?_map, List.getElem?_eq_getElem hn, Option.map_some]
  rw [h, List.getElem?_range hn, Option.some.injEq] at hmap
  exact hmap.symm

theorem InOrder.map_drop (h : InOrder number history) (n : ℕ) :
    (history.drop n).map number = List.range' n (history.length - n) := by
  rw [List.map_drop, h, List.range_eq_range', List.drop_range']
  simp

theorem InOrder.number_mem_take (h : InOrder number history) {c : ℕ} {a : α}
    (ha : a ∈ history.take c) : number a < c := by
  obtain ⟨n, hn, rfl⟩ := List.mem_iff_getElem.mp ha
  rw [List.length_take] at hn
  rw [List.getElem_take, h.number_getElem n (by omega)]
  omega

theorem InOrder.number_mem_drop (h : InOrder number history) {c : ℕ} {a : α}
    (ha : a ∈ history.drop c) : c ≤ number a := by
  obtain ⟨n, hn, rfl⟩ := List.mem_iff_getElem.mp ha
  rw [List.length_drop] at hn
  rw [List.getElem_drop, h.number_getElem (c + n) (by omega)]
  omega

/-- Entries that are kept from `n` on are those from `c` on if they have such a number. -/
theorem InOrder.filter_drop (h : InOrder number history) {n c : ℕ} (hnc : n ≤ c) :
    (history.drop n).filter (fun a => decide (c ≤ number a)) = history.drop c := by
  have hsplit : history.drop n = (history.take c).drop n ++ history.drop c := by
    rcases Nat.le_total c history.length with hle | hge
    · rw [← List.drop_append_of_le_length (by rw [List.length_take]; omega),
        List.take_append_drop]
    · rw [List.take_of_length_le hge, List.drop_of_length_le hge, List.append_nil]
  have hold : ((history.take c).drop n).filter (fun a => decide (c ≤ number a)) = [] := by
    rw [List.filter_eq_nil_iff]
    intro a ha
    have hlt := h.number_mem_take (List.mem_of_mem_drop ha)
    rw [decide_eq_true_eq]
    omega
  have hnew : (history.drop c).filter (fun a => decide (c ≤ number a)) = history.drop c := by
    rw [List.filter_eq_self]
    intro a ha
    rw [decide_eq_true_eq]
    exact h.number_mem_drop ha
  rw [hsplit, List.filter_append, hold, hnew, List.nil_append]

end DdsOrchestrator.Retained
