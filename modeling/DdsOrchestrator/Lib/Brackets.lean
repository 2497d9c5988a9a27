import Mathlib.Algebra.Order.Ring.Int
import Mathlib.Data.List.Infix

/-!
Brackets and quotes. Brackets count outside of quotes only, and inside of quotes an escape takes
the meaning from the mark after it. A word of marks has a depth, which is how many of its
brackets are open at its end.
-/

namespace DdsOrchestrator.Brackets

inductive Mark where
  | opening | closing | quote | escape | other
  deriving DecidableEq

inductive Mode where
  | plain | quoted | escaped
  deriving DecidableEq

def Mode.next : Mode → Mark → Mode
  | .plain, .quote => .quoted
  | .plain, _ => .plain
  | .quoted, .escape => .escaped
  | .quoted, .quote => .plain
  | .quoted, _ => .quoted
  | .escaped, _ => .quoted

def Mode.rise : Mode → Mark → ℤ
  | .plain, .opening => 1
  | .plain, .closing => -1
  | _, _ => 0

def modeFrom (k : Mode) (w : List Mark) : Mode := w.foldl Mode.next k

def depthFrom : Mode → List Mark → ℤ
  | _, [] => 0
  | k, m :: w => k.rise m + depthFrom (k.next m) w

/-- The mode after the word. -/
def mode (w : List Mark) : Mode := modeFrom .plain w

/-- The opened brackets of the word less the closed ones. -/
def depth (w : List Mark) : ℤ := depthFrom .plain w

@[simp] theorem depth_nil : depth [] = 0 := rfl

@[simp] theorem mode_concat (w : List Mark) (m : Mark) : mode (w ++ [m]) = (mode w).next m :=
  List.foldl_concat ..

theorem depthFrom_append (k : Mode) (v w : List Mark) :
    depthFrom k (v ++ w) = depthFrom k v + depthFrom (modeFrom k v) w := by
  induction v generalizing k with
  | nil => exact (zero_add _).symm
  | cons m v ih =>
      rw [List.cons_append, depthFrom, depthFrom, ih, add_assoc]
      rfl

@[simp] theorem depth_concat (w : List Mark) (m : Mark) :
    depth (w ++ [m]) = depth w + (mode w).rise m := by
  rw [depth, depthFrom_append, depthFrom, depthFrom, add_zero]
  rfl

/-- Where the quotes are closed the depths add up. -/
theorem depth_append {v : List Mark} (h : mode v = .plain) (w : List Mark) :
    depth (v ++ w) = depth v + depth w := by
  rw [depth, depthFrom_append, ← mode, h]
  rfl

theorem mode_append {v : List Mark} (h : mode v = .plain) (w : List Mark) :
    mode (v ++ w) = mode w := by
  have happend : mode (v ++ w) = modeFrom (mode v) w := List.foldl_append ..
  rw [happend, h]
  rfl

theorem rise_cases (k : Mode) (m : Mark) :
    (k = .plain ∧ m = .opening ∧ k.rise m = 1) ∨ (k = .plain ∧ m = .closing ∧ k.rise m = -1) ∨
      (¬ (k = .plain ∧ m = .opening) ∧ ¬ (k = .plain ∧ m = .closing) ∧ k.rise m = 0) := by
  cases k <;> cases m <;> decide

/-- A bracket with all up to the one that closes it. -/
structure Bracketed (w : List Mark) : Prop where
  head : w.head? = some .opening
  closed : depth w = 0
  inside : ∀ p, p <+: w → p ≠ [] → p ≠ w → 0 < depth p

def NestsWithin (bound : ℤ) (w : List Mark) : Prop := ∀ p, p <+: w → depth p ≤ bound

/-- A bracket that is not closed yet. -/
structure Open (bound : ℤ) (w : List Mark) : Prop where
  head : w.head? = some .opening
  within : ∀ p, p <+: w → p ≠ [] → 0 < depth p ∧ depth p ≤ bound

theorem Open.ne_nil {bound : ℤ} {w : List Mark} (h : Open bound w) : w ≠ [] := by
  rintro rfl
  cases h.head

theorem open_singleton {bound : ℤ} (h : 1 ≤ bound) : Open bound [.opening] := by
  refine ⟨rfl, fun p hp hne => ?_⟩
  have hp : p <+: [] ++ [.opening] := hp
  obtain rfl | hnil := List.prefix_concat_iff.mp hp
  · exact ⟨by decide, h⟩
  · exact absurd (List.prefix_nil.mp hnil) hne

theorem Open.concat {bound : ℤ} {w : List Mark} {m : Mark} (h : Open bound w)
    (hpos : 0 < depth (w ++ [m])) (hle : depth (w ++ [m]) ≤ bound) : Open bound (w ++ [m]) := by
  refine ⟨?_, fun p hp hne => ?_⟩
  · rw [List.head?_append_of_ne_nil _ h.ne_nil]
    exact h.head
  · obtain rfl | hp := List.prefix_concat_iff.mp hp
    · exact ⟨hpos, hle⟩
    · exact h.within p hp hne

/-- The mark that closes the bracket. -/
theorem Open.close {bound : ℤ} {w : List Mark} {m : Mark} (h : Open bound w)
    (hclosed : depth (w ++ [m]) = 0) : Bracketed (w ++ [m]) ∧ NestsWithin bound (w ++ [m]) := by
  have hbound : 0 ≤ bound := by
    have hw := h.within w (List.prefix_refl w) h.ne_nil
    omega
  refine ⟨⟨?_, hclosed, fun p hp hne hproper => ?_⟩, fun p hp => ?_⟩
  · rw [List.head?_append_of_ne_nil _ h.ne_nil]
    exact h.head
  · have hp := (List.prefix_concat_iff.mp hp).resolve_left hproper
    exact (h.within p hp hne).1
  · obtain rfl | hp := List.prefix_concat_iff.mp hp
    · rwa [hclosed]
    · by_cases hne : p = []
      · rwa [hne, depth_nil]
      · exact (h.within p hp hne).2

/-- What has been read of a bracket that is closed later. -/
theorem Bracketed.open {bound : ℤ} {v w : List Mark} (h : Bracketed (v ++ w))
    (hnests : NestsWithin bound (v ++ w)) (hv : v ≠ []) (hw : w ≠ []) :
    0 < depth v ∧ depth v ≤ bound := by
  refine ⟨h.inside v (List.prefix_append v w) hv ?_, hnests v (List.prefix_append v w)⟩
  simpa using hw

/-- The last mark closes it. -/
theorem Bracketed.last {v : List Mark} {m : Mark} (h : Bracketed (v ++ [m])) (hv : v ≠ []) :
    mode v = .plain ∧ m = .closing ∧ depth v = 1 := by
  have hpos := h.inside v (List.prefix_append v [m]) hv (by simp)
  have hclosed := h.closed
  rw [depth_concat] at hclosed
  obtain ⟨-, -, hrise⟩ | ⟨hplain, hclosing, hrise⟩ | ⟨-, -, hrise⟩ := rise_cases (mode v) m
  · omega
  · exact ⟨hplain, hclosing, by omega⟩
  · omega

end DdsOrchestrator.Brackets
