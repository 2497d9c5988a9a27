import Mathlib.Data.List.Basic

/-!
Pairs of lists joined with a separator that may occur inside them. The joined
list does not say where the cut is, so two pairs are joined to the same list
when one is the other cut at a later occurrence of the separator. Where a
separator shares its first and last element, two occurrences can overlap in
that element, which gives one more way.
-/

namespace DdsOrchestrator.Joined

variable {α : Type*} {a b x y sep : List α} {c d : α}

/-- `(b, y)` is `(a, x)` cut at a later occurrence of `sep`. -/
def Later (sep a x b y : List α) : Prop := ∃ v, b = a ++ sep ++ v ∧ x = v ++ sep ++ y

/-- `(b, y)` is `(a, x)` cut at an occurrence of `[c, d, c]` that begins with the
last element of the one before. -/
def Straddles (c d : α) (a x b y : List α) : Prop := b = a ++ [c, d] ∧ x = d :: c :: y

theorem Later.join_eq (h : Later sep a x b y) : a ++ sep ++ x = b ++ sep ++ y := by
  obtain ⟨v, rfl, rfl⟩ := h
  simp

theorem Straddles.join_eq (h : Straddles c d a x b y) :
    a ++ [c, d, c] ++ x = b ++ [c, d, c] ++ y := by
  obtain ⟨rfl, rfl⟩ := h
  simp

/-- The cut of the second pair is where the cut of the first is, or later, or
the other way round. -/
theorem join_eq_cases (h : a ++ sep ++ x = b ++ sep ++ y) :
    (∃ u, b = a ++ u ∧ sep ++ x = u ++ sep ++ y) ∨
      ∃ u, a = b ++ u ∧ sep ++ y = u ++ sep ++ x := by
  rw [List.append_assoc, List.append_assoc] at h
  simpa only [List.append_assoc] using List.append_eq_append_iff.mp h

theorem later_of_shift {u : List α} (hb : b = a ++ u) (h : [c] ++ x = u ++ [c] ++ y) :
    (a = b ∧ x = y) ∨ Later [c] a x b y := by
  cases u with
  | nil => exact .inl ⟨by simpa using hb.symm, by simpa using h⟩
  | cons e v =>
      simp only [List.cons_append, List.nil_append, List.cons.injEq] at h
      obtain ⟨rfl, rfl⟩ := h
      exact .inr ⟨v, by simp [hb], by simp⟩

/-- Pairs joined with a separator of one element. -/
theorem join_singleton_eq_iff :
    a ++ [c] ++ x = b ++ [c] ++ y ↔
      (a = b ∧ x = y) ∨ Later [c] a x b y ∨ Later [c] b y a x := by
  constructor
  · intro h
    rcases join_eq_cases h with ⟨u, hb, hu⟩ | ⟨u, ha, hu⟩
    · exact (later_of_shift hb hu).imp_right .inl
    · rcases later_of_shift ha hu with ⟨rfl, rfl⟩ | hlater
      · exact .inl ⟨rfl, rfl⟩
      · exact .inr (.inr hlater)
  · rintro (⟨rfl, rfl⟩ | h | h)
    · rfl
    · exact h.join_eq
    · exact h.join_eq.symm

theorem later_of_shift₃ (hcd : c ≠ d) {u : List α} (hb : b = a ++ u)
    (h : [c, d, c] ++ x = u ++ [c, d, c] ++ y) :
    (a = b ∧ x = y) ∨ Later [c, d, c] a x b y ∨ Straddles c d a x b y := by
  match u with
  | [] => exact .inl ⟨by simpa using hb.symm, by simpa using h⟩
  | [e] =>
      simp only [List.cons_append, List.nil_append, List.cons.injEq] at h
      exact absurd h.2.1.symm hcd
  | [e, f] =>
      simp only [List.cons_append, List.nil_append, List.cons.injEq] at h
      obtain ⟨rfl, rfl, -, rfl⟩ := h
      exact .inr (.inr ⟨hb, rfl⟩)
  | e :: f :: g :: v =>
      simp only [List.cons_append, List.nil_append, List.cons.injEq] at h
      obtain ⟨rfl, rfl, rfl, rfl⟩ := h
      exact .inr (.inl ⟨v, by simp [hb], by simp⟩)

/-- Pairs joined with a separator of three elements that begins as it ends. -/
theorem join_triple_eq_iff (hcd : c ≠ d) :
    a ++ [c, d, c] ++ x = b ++ [c, d, c] ++ y ↔
      (a = b ∧ x = y) ∨ (Later [c, d, c] a x b y ∨ Straddles c d a x b y) ∨
        Later [c, d, c] b y a x ∨ Straddles c d b y a x := by
  constructor
  · intro h
    rcases join_eq_cases h with ⟨u, hb, hu⟩ | ⟨u, ha, hu⟩
    · exact (later_of_shift₃ hcd hb hu).imp_right .inl
    · rcases later_of_shift₃ hcd ha hu with ⟨rfl, rfl⟩ | hlater
      · exact .inl ⟨rfl, rfl⟩
      · exact .inr (.inr hlater)
  · rintro (⟨rfl, rfl⟩ | (h | h) | h | h)
    · rfl
    · exact h.join_eq
    · exact h.join_eq
    · exact h.join_eq.symm
    · exact h.join_eq.symm

/-- Behind the last separator the cut is known. -/
theorem join_last_inj (hx : c ∉ x) (hy : c ∉ y) :
    a ++ [c] ++ x = b ++ [c] ++ y ↔ a = b ∧ x = y := by
  rw [join_singleton_eq_iff]
  refine ⟨fun h => h.resolve_right ?_, .inl⟩
  rintro (⟨v, -, rfl⟩ | ⟨v, -, rfl⟩)
  · simp at hx
  · simp at hy

/-- Before the first separator the cut is known. -/
theorem join_first_inj (ha : c ∉ a) (hb : c ∉ b) :
    a ++ [c] ++ x = b ++ [c] ++ y ↔ a = b ∧ x = y := by
  rw [join_singleton_eq_iff]
  refine ⟨fun h => h.resolve_right ?_, .inl⟩
  rintro (⟨v, rfl, -⟩ | ⟨v, rfl, -⟩)
  · simp at hb
  · simp at ha

/-! ### Texts that end in a number -/

theorem notMem_toString {n : Nat} {c : Char} (hc : c.isDigit = false) :
    c ∉ (toString n).toList := by
  intro hmem
  rw [Nat.toString_eq_ofList_toDigits, String.toList_ofList] at hmem
  rw [Nat.isDigit_of_mem_toDigits (by decide) (by decide) hmem] at hc
  cases hc

theorem toString_inj {n m : Nat} (h : toString n = toString m) : n = m := by
  have hdigits : Nat.toDigits 10 n = Nat.toDigits 10 m := by
    have hlists := congrArg String.toList h
    rwa [Nat.toString_eq_ofList_toDigits, Nat.toString_eq_ofList_toDigits, String.toList_ofList,
      String.toList_ofList] at hlists
  calc
    n = Nat.ofDigitChars 10 (Nat.toDigits 10 n) 0 := Nat.ofDigitChars_ten_toDigits.symm
    _ = Nat.ofDigitChars 10 (Nat.toDigits 10 m) 0 := by rw [hdigits]
    _ = m := Nat.ofDigitChars_ten_toDigits

/-- Texts that end in a separator and a number are the same if the numbers are
and the rest is. -/
theorem numbered_inj {s t : String} {c : Char} (hc : c.isDigit = false) {n m : Nat} :
    s ++ String.singleton c ++ toString n = t ++ String.singleton c ++ toString m ↔
      s = t ∧ n = m := by
  constructor
  · intro h
    have hlist := congrArg String.toList h
    simp only [String.toList_append, String.toList_singleton] at hlist
    obtain ⟨hs, hn⟩ := (join_last_inj (notMem_toString hc) (notMem_toString hc)).mp hlist
    exact ⟨String.toList_inj.mp hs, toString_inj (String.toList_inj.mp hn)⟩
  · rintro ⟨rfl, rfl⟩
    rfl

end DdsOrchestrator.Joined
