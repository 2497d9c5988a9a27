import Mathlib.Data.List.Basic

/-!
Entries that get a number when they come and are changed in place afterwards: the tasks of a
runtime, the workers of a pool. What they weigh together changes by what the one that is
changed gains or loses, and a property that at most one of the entries of a key may have stays
so as long as no other entry of the key gets it.
-/

namespace DdsOrchestrator.Roster

variable {α κ : Type*} {l : List α} {n : Nat} {a : α}

theorem getElem?_set_of_some (h : l[n]? = some a) (b : α) (i : Nat) :
    (l.set n b)[i]? = if i = n then some b else l[i]? := by
  have hlt : n < l.length := (List.getElem?_eq_some_iff.mp h).1
  rw [List.getElem?_set]
  by_cases hi : i = n
  · subst hi
    simp [hlt]
  · simp [hi, Ne.symm hi]

/-! ### Weights -/

/-- What the entries weigh together. -/
def total (w : α → Nat) : List α → Nat
  | [] => 0
  | a :: l => w a + total w l

@[simp] theorem total_nil (w : α → Nat) : total w [] = 0 := rfl

@[simp] theorem total_cons (w : α → Nat) (a : α) (l : List α) :
    total w (a :: l) = w a + total w l := rfl

@[simp] theorem total_concat (w : α → Nat) (l : List α) (a : α) :
    total w (l ++ [a]) = total w l + w a := by
  induction l with
  | nil => simp
  | cons b l ih =>
      rw [List.cons_append, total_cons, total_cons, ih]
      omega

theorem total_set (w : α → Nat) (h : l[n]? = some a) (b : α) :
    total w (l.set n b) + w a = total w l + w b := by
  induction l generalizing n with
  | nil => simp at h
  | cons c l ih =>
      cases n with
      | zero =>
          obtain rfl : c = a := by simpa using h
          simp only [List.set_cons_zero, total_cons]
          omega
      | succ n =>
          have hset := ih (n := n) (by simpa using h)
          simp only [List.set_cons_succ, total_cons]
          omega

theorem le_total (w : α → Nat) (h : l[n]? = some a) : w a ≤ total w l := by
  induction l generalizing n with
  | nil => simp at h
  | cons c l ih =>
      cases n with
      | zero =>
          obtain rfl : c = a := by simpa using h
          simp
      | succ n =>
          have hn : l[n]? = some a := by simpa using h
          rw [total_cons]
          exact Nat.le_add_left_of_le (ih hn)

theorem total_mono {v w : α → Nat} (hle : ∀ a, v a ≤ w a) : total v l ≤ total w l := by
  induction l with
  | nil => exact Nat.le_refl 0
  | cons a l ih =>
      rw [total_cons, total_cons]
      exact Nat.add_le_add (hle a) ih

/-- One entry that weighs less makes the whole weigh less. -/
theorem total_lt_total {v w : α → Nat} (hle : ∀ a, v a ≤ w a) (h : l[n]? = some a)
    (hlt : v a < w a) : total v l < total w l := by
  induction l generalizing n with
  | nil => simp at h
  | cons c l ih =>
      rw [total_cons, total_cons]
      cases n with
      | zero =>
          obtain rfl : c = a := by simpa using h
          exact Nat.add_lt_add_of_lt_of_le hlt (total_mono hle)
      | succ n =>
          exact Nat.add_lt_add_of_le_of_lt (hle c) (ih (n := n) (by simpa using h))

theorem total_eq_zero {w : α → Nat} (h : ∀ a ∈ l, w a = 0) : total w l = 0 := by
  induction l with
  | nil => rfl
  | cons a l ih =>
      rw [total_cons, h a (by simp), ih fun b hb => h b (by simp [hb])]

/-! ### What one entry of a key has at most -/

/-- At most one of the entries of a key has the property. -/
def Distinct (p : α → Prop) (key : α → κ) (l : List α) : Prop :=
  ∀ (i j : Nat) (a b : α), l[i]? = some a → l[j]? = some b → p a → p b → key a = key b → i = j

variable {p : α → Prop} {key : α → κ}

theorem distinct_nil : Distinct p key [] := by
  intro i j a b hi
  simp at hi

theorem Distinct.set (hd : Distinct p key l) (h : l[n]? = some a) {b : α}
    (hb : p b → p a ∧ key b = key a) : Distinct p key (l.set n b) := by
  intro i j c d hi hj hc hd' hkey
  rw [getElem?_set_of_some h] at hi hj
  by_cases hin : i = n <;> by_cases hjn : j = n
  · exact hin.trans hjn.symm
  · obtain rfl : b = c := by simpa [hin] using hi
    obtain ⟨ha, hsame⟩ := hb hc
    have hij := hd n j a d h (by simpa [hjn] using hj) ha hd' (hsame ▸ hkey)
    exact absurd hij.symm hjn
  · obtain rfl : b = d := by simpa [hjn] using hj
    obtain ⟨ha, hsame⟩ := hb hd'
    have hij := hd i n c a (by simpa [hin] using hi) h hc ha (hkey.trans hsame)
    exact absurd hij hin
  · exact hd i j c d (by simpa [hin] using hi) (by simpa [hjn] using hj) hc hd' hkey

theorem Distinct.concat (hd : Distinct p key l) {b : α}
    (hfree : p b → ∀ (i : Nat) (c : α), l[i]? = some c → p c → key c ≠ key b) :
    Distinct p key (l ++ [b]) := by
  have hlast : ∀ (i : Nat) (c : α), (l ++ [b])[i]? = some c →
      l[i]? = some c ∨ (i = l.length ∧ c = b) := by
    intro i c hi
    rcases Nat.lt_trichotomy i l.length with hlt | heq | hgt
    · exact .inl (by rwa [List.getElem?_append_left hlt] at hi)
    · refine .inr ⟨heq, ?_⟩
      rw [heq, List.getElem?_concat_length] at hi
      exact (Option.some.inj hi).symm
    · rw [List.getElem?_eq_none (by simp; omega)] at hi
      cases hi
  intro i j c d hi hj hc hd' hkey
  rcases hlast i c hi with hold | ⟨hilast, rfl⟩
  · rcases hlast j d hj with hold' | ⟨-, rfl⟩
    · exact hd i j c d hold hold' hc hd' hkey
    · exact absurd hkey (hfree hd' i c hold hc)
  · rcases hlast j d hj with hold' | ⟨hjlast, -⟩
    · exact absurd hkey.symm (hfree hc j d hold' hd')
    · exact hilast.trans hjlast.symm

/-- Some entry has the property. -/
def Holds (p : α → Prop) (l : List α) : Prop := ∃ (i : Nat) (a : α), l[i]? = some a ∧ p a

theorem not_holds_nil : ¬ Holds p [] := by
  rintro ⟨i, a, hi, -⟩
  simp at hi

theorem holds_concat {b : α} : Holds p (l ++ [b]) ↔ Holds p l ∨ p b := by
  constructor
  · rintro ⟨i, c, hi, hc⟩
    rcases List.mem_append.mp (List.mem_of_getElem? hi) with hold | hnew
    · obtain ⟨j, hj⟩ := List.getElem?_of_mem hold
      exact .inl ⟨j, c, hj, hc⟩
    · rw [List.mem_singleton.mp hnew] at hc
      exact .inr hc
  · rintro (⟨i, c, hi, hc⟩ | hb)
    · exact ⟨i, c, by rw [List.getElem?_append_left (List.getElem?_eq_some_iff.mp hi).1, hi], hc⟩
    · exact ⟨l.length, b, List.getElem?_concat_length, hb⟩

/-- An entry that has the property before as well as after it is changed. -/
theorem holds_set_of_iff (h : l[n]? = some a) {b : α} (hb : p b ↔ p a) :
    Holds p (l.set n b) ↔ Holds p l := by
  constructor
  · rintro ⟨i, c, hi, hc⟩
    rw [getElem?_set_of_some h] at hi
    by_cases hin : i = n
    · obtain rfl : b = c := by simpa [hin] using hi
      exact ⟨n, a, h, hb.mp hc⟩
    · exact ⟨i, c, by simpa [hin] using hi, hc⟩
  · rintro ⟨i, c, hi, hc⟩
    by_cases hin : i = n
    · subst hin
      obtain rfl : a = c := Option.some.inj (h.symm.trans hi)
      exact ⟨i, b, by simp [getElem?_set_of_some h], hb.mpr hc⟩
    · exact ⟨i, c, by simpa [getElem?_set_of_some h, hin] using hi, hc⟩

end DdsOrchestrator.Roster
