import Mathlib.Data.List.Forall2
import Mathlib.Data.Int.ModEq
import Mathlib.Tactic.Linarith
import Mathlib.Tactic.Positivity

/-!
Codes that end themselves. Values are written one after the other with nothing in between,
and a reader must tell from the symbols alone where one ends and which one it was. That is a
property of two codes and what follows them, and it is kept when codes are put together.
-/

namespace DdsOrchestrator.PrefixCode

variable {σ α : Type*}

/-- One code after the other. There is none if one of them is missing. -/
def cat : Option (List σ) → Option (List σ) → Option (List σ)
  | some p, some q => some (p ++ q)
  | _, _ => none

def concat : List (Option (List σ)) → Option (List σ)
  | [] => some []
  | a :: rest => cat a (concat rest)

theorem cat_eq_some {a b : Option (List σ)} {r : List σ} :
    cat a b = some r ↔ ∃ p q, a = some p ∧ b = some q ∧ p ++ q = r := by
  cases a with
  | none => simp [cat]
  | some p =>
      cases b with
      | none => simp [cat]
      | some q => simp [cat]

theorem exists_concat {codes : List (Option (List σ))} (h : ∀ a ∈ codes, ∃ p, a = some p) :
    ∃ r, concat codes = some r := by
  induction codes with
  | nil => exact ⟨[], rfl⟩
  | cons a rest ih =>
      obtain ⟨p, hp⟩ := h a List.mem_cons_self
      obtain ⟨r, hr⟩ := ih fun b hb => h b (List.mem_cons_of_mem a hb)
      exact ⟨p ++ r, cat_eq_some.mpr ⟨p, r, hp, hr, rfl⟩⟩

/-- A second encoder that has every code of the first one has what they add up to. -/
theorem concat_map_eq_some {f g : α → Option (List σ)} {l : List α} {r : List σ}
    (h : ∀ x ∈ l, ∀ p, f x = some p → g x = some p) (hr : concat (l.map f) = some r) :
    concat (l.map g) = some r := by
  induction l generalizing r with
  | nil => exact hr
  | cons x xs ih =>
      obtain ⟨p, q, hp, hq, happend⟩ := cat_eq_some.mp hr
      apply cat_eq_some.mpr
      refine ⟨p, q, h x List.mem_cons_self p hp, ?_, happend⟩
      exact ih (fun y hy => h y (List.mem_cons_of_mem x hy)) hq

/-! ### Where a code ends -/

/-- If a text can be read as starting with either code, then they are the same one, and `P`
holds of what they stand for. -/
def Delimits (P : Prop) (a b : Option (List σ)) : Prop :=
  ∀ p q s t, a = some p → b = some q → p ++ s = q ++ t → P ∧ s = t

namespace Delimits

variable {P Q : Prop} {a b c d : Option (List σ)} {p q : List σ}

theorem mono (h : Delimits P a b) (himp : P → Q) : Delimits Q a b := by
  intro p q s t hp hq happend
  obtain ⟨hP, hrest⟩ := h p q s t hp hq happend
  exact ⟨himp hP, hrest⟩

/-- Codes of one length. -/
theorem of_length (hlength : ∀ p q, a = some p → b = some q → p.length = q.length)
    (h : ∀ p, a = some p → b = some p → P) : Delimits P a b := by
  intro p q s t hp hq happend
  obtain ⟨rfl, hrest⟩ := List.append_inj happend (hlength p q hp hq)
  exact ⟨h p hp hq, hrest⟩

/-- What the first codes say may be used for the second ones, as a length is for what comes
after it. -/
theorem append (h : Delimits P a b) (hnext : P → Delimits Q c d) :
    Delimits (P ∧ Q) (cat a c) (cat b d) := by
  intro p q s t hp hq happend
  obtain ⟨p₁, p₂, hp₁, hp₂, rfl⟩ := cat_eq_some.mp hp
  obtain ⟨q₁, q₂, hq₁, hq₂, rfl⟩ := cat_eq_some.mp hq
  rw [List.append_assoc, List.append_assoc] at happend
  obtain ⟨hP, hrest⟩ := h p₁ q₁ (p₂ ++ s) (q₂ ++ t) hp₁ hq₁ happend
  obtain ⟨hQ, hend⟩ := hnext hP p₂ q₂ s t hp₂ hq₂ hrest
  exact ⟨⟨hP, hQ⟩, hend⟩

/-- The codes of as many values. -/
theorem sequence {f : α → Option (List σ)} {R : α → α → Prop} {xs ys : List α}
    (hlength : xs.length = ys.length)
    (h : ∀ x ∈ xs, ∀ y ∈ ys, Delimits (R x y) (f x) (f y)) :
    Delimits (List.Forall₂ R xs ys) (concat (xs.map f)) (concat (ys.map f)) := by
  induction xs generalizing ys with
  | nil =>
      rw [List.length_nil, eq_comm, List.length_eq_zero_iff] at hlength
      subst hlength
      rintro p q s t ⟨⟩ ⟨⟩ happend
      exact ⟨.nil, happend⟩
  | cons x xs ih =>
      cases ys with
      | nil => cases hlength
      | cons y ys =>
          have hhead := h x List.mem_cons_self y List.mem_cons_self
          have htail := ih (Nat.succ.inj hlength) fun x' hx y' hy =>
            h x' (List.mem_cons_of_mem x hx) y' (List.mem_cons_of_mem y hy)
          apply (hhead.append fun _ => htail).mono
          rintro ⟨hR, hRs⟩
          exact .cons hR hRs

/-- The codes of the parts of two records, in the order of the fields. -/
theorem fields {l : List α} {f g : α → Option (List σ)} {R : α → Prop}
    (h : ∀ k ∈ l, Delimits (R k) (f k) (g k)) :
    Delimits (∀ k ∈ l, R k) (concat (l.map f)) (concat (l.map g)) := by
  induction l with
  | nil =>
      rintro p q s t ⟨⟩ ⟨⟩ happend
      exact ⟨List.forall_mem_nil R, happend⟩
  | cons k ks ih =>
      have hhead := h k List.mem_cons_self
      have htail := ih fun k' hk => h k' (List.mem_cons_of_mem k hk)
      apply (hhead.append fun _ => htail).mono
      rintro ⟨hR, hRs⟩
      exact List.forall_mem_cons.mpr ⟨hR, hRs⟩

theorem of_eq (h : Delimits P a b) (hp : a = some p) (hq : b = some p) : P :=
  (h p p [] [] hp hq rfl).1

/-- No code is a proper prefix of the other. -/
theorem eq_of_start (h : Delimits P a b) (hp : a = some p) (hq : b = some q)
    (hstart : p <+: q) : p = q := by
  obtain ⟨s, rfl⟩ := hstart
  obtain ⟨-, hrest⟩ := h p (p ++ s) s [] hp hq (List.append_nil _).symm
  rw [hrest, List.append_nil]

end Delimits

/-! ### Numbers of a fixed width -/

/-- The last bytes of a number, the most significant one first. -/
def bigEndian : ℕ → ℕ → List UInt8
  | 0, _ => []
  | width + 1, n => bigEndian width (n / 256) ++ [UInt8.ofNat n]

@[simp] theorem length_bigEndian (width n : ℕ) : (bigEndian width n).length = width := by
  induction width generalizing n with
  | zero => rfl
  | succ width ih => rw [bigEndian, List.length_append, ih, List.length_singleton]

/-- The bytes say what the number is up to multiples of what does not fit in. -/
theorem mod_eq_of_bigEndian {width n m : ℕ} (h : bigEndian width n = bigEndian width m) :
    n % 256 ^ width = m % 256 ^ width := by
  induction width generalizing n m with
  | zero => rw [Nat.pow_zero, Nat.mod_one, Nat.mod_one]
  | succ width ih =>
      obtain ⟨hhigh, hlow⟩ := List.append_inj h (by simp)
      have hbyte : n % 256 = m % 256 := by
        have hnat := congrArg UInt8.toNat (List.singleton_inj.mp hlow)
        rwa [UInt8.toNat_ofNat', UInt8.toNat_ofNat'] at hnat
      rw [Nat.pow_succ', Nat.mod_mul, Nat.mod_mul, hbyte, ih hhigh]

theorem bigEndian_inj {width n m : ℕ} (hn : n < 256 ^ width) (hm : m < 256 ^ width)
    (h : bigEndian width n = bigEndian width m) : n = m := by
  have hmod := mod_eq_of_bigEndian h
  rwa [Nat.mod_eq_of_lt hn, Nat.mod_eq_of_lt hm] at hmod

/-- Two's complement, or any other range with a number for each way to fill the bytes. -/
theorem bigEndian_emod_inj {width : ℕ} {least v w : ℤ}
    (hv : least ≤ v ∧ v < least + 256 ^ width) (hw : least ≤ w ∧ w < least + 256 ^ width)
    (h : bigEndian width (v % 256 ^ width).toNat = bigEndian width (w % 256 ^ width).toNat) :
    v = w := by
  have hpos : (0 : ℤ) < 256 ^ width := by positivity
  have hlt : ∀ u : ℤ, (u % 256 ^ width).toNat < 256 ^ width := by
    intro u
    apply (Int.toNat_lt (Int.emod_nonneg u hpos.ne')).mpr
    push_cast
    exact Int.emod_lt_of_pos u hpos
  have hmod : v % 256 ^ width = w % 256 ^ width := by
    have hnat := congrArg (Nat.cast : ℕ → ℤ) (bigEndian_inj (hlt v) (hlt w) h)
    rwa [Int.toNat_of_nonneg (Int.emod_nonneg v hpos.ne'),
      Int.toNat_of_nonneg (Int.emod_nonneg w hpos.ne')] at hnat
  have hdvd : (256 : ℤ) ^ width ∣ v - w := Int.ModEq.dvd hmod.symm
  -- Within the bounds the difference is less than one multiple.
  have hzero : v - w = 0 := by
    apply Int.eq_zero_of_abs_lt_dvd hdvd
    rw [abs_lt]
    constructor <;> linarith [hv.1, hv.2, hw.1, hw.2]
  exact sub_eq_zero.mp hzero

end DdsOrchestrator.PrefixCode
