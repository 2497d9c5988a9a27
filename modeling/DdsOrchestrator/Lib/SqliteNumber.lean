import Mathlib.Algebra.Order.Ring.Int
import Mathlib.Tactic.IntervalCases

/-!
The numbers of SQLite. A sum or a difference of integers that leaves the 64 bits becomes a
REAL, a double, and so does everything it is added to; a column of integers turns a REAL
that it is given back into an integer only where nothing is lost. Integers are all that is
added here, so the REALs have integer values too, and a value is rounded to the nearest
double, ties to the even one.
-/

namespace DdsOrchestrator

/-! ### Doubles -/

/-- The distance of the doubles around `n`. -/
def ulp (n : ℕ) : ℕ := 2 ^ (n.log2 - 52)

/-- The double next to `n`. -/
def roundNat (n : ℕ) : ℕ :=
  let q := n / ulp n
  let r := n % ulp n
  if ulp n < 2 * r ∨ ulp n = 2 * r ∧ q % 2 = 1 then (q + 1) * ulp n else q * ulp n

def toDouble : ℤ → ℤ
  | .ofNat n => roundNat n
  | .negSucc n => -(roundNat (n + 1))

section Rounding

variable {n m k : ℕ}

theorem ulp_of_log2_le (h : n.log2 ≤ 52) : ulp n = 1 := by
  rw [ulp, Nat.sub_eq_zero_of_le h, pow_zero]

theorem roundNat_cases (n : ℕ) :
    roundNat n = n / ulp n * ulp n ∨
      roundNat n = (n / ulp n + 1) * ulp n ∧ ulp n ≤ 2 * (n % ulp n) := by
  unfold roundNat
  dsimp only
  split
  · next hup =>
      refine .inr ⟨rfl, ?_⟩
      rcases hup with hlt | ⟨heq, -⟩
      · exact hlt.le
      · exact heq.le
  · exact .inl rfl

theorem roundNat_of_log2_le (h : n.log2 ≤ 52) : roundNat n = n := by
  rcases roundNat_cases n with heq | ⟨-, hle⟩
  · rw [heq, ulp_of_log2_le h, Nat.div_one, mul_one]
  · rw [ulp_of_log2_le h, Nat.mod_one] at hle
    omega

/-- Rounding does not leave the binade. -/
theorem roundNat_binade (hn : n ≠ 0) :
    2 ^ n.log2 ≤ roundNat n ∧ roundNat n ≤ 2 ^ (n.log2 + 1) := by
  by_cases h : n.log2 ≤ 52
  · rw [roundNat_of_log2_le h]
    exact ⟨Nat.log2_self_le hn, Nat.lt_log2_self.le⟩
  have hlow : 2 ^ n.log2 = 2 ^ 52 * ulp n := by
    rw [ulp, ← pow_add]
    congr 1
    omega
  have hhigh : 2 ^ (n.log2 + 1) = 2 ^ 53 * ulp n := by
    rw [ulp, ← pow_add]
    congr 1
    omega
  have hpos : 0 < ulp n := by
    unfold ulp
    positivity
  have hq : 2 ^ 52 ≤ n / ulp n := by
    rw [Nat.le_div_iff_mul_le hpos, ← hlow]
    exact Nat.log2_self_le hn
  have hq' : n / ulp n < 2 ^ 53 := by
    rw [Nat.div_lt_iff_lt_mul hpos, ← hhigh]
    exact Nat.lt_log2_self
  rw [hlow, hhigh]
  rcases roundNat_cases n with heq | ⟨heq, -⟩
  · rw [heq]
    exact ⟨Nat.mul_le_mul_right _ hq, Nat.mul_le_mul_right _ hq'.le⟩
  · rw [heq]
    exact ⟨Nat.mul_le_mul_right _ (hq.trans (Nat.le_succ _)), Nat.mul_le_mul_right _ hq'⟩

theorem roundNat_mono (h : n ≤ m) : roundNat n ≤ roundNat m := by
  rcases Nat.eq_zero_or_pos n with rfl | hn
  · rw [roundNat_of_log2_le (by decide)]
    exact Nat.zero_le _
  have hm : m ≠ 0 := by omega
  have hbinade : n.log2 ≤ m.log2 := (Nat.le_log2 hm).mpr ((Nat.log2_self_le hn.ne').trans h)
  rcases hbinade.eq_or_lt with hlog | hlog
  · -- the same doubles lie around both
    have hulp : ulp n = ulp m := by rw [ulp, ulp, hlog]
    have hdiv : n / ulp m ≤ m / ulp m := Nat.div_le_div_right h
    unfold roundNat
    dsimp only
    rw [hulp]
    rcases hdiv.eq_or_lt with hq | hq
    · have hrem : n % ulp m ≤ m % ulp m := by
        have hn := Nat.div_add_mod n (ulp m)
        have hm := Nat.div_add_mod m (ulp m)
        rw [hq] at hn
        omega
      rw [hq]
      split_ifs with hup hup'
      · exact le_rfl
      · omega
      · exact Nat.mul_le_mul_right _ (Nat.le_succ _)
      · exact le_rfl
    · split_ifs
      · exact Nat.mul_le_mul_right _ (Nat.succ_le_succ hq.le)
      · exact Nat.mul_le_mul_right _ hq
      · exact Nat.mul_le_mul_right _ (hq.le.trans (Nat.le_succ _))
      · exact Nat.mul_le_mul_right _ hq.le
  · calc roundNat n ≤ 2 ^ (n.log2 + 1) := (roundNat_binade hn.ne').2
      _ ≤ 2 ^ m.log2 := Nat.pow_le_pow_right (by decide) hlog
      _ ≤ roundNat m := (roundNat_binade hm).1

theorem two_pow_le_roundNat (h : 2 ^ k ≤ n) : 2 ^ k ≤ roundNat n := by
  have hn : n ≠ 0 := by
    have := Nat.two_pow_pos k
    omega
  exact (Nat.pow_le_pow_right (by decide) ((Nat.le_log2 hn).mpr h)).trans (roundNat_binade hn).1

/-- The error is at most half of the distance, and the result a multiple of it. -/
theorem roundNat_near (n : ℕ) :
    ulp n ∣ roundNat n ∧ 2 * n ≤ 2 * roundNat n + ulp n ∧ 2 * roundNat n ≤ 2 * n + ulp n := by
  have hn := Nat.div_add_mod n (ulp n)
  have hlt : n % ulp n < ulp n := Nat.mod_lt _ (by unfold ulp; positivity)
  rw [mul_comm] at hn
  unfold roundNat
  dsimp only
  split_ifs with hup
  · refine ⟨Dvd.intro_left _ rfl, ?_⟩
    rw [Nat.add_mul, one_mul]
    omega
  · refine ⟨Dvd.intro_left _ rfl, ?_⟩
    omega

theorem log2_of_binade {e : ℕ} (h : 2 ^ e ≤ n) (h' : n < 2 ^ (e + 1)) : n.log2 = e := by
  have hn : n ≠ 0 := by
    have := Nat.two_pow_pos e
    omega
  exact (Nat.log2_eq_iff hn).mpr ⟨h, h'⟩

/-- The doubles below `2 ^ 63` are `1024` apart, the ones above it `2048`. -/
theorem roundNat_two_pow_63 (h : 2 ^ 63 ≤ n + 512) (h' : n ≤ 2 ^ 63 + 512) :
    roundNat n = 2 ^ 63 := by
  by_cases hlt : n < 2 ^ 63
  · have hulp : ulp n = 1024 := by
      rw [ulp, log2_of_binade (e := 62) (by omega) hlt]
      rfl
    unfold roundNat
    rw [hulp]
    dsimp only
    rw [if_pos (by omega)]
    omega
  · have hulp : ulp n = 2048 := by
      rw [ulp, log2_of_binade (e := 63) (by omega) (by omega)]
      rfl
    unfold roundNat
    rw [hulp]
    dsimp only
    rw [if_neg (by omega)]
    omega

/-- Two numbers that add up to `2 ^ 63` do so as doubles. -/
theorem roundNat_add_eq_of_le (h : n + m = 2 ^ 63) (hle : n ≤ m) :
    roundNat (roundNat n + roundNat m) = 2 ^ 63 := by
  by_cases hhalf : n = 2 ^ 62
  · obtain rfl : m = 2 ^ 62 := by omega
    subst hhalf
    decide +kernel
  by_cases hfull : n = 0
  · obtain rfl : m = 2 ^ 63 := by omega
    subst hfull
    decide +kernel
  obtain ⟨hdvd, hlow, hhigh⟩ := roundNat_near n
  obtain ⟨hdvd', hlow', hhigh'⟩ := roundNat_near m
  have hulp' : ulp m = 1024 := by
    rw [ulp, log2_of_binade (e := 62) (by omega) (by omega)]
    rfl
  have hlog : n.log2 < 62 := (Nat.log2_lt hfull).mpr (by omega)
  have hpos : 0 < ulp n := by
    unfold ulp
    positivity
  have hulp : ulp n ∣ 2 ^ 9 := Nat.pow_dvd_pow 2 (by omega)
  rw [hulp'] at hdvd' hlow' hhigh'
  -- both are multiples of the smaller distance, and so are 512 and `2 ^ 63`
  have hsum : ulp n ∣ roundNat n + roundNat m :=
    (Nat.dvd_add_right hdvd).mpr ((hulp.trans (by decide)).trans hdvd')
  have hfar : ulp n ∣ 2 ^ 63 := hulp.trans (by decide)
  refine roundNat_two_pow_63 ?_ ?_
  · by_contra hbelow
    have hgap : ulp n ∣ 2 ^ 63 - (roundNat n + roundNat m + 2 ^ 9) :=
      Nat.dvd_sub hfar ((Nat.dvd_add_right hsum).mpr hulp)
    have := Nat.le_of_dvd (by omega) hgap
    omega
  · by_contra habove
    have hgap : ulp n ∣ roundNat n + roundNat m - (2 ^ 63 + 2 ^ 9) :=
      Nat.dvd_sub hsum ((Nat.dvd_add_right hfar).mpr hulp)
    have := Nat.le_of_dvd (by omega) hgap
    omega

theorem le_roundNat_add (h : 2 ^ 63 ≤ n + m) (hn : n ≤ 2 ^ 63) :
    2 ^ 63 ≤ roundNat (roundNat n + roundNat m) := by
  have hsame : roundNat (roundNat n + roundNat (2 ^ 63 - n)) = 2 ^ 63 := by
    rcases Nat.le_total n (2 ^ 63 - n) with hle | hle
    · exact roundNat_add_eq_of_le (by omega) hle
    · rw [Nat.add_comm]
      exact roundNat_add_eq_of_le (by omega) hle
  calc 2 ^ 63 = roundNat (roundNat n + roundNat (2 ^ 63 - n)) := hsame.symm
    _ ≤ roundNat (roundNat n + roundNat m) :=
      roundNat_mono (Nat.add_le_add_left (roundNat_mono (by omega)) _)

@[simp] theorem toDouble_natCast (n : ℕ) : toDouble n = roundNat n := rfl

theorem toDouble_nonneg {i : ℤ} (h : 0 ≤ i) : 0 ≤ toDouble i := by
  obtain ⟨n, rfl⟩ := Int.eq_ofNat_of_zero_le h
  exact Int.natCast_nonneg _

theorem le_toDouble {i : ℤ} (h : 2 ^ 63 ≤ i) : 2 ^ 63 ≤ toDouble i := by
  obtain ⟨n, rfl⟩ := Int.eq_ofNat_of_zero_le (show 0 ≤ i by omega)
  rw [toDouble_natCast]
  exact_mod_cast two_pow_le_roundNat (k := 63) (by exact_mod_cast h)

theorem le_toDouble_add {i k : ℤ} (hi : 0 ≤ i) (hk : 0 ≤ k) (hi' : i ≤ 2 ^ 63)
    (h : 2 ^ 63 ≤ i + k) : 2 ^ 63 ≤ toDouble (toDouble i + toDouble k) := by
  obtain ⟨n, rfl⟩ := Int.eq_ofNat_of_zero_le hi
  obtain ⟨m, rfl⟩ := Int.eq_ofNat_of_zero_le hk
  rw [toDouble_natCast, toDouble_natCast, ← Int.natCast_add, toDouble_natCast]
  exact_mod_cast le_roundNat_add (by exact_mod_cast h) (by exact_mod_cast hi')

end Rounding

/-! ### Numbers -/

/-- A value of a column of integers. A REAL stands for a double. -/
inductive SqliteNumber where
  | integer (i : ℤ)
  | real (r : ℤ)
  deriving DecidableEq

namespace SqliteNumber

/-- The 64 bits of an INTEGER hold it. -/
def Fits (i : ℤ) : Prop := -2 ^ 63 ≤ i ∧ i < 2 ^ 63

instance (i : ℤ) : Decidable (Fits i) := inferInstanceAs (Decidable (_ ∧ _))

def value : SqliteNumber → ℤ
  | integer i => i
  | real r => r

/-- The operation on integers, if its result fits, and on doubles otherwise. -/
def arith (op : ℤ → ℤ → ℤ) : SqliteNumber → SqliteNumber → SqliteNumber
  | integer i, integer k =>
      if Fits (op i k) then integer (op i k)
      else real (toDouble (op (toDouble i) (toDouble k)))
  | x, y => real (toDouble (op (toDouble x.value) (toDouble y.value)))

instance : Add SqliteNumber := ⟨arith (· + ·)⟩

instance : Sub SqliteNumber := ⟨arith (· - ·)⟩

/-- The affinity of the column: neither the smallest nor the largest integer is made of a
REAL. -/
def stored : SqliteNumber → SqliteNumber
  | integer i => integer i
  | real r => if -2 ^ 63 < r ∧ r < 2 ^ 63 - 1 then integer r else real r

variable {x y : SqliteNumber} {i k : ℤ}

@[simp] theorem value_integer : (integer i).value = i := rfl

@[simp] theorem stored_integer : (integer i).stored = integer i := rfl

@[simp] theorem value_stored : x.stored.value = x.value := by
  cases x with
  | integer i => rfl
  | real r =>
      dsimp only [stored]
      split <;> rfl

theorem integer_add (h : Fits (i + k)) : integer i + integer k = integer (i + k) :=
  if_pos h

theorem integer_sub (h : Fits (i - k)) : integer i - integer k = integer (i - k) :=
  if_pos h

theorem integer_add_of_not (h : ¬ Fits (i + k)) :
    integer i + integer k = real (toDouble (toDouble i + toDouble k)) :=
  if_neg h

/-- Only integers are subtracted to an integer. -/
theorem sub_eq_integer (h : x - y = integer k) :
    ∃ a b, x = integer a ∧ y = integer b ∧ k = a - b ∧ Fits k := by
  cases x with
  | real r => cases h
  | integer a =>
      cases y with
      | real r => cases h
      | integer b =>
          by_cases hfits : Fits (a - b)
          · rw [integer_sub hfits] at h
            cases h
            exact ⟨a, b, rfl, rfl, rfl, hfits⟩
          · have hreal : integer a - integer b = real (toDouble (toDouble a - toDouble b)) :=
              if_neg hfits
            rw [hreal] at h
            cases h

/-- A sum that does not fit is not rounded back. -/
theorem le_value_add (hi : 0 ≤ i) (hk : 0 ≤ k) (hi' : i ≤ 2 ^ 63) (h : 2 ^ 63 ≤ i + k) :
    2 ^ 63 ≤ (integer i + integer k).value := by
  rw [integer_add_of_not fun hfits => absurd hfits.2 (by omega)]
  exact le_toDouble_add hi hk hi' h

theorem le_value_add_of_le (hi : 0 ≤ i) (h : 2 ^ 63 ≤ x.value) :
    2 ^ 63 ≤ (integer i + x).value := by
  have hdouble : 2 ^ 63 ≤ toDouble (toDouble i + toDouble x.value) :=
    le_toDouble (by have := toDouble_nonneg hi; have := le_toDouble h; omega)
  cases x with
  | integer k =>
      rw [value_integer] at h
      rw [integer_add_of_not fun hfits => absurd hfits.2 (by omega)]
      exact hdouble
  | real r => exact hdouble

end SqliteNumber

end DdsOrchestrator
