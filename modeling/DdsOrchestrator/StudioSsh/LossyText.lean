import DdsOrchestrator.Lib.Utf8
import DdsOrchestrator.StudioSsh.Bridge

/-!
The lossy reading of the bytes of a text is the text.
-/

namespace DdsOrchestrator.StudioSsh

variable {first b : UInt8} {n : ℕ}

theorem utf8More_one (h : first.toNat < 128) : utf8More first = some 0 := by
  rw [utf8More, if_pos (UInt8.lt_iff_toNat_lt.mpr h)]

theorem utf8More_two (hlow : 194 ≤ first.toNat) (hhigh : first.toNat ≤ 223) :
    utf8More first = some 1 := by
  simp only [utf8More, UInt8.lt_iff_toNat_lt, UInt8.le_iff_toNat_le, UInt8.reduceToNat]
  rw [if_neg (by omega), if_pos ⟨hlow, hhigh⟩]

theorem utf8More_three (hlow : 224 ≤ first.toNat) (hhigh : first.toNat ≤ 239) :
    utf8More first = some 2 := by
  simp only [utf8More, UInt8.lt_iff_toNat_lt, UInt8.le_iff_toNat_le, UInt8.reduceToNat]
  rw [if_neg (by omega), if_neg (by omega), if_pos ⟨hlow, hhigh⟩]

theorem utf8More_four (hlow : 240 ≤ first.toNat) (hhigh : first.toNat ≤ 244) :
    utf8More first = some 3 := by
  simp only [utf8More, UInt8.lt_iff_toNat_lt, UInt8.le_iff_toNat_le, UInt8.reduceToNat]
  rw [if_neg (by omega), if_neg (by omega), if_neg (by omega), if_pos ⟨hlow, hhigh⟩]

theorem isContinuation_of_le (hlow : 128 ≤ b.toNat) (hhigh : b.toNat ≤ 191) :
    isContinuation b = true := by
  simp only [isContinuation, UInt8.le_iff_toNat_le, UInt8.reduceToNat, decide_eq_true_eq]
  exact ⟨hlow, hhigh⟩

/-- The second byte is bounded further behind four of the first ones, which rules out numbers
that take fewer bytes, surrogates, and numbers that are too great. -/
theorem isSecond_of_le (hlow : 128 ≤ b.toNat) (hhigh : b.toNat ≤ 191)
    (hE0 : first.toNat = 224 → 160 ≤ b.toNat) (hED : first.toNat = 237 → b.toNat ≤ 159)
    (hF0 : first.toNat = 240 → 144 ≤ b.toNat) (hF4 : first.toNat = 244 → b.toNat ≤ 143) :
    isSecond first b = true := by
  simp only [isSecond, ← UInt8.toNat_inj, UInt8.le_iff_toNat_le, UInt8.reduceToNat]
  split
  next h => simpa using ⟨hE0 h, hhigh⟩
  next =>
    split
    next h => simpa using ⟨hlow, hED h⟩
    next =>
      split
      next h => simpa using ⟨hF0 h, hhigh⟩
      next =>
        split
        next h => simpa using ⟨hlow, hF4 h⟩
        next => exact isContinuation_of_le hlow hhigh

theorem lossyFrom_skip (more rest : List UInt8) :
    lossyFrom more.length (more ++ rest) = lossyFrom 0 rest := by
  induction more with
  | nil => rfl
  | cons b more ih => exact ih

/-- A whole character is read. -/
theorem lossyFrom_whole (more rest : List UInt8) {c : Char}
    (hmore : utf8More first = some more.length)
    (hrun : utf8Run first more.length (more ++ rest) = more.length)
    (hchar : utf8Char first more = c) :
    lossyFrom 0 (first :: more ++ rest) = c :: lossyFrom 0 rest := by
  rw [List.cons_append, lossyFrom, hmore]
  dsimp only
  rw [hrun, if_pos rfl, List.take_left', hchar, lossyFrom_skip]
  rfl

theorem toNat_ofNat_byte {m : ℕ} (h : m < 256) : (UInt8.ofNat m).toNat = m := by
  rw [UInt8.toNat_ofNat']
  exact Nat.mod_eq_of_lt h

theorem lossyFrom_utf8EncodeChar (c : Char) (rest : List UInt8) :
    lossyFrom 0 (String.utf8EncodeChar c ++ rest) = c :: lossyFrom 0 rest := by
  have hvalid : c.toNat < 0xD800 ∨ 0xDFFF < c.toNat ∧ c.toNat < 0x110000 := c.valid
  have hval : c.val.toNat = c.toNat := rfl
  simp only [String.utf8EncodeChar, hval]
  generalize hv : c.toNat = v at hvalid
  have hc : Char.ofNat v = c := by rw [← hv, Char.ofNat_toNat]
  split
  next h1 =>
    have hb := toNat_ofNat_byte (m := v) (by omega)
    refine lossyFrom_whole [] rest (utf8More_one (by omega)) rfl ?_
    simp only [utf8Char, if_true, List.foldl_nil, hb, hc]
  next h1 =>
    split
    next h2 =>
      have hb := toNat_ofNat_byte (m := v / 64 % 32 + 192) (by omega)
      have hb1 := toNat_ofNat_byte (m := v % 64 + 128) (by omega)
      refine lossyFrom_whole [_] rest (utf8More_two (by omega) (by omega)) ?_ ?_
      · simp only [List.length_cons, List.length_nil, List.cons_append, List.nil_append, utf8Run]
        rw [if_pos (isSecond_of_le (by omega) (by omega) (by omega) (by omega) (by omega)
          (by omega))]
        rfl
      · simp only [utf8Char, List.foldl_cons, List.foldl_nil, hb, hb1, List.length_cons,
          List.length_nil, reduceCtorEq, if_false]
        rw [← hc]
        congr 1
        omega
    next h2 =>
      split
      next h3 =>
        have hb := toNat_ofNat_byte (m := v / 4096 % 16 + 224) (by omega)
        have hb1 := toNat_ofNat_byte (m := v / 64 % 64 + 128) (by omega)
        have hb2 := toNat_ofNat_byte (m := v % 64 + 128) (by omega)
        refine lossyFrom_whole [_, _] rest (utf8More_three (by omega) (by omega)) ?_ ?_
        · simp only [List.length_cons, List.length_nil, List.cons_append, List.nil_append, utf8Run,
            continuations]
          rw [if_pos (isSecond_of_le (by omega) (by omega) (by omega) (by omega) (by omega)
            (by omega)), if_pos (isContinuation_of_le (by omega) (by omega))]
        · simp only [utf8Char, List.foldl_cons, List.foldl_nil, hb, hb1, hb2, List.length_cons,
            List.length_nil, reduceCtorEq, if_false]
          rw [← hc]
          congr 1
          omega
      next h3 =>
        have hb := toNat_ofNat_byte (m := v / 262144 % 8 + 240) (by omega)
        have hb1 := toNat_ofNat_byte (m := v / 4096 % 64 + 128) (by omega)
        have hb2 := toNat_ofNat_byte (m := v / 64 % 64 + 128) (by omega)
        have hb3 := toNat_ofNat_byte (m := v % 64 + 128) (by omega)
        refine lossyFrom_whole [_, _, _] rest (utf8More_four (by omega) (by omega)) ?_ ?_
        · simp only [List.length_cons, List.length_nil, List.cons_append, List.nil_append, utf8Run,
            continuations]
          rw [if_pos (isSecond_of_le (by omega) (by omega) (by omega) (by omega) (by omega)
            (by omega)), if_pos (isContinuation_of_le (by omega) (by omega)),
            if_pos (isContinuation_of_le (by omega) (by omega))]
        · simp only [utf8Char, List.foldl_cons, List.foldl_nil, hb, hb1, hb2, hb3,
            List.length_cons, List.length_nil, reduceCtorEq, if_false]
          rw [← hc]
          congr 1
          omega

theorem lossyFrom_flatMap (l : List Char) : lossyFrom 0 (l.flatMap String.utf8EncodeChar) = l := by
  induction l with
  | nil => rfl
  | cons c l ih => rw [List.flatMap_cons, lossyFrom_utf8EncodeChar, ih]

/-- What is written as a text is read as that text. -/
theorem fromUtf8Lossy_asBytes (s : String) : fromUtf8Lossy (Utf8.asBytes s) = s := by
  have hbytes : Utf8.asBytes s = s.toList.flatMap String.utf8EncodeChar := by
    rw [Utf8.asBytes, ← String.utf8Encode_toList, List.utf8Encode, List.toList_data_toByteArray]
  rw [fromUtf8Lossy, hbytes, lossyFrom_flatMap, String.ofList_toList]

end DdsOrchestrator.StudioSsh
