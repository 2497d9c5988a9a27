import Mathlib.Data.List.Infix

/-!
Strings as bytes. A string is cut at its byte positions, and only where a character begins.
Before and after an ASCII character there always begins one.
-/

namespace DdsOrchestrator.Utf8

/-- `s.as_bytes()`. -/
def asBytes (s : String) : List UInt8 := s.toByteArray.data.toList

/-- `&s[start..stop]`, which panics if a position is not on a character boundary. -/
def slice? (s : String) (start stop : ℕ) : Option String :=
  if h : start ≤ stop ∧ String.Pos.Raw.IsValid s ⟨start⟩ ∧ String.Pos.Raw.IsValid s ⟨stop⟩ then
    some (s.extract ⟨⟨start⟩, h.2.1⟩ ⟨⟨stop⟩, h.2.2⟩)
  else none

@[simp] theorem asBytes_append (s t : String) : asBytes (s ++ t) = asBytes s ++ asBytes t := by
  simp [asBytes]

theorem asBytes_inj {s t : String} : asBytes s = asBytes t ↔ s = t := by
  rw [asBytes, asBytes, Array.toList_inj, ← String.toByteArray_inj]
  exact ⟨ByteArray.ext, congrArg _⟩

@[simp] theorem length_asBytes (s : String) : (asBytes s).length = s.utf8ByteSize := by
  rw [asBytes, Array.length_toList]
  exact String.size_toByteArray

theorem utf8ByteSize_of_ascii {s : String} (h : ∀ c ∈ s.toList, c.toNat < 128) :
    s.utf8ByteSize = s.length := by
  have hlist : ∀ l : List Char, (∀ c ∈ l, c.toNat < 128) →
      (String.ofList l).utf8ByteSize = l.length := by
    intro l hl
    induction l with
    | nil => rfl
    | cons c l ih =>
        obtain ⟨hc, hl⟩ := List.forall_mem_cons.mp hl
        have hone : c.utf8Size = 1 := by
          rw [Char.utf8Size_eq_one_iff, UInt32.le_iff_toNat_le]
          exact Nat.le_of_lt_succ hc
        rw [String.ofList_cons, String.utf8ByteSize_append, String.utf8ByteSize_singleton, hone,
          ih hl, List.length_cons, Nat.add_comm]
  rw [← String.length_toList, ← hlist s.toList h, String.ofList_toList]

theorem isValid_append (s t : String) :
    String.Pos.Raw.IsValid (s ++ t) ⟨(asBytes s).length⟩ := by
  refine String.Pos.Raw.isValid_iff_exists_append.mpr ⟨s, t, rfl, ?_⟩
  rw [length_asBytes]
  rfl

/-- The slice at the positions of a part is this part. -/
theorem slice?_append (s t u : String) :
    slice? (s ++ t ++ u) (asBytes s).length ((asBytes s).length + (asBytes t).length) = some t := by
  have hstart : String.Pos.Raw.IsValid (s ++ t ++ u) ⟨(asBytes s).length⟩ := by
    rw [String.append_assoc]
    exact isValid_append s (t ++ u)
  have hstop : String.Pos.Raw.IsValid (s ++ t ++ u)
      ⟨(asBytes s).length + (asBytes t).length⟩ := by
    rw [← List.length_append, ← asBytes_append]
    exact isValid_append (s ++ t) u
  rw [slice?, dif_pos ⟨Nat.le_add_right _ _, hstart, hstop⟩, Option.some_inj, ← asBytes_inj]
  have hextract : asBytes ((s ++ t ++ u).extract ⟨_, hstart⟩ ⟨_, hstop⟩) =
      (asBytes (s ++ t ++ u)).extract (asBytes s).length
        ((asBytes s).length + (asBytes t).length) := by
    rw [asBytes, String.toByteArray_extract, ByteArray.data_extract, Array.toList_extract]
    rfl
  rw [hextract, List.extract_eq_take_drop, Nat.add_sub_cancel_left, asBytes_append, asBytes_append,
    List.append_assoc, List.drop_left, List.take_left]

/-- Before the byte of an ASCII character the string can be cut. -/
theorem exists_before {s : String} {before after : List UInt8} {b : UInt8}
    (h : asBytes s = before ++ b :: after) (hb : b.IsUTF8FirstByte) :
    ∃ t u, s = t ++ u ∧ asBytes t = before ∧ asBytes u = b :: after := by
  have hlength : (asBytes s).length = before.length + after.length + 1 := by
    rw [h, List.length_append, List.length_cons]
    omega
  have hlt : before.length < s.toByteArray.size := by
    rw [String.size_toByteArray, ← length_asBytes]
    omega
  have hbyte : s.toByteArray[before.length] = b := by
    have hget : (asBytes s)[before.length]? = some b := by
      rw [h, List.getElem?_append_right le_rfl, Nat.sub_self]
      rfl
    rw [asBytes, Array.getElem?_toList] at hget
    exact (Array.getElem?_eq_some_iff.mp hget).2
  have hvalid : String.Pos.Raw.IsValid s ⟨before.length⟩ := by
    refine String.Pos.Raw.isValid_iff_isUTF8FirstByte.mpr (.inr ⟨?_, ?_⟩)
    · rw [String.Pos.Raw.lt_iff, String.byteIdx_rawEndPos, ← String.size_toByteArray]
      exact hlt
    · rw [String.getUTF8Byte]
      exact hbyte ▸ hb
  obtain ⟨t, u, rfl, hpos⟩ := String.Pos.Raw.isValid_iff_exists_append.mp hvalid
  have hsize : before.length = t.utf8ByteSize := congrArg String.Pos.Raw.byteIdx hpos
  rw [asBytes_append] at h
  obtain ⟨ht, hu⟩ := List.append_inj h (by rw [length_asBytes, hsize])
  exact ⟨t, u, rfl, ht, hu⟩

/-- After the byte of an ASCII character the string can be cut. -/
theorem exists_after {s : String} {after : List UInt8} {b : UInt8} {c : Char}
    (h : asBytes s = b :: after) (hc : String.utf8EncodeChar c = [b]) :
    ∃ t, s = .singleton c ++ t ∧ asBytes t = after := by
  have harray : s.toByteArray = [c].utf8Encode ++ ⟨after.toArray⟩ := by
    refine ByteArray.ext (Array.toList_inj.mp ?_)
    rw [← asBytes, h]
    simp [List.utf8Encode_singleton, hc]
  have hvalid : ByteArray.IsValidUTF8 ⟨after.toArray⟩ := by
    rw [← ByteArray.isValidUTF8_utf8Encode_singleton_append_iff (c := c), ← harray]
    exact s.isValidUTF8
  refine ⟨⟨⟨after.toArray⟩, hvalid⟩, ?_, rfl⟩
  rw [← String.toByteArray_inj, harray, String.toByteArray_append, String.toByteArray_singleton]

/-- A character of one byte is in the string where its byte is in the bytes. -/
theorem mem_toList_of_mem_asBytes {s : String} {b : UInt8} {c : Char} (h : b ∈ asBytes s)
    (hb : b.IsUTF8FirstByte) (hc : String.utf8EncodeChar c = [b]) : c ∈ s.toList := by
  obtain ⟨before, after, hbytes⟩ := List.append_of_mem h
  obtain ⟨t, u, rfl, -, hu⟩ := exists_before hbytes hb
  obtain ⟨v, rfl, -⟩ := exists_after hu hc
  simp

end DdsOrchestrator.Utf8
