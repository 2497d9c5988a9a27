import Mathlib.Data.List.Basic

/-!
A file as a sequence of lines. The bytes are read as UTF-8 or not at all, a line
ends with a newline or with the text, and a carriage return before the newline
belongs to neither. Each line is trimmed of white space at both ends.
-/

namespace DdsOrchestrator.Lines

/-- The pieces of a text, each up to and with its newline. -/
def splitInclusive : List Char → List (List Char)
  | [] => []
  | c :: cs =>
      if c = '\n' then [c] :: splitInclusive cs
      else
        match splitInclusive cs with
        | [] => [[c]]
        | l :: ls => (c :: l) :: ls

def stripSuffix (c : Char) (l : List Char) : Option (List Char) :=
  if l.getLast? = some c then some l.dropLast else none

/-- A line without its end. -/
def chomp (l : List Char) : List Char :=
  match stripSuffix '\n' l with
  | none => l
  | some l => (stripSuffix '\r' l).getD l

def lines (text : List Char) : List (List Char) := (splitInclusive text).map chomp

/-- The characters with the Unicode property `White_Space`. -/
def isWhitespace (c : Char) : Bool :=
  let n := c.toNat
  (9 ≤ n && n ≤ 13) || n == 0x20 || n == 0x85 || n == 0xa0 || n == 0x1680 ||
    (0x2000 ≤ n && n ≤ 0x200a) || n == 0x2028 || n == 0x2029 || n == 0x202f ||
    n == 0x205f || n == 0x3000

def trim (l : List Char) : List Char :=
  ((l.dropWhile isWhitespace).reverse.dropWhile isWhitespace).reverse

theorem splitInclusive_append {l : List Char} (h : '\n' ∉ l) (rest : List Char) :
    splitInclusive (l ++ '\n' :: rest) = (l ++ ['\n']) :: splitInclusive rest := by
  induction l with
  | nil => simp [splitInclusive]
  | cons c cs ih =>
      rw [List.mem_cons, not_or] at h
      rw [List.cons_append, splitInclusive, if_neg (Ne.symm h.1), ih h.2]
      rfl

theorem chomp_concat {l : List Char} (h : l.getLast? ≠ some '\r') : chomp (l ++ ['\n']) = l := by
  simp [chomp, stripSuffix, h]

/-- A line that is complete is read as it was written. -/
theorem lines_append {l : List Char} (h : '\n' ∉ l) (hlast : l.getLast? ≠ some '\r')
    (rest : List Char) : lines (l ++ '\n' :: rest) = l :: lines rest := by
  rw [lines, splitInclusive_append h, List.map_cons, chomp_concat hlast]
  rfl

theorem splitInclusive_eq_singleton {l : List Char} (h : '\n' ∉ l) (hne : l ≠ []) :
    splitInclusive l = [l] := by
  induction l with
  | nil => exact absurd rfl hne
  | cons c cs ih =>
      rw [List.mem_cons, not_or] at h
      rw [splitInclusive, if_neg (Ne.symm h.1)]
      cases cs with
      | nil => rfl
      | cons d ds => rw [ih h.2 (List.cons_ne_nil _ _)]

/-- What stands behind the last newline is a line. -/
theorem lines_eq_singleton {l : List Char} (h : '\n' ∉ l) (hne : l ≠ []) : lines l = [l] := by
  have hlast : l.getLast? ≠ some '\n' := fun heq => h (List.mem_of_getLast? heq)
  rw [lines, splitInclusive_eq_singleton h hne, List.map_singleton, chomp, stripSuffix,
    if_neg hlast]

theorem trim_ne_nil {l : List Char} {a : Char} (hhead : l.head? = some a)
    (ha : isWhitespace a = false) : trim l ≠ [] := by
  obtain ⟨cs, rfl⟩ := List.head?_eq_some_iff.mp hhead
  have hdrop : (a :: cs).dropWhile isWhitespace = a :: cs := by simp [ha]
  have hmem : a ∈ ((a :: cs).reverse.dropWhile isWhitespace) := by
    rw [List.reverse_cons, List.dropWhile_append]
    split
    · simp [ha]
    · simp
  intro hnil
  rw [trim, hdrop, List.reverse_eq_nil_iff] at hnil
  rw [hnil] at hmem
  cases hmem

theorem trim_eq_self {l : List Char} {a b : Char} (hhead : l.head? = some a)
    (ha : isWhitespace a = false) (hlast : l.getLast? = some b)
    (hb : isWhitespace b = false) : trim l = l := by
  have hdrop : l.dropWhile isWhitespace = l := by
    obtain ⟨cs, rfl⟩ := List.head?_eq_some_iff.mp hhead
    simp [ha]
  have hdropr : l.reverse.dropWhile isWhitespace = l.reverse := by
    obtain ⟨cs, rfl⟩ := List.getLast?_eq_some_iff.mp hlast
    simp [hb]
  rw [trim, hdrop, hdropr, List.reverse_reverse]

/-! ### Bytes and text -/

/-- A text is read back from its bytes. -/
theorem fromUTF8?_eq_some_iff {bytes : ByteArray} {s : String} :
    String.fromUTF8? bytes = some s ↔ bytes = s.toUTF8 := by
  constructor
  · intro h
    rw [String.fromUTF8?] at h
    split at h
    · cases h
      rfl
    · cases h
  · rintro rfl
    have hvalid : s.toUTF8.IsValidUTF8 := s.isValidUTF8
    simp only [String.fromUTF8?, hvalid, dite_true]
    rfl

theorem toUTF8_append (s t : String) : (s ++ t).toUTF8 = s.toUTF8 ++ t.toUTF8 := rfl

/-- Where a text is the beginning of another one, byte by byte, it is so character
by character. -/
theorem isPrefix_of_toUTF8_append {s t : String} {rest : ByteArray}
    (h : s.toUTF8 ++ rest = t.toUTF8) : s.toList <+: t.toList := by
  apply List.isPrefix_of_utf8Encode_append_eq_utf8Encode rest
  simpa using h

/-- Bytes that can be read behind a text are a text. -/
theorem exists_of_fromUTF8?_append {s u : String} {rest : ByteArray}
    (h : String.fromUTF8? (s.toUTF8 ++ rest) = some u) : ∃ t : String, rest = t.toUTF8 := by
  have hbytes := fromUTF8?_eq_some_iff.mp h
  obtain ⟨t, ht⟩ := isPrefix_of_toUTF8_append hbytes
  have hsplit : u = s ++ String.ofList t := by
    apply String.toList_inj.mp
    simp [← ht]
  rw [hsplit, toUTF8_append] at hbytes
  exact ⟨String.ofList t, (ByteArray.append_right_inj _).mp hbytes⟩

end DdsOrchestrator.Lines
