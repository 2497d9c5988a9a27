import DdsOrchestrator.Lib.Lines

/-!
Files of one record a line. A writer appends the text of a record and a newline; where no
text has a newline in it or ends in a carriage return, the lines of the file are the texts.
-/

namespace DdsOrchestrator.LineFile

variable {ρ : Type*} (toText : ρ → String)

def text : List ρ → String
  | [] => ""
  | r :: rs => toText r ++ "\n" ++ text rs

def line (r : ρ) : ByteArray := (toText r ++ "\n").toUTF8

def bytes (rs : List ρ) : ByteArray := (text toText rs).toUTF8

@[simp] theorem bytes_nil : bytes toText [] = ByteArray.empty := rfl

theorem text_append (rs rs' : List ρ) :
    text toText (rs ++ rs') = text toText rs ++ text toText rs' := by
  induction rs with
  | nil => simp [text]
  | cons r rs ih => simp [text, ih, String.append_assoc]

theorem bytes_append (rs rs' : List ρ) :
    bytes toText (rs ++ rs') = bytes toText rs ++ bytes toText rs' := by
  rw [bytes, text_append, Lines.toUTF8_append]
  rfl

theorem bytes_concat (rs : List ρ) (r : ρ) :
    bytes toText (rs ++ [r]) = bytes toText rs ++ line toText r := by
  rw [bytes_append]
  simp [bytes, text, line]

theorem fromUTF8?_bytes (rs : List ρ) (rest : String) :
    String.fromUTF8? (bytes toText rs ++ rest.toUTF8) = some (text toText rs ++ rest) := by
  rw [Lines.fromUTF8?_eq_some_iff, Lines.toUTF8_append]
  rfl

variable {toText}

/-- The lines of complete records, and those of what stands behind them. -/
theorem lines_text (hnewline : ∀ r, '\n' ∉ (toText r).toList)
    (hlast : ∀ r, (toText r).toList.getLast? ≠ some '\r') (rs : List ρ) (rest : List Char) :
    Lines.lines ((text toText rs).toList ++ rest) =
      rs.map (fun r => (toText r).toList) ++ Lines.lines rest := by
  induction rs with
  | nil => simp [text]
  | cons r rs ih =>
      have hsplit : (text toText (r :: rs)).toList ++ rest =
          (toText r).toList ++ '\n' :: ((text toText rs).toList ++ rest) := by
        simp [text]
      rw [hsplit, Lines.lines_append (hnewline r) (hlast r), ih]
      rfl

end DdsOrchestrator.LineFile
