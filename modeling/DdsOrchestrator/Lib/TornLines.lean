import Mathlib.Data.List.Count

/-!
Files that lines are appended to, where an append may stop anywhere. What a file holds is the
lines that have ended and a rest behind the last end. An append goes on with the rest, so its
first line is a line of its own only where there is none.
-/

namespace DdsOrchestrator.TornLines

/-- The lines that have ended, and what stands behind them. -/
structure Content (α : Type*) where
  whole : List (List α)
  rest : List α

variable {α E : Type*} [DecidableEq α]

section

variable (eol : α)

def Content.push (c : Content α) (a : α) : Content α :=
  if a = eol then ⟨c.whole ++ [c.rest], []⟩ else ⟨c.whole, c.rest ++ [a]⟩

def content (file : List α) : Content α := file.foldl (Content.push eol) ⟨[], []⟩

/-- The lines as a reader takes them: a rest is a line as well. -/
def lines (file : List α) : List (List α) :=
  (content eol file).whole ++
    if (content eol file).rest = [] then [] else [(content eol file).rest]

/-- What is appended for a list of records. -/
def output (toLine : E → List α) (es : List E) : List α := es.flatMap fun e => toLine e ++ [eol]

end

variable {eol : α} {toLine : E → List α} {file : List α} {es : List E} {l : List α}

theorem content_append (file more : List α) :
    content eol (file ++ more) = more.foldl (Content.push eol) (content eol file) :=
  List.foldl_append

theorem foldl_push_of_not_mem (h : eol ∉ l) (c : Content α) :
    l.foldl (Content.push eol) c = ⟨c.whole, c.rest ++ l⟩ := by
  induction l generalizing c with
  | nil => rw [List.foldl_nil, List.append_nil]
  | cons a l ih =>
      rw [List.mem_cons, not_or] at h
      rw [List.foldl_cons, ih h.2, Content.push, if_neg (Ne.symm h.1), List.append_assoc,
        List.singleton_append]

theorem foldl_push_line (h : eol ∉ l) (c : Content α) :
    (l ++ [eol]).foldl (Content.push eol) c = ⟨c.whole ++ [c.rest ++ l], []⟩ := by
  rw [List.foldl_append, foldl_push_of_not_mem h, List.foldl_cons, List.foldl_nil, Content.push,
    if_pos rfl]

/-- What has ended stays. -/
theorem whole_foldl_push (more : List α) (c : Content α) :
    c.whole <+: (more.foldl (Content.push eol) c).whole := by
  induction more generalizing c with
  | nil => exact List.prefix_refl _
  | cons a more ih =>
      refine List.IsPrefix.trans ?_ (ih (c.push eol a))
      rw [Content.push]
      split
      · exact List.prefix_append _ _
      · exact List.prefix_refl _

theorem count_whole_le_append (eol : α) (file more l : List α) :
    (content eol file).whole.count l ≤ (content eol (file ++ more)).whole.count l := by
  rw [content_append]
  exact (whole_foldl_push more _).sublist.count_le l

theorem count_whole_le_lines (eol : α) (file l : List α) :
    (content eol file).whole.count l ≤ (lines eol file).count l := by
  rw [lines, List.count_append]
  exact Nat.le_add_right _ _

theorem lines_of_rest_nil (h : (content eol file).rest = []) :
    lines eol file = (content eol file).whole := by
  rw [lines, if_pos h, List.append_nil]

/-! ### An append that succeeds -/

section

variable (hline : ∀ e, eol ∉ toLine e)
include hline

/-- The first line is joined to the rest. -/
theorem content_append_output (file : List α) (e : E) (es : List E) :
    content eol (file ++ output eol toLine (e :: es)) =
      ⟨(content eol file).whole ++ ((content eol file).rest ++ toLine e) :: es.map toLine, []⟩ := by
  have hclean : ∀ (es : List E) (c : Content α), c.rest = [] →
      (output eol toLine es).foldl (Content.push eol) c = ⟨c.whole ++ es.map toLine, []⟩ := by
    intro es
    induction es with
    | nil =>
        intro c hc
        rw [List.map_nil, List.append_nil, ← hc]
        rfl
    | cons e es ih =>
        intro c hc
        rw [output, List.flatMap_cons, List.foldl_append, foldl_push_line (hline e), hc,
          List.nil_append]
        refine (ih _ rfl).trans ?_
        rw [List.append_assoc, List.singleton_append, List.map_cons]
  rw [content_append, output, List.flatMap_cons, List.foldl_append, foldl_push_line (hline e)]
  refine (hclean es _ rfl).trans ?_
  rw [List.append_assoc, List.singleton_append]

theorem content_append_output_of_rest_nil (h : (content eol file).rest = []) (es : List E) :
    content eol (file ++ output eol toLine es) =
      ⟨(content eol file).whole ++ es.map toLine, []⟩ := by
  cases es with
  | nil =>
      rw [output, List.flatMap_nil, List.append_nil, List.map_nil, List.append_nil, ← h]
  | cons e es => rw [content_append_output hline, h, List.nil_append, List.map_cons]

/-- The bound on how often a text is held or written goes through the append where there is
no rest, or one more of the first text than it asks for. -/
theorem le_count_append_output {accepted held : ℕ}
    (hkept : accepted ≤ held + (es.map toLine).count l + (content eol file).whole.count l)
    (hfirst : (content eol file).rest = [] ∨ ∀ e ∈ es.head?, toLine e = l →
      accepted < held + (es.map toLine).count l + (content eol file).whole.count l) :
    accepted ≤ held + (content eol (file ++ output eol toLine es)).whole.count l := by
  rcases hfirst with hrest | hspare
  · rw [content_append_output_of_rest_nil hline hrest, List.count_append]
    omega
  · cases es with
    | nil =>
        rw [output, List.flatMap_nil, List.append_nil]
        rw [List.map_nil, List.count_nil] at hkept
        omega
    | cons e es =>
        have hmore : (es.map toLine).count l + (content eol file).whole.count l ≤
            (content eol (file ++ output eol toLine (e :: es))).whole.count l := by
          rw [content_append_output hline, List.count_append, List.count_cons]
          omega
        by_cases he : toLine e = l
        · have hlt := hspare e rfl he
          rw [List.map_cons, he, List.count_cons_self] at hlt
          omega
        · rw [List.map_cons, List.count_cons_of_ne he] at hkept
          omega

/-- An append that breaks off within its first line. -/
theorem content_append_take_output (file : List α) (e : E) (es : List E) {n : ℕ}
    (hn : n ≤ (toLine e).length) :
    content eol (file ++ (output eol toLine (e :: es)).take n) =
      ⟨(content eol file).whole, (content eol file).rest ++ (toLine e).take n⟩ := by
  have hpart : eol ∉ (toLine e).take n := fun h => hline e (List.mem_of_mem_take h)
  rw [output, List.flatMap_cons, List.append_assoc, List.take_append_of_le_length hn,
    content_append, foldl_push_of_not_mem hpart]

/-- Behind a rest the first line of the append is another one. -/
theorem count_lines_append_output (h : (content eol file).rest ≠ []) (e : E) (es : List E)
    (p : List α → Bool) :
    ((lines eol (file ++ output eol toLine (e :: es))).filter p).count (toLine e) ≤
      (content eol file).whole.count (toLine e) + (es.map toLine).count (toLine e) := by
  have hne : (content eol file).rest ++ toLine e ≠ toLine e := by
    intro heq
    have hlength := congrArg List.length heq
    rw [List.length_append] at hlength
    exact h (List.eq_nil_of_length_eq_zero (by omega))
  refine Nat.le_trans (List.filter_sublist.count_le _) (Nat.le_of_eq ?_)
  rw [lines_of_rest_nil (by rw [content_append_output hline]), content_append_output hline,
    List.count_append, List.count_cons_of_ne hne]

end

end DdsOrchestrator.TornLines
