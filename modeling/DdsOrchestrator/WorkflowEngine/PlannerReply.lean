import Mathlib.Data.Int.ModEq
import DdsOrchestrator.Lib.Brackets
import DdsOrchestrator.Lib.Utf8

/-!
The plan in the reply of a planner. The reply is prose with an array of JSON somewhere in it,
and the extractor reads it byte by byte for the first bracket that is closed and parses.

The prose counts too. A quote that is not closed, a bracket too many or one too few before the
array, and the array is not seen; nor is it seen inside of brackets that do not parse.
-/

namespace DdsOrchestrator.WorkflowEngine

open Brackets Utf8

/-! ### The extractor -/

/-- A number of 32 bits with a sign. -/
def i32 (d : ℤ) : ℤ := d.bmod (2 ^ 32)

/-- A slice was not on character boundaries. -/
structure SlicePanic where
  start : ℕ
  stop : ℕ
  deriving DecidableEq

/-- The variables of the loop. -/
structure Scan where
  depth : ℤ
  start : Option ℕ
  inString : Bool
  escape : Bool

def Scan.init : Scan where
  depth := 0
  start := none
  inString := false
  escape := false

/-- A byte inside of a string. -/
def Scan.inside (scan : Scan) (b : UInt8) : Scan :=
  if scan.escape then { scan with escape := false }
  else if b = 0x5C then { scan with escape := true }
  else if b = 0x22 then { scan with inString := false }
  else scan

/-- The loop over the bytes from `i` on. What `serde_json` accepts is a parameter. -/
def extractFrom (valid : String → Bool) (text : String) :
    List UInt8 → ℕ → Scan → Except SlicePanic (Option String)
  | [], _, _ => .ok none
  | b :: bytes, i, scan =>
      if scan.inString then extractFrom valid text bytes (i + 1) (scan.inside b)
      else if b = 0x22 then extractFrom valid text bytes (i + 1) { scan with inString := true }
      else if b = 0x5B then
        extractFrom valid text bytes (i + 1)
          { scan with
            start := if scan.depth = 0 then some i else scan.start
            depth := i32 (scan.depth + 1) }
      else if b = 0x5D then
        let scan := { scan with depth := i32 (scan.depth - 1) }
        if scan.depth = 0 then
          match scan.start with
          | some s =>
              match slice? text s (i + 1) with
              | none => .error ⟨s, i + 1⟩
              | some candidate =>
                  if valid candidate then .ok (some candidate)
                  else extractFrom valid text bytes (i + 1) { scan with start := none }
          | none => extractFrom valid text bytes (i + 1) scan
        else extractFrom valid text bytes (i + 1) scan
      else extractFrom valid text bytes (i + 1) scan

def extractJsonArray (valid : String → Bool) (text : String) :
    Except SlicePanic (Option String) :=
  extractFrom valid text (asBytes text) 0 .init

/-! ### Arrays in a text -/

/-- What a byte is to a reader of JSON. -/
def mark (b : UInt8) : Mark :=
  if b = 0x5B then .opening
  else if b = 0x5D then .closing
  else if b = 0x22 then .quote
  else if b = 0x5C then .escape
  else .other

def marks (s : String) : List Mark := (asBytes s).map mark

/-- A part of the text in brackets that parses. -/
def HasArray (valid : String → Bool) (text seg : String) : Prop :=
  ∃ before after, text = before ++ seg ++ after ∧ Bracketed (marks seg) ∧ valid seg = true

/-- All quotes are closed, and outside of them there are as many closing brackets as opening
ones, counted on 32 bits. -/
def Balanced (w : List Mark) : Prop := mode w = .plain ∧ (2 ^ 32 : ℤ) ∣ depth w

/-- A part of the text in brackets that parses, where the text before it is balanced. -/
def HasTopArray (valid : String → Bool) (text seg : String) : Prop :=
  ∃ before after, text = before ++ seg ++ after ∧ Bracketed (marks seg) ∧ valid seg = true ∧
    Balanced (marks before) ∧ NestsWithin (2 ^ 32) (marks seg)

/-! ### One round of the loop -/

theorem i32_eq_zero_iff {d : ℤ} : i32 d = 0 ↔ (2 ^ 32 : ℤ) ∣ d := by
  rw [i32, ← Int.dvd_iff_bmod_eq_zero]
  rfl

theorem i32_add (d e : ℤ) : i32 (i32 d + e) = i32 (d + e) := by
  rw [i32, i32, i32, Int.bmod_add_bmod]

/-- The variables after these marks. -/
structure Follows (scan : Scan) (w : List Mark) : Prop where
  depth : scan.depth = i32 (depth w)
  inString : scan.inString = !decide (mode w = .plain)
  escape : scan.escape = decide (mode w = .escaped)

theorem follows_init : Follows .init [] := ⟨rfl, rfl, rfl⟩

theorem mark_cases (b : UInt8) :
    (b = 0x5B ∧ mark b = .opening) ∨ (b = 0x5D ∧ mark b = .closing) ∨
      (b = 0x22 ∧ mark b = .quote) ∨ (b = 0x5C ∧ mark b = .escape) ∨
      (b ≠ 0x5B ∧ b ≠ 0x5D ∧ b ≠ 0x22 ∧ b ≠ 0x5C ∧ mark b = .other) := by
  unfold mark
  split_ifs with hopening hclosing hquote hescape
  · exact .inl ⟨hopening, rfl⟩
  · exact .inr (.inl ⟨hclosing, rfl⟩)
  · exact .inr (.inr (.inl ⟨hquote, rfl⟩))
  · exact .inr (.inr (.inr (.inl ⟨hescape, rfl⟩)))
  · exact .inr (.inr (.inr (.inr ⟨hopening, hclosing, hquote, hescape, rfl⟩)))

variable {valid : String → Bool} {text : String} {scan : Scan} {w : List Mark}

theorem start_inside (scan : Scan) (b : UInt8) : (scan.inside b).start = scan.start := by
  unfold Scan.inside
  split_ifs <;> rfl

theorem follows_inside (h : Follows scan w) (hquoted : mode w ≠ .plain) (b : UInt8) :
    Follows (scan.inside b) (w ++ [mark b]) := by
  obtain ⟨hdepth, hinString, hescape⟩ := h
  rw [decide_eq_false hquoted] at hinString
  cases hmode : mode w with
  | plain => exact absurd hmode hquoted
  | quoted =>
      have hescape : scan.escape = false := by rw [hescape, hmode]; rfl
      obtain ⟨rfl, hmark⟩ | ⟨rfl, hmark⟩ | ⟨rfl, hmark⟩ | ⟨rfl, hmark⟩ |
          ⟨-, -, hquote, hback, hmark⟩ := mark_cases b
      all_goals
        constructor
        all_goals simp_all [Scan.inside, Mode.next, Mode.rise]
  | escaped =>
      have hescape : scan.escape = true := by rw [hescape, hmode]; rfl
      rw [Scan.inside, if_pos hescape]
      constructor
      · rw [depth_concat, hmode]
        exact hdepth.trans (congrArg i32 (add_zero _).symm)
      · rw [mode_concat, hmode]
        exact hinString
      · rw [mode_concat, hmode]
        rfl

/-- A mark outside of strings that does not begin one. -/
theorem follows_plain (h : Follows scan w) (hplain : mode w = .plain) {m : Mark}
    (hm : m ≠ .quote) (start : Option ℕ) :
    Follows { scan with start := start, depth := i32 (scan.depth + Mode.plain.rise m) }
      (w ++ [m]) := by
  have hnext : Mode.plain.next m = .plain := by
    cases m with
    | quote => exact absurd rfl hm
    | _ => rfl
  have hinString := h.inString
  have hescape := h.escape
  rw [hplain] at hinString hescape
  constructor
  · rw [depth_concat, hplain, ← i32_add (depth w), ← h.depth]
  · rw [mode_concat, hplain, hnext]
    exact hinString
  · rw [mode_concat, hplain, hnext]
    exact hescape

theorem follows_other (h : Follows scan w) (hplain : mode w = .plain) {m : Mark}
    (hm : m = .escape ∨ m = .other) : Follows scan (w ++ [m]) := by
  have hrise : Mode.plain.rise m = 0 ∧ m ≠ .quote := by
    obtain rfl | rfl := hm
    · exact ⟨rfl, nofun⟩
    · exact ⟨rfl, nofun⟩
  have hdepth : i32 (scan.depth + Mode.plain.rise m) = scan.depth := by
    rw [hrise.1, h.depth, i32_add, add_zero]
  have hfollows := follows_plain h hplain hrise.2 scan.start
  rwa [hdepth] at hfollows

theorem follows_quote (h : Follows scan w) (hplain : mode w = .plain) :
    Follows { scan with inString := true } (w ++ [.quote]) := by
  constructor
  · rw [depth_concat, hplain]
    exact h.depth.trans (congrArg i32 (add_zero _).symm)
  · rw [mode_concat, hplain]
    rfl
  · rw [mode_concat, hplain]
    have hescape := h.escape
    rwa [hplain] at hescape

/-- The bracket at which the loop begins a candidate. -/
def Opens (scan : Scan) (w : List Mark) (b : UInt8) : Prop :=
  mode w = .plain ∧ mark b = .opening ∧ scan.depth = 0

/-- The bracket at which the loop ends a candidate. -/
def Closes (scan : Scan) (w : List Mark) (b : UInt8) : Prop :=
  mode w = .plain ∧ mark b = .closing ∧ i32 (scan.depth - 1) = 0

/-- What one round of the loop can do. -/
inductive ScanStep (valid : String → Bool) (text : String) (bytes : List UInt8) (i : ℕ)
    (scan : Scan) (w : List Mark) (b : UInt8) : Prop where
  | quiet (scan' : Scan) (hfollows : Follows scan' (w ++ [mark b]))
      (hstart : scan'.start = scan.start) (hopens : ¬ Opens scan w b)
      (hcloses : Closes scan w b → scan.start = none)
      (heq : extractFrom valid text (b :: bytes) i scan =
        extractFrom valid text bytes (i + 1) scan')
  | opens (hopens : Opens scan w b) (scan' : Scan) (hfollows : Follows scan' (w ++ [mark b]))
      (hstart : scan'.start = some i)
      (heq : extractFrom valid text (b :: bytes) i scan =
        extractFrom valid text bytes (i + 1) scan')
  | candidate (hcloses : Closes scan w b) (s : ℕ) (hstart : scan.start = some s)
      (scan' : Scan) (hfollows : Follows scan' (w ++ [mark b])) (hnone : scan'.start = none)
      (heq : extractFrom valid text (b :: bytes) i scan =
        match slice? text s (i + 1) with
        | none => .error ⟨s, i + 1⟩
        | some candidate =>
            if valid candidate then .ok (some candidate)
            else extractFrom valid text bytes (i + 1) scan')

theorem scanStep (valid : String → Bool) (text : String) (bytes : List UInt8) (i : ℕ)
    (h : Follows scan w) (b : UInt8) : ScanStep valid text bytes i scan w b := by
  by_cases hquoted : mode w = .plain
  swap
  · have hinString : scan.inString = true := by rw [h.inString, decide_eq_false hquoted]; rfl
    refine .quiet _ (follows_inside h hquoted b) (start_inside scan b)
      (fun hopens => hquoted hopens.1) (fun hcloses => absurd hcloses.1 hquoted) ?_
    rw [extractFrom, if_pos hinString]
  have hinString : ¬ scan.inString = true := by
    rw [h.inString, decide_eq_true hquoted]
    exact Bool.false_ne_true
  obtain ⟨rfl, hmark⟩ | ⟨rfl, hmark⟩ | ⟨rfl, hmark⟩ | ⟨rfl, hmark⟩ |
      ⟨hopening, hclosing, hquote, -, hmark⟩ := mark_cases b
  · have hfollows (start : Option ℕ) :
        Follows { scan with start := start, depth := i32 (scan.depth + 1) } (w ++ [mark 0x5B]) := by
      rw [hmark]
      exact follows_plain h hquoted (m := .opening) (by decide) start
    by_cases hzero : scan.depth = 0
    · refine .opens ⟨hquoted, hmark, hzero⟩ _ (hfollows (some i)) rfl ?_
      rw [extractFrom, if_neg hinString, if_neg (by decide), if_pos rfl, if_pos hzero]
    · refine .quiet { scan with depth := i32 (scan.depth + 1) } (hfollows scan.start) rfl
        (fun hopens => hzero hopens.2.2) (fun hcloses => ?_) ?_
      · cases hmark.symm.trans hcloses.2.1
      · rw [extractFrom, if_neg hinString, if_neg (by decide), if_pos rfl, if_neg hzero]
  · have hfollows (start : Option ℕ) :
        Follows { scan with start := start, depth := i32 (scan.depth - 1) } (w ++ [mark 0x5D]) := by
      rw [hmark]
      exact follows_plain h hquoted (m := .closing) (by decide) start
    have hopens : ¬ Opens scan w 0x5D := fun hopens => by cases hmark.symm.trans hopens.2.1
    by_cases hzero : i32 (scan.depth - 1) = 0
    · cases hstart : scan.start with
      | none =>
          refine .quiet { scan with depth := i32 (scan.depth - 1) } (hfollows scan.start) rfl
            hopens (fun _ => hstart) ?_
          rw [extractFrom, if_neg hinString, if_neg (by decide), if_neg (by decide), if_pos rfl]
          dsimp only
          rw [if_pos hzero, hstart]
      | some s =>
          refine .candidate ⟨hquoted, hmark, hzero⟩ s hstart
            { scan with depth := i32 (scan.depth - 1), start := none } (hfollows none) rfl ?_
          rw [extractFrom, if_neg hinString, if_neg (by decide), if_neg (by decide), if_pos rfl]
          dsimp only
          rw [if_pos hzero, hstart]
    · refine .quiet { scan with depth := i32 (scan.depth - 1) } (hfollows scan.start) rfl hopens
        (fun hcloses => absurd hcloses.2.2 hzero) ?_
      rw [extractFrom, if_neg hinString, if_neg (by decide), if_neg (by decide), if_pos rfl]
      dsimp only
      rw [if_neg hzero]
  · refine .quiet { scan with inString := true } (hmark ▸ follows_quote h hquoted) rfl
      (fun hopens => ?_) (fun hcloses => ?_) ?_
    · cases hmark.symm.trans hopens.2.1
    · cases hmark.symm.trans hcloses.2.1
    · rw [extractFrom, if_neg hinString, if_pos rfl]
  · refine .quiet scan (hmark ▸ follows_other h hquoted (.inl rfl)) rfl
      (fun hopens => ?_) (fun hcloses => ?_) ?_
    · cases hmark.symm.trans hopens.2.1
    · cases hmark.symm.trans hcloses.2.1
    · rw [extractFrom, if_neg hinString, if_neg (by decide), if_neg (by decide),
        if_neg (by decide)]
  · refine .quiet scan (hmark ▸ follows_other h hquoted (.inr rfl)) rfl
      (fun hopens => ?_) (fun hcloses => ?_) ?_
    · cases hmark.symm.trans hopens.2.1
    · cases hmark.symm.trans hcloses.2.1
    · rw [extractFrom, if_neg hinString, if_neg hquote, if_neg hopening, if_neg hclosing]

/-! ### What is found -/

/-- A part of the text that begins with a bracket and ends with one. -/
theorem exists_part {before inner after : List UInt8}
    (h : asBytes text = before ++ (0x5B :: inner) ++ 0x5D :: after) :
    ∃ left part right, text = left ++ part ++ right ∧ asBytes left = before ∧
      asBytes part = 0x5B :: inner ++ [0x5D] := by
  obtain ⟨upTo, rest, rfl, hupTo, hrest⟩ := exists_before h (by decide)
  obtain ⟨left, part, rfl, hleft, hpart⟩ := exists_before hupTo (by decide)
  obtain ⟨right, rfl, -⟩ := exists_after (c := ']') hrest (by decide)
  refine ⟨left, part ++ .singleton ']', right, by simp only [String.append_assoc], hleft, ?_⟩
  rw [asBytes_append, hpart]
  rfl

/-- What is known of the bytes before: the candidate of the loop is open, and the text before it
is balanced. -/
def Started (before : List UInt8) (scan : Scan) : Prop :=
  ∀ s, scan.start = some s → ∃ left part, before = left ++ part ∧ left.length = s ∧
    Balanced (left.map mark) ∧ Open (2 ^ 32) (part.map mark)

theorem started_none {before : List UInt8} (h : scan.start = none) : Started before scan := by
  intro s hs
  rw [h] at hs
  cases hs

theorem dvd_depth_iff {left part : List UInt8} (hbalanced : Balanced (left.map mark)) {e : ℤ} :
    i32 (depth ((left ++ part).map mark) + e) = 0 ↔
      (2 ^ 32 : ℤ) ∣ depth (part.map mark) + e := by
  rw [i32_eq_zero_iff, List.map_append, depth_append hbalanced.1, add_assoc]
  exact (Int.dvd_add_right hbalanced.2)

theorem started_quiet {before : List UInt8} {scan scan' : Scan} {b : UInt8}
    (h : Started before scan) (hfollows : Follows scan (before.map mark))
    (hstart : scan'.start = scan.start) (hopens : ¬ Opens scan (before.map mark) b)
    (hcloses : Closes scan (before.map mark) b → scan.start = none) :
    Started (before ++ [b]) scan' := by
  intro s hs
  rw [hstart] at hs
  obtain ⟨left, part, rfl, rfl, hbalanced, hopen⟩ := h s hs
  refine ⟨left, part ++ [b], (List.append_assoc ..), rfl, hbalanced, ?_⟩
  have hwithin := hopen.within _ (List.prefix_refl _) hopen.ne_nil
  have hmode : mode ((left ++ part).map mark) = mode (part.map mark) := by
    rw [List.map_append, mode_append hbalanced.1]
  have hbounds : 0 < depth (part.map mark) + (mode (part.map mark)).rise (mark b) ∧
      depth (part.map mark) + (mode (part.map mark)).rise (mark b) ≤ 2 ^ 32 := by
    obtain ⟨hplain, hmark, hrise⟩ | ⟨hplain, hmark, hrise⟩ | ⟨-, -, hrise⟩ :=
      rise_cases (mode (part.map mark)) (mark b)
    · -- At depth `2 ^ 32` the bracket would open a candidate of its own.
      have hne : depth (part.map mark) ≠ 2 ^ 32 := by
        intro hdepth
        refine hopens ⟨hmode.trans hplain, hmark, ?_⟩
        have hdvd : (2 ^ 32 : ℤ) ∣ depth (part.map mark) + 0 := by omega
        have hzero := (dvd_depth_iff hbalanced).mpr hdvd
        rwa [add_zero, ← hfollows.depth] at hzero
      omega
    · -- At depth one the bracket would close the candidate.
      have hne : depth (part.map mark) ≠ 1 := by
        intro hdepth
        have hnone := hcloses ⟨hmode.trans hplain, hmark, ?_⟩
        · rw [hs] at hnone
          cases hnone
        · rw [hfollows.depth, sub_eq_add_neg, i32_add]
          exact (dvd_depth_iff hbalanced).mpr (by omega)
      omega
    · omega
  rw [List.map_append, List.map_singleton]
  apply hopen.concat
  · rw [depth_concat]
    exact hbounds.1
  · rw [depth_concat]
    exact hbounds.2

theorem started_opens {before : List UInt8} {scan scan' : Scan} {b : UInt8}
    (hfollows : Follows scan (before.map mark)) (hopens : Opens scan (before.map mark) b)
    (hstart : scan'.start = some before.length) : Started (before ++ [b]) scan' := by
  intro s hs
  rw [hstart] at hs
  cases hs
  refine ⟨before, [b], rfl, rfl, ⟨hopens.1, ?_⟩, ?_⟩
  · rw [← i32_eq_zero_iff, ← hfollows.depth]
    exact hopens.2.2
  · rw [List.map_singleton, hopens.2.1]
    exact open_singleton (by decide)

theorem mark_eq_opening {b : UInt8} (h : mark b = .opening) : b = 0x5B := by
  obtain ⟨rfl, -⟩ | ⟨-, hmark⟩ | ⟨-, hmark⟩ | ⟨-, hmark⟩ | ⟨-, -, -, -, hmark⟩ := mark_cases b
  · rfl
  all_goals cases h.symm.trans hmark

theorem mark_eq_closing {b : UInt8} (h : mark b = .closing) : b = 0x5D := by
  obtain ⟨-, hmark⟩ | ⟨rfl, -⟩ | ⟨-, hmark⟩ | ⟨-, hmark⟩ | ⟨-, -, -, -, hmark⟩ := mark_cases b
  · cases h.symm.trans hmark
  · rfl
  all_goals cases h.symm.trans hmark

/-- The candidate is a part of the text. -/
theorem slice_candidate {before after : List UInt8} {scan : Scan} {b : UInt8} {s : ℕ}
    (htext : asBytes text = before ++ b :: after) (h : Started before scan)
    (hfollows : Follows scan (before.map mark)) (hcloses : Closes scan (before.map mark) b)
    (hs : scan.start = some s) :
    ∃ seg left right, slice? text s (before.length + 1) = some seg ∧ text = left ++ seg ++ right ∧
      Bracketed (marks seg) ∧ Balanced (marks left) ∧ NestsWithin (2 ^ 32) (marks seg) := by
  obtain ⟨left, part, rfl, rfl, hbalanced, hopen⟩ := h s hs
  obtain ⟨hplain, hmark, hzero⟩ := hcloses
  obtain rfl := mark_eq_closing hmark
  obtain ⟨inner, rfl⟩ : ∃ inner, part = 0x5B :: inner := by
    cases part with
    | nil => cases hopen.head
    | cons c inner => exact ⟨inner, by rw [mark_eq_opening (Option.some.inj hopen.head)]⟩
  obtain ⟨leftText, seg, right, rfl, hleft, hseg⟩ := exists_part htext
  have hmarks : marks seg = (0x5B :: inner).map mark ++ [mark 0x5D] := by
    rw [marks, hseg, List.map_append]
    rfl
  have hclosed : depth ((0x5B :: inner).map mark ++ [mark 0x5D]) = 0 := by
    rw [hfollows.depth, sub_eq_add_neg, i32_add] at hzero
    have hdvd := (dvd_depth_iff hbalanced).mp hzero
    have hwithin := hopen.within _ (List.prefix_refl _) hopen.ne_nil
    rw [List.map_append, mode_append hbalanced.1] at hplain
    have hone : depth ((0x5B :: inner).map mark) = 1 := by omega
    rw [depth_concat, hone, hplain, hmark]
    rfl
  obtain ⟨hbracketed, hnests⟩ := hopen.close hclosed
  refine ⟨seg, leftText, right, ?_, rfl, hmarks ▸ hbracketed, ?_, hmarks ▸ hnests⟩
  · have hslice := slice?_append leftText seg right
    rw [hleft, hseg] at hslice
    rw [← hslice]
    simp [add_assoc]
  · rw [marks, hleft]
    exact hbalanced

/-- What the loop returns is an array with a balanced text before it, and it never panics. -/
theorem extractFrom_sound {bytes before : List UInt8} (htext : asBytes text = before ++ bytes)
    (hfollows : Follows scan (before.map mark)) (hstarted : Started before scan) :
    ∃ r, extractFrom valid text bytes before.length scan = .ok r ∧
      ∀ seg, r = some seg → HasTopArray valid text seg := by
  induction bytes generalizing before scan with
  | nil => exact ⟨none, rfl, nofun⟩
  | cons b bytes ih =>
      have htext' : asBytes text = before ++ [b] ++ bytes := by
        rw [htext, List.append_assoc]
        rfl
      have hnext (scan' : Scan) (hfollows' : Follows scan' (before.map mark ++ [mark b]))
          (hstarted' : Started (before ++ [b]) scan') :
          ∃ r, extractFrom valid text bytes (before.length + 1) scan' = .ok r ∧
            ∀ seg, r = some seg → HasTopArray valid text seg := by
        have hih := ih htext' (by rwa [List.map_append]) hstarted'
        rwa [List.length_append] at hih
      cases scanStep valid text bytes before.length hfollows b with
      | quiet scan' hfollows' hstart hopens hcloses heq =>
          rw [heq]
          exact hnext scan' hfollows' (started_quiet hstarted hfollows hstart hopens hcloses)
      | opens hopens scan' hfollows' hstart heq =>
          rw [heq]
          exact hnext scan' hfollows' (started_opens hfollows hopens hstart)
      | candidate hcloses s hs scan' hfollows' hnone heq =>
          obtain ⟨seg, left, right, hslice, hparts, hbracketed, hbalanced, hnests⟩ :=
            slice_candidate htext hstarted hfollows hcloses hs
          rw [heq, hslice]
          dsimp only
          split
          · next hvalid =>
            refine ⟨some seg, rfl, fun seg' hseg' => ?_⟩
            cases hseg'
            exact ⟨left, right, hparts, hbracketed, hvalid, hbalanced, hnests⟩
          · exact hnext scan' hfollows' (started_none hnone)

/-! ### What is not missed -/

/-- The loop inside of a part that it has begun. -/
theorem extractFrom_inside (left right : String) {seg : String} {read unread : List UInt8}
    {scan : Scan} (hread : read ≠ []) (hunread : unread ≠ []) (hseg : asBytes seg = read ++ unread)
    (hbracketed : Bracketed (marks seg)) (hnests : NestsWithin (2 ^ 32) (marks seg))
    (hvalid : valid seg = true) (hfollows : Follows scan (read.map mark))
    (hstart : scan.start = some (asBytes left).length) :
    extractFrom valid (left ++ seg ++ right) (unread ++ asBytes right)
      ((asBytes left).length + read.length) scan = .ok (some seg) := by
  induction unread generalizing read scan with
  | nil => exact absurd rfl hunread
  | cons b unread ih =>
      have hmarks : marks seg = read.map mark ++ (b :: unread).map mark := by
        rw [marks, hseg, List.map_append]
      rw [hmarks] at hbracketed hnests
      have hwithin := hbracketed.open hnests (by simpa using hread) (by simp)
      have hscan := scanStep valid (left ++ seg ++ right) (unread ++ asBytes right)
        ((asBytes left).length + read.length) hfollows b
      rw [List.cons_append]
      obtain rfl | hmore := eq_or_ne unread []
      · -- The last mark closes the part.
        obtain ⟨hplain, hclosing, hone⟩ := hbracketed.last (by simpa using hread)
        have hzero : i32 (scan.depth - 1) = 0 := by
          rw [hfollows.depth, hone]
          rfl
        have hslice := slice?_append left seg right
        rw [hseg, List.length_append, List.length_singleton, ← Nat.add_assoc] at hslice
        cases hscan with
        | quiet scan' _ _ _ hcloses =>
            rw [hcloses ⟨hplain, hclosing, hzero⟩] at hstart
            cases hstart
        | opens hopens => cases hclosing.symm.trans hopens.2.1
        | candidate _ s hs scan' _ _ heq =>
            rw [hs] at hstart
            cases hstart
            rw [heq, hslice]
            dsimp only
            rw [if_pos hvalid]
      · rw [List.map_cons, List.append_cons] at hbracketed hnests
        have hnext := hbracketed.open hnests (by simp) (by simpa using hmore)
        rw [depth_concat] at hnext
        cases hscan with
        | quiet scan' hfollows' hstart' _ _ heq =>
            rw [heq, Nat.add_assoc]
            have hread' : read ++ [b] ≠ [] := by simp
            have hih := ih hread' hmore (by rw [hseg, List.append_cons])
              (by rwa [List.map_append]) (hstart'.trans hstart)
            rwa [List.length_append, List.length_singleton] at hih
        | opens hopens =>
            obtain ⟨hplain, hopening, hzero⟩ := hopens
            rw [hfollows.depth, i32_eq_zero_iff] at hzero
            rw [hplain, hopening, Mode.rise] at hnext
            omega
        | candidate hcloses =>
            obtain ⟨hplain, hclosing, hzero⟩ := hcloses
            rw [hfollows.depth, sub_eq_add_neg, i32_add, i32_eq_zero_iff] at hzero
            rw [hplain, hclosing, Mode.rise] at hnext
            omega

theorem bytes_of_bracketed {seg : String} (h : Bracketed (marks seg)) :
    ∃ inner, asBytes seg = 0x5B :: inner := by
  have hhead := h.head
  rw [marks] at hhead
  cases hbytes : asBytes seg with
  | nil =>
      rw [hbytes] at hhead
      cases hhead
  | cons b inner =>
      rw [hbytes] at hhead
      exact ⟨inner, by rw [mark_eq_opening (Option.some.inj hhead)]⟩

theorem follows_balanced (h : Follows scan w) (hbalanced : Balanced w) : Follows scan [] := by
  obtain ⟨hplain, hdvd⟩ := hbalanced
  refine ⟨?_, ?_, ?_⟩
  · rw [h.depth, i32_eq_zero_iff.mpr hdvd]
    rfl
  · rw [h.inString, hplain]
    rfl
  · rw [h.escape, hplain]
    rfl

/-- The loop on the way to an array with a balanced text before it. -/
theorem extractFrom_ne_none {before seg : String} (right : String) {read unread : List UInt8}
    {scan : Scan} (hbefore : asBytes before = read ++ unread) (hbalanced : Balanced (marks before))
    (hbracketed : Bracketed (marks seg)) (hnests : NestsWithin (2 ^ 32) (marks seg))
    (hvalid : valid seg = true) (hfollows : Follows scan (read.map mark)) :
    extractFrom valid (before ++ seg ++ right) (unread ++ (asBytes seg ++ asBytes right))
      read.length scan ≠ .ok none := by
  induction unread generalizing read scan with
  | nil =>
      rw [List.append_nil] at hbefore
      rw [marks, hbefore] at hbalanced
      obtain ⟨inner, hseg⟩ := bytes_of_bracketed hbracketed
      have hinner : inner ≠ [] := by
        rintro rfl
        have hclosed := hbracketed.closed
        rw [marks, hseg] at hclosed
        cases hclosed
      -- From here on only the marks of the part count.
      have hfollows := follows_balanced hfollows hbalanced
      rw [List.nil_append, hseg, List.cons_append]
      cases scanStep valid (before ++ seg ++ right) (inner ++ asBytes right) read.length hfollows
        0x5B with
      | quiet _ _ _ hopens => exact absurd ⟨rfl, rfl, hfollows.depth⟩ hopens
      | candidate hcloses => cases hcloses.2.1
      | opens _ scan' hfollows' hstart heq =>
          have hfound := extractFrom_inside before right (List.cons_ne_nil 0x5B []) hinner hseg
            hbracketed hnests hvalid hfollows' (by rw [hstart, hbefore])
          rw [hbefore, List.length_singleton] at hfound
          rw [heq, hfound]
          nofun
  | cons b unread ih =>
      have hnext (scan' : Scan) (hfollows' : Follows scan' (read.map mark ++ [mark b])) :
          extractFrom valid (before ++ seg ++ right) (unread ++ (asBytes seg ++ asBytes right))
            (read.length + 1) scan' ≠ .ok none := by
        have hih := ih (by rw [hbefore, List.append_cons]) (by rwa [List.map_append])
        rwa [List.length_append] at hih
      rw [List.cons_append]
      cases scanStep valid (before ++ seg ++ right) (unread ++ (asBytes seg ++ asBytes right))
        read.length hfollows b with
      | quiet scan' hfollows' _ _ _ heq =>
          rw [heq]
          exact hnext scan' hfollows'
      | opens _ scan' hfollows' _ heq =>
          rw [heq]
          exact hnext scan' hfollows'
      | candidate _ s _ scan' hfollows' _ heq =>
          rw [heq]
          split
          · nofun
          · split
            · nofun
            · exact hnext scan' hfollows'

/-- What the extractor is for: it returns, without a panic, an array of the text if there is
one. -/
def FindsArray (valid : String → Bool) (text : String) : Prop :=
  ∃ r, extractJsonArray valid text = .ok r ∧ ((∃ seg, HasArray valid text seg) →
    ∃ seg, r = some seg ∧ HasArray valid text seg)

theorem HasTopArray.hasArray {seg : String} (h : HasTopArray valid text seg) :
    HasArray valid text seg := by
  obtain ⟨before, after, htext, hbracketed, hvalid, -, -⟩ := h
  exact ⟨before, after, htext, hbracketed, hvalid⟩

theorem extractJsonArray_sound (valid : String → Bool) (text : String) :
    ∃ r, extractJsonArray valid text = .ok r ∧
      ∀ seg, r = some seg → HasTopArray valid text seg := by
  have htext : asBytes text = [] ++ asBytes text := rfl
  exact extractFrom_sound htext follows_init (started_none rfl)

theorem extractJsonArray_ne_none {seg : String} (h : HasTopArray valid text seg) :
    extractJsonArray valid text ≠ .ok none := by
  obtain ⟨before, after, rfl, hbracketed, hvalid, hbalanced, hnests⟩ := h
  have hbefore : asBytes before = [] ++ asBytes before := rfl
  have hne := extractFrom_ne_none after hbefore hbalanced hbracketed hnests hvalid follows_init
  rwa [← List.append_assoc, ← asBytes_append, ← asBytes_append] at hne

/-- An array is found exactly if there is none, or there is one with a balanced text
before it. -/
theorem findsArray_iff (valid : String → Bool) (text : String) :
    FindsArray valid text ↔
      (¬ ∃ seg, HasArray valid text seg) ∨ ∃ seg, HasTopArray valid text seg := by
  obtain ⟨r, hr, hsound⟩ := extractJsonArray_sound valid text
  constructor
  · rintro ⟨r', hr', hfinds⟩
    cases hr.symm.trans hr'
    by_cases harray : ∃ seg, HasArray valid text seg
    · obtain ⟨seg, hseg, -⟩ := hfinds harray
      exact .inr ⟨seg, hsound seg hseg⟩
    · exact .inl harray
  · intro h
    refine ⟨r, hr, fun harray => ?_⟩
    obtain ⟨seg, htop⟩ := h.resolve_left (not_not.mpr harray)
    cases r with
    | none => exact absurd hr (extractJsonArray_ne_none htop)
    | some seg => exact ⟨seg, rfl, (hsound seg rfl).hasArray⟩

theorem bracketed_one : Bracketed (marks "[1]") := by
  have hmarks : marks "[1]" = [.opening, .other, .closing] := by decide +kernel
  rw [hmarks]
  refine ⟨rfl, rfl, fun p hp => ?_⟩
  revert p
  simp only [← List.mem_inits]
  decide

/-- The array is in the reply, between these texts, and is not found. -/
def Missed (before after : String) : Prop :=
  extractJsonArray (· == "[1]") (before ++ "[1]" ++ after) = .ok none ∧
    HasArray (· == "[1]") (before ++ "[1]" ++ after) "[1]" ∧
      ¬ FindsArray (· == "[1]") (before ++ "[1]" ++ after)

theorem missed_of {before after : String}
    (hnone : extractJsonArray (· == "[1]") (before ++ "[1]" ++ after) = .ok none) :
    Missed before after := by
  have harray : HasArray (· == "[1]") (before ++ "[1]" ++ after) "[1]" :=
    ⟨before, after, rfl, bracketed_one, rfl⟩
  refine ⟨hnone, harray, ?_⟩
  rintro ⟨r, hr, hfinds⟩
  obtain ⟨seg, rfl, -⟩ := hfinds ⟨_, harray⟩
  cases hnone.symm.trans hr

/-- A bracket too many, a quote, a bracket that stays open, and brackets that do not parse. -/
theorem replies_missed :
    Missed "] " "" ∧ Missed "\" " "" ∧ Missed "[ " "" ∧ Missed "[x " "]" :=
  ⟨missed_of (by decide +kernel), missed_of (by decide +kernel), missed_of (by decide +kernel),
    missed_of (by decide +kernel)⟩

end DdsOrchestrator.WorkflowEngine
