import DdsOrchestrator.Lib.Joined

/-!
The text of flat JSON objects, with members that are strings and integers, as a
compact writer prints them. Two things are shown of the text: it says which
members it was printed from, and a machine that reads brackets, quotes and
escapes sees exactly one closed object in it. The machine is coarse: every JSON
object passes it, and so do texts that are none.
-/

namespace DdsOrchestrator.Json

/-- The letter of a character with an escape of its own. -/
def escapeLetter (c : Char) : Option Char :=
  match c with
  | '\x08' => some 'b'
  | '\t' => some 't'
  | '\n' => some 'n'
  | '\x0c' => some 'f'
  | '\r' => some 'r'
  | '"' => some '"'
  | '\\' => some '\\'
  | _ => none

/-- Other control characters are written by their number. -/
def escape (c : Char) : List Char :=
  match escapeLetter c with
  | some e => ['\\', e]
  | none =>
      if c.toNat < 32 then
        ['\\', 'u', '0', '0', Nat.digitChar (c.toNat / 16), Nat.digitChar (c.toNat % 16)]
      else [c]

/-- A string in quotes. -/
def quote (s : String) : String := String.ofList ('"' :: s.toList.flatMap escape ++ ['"'])

/-- A member's value. -/
inductive Scalar where
  | str (s : String)
  | int (n : Int)
  deriving DecidableEq

def intText (n : Int) : List Char :=
  if n < 0 then '-' :: (toString n.natAbs).toList else (toString n.natAbs).toList

def Scalar.text : Scalar → List Char
  | str s => (quote s).toList
  | int n => intText n

def member (f : String × Scalar) : List Char := (quote f.1).toList ++ ':' :: f.2.text

/-- The members in their order, without blanks. -/
def object : List (String × Scalar) → String
  | [] => "\x7b\x7d"
  | f :: fs =>
    String.ofList ('\x7b' :: member f ++ fs.flatMap (fun g => ',' :: member g) ++ ['\x7d'])

theorem toList_quote (s : String) :
    (quote s).toList = '"' :: (s.toList.flatMap escape ++ ['"']) := by
  simp [quote]

theorem toList_object_cons (f : String × Scalar) (fs : List (String × Scalar)) :
    (object (f :: fs)).toList =
      '\x7b' :: (member f ++ (fs.flatMap (fun g => ',' :: member g) ++ ['\x7d'])) := by
  simp [object]

/-! ### The text determines the members -/

/-- The first character of an escaped text, and the text behind it. -/
def unescape : List Char → Option (Char × List Char)
  | '\\' :: 'u' :: _ :: _ :: h :: l :: cs =>
      some (Char.ofNat (16 * hexValue h + hexValue l), cs)
  | '\\' :: e :: cs => some (letterEscaped e, cs)
  | c :: cs => some (c, cs)
  | [] => none
where
  hexValue (c : Char) : Nat := if c.isDigit then c.toNat - '0'.toNat else c.toNat - 'a'.toNat + 10
  letterEscaped (e : Char) : Char :=
    match e with
    | 'b' => '\x08'
    | 't' => '\t'
    | 'n' => '\n'
    | 'f' => '\x0c'
    | 'r' => '\r'
    | e => e

theorem letterEscaped_of_escapeLetter {c e : Char} (h : escapeLetter c = some e) :
    unescape.letterEscaped e = c ∧ e ≠ 'u' := by
  unfold escapeLetter at h
  split at h <;> simp_all <;> subst h <;> decide

theorem hexValue_digits : ∀ n < 32,
    16 * unescape.hexValue (Nat.digitChar (n / 16)) +
      unescape.hexValue (Nat.digitChar (n % 16)) = n := by
  decide

theorem unescape_escape (c : Char) (cs : List Char) : unescape (escape c ++ cs) = some (c, cs) := by
  unfold escape
  split
  · next e he =>
      obtain ⟨hback, hu⟩ := letterEscaped_of_escapeLetter he
      simp [unescape, hback, hu]
  · next hnone =>
      split
      · next hlt =>
          simp [unescape, hexValue_digits c.toNat hlt]
      · have hback : c ≠ '\\' := by rintro rfl; cases hnone
        simp [unescape, hback]

theorem escape_append_inj {c d : Char} {cs ds : List Char}
    (h : escape c ++ cs = escape d ++ ds) : c = d ∧ cs = ds := by
  have hread := unescape_escape c cs
  rw [h, unescape_escape] at hread
  simpa [eq_comm] using hread

/-- No character is escaped to a text that begins with a quote. -/
theorem escape_append_ne_quote (c : Char) (cs ds : List Char) : escape c ++ cs ≠ '"' :: ds := by
  intro h
  unfold escape at h
  split at h
  · simp at h
  · next hnone =>
      split at h
      · simp at h
      · obtain ⟨rfl, -⟩ := List.cons.inj h
        cases hnone

theorem escaped_append_inj {cs ds : List Char} : ∀ {l m : List Char},
    l.flatMap escape ++ '"' :: cs = m.flatMap escape ++ '"' :: ds → l = m ∧ cs = ds
  | [], [], h => by simpa using h
  | [], d :: m, h => by
      rw [List.flatMap_cons, List.append_assoc] at h
      exact absurd h.symm (escape_append_ne_quote _ _ _)
  | c :: l, [], h => by
      rw [List.flatMap_cons, List.append_assoc] at h
      exact absurd h (escape_append_ne_quote _ _ _)
  | c :: l, d :: m, h => by
      rw [List.flatMap_cons, List.flatMap_cons, List.append_assoc, List.append_assoc] at h
      obtain ⟨rfl, hrest⟩ := escape_append_inj h
      obtain ⟨rfl, rfl⟩ := escaped_append_inj hrest
      exact ⟨rfl, rfl⟩

theorem quote_append_inj {s t : String} {cs ds : List Char}
    (h : (quote s).toList ++ cs = (quote t).toList ++ ds) : s = t ∧ cs = ds := by
  simp only [toList_quote, List.cons_append, List.append_assoc, List.nil_append,
    List.cons.injEq, true_and] at h
  obtain ⟨hst, hrest⟩ := escaped_append_inj h
  exact ⟨String.toList_inj.mp hst, hrest⟩

theorem isDigit_of_mem_toString {n : Nat} {c : Char} (h : c ∈ (toString n).toList) :
    c.isDigit := by
  rw [Nat.toString_eq_ofList_toDigits, String.toList_ofList] at h
  exact Nat.isDigit_of_mem_toDigits (by decide) (by decide) h

/-- A run of digits ends where the digits end. -/
theorem digits_append_inj {x y : Char} {cs ds : List Char} (hx : x.isDigit = false)
    (hy : y.isDigit = false) : ∀ {l m : List Char}, (∀ c ∈ l, c.isDigit) → (∀ c ∈ m, c.isDigit) →
    l ++ x :: cs = m ++ y :: ds → l = m ∧ x :: cs = y :: ds
  | [], [], _, _, h => ⟨rfl, h⟩
  | [], d :: m, _, hm, h => by
      obtain ⟨rfl, -⟩ := List.cons.inj h
      have := hm x (by simp)
      simp [hx] at this
  | c :: l, [], hl, _, h => by
      obtain ⟨rfl, -⟩ := List.cons.inj h
      have := hl c (by simp)
      simp [hy] at this
  | c :: l, d :: m, hl, hm, h => by
      obtain ⟨rfl, htail⟩ := List.cons.inj h
      obtain ⟨rfl, hrest⟩ := digits_append_inj hx hy
        (fun e he => hl e (List.mem_cons_of_mem _ he))
        (fun e he => hm e (List.mem_cons_of_mem _ he)) htail
      exact ⟨rfl, hrest⟩

theorem natText_append_inj {n m : Nat} {x y : Char} {cs ds : List Char} (hx : x.isDigit = false)
    (hy : y.isDigit = false)
    (h : (toString n).toList ++ x :: cs = (toString m).toList ++ y :: ds) :
    n = m ∧ x :: cs = y :: ds := by
  obtain ⟨hdigits, hrest⟩ := digits_append_inj hx hy (fun _ => isDigit_of_mem_toString)
    (fun _ => isDigit_of_mem_toString) h
  exact ⟨Joined.toString_inj (String.toList_inj.mp hdigits), hrest⟩

/-- A number's text begins with a digit. -/
theorem natText_eq_cons (n : Nat) : ∃ d ds, (toString n).toList = d :: ds ∧ d.isDigit := by
  cases h : (toString n).toList with
  | nil =>
      rw [Nat.toString_eq_ofList_toDigits, String.toList_ofList] at h
      exact absurd h Nat.toDigits_ne_nil
  | cons d ds => exact ⟨d, ds, rfl, isDigit_of_mem_toString (h ▸ List.mem_cons_self)⟩

/-- What no digit is, no number begins with. -/
theorem natText_append_ne {c : Char} (hc : c.isDigit = false) (n : Nat) (cs ds : List Char) :
    (toString n).toList ++ cs ≠ c :: ds := by
  obtain ⟨d, l, htext, hd⟩ := natText_eq_cons n
  rw [htext]
  intro h
  obtain ⟨rfl, -⟩ := List.cons.inj h
  simp [hc] at hd

theorem intText_append_ne_quote (n : Int) (cs ds : List Char) :
    intText n ++ cs ≠ '"' :: ds := by
  unfold intText
  split
  · simp
  · exact natText_append_ne (by decide) _ _ _

theorem intText_append_inj {n m : Int} {x y : Char} {cs ds : List Char}
    (hx : x.isDigit = false) (hy : y.isDigit = false)
    (h : intText n ++ x :: cs = intText m ++ y :: ds) : n = m ∧ x :: cs = y :: ds := by
  unfold intText at h
  split at h
  · split at h
    · obtain ⟨habs, hrest⟩ := natText_append_inj hx hy (List.cons.inj h).2
      exact ⟨by omega, hrest⟩
    · exact absurd h.symm (natText_append_ne (by decide) _ _ _)
  · split at h
    · exact absurd h (natText_append_ne (by decide) _ _ _)
    · obtain ⟨habs, hrest⟩ := natText_append_inj hx hy h
      exact ⟨by omega, hrest⟩

theorem Scalar.text_append_inj {v w : Scalar} {x y : Char} {cs ds : List Char}
    (hx : x.isDigit = false) (hy : y.isDigit = false)
    (h : v.text ++ x :: cs = w.text ++ y :: ds) : v = w ∧ x :: cs = y :: ds := by
  cases v with
  | str s =>
      cases w with
      | str t =>
          obtain ⟨rfl, hrest⟩ := quote_append_inj h
          exact ⟨rfl, hrest⟩
      | int m =>
          rw [text, toList_quote] at h
          exact absurd h.symm (intText_append_ne_quote m _ _)
  | int n =>
      cases w with
      | str t =>
          rw [text.eq_1, toList_quote] at h
          exact absurd h (intText_append_ne_quote n _ _)
      | int m =>
          obtain ⟨rfl, hrest⟩ := intText_append_inj hx hy h
          exact ⟨rfl, hrest⟩

theorem member_append_inj {f g : String × Scalar} {x y : Char} {cs ds : List Char}
    (hx : x.isDigit = false) (hy : y.isDigit = false)
    (h : member f ++ x :: cs = member g ++ y :: ds) : f = g ∧ x :: cs = y :: ds := by
  simp only [member, List.append_assoc, List.cons_append] at h
  obtain ⟨hkey, hvalue⟩ := quote_append_inj h
  obtain ⟨hval, hrest⟩ := Scalar.text_append_inj hx hy (List.cons.inj hvalue).2
  exact ⟨Prod.ext hkey hval, hrest⟩

/-- What stands behind a member: the members that follow, and the brace. -/
theorem members_inj : ∀ {fs gs : List (String × Scalar)},
    fs.flatMap (fun f => ',' :: member f) ++ ['\x7d'] =
      gs.flatMap (fun g => ',' :: member g) ++ ['\x7d'] → fs = gs
  | [], [], _ => rfl
  | [], g :: gs, h => by simp at h
  | f :: fs, [], h => by simp at h
  | f :: fs, g :: gs, h => by
      simp only [List.flatMap_cons, List.cons_append, List.append_assoc, List.cons.injEq,
        true_and] at h
      obtain ⟨x, cs, hfs, hx⟩ := members_eq_cons fs
      obtain ⟨y, ds, hgs, hy⟩ := members_eq_cons gs
      rw [hfs, hgs] at h
      obtain ⟨rfl, hrest⟩ := member_append_inj hx hy h
      rw [← hfs, ← hgs] at hrest
      rw [members_inj hrest]
where
  members_eq_cons : ∀ fs : List (String × Scalar), ∃ x cs,
      fs.flatMap (fun f => ',' :: member f) ++ ['\x7d'] = x :: cs ∧ x.isDigit = false
    | [] => ⟨_, _, rfl, by decide⟩
    | f :: fs => ⟨_, _, rfl, by decide⟩

/-- The text of an object says what its members are. -/
theorem object_injective {f g : String × Scalar} {fs gs : List (String × Scalar)}
    (h : object (f :: fs) = object (g :: gs)) : f :: fs = g :: gs := by
  have hlist := congrArg String.toList h
  rw [toList_object_cons, toList_object_cons, List.cons.injEq] at hlist
  obtain ⟨x, cs, hfs, hx⟩ := members_inj.members_eq_cons fs
  obtain ⟨y, ds, hgs, hy⟩ := members_inj.members_eq_cons gs
  rw [hfs, hgs] at hlist
  obtain ⟨rfl, hrest⟩ := member_append_inj hx hy hlist.2
  rw [← hfs, ← hgs] at hrest
  rw [members_inj hrest]

/-! ### The text is one line -/

theorem newline_notMem_escape (c : Char) : '\n' ∉ escape c := by
  unfold escape
  split
  · next e he =>
      unfold escapeLetter at he
      split at he <;> cases he <;> decide
  · next hnone =>
      split
      · next hlt =>
          have hdigits : ∀ n < 32, '\n' ∉ ['\\', 'u', '0', '0', Nat.digitChar (n / 16),
              Nat.digitChar (n % 16)] := by decide
          exact hdigits c.toNat hlt
      · rw [List.mem_singleton]
        rintro rfl
        cases hnone

theorem newline_notMem_quote (s : String) : '\n' ∉ (quote s).toList := by
  rw [toList_quote]
  simp [newline_notMem_escape]

theorem newline_notMem_intText (n : Int) : '\n' ∉ intText n := by
  have hdigits : '\n' ∉ (toString n.natAbs).toList := Joined.notMem_toString (by decide)
  unfold intText
  split
  · rw [List.mem_cons, not_or]
    exact ⟨by decide, hdigits⟩
  · exact hdigits

theorem newline_notMem_member (f : String × Scalar) : '\n' ∉ member f := by
  rw [member, List.mem_append, List.mem_cons, not_or, not_or]
  refine ⟨newline_notMem_quote _, by decide, ?_⟩
  cases f.2 with
  | str s => exact newline_notMem_quote s
  | int n => exact newline_notMem_intText n

theorem newline_notMem_object (f : String × Scalar) (fs : List (String × Scalar)) :
    '\n' ∉ (object (f :: fs)).toList := by
  rw [toList_object_cons]
  simp [newline_notMem_member]

theorem getLast?_object (f : String × Scalar) (fs : List (String × Scalar)) :
    (object (f :: fs)).toList.getLast? = some '\x7d' := by
  rw [toList_object_cons, ← List.append_assoc, ← List.cons_append, List.getLast?_append]
  rfl

/-! ### The machine that reads brackets, quotes and escapes -/

/-- What a text has come to: before the first bracket or behind the last one, or
inside, with `depth` brackets open around the innermost one, and there between
tokens, in a string, behind a backslash, before hex digits that are due, or behind
a string. -/
inductive Scan where
  | start
  | between (depth : Nat)
  | string (depth : Nat)
  | escape (depth : Nat)
  | hex (due : Nat) (depth : Nat)
  | behind (depth : Nat)
  | done
  | bad
  deriving DecidableEq

namespace Scan

def isBlank (c : Char) : Bool := c == ' ' || c == '\t' || c == '\n' || c == '\r'

def isHex (c : Char) : Bool := c.isDigit || ('a' ≤ c && c ≤ 'f') || ('A' ≤ c && c ≤ 'F')

/-- The state behind a closing bracket. -/
def close : Nat → Scan
  | 0 => done
  | depth + 1 => between depth

def step : Scan → Char → Scan
  | start, c =>
      if c = '\x7b' ∨ c = '[' then between 0
      else if isBlank c then start
      else bad
  | between depth, c =>
      if c = '"' then string depth
      else if c = '\x7b' ∨ c = '[' then between (depth + 1)
      else if c = '\x7d' ∨ c = ']' then close depth
      else between depth
  | string depth, c =>
      if c = '"' then behind depth
      else if c = '\\' then escape depth
      else string depth
  | escape depth, c =>
      if c = 'u' then hex 4 depth
      else if c ∈ ['"', '\\', '/', 'b', 'f', 'n', 'r', 't'] then string depth
      else bad
  | hex due depth, c =>
      if isHex c then (if due ≤ 1 then string depth else hex (due - 1) depth) else bad
  | behind depth, c =>
      if c = ',' ∨ c = ':' then between depth
      else if c = '\x7d' ∨ c = ']' then close depth
      else if isBlank c then behind depth
      else bad
  | done, c => if isBlank c then done else bad
  | bad, _ => bad

def run (q : Scan) (text : List Char) : Scan := text.foldl step q

end Scan

/-- The text is one closed object or array, as far as the machine can see. -/
def Closed (text : String) : Prop := Scan.start.run text.toList = .done

namespace Scan

theorem run_append (q : Scan) (s t : List Char) : q.run (s ++ t) = (q.run s).run t :=
  List.foldl_append

@[simp] theorem run_nil (q : Scan) : q.run [] = q := rfl

@[simp] theorem run_cons (q : Scan) (c : Char) (cs : List Char) :
    q.run (c :: cs) = (q.step c).run cs := rfl

theorem run_bad (text : List Char) : bad.run text = bad := by
  induction text with
  | nil => rfl
  | cons c cs ih => exact ih

theorem isHex_digitChar : ∀ n < 32,
    isHex (Nat.digitChar (n / 16)) ∧ isHex (Nat.digitChar (n % 16)) := by
  decide

/-- An escaped character is read inside the string it belongs to. -/
theorem run_escape (depth : Nat) (c : Char) :
    (string depth).run (Json.escape c) = string depth := by
  unfold Json.escape
  split
  · next e he =>
      have hletter : e ∈ ['"', '\\', '/', 'b', 'f', 'n', 'r', 't'] := by
        unfold escapeLetter at he
        split at he <;> cases he <;> decide
      have hu : e ≠ 'u' := (letterEscaped_of_escapeLetter he).2
      simp [step, hletter, hu]
  · next hnone =>
      split
      · next hlt =>
          obtain ⟨hhi, hlo⟩ := isHex_digitChar c.toNat hlt
          have hzero : isHex '0' := by decide
          simp [step, hhi, hlo, hzero]
      · have hquote : c ≠ '"' := by rintro rfl; cases hnone
        have hback : c ≠ '\\' := by rintro rfl; cases hnone
        simp [step, hquote, hback]

theorem run_escaped (depth : Nat) (cs : List Char) :
    (string depth).run (cs.flatMap Json.escape) = string depth := by
  induction cs with
  | nil => rfl
  | cons c cs ih => rw [List.flatMap_cons, run_append, run_escape, ih]

theorem run_quote (depth : Nat) (s : String) :
    (between depth).run (quote s).toList = behind depth := by
  rw [toList_quote, run_cons, run_append]
  show run (run (string depth) _) _ = _
  rw [run_escaped]
  rfl

/-- Digits are passed over. -/
theorem run_digits (depth : Nat) {cs : List Char} (h : ∀ c ∈ cs, c.isDigit) :
    (between depth).run cs = between depth := by
  induction cs with
  | nil => rfl
  | cons c cs ih =>
      have hstep : (between depth).step c = between depth := by
        have hc := h c List.mem_cons_self
        have hne : ∀ d : Char, d.isDigit = false → c ≠ d := by
          rintro d hd rfl
          simp [hd] at hc
        simp [step, hne '"' (by decide), hne '\x7b' (by decide), hne '[' (by decide),
          hne '\x7d' (by decide), hne ']' (by decide)]
      rw [run_cons, hstep]
      exact ih fun e he => h e (List.mem_cons_of_mem _ he)

theorem run_intText (depth : Nat) (n : Int) :
    (between depth).run (intText n) = between depth := by
  unfold intText
  split
  · show (between depth).run (toString n.natAbs).toList = _
    exact run_digits depth fun _ => isDigit_of_mem_toString
  · exact run_digits depth fun _ => isDigit_of_mem_toString

/-- Behind a member another one begins, or the object ends. -/
theorem run_member (depth : Nat) (f : String × Scalar) :
    (between depth).run (member f) = between depth ∨
      (between depth).run (member f) = behind depth := by
  have hvalue : (between depth).run (member f) = (between depth).run f.2.text := by
    rw [member, run_append, run_quote]
    rfl
  rw [hvalue]
  cases f.2 with
  | str s => exact .inr (run_quote depth s)
  | int n => exact .inl (run_intText depth n)

theorem run_members (depth : Nat) (fs : List (String × Scalar)) {q : Scan}
    (hq : q = between depth ∨ q = behind depth) :
    q.run (fs.flatMap (fun f => ',' :: member f) ++ ['\x7d']) = close depth := by
  induction fs generalizing q with
  | nil => rcases hq with rfl | rfl <;> rfl
  | cons f fs ih =>
      have hcomma : q.step ',' = between depth := by rcases hq with rfl | rfl <;> rfl
      rw [List.flatMap_cons, List.append_assoc, List.cons_append, run_cons, hcomma, run_append]
      exact ih (run_member depth f)

/-- An object inside brackets leaves them as they are. -/
theorem run_object (depth : Nat) (f : String × Scalar) (fs : List (String × Scalar)) :
    (between depth).run (object (f :: fs)).toList = between depth := by
  rw [toList_object_cons, run_cons, run_append]
  exact run_members (depth + 1) fs (run_member (depth + 1) f)

/-- Once a text has begun, the machine does not come back to its start. -/
theorem step_ne_start {q : Scan} (h : q ≠ start) (c : Char) : q.step c ≠ start := by
  have hclose : ∀ depth, close depth ≠ start := by
    intro depth
    cases depth <;> simp [close]
  cases q with
  | start => exact absurd rfl h
  | bad => simp [step]
  | done => simp only [step]; split <;> simp
  | string d | escape d | hex n d => simp only [step]; split_ifs <;> simp
  | between d | behind d => simp only [step]; split_ifs <;> simp [hclose]

theorem run_ne_start {q : Scan} (h : q ≠ start) (text : List Char) : q.run text ≠ start := by
  induction text generalizing q with
  | nil => exact h
  | cons c cs ih => exact ih (step_ne_start h c)

/-- An object behind a text that has begun does not close it: inside brackets it
leaves them open, its first quote ends a string it stands in and its first key
follows, and anywhere else its brace is out of place. -/
theorem run_object_ne_done {q : Scan} (h : q ≠ start) {key : String} {c : Char} {cs : List Char}
    (hkey : (quote key).toList = '"' :: c :: cs) (hc : ∀ depth, (behind depth).step c = bad)
    (v : Scalar) (fs : List (String × Scalar)) :
    q.run (object ((key, v) :: fs)).toList ≠ done := by
  cases q with
  | start => exact absurd rfl h
  | between depth => simp [run_object]
  | string depth =>
      rw [toList_object_cons, member, hkey]
      show run ((behind depth).step c) _ ≠ done
      simp [hc, run_bad]
  | escape _ | hex _ _ | behind _ | done | bad =>
      rw [toList_object_cons, run_cons]
      simp [step, isHex, isBlank, run_bad]

end Scan

theorem closed_object (f : String × Scalar) (fs : List (String × Scalar)) :
    Closed (object (f :: fs)) := by
  rw [Closed, toList_object_cons, Scan.run_cons, Scan.run_append]
  exact Scan.run_members 0 fs (Scan.run_member 0 f)

/-- Behind a closed object only blanks are read. -/
theorem Scan.isBlank_of_run_done {cs : List Char} (h : Scan.done.run cs = .done) :
    ∀ c ∈ cs, isBlank c := by
  induction cs with
  | nil => simp
  | cons c cs ih =>
      rw [run_cons, step] at h
      split at h
      · next hblank =>
          intro d hd
          rcases List.mem_cons.mp hd with rfl | hd
          · exact hblank
          · exact ih h d hd
      · rw [run_bad] at h
        cases h

theorem Closed.isBlank_rest {s t : String} (ht : Closed t) (hs : Closed s) {rest : List Char}
    (hsplit : t.toList ++ rest = s.toList) : ∀ c ∈ rest, Scan.isBlank c := by
  rw [Closed, ← hsplit, Scan.run_append, ht] at hs
  exact Scan.isBlank_of_run_done hs

/-- A text that ends in a bracket is not closed before its end. -/
theorem Closed.eq_of_isPrefix {s t : String} (hs : Closed s)
    (hlast : s.toList.getLast? = some '\x7d') (ht : Closed t) (hpre : t.toList <+: s.toList) :
    t = s := by
  obtain ⟨rest, hsplit⟩ := hpre
  have hblank := ht.isBlank_rest hs hsplit
  rcases List.eq_nil_or_concat rest with rfl | ⟨init, c, rfl⟩
  · rw [List.append_nil] at hsplit
    exact String.toList_inj.mp hsplit
  · rw [← hsplit, List.concat_eq_append, ← List.append_assoc, List.getLast?_append] at hlast
    obtain rfl : c = '\x7d' := by simpa using hlast
    exact absurd (hblank '\x7d' (by simp)) (by decide)

/-- No object follows a closed one. -/
theorem Closed.not_append {s t : String} (hs : Closed s) (ht : t.toList.head? = some '\x7b') :
    ¬ Closed (s ++ t) := by
  intro hclosed
  obtain ⟨cs, hcs⟩ := List.head?_eq_some_iff.mp ht
  have hblank : ∀ c ∈ t.toList, Scan.isBlank c :=
    hs.isBlank_rest hclosed String.toList_append.symm
  exact absurd (hblank '\x7b' (by simp [hcs])) (by decide)

/-- An object glued to a text that has begun is not read. -/
theorem not_closed_glued {t : String} (ht : Scan.start.run t.toList ≠ .start) {key : String}
    {c : Char} {cs : List Char} (hkey : (quote key).toList = '"' :: c :: cs)
    (hc : ∀ depth, (Scan.behind depth).step c = .bad) (v : Scalar)
    (fs : List (String × Scalar)) : ¬ Closed (t ++ object ((key, v) :: fs)) := by
  rw [Closed, String.toList_append, Scan.run_append]
  exact Scan.run_object_ne_done ht hkey hc v fs

end DdsOrchestrator.Json
