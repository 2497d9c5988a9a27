import DdsOrchestrator.Lib.Inclusion
import DdsOrchestrator.ControlPanel.Inventory

/-!
What an inventory means, and when the panel reads it so. The sections may stand in any order
and a value in quotes may hold blanks; the pass copies the members of a child when it comes
to its name, takes a line apart at the blanks, and has no place for variables of a group.
-/

namespace DdsOrchestrator.ControlPanel

open Inclusion (Statement Reached)
open Lines (lines trim isWhitespace)

/-! ### The meaning of an inventory -/

/-- A line with content that is no header, by the section it stands in. -/
inductive Entry where
  | host (group : String) (line : List Char)
  | child (parent part : String)
  | vars (line : List Char)
  | ungrouped (line : List Char)
  deriving DecidableEq

def entryOf : Option (List Char) → List Char → Entry
  | none, line => .ungrouped line
  | some group, line =>
      if ":vars".toList <:+ group then .vars line
      else
        match stripSuffix ":children".toList group with
        | some parent => .child (String.ofList parent) (firstWord line)
        | none => .host (String.ofList group) line

def entriesFrom : Option (List Char) → List (List Char) → List Entry
  | _, [] => []
  | current, rawLine :: rest =>
      let line := trim rawLine
      if skipped line then entriesFrom current rest
      else if isHeader line then entriesFrom (some (trim (line.drop 1).dropLast)) rest
      else entryOf current line :: entriesFrom current rest

def entries (text : String) : List Entry := entriesFrom none (lines text.toList)

/-- What an entry says on the members of groups. -/
def Entry.statement : Entry → Option (Statement String String)
  | .host group line => some (.lists group (firstWord line))
  | .child parent part => some (.includes parent part)
  | .vars _ => none
  | .ungrouped _ => none

def statements (text : String) : List (Statement String String) :=
  (entries text).filterMap Entry.statement

/-- The words of a line. A value that begins with a quote goes on to the next such quote. -/
def wordsFrom : Option Char → List Char → List Char → List (List Char)
  | _, word, [] => if word = [] then [] else [word]
  | some quote, word, c :: rest =>
      wordsFrom (if c = quote then none else some quote) (word ++ [c]) rest
  | none, word, c :: rest =>
      if isWhitespace c then (if word = [] then [] else [word]) ++ wordsFrom none [] rest
      else
        wordsFrom (if isQuote c ∧ word.getLast? = some '=' ∧ c ∈ rest then some c else none)
          (word ++ [c]) rest

def words (line : List Char) : List (List Char) := wordsFrom none [] line

/-- The words of an entry that may assign a value. -/
def Entry.candidates : Entry → List (List Char)
  | .host _ line => (words line).tail
  | .child _ _ => []
  | .vars line => [line]
  | .ungrouped line => (words line).tail

/-- The value is assigned to a sensitive key. -/
def SensitiveValue (text value : String) : Prop :=
  ∃ entry ∈ entries text, ∃ word ∈ entry.candidates, ∃ key,
    assignment word = some (key, value) ∧ isSensitiveKey key

def VmInventory.members (inventory : VmInventory) (group : String) : List String :=
  (inventory.groups.lookup group).getD []

/-- The members of every group and all sensitive values are there. -/
structure VmInventory.Reads (inventory : VmInventory) (text : String) : Prop where
  members : ∀ group host, host ∈ inventory.members group ↔ Reached (statements text) group host
  secrets : ∀ value, SensitiveValue text value → value ∈ inventory.secrets

/-! ### What the pass meets -/

/-- The assignments of a line, taken apart at every blank. -/
def Entry.readings : Entry → List ((String × String) × String)
  | .host _ line =>
      (((splitWhitespace line).tail).filterMap assignment).map fun e =>
        ((firstWord line, e.1), e.2)
  | .child _ _ => []
  | .vars _ => []
  | .ungrouped _ => []

def readings (text : String) : List ((String × String) × String) :=
  (entries text).flatMap Entry.readings

/-- The value stands between blanks on a line of a host in a group, under a sensitive key
that no later one sets again for the host. -/
def Kept (text value : String) : Prop :=
  ∃ host key before after, readings text = before ++ ((host, key), value) :: after ∧
    isSensitiveKey key ∧ ∀ e ∈ after, e.1 ≠ (host, key)

/-! ### Words -/

theorem splitWhitespace_append_cons (line rest : List Char) {c : Char} (hc : isWhitespace c) :
    splitWhitespace (line ++ c :: rest) = splitWhitespace line ++ splitWhitespace rest := by
  rw [splitWhitespace, List.splitOnP_append_cons _ _ hc, List.filter_append]
  rfl

theorem splitWhitespace_of_plain {word : List Char} (h : ∀ c ∈ word, isWhitespace c = false) :
    splitWhitespace word = if word = [] then [] else [word] := by
  rw [splitWhitespace, List.splitOnP_eq_singleton h]
  by_cases hnil : word = []
  · simp [hnil]
  · simp [hnil]

theorem headD_splitWhitespace_cons (rest : List Char) {c : Char} (hc : isWhitespace c = false) :
    ∃ word, (splitWhitespace (c :: rest)).headD [] = c :: word := by
  obtain ⟨word, pieces, hpieces⟩ :=
    List.exists_cons_of_ne_nil (List.splitOnP_ne_nil isWhitespace rest)
  refine ⟨word, ?_⟩
  rw [splitWhitespace, List.splitOnP_cons_eq_if_modifyHead, if_neg (by simp [hc]), hpieces]
  rfl

/-- The quotes only join words that stand between blanks. -/
theorem splitWhitespace_wordsFrom (quote : Option Char) (word line : List Char) :
    splitWhitespace (word ++ line) = (wordsFrom quote word line).flatMap splitWhitespace := by
  have hlast : ∀ word : List Char,
      splitWhitespace word = (if word = [] then [] else [word]).flatMap splitWhitespace := by
    intro word
    by_cases h : word = []
    · rw [if_pos h, h]
      rfl
    · rw [if_neg h, List.flatMap_singleton]
  induction line generalizing quote word with
  | nil =>
      rw [List.append_nil, hlast word]
      cases quote with
      | none => rfl
      | some q => rfl
  | cons c rest ih =>
      cases quote with
      | some q => rw [wordsFrom, ← ih, List.append_assoc, List.singleton_append]
      | none =>
          rw [wordsFrom]
          by_cases hc : isWhitespace c
          · rw [if_pos hc, splitWhitespace_append_cons _ _ hc, List.flatMap_append, ← hlast,
              ← ih, List.nil_append]
          · rw [if_neg hc, ← ih, List.append_assoc, List.singleton_append]

/-- A line that was trimmed begins with a word. -/
theorem trim_eq_cons {rawLine : List Char} (h : trim rawLine ≠ []) :
    ∃ c rest, trim rawLine = c :: rest ∧ isWhitespace c = false := by
  obtain ⟨c, rest, hcons⟩ := List.exists_cons_of_ne_nil h
  refine ⟨c, rest, hcons, ?_⟩
  have hprefix : trim rawLine <+: rawLine.dropWhile isWhitespace := by
    rw [trim, ← List.reverse_suffix, List.reverse_reverse]
    exact List.dropWhile_suffix _
  obtain ⟨behind, hbehind⟩ := hprefix
  have hhead := List.head?_dropWhile_not isWhitespace rawLine
  rw [← hbehind, hcons] at hhead
  exact hhead

theorem firstWord_ne_empty {rawLine : List Char} (h : skipped (trim rawLine) = false) :
    firstWord (trim rawLine) ≠ "" := by
  have hne : trim rawLine ≠ [] := by
    intro hnil
    rw [hnil] at h
    exact absurd h (by decide)
  obtain ⟨c, rest, hcons, hc⟩ := trim_eq_cons hne
  obtain ⟨word, hword⟩ := headD_splitWhitespace_cons rest hc
  intro hempty
  rw [firstWord, hcons, hword] at hempty
  have hlist := congrArg String.toList hempty
  rw [String.toList_ofList] at hlist
  cases hlist

/-! ### One line -/

section

variable {s : Scan} {rawLine : List Char}

theorem line_skipped (h : skipped (trim rawLine)) : s.line rawLine = s := by
  rw [Scan.line]
  exact if_pos h

theorem line_header (h : skipped (trim rawLine) = false) (hheader : isHeader (trim rawLine)) :
    (s.line rawLine).current = some (trim ((trim rawLine).drop 1).dropLast) ∧
      known (s.line rawLine).groups = known s.groups ∧
      (s.line rawLine).rawHosts = s.rawHosts := by
  simp only [Scan.line, if_neg (Bool.eq_false_iff.mp h), if_pos hheader]
  refine ⟨trivial, ?_, trivial⟩
  split
  · rfl
  · rw [known_extendGroup]
    simp

/-- A line of a group or of children, read with the section it stands in. -/
theorem line_entry (h : skipped (trim rawLine) = false)
    (hheader : isHeader (trim rawLine) = false) :
    (s.line rawLine).current = s.current ∧
      known (s.line rawLine).groups =
        ((entryOf s.current (trim rawLine)).statement.toList).foldl Statement.apply
          (known s.groups) ∧
      ∀ host key, variableOf (s.line rawLine).rawHosts host key =
        (Map.lastOf (entryOf s.current (trim rawLine)).readings (host, key)).or
          (variableOf s.rawHosts host key) := by
  simp only [Scan.line, if_neg (Bool.eq_false_iff.mp h), if_neg (Bool.eq_false_iff.mp hheader)]
  cases hcurrent : s.current with
  | none => exact ⟨hcurrent, rfl, fun host key => rfl⟩
  | some group =>
      simp only [entryOf]
      by_cases hvars : ":vars".toList <:+ group
      · rw [if_pos hvars, if_pos hvars]
        exact ⟨hcurrent, rfl, fun host key => rfl⟩
      · rw [if_neg hvars, if_neg hvars]
        cases stripSuffix ":children".toList group with
        | some parent =>
            simp only [Entry.statement]
            cases hpart : s.groups.lookup (firstWord (trim rawLine)) with
            | none =>
                refine ⟨hcurrent, ?_, fun host key => rfl⟩
                funext group' host
                simp [Statement.apply, known, hpart]
            | some members =>
                refine ⟨rfl, ?_, fun host key => rfl⟩
                simp only [known_extendGroup]
                funext group' host
                simp [Statement.apply, known, hpart]
        | none =>
            have hname : (parseHostLine (trim rawLine)).1 ≠ "" := firstWord_ne_empty h
            simp only [if_neg hname]
            refine ⟨trivial, ?_, fun host key => ?_⟩
            · rw [known_extendGroup, fst_parseHostLine]
              funext group' host
              simp [Entry.statement, Statement.apply]
            · rw [variableOf_extendHost, fst_parseHostLine, lookup_parseHostLine, Entry.readings,
                Map.lastOf_map_prod]
              by_cases hhost : host = firstWord (trim rawLine)
              · rw [if_pos hhost, if_pos hhost, hhost]
              · rw [if_neg hhost, if_neg hhost, Option.none_or]

end

/-! ### All lines -/

/-- The pass finds what the entries say, one after the other. -/
theorem foldl_line (rawLines : List (List Char)) (s : Scan) :
    known (rawLines.foldl Scan.line s).groups =
        ((entriesFrom s.current rawLines).filterMap Entry.statement).foldl Statement.apply
          (known s.groups) ∧
      ∀ host key, variableOf (rawLines.foldl Scan.line s).rawHosts host key =
        (Map.lastOf ((entriesFrom s.current rawLines).flatMap Entry.readings) (host, key)).or
          (variableOf s.rawHosts host key) := by
  induction rawLines generalizing s with
  | nil => exact ⟨rfl, fun host key => rfl⟩
  | cons rawLine rest ih =>
      rw [List.foldl_cons]
      obtain ⟨hgroups, hhosts⟩ := ih (s.line rawLine)
      by_cases hskip : skipped (trim rawLine)
      · rw [line_skipped hskip] at hgroups hhosts ⊢
        simp only [entriesFrom, if_pos hskip]
        exact ⟨hgroups, hhosts⟩
      · have hcontent := Bool.eq_false_iff.mpr hskip
        by_cases hheader : isHeader (trim rawLine)
        · obtain ⟨hcurrent, hknown, hraw⟩ := line_header (s := s) hcontent hheader
          simp only [entriesFrom, if_neg hskip, if_pos hheader]
          rw [hcurrent, hknown] at hgroups
          rw [hcurrent, hraw] at hhosts
          exact ⟨hgroups, hhosts⟩
        · obtain ⟨hcurrent, hknown, hvariables⟩ :=
            line_entry (s := s) hcontent (Bool.eq_false_iff.mpr hheader)
          simp only [entriesFrom, if_neg hskip, if_neg hheader]
          rw [hcurrent, hknown] at hgroups
          rw [hcurrent] at hhosts
          refine ⟨?_, fun host key => ?_⟩
          · rw [hgroups, ← List.foldl_append, List.filterMap_cons]
            cases (entryOf s.current (trim rawLine)).statement with
            | none => rfl
            | some statement => rfl
          · rw [hhosts, hvariables, List.flatMap_cons, Map.lastOf_append, Option.or_assoc]

theorem known_scan (text : String) :
    known (scan text).groups = Inclusion.pass (statements text) := by
  have hnone : known Scan.init.groups = fun _ _ => False := by
    funext group host
    simp [known, Scan.init]
  have h := (foldl_line (lines text.toList) Scan.init).1
  rwa [hnone] at h

theorem variableOf_scan (text host key : String) :
    variableOf (scan text).rawHosts host key = Map.lastOf (readings text) (host, key) := by
  have h := (foldl_line (lines text.toList) Scan.init).2 host key
  rwa [show variableOf Scan.init.rawHosts host key = none from rfl, Option.or_none] at h

theorem members_iff (path text : String) :
    (∀ group host, host ∈ (loadInventory path (some text)).members group ↔
      Reached (statements text) group host) ↔ Inclusion.InOrder (statements text) := by
  rw [← Inclusion.pass_eq_reached_iff, ← known_scan]
  exact forall_congr' fun group => forall_congr' fun host => by
    rw [VmInventory.members, mem_members_loadInventory]

theorem mem_secrets_iff {path text value : String} :
    value ∈ (loadInventory path (some text)).secrets ↔ Kept text value := by
  simp only [mem_secrets_loadInventory, variableOf_scan, Map.lastOf_eq_some_iff]
  constructor
  · rintro ⟨host, key, hkey, before, after, heq, hnone⟩
    exact ⟨host, key, before, after, heq, hkey, hnone⟩
  · rintro ⟨host, key, before, after, heq, hkey, hnone⟩
    exact ⟨host, key, hkey, before, after, heq, hnone⟩

/-! ### Plain inventories -/

theorem wordsFrom_eq_cons {word : List Char} (h : word ≠ []) (quote : Option Char)
    (line : List Char) : ∃ tail ws, wordsFrom quote word line = (word ++ tail) :: ws := by
  induction line generalizing quote word with
  | nil =>
      refine ⟨[], [], ?_⟩
      cases quote with
      | none => rw [wordsFrom, if_neg h, List.append_nil]
      | some q => rw [wordsFrom, if_neg h, List.append_nil]
  | cons c rest ih =>
      have hmore : ∀ quote, ∃ tail ws,
          wordsFrom quote (word ++ [c]) rest = (word ++ tail) :: ws := by
        intro quote
        obtain ⟨tail, ws, heq⟩ := ih (List.concat_ne_nil c word) quote
        exact ⟨c :: tail, ws, by rw [heq, List.append_assoc, List.singleton_append]⟩
      cases quote with
      | some q => exact hmore _
      | none =>
          rw [wordsFrom]
          by_cases hc : isWhitespace c
          · rw [if_pos hc, if_neg h]
            exact ⟨[], _, by rw [List.append_nil]; rfl⟩
          · rw [if_neg hc]
            exact hmore _

/-- A later word without a blank is one of those between the blanks. -/
theorem mem_tail_splitWhitespace {rawLine word : List Char} (h : trim rawLine ≠ [])
    (hword : word ∈ (words (trim rawLine)).tail) (hne : word ≠ [])
    (hplain : ∀ c ∈ word, isWhitespace c = false) :
    word ∈ (splitWhitespace (trim rawLine)).tail := by
  obtain ⟨c, rest, hcons, hc⟩ := trim_eq_cons h
  have hwords : words (trim rawLine) = wordsFrom none [c] rest := by
    rw [words, hcons, wordsFrom, if_neg (by simp [hc]), if_neg (by simp), List.nil_append]
  obtain ⟨tail, ws, hsplit⟩ := wordsFrom_eq_cons (List.cons_ne_nil c []) none rest
  have hpieces : splitWhitespace (trim rawLine) =
      splitWhitespace (c :: tail) ++ ws.flatMap splitWhitespace := by
    have hjoin := splitWhitespace_wordsFrom none [c] rest
    rw [List.singleton_append, ← hcons, hsplit, List.flatMap_cons] at hjoin
    exact hjoin
  obtain ⟨first, hfirst⟩ := headD_splitWhitespace_cons tail hc
  have hmem : word ∈ ws.flatMap splitWhitespace := by
    rw [hwords, hsplit, List.tail_cons] at hword
    refine List.mem_flatMap.mpr ⟨word, hword, ?_⟩
    rw [splitWhitespace_of_plain hplain, if_neg hne]
    exact List.mem_singleton_self word
  rw [hpieces]
  cases hhead : splitWhitespace (c :: tail) with
  | nil =>
      rw [hhead] at hfirst
      cases hfirst
  | cons piece pieces =>
      rw [List.cons_append, List.tail_cons]
      exact List.mem_append_right _ hmem

theorem trimmed_of_mem_entriesFrom {group : String} {line : List Char}
    {rawLines : List (List Char)} {current : Option (List Char)}
    (h : .host group line ∈ entriesFrom current rawLines) :
    ∃ rawLine, line = trim rawLine ∧ trim rawLine ≠ [] := by
  induction rawLines generalizing current with
  | nil => cases h
  | cons rawLine rest ih =>
      rw [entriesFrom] at h
      by_cases hskip : skipped (trim rawLine)
      · simp only [if_pos hskip] at h
        exact ih h
      · by_cases hheader : isHeader (trim rawLine)
        · simp only [if_neg hskip, if_pos hheader] at h
          exact ih h
        · simp only [if_neg hskip, if_neg hheader] at h
          rcases List.mem_cons.mp h with heq | h
          · refine ⟨rawLine, ?_, fun hnil => hskip (by rw [hnil]; rfl)⟩
            cases current with
            | none => cases heq
            | some group' =>
                rw [entryOf] at heq
                split at heq
                · cases heq
                · cases hparent : stripSuffix ":children".toList group' with
                  | some parent =>
                      rw [hparent] at heq
                      cases heq
                  | none =>
                      rw [hparent] at heq
                      cases heq
                      rfl
          · exact ih h

/-- All is read where every section of children stands behind those that it names, and every
sensitive value is one word on a line of a host in a group and the only one of its key. -/
theorem loadInventory_reads_of_plain (path text : String)
    (hparts : ∀ (i j : ℕ) (group part : String) (s : Statement String String),
      (statements text)[i]? = some (.includes group part) → (statements text)[j]? = some s →
      s.group = part → j < i)
    (hplain : ∀ entry ∈ entries text, ∀ word ∈ entry.candidates, ∀ key value,
      assignment word = some (key, value) → isSensitiveKey key →
      (∃ group line, entry = .host group line) ∧ ∀ c ∈ word, isWhitespace c = false)
    (honce : ∀ host key v w, ((host, key), v) ∈ readings text →
      ((host, key), w) ∈ readings text → isSensitiveKey key → v = w) :
    (loadInventory path (some text)).Reads text := by
  refine ⟨(members_iff path text).mpr (Inclusion.inOrder_of_parts_first hparts), ?_⟩
  rintro value ⟨entry, hentry, word, hword, key, hassign, hkey⟩
  rw [mem_secrets_iff]
  obtain ⟨⟨group, line, rfl⟩, hblank⟩ := hplain entry hentry word hword key value hassign hkey
  obtain ⟨rawLine, rfl, hne⟩ := trimmed_of_mem_entriesFrom hentry
  have hread : ((firstWord (trim rawLine), key), value) ∈ readings text := by
    refine List.mem_flatMap.mpr ⟨_, hentry, List.mem_map.mpr ⟨(key, value), ?_, rfl⟩⟩
    refine List.mem_filterMap.mpr ⟨word, mem_tail_splitWhitespace hne hword ?_ hblank, hassign⟩
    rintro rfl
    cases hassign
  obtain ⟨v, hlast, hmem⟩ := Map.exists_lastOf hread
  obtain rfl := honce _ _ _ _ hread hmem hkey
  obtain ⟨before, after, heq, hnone⟩ := Map.lastOf_eq_some_iff.mp hlast
  exact ⟨_, _, before, after, heq, hkey, hnone⟩

/-- The panel reads an inventory right exactly if no chain of children is against the order of
the lines and every sensitive value stands as one word on a line of a host in a group. -/
theorem loadInventory_reads_iff (path text : String) :
    (loadInventory path (some text)).Reads text ↔
      Inclusion.InOrder (statements text) ∧
        ∀ value, SensitiveValue text value → Kept text value := by
  rw [← members_iff path text]
  constructor
  · intro h
    exact ⟨h.members, fun value hvalue => mem_secrets_iff.mp (h.secrets value hvalue)⟩
  · rintro ⟨hmembers, hkept⟩
    exact ⟨hmembers, fun value hvalue => mem_secrets_iff.mpr (hkept value hvalue)⟩

/-- A section of children before the one that it names, and a value with a blank. -/
def childrenFirst : String := "[a:children]\nb\n[b]\nh ansible_password='x y'\n"

/-- The group has no members, and the value is not among the secrets. -/
theorem childrenFirst_misread :
    ¬ (∀ group host, host ∈ (loadInventory "hosts.ini" (some childrenFirst)).members group ↔
      Reached (statements childrenFirst) group host) ∧
    ¬ ∀ value, SensitiveValue childrenFirst value →
      value ∈ (loadInventory "hosts.ini" (some childrenFirst)).secrets := by
  have hentries : entries childrenFirst =
      [.child "a" "b", .host "b" "h ansible_password='x y'".toList] := by decide
  constructor
  · have hstatements : statements childrenFirst = [.includes "a" "b", .lists "b" "h"] := by
      rw [statements, hentries]
      decide
    rw [members_iff, hstatements]
    intro h
    have hreached : Reached [.includes "a" "b", .lists "b" "h"] "a" "h" :=
      .through List.mem_cons_self (.listed (by simp))
    cases h _ _ hreached with
    | @listed _ i _ _ hi hlt =>
        have htwo : i < 2 := hlt
        obtain rfl | rfl : i = 0 ∨ i = 1 := by omega
        · simp at hi
        · simp at hi
    | @through _ i _ part _ hi hlt hpart =>
        have htwo : i < 2 := hlt
        obtain rfl | rfl : i = 0 ∨ i = 1 := by omega
        · cases hpart with
          | listed hi hlt => cases hlt
          | through hi hlt hpart => cases hlt
        · simp at hi
  · have hreadings : readings childrenFirst = [(("h", "ansible_password"), "x")] := by
      rw [readings, hentries]
      decide
    have hvalue : SensitiveValue childrenFirst "x y" :=
      ⟨.host "b" "h ansible_password='x y'".toList, by simp [hentries],
        "ansible_password='x y'".toList, by decide, "ansible_password", by decide, by decide⟩
    intro h
    obtain ⟨host, key, before, after, heq, -, -⟩ := mem_secrets_iff.mp (h _ hvalue)
    have hmem : ((host, key), "x y") ∈ readings childrenFirst := by simp [heq]
    simp [hreadings] at hmem

end DdsOrchestrator.ControlPanel
