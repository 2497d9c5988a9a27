import DdsOrchestrator.Lib.Assoc

/-!
Trees of files, and how a path is opened beneath a directory: name by name from the raw
string, without following a link and without leaving the directory. The path may be read a
second time, by a library that splits it into components before it is opened; on a relative
path without parents both readings have the same names.
-/

namespace DdsOrchestrator.FileTree

abbrev Name := List Char

/-- The names on the way from the root. -/
abbrev Location := List Name

inductive Inode where
  | file (bytes : List UInt8)
  | dir
  | symlink
  deriving DecidableEq

/-- What is at each location but the root, which is a directory. -/
abbrev Tree := Map Location Inode

def Tree.inode (t : Tree) (here : Location) : Option Inode :=
  if here = [] then some .dir else t.lookup here

/-- The errors of an open that a caller tells apart. -/
inductive Errno where
  | noent
  | exist
  | notdir
  | isdir
  | inval
  | loop
  | xdev
  | other (text : String)
  deriving DecidableEq

structure OpenFlags where
  write : Bool
  create : Bool
  exclusive : Bool
  truncate : Bool
  directory : Bool
  deriving DecidableEq

/-! ### The names of a path -/

def dot : Name := ['.']

def dotdot : Name := ['.', '.']

/-- The names as they are found in the string: slashes are skipped, `name` is the one that is
being read, backwards. -/
def scan (name : Name) : List Char → List Name
  | [] => if name = [] then [] else [name.reverse]
  | c :: raw =>
      if c = '/' then
        if name = [] then scan [] raw else name.reverse :: scan [] raw
      else scan (c :: name) raw

def namesOf (raw : List Char) : List Name := scan [] raw

/-- A component of a path, as a library tells them apart. -/
inductive Component where
  | rootDir
  | curDir
  | parentDir
  | normal (name : Name)
  deriving DecidableEq

/-- A piece between slashes; empty ones and inner dots are dropped. -/
def Component.ofPiece (piece : Name) : Option Component :=
  if piece = [] ∨ piece = dot then none
  else if piece = dotdot then some .parentDir
  else some (.normal piece)

/-- The component that only the first piece can be. -/
def leading (raw : List Char) : List Component :=
  match raw.splitOn '/' with
  | [] => []
  | first :: rest =>
      if first = [] then if rest = [] then [] else [.rootDir]
      else if first = dot then [.curDir]
      else []

def components (raw : List Char) : List Component :=
  leading raw ++ (raw.splitOn '/').filterMap Component.ofPiece

def Component.name? : Component → Option Name
  | normal name => some name
  | _ => none

/-! ### Opening beneath a directory -/

variable (t : Tree) (base : Location)

/-- From the directory `here` beneath the base to an entry that is a directory again. -/
def enter (here : Location) (name : Name) : Except Errno Location :=
  if name = dot then .ok here
  else if name = dotdot then if here = [] then .error .xdev else .ok here.dropLast
  else
    match t.inode (base ++ here ++ [name]) with
    | none => .error .noent
    | some (.file _) => .error .notdir
    | some .symlink => .error .loop
    | some .dir => .ok (here ++ [name])

/-- What is opened of the entry at `place`, which is `found` beneath the base. -/
def openEntry (flags : OpenFlags) (slash : Bool) (place found : Location) :
    Option Inode → Except Errno (Location × Tree)
  | none => if flags.create then .ok (found, t.insert place (.file [])) else .error .noent
  | some inode =>
      if flags.create ∧ flags.exclusive then .error .exist
      else
        match inode with
        | .symlink => .error .loop
        | .dir => if flags.create ∨ flags.write then .error .isdir else .ok (found, t)
        | .file _ =>
            if slash ∨ flags.directory then .error .notdir
            else if flags.truncate then .ok (found, t.insert place (.file []))
            else .ok (found, t)

/-- The last name; `slash` is whether a slash follows it. -/
def openLast (flags : OpenFlags) (slash : Bool) (here : Location) (name : Name) :
    Except Errno (Location × Tree) :=
  if name = dot ∨ name = dotdot then
    match enter t base here name with
    | .error e => .error e
    | .ok found =>
        if flags.create ∧ flags.exclusive then .error .exist
        else if flags.create ∨ flags.write then .error .isdir
        else .ok (found, t)
  else if flags.create ∧ slash then .error .isdir
  else
    openEntry t flags slash (base ++ (here ++ [name])) (here ++ [name])
      (t.inode (base ++ (here ++ [name])))

def walk (flags : OpenFlags) (slash : Bool) : Location → List Name →
    Except Errno (Location × Tree)
  | _, [] => .error .noent
  | here, [name] => openLast t base flags slash here name
  | here, name :: next :: names =>
      match enter t base here name with
      | .error e => .error e
      | .ok here => walk flags slash here (next :: names)

/-- Opens the path beneath the base: the location beneath it that is open, and the tree. -/
def openat2 (raw : List Char) (flags : OpenFlags) : Except Errno (Location × Tree) :=
  if '\x00' ∈ raw then .error .inval
  else if raw.head? = some '/' then .error .xdev
  else walk t base flags (raw.getLast? = some '/') [] (namesOf raw)

/-! ### The two readings -/

section

variable {raw : List Char} {name : Name}

theorem scan_eq (name : Name) (raw : List Char) :
    scan name raw = (List.splitOnPPrepend (· == '/') raw name).filter (· ≠ []) := by
  induction raw generalizing name with
  | nil => by_cases hname : name = [] <;> simp [scan, hname]
  | cons c raw ih =>
      rw [scan, List.splitOnPPrepend_cons_eq_if]
      by_cases hslash : c = '/'
      · have hfound : (c == '/') = true := by simpa using hslash
        rw [if_pos hslash, if_pos hfound, List.filter_cons, ih, List.splitOnPPrepend_nil_right]
        by_cases hname : name = [] <;> simp [hname]
      · have hother : ¬ (c == '/') = true := by simpa using hslash
        rw [if_neg hslash, if_neg hother, ih]

/-- The names are what is between slashes and is not empty. -/
theorem namesOf_eq (raw : List Char) : namesOf raw = (raw.splitOn '/').filter (· ≠ []) := by
  rw [namesOf, scan_eq, List.splitOnPPrepend_nil_right]
  rfl

theorem mem_namesOf : name ∈ namesOf raw ↔ name ∈ raw.splitOn '/' ∧ name ≠ [] := by
  simp [namesOf_eq]

theorem namesOf_of_not_mem (hslash : '/' ∉ raw) (hraw : raw ≠ []) : namesOf raw = [raw] := by
  have hsingle : raw.splitOn '/' = [raw] :=
    List.splitOnP_eq_singleton fun c hc => by
      simpa using ne_of_mem_of_not_mem hc hslash
  simp [namesOf_eq, hsingle, hraw]

theorem ofPiece_eq_some {piece : Name} {c : Component} :
    Component.ofPiece piece = some c ↔
      (piece = dotdot ∧ c = .parentDir) ∨
      (piece ≠ [] ∧ piece ≠ dot ∧ piece ≠ dotdot ∧ c = .normal piece) := by
  unfold Component.ofPiece
  by_cases hdropped : piece = [] ∨ piece = dot
  · rw [if_pos hdropped]
    rcases hdropped with rfl | rfl
    · simp [dotdot]
    · simp [dot, dotdot]
  · rw [if_neg hdropped]
    rw [not_or] at hdropped
    by_cases hparent : piece = dotdot
    · simp [hparent, eq_comm]
    · simp [hparent, hdropped, eq_comm]

/-- What comes first is no name and no parent. -/
theorem mem_leading {c : Component} (h : c ∈ leading raw) : c = .rootDir ∨ c = .curDir := by
  unfold leading at h
  split at h
  · cases h
  · split at h
    · split at h
      · cases h
      · exact .inl (List.mem_singleton.mp h)
    · split at h
      · exact .inr (List.mem_singleton.mp h)
      · cases h

theorem parentDir_mem_components : Component.parentDir ∈ components raw ↔ dotdot ∈ namesOf raw := by
  rw [components, List.mem_append, List.mem_filterMap, mem_namesOf]
  constructor
  · rintro (hfirst | ⟨piece, hpiece, hparent⟩)
    · rcases mem_leading hfirst with h | h <;> cases h
    · obtain ⟨rfl, -⟩ | ⟨-, -, -, h⟩ := ofPiece_eq_some.mp hparent
      · exact ⟨hpiece, by simp [dotdot]⟩
      · cases h
  · rintro ⟨hpiece, -⟩
    exact .inr ⟨dotdot, hpiece, ofPiece_eq_some.mpr (.inl ⟨rfl, rfl⟩)⟩

theorem normal_mem_components :
    Component.normal name ∈ components raw ↔
      name ∈ namesOf raw ∧ name ≠ dot ∧ name ≠ dotdot := by
  rw [components, List.mem_append, List.mem_filterMap, mem_namesOf]
  constructor
  · rintro (hfirst | ⟨piece, hpiece, hnormal⟩)
    · rcases mem_leading hfirst with h | h <;> cases h
    · obtain ⟨-, h⟩ | ⟨hne, hdot, hparent, h⟩ := ofPiece_eq_some.mp hnormal
      · cases h
      · cases h
        exact ⟨⟨hpiece, hne⟩, hdot, hparent⟩
  · rintro ⟨⟨hpiece, hne⟩, hdot, hparent⟩
    exact .inr ⟨name, hpiece, ofPiece_eq_some.mpr (.inr ⟨hne, hdot, hparent, rfl⟩)⟩

theorem rootDir_mem_components : Component.rootDir ∈ components raw ↔ raw.head? = some '/' := by
  have hlater : Component.rootDir ∉ (raw.splitOn '/').filterMap Component.ofPiece := by
    intro h
    obtain ⟨piece, -, hroot⟩ := List.mem_filterMap.mp h
    obtain ⟨-, h⟩ | ⟨-, -, -, h⟩ := ofPiece_eq_some.mp hroot
    · cases h
    · cases h
  rw [components, List.mem_append, or_iff_left hlater, leading]
  cases raw with
  | nil => simp
  | cons c raw =>
      rw [List.head?_cons, Option.some.injEq, List.splitOn_eq_splitOnP,
        List.splitOnP_cons_eq_if_modifyHead]
      by_cases hslash : c = '/'
      · simp [hslash]
      · obtain ⟨first, rest, hpieces⟩ :=
          List.exists_cons_of_ne_nil (List.splitOnP_ne_nil (· == '/') raw)
        rw [if_neg (by simpa using hslash), hpieces]
        simp only [List.modifyHead_cons, reduceCtorEq, if_false, hslash, iff_false]
        split
        · simp
        · simp

/-- On a path without parents the components have the names that are looked up. -/
theorem components_filterMap_name? (hparent : dotdot ∉ namesOf raw) :
    (components raw).filterMap Component.name? = (namesOf raw).filter (· ≠ dot) := by
  have hfirst : (leading raw).filterMap Component.name? = [] := by
    rw [List.filterMap_eq_nil_iff]
    intro c hc
    rcases mem_leading hc with rfl | rfl
    · rfl
    · rfl
  have hpieces : ∀ pieces : List Name, dotdot ∉ pieces →
      (pieces.filterMap Component.ofPiece).filterMap Component.name? =
        (pieces.filter (· ≠ [])).filter (· ≠ dot) := by
    intro pieces hnone
    induction pieces with
    | nil => rfl
    | cons piece pieces ih =>
        rw [List.mem_cons, not_or] at hnone
        obtain ⟨hpiece, hrest⟩ := hnone
        by_cases hempty : piece = []
        · subst hempty
          simpa [Component.ofPiece] using ih hrest
        · by_cases hdot : piece = dot
          · subst hdot
            simpa [Component.ofPiece] using ih hrest
          · simpa [Component.ofPiece, Component.name?, hempty, hdot, Ne.symm hpiece] using ih hrest
  rw [components, List.filterMap_append, hfirst, List.nil_append, namesOf_eq]
  refine hpieces _ fun hmem => hparent (mem_namesOf.mpr ⟨hmem, ?_⟩)
  simp [dotdot]

end

/-! ### What an open reaches -/

section

variable {t t' t₁ : Tree} {base here found : Location} {flags : OpenFlags} {slash : Bool}
  {name : Name} {names : List Name} {raw : List Char}

/-- The tree after an open: as before, or with an empty file where it arrived. -/
def Opened (t : Tree) (at_ : Location) (t' : Tree) : Prop :=
  t' = t ∨ t' = t.insert at_ (.file [])

theorem Opened.lookup {at_ other : Location} (h : Opened t at_ t') (hne : other ≠ at_) :
    t'.lookup other = t.lookup other := by
  obtain rfl | rfl := h
  · rfl
  · exact AList.lookup_insert_ne hne

theorem enter_ok (hparent : name ≠ dotdot) (h : enter t base here name = .ok found) :
    found = here ++ [name].filter (· ≠ dot) := by
  unfold enter at h
  by_cases hdot : name = dot
  · rw [if_pos hdot] at h
    cases h
    simp [hdot]
  · rw [if_neg hdot, if_neg hparent] at h
    split at h
    · cases h
    · cases h
    · cases h
    · cases h
      simp [hdot]

theorem openEntry_ok {place arrived : Location} {inode : Option Inode}
    (h : openEntry t flags slash place arrived inode = .ok (found, t')) :
    found = arrived ∧ Opened t place t' := by
  rcases inode with _ | bytes | _ | _
  · simp only [openEntry] at h
    split at h
    · cases h
      exact ⟨rfl, .inr rfl⟩
    · cases h
  · simp only [openEntry] at h
    split at h
    · cases h
    · split at h
      · cases h
      · split at h
        · cases h
          exact ⟨rfl, .inr rfl⟩
        · cases h
          exact ⟨rfl, .inl rfl⟩
  · simp only [openEntry] at h
    split at h
    · cases h
    · split at h
      · cases h
      · cases h
        exact ⟨rfl, .inl rfl⟩
  · simp only [openEntry] at h
    split at h
    · cases h
    · cases h

theorem openLast_ok (hparent : name ≠ dotdot)
    (h : openLast t base flags slash here name = .ok (found, t')) :
    found = here ++ [name].filter (· ≠ dot) ∧ Opened t (base ++ found) t' := by
  unfold openLast at h
  by_cases hdot : name = dot
  · rw [if_pos (.inl hdot)] at h
    split at h
    · cases h
    · next arrived henter =>
        split at h
        · cases h
        · split at h
          · cases h
          · cases h
            exact ⟨enter_ok hparent henter, .inl rfl⟩
  · rw [if_neg (by simp [hdot, hparent])] at h
    split at h
    · cases h
    · obtain ⟨rfl, hopened⟩ := openEntry_ok h
      exact ⟨by simp [hdot], hopened⟩

/-- Without parents the names are gone down one after the other. -/
theorem walk_ok (hparent : dotdot ∉ names)
    (h : walk t base flags slash here names = .ok (found, t')) :
    found = here ++ names.filter (· ≠ dot) ∧ Opened t (base ++ found) t' := by
  induction names generalizing here with
  | nil => cases h
  | cons name names ih =>
      rw [List.mem_cons, not_or] at hparent
      cases names with
      | nil => exact openLast_ok (Ne.symm hparent.1) h
      | cons next names =>
          rw [walk] at h
          split at h
          · cases h
          · next arrived henter =>
              obtain ⟨hfound, hopened⟩ := ih hparent.2 h
              refine ⟨?_, hopened⟩
              rw [hfound, enter_ok (Ne.symm hparent.1) henter, List.append_assoc,
                ← List.filter_append, List.singleton_append]

theorem openat2_ok (hparent : dotdot ∉ namesOf raw)
    (h : openat2 t base raw flags = .ok (found, t')) :
    raw.head? ≠ some '/' ∧ found = (namesOf raw).filter (· ≠ dot) ∧
      Opened t (base ++ found) t' := by
  unfold openat2 at h
  split at h
  · cases h
  · split at h
    · cases h
    · next hrelative => exact ⟨hrelative, walk_ok hparent h⟩

/-- A single name that has to be new. -/
theorem openat2_exclusive (hslash : '/' ∉ raw) (hnul : '\x00' ∉ raw) (hraw : raw ≠ [])
    (hdot : raw ≠ dot) (hparent : raw ≠ dotdot) (hcreate : flags.create)
    (hexcl : flags.exclusive) :
    openat2 t base raw flags =
      if (t.lookup (base ++ [raw])).isSome then .error .exist
      else .ok ([raw], t.insert (base ++ [raw]) (.file [])) := by
  have hhead : raw.head? ≠ some '/' := fun h => hslash (List.mem_of_mem_head? h)
  have hlast : ¬ raw.getLast? = some '/' := fun h => hslash (List.mem_of_getLast? h)
  have hinode : t.inode (base ++ [raw]) = t.lookup (base ++ [raw]) := by simp [Tree.inode]
  rw [openat2, if_neg hnul, if_neg hhead, namesOf_of_not_mem hslash hraw, walk, openLast]
  rw [if_neg (by simp [hdot, hparent]), if_neg (by simp [hlast]), List.nil_append, hinode]
  cases hlookup : t.lookup (base ++ [raw]) with
  | none => simp [openEntry, hcreate]
  | some inode => simp [openEntry, hcreate, hexcl]

/-- What an open does to the tree, and that a directory is not opened for writing. -/
structure Reached (t : Tree) (flags : OpenFlags) (place : Location) (t' : Tree) : Prop where
  tree : t' = t ∨
    (flags.create = true ∨ flags.truncate = true) ∧ t' = t.insert place (.file [])
  notDir : flags.write = true → t.inode place ≠ some .dir

theorem openEntry_reached {place arrived : Location}
    (h : openEntry t flags slash place arrived (t.inode place) = .ok (found, t')) :
    Reached t flags place t' := by
  cases hinode : t.inode place with
  | none =>
      rw [hinode] at h
      simp only [openEntry] at h
      split at h
      next hcreate =>
        cases h
        exact ⟨.inr ⟨.inl hcreate, rfl⟩, fun _ => by simp [hinode]⟩
      next => cases h
  | some inode =>
      rw [hinode] at h
      cases inode with
      | symlink =>
          simp only [openEntry] at h
          split at h
          · cases h
          · cases h
      | dir =>
          simp only [openEntry] at h
          split at h
          · cases h
          · split at h
            next => cases h
            next hneither =>
              cases h
              rw [not_or] at hneither
              exact ⟨.inl rfl, fun hw => absurd hw hneither.2⟩
      | file bytes =>
          have hfile : t.inode place ≠ some .dir := by simp [hinode]
          simp only [openEntry] at h
          split at h
          · cases h
          · split at h
            · cases h
            · split at h
              next htruncate =>
                cases h
                exact ⟨.inr ⟨.inr htruncate, rfl⟩, fun _ => hfile⟩
              next =>
                cases h
                exact ⟨.inl rfl, fun _ => hfile⟩

theorem openLast_reached (h : openLast t base flags slash here name = .ok (found, t')) :
    Reached t flags (base ++ found) t' := by
  unfold openLast at h
  split at h
  · split at h
    · cases h
    · split at h
      · cases h
      · split at h
        next => cases h
        next hneither =>
          cases h
          rw [not_or] at hneither
          exact ⟨.inl rfl, fun hw => absurd hw hneither.2⟩
  · split at h
    · cases h
    · have hfound := (openEntry_ok h).1
      rw [hfound]
      exact openEntry_reached h

theorem walk_reached (h : walk t base flags slash here names = .ok (found, t')) :
    Reached t flags (base ++ found) t' := by
  induction names generalizing here with
  | nil => cases h
  | cons name names ih =>
      cases names with
      | nil => exact openLast_reached h
      | cons next names =>
          rw [walk] at h
          split at h
          · cases h
          · exact ih h

theorem openat2_reached (h : openat2 t base raw flags = .ok (found, t')) :
    Reached t flags (base ++ found) t' := by
  unfold openat2 at h
  split at h
  · cases h
  · split at h
    · cases h
    · exact walk_reached h

/-! ### Opening a file again -/

/-- Every directory is still one. -/
def KeepsDirs (t t' : Tree) : Prop :=
  ∀ place, t.inode place = some .dir → t'.inode place = some .dir

theorem keepsDirs_insert {place : Location} (hplace : t.inode place ≠ some .dir) (inode : Inode) :
    KeepsDirs t (t.insert place inode) := by
  intro other hother
  have hne : other ≠ place := by
    rintro rfl
    exact hplace hother
  unfold Tree.inode at hother ⊢
  split
  · rfl
  next hroot =>
    rw [if_neg hroot] at hother
    rw [AList.lookup_insert_ne hne]
    exact hother

theorem enter_keeps (hdirs : KeepsDirs t t') (h : enter t base here name = .ok found) :
    enter t' base here name = .ok found := by
  unfold enter at h ⊢
  split at h
  next hdot => rw [if_pos hdot, h]
  next hdot =>
    rw [if_neg hdot]
    split at h
    next hparent => rw [if_pos hparent, h]
    next hparent =>
      rw [if_neg hparent]
      split at h
      · cases h
      · cases h
      · cases h
      next hinode =>
        rw [hdirs _ hinode]
        exact h

/-- What has been created or truncated can be opened again the same way to read it. -/
theorem walk_again {bytes : List UInt8} (hdirs : KeepsDirs t t')
    (h : walk t base flags slash here names = .ok (found, t₁)) (hcreate : flags.create = true)
    (hfile : t'.inode (base ++ found) = some (.file bytes)) :
    walk t' base ⟨false, false, false, false, false⟩ slash here names = .ok (found, t') := by
  induction names generalizing here with
  | nil => cases h
  | cons name names ih =>
      cases names with
      | nil =>
          rw [walk] at h ⊢
          unfold openLast at h ⊢
          split at h
          · split at h
            · cases h
            · split at h
              · cases h
              · rw [if_pos (.inl hcreate)] at h
                cases h
          next hname =>
            rw [if_neg hname, if_neg (by simp)]
            split at h
            · cases h
            next hslash =>
              have hplain : slash = false := by simpa [hcreate] using hslash
              have hfound := (openEntry_ok h).1
              rw [hfound] at hfile
              rw [hfile, hfound]
              simp [openEntry, hplain]
      | cons next names =>
          rw [walk] at h ⊢
          split at h
          · cases h
          next arrived henter =>
            rw [enter_keeps hdirs henter]
            exact ih h

theorem openat2_again {bytes : List UInt8} (hdirs : KeepsDirs t t')
    (h : openat2 t base raw flags = .ok (found, t₁)) (hcreate : flags.create = true)
    (hfile : t'.inode (base ++ found) = some (.file bytes)) :
    openat2 t' base raw ⟨false, false, false, false, false⟩ = .ok (found, t') := by
  unfold openat2 at h ⊢
  split at h
  · cases h
  next hnul =>
    rw [if_neg hnul]
    split at h
    · cases h
    next hroot =>
      rw [if_neg hroot]
      exact walk_again hdirs h hcreate hfile

end

end DdsOrchestrator.FileTree
