import DdsOrchestrator.Lib.FileTree
import DdsOrchestrator.McpGateway.Service
import DdsOrchestrator.McpGateway.StoreAgreement
import DdsOrchestrator.StudioSsh.Bridge

/-!
The sandbox of the tools that work on files, and the claims beside their files. A path is
checked by its components and opened by its string, and the claims are files in a directory
of the same root; no call of a tool comes near them, so that the claims of a gateway are what
they would be if no tool had ever been called.
-/

namespace DdsOrchestrator.McpGateway

open FileTree StudioSsh

/-- The directory of the claims. -/
def claimsDir : Name := ".mcp-claims".toList

def Errno.text : Errno → String
  | .noent => "No such file or directory (os error 2)"
  | .exist => "File exists (os error 17)"
  | .notdir => "Not a directory (os error 20)"
  | .isdir => "Is a directory (os error 21)"
  | .inval => "Invalid argument (os error 22)"
  | .loop => "Too many levels of symbolic links (os error 40)"
  | .xdev => "Invalid cross-device link (os error 18)"
  | .other text => text

/-! ### The sandbox -/

def isTraversal : Component → Bool
  | .normal name => name = claimsDir
  | .parentDir | .rootDir => true
  | .curDir => false

def validateRelative (raw : String) : Except ToolError Unit :=
  if raw = "" then .error (.invalidArguments "path vazio")
  else if (components raw.toList).any isTraversal then .error (.pathTraversal raw)
  else .ok ()

example : validateRelative "notes/./.mcp-claims//claim" =
    .error (.pathTraversal "notes/./.mcp-claims//claim") := by decide

def mapOpenError (raw : String) : Errno → ToolError
  | .noent => .notFound raw
  | .loop | .xdev => .pathTraversal raw
  | other => .io (Errno.text other)

/-- What the file system answers during one call: an error of the open for a reason of its
own, and an error behind so many bytes or entries. -/
structure FsIo where
  denied : Option Errno
  failed : Option (ℕ × String)

/-- The tree is that of the root. -/
def openBeneath (t : Tree) (raw : String) (flags : OpenFlags) (io : FsIo) :
    Except ToolError (Location × Tree) :=
  match validateRelative raw with
  | .error e => .error e
  | .ok () =>
      match io.denied.elim (openat2 t [] raw.toList flags) .error with
      | .error e => .error (mapOpenError raw e)
      | .ok opened => .ok opened

def readFlags : OpenFlags := ⟨false, false, false, false, false⟩

def writeFlags : OpenFlags := ⟨true, true, false, true, false⟩

def listFlags : OpenFlags := ⟨false, false, false, false, true⟩

def read (t : Tree) (raw : String) (max : ℕ) (io : FsIo) : Except ToolError String × Tree :=
  match openBeneath t raw readFlags io with
  | .error e => (.error e, t)
  | .ok (found, t) =>
      match t.inode found with
      | some (.file bytes) =>
          if max < bytes.length then (.error (.tooLarge bytes.length max), t)
          else
            match io.failed with
            | some (_, err) => (.error (.io err), t)
            | none => (.ok (fromUtf8Lossy bytes), t)
      | _ =>
          (.error (.invalidArguments
            ("'" ++ raw ++ "' é um diretório (use filesystem.list_directory)")), t)

/-- The file is empty when it is opened. -/
def write (t : Tree) (raw : String) (content : List UInt8) (io : FsIo) :
    Except ToolError Unit × Tree :=
  match openBeneath t raw writeFlags io with
  | .error e => (.error e, t)
  | .ok (found, t) =>
      match io.failed with
      | some (written, err) => (.error (.io err), t.insert found (.file (content.take written)))
      | none => (.ok (), t.insert found (.file content))

/-- What is read of a directory. -/
def readDir (t : Tree) (here : Location) : List (Name × Inode) :=
  (dot, .dir) :: (dotdot, .dir) ::
    t.entries.filterMap fun e =>
      if e.1.dropLast = here then e.1.getLast?.map fun name => (name, e.2) else none

def entryLine (entry : Name × Inode) : String :=
  (if entry.2 = .dir then "[DIR]" else "[FILE]") ++ " " ++ String.ofList entry.1

def list (t : Tree) (raw : String) (max : ℕ) (io : FsIo) : Except ToolError String × Tree :=
  match openBeneath t raw listFlags io with
  | .error e => (.error e, t)
  | .ok (found, t) =>
      match io.failed with
      | some (_, err) => (.error (.io err), t)
      | none =>
          let shown := (readDir t found).filter fun entry =>
            entry.1 ≠ dot ∧ entry.1 ≠ dotdot ∧ entry.1 ≠ claimsDir
          let entries := (shown.map entryLine).mergeSort fun a b => decide (a ≤ b)
          let omitted := entries.length - max
          let entries :=
            if max < entries.length then
              entries.take max ++ ["... (" ++ toString omitted ++ " entradas omitidas)"]
            else entries
          (.ok ("\n".intercalate entries), t)

/-! ### Calls of the tools -/

inductive FsCall where
  | read (raw : String) (max : ℕ)
  | write (raw : String) (content : List UInt8)
  | list (raw : String) (max : ℕ)

namespace FsCall

def path : FsCall → String
  | read raw _ | write raw _ | list raw _ => raw

def flags : FsCall → OpenFlags
  | read _ _ => readFlags
  | write _ _ => writeFlags
  | list _ _ => listFlags

/-- The tree behind a call. -/
def after (t : Tree) (io : FsIo) : FsCall → Tree
  | read raw max => (McpGateway.read t raw max io).2
  | write raw content => (McpGateway.write t raw content io).2
  | list raw max => (McpGateway.list t raw max io).2

/-- What a call opens. -/
def opened (t : Tree) (io : FsIo) (call : FsCall) : Option Location :=
  match openBeneath t call.path call.flags io with
  | .error _ => none
  | .ok (found, _) => some found

end FsCall

/-! ### Claims as files -/

/-- An attempt at a claim on the directory, which is held open. -/
def fileTryClaim (t : Tree) (callId : String) (owner : OwnerId) (io : Storage) :
    Except ClaimError ClaimDecision × Tree :=
  match validateCallId callId with
  | .error e => (.error e, t)
  | .ok _ =>
      match io.openError with
      | some text => (.error (.io text), t)
      | none =>
          match openat2 t [claimsDir] (hexName callId).toList ⟨true, true, true, false, false⟩ with
          | .error .exist => (.ok .alreadyClaimed, t)
          | .error e => (.error (.io (Errno.text e)), t)
          | .ok (found, t) =>
              match io.writeError with
              | some text => (.error (.io text), t)
              | none =>
                  (.ok .won, t.insert (claimsDir :: found)
                    (.file owner.raw.toByteArray.data.toList))

structure Attempt where
  callId : String
  owner : OwnerId
  io : Storage

inductive SandboxStep where
  | tool (call : FsCall) (io : FsIo)
  | claim (attempt : Attempt)

namespace SandboxStep

def after (t : Tree) : SandboxStep → Tree
  | tool call io => call.after t io
  | claim a => (fileTryClaim t a.callId a.owner a.io).2

def decided (t : Tree) : SandboxStep → List (Except ClaimError ClaimDecision)
  | tool _ _ => []
  | claim a => [(fileTryClaim t a.callId a.owner a.io).1]

def attempt? : SandboxStep → Option Attempt
  | tool _ _ => none
  | claim a => some a

end SandboxStep

/-- The attempts on a store alone. -/
def Attempt.after (store : ClaimStore) (a : Attempt) : ClaimStore :=
  (store.tryClaim a.io a.callId a.owner).2

def Attempt.decided (store : ClaimStore) (a : Attempt) : List (Except ClaimError ClaimDecision) :=
  [(store.tryClaim a.io a.callId a.owner).1]

/-- The files in the directory of the claims. -/
def claimFiles (t : Tree) : List String :=
  t.entries.filterMap fun e =>
    if e.1.dropLast = [claimsDir] then e.1.getLast?.map String.ofList else none

/-! ### What the check lets through -/

section

variable {t t' : Tree} {raw : String} {flags : OpenFlags} {io : FsIo} {found place : Location}

theorem isTraversal_iff {c : Component} :
    isTraversal c ↔ c = .rootDir ∨ c = .parentDir ∨ c = .normal claimsDir := by
  cases c with
  | rootDir => simp [isTraversal]
  | curDir => simp [isTraversal]
  | parentDir => simp [isTraversal]
  | normal name => simp [isTraversal]

theorem claimsDir_ordinary : claimsDir ≠ [] ∧ claimsDir ≠ dot ∧ claimsDir ≠ dotdot := by
  decide

/-- A path is refused for its root, a parent or the claims, and for nothing else. -/
theorem validateRelative_eq_ok : validateRelative raw = .ok () ↔
    raw ≠ "" ∧ raw.toList.head? ≠ some '/' ∧ dotdot ∉ raw.toList.splitOn '/' ∧
      claimsDir ∉ raw.toList.splitOn '/' := by
  have hany : (components raw.toList).any isTraversal ↔ raw.toList.head? = some '/' ∨
      dotdot ∈ raw.toList.splitOn '/' ∨ claimsDir ∈ raw.toList.splitOn '/' := by
    have hparent : dotdot ≠ [] := by decide
    obtain ⟨hempty, hdot, hdotdot⟩ := claimsDir_ordinary
    simp only [List.any_eq_true, isTraversal_iff, and_or_left, exists_or, exists_eq_right,
      rootDir_mem_components, parentDir_mem_components, normal_mem_components, mem_namesOf]
    simp [hparent, hempty, hdot, hdotdot]
  unfold validateRelative
  by_cases hraw : raw = ""
  · simp [hraw]
  · rw [if_neg hraw]
    by_cases hrefused : (components raw.toList).any isTraversal
    · rw [if_pos hrefused]
      rcases hany.mp hrefused with h | h | h
      · simp [h]
      · simp [h]
      · simp [h]
    · rw [if_neg hrefused]
      rw [hany, not_or, not_or] at hrefused
      exact iff_of_true rfl ⟨hraw, hrefused⟩

/-- What was opened is where the pieces of the path lead. -/
structure OpenedBeneath (t : Tree) (raw : String) (found : Location) (t' : Tree) : Prop where
  relative : raw.toList.head? ≠ some '/'
  noParent : dotdot ∉ raw.toList.splitOn '/'
  found_eq : found = (components raw.toList).filterMap Component.name?
  noClaims : claimsDir ∉ found
  tree : Opened t found t'

theorem openBeneath_ok (h : openBeneath t raw flags io = .ok (found, t')) :
    OpenedBeneath t raw found t' := by
  unfold openBeneath at h
  split at h
  · cases h
  · next hvalid =>
      obtain ⟨-, hrelative, hparent, hclaims⟩ := validateRelative_eq_ok.mp hvalid
      have hparents : dotdot ∉ namesOf raw.toList := fun h => hparent (mem_namesOf.mp h).1
      split at h
      · cases h
      · next opened hopen =>
          cases h
          cases hdenied : io.denied with
          | some e =>
              rw [hdenied] at hopen
              cases hopen
          | none =>
              rw [hdenied] at hopen
              obtain ⟨-, hfound, htree⟩ := openat2_ok hparents hopen
              refine ⟨hrelative, hparent, ?_, ?_, htree⟩
              · rw [components_filterMap_name? hparents, hfound]
              · rw [hfound]
                intro hmem
                exact hclaims (mem_namesOf.mp (List.mem_filter.mp hmem).1).1

/-! ### One call -/

/-- A call opens nothing of the claims, nothing by an absolute path or a parent, and leaves
the claims as they are. -/
structure SparesClaims (t : Tree) (call : FsCall) (io : FsIo) : Prop where
  relative : call.opened t io ≠ none → call.path.toList.head? ≠ some '/'
  noParent : call.opened t io ≠ none → dotdot ∉ call.path.toList.splitOn '/'
  opened : ∀ found, call.opened t io = some found →
    found = (components call.path.toList).filterMap Component.name? ∧ claimsDir ∉ found
  unchanged : ∀ place, claimsDir ∈ place → (call.after t io).lookup place = t.lookup place

theorem read_tree (t : Tree) (raw : String) (max : ℕ) (io : FsIo) :
    (read t raw max io).2 = t ∨
    ∃ found, openBeneath t raw readFlags io = .ok (found, (read t raw max io).2) := by
  unfold read
  cases hopen : openBeneath t raw readFlags io with
  | error e => exact .inl rfl
  | ok opened =>
      refine .inr ⟨opened.1, ?_⟩
      dsimp only
      split
      · split
        · rfl
        · split
          · rfl
          · rfl
      · rfl

theorem list_tree (t : Tree) (raw : String) (max : ℕ) (io : FsIo) :
    (list t raw max io).2 = t ∨
    ∃ found, openBeneath t raw listFlags io = .ok (found, (list t raw max io).2) := by
  unfold list
  cases hopen : openBeneath t raw listFlags io with
  | error e => exact .inl rfl
  | ok opened =>
      refine .inr ⟨opened.1, ?_⟩
      dsimp only
      split
      · rfl
      · rfl

theorem write_tree (t : Tree) (raw : String) (content : List UInt8) (io : FsIo) :
    (write t raw content io).2 = t ∨
    ∃ found t' bytes, openBeneath t raw writeFlags io = .ok (found, t') ∧
      (write t raw content io).2 = t'.insert found (.file bytes) := by
  unfold write
  cases hopen : openBeneath t raw writeFlags io with
  | error e => exact .inl rfl
  | ok opened =>
      refine .inr ⟨opened.1, opened.2, ?_⟩
      dsimp only
      split
      · exact ⟨_, rfl, rfl⟩
      · exact ⟨_, rfl, rfl⟩

theorem OpenedBeneath.lookup (h : OpenedBeneath t raw found t') (hplace : claimsDir ∈ place) :
    t'.lookup place = t.lookup place :=
  h.tree.lookup (ne_of_mem_of_not_mem' hplace h.noClaims)

theorem spares_claims (t : Tree) (call : FsCall) (io : FsIo) : SparesClaims t call io := by
  have hbeneath : ∀ found, call.opened t io = some found →
      ∃ t', OpenedBeneath t call.path found t' := by
    intro found hfound
    unfold FsCall.opened at hfound
    split at hfound
    · cases hfound
    · next _ t' hopen =>
        cases hfound
        exact ⟨t', openBeneath_ok hopen⟩
  refine ⟨fun hopen => ?_, fun hopen => ?_, fun found hfound => ?_, fun place hplace => ?_⟩
  · obtain ⟨found, hfound⟩ := Option.ne_none_iff_exists'.mp hopen
    obtain ⟨t', h⟩ := hbeneath found hfound
    exact h.relative
  · obtain ⟨found, hfound⟩ := Option.ne_none_iff_exists'.mp hopen
    obtain ⟨t', h⟩ := hbeneath found hfound
    exact h.noParent
  · obtain ⟨t', h⟩ := hbeneath found hfound
    exact ⟨h.found_eq, h.noClaims⟩
  · cases call with
    | read raw max =>
        obtain hsame | ⟨found, hopen⟩ := read_tree t raw max io
        · rw [FsCall.after, hsame]
        · exact (openBeneath_ok hopen).lookup hplace
    | write raw content =>
        obtain hsame | ⟨found, t', bytes, hopen, htree⟩ := write_tree t raw content io
        · rw [FsCall.after, hsame]
        · have hbelow := openBeneath_ok hopen
          rw [FsCall.after, htree,
            AList.lookup_insert_ne (ne_of_mem_of_not_mem' hplace hbelow.noClaims),
            hbelow.lookup hplace]
    | list raw max =>
        obtain hsame | ⟨found, hopen⟩ := list_tree t raw max io
        · rw [FsCall.after, hsame]
        · exact (openBeneath_ok hopen).lookup hplace

end

/-! ### The claims of a run -/

section

variable {t : Tree} {names : List String} {callId : String}

/-- The store has the files that are in the directory. -/
def Mirrors (t : Tree) (names : List String) : Prop :=
  ∀ name : String, (t.lookup [claimsDir, name.toList]).isSome ↔ name ∈ names

theorem mirrors_claimFiles (t : Tree) : Mirrors t (claimFiles t) := by
  intro name
  rw [claimFiles, List.mem_filterMap, Option.isSome_iff_exists]
  constructor
  · rintro ⟨inode, hlookup⟩
    refine ⟨⟨[claimsDir, name.toList], inode⟩, AList.mem_lookup_iff.mp hlookup, ?_⟩
    simp
  · rintro ⟨⟨place, inode⟩, hentry, hname⟩
    refine ⟨inode, AList.mem_lookup_iff.mpr ?_⟩
    dsimp only at hname
    split at hname
    · next hdir =>
        obtain ⟨last, hlast, rfl⟩ := Option.map_eq_some_iff.mp hname
        have hplace : place = [claimsDir, last] := by
          rw [← List.dropLast_append_getLast? last hlast, hdir]
          rfl
        rw [String.toList_ofList, ← hplace]
        exact hentry
    · cases hname

/-- A name of hexadecimal digits is one name, and no dot. -/
theorem hexName_plain (hcall : callId ≠ "") : '/' ∉ (hexName callId).toList ∧
    '\x00' ∉ (hexName callId).toList ∧ (hexName callId).toList ≠ [] ∧
    '.' ∉ (hexName callId).toList := by
  have hdigits : ∀ n : Fin 16, hexDigit n ≠ '/' ∧ hexDigit n ≠ '\x00' ∧ hexDigit n ≠ '.' := by
    decide
  have hchars : ∀ c ∈ (hexName callId).toList, c ≠ '/' ∧ c ≠ '\x00' ∧ c ≠ '.' := by
    rw [hexName, String.toList_ofList]
    intro c hc
    obtain ⟨byte, -, hbyte⟩ := List.mem_flatMap.mp hc
    have hlt := byte.toNat_lt
    rcases List.mem_cons.mp hbyte with rfl | hlow
    · exact hdigits ⟨byte.toNat / 16, by omega⟩
    · rw [List.mem_singleton.mp hlow]
      exact hdigits ⟨byte.toNat % 16, by omega⟩
  refine ⟨fun h => (hchars _ h).1 rfl, fun h => (hchars _ h).2.1 rfl, fun hempty => hcall ?_,
    fun h => (hchars _ h).2.2 rfl⟩
  apply hexName_injective
  rw [← String.toList_inj, hempty]
  rfl

theorem Mirrors.insert (h : Mirrors t names) {name : String} {inode : Inode} :
    Mirrors (t.insert [claimsDir, name.toList] inode) (name :: names) := by
  intro other
  rw [Map.lookup_insert_if, List.mem_cons]
  by_cases hsame : other = name
  · simp [hsame]
  · have hne : ¬ [claimsDir, other.toList] = [claimsDir, name.toList] := by
      simpa [String.toList_inj] using hsame
    rw [if_neg hne, h other, or_iff_right hsame]

/-- An attempt on the directory is an attempt on the store that has its files. -/
theorem fileTryClaim_mirrors (h : Mirrors t names) (callId : String) (owner : OwnerId)
    (io : Storage) :
    (fileTryClaim t callId owner io).1 = ((ClaimStore.file names).tryClaim io callId owner).1 ∧
    ∃ names', ((ClaimStore.file names).tryClaim io callId owner).2 = .file names' ∧
      Mirrors (fileTryClaim t callId owner io).2 names' := by
  unfold fileTryClaim ClaimStore.tryClaim
  cases hvalid : validateCallId callId with
  | error e => exact ⟨rfl, names, rfl, h⟩
  | ok u =>
      have hcall : callId ≠ "" := by
        rintro rfl
        cases hvalid
      cases hopen : io.openError with
      | some text => exact ⟨rfl, names, rfl, h⟩
      | none =>
          obtain ⟨hslash, hnul, hempty, hdots⟩ := hexName_plain hcall
          have hdot : (hexName callId).toList ≠ dot := by
            intro hdot
            rw [hdot] at hdots
            exact hdots (List.mem_singleton_self _)
          have hdotdot : (hexName callId).toList ≠ dotdot := by
            intro hdotdot
            rw [hdotdot] at hdots
            exact hdots List.mem_cons_self
          have hname := h (hexName callId)
          dsimp only
          rw [openat2_exclusive hslash hnul hempty hdot hdotdot rfl rfl, List.singleton_append]
          by_cases hmem : hexName callId ∈ names
          · rw [if_pos (hname.mpr hmem), if_pos hmem]
            exact ⟨rfl, names, rfl, h⟩
          · rw [if_neg (mt hname.mp hmem), if_neg hmem]
            cases io.writeError with
            | some text => exact ⟨rfl, _, rfl, h.insert⟩
            | none =>
                refine ⟨rfl, _, rfl, ?_⟩
                show Mirrors ((t.insert _ _).insert _ _) _
                rw [AList.insert_insert]
                exact h.insert

end

/-- The claims of a run in which tools are called are those of the store without them. -/
theorem decisions_of_run (steps : List SandboxStep) : ∀ {t : Tree} {names : List String},
    Mirrors t names →
    Machine.trace SandboxStep.after SandboxStep.decided t steps =
      Machine.trace Attempt.after Attempt.decided (.file names)
        (steps.filterMap SandboxStep.attempt?) := by
  induction steps with
  | nil =>
      intro t names _
      rfl
  | cons step steps ih =>
      intro t names h
      cases step with
      | tool call io =>
          refine ih fun name => ?_
          rw [← h name, SandboxStep.after,
            (spares_claims t call io).unchanged _ List.mem_cons_self]
      | claim a =>
          obtain ⟨hdecision, names', hstore, hmirrors⟩ :=
            fileTryClaim_mirrors h a.callId a.owner a.io
          have hdecided : SandboxStep.decided t (.claim a) = a.decided (.file names) :=
            congrArg (fun d => [d]) hdecision
          have hafter : a.after (.file names) = .file names' := hstore
          rw [List.filterMap_cons_some (by rfl), Machine.trace, Machine.trace, hdecided, hafter]
          exact congrArg _ (ih hmirrors)

/-- No call of a tool reaches the claims, whatever was done before it; the claims are decided
as if there were no tools; and a path is refused for no other reason. -/
theorem tools_spare_claims (t : Tree) (steps : List SandboxStep) :
    (∀ before call io after, steps = before ++ .tool call io :: after →
      SparesClaims (before.foldl SandboxStep.after t) call io) ∧
    Machine.trace SandboxStep.after SandboxStep.decided t steps =
      Machine.trace Attempt.after Attempt.decided (.file (claimFiles t))
        (steps.filterMap SandboxStep.attempt?) ∧
    ∀ raw, validateRelative raw = .ok () ↔
      raw ≠ "" ∧ raw.toList.head? ≠ some '/' ∧ dotdot ∉ raw.toList.splitOn '/' ∧
        claimsDir ∉ raw.toList.splitOn '/' :=
  ⟨fun _ call io _ _ => spares_claims _ call io, decisions_of_run steps (mirrors_claimFiles t),
    fun _ => validateRelative_eq_ok⟩

end DdsOrchestrator.McpGateway
