import DdsOrchestrator.McpGateway.Sandbox
import DdsOrchestrator.StudioSsh.LossyText

/-!
Files that are written and read by the tools. A text that has been written is what every read of
the file gives, by whatever path it gets there and whatever other tools and claims have done in
between, until somebody writes the file again.
-/

namespace DdsOrchestrator.McpGateway

open FileTree StudioSsh

/-- Where a path leads. -/
def placeOf (raw : String) : Location := (components raw.toList).filterMap Component.name?

/-- The call may write the file at the place. -/
def WritesAt (place : Location) : SandboxStep → Prop
  | .tool (.write raw _) _ => placeOf raw = place
  | .tool (.read _ _) _ | .tool (.list _ _) _ | .claim _ => False

variable {t t' : Tree} {raw : String} {flags : OpenFlags} {io : FsIo} {found place : Location}
variable {content : List UInt8} {step : SandboxStep}

/-! ### One call -/

theorem openBeneath_reached (h : openBeneath t raw flags io = .ok (found, t')) :
    io.denied = none ∧ validateRelative raw = .ok () ∧
      openat2 t [] raw.toList flags = .ok (found, t') := by
  unfold openBeneath at h
  split at h
  · cases h
  next hvalid =>
    split at h
    · cases h
    next opened hopen =>
      cases h
      cases hdenied : io.denied with
      | some e =>
          rw [hdenied] at hopen
          cases hopen
      | none =>
          rw [hdenied] at hopen
          exact ⟨rfl, hvalid, hopen⟩

/-- What a call that succeeds in opening for writing does to the tree. -/
theorem write_cases (t : Tree) (raw : String) (content : List UInt8) (io : FsIo) :
    (write t raw content io).2 = t ∨ ∃ bytes, t.inode (placeOf raw) ≠ some .dir ∧
      claimsDir ∉ placeOf raw ∧
        (write t raw content io).2 = t.insert (placeOf raw) (.file bytes) := by
  obtain hsame | ⟨found, t', bytes, hopen, htree⟩ := write_tree t raw content io
  · exact .inl hsame
  · obtain ⟨-, -, hopenat⟩ := openBeneath_reached hopen
    have hreached := openat2_reached hopenat
    have hbelow := openBeneath_ok hopen
    rw [List.nil_append] at hreached
    rw [hbelow.found_eq] at hreached htree
    have hclaims := hbelow.noClaims
    rw [hbelow.found_eq] at hclaims
    refine .inr ⟨bytes, hreached.notDir rfl, hclaims, ?_⟩
    rcases hreached.tree with hsame | ⟨-, hinsert⟩
    · rw [htree, hsame]
      rfl
    · rw [htree, hinsert, AList.insert_insert]
      rfl

theorem read_same (t : Tree) (raw : String) (max : ℕ) (io : FsIo) :
    (read t raw max io).2 = t := by
  obtain hsame | ⟨found, hopen⟩ := read_tree t raw max io
  · exact hsame
  · obtain ⟨-, -, hopenat⟩ := openBeneath_reached hopen
    exact (openat2_reached hopenat).tree.resolve_right (by simp [readFlags])

theorem list_same (t : Tree) (raw : String) (max : ℕ) (io : FsIo) :
    (list t raw max io).2 = t := by
  obtain hsame | ⟨found, hopen⟩ := list_tree t raw max io
  · exact hsame
  · obtain ⟨-, -, hopenat⟩ := openBeneath_reached hopen
    exact (openat2_reached hopenat).tree.resolve_right (by simp [listFlags])

/-- An attempt at a claim makes a file in the directory of the claims, or nothing. -/
theorem claim_cases (t : Tree) (callId : String) (owner : OwnerId) (io : Storage) :
    (fileTryClaim t callId owner io).2 = t ∨ ∃ name bytes, t.inode [claimsDir, name] ≠ some .dir ∧
      (fileTryClaim t callId owner io).2 = t.insert [claimsDir, name] (.file bytes) := by
  unfold fileTryClaim
  cases hvalid : validateCallId callId with
  | error e => exact .inl rfl
  | ok u =>
      have hcall : callId ≠ "" := by
        rintro rfl
        cases hvalid
      cases hopen : io.openError with
      | some text => exact .inl rfl
      | none =>
          obtain ⟨hslash, hnul, hempty, hdots⟩ := hexName_plain hcall
          have hdot : (hexName callId).toList ≠ dot := by
            intro hdot
            rw [hdot] at hdots
            exact hdots (List.mem_singleton_self _)
          have hdotdot : (hexName callId).toList ≠ dotdot := by
            intro hdotdot
            rw [hdotdot] at hdots
            exact hdots List.mem_cons_self
          dsimp only
          rw [openat2_exclusive hslash hnul hempty hdot hdotdot rfl rfl, List.singleton_append]
          by_cases hthere : (t.lookup [claimsDir, (hexName callId).toList]).isSome
          · rw [if_pos hthere]
            exact .inl rfl
          · rw [if_neg hthere]
            have hnot : t.inode [claimsDir, (hexName callId).toList] ≠ some .dir := by
              intro hdir
              have hlookup : t.lookup [claimsDir, (hexName callId).toList] = some .dir := hdir
              rw [hlookup] at hthere
              exact hthere rfl
            cases io.writeError with
            | some text => exact .inr ⟨_, _, hnot, rfl⟩
            | none => exact .inr ⟨_, _, hnot, AList.insert_insert _⟩

/-- What a step does to the tree: nothing, or it makes or fills a file, which is the one of its
path or one in the directory of the claims. -/
theorem step_tree (t : Tree) (step : SandboxStep) : step.after t = t ∨
    ∃ at_ bytes, t.inode at_ ≠ some .dir ∧ (WritesAt at_ step ∨ claimsDir ∈ at_) ∧
      step.after t = t.insert at_ (.file bytes) := by
  cases step with
  | tool call io =>
      cases call with
      | read raw max => exact .inl (read_same t raw max io)
      | list raw max => exact .inl (list_same t raw max io)
      | write raw content =>
          refine (write_cases t raw content io).imp_right ?_
          rintro ⟨bytes, hnot, -, htree⟩
          exact ⟨placeOf raw, bytes, hnot, .inl rfl, htree⟩
  | claim a =>
      refine (claim_cases t a.callId a.owner a.io).imp_right ?_
      rintro ⟨name, bytes, hnot, htree⟩
      exact ⟨_, bytes, hnot, .inr List.mem_cons_self, htree⟩

/-! ### A run -/

theorem keepsDirs_after (t : Tree) (step : SandboxStep) : KeepsDirs t (step.after t) := by
  rcases step_tree t step with hsame | ⟨at_, bytes, hnot, -, htree⟩
  · rw [hsame]
    exact fun _ h => h
  · rw [htree]
    exact keepsDirs_insert hnot _

theorem keepsDirs_run (steps : List SandboxStep) (t : Tree) :
    KeepsDirs t (steps.foldl SandboxStep.after t) := by
  induction steps generalizing t with
  | nil => exact fun _ h => h
  | cons step steps ih =>
      exact fun place h => ih (step.after t) place (keepsDirs_after t step place h)

theorem lookup_after (hclaims : claimsDir ∉ place) (hnot : ¬ WritesAt place step) :
    (step.after t).lookup place = t.lookup place := by
  rcases step_tree t step with hsame | ⟨at_, bytes, -, hat, htree⟩
  · rw [hsame]
  · have hne : place ≠ at_ := by
      rintro rfl
      exact hat.elim hnot hclaims
    rw [htree, AList.lookup_insert_ne hne]

theorem lookup_run (hclaims : claimsDir ∉ place) (steps : List SandboxStep)
    (hnot : ∀ step ∈ steps, ¬ WritesAt place step) (t : Tree) :
    (steps.foldl SandboxStep.after t).lookup place = t.lookup place := by
  induction steps generalizing t with
  | nil => rfl
  | cons step steps ih =>
      rw [List.foldl_cons, ih (fun s hs => hnot s (List.mem_cons_of_mem _ hs)),
        lookup_after hclaims (hnot step List.mem_cons_self)]

/-! ### Reading what was written -/

/-- A write that succeeds has opened the file of its path and filled it. -/
theorem write_ok (h : (write t raw content io).1 = .ok ()) :
    (∃ t', openat2 t [] raw.toList writeFlags = .ok (placeOf raw, t')) ∧
      validateRelative raw = .ok () ∧ claimsDir ∉ placeOf raw ∧ placeOf raw ≠ [] ∧
      t.inode (placeOf raw) ≠ some .dir ∧
      (write t raw content io).2.lookup (placeOf raw) = some (.file content) := by
  unfold write at h ⊢
  cases hopen : openBeneath t raw writeFlags io with
  | error e =>
      rw [hopen] at h
      cases h
  | ok opened =>
      rw [hopen] at h
      obtain ⟨found, t'⟩ := opened
      obtain ⟨-, hvalid, hopenat⟩ := openBeneath_reached hopen
      have hbelow := openBeneath_ok hopen
      have hfound : found = placeOf raw := hbelow.found_eq
      subst hfound
      have hnot : t.inode (placeOf raw) ≠ some .dir := by
        simpa using (openat2_reached hopenat).notDir rfl
      have hroot : placeOf raw ≠ [] := by
        intro hnil
        rw [hnil] at hnot
        exact hnot rfl
      dsimp only at h ⊢
      cases hfailed : io.failed with
      | some failed =>
          rw [hfailed] at h
          cases h
      | none => exact ⟨⟨t', hopenat⟩, hvalid, hbelow.noClaims, hroot, hnot, AList.lookup_insert _⟩

theorem inode_of_lookup {inode : Inode} (hroot : place ≠ []) (h : t.lookup place = some inode) :
    t.inode place = some inode := by
  rw [Tree.inode, if_neg hroot, h]

/-- Every read that succeeds gives the text of the file. -/
theorem read_ok {s text : String} {max : ℕ} (hroot : placeOf raw ≠ [])
    (hfile : t.lookup (placeOf raw) = some (.file (Utf8.asBytes s)))
    (h : (read t raw max io).1 = .ok text) : text = s := by
  unfold read at h
  cases hopen : openBeneath t raw readFlags io with
  | error e =>
      rw [hopen] at h
      cases h
  | ok opened =>
      rw [hopen] at h
      obtain ⟨found, t'⟩ := opened
      obtain ⟨-, -, hopenat⟩ := openBeneath_reached hopen
      have hfound : found = placeOf raw := (openBeneath_ok hopen).found_eq
      have hsame : t' = t := (openat2_reached hopenat).tree.resolve_right (by simp [readFlags])
      subst hfound
      subst hsame
      dsimp only at h
      rw [inode_of_lookup hroot hfile] at h
      dsimp only at h
      split at h
      · cases h
      · cases hfailed : io.failed with
        | some failed =>
            rw [hfailed] at h
            cases h
        | none =>
            rw [hfailed, fromUtf8Lossy_asBytes] at h
            exact (Except.ok.inj h).symm

/-- A file that was opened by a path to be written is read by it. -/
theorem read_again {s : String} {max : ℕ} {t₀ t₁ : Tree} (hdirs : KeepsDirs t₀ t)
    (hopen : openat2 t₀ [] raw.toList writeFlags = .ok (placeOf raw, t₁))
    (hvalid : validateRelative raw = .ok ()) (hroot : placeOf raw ≠ [])
    (hfile : t.lookup (placeOf raw) = some (.file (Utf8.asBytes s)))
    (hmax : s.utf8ByteSize ≤ max) (hdenied : io.denied = none) (hfailed : io.failed = none) :
    (read t raw max io).1 = .ok s := by
  have hinode := inode_of_lookup hroot hfile
  have hagain : openat2 t [] raw.toList readFlags = .ok (placeOf raw, t) :=
    openat2_again hdirs hopen rfl hinode
  have hbeneath : openBeneath t raw readFlags io = .ok (placeOf raw, t) := by
    rw [openBeneath, hvalid, hdenied]
    dsimp only [Option.elim]
    rw [hagain]
  have hsize : ¬ max < (Utf8.asBytes s).length := by
    rw [Utf8.length_asBytes]
    omega
  rw [read, hbeneath]
  dsimp only
  rw [hinode]
  dsimp only
  rw [if_neg hsize, hfailed, fromUtf8Lossy_asBytes]

/-- The tools keep files. Once a text has been written, and as long as nobody writes the same
file, no sequence of other calls and of claims changes what is read: every read that succeeds by
any path to the file gives the text, and by the path under which it was written a read does
succeed, if the text is not too large for it and the system does not fail. -/
theorem written_text_is_read_back (t : Tree) (raw s : String) (io : FsIo)
    (hwrite : (write t raw (Utf8.asBytes s) io).1 = .ok ()) (steps : List SandboxStep)
    (hnot : ∀ step ∈ steps, ¬ WritesAt (placeOf raw) step) :
    let t' := steps.foldl SandboxStep.after (write t raw (Utf8.asBytes s) io).2
    (∀ raw' max io' text, placeOf raw' = placeOf raw → (read t' raw' max io').1 = .ok text →
      text = s) ∧
    ∀ max io', s.utf8ByteSize ≤ max → io'.denied = none → io'.failed = none →
      (read t' raw max io').1 = .ok s := by
  intro t'
  obtain ⟨⟨t₁, hopen⟩, hvalid, hclaims, hroot, -, hfile⟩ := write_ok hwrite
  have hkept : t'.lookup (placeOf raw) = some (.file (Utf8.asBytes s)) := by
    rw [lookup_run hclaims steps hnot, hfile]
  refine ⟨fun raw' max io' text hplace hread => ?_, fun max io' hmax hdenied hfailed => ?_⟩
  · rw [← hplace] at hkept hroot
    exact read_ok hroot hkept hread
  · have hfirst : KeepsDirs t (write t raw (Utf8.asBytes s) io).2 :=
      keepsDirs_after t (.tool (.write raw (Utf8.asBytes s)) io)
    have hdirs : KeepsDirs t t' := fun place h => keepsDirs_run steps _ place (hfirst place h)
    exact read_again hdirs hopen hvalid hroot hkept hmax hdenied hfailed

/-- A file is written and read while another one is written. -/
theorem written_text_is_read_back_notes :
    let io : FsIo := ⟨none, none⟩
    let t' := [SandboxStep.tool (.write "todo" []) io].foldl SandboxStep.after
      (write ∅ "notes" (Utf8.asBytes "olá") io).2
    (∀ raw' max io' text, placeOf raw' = placeOf "notes" → (read t' raw' max io').1 = .ok text →
      text = "olá") ∧
    ∀ max io', "olá".utf8ByteSize ≤ max → io'.denied = none → io'.failed = none →
      (read t' "notes" max io').1 = .ok "olá" :=
  written_text_is_read_back ∅ "notes" "olá" ⟨none, none⟩ rfl _ (by
    intro step hstep
    rw [List.mem_singleton.mp hstep]
    show ¬ placeOf "todo" = placeOf "notes"
    decide)

end DdsOrchestrator.McpGateway
