import DdsOrchestrator.Studio.Authority

/-!
Memory and journal of the authority. Whatever becomes of the appends, the file is the
lines of the calls that were acknowledged, each of which is accepted again in its turn;
so a boot on the file makes the catalog that is in memory.
-/

namespace DdsOrchestrator.Studio

open Catalog

/-- The file of accepted calls. -/
def journalOf (es : List JournalEntry) : ByteArray := LineFile.bytes Call.toText es

/-- Each call is accepted in its turn. -/
def AllAccepted (c : Catalog) (es : List JournalEntry) : Prop :=
  Machine.Along after (fun c e => ∃ r, (c.perform e).1 = .ok r) c es

/-- A call with what becomes of its append, or the process begins again with the file. -/
inductive AuthorityEvent where
  | call (entry : JournalEntry) (io : AppendIo)
  | restart

namespace CatalogAuthority

variable (serde : SerdeJson)

/-- A boot on the file that the process leaves. -/
def reboot (a : CatalogAuthority) : Except AuthorityError CatalogAuthority :=
  match a.journal with
  | none => .ok new
  | some j => withJournal serde j.path j.file

def content (a : CatalogAuthority) : ByteArray := (a.journal.map Journal.content).getD .empty

/-- A process that does not come up leaves everything as it is. -/
def step (a : CatalogAuthority) : AuthorityEvent → CatalogAuthority
  | .call entry io => (a.mutate serde entry io).2
  | .restart =>
      match a.reboot serde with
      | .ok a' => a'
      | .error _ => a

/-- The authority on a journal that does not exist. -/
def fresh (path : String) : CatalogAuthority := ⟨.new, some ⟨path, none⟩⟩

/-- The call of an event, with its revision, if it returned `Ok`. -/
def acknowledged (a : CatalogAuthority) : AuthorityEvent → List Accepted
  | .call entry io =>
      match (a.mutate serde entry io).1 with
      | .ok revision => [⟨entry, revision⟩]
      | .error _ => []
  | .restart => []

def afterEvents (path : String) (events : List AuthorityEvent) : CatalogAuthority :=
  events.foldl (step serde) (fresh path)

def ackedIn (path : String) (events : List AuthorityEvent) : List Accepted :=
  Machine.trace (step serde) (acknowledged serde) (fresh path) events

/-- The memory and the file have the calls `es` and nothing else. -/
structure Holds (path : String) (es : List JournalEntry) (a : CatalogAuthority) : Prop where
  catalog : a.catalog = run es
  journal : ∃ file, a.journal = some ⟨path, file⟩ ∧ file.getD .empty = journalOf es
  accepted : AllAccepted .new es

end CatalogAuthority

open CatalogAuthority

variable {serde : SerdeJson} {path : String} {es : List JournalEntry} {a : CatalogAuthority}

theorem run_concat (es : List JournalEntry) (e : JournalEntry) :
    run (es ++ [e]) = (run es).after e := by
  simp [run]

theorem history_concat (es : List JournalEntry) (e : JournalEntry) :
    history (es ++ [e]) = history es ++ (run es).accepted e := by
  rw [history, Machine.trace_append]
  simp [Machine.trace, history, run]

theorem trim_toText (e : JournalEntry) :
    Lines.trim e.toText.toList = e.toText.toList :=
  Lines.trim_eq_self e.head?_toText (by decide) e.getLast?_toText (by decide)

theorem lines_journalText (es : List JournalEntry) (rest : List Char) :
    Lines.lines ((LineFile.text Call.toText es).toList ++ rest) =
      es.map (fun e => e.toText.toList) ++ Lines.lines rest := by
  apply LineFile.lines_text
  · exact fun e => e.newline_notMem_toText
  · intro e
    rw [e.getLast?_toText]
    decide

section

variable (hread : ∀ e : JournalEntry, serde.entryFromStr e.toText = .ok e)
include hread

/-- A line of an accepted call makes the call. -/
theorem replayLines_cons {c : Catalog} {e : JournalEntry} {r : Revision}
    (hok : (c.perform e).1 = .ok r) (lines : List (List Char)) (lineNo : ℕ) :
    replayLines serde path (e.toText.toList :: lines) lineNo c =
      replayLines serde path lines (lineNo + 1) (c.after e) := by
  have hreplay : replay c e = (.ok (), c.after e) := by
    obtain ⟨e', he⟩ | ⟨r', c', hr, -⟩ := perform_cases c e
    · rw [he] at hok
      cases hok
    · simp only [replay, after, hr]
  rw [replayLines, trim_toText, if_neg e.toText_ne_nil, String.ofList_toList, hread]
  simp only [hreplay]

theorem replayLines_accepted {c : Catalog} (hes : AllAccepted c es) (lines : List (List Char))
    (lineNo : ℕ) :
    replayLines serde path (es.map (fun e => e.toText.toList) ++ lines) lineNo c =
      replayLines serde path lines (lineNo + es.length) (es.foldl after c) := by
  induction es generalizing c lineNo with
  | nil => rfl
  | cons e es ih =>
      obtain ⟨⟨r, hr⟩, hrest⟩ := hes
      rw [List.map_cons, List.cons_append, replayLines_cons hread hr, ih hrest,
        List.length_cons, List.foldl_cons, Nat.add_assoc, Nat.add_comm 1]

/-- A boot on the lines of accepted calls, and on a text behind them. -/
theorem rebuild_journalOf (hes : AllAccepted .new es) {file : Option ByteArray} (rest : String)
    (hfile : file.getD .empty = journalOf es ++ rest.toUTF8)
    (hjournal : a.journal = some ⟨path, file⟩) :
    rebuildFromJournal serde a =
      ((replayLines serde path (Lines.lines rest.toList) es.length (run es)).1,
        { a with catalog := (replayLines serde path (Lines.lines rest.toList) es.length
          (run es)).2 }) := by
  have hlines : replayLines serde path _ 0 .new = _ :=
    replayLines_accepted hread hes (Lines.lines rest.toList) 0
  rw [← lines_journalText, Nat.zero_add] at hlines
  have hdecode : String.fromUTF8? (file.getD .empty) =
      some (LineFile.text Call.toText es ++ rest) := by
    rw [hfile]
    exact LineFile.fromUTF8?_bytes Call.toText es rest
  cases file with
  | none =>
      -- no file: there is no line to read
      have hempty : (LineFile.text Call.toText es ++ rest).toList = [] := by
        have hbytes := Lines.fromUTF8?_eq_some_iff.mp hdecode
        have hnil : LineFile.text Call.toText es ++ rest = "" :=
          String.toByteArray_inj.mp hbytes.symm
        rw [hnil]
        rfl
      rw [String.toList_append] at hempty
      rw [hempty] at hlines
      have hnew : replayLines serde path (Lines.lines rest.toList) es.length (run es) =
          (.ok (), .new) := hlines.symm
      simp only [rebuildFromJournal, hjournal, hnew]
  | some bytes =>
      rw [Option.getD_some] at hdecode
      simp only [rebuildFromJournal, hjournal, hdecode, String.toList_append, hlines]
      rfl

theorem withJournal_journalOf (hes : AllAccepted .new es) {file : Option ByteArray}
    (hfile : file.getD .empty = journalOf es) :
    withJournal serde path file = .ok ⟨run es, some ⟨path, file⟩⟩ := by
  have hrebuild := rebuild_journalOf (a := ⟨.new, some ⟨path, file⟩⟩) hread hes ""
    (by rw [hfile]; exact ByteArray.append_empty.symm) rfl
  have hnone : replayLines serde path (Lines.lines "".toList) es.length (run es) =
      (.ok (), run es) := rfl
  rw [withJournal, hrebuild, hnone]

end

/-! ### One call -/

theorem truncate_append (file bytes : ByteArray) : (file ++ bytes).extract 0 file.size = file := by
  rw [ByteArray.extract_append_size_left, ByteArray.extract_zero_size]

theorem CatalogAuthority.Holds.content_eq (ha : Holds path es a) : a.content = journalOf es := by
  obtain ⟨file, hjournal, hfile⟩ := ha.journal
  rw [content, hjournal]
  exact hfile

/-- The line is in the file, or the file says what it said. -/
theorem append_cases {file : Option ByteArray} (hjournal : a.journal = some ⟨path, file⟩)
    (entry : JournalEntry) (io : AppendIo) :
    a.append entry io =
        (.ok (), { a with journal := some ⟨path, some (file.getD .empty ++ entry.line)⟩ }) ∨
      ∃ err file', a.append entry io = (.error err, { a with journal := some ⟨path, file'⟩ }) ∧
        file'.getD .empty = file.getD .empty := by
  simp only [append, hjournal]
  cases io with
  | ok => exact .inl rfl
  | openFails err => exact .inr ⟨_, file, by rw [← hjournal], rfl⟩
  | metadataFails err => exact .inr ⟨_, some (file.getD .empty), rfl, rfl⟩
  | writeFails written err => exact .inr ⟨_, _, rfl, truncate_append _ _⟩
  | syncFails err => exact .inr ⟨_, _, rfl, truncate_append _ _⟩

section

variable (hread : ∀ e : JournalEntry, serde.entryFromStr e.toText = .ok e)
include hread

/-- A call is refused or not journaled, and memory and file are as before; or it is
acknowledged, and both have it. -/
theorem CatalogAuthority.Holds.mutate (ha : Holds path es a) (entry : JournalEntry)
    (io : AppendIo) :
    (∃ e, (a.mutate serde entry io).1 = .error e ∧ Holds path es (a.mutate serde entry io).2) ∨
      ∃ r, (a.mutate serde entry io).1 = .ok r ∧ (a.catalog.perform entry).1 = .ok r ∧
        Holds path (es ++ [entry]) (a.mutate serde entry io).2 := by
  obtain ⟨file, hjournal, hfile⟩ := ha.journal
  obtain ⟨e, he⟩ | ⟨r, c', hok, -⟩ := perform_cases a.catalog entry
  · refine .inl ⟨.fromCatalog e, ?_⟩
    simp only [CatalogAuthority.mutate, he]
    exact ⟨trivial, ha⟩
  · simp only [CatalogAuthority.mutate, hok]
    obtain happend | ⟨err, file', happend, hfile'⟩ :=
      append_cases (a := { a with catalog := c' }) hjournal entry io
    · refine .inr ⟨r, ?_⟩
      rw [happend]
      refine ⟨rfl, rfl, ⟨?_, ⟨_, rfl, ?_⟩, ?_⟩⟩
      · rw [run_concat, ← ha.catalog, after, hok]
      · rw [Option.getD_some, hfile]
        exact (LineFile.bytes_concat Call.toText es entry).symm
      · refine Machine.along_concat.mpr ⟨ha.accepted, r, ?_⟩
        show ((run es).perform entry).1 = _
        rw [← ha.catalog, hok]
    · -- the file is as it was, and the replay of it undoes the call in memory
      have hundone := rebuild_journalOf
        (a := { a with catalog := c', journal := some ⟨path, file'⟩ }) hread ha.accepted ""
        (by rw [hfile', hfile]; exact ByteArray.append_empty.symm) rfl
      have hnone : replayLines serde path (Lines.lines "".toList) es.length (run es) =
          (.ok (), run es) := rfl
      rw [hnone] at hundone
      refine .inl ⟨err, ?_⟩
      rw [happend]
      simp only [hundone]
      exact ⟨trivial, ⟨rfl, ⟨file', rfl, hfile'.trans hfile⟩, ha.accepted⟩⟩

theorem CatalogAuthority.Holds.reboot (ha : Holds path es a) :
    ∃ a', a.reboot serde = .ok a' ∧ a'.catalog = a.catalog ∧ Holds path es a' := by
  obtain ⟨file, hjournal, hfile⟩ := ha.journal
  refine ⟨⟨run es, some ⟨path, file⟩⟩, ?_, ha.catalog.symm, rfl, ⟨file, rfl, hfile⟩, ha.accepted⟩
  rw [CatalogAuthority.reboot, hjournal]
  exact withJournal_journalOf hread ha.accepted hfile

/-- One event: what it acknowledges is behind what was there. -/
theorem CatalogAuthority.Holds.step (ha : Holds path es a) (event : AuthorityEvent) :
    Holds path (es ++ (a.acknowledged serde event).map Accepted.call) (a.step serde event) ∧
      history (es ++ (a.acknowledged serde event).map Accepted.call) =
        history es ++ a.acknowledged serde event := by
  cases event with
  | restart =>
      obtain ⟨a', ha', -, hholds⟩ := ha.reboot hread
      simp only [acknowledged, CatalogAuthority.step, ha', List.map_nil, List.append_nil]
      exact ⟨hholds, trivial⟩
  | call entry io =>
      obtain ⟨e, he, hholds⟩ | ⟨r, hr, hperform, hholds⟩ := ha.mutate hread entry io
      · simp only [acknowledged, he, CatalogAuthority.step, List.map_nil, List.append_nil]
        exact ⟨hholds, trivial⟩
      · simp only [acknowledged, hr, CatalogAuthority.step, List.map_cons, List.map_nil]
        refine ⟨hholds, ?_⟩
        rw [ha.catalog] at hperform
        rw [history_concat, accepted_eq_singleton hperform]

theorem holds_run (path : String) (events : List AuthorityEvent) :
    Holds path ((ackedIn serde path events).map Accepted.call) (afterEvents serde path events) ∧
      history ((ackedIn serde path events).map Accepted.call) = ackedIn serde path events := by
  have hrun : Machine.Along (CatalogAuthority.step serde) (fun _ _ => True) (fresh path) events :=
    Machine.along_iff_forall.mpr fun _ _ _ _ => trivial
  have hfresh : Holds path (List.map Accepted.call []) (fresh path) :=
    ⟨rfl, ⟨none, rfl, rfl⟩, trivial⟩
  refine hrun.trace_invariant_nil
    (I := fun acked a => Holds path (acked.map Accepted.call) a ∧
      history (acked.map Accepted.call) = acked) ⟨hfresh, rfl⟩ ?_
  rintro acked a event ⟨ha, hhistory⟩ -
  obtain ⟨hholds, hnext⟩ := ha.step hread event
  rw [List.map_append, hnext, hhistory]
  exact ⟨hholds, rfl⟩

end

/-- After any events a boot on the file makes the catalog that is in memory, a call that
fails changes neither of them, and what was acknowledged is the history of both. -/
theorem memory_eq_journal
    (hread : ∀ e : JournalEntry, serde.entryFromStr e.toText = .ok e) (path : String)
    (events : List AuthorityEvent) :
    (∃ a', (afterEvents serde path events).reboot serde = .ok a' ∧
      a'.catalog = (afterEvents serde path events).catalog) ∧
      (∀ entry io e, ((afterEvents serde path events).mutate serde entry io).1 = .error e →
        ((afterEvents serde path events).mutate serde entry io).2.catalog =
            (afterEvents serde path events).catalog ∧
          ((afterEvents serde path events).mutate serde entry io).2.content =
            (afterEvents serde path events).content) ∧
      (afterEvents serde path events).catalog =
        run ((ackedIn serde path events).map Accepted.call) ∧
      history ((ackedIn serde path events).map Accepted.call) = ackedIn serde path events := by
  obtain ⟨hholds, hhistory⟩ := holds_run hread path events
  refine ⟨?_, fun entry io e he => ?_, hholds.catalog, hhistory⟩
  · obtain ⟨a', hreboot, hcatalog, -⟩ := hholds.reboot hread
    exact ⟨a', hreboot, hcatalog⟩
  · obtain ⟨-, -, hafter⟩ | ⟨r, hr, -⟩ := hholds.mutate hread entry io
    · refine ⟨hafter.catalog.trans hholds.catalog.symm, ?_⟩
      rw [hafter.content_eq, hholds.content_eq]
    · rw [hr] at he
      cases he

/-- A reader that takes exactly the entries as they are written. -/
noncomputable def exactSerde : SerdeJson where
  entryFromStr text :=
    match Function.partialInv Call.toText text with
    | some e => .ok e
    | none => .error "expected value"

theorem exactSerde_read (e : JournalEntry) : exactSerde.entryFromStr e.toText = .ok e := by
  simp only [exactSerde, Function.partialInv_left Call.toText_injective e]

/-- A line that was written in part, and a restart behind it. -/
theorem disk_full_undone :
    ∃ a', (afterEvents exactSerde "catalog.jsonl"
      [.call (.publish "d" none "v1" 0) .ok, .call (.delete "d" 0) (.writeFails 5 "disk full"),
        .restart]).reboot exactSerde = .ok a' ∧
      a'.catalog = (afterEvents exactSerde "catalog.jsonl"
        [.call (.publish "d" none "v1" 0) .ok, .call (.delete "d" 0) (.writeFails 5 "disk full"),
          .restart]).catalog :=
  (memory_eq_journal exactSerde_read "catalog.jsonl" _).1

end DdsOrchestrator.Studio
