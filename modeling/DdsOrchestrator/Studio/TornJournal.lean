import Mathlib.Data.Fintype.EquivFin
import DdsOrchestrator.Studio.Replay

/-!
A journal whose last entry a crash has cut. A boot accepts it if nothing of the entry is
there, if all of it is there, or if all of it but the newline is there. In the last case
the next append goes on the same line, which is no entry any more, and the boot behind it
fails with everything that was acknowledged.
-/

namespace DdsOrchestrator.Studio

open Catalog CatalogAuthority

/-- A call with what becomes of its append. -/
abbrev JournaledCall := JournalEntry × AppendIo

def callEvent (c : JournaledCall) : AuthorityEvent := .call c.1 c.2

/-- After the calls a boot on the file succeeds, and what they acknowledged is there. -/
def KeepsAcknowledged (serde : SerdeJson) (a : CatalogAuthority) (calls : List JournaledCall) :
    Prop :=
  let events := calls.map callEvent
  let acked := Machine.trace (CatalogAuthority.step serde) (acknowledged serde) a events
  ∃ a', (events.foldl (CatalogAuthority.step serde) a).reboot serde = .ok a' ∧
    a'.catalog = (acked.map Accepted.call).foldl after a.catalog ∧
    Machine.trace after accepted a.catalog (acked.map Accepted.call) = acked

variable {serde : SerdeJson} {path : String} {es : List JournalEntry} {a : CatalogAuthority}

section

variable (hread : ∀ e : JournalEntry, serde.entryFromStr e.toText = .ok e)
include hread

/-- The lines of a boot that succeeds are accepted calls. -/
theorem allAccepted_of_replayLines {c : Catalog} {lines : List (List Char)} {lineNo : ℕ}
    (h : (replayLines serde path (es.map (fun e => e.toText.toList) ++ lines) lineNo c).1 =
      .ok ()) : AllAccepted c es := by
  induction es generalizing c lineNo with
  | nil => trivial
  | cons e es ih =>
      obtain ⟨e', he⟩ | ⟨r, c', hok, -⟩ := perform_cases c e
      · have hreplay : replay c e = (.error e'.message, c) := by simp only [replay, he]
        rw [List.map_cons, List.cons_append, replayLines, trim_toText, if_neg e.toText_ne_nil,
          String.ofList_toList, hread] at h
        simp only [hreplay] at h
        cases h
      · have hr : (c.perform e).1 = .ok r := by rw [hok]
        rw [List.map_cons, List.cons_append, replayLines_cons hread hr] at h
        exact ⟨⟨r, hr⟩, ih h⟩

/-- A boot on complete entries and a text behind them. -/
theorem withJournal_text (rest : String)
    (h : withJournal serde path (some (journalOf es ++ rest.toUTF8)) = .ok a) :
    AllAccepted .new es ∧
      (replayLines serde path (Lines.lines rest.toList) es.length (run es)).1 = .ok () ∧
      a = ⟨(replayLines serde path (Lines.lines rest.toList) es.length (run es)).2,
        some ⟨path, some (journalOf es ++ rest.toUTF8)⟩⟩ := by
  have hdecode : String.fromUTF8? (journalOf es ++ rest.toUTF8) =
      some (LineFile.text Call.toText es ++ rest) := LineFile.fromUTF8?_bytes Call.toText es rest
  have hes : AllAccepted .new es := by
    have hreplay : (replayLines serde path (es.map (fun e => e.toText.toList) ++
        Lines.lines rest.toList) 0 .new).1 = .ok () := by
      rw [← lines_journalText, ← String.toList_append]
      simp only [withJournal, rebuildFromJournal, hdecode] at h
      split at h
      · next heq => exact (Prod.mk.inj heq).1
      · cases h
    exact allAccepted_of_replayLines hread hreplay
  have hrebuild := rebuild_journalOf (a := ⟨.new, some ⟨path, some (journalOf es ++ rest.toUTF8)⟩⟩)
    hread hes rest rfl rfl
  refine ⟨hes, ?_⟩
  rw [withJournal, hrebuild] at h
  split at h
  · next heq =>
      obtain ⟨hresult, rfl⟩ := Prod.mk.inj heq
      cases h
      exact ⟨hresult, rfl⟩
  · cases h

theorem holds_of_withJournal (h : withJournal serde path (some (journalOf es)) = .ok a) :
    Holds path es a := by
  have hempty : journalOf es ++ "".toUTF8 = journalOf es := ByteArray.append_empty
  obtain ⟨hes, -, rfl⟩ := withJournal_text hread "" (by rwa [hempty])
  exact ⟨rfl, ⟨_, rfl, hempty⟩, hes⟩

/-- From a file of whole lines everything is kept. -/
theorem CatalogAuthority.Holds.keeps (ha : Holds path es a) (calls : List JournaledCall) :
    KeepsAcknowledged serde a calls := by
  have hrun : Machine.Along (CatalogAuthority.step serde) (fun _ _ => True) a
      (calls.map callEvent) := Machine.along_iff_forall.mpr fun _ _ _ _ => trivial
  have hstart : Holds path (es ++ List.map Accepted.call []) a ∧
      history (es ++ List.map Accepted.call []) = history es ++ [] := by
    simpa using ha
  have hstep : ∀ acked a' event,
      (Holds path (es ++ acked.map Accepted.call) a' ∧
        history (es ++ acked.map Accepted.call) = history es ++ acked) → True →
      Holds path (es ++ (acked ++ acknowledged serde a' event).map Accepted.call)
          (CatalogAuthority.step serde a' event) ∧
        history (es ++ (acked ++ acknowledged serde a' event).map Accepted.call) =
          history es ++ (acked ++ acknowledged serde a' event) := by
    rintro acked a' event ⟨ha', hhistory⟩ -
    obtain ⟨hholds, hnext⟩ := ha'.step hread event
    rw [List.map_append, ← List.append_assoc]
    exact ⟨hholds, by rw [hnext, hhistory, List.append_assoc]⟩
  obtain ⟨hholds, hhistory⟩ := hrun.trace_invariant_nil
    (I := fun acked a' => Holds path (es ++ acked.map Accepted.call) a' ∧
      history (es ++ acked.map Accepted.call) = history es ++ acked) hstart hstep
  obtain ⟨a', hreboot, hcatalog, -⟩ := hholds.reboot hread
  refine ⟨a', hreboot, ?_, ?_⟩
  · rw [hcatalog, hholds.catalog, run, List.foldl_append, ha.catalog]
    rfl
  · rw [history, Machine.trace_append] at hhistory
    rw [ha.catalog]
    exact List.append_cancel_left hhistory

/-! ### The entry that was cut -/

variable (hclosed : ∀ text e, serde.entryFromStr text = .ok e → Json.Closed text)
include hclosed

omit hread in
/-- What is no closed object is no entry. -/
theorem replayLines_not_closed {c : Catalog} {text : String} (hnewline : '\n' ∉ text.toList)
    (hhead : text.toList.head? = some '\x7b') (h : ¬ Json.Closed text) (lineNo : ℕ) :
    (replayLines serde path (Lines.lines text.toList) lineNo c).1 ≠ .ok () := by
  have hne : text.toList ≠ [] := by
    intro hnil
    rw [hnil] at hhead
    cases hhead
  have htrim : Lines.trim text.toList ≠ [] := Lines.trim_ne_nil hhead (by decide)
  cases hentry : serde.entryFromStr text with
  | ok e => exact absurd (hclosed text e hentry) h
  | error err =>
      rw [Lines.lines_eq_singleton hnewline hne, replayLines, if_neg htrim, String.ofList_toList,
        hentry]
      simp

/-- Of an entry that was cut a boot accepts nothing, the bare text, or the whole line. -/
theorem torn_cases {e : JournalEntry} {k : ℕ} (hk : k ≤ e.line.size)
    (h : withJournal serde path (some (journalOf es ++ e.line.extract 0 k)) = .ok a) :
    k = 0 ∨ k + 1 = e.line.size ∧ e.line.extract 0 k = e.toText.toUTF8 ∨ k = e.line.size := by
  have hsize := e.size_line
  -- the bytes of the cut entry are a text
  obtain ⟨t, ht⟩ : ∃ t : String, e.line.extract 0 k = t.toUTF8 := by
    simp only [withJournal, rebuildFromJournal] at h
    cases hdecode : String.fromUTF8? (journalOf es ++ e.line.extract 0 k) with
    | none =>
        simp only [hdecode] at h
        cases h
    | some u => exact Lines.exists_of_fromUTF8?_append hdecode
  have hcount : t.toUTF8.size = k := by
    rw [← ht, ByteArray.size_extract]
    omega
  have hpre : t.toList <+: e.toText.toList ++ ['\n'] := by
    have hwhole : t.toUTF8 ++ e.line.extract k e.line.size = (e.toText ++ "\n").toUTF8 := by
      rw [← ht, ByteArray.extract_append_extract, Nat.min_eq_left (Nat.zero_le k),
        Nat.max_eq_right hk, ByteArray.extract_zero_size]
      rfl
    simpa using Lines.isPrefix_of_toUTF8_append hwhole
  rw [ht] at h
  obtain ⟨-, hlines, -⟩ := withJournal_text hread _ h
  rcases List.prefix_concat_iff.mp hpre with hall | hpart
  · have heq : t = e.toText ++ "\n" := String.toList_inj.mp (by simpa using hall)
    rw [heq] at hcount
    exact .inr (.inr hcount.symm)
  · by_cases hnil : t = ""
    · rw [hnil] at hcount
      exact .inl hcount.symm
    · -- a part that was begun is read as an entry only if it is all of the text
      have hhead : t.toList.head? = some '\x7b' := by
        obtain ⟨rest, hrest⟩ := hpart
        have hne : t.toList ≠ [] := fun h => hnil (String.toList_inj.mp h)
        have hfirst := e.head?_toText
        rw [← hrest, List.head?_append_of_ne_nil _ hne] at hfirst
        exact hfirst
      have hnewline : '\n' ∉ t.toList := fun hmem => e.newline_notMem_toText (hpart.subset hmem)
      have htext : Json.Closed t := by
        by_contra hnot
        exact replayLines_not_closed hclosed hnewline hhead hnot _ hlines
      have heq : t = e.toText := e.closed_toText.eq_of_isPrefix e.getLast?_toText htext hpart
      refine .inr (.inl ⟨?_, heq ▸ ht⟩)
      rw [← hcount, heq, hsize]

/-- An append behind the bare text of an entry: the file is not accepted any more. -/
theorem withJournal_glued (e next : JournalEntry) :
    ∀ a, withJournal serde path (some (journalOf es ++ e.toText.toUTF8 ++ next.line)) ≠ .ok a := by
  intro a h
  have hglued : journalOf es ++ e.toText.toUTF8 ++ next.line =
      journalOf es ++ (e.toText ++ next.toText ++ "\n").toUTF8 := by
    simp only [Call.line, Lines.toUTF8_append, ByteArray.append_assoc]
  rw [hglued] at h
  obtain ⟨-, hlines, -⟩ := withJournal_text hread _ h
  have hnewline : '\n' ∉ (e.toText ++ next.toText).toList := by
    rw [String.toList_append, List.mem_append, not_or]
    exact ⟨e.newline_notMem_toText, next.newline_notMem_toText⟩
  have hhead : (e.toText ++ next.toText).toList.head? = some '\x7b' := by
    rw [String.toList_append, List.head?_append_of_ne_nil _ e.toText_ne_nil, e.head?_toText]
  have hlast : (e.toText ++ next.toText).toList.getLast? ≠ some '\r' := by
    rw [String.toList_append, List.getLast?_append, next.getLast?_toText]
    simp
  have hne : (e.toText ++ next.toText).toList ≠ [] := by
    intro hnil
    rw [hnil] at hhead
    cases hhead
  have hline : Lines.lines (e.toText ++ next.toText ++ "\n").toList =
      Lines.lines (e.toText ++ next.toText).toList := by
    rw [Lines.lines_eq_singleton hnewline hne, String.toList_append]
    exact Lines.lines_append hnewline hlast []
  rw [hline] at hlines
  exact replayLines_not_closed hclosed hnewline hhead
    (e.closed_toText.not_append next.head?_toText) _ hlines

/-- On an entry without its newline the next call that is acknowledged is lost. -/
theorem not_keeps_of_bare {e : JournalEntry}
    (hboot : withJournal serde path (some (journalOf es ++ e.toText.toUTF8)) = .ok a)
    {id : DefinitionId} (hitem : a.catalog.items.lookup id = none)
    (htomb : a.catalog.tombstones.lookup id = none) (value : String) (generation : Generation) :
    ¬ KeepsAcknowledged serde a [(.publish id none value generation, .ok)] := by
  rintro ⟨a', hreboot, -⟩
  obtain ⟨-, -, ha⟩ := withJournal_text hread _ hboot
  have hok := perform_create hitem htomb value generation
  have hjournal : a.journal = some ⟨path, some (journalOf es ++ e.toText.toUTF8)⟩ := by rw [ha]
  have hnext : (a.mutate serde (.publish id none value generation) .ok).2.journal =
      some ⟨path, some (journalOf es ++ e.toText.toUTF8 ++
        Call.line (.publish id none value generation))⟩ := by
    obtain ⟨e', he'⟩ | ⟨r, c', hr, -⟩ :=
      perform_cases a.catalog (.publish id none value generation)
    · rw [he'] at hok
      cases hok
    · simp only [mutate, hr, append, hjournal]
      rfl
  have hfile : (([(.publish id none value generation, .ok)] : List JournaledCall).map
      callEvent).foldl (CatalogAuthority.step serde) a =
        (a.mutate serde (.publish id none value generation) .ok).2 := rfl
  rw [hfile, reboot, hnext] at hreboot
  exact withJournal_glued hread hclosed e _ a' hreboot

omit hclosed in
/-- The bare text of an entry is taken for the entry. -/
theorem withJournal_bare {e : JournalEntry} (hes : AllAccepted .new (es ++ [e])) :
    withJournal serde path (some (journalOf es ++ e.toText.toUTF8)) =
      .ok ⟨run (es ++ [e]), some ⟨path, some (journalOf es ++ e.toText.toUTF8)⟩⟩ := by
  obtain ⟨hbefore, r, hr⟩ := Machine.along_concat.mp hes
  have hrebuild := rebuild_journalOf
    (a := ⟨.new, some ⟨path, some (journalOf es ++ e.toText.toUTF8)⟩⟩) hread hbefore
    e.toText rfl rfl
  have hline : replayLines serde path (Lines.lines e.toText.toList) es.length (run es) =
      (.ok (), run (es ++ [e])) := by
    have hcall : ((run es).perform e).1 = .ok r := hr
    rw [Lines.lines_eq_singleton e.newline_notMem_toText e.toText_ne_nil,
      replayLines_cons hread hcall, run_concat]
    rfl
  rw [withJournal, hrebuild, hline]

end

/-- There is always an id that was never used. -/
theorem exists_unused (c : Catalog) :
    ∃ id, c.items.lookup id = none ∧ c.tombstones.lookup id = none := by
  obtain ⟨id, hid⟩ := Infinite.exists_notMem_finset (c.items.keys ++ c.tombstones.keys).toFinset
  rw [List.mem_toFinset, List.mem_append, not_or] at hid
  exact ⟨id, AList.lookup_eq_none.mpr hid.1, AList.lookup_eq_none.mpr hid.2⟩

/-- With complete entries and the first `k` bytes of one more, a boot that succeeds leaves a
journal on which everything is kept, unless the newline is all that is missing. -/
theorem torn_keeps_iff
    (hread : ∀ e : JournalEntry, serde.entryFromStr e.toText = .ok e)
    (hclosed : ∀ text e, serde.entryFromStr text = .ok e → Json.Closed text)
    (path : String) (es : List JournalEntry) (e : JournalEntry) (k : ℕ) (hk : k ≤ e.line.size)
    (a : CatalogAuthority)
    (hboot : withJournal serde path (some (journalOf es ++ e.line.extract 0 k)) = .ok a) :
    (∀ calls, KeepsAcknowledged serde a calls) ↔ k + 1 ≠ e.line.size := by
  rcases torn_cases hread hclosed hk hboot with rfl | ⟨hlast, htorn⟩ | rfl
  · -- nothing of the entry is there
    rw [ByteArray.extract_same] at hboot
    have hholds := holds_of_withJournal hread (by rwa [ByteArray.append_empty] at hboot)
    refine iff_of_true (hholds.keeps hread) ?_
    have htext := e.size_toText_ne_zero
    rw [e.size_line]
    omega
  · -- all of it but the newline
    rw [htorn] at hboot
    refine iff_of_false (fun hkeeps => ?_) (by omega)
    obtain ⟨id, hitem, htomb⟩ := exists_unused a.catalog
    exact not_keeps_of_bare hread hclosed hboot hitem htomb "" 0 (hkeeps _)
  · -- the whole line: the entry is complete
    rw [ByteArray.extract_zero_size, show e.line = LineFile.line Call.toText e from rfl,
      journalOf, ← LineFile.bytes_concat] at hboot
    have hholds : Holds path (es ++ [e]) a := holds_of_withJournal hread hboot
    exact iff_of_true (hholds.keeps hread) (by omega)

/-- A reader of exactly the entries reads closed objects only. -/
theorem exactSerde_closed (text : String) (e : JournalEntry)
    (h : exactSerde.entryFromStr text = .ok e) : Json.Closed text := by
  simp only [exactSerde] at h
  split at h
  · next e' he' =>
      cases h
      have hinv := Call.toText_injective.isPartialInv
      obtain rfl : e.toText = text := (hinv e text).mp he'
      exact e.closed_toText
  · cases h

def sampleEntry : JournalEntry := .publish "d" none "v1" 0

theorem sampleEntry_accepted : AllAccepted .new [sampleEntry] := ⟨⟨0, by decide⟩, trivial⟩

/-- Cut before its first byte, the entry is not there and nothing is lost. -/
theorem cut_before_entry_keeps :
    ∃ a, withJournal exactSerde "catalog.jsonl"
        (some (journalOf [] ++ sampleEntry.line.extract 0 0)) = .ok a ∧
      ∀ calls, KeepsAcknowledged exactSerde a calls := by
  have hfile : (some (journalOf [] ++ sampleEntry.line.extract 0 0)).getD .empty =
      journalOf [] := by
    rw [Option.getD_some, ByteArray.extract_same, ByteArray.append_empty]
  have hnone : AllAccepted .new [] := trivial
  have hboot : withJournal exactSerde "catalog.jsonl" _ = .ok _ :=
    withJournal_journalOf exactSerde_read hnone hfile
  have hsize : 0 + 1 ≠ sampleEntry.line.size := by
    have htext := sampleEntry.size_toText_ne_zero
    rw [sampleEntry.size_line]
    omega
  exact ⟨_, hboot, (torn_keeps_iff exactSerde_read exactSerde_closed "catalog.jsonl" []
    sampleEntry 0 (Nat.zero_le _) _ hboot).mpr hsize⟩

/-- Cut before its newline: the publication behind it is acknowledged and lost. -/
theorem cut_before_newline_loses :
    ∃ a, withJournal exactSerde "catalog.jsonl" (some (journalOf [] ++
        sampleEntry.line.extract 0 (sampleEntry.line.size - 1))) = .ok a ∧
      ¬ KeepsAcknowledged exactSerde a [(.publish "e" none "v1" 0, .ok)] := by
  rw [sampleEntry.extract_line]
  have hboot : withJournal exactSerde "catalog.jsonl"
      (some (journalOf [] ++ sampleEntry.toText.toUTF8)) = .ok _ :=
    withJournal_bare exactSerde_read sampleEntry_accepted
  exact ⟨_, hboot, not_keeps_of_bare exactSerde_read exactSerde_closed hboot (by decide)
    (by decide) "v1" 0⟩

end DdsOrchestrator.Studio
