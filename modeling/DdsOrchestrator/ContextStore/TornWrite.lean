import DdsOrchestrator.ContextStore.Replay

/-!
A journal whose last line a crash has cut short. Opening it neither removes the rest
of that line nor ends it, so the record of the next call is glued to it. What comes
out is no JSON at whatever byte the line was cut, and the next replay passes it over
with the record in it; cut inside a character, the file cannot be read at all. So the
store survives only a crash that left no byte of the line.
-/

namespace DdsOrchestrator.ContextStore

open LocalContextStore

/-- The records of calls that are made one after the other. -/
def writtenBy (serde : SerdeJson) (s : LocalContextStore) (calls : List Call) :
    List JournalRecord :=
  Machine.trace (perform serde) written s calls

/-- Behind complete records the file has `torn`: it is opened, with what the complete
records say, and after any further calls it is opened again, with what the complete
records and those of the calls say. -/
def SurvivesTear (serde : SerdeJson) (rs : List JournalRecord) (torn : ByteArray) : Prop :=
  ∀ clock, ∃ s, openStore serde clock (some (journalOf rs ++ torn)) = .ok s ∧
    (∀ contextId, s.entries.lookup contextId = (restore serde clock rs).lookup contextId) ∧
    ∀ calls clock', ∃ s',
      openStore serde clock' (calls.foldl (perform serde) s).journal = .ok s' ∧
      ∀ contextId, s'.entries.lookup contextId =
        (restore serde clock' (rs ++ writtenBy serde s calls)).lookup contextId

variable {serde : SerdeJson}

theorem journal_foldl_perform (calls : List Call) {s : LocalContextStore}
    {rs : List JournalRecord} (h : s.journal = some (journalOf rs)) :
    (calls.foldl (perform serde) s).journal =
      some (journalOf (rs ++ writtenBy serde s calls)) := by
  induction calls generalizing s rs with
  | nil => simpa [writtenBy, Machine.trace] using h
  | cons c calls ih =>
      rw [List.foldl_cons, ih (journal_perform serde h c), List.append_assoc]
      rfl

/-- Where nothing was torn, nothing is lost. -/
theorem survivesTear_empty
    (hread : ∀ r : JournalRecord, serde.recordFromStr r.toText = some r)
    (rs : List JournalRecord) : SurvivesTear serde rs .empty := by
  intro clock
  rw [ByteArray.append_empty]
  refine ⟨_, openStore_journalOf hread clock rs, fun _ => rfl, fun calls clock' => ?_⟩
  rw [journal_foldl_perform calls rfl]
  exact ⟨_, openStore_journalOf hread clock' _, fun _ => rfl⟩

/-! ### The line the next record is glued to -/

/-- Bytes that can be read behind a text are a text. -/
theorem exists_text_of_open {clock : Nat → UInt64} {rs : List JournalRecord} {torn : ByteArray}
    {s : LocalContextStore} (h : openStore serde clock (some (journalOf rs ++ torn)) = .ok s) :
    ∃ t : String, torn = t.toUTF8 := by
  simp only [openStore] at h
  split at h
  · cases h
  · next content hcontent => exact Lines.exists_of_fromUTF8?_append hcontent

/-- A torn line that can be read is the beginning of its record's text. -/
theorem isPrefix_of_torn {r : JournalRecord} {k : Nat} (hk : k < r.line.size) {t : String}
    (ht : r.line.extract 0 k = t.toUTF8) : t.toList <+: r.toText.toList := by
  have hwhole : t.toUTF8 ++ r.line.extract k r.line.size = r.line := by
    rw [← ht, ByteArray.extract_append_extract, Nat.min_eq_left (Nat.zero_le k),
      Nat.max_eq_right hk.le, ByteArray.extract_zero_size]
  have hline : (r.toText ++ "\n").toList = r.toText.toList ++ ['\n'] := String.toList_append
  have hstart := Lines.isPrefix_of_toUTF8_append hwhole
  rw [hline] at hstart
  refine (List.prefix_concat_iff.mp hstart).resolve_left fun heq => ?_
  have hall : t = r.toText ++ "\n" := String.toList_inj.mp (heq.trans hline.symm)
  have hsize := congrArg ByteArray.size ht
  rw [ByteArray.size_extract, hall] at hsize
  change min k r.line.size - 0 = r.line.size at hsize
  omega

/-- Of a line that was begun there is at least the brace. -/
theorem torn_eq_cons {r : JournalRecord} {t : String} (ht : t.toList <+: r.toText.toList)
    (hne : t ≠ "") : ∃ cs, t.toList = '\x7b' :: cs := by
  cases hlist : t.toList with
  | nil => exact absurd (String.toList_inj.mp hlist) hne
  | cons c cs =>
      have hhead := r.head?_toText
      obtain ⟨rest, hrest⟩ := ht
      rw [← hrest, hlist, List.cons_append, List.head?_cons, Option.some.injEq] at hhead
      exact ⟨cs, by rw [hhead]⟩

/-- The line a record is glued to is no record, and none is found in it. -/
theorem replayLine_glued
    (hclosed : ∀ text r, serde.recordFromStr text = some r → Json.Closed text)
    {r : JournalRecord} {t : String} (ht : t.toList <+: r.toText.toList) (hne : t ≠ "")
    (next : JournalRecord) (nowNs : UInt64) (state : Entries × Nat) :
    replayLine serde nowNs state (t ++ next.toText).toList = state := by
  obtain ⟨cs, hcs⟩ := torn_eq_cons ht hne
  have hnone : serde.recordFromStr (t ++ next.toText) = none := by
    rw [Option.eq_none_iff_forall_not_mem]
    intro r' hr'
    obtain ⟨op, rest, hfields⟩ := next.fields_eq_cons
    have hbegun : Json.Scan.start.run t.toList ≠ .start := by
      rw [hcs]
      exact Json.Scan.run_ne_start (by decide) cs
    have hkey : (Json.quote "op").toList = '"' :: 'o' :: ['p', '"'] := by decide
    refine Json.not_closed_glued hbegun hkey (fun depth => rfl) (.str op) rest ?_
    rw [← hfields]
    exact hclosed _ r' hr'
  have hhead : (t ++ next.toText).toList.head? = some '\x7b' := by
    rw [String.toList_append, hcs]
    rfl
  have hlast : (t ++ next.toText).toList.getLast? = some '\x7d' := by
    rw [String.toList_append, List.getLast?_append, next.getLast?_toText]
    rfl
  have htrim := Lines.trim_eq_self hhead (by decide) hlast (by decide)
  simp only [replayLine, htrim, String.ofList_toList, hnone, ite_self]

/-- The file after a call on a torn line: the record of the call is not restored. -/
theorem openStore_glued
    (hread : ∀ r : JournalRecord, serde.recordFromStr r.toText = some r)
    (hclosed : ∀ text r, serde.recordFromStr text = some r → Json.Closed text)
    (rs : List JournalRecord) {r : JournalRecord} {t : String}
    (ht : t.toList <+: r.toText.toList) (hne : t ≠ "") (next : JournalRecord)
    (clock : Nat → UInt64) :
    openStore serde clock (some (journalOf rs ++ t.toUTF8 ++ next.line)) =
      .ok ⟨restore serde clock rs, some (journalOf rs ++ t.toUTF8 ++ next.line), rs.length⟩ := by
  have hcontent : String.fromUTF8? (journalOf rs ++ t.toUTF8 ++ next.line) =
      some (journalText rs ++ (t ++ next.toText ++ "\n")) := by
    rw [Lines.fromUTF8?_eq_some_iff]
    simp only [Lines.toUTF8_append, JournalRecord.line, journalOf, ByteArray.append_assoc]
  have hnewline : '\n' ∉ (t ++ next.toText).toList := by
    rw [String.toList_append, List.mem_append, not_or]
    exact ⟨fun hmem => r.newline_notMem_toText (ht.subset hmem), next.newline_notMem_toText⟩
  have hlast : (t ++ next.toText).toList.getLast? ≠ some '\r' := by
    rw [String.toList_append, List.getLast?_append, next.getLast?_toText]
    simp
  have hlines : Lines.lines (t ++ next.toText ++ "\n").toList = [(t ++ next.toText).toList] := by
    rw [String.toList_append]
    exact Lines.lines_append hnewline hlast []
  have hreplay := replay_journalText hread clock rs (t ++ next.toText ++ "\n")
  rw [hlines, List.zipIdx_singleton, List.foldl_cons, List.foldl_nil,
    replayLine_glued hclosed ht hne] at hreplay
  simp only [openStore, hcontent, hreplay]

/-- The messages of a context that was just put. -/
theorem lookup_upsertEntry (entries : Entries) (snapshot : ContextSnapshot)
    (expiresAtNs : UInt64) :
    ((upsertEntry entries snapshot expiresAtNs).lookup snapshot.contextId).map
      (·.snapshot.messagesJson) = some snapshot.messagesJson := by
  unfold upsertEntry
  split <;> simp

/-- For every store there is a snapshot that changes it. -/
theorem exists_upsertEntry_ne (entries : Entries) :
    ∃ snapshot : ContextSnapshot, ∀ expiresAtNs,
      entries.lookup snapshot.contextId ≠
        (upsertEntry entries snapshot expiresAtNs).lookup snapshot.contextId := by
  obtain ⟨messages, hmessages⟩ :
      ∃ m, (entries.lookup "").map (·.snapshot.messagesJson) ≠ some m := by
    by_contra hall
    push Not at hall
    have htwo := (hall "").symm.trans (hall "[]")
    simp at htwo
  refine ⟨⟨"", "", "", messages, "", 0, 0, 0, 0⟩, fun expiresAtNs heq => hmessages ?_⟩
  have hput := lookup_upsertEntry entries ⟨"", "", "", messages, "", 0, 0, 0, 0⟩ expiresAtNs
  rw [← heq] at hput
  exact hput

theorem journal_of_open {clock : Nat → UInt64} {bytes : ByteArray} {s : LocalContextStore}
    (h : openStore serde clock (some bytes) = .ok s) : s.journal = some bytes := by
  simp only [openStore] at h
  split at h
  · cases h
  · cases h
    rfl

/-- A line that was begun takes the next record with it. -/
theorem SurvivesTear.eq_zero
    (hread : ∀ r : JournalRecord, serde.recordFromStr r.toText = some r)
    (hclosed : ∀ text r, serde.recordFromStr text = some r → Json.Closed text)
    {rs : List JournalRecord} {r : JournalRecord} {k : Nat} (hk : k < r.line.size)
    (hsurvives : SurvivesTear serde rs (r.line.extract 0 k)) : k = 0 := by
  by_contra hpos
  obtain ⟨s, hopen, -, hnext⟩ := hsurvives fun _ => 0
  obtain ⟨t, ht⟩ := exists_text_of_open hopen
  have htorn := isPrefix_of_torn hk ht
  have hne : t ≠ "" := by
    rintro rfl
    rw [show "".toUTF8 = ByteArray.empty from rfl, ByteArray.extract_eq_empty_iff] at ht
    omega
  -- a put that changes what the complete records say, on the store just opened
  obtain ⟨snapshot, hsnapshot⟩ := exists_upsertEntry_ne (restore serde (fun _ => 0) rs)
  obtain ⟨s', hopen', hstate'⟩ := hnext [.putSnapshot 0 snapshot] fun _ => 0
  have hjournal : ([Call.putSnapshot 0 snapshot].foldl (perform serde) s).journal =
      some (journalOf rs ++ t.toUTF8 ++
        (JournalRecord.put snapshot (expiresFromNow 0 snapshot.ttlSeconds)).line) := by
    rw [← ht]
    exact journal_journalAppend (journal_of_open hopen) _
  rw [hjournal, openStore_glued hread hclosed rs htorn hne, Except.ok.injEq] at hopen'
  have hlost := hstate' snapshot.contextId
  rw [← hopen'] at hlost
  refine hsnapshot (expiresFromNow 0 snapshot.ttlSeconds) (hlost.trans ?_)
  rw [show writtenBy serde s [.putSnapshot 0 snapshot] =
      [.put snapshot (expiresFromNow 0 snapshot.ttlSeconds)] from rfl, restore_concat]
  rfl

/-- The store survives a line that was cut at the byte `k` exactly if `k` is the first
one. -/
theorem survivesTear_iff
    (hread : ∀ r : JournalRecord, serde.recordFromStr r.toText = some r)
    (hclosed : ∀ text r, serde.recordFromStr text = some r → Json.Closed text)
    (rs : List JournalRecord) (r : JournalRecord) (k : Nat) (hk : k < r.line.size) :
    SurvivesTear serde rs (r.line.extract 0 k) ↔ k = 0 := by
  constructor
  · exact SurvivesTear.eq_zero hread hclosed hk
  · rintro rfl
    rw [ByteArray.extract_same]
    exact survivesTear_empty hread rs

/-- A reader of exactly the records reads closed objects only. -/
theorem exactSerde_closed (text : String) (r : JournalRecord)
    (h : exactSerde.recordFromStr text = some r) : Json.Closed text := by
  have hinv := JournalRecord.toText_injective.isPartialInv
  obtain rfl : r.toText = text := (hinv r text).mp h
  obtain ⟨op, rest, hfields⟩ := r.fields_eq_cons
  rw [JournalRecord.toText, hfields]
  exact Json.closed_object _ _

theorem removal_cut_only_before :
    SurvivesTear exactSerde [] ((JournalRecord.expire "c").line.extract 0 0) ∧
      ¬ SurvivesTear exactSerde [] ((JournalRecord.expire "c").line.extract 0 5) := by
  constructor
  · exact (survivesTear_iff exactSerde_read exactSerde_closed [] (.expire "c") 0
      (by decide)).mpr rfl
  · rw [survivesTear_iff exactSerde_read exactSerde_closed [] (.expire "c") 5 (by decide)]
    decide

/-- The line of a removal cut behind its brace: the file is opened, and the next
record is lost. -/
theorem removal_cut_behind_brace :
    ¬ SurvivesTear exactSerde [] ((JournalRecord.expire "c").line.extract 0 1) :=
  fun hsurvives => absurd
    (SurvivesTear.eq_zero exactSerde_read exactSerde_closed (by decide) hsurvives) (by decide)

end DdsOrchestrator.ContextStore
