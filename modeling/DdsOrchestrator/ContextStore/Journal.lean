import DdsOrchestrator.ContextStore.Store

/-!
What the journal of a store says. The text of a record is one line that determines
the record, so a journal of complete records is read back as the records that were
written; and every call does to the map in memory what its own records do when they
are replayed at the time of the call.
-/

namespace DdsOrchestrator.ContextStore

namespace JournalRecord

theorem fields_injective {r r' : JournalRecord} (h : r.fields = r'.fields) : r = r' := by
  cases r with
  | put s e =>
      cases r' with
      | put s' e' =>
          obtain ⟨⟩ := s
          obtain ⟨⟩ := s'
          simp only [fields, List.cons.injEq, Prod.mk.injEq, Json.Scalar.str.injEq,
            Json.Scalar.int.injEq, true_and, and_true, Int.natCast_inj, UInt64.toNat_inj,
            UInt32.toNat_inj, Int32.toInt_inj] at h
          simp [h]
      | update u' e' => simp [fields] at h
      | expire id' => simp [fields] at h
  | update u e =>
      cases r' with
      | put s' e' => simp [fields] at h
      | update u' e' =>
          obtain ⟨⟩ := u
          obtain ⟨⟩ := u'
          simp only [fields, List.cons.injEq, Prod.mk.injEq, Json.Scalar.str.injEq,
            Json.Scalar.int.injEq, true_and, and_true, Int.natCast_inj, UInt64.toNat_inj,
            Int32.toInt_inj] at h
          simp [h]
      | expire id' => simp [fields] at h
  | expire id =>
      cases r' with
      | put s' e' => simp [fields] at h
      | update u' e' => simp [fields] at h
      | expire id' => simpa [fields] using h

/-- Every record begins with its tag. -/
theorem fields_eq_cons (r : JournalRecord) : ∃ op rest, r.fields = ("op", .str op) :: rest := by
  cases r <;> exact ⟨_, _, rfl⟩

theorem toText_injective : Function.Injective toText := by
  intro r r' h
  obtain ⟨op, rest, hr⟩ := r.fields_eq_cons
  obtain ⟨op', rest', hr'⟩ := r'.fields_eq_cons
  rw [toText, toText, hr, hr'] at h
  apply fields_injective
  rw [hr, hr', Json.object_injective h]

theorem newline_notMem_toText (r : JournalRecord) : '\n' ∉ r.toText.toList := by
  obtain ⟨op, rest, hr⟩ := r.fields_eq_cons
  rw [toText, hr]
  exact Json.newline_notMem_object _ _

theorem getLast?_toText (r : JournalRecord) : r.toText.toList.getLast? = some '\x7d' := by
  obtain ⟨op, rest, hr⟩ := r.fields_eq_cons
  rw [toText, hr]
  exact Json.getLast?_object _ _

theorem head?_toText (r : JournalRecord) : r.toText.toList.head? = some '\x7b' := by
  obtain ⟨op, rest, hr⟩ := r.fields_eq_cons
  rw [toText, hr, Json.toList_object_cons]
  rfl

end JournalRecord

/-- The text of a journal of complete records. -/
def journalText : List JournalRecord → String
  | [] => ""
  | r :: rs => r.toText ++ "\n" ++ journalText rs

def journalOf (rs : List JournalRecord) : ByteArray := (journalText rs).toUTF8

theorem journalText_append (rs rs' : List JournalRecord) :
    journalText (rs ++ rs') = journalText rs ++ journalText rs' := by
  induction rs with
  | nil => simp [journalText]
  | cons r rs ih => simp [journalText, ih, String.append_assoc]

theorem journalOf_append (rs rs' : List JournalRecord) :
    journalOf (rs ++ rs') = journalOf rs ++ journalOf rs' := by
  rw [journalOf, journalText_append, Lines.toUTF8_append]
  rfl

theorem journalOf_concat (rs : List JournalRecord) (r : JournalRecord) :
    journalOf (rs ++ [r]) = journalOf rs ++ r.line := by
  rw [journalOf_append]
  simp [journalOf, journalText, JournalRecord.line]

/-- The lines of complete records, and those of what stands behind them. -/
theorem lines_journalText (rs : List JournalRecord) (rest : List Char) :
    Lines.lines ((journalText rs).toList ++ rest) =
      rs.map (·.toText.toList) ++ Lines.lines rest := by
  induction rs with
  | nil => simp [journalText]
  | cons r rs ih =>
      have hlast : r.toText.toList.getLast? ≠ some '\r' := by simp [r.getLast?_toText]
      have hsplit : (journalText (r :: rs)).toList ++ rest =
          r.toText.toList ++ '\n' :: ((journalText rs).toList ++ rest) := by
        simp [journalText]
      rw [hsplit, Lines.lines_append r.newline_notMem_toText hlast, ih]
      rfl

/-- The entries after complete records. -/
def restore (serde : SerdeJson) (clock : Nat → UInt64) (rs : List JournalRecord) : Entries :=
  rs.zipIdx.foldl (fun entries r => applyRecord serde (clock r.2) entries r.1) ∅

section

variable {serde : SerdeJson} (hread : ∀ r : JournalRecord, serde.recordFromStr r.toText = some r)
include hread

theorem replayLine_toText (nowNs : UInt64) (state : Entries × Nat) (r : JournalRecord) :
    replayLine serde nowNs state r.toText.toList =
      (applyRecord serde nowNs state.1 r, state.2 + 1) := by
  have htrim : Lines.trim r.toText.toList = r.toText.toList :=
    Lines.trim_eq_self r.head?_toText (by decide) r.getLast?_toText (by decide)
  have hne : r.toText.toList ≠ [] := by
    intro hnil
    have := r.head?_toText
    simp [hnil] at this
  simp only [replayLine, htrim, if_neg hne, String.ofList_toList, hread]

theorem foldl_replayLine (clock : Nat → UInt64) (rs : List JournalRecord) (n : Nat)
    (state : Entries × Nat) :
    ((rs.map (·.toText.toList)).zipIdx n).foldl
        (fun state l => replayLine serde (clock l.2) state l.1) state =
      ((rs.zipIdx n).foldl (fun entries r => applyRecord serde (clock r.2) entries r.1) state.1,
        state.2 + rs.length) := by
  induction rs generalizing n state with
  | nil => rfl
  | cons r rs ih =>
      simp only [List.map_cons, List.zipIdx_cons, List.foldl_cons, replayLine_toText hread, ih,
        List.length_cons]
      congr 1
      omega

/-- Complete records are restored, and what stands behind them is run on top. -/
theorem replay_journalText (clock : Nat → UInt64) (rs : List JournalRecord) (rest : String) :
    replay serde clock (journalText rs ++ rest) =
      ((Lines.lines rest.toList).zipIdx rs.length).foldl
        (fun state l => replayLine serde (clock l.2) state l.1)
        (restore serde clock rs, rs.length) := by
  rw [replay, String.toList_append, lines_journalText, List.zipIdx_append, List.foldl_append,
    foldl_replayLine hread]
  simp [restore]

theorem openStore_journalOf (clock : Nat → UInt64) (rs : List JournalRecord) :
    LocalContextStore.openStore serde clock (some (journalOf rs)) =
      .ok ⟨restore serde clock rs, some (journalOf rs), rs.length⟩ := by
  have hcontent : String.fromUTF8? (journalOf rs) = some (journalText rs) :=
    Lines.fromUTF8?_eq_some_iff.mpr rfl
  have hreplay := replay_journalText hread clock rs ""
  rw [String.append_empty] at hreplay
  simp only [LocalContextStore.openStore, hcontent, hreplay]
  rfl

end

theorem restore_concat (serde : SerdeJson) (clock : Nat → UInt64) (rs : List JournalRecord)
    (r : JournalRecord) :
    restore serde clock (rs ++ [r]) =
      applyRecord serde (clock rs.length) (restore serde clock rs) r := by
  simp [restore, List.zipIdx_append]

theorem mem_upsertEntry (entries : Entries) (snapshot : ContextSnapshot) (expiresAtNs : UInt64) :
    snapshot.contextId ∈ upsertEntry entries snapshot expiresAtNs := by
  unfold upsertEntry
  split
  · exact (AList.mem_insert _).mpr (.inl rfl)
  · exact (AList.mem_insert _).mpr (.inl rfl)

/-! ### What a call writes -/

namespace LocalContextStore

/-- The records a call appends, in the store it is made on. -/
def written (s : LocalContextStore) : Call → List JournalRecord
  | .putSnapshot nowNs snapshot => [.put snapshot (expiresFromNow nowNs snapshot.ttlSeconds)]
  | .applyUpdate nowNs _ update => [.update update (s.updateExpires nowNs update)]
  | .expireTtl nowNs walk => (s.expired nowNs walk).map .expire

/-- The reading of the clock by which a call creates a context. -/
def createdNs : Call → UInt64
  | .applyUpdate _ createdNs _ => createdNs
  | _ => 0

theorem entries_journalAppend (s : LocalContextStore) (r : JournalRecord) :
    (s.journalAppend r).entries = s.entries := by
  unfold journalAppend
  split <;> rfl

theorem journal_journalAppend {s : LocalContextStore} {bytes : ByteArray}
    (h : s.journal = some bytes) (r : JournalRecord) :
    (s.journalAppend r).journal = some (bytes ++ r.line) := by
  simp [journalAppend, h]

theorem entries_foldl_removeExpired (contextIds : List String) (s : LocalContextStore) :
    (contextIds.foldl removeExpired s).entries =
      contextIds.foldl (fun entries contextId => entries.erase contextId) s.entries := by
  induction contextIds generalizing s with
  | nil => rfl
  | cons id ids ih =>
      rw [List.foldl_cons, List.foldl_cons, ih]
      simp only [removeExpired, entries_journalAppend]

theorem journal_foldl_removeExpired (contextIds : List String) {s : LocalContextStore}
    {rs : List JournalRecord} (h : s.journal = some (journalOf rs)) :
    (contextIds.foldl removeExpired s).journal =
      some (journalOf (rs ++ contextIds.map .expire)) := by
  induction contextIds generalizing s rs with
  | nil => simpa using h
  | cons id ids ih =>
      have hnext : (s.removeExpired id).journal = some (journalOf (rs ++ [.expire id])) := by
        rw [journalOf_concat]
        exact journal_journalAppend h _
      rw [List.foldl_cons, ih hnext]
      simp

variable (serde : SerdeJson)

/-- A call does to the entries what its records do when they are replayed at the
time of the call. -/
theorem entries_perform (s : LocalContextStore) (c : Call) :
    (s.perform serde c).entries =
      (s.written c).foldl (applyRecord serde (createdNs c)) s.entries := by
  cases c with
  | putSnapshot nowNs snapshot =>
      simp [perform, putSnapshot, written, applyRecord, entries_journalAppend]
  | applyUpdate nowNs createdNs update =>
      simp only [perform, applyUpdate, written, List.foldl_cons, List.foldl_nil, applyRecord,
        entries_journalAppend, LocalContextStore.createdNs]
      split <;> simp_all [entries_journalAppend]
  | expireTtl nowNs walk =>
      simp only [perform, expireTtl, entries_foldl_removeExpired, written, List.foldl_map]
      rfl

theorem journal_perform {s : LocalContextStore} {rs : List JournalRecord}
    (h : s.journal = some (journalOf rs)) (c : Call) :
    (s.perform serde c).journal = some (journalOf (rs ++ s.written c)) := by
  cases c with
  | putSnapshot nowNs snapshot =>
      simp only [perform, putSnapshot, written, journalOf_concat]
      exact journal_journalAppend h _
  | applyUpdate nowNs createdNs update =>
      simp only [perform, applyUpdate, written, journalOf_concat]
      split <;> exact journal_journalAppend h _
  | expireTtl nowNs walk => exact journal_foldl_removeExpired _ h

end LocalContextStore

end DdsOrchestrator.ContextStore
