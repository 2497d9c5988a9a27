import Mathlib.Data.List.Induction
import DdsOrchestrator.ContextStore.Journal

/-!
Whether a store that is opened again holds what it held. A journal line carries the
time at which its context expires, but not the time at which an update created its
context: the replay reads the clock for it. Everything else is restored, so the
replay is faithful in exactly the runs in which no update creates a context.
-/

namespace DdsOrchestrator.ContextStore

/-- A call, or the process begins again with the file it left. -/
inductive Event where
  | call (c : Call)
  | restart (clock : Nat → UInt64)

namespace LocalContextStore

/-- The store on a journal that did not exist. -/
def fresh : LocalContextStore := { inMemory with journal := some .empty }

variable (serde : SerdeJson)

def step (s : LocalContextStore) : Event → LocalContextStore
  | .call c => s.perform serde c
  | .restart clock =>
      match openStore serde clock s.journal with
      | .ok s' => s'
      | .error _ => s

/-- Whenever the journal is opened again, each context is there with its snapshot and
its time of expiry, and no other one is. -/
def Reopens (s : LocalContextStore) : Prop :=
  ∀ clock, ∃ s', openStore serde clock s.journal = .ok s' ∧
    ∀ contextId, s'.entries.lookup contextId = s.entries.lookup contextId

/-- An update of the event is for a context that the store has, or its delta is
refused. -/
def CreatesNothing (s : LocalContextStore) : Event → Prop
  | .call (.applyUpdate _ _ update) =>
      update.contextId ∈ s.entries ∨
        ∃ e, applyMessagesDelta serde update.contextId "[]" update = .error e
  | _ => True

/-- The journal is complete records that give the entries at every clock. -/
def Faithful (s : LocalContextStore) : Prop :=
  ∃ rs, s.journal = some (journalOf rs) ∧ ∀ clock, restore serde clock rs = s.entries

end LocalContextStore

open LocalContextStore

variable {serde : SerdeJson} {entries : Entries} {update : ContextUpdate}

/-- The clock matters to an update only where it creates its context. -/
theorem applyRecord_update_clock (expiresAtNs : UInt64)
    (h : update.contextId ∈ entries ∨
      ∃ e, applyMessagesDelta serde update.contextId "[]" update = .error e) (t t' : UInt64) :
    applyRecord serde t entries (.update update expiresAtNs) =
      applyRecord serde t' entries (.update update expiresAtNs) := by
  have hentry : applyUpdateEntry serde t entries update expiresAtNs =
      applyUpdateEntry serde t' entries update expiresAtNs := by
    unfold applyUpdateEntry
    rcases h with hmem | ⟨e, he⟩
    · obtain ⟨entry, hentry⟩ := Map.mem_iff_lookup.mp hmem
      simp only [hentry]
    · rw [he]
      rfl
  simp only [applyRecord, hentry]

/-- A context that an update creates has the time of the clock. -/
theorem lookup_applyRecord_created {messages : String} (hmem : update.contextId ∉ entries)
    (hdelta : applyMessagesDelta serde update.contextId "[]" update = .ok messages)
    (t expiresAtNs : UInt64) :
    (applyRecord serde t entries (.update update expiresAtNs)).lookup update.contextId =
      some ⟨{ snapshotFromUpdate update t with messagesJson := messages }, expiresAtNs⟩ := by
  have hnone : entries.lookup update.contextId = none := AList.lookup_eq_none.mpr hmem
  simp [applyRecord, applyUpdateEntry, hnone, hdelta, Except.map]

theorem restore_append_expire (clock : Nat → UInt64) (rs : List JournalRecord)
    (contextIds : List String) :
    restore serde clock (rs ++ contextIds.map .expire) =
      contextIds.foldl (fun entries contextId => entries.erase contextId)
        (restore serde clock rs) := by
  induction contextIds generalizing rs with
  | nil => simp
  | cons id ids ih =>
      rw [List.map_cons, List.append_cons, ih, restore_concat]
      rfl

namespace LocalContextStore

theorem fresh_faithful : Faithful serde fresh := ⟨[], rfl, fun _ => rfl⟩

/-- Under the condition, what a call does is what a replay of its records does. -/
theorem Faithful.perform {s : LocalContextStore} (hs : Faithful serde s) (c : Call)
    (hc : CreatesNothing serde s (.call c)) : Faithful serde (s.perform serde c) := by
  obtain ⟨rs, hjournal, hrestore⟩ := hs
  refine ⟨_, journal_perform serde hjournal c, fun clock => ?_⟩
  rw [entries_perform]
  cases c with
  | putSnapshot nowNs snapshot =>
      rw [written, restore_concat, hrestore]
      rfl
  | applyUpdate nowNs createdNs update =>
      rw [written, restore_concat, hrestore]
      exact applyRecord_update_clock _ hc _ _
  | expireTtl nowNs walk =>
      rw [written, restore_append_expire, hrestore, List.foldl_map]
      rfl

variable (hread : ∀ r : JournalRecord, serde.recordFromStr r.toText = some r)
include hread

theorem Faithful.reopens {s : LocalContextStore} (hs : Faithful serde s) : Reopens serde s := by
  obtain ⟨rs, hjournal, hrestore⟩ := hs
  intro clock
  rw [hjournal]
  refine ⟨_, openStore_journalOf hread clock rs, fun contextId => ?_⟩
  rw [hrestore]

theorem Faithful.step {s : LocalContextStore} (hs : Faithful serde s) (e : Event)
    (he : CreatesNothing serde s e) : Faithful serde (s.step serde e) := by
  cases e with
  | call c => exact hs.perform c he
  | restart clock =>
      obtain ⟨rs, hjournal, hrestore⟩ := hs
      have hstep : s.step serde (.restart clock) =
          ⟨restore serde clock rs, some (journalOf rs), rs.length⟩ := by
        simp only [LocalContextStore.step, hjournal, openStore_journalOf hread]
      rw [hstep]
      exact ⟨rs, rfl, fun clock' => by rw [hrestore, hrestore]⟩

/-- A store that has just created a context by an update is not reopened as it was:
another clock gives the context another date. -/
theorem Faithful.createsNothing {s : LocalContextStore} (hs : Faithful serde s) (e : Event)
    (hopen : Reopens serde (s.step serde e)) : CreatesNothing serde s e := by
  match e with
  | .restart clock => trivial
  | .call (.putSnapshot nowNs snapshot) => trivial
  | .call (.expireTtl nowNs walk) => trivial
  | .call (.applyUpdate nowNs createdNs update) =>
      by_contra hcreates
      rw [CreatesNothing, not_or] at hcreates
      obtain ⟨hmem, hrefused⟩ := hcreates
      obtain ⟨messages, hdelta⟩ :
          ∃ m, applyMessagesDelta serde update.contextId "[]" update = .ok m := by
        cases h : applyMessagesDelta serde update.contextId "[]" update with
        | ok m => exact ⟨m, rfl⟩
        | error e => exact absurd ⟨e, h⟩ hrefused
      obtain ⟨rs, hjournal, hrestore⟩ := hs
      obtain ⟨s', hs', hlookup⟩ := hopen fun _ => createdNs + 1
      rw [LocalContextStore.step, journal_perform serde hjournal,
        openStore_journalOf hread, Except.ok.injEq] at hs'
      have hsame := hlookup update.contextId
      rw [← hs', LocalContextStore.step, entries_perform] at hsame
      simp only [written, restore_concat, hrestore, List.foldl_cons, List.foldl_nil,
        lookup_applyRecord_created hmem hdelta, LocalContextStore.createdNs, snapshotFromUpdate,
        Option.some.injEq, ContextEntry.mk.injEq, ContextSnapshot.mk.injEq] at hsame
      simp at hsame

end LocalContextStore

/-- A store is reopened as it was after every part of a run exactly if no update of
the run creates a context. -/
theorem replay_faithful_iff
    (hread : ∀ r : JournalRecord, serde.recordFromStr r.toText = some r) (events : List Event) :
    (∀ before after, events = before ++ after →
        Reopens serde (before.foldl (LocalContextStore.step serde) fresh)) ↔
      Machine.Along (LocalContextStore.step serde) (CreatesNothing serde) fresh events := by
  constructor
  · intro hopen
    -- by induction on the run: up to its last event the store is faithful
    induction events using List.reverseRecOn with
    | nil => trivial
    | append_singleton events e ih =>
        have hbefore := ih fun before after h => hopen before (after ++ [e]) (by simp [h])
        have hfaithful := hbefore.invariant fresh_faithful
          fun s e hs he => hs.step hread e he
        have hlast := hopen (events ++ [e]) [] (by simp)
        rw [List.foldl_append] at hlast
        exact Machine.along_concat.mpr ⟨hbefore, hfaithful.createsNothing hread e hlast⟩
  · rintro hrun before after rfl
    rw [Machine.along_append] at hrun
    exact (hrun.1.invariant fresh_faithful fun s e hs he => hs.step hread e he).reopens hread

/-- A reader that takes exactly the records as they are written. -/
noncomputable def exactSerde : SerdeJson where
  fromStr s := if s = "[]" then .ok (.arr .nil) else .error "expected value"
  toText _ := "[]"
  recordFromStr := Function.partialInv JournalRecord.toText

theorem exactSerde_read (r : JournalRecord) : exactSerde.recordFromStr r.toText = some r :=
  Function.partialInv_left JournalRecord.toText_injective r

def sampleSnapshot : ContextSnapshot := ⟨"c", "client", "session", "[]", "\x7b\x7d", 0, 1, 1, 60⟩

/-- An update that clears the messages of its context. -/
def clearing (contextId : String) : ContextUpdate := ⟨contextId, updateClear, "", "", 2⟩

theorem put_then_cleared_reopens :
    Reopens exactSerde
      ([Event.call (.putSnapshot 1 sampleSnapshot), .call (.applyUpdate 2 2 (clearing "c")),
        .restart fun _ => 9].foldl (LocalContextStore.step exactSerde) fresh) := by
  apply (replay_faithful_iff exactSerde_read _).mpr _ _ [] (List.append_nil _).symm
  refine ⟨trivial, .inl ?_, trivial, trivial⟩
  rw [LocalContextStore.step, entries_perform]
  exact mem_upsertEntry ∅ sampleSnapshot _

/-- A context that an update created has another date after the journal is opened
again. -/
theorem cleared_context_redated :
    ¬ Reopens exactSerde
      ([Event.call (.applyUpdate 2 2 (clearing "c"))].foldl (LocalContextStore.step exactSerde)
        fresh) := by
  rw [List.foldl_cons, List.foldl_nil]
  intro hopen
  have hnothing : CreatesNothing exactSerde fresh (.call (.applyUpdate 2 2 (clearing "c"))) :=
    fresh_faithful.createsNothing exactSerde_read _ hopen
  rcases hnothing with hmem | ⟨e, he⟩
  · exact AList.notMem_empty _ hmem
  · cases he

end DdsOrchestrator.ContextStore
