import DdsOrchestrator.Studio.SharedCatalog

/-!
What a Studio is told about a conflict. The catalog counts the revisions of an id, and keeps
the generation that the last publication proposed. A refusal has one field for the number
that was in the way, and the Studio reads it as a revision; it makes its generations from
revisions as well, so that among Studios the two numbers are the same.

They are not where another client proposes a generation of its own. A Studio that publishes
from the current revision is then refused for its generation, and shows the generation of the
other one as the revision to start from.
-/

namespace DdsOrchestrator.Studio

open Catalog

/-- The generation of a Studio, which the snapshot does not tell it. -/
def generationOf (base : Option Revision) : Generation := base.elim 0 (· + 1)

/-- What a Studio asks the node for. -/
inductive StudioRequest where
  | publish (id : DefinitionId) (base : Option Revision) (value : String)
  | delete (id : DefinitionId) (base : Revision)
  deriving DecidableEq

namespace StudioRequest

def id : StudioRequest → DefinitionId
  | publish id _ _ => id
  | delete id _ => id

/-- The request with the generation in it. -/
def entry : StudioRequest → JournalEntry
  | publish id base value => .publish id base value (generationOf base)
  | delete id base => .delete id base

@[simp] theorem id_entry (request : StudioRequest) : request.entry.id = request.id := by
  cases request with
  | publish => rfl
  | delete => rfl

end StudioRequest

/-- The current revision of an id. -/
def Catalog.revision? (c : Catalog) (id : DefinitionId) : Option Revision :=
  (c.items.lookup id).map (·.2.1)

/-- All publications are those of Studios; anybody may have deleted. -/
def PublishedByStudios (calls : List Call) : Prop :=
  ∀ id base value generation, Call.publish id base value generation ∈ calls →
    generation = generationOf base

/-- The request publishes from the revision that the id has. -/
def StudioRequest.FromCurrent (request : StudioRequest) (c : Catalog) : Prop :=
  ∃ id current value, request = .publish id (some current) value ∧ c.revision? id = some current

/-- What the Studio gets for its request, from a node that went through the calls. -/
def studioAnswer (serde : SerdeJson) (url : String) (calls : List Call)
    (journal : Option Journal) (request : StudioRequest) (wire : Wire) :
    Except SharedCatalogError UInt64 :=
  (requestMutation serde url ⟨run calls, journal⟩ request.entry wire).1

structure ReportsConflicts (serde : SerdeJson) (url : String) (calls : List Call)
    (journal : Option Journal) (request : StudioRequest) (wire : Wire) : Prop where
  /-- A conflict that names a number names the current revision. -/
  reported : ∀ r, studioAnswer serde url calls journal request wire = .error (.conflict (some r)) →
    (run calls).revision? request.id = some r
  generations : PublishedByStudios calls → ∀ id value current existing,
    (run calls).items.lookup id = some (value, current, existing) → existing = current
  accepted : PublishedByStudios calls → request.FromCurrent (run calls) → wire = .answered .ok →
    ∃ next, studioAnswer serde url calls journal request wire = .ok next

/-- The request publishes from the current revision of an id whose generation is above it. -/
def Overtaken (c : Catalog) (request : StudioRequest) : Prop :=
  ∃ id value old current existing, request = .publish id (some current) value ∧
    c.items.lookup id = some (old, current, existing) ∧ current < existing

/-- The request publishes from a revision that has no next one. -/
def AtLastRevision (c : Catalog) (request : StudioRequest) : Prop :=
  ∃ id current value, request = .publish id (some current) value ∧
    c.revision? id = some current ∧ UInt64.size ≤ current.toNat + 1

/-! ### What a refusal says -/

namespace Catalog

variable {c : Catalog} {id : DefinitionId} {base : Option Revision} {generation : Generation}
  {e : CatalogError}

theorem revision?_of_lookup {item : String × Revision × Generation}
    (hitem : c.items.lookup id = some item) : c.revision? id = some item.2.1 := by
  rw [revision?, hitem]
  rfl

/-- The number of a conflict is the revision; that of a stale generation is a generation. -/
theorem nextRevision_refused (h : c.nextRevision id base generation = .error e) :
    e = .conflict (c.revision? id) ∨
      ∃ old current existing, base = some current ∧
        c.items.lookup id = some (old, current, existing) ∧
        current.toNat + 1 < UInt64.size ∧ generation ≤ existing ∧
        e = .staleGeneration generation existing := by
  unfold nextRevision at h
  split at h
  · cases h
  · next old current existing b hitem =>
      split at h
      · cases h
        exact .inl (by rw [revision?_of_lookup hitem])
      · next next hguard =>
          obtain ⟨rfl, -, hnext⟩ := RevisionGuard.publish_eq_ok.mp hguard
          split at h
          · next u hstale =>
              cases h
              refine .inr ⟨old, b, existing, rfl, hitem, hnext ▸ next.toNat_lt, ?_, rfl⟩
              by_contra hlt
              have hok := (GenerationGuard.accept_eq_ok (g := ⟨existing⟩) (u := ())).mpr
                (UInt64.not_le.mp hlt)
              rw [hok] at hstale
              cases hstale
          · cases h
  · next old current existing hitem =>
      cases h
      exact .inl (by rw [revision?_of_lookup hitem])
  · next b hitem =>
      cases h
      exact .inl (by rw [revision?, hitem]; rfl)

theorem perform_error_cases {call : Call} (h : (c.perform call).1 = .error e) :
    e = .conflict (c.revision? call.id) ∨ (∃ deletedAt, e = .tombstoned deletedAt) ∨
      ∃ id value generation old current existing,
        call = .publish id (some current) value generation ∧
        c.items.lookup id = some (old, current, existing) ∧
        current.toNat + 1 < UInt64.size ∧ generation ≤ existing ∧
        e = .staleGeneration generation existing := by
  cases call with
  | publish id base value generation =>
      simp only [perform, publish] at h
      split at h
      · next deletedAt _ =>
          cases h
          exact .inr (.inl ⟨deletedAt, rfl⟩)
      · split at h
        · next e' hrefused =>
            cases h
            obtain hconflict | ⟨old, current, existing, rfl, hitem, hnext, hle, rfl⟩ :=
              nextRevision_refused hrefused
            · exact .inl hconflict
            · exact .inr (.inr ⟨id, value, generation, old, current, existing, rfl, hitem, hnext,
                hle, rfl⟩)
        · cases h
  | delete id base =>
      simp only [perform, delete] at h
      split at h
      · next hitem =>
          cases h
          exact .inl (by rw [revision?, Call.id, hitem]; rfl)
      · next old current existing hitem =>
          split at h
          · cases h
            exact .inl (by rw [Call.id, revision?_of_lookup hitem])
          · cases h

/-- The revision is checked first, so a stale generation comes with the current one. -/
theorem perform_stale {value old : String} {current existing : UInt64}
    (htomb : c.tombstones.lookup id = none)
    (hitem : c.items.lookup id = some (old, current, existing))
    (hnext : current.toNat + 1 < UInt64.size) (hle : generation ≤ existing) :
    (c.perform (.publish id (some current) value generation)).1 =
      .error (.staleGeneration generation existing) := by
  have hguard : ((⟨current⟩ : RevisionGuard).publish current).1 = .ok (current + 1) := by
    simp [RevisionGuard.publish, hnext]
  have hstale : ((⟨existing⟩ : GenerationGuard).accept generation).1 =
      .error (.stale generation existing) := by
    simp [GenerationGuard.accept, hle]
  simp only [perform, publish, htomb, nextRevision, hitem, hguard, hstale]

theorem perform_exhausted {value old : String} {current existing : UInt64}
    (htomb : c.tombstones.lookup id = none)
    (hitem : c.items.lookup id = some (old, current, existing))
    (hlast : UInt64.size ≤ current.toNat + 1) :
    (c.perform (.publish id (some current) value generation)).1 =
      .error (.conflict (some current)) := by
  have hguard : ((⟨current⟩ : RevisionGuard).publish current).1 = .error (.overflow current) := by
    simp [RevisionGuard.publish, Nat.not_lt.mpr hlast]
  simp only [perform, publish, htomb, nextRevision, hitem, hguard]

theorem perform_update {value old : String} {current existing : UInt64}
    (htomb : c.tombstones.lookup id = none)
    (hitem : c.items.lookup id = some (old, current, existing))
    (hnext : current.toNat + 1 < UInt64.size) (hlt : existing < generation) :
    (c.perform (.publish id (some current) value generation)).1 = .ok (current + 1) := by
  have hok : c.nextRevision id (some current) generation = .ok (current + 1) := by
    refine nextRevision_eq_ok.mpr (.inr ⟨old, current, existing, hitem, rfl, ?_, hlt⟩)
    rw [UInt64.toNat_add]
    exact Nat.mod_eq_of_lt hnext
  simp only [perform, publish, htomb, hok]

end Catalog

/-! ### What reaches the Studio -/

section

variable {serde : SerdeJson} {url : String} {a : CatalogAuthority} {entry : JournalEntry}
  {io : AppendIo} {err : AuthorityError}

/-- The journal fails as a whole, and never as a conflict. -/
theorem replayLines_error {path : String} : ∀ {lines : List (List Char)} {lineNo : ℕ}
    {c : Catalog}, (CatalogAuthority.replayLines serde path lines lineNo c).1 = .error err →
      err.status = 500 := by
  intro lines
  induction lines with
  | nil =>
      intro lineNo c h
      cases h
  | cons line lines ih =>
      intro lineNo c h
      rw [CatalogAuthority.replayLines] at h
      split at h
      · exact ih h
      · split at h
        · cases h
          rfl
        · split at h
          · cases h
            rfl
          · exact ih h

theorem rebuildFromJournal_error (h : (a.rebuildFromJournal serde).1 = .error err) :
    err.status = 500 := by
  unfold CatalogAuthority.rebuildFromJournal at h
  split at h
  · cases h
  · split at h
    · cases h
    · split at h
      · cases h
        rfl
      · exact replayLines_error h

theorem append_error (h : (a.append entry io).1 = .error err) : err.status = 500 := by
  unfold CatalogAuthority.append at h
  split at h
  · cases h
  · next j _ =>
      split at h
      · cases h
        rfl
      · cases h
        rfl
      · rcases hwrite : CatalogAuthority.writeSyncTruncate j.content j.content.size entry.line io
          with ⟨_ | _, file⟩
        · rw [hwrite] at h
          cases h
          rfl
        · rw [hwrite] at h
          cases h

theorem mutate_error (h : (a.mutate serde entry io).1 = .error err) :
    (∃ e, (a.catalog.perform entry).1 = .error e ∧ err = .fromCatalog e) ∨ err.status = 500 := by
  unfold CatalogAuthority.mutate at h
  split at h
  · next e catalog hrefused =>
      cases h
      exact .inl ⟨e, by rw [hrefused], rfl⟩
  · split at h
    · cases h
    · next failed a' happend =>
        split at h
        · next e a'' hrebuild =>
            cases h
            exact .inr (rebuildFromJournal_error (a := a') (by rw [hrebuild]))
        · cases h
          exact .inr (append_error (by rw [happend]))

/-- A refusal of the catalog reaches the Studio as it is, unless the answer is lost. -/
theorem requestMutation_refused {e : CatalogError} (h : (a.catalog.perform entry).1 = .error e) :
    (requestMutation serde url a entry (.answered io)).1 =
      .error (mutateError url (.fromCatalog e)) := by
  have hmutate : (a.mutate serde entry io).1 = .error (.fromCatalog e) := by
    unfold CatalogAuthority.mutate
    split
    · next e' catalog hrefused =>
        rw [hrefused] at h
        cases h
        rfl
    · next revision catalog hok =>
        rw [hok] at h
        cases h
  simp only [requestMutation, hmutate, Except.mapError]

theorem requestMutation_ok {r : Revision} (h : (a.catalog.perform entry).1 = .ok r) :
    (requestMutation serde url a entry (.answered .ok)).1 = .ok r := by
  have happend : ∀ a' : CatalogAuthority, (a'.append entry .ok).1 = .ok () := by
    intro a'
    unfold CatalogAuthority.append
    split
    · rfl
    · rfl
  have hmutate : (a.mutate serde entry .ok).1 = .ok r := by
    unfold CatalogAuthority.mutate
    split
    · next e catalog hrefused =>
        rw [hrefused] at h
        cases h
    · next revision catalog hok =>
        rw [hok] at h
        cases h
        split
        · rfl
        · next failed a' hfailed =>
            have hboth := happend { a with catalog := catalog }
            rw [hfailed] at hboth
            cases hboth
  simp only [requestMutation, hmutate, Except.mapError]

/-- A conflict comes from a refusal of the catalog that was answered. -/
theorem requestMutation_conflict {wire : Wire} {current : Option UInt64}
    (h : (requestMutation serde url a entry wire).1 = .error (.conflict current)) :
    ∃ io e, wire = .answered io ∧ (a.catalog.perform entry).1 = .error e ∧
      (AuthorityError.fromCatalog e).status = 409 ∧
      (AuthorityError.fromCatalog e).detailsCurrent = current := by
  cases wire with
  | answered io =>
      cases hmutate : (a.mutate serde entry io).1 with
      | ok r =>
          simp only [requestMutation, hmutate, Except.mapError, reduceCtorEq] at h
      | error err =>
          simp only [requestMutation, hmutate, Except.mapError, Except.error.injEq] at h
          obtain ⟨e, he, rfl⟩ | hjournal := mutate_error hmutate
          · refine ⟨io, e, rfl, he, ?_⟩
            unfold mutateError at h
            split at h
            · next hstatus => exact ⟨hstatus, by simpa using h⟩
            · split at h
              · cases h
              · cases h
          · simp [mutateError, hjournal, statusError] at h
  | failed f =>
      cases f with
      | unauthorized => simp [requestMutation, Failure.error] at h
      | transport detail => simp [requestMutation, Failure.error] at h
  | lost io f =>
      cases f with
      | unauthorized => simp [requestMutation, Failure.error] at h
      | transport detail => simp [requestMutation, Failure.error] at h

end

/-! ### Generations among Studios -/

/-- The generation of an id is its revision. -/
def Catalog.Paired (c : Catalog) : Prop :=
  ∀ id value current existing, c.items.lookup id = some (value, current, existing) →
    existing = current

theorem Catalog.Paired.after {c : Catalog} (hpaired : c.Paired) {call : Call}
    (hstudio : ∀ id base value generation, call = .publish id base value generation →
      generation = generationOf base) : (c.after call).Paired := by
  obtain ⟨e, he⟩ | ⟨r, c', hok, hchange⟩ := perform_cases c call
  · rw [Catalog.after, he]
    exact hpaired
  · rw [Catalog.after, hok]
    intro id' value' current' existing' hitem'
    cases hchange with
    | @create id value generation hitem htomb =>
        obtain ⟨-, hsame⟩ | ⟨-, hother⟩ := Map.lookup_insert_eq_some.mp hitem'
        · cases hsame
          exact hstudio _ _ _ _ rfl
        · exact hpaired _ _ _ _ hother
    | @update id old current existing value generation next hitem htomb hnext hlt =>
        obtain ⟨-, hsame⟩ | ⟨-, hother⟩ := Map.lookup_insert_eq_some.mp hitem'
        · cases hsame
          rw [hstudio _ _ _ _ rfl]
          -- the next revision is one that 64 bits hold
          apply UInt64.toNat_inj.mp
          show (current + 1).toNat = _
          have hbound := r.toNat_lt
          rw [hnext] at hbound ⊢
          rw [UInt64.toNat_add]
          exact Nat.mod_eq_of_lt hbound
        · exact hpaired _ _ _ _ hother
    | @delete id old current existing next hitem hnext =>
        have herased : (c.items.erase id).lookup id' = some (value', current', existing') := hitem'
        rw [Map.lookup_erase_if] at herased
        split at herased
        · cases herased
        · exact hpaired _ _ _ _ herased

theorem studiosPaired_run {calls : List Call} (hstudios : PublishedByStudios calls) :
    (run calls).Paired := by
  have hrun : Machine.Along Catalog.after (fun _ call => ∀ id base value generation,
      call = .publish id base value generation → generation = generationOf base)
      Catalog.new calls := by
    refine Machine.along_iff_forall.mpr fun before call after hcalls => ?_
    intro id base value generation hcall
    refine hstudios id base value generation ?_
    rw [hcalls, hcall]
    simp
  refine hrun.invariant ?_ fun c call hpaired hstudio => hpaired.after hstudio
  intro id value current existing hitem
  cases hitem

/-! ### Both halves -/

section

variable {serde : SerdeJson} {url : String} {calls : List Call} {journal : Option Journal}
  {request : StudioRequest} {wire : Wire}

theorem lookup_of_revision? {c : Catalog} {id : DefinitionId} {current : Revision}
    (h : c.revision? id = some current) :
    ∃ old existing, c.items.lookup id = some (old, current, existing) := by
  obtain ⟨⟨old, _, existing⟩, hitem, rfl⟩ := Option.map_eq_some_iff.mp h
  exact ⟨old, existing, hitem⟩

theorem tombstones_of_live {id : DefinitionId} {item : String × Revision × Generation}
    (hitem : (run calls).items.lookup id = some item) :
    (run calls).tombstones.lookup id = none := by
  rw [AList.lookup_eq_none]
  intro hdeleted
  exact (tells_run calls).exclusive hdeleted (Map.mem_iff_lookup.mpr ⟨_, hitem⟩)

/-- The generation of a Studio is above the revision it starts from. -/
theorem toNat_generationOf {current : Revision} (hnext : current.toNat + 1 < UInt64.size) :
    (generationOf (some current)).toNat = current.toNat + 1 := by
  show (current + 1).toNat = _
  rw [UInt64.toNat_add]
  exact Nat.mod_eq_of_lt hnext

theorem generationOf_le_iff {current existing : UInt64}
    (hnext : current.toNat + 1 < UInt64.size) :
    generationOf (some current) ≤ existing ↔ current < existing := by
  rw [UInt64.le_iff_toNat_le, UInt64.lt_iff_toNat_lt, toNat_generationOf hnext]
  exact Iff.rfl

theorem reported_of_not_overtaken
    (hkept : ¬ ((∃ io, wire = .answered io) ∧ Overtaken (run calls) request)) {r : UInt64}
    (h : studioAnswer serde url calls journal request wire = .error (.conflict (some r))) :
    (run calls).revision? request.id = some r := by
  obtain ⟨io, e, rfl, hrefused, hstatus, hcurrent⟩ := requestMutation_conflict h
  obtain rfl | ⟨deletedAt, rfl⟩ |
      ⟨id, value, generation, old, current, existing, hentry, hitem, hnext, hle, rfl⟩ :=
    perform_error_cases hrefused
  · rw [← StudioRequest.id_entry]
    exact hcurrent
  · cases hstatus
  · refine absurd ⟨⟨io, rfl⟩, ?_⟩ hkept
    cases request with
    | delete id base => cases hentry
    | publish id' base value' =>
        cases hentry
        exact ⟨id, value, old, current, existing, rfl, hitem, (generationOf_le_iff hnext).mp hle⟩

/-- The Studio takes the generation that was in its way for a revision. -/
theorem not_reported_of_overtaken {io : AppendIo} (h : Overtaken (run calls) request) :
    ∃ r, studioAnswer serde url calls journal request (.answered io) =
      .error (.conflict (some r)) ∧ (run calls).revision? request.id ≠ some r := by
  obtain ⟨id, value, old, current, existing, rfl, hitem, hlt⟩ := h
  have hnext : current.toNat + 1 < UInt64.size :=
    Nat.lt_of_le_of_lt (UInt64.lt_iff_toNat_lt.mp hlt) existing.toNat_lt
  refine ⟨existing, requestMutation_refused (perform_stale (tombstones_of_live hitem) hitem hnext
    ((generationOf_le_iff hnext).mpr hlt)), ?_⟩
  rw [StudioRequest.id, revision?_of_lookup hitem, Ne, Option.some.injEq]
  exact UInt64.ne_of_lt hlt

theorem accepted_of_not_atLastRevision (hpaired : (run calls).Paired)
    (hcurrent : request.FromCurrent (run calls)) (hroom : ¬ AtLastRevision (run calls) request) :
    ∃ next, studioAnswer serde url calls journal request (.answered .ok) = .ok next := by
  obtain ⟨id, current, value, rfl, hrevision⟩ := hcurrent
  obtain ⟨old, existing, hitem⟩ := lookup_of_revision? hrevision
  have hnext : current.toNat + 1 < UInt64.size :=
    Nat.not_le.mp fun hlast => hroom ⟨id, current, value, rfl, hrevision, hlast⟩
  have hlt : existing < generationOf (some current) := by
    rw [hpaired id old current existing hitem, UInt64.lt_iff_toNat_lt, toNat_generationOf hnext]
    exact Nat.lt_succ_self _
  exact ⟨_, requestMutation_ok (perform_update (tombstones_of_live hitem) hitem hnext hlt)⟩

theorem not_accepted_of_atLastRevision (h : AtLastRevision (run calls) request) :
    request.FromCurrent (run calls) ∧
      ∀ next, studioAnswer serde url calls journal request (.answered .ok) ≠ .ok next := by
  obtain ⟨id, current, value, rfl, hrevision, hlast⟩ := h
  obtain ⟨old, existing, hitem⟩ := lookup_of_revision? hrevision
  refine ⟨⟨id, current, value, rfl, hrevision⟩, fun next hok => ?_⟩
  have hrefused : studioAnswer serde url calls journal (.publish id (some current) value)
      (.answered .ok) = _ :=
    requestMutation_refused (perform_exhausted (tombstones_of_live hitem) hitem hlast)
  rw [hrefused] at hok
  cases hok

end

/-- A conflict tells the current revision, unless the generation of the id is above it. Where
only Studios have published it never is, and a publication from the current revision is
accepted as long as there is a next one. -/
theorem reportsConflicts_iff (serde : SerdeJson) (url : String) (calls : List Call)
    (journal : Option Journal) (request : StudioRequest) (wire : Wire) :
    ReportsConflicts serde url calls journal request wire ↔
      ¬ ((∃ io, wire = .answered io) ∧ Overtaken (run calls) request) ∧
      ¬ (PublishedByStudios calls ∧ wire = .answered .ok ∧
        AtLastRevision (run calls) request) := by
  constructor
  · intro h
    constructor
    · rintro ⟨⟨io, rfl⟩, hover⟩
      obtain ⟨r, hconflict, hother⟩ : ∃ r, studioAnswer serde url calls journal request
          (.answered io) = .error (.conflict (some r)) ∧
          (run calls).revision? request.id ≠ some r := not_reported_of_overtaken hover
      exact hother (h.reported r hconflict)
    · rintro ⟨hstudios, rfl, hlast⟩
      obtain ⟨hcurrent, hrefused⟩ := not_accepted_of_atLastRevision hlast
      obtain ⟨next, hok⟩ := h.accepted hstudios hcurrent rfl
      exact hrefused next hok
  · rintro ⟨hover, hroom⟩
    refine ⟨fun r => reported_of_not_overtaken hover, studiosPaired_run, ?_⟩
    rintro hstudios hcurrent rfl
    exact accepted_of_not_atLastRevision (studiosPaired_run hstudios) hcurrent
      fun hlast => hroom ⟨hstudios, rfl, hlast⟩

/-- Another client proposed generation 10 for revision 0; the Studio is told to start from
revision 10. -/
theorem generation_reported_as_revision :
    ¬ ∀ (serde : SerdeJson) (url : String) (calls : List Call) (journal : Option Journal)
      (request : StudioRequest) (wire : Wire),
      ReportsConflicts serde url calls journal request wire := by
  intro h
  have hreports := h ⟨fun _ => .error ""⟩ "http://node" [.publish "a" none "v" 10] none
    (.publish "a" (some 0) "w") (.answered .ok)
  have hrevision := hreports.reported 10 (by decide)
  exact absurd hrevision (by decide)

end DdsOrchestrator.Studio
