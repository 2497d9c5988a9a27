import DdsOrchestrator.Studio.Catalog

/-!
What a sequence of calls leaves in the catalog. The calls that were accepted are its
history; by it the revisions of each id are 0, 1, 2, … and its generations rise, the log
is the end of the events of the history, and a reader with a cursor gets what the history
has behind it.
-/

namespace DdsOrchestrator.Studio

open Retained

/-- A call that was accepted, with the revision it returned. -/
structure Accepted where
  call : Call
  revision : Revision
  deriving DecidableEq

namespace Accepted

def kind (a : Accepted) : EventKind :=
  match a.call with
  | .publish _ none _ _ => .created
  | .publish _ (some _) _ _ => .updated
  | .delete _ _ => .deleted

def generation? (a : Accepted) : Option Generation :=
  match a.call with
  | .publish _ _ _ generation => some generation
  | .delete _ _ => none

def event (a : Accepted) (seq : ℕ) : Event := ⟨seq, a.kind, a.call.id, a.revision⟩

end Accepted

/-- The accepted calls on one id. -/
def callsOn (id : DefinitionId) (h : List Accepted) : List Accepted :=
  h.filter fun a => a.call.id = id

/-- The events of a history, numbered in its order. -/
def eventsOf (h : List Accepted) : List Event := h.mapIdx fun n a => a.event n

namespace Catalog

def accepted (c : Catalog) (call : Call) : List Accepted :=
  match (c.perform call).1 with
  | .ok revision => [⟨call, revision⟩]
  | .error _ => []

def history (calls : List Call) : List Accepted := Machine.trace after accepted new calls

/-- What an accepted call does. -/
inductive Change (c : Catalog) : Call → Revision → Catalog → Prop where
  | create {id value generation} (hitem : c.items.lookup id = none)
      (htomb : c.tombstones.lookup id = none) :
      Change c (.publish id none value generation) 0
        ({ c with items := c.items.insert id (value, 0, generation) }.pushEvent .created id 0)
  | update {id old current existing value generation next}
      (hitem : c.items.lookup id = some (old, current, existing))
      (htomb : c.tombstones.lookup id = none) (hnext : next.toNat = current.toNat + 1)
      (hgeneration : existing < generation) :
      Change c (.publish id (some current) value generation) next
        ({ c with items := c.items.insert id (value, next, generation) }.pushEvent
          .updated id next)
  | delete {id old current existing next}
      (hitem : c.items.lookup id = some (old, current, existing))
      (hnext : next.toNat = current.toNat + 1) :
      Change c (.delete id current) next
        ({ c with
          items := c.items.erase id
          tombstones := c.tombstones.insert id next }.pushEvent .deleted id next)

variable {c c' : Catalog} {id : DefinitionId} {base : Option Revision} {value : String}
  {generation : Generation} {call : Call} {r : Revision}

theorem nextRevision_eq_ok {next : Revision} :
    c.nextRevision id base generation = .ok next ↔
      (c.items.lookup id = none ∧ base = none ∧ next = 0) ∨
      ∃ old current existing, c.items.lookup id = some (old, current, existing) ∧
        base = some current ∧ next.toNat = current.toNat + 1 ∧ existing < generation := by
  unfold nextRevision
  split
  · next hitem => simp [hitem, eq_comm]
  · next old current existing b hitem =>
      simp only [hitem, Option.some.injEq, Prod.mk.injEq, reduceCtorEq, false_and, false_or]
      split
      · next e hguard =>
          simp only [reduceCtorEq, false_iff]
          rintro ⟨_, _, _, ⟨rfl, rfl, rfl⟩, rfl, hnext, -⟩
          have hok : (RevisionGuard.publish ⟨b⟩ b).1 = .ok next ↔ _ :=
            RevisionGuard.publish_eq_ok
          rw [hguard] at hok
          refine absurd (hok.mpr ⟨rfl, ?_, hnext⟩) (by simp)
          apply UInt64.toNat_inj.mp
          rw [UInt64.toNat_add, hnext]
          have hlt := next.toNat_lt
          rw [hnext] at hlt
          exact (Nat.mod_eq_of_lt hlt).symm
      · next advanced hguard =>
          obtain ⟨rfl, rfl, hadvanced⟩ := RevisionGuard.publish_eq_ok.mp hguard
          split
          · next e hgen =>
              simp only [reduceCtorEq, false_iff]
              rintro ⟨_, _, _, ⟨rfl, rfl, rfl⟩, -, -, hlt⟩
              have hok : (GenerationGuard.accept ⟨existing⟩ generation).1 = .ok () ↔ _ :=
                GenerationGuard.accept_eq_ok
              rw [hgen] at hok
              exact absurd (hok.mpr hlt) (by simp)
          · next hgen =>
              have hlt := GenerationGuard.accept_eq_ok.mp hgen
              simp only [Except.ok.injEq]
              constructor
              · rintro rfl
                exact ⟨old, b, existing, ⟨rfl, rfl, rfl⟩, rfl, hadvanced, hlt⟩
              · rintro ⟨_, _, _, ⟨rfl, rfl, rfl⟩, -, hnext, -⟩
                exact UInt64.toNat_inj.mp (hadvanced.trans hnext.symm)
  · next hitem => simp [hitem]
  · next hitem => simp [hitem]

theorem publish_cases (c : Catalog) (id : DefinitionId) (base : Option Revision)
    (value : String) (generation : Generation) :
    (∃ e, c.publish id base value generation = (.error e, c)) ∨
      ∃ r c', c.publish id base value generation = (.ok r, c') ∧
        Change c (.publish id base value generation) r c' := by
  unfold publish
  split
  · exact .inl ⟨_, rfl⟩
  · next htomb =>
      split
      · exact .inl ⟨_, rfl⟩
      · next next hnext =>
          refine .inr ⟨_, _, rfl, ?_⟩
          obtain ⟨hitem, rfl, rfl⟩ | ⟨old, current, existing, hitem, rfl, hadvance, hlt⟩ :=
            nextRevision_eq_ok.mp hnext
          · rw [if_neg (AList.lookup_eq_none.mp hitem)]
            exact .create hitem htomb
          · rw [if_pos (Map.mem_iff_lookup.mpr ⟨_, hitem⟩)]
            exact .update hitem htomb hadvance hlt

theorem delete_cases (c : Catalog) (id : DefinitionId) (base : Revision) :
    (∃ e, c.delete id base = (.error e, c)) ∨
      ∃ r c', c.delete id base = (.ok r, c') ∧ Change c (.delete id base) r c' := by
  unfold delete
  split
  · exact .inl ⟨_, rfl⟩
  · next old current existing hitem =>
      split
      · exact .inl ⟨_, rfl⟩
      · next next hguard =>
          obtain ⟨rfl, -, hnext⟩ := RevisionGuard.publish_eq_ok.mp hguard
          exact .inr ⟨_, _, rfl, .delete hitem hnext⟩

/-- A call is refused and changes nothing, or it is one of the three changes. -/
theorem perform_cases (c : Catalog) (call : Call) :
    (∃ e, c.perform call = (.error e, c)) ∨
      ∃ r c', c.perform call = (.ok r, c') ∧ Change c call r c' := by
  cases call with
  | publish id base value generation => exact publish_cases c id base value generation
  | delete id base => exact delete_cases c id base

/-- A fresh id can be created. -/
theorem perform_create (hitem : c.items.lookup id = none) (htomb : c.tombstones.lookup id = none)
    (value : String) (generation : Generation) :
    (c.perform (.publish id none value generation)).1 = .ok 0 := by
  have hnext : c.nextRevision id none generation = .ok 0 :=
    nextRevision_eq_ok.mpr (.inl ⟨hitem, rfl, rfl⟩)
  simp only [perform, publish, htomb, hnext]

theorem perform_refused {e : CatalogError} (h : (c.perform call).1 = .error e) :
    (c.perform call).2 = c := by
  obtain ⟨e', he⟩ | ⟨r, c', hok, -⟩ := perform_cases c call
  · rw [he]
  · rw [hok] at h
    cases h

theorem accepted_eq_nil {e : CatalogError} (h : (c.perform call).1 = .error e) :
    c.accepted call = [] := by
  simp [accepted, h]

theorem accepted_eq_singleton (h : (c.perform call).1 = .ok r) :
    c.accepted call = [⟨call, r⟩] := by
  simp [accepted, h]

/-! ### What is shown of an id -/

variable {h : List Accepted} {a : Accepted}

theorem callsOn_concat_self (h : List Accepted) (call : Call) (r : Revision) :
    callsOn call.id (h ++ [⟨call, r⟩]) = callsOn call.id h ++ [⟨call, r⟩] := by
  simp [callsOn]

theorem callsOn_concat_of_ne (hne : call.id ≠ id) (h : List Accepted) (r : Revision) :
    callsOn id (h ++ [⟨call, r⟩]) = callsOn id h := by
  simp [callsOn, hne]

theorem eventsOf_concat (h : List Accepted) (a : Accepted) :
    eventsOf (h ++ [a]) = eventsOf h ++ [a.event h.length] := by
  simp [eventsOf, List.mapIdx_concat]

@[simp] theorem length_eventsOf (h : List Accepted) : (eventsOf h).length = h.length := by
  simp [eventsOf]

theorem inOrder_eventsOf (h : List Accepted) : InOrder Event.seq (eventsOf h) := by
  induction h using List.reverseRecOn with
  | nil => rfl
  | append_singleton h a ih =>
      rw [eventsOf_concat]
      exact ih.concat (length_eventsOf h).symm

/-- The accepted calls on an id tell what the catalog has of it. -/
inductive Shows (c : Catalog) (id : DefinitionId) (calls : List Accepted) : Prop where
  | unused (hitem : c.items.lookup id = none) (htomb : c.tombstones.lookup id = none)
      (hcalls : calls = [])
  | live {value current existing} (hitem : c.items.lookup id = some (value, current, existing))
      (htomb : c.tombstones.lookup id = none)
      (hlast : ∃ base, calls.getLast? = some ⟨.publish id base value existing, current⟩)
      (hcurrent : current.toNat + 1 = calls.length)
      (hexisting : ∀ g ∈ calls.filterMap Accepted.generation?, g ≤ existing)
  | deleted {deletedAt} (hitem : c.items.lookup id = none)
      (htomb : c.tombstones.lookup id = some deletedAt)
      (hlast : ∃ base, calls.getLast? = some ⟨.delete id base, deletedAt⟩)
      (hcurrent : deletedAt.toNat + 1 = calls.length)

/-- The history of a catalog. -/
structure Tells (h : List Accepted) (c : Catalog) : Prop where
  state : ∀ id, Shows c id (callsOn id h)
  revisions : ∀ id, (callsOn id h).map (·.revision.toNat) = List.range (callsOn id h).length
  generations : ∀ id, ((callsOn id h).filterMap Accepted.generation?).Pairwise (· < ·)
  nextSeq : c.nextSeq = h.length
  log : c.log = lastOf retention (eventsOf h)

theorem tells_new : Tells [] new where
  state id := .unused rfl rfl rfl
  revisions id := rfl
  generations id := .nil
  nextSeq := rfl
  log := by simp [new, eventsOf]

@[simp] theorem pushEvent_items (kind : EventKind) :
    (c.pushEvent kind id r).items = c.items := rfl

@[simp] theorem pushEvent_tombstones (kind : EventKind) :
    (c.pushEvent kind id r).tombstones = c.tombstones := rfl

theorem Shows.congr {calls : List Accepted} (hs : Shows c id calls)
    (hitem : c'.items.lookup id = c.items.lookup id)
    (htomb : c'.tombstones.lookup id = c.tombstones.lookup id) : Shows c' id calls := by
  cases hs with
  | unused h₁ h₂ h₃ => exact .unused (hitem.trans h₁) (htomb.trans h₂) h₃
  | live h₁ h₂ h₃ h₄ h₅ => exact .live (hitem.trans h₁) (htomb.trans h₂) h₃ h₄ h₅
  | deleted h₁ h₂ h₃ h₄ => exact .deleted (hitem.trans h₁) (htomb.trans h₂) h₃ h₄

/-- A change that touches one id, and numbers its event by the history. -/
theorem Tells.push (ht : Tells h c) {items : Map DefinitionId (String × Revision × Generation)}
    {tombstones : Map DefinitionId Revision}
    (hother : ∀ id, id ≠ a.call.id → items.lookup id = c.items.lookup id ∧
      tombstones.lookup id = c.tombstones.lookup id)
    (hself : Shows { c with items := items, tombstones := tombstones } a.call.id
      (callsOn a.call.id h ++ [a]))
    (hrevision : a.revision.toNat = (callsOn a.call.id h).length)
    (hgeneration : ∀ g ∈ a.generation?,
      ∀ g' ∈ (callsOn a.call.id h).filterMap Accepted.generation?, g' < g) :
    Tells (h ++ [a])
      (({ c with items := items, tombstones := tombstones } : Catalog).pushEvent a.kind a.call.id
        a.revision) where
  state id := by
    by_cases hid : id = a.call.id
    · subst hid
      rw [callsOn_concat_self]
      exact hself.congr rfl rfl
    · rw [callsOn_concat_of_ne (Ne.symm hid)]
      exact (ht.state id).congr (hother id hid).1 (hother id hid).2
  revisions id := by
    by_cases hid : id = a.call.id
    · subst hid
      rw [callsOn_concat_self, List.map_append, ht.revisions, List.length_append,
        List.length_singleton, List.range_succ]
      simp [hrevision]
    · rw [callsOn_concat_of_ne (Ne.symm hid)]
      exact ht.revisions id
  generations id := by
    by_cases hid : id = a.call.id
    · subst hid
      rw [callsOn_concat_self, List.filterMap_append, List.pairwise_append]
      refine ⟨ht.generations _, ?_, fun g' hg' g hg => hgeneration g ?_ g' hg'⟩
      · cases hg : a.generation? <;> simp [hg]
      · simpa [List.mem_filterMap] using hg
    · rw [callsOn_concat_of_ne (Ne.symm hid)]
      exact ht.generations id
  nextSeq := by
    show c.nextSeq + 1 = (h ++ [a]).length
    rw [ht.nextSeq, List.length_append, List.length_singleton]
  log := by
    show retain retention (c.log ++ [⟨c.nextSeq, a.kind, a.call.id, a.revision⟩]) = _
    rw [retain_eq_lastOf, ht.log, lastOf_concat, eventsOf_concat, ht.nextSeq]
    rfl

theorem Tells.change (ht : Tells h c) (hc : Change c call r c') :
    Tells (h ++ [⟨call, r⟩]) c' := by
  cases hc with
  | @create id value generation hitem htomb =>
      -- the id was not used before
      have hnil : callsOn id h = [] := by
        cases ht.state id with
        | unused _ _ hcalls => exact hcalls
        | live hlive => simp [hitem] at hlive
        | deleted _ hdeleted => simp [htomb] at hdeleted
      refine ht.push (a := ⟨.publish id none value generation, 0⟩)
        (fun id' hne => ⟨AList.lookup_insert_ne hne, rfl⟩) ?_ ?_ ?_
      · refine .live (AList.lookup_insert _) htomb ⟨none, by simp [Call.id]⟩ ?_ ?_
        · simp [Call.id, hnil]
        · simp [Call.id, hnil, Accepted.generation?]
      · simp [Call.id, hnil]
      · simp [Call.id, hnil]
  | @update id old current existing value generation _ hitem htomb hnext hgeneration =>
      obtain ⟨hcurrent, hexisting⟩ : current.toNat + 1 = (callsOn id h).length ∧
          ∀ g ∈ (callsOn id h).filterMap Accepted.generation?, g ≤ existing := by
        cases ht.state id with
        | unused hunused => simp [hitem] at hunused
        | live hlive _ _ hcurrent hexisting =>
            rw [hitem, Option.some.injEq, Prod.mk.injEq, Prod.mk.injEq] at hlive
            obtain ⟨-, rfl, rfl⟩ := hlive
            exact ⟨hcurrent, hexisting⟩
        | deleted hdeleted => simp [hitem] at hdeleted
      have hbelow : ∀ g ∈ (callsOn id h).filterMap Accepted.generation?, g < generation :=
        fun g hg => UInt64.lt_of_le_of_lt (hexisting g hg) hgeneration
      refine ht.push (a := ⟨.publish id (some current) value generation, r⟩)
        (fun id' hne => ⟨AList.lookup_insert_ne hne, rfl⟩) ?_ ?_ ?_
      · refine .live (AList.lookup_insert _) htomb ⟨some current, by simp [Call.id]⟩ ?_ ?_
        · rw [List.length_append, List.length_singleton, hnext]
          exact congrArg (· + 1) hcurrent
        · intro g hg
          rw [List.filterMap_append, List.mem_append] at hg
          rcases hg with hg | hg
          · exact UInt64.le_of_lt (hbelow g hg)
          · obtain rfl : g = generation := by simpa [Accepted.generation?] using hg
            exact UInt64.le_refl _
      · exact hnext.trans hcurrent
      · rintro g hg g' hg'
        obtain rfl : generation = g := by simpa [Accepted.generation?] using hg
        exact hbelow g' hg'
  | @delete id old current existing _ hitem hnext =>
      have hcurrent : current.toNat + 1 = (callsOn id h).length := by
        cases ht.state id with
        | unused hunused => simp [hitem] at hunused
        | live hlive _ _ hcurrent =>
            rw [hitem, Option.some.injEq, Prod.mk.injEq, Prod.mk.injEq] at hlive
            obtain ⟨-, rfl, -⟩ := hlive
            exact hcurrent
        | deleted hdeleted => simp [hitem] at hdeleted
      refine ht.push (a := ⟨.delete id current, r⟩)
        (fun id' hne => ⟨AList.lookup_erase_ne hne, AList.lookup_insert_ne hne⟩) ?_ ?_ ?_
      · refine .deleted (AList.lookup_erase _ _) (AList.lookup_insert _)
          ⟨current, by simp [Call.id]⟩ ?_
        rw [List.length_append, List.length_singleton, hnext]
        exact congrArg (· + 1) hcurrent
      · exact hnext.trans hcurrent
      · simp [Accepted.generation?]

/-- One call: it is refused, or it is the next one of the history. -/
theorem Tells.after (ht : Tells h c) (call : Call) :
    Tells (h ++ c.accepted call) (c.after call) := by
  obtain ⟨e, he⟩ | ⟨r, c', hok, hc⟩ := perform_cases c call
  · have hstate : c.after call = c := by rw [Catalog.after, he]
    rw [accepted_eq_nil (e := e) (by rw [he]), List.append_nil, hstate]
    exact ht
  · have hstate : c.after call = c' := by rw [Catalog.after, hok]
    rw [accepted_eq_singleton (r := r) (by rw [hok]), hstate]
    exact ht.change hc

/-- A deleted id is not live, and stays deleted. -/
theorem Tells.exclusive (ht : Tells h c) (hid : id ∈ c.tombstones) : id ∉ c.items := by
  obtain ⟨deletedAt, hdeleted⟩ := Map.mem_iff_lookup.mp hid
  cases ht.state id with
  | unused hitem => exact AList.lookup_eq_none.mp hitem
  | live _ htomb => simp [hdeleted] at htomb
  | deleted hitem => exact AList.lookup_eq_none.mp hitem

/-- An id is live if the last call on it was a publication, with what that call said. -/
theorem Tells.live_iff (ht : Tells h c) (id : DefinitionId) (value : String)
    (current : Revision) (existing : Generation) :
    c.items.lookup id = some (value, current, existing) ↔
      ∃ base, (callsOn id h).getLast? = some ⟨.publish id base value existing, current⟩ := by
  cases ht.state id with
  | unused hitem htomb hcalls => simp [hitem, hcalls]
  | live hitem htomb hlast =>
      obtain ⟨base, hlast⟩ := hlast
      rw [hitem, hlast]
      constructor
      · intro hsame
        cases hsame
        exact ⟨base, rfl⟩
      · rintro ⟨_, hsame⟩
        cases hsame
        rfl
  | deleted hitem htomb hlast =>
      obtain ⟨base, hlast⟩ := hlast
      simp [hitem, hlast]

theorem Tells.deleted_iff (ht : Tells h c) (id : DefinitionId) (deletedAt : Revision) :
    c.tombstones.lookup id = some deletedAt ↔
      ∃ base, (callsOn id h).getLast? = some ⟨.delete id base, deletedAt⟩ := by
  cases ht.state id with
  | unused hitem htomb hcalls => simp [htomb, hcalls]
  | live hitem htomb hlast =>
      obtain ⟨base, hlast⟩ := hlast
      simp [htomb, hlast]
  | deleted hitem htomb hlast =>
      obtain ⟨base, hlast⟩ := hlast
      simp [htomb, hlast]

theorem mem_tombstones_after (hid : id ∈ c.tombstones) (call : Call) :
    id ∈ (c.after call).tombstones := by
  obtain ⟨e, he⟩ | ⟨r, c', hok, hc⟩ := perform_cases c call
  · rw [Catalog.after, he]
    exact hid
  · rw [Catalog.after, hok]
    cases hc with
    | create => exact hid
    | update => exact hid
    | delete => exact (AList.mem_insert _).mpr (.inr hid)

theorem tells_run (calls : List Call) : Tells (history calls) (run calls) := by
  have hrun : Machine.Along after (fun _ _ => True) new calls :=
    Machine.along_iff_forall.mpr fun _ _ _ _ => trivial
  exact hrun.trace_invariant_nil tells_new fun h c call ht _ => ht.after call

/-- A reader gets every event from its cursor on, or is told that some are gone. -/
theorem Tells.eventsSince (ht : Tells h c) (cursor : ℕ) :
    c.eventsSince cursor =
      if c.nextSeq - c.log.length ≤ cursor ∧ cursor ≤ c.nextSeq then
        .ok ((eventsOf h).drop cursor)
      else .error .cursorExpired := by
  have hlen : c.log.length = min retention h.length := by
    rw [ht.log, length_lastOf, length_eventsOf]
  unfold Catalog.eventsSince
  by_cases hexpired : cursor < c.nextSeq - c.log.length ∨ c.nextSeq < cursor
  · have hout : ¬ (c.nextSeq - c.log.length ≤ cursor ∧ cursor ≤ c.nextSeq) := by omega
    rw [if_pos hexpired, if_neg hout]
  · have hin : c.nextSeq - c.log.length ≤ cursor ∧ cursor ≤ c.nextSeq := by omega
    have hkept : (eventsOf h).length - retention ≤ cursor := by
      rw [ht.nextSeq, hlen] at hin
      rw [length_eventsOf]
      omega
    rw [if_neg hexpired, if_pos hin, ht.log, lastOf, (inOrder_eventsOf h).filter_drop hkept]

/-- What holds of the catalog after the calls. -/
structure Invariants (calls : List Call) : Prop where
  /-- The accepted calls on an id have returned 0, 1, 2, …, each within its 64 bits. -/
  revisions : ∀ id, (callsOn id (history calls)).map (·.revision.toNat) =
    List.range (callsOn id (history calls)).length
  bounded : ∀ a ∈ history calls, a.revision.toNat < 2 ^ 64
  live_iff : ∀ id value current existing,
    (run calls).items.lookup id = some (value, current, existing) ↔
      ∃ base, (callsOn id (history calls)).getLast? =
        some ⟨.publish id base value existing, current⟩
  deleted_iff : ∀ id deletedAt, (run calls).tombstones.lookup id = some deletedAt ↔
    ∃ base, (callsOn id (history calls)).getLast? = some ⟨.delete id base, deletedAt⟩
  generations : ∀ id,
    ((callsOn id (history calls)).filterMap Accepted.generation?).Pairwise (· < ·)
  exclusive : ∀ id, ¬ (id ∈ (run calls).items ∧ id ∈ (run calls).tombstones)
  buried : ∀ id later, id ∈ (run calls).tombstones → id ∉ (run (calls ++ later)).items
  refused : ∀ call e, ((run calls).perform call).1 = .error e →
    ((run calls).perform call).2 = run calls
  nextSeq : (run calls).nextSeq = (history calls).length
  log : (run calls).log = lastOf retention (eventsOf (history calls))
  length_log : (run calls).log.length = min 64 (run calls).nextSeq
  numbers : (run calls).log.map Event.seq =
    List.range' ((run calls).nextSeq - (run calls).log.length) (run calls).log.length
  eventsSince : ∀ cursor, (run calls).eventsSince cursor =
    if (run calls).nextSeq - (run calls).log.length ≤ cursor ∧ cursor ≤ (run calls).nextSeq then
      .ok ((eventsOf (history calls)).drop cursor)
    else .error .cursorExpired

theorem catalog_invariants (calls : List Call) : Invariants calls where
  revisions := (tells_run calls).revisions
  bounded a _ := a.revision.toNat_lt
  live_iff := (tells_run calls).live_iff
  deleted_iff := (tells_run calls).deleted_iff
  generations := (tells_run calls).generations
  exclusive id h := (tells_run calls).exclusive h.2 h.1
  buried id later hid := by
    have hrun : run (calls ++ later) = later.foldl Catalog.after (run calls) :=
      List.foldl_append
    have hlater : id ∈ (run (calls ++ later)).tombstones := by
      rw [hrun]
      exact Machine.foldl_invariant (I := fun c : Catalog => id ∈ c.tombstones) later hid
        fun _ call hc => mem_tombstones_after hc call
    exact (tells_run _).exclusive hlater
  refused call e := perform_refused
  nextSeq := (tells_run calls).nextSeq
  log := (tells_run calls).log
  length_log := by
    rw [(tells_run calls).log, length_lastOf, length_eventsOf, (tells_run calls).nextSeq]
    rfl
  numbers := by
    have hdrop := (inOrder_eventsOf (history calls)).map_drop
      ((eventsOf (history calls)).length - retention)
    rw [(tells_run calls).log, (tells_run calls).nextSeq, length_lastOf, lastOf, hdrop,
      length_eventsOf]
    congr 1
    · omega
    · omega
  eventsSince := (tells_run calls).eventsSince

end Catalog

end DdsOrchestrator.Studio
