import DdsOrchestrator.Lib.Assoc
import DdsOrchestrator.Lib.Machine
import DdsOrchestrator.Lib.Retained

/-!
The catalog of definitions: items with a revision and a generation each, tombstones of
deleted ids, and a log of the last events. A call names the revision it starts from, and
is refused before it has any effect if that is not the current one. Events are numbered
without a bound, every other counter has 64 bits.
-/

namespace DdsOrchestrator.Studio

abbrev DefinitionId := String
abbrev Revision := UInt64
abbrev Generation := UInt64

/-! ### The guards -/

inductive RevisionError where
  | stale (base current : Revision)
  | overflow (current : Revision)
  deriving DecidableEq

structure RevisionGuard where
  current : Revision
  deriving DecidableEq

/-- Publishing from the current revision advances it by one, if there is a next one. -/
def RevisionGuard.publish (g : RevisionGuard) (base : Revision) :
    Except RevisionError Revision × RevisionGuard :=
  if base ≠ g.current then (.error (.stale base g.current), g)
  else if g.current.toNat + 1 < UInt64.size then (.ok (g.current + 1), ⟨g.current + 1⟩)
  else (.error (.overflow g.current), g)

inductive GenerationError where
  | stale (proposed current : Generation)
  deriving DecidableEq

structure GenerationGuard where
  current : Generation
  deriving DecidableEq

def GenerationGuard.accept (g : GenerationGuard) (proposed : Generation) :
    Except GenerationError Unit × GenerationGuard :=
  if proposed ≤ g.current then (.error (.stale proposed g.current), g)
  else (.ok (), ⟨proposed⟩)

theorem RevisionGuard.publish_eq_ok {g : RevisionGuard} {base next : Revision} :
    (g.publish base).1 = .ok next ↔
      base = g.current ∧ next = g.current + 1 ∧ next.toNat = g.current.toNat + 1 := by
  unfold publish
  split
  · next hstale => simp [hstale]
  · next hbase =>
      rw [not_not] at hbase
      split
      · next hlt =>
          have hnext : (g.current + 1).toNat = g.current.toNat + 1 := by
            rw [UInt64.toNat_add]
            exact Nat.mod_eq_of_lt hlt
          constructor
          · intro h
            cases h
            exact ⟨hbase, rfl, hnext⟩
          · rintro ⟨-, rfl, -⟩
            rfl
      · next hfull =>
          constructor
          · intro h
            cases h
          · rintro ⟨-, rfl, hnat⟩
            exact absurd (hnat ▸ (g.current + 1).toNat_lt) hfull

theorem GenerationGuard.accept_eq_ok {g : GenerationGuard} {proposed : Generation} {u : Unit} :
    (g.accept proposed).1 = .ok u ↔ g.current < proposed := by
  unfold accept
  split
  · next hle => simp [hle]
  · next hlt => simpa using hlt

/-! ### The catalog -/

inductive EventKind where
  | created
  | updated
  | deleted
  deriving DecidableEq

structure Event where
  seq : ℕ
  kind : EventKind
  id : DefinitionId
  revision : Revision
  deriving DecidableEq

structure ItemView where
  id : DefinitionId
  value : String
  revision : Revision
  deriving DecidableEq

structure Snapshot where
  items : List ItemView
  cursor : ℕ
  deriving DecidableEq

inductive CatalogError where
  | conflict (current : Option Revision)
  | staleGeneration (got current : Generation)
  | tombstoned (deletedAt : Revision)
  | cursorExpired
  deriving DecidableEq

/-- The text that the error is displayed by. -/
def CatalogError.message : CatalogError → String
  | conflict _ => "conflito"
  | staleGeneration _ _ => "geração obsoleta"
  | tombstoned _ => "id removido"
  | cursorExpired => "cursor expirado"

structure Catalog where
  items : Map DefinitionId (String × Revision × Generation)
  tombstones : Map DefinitionId Revision
  log : List Event
  nextSeq : ℕ

/-- The events that are kept. -/
def retention : ℕ := 64

namespace Catalog

def new : Catalog := ⟨∅, ∅, [], 0⟩

def pushEvent (c : Catalog) (kind : EventKind) (id : DefinitionId) (revision : Revision) :
    Catalog :=
  { c with
    nextSeq := c.nextSeq + 1
    log := Retained.retain retention (c.log ++ [⟨c.nextSeq, kind, id, revision⟩]) }

/-- The revision a publication will have, or why there is none. The revision is checked
before the generation. -/
def nextRevision (c : Catalog) (id : DefinitionId) (base : Option Revision)
    (generation : Generation) : Except CatalogError Revision :=
  match c.items.lookup id, base with
  | none, none => .ok 0
  | some (_, current, existingGeneration), some base =>
      match ((⟨current⟩ : RevisionGuard).publish base).1 with
      | .error _ => .error (.conflict (some current))
      | .ok next =>
          match ((⟨existingGeneration⟩ : GenerationGuard).accept generation).1 with
          | .error _ => .error (.staleGeneration generation existingGeneration)
          | .ok () => .ok next
  | some (_, current, _), none => .error (.conflict (some current))
  | none, some _ => .error (.conflict none)

def publish (c : Catalog) (id : DefinitionId) (base : Option Revision) (value : String)
    (generation : Generation) : Except CatalogError Revision × Catalog :=
  match c.tombstones.lookup id with
  | some deletedAt => (.error (.tombstoned deletedAt), c)
  | none =>
      match c.nextRevision id base generation with
      | .error e => (.error e, c)
      | .ok next =>
          let kind := if id ∈ c.items then .updated else .created
          (.ok next,
            { c with items := c.items.insert id (value, next, generation) }.pushEvent kind id next)

def delete (c : Catalog) (id : DefinitionId) (base : Revision) :
    Except CatalogError Revision × Catalog :=
  match c.items.lookup id with
  | none => (.error (.conflict none), c)
  | some (_, current, _) =>
      match ((⟨current⟩ : RevisionGuard).publish base).1 with
      | .error _ => (.error (.conflict (some current)), c)
      | .ok deletedAt =>
          (.ok deletedAt,
            { c with
              items := c.items.erase id
              tombstones := c.tombstones.insert id deletedAt }.pushEvent .deleted id deletedAt)

def views (c : Catalog) : List ItemView :=
  c.items.entries.map fun e => ⟨e.1, e.2.1, e.2.2.1⟩

/-- The items by their ids, and where their events end. -/
def snapshot (c : Catalog) : Snapshot :=
  ⟨c.views.mergeSort fun a b => decide (a.id ≤ b.id), c.nextSeq⟩

def eventsSince (c : Catalog) (cursor : ℕ) : Except CatalogError (List Event) :=
  let oldest := c.nextSeq - c.log.length
  if cursor < oldest ∨ c.nextSeq < cursor then .error .cursorExpired
  else .ok (c.log.filter fun event => decide (cursor ≤ event.seq))

end Catalog

/-! ### Calls -/

inductive Call where
  | publish (id : DefinitionId) (base : Option Revision) (value : String)
      (generation : Generation)
  | delete (id : DefinitionId) (base : Revision)
  deriving DecidableEq

def Call.id : Call → DefinitionId
  | publish id _ _ _ => id
  | delete id _ => id

namespace Catalog

def perform (c : Catalog) : Call → Except CatalogError Revision × Catalog
  | .publish id base value generation => c.publish id base value generation
  | .delete id base => c.delete id base

def after (c : Catalog) (call : Call) : Catalog := (c.perform call).2

def run (calls : List Call) : Catalog := calls.foldl after new

end Catalog

end DdsOrchestrator.Studio
