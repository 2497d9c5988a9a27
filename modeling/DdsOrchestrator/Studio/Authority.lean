import DdsOrchestrator.Lib.LineFile
import DdsOrchestrator.Studio.Entry
import DdsOrchestrator.Studio.History

/-!
The catalog of a node with its journal. A mutation is made in memory first and appended to
the journal then; where the append fails the file is cut back to its old length and the
memory is made again from it. The reader of JSON is not part of the repository; what the
file system answers is given with each call, and that the file can be read back and cut
is taken for granted.
-/

namespace DdsOrchestrator.Studio

inductive AuthorityError where
  | conflict (current : Option UInt64)
  | staleGeneration (got current : UInt64)
  | tombstoned (deletedAt : UInt64)
  | cursorExpired
  | corrupt (path detail : String)
  deriving DecidableEq

def AuthorityError.fromCatalog : CatalogError → AuthorityError
  | .conflict current => .conflict current
  | .staleGeneration got current => .staleGeneration got current
  | .tombstoned deletedAt => .tombstoned deletedAt
  | .cursorExpired => .cursorExpired

/-- Reading the entries of the journal. -/
structure SerdeJson where
  entryFromStr : String → Except String JournalEntry

/-- The journal: its path, and the bytes of the file if there is one. -/
structure Journal where
  path : String
  file : Option ByteArray

/-- What the file says: no file says as much as an empty one. -/
def Journal.content (j : Journal) : ByteArray := j.file.getD .empty

structure CatalogAuthority where
  catalog : Catalog
  journal : Option Journal

/-- What becomes of an append: the whole line is written, or something fails, a write
possibly behind the first `written` bytes. -/
inductive AppendIo where
  | ok
  | openFails (err : String)
  | metadataFails (err : String)
  | writeFails (written : ℕ) (err : String)
  | syncFails (err : String)
  deriving DecidableEq

namespace CatalogAuthority

def new : CatalogAuthority := ⟨.new, none⟩

/-! ### The replay -/

def replay (c : Catalog) (entry : JournalEntry) : Except String Unit × Catalog :=
  match c.perform entry with
  | (.ok _, c') => (.ok (), c')
  | (.error e, c') => (.error e.message, c')

section

variable (serde : SerdeJson)

/-- The lines from the number `lineNo` on; one that is blank is passed over. -/
def replayLines (path : String) : List (List Char) → ℕ → Catalog →
    Except AuthorityError Unit × Catalog
  | [], _, c => (.ok (), c)
  | line :: lines, lineNo, c =>
      if Lines.trim line = [] then replayLines path lines (lineNo + 1) c
      else
        match serde.entryFromStr (String.ofList line) with
        | .error err => (.error (.corrupt path s!"linha {lineNo}: {err}"), c)
        | .ok entry =>
            match replay c entry with
            | (.error detail, c') => (.error (.corrupt path s!"linha {lineNo}: {detail}"), c')
            | (.ok (), c') => replayLines path lines (lineNo + 1) c'

def rebuildFromJournal (a : CatalogAuthority) : Except AuthorityError Unit × CatalogAuthority :=
  match a.journal with
  | none => (.ok (), a)
  | some j =>
      match j.file with
      | none => (.ok (), { a with catalog := .new })
      | some bytes =>
          match String.fromUTF8? bytes with
          | none =>
              (.error (.corrupt j.path "stream did not contain valid UTF-8"),
                { a with catalog := .new })
          | some text =>
              let (result, catalog) := replayLines serde j.path (Lines.lines text.toList) 0 .new
              (result, { a with catalog := catalog })

def withJournal (path : String) (file : Option ByteArray) :
    Except AuthorityError CatalogAuthority :=
  match rebuildFromJournal serde ⟨.new, some ⟨path, file⟩⟩ with
  | (.ok (), a) => .ok a
  | (.error e, _) => .error e

end

/-! ### The append -/

/-- A line behind the file; whatever fails, the file is cut at its old length. -/
def writeSyncTruncate (file : ByteArray) (oldLen : ℕ) (bytes : ByteArray) :
    AppendIo → Except String Unit × ByteArray
  | .ok => (.ok (), file ++ bytes)
  | .writeFails written err => (.error err, (file ++ bytes.extract 0 written).extract 0 oldLen)
  | .syncFails err => (.error err, (file ++ bytes).extract 0 oldLen)
  | .openFails err | .metadataFails err => (.error err, file)

/-- A file that can be opened is there from then on. -/
def append (a : CatalogAuthority) (entry : JournalEntry) (io : AppendIo) :
    Except AuthorityError Unit × CatalogAuthority :=
  match a.journal with
  | none => (.ok (), a)
  | some j =>
      match io with
      | .openFails err => (.error (.corrupt j.path err), a)
      | .metadataFails err =>
          (.error (.corrupt j.path err), { a with journal := some { j with file := j.content } })
      | io =>
          let (result, file) := writeSyncTruncate j.content j.content.size entry.line io
          (result.mapError (.corrupt j.path), { a with journal := some { j with file := file } })

variable (serde : SerdeJson)

/-- A publication or a deletion: made in memory, journaled, and undone by a replay where
the journal does not take it. -/
def mutate (a : CatalogAuthority) (entry : JournalEntry) (io : AppendIo) :
    Except AuthorityError Revision × CatalogAuthority :=
  match a.catalog.perform entry with
  | (.error e, catalog) => (.error (.fromCatalog e), { a with catalog := catalog })
  | (.ok revision, catalog) =>
      match ({ a with catalog := catalog } : CatalogAuthority).append entry io with
      | (.ok (), a) => (.ok revision, a)
      | (.error err, a) =>
          match rebuildFromJournal serde a with
          | (.error e, a) => (.error e, a)
          | (.ok (), a) => (.error err, a)

def publish (a : CatalogAuthority) (id : String) (base : Option UInt64) (value : String)
    (generation : UInt64) (io : AppendIo) : Except AuthorityError Revision × CatalogAuthority :=
  mutate serde a (.publish id base value generation) io

def delete (a : CatalogAuthority) (id : String) (base : UInt64) (io : AppendIo) :
    Except AuthorityError Revision × CatalogAuthority :=
  mutate serde a (.delete id base) io

def snapshot (a : CatalogAuthority) : Snapshot := a.catalog.snapshot

def eventsSince (a : CatalogAuthority) (since : ℕ) : Except AuthorityError (List Event) :=
  (a.catalog.eventsSince since).mapError .fromCatalog

end CatalogAuthority

end DdsOrchestrator.Studio
