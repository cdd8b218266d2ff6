import CodeAtlas.Json.Printer
import CodeAtlas.Json.Reader
import CodeAtlas.Snapshot.Basic
import CodeAtlas.Symbol.Codec

/-!
# Snapshots as JSON

`Snapshot.toJson` writes a snapshot and `Snapshot.parse` reads and validates one. The fields of a
project and its list of symbols stand side by side in one object, and only in an object: whatever
else stands there is kept as a document until the object is complete, so it must be a plain one
(`ProjectEntry.spareLevels`).
-/

namespace CodeAtlas

namespace ProjectEntry

/-- The fields of a project and its symbols. -/
def fields : List String := Project.fields ++ ["symbols"]

/-- How deep arrays and objects may be nested under an unknown key of a project: a document may nest
127 of them, and three surround the key. -/
def spareLevels : Nat := 124

/-- Whether a member is a field, or a plain document under an unknown key. -/
def isAcceptable (m : Option String × Json) : Bool :=
  match m.1 with
  | some k => fields.contains k || m.2.isPlain spareLevels
  | none => false

/-- The written form of a project with its symbols. -/
def toJson (e : ProjectEntry) : Json :=
  .ofMembers (e.project.members ++ [("symbols", .ofList Symbol.toJson e.symbols)])

/-- The project with its symbols that a document writes. -/
def ofJson? : Json → Option ProjectEntry
  | .object members => do
    let r ← Json.Record.ofMembers? fields members
    let symbols ← r.withDefault "symbols" [] (Json.list? Symbol.ofJson?)
    let project ← Project.ofRecord? r
    if members.all isAcceptable then some { project, symbols } else none
  | _ => none

end ProjectEntry

namespace FaultPlan

/-- The fields of a fault plan. -/
def fields : List String := ["failWorkspace", "failProjects", "failLookups"]

/-- The written form of a fault plan. -/
def toJson (f : FaultPlan) : Json := .ofMembers [
  ("failWorkspace", .boolean f.failWorkspace),
  ("failProjects", .ofSet f.failProjects),
  ("failLookups", .ofSet f.failLookups)]

/-- The fault plan that a document writes. -/
def ofJson? (j : Json) : Option FaultPlan := do
  let r ← Json.Record.of? fields j
  let failWorkspace ← r.withDefault "failWorkspace" false Json.boolean?
  let failProjects ← r.withDefault "failProjects" .empty Json.textSet?
  let failLookups ← r.withDefault "failLookups" .empty Json.textSet?
  some { failWorkspace, failProjects, failLookups }

end FaultPlan

/-- Why a snapshot cannot be loaded. -/
inductive SnapshotError where
  /-- There is no readable text. -/
  | unreadable
  /-- The text does not write a snapshot. -/
  | malformed
  /-- Two projects have the id. -/
  | duplicateProject (id : String)
  deriving DecidableEq

namespace SnapshotError

/-- The wording of an error, where it does not hang on the cause of an unreadable text. -/
def message? : SnapshotError → Option String
  | unreadable => none
  | malformed => none
  | duplicateProject id => some ("Duplicate project id: " ++ id)

end SnapshotError

namespace Snapshot

/-- The fields of a snapshot. -/
def fields : List String := ["projects", "references", "implementations", "derivedTypes", "faults"]

/-- The written form of a snapshot. -/
def toJson (s : Snapshot) : Json := .ofMembers [
  ("projects", .ofList ProjectEntry.toJson s.projects),
  ("references", .ofMap (.ofList ReferenceSite.toJson) s.references),
  ("implementations", .ofMap (.ofList .ofString) s.implementations),
  ("derivedTypes", .ofMap (.ofList .ofString) s.derivedTypes),
  ("faults", s.faults.toJson)]

/-- The snapshot that a document writes. -/
def ofJson? (j : Json) : Option Snapshot := do
  let r ← Json.Record.of? fields j
  let projects ← r.required "projects" (Json.list? ProjectEntry.ofJson?)
  let references ← r.withDefault "references" .empty
    (Json.map? (Json.list? ReferenceSite.ofJson?))
  let implementations ← r.withDefault "implementations" .empty (Json.map? (Json.list? Json.text?))
  let derivedTypes ← r.withDefault "derivedTypes" .empty (Json.map? (Json.list? Json.text?))
  let faults ← r.withDefault "faults" {} FaultPlan.ofJson?
  some { projects, references, implementations, derivedTypes, faults }

/-- The snapshot as a text with a line for every element and member. -/
def render (s : Snapshot) : String := s.toJson.pretty

/-- The snapshot itself if no project id is repeated. -/
def validate (s : Snapshot) : Except SnapshotError Snapshot :=
  match s.repeatedId? with
  | some id => .error (.duplicateProject id)
  | none => .ok s

/-- The valid snapshot that a text writes. -/
def parse (text : String) : Except SnapshotError Snapshot :=
  match Json.parse? text >>= ofJson? with
  | some s => s.validate
  | none => .error .malformed

/-- The valid snapshot that the bytes of a file write; there are none if there is no file. -/
def load (bytes : Option ByteArray) : Except SnapshotError Snapshot :=
  match bytes >>= String.fromUTF8? with
  | some text => parse text
  | none => .error .unreadable

end Snapshot

end CodeAtlas
