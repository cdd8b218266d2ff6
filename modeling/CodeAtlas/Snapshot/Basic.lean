import CodeAtlas.Collections.SortedMap
import CodeAtlas.Snapshot.Project
import CodeAtlas.Symbol.Basic

/-!
# Workspace snapshots

A `Snapshot` is a recorded workspace: its projects with their declared symbols, and the answers to
the look-ups for references, implementations and derived types, each under the identity of the
symbol asked for. A fault plan names the look-ups that are to fail.

A snapshot is valid when no two of its projects have one id; `Snapshot.repeatedId?` finds the first
id that comes a second time. The functions `Snapshot.with…` and `Snapshot.failing…` build snapshots
step by step.
-/

namespace CodeAtlas

/-- A project with the symbols declared in it. -/
structure ProjectEntry where
  project : Project
  symbols : List Symbol
  deriving DecidableEq

/-- The look-ups that are to fail. -/
structure FaultPlan where
  /-- Whether the workspace cannot be opened. -/
  failWorkspace : Bool := false
  /-- The ids of the projects that do not compile. -/
  failProjects : SortedSet String := .empty
  /-- The identities of the symbols about which nothing can be found out. -/
  failLookups : SortedSet String := .empty
  deriving DecidableEq

/-- A recorded workspace. -/
structure Snapshot where
  projects : List ProjectEntry
  /-- The places that refer to a symbol, under its identity. -/
  references : SortedMap String (List ReferenceSite) := .empty
  /-- The identities of what implements a symbol, under its identity. -/
  implementations : SortedMap String (List String) := .empty
  /-- The identities of the types derived from a symbol, under its identity. -/
  derivedTypes : SortedMap String (List String) := .empty
  faults : FaultPlan := {}
  deriving DecidableEq

namespace Snapshot

/-- The snapshot without projects. -/
def empty : Snapshot := { projects := [] }

/-- The number of declared symbols. -/
def symbolCount (s : Snapshot) : Nat := s.projects.foldl (fun n e => n + e.symbols.length) 0

/-- The first id of a list that is in `seen` or comes a second time. -/
def firstRepeated? (seen : List String) : List String → Option String
  | [] => none
  | id :: rest => if id ∈ seen then some id else firstRepeated? (id :: seen) rest

/-- The id of the first project whose id an earlier project has. -/
def repeatedId? (s : Snapshot) : Option String :=
  firstRepeated? [] (s.projects.map (·.project.id))

/-! ## Building snapshots -/

/-- The snapshot with one more project. -/
def withProject (s : Snapshot) (project : Project) (symbols : List Symbol) : Snapshot :=
  { s with projects := s.projects ++ [⟨project, symbols⟩] }

/-- The snapshot in which `site` refers to `target`. -/
def withReference (s : Snapshot) (target : Symbol) (site : ReferenceSite) : Snapshot :=
  { s with references := s.references.push target.identity site }

/-- The snapshot in which `implementer` implements `target`. -/
def withImplementation (s : Snapshot) (target implementer : Symbol) : Snapshot :=
  { s with
    implementations := s.implementations.push target.identity implementer.identity }

/-- The snapshot in which `derived` derives from `base`. -/
def withDerivedType (s : Snapshot) (base derived : Symbol) : Snapshot :=
  { s with derivedTypes := s.derivedTypes.push base.identity derived.identity }

/-- The snapshot whose workspace cannot be opened. -/
def failingWorkspace (s : Snapshot) : Snapshot :=
  { s with faults := { s.faults with failWorkspace := true } }

/-- The snapshot in which a project does not compile. -/
def failingProject (s : Snapshot) (id : String) : Snapshot :=
  { s with faults := { s.faults with failProjects := s.faults.failProjects.insert id } }

/-- The snapshot in which the look-ups for a symbol fail. -/
def failingLookup (s : Snapshot) (symbol : Symbol) : Snapshot :=
  { s with faults := { s.faults with
    failLookups := s.faults.failLookups.insert symbol.identity } }

end Snapshot

end CodeAtlas
