import CodeAtlas.Snapshot.Basic

/-!
# Resolvers

A `Resolver` answers questions about a workspace: its projects, their symbols, and what refers to,
implements or derives from a symbol. Every question may fail. `Snapshot.resolver` answers from a
snapshot. `Snapshot.resolverIn` does so too, but leaves open in which order declarations are
compared.

Of several declarations with one identity the last in the snapshot counts (`Snapshot.declared`). A
location is resolved to the innermost declaration around it (`innermost?`), the one that starts
last, among those the one that ends first, then the later kind, then the smaller display name.
-/

namespace CodeAtlas

/-- Why a question cannot be answered. -/
inductive ResolverError where
  | workspaceUnavailable (cause : String)
  | projectFailed (project reason : String)
  | lookupFailed (symbol reason : String)
  | other (text : String)
  deriving DecidableEq

namespace ResolverError

/-- The wording of an error. -/
def message : ResolverError → String
  | workspaceUnavailable cause => "Workspace could not be opened: " ++ cause
  | projectFailed project reason => "Project " ++ project ++ " failed to compile: " ++ reason
  | lookupFailed symbol reason => "Lookup failed for " ++ symbol ++ ": " ++ reason
  | other text => text

end ResolverError

/-- The answers to questions about a workspace. -/
structure Resolver where
  /-- The projects of the workspace at a path. -/
  projects : String → Except ResolverError (List Project)
  /-- The symbols declared in a project. -/
  symbols : Project → Except ResolverError (List Symbol)
  /-- The places that refer to a symbol. -/
  references : Symbol → Except ResolverError (List ReferenceSite)
  /-- What implements an interface or an abstract member. -/
  implementations : Symbol → Except ResolverError (List Symbol)
  /-- The types derived from a type. -/
  derivedTypes : Symbol → Except ResolverError (List Symbol)
  /-- The symbol whose declaration holds a location. -/
  locate : Location → Except ResolverError (Option Symbol)

namespace Resolver

/-- The resolver that cannot resolve locations in some files. -/
def failingLocate (r : Resolver) (files : List String) : Resolver :=
  { r with locate := fun l =>
      if l.filePath ∈ files then .error (.lookupFailed l.filePath "locate fault injected")
      else r.locate l }

end Resolver

/-! ## Innermost declarations -/

/-- Compares two declarations by how far inside they lie, innermost last. -/
def compareDepth (a b : Location × Symbol) : Ordering :=
  (compare a.1.start b.1.start).then <|
  (compare b.1.stop a.1.stop).then <|
  (compare a.2.kind.rank b.2.kind.rank).then <|
  compare b.2.displayName a.2.displayName

/-- The deeper of two declarations; of equally deep ones the second. -/
def deeper (a b : Location × Symbol) : Location × Symbol :=
  if compareDepth a b = .gt then a else b

/-- The declaration with its span, if the span holds the location. -/
def declarationAround? (l : Location) (s : Symbol) : Option (Location × Symbol) :=
  match s.location with
  | some span => if span.contains l then some (span, s) else none
  | none => none

/-- The innermost of the declarations around a location. -/
def innermost? (l : Location) (symbols : List Symbol) : Option Symbol :=
  match symbols.filterMap (declarationAround? l) with
  | [] => none
  | first :: rest => some (rest.foldl deeper first).2

/-! ## Answers from a snapshot -/

namespace Snapshot

/-- All symbols that are declared in some project. -/
def symbols (s : Snapshot) : List Symbol := s.projects.flatMap (·.symbols)

/-- The declared symbols by identity. -/
def declared (s : Snapshot) : SortedMap String Symbol :=
  .ofList (s.symbols.map fun symbol => (symbol.identity, symbol))

/-- The identity of a symbol, unless look-ups for it are to fail. -/
def lookupKey (s : Snapshot) (symbol : Symbol) : Except ResolverError String :=
  if symbol.identity ∈ s.faults.failLookups then
    .error (.lookupFailed symbol.identity "lookup fault injected")
  else .ok symbol.identity

/-- The symbols of a project: those of its first entry. -/
def symbolsOf (s : Snapshot) (project : Project) : Except ResolverError (List Symbol) :=
  if project.id ∈ s.faults.failProjects then
    .error (.projectFailed project.id "compilation fault injected")
  else
    match s.projects.find? (·.project.id == project.id) with
    | some entry => .ok entry.symbols
    | none => .error (.projectFailed project.id "not in snapshot")

/-- The declared ones of the symbols with the listed identities. -/
def resolveAll (declared : SortedMap String Symbol) (ids : Option (List String)) : List Symbol :=
  (ids.getD []).filterMap declared.get?

/-- The resolver that answers from the snapshot. -/
def resolver (s : Snapshot) : Resolver :=
  let declared := s.declared
  { projects := fun path =>
      if s.faults.failWorkspace then .error (.workspaceUnavailable path)
      else .ok (s.projects.map (·.project))
    symbols := s.symbolsOf
    references := fun symbol => do
      let key ← s.lookupKey symbol
      .ok ((s.references.get? key).getD [])
    implementations := fun symbol => do
      let key ← s.lookupKey symbol
      .ok (resolveAll declared (s.implementations.get? key))
    derivedTypes := fun symbol => do
      let key ← s.lookupKey symbol
      .ok (resolveAll declared (s.derivedTypes.get? key))
    locate := fun l => .ok (innermost? l declared.values) }

/-- The resolver that answers from the snapshot and compares declarations in some order. -/
def resolverIn (s : Snapshot) (order : List Symbol → List Symbol) : Resolver :=
  { s.resolver with locate := fun l => .ok (innermost? l (order s.declared.values)) }

end Snapshot

end CodeAtlas
