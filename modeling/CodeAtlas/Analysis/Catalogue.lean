import CodeAtlas.Config.Basic
import CodeAtlas.Graph.Node
import CodeAtlas.Snapshot.Project

/-!
# Cataloguing declarations

A `Catalogue` collects the declarations that an analysis meets. Its registry keeps, under every
identity, the first symbol that has it; its store keeps the node built from a symbol. Symbols for
which there is a `SkipReason` leave no trace. `Catalogue.add` brings in one declaration and tells by
a `Registration` what became of it.
-/

namespace CodeAtlas

/-- Why a symbol stays out of the graph. -/
inductive SkipReason where
  | synthesized
  | namespaceScope
  | frameworkAssembly
  deriving DecidableEq

namespace SkipReason

/-- The wording of a reason. -/
def message : SkipReason → String
  | synthesized => "compiler-synthesized"
  | namespaceScope => "namespace"
  | frameworkAssembly => "framework assembly"

end SkipReason

/-- Why a symbol stays out of the graph, if it does. -/
def Config.skipReason? (c : Config) (s : Symbol) : Option SkipReason :=
  if s.isImplicitlyDeclared then some .synthesized
  else if s.kind = .namespaceScope then some .namespaceScope
  else if s.containingAssembly.any c.isExcludedAssembly then some .frameworkAssembly
  else none

/-! ## Nodes from symbols -/

namespace Symbol

/-- The number of members of a kind. -/
def memberCount (s : Symbol) (kind : SymbolKind) : UInt64 :=
  .ofNat (s.members.countP (·.kind == kind))

/-- The sizes that apply to the kind of the symbol. -/
def metrics (s : Symbol) : NodeMetrics :=
  match s.kind with
  | .type =>
    { methodCount := some (s.memberCount .method)
      propertyCount := some (s.memberCount .property)
      fieldCount := some (s.memberCount .field)
      inheritanceDepth := some (.ofNat s.baseTypes.length) }
  | .method => { parameterCount := some (.ofNat s.parameters.length) }
  | _ => {}

/-- The node of a symbol that a project declares. -/
def toNode (s : Symbol) (project : Project) : Node :=
  { id := s.identity
    name := s.name
    fullyQualifiedName := s.displayName
    kind := s.kind
    declaredTypeCategory := if s.kind = .type then s.typeCategory else none
    location := s.location
    accessibility := s.accessibility
    modifiers := s.modifiers
    projectId := project.id
    assemblyName := s.containingAssembly.getD project.assemblyName
    containingNamespace := s.containingNamespace
    interfaces := s.interfaces.map (·.displayName)
    baseType := s.baseTypes.head?.map (·.displayName)
    genericParameters := s.genericParameters
    metrics := s.metrics }

/-- The node of a symbol, unless it stays out of the graph. -/
def toNode? (s : Symbol) (config : Config) (project : Project) : Option Node :=
  if (config.skipReason? s).isSome then none else some (s.toNode project)

end Symbol

/-! ## Catalogues -/

/-- The first symbol of every identity. -/
abbrev Registry := SortedMap String Symbol

namespace Registry

/-- The identity of a symbol, and the registry in which some symbol has it. -/
def assign (r : Registry) (s : Symbol) : String × Registry :=
  (s.identity, r.insertNew s.identity s)

end Registry

/-- The declarations that an analysis has met. -/
structure Catalogue where
  registry : Registry := .empty
  nodes : NodeStore := .empty
  deriving DecidableEq

/-- What becomes of a declaration. -/
inductive Registration where
  /-- It stays out of the graph. -/
  | skipped
  /-- It is the first one with the id. -/
  | registered (id : String)
  /-- An earlier one has the id. -/
  | duplicate (id : String)
  deriving DecidableEq

namespace Catalogue

/-- The catalogue with one more declaration, and what became of it. -/
def add (c : Catalogue) (config : Config) (s : Symbol) (project : Project) :
    Registration × Catalogue :=
  if (config.skipReason? s).isSome then (.skipped, c)
  else
    let (id, registry) := c.registry.assign s
    if c.nodes.contains id then (.duplicate id, { c with registry })
    else
      let (isNew, nodes) := c.nodes.register (s.toNode project)
      (if isNew then .registered id else .duplicate id, { registry, nodes })

/-- The catalogue with all symbols of a project. -/
def addAll (c : Catalogue) (config : Config) (project : Project) (symbols : List Symbol) :
    Catalogue := symbols.foldl (fun c s => (c.add config s project).2) c

end Catalogue

end CodeAtlas
