import CodeAtlas.Collections.SortedMap
import CodeAtlas.Graph.Role
import CodeAtlas.Symbol.Basic

/-!
# Nodes

A `Node` is what the graph keeps of a symbol: its names and attributes, the project that declares
it, its size, and the role and feature that the analysis assigns to it. A `NodeStore` holds nodes
under their ids; a node is registered once and afterwards only its role and its feature change
(`NodeStore.register`, `NodeStore.assign`).
-/

namespace CodeAtlas

/-- The sum of two words, if it is one. Additions are checked: one that exceeds the largest word is
a panic. -/
def addWords? (a b : UInt64) : Option UInt64 :=
  if a.toNat + b.toNat < UInt64.size then some (a + b) else none

/-- The sizes of a node, as far as they apply to its kind. -/
structure NodeMetrics where
  methodCount : Option UInt64 := none
  propertyCount : Option UInt64 := none
  fieldCount : Option UInt64 := none
  parameterCount : Option UInt64 := none
  inheritanceDepth : Option UInt64 := none
  deriving DecidableEq

namespace NodeMetrics

/-- The sizes that apply. -/
def values (m : NodeMetrics) : List UInt64 :=
  [m.methodCount, m.propertyCount, m.fieldCount, m.parameterCount, m.inheritanceDepth].filterMap id

/-- Whether no size applies. -/
def isEmpty (m : NodeMetrics) : Bool := m.values.isEmpty

/-- The sum of all sizes, if no addition exceeds the largest word; otherwise there is a panic. -/
def complexity? (m : NodeMetrics) : Option UInt64 := m.values.foldlM addWords? 0

/-- The sum of all sizes as a number of any size. -/
def trueComplexity (m : NodeMetrics) : Nat := 
  m.values.foldl (fun total size => total + size.toNat) 0

end NodeMetrics

/-- A program entity in the graph. -/
structure Node where
  id : String
  name : String
  fullyQualifiedName : String
  kind : SymbolKind
  /-- The category of a type. -/
  declaredTypeCategory : Option TypeCategory := none
  /-- Where the entity is declared, if its source is known. -/
  location : Option Location := none
  accessibility : Accessibility
  modifiers : SortedSet Modifier := .empty
  projectId : String
  assemblyName : String
  containingNamespace : Option String := none
  /-- The display names of the implemented interfaces. -/
  interfaces : List String := []
  baseType : Option String := none
  genericParameters : List String := []
  role : Role := .unknown
  featureBoundary : Option String := none
  metrics : NodeMetrics := {}
  deriving DecidableEq

namespace Node

/-- The file in which the entity is declared. -/
def filePath (n : Node) : Option String := n.location.map (·.filePath)

/-- The extension of that file. -/
def extension (n : Node) : Option String := n.location.bind (·.extension)

/-- Whether the node is an interface. -/
def isInterface (n : Node) : Bool := n.declaredTypeCategory == some .interface

/-- Whether the declaration is abstract. -/
def isAbstract (n : Node) : Bool := decide (Modifier.abstract ∈ n.modifiers)

/-- The node in a feature; without one it stays where it is. -/
def inFeature (n : Node) (feature : Option String) : Node :=
  { n with featureBoundary := feature.or n.featureBoundary }

@[simp] theorem inFeature_id (n : Node) (feature : Option String) :
    (n.inFeature feature).id = n.id := rfl

@[simp] theorem inFeature_projectId (n : Node) (feature : Option String) :
    (n.inFeature feature).projectId = n.projectId := rfl

@[simp] theorem inFeature_some (n : Node) (feature : String) :
    (n.inFeature (some feature)).featureBoundary = some feature := rfl

end Node

/-- The nodes of an analysis under their ids. -/
abbrev NodeStore := SortedMap String Node

namespace NodeStore

/-- Nodes under their ids; of several nodes with one id the last one stays. -/
def ofNodes (nodes : List Node) : NodeStore := .ofList (nodes.map fun n => (n.id, n))

/-- The store with one more node, and whether it was added: the first node of an id stays. -/
def register (s : NodeStore) (n : Node) : Bool × NodeStore :=
  if s.contains n.id then (false, s) else (true, s.insert n.id n)

/-- The store with the node of an id changed, and whether there is one. -/
def change (s : NodeStore) (id : String) (f : Node → Node) : Bool × NodeStore :=
  match s.get? id with
  | some n => (true, s.insert id (f n))
  | none => (false, s)

/-- The store with a role, a feature or both assigned to the node of an id, and whether there is
one. -/
def assign (s : NodeStore) (id : String) (role : Option Role) (feature : Option String) :
    Bool × NodeStore :=
  s.change id fun n =>
    { n with
      role := role.getD n.role
      featureBoundary := feature.or n.featureBoundary }

end NodeStore

end CodeAtlas
