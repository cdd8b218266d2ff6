import CodeAtlas.Collections.SortedMap
import CodeAtlas.Graph.Node
import CodeAtlas.Graph.Relationship

/-!
# Graphs

A `Graph` is the result of an analysis: the nodes under their ids, the relationships between them,
a summary of every project (`ProjectInfo`), one record for every pair of projects of which the first
depends on the second (`ProjectDependency`), and counts over the whole (`GraphMetadata`).
-/

namespace CodeAtlas

/-- A map of counts by name. -/
abbrev Histogram := SortedMap String Nat

namespace Histogram

/-- The histogram with one more occurrence of a name. -/
def count (h : Histogram) (name : String) : Histogram := h.upsert name fun n => n.getD 0 + 1

end Histogram

/-- What one project has to do with another, all relationships taken together. -/
structure ProjectDependency where
  sourceProjectId : String
  targetProjectId : String
  /-- The kind of most relationships. -/
  dependencyKind : RelationKind
  /-- The ids of the nodes of the second project to which the first refers. -/
  sharedSymbolIds : SortedSet String
  referenceCount : Nat
  /-- The mean weight of the relationships. -/
  couplingStrength : Float
  deriving DecidableEq

/-- The sizes of a project. -/
structure ProjectMetrics where
  totalSymbols : Nat := 0
  /-- The number of relationships that start in the project. -/
  totalRelationships : Nat := 0
  crossProjectReferenceCount : Nat := 0
  /-- The mean complexity of the nodes that have sizes. -/
  averageComplexity : Float := 0
  /-- The number of nodes by the language of their file. -/
  languageDistribution : Histogram := .empty
  deriving DecidableEq

/-- The summary of a project. -/
structure ProjectInfo where
  projectId : String
  name : String
  path : String
  targetFramework : Option String := none
  languages : SortedSet String
  projectReferences : List String
  /-- The number of nodes by role. -/
  roleDistribution : Histogram
  featureBoundaries : SortedSet String
  metrics : ProjectMetrics
  deriving DecidableEq

/-- Counts over a whole analysis. -/
structure GraphMetadata where
  durationMs : Nat := 0
  projectCount : Nat := 0
  nodeCount : Nat := 0
  relationshipCount : Nat := 0
  nodesByKind : Histogram := .empty
  relationshipsByKind : Histogram := .empty
  nodesByRole : Histogram := .empty
  featureBoundaryCount : Nat := 0
  crossProjectRelationshipCount : Nat := 0
  crossLanguageRelationshipCount : Nat := 0
  /-- What went wrong without ending the analysis. -/
  errors : List String := []
  deriving DecidableEq

/-- The result of an analysis. -/
structure Graph where
  nodes : SortedMap String Node := .empty
  relationships : List Relationship := []
  projectInfo : SortedMap String ProjectInfo := .empty
  crossProjectDependencies : List ProjectDependency := []
  metadata : GraphMetadata := {}
  deriving DecidableEq

namespace Graph

/-- The node with an id. -/
def node? (g : Graph) (id : String) : Option Node := g.nodes.get? id

/-- The first node with a name, in the order of ids. -/
def findByName? (g : Graph) (name : String) : Option Node := g.nodes.values.find? (·.name == name)

/-- The relationships of a kind. -/
def relationshipsOf (g : Graph) (kind : RelationKind) : List Relationship :=
  g.relationships.filter (·.kind == kind)

/-- The record of what one project has to do with another. -/
def dependency? (g : Graph) (source target : String) : Option ProjectDependency :=
  g.crossProjectDependencies.find? fun d =>
    d.sourceProjectId == source && d.targetProjectId == target

end Graph

end CodeAtlas
