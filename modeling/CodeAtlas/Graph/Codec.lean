import CodeAtlas.Graph.Basic
import CodeAtlas.Json.Printer
import CodeAtlas.Json.Reader
import CodeAtlas.Symbol.Codec

/-!
# Graphs as JSON

The written form of a graph and of its parts: an object with the fields in their declared order. Of
each type, `toJson` writes a value and `ofJson?` reads one. The sizes of a node and the category of
a type are left out where they do not apply; of other fields that may be absent, `null` stands for
the absent one. Counts are read only below `2 ^ 64`.

`Graph.render` writes a graph as a text and `Graph.parse?` reads it.
-/

namespace CodeAtlas

namespace Json

/-- The member of a value that is left out where it is absent. -/
def present {α : Type} (name : String) (encode : α → Json) (a : Option α) : List (String × Json) :=
  (a.map fun a => (name, encode a)).toList

/-- A count: a natural number below `2 ^ 64`. -/
def count? (j : Json) : Option Nat := j.uint64?.map UInt64.toNat

end Json

/-! ## Names -/

namespace Role

/-- The written form of a role. -/
def toJson (r : Role) : Json := .ofString r.name

/-- The role that a document writes. -/
def ofJson? : Json → Option Role := Json.choice? all name

end Role

namespace RelationKind

/-- The written form of a kind. -/
def toJson (k : RelationKind) : Json := .ofString k.name

/-- The kind that a document writes. -/
def ofJson? : Json → Option RelationKind := Json.choice? all name

end RelationKind

namespace Histogram

/-- The written form of a histogram. -/
def toJson (h : Histogram) : Json := .ofMap .ofNat h

/-- The histogram that a document writes. -/
def ofJson? : Json → Option Histogram := Json.map? Json.count?

end Histogram

/-! ## Nodes and relationships -/

namespace NodeMetrics

/-- The fields of a node's sizes. -/
def fields : List String :=
  ["methodCount", "propertyCount", "fieldCount", "parameterCount", "inheritanceDepth"]

/-- The written form of one size. -/
def sizeToJson (n : UInt64) : Json := .ofNat n.toNat

/-- The written form of a node's sizes. -/
def toJson (m : NodeMetrics) : Json := .ofMembers (
  Json.present "methodCount" sizeToJson m.methodCount ++
  Json.present "propertyCount" sizeToJson m.propertyCount ++
  Json.present "fieldCount" sizeToJson m.fieldCount ++
  Json.present "parameterCount" sizeToJson m.parameterCount ++
  Json.present "inheritanceDepth" sizeToJson m.inheritanceDepth)

/-- The sizes that a document writes. -/
def ofJson? (j : Json) : Option NodeMetrics := do
  let r ← Json.Record.of? fields j
  let methodCount ← r.optional "methodCount" Json.uint64?
  let propertyCount ← r.optional "propertyCount" Json.uint64?
  let fieldCount ← r.optional "fieldCount" Json.uint64?
  let parameterCount ← r.optional "parameterCount" Json.uint64?
  let inheritanceDepth ← r.optional "inheritanceDepth" Json.uint64?
  some { methodCount, propertyCount, fieldCount, parameterCount, inheritanceDepth }

end NodeMetrics

namespace Node

/-- The fields of a node. -/
def fields : List String := [
  "id", "name", "fullyQualifiedName", "kind", "declaredTypeCategory", "location", "accessibility",
  "modifiers", "projectId", "assemblyName", "containingNamespace", "interfaces", "baseType",
  "genericParameters", "role", "featureBoundary", "metrics"]

/-- The written form of a node. -/
def toJson (n : Node) : Json := .ofMembers ([
    ("id", .ofString n.id),
    ("name", .ofString n.name),
    ("fullyQualifiedName", .ofString n.fullyQualifiedName),
    ("kind", n.kind.toJson)] ++
  Json.present "declaredTypeCategory" TypeCategory.toJson n.declaredTypeCategory ++ [
    ("location", .ofOption Location.toJson n.location),
    ("accessibility", n.accessibility.toJson),
    ("modifiers", .ofList Modifier.toJson n.modifiers.toList),
    ("projectId", .ofString n.projectId),
    ("assemblyName", .ofString n.assemblyName),
    ("containingNamespace", .ofOption .ofString n.containingNamespace),
    ("interfaces", .ofList .ofString n.interfaces),
    ("baseType", .ofOption .ofString n.baseType),
    ("genericParameters", .ofList .ofString n.genericParameters),
    ("role", n.role.toJson),
    ("featureBoundary", .ofOption .ofString n.featureBoundary),
    ("metrics", n.metrics.toJson)])

/-- The node that a document writes. -/
def ofJson? (j : Json) : Option Node := do
  let r ← Json.Record.of? fields j
  let id ← r.required "id" Json.text?
  let name ← r.required "name" Json.text?
  let fullyQualifiedName ← r.required "fullyQualifiedName" Json.text?
  let kind ← r.required "kind" SymbolKind.ofJson?
  let declaredTypeCategory ← r.optional "declaredTypeCategory" TypeCategory.ofJson?
  let location ← r.optional "location" Location.ofJson?
  let accessibility ← r.required "accessibility" Accessibility.ofJson?
  let modifiers ← r.withDefault "modifiers" .empty Modifier.setOfJson?
  let projectId ← r.required "projectId" Json.text?
  let assemblyName ← r.required "assemblyName" Json.text?
  let containingNamespace ← r.optional "containingNamespace" Json.text?
  let interfaces ← r.withDefault "interfaces" [] (Json.list? Json.text?)
  let baseType ← r.optional "baseType" Json.text?
  let genericParameters ← r.withDefault "genericParameters" [] (Json.list? Json.text?)
  let role ← r.withDefault "role" .unknown Role.ofJson?
  let featureBoundary ← r.optional "featureBoundary" Json.text?
  let metrics ← r.withDefault "metrics" {} NodeMetrics.ofJson?
  some { id, name, fullyQualifiedName, kind, declaredTypeCategory, location, accessibility,
         modifiers, projectId, assemblyName, containingNamespace, interfaces, baseType,
         genericParameters, role, featureBoundary, metrics }

end Node

namespace Relationship

/-- The fields of a relationship. -/
def fields : List String :=
  ["sourceId", "targetId", "type", "location", "isCrossProject", "isCrossLanguage"]

/-- The written form of a relationship. -/
def toJson (r : Relationship) : Json := .ofMembers [
  ("sourceId", .ofString r.sourceId),
  ("targetId", .ofString r.targetId),
  ("type", r.kind.toJson),
  ("location", .ofOption Location.toJson r.location),
  ("isCrossProject", .boolean r.isCrossProject),
  ("isCrossLanguage", .boolean r.isCrossLanguage)]

/-- The relationship that a document writes. -/
def ofJson? (j : Json) : Option Relationship := do
  let r ← Json.Record.of? fields j
  let sourceId ← r.required "sourceId" Json.text?
  let targetId ← r.required "targetId" Json.text?
  let kind ← r.required "type" RelationKind.ofJson?
  let location ← r.optional "location" Location.ofJson?
  let isCrossProject ← r.withDefault "isCrossProject" false Json.boolean?
  let isCrossLanguage ← r.withDefault "isCrossLanguage" false Json.boolean?
  some { sourceId, targetId, kind, location, isCrossProject, isCrossLanguage }

end Relationship

/-! ## Projects -/

namespace ProjectDependency

/-- The fields of a dependency. -/
def fields : List String := [
  "sourceProjectId", "targetProjectId", "dependencyType", "sharedSymbolIds", "referenceCount",
  "couplingStrength"]

/-- The written form of a dependency. -/
def toJson (d : ProjectDependency) : Json := .ofMembers [
  ("sourceProjectId", .ofString d.sourceProjectId),
  ("targetProjectId", .ofString d.targetProjectId),
  ("dependencyType", d.dependencyKind.toJson),
  ("sharedSymbolIds", .ofSet d.sharedSymbolIds),
  ("referenceCount", .ofNat d.referenceCount),
  ("couplingStrength", .ofFloat d.couplingStrength)]

/-- The dependency that a document writes. -/
def ofJson? (j : Json) : Option ProjectDependency := do
  let r ← Json.Record.of? fields j
  let sourceProjectId ← r.required "sourceProjectId" Json.text?
  let targetProjectId ← r.required "targetProjectId" Json.text?
  let dependencyKind ← r.required "dependencyType" RelationKind.ofJson?
  let sharedSymbolIds ← r.required "sharedSymbolIds" Json.textSet?
  let referenceCount ← r.required "referenceCount" Json.count?
  let couplingStrength ← r.required "couplingStrength" Json.float?
  some { sourceProjectId, targetProjectId, dependencyKind, sharedSymbolIds, referenceCount,
         couplingStrength }

end ProjectDependency

namespace ProjectMetrics

/-- The fields of a project's sizes. -/
def fields : List String := [
  "totalSymbols", "totalRelationships", "crossProjectReferenceCount", "averageComplexity",
  "languageDistribution"]

/-- The written form of a project's sizes. -/
def toJson (m : ProjectMetrics) : Json := .ofMembers [
  ("totalSymbols", .ofNat m.totalSymbols),
  ("totalRelationships", .ofNat m.totalRelationships),
  ("crossProjectReferenceCount", .ofNat m.crossProjectReferenceCount),
  ("averageComplexity", .ofFloat m.averageComplexity),
  ("languageDistribution", m.languageDistribution.toJson)]

/-- The sizes that a document writes. -/
def ofJson? (j : Json) : Option ProjectMetrics := do
  let r ← Json.Record.of? fields j
  let totalSymbols ← r.required "totalSymbols" Json.count?
  let totalRelationships ← r.required "totalRelationships" Json.count?
  let crossProjectReferenceCount ← r.required "crossProjectReferenceCount" Json.count?
  let averageComplexity ← r.required "averageComplexity" Json.float?
  let languageDistribution ← r.required "languageDistribution" Histogram.ofJson?
  some { totalSymbols, totalRelationships, crossProjectReferenceCount, averageComplexity,
         languageDistribution }

end ProjectMetrics

namespace ProjectInfo

/-- The fields of a summary. -/
def fields : List String := [
  "projectId", "name", "path", "targetFramework", "languages", "projectReferences",
  "roleDistribution", "featureBoundaries", "metrics"]

/-- The written form of a summary. -/
def toJson (p : ProjectInfo) : Json := .ofMembers [
  ("projectId", .ofString p.projectId),
  ("name", .ofString p.name),
  ("path", .ofString p.path),
  ("targetFramework", .ofOption .ofString p.targetFramework),
  ("languages", .ofSet p.languages),
  ("projectReferences", .ofList .ofString p.projectReferences),
  ("roleDistribution", p.roleDistribution.toJson),
  ("featureBoundaries", .ofSet p.featureBoundaries),
  ("metrics", p.metrics.toJson)]

/-- The summary that a document writes. -/
def ofJson? (j : Json) : Option ProjectInfo := do
  let r ← Json.Record.of? fields j
  let projectId ← r.required "projectId" Json.text?
  let name ← r.required "name" Json.text?
  let path ← r.required "path" Json.text?
  let targetFramework ← r.optional "targetFramework" Json.text?
  let languages ← r.required "languages" Json.textSet?
  let projectReferences ← r.required "projectReferences" (Json.list? Json.text?)
  let roleDistribution ← r.required "roleDistribution" Histogram.ofJson?
  let featureBoundaries ← r.required "featureBoundaries" Json.textSet?
  let metrics ← r.required "metrics" ProjectMetrics.ofJson?
  some { projectId, name, path, targetFramework, languages, projectReferences, roleDistribution,
         featureBoundaries, metrics }

end ProjectInfo

/-! ## Graphs -/

namespace GraphMetadata

/-- The fields of the counts. -/
def fields : List String := [
  "durationMs", "projectCount", "nodeCount", "relationshipCount", "nodesByKind",
  "relationshipsByType", "nodesByRole", "featureBoundaryCount", "crossProjectRelationshipCount",
  "crossLanguageRelationshipCount", "errors"]

/-- The written form of the counts. -/
def toJson (m : GraphMetadata) : Json := .ofMembers [
  ("durationMs", .ofNat m.durationMs),
  ("projectCount", .ofNat m.projectCount),
  ("nodeCount", .ofNat m.nodeCount),
  ("relationshipCount", .ofNat m.relationshipCount),
  ("nodesByKind", m.nodesByKind.toJson),
  ("relationshipsByType", m.relationshipsByKind.toJson),
  ("nodesByRole", m.nodesByRole.toJson),
  ("featureBoundaryCount", .ofNat m.featureBoundaryCount),
  ("crossProjectRelationshipCount", .ofNat m.crossProjectRelationshipCount),
  ("crossLanguageRelationshipCount", .ofNat m.crossLanguageRelationshipCount),
  ("errors", .ofList .ofString m.errors)]

/-- The counts that a document writes. -/
def ofJson? (j : Json) : Option GraphMetadata := do
  let r ← Json.Record.of? fields j
  let durationMs ← r.required "durationMs" Json.count?
  let projectCount ← r.required "projectCount" Json.count?
  let nodeCount ← r.required "nodeCount" Json.count?
  let relationshipCount ← r.required "relationshipCount" Json.count?
  let nodesByKind ← r.required "nodesByKind" Histogram.ofJson?
  let relationshipsByKind ← r.required "relationshipsByType" Histogram.ofJson?
  let nodesByRole ← r.required "nodesByRole" Histogram.ofJson?
  let featureBoundaryCount ← r.required "featureBoundaryCount" Json.count?
  let crossProjectRelationshipCount ← r.required "crossProjectRelationshipCount" Json.count?
  let crossLanguageRelationshipCount ← r.required "crossLanguageRelationshipCount" Json.count?
  let errors ← r.withDefault "errors" [] (Json.list? Json.text?)
  some { durationMs, projectCount, nodeCount, relationshipCount, nodesByKind, relationshipsByKind,
         nodesByRole, featureBoundaryCount, crossProjectRelationshipCount,
         crossLanguageRelationshipCount, errors }

end GraphMetadata

namespace Graph

/-- The fields of a graph. -/
def fields : List String :=
  ["nodes", "relationships", "projectInfo", "crossProjectDependencies", "metadata"]

/-- The written form of a graph. -/
def toJson (g : Graph) : Json := .ofMembers [
  ("nodes", .ofMap Node.toJson g.nodes),
  ("relationships", .ofList Relationship.toJson g.relationships),
  ("projectInfo", .ofMap ProjectInfo.toJson g.projectInfo),
  ("crossProjectDependencies", .ofList ProjectDependency.toJson g.crossProjectDependencies),
  ("metadata", g.metadata.toJson)]

/-- The graph that a document writes. -/
def ofJson? (j : Json) : Option Graph := do
  let r ← Json.Record.of? fields j
  let nodes ← r.required "nodes" (Json.map? Node.ofJson?)
  let relationships ← r.required "relationships" (Json.list? Relationship.ofJson?)
  let projectInfo ← r.required "projectInfo" (Json.map? ProjectInfo.ofJson?)
  let crossProjectDependencies ← r.required "crossProjectDependencies"
    (Json.list? ProjectDependency.ofJson?)
  let metadata ← r.required "metadata" GraphMetadata.ofJson?
  some { nodes, relationships, projectInfo, crossProjectDependencies, metadata }

/-- The graph as a text with a line for every element and member. -/
def render (g : Graph) : String := g.toJson.pretty

/-- The graph that a text writes. -/
def parse? (text : String) : Option Graph := Json.parse? text >>= ofJson?

end Graph

end CodeAtlas
