import CodeAtlas.Graph.Basic
import CodeAtlas.Snapshot.Project

/-!
# Summaries

`ProjectInfo.summarize?` summarizes a project over all nodes and relationships. The sizes of nodes
that are read from a document may have a total beyond the largest word; this is a panic, since
additions are checked for overflow, and there is no summary. The counts of `GraphMetadata` grow by
one node, relationship or error at a time.
-/

namespace CodeAtlas

/-- The language of the files with an extension; an unknown extension stands for itself. -/
def languageName (extension : String) : String :=
  match extension with
  | "cs" => "C#"
  | "vb" => "Visual Basic"
  | "fs" => "F#"
  | "ts" => "TypeScript"
  | "tsx" => "TypeScript"
  | "js" => "JavaScript"
  | "jsx" => "JavaScript"
  | "xaml" => "XAML"
  | "axaml" => "XAML"
  | "razor" => "Razor"
  | "cshtml" => "Razor"
  | other => other

/-! ## Summaries of projects -/

/-- The nodes of a project. -/
def Project.membersIn (nodes : SortedMap String Node) (project : Project) : List Node :=
  nodes.values.filter (·.projectId == project.id)

namespace ProjectInfo

/-- The occurrences of each name in a list. -/
def tally (names : List String) : Histogram := names.foldl Histogram.count .empty

/-- The nodes that have sizes. -/
def measured (members : List Node) : List Node := members.filter fun n => !n.metrics.isEmpty

/-- The mean of some numbers, given their sum, and zero if there are none. -/
def mean (sum : Float) (count : Nat) : Float :=
  if count = 0 then 0 else sum / Float.ofNat count

/-- The complexity of all nodes that have sizes, if no addition exceeds the largest word; otherwise
there is a panic. -/
def complexityTotal? (members : List Node) : Option UInt64 :=
  (measured members).foldlM (fun total n => do addWords? total (← n.metrics.complexity?)) 0

/-- The sum of all sizes of some nodes as a number of any size. -/
def trueTotal (members : List Node) : Nat :=
  members.foldl (fun total n => total + n.metrics.trueComplexity) 0

/-- The summary of a project over all nodes and relationships, given the total from which the mean
complexity is computed. -/
def summarizeWith (total : Float) (project : Project) (nodes : SortedMap String Node)
    (relationships : List Relationship) : ProjectInfo :=
  let members := project.membersIn nodes
  let languages := (members.filterMap (·.extension)).map languageName
  let outgoing := relationships.filter fun r =>
    (nodes.get? r.sourceId).any (·.projectId == project.id)
  { projectId := project.id
    name := project.name
    path := project.path
    targetFramework := project.targetFramework
    languages := .ofList (project.language.toList ++ languages)
    projectReferences := project.projectReferences
    roleDistribution := tally (members.map (·.role.name))
    featureBoundaries := .ofList (members.filterMap (·.featureBoundary))
    metrics :=
      { totalSymbols := members.length
        totalRelationships := outgoing.length
        crossProjectReferenceCount := outgoing.countP (·.isCrossProject)
        averageComplexity := mean total (measured members).length
        languageDistribution := tally languages } }

/-- The summary of a project over all nodes and relationships, if the total of their sizes is a
word; otherwise there is a panic. -/
def summarize? (project : Project) (nodes : SortedMap String Node)
    (relationships : List Relationship) : Option ProjectInfo := do
  let total ← complexityTotal? (project.membersIn nodes)
  some (summarizeWith total.toFloat project nodes relationships)

/-- The summary of a project over nodes that an analysis has built. Their sizes are lengths of lists
in memory, so the total is a word. -/
def summarize (project : Project) (nodes : SortedMap String Node)
    (relationships : List Relationship) : ProjectInfo :=
  summarizeWith (.ofNat (trueTotal (project.membersIn nodes))) project nodes relationships

end ProjectInfo

/-! ## Counts over a whole analysis -/

namespace GraphMetadata

/-- The counts with one more node. -/
def withNode (m : GraphMetadata) (n : Node) : GraphMetadata :=
  { m with
    nodeCount := m.nodeCount + 1
    nodesByKind := m.nodesByKind.count n.kind.name
    nodesByRole := m.nodesByRole.count n.role.name }

/-- The counts with one more relationship. -/
def withRelationship (m : GraphMetadata) (r : Relationship) : GraphMetadata :=
  { m with
    relationshipCount := m.relationshipCount + 1
    relationshipsByKind := m.relationshipsByKind.count r.kind.name
    crossProjectRelationshipCount :=
      m.crossProjectRelationshipCount + r.isCrossProject.toNat
    crossLanguageRelationshipCount :=
      m.crossLanguageRelationshipCount + r.isCrossLanguage.toNat }

/-- The counts with one more error. -/
def withError (m : GraphMetadata) (text : String) : GraphMetadata :=
  { m with errors := m.errors ++ [text] }

end GraphMetadata

end CodeAtlas
