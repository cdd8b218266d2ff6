import CodeAtlas.Analysis.Classification
import CodeAtlas.Analysis.Collection
import CodeAtlas.Analysis.Coupling
import CodeAtlas.Analysis.Statistics
import CodeAtlas.Feature.Clustering
import CodeAtlas.Workspace.Root

/-!
# Running an analysis

`Analysis.run` makes the graph of a workspace. It asks for the projects, catalogues their symbols,
collects the relationships at every node (`Analysis.explore`), and assembles the result from what
was found (`Graph.assemble`). The failure of one project or node is noted in the result; being
cancelled, an unusable configuration and a workspace without projects end the analysis.

There is a task for each project and later one for each node. All projects are asked before the
first declaration is added (`Analysis.catalogueProjects`): adding one asks nothing, and what a
project declares does not depend on when it is asked, so the order of the questions makes no
difference to the catalogue. In which order the declarations of all projects make their steps, and
in which order the tasks of the nodes ask and store, is up to the schedule.
-/

namespace CodeAtlas

/-! ## Finding out -/

/-- The projects in the order of their ids; of several with one id the first one is taken. -/
def distinctProjects (projects : List Project) : List Project :=
  (projects.foldl (fun m p => m.insertNew p.id p) (.empty : SortedMap String Project)).values

/-- What an analysis finds out before it assembles its result. -/
structure Findings where
  projects : List Project
  nodes : NodeStore
  relationships : RelationshipStore
  failures : List TaskFailure

namespace Analysis

variable (a : Analysis)

/-- The projects of the workspace at a path. -/
def discover (path : String) : Step (List Project) := do
  a.note .projects
  match a.resolver.projects path with
  | .error e => throw (.workspaceUnavailable e.message)
  | .ok [] => throw (.noProjects path)
  | .ok projects => return distinctProjects projects

/-- The task of a project: it finds out what the project declares. -/
def declarationsOf (project : Project) : Script (List Declaration) := do
  let symbols ← Script.ask .symbols (a.resolver.symbols project)
  return symbols.map fun s => ⟨s, project⟩

/-- What each of the projects declares; one that fails declares nothing. -/
def declared (projects : List Project) : List (List Declaration) :=
  projects.map fun project => (a.declarationsOf project).ending.toOption.getD []

/-- The catalogue of what the projects declare. -/
def catalogueOf (projects : List Project) : Catalogue :=
  let l := a.declared projects
  .ofTurns a.config l.flatten (a.schedule.turns l)

/-- Catalogues what the projects declare. -/
def catalogueProjects (projects : List Project) : Step (List TaskFailure) := do
  Step.check
  a.performAll (projects.map a.declarationsOf)
  modify fun p => { p with catalogue := a.catalogueOf projects }
  return projects.filterMap fun project =>
    TaskFailure.of? (.project project.id) (a.declarationsOf project)

/-- The task of the node with an id in a catalogue: it stores the relationships at the node. -/
def relationshipsOf (c : Catalogue) (id : String) : Script Unit := do
  Script.check
  match c.nodes.get? id, c.registry.get? id with
  | some node, some s => a.resolver.collect c node s
  | _, _ => return ()

/-- Stores the relationships at all nodes. -/
def collectNodes : Step (List TaskFailure) := do
  Step.check
  let c := (← get).catalogue
  a.performAll (c.nodes.keyList.map (a.relationshipsOf c))
  return c.nodes.keyList.filterMap fun id => TaskFailure.of? (.node id) (a.relationshipsOf c id)

/-- Takes stock of what has been found out. -/
def conclude (projects : List Project) (failures : List TaskFailure) : Step Findings := do
  Step.check
  let p ← get
  return { projects, nodes := p.catalogue.nodes, relationships := p.relationships, failures }

/-- Finds out all that the result depends on. -/
def explore (path : String) : Step Findings := do
  Step.check
  let projects ← a.discover path
  let failedProjects ← a.catalogueProjects projects
  let failedNodes ← a.collectNodes
  conclude projects (failedProjects ++ failedNodes)

end Analysis

/-! ## Assembling the result -/

namespace Relationship

/-- The relationship with its flags, if both of its ends are among the nodes. -/
def finalize? (nodes : SortedMap String Node) (r : Relationship) : Option Relationship := do
  let source ← nodes.get? r.sourceId
  let target ← nodes.get? r.targetId
  let isCrossLanguage := match source.extension, target.extension with
    | some a, some b => a != b
    | _, _ => false
  some { r with isCrossProject := source.projectId != target.projectId, isCrossLanguage }

end Relationship

/-- The relationships whose ends are both among the nodes, with their flags, in the order of their
keys. -/
def finalizeRelationships (nodes : SortedMap String Node) (relationships : List Relationship) :
    List Relationship :=
  (relationships.filterMap (Relationship.finalize? nodes)).mergeSort fun a b =>
    (compare a.key b.key).isLE

/-- The name of the last feature that holds the node with an id. -/
def featureOf? (features : SortedMap String (SortedSet String)) (id : String) : Option String :=
  features.entries.foldl (fun name f => if id ∈ f.2 then some f.1 else name) none

namespace Findings

/-- The nodes with their roles, under their ids. -/
def classified (found : Findings) : NodeStore := .ofNodes (found.nodes.values.map (·.classify))

/-- The relationships of the result. -/
def finalized (found : Findings) : List Relationship :=
  finalizeRelationships found.classified found.relationships.values

/-- The features of the nodes, each with the ids of its nodes. -/
def features (config : Config) (path : String) (found : Findings) :
    SortedMap String (SortedSet String) :=
  let rules := (TokenRules.ofConfig config).withRoot (workspaceRoot path)
  detectFeatures config rules found.classified found.finalized

end Findings

namespace Graph

/-- The counts over nodes and relationships. -/
def countAll (nodes : SortedMap String Node) (relationships : List Relationship)
    (errors : List String) (projectCount featureBoundaryCount : Nat) : GraphMetadata :=
  let m : GraphMetadata := { projectCount, featureBoundaryCount }
  let m := nodes.values.foldl GraphMetadata.withNode m
  let m := relationships.foldl GraphMetadata.withRelationship m
  errors.foldl GraphMetadata.withError m

/-- The graph of what an analysis of the workspace at a path has found out. -/
def assemble (config : Config) (path : String) (found : Findings) : Graph :=
  let relationships := found.finalized
  let features := found.features config path
  let nodes := found.classified.mapValues fun id n => n.inFeature (featureOf? features id)
  let errors := (found.failures.map (·.message)).mergeSort
  { nodes
    relationships
    projectInfo := .ofList (found.projects.map fun project =>
      (project.id, ProjectInfo.summarize project nodes relationships))
    crossProjectDependencies := projectDependencies nodes relationships found.projects
    metadata := countAll nodes relationships errors found.projects.length features.size }

end Graph

namespace Analysis

variable (a : Analysis)

/-- The progress of an analysis that has not asked anything. -/
def start : Progress := { cancelled := a.cancelsAfter [] }

/-- What the exploration of the workspace at a path answers, and the progress it ends with. -/
def exploration (path : String) : Except AnalysisError Findings × Progress :=
  (a.explore path).outcome a.start

/-- The graph of the workspace at a path. -/
def run (path : String) : Except AnalysisError Graph := do
  if let some fault := a.config.fault? then throw (.invalidConfig fault.message)
  let found ← (a.exploration path).1
  return Graph.assemble a.config path found

variable {a} {path : String}

/-- With a usable configuration the graph is assembled from what the exploration answers. -/
theorem run_of_usable (h : a.config.fault? = none) :
    a.run path = (a.exploration path).1.map (Graph.assemble a.config path) := by
  rw [run, h]
  cases (a.exploration path).1 <;> rfl

/-- With a usable configuration there is a graph as soon as the exploration answers. -/
theorem exists_run (hconfig : a.config.fault? = none)
    (h : (a.exploration path).1.isOk = true) : ∃ g, a.run path = .ok g := by
  rw [run_of_usable hconfig]
  cases he : (a.exploration path).1 with
  | error e => rw [he] at h; cases h
  | ok found => exact ⟨_, rfl⟩

/-- A graph is assembled from the answer of an exploration. -/
theorem run_eq_ok {g : Graph} (h : a.run path = .ok g) :
    ∃ found, (a.exploration path).1 = .ok found ∧ g = Graph.assemble a.config path found := by
  cases hf : a.config.fault? with
  | some fault => rw [run, hf] at h; cases h
  | none =>
    rw [run_of_usable hf] at h
    cases he : (a.exploration path).1 with
    | error e => rw [he] at h; cases h
    | ok found =>
      rw [he] at h
      cases h
      exact ⟨found, rfl, rfl⟩

end Analysis

/-- The analysis of a recorded workspace that is left alone. -/
def Snapshot.analysis (w : Snapshot) (config : Config) (schedule : Schedule) : Analysis :=
  { resolver := w.resolver, config, schedule }

/-- The same analysis with a resolver that compares declarations in some order. -/
def Snapshot.analysisIn (w : Snapshot) (order : List Symbol → List Symbol) (config : Config)
    (schedule : Schedule) : Analysis :=
  { resolver := w.resolverIn order, config, schedule }

end CodeAtlas
