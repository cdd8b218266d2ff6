import CodeAtlas.Proofs.Counts
import CodeAtlas.Proofs.Offers
import Mathlib.Data.Set.Image

/-!
# What an analysis of a recorded workspace may give

Which of several declarations of one id becomes a node is up to the schedule, and so is which of
several relationships of one key is stored; which of several declarations holds a place may be up to
the order in which the resolver compares them. So an analysis that is left alone may give several
results, the outcomes of the workspace (`Snapshot.outcomes`).

The outcomes have much in common. They are graphs, or there is one error for all of them
(`Snapshot.run_analysisIn`). The ids of the nodes are those of the declarations that are for the
graph (`Snapshot.Declares`), and each node is made from one of them (`Snapshot.built_of_found`). The
failures are those that the fault plan demands (`Snapshot.failures_found`).
-/

namespace CodeAtlas

/-- What a function gives for the elements with some property, if it gives nothing for others. -/
theorem filterMap_of_ite {α β : Type} {f : α → Option β} {g : α → β} {p : α → Prop}
    [DecidablePred p] {l : List α} (h : ∀ x ∈ l, f x = if p x then some (g x) else none) :
    l.filterMap f = (l.filter (p ·)).map g := by
  induction l with
  | nil => rfl
  | cons x rest ih =>
    have hx := h x List.mem_cons_self
    have hrest := ih fun y hy => h y (List.mem_cons_of_mem x hy)
    by_cases hp : p x
    · rw [if_pos hp] at hx
      rw [List.filterMap_cons_some hx, hrest, List.filter_cons_of_pos (by simpa), List.map_cons]
    · rw [if_neg hp] at hx
      rw [List.filterMap_cons_none hx, hrest, List.filter_cons_of_neg (by simpa)]

namespace Snapshot

variable (w : Snapshot)

/-- All that an analysis of the workspace may give when it is left alone. -/
def outcomes (config : Config) (path : String) : Set (Except AnalysisError Graph) :=
  {r | ∃ order schedule, (∀ l, (order l).Perm l) ∧
    (w.analysisIn order config schedule).run path = r}

/-- The projects of the workspace, each once. -/
def distinct : List Project := distinctProjects (w.projects.map (·.project))

/-- The symbols of a project that compiles. -/
def compiled (project : Project) : List Symbol := (w.symbolsOf project).toOption.getD []

/-- A project of the workspace declares the symbol, and the symbol is for the graph. -/
def Declares (config : Config) (d : Declaration) : Prop :=
  d.project ∈ w.distinct ∧ d.isIncluded config = true ∧ d.symbol ∈ w.compiled d.project

/-- The declarations of the projects, those of each project in their order. -/
def declarations : List (List Declaration) :=
  w.distinct.map fun project => (w.compiled project).map fun s => ⟨s, project⟩

/-- All declarations of an id make the same node. -/
def Settled (config : Config) (id : String) : Prop :=
  ∀ d d', w.Declares config d → w.Declares config d' → d.id = id → d'.id = id → d.node = d'.node

/-- Why there is no graph of the workspace, if there is none. -/
def fault? (config : Config) (path : String) : Option AnalysisError :=
  match config.fault? with
  | some fault => some (.invalidConfig fault.message)
  | none => w.resolver.openingFault? path

/-- The catalogue of the workspace. -/
def catalogue (config : Config) (schedule : Schedule) : Catalogue :=
  .ofTurns config w.declarations.flatten (schedule.turns w.declarations)

/-- What there is to be found out about the workspace. -/
def found (order : List Symbol → List Symbol) (config : Config) (schedule : Schedule) : Findings :=
  (w.analysisIn order config schedule).findingsOf w.distinct

/-! ## The failures that the fault plan demands -/

/-- The ids of the projects that are not to compile, in their order. -/
def failingProjects : List String :=
  (SortedSet.ofList (w.projects.map (·.project.id))).toList.filter (· ∈ w.faults.failProjects)

/-- The error with which a project is to fail. -/
def projectFault (id : String) : ResolverError := .projectFailed id "compilation fault injected"

/-- The failures in a workspace with nodes of the given ids: one for each project that is not to
compile and one for each node about which nothing is to be found out. -/
def planned (ids : List String) : List TaskFailure :=
  w.failingProjects.map (fun id => .project id (.resolver (projectFault id))) ++
    (ids.filter (· ∈ w.faults.failLookups)).map fun id => .node id (.resolver (lookupFault id))

variable {w} {order : List Symbol → List Symbol} {config : Config} {schedule : Schedule}
  {path id : String} {project : Project}

/-! ## Graphs and errors -/

/-- The projects of a workspace that can be opened are discovered. -/
theorem discovered_eq (h : w.resolver.openingFault? path = none) :
    (w.analysisIn order config schedule).discovered path = w.distinct := by
  by_cases hfail : w.faults.failWorkspace = true
  · have hlisted : w.resolver.projects path = .error (.workspaceUnavailable path) := if_pos hfail
    rw [Resolver.openingFault?, hlisted] at h
    cases h
  · have hlisted : (w.analysisIn order config schedule).resolver.projects path =
        .ok (w.projects.map (·.project)) := if_neg hfail
    rw [Analysis.discovered, hlisted]
    rfl

/-- An analysis gives the graph of what there is to be found out, unless there is an error for all
of them. -/
theorem run_analysisIn : (w.analysisIn order config schedule).run path =
    match w.fault? config path with
    | some e => .error e
    | none => .ok (Graph.assemble config path (w.found order config schedule)) := by
  rw [fault?]
  cases hconfig : config.fault? with
  | some fault =>
    have hfault : (w.analysisIn order config schedule).config.fault? = some fault := hconfig
    rw [Analysis.run, hfault]
    rfl
  | none =>
    have hrun : (w.analysisIn order config schedule).run path = _ :=
      Analysis.run_of_going (fun _ => rfl) hconfig
    have hresolver : (w.analysisIn order config schedule).resolver.openingFault? path =
      w.resolver.openingFault? path := rfl
    rw [hrun, hresolver]
    cases hopen : w.resolver.openingFault? path with
    | some e => rfl
    | none => rw [discovered_eq hopen]; rfl

/-- Analyses of two workspaces agree in a view of graphs if there is the same error for both, or
none and what is found in them agrees in this view. -/
theorem map_run_congr {w' : Snapshot} {order' : List Symbol → List Symbol} {schedule' : Schedule}
    {β : Type} {f : Graph → β} (hfault : w'.fault? config path = w.fault? config path)
    (hview : f (Graph.assemble config path (w'.found order' config schedule')) =
      f (Graph.assemble config path (w.found order config schedule))) :
    ((w'.analysisIn order' config schedule').run path).map f =
      ((w.analysisIn order config schedule).run path).map f := by
  rw [run_analysisIn, run_analysisIn, hfault]
  cases w.fault? config path with
  | some e => rfl
  | none => exact congrArg Except.ok hview

/-- With a usable configuration there is a graph of a workspace that can be opened and has projects.
-/
theorem fault?_eq_none (hconfig : config.fault? = none) (hopen : w.faults.failWorkspace = false)
    (hprojects : w.projects ≠ []) : w.fault? config path = none := by
  have hlisted : w.resolver.projects path = .ok (w.projects.map (·.project)) :=
    if_neg (Bool.eq_false_iff.mp hopen)
  rw [fault?, hconfig]
  dsimp only
  rw [Resolver.openingFault?, hlisted]
  cases hw : w.projects with
  | nil => exact absurd hw hprojects
  | cons e rest => rfl

/-- The graphs that an analysis may give are assembled from what there is to be found out. -/
theorem ok_mem_outcomes {g : Graph} (h : .ok g ∈ w.outcomes config path) :
    ∃ order schedule, (∀ l, (order l).Perm l) ∧
      g = Graph.assemble config path (w.found order config schedule) := by
  obtain ⟨order, schedule, horder, hrun⟩ := h
  rw [run_analysisIn] at hrun
  split at hrun
  · cases hrun
  · exact ⟨order, schedule, horder, (Except.ok.inj hrun).symm⟩

/-! ## Nodes -/

theorem mem_compiled {s : Symbol} :
    s ∈ w.compiled project ↔ ∃ symbols, w.symbolsOf project = .ok symbols ∧ s ∈ symbols := by
  rw [compiled]
  cases w.symbolsOf project with
  | error e => exact ⟨fun h => absurd h List.not_mem_nil, fun ⟨_, h, _⟩ => nomatch h⟩
  | ok symbols => exact ⟨fun h => ⟨symbols, rfl, h⟩, fun ⟨_, h, hs⟩ => by cases h; exact hs⟩

/-- The task of a project ends with what the project declares. -/
theorem ending_declarationsOf :
    ((w.analysisIn order config schedule).declarationsOf project).ending =
      (w.symbolsOf project).map fun symbols => symbols.map fun s => ⟨s, project⟩ :=
  Analysis.ending_declarationsOf

/-- An analysis finds out what the projects declare. -/
theorem declared_analysisIn :
    (w.analysisIn order config schedule).declared w.distinct = w.declarations := by
  refine List.map_congr_left fun project _ => ?_
  rw [ending_declarationsOf, compiled]
  cases w.symbolsOf project <;> rfl

theorem catalogueOf_analysisIn :
    (w.analysisIn order config schedule).catalogueOf w.distinct = w.catalogue config schedule := by
  rw [Analysis.catalogueOf, declared_analysisIn]
  rfl

/-- The nodes that are found are those of the catalogue. -/
theorem nodes_found :
    (w.found order config schedule).nodes = (w.catalogue config schedule).nodes :=
  congrArg Catalogue.nodes catalogueOf_analysisIn

/-- The catalogue is made from the declarations that are for the graph. -/
theorem madeFrom_catalogue : (w.catalogue config schedule).MadeFrom
    (w.declarations.flatten.filter (·.isIncluded config)) :=
  Catalogue.madeFrom_ofTurns config _ _ (schedule.complete _)

theorem mem_declarations {d : Declaration} :
    d ∈ w.declarations.flatten.filter (·.isIncluded config) ↔ w.Declares config d := by
  simp only [declarations, List.mem_filter, List.mem_flatten, List.mem_map, Declares]
  constructor
  · rintro ⟨⟨_, ⟨project, hproject, rfl⟩, hd⟩, hfor⟩
    obtain ⟨s, hs, rfl⟩ := List.mem_map.mp hd
    exact ⟨hproject, hfor, hs⟩
  · rintro ⟨hproject, hfor, hs⟩
    exact ⟨⟨_, ⟨d.project, hproject, rfl⟩, List.mem_map.mpr ⟨d.symbol, hs, rfl⟩⟩, hfor⟩

/-- Nodes are found under their ids. -/
theorem id_of_found {n : Node} (hn : (w.found order config schedule).nodes.get? id = some n) :
    n.id = id :=
  madeFrom_catalogue.id_eq (nodes_found ▸ hn)

/-- Each of them is made from a declaration of its id. -/
theorem built_of_found {n : Node} (hn : (w.found order config schedule).nodes.get? id = some n) :
    ∃ d, w.Declares config d ∧ d.id = id ∧ n = d.node := by
  obtain ⟨d, hd, hid, hnode⟩ := madeFrom_catalogue.built (nodes_found ▸ hn)
  exact ⟨d, mem_declarations.mp hd, hid, hnode⟩

/-- There is a node of an id exactly if there is a declaration of it. -/
theorem contains_found : (w.found order config schedule).nodes.contains id = true ↔
    ∃ d, w.Declares config d ∧ d.id = id := by
  rw [nodes_found, madeFrom_catalogue.contains_nodes]
  simp only [mem_declarations]

/-- The projects that are found are those of the workspace. -/
theorem projects_found : (w.found order config schedule).projects = w.distinct := rfl

/-- The store of relationships that are found is sound. -/
theorem sound_found : (w.found order config schedule).relationships.Sound
    (w.found order config schedule).nodes :=
  Analysis.sound_relationshipsFor Analysis.madeFrom_catalogueOf.id_eq

end Snapshot

/-- The node without the feature in which it lies. -/
def Node.withoutFeature (n : Node) : Node := { n with featureBoundary := none }

@[simp] theorem Node.withoutFeature_inFeature (n : Node) (feature : Option String) :
    (n.inFeature feature).withoutFeature = n.withoutFeature := rfl

/-- The nodes of the graph without their features. -/
def Graph.bareNodes (g : Graph) : SortedMap String Node :=
  g.nodes.mapValues fun _ n => n.withoutFeature

/-- Up to their features the nodes of an assembled graph are the classified ones. -/
theorem Graph.bareNodes_assemble {config : Config} {path : String} {found : Findings}
    (h : ∀ {id n}, found.nodes.get? id = some n → n.id = id) :
    (Graph.assemble config path found).bareNodes =
      found.nodes.mapValues fun _ n => n.classify.withoutFeature := by
  refine SortedMap.ext_get? fun id => ?_
  rw [bareNodes, SortedMap.get?_mapValues, SortedMap.get?_mapValues, Graph.get?_nodes_assemble h,
    Option.map_map]
  simp only [Function.comp_def, Node.withoutFeature_inFeature]

/-- The nodes of an assembled graph have the ids under which they were found. -/
theorem Graph.keyList_nodes_assemble {config : Config} {path : String} {found : Findings}
    (h : ∀ {id n}, found.nodes.get? id = some n → n.id = id) :
    (Graph.assemble config path found).nodes.keyList = found.nodes.keyList := by
  refine SortedSet.eq_of_mem_iff (SortedMap.keys _).ascending (SortedMap.keys _).ascending
    fun id => ?_
  rw [SortedMap.mem_keyList, SortedMap.mem_keyList, Graph.contains_assemble,
    Findings.contains_classified h]

namespace Snapshot

variable {w : Snapshot} {order : List Symbol → List Symbol} {config : Config} {schedule : Schedule}
  {path id : String} {project : Project}

/-! ## Failures -/

/-- The distinct projects have the ids of the workspace. -/
theorem map_id_distinct : w.distinct.map (·.id) =
    (SortedSet.ofList (w.projects.map (·.project.id))).toList := by
  rw [distinct, map_id_distinctProjects, List.map_map]
  rfl

/-- They have an entry each. -/
theorem exists_entry (hproject : project ∈ w.distinct) :
    ∃ e, w.projects.find? (·.project.id == project.id) = some e := by
  have hid : project.id ∈ w.distinct.map (·.id) := List.mem_map_of_mem hproject
  rw [map_id_distinct, ← SortedSet.mem_def, SortedSet.mem_ofList, List.mem_map] at hid
  obtain ⟨e, he, hid⟩ := hid
  exact Option.isSome_iff_exists.mp (List.find?_isSome.mpr ⟨e, he, by simpa using hid⟩)

/-- The task of a project fails exactly if the project is not to compile. -/
theorem failure_of_project (hproject : project ∈ w.distinct) :
    TaskFailure.of? (.project project.id)
        ((w.analysisIn order config schedule).declarationsOf project) =
      if project.id ∈ w.faults.failProjects then
        some (.project project.id (.resolver (projectFault project.id)))
      else none := by
  obtain ⟨e, he⟩ := exists_entry hproject
  rw [TaskFailure.of?, ending_declarationsOf]
  by_cases hfail : project.id ∈ w.faults.failProjects
  · rw [symbolsOf_of_failing hfail, if_pos hfail]
    rfl
  · rw [symbolsOf_of_entry hfail he, if_neg hfail]
    rfl

/-- The task of a node fails exactly if nothing is to be found out about the node. -/
theorem failure_of_node {c : Catalogue} {l : List Declaration} (hc : c.MadeFrom l)
    (hid : id ∈ c.nodes.keyList) :
    TaskFailure.of? (.node id) ((w.analysisIn order config schedule).relationshipsOf c id) =
      if id ∈ w.faults.failLookups then some (.node id (.resolver (lookupFault id))) else none := by
  rw [SortedMap.mem_keyList] at hid
  obtain ⟨n, hn⟩ := SortedMap.contains_iff.mp hid
  obtain ⟨s, hs⟩ := hc.exists_handle hid
  rw [TaskFailure.of?, ending_relationshipsOf, hn, hs]
  dsimp only
  rw [hc.identity_eq hs]
  by_cases hfail : id ∈ w.faults.failLookups
  · rw [if_pos hfail, if_pos hfail]
  · rw [if_neg hfail, if_neg hfail]

/-- The failures are those that the fault plan demands. -/
theorem failures_found : (w.found order config schedule).failures =
    w.planned (w.found order config schedule).nodes.keyList := by
  have hfailing : w.failingProjects =
      (w.distinct.filter (·.id ∈ w.faults.failProjects)).map (·.id) := by
    rw [failingProjects, ← map_id_distinct, List.filter_map]
    rfl
  refine congrArg₂ (· ++ ·) ?_ ?_
  · rw [filterMap_of_ite fun project hp => failure_of_project hp, hfailing,
      List.map_map]
    rfl
  · exact filterMap_of_ite fun id hid =>
      failure_of_node Analysis.madeFrom_catalogueOf hid

/-- So the errors of a graph are those that the fault plan demands, in ascending order. -/
theorem errors_found :
    (Graph.assemble config path (w.found order config schedule)).metadata.errors =
      ((w.planned (w.found order config schedule).nodes.keyList).map (·.message)).mergeSort := by
  rw [Graph.metadata_assemble, failures_found]

theorem errors_of_outcome {g : Graph} (h : .ok g ∈ w.outcomes config path) :
    g.metadata.errors = ((w.planned g.nodes.keyList).map (·.message)).mergeSort := by
  obtain ⟨order, schedule, -, rfl⟩ := ok_mem_outcomes h
  rw [errors_found, Graph.keyList_nodes_assemble id_of_found]

/-! ## Workspaces with the same declarations -/

section Compared

variable {w' : Snapshot} {order' : List Symbol → List Symbol} {g g' : Graph}

/-- If analyses of two workspaces agree in some respect under every schedule, the outcomes of the
workspaces do. -/
theorem image_outcomes_eq {α : Type} {f : Except AnalysisError Graph → α}
    (h : ∀ order schedule, f ((w'.analysisIn order config schedule).run path) =
      f ((w.analysisIn order config schedule).run path)) :
    f '' w'.outcomes config path = f '' w.outcomes config path := by
  ext x
  constructor
  · rintro ⟨_, ⟨order, schedule, horder, rfl⟩, rfl⟩
    exact ⟨_, ⟨order, schedule, horder, rfl⟩, (h order schedule).symm⟩
  · rintro ⟨_, ⟨order, schedule, horder, rfl⟩, rfl⟩
    exact ⟨_, ⟨order, schedule, horder, rfl⟩, h order schedule⟩

/-- Under one schedule the same nodes are found in two workspaces that have the same symbols of the
same projects. -/
theorem nodes_found_eq (hdistinct : w'.distinct = w.distinct)
    (hcompiled : w'.compiled = w.compiled) :
    (w'.found order' config schedule).nodes = (w.found order config schedule).nodes := by
  have hdeclarations : w'.declarations = w.declarations := by
    rw [declarations, declarations, hdistinct, hcompiled]
  rw [nodes_found, nodes_found, catalogue, catalogue, hdeclarations]

variable (hg : .ok g ∈ w.outcomes config path) (hg' : .ok g' ∈ w'.outcomes config path)
include hg hg'

/-- Graphs of workspaces with the same projects say the same of them. -/
theorem attributes_outcomes (hdistinct : w'.distinct = w.distinct) :
    g'.attributes = g.attributes := by
  obtain ⟨order, schedule, -, rfl⟩ := ok_mem_outcomes hg
  obtain ⟨order', schedule', -, rfl⟩ := ok_mem_outcomes hg'
  rw [Graph.attributes_assemble, Graph.attributes_assemble, projects_found, projects_found,
    hdistinct]

variable (hdeclares : ∀ d, w'.Declares config d ↔ w.Declares config d)
include hdeclares

/-- Graphs of workspaces that have the same declarations have nodes of the same ids, -/
theorem keyList_outcomes : g'.nodes.keyList = g.nodes.keyList := by
  obtain ⟨order, schedule, -, rfl⟩ := ok_mem_outcomes hg
  obtain ⟨order', schedule', -, rfl⟩ := ok_mem_outcomes hg'
  rw [Graph.keyList_nodes_assemble id_of_found, Graph.keyList_nodes_assemble id_of_found]
  refine SortedSet.eq_of_mem_iff (SortedMap.keys _).ascending (SortedMap.keys _).ascending
    fun id => ?_
  rw [SortedMap.mem_keyList, SortedMap.mem_keyList, contains_found, contains_found]
  exact exists_congr fun d => and_congr_left fun _ => hdeclares d

/-- and up to its feature, the same node of each id whose declarations all make the same one. -/
theorem bareNode_outcomes (hsettled : w.Settled config id) :
    g'.bareNodes.get? id = g.bareNodes.get? id := by
  have hkeys := keyList_outcomes hg hg' hdeclares
  obtain ⟨order, schedule, -, rfl⟩ := ok_mem_outcomes hg
  obtain ⟨order', schedule', -, rfl⟩ := ok_mem_outcomes hg'
  rw [Graph.keyList_nodes_assemble id_of_found, Graph.keyList_nodes_assemble id_of_found] at hkeys
  rw [Graph.bareNodes_assemble id_of_found, Graph.bareNodes_assemble id_of_found,
    SortedMap.get?_mapValues, SortedMap.get?_mapValues]
  have hboth : (w'.found order' config schedule').nodes.contains id =
      (w.found order config schedule).nodes.contains id := by
    rw [Bool.eq_iff_iff, ← SortedMap.mem_keyList, ← SortedMap.mem_keyList, hkeys]
  cases hn : (w.found order config schedule).nodes.get? id with
  | none =>
    rw [SortedMap.contains_eq_false_iff.mpr hn] at hboth
    rw [SortedMap.contains_eq_false_iff.mp hboth]
  | some n =>
    rw [SortedMap.contains_of_get? hn] at hboth
    obtain ⟨n', hn'⟩ := SortedMap.contains_iff.mp hboth
    obtain ⟨d, hd, hid, rfl⟩ := built_of_found hn
    obtain ⟨d', hd', hid', rfl⟩ := built_of_found hn'
    rw [hn', hsettled d d' hd ((hdeclares d').mp hd') hid hid']

/-- The errors are the same if the same tasks are to fail. -/
theorem errors_outcomes (hplanned : w'.planned = w.planned) :
    g'.metadata.errors = g.metadata.errors := by
  rw [errors_of_outcome hg, errors_of_outcome hg', hplanned, keyList_outcomes hg hg' hdeclares]

end Compared

end Snapshot

end CodeAtlas
