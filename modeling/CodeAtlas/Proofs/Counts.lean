import CodeAtlas.Proofs.Histograms
import CodeAtlas.Proofs.Partition
import CodeAtlas.Proofs.WellFormed
import Mathlib

/-!
# The counts of a graph agree

Nodes, relationships and features are counted several times over in one graph: for every project,
for every pair of projects, and for the whole. These counts agree (`Graph.CountsAgree`,
`Analysis.run_countsAgree`), because every node belongs to exactly one of the projects and every
relationship starts at a node.
-/

namespace CodeAtlas

/-! ## Counting by classes -/

section Classes

variable {α κ : Type} {R : α → κ → Bool} {l : List α} {classes : List κ}

/-- Counting one by one which classes have a property. -/
theorem sum_map_ite {P : κ → Bool} :
    (classes.map fun i => if P i then 1 else 0).sum = classes.countP P := by
  induction classes with
  | nil => rfl
  | cons i rest ih =>
    rw [List.map_cons, List.sum_cons, ih, List.countP_cons, Nat.add_comm]

/-- When every element belongs to one of the classes, counting class by class counts all. -/
theorem sum_countP_filter (h : ∀ x ∈ l, classes.countP (R x) = 1) (q : α → Bool) :
    (classes.map fun i => (l.filter (R · i)).countP q).sum = l.countP q := by
  simp only [List.countP_filter]
  induction l with
  | nil => simp
  | cons x rest ih =>
    have hx : (classes.map fun i => if q x && R x i then 1 else 0).sum = if q x then 1 else 0 := by
      rw [sum_map_ite]
      cases q x with
      | false => simp
      | true => simpa using h x List.mem_cons_self
    simp only [List.countP_cons]
    rw [List.sum_map_add, ih fun y hy => h y (List.mem_cons_of_mem x hy), hx]

/-- When every element that counts belongs to some class, counting class by class counts no
fewer. -/
theorem countP_le_sum {q : α → Bool} (h : ∀ x, q x = true → ∃ i ∈ classes, R x i = true) :
    l.countP q ≤ (classes.map fun i => l.countP (R · i)).sum := by
  induction l with
  | nil => simp
  | cons x rest ih =>
    have hx : (if q x then 1 else 0) ≤ (classes.map fun i => if R x i then 1 else 0).sum := by
      rw [sum_map_ite]
      split
      · exact List.countP_pos_iff.mpr (h x ‹_›)
      · exact Nat.zero_le _
    simp only [List.countP_cons]
    rw [List.sum_map_add]
    exact Nat.add_le_add ih hx

end Classes

/-! ## Projects -/

/-- Projects that are added to a table of projects by id stand under their ids. -/
theorem id_of_foldl_insertNew {listed : List Project} {table : SortedMap String Project}
    (htable : ∀ {id p}, table.get? id = some p → p.id = id) {id : String} {p : Project}
    (h : (listed.foldl (fun m p => m.insertNew p.id p) table).get? id = some p) : p.id = id := by
  induction listed generalizing table with
  | nil => exact htable h
  | cons new rest ih =>
    refine @ih (table.insertNew new.id new) (fun {id p} hget => ?_) h
    cases hold : table.get? new.id with
    | none =>
      rw [SortedMap.insertNew_of_none hold, SortedMap.get?_insert] at hget
      split at hget
      · rename_i hid
        cases hget
        exact hid.symm
      · exact htable hget
    | some old =>
      rw [SortedMap.insertNew_of_some hold] at hget
      exact htable hget

/-- The distinct projects have the listed ids, once each and in their order. -/
theorem map_id_distinctProjects (listed : List Project) :
    (distinctProjects listed).map (·.id) = (SortedSet.ofList (listed.map (·.id))).toList := by
  have hkeys : (distinctProjects listed).map (·.id) = SortedMap.keyList
      (listed.foldl (fun m p => m.insertNew p.id p) (.empty : SortedMap String Project)) := by
    rw [distinctProjects, SortedMap.values, List.map_map]
    refine List.map_congr_left fun e he =>
      id_of_foldl_insertNew ?_ (SortedMap.get?_eq_some_iff.mpr he)
    intro id p hget
    rw [SortedMap.get?_empty] at hget
    cases hget
  rw [hkeys]
  refine SortedSet.eq_of_mem_iff (SortedMap.keys _).ascending (SortedSet.ascending _) fun id => ?_
  rw [SortedMap.mem_keyList, ← SortedSet.mem_def, SortedSet.mem_ofList, List.mem_map]
  exact SortedMap.contains_foldl_upsert_empty (fun p : Project => p.id) fun p old => old.getD p

namespace GraphMetadata

/-- The counts over a whole graph. -/
theorem countAll_eq {nodes : SortedMap String Node} {relationships : List Relationship}
    {errors : List String} {projectCount featureBoundaryCount : Nat} :
    Graph.countAll nodes relationships errors projectCount featureBoundaryCount =
      { projectCount, featureBoundaryCount, errors
        nodeCount := nodes.size
        relationshipCount := relationships.length
        nodesByKind := (nodes.values.map (·.kind.name)).foldl Histogram.count .empty
        relationshipsByKind := (relationships.map (·.kind.name)).foldl Histogram.count .empty
        nodesByRole := (nodes.values.map (·.role.name)).foldl Histogram.count .empty
        crossProjectRelationshipCount := relationships.countP (·.isCrossProject)
        crossLanguageRelationshipCount := relationships.countP (·.isCrossLanguage) } := by
  rw [Graph.countAll, foldl_withError, foldl_withRelationship, foldl_withNode]
  simp only [Nat.zero_add, List.nil_append, SortedMap.values, SortedMap.size, List.length_map]

end GraphMetadata

/-- The counts of an assembled graph are those of its nodes and relationships. -/
theorem Graph.metadata_assemble {config : Config} {path : String} {found : Findings} :
    (assemble config path found).metadata =
      { projectCount := found.projects.length
        featureBoundaryCount := (found.features config path).size
        errors := (found.failures.map (·.message)).mergeSort
        nodeCount := (assemble config path found).nodes.size
        relationshipCount := (assemble config path found).relationships.length
        nodesByKind := ((assemble config path found).nodes.values.map (·.kind.name)).foldl
          Histogram.count .empty
        relationshipsByKind := ((assemble config path found).relationships.map
          (·.kind.name)).foldl Histogram.count .empty
        nodesByRole := ((assemble config path found).nodes.values.map (·.role.name)).foldl
          Histogram.count .empty
        crossProjectRelationshipCount :=
          (assemble config path found).relationships.countP (·.isCrossProject)
        crossLanguageRelationshipCount :=
          (assemble config path found).relationships.countP (·.isCrossLanguage) } :=
  GraphMetadata.countAll_eq

/-! ## Dependencies between projects -/

section Dependencies

variable {nodes : SortedMap String Node} {projects : List Project} {r : Relationship}

/-- A value that is put behind others makes the lists of a map longer by one. -/
theorem sum_length_push {κ α : Type} [Ord κ] [Std.TransOrd κ] [Std.LawfulEqOrd κ]
    {m : SortedMap κ (List α)} {k : κ} {v : α} :
    ((m.push k v).values.map List.length).sum = (m.values.map List.length).sum + 1 := by
  refine SortedMap.sum_values_upsert fun o => ?_
  rw [List.length_append, List.length_singleton]
  cases o <;> rfl

/-- Every relationship between two of the projects is in one of the lists. -/
theorem sum_length_crossProjectRelationships (nodes : SortedMap String Node)
    (projects : List Project) (relationships : List Relationship) :
    ((crossProjectRelationships nodes projects relationships).values.map List.length).sum =
      relationships.countP fun r => (projectPair? nodes projects r).isSome := by
  have hfold : ∀ (l : List Relationship) (table : SortedMap ProjectPair (List Relationship)),
      ((l.foldl (pushCrossing nodes projects) table).values.map List.length).sum =
        (table.values.map List.length).sum +
          l.countP fun r => (projectPair? nodes projects r).isSome := by
    intro l
    induction l with
    | nil => exact fun table => rfl
    | cons r rest ih =>
      intro table
      rw [List.foldl_cons, ih, List.countP_cons, pushCrossing]
      cases hpair : projectPair? nodes projects r with
      | none => simp
      | some pair =>
        simp only [sum_length_push, Option.isSome_some, if_true]
        omega
  exact (hfold relationships .empty).trans (Nat.zero_add _)

/-- Between nodes of known projects a relationship is counted exactly if the projects differ. -/
theorem isSome_projectPair? {source target : Node} (hs : nodes.get? r.sourceId = some source)
    (ht : nodes.get? r.targetId = some target)
    (hsource : source.projectId ∈ projects.map (·.id))
    (htarget : target.projectId ∈ projects.map (·.id)) :
    (projectPair? nodes projects r).isSome = (source.projectId != target.projectId) := by
  have hknown : ∀ id ∈ projects.map (·.id), projects.any (·.id == id) = true := by
    intro id hid
    obtain ⟨p, hp, rfl⟩ := List.mem_map.mp hid
    exact List.any_eq_true.mpr ⟨p, hp, beq_self_eq_true p.id⟩
  simp only [projectPair?, hs, ht, Option.bind_eq_bind, Option.bind_some, hknown _ hsource,
    hknown _ htarget, Bool.and_true]
  by_cases hne : source.projectId = target.projectId
  · simp [hne]
  · simp [hne]

end Dependencies

/-! ## Belonging to projects -/

section Belonging

variable {projects : List Project}

/-- An id of a project is the id of exactly one of several projects with different ids. -/
theorem countP_project (hnodup : (projects.map (·.id)).Nodup) {id : String}
    (hid : id ∈ projects.map (·.id)) : projects.countP (fun p => id == p.id) = 1 := by
  have hcount : (projects.map (·.id)).count id = 1 := by rw [hnodup.count, if_pos hid]
  rw [List.count_eq_countP, List.countP_map] at hcount
  rw [← hcount]
  refine List.countP_congr fun p _ => ?_
  rw [Function.comp_apply, beq_iff_eq, beq_iff_eq]
  exact eq_comm

variable {nodes : SortedMap String Node} {relationships : List Relationship}
  (hnodup : (projects.map (·.id)).Nodup)
  (hnodes : ∀ {id n}, nodes.get? id = some n → n.projectId ∈ projects.map (·.id))

include hnodup hnodes

/-- The nodes with a property, counted project by project. -/
theorem sum_countP_members (q : Node → Bool) :
    (projects.map fun p : Project =>
      (nodes.values.filter (·.projectId == p.id)).countP q).sum =
      nodes.values.countP q := by
  refine sum_countP_filter (R := fun n (p : Project) => n.projectId == p.id) (fun n hn => ?_) q
  obtain ⟨id, hget⟩ := SortedMap.mem_values.mp hn
  exact countP_project hnodup (hnodes hget)

/-- The relationships with a property, counted by the projects in which they start. -/
theorem sum_countP_outgoing (hsource : ∀ r ∈ relationships, nodes.contains r.sourceId = true)
    (q : Relationship → Bool) :
    (projects.map fun p : Project => (relationships.filter fun r =>
      (nodes.get? r.sourceId).any (·.projectId == p.id)).countP q).sum =
      relationships.countP q := by
  refine sum_countP_filter (R := fun r (p : Project) =>
    (nodes.get? r.sourceId).any (·.projectId == p.id)) (fun r hr => ?_) q
  obtain ⟨n, hget⟩ := SortedMap.contains_iff.mp (hsource r hr)
  simp only [hget, Option.any_some]
  exact countP_project hnodup (hnodes hget)

end Belonging

/-! ## Counts that agree -/

namespace Graph

/-- The features of all projects. -/
def featureNames (g : Graph) : SortedSet String :=
  g.projectInfo.values.foldl (fun names info => names.union info.featureBoundaries) .empty

/-- What is counted for projects, for pairs of projects and for the whole agrees. -/
structure CountsAgree (g : Graph) (listed : List Project) : Prop where
  projects : g.projectInfo.keys = .ofList (listed.map (·.id))
  projectCount : g.metadata.projectCount = (SortedSet.ofList (listed.map (·.id))).size
  nodeCount : g.metadata.nodeCount = g.nodes.size
  totalSymbols :
    (g.projectInfo.values.map (·.metrics.totalSymbols)).sum = g.metadata.nodeCount
  relationshipCount : g.metadata.relationshipCount = g.relationships.length
  totalRelationships :
    (g.projectInfo.values.map (·.metrics.totalRelationships)).sum = g.metadata.relationshipCount
  crossProjectRelationshipCount :
    g.metadata.crossProjectRelationshipCount = g.relationships.countP (·.isCrossProject)
  crossProjectReferenceCount :
    (g.projectInfo.values.map (·.metrics.crossProjectReferenceCount)).sum =
      g.metadata.crossProjectRelationshipCount
  referenceCount :
    (g.crossProjectDependencies.map (·.referenceCount)).sum =
      g.metadata.crossProjectRelationshipCount
  nodesByRole : ∀ role, (g.metadata.nodesByRole.get? role).getD 0 =
    (g.projectInfo.values.map fun info => (info.roleDistribution.get? role).getD 0).sum
  roles : ∀ role, g.metadata.nodesByRole.contains role = true ↔
    ∃ info ∈ g.projectInfo.values, info.roleDistribution.contains role = true
  featureBoundaryCount : g.metadata.featureBoundaryCount = g.featureNames.size
  featureNames : ∀ feature ∈ g.featureNames, ∃ n ∈ g.nodes.values, n.featureBoundary = some feature

end Graph

namespace Analysis.Explored

open CodeAtlas.Graph (assemble)

variable {a : Analysis} {path : String} {found : Findings} {q : Progress} {config : Config}

/-- The found projects are the distinct ones of those that the resolver lists. -/
theorem listed (h : a.Explored path found q) :
    ∃ listed, a.resolver.projects path = .ok listed ∧ found.projects = distinctProjects listed := by
  have hopened := h.opened
  rw [h.projects_eq, discovered]
  rw [Resolver.openingFault?] at hopened
  cases hlisted : a.resolver.projects path with
  | error e => rw [hlisted] at hopened; cases hopened
  | ok listed => exact ⟨listed, rfl, rfl⟩

/-- The found projects stand in the order of their ids, which are different. -/
theorem ascending_projects (h : a.Explored path found q) :
    (found.projects.map (·.id)).Pairwise fun x y => compare x y = .lt := by
  obtain ⟨listed, -, hprojects⟩ := h.listed
  rw [hprojects, map_id_distinctProjects]
  exact SortedSet.ascending _

theorem nodup_projects (h : a.Explored path found q) : (found.projects.map (·.id)).Nodup := by
  obtain ⟨listed, -, hprojects⟩ := h.listed
  rw [hprojects, map_id_distinctProjects]
  exact SortedSet.nodup_toList

/-- Every node belongs to one of the found projects. -/
theorem projectId_mem (h : a.Explored path found q) {id : String} {n : Node}
    (hn : (assemble config path found).nodes.get? id = some n) :
    n.projectId ∈ found.projects.map (·.id) := by
  rw [Graph.get?_nodes_assemble h.id_eq, Option.map_eq_some_iff] at hn
  obtain ⟨n', hn', rfl⟩ := hn
  rw [h.nodes] at hn'
  obtain ⟨d, hd, -, rfl⟩ := h.madeFrom.built hn'
  obtain ⟨hproject, -⟩ := mem_declared.mp hd
  rw [Node.inFeature_projectId, Node.classify_projectId, h.projects_eq]
  exact List.mem_map_of_mem (f := Project.id) hproject

/-- There is one summary for every found project, in their order. -/
theorem entries_projectInfo (h : a.Explored path found q) :
    (assemble config path found).projectInfo.entries = found.projects.map fun project =>
      (project.id, .summarize project (assemble config path found).nodes
        (assemble config path found).relationships) := by
  refine SortedMap.entries_ofList ?_
  have := h.ascending_projects
  rw [List.pairwise_map] at this ⊢
  exact this

theorem values_projectInfo (h : a.Explored path found q) :
    (assemble config path found).projectInfo.values = found.projects.map fun project =>
      .summarize project (assemble config path found).nodes
        (assemble config path found).relationships := by
  rw [SortedMap.values, h.entries_projectInfo, List.map_map]
  rfl

/-- The features of the graph partition its nodes. -/
theorem namedPartition_features (h : a.Explored path found q) :
    FeatureGroup.NamedPartition (fun id => ∃ n ∈ found.classified.values, n.id = id)
      (found.features config path) :=
  namedPartition_detectFeaturesBy (Findings.id_of_classified h.id_eq)

/-- A feature is one of the graph exactly if some node has been assigned to it. -/
theorem contains_features (h : a.Explored path found q) {feature : String} :
    (found.features config path).contains feature = true ↔
      ∃ n ∈ (assemble config path found).nodes.values, n.featureBoundary = some feature := by
  have hpartition : FeatureGroup.NamedPartition _ (found.features config path) :=
    h.namedPartition_features
  constructor
  · intro hin
    obtain ⟨members, hget⟩ := SortedMap.contains_iff.mp hin
    obtain ⟨id, hid⟩ := hpartition.inhabited hget
    obtain ⟨n, hn, rfl⟩ := hpartition.covers.mpr ⟨feature, members, hget, hid⟩
    obtain ⟨id, hn⟩ := SortedMap.mem_values.mp hn
    obtain rfl := Findings.id_of_classified h.id_eq hn
    have hfeature := hpartition.featureOf?_eq_some.mpr ⟨members, hget, hid⟩
    refine ⟨n.inFeature (some feature), SortedMap.mem_values.mpr ⟨n.id, ?_⟩, rfl⟩
    change (found.classified.mapValues fun id n =>
      n.inFeature (featureOf? (found.features config path) id)).get? n.id = _
    rw [SortedMap.get?_mapValues, hn, Option.map_some, hfeature]
  · rintro ⟨n, hn, hfeature⟩
    obtain ⟨id, hn⟩ := SortedMap.mem_values.mp hn
    obtain ⟨n', hn', rfl⟩ := Graph.get?_assemble_eq_some hn
    obtain rfl := Findings.id_of_classified h.id_eq hn'
    obtain ⟨name, members, hget, hid⟩ :=
      hpartition.covers.mp ⟨n', SortedMap.mem_values.mpr ⟨n'.id, hn'⟩, rfl⟩
    rw [hpartition.featureOf?_eq_some.mpr ⟨members, hget, hid⟩, Node.inFeature_some] at hfeature
    cases hfeature
    exact SortedMap.contains_of_get? hget

/-- What holds of a node of the graph holds of a node of one of the projects, and vice versa. -/
theorem exists_member_iff (h : a.Explored path found q) {P : Node → Prop} :
    (∃ project ∈ found.projects, ∃ n ∈ (assemble config path found).nodes.values.filter
      (·.projectId == project.id), P n) ↔
      ∃ n ∈ (assemble config path found).nodes.values, P n := by
  constructor
  · rintro ⟨project, -, n, hn, hP⟩
    exact ⟨n, (List.mem_filter.mp hn).1, hP⟩
  · rintro ⟨n, hn, hP⟩
    obtain ⟨id, hget⟩ := SortedMap.mem_values.mp hn
    obtain ⟨project, hproject, hid⟩ := List.mem_map.mp (h.projectId_mem hget)
    exact ⟨project, hproject, n, List.mem_filter.mpr ⟨hn, beq_iff_eq.mpr hid.symm⟩, hP⟩

/-- The features of the projects are those of the graph. -/
theorem featureNames_eq (h : a.Explored path found q) :
    (assemble config path found).featureNames = (found.features config path).keys := by
  refine SortedSet.ext_mem fun feature => ?_
  rw [Graph.featureNames, SortedSet.mem_foldl_union, h.values_projectInfo, SortedMap.mem_keys,
    h.contains_features, ← h.exists_member_iff]
  simp only [SortedSet.not_mem_empty, false_or, List.mem_map, exists_exists_and_eq_and,
    ProjectInfo.summarize, ProjectInfo.summarizeWith, Project.membersIn, SortedSet.mem_ofList,
    List.mem_filterMap]

/-- The nodes with a property, counted project by project. -/
theorem sum_countP_nodes (h : a.Explored path found q) (P : Node → Bool) :
    (found.projects.map fun project => ((assemble config path found).nodes.values.filter
      (·.projectId == project.id)).countP P).sum =
      (assemble config path found).nodes.values.countP P :=
  sum_countP_members h.nodup_projects h.projectId_mem P

/-- The relationships with a property, counted by the projects in which they start. -/
theorem sum_countP_relationships (h : a.Explored path found q)
    (hwf : (assemble config path found).WellFormed) (P : Relationship → Bool) :
    (found.projects.map fun project => ((assemble config path found).relationships.filter fun r =>
      ((assemble config path found).nodes.get? r.sourceId).any
        (·.projectId == project.id)).countP P).sum =
      (assemble config path found).relationships.countP P :=
  sum_countP_outgoing h.nodup_projects h.projectId_mem (fun r hr => (hwf.ends r hr).1) P

/-- Every node is a symbol of one project. -/
theorem sum_totalSymbols (h : a.Explored path found q) :
    ((assemble config path found).projectInfo.values.map (·.metrics.totalSymbols)).sum =
      (assemble config path found).nodes.size := by
  have hsize : (assemble config path found).nodes.size =
      (assemble config path found).nodes.values.countP fun _ => true := by
    rw [List.countP_true, SortedMap.values, List.length_map]
    rfl
  rw [hsize, ← h.sum_countP_nodes, h.values_projectInfo, List.map_map]
  refine congrArg List.sum (List.map_congr_left fun project _ => ?_)
  rw [List.countP_true]
  rfl

/-- Every relationship starts in one project. -/
theorem sum_totalRelationships (h : a.Explored path found q)
    (hwf : (assemble config path found).WellFormed) :
    ((assemble config path found).projectInfo.values.map (·.metrics.totalRelationships)).sum =
      (assemble config path found).relationships.length := by
  rw [← List.countP_true, ← h.sum_countP_relationships hwf, h.values_projectInfo, List.map_map]
  refine congrArg List.sum (List.map_congr_left fun project _ => ?_)
  rw [List.countP_true]
  rfl

/-- And so does every one that leads to another project. -/
theorem sum_crossProjectReferenceCount (h : a.Explored path found q)
    (hwf : (assemble config path found).WellFormed) :
    ((assemble config path found).projectInfo.values.map
      (·.metrics.crossProjectReferenceCount)).sum =
      (assemble config path found).relationships.countP (·.isCrossProject) := by
  rw [← h.sum_countP_relationships hwf, h.values_projectInfo, List.map_map]
  rfl

/-- Exactly the relationships that lead to another project belong to a dependency. -/
theorem sum_referenceCount (h : a.Explored path found q)
    (hwf : (assemble config path found).WellFormed) :
    ((assemble config path found).crossProjectDependencies.map (·.referenceCount)).sum =
      (assemble config path found).relationships.countP (·.isCrossProject) := by
  change ((projectDependencies (assemble config path found).nodes
    (assemble config path found).relationships found.projects).map (·.referenceCount)).sum = _
  rw [projectDependencies, List.map_map]
  have hsum := sum_length_crossProjectRelationships (assemble config path found).nodes
    found.projects (assemble config path found).relationships
  rw [SortedMap.values, List.map_map] at hsum
  refine hsum.trans (List.countP_congr fun r hr => ?_)
  obtain ⟨source, hs⟩ := SortedMap.contains_iff.mp (hwf.ends r hr).1
  obtain ⟨target, ht⟩ := SortedMap.contains_iff.mp (hwf.ends r hr).2
  rw [isSome_projectPair? hs ht (h.projectId_mem hs) (h.projectId_mem ht), bne_iff_ne,
    hwf.crossProject r hr hs ht]

/-- Every role is counted project by project as often as for the whole. -/
theorem sum_roleDistribution (h : a.Explored path found q) (role : String) :
    ((assemble config path found).projectInfo.values.map fun info =>
      (info.roleDistribution.get? role).getD 0).sum =
      ((assemble config path found).nodes.values.map (·.role.name)).count role := by
  rw [h.values_projectInfo, List.map_map, List.count_eq_countP, List.countP_map,
    ← h.sum_countP_nodes]
  refine congrArg List.sum (List.map_congr_left fun project _ => ?_)
  simp only [Function.comp_apply, ProjectInfo.summarize, ProjectInfo.summarizeWith,
    Project.membersIn, ProjectInfo.tally, Histogram.getD_foldl_count_empty, List.count_eq_countP,
    List.countP_map]

/-- A role is counted for the whole exactly if it is for some project. -/
theorem contains_roleDistribution (h : a.Explored path found q) (role : String) :
    (∃ info ∈ (assemble config path found).projectInfo.values,
      info.roleDistribution.contains role = true) ↔
      role ∈ (assemble config path found).nodes.values.map (·.role.name) := by
  have hproject : ∀ names : List String,
      (ProjectInfo.tally names).contains role = true ↔ role ∈ names := fun names =>
    Histogram.contains_foldl_count_empty
  rw [h.values_projectInfo, List.mem_map, ← h.exists_member_iff]
  simp only [List.mem_map, exists_exists_and_eq_and, ProjectInfo.summarize,
    ProjectInfo.summarizeWith, Project.membersIn, hproject]

end Analysis.Explored

namespace Analysis

/-- All that is counted in the graph of an analysis agrees. -/
theorem run_countsAgree (a : Analysis) (path : String) (g : Graph) (h : a.run path = .ok g) :
    ∃ listed, a.resolver.projects path = .ok listed ∧ g.CountsAgree listed := by
  obtain ⟨hwf, -, -⟩ := run_wellFormed a path g h
  obtain ⟨found, q, -, hexplored, rfl⟩ := run_explored h
  obtain ⟨listed, hlisted, hprojects⟩ := hexplored.listed
  have hids : found.projects.map (·.id) = (SortedSet.ofList (listed.map (·.id))).toList := by
    rw [hprojects, map_id_distinctProjects]
  refine ⟨listed, hlisted, {
    projects := ?_, projectCount := ?_, nodeCount := ?_, totalSymbols := ?_
    relationshipCount := ?_, totalRelationships := ?_, crossProjectRelationshipCount := ?_
    crossProjectReferenceCount := ?_, referenceCount := ?_, nodesByRole := fun role => ?_
    roles := fun role => ?_, featureBoundaryCount := ?_, featureNames := fun feature hin => ?_ }⟩
  · refine SortedSet.ext_mem fun id => ?_
    rw [SortedSet.mem_def, SortedSet.mem_def, ← hids]
    change id ∈ SortedMap.keyList _ ↔ _
    rw [SortedMap.keyList, hexplored.entries_projectInfo, List.map_map]
    rfl
  · rw [Graph.metadata_assemble, SortedSet.size, ← hids, List.length_map]
  · rw [Graph.metadata_assemble]
  · rw [Graph.metadata_assemble, hexplored.sum_totalSymbols]
  · rw [Graph.metadata_assemble]
  · rw [Graph.metadata_assemble, hexplored.sum_totalRelationships hwf]
  · rw [Graph.metadata_assemble]
  · rw [Graph.metadata_assemble, hexplored.sum_crossProjectReferenceCount hwf]
  · rw [Graph.metadata_assemble, hexplored.sum_referenceCount hwf]
  · rw [Graph.metadata_assemble, hexplored.sum_roleDistribution,
      Histogram.getD_foldl_count_empty]
  · rw [Graph.metadata_assemble, Histogram.contains_foldl_count_empty,
      hexplored.contains_roleDistribution]
  · rw [Graph.metadata_assemble, hexplored.featureNames_eq]
    exact (List.length_map _).symm
  · rw [hexplored.featureNames_eq, SortedMap.mem_keys, hexplored.contains_features] at hin
    exact hin

/-- Two projects, and a class of the second one that derives from a class of the first. -/
theorem run_countsAgree_derived_class :
    let order := Symbol.typeIn "Shop" "Shop" "Order" .classType
    let rush := (Symbol.typeIn "Web" "Web" "RushOrder" .classType).derivingFrom order.typeRef
    let snapshot := (Snapshot.empty.withProject (.named "shop" "Shop") [order]).withProject
      (.named "web" "Web") [rush]
    let a : Analysis := { resolver := snapshot.resolver, config := .standard 4 }
    ∃ g, a.run "/work" = .ok g ∧ g.CountsAgree [.named "shop" "Shop", .named "web" "Web"] := by
  intro order rush snapshot a
  obtain ⟨g, hg⟩ : ∃ g, a.run "/work" = .ok g := exists_run (by decide +kernel) (by decide +kernel)
  obtain ⟨listed, hlisted, hagree⟩ := run_countsAgree a "/work" g hg
  have hprojects : a.resolver.projects "/work" =
      .ok [.named "shop" "Shop", .named "web" "Web"] := by decide +kernel
  rw [hprojects] at hlisted
  cases hlisted
  exact ⟨g, hg, hagree⟩

end Analysis

end CodeAtlas
