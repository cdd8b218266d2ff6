import CodeAtlas.Proofs.Counts
import CodeAtlas.Proofs.Dependencies
import CodeAtlas.Proofs.Features

/-!
# What owners and places leave alone

Two things in what an analysis finds may be up to chance: to which project a node belongs, where
several projects declare its symbol, and at which of several places a relationship is. A graph says
the rest of what it says (`Graph.content`) whatever the owners of its nodes are: it could have been
assembled from nodes without owners (`Graph.content_assemble_unowned`). The places of relationships
come up nowhere but in the relationships (`Graph.assemble_unplaced`).
-/

namespace CodeAtlas

/-- Changed values stand under the same keys. -/
theorem SortedMap.keyList_mapValues {κ α β : Type} [Ord κ] {m : SortedMap κ α} {f : κ → α → β} :
    (m.mapValues f).keyList = m.keyList := List.map_map

/-- The node without the project to which it belongs. -/
def Node.unowned (n : Node) : Node := { n with projectId := "", assemblyName := "" }

/-- The role of a node does not depend on its owner. -/
theorem Node.classify_unowned (n : Node) : n.unowned.classify = n.classify.unowned := by
  have htraits : n.unowned.roleTraits = n.roleTraits := rfl
  rw [classify, classify, htraits]
  simp only [unowned]

/-- A node is put in the feature in which it lies. -/
theorem Node.inFeature_featureBoundary (n : Node) (feature : Option String) :
    n.inFeature (n.inFeature feature).featureBoundary = n.inFeature feature := by
  have hor : (feature.or n.featureBoundary).or n.featureBoundary =
      feature.or n.featureBoundary := by
    rw [Option.or_assoc, Option.or_self]
  exact congrArg (fun f => { n with featureBoundary := f }) hor

theorem Node.inFeature_unowned (n : Node) (feature : Option String) :
    n.unowned.inFeature feature = (n.inFeature feature).unowned := rfl

namespace Relationship

/-- The relationship without what its ends say of their projects. -/
def unowned (r : Relationship) : Relationship := { r with isCrossProject := false }

/-- The relationship without its place. -/
def unplaced (r : Relationship) : Relationship := { r with location := none }

/-- The relationship with nothing but its key. -/
def bare (r : Relationship) : Relationship :=
  { sourceId := r.sourceId, targetId := r.targetId, kind := r.kind }

theorem bare_congr {r r' : Relationship} (h : r.key = r'.key) : r.bare = r'.bare :=
  congrArg (fun k : RelationshipKey =>
    ({ sourceId := k.sourceId, targetId := k.targetId, kind := k.kind } : Relationship)) h

end Relationship

namespace Findings

/-- What has been found, without the owners of the nodes. -/
def unowned (found : Findings) : Findings :=
  { found with nodes := found.nodes.mapValues fun _ n => n.unowned }

/-- What has been found, without the places of the relationships. -/
def unplaced (found : Findings) : Findings :=
  { found with relationships := found.relationships.mapValues fun _ r => r.bare }

/-- Findings that are the same up to owners are the same if their nodes are. -/
theorem eq_of_unowned {found found' : Findings} (h : found'.unowned = found.unowned)
    (hnodes : found'.nodes = found.nodes) : found' = found := by
  cases found
  cases found'
  cases hnodes
  simp only [unowned, mk.injEq] at h
  obtain ⟨rfl, -, rfl, rfl⟩ := h
  rfl

end Findings

/-- The counts without that of relationships across projects. -/
def GraphMetadata.unowned (m : GraphMetadata) : GraphMetadata :=
  { m with crossProjectRelationshipCount := 0 }

namespace Graph

/-- The graph without the places of the relationships. -/
def unplaced (g : Graph) : Graph :=
  { g with relationships := g.relationships.map (·.unplaced) }

/-- What a graph says whatever the owners of its nodes are. -/
structure Content where
  nodes : SortedMap String Node
  relationships : List Relationship
  projects : SortedMap String (String × String × Option String × List String)
  metadata : GraphMetadata

/-- Nodes, relationships and counts without owners, and the attributes of the projects. -/
def content (g : Graph) : Content where
  nodes := g.nodes.mapValues fun _ n => n.unowned
  relationships := g.relationships.map (·.unowned)
  projects := g.attributes
  metadata := g.metadata.unowned

end Graph

/-! ## Collecting -/

/-- The catalogue without the owners of its nodes. -/
def Catalogue.unowned (c : Catalogue) : Catalogue :=
  { c with nodes := c.nodes.mapValues fun _ n => n.unowned }

namespace Resolver

variable {r : Resolver} {c : Catalogue} {node : Node} {s : Symbol}

theorem storeStructural_unowned :
    storeStructural c.unowned node.unowned = storeStructural c node := by
  funext target
  rw [storeStructural, storeStructural, Catalogue.unowned, SortedMap.get?_mapValues]
  cases c.nodes.get? target.1.identity <;> rfl

theorem storeFrom_unowned {kind : RelationKind} :
    storeFrom c.unowned node.unowned kind = storeFrom c node kind := by
  funext source
  rw [storeFrom, storeFrom, Catalogue.unowned, SortedMap.get?_mapValues]
  cases c.nodes.get? source.identity <;> rfl

theorem storeReference_unowned :
    r.storeReference c.unowned node.unowned = r.storeReference c node := by
  funext site
  refine congrArg (r.enclosing? site >>= ·) (funext fun source => ?_)
  cases source with
  | none => rfl
  | some source =>
    dsimp only
    rw [Catalogue.unowned, SortedMap.get?_mapValues]
    cases c.nodes.get? source.identity <;> rfl

/-- The course of a collection does not depend on owners. -/
theorem collect_unowned : r.collect c.unowned node.unowned s = r.collect c node s := by
  rw [collect, collect, collectStructural, collectStructural, collectReferences, collectReferences,
    collectImplementations, collectImplementations, collectDerivedTypes, collectDerivedTypes,
    storeStructural_unowned, storeReference_unowned, storeFrom_unowned]
  simp only [storeFrom_unowned]

end Resolver

/-- Nor does the task of a node. -/
theorem Analysis.relationshipsOf_unowned {a : Analysis} {c : Catalogue} {id : String} :
    a.relationshipsOf c.unowned id = a.relationshipsOf c id := by
  refine congrArg (Script.check >>= ·) (funext fun _ => ?_)
  have hget : c.unowned.nodes.get? id = (c.nodes.get? id).map (·.unowned) :=
    SortedMap.get?_mapValues
  have hregistry : c.unowned.registry = c.registry := rfl
  rw [hget, hregistry]
  cases c.nodes.get? id with
  | none => rfl
  | some node =>
    cases c.registry.get? id with
    | none => rfl
    | some s => exact Resolver.collect_unowned

/-! ## Features -/

section Ends

variable {f : Relationship → Relationship} (hsource : ∀ r, (f r).sourceId = r.sourceId)
  (htarget : ∀ r, (f r).targetId = r.targetId)
include hsource htarget

/-- Clustering depends on the ends of relationships only. -/
theorem FeatureGroup.cluster_map {dense : Nat → Nat → Nat → Bool}
    {relationships : List Relationship} {groups : List FeatureGroup} :
    cluster dense (relationships.map f) groups = cluster dense relationships groups := by
  have hfirst : ∀ groups, firstDense? dense (relationships.map f) groups =
      firstDense? dense relationships groups := by
    intro groups
    have hcrossing : crossing? groups ∘ f = crossing? groups := by
      funext r
      rw [Function.comp_apply, crossing?, crossing?, hsource, htarget]
    rw [firstDense?, firstDense?, crossings, crossings, List.filterMap_map, hcrossing]
  fun_induction cluster dense relationships groups with
  | case1 groups hnone => rw [cluster_of_none (by rw [hfirst, hnone])]
  | case2 groups p hsome hlt ih => rw [cluster_of_some (by rw [hfirst, hsome]), ih]

/-- So features depend on the files and ids of nodes and the ends of relationships only. -/
theorem detectFeatures_map {config : Config} {rules : TokenRules} {nodes nodes' : NodeStore}
    {relationships : List Relationship}
    (hnodes : (nodes'.values.map fun n => (n.filePath, n.id)) =
      nodes.values.map fun n => (n.filePath, n.id)) :
    detectFeatures config rules nodes' (relationships.map f) =
      detectFeatures config rules nodes relationships := by
  have htokens : (nodes'.values.map fun n => (rules.token n.filePath, n.id)) =
      nodes.values.map fun n => (rules.token n.filePath, n.id) := by
    have := congrArg (List.map fun e => (rules.token e.1, e.2)) hnodes
    rwa [List.map_map, List.map_map] at this
  rw [detectFeatures, detectFeatures, detectFeaturesBy, detectFeaturesBy,
    FeatureGroup.cluster_map hsource htarget, FeatureGroup.seed,
    FeatureGroup.idsByToken_congr htokens, FeatureGroup.seed]

end Ends

/-! ## Owners -/

section Owners

variable {nodes : NodeStore} {r : Relationship} {found : Findings} {config : Config} {path : String}

/-- Without owners no relationship leads across projects. -/
theorem Relationship.finalize?_unowned :
    r.finalize? (nodes.mapValues fun _ n => n.unowned) =
      (r.finalize? nodes).map (·.unowned) := by
  rw [finalize?, finalize?, SortedMap.get?_mapValues, SortedMap.get?_mapValues]
  cases nodes.get? r.sourceId with
  | none => rfl
  | some source =>
    cases nodes.get? r.targetId with
    | none => rfl
    | some target => rfl

/-- A change that keeps the keys may be made before or after relationships are sorted. -/
theorem map_mergeSort_key {f : Relationship → Relationship} (hf : ∀ r, (f r).key = r.key)
    {l : List Relationship} :
    (l.mergeSort fun a b => (compare a.key b.key).isLE).map f =
      (l.map f).mergeSort fun a b => (compare a.key b.key).isLE :=
  List.map_mergeSort fun a _ b _ => by rw [hf, hf]

namespace Findings

variable (h : ∀ {id n}, found.nodes.get? id = some n → n.id = id)
include h

/-- Nodes without owners stand under their ids. -/
theorem id_of_unowned {id : String} {n : Node} (hn : found.unowned.nodes.get? id = some n) :
    n.id = id := by
  rw [unowned, SortedMap.get?_mapValues, Option.map_eq_some_iff] at hn
  obtain ⟨n', hn', rfl⟩ := hn
  have hid : n'.id = id := h hn'
  exact hid

theorem classified_unowned :
    found.unowned.classified = found.classified.mapValues fun _ n => n.unowned := by
  rw [classified_eq (id_of_unowned h), classified_eq h]
  refine SortedMap.ext_get? fun id => ?_
  rw [unowned, SortedMap.get?_mapValues, SortedMap.get?_mapValues, SortedMap.get?_mapValues,
    SortedMap.get?_mapValues, Option.map_map, Option.map_map]
  exact congrArg (Option.map · _) (funext fun n => n.classify_unowned)

theorem finalized_unowned : found.unowned.finalized = found.finalized.map (·.unowned) := by
  rw [finalized, finalized, finalizeRelationships, finalizeRelationships,
    map_mergeSort_key (f := Relationship.unowned) fun _ => rfl, List.map_filterMap,
    classified_unowned h]
  refine congrArg (fun l => List.mergeSort l _) ?_
  exact congrArg (fun f => List.filterMap f found.relationships.values)
    (funext fun r => Relationship.finalize?_unowned)

theorem features_unowned : found.unowned.features config path = found.features config path := by
  rw [features, features, finalized_unowned h]
  refine detectFeatures_map (f := Relationship.unowned) (fun _ => rfl) (fun _ => rfl) ?_
  rw [classified_unowned h, SortedMap.values, SortedMap.mapValues, List.map_map, List.map_map,
    SortedMap.values, List.map_map]
  rfl

end Findings

/-- What a graph says whatever the owners are is assembled from what is found without them. -/
theorem Graph.content_assemble_unowned
    (h : ∀ {id n}, found.nodes.get? id = some n → n.id = id) :
    (assemble config path found.unowned).content = (assemble config path found).content := by
  have hnodes : ((assemble config path found.unowned).nodes) =
      (assemble config path found).nodes.mapValues fun _ n => n.unowned := by
    refine SortedMap.ext_get? fun id => ?_
    rw [get?_nodes_assemble (Findings.id_of_unowned h), SortedMap.get?_mapValues,
      get?_nodes_assemble h, Findings.features_unowned h, Findings.unowned,
      SortedMap.get?_mapValues, Option.map_map, Option.map_map]
    refine congrArg (Option.map · _) (funext fun n => ?_)
    rw [Function.comp_apply, Function.comp_apply, Node.classify_unowned, Node.inFeature_unowned]
  have hrelationships : (assemble config path found.unowned).relationships =
      (assemble config path found).relationships.map (·.unowned) := Findings.finalized_unowned h
  have hvalues : ∀ {α : Type} (f : Node → α), (∀ n, f n.unowned = f n) →
      (((assemble config path found).nodes.mapValues fun _ n => n.unowned).values.map f) =
        (assemble config path found).nodes.values.map f := by
    intro α f hf
    rw [SortedMap.values, SortedMap.mapValues, List.map_map, List.map_map, SortedMap.values,
      List.map_map]
    exact List.map_congr_left fun e _ => hf e.2
  have hsize : ((assemble config path found).nodes.mapValues fun _ n => n.unowned).size =
      (assemble config path found).nodes.size := List.length_map _
  have hlanguages : ((assemble config path found).relationships.map (·.unowned)).countP
      (fun r : Relationship => r.isCrossLanguage) =
      (assemble config path found).relationships.countP (·.isCrossLanguage) := List.countP_map
  have hmetadata : (assemble config path found.unowned).metadata.unowned =
      (assemble config path found).metadata.unowned := by
    rw [metadata_assemble, metadata_assemble, Findings.features_unowned h, hnodes, hrelationships,
      hvalues (·.kind.name) fun _ => rfl, hvalues (·.role.name) fun _ => rfl, hsize, hlanguages,
      List.map_map, List.length_map]
    rfl
  rw [content, content, hmetadata, hnodes, hrelationships, attributes_assemble, attributes_assemble,
    List.map_map]
  refine congrArg (fun nodes => Content.mk nodes _ _ _) (SortedMap.ext_get? fun id => ?_)
  rw [SortedMap.get?_mapValues, SortedMap.get?_mapValues, Option.map_map]
  rfl

end Owners

/-! ## Places -/

section Places

variable {nodes : NodeStore} {relationships : List Relationship} {found : Findings}
  {config : Config} {path : String}

/-- A relationship gets its flags from its ends, and only its place is lost. -/
theorem Relationship.finalize?_bare {r : Relationship} :
    r.bare.finalize? nodes = (r.finalize? nodes).map (·.unplaced) := by
  have hsource : r.bare.sourceId = r.sourceId := rfl
  have htarget : r.bare.targetId = r.targetId := rfl
  rw [finalize?, finalize?, hsource, htarget]
  cases nodes.get? r.sourceId with
  | none => rfl
  | some source =>
    cases nodes.get? r.targetId with
    | none => rfl
    | some target => rfl

theorem Findings.finalized_unplaced :
    found.unplaced.finalized = found.finalized.map (·.unplaced) := by
  have hvalues : found.unplaced.relationships.values = found.relationships.values.map (·.bare) := by
    rw [unplaced, SortedMap.values, SortedMap.mapValues, List.map_map, SortedMap.values,
      List.map_map]
    rfl
  have hnodes : found.unplaced.classified = found.classified := rfl
  rw [finalized, finalized, finalizeRelationships, finalizeRelationships,
    map_mergeSort_key (f := Relationship.unplaced) fun _ => rfl, List.map_filterMap, hvalues,
    List.filterMap_map, hnodes]
  exact congrArg (fun f => (List.filterMap f found.relationships.values).mergeSort _)
    (funext fun r => Relationship.finalize?_bare)

theorem Findings.features_unplaced :
    found.unplaced.features config path = found.features config path := by
  rw [features, features, finalized_unplaced]
  exact detectFeatures_map (f := Relationship.unplaced) (fun _ => rfl) (fun _ => rfl) rfl

/-- The summaries of projects do not say where relationships are, -/
theorem ProjectInfo.summarize_unplaced {project : Project} :
    summarize project nodes (relationships.map (·.unplaced)) =
      summarize project nodes relationships := by
  rw [summarize, summarize, summarizeWith, summarizeWith]
  simp only [List.filter_map, List.length_map, List.countP_map]
  rfl

/-- nor do the dependencies between them. -/
theorem projectDependencies_unplaced {projects : List Project} :
    projectDependencies nodes (relationships.map (·.unplaced)) projects =
      projectDependencies nodes relationships projects := by
  have hbetween : ∀ pair, relationshipsBetween nodes (relationships.map (·.unplaced)) pair =
      (relationshipsBetween nodes relationships pair).map (·.unplaced) := fun pair =>
    List.filter_map
  have hkeys : (crossProjectRelationships nodes projects
      (relationships.map (·.unplaced))).keyList =
      (crossProjectRelationships nodes projects relationships).keyList := by
    refine SortedSet.eq_of_mem_iff (SortedMap.keys _).ascending (SortedMap.keys _).ascending
      fun pair => ?_
    rw [mem_keyList_crossProjectRelationships, mem_keyList_crossProjectRelationships]
    constructor
    · rintro ⟨hne, hsource, htarget, r, hr, hleads⟩
      obtain ⟨r', hr', rfl⟩ := List.mem_map.mp hr
      exact ⟨hne, hsource, htarget, r', hr', hleads⟩
    · rintro ⟨hne, hsource, htarget, r, hr, hleads⟩
      exact ⟨hne, hsource, htarget, r.unplaced, List.mem_map_of_mem hr, hleads⟩
  rw [projectDependencies_eq, projectDependencies_eq, hkeys]
  refine List.map_congr_left fun pair _ => ?_
  rw [hbetween, ProjectDependency.ofRelationships, ProjectDependency.ofRelationships,
    List.length_map, List.map_map, List.map_map]
  rfl

/-- The places of relationships come up nowhere else in a graph. -/
theorem Graph.assemble_unplaced :
    assemble config path found.unplaced = (assemble config path found).unplaced := by
  have hfinalized : found.unplaced.finalized = _ := Findings.finalized_unplaced
  have hnodes : (assemble config path found.unplaced).nodes =
      (assemble config path found).nodes := by
    change (found.classified.mapValues fun id n =>
      n.inFeature (featureOf? (found.unplaced.features config path) id)) = _
    rw [Findings.features_unplaced]
    rfl
  have hprojects : (assemble config path found.unplaced).projectInfo =
      (assemble config path found).projectInfo := by
    change SortedMap.ofList (found.projects.map fun project => (project.id, ProjectInfo.summarize
      project (assemble config path found.unplaced).nodes found.unplaced.finalized)) = _
    rw [hnodes, hfinalized]
    simp only [ProjectInfo.summarize_unplaced]
    rfl
  have hdependencies : (assemble config path found.unplaced).crossProjectDependencies =
      (assemble config path found).crossProjectDependencies := by
    change projectDependencies (assemble config path found.unplaced).nodes
      found.unplaced.finalized found.projects = _
    rw [hnodes, hfinalized, projectDependencies_unplaced]
    rfl
  have hmetadata : (assemble config path found.unplaced).metadata =
      (assemble config path found).metadata := by
    change countAll (assemble config path found.unplaced).nodes found.unplaced.finalized _ _
      (found.unplaced.features config path).size = _
    rw [hnodes, hfinalized, Findings.features_unplaced, countAll, List.foldl_map]
    rfl
  rw [unplaced, ← hnodes, ← hprojects, ← hdependencies, ← hmetadata]
  exact congrArg (fun l => { assemble config path found.unplaced with relationships := l })
    hfinalized

end Places

end CodeAtlas
