import CodeAtlas.Proofs.Partition
import CodeAtlas.Proofs.WellFormed

/-!
# Features of nodes

Clustering is a cascade of merges (`FeatureGroup.Cascade`): each joins two groups of the list that
is there at the time, and the last list has no dense pair. No merge splits a group
(`FeatureGroup.Coarser`), so nodes of one token end in one feature.

This holds for whatever counts as dense, hence for every threshold, usable or not
(`detectFeatures_partition`). In the graph of an analysis every node is assigned to the feature that
holds it (`Graph.Assigned`).
-/

namespace CodeAtlas

namespace FeatureGroup

variable {dense : Nat → Nat → Nat → Bool} {relationships : List Relationship}
  {groups groups' groups'' : List FeatureGroup}

/-! ## Cascades of merges -/

/-- Clustering `groups` merges a list of pairs, one after the other, each of two places of the list
that is there at the time, and leaves a list without dense pairs. -/
inductive Cascade (dense : Nat → Nat → Nat → Bool) (relationships : List Relationship) :
    List FeatureGroup → List GroupPair → List FeatureGroup → Prop
  | stable {groups : List FeatureGroup} :
    firstDense? dense relationships groups = none → Cascade dense relationships groups [] groups
  | merge {groups rest : List FeatureGroup} {p : GroupPair} {later : List GroupPair} :
    firstDense? dense relationships groups = some p →
    p.first < p.second → p.second < groups.length →
    Cascade dense relationships (merge groups p) later rest →
    Cascade dense relationships groups (p :: later) rest

/-- Clustering is a cascade. -/
theorem exists_cascade (dense : Nat → Nat → Nat → Bool) (relationships : List Relationship)
    (groups : List FeatureGroup) : ∃ merges,
      Cascade dense relationships groups merges (cluster dense relationships groups) := by
  fun_induction cluster dense relationships groups with
  | case1 groups hnone => exact ⟨[], .stable hnone⟩
  | case2 groups p hsome hlt ih =>
    obtain ⟨later, hlater⟩ := ih
    obtain ⟨hfirst, hsecond⟩ := firstDense?_lt hsome
    exact ⟨p :: later, .merge hsome hfirst hsecond hlater⟩

/-! ## Groups are never split -/

/-- Every group lies within one of the others. -/
def Coarser (groups groups' : List FeatureGroup) : Prop :=
  ∀ g ∈ groups, ∃ g' ∈ groups', ∀ {id}, id ∈ g.members → id ∈ g'.members

namespace Coarser

theorem refl (groups : List FeatureGroup) : Coarser groups groups := fun g hg => ⟨g, hg, id⟩

theorem trans (h : Coarser groups groups') (h' : Coarser groups' groups'') :
    Coarser groups groups'' := by
  intro g hg
  obtain ⟨g', hg', hsub⟩ := h g hg
  obtain ⟨g'', hg'', hsub'⟩ := h' g' hg'
  exact ⟨g'', hg'', fun hid => hsub' (hsub hid)⟩

/-- Merging two groups splits none. -/
theorem merge {p : GroupPair} (h : p.first < p.second ∧ p.second < groups.length) :
    Coarser groups (FeatureGroup.merge groups p) := by
  obtain ⟨a, b, rest, hgroups, hmerged⟩ := merge_perm h
  have hjoin : a.join b ∈ FeatureGroup.merge groups p := hmerged.mem_iff.mpr List.mem_cons_self
  intro g hg
  rcases List.mem_cons.mp (hgroups.mem_iff.mp hg) with rfl | hg
  · exact ⟨g.join b, hjoin, fun hid => SortedSet.mem_union.mpr (.inl hid)⟩
  rcases List.mem_cons.mp hg with rfl | hg
  · exact ⟨a.join g, hjoin, fun hid => SortedSet.mem_union.mpr (.inr hid)⟩
  · exact ⟨g, hmerged.mem_iff.mpr (List.mem_cons_of_mem _ hg), id⟩

/-- Clustering splits no group. -/
theorem cluster : Coarser groups (FeatureGroup.cluster dense relationships groups) := by
  fun_induction FeatureGroup.cluster dense relationships groups with
  | case1 groups hnone => exact .refl groups
  | case2 groups p hsome hlt ih => exact (Coarser.merge (firstDense?_lt hsome)).trans ih

/-- Neither does uniting the groups of one name. -/
theorem byName {g : FeatureGroup} (h : Coarser groups groups') (hg : g ∈ groups) :
    ∃ name members, (FeatureGroup.byName groups').get? name = some members ∧
      ∀ {id}, id ∈ g.members → id ∈ members := by
  obtain ⟨g', hg', hsub⟩ := h g hg
  obtain ⟨members, hget⟩ := SortedMap.contains_iff.mp (contains_byName.mpr ⟨g', hg', rfl⟩)
  refine ⟨g'.name, members, hget, fun {id} hid => ?_⟩
  have hmem : id ∈ ((FeatureGroup.byName groups').get? g'.name).getD .empty :=
    mem_byName.mpr ⟨g', hg', rfl, hsub hid⟩
  rwa [hget, Option.getD_some] at hmem

end Coarser

/-- The nodes of one token are in one of the first groups. -/
theorem exists_mem_seed (token : Node → String) {nodes : List Node} {n : Node} (hn : n ∈ nodes) :
    ∃ g ∈ seed token nodes, ∀ {n'}, n' ∈ nodes → token n' = token n → n'.id ∈ g.members := by
  have hcontains : (idsByToken token nodes).contains (token n) = true :=
    Partition.contains_idsByToken.mpr ⟨n, hn, rfl⟩
  obtain ⟨members, hget⟩ := SortedMap.contains_iff.mp hcontains
  refine ⟨⟨token n, members⟩, List.mem_map_of_mem (f := fun g => (⟨g.1, g.2⟩ : FeatureGroup))
    (SortedMap.get?_eq_some_iff.mp hget), fun {n'} hn' htoken => ?_⟩
  have hmem : n'.id ∈ ((idsByToken token nodes).get? (token n)).getD .empty :=
    Partition.mem_idsByToken.mpr ⟨n', hn', htoken, rfl⟩
  rwa [hget, Option.getD_some] at hmem

/-- The ids by token depend on the tokens and ids of the nodes only. -/
theorem idsByToken_congr {token : Node → String} {nodes nodes' : List Node}
    (h : (nodes.map fun n => (token n, n.id)) = nodes'.map fun n => (token n, n.id)) :
    idsByToken token nodes = idsByToken token nodes' := by
  have hfold : ∀ nodes : List Node, idsByToken token nodes =
      (nodes.map fun n => (token n, n.id)).foldl (fun groups e =>
        groups.upsert e.1 fun ids => (ids.getD .empty).insert e.2) .empty := fun nodes => by
    rw [List.foldl_map]
    rfl
  rw [hfold, hfold, h]

end FeatureGroup

/-! ## Features of a graph -/

/-- In the graph of an analysis the same features are detected as were assigned. -/
theorem detectFeatures_assemble {config : Config} {path : String} {found : Findings} :
    detectFeatures config ((TokenRules.ofConfig config).withRoot (workspaceRoot path))
      (Graph.assemble config path found).nodes (Graph.assemble config path found).relationships =
      found.features config path := by
  let rules := (TokenRules.ofConfig config).withRoot (workspaceRoot path)
  have hvalues : (Graph.assemble config path found).nodes.values = found.classified.entries.map
      fun e => e.2.inFeature (featureOf? (found.features config path) e.1) := by
    change ((found.classified.mapValues fun id n =>
      n.inFeature (featureOf? (found.features config path) id)).entries.map _) = _
    rw [SortedMap.mapValues, List.map_map]
    rfl
  have htokens : ((Graph.assemble config path found).nodes.values.map fun n =>
      (rules.token n.filePath, n.id)) =
      found.classified.values.map fun n => (rules.token n.filePath, n.id) := by
    rw [hvalues, SortedMap.values, List.map_map, List.map_map]
    rfl
  have hseed : FeatureGroup.seed (fun n => rules.token n.filePath)
      (Graph.assemble config path found).nodes.values =
      FeatureGroup.seed (fun n => rules.token n.filePath) found.classified.values := by
    rw [FeatureGroup.seed, FeatureGroup.idsByToken_congr htokens, FeatureGroup.seed]
  change FeatureGroup.byName (FeatureGroup.cluster _ found.finalized (FeatureGroup.seed _ _)) = _
  rw [hseed]
  rfl

/-- Every node of the graph is assigned to the feature that holds it. -/
def Graph.Assigned (config : Config) (path : String) (g : Graph) : Prop :=
  ∀ {id n}, g.nodes.get? id = some n → ∃ name members, n.featureBoundary = some name ∧
    (detectFeatures config ((TokenRules.ofConfig config).withRoot (workspaceRoot path))
      g.nodes g.relationships).get? name = some members ∧ id ∈ members

/-- A graph that is assembled from nodes under their ids assigns each to its feature. -/
theorem Graph.assigned_assemble {config : Config} {path : String} {found : Findings}
    (hid : ∀ {id n}, found.nodes.get? id = some n → n.id = id) :
    (assemble config path found).Assigned config path := by
  intro id n hn
  have hpartition : FeatureGroup.NamedPartition
      (fun id => ∃ n ∈ found.classified.values, n.id = id) (found.features config path) :=
    namedPartition_detectFeaturesBy (Findings.id_of_classified hid)
  obtain ⟨n', hn', rfl⟩ := get?_assemble_eq_some hn
  obtain rfl := Findings.id_of_classified hid hn'
  obtain ⟨name, members, hget, hmem⟩ := hpartition.covers.mp
    ⟨n', SortedMap.mem_values.mpr ⟨n'.id, hn'⟩, rfl⟩
  have hfeature : featureOf? (found.features config path) n'.id = some name :=
    hpartition.featureOf?_eq_some.mpr ⟨members, hget, hmem⟩
  refine ⟨name, members, ?_, ?_, hmem⟩
  · rw [hfeature, Node.inFeature_some]
  · rw [detectFeatures_assemble]
    exact hget

/-- Over nodes that stand under their ids, the features come from a cascade of merges between groups
of the list; each id is in exactly one of them, none is empty or has a foreign id, and nodes of one
token are together. A graph that is assembled from such nodes, and so the graph of any analysis,
assigns each node to the feature that holds it. -/
theorem detectFeatures_partition (config : Config) (rules : TokenRules)
    (nodes : SortedMap String Node) (relationships : List Relationship)
    (hid : ∀ {id n}, nodes.get? id = some n → n.id = id) :
    (∃ merges rest, FeatureGroup.Cascade (exceedsThreshold config.mergeThreshold) relationships
      (FeatureGroup.seed (fun n => rules.token n.filePath) nodes.values) merges rest ∧
      detectFeatures config rules nodes relationships = FeatureGroup.byName rest) ∧
    FeatureGroup.NamedPartition (fun id => ∃ n ∈ nodes.values, n.id = id)
      (detectFeatures config rules nodes relationships) ∧
    (∀ n ∈ nodes.values, ∃ name members,
      (detectFeatures config rules nodes relationships).get? name = some members ∧
      ∀ n' ∈ nodes.values, rules.token n'.filePath = rules.token n.filePath → n'.id ∈ members) ∧
    (∀ (path : String) (found : Findings),
      (∀ {id n}, found.nodes.get? id = some n → n.id = id) →
      (Graph.assemble config path found).Assigned config path) ∧
    ∀ (a : Analysis) (path : String) (g : Graph), a.run path = .ok g →
      g.Assigned a.config path := by
  refine ⟨?_, namedPartition_detectFeaturesBy hid, fun n hn => ?_,
    fun path found hfound => Graph.assigned_assemble hfound, fun a path g h => ?_⟩
  · obtain ⟨merges, hcascade⟩ := FeatureGroup.exists_cascade
      (exceedsThreshold config.mergeThreshold) relationships
      (FeatureGroup.seed (fun n => rules.token n.filePath) nodes.values)
    exact ⟨merges, _, hcascade, rfl⟩
  · obtain ⟨seed, hseed, htoken⟩ := FeatureGroup.exists_mem_seed
      (fun n => rules.token n.filePath) hn
    obtain ⟨name, members, hget, hsub⟩ := FeatureGroup.Coarser.cluster.byName hseed
    exact ⟨name, members, hget, fun n' hn' heq => hsub (htoken hn' heq)⟩
  · obtain ⟨found, q, -, hexplored, rfl⟩ := Analysis.run_explored h
    exact Graph.assigned_assemble hexplored.id_eq

/-- Two classes in two directories, clustered with a negative threshold, and the graph of their
workspace. -/
theorem detectFeatures_partition_two_directories :
    let order := { Symbol.typeIn "Shop" "Shop" "Order" .classType with
      location := some (.lines "/work/Shop/Order.cs" 1 1) }
    let rush := { Symbol.typeIn "Web" "Web" "RushOrder" .classType with
      location := some (.lines "/work/Web/RushOrder.cs" 1 1) }
    let snapshot := (Snapshot.empty.withProject (.named "shop" "Shop") [order]).withProject
      (.named "web" "Web") [rush]
    let a : Analysis := { resolver := snapshot.resolver, config := .standard 4 }
    let node (s : Symbol) : Node :=
      { id := s.identity, name := s.name, fullyQualifiedName := s.displayName, kind := s.kind
        accessibility := s.accessibility, projectId := "shop", assemblyName := "Shop"
        location := s.location }
    let nodes := NodeStore.ofNodes [node order, node rush]
    let config := { Config.standard 4 with mergeThreshold := -1 }
    FeatureGroup.NamedPartition (fun id => ∃ n ∈ nodes.values, n.id = id)
      (detectFeatures config (.ofConfig config) nodes []) ∧
    ∃ g n name, a.run "/work" = .ok g ∧ g.nodes.get? "Shop::Shop.Order" = some n ∧
      n.featureBoundary = some name := by
  intro order rush snapshot a node nodes config
  have hentries : ∀ e ∈ nodes.entries, e.2.id = e.1 := by decide +kernel
  obtain ⟨-, hpartition, -, -, hrun⟩ := detectFeatures_partition config (.ofConfig config) nodes []
    fun hn => hentries _ (SortedMap.get?_eq_some_iff.mp hn)
  obtain ⟨g, hg⟩ : ∃ g, a.run "/work" = .ok g :=
    Analysis.exists_run (by decide +kernel) (by decide +kernel)
  have hin : g.nodes.contains "Shop::Shop.Order" = true :=
    (Analysis.contains_run hg _).trans (by decide +kernel)
  obtain ⟨n, hn⟩ := SortedMap.contains_iff.mp hin
  obtain ⟨name, members, hname, -, -⟩ := hrun a "/work" g hg hn
  exact ⟨hpartition, g, n, name, hg, hn, hname⟩

end CodeAtlas
