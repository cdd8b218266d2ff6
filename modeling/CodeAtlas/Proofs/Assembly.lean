import CodeAtlas.Proofs.Exploration

/-!
# The assembled graph

Assembling a graph keeps what has been found. Nodes stay under their ids (`Findings.classified_eq`,
`Graph.get?_nodes_assemble`): roles and features are all that changes. Of a sound store no
relationship is dropped, and they stay in the order of their keys
(`RelationshipStore.Sound.map_key_finalize`).
-/

namespace CodeAtlas

/-! ## Nodes -/

/-- Changed nodes that keep their ids stay where they are. -/
theorem NodeStore.ofNodes_map_values {s : NodeStore} {f : Node → Node}
    (h : ∀ {id n}, s.get? id = some n → (f n).id = id) :
    NodeStore.ofNodes (s.values.map f) = s.mapValues fun _ => f := by
  have hlist : ((s.values.map f).map fun n => (n.id, n)) = s.entries.map fun e => (e.1, f e.2) := by
    rw [SortedMap.values, List.map_map, List.map_map]
    refine List.map_congr_left fun e he => ?_
    have hid : (f e.2).id = e.1 := h (SortedMap.get?_eq_some_iff.mpr he)
    exact congrArg (·, f e.2) hid
  have hentries : (SortedMap.ofList (s.entries.map fun e => (e.1, f e.2))).entries =
      s.entries.map fun e => (e.1, f e.2) :=
    SortedMap.entries_ofList (s.mapValues fun _ => f).ascending
  refine SortedMap.ext_get? fun id => ?_
  rw [NodeStore.ofNodes, hlist, SortedMap.get?, hentries]
  rfl

namespace Findings

variable {found : Findings}

/-- Classifying keeps the nodes under their ids. -/
theorem classified_eq (h : ∀ {id n}, found.nodes.get? id = some n → n.id = id) :
    found.classified = found.nodes.mapValues fun _ n => n.classify :=
  NodeStore.ofNodes_map_values fun hn => (Node.classify_id _).trans (h hn)

/-- Classified nodes stand under their ids. -/
theorem id_of_classified (h : ∀ {id n}, found.nodes.get? id = some n → n.id = id) {id : String}
    {n : Node} (hn : found.classified.get? id = some n) : n.id = id := by
  rw [classified_eq h, SortedMap.get?_mapValues, Option.map_eq_some_iff] at hn
  obtain ⟨n', hn', rfl⟩ := hn
  rw [Node.classify_id, h hn']

/-- A node is classified exactly if it has been found. -/
theorem contains_classified (h : ∀ {id n}, found.nodes.get? id = some n → n.id = id) {id : String} :
    found.classified.contains id = found.nodes.contains id := by
  rw [classified_eq h, SortedMap.contains_mapValues]

end Findings

/-- The nodes of the graph are those that have been found, with their roles and features. -/
theorem Graph.get?_nodes_assemble {config : Config} {path : String} {found : Findings}
    (h : ∀ {id n}, found.nodes.get? id = some n → n.id = id) {id : String} :
    (Graph.assemble config path found).nodes.get? id = (found.nodes.get? id).map fun n =>
      n.classify.inFeature (featureOf? (found.features config path) id) := by
  change (found.classified.mapValues fun id n =>
    n.inFeature (featureOf? (found.features config path) id)).get? id = _
  rw [SortedMap.get?_mapValues, Findings.classified_eq h, SortedMap.get?_mapValues,
    Option.map_map]
  rfl

/-! ## Projects -/

/-- The values of the map of a list may be changed in the list. -/
theorem SortedMap.mapValues_ofList {α β : Type} {f : α → β} {l : List (String × α)} :
    ((ofList l).mapValues fun _ v => f v) = ofList (l.map fun e => (e.1, f e.2)) := by
  refine ext_get? fun k => ?_
  rw [get?_mapValues, get?_ofList, get?_ofList, ← List.map_reverse, List.find?_map, Option.map_map,
    Option.map_map]
  rfl

/-- What a summary says of the project itself. -/
def ProjectInfo.attributes (p : ProjectInfo) : String × String × Option String × List String :=
  (p.name, p.path, p.targetFramework, p.projectReferences)

/-- The attributes of the projects of a graph. -/
def Graph.attributes (g : Graph) :
    SortedMap String (String × String × Option String × List String) :=
  g.projectInfo.mapValues fun _ p => p.attributes

/-- The attributes in the summaries are those of the projects. -/
theorem Graph.attributes_assemble {config : Config} {path : String} {found : Findings} :
    (assemble config path found).attributes = .ofList (found.projects.map fun p =>
      (p.id, p.name, p.path, p.targetFramework, p.projectReferences)) := by
  rw [attributes, assemble, SortedMap.mapValues_ofList, List.map_map]
  rfl

/-! ## Relationships -/

namespace Relationship

variable {nodes : NodeStore} {r r' : Relationship}

/-- A relationship between two nodes gets its flags from them. -/
theorem finalize?_of_get? {source target : Node} (hs : nodes.get? r.sourceId = some source)
    (ht : nodes.get? r.targetId = some target) :
    r.finalize? nodes = some { r with
      isCrossProject := source.projectId != target.projectId
      isCrossLanguage := match source.extension, target.extension with
        | some a, some b => a != b
        | _, _ => false } := by
  rw [finalize?, hs, ht]
  rfl

/-- Only the flags of a relationship change. -/
theorem key_of_finalize? (h : r.finalize? nodes = some r') : r'.key = r.key := by
  simp only [finalize?, Option.bind_eq_bind, Option.bind_eq_some_iff] at h
  obtain ⟨source, -, target, -, h⟩ := h
  cases h
  rfl

end Relationship

namespace RelationshipStore.Sound

variable {nodes nodes' : NodeStore} {s : RelationshipStore}

/-- A store is sound over all nodes that have the same ids. -/
theorem mono (h : Sound nodes s)
    (hn : ∀ {id}, nodes.contains id = true → nodes'.contains id = true) : Sound nodes' s where
  key_eq := h.key_eq
  ne := h.ne
  source hr := hn (h.source hr)
  target hr := hn (h.target hr)

/-- Both ends of a stored relationship are nodes. -/
theorem ends (h : Sound nodes s) {k : RelationshipKey} {r : Relationship}
    (hr : s.get? k = some r) : ∃ source target, nodes.get? r.sourceId = some source ∧
      nodes.get? r.targetId = some target := by
  obtain ⟨source, hs⟩ := SortedMap.contains_iff.mp (h.source hr)
  obtain ⟨target, ht⟩ := SortedMap.contains_iff.mp (h.target hr)
  exact ⟨source, target, hs, ht⟩

/-- Without the sorting, the keys of the finalized relationships are those of the store. -/
theorem map_key_filterMap (h : Sound nodes s) :
    (s.values.filterMap (Relationship.finalize? nodes)).map (·.key) = s.keyList := by
  have hkeep : ∀ e ∈ s.entries, ∃ r, e.2.finalize? nodes = some r ∧ r.key = e.1 := by
    intro e he
    have hr := SortedMap.get?_eq_some_iff.mpr he
    obtain ⟨source, target, hs, ht⟩ := h.ends hr
    have hfinal := Relationship.finalize?_of_get? hs ht
    exact ⟨_, hfinal, (Relationship.key_of_finalize? hfinal).trans (h.key_eq hr)⟩
  rw [SortedMap.values, SortedMap.keyList, List.filterMap_map]
  generalize s.entries = entries at hkeep
  induction entries with
  | nil => rfl
  | cons e rest ih =>
    obtain ⟨r, hr, hk⟩ := hkeep e List.mem_cons_self
    have hsome : (Relationship.finalize? nodes ∘ fun x => x.2) e = some r := hr
    rw [List.filterMap_cons_some hsome, List.map_cons, List.map_cons, hk,
      ih fun e he => hkeep e (List.mem_cons_of_mem _ he)]

/-- Finalized relationships of a sound store are in order already. -/
theorem finalizeRelationships_eq (h : Sound nodes s) :
    finalizeRelationships nodes s.values =
      s.values.filterMap (Relationship.finalize? nodes) := by
  refine List.mergeSort_of_pairwise ?_
  have hkeys : (s.keyList).Pairwise fun a b => (compare a b).isLE = true :=
    s.keys.ascending.imp fun hlt => by rw [hlt]; rfl
  rw [← h.map_key_filterMap] at hkeys
  exact List.pairwise_map.mp hkeys

/-- Nothing of a sound store is dropped, and the keys stay in their order. -/
theorem map_key_finalize (h : Sound nodes s) :
    (finalizeRelationships nodes s.values).map (·.key) = s.keyList := by
  rw [h.finalizeRelationships_eq, h.map_key_filterMap]

end RelationshipStore.Sound

end CodeAtlas
