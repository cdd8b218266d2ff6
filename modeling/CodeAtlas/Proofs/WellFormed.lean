import CodeAtlas.Proofs.Assembly

/-!
# Graphs are well-formed

Whatever the resolver answers and wherever it fails, the graph of an analysis is well-formed
(`Graph.WellFormed`): its relationships connect two different nodes of it, carry the flags that
these nodes imply, and ascend strictly by their keys. It has all relationships that have been
collected (`Analysis.run_wellFormed`).
-/

namespace CodeAtlas

namespace Graph

/-- Nodes stand under their ids; relationships connect different nodes, are flagged by comparing
them, and ascend by source, target and kind. -/
structure WellFormed (g : Graph) : Prop where
  id_eq : ∀ {id n}, g.nodes.get? id = some n → n.id = id
  ne : ∀ r ∈ g.relationships, r.sourceId ≠ r.targetId
  ends : ∀ r ∈ g.relationships,
    g.nodes.contains r.sourceId = true ∧ g.nodes.contains r.targetId = true
  crossProject : ∀ r ∈ g.relationships, ∀ {source target},
    g.nodes.get? r.sourceId = some source → g.nodes.get? r.targetId = some target →
      (r.isCrossProject = true ↔ source.projectId ≠ target.projectId)
  crossLanguage : ∀ r ∈ g.relationships, ∀ {source target},
    g.nodes.get? r.sourceId = some source → g.nodes.get? r.targetId = some target →
      (r.isCrossLanguage = true ↔
        ∃ x y, source.extension = some x ∧ target.extension = some y ∧ x ≠ y)
  ascending : g.relationships.Pairwise fun a b => compare a.key b.key = .lt

end Graph

/-- What has been collected stays sound when the nodes are classified. -/
theorem Analysis.Explored.sound_classified {a : Analysis} {path : String} {found : Findings}
    {p : Progress} (h : a.Explored path found p) : found.relationships.Sound found.classified := by
  refine h.sound.mono fun {id} hid => ?_
  rw [Findings.contains_classified h.id_eq]
  exact hid

namespace Graph

variable {config : Config} {path : String} {found : Findings}

/-- Whether two languages differ is only asked where both are known. -/
theorem differ_iff {x y : Option String} :
    (match x, y with
      | some a, some b => a != b
      | _, _ => false) = true ↔ ∃ a b, x = some a ∧ y = some b ∧ a ≠ b := by
  cases x with
  | none => exact ⟨fun h => (nomatch h), fun ⟨_, _, h, _⟩ => nomatch h⟩
  | some a =>
    cases y with
    | none => exact ⟨fun h => (nomatch h), fun ⟨_, _, _, h, _⟩ => nomatch h⟩
    | some b =>
      refine ⟨fun h => ⟨a, b, rfl, rfl, bne_iff_ne.mp h⟩, ?_⟩
      rintro ⟨_, _, ⟨⟩, ⟨⟩, h⟩
      exact bne_iff_ne.mpr h

/-- A relationship of the graph comes from one in the store, between nodes whose comparison gives
its flags. -/
theorem mem_relationships_assemble (hs : found.relationships.Sound found.classified)
    {r : Relationship} (hr : r ∈ (assemble config path found).relationships) :
    r.sourceId ≠ r.targetId ∧ ∃ source target,
      found.classified.get? r.sourceId = some source ∧
      found.classified.get? r.targetId = some target ∧
      r.isCrossProject = (source.projectId != target.projectId) ∧
      (r.isCrossLanguage = true ↔
        ∃ x y, source.extension = some x ∧ target.extension = some y ∧ x ≠ y) := by
  change r ∈ finalizeRelationships found.classified found.relationships.values at hr
  rw [hs.finalizeRelationships_eq, List.mem_filterMap] at hr
  obtain ⟨r', hr', hfinal⟩ := hr
  obtain ⟨k, hk⟩ := SortedMap.mem_values.mp hr'
  obtain ⟨source, target, hsource, htarget⟩ := hs.ends hk
  have hne := hs.ne hk
  rw [Relationship.finalize?_of_get? hsource htarget] at hfinal
  cases hfinal
  exact ⟨hne, source, target, hsource, htarget, rfl, differ_iff⟩

/-- A node of the graph is a classified one in some feature. -/
theorem get?_assemble_eq_some {id : String} {n : Node}
    (hn : (assemble config path found).nodes.get? id = some n) :
    ∃ n', found.classified.get? id = some n' ∧
      n = n'.inFeature (featureOf? (found.features config path) id) := by
  change (found.classified.mapValues fun id n =>
    n.inFeature (featureOf? (found.features config path) id)).get? id = some n at hn
  rw [SortedMap.get?_mapValues, Option.map_eq_some_iff] at hn
  obtain ⟨n', hn', rfl⟩ := hn
  exact ⟨n', hn', rfl⟩

/-- Every classified node is in the graph. -/
theorem contains_assemble {id : String} :
    (assemble config path found).nodes.contains id = found.classified.contains id := by
  change (found.classified.mapValues fun id n =>
    n.inFeature (featureOf? (found.features config path) id)).contains id = _
  rw [SortedMap.contains_mapValues]

/-- The flags of a relationship of the graph are what its ends imply. -/
theorem flags_assemble (hs : found.relationships.Sound found.classified) {r : Relationship}
    (hr : r ∈ (assemble config path found).relationships) {source target : Node}
    (hsource : (assemble config path found).nodes.get? r.sourceId = some source)
    (htarget : (assemble config path found).nodes.get? r.targetId = some target) :
    r.isCrossProject = (source.projectId != target.projectId) ∧
      (r.isCrossLanguage = true ↔
        ∃ x y, source.extension = some x ∧ target.extension = some y ∧ x ≠ y) := by
  obtain ⟨-, s, t, hs', ht', hflags⟩ := mem_relationships_assemble hs hr
  -- the flags were computed from the classified ends, of which the nodes of the graph have the
  -- projects and the languages
  obtain ⟨s', hs'', rfl⟩ := get?_assemble_eq_some hsource
  obtain ⟨t', ht'', rfl⟩ := get?_assemble_eq_some htarget
  obtain rfl : s = s' := Option.some.inj (hs'.symm.trans hs'')
  obtain rfl : t = t' := Option.some.inj (ht'.symm.trans ht'')
  exact hflags

/-- Graphs that are assembled from nodes under their ids and a sound store are well-formed. -/
theorem wellFormed_assemble (hid : ∀ {id n}, found.nodes.get? id = some n → n.id = id)
    (hs : found.relationships.Sound found.classified) :
    (assemble config path found).WellFormed := by
  refine ⟨fun {id n} hn => ?_, fun r hr => ?_, fun r hr => ?_, fun r hr source target h h' => ?_,
    fun r hr source target h h' => ?_, ?_⟩
  · rw [get?_nodes_assemble hid, Option.map_eq_some_iff] at hn
    obtain ⟨n', hn', rfl⟩ := hn
    rw [Node.inFeature_id, Node.classify_id, hid hn']
  · exact (mem_relationships_assemble hs hr).1
  · obtain ⟨-, source, target, hsource, htarget, -⟩ := mem_relationships_assemble hs hr
    rw [contains_assemble, contains_assemble]
    exact ⟨SortedMap.contains_of_get? hsource, SortedMap.contains_of_get? htarget⟩
  · rw [(flags_assemble hs hr h h').1, bne_iff_ne]
  · exact (flags_assemble hs hr h h').2
  · have hkeys := found.relationships.keys.ascending
    change found.relationships.keyList.Pairwise _ at hkeys
    rw [← hs.map_key_finalize] at hkeys
    exact List.pairwise_map.mp hkeys

end Graph

namespace Analysis

variable {a : Analysis} {path : String}

/-- The nodes of the graph are those that have been catalogued. -/
theorem contains_run {g : Graph} (h : a.run path = .ok g) (id : String) :
    g.nodes.contains id = (a.exploration path).2.catalogue.nodes.contains id := by
  obtain ⟨found, p, he, hexplored, rfl⟩ := run_explored h
  rw [he, Graph.contains_assemble, Findings.contains_classified hexplored.id_eq, hexplored.nodes]

/-- The relationships of the graph are those that have been stored, in the order of their keys. -/
theorem map_key_run {g : Graph} (h : a.run path = .ok g) :
    g.relationships.map (·.key) = (a.exploration path).2.relationships.keyList := by
  obtain ⟨found, p, he, hexplored, rfl⟩ := run_explored h
  rw [he, hexplored.relationships]
  exact hexplored.sound_classified.map_key_finalize

/-- The graph of an analysis is well-formed, no two of its relationships have one key, and it has as
many of them as have been collected. -/
theorem run_wellFormed (a : Analysis) (path : String) (g : Graph) (h : a.run path = .ok g) :
    g.WellFormed ∧ (g.relationships.map (·.key)).Nodup ∧
      g.relationships.length = (a.exploration path).2.relationships.size := by
  have hkeys := map_key_run h
  refine ⟨?_, ?_, ?_⟩
  · obtain ⟨found, p, he, hexplored, rfl⟩ := run_explored h
    exact Graph.wellFormed_assemble hexplored.id_eq hexplored.sound_classified
  · rw [hkeys]
    exact SortedMap.nodup_keyList
  · rw [← List.length_map (f := Relationship.key), hkeys]
    exact List.length_map _

/-- Two projects, and a class of the second one that derives from a class of the first. -/
theorem run_wellFormed_derived_class :
    let order := Symbol.typeIn "Shop" "Shop" "Order" .classType
    let rush := (Symbol.typeIn "Web" "Web" "RushOrder" .classType).derivingFrom order.typeRef
    let snapshot := (Snapshot.empty.withProject (.named "shop" "Shop") [order]).withProject
      (.named "web" "Web") [rush]
    let a : Analysis := { resolver := snapshot.resolver, config := .standard 4 }
    ∃ g, a.run "/work" = .ok g ∧ g.WellFormed ∧ g.relationships.length = 1 := by
  intro order rush snapshot a
  obtain ⟨g, hg⟩ : ∃ g, a.run "/work" = .ok g := exists_run (by decide +kernel) (by decide +kernel)
  obtain ⟨hwf, -, hlength⟩ := run_wellFormed a "/work" g hg
  exact ⟨g, hg, hwf, hlength.trans (by decide +kernel)⟩

end Analysis

end CodeAtlas
