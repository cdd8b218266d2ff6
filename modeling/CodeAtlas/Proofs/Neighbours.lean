import CodeAtlas.Proofs.Distances

/-!
# Neighbours of a node

The neighbours of a node are found in three ways: by a scan of the relationships that leave it, by a
scan of those that reach it, and by a search, which looks at both. All of them are known from the
links between nodes (`Graph.Links`): a scan finds the nodes at the other ends of the links that it
keeps (`Graph.mem_targets`, `Graph.mem_sources`), and nodes are adjacent for a search if they are
different and linked in one direction (`Graph.adj_iff_links`). So a search of depth one finds what
the two scans find together, apart from the node itself (`Graph.related_one`).

`Graph.neighboursAgree` collects what follows for the answers about neighbours.
-/

namespace CodeAtlas

/-- Some relationship of a kind that is kept leads from one node to another, or to itself. -/
def Graph.Links (g : Graph) (keep : RelationKind → Bool) (a b : String) : Prop :=
  g.nodes.contains a = true ∧ g.nodes.contains b = true ∧
    ∃ r ∈ g.relationships, r.sourceId = a ∧ r.targetId = b ∧ keep r.kind = true

namespace Graph

variable {g : Graph} {keep keep' : RelationKind → Bool} {a b : String}

/-- A link stays one when more kinds are kept. -/
theorem Links.mono (h : g.Links keep a b) (hkeep : ∀ k, keep k = true → keep' k = true) :
    g.Links keep' a b := by
  obtain ⟨ha, hb, r, hr, hsource, htarget, hkind⟩ := h
  exact ⟨ha, hb, r, hr, hsource, htarget, hkeep r.kind hkind⟩

/-- The members of a set ascend. -/
theorem ascending_toList {s : SortedSet String} : s.toList.Pairwise (· < ·) :=
  s.ascending.imp compare_lt_iff_lt.mp

/-! ## Scans -/

/-- The scan of the relationships that leave a node finds where its links lead to. -/
theorem mem_targets : b ∈ g.view.targets keep a ↔ g.Links keep a b := by
  rw [GraphView.targets, SortedSet.mem_ofList, List.mem_map]
  simp only [List.mem_filter, mem_edges_view, Bool.and_eq_true, beq_iff_eq]
  constructor
  · rintro ⟨r, ⟨⟨hr, ha, hb⟩, rfl, hkind⟩, rfl⟩
    exact ⟨ha, hb, r, hr, rfl, rfl, hkind⟩
  · rintro ⟨ha, hb, r, hr, rfl, rfl, hkind⟩
    exact ⟨r, ⟨⟨hr, ha, hb⟩, rfl, hkind⟩, rfl⟩

/-- The scan of the relationships that reach a node finds where links to it come from. -/
theorem mem_sources : b ∈ g.view.sources keep a ↔ g.Links keep b a := by
  rw [GraphView.sources, SortedSet.mem_ofList, List.mem_map]
  simp only [List.mem_filter, mem_edges_view, Bool.and_eq_true, beq_iff_eq]
  constructor
  · rintro ⟨r, ⟨⟨hr, hb, ha⟩, rfl, hkind⟩, rfl⟩
    exact ⟨hb, ha, r, hr, rfl, rfl, hkind⟩
  · rintro ⟨hb, ha, r, hr, rfl, rfl, hkind⟩
    exact ⟨r, ⟨⟨hr, hb, ha⟩, rfl, hkind⟩, rfl⟩

/-! ## Searches of depth one -/

/-- Different nodes are adjacent if they are linked in one direction or the other. -/
theorem adj_iff_links : g.undirected.Adj a b ↔
    a ≠ b ∧ (g.Links (fun _ => true) a b ∨ g.Links (fun _ => true) b a) := by
  simp only [undirected, SimpleGraph.fromRel_adj, Links, and_true]

/-- What surrounds a node at depth one are the adjacent nodes. -/
theorem Surrounds.mem_one {found : List (String × Nat)} (h : g.Surrounds a 1 found)
    {distance : Nat} : (b, distance) ∈ found ↔ distance = 1 ∧ g.undirected.Adj a b := by
  rw [h.mem_iff, ← SimpleGraph.edist_eq_one_iff_adj]
  constructor
  · rintro ⟨-, -, hdistance, hpos, hle⟩
    obtain rfl : distance = 1 := Nat.le_antisymm hle hpos
    exact ⟨rfl, hdistance⟩
  · rintro ⟨rfl, hdistance⟩
    obtain ⟨hne, hlinks⟩ := adj_iff_links.mp (SimpleGraph.edist_eq_one_iff_adj.mp hdistance)
    exact ⟨hlinks.elim (·.2.1) (·.1), hne.symm, hdistance, le_rfl, le_rfl⟩

/-- The nodes within one step of a node are what it refers to and what refers to it, without the
node itself. -/
theorem related_one (ha : g.nodes.contains a = true) : g.view.related a 1 =
    .ok ((((g.view.dependencies a).union (g.view.dependents a)).toList.filter (· ≠ a)).map
      (·, 1)) := by
  have hcontains : g.view.contains a = true := decide_eq_true (SortedMap.mem_keys.mpr ha)
  rw [GraphView.related, GraphView.related?, if_pos hcontains]
  refine congrArg Except.ok ?_
  have hfound : g.Surrounds a 1 _ := surrounds_search ha
  -- both lists are in the order of distances and ids, so it is enough to compare their members
  refine eq_of_pairwise_of_mem_iff (fun hab hba => ?asymm) hfound.nearestFirst ?ascending ?mem
  case asymm =>
    rcases hab with hab | ⟨heq, hab⟩
    · exact hba.elim (Nat.lt_asymm hab) fun hba => hab.ne hba.1.symm
    · exact hba.elim (fun hba => hba.ne heq.symm) fun hba => lt_asymm hab hba.2
  case ascending =>
    exact List.pairwise_map.mpr ((ascending_toList.filter _).imp fun hlt => .inr ⟨rfl, hlt⟩)
  case mem =>
    rintro ⟨b, distance⟩
    rw [hfound.mem_one, adj_iff_links]
    simp only [List.mem_map, List.mem_filter, ← SortedSet.mem_def, SortedSet.mem_union,
      GraphView.dependencies, GraphView.dependents, mem_targets, mem_sources, decide_eq_true_eq,
      Prod.mk.injEq]
    constructor
    · rintro ⟨rfl, hne, hlinks⟩
      exact ⟨b, ⟨hlinks, hne.symm⟩, rfl, rfl⟩
    · rintro ⟨_, ⟨hlinks, hne⟩, rfl, rfl⟩
      exact ⟨rfl, hne.symm, hlinks⟩

/-! ## All answers about neighbours -/

/-- What a graph answers when it is asked for the neighbours of a node. -/
def neighbourAnswers (g : Graph) (a : String) : List (SortedSet String) :=
  [g.view.dependencies a, g.view.dependents a, g.view.callers a, g.view.callees a,
    g.view.implementors a]

/-- The answers about the neighbours of nodes fit together. -/
structure NeighboursAgree (g : Graph) : Prop where
  /-- A node depends on what some relationship leads to from it, -/
  dependency : ∀ a b, b ∈ g.view.dependencies a ↔ g.Links (fun _ => true) a b
  /-- it calls what a call leads to from it, -/
  callee : ∀ a b, b ∈ g.view.callees a ↔ g.Links (· == .methodCall) a b
  /-- and implementations lead to it from its implementors. -/
  implementor : ∀ a b, b ∈ g.view.implementors a ↔
    g.Links (· == .implementation) b a ∨ g.Links (· == .methodImplementation) b a
  /-- Seen from the other end, what a node depends on are its dependents, -/
  dependent : ∀ a b, b ∈ g.view.dependencies a ↔ a ∈ g.view.dependents b
  /-- and what it calls are its callers. -/
  caller : ∀ a b, b ∈ g.view.callees a ↔ a ∈ g.view.callers b
  callers_subset : ∀ a, ∀ b ∈ g.view.callers a, b ∈ g.view.dependents a
  implementors_subset : ∀ a, ∀ b ∈ g.view.implementors a, b ∈ g.view.dependents a
  callees_subset : ∀ a, ∀ b ∈ g.view.callees a, b ∈ g.view.dependencies a
  ascending : ∀ a, ∀ answer ∈ g.neighbourAnswers a, answer.toList.Pairwise (· < ·)
  nodes : ∀ a, ∀ answer ∈ g.neighbourAnswers a, ∀ b ∈ answer, g.nodes.contains b = true
  /-- A search of depth one finds what a node depends on and its dependents. -/
  related : ∀ a, g.nodes.contains a = true → g.view.related a 1 =
    .ok ((((g.view.dependencies a).union (g.view.dependents a)).toList.filter (· ≠ a)).map (·, 1))

/-- Whatever the graph, the answers about neighbours fit together. -/
theorem neighboursAgree (g : Graph) : g.NeighboursAgree where
  dependency a b := mem_targets
  callee a b := mem_targets
  implementor a b := by
    refine mem_sources.trans ⟨?_, fun h => h.elim (·.mono ?_) (·.mono ?_)⟩
    · rintro ⟨hb, ha, r, hr, hsource, htarget, hkind⟩
      refine (Bool.or_eq_true_iff.mp hkind).imp (fun hkind => ?_) fun hkind => ?_
      all_goals exact ⟨hb, ha, r, hr, hsource, htarget, hkind⟩
    · exact fun k hk => Bool.or_eq_true_iff.mpr (.inl hk)
    · exact fun k hk => Bool.or_eq_true_iff.mpr (.inr hk)
  dependent a b := mem_targets.trans mem_sources.symm
  caller a b := mem_targets.trans mem_sources.symm
  callers_subset a b hb := mem_sources.mpr ((mem_sources.mp hb).mono fun _ _ => rfl)
  implementors_subset a b hb := mem_sources.mpr ((mem_sources.mp hb).mono fun _ _ => rfl)
  callees_subset a b hb := mem_targets.mpr ((mem_targets.mp hb).mono fun _ _ => rfl)
  ascending a answer _ := ascending_toList
  nodes a answer hanswer b hb := by
    simp only [neighbourAnswers, List.mem_cons, List.not_mem_nil, or_false] at hanswer
    rcases hanswer with rfl | rfl | rfl | rfl | rfl
    · exact (mem_targets.mp hb).2.1
    · exact (mem_sources.mp hb).1
    · exact (mem_sources.mp hb).1
    · exact (mem_targets.mp hb).2.1
    · exact (mem_sources.mp hb).1
  related a := related_one

end Graph

end CodeAtlas
