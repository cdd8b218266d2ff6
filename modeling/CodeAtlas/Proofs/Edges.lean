import CodeAtlas.Proofs.Offers
import CodeAtlas.Proofs.WellFormed

/-!
# Which relationships a graph has

An analysis of a recorded workspace that is left alone finds exactly the relationships of which the
workspace gives evidence, between any two of its nodes (`Snapshot.mem_relationships_run`). What a
failing look-up keeps it from asking is no evidence either. The schedule makes no difference to
this, nor does the order in which the resolver compares declarations.

Each relationship that is put forward at a node is one that its evidence demands, and the other way
round (`Snapshot.mem_map_key_offers`). One that is put forward is stored unless it leads from a node
to itself.
-/

namespace CodeAtlas

/-- Whether a relationship with the key connects two different nodes. -/
def RelationshipKey.Connects (nodes : NodeStore) (k : RelationshipKey) : Prop :=
  k.sourceId ≠ k.targetId ∧ nodes.contains k.sourceId = true ∧ nodes.contains k.targetId = true

/-- The keys of the values that a function gives for the elements of a list. -/
theorem Relationship.mem_map_key_filterMap {α : Type} {l : List α} {f : α → Option Relationship}
    {k : RelationshipKey} :
    k ∈ (l.filterMap f).map (·.key) ↔ ∃ x ∈ l, (f x).map (·.key) = some k := by
  rw [List.map_filterMap, List.mem_filterMap]

/-! ## The evidence at one node -/

section Keys

variable {c : Catalogue} {node : Node} {k : RelationshipKey}

theorem map_key_structuralOffer? {target : TypeRef × RelationKind} :
    (structuralOffer? c node target).map (·.key) = some k ↔
      c.nodes.contains target.1.identity = true ∧
        k = ⟨node.id, target.1.identity, target.2⟩ := by
  simp only [structuralOffer?, Option.map_map, Option.map_eq_some_iff, SortedMap.contains_iff]
  exact ⟨fun ⟨n, hn, hk⟩ => ⟨⟨n, hn⟩, hk.symm⟩, fun ⟨⟨n, hn⟩, hk⟩ => ⟨n, hn, hk.symm⟩⟩

theorem map_key_sourceOffer? {kind : RelationKind} {source : Symbol} :
    (sourceOffer? c node kind source).map (·.key) = some k ↔
      c.nodes.contains source.identity = true ∧ k = ⟨source.identity, node.id, kind⟩ := by
  simp only [sourceOffer?, Option.map_map, Option.map_eq_some_iff, SortedMap.contains_iff]
  exact ⟨fun ⟨n, hn, hk⟩ => ⟨⟨n, hn⟩, hk.symm⟩, fun ⟨⟨n, hn⟩, hk⟩ => ⟨n, hn, hk.symm⟩⟩

namespace Snapshot

variable {w : Snapshot} {order : List Symbol → List Symbol} {s : Symbol}

theorem map_key_referenceOffer? {site : ReferenceSite} :
    (w.referenceOffer? c node order site).map (·.key) = some k ↔
      ∃ source, w.enclosing? order site = some source ∧
        c.nodes.contains source.identity = true ∧
        k = ⟨source.identity, node.id, site.context.relationKind⟩ := by
  unfold referenceOffer?
  cases w.enclosing? order site with
  | none => exact ⟨nofun, fun ⟨_, h, _⟩ => nomatch h⟩
  | some source =>
    simp only [Option.bind_some, Option.map_map, Option.map_eq_some_iff, Option.some.injEq,
      exists_eq_left', SortedMap.contains_iff]
    exact ⟨fun ⟨n, hn, hk⟩ => ⟨⟨n, hn⟩, hk.symm⟩, fun ⟨⟨n, hn⟩, hk⟩ => ⟨n, hn, hk.symm⟩⟩

section Connected

variable (hk : k.Connects c.nodes)
include hk

/-- What the declaration mentions is put forward. -/
theorem mem_map_key_structuralOffers :
    k ∈ (s.structuralTargets.filterMap (structuralOffer? c node)).map (·.key) ↔
      ∃ target ∈ s.structuralTargets, k = ⟨node.id, target.1.identity, target.2⟩ := by
  simp only [Relationship.mem_map_key_filterMap, map_key_structuralOffer?]
  constructor
  · rintro ⟨target, htarget, -, heq⟩
    exact ⟨target, htarget, heq⟩
  · rintro ⟨target, htarget, rfl⟩
    exact ⟨target, htarget, hk.2.2, rfl⟩

/-- What comes from the places that refer to the node is put forward. -/
theorem mem_map_key_referenceOffers :
    k ∈ (w.referenceOffers c node order s).map (·.key) ↔
      ∃ sites, w.references.get? s.identity = some sites ∧ ∃ site ∈ sites, ∃ source,
        w.enclosing? order site = some source ∧
          k = ⟨source.identity, node.id, site.context.relationKind⟩ := by
  simp only [referenceOffers, Relationship.mem_map_key_filterMap, map_key_referenceOffer?]
  cases w.references.get? s.identity with
  | none => exact ⟨fun ⟨_, h, _⟩ => absurd h List.not_mem_nil, fun ⟨_, h, _⟩ => nomatch h⟩
  | some sites =>
    constructor
    · rintro ⟨site, hsite, source, hsource, -, heq⟩
      exact ⟨sites, rfl, site, hsite, source, hsource, heq⟩
    · rintro ⟨_, ⟨⟩, site, hsite, source, hsource, rfl⟩
      exact ⟨site, hsite, source, hsource, hk.2.1, rfl⟩

variable (hdeclared : ∀ {o}, c.nodes.contains o = true → w.declared.contains o = true)
include hdeclared

/-- What comes from listed symbols is put forward: those at the end of a relationship between nodes
are declared. -/
theorem mem_map_key_sourceOffers {kind : RelationKind} {ids : Option (List String)} :
    k ∈ ((resolveAll w.declared ids).filterMap (sourceOffer? c node kind)).map (·.key) ↔
      ∃ l, ids = some l ∧ ∃ o ∈ l, k = ⟨o, node.id, kind⟩ := by
  simp only [Relationship.mem_map_key_filterMap, map_key_sourceOffer?, mem_resolveAll]
  constructor
  · rintro ⟨source, ⟨l, hl, o, ho, hget⟩, -, rfl⟩
    exact ⟨l, hl, o, ho, by rw [identity_of_declared hget]⟩
  · rintro ⟨l, hl, o, ho, rfl⟩
    obtain ⟨source, hget⟩ := SortedMap.contains_iff.mp (hdeclared hk.2.1)
    obtain rfl := identity_of_declared hget
    exact ⟨source, ⟨l, hl, _, ho, hget⟩, hk.2.1, rfl⟩

/-- What comes from what implements the node is put forward, -/
theorem mem_map_key_implementationOffers :
    k ∈ (w.implementationOffers c node s).map (·.key) ↔
      ∃ kind, s.implementationKind? = some kind ∧
        ∃ l, w.implementations.get? s.identity = some l ∧ ∃ o ∈ l, k = ⟨o, node.id, kind⟩ := by
  unfold implementationOffers
  cases s.implementationKind? with
  | none => exact ⟨nofun, fun ⟨_, h, _⟩ => nomatch h⟩
  | some kind =>
    simp only [mem_map_key_sourceOffers hk hdeclared, Option.some.injEq, exists_eq_left']

/-- and so is what comes from the types derived from it. -/
theorem mem_map_key_derivedTypeOffers :
    k ∈ (w.derivedTypeOffers c node s).map (·.key) ↔ s.isClass = true ∧
      ∃ l, w.derivedTypes.get? s.identity = some l ∧ ∃ o ∈ l, k = ⟨o, node.id, .inheritance⟩ := by
  unfold derivedTypeOffers
  cases s.isClass with
  | false => exact ⟨nofun, fun ⟨h, _⟩ => nomatch h⟩
  | true => simp only [if_true, mem_map_key_sourceOffers hk hdeclared, true_and]

/-- The relationships between nodes that are put forward at a node are those of which there is
evidence. -/
theorem mem_map_key_offers (hid : s.identity = node.id) :
    k ∈ (w.offers c node order s).map (·.key) ↔ w.Evidence order node.id s k := by
  rw [offers, resolvedOffers, List.map_append, List.mem_append, mem_map_key_structuralOffers hk]
  by_cases hlookup : s.identity ∈ w.faults.failLookups
  · rw [if_pos hlookup, evidence_iff_of_failing (hid ▸ hlookup)]
    exact or_iff_left List.not_mem_nil
  · rw [if_neg hlookup, evidence_iff_of_answered (hid ▸ hlookup), List.map_append, List.map_append,
      List.mem_append, List.mem_append, mem_map_key_referenceOffers hk,
      mem_map_key_implementationOffers hk hdeclared, mem_map_key_derivedTypeOffers hk hdeclared,
      hid]

end Connected

end Snapshot

end Keys

/-! ## The evidence at all nodes -/

namespace Analysis

/-- The symbol that an analysis has registered under an identity. -/
def handle? (a : Analysis) (path id : String) : Option Symbol :=
  (a.exploration path).2.catalogue.registry.get? id

variable {w : Snapshot} {order : List Symbol → List Symbol} {config : Config} {schedule : Schedule}
  {c : Catalogue} {projects : List Project} {k : RelationshipKey}

/-- The catalogued symbols of a recorded workspace are declared in it. -/
theorem declared_of_contains {l : List Declaration} (hc : c.MadeFrom l)
    (hl : ∀ d ∈ l, (w.analysisIn order config schedule).Declares projects d) {id : String}
    (h : c.nodes.contains id = true) : w.declared.contains id = true := by
  obtain ⟨d, hd, rfl⟩ := hc.contains_nodes.mp h
  obtain ⟨-, -, symbols, hsymbols, hs⟩ := hl d hd
  exact Snapshot.declared_of_symbolsOf hsymbols hs

/-- The keys of a store to which all relationships at the nodes have been added are those of which
there is evidence and that connect nodes. -/
theorem contains_relationshipsFor {l : List Declaration} (hc : c.MadeFrom l)
    (hl : ∀ d ∈ l, (w.analysisIn order config schedule).Declares projects d) :
    ((w.analysisIn order config schedule).relationshipsFor c).contains k = true ↔
      k.Connects c.nodes ∧
        ∃ id s, c.registry.get? id = some s ∧ w.Evidence order id s k := by
  -- what is put forward at a node, in terms of evidence
  have hat : ∀ {id node s}, c.nodes.get? id = some node → c.registry.get? id = some s →
      k.Connects c.nodes →
      (k ∈ (w.offersAt c order id).map (·.key) ↔ w.Evidence order id s k) := by
    intro id node s hn hs hk
    have hid : node.id = id := hc.id_eq hn
    rw [Snapshot.offersAt, hn, hs, ← hid]
    exact Snapshot.mem_map_key_offers hk (declared_of_contains hc hl)
      ((hc.identity_eq hs).trans hid.symm)
  rw [relationshipsFor, RelationshipStore.contains_addAll]
  constructor
  · rintro (h | ⟨r, hr, rfl, hne⟩)
    · cases h
    obtain ⟨id, hin, hr⟩ := mem_offers_collectionActions.mp hr
    obtain ⟨node, hn⟩ := SortedMap.contains_iff.mp hin
    obtain ⟨s, hs⟩ := hc.exists_handle hin
    have hk : r.key.Connects c.nodes := ⟨hne, joins_of_mem_offers hc.id_eq hr⟩
    rw [Snapshot.offers_relationshipsOf] at hr
    exact ⟨hk, id, s, hs, (hat hn hs hk).mp (List.mem_map_of_mem hr)⟩
  · rintro ⟨hk, id, s, hs, hevidence⟩
    obtain ⟨node, hn⟩ := hc.exists_node hs
    obtain ⟨r, hr, rfl⟩ := List.mem_map.mp ((hat hn hs hk).mpr hevidence)
    have hoffers : ((w.analysisIn order config schedule).relationshipsOf c id).offers =
        w.offersAt c order id := Snapshot.offers_relationshipsOf
    rw [← hoffers] at hr
    have hin : c.nodes.contains id = true := SortedMap.contains_of_get? hn
    exact .inr ⟨r, mem_offers_collectionActions.mpr ⟨id, hin, hr⟩, rfl, hk.1⟩

end Analysis

namespace Snapshot

/-- The graph of a recorded workspace has exactly the relationships of which the workspace gives
evidence, as far as they connect two different nodes of the graph. -/
theorem mem_relationships_run (w : Snapshot) (order : List Symbol → List Symbol) (config : Config)
    (schedule : Schedule) (path : String) (g : Graph)
    (h : (w.analysisIn order config schedule).run path = .ok g)
    (k : RelationshipKey) : k ∈ g.relationships.map (·.key) ↔
      k.sourceId ≠ k.targetId ∧ g.nodes.contains k.sourceId = true ∧
      g.nodes.contains k.targetId = true ∧
      ∃ id s, (w.analysisIn order config schedule).handle? path id = some s ∧
        w.Evidence order id s k := by
  obtain ⟨found, q, he, hexplored, -⟩ := Analysis.run_explored h
  have hstored : q.relationships =
      (w.analysisIn order config schedule).relationshipsFor q.catalogue := by
    rw [hexplored.relationships, hexplored.all, hexplored.catalogue]
    rfl
  rw [Analysis.map_key_run h, Analysis.contains_run h, Analysis.contains_run h, he,
    SortedMap.mem_keyList, hstored, Analysis.contains_relationshipsFor hexplored.madeFrom
      (fun d hd => Analysis.mem_declared.mp hd), RelationshipKey.Connects, and_assoc, and_assoc]
  simp only [Analysis.handle?, he]

/-- A recorded derivation of a class from one of another project, and a call in a file whose
declarations are compared in reverse order. -/
theorem mem_relationships_run_derivation :
    let order := { Symbol.typeIn "Shop" "Shop" "Order" .classType with
      location := some (.lines "order.cs" 1 9) }
    let rush := Symbol.typeIn "Web" "Web" "RushOrder" .classType
    let submit := { order.memberOf .method "Submit" with location := some (.lines "order.cs" 6 8) }
    let site : ReferenceSite := ⟨.lines "order.cs" 4 4, none, .call⟩
    let w := (((Snapshot.empty.withProject (.named "shop" "Shop") [order, submit]).withProject
      (.named "web" "Web") [rush]).withDerivedType order rush).withReference submit site
    ∃ g, (w.analysisIn List.reverse (.standard 4) {}).run "/work" = .ok g ∧
      ⟨rush.identity, order.identity, .inheritance⟩ ∈ g.relationships.map (·.key) ∧
      ⟨order.identity, submit.identity, .methodCall⟩ ∈ g.relationships.map (·.key) := by
  intro order rush submit site w
  obtain ⟨g, hg⟩ : ∃ g, (w.analysisIn List.reverse (.standard 4) {}).run "/work" = .ok g :=
    Analysis.exists_run (a := w.analysisIn List.reverse (.standard 4) {}) (by decide +kernel)
      (by decide +kernel)
  have hmem := mem_relationships_run w List.reverse (.standard 4) {} "/work" g hg
  have hderived : w.Evidence List.reverse order.identity order
      ⟨rush.identity, order.identity, .inheritance⟩ :=
    have hids : w.derivedTypes.get? order.identity = some [rush.identity] := by decide +kernel
    .derivation (by decide +kernel) hids List.mem_cons_self (by decide +kernel)
  have hcalled : w.Evidence List.reverse submit.identity submit
      ⟨order.identity, submit.identity, .methodCall⟩ :=
    have hsites : w.references.get? submit.identity = some [site] := by decide +kernel
    .reference (by decide +kernel) hsites List.mem_cons_self (by decide +kernel) .call
  refine ⟨g, hg, (hmem _).mpr ⟨by decide +kernel, ?_, ?_, order.identity, order,
    by decide +kernel, hderived⟩, (hmem _).mpr ⟨by decide +kernel, ?_, ?_, submit.identity, submit,
    by decide +kernel, hcalled⟩⟩
  all_goals
    rw [Analysis.contains_run hg]
    decide +kernel

end Snapshot

end CodeAtlas
