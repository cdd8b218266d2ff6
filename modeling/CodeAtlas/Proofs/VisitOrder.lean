import CodeAtlas.Proofs.Exploration
import CodeAtlas.Proofs.Offers
import Mathlib.Data.List.Permutation

/-!
# The order in which nodes are visited

One relationship may be put forward twice: at its source, whose declaration mentions the target, and
at its target, to which a place inside the source refers. The first one is stored, with its
location, so the order in which the nodes are visited shows in the locations of such relationships.
`Snapshot.mem_finalizedAfter_iff` says that it shows nowhere else: two orders give the same
relationships up to locations, and one of them has another location exactly if it is contested
(`Snapshot.Contested`) and the two orders visit its ends in different order.

The proof follows one key. Relationships with the key are put forward at its two ends only
(`Snapshot.offer?_of_not_isEnd`), so which one is stored depends on the order of the ends.
-/

namespace CodeAtlas

/-- Every node stands under its id and has a symbol, which stands under its identity. -/
structure Catalogue.Indexed (c : Catalogue) : Prop where
  id_eq : ∀ {id n}, c.nodes.get? id = some n → n.id = id
  identity_eq : ∀ {id s}, c.registry.get? id = some s → s.identity = id
  handle : ∀ {id n}, c.nodes.get? id = some n → ∃ s, c.registry.get? id = some s

/-- The catalogue of an analysis is indexed. -/
theorem Catalogue.MadeFrom.indexed {l : List Declaration} {c : Catalogue} (h : c.MadeFrom l) :
    c.Indexed where
  id_eq := h.id_eq
  identity_eq := h.identity_eq
  handle hn := h.exists_handle (SortedMap.contains_of_get? hn)

/-- The listed nodes with their symbols. -/
def Catalogue.visits (c : Catalogue) (ids : List String) : List (Node × Symbol) :=
  ids.filterMap fun id => do
    let node ← c.nodes.get? id
    let s ← c.registry.get? id
    some (node, s)

namespace RelationshipKey

/-- Whether one end has the id. -/
def isEnd (k : RelationshipKey) (id : String) : Bool := id == k.sourceId || id == k.targetId

/-- The relationship with the key that is found at a location. -/
def foundAt (k : RelationshipKey) (l : Option Location) : Relationship :=
  { sourceId := k.sourceId, targetId := k.targetId, kind := k.kind, location := l }

end RelationshipKey

/-- The relationship without its location. -/
def Relationship.withoutLocation (r : Relationship) : Relationship := { r with location := none }

/-- The symbol of the source mentions the target in its declaration. -/
def Catalogue.Mentioned (c : Catalogue) (k : RelationshipKey) : Prop :=
  ∃ s t, c.registry.get? k.sourceId = some s ∧ s.Mentions t k.kind ∧ t.identity = k.targetId

namespace Snapshot

variable (w : Snapshot) (order : List Symbol → List Symbol) (c : Catalogue) (k : RelationshipKey)

/-- Whether a place that refers to the target lies in the source and uses the target in the way of
the key. -/
def leads (site : ReferenceSite) : Bool :=
  decide (site.context.Implies k.kind) &&
    (w.enclosing? order site).any (·.identity == k.sourceId)

/-- The first place in the source that refers to the target, if the look-up for it answers. -/
def firstSite? : Option ReferenceSite :=
  if k.targetId ∈ w.faults.failLookups then none
  else ((w.references.get? k.targetId).getD []).find? (w.leads order k)

/-- The declaration of the source mentions the target, and elsewhere a place in the source refers
to it. -/
def Contested : Prop :=
  c.Mentioned k ∧ ∃ n site, c.nodes.get? k.sourceId = some n ∧ w.firstSite? order k = some site ∧
    n.location ≠ some site.location

/-- The first relationship with a key that is put forward at the node with an id. -/
def offer? (id : String) : Option Relationship :=
  (w.offersAt c order id).find? fun r => decide (RelationshipStore.Fits k r)

/-- The relationships that are there after the nodes of a catalogue have been visited one after the
other, in an order. -/
def finalizedAfter (config : Config) (schedule : Schedule) (ids : List String) :
    List Relationship :=
  finalizeRelationships c.nodes ((w.analysisIn order config schedule).collectEach
    { catalogue := c } (c.visits ids)).relationships.values

/-- The relationships that are stored when those at the listed nodes are put forward. -/
def collected (ids : List String) : RelationshipStore :=
  (RelationshipStore.addAll .empty (ids.flatMap (w.offersAt c order))).2

variable {w order c k} {ids ids' : List String} {id : String} {r : Relationship}

/-- What a declaration mentions and a place refers to in one way can only be associated. -/
theorem Contested.kind_eq (h : w.Contested order c k) : k.kind = .association := by
  obtain ⟨⟨s, t, -, hmention, -⟩, n, site, -, hsite, -⟩ := h
  unfold firstSite? at hsite
  split at hsite
  · cases hsite
  · have hleads := List.find?_some hsite
    rw [leads, Bool.and_eq_true, decide_eq_true_eq] at hleads
    -- neither calls nor accesses are ever mentioned
    generalize site.context = context at hleads
    generalize k.kind = kind at hmention hleads ⊢
    cases hleads.1 with
    | call => cases hmention
    | access => cases hmention
    | unknown => rfl

open RelationshipStore (Fits)

/-! ## Where relationships come from -/

/-- A relationship that is found at a location has its key. -/
theorem fits_foundAt {k' : RelationshipKey} {l : Option Location} :
    Fits k (k'.foundAt l) ↔ k' = k ∧ k.sourceId ≠ k.targetId := by
  refine and_congr_right fun hk => ?_
  rw [← hk]
  rfl

/-- What a declaration implies leads from its node. -/
theorem structuralOffer?_eq_some {node : Node} {target : TypeRef × RelationKind} :
    structuralOffer? c node target = some r ↔ c.nodes.contains target.1.identity = true ∧
      r = RelationshipKey.foundAt ⟨node.id, target.1.identity, target.2⟩ node.location := by
  rw [structuralOffer?, Option.map_eq_some_iff, SortedMap.contains_iff]
  exact ⟨fun ⟨n, hn, hr⟩ => ⟨⟨n, hn⟩, hr.symm⟩, fun ⟨⟨n, hn⟩, hr⟩ => ⟨n, hn, hr.symm⟩⟩

/-- What implements a node or derives from it leads to the node. -/
theorem sourceOffer?_eq_some {node : Node} {kind : RelationKind} {source : Symbol} :
    sourceOffer? c node kind source = some r ↔ ∃ n, c.nodes.get? source.identity = some n ∧
      r = RelationshipKey.foundAt ⟨source.identity, node.id, kind⟩ n.location := by
  rw [sourceOffer?, Option.map_eq_some_iff]
  exact ⟨fun ⟨n, hn, hr⟩ => ⟨n, hn, hr.symm⟩, fun ⟨n, hn, hr⟩ => ⟨n, hn, hr.symm⟩⟩

/-- So does what holds a referring place. -/
theorem referenceOffer?_eq_some {node : Node} {site : ReferenceSite} :
    w.referenceOffer? c node order site = some r ↔
      ∃ source, w.enclosing? order site = some source ∧ c.nodes.contains source.identity = true ∧
        r = RelationshipKey.foundAt ⟨source.identity, node.id, site.context.relationKind⟩
          (some site.location) := by
  rw [referenceOffer?, Option.bind_eq_some_iff]
  refine exists_congr fun source => and_congr_right fun _ => ?_
  rw [Option.map_eq_some_iff, SortedMap.contains_iff]
  exact ⟨fun ⟨n, hn, hr⟩ => ⟨⟨n, hn⟩, hr.symm⟩, fun ⟨⟨n, hn⟩, hr⟩ => ⟨n, hn, hr.symm⟩⟩

/-- Relationships for which nothing but the identities of their sources is recorded have the
location of the source. -/
theorem mem_sourceOffers {node : Node} {s : Symbol}
    (hr : r ∈ w.implementationOffers c node s ++ w.derivedTypeOffers c node s) :
    ∃ id kind n, c.nodes.get? id = some n ∧
      r = RelationshipKey.foundAt ⟨id, node.id, kind⟩ n.location := by
  rcases List.mem_append.mp hr with hr | hr
  · unfold implementationOffers at hr
    split at hr
    · cases hr
    · obtain ⟨source, -, hr⟩ := List.mem_filterMap.mp hr
      obtain ⟨n, hn, rfl⟩ := sourceOffer?_eq_some.mp hr
      exact ⟨_, _, n, hn, rfl⟩
  · unfold derivedTypeOffers at hr
    split at hr
    · obtain ⟨source, -, hr⟩ := List.mem_filterMap.mp hr
      obtain ⟨n, hn, rfl⟩ := sourceOffer?_eq_some.mp hr
      exact ⟨_, _, n, hn, rfl⟩
    · cases hr

/-- All that the resolver is asked for leads to the node from another one. -/
theorem mem_resolvedOffers {node : Node} {s : Symbol} (hr : r ∈ w.resolvedOffers c node order s) :
    ∃ id kind l, c.nodes.contains id = true ∧
      r = RelationshipKey.foundAt ⟨id, node.id, kind⟩ l := by
  unfold resolvedOffers at hr
  split at hr
  · cases hr
  · rcases List.mem_append.mp hr with hr | hr
    · obtain ⟨site, -, hr⟩ := List.mem_filterMap.mp hr
      obtain ⟨source, -, hin, rfl⟩ := referenceOffer?_eq_some.mp hr
      exact ⟨_, _, _, hin, rfl⟩
    · obtain ⟨id, kind, n, hn, rfl⟩ := mem_sourceOffers hr
      exact ⟨id, kind, _, SortedMap.contains_of_get? hn, rfl⟩

/-- Relationships are put forward at nodes, which they leave or reach. -/
theorem mem_offersAt (hr : r ∈ w.offersAt c order id) :
    ∃ node s, c.nodes.get? id = some node ∧ c.registry.get? id = some s ∧
      ((∃ target ∈ s.structuralTargets, structuralOffer? c node target = some r) ∨
        r ∈ w.resolvedOffers c node order s) := by
  unfold offersAt at hr
  split at hr
  · rename_i node s hn hs
    refine ⟨node, s, hn, hs, ?_⟩
    rwa [offers, List.mem_append, List.mem_filterMap] at hr
  · cases hr

/-- They are put forward under a key at one of its ends, which are nodes, and have no flags yet. -/
theorem ends_of_mem_offersAt (hc : c.Indexed) (hr : r ∈ w.offersAt c order id) :
    r.key.isEnd id = true ∧ c.nodes.contains r.sourceId = true ∧
      c.nodes.contains r.targetId = true ∧ r = r.key.foundAt r.location := by
  obtain ⟨node, s, hn, -, hoffer⟩ := mem_offersAt hr
  have hin := SortedMap.contains_of_get? hn
  obtain rfl := hc.id_eq hn
  rcases hoffer with ⟨target, -, hstructural⟩ | hresolved
  · obtain ⟨hother, rfl⟩ := structuralOffer?_eq_some.mp hstructural
    have hend : (node.id == node.id) = true := beq_self_eq_true _
    exact ⟨Bool.or_eq_true_iff.mpr (.inl hend), hin, hother, rfl⟩
  · obtain ⟨other, kind, l, hother, rfl⟩ := mem_resolvedOffers hresolved
    have hend : (node.id == node.id) = true := beq_self_eq_true _
    exact ⟨Bool.or_eq_true_iff.mpr (.inr hend), hother, hin, rfl⟩

/-! ## One key -/

/-- What is put forward under a key connects its ends, which are two nodes. -/
theorem mem_of_offer? (hr : w.offer? order c k id = some r) :
    r ∈ w.offersAt c order id ∧ Fits k r := by
  refine ⟨List.mem_of_find?_eq_some hr, ?_⟩
  simpa using List.find?_some hr

/-- Nothing is put forward under a key but at its ends. -/
theorem offer?_of_not_isEnd (hc : c.Indexed) (hid : k.isEnd id = false) :
    w.offer? order c k id = none := by
  cases hr : w.offer? order c k id with
  | none => rfl
  | some r =>
    obtain ⟨hmem, rfl, -⟩ := mem_of_offer? hr
    rw [(ends_of_mem_offersAt hc hmem).1] at hid
    cases hid

/-- At the source a relationship is put forward if the declaration mentions the target, with the
location of the declaration. -/
theorem offer?_source_eq_some (hc : c.Indexed) (hne : k.sourceId ≠ k.targetId) :
    w.offer? order c k k.sourceId = some r ↔ c.Mentioned k ∧ c.nodes.contains k.targetId = true ∧
      ∃ n, c.nodes.get? k.sourceId = some n ∧ r = k.foundAt n.location := by
  have hsound : ∀ {r}, w.offer? order c k k.sourceId = some r → c.Mentioned k ∧
      c.nodes.contains k.targetId = true ∧
      ∃ n, c.nodes.get? k.sourceId = some n ∧ r = k.foundAt n.location := by
    intro r hr
    obtain ⟨hmem, hkey, -⟩ := mem_of_offer? hr
    obtain ⟨node, s, hn, hs, ⟨target, htarget, hr⟩ | hr⟩ := mem_offersAt hmem
    · obtain ⟨hin, rfl⟩ := structuralOffer?_eq_some.mp hr
      subst hkey
      have hmention := Symbol.mentions_of_mem_structuralTargets htarget
      exact ⟨⟨s, target.1, hs, hmention, rfl⟩, hin, node, hn, rfl⟩
    · obtain ⟨other, kind, l, -, rfl⟩ := mem_resolvedOffers hr
      subst hkey
      exact absurd (hc.id_eq hn).symm hne
  refine ⟨hsound, ?_⟩
  rintro ⟨⟨s, t, hs, hmention, ht⟩, hin, n, hn, rfl⟩
  have hoffer : structuralOffer? c n (t, k.kind) = some (k.foundAt n.location) := by
    refine structuralOffer?_eq_some.mpr ⟨ht ▸ hin, ?_⟩
    rw [hc.id_eq hn, ht]
  have hmem : k.foundAt n.location ∈ w.offersAt c order k.sourceId := by
    rw [offersAt, hn, hs]
    exact List.mem_append_left _
      (List.mem_filterMap.mpr ⟨_, hmention.mem_structuralTargets, hoffer⟩)
  obtain ⟨r, hr⟩ : ∃ r, w.offer? order c k k.sourceId = some r :=
    Option.isSome_iff_exists.mp (List.find?_isSome.mpr
      ⟨_, hmem, decide_eq_true (fits_foundAt.mpr ⟨rfl, hne⟩)⟩)
  obtain ⟨-, -, n', hn', rfl⟩ := hsound hr
  rw [hn] at hn'
  cases hn'
  exact hr

/-- Among the relationships from referring places the first one under a key comes from the first
place that leads from its source. -/
theorem find?_referenceOffers {node : Node} {s : Symbol} (hnode : node.id = k.targetId)
    (hs : s.identity = k.targetId) (hne : k.sourceId ≠ k.targetId)
    (hin : c.nodes.contains k.sourceId = true) :
    (w.referenceOffers c node order s).find? (fun r => decide (Fits k r)) =
      (((w.references.get? k.targetId).getD []).find? (w.leads order k)).map fun site =>
        k.foundAt (some site.location) := by
  -- a place that leads from the source is one whose relationship has the key
  have hleads : ∀ site r, w.referenceOffer? c node order site = some r ∧ Fits k r ↔
      w.leads order k site = true ∧ r = k.foundAt (some site.location) := by
    intro site r
    rw [referenceOffer?_eq_some, leads, Bool.and_eq_true, decide_eq_true_eq,
      ReferenceContext.implies_iff, Option.any_eq_true]
    constructor
    · rintro ⟨⟨source, hsource, -, rfl⟩, hfits⟩
      obtain ⟨rfl, -⟩ := fits_foundAt.mp hfits
      exact ⟨⟨rfl, source, hsource, beq_self_eq_true _⟩, rfl⟩
    · rintro ⟨⟨hkind, source, hsource, hid⟩, rfl⟩
      have hid : source.identity = k.sourceId := by simpa using hid
      refine ⟨⟨source, hsource, hid ▸ hin, ?_⟩, fits_foundAt.mpr ⟨rfl, hne⟩⟩
      rw [hid, hnode, ← hkind]
  have hany : ∀ site, ((w.referenceOffer? c node order site).any fun r => decide (Fits k r)) =
      w.leads order k site := by
    intro site
    rw [Bool.eq_iff_iff, Option.any_eq_true]
    simp only [decide_eq_true_eq, hleads, exists_and_left, exists_eq, and_true]
  rw [referenceOffers, List.find?_filterMap, hs]
  simp only [hany]
  cases hsite : ((w.references.get? k.targetId).getD []).find? (w.leads order k) with
  | none => rfl
  | some site => exact ((hleads site _).mpr ⟨List.find?_some hsite, rfl⟩).1

/-- At the target a relationship is put forward with the first place in the source that refers to
the target, and otherwise, if at all, with the location of the source. -/
theorem offer?_target (hc : c.Indexed) (hne : k.sourceId ≠ k.targetId) {n : Node}
    (hn : c.nodes.get? k.sourceId = some n) (ht : c.nodes.contains k.targetId = true) :
    (∀ site, w.firstSite? order k = some site →
      w.offer? order c k k.targetId = some (k.foundAt (some site.location))) ∧
    (w.firstSite? order k = none →
      ∀ r, w.offer? order c k k.targetId = some r → r = k.foundAt n.location) := by
  obtain ⟨node, hnode⟩ := SortedMap.contains_iff.mp ht
  obtain ⟨s, hs⟩ := hc.handle hnode
  have hid := hc.id_eq hnode
  have hidentity := hc.identity_eq hs
  have hstructural : (s.structuralTargets.filterMap (structuralOffer? c node)).find?
      (fun r => decide (Fits k r)) = none := by
    refine List.find?_eq_none.mpr fun r hr hfits => ?_
    obtain ⟨target, -, hr⟩ := List.mem_filterMap.mp hr
    obtain ⟨-, rfl⟩ := structuralOffer?_eq_some.mp hr
    obtain ⟨rfl, -⟩ := fits_foundAt.mp (of_decide_eq_true hfits)
    exact hne hid
  rw [offer?, offersAt, hnode, hs]
  dsimp only
  rw [offers, List.find?_append, hstructural, Option.none_or, firstSite?, resolvedOffers, hidentity]
  split
  · refine ⟨fun site hsite => ?_, fun _ r hr => ?_⟩
    · cases hsite
    · rw [List.find?_nil] at hr
      cases hr
  · rw [List.find?_append,
      find?_referenceOffers hid hidentity hne (SortedMap.contains_of_get? hn)]
    refine ⟨fun site hsite => ?_, fun hnone r hr => ?_⟩
    · rw [hsite]
      rfl
    · rw [hnone, Option.map_none, Option.none_or] at hr
      have hfits : Fits k r := by simpa using List.find?_some hr
      obtain ⟨id, kind, n', hn', rfl⟩ := mem_sourceOffers (List.mem_of_find?_eq_some hr)
      obtain ⟨rfl, -⟩ := fits_foundAt.mp hfits
      rw [hn] at hn'
      cases hn'
      rfl

/-- So it matters which end comes first exactly if the relationship is contested. -/
theorem contested_iff (hc : c.Indexed) (hne : k.sourceId ≠ k.targetId)
    (hs : c.nodes.contains k.sourceId = true) (ht : c.nodes.contains k.targetId = true) :
    w.Contested order c k ↔ (w.offer? order c k k.sourceId).or (w.offer? order c k k.targetId) ≠
      (w.offer? order c k k.targetId).or (w.offer? order c k k.sourceId) := by
  obtain ⟨n, hn⟩ := SortedMap.contains_iff.mp hs
  obtain ⟨htarget, hotherwise⟩ := offer?_target (w := w) hc hne hn ht
  constructor
  · rintro ⟨hmention, n', site, hn', hsite, hlocation⟩
    rw [hn] at hn'
    cases hn'
    rw [(offer?_source_eq_some hc hne).mpr ⟨hmention, ht, n, hn, rfl⟩, htarget site hsite,
      Option.some_or, Option.some_or]
    exact fun h => hlocation (congrArg Relationship.location (Option.some.inj h))
  · intro hdiffer
    cases hsource : w.offer? order c k k.sourceId with
    | none => rw [hsource, Option.none_or, Option.or_none] at hdiffer; exact absurd rfl hdiffer
    | some r =>
      obtain ⟨hmention, -, n', hn', rfl⟩ := (offer?_source_eq_some hc hne).mp hsource
      rw [hn] at hn'
      cases hn'
      refine ⟨hmention, n, ?_⟩
      cases hr' : w.offer? order c k k.targetId with
      | none =>
        rw [hsource, hr', Option.none_or, Option.or_none] at hdiffer
        exact absurd rfl hdiffer
      | some r' =>
        rw [hsource, hr', Option.some_or, Option.some_or] at hdiffer
        cases hsite : w.firstSite? order k with
        | none => exact absurd (congrArg some (hotherwise hsite r' hr').symm) hdiffer
        | some site =>
          refine ⟨site, hn, rfl, fun hlocation => hdiffer ?_⟩
          rw [← hr', htarget site hsite, hlocation]

/-! ## All nodes -/

/-- Under a key stands what has been put forward first. -/
theorem get?_collected :
    SortedMap.get? (w.collected order c ids) k = ids.findSome? (w.offer? order c k) := by
  rw [collected, RelationshipStore.get?_addAll, List.find?_flatMap]
  exact Option.none_or

/-- All other nodes may be left out. -/
theorem findSome?_filter_isEnd (hc : c.Indexed) :
    (ids.filter k.isEnd).findSome? (w.offer? order c k) = ids.findSome? (w.offer? order c k) := by
  induction ids with
  | nil => rfl
  | cons id rest ih =>
    cases hid : k.isEnd id with
    | false =>
      rw [List.filter_cons_of_neg (by simp [hid]), List.findSome?_cons, offer?_of_not_isEnd hc hid,
        ih]
    | true => rw [List.filter_cons_of_pos hid, List.findSome?_cons, List.findSome?_cons, ih]

/-- One end comes before the other. -/
theorem filter_isEnd (h : ids.Perm c.nodes.keyList) (hne : k.sourceId ≠ k.targetId)
    (hs : c.nodes.contains k.sourceId = true) (ht : c.nodes.contains k.targetId = true) :
    ids.filter k.isEnd = [k.sourceId, k.targetId] ∨
      ids.filter k.isEnd = [k.targetId, k.sourceId] := by
  have hnodup : ids.Nodup := h.nodup_iff.mpr SortedMap.nodup_keyList
  refine List.perm_pair.mp ((List.perm_ext_iff_of_nodup (hnodup.filter _) (by simpa)).mpr ?_)
  intro id
  rw [List.mem_filter, h.mem_iff, SortedMap.mem_keyList, RelationshipKey.isEnd]
  simp only [Bool.or_eq_true, beq_iff_eq, List.mem_cons, List.not_mem_nil, or_false]
  refine ⟨And.right, fun hid => ⟨?_, hid⟩⟩
  rcases hid with rfl | rfl
  · exact hs
  · exact ht

/-- What is stored under a key was put forward at some node. -/
theorem exists_of_get?_collected (hr : SortedMap.get? (w.collected order c ids) k = some r) :
    ∃ id ∈ ids, r ∈ w.offersAt c order id ∧ Fits k r := by
  rw [get?_collected] at hr
  obtain ⟨id, hid, hr⟩ := List.exists_of_findSome?_eq_some hr
  exact ⟨id, hid, mem_of_offer? hr⟩

/-- Another order of the nodes leaves the same relationship under a key, unless it is contested and
its ends come in another order. -/
theorem get?_collected_iff (hc : c.Indexed) (h : ids.Perm c.nodes.keyList)
    (h' : ids'.Perm c.nodes.keyList) (hr : SortedMap.get? (w.collected order c ids) k = some r) :
    SortedMap.get? (w.collected order c ids') k = some r ↔
      ¬ (w.Contested order c k ∧ ids.filter k.isEnd ≠ ids'.filter k.isEnd) := by
  obtain ⟨id, -, hmem, rfl, hne⟩ := exists_of_get?_collected hr
  obtain ⟨-, hs, ht, -⟩ := ends_of_mem_offersAt hc hmem
  rw [get?_collected, ← findSome?_filter_isEnd hc] at hr ⊢
  rw [contested_iff hc hne hs ht]
  have hpair : ∀ a b, [a, b].findSome? (w.offer? order c r.key) =
      (w.offer? order c r.key a).or (w.offer? order c r.key b) := by
    intro a b
    rw [List.findSome?_cons, List.findSome?_singleton]
    cases w.offer? order c r.key a <;> rfl
  have hswap : [r.key.sourceId, r.key.targetId] ≠ [r.key.targetId, r.key.sourceId] :=
    fun heq => hne (List.cons.inj heq).1
  rcases filter_isEnd (k := r.key) h hne hs ht with hids | hids <;>
    rcases filter_isEnd (k := r.key) h' hne hs ht with hids' | hids' <;>
    rw [hids, hpair] at hr <;> rw [hids, hids', hpair]
  · exact iff_of_true hr fun hdiffer => hdiffer.2 rfl
  · rw [← hr, and_iff_left hswap, not_ne_iff, eq_comm]
  · rw [← hr, and_iff_left hswap.symm, not_ne_iff]
  · exact iff_of_true hr fun hdiffer => hdiffer.2 rfl

/-- Two orders leave relationships under the same keys, and apart from the location a relationship
is determined by its key. -/
theorem mapValues_collected (hc : c.Indexed) (h : ids.Perm ids') :
    ((w.collected order c ids).mapValues fun _ r => r.withoutLocation) =
      (w.collected order c ids').mapValues fun _ r => r.withoutLocation := by
  have hfound : ∀ k ids, (SortedMap.get? (w.collected order c ids) k).map (·.withoutLocation) =
      if (ids.findSome? (w.offer? order c k)).isSome then some (k.foundAt none) else none := by
    intro k ids
    rw [← get?_collected]
    cases hr : SortedMap.get? (w.collected order c ids) k with
    | none => rfl
    | some r =>
      obtain ⟨id, -, hmem, rfl, -⟩ := exists_of_get?_collected hr
      exact congrArg (fun r : Relationship => some r.withoutLocation)
        (ends_of_mem_offersAt hc hmem).2.2.2
  refine SortedMap.ext_get? fun k => ?_
  have hsome : (ids.findSome? (w.offer? order c k)).isSome =
      (ids'.findSome? (w.offer? order c k)).isSome := by
    rw [Bool.eq_iff_iff, List.findSome?_isSome_iff, List.findSome?_isSome_iff]
    simp only [h.mem_iff]
  rw [SortedMap.get?_mapValues, SortedMap.get?_mapValues, hfound, hfound, hsome]

/-! ## The finalized relationships -/

/-- The visits store all that is put forward at the nodes, one after the other. -/
theorem relationships_collectEach {a : Analysis} (hcancel : ∀ asked, a.cancelsAfter asked = false)
    {p : Progress} (hp : p.cancelled = false) {visits : List (Node × Symbol)} :
    (a.collectEach p visits).relationships = (p.relationships.addAll (visits.flatMap fun visit =>
      (a.resolver.collect p.catalogue visit.1 visit.2).offers)).2 := by
  induction visits generalizing p with
  | nil => rfl
  | cons visit rest ih =>
    rw [Analysis.collectEach, List.foldl_cons, Analysis.outcome_collect hcancel hp,
      List.flatMap_cons, RelationshipStore.addAll_append]
    exact ih hp

/-- The visits leave what is collected. -/
theorem finalizedAfter_eq {config : Config} {schedule : Schedule} :
    w.finalizedAfter order c config schedule ids =
      finalizeRelationships c.nodes (w.collected order c ids).values := by
  have hoffers : ∀ ids, ((c.visits ids).flatMap fun visit =>
      ((w.resolverIn order).collect c visit.1 visit.2).offers) =
        ids.flatMap (w.offersAt c order) := by
    intro ids
    induction ids with
    | nil => rfl
    | cons id rest ih =>
      have hvisits : c.visits (id :: rest) = c.visits [id] ++ c.visits rest := by
        rw [Catalogue.visits, Catalogue.visits, Catalogue.visits, ← List.filterMap_append]
        rfl
      rw [hvisits, List.flatMap_append, ih, List.flatMap_cons, offersAt, Catalogue.visits]
      refine congrArg (· ++ _) ?_
      cases hn : c.nodes.get? id with
      | none => simp [hn]
      | some node =>
        cases hs : c.registry.get? id with
        | none => simp [hn, hs]
        | some s => simp [hn, hs, offers_collect]
  rw [finalizedAfter, relationships_collectEach (fun _ => rfl) rfl]
  exact congrArg (fun l => finalizeRelationships c.nodes
    (RelationshipStore.addAll .empty l).2.values) (hoffers ids)

/-- Stored relationships are finalized one by one. -/
theorem mem_finalizeRelationships {nodes : NodeStore} {s : RelationshipStore} :
    r ∈ finalizeRelationships nodes s.values ↔
      ∃ k r', SortedMap.get? s k = some r' ∧ r'.finalize? nodes = some r := by
  rw [finalizeRelationships, List.mem_mergeSort, List.mem_filterMap]
  simp only [SortedMap.mem_values]
  exact ⟨fun ⟨r', ⟨k, hk⟩, hr⟩ => ⟨k, r', hk, hr⟩, fun ⟨k, r', hk, hr⟩ => ⟨r', ⟨k, hk⟩, hr⟩⟩

/-- The flags do not depend on the location. -/
theorem finalize?_withoutLocation {nodes : NodeStore} :
    r.withoutLocation.finalize? nodes = (r.finalize? nodes).map (·.withoutLocation) := by
  unfold Relationship.finalize?
  change (nodes.get? r.sourceId >>= _) = _
  cases nodes.get? r.sourceId with
  | none => rfl
  | some source =>
    change (nodes.get? r.targetId >>= _) = _
    cases nodes.get? r.targetId <;> rfl

/-- Finalizing changes nothing but the flags. -/
theorem foundAt_of_finalize? {nodes : NodeStore} {l : Option Location}
    (h : (k.foundAt l).finalize? nodes = some r) : r.key.foundAt r.location = k.foundAt l := by
  simp only [Relationship.finalize?, Option.bind_eq_bind, Option.bind_eq_some_iff] at h
  obtain ⟨source, -, target, -, h⟩ := h
  cases h
  rfl

/-- Without their locations the finalized relationships are those of the store without locations. -/
theorem map_withoutLocation_finalize {nodes : NodeStore} {s : RelationshipStore} :
    (finalizeRelationships nodes s.values).map (·.withoutLocation) =
      finalizeRelationships nodes (s.mapValues fun _ r => r.withoutLocation).values := by
  have hsort : ∀ l : List Relationship,
      (l.mergeSort fun a b => (compare a.key b.key).isLE).map (·.withoutLocation) =
        (l.map (·.withoutLocation)).mergeSort fun a b => (compare a.key b.key).isLE :=
    fun l => List.map_mergeSort fun _ _ _ _ => rfl
  have hvalues : (s.mapValues fun _ r => r.withoutLocation).values =
      s.values.map (·.withoutLocation) := by
    rw [SortedMap.values, SortedMap.values, SortedMap.mapValues, List.map_map, List.map_map]
    rfl
  rw [finalizeRelationships, hsort, List.map_filterMap, finalizeRelationships, hvalues,
    List.filterMap_map]
  exact congrArg (fun f => (s.values.filterMap f).mergeSort _)
    (funext fun r => finalize?_withoutLocation.symm)

/-- However the nodes are visited, the same relationships are found, up to their locations. A
location depends on the order exactly if the relationship is contested and its ends come in another
order; then it is an association. -/
theorem mem_finalizedAfter_iff (w : Snapshot) (order : List Symbol → List Symbol)
    (config : Config) (schedule : Schedule) (c : Catalogue) (hc : c.Indexed)
    (ids ids' : List String) (h : ids.Perm c.nodes.keyList) (h' : ids'.Perm c.nodes.keyList) :
    (w.finalizedAfter order c config schedule ids).map (·.withoutLocation) =
        (w.finalizedAfter order c config schedule ids').map (·.withoutLocation) ∧
      ∀ r ∈ w.finalizedAfter order c config schedule ids,
        (r ∈ w.finalizedAfter order c config schedule ids' ↔
          ¬ (w.Contested order c r.key ∧ ids.filter r.key.isEnd ≠ ids'.filter r.key.isEnd)) ∧
        (w.Contested order c r.key → r.kind = .association) := by
  rw [finalizedAfter_eq, finalizedAfter_eq]
  refine ⟨?_, fun r hr => ⟨?_, Contested.kind_eq⟩⟩
  · rw [map_withoutLocation_finalize, map_withoutLocation_finalize,
      mapValues_collected hc (h.trans h'.symm)]
  · -- a finalized relationship tells which one was stored
    have hstored : ∀ {ids k r'}, SortedMap.get? (w.collected order c ids) k = some r' →
        r'.finalize? c.nodes = some r → r.key = k ∧ r' = r.key.foundAt r.location := by
      intro ids k r' hr' hfinal
      obtain ⟨id, -, hmem, rfl, -⟩ := exists_of_get?_collected hr'
      have hform := (ends_of_mem_offersAt hc hmem).2.2.2
      rw [hform] at hfinal
      have heq := foundAt_of_finalize? hfinal
      exact ⟨(congrArg Relationship.key heq :), hform.trans heq.symm⟩
    obtain ⟨k, r', hr', hfinal⟩ := mem_finalizeRelationships.mp hr
    obtain ⟨rfl, rfl⟩ := hstored hr' hfinal
    rw [← get?_collected_iff hc h h' hr', mem_finalizeRelationships]
    refine ⟨fun ⟨k, r'', hr'', hfinal'⟩ => ?_, fun hr'' => ⟨_, _, hr'', hfinal⟩⟩
    obtain ⟨rfl, rfl⟩ := hstored hr'' hfinal'
    exact hr''

/-- A method whose parameter has the type to which a later line of the method refers. Which symbol
holds that line is not recorded. -/
theorem mem_finalizedAfter_iff_parameter :
    let order := Symbol.typeIn "Shop" "Shop" "Order" .classType
    let cart := Symbol.typeIn "Shop" "Shop" "Cart" .classType
    let submit := { (cart.memberOf .method "Submit").withParameter "order" order.typeRef with
      location := some (.lines "cart.cs" 5 9) }
    let shop := Project.named "shop" "Shop"
    let w := (Snapshot.empty.withProject shop [order, submit]).withReference order
      ⟨.lines "cart.cs" 7 7, none, .unknown⟩
    let c := (w.analysis (.standard 4) {}).catalogueOf [shop]
    w.Contested List.reverse c ⟨submit.identity, order.identity, .association⟩ := by
  intro order cart submit shop w c
  have hc : c.Indexed := Analysis.madeFrom_catalogueOf.indexed
  obtain ⟨-, hmem⟩ := mem_finalizedAfter_iff w List.reverse (.standard 4) {} c hc
    [order.identity, submit.identity] [submit.identity, order.identity] (by decide +kernel)
    (by decide +kernel)
  by_contra hfree
  have hin : RelationshipKey.foundAt ⟨submit.identity, order.identity, .association⟩
      (some (.lines "cart.cs" 7 7)) ∈
        w.finalizedAfter List.reverse c (.standard 4) {} [submit.identity, order.identity] :=
    (hmem _ (by decide +kernel)).1.mpr fun h => hfree h.1
  revert hin
  decide +kernel

/-- There the relationship to the parameter's type is found on the later line if the type is visited
first, and at the declaration of the method otherwise. -/
theorem finalizedAfter_depends_on_order :
    let order := Symbol.typeIn "Shop" "Shop" "Order" .classType
    let cart := Symbol.typeIn "Shop" "Shop" "Cart" .classType
    let submit := { (cart.memberOf .method "Submit").withParameter "order" order.typeRef with
      location := some (.lines "cart.cs" 5 9) }
    let shop := Project.named "shop" "Shop"
    let w := (Snapshot.empty.withProject shop [order, submit]).withReference order
      ⟨.lines "cart.cs" 7 7, none, .unknown⟩
    let c := (w.analysis (.standard 4) {}).catalogueOf [shop]
    c.Indexed ∧ [order.identity, submit.identity].Perm c.nodes.keyList ∧
      [submit.identity, order.identity].Perm c.nodes.keyList ∧
      w.finalizedAfter List.reverse c (.standard 4) {} [order.identity, submit.identity] =
        [⟨submit.identity, order.identity, .association, some (.lines "cart.cs" 7 7), false,
          false⟩] ∧
      w.finalizedAfter List.reverse c (.standard 4) {} [submit.identity, order.identity] =
        [⟨submit.identity, order.identity, .association, some (.lines "cart.cs" 5 9), false,
          false⟩] ∧
      w.finalizedAfter List.reverse c (.standard 4) {} [order.identity, submit.identity] ≠
        w.finalizedAfter List.reverse c (.standard 4) {} [submit.identity, order.identity] := by
  intro order cart submit shop w c
  have htargetFirst : w.finalizedAfter List.reverse c (.standard 4) {}
      [order.identity, submit.identity] =
      [⟨submit.identity, order.identity, .association, some (.lines "cart.cs" 7 7), false,
        false⟩] := by decide +kernel
  have hsourceFirst : w.finalizedAfter List.reverse c (.standard 4) {}
      [submit.identity, order.identity] =
      [⟨submit.identity, order.identity, .association, some (.lines "cart.cs" 5 9), false,
        false⟩] := by decide +kernel
  have hc : c.Indexed := Analysis.madeFrom_catalogueOf.indexed
  refine ⟨hc, by decide +kernel, by decide +kernel, htargetFirst, hsourceFirst, ?_⟩
  rw [htargetFirst, hsourceFirst]
  decide

end Snapshot

end CodeAtlas
