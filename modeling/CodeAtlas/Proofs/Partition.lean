import CodeAtlas.Analysis.Run
import Mathlib.Data.List.Pairwise
import Mathlib.Data.List.Perm.Basic

/-!
# Features partition the nodes

At every stage of clustering the groups partition the ids of the nodes (`FeatureGroup.Partition`):
each id is in one group, and no group is empty. Seeding establishes this (`Partition.seed`), merging
two groups keeps it (`Partition.merge`), and so it holds when no pair is dense any more, whatever
counts as dense (`Partition.cluster`). Uniting the groups of one name makes it a partition into
named features (`FeatureGroup.NamedPartition`), and a node is assigned to the one that holds it
(`FeatureGroup.NamedPartition.featureOf?_eq_some`).
-/

namespace CodeAtlas

namespace FeatureGroup

/-- Whether no id is in both groups. -/
def Apart (a b : FeatureGroup) : Prop := ∀ id, id ∈ a.members → id ∉ b.members

instance : Std.Symm Apart := ⟨fun _ _ hab id hb ha => hab id ha hb⟩

/-- The groups are not empty and hold the ids, each of which is in one group only. -/
structure Partition (ids : String → Prop) (groups : List FeatureGroup) : Prop where
  covers : ∀ {id}, ids id ↔ ∃ g ∈ groups, id ∈ g.members
  disjoint : groups.Pairwise Apart
  inhabited : ∀ g ∈ groups, ∃ id, id ∈ g.members

namespace Partition

variable {ids : String → Prop} {groups groups' : List FeatureGroup} {a b : FeatureGroup}

/-- The order of the groups does not matter. -/
theorem perm (h : Partition ids groups) (hp : groups.Perm groups') : Partition ids groups' where
  covers := by
    intro id
    rw [h.covers]
    exact ⟨fun ⟨g, hg, hid⟩ => ⟨g, hp.mem_iff.mp hg, hid⟩,
      fun ⟨g, hg, hid⟩ => ⟨g, hp.mem_iff.mpr hg, hid⟩⟩
  disjoint := hp.pairwise h.disjoint fun hab id hb ha => hab id ha hb
  inhabited g hg := h.inhabited g (hp.mem_iff.mpr hg)

/-- An id is in one group only. -/
theorem eq_of_mem (h : Partition ids groups) (ha : a ∈ groups) (hb : b ∈ groups) {id : String}
    (hia : id ∈ a.members) (hib : id ∈ b.members) : a = b := by
  by_cases heq : a = b
  · exact heq
  · exact absurd hib (h.disjoint.forall ha hb heq id hia)

/-- Groups at different places share no id. -/
theorem apart_of_lt (h : Partition ids groups) {i j : Nat} (hij : i < j) (ha : groups[i]? = some a)
    (hb : groups[j]? = some b) : Apart a b := by
  obtain ⟨hi, rfl⟩ := List.getElem?_eq_some_iff.mp ha
  obtain ⟨hj, rfl⟩ := List.getElem?_eq_some_iff.mp hb
  exact List.pairwise_iff_getElem.mp h.disjoint _ _ hi hj hij

/-! ## Merging -/

/-- Two groups may be joined. -/
theorem join (h : Partition ids (a :: b :: groups)) : Partition ids (a.join b :: groups) := by
  have hmem : ∀ id, id ∈ (a.join b).members ↔ id ∈ a.members ∨ id ∈ b.members := fun id =>
    SortedSet.mem_union
  obtain ⟨ha, hrest⟩ := List.pairwise_cons.mp h.disjoint
  obtain ⟨hb, hrest⟩ := List.pairwise_cons.mp hrest
  refine ⟨fun {id} => ?_, List.pairwise_cons.mpr ⟨fun g hg id hid => ?_, hrest⟩, fun g hg => ?_⟩
  · rw [h.covers]
    simp only [List.mem_cons, exists_eq_or_imp, hmem, or_assoc]
  · rcases (hmem id).mp hid with hid | hid
    · exact ha g (List.mem_cons_of_mem b hg) id hid
    · exact hb g hg id hid
  · rcases List.mem_cons.mp hg with rfl | hg
    · obtain ⟨id, hid⟩ := h.inhabited a List.mem_cons_self
      exact ⟨id, (hmem id).mpr (.inl hid)⟩
    · exact h.inhabited g (List.mem_cons_of_mem a (List.mem_cons_of_mem b hg))

end Partition

/-- Merging joins two groups and leaves the others as they are. -/
theorem merge_perm {groups : List FeatureGroup} {p : GroupPair}
    (h : p.first < p.second ∧ p.second < groups.length) :
    ∃ a b rest, groups.Perm (a :: b :: rest) ∧ (merge groups p).Perm (a.join b :: rest) := by
  obtain ⟨hlt, hsecond⟩ := h
  have hfirst : p.first < groups.length := by omega
  have hleft : p.first < (groups.eraseIdx p.second).length := by
    rw [List.length_eraseIdx_of_lt hsecond]
    omega
  have hget : (groups.eraseIdx p.second)[p.first] = groups[p.first] :=
    List.getElem_eraseIdx_of_lt _ hlt
  refine ⟨groups[p.first], groups[p.second], (groups.eraseIdx p.second).eraseIdx p.first, ?_, ?_⟩
  · have hrest : (groups[p.first] :: (groups.eraseIdx p.second).eraseIdx p.first).Perm
        (groups.eraseIdx p.second) := hget ▸ List.getElem_cons_eraseIdx_perm hleft
    have hall := (hrest.cons groups[p.second]).trans (List.getElem_cons_eraseIdx_perm hsecond)
    exact hall.symm.trans (List.Perm.swap _ _ _)
  · rw [merge_eq hfirst hsecond]
    refine List.perm_insertIdx _ _ ?_
    rw [List.length_eraseIdx_of_lt hleft]
    omega

/-- After a merge there are the groups of before and the join of the pair. -/
theorem mem_merge {groups : List FeatureGroup} {p : GroupPair} {g : FeatureGroup}
    (h : p.first < p.second ∧ p.second < groups.length) (hg : g ∈ merge groups p) :
    g ∈ groups ∨ ∃ a b, groups[p.first]? = some a ∧ groups[p.second]? = some b ∧
      g = a.join b := by
  obtain ⟨hlt, hsecond⟩ := h
  have hfirst : p.first < groups.length := by omega
  have hplace : p.first ≤ ((groups.eraseIdx p.second).eraseIdx p.first).length := by
    rw [List.length_eraseIdx_of_lt (by rw [List.length_eraseIdx_of_lt hsecond]; omega),
      List.length_eraseIdx_of_lt hsecond]
    omega
  rw [merge_eq hfirst hsecond, List.mem_insertIdx hplace] at hg
  rcases hg with rfl | hg
  · exact .inr ⟨_, _, List.getElem?_eq_getElem hfirst, List.getElem?_eq_getElem hsecond, rfl⟩
  · exact .inl (List.mem_of_mem_eraseIdx (List.mem_of_mem_eraseIdx hg))

namespace Partition

variable {ids : String → Prop} {groups : List FeatureGroup} {dense : Nat → Nat → Nat → Bool}
  {relationships : List Relationship}

/-- Merging keeps a partition. -/
theorem merge {p : GroupPair} (h : Partition ids groups)
    (hp : p.first < p.second ∧ p.second < groups.length) :
    Partition ids (FeatureGroup.merge groups p) := by
  obtain ⟨a, b, rest, hgroups, hmerged⟩ := merge_perm hp
  exact ((h.perm hgroups).join).perm hmerged.symm

/-- Clustering keeps a partition. -/
theorem cluster (h : Partition ids groups) :
    Partition ids (FeatureGroup.cluster dense relationships groups) := by
  fun_induction FeatureGroup.cluster dense relationships groups with
  | case1 groups hnone => exact h
  | case2 groups p hsome hlt ih => exact ih (h.merge (firstDense?_lt hsome))

/-! ## Seeding -/

/-- The set of a token holds the ids of the nodes with that token. -/
theorem mem_idsByToken {token : Node → String} {nodes : List Node} {t id : String} :
    id ∈ ((idsByToken token nodes).get? t).getD .empty ↔ ∃ n ∈ nodes, token n = t ∧ id = n.id := by
  refine SortedMap.mem_foldl_upsert_empty token (fun n ids => ids.insert n.id)
    (P := fun n id => id = n.id) fun {n s id} => ?_
  rw [SortedSet.mem_insert, or_comm]

/-- A token with a set is the token of a node. -/
theorem contains_idsByToken {token : Node → String} {nodes : List Node} {t : String} :
    (idsByToken token nodes).contains t = true ↔ ∃ n ∈ nodes, token n = t :=
  SortedMap.contains_foldl_upsert_empty token
    fun n (ids : Option (SortedSet String)) => (ids.getD .empty).insert n.id

/-- The groups of one token each partition nodes with different ids. -/
theorem seed (token : Node → String) {nodes : List Node}
    (hids : ∀ n ∈ nodes, ∀ n' ∈ nodes, n.id = n'.id → n = n') :
    Partition (fun id => ∃ n ∈ nodes, n.id = id) (FeatureGroup.seed token nodes) := by
  have hentry : ∀ {t members}, (t, members) ∈ (idsByToken token nodes).entries → ∀ {id},
      id ∈ members ↔ ∃ n ∈ nodes, token n = t ∧ id = n.id := by
    intro t members he id
    rw [← mem_idsByToken, SortedMap.get?_eq_some_iff.mpr he, Option.getD_some]
  refine ⟨fun {id} => ⟨?_, ?_⟩, ?_, fun g hg => ?_⟩
  · rintro ⟨n, hn, rfl⟩
    have hin : n.id ∈ ((idsByToken token nodes).get? (token n)).getD .empty :=
      mem_idsByToken.mpr ⟨n, hn, rfl, rfl⟩
    cases hget : (idsByToken token nodes).get? (token n) with
    | none => rw [hget] at hin; exact absurd hin SortedSet.not_mem_empty
    | some members =>
      rw [hget] at hin
      exact ⟨⟨token n, members⟩,
        List.mem_map_of_mem (f := fun g => (⟨g.1, g.2⟩ : FeatureGroup))
          (SortedMap.get?_eq_some_iff.mp hget), hin⟩
  · rintro ⟨g, hg, hid⟩
    obtain ⟨⟨t, members⟩, he, rfl⟩ := List.mem_map.mp hg
    obtain ⟨n, hn, -, rfl⟩ := (hentry he).mp hid
    exact ⟨n, hn, rfl⟩
  · refine List.pairwise_map.mpr ((idsByToken token nodes).ascending.imp_of_mem ?_)
    rintro ⟨t, members⟩ ⟨t', members'⟩ he he' hlt id hid hid'
    obtain ⟨n, hn, rfl, rfl⟩ := (hentry he).mp hid
    obtain ⟨n', hn', rfl, heq⟩ := (hentry he').mp hid'
    rw [hids n hn n' hn' heq, Std.compare_self] at hlt
    cases hlt
  · obtain ⟨⟨t, members⟩, he, rfl⟩ := List.mem_map.mp hg
    obtain ⟨n, hn, rfl⟩ := contains_idsByToken.mp
      (SortedMap.contains_of_get? (SortedMap.get?_eq_some_iff.mpr he))
    exact ⟨n.id, (hentry he).mpr ⟨n, hn, rfl, rfl⟩⟩

/-! ## Features by name -/

end Partition

/-- The features are not empty and hold the ids, each of which is in one feature only. -/
structure NamedPartition (ids : String → Prop) (features : SortedMap String (SortedSet String)) :
    Prop where
  covers : ∀ {id}, ids id ↔ ∃ name members, features.get? name = some members ∧ id ∈ members
  unique : ∀ {name name' members members' id}, features.get? name = some members →
    features.get? name' = some members' → id ∈ members → id ∈ members' → name = name'
  inhabited : ∀ {name members}, features.get? name = some members → ∃ id, id ∈ members

/-- A feature holds the members of the groups of its name. -/
theorem mem_byName {groups : List FeatureGroup} {name id : String} :
    id ∈ ((byName groups).get? name).getD .empty ↔ ∃ g ∈ groups, g.name = name ∧ id ∈ g.members :=
  SortedMap.mem_foldl_upsert_empty (fun g : FeatureGroup => g.name)
    (fun g ids => ids.union g.members) (P := fun g id => id ∈ g.members) SortedSet.mem_union

/-- A name of a feature is the name of a group. -/
theorem contains_byName {groups : List FeatureGroup} {name : String} :
    (byName groups).contains name = true ↔ ∃ g ∈ groups, g.name = name :=
  SortedMap.contains_foldl_upsert_empty (fun g : FeatureGroup => g.name)
    fun g (ids : Option (SortedSet String)) => (ids.getD .empty).union g.members

/-- Uniting the groups of one name partitions the ids by name. -/
theorem Partition.byName {ids : String → Prop} {groups : List FeatureGroup}
    (h : Partition ids groups) : NamedPartition ids (FeatureGroup.byName groups) := by
  have hmem : ∀ {name members}, (FeatureGroup.byName groups).get? name = some members → ∀ {id},
      id ∈ members ↔ ∃ g ∈ groups, g.name = name ∧ id ∈ g.members := by
    intro name members hget id
    rw [← mem_byName, hget, Option.getD_some]
  refine ⟨fun {id} => ⟨fun hid => ?_, ?_⟩, ?_, fun {name members} hget => ?_⟩
  · obtain ⟨g, hg, hid⟩ := h.covers.mp hid
    obtain ⟨members, hget⟩ := SortedMap.contains_iff.mp (contains_byName.mpr ⟨g, hg, rfl⟩)
    exact ⟨g.name, members, hget, (hmem hget).mpr ⟨g, hg, rfl, hid⟩⟩
  · rintro ⟨name, members, hget, hid⟩
    obtain ⟨g, hg, -, hid⟩ := (hmem hget).mp hid
    exact h.covers.mpr ⟨g, hg, hid⟩
  · intro name name' members members' id hget hget' hid hid'
    obtain ⟨g, hg, rfl, hid⟩ := (hmem hget).mp hid
    obtain ⟨g', hg', rfl, hid'⟩ := (hmem hget').mp hid'
    rw [h.eq_of_mem hg hg' hid hid']
  · obtain ⟨g, hg, rfl⟩ := contains_byName.mp (SortedMap.contains_of_get? hget)
    obtain ⟨id, hid⟩ := h.inhabited g hg
    exact ⟨id, (hmem hget).mpr ⟨g, hg, rfl, hid⟩⟩

end FeatureGroup

/-- Nodes that stand under their ids have different ids. -/
theorem NodeStore.eq_of_id_eq {nodes : NodeStore}
    (hid : ∀ {id n}, nodes.get? id = some n → n.id = id) :
    ∀ n ∈ nodes.values, ∀ n' ∈ nodes.values, n.id = n'.id → n = n' := by
  intro n hn n' hn' heq
  obtain ⟨id, hget⟩ := SortedMap.mem_values.mp hn
  obtain ⟨id', hget'⟩ := SortedMap.mem_values.mp hn'
  obtain rfl : id = id' := by rw [← hid hget, ← hid hget', heq]
  rw [hget] at hget'
  exact Option.some.inj hget'

/-- Whatever counts as dense, the features partition nodes that stand under their ids. -/
theorem namedPartition_detectFeaturesBy {dense : Nat → Nat → Nat → Bool} {rules : TokenRules}
    {nodes : SortedMap String Node} {relationships : List Relationship}
    (hid : ∀ {id n}, nodes.get? id = some n → n.id = id) :
    FeatureGroup.NamedPartition (fun id => ∃ n ∈ nodes.values, n.id = id)
      (detectFeaturesBy dense rules nodes relationships) :=
  (FeatureGroup.Partition.seed _ (NodeStore.eq_of_id_eq hid)).cluster.byName

/-! ## The feature of a node -/

/-- The last feature that holds an id is the one that is named. -/
theorem featureOf?_eq_find? {features : SortedMap String (SortedSet String)} {id : String} :
    featureOf? features id =
      (features.entries.reverse.find? fun f => decide (id ∈ f.2)).map (·.1) := by
  have hfold : ∀ (l : List (String × SortedSet String)) (name : Option String),
      l.foldl (fun name f => if id ∈ f.2 then some f.1 else name) name =
        ((l.reverse.find? fun f => decide (id ∈ f.2)).map (·.1)).or name := by
    intro l
    induction l with
    | nil => exact fun name => rfl
    | cons f rest ih =>
      intro name
      rw [List.foldl_cons, ih, List.reverse_cons, List.find?_append]
      cases rest.reverse.find? fun f => decide (id ∈ f.2) with
      | some f' => rfl
      | none => by_cases hin : id ∈ f.2 <;> simp [hin]
  rw [featureOf?, hfold, Option.or_none]

/-- A node is assigned to the feature that holds it. -/
theorem FeatureGroup.NamedPartition.featureOf?_eq_some {ids : String → Prop}
    {features : SortedMap String (SortedSet String)} (h : NamedPartition ids features)
    {id name : String} : featureOf? features id = some name ↔
      ∃ members, features.get? name = some members ∧ id ∈ members := by
  rw [featureOf?_eq_find?]
  constructor
  · intro hname
    obtain ⟨⟨_, members⟩, hfind, rfl⟩ := Option.map_eq_some_iff.mp hname
    refine ⟨members, SortedMap.get?_eq_some_iff.mpr ?_, ?_⟩
    · exact List.mem_reverse.mp (List.mem_of_find?_eq_some hfind)
    · simpa using List.find?_some hfind
  · rintro ⟨members, hget, hin⟩
    have hsome : (features.entries.reverse.find? fun f => decide (id ∈ f.2)).isSome := by
      rw [List.find?_isSome]
      exact ⟨(name, members), List.mem_reverse.mpr (SortedMap.get?_eq_some_iff.mp hget),
        decide_eq_true hin⟩
    obtain ⟨⟨name', members'⟩, hfind⟩ := Option.isSome_iff_exists.mp hsome
    have hget' : features.get? name' = some members' :=
      SortedMap.get?_eq_some_iff.mpr (List.mem_reverse.mp (List.mem_of_find?_eq_some hfind))
    have hin' : id ∈ members' := by simpa using List.find?_some hfind
    rw [hfind, h.unique hget hget' hin hin']
    rfl

end CodeAtlas
