import CodeAtlas.Proofs.Counts
import CodeAtlas.Proofs.Pairwise

/-!
# Features are sparsely connected

Clustering ends when no two groups are dense. Here the coupling of two groups is the exact quotient
of two whole numbers and the threshold an exact number (`exceedsExactly`); then the groups that are
left have between them at most the threshold's share of the pairs of their nodes
(`FeatureGroup.pairwise_sparse_cluster`).

The union of groups of one name keeps this, although nothing tests it again: relationships and pairs
of nodes of a union are those of its parts, counted together (`FeatureGroup.Sparse.of_parts`).
-/

namespace CodeAtlas

variable {K : Type} [Field K] [LinearOrder K]

/-- Whether two groups are more strongly coupled than a threshold, all numbers being exact. Without
a pair of nodes the coupling is zero, as is every quotient by zero. -/
def exceedsExactly (threshold : K) (edges sizeA sizeB : Nat) : Bool :=
  threshold < (edges : K) / (sizeA * sizeB : Nat)

section Exact

variable {threshold : K}

/-- Groups without relationships between them do not exceed a threshold. -/
theorem exceedsExactly_zero (h : 0 ≤ threshold) (sizeA sizeB : Nat) :
    exceedsExactly threshold 0 sizeA sizeB = false := by
  rw [exceedsExactly, Nat.cast_zero, zero_div]
  exact decide_eq_false h.not_gt

/-- What does not exceed the threshold is its share of the pairs at most. -/
theorem le_of_exceedsExactly [IsStrictOrderedRing K] {edges sizeA sizeB : Nat}
    (ha : 0 < sizeA) (hb : 0 < sizeB)
    (h : exceedsExactly threshold edges sizeA sizeB = false) :
    (edges : K) ≤ threshold * (sizeA * sizeB) := by
  have hpairs : (0 : K) < (sizeA * sizeB : Nat) := Nat.cast_pos.mpr (Nat.mul_pos ha hb)
  have hle := le_of_not_gt (of_decide_eq_false h)
  rwa [div_le_iff₀ hpairs, Nat.cast_mul] at hle

end Exact

namespace FeatureGroup

variable {relationships : List Relationship} {groups parts : List FeatureGroup}
  {a b : FeatureGroup} {threshold : K}

/-! ## Unions of groups -/

/-- Relationships between two groups are counted in either order of the groups. -/
theorem between_comm : between relationships a b = between relationships b a := by
  rw [between, between]
  refine List.countP_congr fun r _ => ?_
  rw [connects, connects, Bool.or_comm]

/-- The relationships of a union are at most those of its parts. -/
theorem between_le_sum (hmem : ∀ {id}, id ∈ a.members ↔ ∃ g ∈ parts, id ∈ g.members) :
    between relationships a b ≤ (parts.map fun g => between relationships g b).sum := by
  refine countP_le_sum (R := fun r g => connects g b r) fun r hr => ?_
  rw [connects, Bool.or_eq_true, decide_eq_true_eq, decide_eq_true_eq, hmem, hmem] at hr
  rcases hr with ⟨⟨g, hg, hs⟩, ht⟩ | ⟨hs, ⟨g, hg, ht⟩⟩
  · exact ⟨g, hg, by simp [connects, hs, ht]⟩
  · exact ⟨g, hg, by simp [connects, hs, ht]⟩

/-- A union of groups that share no id is as large as its parts together. -/
theorem size_eq_sum (hmem : ∀ {id}, id ∈ a.members ↔ ∃ g ∈ parts, id ∈ g.members)
    (hapart : parts.Pairwise Apart) :
    a.members.size = (parts.map fun g => g.members.size).sum := by
  have hnodup : (parts.flatMap fun g => g.members.toList).Nodup :=
    List.nodup_flatMap.mpr ⟨fun _ _ => SortedSet.nodup_toList,
      hapart.imp fun hab => fun id ha hb => hab id ha hb⟩
  have hperm : a.members.toList.Perm (parts.flatMap fun g => g.members.toList) := by
    refine (List.perm_ext_iff_of_nodup SortedSet.nodup_toList hnodup).mpr fun id => ?_
    rw [← SortedSet.mem_def, hmem, List.mem_flatMap]
    rfl
  rw [SortedSet.size, hperm.length_eq, List.length_flatMap]
  rfl

/-- Between two groups there is at most the threshold's share of the pairs of their nodes. -/
def Sparse (threshold : K) (relationships : List Relationship) (a b : FeatureGroup) : Prop :=
  (between relationships a b : K) ≤ threshold * (a.members.size * b.members.size)

instance : Std.Symm (Sparse threshold relationships) where
  symm := by
    intro a b h
    rw [Sparse, between_comm, mul_comm (b.members.size : K)]
    exact h

variable [IsStrictOrderedRing K]

/-- What every part of a union has few relationships to, the union has few relationships to. -/
theorem Sparse.of_parts (hmem : ∀ {id}, id ∈ a.members ↔ ∃ g ∈ parts, id ∈ g.members)
    (hapart : parts.Pairwise Apart) (h : ∀ g ∈ parts, Sparse threshold relationships g b) :
    Sparse threshold relationships a b := by
  calc (between relationships a b : K)
      ≤ (parts.map fun g => between relationships g b).sum := by
        exact_mod_cast between_le_sum hmem
    _ = (parts.map fun g => (between relationships g b : K)).sum := by
        rw [Nat.cast_list_sum, List.map_map]
        rfl
    _ ≤ (parts.map fun g => threshold * (g.members.size * b.members.size : K)).sum :=
        List.sum_le_sum h
    _ = threshold * ((parts.map fun g => (g.members.size : K)).sum * b.members.size) := by
        rw [List.sum_map_mul_left, List.sum_map_mul_right]
    _ = threshold * (a.members.size * b.members.size) := by
        rw [size_eq_sum hmem hapart, Nat.cast_list_sum, List.map_map]
        rfl

/-! ## Clustering -/

/-- Every two groups that clustering leaves are sparsely connected. -/
theorem pairwise_sparse_cluster (hthreshold : 0 ≤ threshold) {ids : String → Prop}
    (h : Partition ids groups) :
    (cluster (exceedsExactly threshold) relationships groups).Pairwise
      (Sparse threshold relationships) := by
  fun_induction cluster (exceedsExactly threshold) relationships groups with
  | case1 groups hnone =>
    have hsize : ∀ g ∈ groups, 0 < g.members.size := fun g hg => by
      obtain ⟨id, hid⟩ := h.inhabited g hg
      exact List.length_pos_of_mem hid
    rw [firstDense?_eq_firstPair? (exceedsExactly_zero hthreshold) h.disjoint, firstPair?,
      List.find?_eq_none] at hnone
    refine List.pairwise_iff_getElem.mpr fun i j hi hj hij => ?_
    have hpair := hnone ⟨i, j⟩ (mem_pairs.mpr ⟨hij, hj⟩)
    rw [Bool.not_eq_true, isDense, List.getElem?_eq_getElem hi,
      List.getElem?_eq_getElem hj] at hpair
    exact le_of_exceedsExactly (hsize _ (List.getElem_mem hi)) (hsize _ (List.getElem_mem hj)) hpair
  | case2 groups p hsome hlt ih => exact ih (h.merge (firstDense?_lt hsome))

/-- Uniting the groups of one name keeps the features of different names sparsely connected. -/
theorem sparse_byName {ids : String → Prop} (h : Partition ids groups)
    (hsparse : groups.Pairwise (Sparse threshold relationships))
    (ha : (byName groups).get? a.name = some a.members)
    (hb : (byName groups).get? b.name = some b.members) (hne : a.name ≠ b.name) :
    Sparse threshold relationships a b := by
  have hmem : ∀ {g : FeatureGroup}, (byName groups).get? g.name = some g.members → ∀ {id},
      id ∈ g.members ↔ ∃ part ∈ groups.filter (·.name == g.name), id ∈ part.members := by
    intro g hg id
    rw [← Option.getD_some (a := g.members) (b := .empty), ← hg, mem_byName]
    simp only [List.mem_filter, beq_iff_eq, and_assoc]
  have hparts : ∀ g ∈ groups.filter (·.name == a.name), ∀ g' ∈ groups.filter (·.name == b.name),
      Sparse threshold relationships g' g := by
    intro g hg g' hg'
    obtain ⟨hg, hname⟩ := List.mem_filter.mp hg
    obtain ⟨hg', hname'⟩ := List.mem_filter.mp hg'
    refine hsparse.forall hg' hg fun heq => hne ?_
    rw [← beq_iff_eq.mp hname, ← beq_iff_eq.mp hname', heq]
  refine .of_parts (hmem ha) (h.disjoint.filter _) fun g hg => ?_
  exact Std.Symm.symm _ _ (Sparse.of_parts (hmem hb) (h.disjoint.filter _) (hparts g hg))

/-! ## What is tested -/

/-- A group of a partition is no larger than a list of all ids. -/
theorem Partition.sizeAt_le {ids : String → Prop} {l : List String} (h : Partition ids groups)
    (hl : ∀ {id}, ids id → id ∈ l) (i : Nat) : sizeAt groups i ≤ l.length := by
  cases hg : groups[i]? with
  | none => simp [sizeAt, hg]
  | some g =>
    have hsub : g.members.toList ⊆ l := fun id hid =>
      hl (h.covers.mpr ⟨g, List.mem_of_getElem? hg, hid⟩)
    rw [sizeAt, hg]
    exact (SortedSet.nodup_toList.subperm hsub).length_le

/-- Tests that agree on the sizes of the groups find the same pair. -/
theorem firstDense?_congr {dense dense' : Nat → Nat → Nat → Bool}
    (h : ∀ edges ≤ relationships.length, ∀ i j, dense edges (sizeAt groups i) (sizeAt groups j) =
      dense' edges (sizeAt groups i) (sizeAt groups j)) :
    firstDense? dense relationships groups = firstDense? dense' relationships groups := by
  refine congrArg (Option.map _) (List.find?_congr fun e he => ?_)
  rw [entries_crossings] at he
  obtain ⟨p, -, rfl⟩ := List.mem_map.mp he
  exact h _ (List.count_le_length.trans (List.length_filterMap_le _ _)) _ _

/-- Tests that agree on all numbers that occur leave the same groups. -/
theorem cluster_congr {dense dense' : Nat → Nat → Nat → Bool} {ids : String → Prop}
    {l : List String} (h : Partition ids groups) (hl : ∀ {id}, ids id → id ∈ l)
    (hagree : ∀ edges ≤ relationships.length, ∀ m ≤ l.length, ∀ n ≤ l.length,
      dense edges m n = dense' edges m n) :
    cluster dense relationships groups = cluster dense' relationships groups := by
  have hfirst : ∀ {groups}, Partition ids groups →
      firstDense? dense relationships groups = firstDense? dense' relationships groups :=
    fun h => firstDense?_congr fun edges hedges i j =>
      hagree edges hedges _ (h.sizeAt_le hl i) _ (h.sizeAt_le hl j)
  fun_induction cluster dense relationships groups with
  | case1 groups hnone => rw [cluster_of_none (by rw [← hfirst h, hnone])]
  | case2 groups p hsome hlt ih =>
    rw [ih (h.merge (firstDense?_lt hsome)), ← cluster_of_some (by rw [← hfirst h, hsome])]

end FeatureGroup

/-! ## Features -/

/-- In exact arithmetic any two features have between them at most the threshold's share of the
pairs of their nodes. The features of a configuration are these if no comparison of a rounded
quotient with its threshold differs from the exact one. -/
theorem detectFeatures_sparse [IsStrictOrderedRing K] (config : Config) (rules : TokenRules)
    (nodes : SortedMap String Node) (relationships : List Relationship)
    (hid : ∀ {id n}, nodes.get? id = some n → n.id = id) {threshold : K}
    (hthreshold : 0 ≤ threshold) :
    (∀ a b : FeatureGroup,
      (detectFeaturesBy (exceedsExactly threshold) rules nodes relationships).get? a.name =
        some a.members →
      (detectFeaturesBy (exceedsExactly threshold) rules nodes relationships).get? b.name =
        some b.members →
      a.name ≠ b.name →
        (FeatureGroup.between relationships a b : K) ≤
          threshold * (a.members.size * b.members.size)) ∧
    ((∀ edges ≤ relationships.length, ∀ m ≤ nodes.size, ∀ n ≤ nodes.size,
        exceedsThreshold config.mergeThreshold edges m n = exceedsExactly threshold edges m n) →
      detectFeatures config rules nodes relationships =
        detectFeaturesBy (exceedsExactly threshold) rules nodes relationships) := by
  have hpartition := FeatureGroup.Partition.seed (fun n => rules.token n.filePath)
    (NodeStore.eq_of_id_eq hid)
  refine ⟨fun a b ha hb hne => ?_, fun hagree => ?_⟩
  · exact FeatureGroup.sparse_byName hpartition.cluster
      (FeatureGroup.pairwise_sparse_cluster hthreshold hpartition) ha hb hne
  · rw [detectFeatures, detectFeaturesBy, detectFeaturesBy]
    refine congrArg FeatureGroup.byName (FeatureGroup.cluster_congr
      (l := nodes.values.map (·.id)) hpartition ?_ ?_)
    · rintro _ ⟨n, hn, rfl⟩
      exact List.mem_map_of_mem hn
    · rwa [List.length_map, SortedMap.values, List.length_map]

/-- The groups of two directories merge, and a third directory has the name of the merged group. The
union of the two stays apart from the last directory, to which one relationship leads, and no
rounding matters for numbers of this size. -/
theorem detectFeatures_sparse_namesakes :
    let node (id path : String) : Node :=
      { id, name := id, fullyQualifiedName := id, kind := .type, accessibility := .publicScope
        projectId := "p", assemblyName := "A", location := some (.lines path 1 1) }
    let nodes := NodeStore.ofNodes [node "a" "A/a.cs", node "b" "B/b.cs", node "c" "A+B/c.cs",
      node "d1" "D/d1.cs", node "d2" "D/d2.cs"]
    let edge (s t : String) : Relationship := { sourceId := s, targetId := t, kind := .association }
    let edges := [edge "a" "b", edge "c" "d1"]
    let config := Config.standard 4
    let united : FeatureGroup := ⟨"A+B", .ofList ["a", "b", "c"]⟩
    let other : FeatureGroup := ⟨"D", .ofList ["d1", "d2"]⟩
    detectFeatures config (.ofConfig config) nodes edges =
        .ofList [(united.name, united.members), (other.name, other.members)] ∧
      (FeatureGroup.between edges united other : ℚ) ≤ 7 / 10 * (3 * 2) := by
  intro node nodes edge edges config united other
  have hentries : ∀ e ∈ nodes.entries, e.2.id = e.1 := by decide +kernel
  have hfeatures : detectFeatures config (.ofConfig config) nodes edges =
      .ofList [(united.name, united.members), (other.name, other.members)] := by
    decide +kernel
  obtain ⟨hsparse, hexact⟩ := detectFeatures_sparse config (.ofConfig config) nodes edges
    (fun hn => hentries _ (SortedMap.get?_eq_some_iff.mp hn)) (by norm_num : (0 : ℚ) ≤ 7 / 10)
  have hagree := hexact (by decide +kernel)
  rw [← hagree, hfeatures] at hsparse
  exact ⟨hfeatures, hsparse united other (by decide) (by decide) (by decide)⟩

end CodeAtlas
