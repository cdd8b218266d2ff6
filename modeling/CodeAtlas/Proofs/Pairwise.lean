import CodeAtlas.Feature.Pairwise
import CodeAtlas.Proofs.Binary64
import CodeAtlas.Proofs.Partition
import Mathlib.Data.List.Find
import Mathlib.Data.List.InsertIdx

/-!
# Clustering agrees with comparing all pairs

Clustering looks up the groups of the ends of every relationship and counts only the pairs that some
relationship connects. Over groups that share no id it finds the same pair as comparing all of them
(`FeatureGroup.firstDense?_eq_firstPair?`), as long as no pair without relationships counts as
dense. Taking the two groups out and putting their join in is uniting them in place
(`FeatureGroup.merge_eq_unite`). Both carry over to whole runs (`FeatureGroup.cluster_eq`), because
merging keeps the groups apart.

Comparing all pairs does not depend on the order of the relationships or on their directions, so
neither do the features (`detectFeatures_eq_detectPairwise`).
-/

namespace CodeAtlas

namespace FeatureGroup

variable {groups : List FeatureGroup} {relationships : List Relationship} {a b : FeatureGroup}

/-! ## Seeding -/

/-- The groups by token are the groups of one token each. -/
theorem seed_eq_tokenGroups {token : Node → String} {nodes : List Node} :
    seed token nodes = tokenGroups token nodes := by
  have hkeys : (idsByToken token nodes).keyList = (SortedSet.ofList (nodes.map token)).toList := by
    refine SortedSet.eq_of_mem_iff (SortedMap.keys _).ascending (SortedSet.ascending _) fun t => ?_
    rw [SortedMap.mem_keyList, Partition.contains_idsByToken, ← SortedSet.mem_def,
      SortedSet.mem_ofList, List.mem_map]
  rw [tokenGroups, ← hkeys, SortedMap.keyList, List.map_map]
  refine List.map_congr_left fun g hg => ?_
  have hids : g.2 = .ofList ((nodes.filter fun n => token n == g.1).map (·.id)) := by
    refine SortedSet.ext_mem fun id => ?_
    have hget := SortedMap.get?_eq_some_iff.mpr hg
    have hmem : id ∈ ((idsByToken token nodes).get? g.1).getD .empty ↔ _ := Partition.mem_idsByToken
    rw [hget, Option.getD_some] at hmem
    simp only [hmem, SortedSet.mem_ofList, List.mem_map, List.mem_filter, beq_iff_eq, and_assoc,
      eq_comm (a := id)]
  rw [Function.comp_apply, ofToken, ← hids]

/-! ## The first dense pair -/

/-- Over groups that share no id, an id has the place of the group that holds it. -/
theorem placeOf?_eq_some_iff {id : String} {i : Nat} (h : groups.Pairwise Apart) :
    placeOf? id groups = some i ↔ ∃ g, groups[i]? = some g ∧ id ∈ g.members := by
  induction groups generalizing i with
  | nil => simp [placeOf?]
  | cons g rest ih =>
    obtain ⟨hg, hrest⟩ := List.pairwise_cons.mp h
    cases hplace : placeOf? id rest with
    | some j =>
      obtain ⟨g', hg', hid'⟩ := (ih hrest).mp hplace
      have hnot : id ∉ g.members := fun hid => hg g' (List.mem_of_getElem? hg') id hid hid'
      cases i with
      | zero => simp [placeOf?, hplace, hnot]
      | succ i => simp [placeOf?, hplace, ← ih hrest]
    | none =>
      have hright : ∀ i : Nat, ¬ ∃ g' : FeatureGroup, rest[i]? = some g' ∧ id ∈ g'.members := by
        intro i hin
        rw [← ih hrest, hplace] at hin
        cases hin
      cases i with
      | zero => by_cases hid : id ∈ g.members <;> simp [placeOf?, hplace, hid]
      | succ i => by_cases hid : id ∈ g.members <;> simp [placeOf?, hplace, hid, hright i]

/-- A relationship connects two groups exactly if it has an end in each. -/
theorem crossing?_eq_some_iff {p : GroupPair} {r : Relationship} (h : groups.Pairwise Apart)
    (hp : p.first < p.second) (ha : groups[p.first]? = some a) (hb : groups[p.second]? = some b) :
    crossing? groups r = some p ↔ connects a b r = true := by
  have hplace : ∀ {id i g}, groups[i]? = some g → (placeOf? id groups = some i ↔ id ∈ g.members) :=
    fun {id i g} hg => by
      rw [placeOf?_eq_some_iff h, hg]
      exact ⟨fun ⟨g', hg', hid⟩ => Option.some.inj hg' ▸ hid, fun hid => ⟨g, rfl, hid⟩⟩
  rw [connects, Bool.or_eq_true, decide_eq_true_eq, decide_eq_true_eq, ← hplace ha, ← hplace hb,
    ← hplace hb, ← hplace ha, crossing?]
  simp only [Option.bind_eq_bind, Option.bind_eq_some_iff]
  constructor
  · rintro ⟨i, hi, j, hj, hpair⟩
    split at hpair
    · cases hpair
      exact .inl ⟨hi, hj⟩
    · split at hpair
      · cases hpair
        exact .inr ⟨hi, hj⟩
      · cases hpair
  · rintro (⟨hi, hj⟩ | ⟨hi, hj⟩)
    · exact ⟨p.first, hi, p.second, hj, if_pos hp⟩
    · exact ⟨p.second, hi, p.first, hj, by rw [if_neg (by omega), if_pos hp]⟩

/-- A pair of groups is connected as often as there are relationships between them. -/
theorem count_crossing? (relationships : List Relationship) {p : GroupPair}
    (h : groups.Pairwise Apart) (hp : p.first < p.second) (ha : groups[p.first]? = some a)
    (hb : groups[p.second]? = some b) :
    (relationships.filterMap (crossing? groups)).count p = between relationships a b := by
  rw [List.count_filterMap, between]
  refine List.countP_congr fun r _ => ?_
  rw [beq_iff_eq, crossing?_eq_some_iff h hp ha hb]

/-- The pairs of places ascend. -/
theorem ascending_pairs (n : Nat) : (pairs n).Pairwise fun p q => compare p q = .lt := by
  have hlt : ∀ {p q : GroupPair}, p.first < q.first ∨ (p.first = q.first ∧ p.second < q.second) →
      compare p q = .lt := by
    intro p q h
    change (compare p.first q.first).then (compare p.second q.second) = .lt
    rcases h with h | ⟨h, h'⟩
    · rw [Nat.compare_eq_lt.mpr h]
      rfl
    · rw [Nat.compare_eq_eq.mpr h, Nat.compare_eq_lt.mpr h']
      rfl
  refine List.pairwise_flatMap.mpr ⟨fun i _ => ?_, ?_⟩
  · refine List.pairwise_map.mpr ((List.pairwise_lt_range.filter _).imp fun hj => ?_)
    exact hlt (.inr ⟨rfl, hj⟩)
  · refine List.pairwise_lt_range.imp fun hi p hp q hq => ?_
    obtain ⟨j, -, rfl⟩ := List.mem_map.mp hp
    obtain ⟨j', -, rfl⟩ := List.mem_map.mp hq
    exact hlt (.inl hi)

/-- The counted pairs are those of two groups with relationships between them. -/
theorem entries_crossings (groups : List FeatureGroup) (relationships : List Relationship) :
    (crossings groups relationships).entries =
      ((pairs groups.length).filter (· ∈ relationships.filterMap (crossing? groups))).map fun p =>
        (p, (relationships.filterMap (crossing? groups)).count p) := by
  have hcontains : ∀ p, (crossings groups relationships).contains p = true ↔
      p ∈ relationships.filterMap (crossing? groups) := by
    intro p
    have h := SortedMap.contains_foldl_upsert_empty (fun p : GroupPair => p)
      (fun _ (n : Option Nat) => n.getD 0 + 1)
      (l := relationships.filterMap (crossing? groups)) (k := p)
    rwa [exists_eq_right] at h
  have hcount : ∀ e ∈ (crossings groups relationships).entries,
      e = (e.1, (relationships.filterMap (crossing? groups)).count e.1) := by
    intro e he
    have h : ((crossings groups relationships).get? e.1).getD 0 = _ :=
      SortedMap.getD_foldl_tally.trans (Nat.zero_add _)
    rw [SortedMap.get?_eq_some_iff.mpr he, Option.getD_some] at h
    exact Prod.ext rfl h
  have hkeys : (crossings groups relationships).keyList =
      (pairs groups.length).filter (· ∈ relationships.filterMap (crossing? groups)) := by
    refine SortedSet.eq_of_mem_iff (SortedMap.keys _).ascending ((ascending_pairs _).filter _)
      fun p => ?_
    rw [SortedMap.mem_keyList, hcontains, List.mem_filter, decide_eq_true_eq, mem_pairs]
    refine ⟨fun hp => ⟨?_, hp⟩, fun h => h.2⟩
    obtain ⟨r, -, hr⟩ := List.mem_filterMap.mp hp
    exact crossing?_lt hr
  rw [← hkeys, SortedMap.keyList, List.map_map]
  exact (List.map_id _).symm.trans (List.map_congr_left hcount)

/-- Over groups that share no id, the first dense pair of the connected ones is the first of all. -/
theorem firstDense?_eq_firstPair? {dense : Nat → Nat → Nat → Bool}
    (hdense : ∀ x y, dense 0 x y = false) (h : groups.Pairwise Apart) :
    firstDense? dense relationships groups = firstPair? dense relationships groups := by
  rw [firstDense?, entries_crossings, List.find?_map, Option.map_map, List.find?_filter, firstPair?]
  refine Option.map_id'.trans (List.find?_congr fun p hp => ?_)
  obtain ⟨hlt, hsecond⟩ := mem_pairs.mp hp
  have ha := List.getElem?_eq_getElem (l := groups) (i := p.first) (by omega)
  have hb := List.getElem?_eq_getElem hsecond
  have hcount := count_crossing? relationships h hlt ha hb
  rw [Bool.eq_iff_iff, decide_eq_true_eq, decide_eq_true_eq, Function.comp_apply, isDense, ha, hb,
    sizeAt, ha, sizeAt, hb]
  dsimp only [Option.map_some, Option.getD_some]
  rw [hcount, and_iff_right_iff_imp]
  -- a pair that is not connected is not dense
  intro hd
  refine List.count_pos_iff.mp (Nat.pos_of_ne_zero fun hzero => ?_)
  rw [hcount] at hzero
  rw [hzero, hdense] at hd
  cases hd

/-! ## Clustering -/

/-- The join of two groups is their union. -/
theorem join_eq_plus : a.join b = a.plus b := by
  have hmembers : a.members.union b.members = .ofList (a.members.toList ++ b.members.toList) :=
    SortedSet.ext_mem fun id => by
      rw [SortedSet.mem_union, SortedSet.mem_ofList, List.mem_append, SortedSet.mem_def,
        SortedSet.mem_def]
  have hname : a.name ++ "+" ++ b.name = "+".intercalate [a.name, b.name] := by
    rw [String.intercalate_cons_cons, String.intercalate_singleton]
  rw [join, plus, hmembers, hname]

/-- Merging unites the two groups where they are. -/
theorem merge_eq_unite {p : GroupPair} (h : p.first < p.second ∧ p.second < groups.length) :
    merge groups p = unite groups p := by
  obtain ⟨hlt, hsecond⟩ := h
  have hfirst : p.first < groups.length := by omega
  have hright : p.first ≠ (groups.eraseIdx p.second).length := by
    rw [List.length_eraseIdx_of_lt hsecond]
    omega
  rw [merge_eq hfirst hsecond, List.insertIdx_eraseIdx_self hright, unite]
  simp only [List.getElem?_eq_getElem hfirst, List.getElem?_eq_getElem hsecond]
  rw [List.eraseIdx_set_gt hlt, join_eq_plus]

/-- Clustering groups that share no id unites what comparing all pairs unites. -/
theorem cluster_eq {dense : Nat → Nat → Nat → Bool} (hdense : ∀ x y, dense 0 x y = false)
    {ids : String → Prop} (h : Partition ids groups) :
    cluster dense relationships groups = clusterPairwise dense relationships groups := by
  fun_induction cluster dense relationships groups with
  | case1 groups hnone =>
    rw [firstDense?_eq_firstPair? hdense h.disjoint] at hnone
    rw [clusterPairwise_of_none hnone]
  | case2 groups p hsome hlt ih =>
    have hp := firstDense?_lt hsome
    rw [ih (h.merge hp), merge_eq_unite hp]
    rw [firstDense?_eq_firstPair? hdense h.disjoint] at hsome
    rw [clusterPairwise_of_some hsome]

/-- Uniting groups of one name one after the other unites them all. -/
theorem byName_eq_uniteNamesakes : byName groups = uniteNamesakes groups := by
  refine SortedMap.ext_get? fun name => ?_
  rw [uniteNamesakes, SortedMap.get?_ofList]
  have hkey : (byName groups).contains name = true ↔ _ := contains_byName
  cases hfind : (groups.map fun g => (g.name, membersNamed groups g.name)).reverse.find?
      fun e => decide (e.1 = name) with
  | none =>
    rw [List.find?_eq_none] at hfind
    rw [Option.map_none, ← SortedMap.contains_eq_false_iff, Bool.eq_false_iff, Ne, hkey]
    rintro ⟨g, hg, rfl⟩
    have hmem := List.mem_map_of_mem (f := fun g => (g.name, membersNamed groups g.name)) hg
    exact hfind (g.name, membersNamed groups g.name) (List.mem_reverse.mpr hmem)
      (decide_eq_true rfl)
  | some e =>
    have hname : e.1 = name := by simpa using List.find?_some hfind
    obtain ⟨g, hg, rfl⟩ := List.mem_map.mp (List.mem_reverse.mp (List.mem_of_find?_eq_some hfind))
    subst hname
    obtain ⟨members, hget⟩ := SortedMap.contains_iff.mp (hkey.mpr ⟨g, hg, rfl⟩)
    rw [hget, Option.map_some]
    refine congrArg some (SortedSet.ext_mem fun id => ?_)
    have hmem : id ∈ ((byName groups).get? g.name).getD .empty ↔ _ := mem_byName
    rw [hget, Option.getD_some] at hmem
    rw [hmem, membersNamed, SortedSet.mem_ofList]
    simp only [List.mem_flatMap, List.mem_filter, beq_iff_eq, SortedSet.mem_def, and_assoc]

/-! ## Order and direction of the relationships -/

/-- A relationship connects the same groups in either direction. -/
theorem connects_reversed {r : Relationship} : connects a b r.reversed = connects a b r := by
  rw [connects, connects, Bool.or_comm]
  refine congrArg₂ _ ?_ ?_ <;> exact decide_eq_decide.mpr and_comm

/-- The relationships between two groups are counted in any order and direction. -/
theorem between_eq {turned relationships' : List Relationship}
    (hturned : List.Forall₂ (fun r t => t = r ∨ t = r.reversed) relationships turned)
    (hperm : turned.Perm relationships') : between relationships' = between relationships := by
  funext a b
  rw [between, between, ← hperm.countP_eq]
  clear hperm
  induction hturned with
  | nil => rfl
  | cons h _ ih =>
    rw [List.countP_cons, List.countP_cons, ih]
    rcases h with rfl | rfl
    · rfl
    · rw [connects_reversed]

/-- What is between groups is all that clustering depends on. -/
theorem clusterPairwise_congr {dense : Nat → Nat → Nat → Bool}
    {relationships' : List Relationship} (h : between relationships' = between relationships) :
    clusterPairwise dense relationships' groups = clusterPairwise dense relationships groups := by
  have hfirst : ∀ groups, firstPair? dense relationships' groups =
      firstPair? dense relationships groups := fun groups => by
    have hdense : isDense dense relationships' groups = isDense dense relationships groups := by
      funext p
      rw [isDense, isDense, h]
    rw [firstPair?, firstPair?, hdense]
  fun_induction clusterPairwise dense relationships groups with
  | case1 groups hnone => rw [clusterPairwise_of_none (by rw [hfirst, hnone])]
  | case2 groups p hsome hlt ih => rw [clusterPairwise_of_some (by rw [hfirst, hsome]), ih]

end FeatureGroup

/-! ## Pairs without relationships -/

section Comparison

open Float.Model Float.Model.UnpackedFloat

variable {x y : Float}

/-- Numbers are compared by what their bits stand for. -/
theorem float_lt_iff : x < y ↔ x.toModel.unpack.compare y.toModel.unpack = some .lt := by
  change Float.lt x y = true ↔ _
  rw [Float.lt, decide_eq_true_eq]
  exact beq_iff_eq

/-- A positive number lies below nothing that is zero or not a number. -/
theorem not_lt_of_unpack (hx : 0 < x)
    (hy : y.toModel.unpack = .notANumber ∨ ∃ s, y.toModel.unpack = .zero s) : ¬ x < y := by
  have hzero : (0 : Float).toModel.unpack = .zero .positive := by rfl
  rw [float_lt_iff, hzero] at hx
  rw [float_lt_iff]
  cases hu : x.toModel.unpack with
  | notANumber | zero => rw [hu] at hx; cases hx
  | infinity sign | finite sign =>
    rw [hu] at hx
    cases sign with
    | negative => cases hx
    | positive => obtain hy | ⟨s, hy⟩ := hy <;> rw [hy] <;> nofun

/-- Zero divided by something is zero or not a number. -/
theorem unpack_zero_div : ((0 : Float) / y).toModel.unpack = .notANumber ∨
    ∃ s, ((0 : Float) / y).toModel.unpack = .zero s := by
  have hzero : (0 : Float).toModel.unpack = .zero .positive := by rfl
  have hpack : ∀ s, (Float.Model.pack (.zero s)).unpack = .zero s := fun s => by cases s <;> rfl
  have hdiv : ((0 : Float) / y).toModel.unpack = (Float.Model.pack
      (UnpackedFloat.div .binary64 (.zero .positive) y.toModel.unpack)).unpack := by
    rw [← hzero]
    rfl
  rw [hdiv]
  cases y.toModel.unpack with
  | notANumber => exact .inl rfl
  | zero s => cases s <;> exact .inl rfl
  | infinity s | finite s => exact .inr ⟨_, hpack _⟩

end Comparison

/-- Groups without relationships between them do not exceed any threshold. -/
theorem exceedsThreshold_zero {threshold : Float} (h : Config.isThreshold threshold = true)
    (sizeA sizeB : Nat) : exceedsThreshold threshold 0 sizeA sizeB = false := by
  have hpos : 0 < threshold := by
    rw [Config.isThreshold, Bool.and_eq_true, decide_eq_true_eq] at h
    exact h.1
  rw [exceedsThreshold, decide_eq_false_iff_not, couplingStrength]
  split
  · exact not_lt_of_unpack hpos (.inr ⟨.positive, rfl⟩)
  · exact not_lt_of_unpack hpos unpack_zero_div

/-- The coupling of two groups is the share of their pairs that relationships connect. -/
theorem couplingStrength_eq_share (edges sizeA sizeB : Nat) :
    couplingStrength (.ofNat edges) (.ofNat sizeA) (.ofNat sizeB) =
      FeatureGroup.share edges sizeA sizeB := by
  have hword : ∀ n, Float.ofNat (n % UInt64.size) = (UInt64.ofNat n).toFloat := fun n => by
    have hlt : n % UInt64.size < 2 ^ 64 := Nat.mod_lt n (by decide)
    rw [Binary64.ofNat_eq_toFloat hlt, Nat.toUInt64, UInt64.ofNat_mod_size]
  have hzero : (UInt64.ofNat sizeA * UInt64.ofNat sizeB = 0) ↔ sizeA * sizeB % UInt64.size = 0 := by
    rw [← UInt64.ofNat_mul, ← UInt64.toNat_inj, UInt64.toNat_ofNat']
    rfl
  rw [couplingStrength, FeatureGroup.share, hword, hword, UInt64.ofNat_mul]
  by_cases h : sizeA * sizeB % UInt64.size = 0
  · rw [if_pos h, if_pos (hzero.mpr h)]
  · rw [if_neg h, if_neg (mt hzero.mp h)]

/-! ## Features -/

/-- Over nodes that stand under their ids, the features are found by comparing all pairs of groups;
neither the order of the relationships nor their directions matter. -/
theorem detectFeatures_eq_detectPairwise (config : Config) (rules : TokenRules)
    (nodes : SortedMap String Node) (relationships : List Relationship)
    (hid : ∀ {id n}, nodes.get? id = some n → n.id = id)
    (hthreshold : Config.isThreshold config.mergeThreshold = true) :
    detectFeatures config rules nodes relationships =
        detectPairwise config.mergeThreshold rules nodes relationships ∧
      ∀ turned relationships' : List Relationship,
        List.Forall₂ (fun r t => t = r ∨ t = r.reversed) relationships turned →
        turned.Perm relationships' →
          detectFeatures config rules nodes relationships' =
            detectFeatures config rules nodes relationships := by
  have heq : ∀ relationships, detectFeatures config rules nodes relationships =
      detectPairwise config.mergeThreshold rules nodes relationships := by
    intro relationships
    have hpartition := FeatureGroup.Partition.seed (fun n => rules.token n.filePath)
      (NodeStore.eq_of_id_eq hid)
    have hdense : (fun edges sizeA sizeB => decide
        (config.mergeThreshold < FeatureGroup.share edges sizeA sizeB)) =
        exceedsThreshold config.mergeThreshold := by
      funext edges sizeA sizeB
      rw [exceedsThreshold, couplingStrength_eq_share]
    rw [detectFeatures, detectFeaturesBy, detectPairwise, ← FeatureGroup.seed_eq_tokenGroups,
      hdense, FeatureGroup.cluster_eq (exceedsThreshold_zero hthreshold) hpartition,
      FeatureGroup.byName_eq_uniteNamesakes]
  refine ⟨heq relationships, fun turned relationships' hturned hperm => ?_⟩
  rw [heq, heq, detectPairwise, detectPairwise,
    FeatureGroup.clusterPairwise_congr (FeatureGroup.between_eq hturned hperm)]

/-- Three nodes of different tokens: the first two groups merge, and then the third joins them. -/
theorem detectFeatures_eq_detectPairwise_cascade :
    let node (id path : String) : Node :=
      { id, name := id, fullyQualifiedName := id, kind := .type, accessibility := .publicScope
        projectId := "p", assemblyName := "A", location := some (.lines path 1 1) }
    let nodes := NodeStore.ofNodes
      [node "a" "R/S/A/a.cs", node "b" "R/S/B/b.cs", node "c" "R/S/C/c.cs"]
    let ab : Relationship := { sourceId := "a", targetId := "b", kind := .association }
    let ac : Relationship := { sourceId := "a", targetId := "c", kind := .association }
    let cb : Relationship := { sourceId := "c", targetId := "b", kind := .association }
    let config := Config.standard 4
    let rules := TokenRules.ofConfig config
    detectFeatures config rules nodes [ab, ac, cb] =
        detectPairwise config.mergeThreshold rules nodes [ab, ac, cb] ∧
      detectFeatures config rules nodes [cb.reversed, ac, ab] =
        detectFeatures config rules nodes [ab, ac, cb] ∧
      detectFeatures config rules nodes [ab, ac, cb] =
        .ofList [("A+B+C", .ofList ["a", "b", "c"])] := by
  intro node nodes ab ac cb config rules
  have hentries : ∀ e ∈ nodes.entries, e.2.id = e.1 := by decide +kernel
  have hid : ∀ {id n}, nodes.get? id = some n → n.id = id := fun hn =>
    hentries _ (SortedMap.get?_eq_some_iff.mp hn)
  obtain ⟨hpairs, horder⟩ := detectFeatures_eq_detectPairwise config rules nodes [ab, ac, cb] hid
    (by decide +kernel)
  refine ⟨hpairs, horder [ab, ac, cb.reversed] _ ?_ ?_, by decide +kernel⟩
  · exact .cons (.inl rfl) (.cons (.inl rfl) (.cons (.inr rfl) .nil))
  · exact (List.reverse_perm [ab, ac, cb.reversed]).symm

end CodeAtlas
