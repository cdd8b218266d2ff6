import CodeAtlas.Proofs.Features
import CodeAtlas.Proofs.Pairwise
import Mathlib.Data.List.Nodup
import Mathlib.Logic.Relation

/-!
# What features are made of

Every group of a cascade is made of tokens (`FeatureGroup.MadeOf`): it holds the nodes with these
tokens, its name joins the tokens by plus signs, and chains of relationships lead from each of the
tokens to all others. A group of one token is made of that token, and the join of two connected
groups is made of the tokens of both (`FeatureGroup.MadeOf.join`); so it goes on for every group
that clustering leaves (`FeatureGroup.exists_madeOf_cluster`).

Two consequences. Nodes of one feature have related tokens, unless two groups happen to have the
same name, which takes a directory with a plus sign in its own name (`detectFeatures_related`). And
nodes that no directory places stay in the unknown feature exactly as long as no merge takes their
group (`detectFeatures_unplaced`): that group is merged like any other.
-/

namespace CodeAtlas

/-! ## Joined names -/

section Names

variable {tokens tokens' : List String}

/-- Tokens without plus signs are known from their joined name. -/
theorem eq_of_intercalate_eq (hne : tokens ≠ []) (hne' : tokens' ≠ [])
    (hplus : ∀ t ∈ tokens ++ tokens', '+' ∉ t.toList)
    (h : "+".intercalate tokens = "+".intercalate tokens') : tokens = tokens' := by
  have hsplit : ∀ {l : List String}, l ≠ [] → (∀ t ∈ l, '+' ∉ t.toList) →
      ("+".intercalate l).toList.splitOn '+' = l.map String.toList := by
    intro l hl hnot
    rw [String.toList_intercalate]
    refine List.splitOn_intercalate '+' (fun cs hcs => ?_) (by simpa using hl)
    obtain ⟨t, ht, rfl⟩ := List.mem_map.mp hcs
    exact hnot t ht
  have hmap : tokens.map String.toList = tokens'.map String.toList := by
    rw [← hsplit hne fun t ht => hplus t (List.mem_append_left _ ht), h,
      hsplit hne' fun t ht => hplus t (List.mem_append_right _ ht)]
  exact List.map_injective_iff.mpr (fun _ _ => String.toList_injective) hmap

/-- A name without plus signs joins only itself. -/
theorem intercalate_eq_iff {name : String} (hne : tokens ≠ []) (hplus : '+' ∉ name.toList) :
    "+".intercalate tokens = name ↔ tokens = [name] := by
  refine ⟨fun h => ?_, fun h => by rw [h, String.intercalate_singleton]⟩
  match tokens, hne with
  | [t], _ => rw [← h, String.intercalate_singleton]
  | t :: t' :: rest, _ =>
    rw [String.intercalate_cons_cons] at h
    exact absurd (by simp [← h]) hplus

end Names

namespace FeatureGroup

variable {token : Node → String} {nodes : List Node} {relationships : List Relationship}
  {groups : List FeatureGroup} {tokens tokens' : List String} {a b g : FeatureGroup}

/-! ## Related tokens -/

/-- Some relationship leads between a node of the one token and a node of the other, in either
direction. -/
def Related (token : Node → String) (nodes : List Node) (relationships : List Relationship)
    (t t' : String) : Prop :=
  ∃ r ∈ relationships, ∃ n ∈ nodes, ∃ n' ∈ nodes, token n = t ∧ token n' = t' ∧
    ((r.sourceId = n.id ∧ r.targetId = n'.id) ∨ (r.sourceId = n'.id ∧ r.targetId = n.id))

instance : Std.Symm (Related token nodes relationships) where
  symm := by
    rintro _ _ ⟨r, hr, n, hn, n', hn', rfl, rfl, h⟩
    exact ⟨r, hr, n', hn', n, hn, rfl, rfl, h.symm⟩

/-- The tokens of a group: the group has their joined name and the nodes with these tokens, and
every two of them are related by a chain of relationships. -/
structure MadeOf (token : Node → String) (nodes : List Node) (relationships : List Relationship)
    (tokens : List String) (g : FeatureGroup) : Prop where
  ne_nil : tokens ≠ []
  nodup : tokens.Nodup
  name_eq : g.name = "+".intercalate tokens
  mem_iff : ∀ {id}, id ∈ g.members ↔ ∃ n ∈ nodes, token n ∈ tokens ∧ id = n.id
  exists_node : ∀ {t}, t ∈ tokens → ∃ n ∈ nodes, token n = t
  related : ∀ {t t'}, t ∈ tokens → t' ∈ tokens →
    Relation.ReflTransGen (Related token nodes relationships) t t'

namespace MadeOf

/-- A group of one token is made of it. -/
theorem seed (hg : g ∈ FeatureGroup.seed token nodes) :
    MadeOf token nodes relationships [g.name] g := by
  obtain ⟨⟨t, members⟩, he, rfl⟩ := List.mem_map.mp hg
  have hget := SortedMap.get?_eq_some_iff.mpr he
  refine ⟨List.cons_ne_nil _ _, List.nodup_singleton _, String.intercalate_singleton.symm,
    fun {id} => ?_, ?_, ?_⟩
  · rw [← Option.getD_some (a := members) (b := .empty), ← hget, Partition.mem_idsByToken]
    simp only [List.mem_singleton]
  · rintro _ ht
    rw [List.mem_singleton.mp ht]
    exact Partition.contains_idsByToken.mp (SortedMap.contains_of_get? hget)
  · rintro _ _ ht ht'
    rw [List.mem_singleton.mp ht, List.mem_singleton.mp ht']

/-- Tokens of connected groups are related. -/
theorem exists_related (ha : MadeOf token nodes relationships tokens a)
    (hb : MadeOf token nodes relationships tokens' b) {r : Relationship} (hr : r ∈ relationships)
    (hconnects : connects a b r = true) :
    ∃ t ∈ tokens, ∃ t' ∈ tokens', Related token nodes relationships t t' := by
  rw [connects, Bool.or_eq_true, decide_eq_true_eq, decide_eq_true_eq, ha.mem_iff, hb.mem_iff,
    hb.mem_iff, ha.mem_iff] at hconnects
  rcases hconnects with ⟨⟨n, hn, ht, hs⟩, n', hn', ht', hs'⟩ | ⟨⟨n', hn', ht', hs'⟩, n, hn, ht, hs⟩
  · exact ⟨_, ht, _, ht', r, hr, n, hn, n', hn', rfl, rfl, .inl ⟨hs, hs'⟩⟩
  · exact ⟨_, ht, _, ht', r, hr, n, hn, n', hn', rfl, rfl, .inr ⟨hs', hs⟩⟩

/-- Groups without a common node have no token in common. -/
theorem disjoint (ha : MadeOf token nodes relationships tokens a)
    (hb : MadeOf token nodes relationships tokens' b) (hapart : Apart a b) :
    tokens.Disjoint tokens' := by
  intro t ht ht'
  obtain ⟨n, hn, rfl⟩ := ha.exists_node ht
  exact hapart n.id (ha.mem_iff.mpr ⟨n, hn, ht, rfl⟩) (hb.mem_iff.mpr ⟨n, hn, ht', rfl⟩)

/-- The join of two connected groups is made of the tokens of both. -/
theorem join (ha : MadeOf token nodes relationships tokens a)
    (hb : MadeOf token nodes relationships tokens' b) (hapart : Apart a b) {r : Relationship}
    (hr : r ∈ relationships) (hconnects : connects a b r = true) :
    MadeOf token nodes relationships (tokens ++ tokens') (a.join b) := by
  obtain ⟨s, hs, s', hs', hrelated⟩ := ha.exists_related hb hr hconnects
  have hacross : ∀ {t t'}, t ∈ tokens → t' ∈ tokens' →
      Relation.ReflTransGen (Related token nodes relationships) t t' := fun ht ht' =>
    ((ha.related ht hs).tail hrelated).trans (hb.related hs' ht')
  refine ⟨List.append_ne_nil_of_left_ne_nil ha.ne_nil _,
    List.nodup_append'.mpr ⟨ha.nodup, hb.nodup, ha.disjoint hb hapart⟩, ?_, fun {id} => ?_, ?_, ?_⟩
  · rw [String.intercalate_append_of_ne_nil ha.ne_nil hb.ne_nil, ← ha.name_eq, ← hb.name_eq]
    rfl
  · rw [show id ∈ (a.join b).members ↔ _ from SortedSet.mem_union, ha.mem_iff, hb.mem_iff]
    simp only [List.mem_append, or_and_right, and_or_left, exists_or]
  · intro t ht
    exact (List.mem_append.mp ht).elim ha.exists_node hb.exists_node
  · intro t t' ht ht'
    rcases List.mem_append.mp ht with ht | ht <;> rcases List.mem_append.mp ht' with ht' | ht'
    · exact ha.related ht ht'
    · exact hacross ht ht'
    · exact Relation.ReflTransGen.stdSymm.symm _ _ (hacross ht' ht)
    · exact hb.related ht ht'

/-- The tokens determine the group. -/
theorem unique (ha : MadeOf token nodes relationships tokens a)
    (hb : MadeOf token nodes relationships tokens b) : a = b := by
  obtain ⟨name, members⟩ := a
  obtain ⟨name', members'⟩ := b
  obtain rfl : name = name' := ha.name_eq.trans hb.name_eq.symm
  obtain rfl : members = members' := SortedSet.ext_mem fun id => ha.mem_iff.trans hb.mem_iff.symm
  rfl

/-- A token that is related to no other makes up a group of its own. -/
theorem eq_singleton (h : MadeOf token nodes relationships tokens g) {t : String} (ht : t ∈ tokens)
    (halone : ∀ t', Related token nodes relationships t t' → t' = t) : tokens = [t] := by
  have hchain : ∀ {t'}, Relation.ReflTransGen (Related token nodes relationships) t t' →
      t' = t := by
    intro t' hchain
    induction hchain with
    | refl => rfl
    | tail _ hrelated ih => exact halone _ (ih ▸ hrelated)
  refine List.perm_singleton.mp
    ((List.perm_ext_iff_of_nodup h.nodup (List.nodup_singleton t)).mpr fun t' => ?_)
  rw [List.mem_singleton]
  exact ⟨fun ht' => hchain (h.related ht ht'), fun heq => heq ▸ ht⟩

end MadeOf

/-! ## Clustering -/

/-- Every group that clustering leaves is made of tokens, if the first ones are. -/
theorem exists_madeOf_cluster {dense : Nat → Nat → Nat → Bool} {ids : String → Prop}
    (h : Partition ids groups)
    (hmade : ∀ g ∈ groups, ∃ tokens, MadeOf token nodes relationships tokens g) :
    ∀ g ∈ cluster dense relationships groups,
      ∃ tokens, MadeOf token nodes relationships tokens g := by
  fun_induction cluster dense relationships groups with
  | case1 groups hnone => exact hmade
  | case2 groups p hsome hlt ih =>
    have hp := firstDense?_lt hsome
    refine ih (h.merge hp) fun g hg => ?_
    rcases mem_merge hp hg with hg | ⟨a, b, ha, hb, rfl⟩
    · exact hmade g hg
    · obtain ⟨r, hr, hcrossing⟩ := exists_crossing_of_firstDense? hsome
      obtain ⟨tokens, htokens⟩ := hmade a (List.mem_of_getElem? ha)
      obtain ⟨tokens', htokens'⟩ := hmade b (List.mem_of_getElem? hb)
      exact ⟨_, htokens.join htokens' (h.apart_of_lt hp.1 ha hb) hr
        ((crossing?_eq_some_iff h.disjoint hp.1 ha hb).mp hcrossing)⟩

end FeatureGroup

/-! ## Features -/

/-- The feature of a name holds an id. -/
def InFeature (features : SortedMap String (SortedSet String)) (name id : String) : Prop :=
  ∃ members, features.get? name = some members ∧ id ∈ members

/-- The token of a node. -/
abbrev TokenRules.tokenOf (rules : TokenRules) (n : Node) : String := rules.token n.filePath

/-- No directory places a node: its file is not known, or no directory of the path is meaningful. -/
def TokenRules.Unplaced (rules : TokenRules) (n : Node) : Prop :=
  ∀ path, n.filePath = some path → rules.directories path = []

/-- The token of a node that no directory places is that of the unknown feature. -/
theorem TokenRules.Unplaced.token_eq {rules : TokenRules} {n : Node} (h : rules.Unplaced n) :
    rules.tokenOf n = unknownFeature := by
  rw [TokenRules.tokenOf]
  cases hpath : n.filePath with
  | none => rfl
  | some path => rw [TokenRules.token, h path hpath, TokenRules.choose]

section Features

variable {dense : Nat → Nat → Nat → Bool} {rules : TokenRules} {nodes : SortedMap String Node}
  {relationships : List Relationship} {n : Node} {name : String}

open FeatureGroup

/-- A node is in the feature of a name exactly if its token is one of those that some group of this
name is made of. -/
theorem inFeature_iff (hid : ∀ {id n}, nodes.get? id = some n → n.id = id)
    (hn : n ∈ nodes.values) :
    InFeature (detectFeaturesBy dense rules nodes relationships) name n.id ↔
      ∃ g ∈ cluster dense relationships (seed rules.tokenOf nodes.values),
        ∃ tokens, MadeOf rules.tokenOf nodes.values relationships tokens g ∧
          rules.tokenOf n ∈ tokens ∧ "+".intercalate tokens = name := by
  have hids := NodeStore.eq_of_id_eq hid
  have hmade : ∀ g ∈ cluster dense relationships (seed rules.tokenOf nodes.values), ∃ tokens,
      MadeOf rules.tokenOf nodes.values relationships tokens g :=
    exists_madeOf_cluster (Partition.seed _ hids) fun g hg => ⟨_, MadeOf.seed hg⟩
  have hfeature : InFeature (detectFeaturesBy dense rules nodes relationships) name n.id ↔
      ∃ g ∈ cluster dense relationships (seed rules.tokenOf nodes.values),
        g.name = name ∧ n.id ∈ g.members := by
    rw [← mem_byName, InFeature, detectFeaturesBy]
    cases (byName _).get? name <;> simp
  rw [hfeature]
  refine exists_congr fun g => and_congr_right fun hg => ?_
  constructor
  · rintro ⟨rfl, hin⟩
    obtain ⟨tokens, htokens⟩ := hmade g hg
    obtain ⟨n', hn', ht, heq⟩ := htokens.mem_iff.mp hin
    exact ⟨tokens, htokens, hids n hn n' hn' heq ▸ ht, htokens.name_eq.symm⟩
  · rintro ⟨tokens, htokens, ht, rfl⟩
    exact ⟨htokens.name_eq, htokens.mem_iff.mpr ⟨n, hn, ht, rfl⟩⟩

/-- The group of a node that no directory places is the group of the unknown token. -/
theorem madeOf_unplaced (hn : n ∈ nodes.values) (hplace : rules.Unplaced n) :
    MadeOf rules.tokenOf nodes.values relationships [unknownFeature]
      (ofToken rules.tokenOf nodes.values unknownFeature) := by
  have hseed : ofToken rules.tokenOf nodes.values unknownFeature ∈
      seed rules.tokenOf nodes.values := by
    rw [seed_eq_tokenGroups]
    refine List.mem_map_of_mem (SortedSet.mem_def.mp (SortedSet.mem_ofList.mpr ?_))
    exact List.mem_map.mpr ⟨n, hn, hplace.token_eq⟩
  exact MadeOf.seed hseed

end Features

/-- Nodes of one feature have tokens that a chain of relationships connects, unless two groups with
different tokens happen to have the same name. Then the name of some directory has a plus sign in
it. -/
theorem detectFeatures_related (config : Config) (rules : TokenRules)
    (nodes : SortedMap String Node) (relationships : List Relationship)
    (hid : ∀ {id n}, nodes.get? id = some n → n.id = id) {name : String} {n n' : Node}
    (hn : n ∈ nodes.values) (hn' : n' ∈ nodes.values)
    (hin : InFeature (detectFeatures config rules nodes relationships) name n.id)
    (hin' : InFeature (detectFeatures config rules nodes relationships) name n'.id) :
    Relation.ReflTransGen (FeatureGroup.Related rules.tokenOf nodes.values relationships)
        (rules.tokenOf n) (rules.tokenOf n') ∨
      ∃ tokens tokens', "+".intercalate tokens = name ∧ "+".intercalate tokens' = name ∧
        tokens.Disjoint tokens' ∧ rules.tokenOf n ∈ tokens ∧ rules.tokenOf n' ∈ tokens' ∧
        ∃ m ∈ nodes.values, rules.tokenOf m ∈ tokens ++ tokens' ∧
          '+' ∈ (rules.tokenOf m).toList := by
  have hids := NodeStore.eq_of_id_eq hid
  obtain ⟨g, hg, tokens, htokens, ht, hname⟩ := (inFeature_iff hid hn).mp hin
  obtain ⟨g', hg', tokens', htokens', ht', hname'⟩ := (inFeature_iff hid hn').mp hin'
  by_cases heq : g = g'
  · subst heq
    obtain ⟨m, hm, htm, hidm⟩ := htokens.mem_iff.mp (htokens'.mem_iff.mpr ⟨n', hn', ht', rfl⟩)
    rw [← hids n' hn' m hm hidm] at htm
    exact .inl (htokens.related ht htm)
  · have hapart : FeatureGroup.Apart g g' :=
      (FeatureGroup.Partition.seed rules.tokenOf hids).cluster.disjoint.forall hg hg' heq
    have hdisjoint := htokens.disjoint htokens' hapart
    refine .inr ⟨tokens, tokens', hname, hname', hdisjoint, ht, ht', ?_⟩
    by_contra hnone
    have hplus : ∀ t ∈ tokens ++ tokens', '+' ∉ t.toList := by
      intro t hmem hplus
      obtain ⟨m, hm, rfl⟩ := (List.mem_append.mp hmem).elim htokens.exists_node htokens'.exists_node
      exact hnone ⟨m, hm, hmem, hplus⟩
    obtain rfl := eq_of_intercalate_eq htokens.ne_nil htokens'.ne_nil hplus
      (hname.trans hname'.symm)
    exact hdisjoint ht ht

/-- Three directories in one feature: nothing leads from the first to the third one directly, but
both are related to the second. -/
theorem detectFeatures_related_chain :
    let node (id path : String) : Node :=
      { id, name := id, fullyQualifiedName := id, kind := .type, accessibility := .publicScope
        projectId := "p", assemblyName := "A", location := some (.lines path 1 1) }
    let nodes := NodeStore.ofNodes [node "a" "A/a.cs", node "b" "B/b.cs", node "c" "C/c.cs"]
    let ab : Relationship := { sourceId := "a", targetId := "b", kind := .association }
    let cb : Relationship := { sourceId := "c", targetId := "b", kind := .association }
    let config := { Config.standard 4 with mergeThreshold := 0.4 }
    let rules := TokenRules.ofConfig config
    InFeature (detectFeatures config rules nodes [ab, cb]) "A+B+C" "a" ∧
      InFeature (detectFeatures config rules nodes [ab, cb]) "A+B+C" "c" ∧
      Relation.ReflTransGen (FeatureGroup.Related rules.tokenOf nodes.values [ab, cb]) "A" "C" := by
  intro node nodes ab cb config rules
  have hentries : ∀ e ∈ nodes.entries, e.2.id = e.1 := by decide +kernel
  have hfeature : (detectFeatures config rules nodes [ab, cb]).get? "A+B+C" =
      some (.ofList ["a", "b", "c"]) := by decide +kernel
  have hin : InFeature (detectFeatures config rules nodes [ab, cb]) "A+B+C" "a" :=
    ⟨_, hfeature, by decide⟩
  have hin' : InFeature (detectFeatures config rules nodes [ab, cb]) "A+B+C" "c" :=
    ⟨_, hfeature, by decide⟩
  refine ⟨hin, hin', ?_⟩
  have hplus : ∀ m ∈ nodes.values, '+' ∉ (rules.tokenOf m).toList := by decide +kernel
  have ha : node "a" "A/a.cs" ∈ nodes.values := by decide +kernel
  have hc : node "c" "C/c.cs" ∈ nodes.values := by decide +kernel
  obtain hchain | ⟨_, _, _, _, _, _, _, m, hm, -, hplus'⟩ := detectFeatures_related config rules
    nodes [ab, cb] (fun hn => hentries _ (SortedMap.get?_eq_some_iff.mp hn)) ha hc hin hin'
  · exact hchain
  · exact absurd hplus' (hplus m hm)

/-- Two related directories give a group the name that a third one has by itself, and so all three
are in one feature, although nothing leads to the third one. -/
theorem detectFeatures_unrelated_namesakes :
    let node (id path : String) : Node :=
      { id, name := id, fullyQualifiedName := id, kind := .type, accessibility := .publicScope
        projectId := "p", assemblyName := "A", location := some (.lines path 1 1) }
    let nodes := NodeStore.ofNodes [node "a" "A/a.cs", node "b" "B/b.cs", node "c" "A+B/c.cs"]
    let ab : Relationship := { sourceId := "a", targetId := "b", kind := .association }
    let config := Config.standard 4
    let rules := TokenRules.ofConfig config
    detectFeatures config rules nodes [ab] = .ofList [("A+B", .ofList ["a", "b", "c"])] ∧
      rules.tokenOf (node "a" "A/a.cs") = "A" ∧ rules.tokenOf (node "c" "A+B/c.cs") = "A+B" ∧
      ¬ Relation.ReflTransGen (FeatureGroup.Related rules.tokenOf nodes.values [ab]) "A" "A+B" := by
  intro node nodes ab config rules
  refine ⟨by decide +kernel, by decide +kernel, by decide +kernel, fun hchain => ?_⟩
  have hnone : ∀ r ∈ [ab], ∀ n ∈ nodes.values, ∀ n' ∈ nodes.values,
      rules.tokenOf n' = "A+B" → ¬ ((r.sourceId = n.id ∧ r.targetId = n'.id) ∨
        (r.sourceId = n'.id ∧ r.targetId = n.id)) := by decide +kernel
  obtain heq | ⟨t, -, r, hr, n, hn, n', hn', -, htoken, hends⟩ := hchain.cases_tail
  · exact absurd heq (by decide)
  · exact hnone r hr n hn n' hn' htoken hends

/-- A node that no directory places is in the unknown feature exactly if no merge takes the group of
the unknown token, so that clustering leaves it as it was. It does if no relationship leads from
such a node to one of another token. In any case all of these nodes are in one feature, whose name
joins the unknown token with tokens to which chains of relationships lead from it. -/
theorem detectFeatures_unplaced (config : Config) (rules : TokenRules)
    (nodes : SortedMap String Node) (relationships : List Relationship)
    (hid : ∀ {id n}, nodes.get? id = some n → n.id = id) {n : Node} (hn : n ∈ nodes.values)
    (hplace : rules.Unplaced n) :
    let related := FeatureGroup.Related rules.tokenOf nodes.values relationships
    let unplaced := FeatureGroup.ofToken rules.tokenOf nodes.values unknownFeature
    let remaining := FeatureGroup.cluster (exceedsThreshold config.mergeThreshold) relationships
      (FeatureGroup.seed rules.tokenOf nodes.values)
    let features := detectFeatures config rules nodes relationships
    (InFeature features unknownFeature n.id ↔ unplaced ∈ remaining) ∧
    ((∀ t, related unknownFeature t → t = unknownFeature) → unplaced ∈ remaining) ∧
    ∃ tokens, unknownFeature ∈ tokens ∧
      (∀ t ∈ tokens, Relation.ReflTransGen related unknownFeature t) ∧
      ∀ n' ∈ nodes.values, rules.Unplaced n' →
        InFeature features ("+".intercalate tokens) n'.id := by
  intro related unplaced remaining features
  have hunplaced : FeatureGroup.MadeOf rules.tokenOf nodes.values relationships [unknownFeature]
      unplaced := madeOf_unplaced hn hplace
  -- the group that holds the node at the end
  obtain ⟨name, members, hget, hin⟩ := (namedPartition_detectFeaturesBy hid).covers.mp
    ⟨n, hn, rfl⟩
  have hfeature : InFeature features name n.id := ⟨members, hget, hin⟩
  obtain ⟨g, hg, tokens, htokens, ht, hname⟩ := (inFeature_iff hid hn).mp hfeature
  rw [hplace.token_eq] at ht
  refine ⟨?_, fun halone => ?_, tokens, ht, fun t => htokens.related ht, fun n' hn' hplace' => ?_⟩
  · rw [show InFeature features unknownFeature n.id ↔ _ from inFeature_iff hid hn]
    constructor
    · rintro ⟨g', hg', tokens', htokens', -, hname'⟩
      obtain rfl := (intercalate_eq_iff htokens'.ne_nil (by decide)).mp hname'
      rwa [htokens'.unique hunplaced] at hg'
    · intro hremains
      exact ⟨unplaced, hremains, _, hunplaced, List.mem_singleton.mpr hplace.token_eq,
        String.intercalate_singleton⟩
  · obtain rfl := htokens.eq_singleton ht halone
    rwa [htokens.unique hunplaced] at hg
  · exact (inFeature_iff hid hn').mpr ⟨g, hg, tokens, htokens, by rwa [hplace'.token_eq], rfl⟩

/-- A node without a file refers to one of two nodes of a directory. That is not enough for a merge,
so it stays in the unknown feature. -/
theorem detectFeatures_unplaced_apart :
    let node (id : String) (location : Option Location) : Node :=
      { id, name := id, fullyQualifiedName := id, kind := .type, accessibility := .publicScope
        projectId := "p", assemblyName := "A", location }
    let x := node "x" none
    let nodes := NodeStore.ofNodes [x, node "o" (some (.lines "Shop/Orders/Order.cs" 1 1)),
      node "l" (some (.lines "Shop/Orders/Line.cs" 1 1))]
    let xo : Relationship := { sourceId := "x", targetId := "o", kind := .association }
    let config := Config.standard 4
    let rules := TokenRules.ofConfig config
    x ∈ nodes.values ∧ rules.Unplaced x ∧
      InFeature (detectFeatures config rules nodes [xo]) unknownFeature "x" := by
  intro node x nodes xo config rules
  have hentries : ∀ e ∈ nodes.entries, e.2.id = e.1 := by decide +kernel
  have hx : x ∈ nodes.values := by decide +kernel
  have hplace : rules.Unplaced x := fun _ hpath => nomatch hpath
  obtain ⟨hiff, -, -⟩ := detectFeatures_unplaced config rules nodes [xo]
    (fun hn => hentries _ (SortedMap.get?_eq_some_iff.mp hn)) hx hplace
  exact ⟨hx, hplace, hiff.mpr (by decide +kernel)⟩

/-- A node without a file refers to the only node of a directory; both are merged, and the node is
not in the unknown feature. -/
theorem detectFeatures_unplaced_merged :
    let node (id : String) (location : Option Location) : Node :=
      { id, name := id, fullyQualifiedName := id, kind := .type, accessibility := .publicScope
        projectId := "p", assemblyName := "A", location }
    let x := node "x" none
    let nodes := NodeStore.ofNodes [x, node "o" (some (.lines "Shop/Orders/Order.cs" 1 1))]
    let xo : Relationship := { sourceId := "x", targetId := "o", kind := .association }
    let config := Config.standard 4
    let rules := TokenRules.ofConfig config
    x ∈ nodes.values ∧ rules.Unplaced x ∧
      detectFeatures config rules nodes [xo] = .ofList [("Orders+Unknown", .ofList ["o", "x"])] ∧
      ¬ InFeature (detectFeatures config rules nodes [xo]) unknownFeature "x" := by
  intro node x nodes xo config rules
  have hnone : (detectFeatures config rules nodes [xo]).get? unknownFeature = none := by
    decide +kernel
  have hplace : rules.Unplaced x := fun _ hpath => nomatch hpath
  refine ⟨by decide +kernel, hplace, by decide +kernel, ?_⟩
  rintro ⟨members, hget, -⟩
  rw [hnone] at hget
  cases hget

end CodeAtlas
