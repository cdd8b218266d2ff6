import CodeAtlas.Collections.KeyPair
import CodeAtlas.Feature.Token
import CodeAtlas.Graph.Node
import CodeAtlas.Graph.Relationship

/-!
# Clustering nodes into features

The nodes of one feature token form a group, and the groups stand in the order of their tokens
(`FeatureGroup.seed`). As long as some two groups are densely connected, the first such pair, in the
order of the places of its groups, becomes one group at the place of the left one
(`FeatureGroup.cluster`). In the end groups of one name are united (`FeatureGroup.byName`).

What counts as dense is a parameter: a test on the number of relationships between two groups, in
either direction, and the sizes of the groups. Only pairs with at least one relationship are tested.
Every round leaves one group less (`FeatureGroup.length_merge`), so clustering ends.
-/

namespace CodeAtlas

/-- A group of nodes under a name. -/
structure FeatureGroup where
  name : String
  /-- The ids of the nodes. -/
  members : SortedSet String
  deriving DecidableEq

/-- The places of two groups in a list, the one further left first. -/
abbrev GroupPair := KeyPair Nat

namespace FeatureGroup

/-- The group with the nodes of both. -/
def join (a b : FeatureGroup) : FeatureGroup :=
  ⟨a.name ++ "+" ++ b.name, a.members.union b.members⟩

/-! ## Seeding -/

/-- The ids of the nodes by their tokens. -/
def idsByToken (token : Node → String) (nodes : List Node) :
    SortedMap String (SortedSet String) :=
  nodes.foldl (fun groups n =>
    groups.upsert (token n) fun ids => (ids.getD .empty).insert n.id) .empty

/-- The groups of nodes with one token, in the order of the tokens. -/
def seed (token : Node → String) (nodes : List Node) : List FeatureGroup :=
  (idsByToken token nodes).entries.map fun g => ⟨g.1, g.2⟩

/-! ## Relationships between groups -/

/-- The place of the last group that holds the id. -/
def placeOf? (id : String) : List FeatureGroup → Option Nat
  | [] => none
  | g :: rest =>
    match placeOf? id rest with
    | some i => some (i + 1)
    | none => if id ∈ g.members then some 0 else none

/-- The two groups that a relationship connects, unless it stays within one. -/
def crossing? (groups : List FeatureGroup) (r : Relationship) : Option GroupPair := do
  let a ← placeOf? r.sourceId groups
  let b ← placeOf? r.targetId groups
  if a < b then some ⟨a, b⟩ else if b < a then some ⟨b, a⟩ else none

/-- The table of counts with one more occurrence of a pair. -/
def countPair (table : SortedMap GroupPair Nat) (p : GroupPair) : SortedMap GroupPair Nat :=
  table.upsert p fun n => n.getD 0 + 1

/-- The number of relationships between any two groups that some relationship connects. -/
def crossings (groups : List FeatureGroup) (relationships : List Relationship) :
    SortedMap GroupPair Nat :=
  (relationships.filterMap (crossing? groups)).foldl countPair .empty

/-- The size of the group at a place. -/
def sizeAt (groups : List FeatureGroup) (i : Nat) : Nat :=
  (groups[i]?.map (·.members.size)).getD 0

/-- The first pair of groups that is dense. -/
def firstDense? (dense : Nat → Nat → Nat → Bool) (relationships : List Relationship)
    (groups : List FeatureGroup) : Option GroupPair :=
  ((crossings groups relationships).entries.find? fun e =>
    dense e.2 (sizeAt groups e.1.first) (sizeAt groups e.1.second)).map (·.1)

/-- An id is held at a place of the list. -/
theorem placeOf?_lt {id : String} {groups : List FeatureGroup} {i : Nat}
    (h : placeOf? id groups = some i) : i < groups.length := by
  induction groups generalizing i with
  | nil => simp [placeOf?] at h
  | cons g rest ih =>
    simp only [placeOf?] at h
    split at h
    · rename_i j hj
      obtain rfl := Option.some.inj h
      have := ih hj
      simp only [List.length_cons]
      omega
    · split at h
      · obtain rfl := Option.some.inj h
        simp
      · cases h

/-- A relationship connects two groups of the list, named in their order. -/
theorem crossing?_lt {groups : List FeatureGroup} {r : Relationship} {p : GroupPair}
    (h : crossing? groups r = some p) : p.first < p.second ∧ p.second < groups.length := by
  simp only [crossing?, Option.bind_eq_bind, Option.bind_eq_some_iff] at h
  obtain ⟨a, ha, b, hb, h⟩ := h
  have hla := placeOf?_lt ha
  have hlb := placeOf?_lt hb
  split at h
  · obtain rfl := Option.some.inj h
    exact ⟨‹_›, hlb⟩
  · split at h
    · obtain rfl := Option.some.inj h
      exact ⟨‹_›, hla⟩
    · cases h

/-- Only counted pairs stand in a table of counts. -/
theorem mem_foldl_countPair {l : List GroupPair} {table : SortedMap GroupPair Nat}
    {e : GroupPair × Nat} (h : e ∈ (l.foldl countPair table).entries) :
    e.1 ∈ l ∨ e.1 ∈ table.keyList := by
  induction l generalizing table with
  | nil => exact Or.inr (List.mem_map_of_mem h)
  | cons p rest ih =>
    rcases ih h with h | h
    · exact Or.inl (List.mem_cons_of_mem _ h)
    · obtain ⟨e', he', heq⟩ := List.mem_map.mp h
      rcases SortedMap.key_of_mem_upsertList he' with hk | hk
      · exact Or.inl (by rw [← heq, hk]; exact List.mem_cons_self)
      · exact Or.inr (by rw [← heq]; exact hk)

/-- Some relationship connects the groups of a dense pair. -/
theorem exists_crossing_of_firstDense? {dense : Nat → Nat → Nat → Bool}
    {relationships : List Relationship} {groups : List FeatureGroup} {p : GroupPair}
    (h : firstDense? dense relationships groups = some p) :
    ∃ r ∈ relationships, crossing? groups r = some p := by
  obtain ⟨e, he, rfl⟩ := Option.map_eq_some_iff.mp h
  rcases mem_foldl_countPair (List.mem_of_find?_eq_some he) with h | h
  · exact List.mem_filterMap.mp h
  · simp [SortedMap.keyList, SortedMap.empty] at h

/-- A dense pair names two groups of the list in their order. -/
theorem firstDense?_lt {dense : Nat → Nat → Nat → Bool} {relationships : List Relationship}
    {groups : List FeatureGroup} {p : GroupPair}
    (h : firstDense? dense relationships groups = some p) :
    p.first < p.second ∧ p.second < groups.length := by
  obtain ⟨r, -, hr⟩ := exists_crossing_of_firstDense? h
  exact crossing?_lt hr

/-! ## Merging -/

/-- The list with the two groups of a pair as one: both are taken out, the right one first, and
their join is put at the place of the left one. -/
def merge (groups : List FeatureGroup) (p : GroupPair) : List FeatureGroup :=
  match groups[p.first]?, groups[p.second]? with
  | some a, some b => ((groups.eraseIdx p.second).eraseIdx p.first).insertIdx p.first (a.join b)
  | _, _ => groups

/-- Merging a pair of the list joins its two groups. -/
theorem merge_eq {groups : List FeatureGroup} {p : GroupPair} (hfirst : p.first < groups.length)
    (hsecond : p.second < groups.length) :
    merge groups p = ((groups.eraseIdx p.second).eraseIdx p.first).insertIdx p.first
      (groups[p.first].join groups[p.second]) := by
  simp only [merge, List.getElem?_eq_getElem hfirst, List.getElem?_eq_getElem hsecond]

/-- Merging leaves one group less. -/
theorem length_merge {groups : List FeatureGroup} {p : GroupPair}
    (h : p.first < p.second ∧ p.second < groups.length) :
    (merge groups p).length + 1 = groups.length := by
  obtain ⟨hlt, hsecond⟩ := h
  have hright : (groups.eraseIdx p.second).length = groups.length - 1 :=
    List.length_eraseIdx_of_lt hsecond
  have hleft : ((groups.eraseIdx p.second).eraseIdx p.first).length = groups.length - 1 - 1 := by
    rw [List.length_eraseIdx_of_lt (by omega), hright]
  rw [merge_eq (by omega) hsecond, List.length_insertIdx_of_le_length (by omega), hleft]
  omega

/-- Merging shortens the list. -/
theorem length_merge_lt {groups : List FeatureGroup} {p : GroupPair}
    (h : p.first < p.second ∧ p.second < groups.length) :
    (merge groups p).length < groups.length := by
  have := length_merge h
  omega

/-- The groups that are left when no pair is dense any more. -/
def cluster (dense : Nat → Nat → Nat → Bool) (relationships : List Relationship)
    (groups : List FeatureGroup) : List FeatureGroup :=
  match h : firstDense? dense relationships groups with
  | none => groups
  | some p =>
    have := length_merge_lt (firstDense?_lt h)
    cluster dense relationships (merge groups p)
termination_by groups.length

section

variable {dense : Nat → Nat → Nat → Bool} {relationships : List Relationship}
  {groups : List FeatureGroup} {p : GroupPair}

/-- Without a dense pair the groups are left. -/
theorem cluster_of_none (h : firstDense? dense relationships groups = none) :
    cluster dense relationships groups = groups := by
  rw [cluster.eq_def]
  split
  · rfl
  · rename_i p hsome
    rw [h] at hsome
    cases hsome

/-- With a dense pair clustering goes on with the merged groups. -/
theorem cluster_of_some (h : firstDense? dense relationships groups = some p) :
    cluster dense relationships groups = cluster dense relationships (merge groups p) := by
  rw [cluster.eq_def]
  split
  · rename_i hnone
    rw [h] at hnone
    cases hnone
  · rename_i q hsome
    rw [h] at hsome
    cases hsome
    rfl

end

/-- The members of the groups by name, groups of one name united. -/
def byName (groups : List FeatureGroup) : SortedMap String (SortedSet String) :=
  groups.foldl (fun m g => m.upsert g.name fun ids => (ids.getD .empty).union g.members) .empty

end FeatureGroup

/-! ## Features -/

/-- The number of relationships between two groups in relation to the number of pairs of their
nodes, both modulo `2 ^ 64`; zero if there is no pair. -/
def couplingStrength (edges sizeA sizeB : UInt64) : Float :=
  let possible := sizeA * sizeB
  if possible = 0 then 0 else edges.toFloat / possible.toFloat

/-- The coupling of two groups, if the number of pairs of their nodes is a word; otherwise there is
a panic. -/
def couplingStrength? (edges sizeA sizeB : UInt64) : Option Float :=
  if sizeA.toNat * sizeB.toNat < UInt64.size then some (couplingStrength edges sizeA sizeB)
  else none

/-- Whether two groups are more strongly coupled than a threshold. -/
def exceedsThreshold (threshold : Float) (edges sizeA sizeB : Nat) : Bool :=
  threshold < couplingStrength (.ofNat edges) (.ofNat sizeA) (.ofNat sizeB)

/-- The features of nodes by name, each with the ids of its nodes, for a test of what is dense. -/
def detectFeaturesBy (dense : Nat → Nat → Nat → Bool) (rules : TokenRules)
    (nodes : SortedMap String Node) (relationships : List Relationship) :
    SortedMap String (SortedSet String) :=
  FeatureGroup.byName (FeatureGroup.cluster dense relationships
    (FeatureGroup.seed (fun n => rules.token n.filePath) nodes.values))

/-- The features of nodes by name, each with the ids of its nodes. -/
def detectFeatures (config : Config) (rules : TokenRules) (nodes : SortedMap String Node)
    (relationships : List Relationship) : SortedMap String (SortedSet String) :=
  detectFeaturesBy (exceedsThreshold config.mergeThreshold) rules nodes relationships

end CodeAtlas
