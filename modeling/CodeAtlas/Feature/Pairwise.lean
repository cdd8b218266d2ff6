import CodeAtlas.Feature.Clustering

/-!
# Clustering by comparing all pairs

The plain definition of features, without tables. There is one group for every token
(`FeatureGroup.tokenGroups`). Every two groups are compared, in the order of their places, by
counting the relationships between them (`FeatureGroup.between`) and dividing by the number of pairs
of their nodes (`FeatureGroup.share`); the union of the first dense pair takes the place of the left
group, the right one goes, and the comparison starts anew (`FeatureGroup.clusterPairwise`). In the
end groups of one name are united (`FeatureGroup.uniteNamesakes`).

Other than `FeatureGroup.cluster` this looks at every pair in every round, connected or not.
-/

namespace CodeAtlas

/-- The relationship that leads back. -/
def Relationship.reversed (r : Relationship) : Relationship :=
  { r with sourceId := r.targetId, targetId := r.sourceId }

namespace FeatureGroup

/-! ## Seeding -/

/-- The nodes with a token, under it. -/
def ofToken (token : Node → String) (nodes : List Node) (t : String) : FeatureGroup :=
  ⟨t, .ofList ((nodes.filter fun n => token n == t).map (·.id))⟩

/-- One group for every token, in the order of the tokens. -/
def tokenGroups (token : Node → String) (nodes : List Node) : List FeatureGroup :=
  (SortedSet.ofList (nodes.map token)).toList.map (ofToken token nodes)

/-! ## Comparing -/

/-- Whether a relationship has one end in each of two groups. -/
def connects (a b : FeatureGroup) (r : Relationship) : Bool :=
  decide (r.sourceId ∈ a.members ∧ r.targetId ∈ b.members) ||
    decide (r.sourceId ∈ b.members ∧ r.targetId ∈ a.members)

/-- The number of relationships between two groups, in either direction. -/
def between (relationships : List Relationship) (a b : FeatureGroup) : Nat :=
  relationships.countP (connects a b)

/-- The pairs of places in a list of `n` groups, in their order. -/
def pairs (n : Nat) : List GroupPair :=
  (List.range n).flatMap fun i => ((List.range n).filter (i < ·)).map fun j => ⟨i, j⟩

/-- Whether the groups at a pair of places are dense. -/
def isDense (dense : Nat → Nat → Nat → Bool) (relationships : List Relationship)
    (groups : List FeatureGroup) (p : GroupPair) : Bool :=
  match groups[p.first]?, groups[p.second]? with
  | some a, some b => dense (between relationships a b) a.members.size b.members.size
  | _, _ => false

/-- The first pair of all that is dense. -/
def firstPair? (dense : Nat → Nat → Nat → Bool) (relationships : List Relationship)
    (groups : List FeatureGroup) : Option GroupPair :=
  (pairs groups.length).find? (isDense dense relationships groups)

/-- The pairs of a list of groups are those of two places of it, the one further left first. -/
theorem mem_pairs {n : Nat} {p : GroupPair} : p ∈ pairs n ↔ p.first < p.second ∧ p.second < n := by
  simp only [pairs, List.mem_flatMap, List.mem_map, List.mem_filter, List.mem_range,
    decide_eq_true_eq]
  constructor
  · rintro ⟨i, -, j, ⟨hj, hij⟩, rfl⟩
    exact ⟨hij, hj⟩
  · rintro ⟨hlt, hsecond⟩
    exact ⟨p.first, by omega, p.second, ⟨hsecond, hlt⟩, rfl⟩

/-- A dense pair names two groups of the list in their order. -/
theorem firstPair?_lt {dense : Nat → Nat → Nat → Bool} {relationships : List Relationship}
    {groups : List FeatureGroup} {p : GroupPair}
    (h : firstPair? dense relationships groups = some p) :
    p.first < p.second ∧ p.second < groups.length :=
  mem_pairs.mp (List.mem_of_find?_eq_some h)

/-! ## Uniting -/

/-- The ids of both groups, under the names of both with a plus sign between them. -/
def plus (a b : FeatureGroup) : FeatureGroup :=
  { name := "+".intercalate [a.name, b.name]
    members := .ofList (a.members.toList ++ b.members.toList) }

/-- The list with the union of two groups at the place of the left one, and without the right
one. -/
def unite (groups : List FeatureGroup) (p : GroupPair) : List FeatureGroup :=
  match groups[p.first]?, groups[p.second]? with
  | some a, some b => (groups.set p.first (a.plus b)).eraseIdx p.second
  | _, _ => groups

/-- Uniting shortens the list. -/
theorem length_unite_lt {groups : List FeatureGroup} {p : GroupPair}
    (h : p.first < p.second ∧ p.second < groups.length) :
    (unite groups p).length < groups.length := by
  have hfirst : p.first < groups.length := by omega
  simp only [unite, List.getElem?_eq_getElem hfirst, List.getElem?_eq_getElem h.2]
  rw [List.length_eraseIdx_of_lt (by simpa using h.2), List.length_set]
  omega

/-- The groups that are left when no pair is dense any more. -/
def clusterPairwise (dense : Nat → Nat → Nat → Bool) (relationships : List Relationship)
    (groups : List FeatureGroup) : List FeatureGroup :=
  match h : firstPair? dense relationships groups with
  | none => groups
  | some p =>
    have := length_unite_lt (firstPair?_lt h)
    clusterPairwise dense relationships (unite groups p)
termination_by groups.length

section

variable {dense : Nat → Nat → Nat → Bool} {relationships : List Relationship}
  {groups : List FeatureGroup} {p : GroupPair}

/-- Without a dense pair the groups are left. -/
theorem clusterPairwise_of_none (h : firstPair? dense relationships groups = none) :
    clusterPairwise dense relationships groups = groups := by
  rw [clusterPairwise.eq_def]
  split
  · rfl
  · rename_i p hsome
    rw [h] at hsome
    cases hsome

/-- With a dense pair the comparison starts anew with the united groups. -/
theorem clusterPairwise_of_some (h : firstPair? dense relationships groups = some p) :
    clusterPairwise dense relationships groups =
      clusterPairwise dense relationships (unite groups p) := by
  rw [clusterPairwise.eq_def]
  split
  · rename_i hnone
    rw [h] at hnone
    cases hnone
  · rename_i q hsome
    rw [h] at hsome
    cases hsome
    rfl

end

/-- The members of all groups of a name. -/
def membersNamed (groups : List FeatureGroup) (name : String) : SortedSet String :=
  .ofList ((groups.filter (·.name == name)).flatMap (·.members.toList))

/-- The names of the groups, each with the members of all groups of that name. -/
def uniteNamesakes (groups : List FeatureGroup) : SortedMap String (SortedSet String) :=
  .ofList (groups.map fun g => (g.name, membersNamed groups g.name))

/-- The number of relationships between two groups over the number of pairs of their nodes, counted
with machine words; zero if there is no pair. -/
def share (edges sizeA sizeB : Nat) : Float :=
  let possible := sizeA * sizeB % UInt64.size
  if possible = 0 then 0 else Float.ofNat (edges % UInt64.size) / Float.ofNat possible

end FeatureGroup

/-- The features of nodes by name, found by comparing all pairs of groups. -/
def detectPairwise (threshold : Float) (rules : TokenRules) (nodes : SortedMap String Node)
    (relationships : List Relationship) : SortedMap String (SortedSet String) :=
  FeatureGroup.uniteNamesakes (FeatureGroup.clusterPairwise
    (fun edges sizeA sizeB => threshold < FeatureGroup.share edges sizeA sizeB) relationships
    (FeatureGroup.tokenGroups (fun n => rules.token n.filePath) nodes.values))

end CodeAtlas
