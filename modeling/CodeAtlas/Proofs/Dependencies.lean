import CodeAtlas.Analysis.Coupling
import Mathlib.Algebra.Order.BigOperators.Group.List
import Mathlib.Algebra.Order.Field.Rat
import Mathlib.Data.List.Forall2
import Mathlib.Tactic.Linarith
import Mathlib.Tactic.NormNum

/-!
# What the dependencies between projects say

The relationships are gone through once and each is put under the pair of projects that it leads
between. What stands under a pair in the end are the relationships that lead from nodes of the first
project to nodes of the second (`get?_crossProjectRelationships`, by induction on the
relationships). So there is one dependency for each pair of different listed projects with such a
relationship, and it counts exactly these (`projectDependencies_summarize`).

The strength of a dependency is computed in floating-point numbers, from the weights that are listed
for the kinds (`RelationKind.listedWeight`). `exactStrength` is the same expression over the
rational numbers: there it is the mean of the listed weights, and since every weight is between a
tenth and one, the limit to one changes nothing (`exactStrength_eq_meanListed`).
-/

namespace CodeAtlas

variable {nodes : SortedMap String Node} {relationships : List Relationship}
  {projects : List Project} {pair : ProjectPair} {r : Relationship}

/-! ## Relationships between two projects -/

/-- The relationship leads from a node of the first project to a node of the second. -/
def Relationship.leads (nodes : SortedMap String Node) (pair : ProjectPair) (r : Relationship) :
    Bool :=
  (nodes.get? r.sourceId).any (·.projectId == pair.first) &&
    (nodes.get? r.targetId).any (·.projectId == pair.second)

/-- The relationships that lead from nodes of the first project to nodes of the second. -/
def relationshipsBetween (nodes : SortedMap String Node) (relationships : List Relationship)
    (pair : ProjectPair) : List Relationship :=
  relationships.filter (·.leads nodes pair)

/-- The first project depends on the second: they are two of the listed projects, and some
relationship leads from the one to the other. -/
structure DependsOn (nodes : SortedMap String Node) (relationships : List Relationship)
    (projects : List Project) (pair : ProjectPair) : Prop where
  different : pair.first ≠ pair.second
  source_listed : pair.first ∈ projects.map (·.id)
  target_listed : pair.second ∈ projects.map (·.id)
  leads : ∃ r ∈ relationships, r.leads nodes pair = true

/-- A relationship is put under a pair if they are different listed projects and it leads between
them. -/
theorem projectPair?_eq_some_iff : projectPair? nodes projects r = some pair ↔
    (pair.first ≠ pair.second ∧ pair.first ∈ projects.map (·.id) ∧
      pair.second ∈ projects.map (·.id)) ∧ r.leads nodes pair = true := by
  obtain ⟨first, second⟩ := pair
  have hlisted : ∀ id : String, projects.any (·.id == id) = true ↔ id ∈ projects.map (·.id) := by
    intro id
    simp [List.any_eq_true, List.mem_map]
  unfold projectPair? Relationship.leads
  cases nodes.get? r.sourceId with
  | none => simp
  | some source =>
    cases nodes.get? r.targetId with
    | none => simp
    | some target =>
      simp only [Option.bind_eq_bind, Option.bind_some, Option.ite_none_right_eq_some,
        Option.any_some, Bool.and_eq_true, decide_eq_true_eq, hlisted, Option.some.injEq,
        KeyPair.mk.injEq, beq_iff_eq]
      constructor
      · rintro ⟨⟨⟨hne, hsource⟩, htarget⟩, rfl, rfl⟩
        exact ⟨⟨hne, hsource, htarget⟩, rfl, rfl⟩
      · rintro ⟨⟨hne, hsource, htarget⟩, rfl, rfl⟩
        exact ⟨⟨⟨hne, hsource⟩, htarget⟩, rfl, rfl⟩

/-! ## The table of relationships by projects -/

/-- Each relationship of a pair is put behind those that the table has under the pair. -/
theorem get?_foldl_pushCrossing {table : SortedMap ProjectPair (List Relationship)} :
    (relationships.foldl (pushCrossing nodes projects) table).get? pair =
      if relationships.filter (fun r => projectPair? nodes projects r = some pair) = [] then
        table.get? pair
      else some ((table.get? pair).getD [] ++
        relationships.filter fun r => projectPair? nodes projects r = some pair) := by
  induction relationships generalizing table with
  | nil => rfl
  | cons r rest ih =>
    rw [List.foldl_cons, ih, pushCrossing, List.filter_cons]
    cases hpair : projectPair? nodes projects r with
    | none => simp
    | some other =>
      have hpush : (table.push other r).get? pair =
          if pair = other then some ((table.get? other).getD [] ++ [r]) else table.get? pair :=
        SortedMap.get?_upsert
      by_cases hother : pair = other
      · subst hother
        simp only [hpush, if_true, decide_true, Option.getD_some, List.cons_ne_nil, if_false,
          List.append_assoc, List.cons_append, List.nil_append]
        split
        · rename_i hnil
          rw [hnil]
        · rfl
      · simp only [hpush, if_neg hother, Option.some.injEq, Ne.symm hother, decide_false,
          Bool.false_eq_true, if_false]

/-- Under a pair of different listed projects stand the relationships between them, if there are
any, and under other pairs nothing does. -/
theorem get?_crossProjectRelationships {edges : List Relationship} :
    (crossProjectRelationships nodes projects relationships).get? pair = some edges ↔
      DependsOn nodes relationships projects pair ∧
        relationshipsBetween nodes relationships pair = edges := by
  have hget : (crossProjectRelationships nodes projects relationships).get? pair =
      if relationships.filter (fun r => projectPair? nodes projects r = some pair) = [] then none
      else some (relationships.filter fun r => projectPair? nodes projects r = some pair) :=
    get?_foldl_pushCrossing
  rw [hget, Option.ite_none_left_eq_some, Option.some.injEq]
  simp only [List.filter_eq_nil_iff, decide_eq_true_eq, not_forall, not_not, exists_prop,
    projectPair?_eq_some_iff]
  constructor
  · rintro ⟨⟨r, hr, ⟨hne, hsource, htarget⟩, hleads⟩, rfl⟩
    exact ⟨⟨hne, hsource, htarget, r, hr, hleads⟩,
      List.filter_congr fun r _ => by simp [hne, hsource, htarget]⟩
  · rintro ⟨⟨hne, hsource, htarget, r, hr, hleads⟩, rfl⟩
    exact ⟨⟨r, hr, ⟨hne, hsource, htarget⟩, hleads⟩,
      List.filter_congr fun r _ => by simp [hne, hsource, htarget]⟩

/-- The dependencies are made pair by pair, in the order of the pairs, from the relationships
between the two projects. -/
theorem projectDependencies_eq : projectDependencies nodes relationships projects =
    (crossProjectRelationships nodes projects relationships).keyList.map fun pair =>
      .ofRelationships pair (relationshipsBetween nodes relationships pair) := by
  rw [projectDependencies, SortedMap.keyList, List.map_map]
  refine List.map_congr_left fun e he => ?_
  obtain ⟨-, hedges⟩ := get?_crossProjectRelationships.mp (SortedMap.get?_eq_some_iff.mpr he)
  rw [Function.comp_apply, hedges]

/-- The pairs in the table are those of which the first project depends on the second. -/
theorem mem_keyList_crossProjectRelationships :
    pair ∈ (crossProjectRelationships nodes projects relationships).keyList ↔
      DependsOn nodes relationships projects pair := by
  rw [SortedMap.mem_keyList, SortedMap.contains_iff]
  simp only [get?_crossProjectRelationships, exists_and_left, exists_eq', and_true]

/-! ## Exact strength -/

/-- The weights of the kinds: those that are not listed weigh a tenth. -/
def RelationKind.listedWeight {α : Type} [OfScientific α] : RelationKind → α
  | inheritance => 1.0
  | implementation => 0.9
  | composition => 0.8
  | methodCall => 0.6
  | propertyAccess => 0.5
  | association => 0.3
  | _ => 0.1

/-- A weight in tenths is the listed one, in floating-point numbers too. -/
theorem RelationKind.weightIn_float (k : RelationKind) :
    k.weightIn Float.ofNat = k.listedWeight := by
  cases k <;> decide

theorem RelationKind.weightIn_rat (k : RelationKind) :
    (k.weightIn fun n => (n : ℚ)) = k.listedWeight := by
  cases k <;> norm_num [weightIn, tenths, listedWeight]

/-- The strength of a dependency as it is computed, but over the rational numbers. -/
def exactStrength (kinds : List RelationKind) : ℚ := meanWeight (fun n => (n : ℚ)) kinds

/-- The mean of the listed weights. -/
def meanListed (kinds : List RelationKind) : ℚ :=
  (kinds.map RelationKind.listedWeight).sum / kinds.length

/-- In exact numbers the strength is the mean weight, limited to one. -/
theorem exactStrength_eq_min (kinds : List RelationKind) :
    exactStrength kinds = min (meanListed kinds) 1 := by
  rw [exactStrength, meanWeight, meanListed, List.sum_eq_foldl, List.foldl_map, Nat.cast_zero,
    Nat.cast_one]
  simp only [RelationKind.weightIn_rat]

/-- The mean of numbers between two bounds is between them. -/
theorem mean_bounds {a b : ℚ} {l : List ℚ} (hl : l ≠ []) (h : ∀ x ∈ l, a ≤ x ∧ x ≤ b) :
    a ≤ l.sum / l.length ∧ l.sum / l.length ≤ b := by
  have hpos : (0 : ℚ) < l.length := Nat.cast_pos.mpr (List.length_pos_iff.mpr hl)
  have hlow := List.card_nsmul_le_sum l a fun x hx => (h x hx).1
  have hhigh := List.sum_le_card_nsmul l b fun x hx => (h x hx).2
  rw [nsmul_eq_mul] at hlow hhigh
  rw [le_div_iff₀ hpos, div_le_iff₀ hpos]
  exact ⟨by linarith, by linarith⟩

/-- A weight is at least a tenth and at most one, and so is the mean of some weights. -/
theorem meanListed_bounds {kinds : List RelationKind} (h : kinds ≠ []) :
    1 / 10 ≤ meanListed kinds ∧ meanListed kinds ≤ 1 := by
  have hweights : ∀ x ∈ kinds.map RelationKind.listedWeight, (1 / 10 : ℚ) ≤ x ∧ x ≤ 1 := by
    intro x hx
    obtain ⟨k, -, rfl⟩ := List.mem_map.mp hx
    cases k <;> simp only [RelationKind.listedWeight] <;> norm_num
  have hbounds := mean_bounds (by simpa using h) hweights
  rwa [List.length_map] at hbounds

/-- So the limit changes nothing. -/
theorem exactStrength_eq_meanListed {kinds : List RelationKind} (h : kinds ≠ []) :
    exactStrength kinds = meanListed kinds := by
  rw [exactStrength_eq_min, min_eq_left (meanListed_bounds h).2]

/-- The order of the kinds does not matter. -/
theorem meanListed_of_perm {kinds kinds' : List RelationKind} (h : kinds.Perm kinds') :
    meanListed kinds = meanListed kinds' := by
  rw [meanListed, meanListed, (h.map _).sum_eq, h.length_eq]

/-! ## All dependencies -/

namespace ProjectDependency

/-- The projects of a dependency. -/
def ends (d : ProjectDependency) : ProjectPair := ⟨d.sourceProjectId, d.targetProjectId⟩

/-- A dependency says what some relationships amount to. -/
structure Summarizes (d : ProjectDependency) (edges : List Relationship) : Prop where
  referenceCount : d.referenceCount = edges.length
  sharedSymbolIds : ∀ id, id ∈ d.sharedSymbolIds ↔ ∃ r ∈ edges, r.targetId = id
  /-- The weights are added in the order of the relationships. -/
  couplingStrength : d.couplingStrength =
    min (edges.foldl (fun total r => total + r.kind.listedWeight) 0.0 / Float.ofNat edges.length)
      1.0
  /-- In exact numbers the same strength is the mean weight, -/
  exactStrength_eq : exactStrength (edges.map (·.kind)) = meanListed (edges.map (·.kind))
  /-- which is between a tenth and one. -/
  strength_bounds : 1 / 10 ≤ exactStrength (edges.map (·.kind)) ∧
    exactStrength (edges.map (·.kind)) ≤ 1

/-- What is made from relationships says what they amount to. -/
theorem summarizes_ofRelationships {edges : List Relationship} (h : edges ≠ []) :
    (ofRelationships pair edges).Summarizes edges where
  referenceCount := rfl
  sharedSymbolIds id := by
    change id ∈ SortedSet.ofList _ ↔ _
    rw [SortedSet.mem_ofList, List.mem_map]
  couplingStrength := by
    have hzero : Float.ofNat 0 = 0.0 := by decide
    have hone : Float.ofNat 1 = 1.0 := by decide
    rw [ofRelationships, meanWeight, List.foldl_map, List.length_map, hzero, hone]
    simp only [RelationKind.weightIn_float]
  exactStrength_eq := exactStrength_eq_meanListed (by simpa using h)
  strength_bounds := by
    rw [exactStrength_eq_meanListed (by simpa using h)]
    exact meanListed_bounds (by simpa using h)

end ProjectDependency

/-- There is one dependency for each pair in the table. -/
theorem map_ends_projectDependencies :
    (projectDependencies nodes relationships projects).map (·.ends) =
      (crossProjectRelationships nodes projects relationships).keyList := by
  rw [projectDependencies_eq, List.map_map]
  exact List.map_id _

/-- Rearranged relationships have dependencies between the same projects. -/
theorem keyList_crossProjectRelationships_of_perm {rearranged : List Relationship}
    (h : relationships.Perm rearranged) :
    (crossProjectRelationships nodes projects rearranged).keyList =
      (crossProjectRelationships nodes projects relationships).keyList := by
  refine SortedSet.eq_of_mem_iff (SortedMap.keys _).ascending (SortedMap.keys _).ascending
    fun pair => ?_
  rw [mem_keyList_crossProjectRelationships, mem_keyList_crossProjectRelationships]
  exact ⟨fun ⟨hne, hsource, htarget, r, hr, hleads⟩ =>
      ⟨hne, hsource, htarget, r, h.mem_iff.mpr hr, hleads⟩,
    fun ⟨hne, hsource, htarget, r, hr, hleads⟩ =>
      ⟨hne, hsource, htarget, r, h.mem_iff.mp hr, hleads⟩⟩

/-- There is exactly one dependency for each pair of projects of which the first depends on the
second, in the order of the pairs. It says what the relationships between the two amount to, and
these may come in any order. -/
theorem projectDependencies_summarize (nodes : SortedMap String Node)
    (relationships : List Relationship) (projects : List Project) :
    ((projectDependencies nodes relationships projects).map (·.ends)).Pairwise
        (fun p q => compare p q = .lt) ∧
      (∀ pair, pair ∈ (projectDependencies nodes relationships projects).map (·.ends) ↔
        DependsOn nodes relationships projects pair) ∧
      (∀ d ∈ projectDependencies nodes relationships projects,
        d.Summarizes (relationshipsBetween nodes relationships d.ends)) ∧
      (∀ rearranged, relationships.Perm rearranged →
        List.Forall₂ (fun d d' => d'.ends = d.ends ∧ d'.referenceCount = d.referenceCount ∧
            d'.sharedSymbolIds = d.sharedSymbolIds ∧
            exactStrength ((relationshipsBetween nodes rearranged d'.ends).map (·.kind)) =
              exactStrength ((relationshipsBetween nodes relationships d.ends).map (·.kind)))
          (projectDependencies nodes relationships projects)
          (projectDependencies nodes rearranged projects)) := by
  refine ⟨?_, fun pair => ?_, fun d hd => ?_, fun rearranged hperm => ?_⟩
  · rw [map_ends_projectDependencies]
    exact (SortedMap.keys _).ascending
  · rw [map_ends_projectDependencies, mem_keyList_crossProjectRelationships]
  · rw [projectDependencies_eq] at hd
    obtain ⟨pair, hpair, rfl⟩ := List.mem_map.mp hd
    obtain ⟨r, hr, hleads⟩ := (mem_keyList_crossProjectRelationships.mp hpair).leads
    exact ProjectDependency.summarizes_ofRelationships
      (List.ne_nil_of_mem (List.mem_filter.mpr ⟨hr, hleads⟩))
  · rw [projectDependencies_eq, projectDependencies_eq,
      keyList_crossProjectRelationships_of_perm hperm, List.forall₂_map_left_iff,
      List.forall₂_map_right_iff, List.forall₂_same]
    intro pair _
    have hbetween : (relationshipsBetween nodes relationships pair).Perm
        (relationshipsBetween nodes rearranged pair) := hperm.filter _
    refine ⟨rfl, hbetween.length_eq.symm, SortedSet.ext_mem fun id => ?_, ?_⟩
    · change id ∈ SortedSet.ofList _ ↔ id ∈ SortedSet.ofList _
      rw [SortedSet.mem_ofList, SortedSet.mem_ofList, (hbetween.map _).mem_iff]
    · change exactStrength ((relationshipsBetween nodes rearranged pair).map _) =
        exactStrength ((relationshipsBetween nodes relationships pair).map _)
      rw [exactStrength_eq_min, exactStrength_eq_min, meanListed_of_perm (hbetween.map _)]

end CodeAtlas
