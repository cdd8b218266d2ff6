import CodeAtlas.Analysis.Coupling
import CodeAtlas.Proofs.RunningMaximum

/-!
# The dominant kind of relationship

The kind of a dependency between projects is found by three criteria, one after the other: how often
a kind occurs, how heavy it is, and how early it comes in the order of the kinds, where the earlier
kind wins. No two kinds are equal in all three, so one kind outranks all others that occur, and the
order of the relationships does not matter (`RelationKind.dominant_outranks_others`).

Weights are compared as tenths. That is no other order than the one of the floating-point weights
(`RelationKind.weight_lt_iff`, `RelationKind.weight_eq_iff`).
-/

namespace CodeAtlas

namespace RelationKind

variable {kinds kinds' : List RelationKind} {t u : RelationKind}

/-! ## Weights -/

theorem weight_lt_iff : t.weight < u.weight ↔ t.tenths < u.tenths := by
  have h : ∀ t ∈ all, ∀ u ∈ all, (t.weight < u.weight ↔ t.tenths < u.tenths) := by
    decide +kernel
  exact h t (mem_all t) u (mem_all u)

theorem weight_eq_iff : t.weight = u.weight ↔ t.tenths = u.tenths := by
  have h : ∀ t ∈ all, ∀ u ∈ all, (t.weight = u.weight ↔ t.tenths = u.tenths) := by
    decide +kernel
  exact h t (mem_all t) u (mem_all u)

/-! ## Ranks among some kinds -/

/-- Among the kinds of some relationships `t` is more frequent than `u`, or as frequent and heavier,
or as frequent and as heavy and earlier in the order of the kinds. -/
def Outranks (kinds : List RelationKind) (t u : RelationKind) : Prop :=
  kinds.count u < kinds.count t ∨
    kinds.count u = kinds.count t ∧
      (u.weight < t.weight ∨ u.weight = t.weight ∧ t.rank < u.rank)

/-- The kind occurs and outranks every other one that does. -/
structure Dominates (kinds : List RelationKind) (t : RelationKind) : Prop where
  mem : t ∈ kinds
  outranks : ∀ u ∈ kinds, u ≠ t → Outranks kinds t u

/-- What is preferred outranks. -/
theorem comparePreference_eq_lt : comparePreference kinds u t = .lt ↔ Outranks kinds t u := by
  rw [comparePreference, Ordering.then_eq_lt, Ordering.then_eq_lt, Nat.compare_eq_lt,
    Nat.compare_eq_lt, Nat.compare_eq_lt, Nat.compare_eq_eq, Nat.compare_eq_eq, Outranks,
    weight_lt_iff, weight_eq_iff]

/-- No two kinds are equal in all criteria. -/
theorem eq_of_comparePreference (h : comparePreference kinds u t = .eq) : u = t := by
  rw [comparePreference, Ordering.then_eq_eq, Ordering.then_eq_eq, Nat.compare_eq_eq,
    Nat.compare_eq_eq, Nat.compare_eq_eq] at h
  exact (rank_inj h.2.2).symm

/-- Kinds are compared criterion by criterion, the last time in reverse. -/
instance : Std.TransCmp (comparePreference kinds) :=
  inferInstanceAs (Std.TransCmp
    (compareLex (compareOn kinds.count)
    (compareLex (compareOn tenths) (fun a b => compareOn rank b a))))

/-- Only one kind dominates, -/
theorem Dominates.unique (ht : Dominates kinds t) (hu : Dominates kinds u) : t = u := by
  by_contra hne
  have htu := comparePreference_eq_lt.mpr (ht.outranks u hu.mem (Ne.symm hne))
  have hut := comparePreference_eq_lt.mpr (hu.outranks t ht.mem hne)
  exact Std.OrientedCmp.not_lt_of_lt htu hut

/-- whatever the order of the relationships. -/
theorem Dominates.of_perm (h : Dominates kinds t) (hperm : kinds.Perm kinds') :
    Dominates kinds' t where
  mem := hperm.mem_iff.mp h.mem
  outranks u hu hne := by
    rw [Outranks, ← hperm.count_eq, ← hperm.count_eq]
    exact h.outranks u (hperm.mem_iff.mpr hu) hne

/-- The preferred one of the kinds dominates. -/
theorem dominates_dominant (h : kinds ≠ []) : Dominates kinds (dominant kinds) := by
  obtain ⟨first, rest, rfl⟩ := List.exists_cons_of_ne_nil h
  have hkeep : KeepsGreater (comparePreference (first :: rest)) (preferred (first :: rest)) :=
    keepsGreater_first
  obtain ⟨hmem, hle⟩ := hkeep.foldl first rest
  refine ⟨hmem, fun u hu hne => comparePreference_eq_lt.mp ?_⟩
  refine (Ordering.isLE_iff_eq_lt_or_eq_eq.mp (hle u hu)).resolve_right fun heq => ?_
  exact hne (eq_of_comparePreference heq)

/-- The kind of a dependency occurs among its relationships and outranks every other kind that does.
It is the only one of which this is true, and the order of the relationships does not matter. -/
theorem dominant_outranks_others (edges : List Relationship) (h : edges ≠ []) :
    Dominates (edges.map (·.kind)) (dominant (edges.map (·.kind))) ∧
      (∀ t, Dominates (edges.map (·.kind)) t → t = dominant (edges.map (·.kind))) ∧
      ∀ edges', edges.Perm edges' →
        dominant (edges'.map (·.kind)) = dominant (edges.map (·.kind)) := by
  have hdominant : Dominates (edges.map (·.kind)) (dominant (edges.map (·.kind))) :=
    dominates_dominant (by simpa using h)
  refine ⟨hdominant, fun t ht => ht.unique hdominant, fun edges' hperm => ?_⟩
  have hkinds : (edges.map (·.kind)).Perm (edges'.map (·.kind)) := hperm.map _
  have hdominant' : Dominates (edges'.map (·.kind)) (dominant (edges'.map (·.kind))) :=
    dominates_dominant fun hnil => h (List.map_eq_nil_iff.mp (hnil ▸ hkinds).eq_nil)
  exact hdominant'.unique (hdominant.of_perm hkinds)

/-- Three kinds of one weight, of which the first does not come first in the order of the kinds, and
a heavier one that is less frequent. -/
theorem dominant_outranks_others_one_weight :
    let edges : List Relationship := [⟨"a", "b", .aggregation, none, true, false⟩,
      ⟨"a", "c", .methodOverride, none, true, false⟩, ⟨"a", "d", .inheritance, none, true, false⟩,
      ⟨"b", "c", .methodOverride, none, true, false⟩, ⟨"b", "d", .aggregation, none, true, false⟩,
      ⟨"c", "d", .methodImplementation, none, true, false⟩]
    edges ≠ [] ∧ dominant (edges.map (·.kind)) = .methodOverride ∧
      Dominates (edges.map (·.kind)) .methodOverride ∧
      dominant (edges.reverse.map (·.kind)) = .methodOverride := by
  intro edges
  have hne : edges ≠ [] := by decide
  have hkind : dominant (edges.map (·.kind)) = .methodOverride := by decide
  obtain ⟨hdominant, -, hperm⟩ := dominant_outranks_others edges hne
  rw [hkind] at hdominant hperm
  exact ⟨hne, hkind, hdominant, hperm _ edges.reverse_perm.symm⟩

end RelationKind

end CodeAtlas
