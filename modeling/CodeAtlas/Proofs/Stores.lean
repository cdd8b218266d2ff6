import CodeAtlas.Graph.Node
import CodeAtlas.Graph.Relationship

/-!
# Relationships that are added to a store

Of all relationships that are put forward under one key the first is stored, unless the key is taken
already (`RelationshipStore.get?_addAll`). A store is sound if every relationship stands under its
key and connects two different nodes (`RelationshipStore.Sound`); it stays sound when relationships
between nodes are added.
-/

namespace CodeAtlas

/-! ## Adding a list of relationships -/

namespace RelationshipStore

variable {s : RelationshipStore} {r : Relationship} {k : RelationshipKey}

/-- How many relationships of a list are new to the store when they are added one after the other,
and the store after that. -/
def addAll (s : RelationshipStore) : List Relationship → Nat × RelationshipStore
  | [] => (0, s)
  | r :: rest => ((s.add r).1.toNat + (addAll (s.add r).2 rest).1, (addAll (s.add r).2 rest).2)

/-- A list may be added part by part. -/
theorem addAll_append {l m : List Relationship} : s.addAll (l ++ m) =
    ((s.addAll l).1 + (addAll (s.addAll l).2 m).1, (addAll (s.addAll l).2 m).2) := by
  induction l generalizing s with
  | nil => rw [List.nil_append, addAll, Nat.zero_add]
  | cons r rest ih => rw [List.cons_append, addAll, addAll, ih, Nat.add_assoc]

/-- Whether the relationship has the key and may be stored under it. -/
def Fits (k : RelationshipKey) (r : Relationship) : Prop := r.key = k ∧ r.sourceId ≠ r.targetId

instance : Decidable (Fits k r) := inferInstanceAs (Decidable (_ ∧ _))

/-- What stands under a key stays there; else a relationship that fits is stored. -/
theorem get?_add : (SortedMap.get? (s.add r).2 k) =
    (SortedMap.get? s k).or (if Fits k r then some r else none) := by
  unfold RelationshipStore.add
  split
  · rename_i heq
    rw [if_neg fun h => h.2 heq, Option.or_none]
  · rename_i hne
    split
    · rename_i hin
      by_cases hk : r.key = k
      · subst hk
        obtain ⟨old, hold⟩ := SortedMap.contains_iff.mp hin
        rw [hold, Option.some_or]
      · rw [if_neg fun h => hk h.1, Option.or_none]
    · rename_i hout
      rw [SortedMap.get?_insert]
      by_cases hk : r.key = k
      · subst hk
        have hnone := SortedMap.contains_eq_false_iff.mp (Bool.eq_false_iff.mpr hout)
        rw [if_pos rfl, hnone, Option.none_or, if_pos ⟨rfl, hne⟩]
      · rw [if_neg (Ne.symm hk), if_neg fun h => hk h.1, Option.or_none]

/-- Under each key stands what stood there before, or else the first relationship of the list that
fits. -/
theorem get?_addAll {l : List Relationship} : (SortedMap.get? (s.addAll l).2 k) =
    (SortedMap.get? s k).or (l.find? fun r => decide (Fits k r)) := by
  induction l generalizing s with
  | nil => rw [addAll, List.find?_nil, Option.or_none]
  | cons r rest ih =>
    rw [addAll, ih, get?_add, Option.or_assoc, List.find?_cons]
    by_cases h : Fits k r
    · simp only [h, if_true, decide_true, Option.some_or]
    · simp only [h, if_false, decide_false, Option.none_or]

/-- The keys of a store are those that it had, and those of relationships that have been added. -/
theorem contains_addAll {l : List Relationship} : SortedMap.contains (s.addAll l).2 k = true ↔
    SortedMap.contains s k = true ∨ ∃ r ∈ l, Fits k r := by
  rw [SortedMap.contains, get?_addAll, Option.isSome_or, Bool.or_eq_true, List.find?_isSome]
  simp only [decide_eq_true_eq]
  rfl

end RelationshipStore

/-! ## Sound stores -/

namespace RelationshipStore

/-- Every relationship stands under its key and connects two different nodes. -/
structure Sound (nodes : NodeStore) (s : RelationshipStore) : Prop where
  key_eq : ∀ {k r}, s.get? k = some r → r.key = k
  ne : ∀ {k r}, s.get? k = some r → r.sourceId ≠ r.targetId
  source : ∀ {k r}, s.get? k = some r → nodes.contains r.sourceId = true
  target : ∀ {k r}, s.get? k = some r → nodes.contains r.targetId = true

namespace Sound

variable {nodes : NodeStore} {s : RelationshipStore} {r : Relationship}

/-- The empty store is sound. -/
protected theorem empty : Sound nodes .empty where
  key_eq h := by cases h
  ne h := by cases h
  source h := by cases h
  target h := by cases h

/-- A relationship between nodes may be added. -/
theorem add (h : Sound nodes s) (hs : nodes.contains r.sourceId = true)
    (ht : nodes.contains r.targetId = true) : Sound nodes (s.add r).2 := by
  rcases s.add_cases r with heq | ⟨hne, heq⟩
  · rwa [heq]
  · rw [heq]
    -- what is found is the new relationship or an old one
    have hcases : ∀ {k r'}, (SortedMap.insert s r.key r).get? k = some r' →
        (k = r.key ∧ r' = r) ∨ s.get? k = some r' := by
      intro k r' hr
      rw [SortedMap.get?_insert] at hr
      split at hr
      · rename_i hk
        cases hr
        exact .inl ⟨hk, rfl⟩
      · exact .inr hr
    refine ⟨fun hr => ?_, fun hr => ?_, fun hr => ?_, fun hr => ?_⟩ <;>
      rcases hcases hr with ⟨hk, rfl⟩ | hr
    · exact hk.symm
    · exact h.key_eq hr
    · exact hne
    · exact h.ne hr
    · exact hs
    · exact h.source hr
    · exact ht
    · exact h.target hr

/-- So may several of them. -/
theorem addAll {l : List Relationship} (h : Sound nodes s)
    (hl : ∀ r ∈ l, nodes.contains r.sourceId = true ∧ nodes.contains r.targetId = true) :
    Sound nodes (s.addAll l).2 := by
  induction l generalizing s with
  | nil => exact h
  | cons r rest ih =>
    obtain ⟨hs, ht⟩ := hl r List.mem_cons_self
    exact ih (h.add hs ht) fun r' hr' => hl r' (List.mem_cons_of_mem r hr')

end Sound

end RelationshipStore

end CodeAtlas
