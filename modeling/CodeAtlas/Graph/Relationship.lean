import CodeAtlas.Collections.SortedMap
import CodeAtlas.Symbol.Location

/-!
# Relationships

A `Relationship` is a directed edge of some kind between two nodes, given by their ids. A graph has
at most one edge for each source, target and kind, its `RelationshipKey`; keys are ordered by
source, then target, then kind.
-/

namespace CodeAtlas

/-- What one node has to do with another. -/
inductive RelationKind where
  /-- The source derives from the target. -/
  | inheritance
  /-- The source implements the interface. -/
  | implementation
  /-- The method overrides the target. -/
  | methodOverride
  /-- The source implements the abstract member. -/
  | methodImplementation
  /-- The source owns the target: a read-only field, a structural member. -/
  | composition
  /-- The source holds a replaceable target: a field that can be assigned. -/
  | aggregation
  /-- The source mentions the target in a signature or a reference without context. -/
  | association
  /-- The source calls the target. -/
  | methodCall
  /-- The source reads or writes the target. -/
  | propertyAccess
  deriving DecidableEq

namespace RelationKind

/-- All kinds, in their order. -/
def all : List RelationKind := [
  inheritance, implementation, methodOverride, methodImplementation, composition, aggregation,
  association, methodCall, propertyAccess]

/-- The place of a kind in the order. -/
def rank : RelationKind → Nat
  | inheritance => 0
  | implementation => 1
  | methodOverride => 2
  | methodImplementation => 3
  | composition => 4
  | aggregation => 5
  | association => 6
  | methodCall => 7
  | propertyAccess => 8

/-- The name of a kind. -/
def name : RelationKind → String
  | inheritance => "Inheritance"
  | implementation => "Implementation"
  | methodOverride => "MethodOverride"
  | methodImplementation => "MethodImplementation"
  | composition => "Composition"
  | aggregation => "Aggregation"
  | association => "Association"
  | methodCall => "MethodCall"
  | propertyAccess => "PropertyAccess"

/-- How strongly an edge of the kind couples two projects, in tenths. -/
def tenths : RelationKind → Nat
  | inheritance => 10
  | implementation => 9
  | composition => 8
  | methodCall => 6
  | propertyAccess => 5
  | association => 3
  | methodOverride => 1
  | methodImplementation => 1
  | aggregation => 1

/-- How strongly an edge of the kind couples two projects, as a number of any type. -/
def weightIn {α : Type} [Div α] (ofNat : Nat → α) (k : RelationKind) : α :=
  ofNat k.tenths / ofNat 10

/-- How strongly an edge of the kind couples two projects. -/
def weight (k : RelationKind) : Float := k.weightIn Float.ofNat

/-- Every kind is listed. -/
theorem mem_all (k : RelationKind) : k ∈ all := by cases k <;> decide

/-- Kinds of one rank are equal. -/
theorem rank_inj {a b : RelationKind} (h : a.rank = b.rank) : a = b := by
  cases a <;> cases b <;> first | rfl | cases h

instance : Ord RelationKind := ⟨compareOn rank⟩

instance : Std.TransOrd RelationKind := inferInstanceAs (Std.TransCmp (compareOn rank))

instance : Std.LawfulEqOrd RelationKind where
  compare_self := by intro a; cases a <;> rfl
  eq_of_compare h := rank_inj (Std.compare_eq_iff_eq.mp h)

end RelationKind

/-- What identifies a relationship. -/
structure RelationshipKey where
  sourceId : String
  targetId : String
  kind : RelationKind
  deriving DecidableEq

namespace RelationshipKey

/-- Keys are compared by source, then target, then kind. -/
instance : Ord RelationshipKey :=
  ⟨compareLex (compareOn sourceId) (compareLex (compareOn targetId) (compareOn kind))⟩

instance : Std.TransOrd RelationshipKey :=
  inferInstanceAs (Std.TransCmp
    (compareLex (compareOn sourceId) (compareLex (compareOn targetId) (compareOn kind))))

instance : Std.LawfulEqOrd RelationshipKey where
  compare_self := by
    intro a
    change (compare _ _).then ((compare _ _).then (compare _ _)) = .eq
    simp only [Std.compare_self, Ordering.then]
  eq_of_compare := by
    rintro ⟨a, b, k⟩ ⟨a', b', k'⟩ h
    change (compare a a').then ((compare b b').then (compare k k')) = .eq at h
    rw [Ordering.then_eq_eq, Ordering.then_eq_eq] at h
    simp only [Std.compare_eq_iff_eq] at h
    obtain ⟨rfl, rfl, rfl⟩ := h
    rfl

end RelationshipKey

/-- A directed edge between two nodes. -/
structure Relationship where
  sourceId : String
  targetId : String
  kind : RelationKind
  location : Option Location := none
  /-- Whether the two nodes belong to different projects. -/
  isCrossProject : Bool := false
  /-- Whether the files of the two nodes have different extensions. -/
  isCrossLanguage : Bool := false
  deriving DecidableEq

namespace Relationship

/-- What identifies the relationship. -/
def key (r : Relationship) : RelationshipKey := ⟨r.sourceId, r.targetId, r.kind⟩

end Relationship

/-- The relationships found so far, at most one for each key. -/
abbrev RelationshipStore := SortedMap RelationshipKey Relationship

namespace RelationshipStore

/-- The store with one more relationship, and whether it was added: an edge from a node to itself,
or one whose key the store has already, is not. -/
def add (s : RelationshipStore) (r : Relationship) : Bool × RelationshipStore :=
  if r.sourceId = r.targetId then (false, s)
  else if s.contains r.key then (false, s)
  else (true, s.insert r.key r)

/-- A relationship that is added may be refused; else it stands under its key. -/
theorem add_cases (s : RelationshipStore) (r : Relationship) :
    (s.add r).2 = s ∨ (r.sourceId ≠ r.targetId ∧ (s.add r).2 = s.insert r.key r) := by
  unfold RelationshipStore.add
  split
  · exact .inl rfl
  · rename_i hne
    split
    · exact .inl rfl
    · exact .inr ⟨hne, rfl⟩

/-- After an addition the store has the key of the relationship, unless that leads from a node to
itself. -/
theorem contains_add {s : RelationshipStore} {r : Relationship} {k : RelationshipKey} :
    SortedMap.contains (s.add r).2 k = true ↔
      SortedMap.contains s k = true ∨ (k = r.key ∧ r.sourceId ≠ r.targetId) := by
  unfold RelationshipStore.add
  split
  · rename_i heq
    exact ⟨.inl, fun h => h.elim id fun h => absurd heq h.2⟩
  · rename_i hne
    split
    · rename_i hin
      exact ⟨.inl, fun h => h.elim id fun h => h.1 ▸ hin⟩
    · rw [SortedMap.contains_insert, or_comm, and_iff_left hne]

end RelationshipStore

end CodeAtlas
