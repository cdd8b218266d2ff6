/-!
# Finite sets kept in ascending order

A `SortedSet κ` is a list of keys that ascends strictly in the order of `κ`. The order is part of
the type, so a set has exactly one list, two sets are equal as soon as they have the same members
(`SortedSet.ext_mem`), and what is printed from a set never depends on how it was built.

Main statements: `SortedSet.mem_insert`, `SortedSet.mem_ofList`, `SortedSet.mem_union` and
`SortedSet.ext_mem`.
-/

namespace CodeAtlas

/-- Lists that are ordered by an asymmetric relation and have the same members are the same list. -/
theorem eq_of_pairwise_of_mem_iff {α : Type} {lt : α → α → Prop}
    (hasymm : ∀ {a b}, lt a b → ¬ lt b a) {l m : List α} (hl : l.Pairwise lt) (hm : m.Pairwise lt)
    (h : ∀ a, a ∈ l ↔ a ∈ m) : l = m := by
  have hnodup : ∀ {l : List α}, l.Pairwise lt → l.Nodup := by
    intro l hl
    refine hl.imp fun {a b} hlt heq => ?_
    subst heq
    exact hasymm hlt hlt
  have hperm : l.Perm m := (List.perm_ext_iff_of_nodup (hnodup hl) (hnodup hm)).mpr h
  exact hperm.eq_of_pairwise (fun _ _ _ _ hab hba => absurd hba (hasymm hab)) hl hm

/-- A finite set of keys, held as its strictly ascending list. -/
structure SortedSet (κ : Type) [Ord κ] where
  /-- The members, smallest first. -/
  toList : List κ
  /-- Each member lies strictly below every later one. -/
  ascending : toList.Pairwise (fun a b => compare a b = .lt)
  deriving DecidableEq

namespace SortedSet

variable {κ : Type} [Ord κ]

/-- Membership is membership in the list. -/
instance : Membership κ (SortedSet κ) := ⟨fun s a => a ∈ s.toList⟩

/-- Membership unfolds to the list. -/
theorem mem_def {s : SortedSet κ} {a : κ} : a ∈ s ↔ a ∈ s.toList := Iff.rfl

/-- Membership is decidable wherever keys can be compared for equality. -/
instance [DecidableEq κ] (s : SortedSet κ) (a : κ) : Decidable (a ∈ s) :=
  inferInstanceAs (Decidable (a ∈ s.toList))

/-- The set without members. -/
def empty : SortedSet κ := ⟨[], .nil⟩

instance : Inhabited (SortedSet κ) := ⟨empty⟩

/-- The number of members. -/
def size (s : SortedSet κ) : Nat := s.toList.length

/-- Whether there is no member. -/
def isEmpty (s : SortedSet κ) : Bool := s.toList.isEmpty

/-- Puts `a` at its place in an ascending list, unless it is there already. -/
def insertList (a : κ) : List κ → List κ
  | [] => [a]
  | b :: rest =>
    match compare a b with
    | .lt => a :: b :: rest
    | .eq => b :: rest
    | .gt => b :: insertList a rest

section Lawful

variable [Std.TransOrd κ] [Std.LawfulEqOrd κ]

omit [Std.TransOrd κ] in
/-- Inserting adds the new key and keeps the others. -/
theorem mem_insertList {a b : κ} {l : List κ} : b ∈ insertList a l ↔ b = a ∨ b ∈ l := by
  induction l with
  | nil => simp [insertList]
  | cons c rest ih =>
    simp only [insertList]
    split
    · simp
    · rename_i h
      have : a = c := Std.compare_eq_iff_eq.mp h
      subst this
      simp
    · simp only [List.mem_cons, ih]
      grind

/-- Inserting keeps a list ascending. -/
theorem ascending_insertList {a : κ} {l : List κ}
    (h : l.Pairwise (fun a b => compare a b = .lt)) :
    (insertList a l).Pairwise (fun a b => compare a b = .lt) := by
  induction l with
  | nil => simp [insertList]
  | cons c rest ih =>
    have hc := List.pairwise_cons.mp h
    simp only [insertList]
    split
    · rename_i hlt
      refine List.pairwise_cons.mpr ⟨fun b hb => ?_, h⟩
      rcases List.mem_cons.mp hb with rfl | hb
      · exact hlt
      · exact Std.TransCmp.lt_trans hlt (hc.1 b hb)
    · exact h
    · rename_i hgt
      refine List.pairwise_cons.mpr ⟨fun b hb => ?_, ih hc.2⟩
      rcases mem_insertList.mp hb with rfl | hb
      · exact Std.OrientedCmp.gt_iff_lt.mp hgt
      · exact hc.1 b hb

/-- The set with `a` added. -/
def insert (s : SortedSet κ) (a : κ) : SortedSet κ :=
  ⟨insertList a s.toList, ascending_insertList s.ascending⟩

/-- The members of a list. -/
def ofList (l : List κ) : SortedSet κ := l.foldl insert empty

/-- The members of either set. -/
def union (s t : SortedSet κ) : SortedSet κ := t.toList.foldl insert s

omit [Std.TransOrd κ] [Std.LawfulEqOrd κ] in
/-- Nothing is in the empty set. -/
@[simp] theorem not_mem_empty {a : κ} : ¬ a ∈ (empty : SortedSet κ) := by
  simp [mem_def, empty]

/-- Inserting adds the new key and keeps the others. -/
@[simp] theorem mem_insert {s : SortedSet κ} {a b : κ} : b ∈ s.insert a ↔ b = a ∨ b ∈ s :=
  mem_insertList

/-- Inserting one key after another adds them all. -/
theorem mem_foldl_insert {l : List κ} {s : SortedSet κ} {a : κ} :
    a ∈ l.foldl insert s ↔ a ∈ l ∨ a ∈ s := by
  induction l generalizing s with
  | nil => simp
  | cons b rest ih => simp only [List.foldl_cons, ih, mem_insert, List.mem_cons]; grind

/-- A list's set has the list's members. -/
@[simp] theorem mem_ofList {l : List κ} {a : κ} : a ∈ ofList l ↔ a ∈ l := by
  simp [ofList, mem_foldl_insert]

/-- A union has the members of both sets. -/
@[simp] theorem mem_union {s t : SortedSet κ} {a : κ} : a ∈ s.union t ↔ a ∈ s ∨ a ∈ t := by
  exact mem_foldl_insert.trans Or.comm

omit [Std.LawfulEqOrd κ] in
/-- Ascending lists with the same members are the same list. -/
theorem eq_of_mem_iff {l m : List κ} (hl : l.Pairwise (fun a b => compare a b = .lt))
    (hm : m.Pairwise (fun a b => compare a b = .lt)) (h : ∀ a, a ∈ l ↔ a ∈ m) : l = m :=
  eq_of_pairwise_of_mem_iff (fun hab => Std.OrientedCmp.not_lt_of_lt hab) hl hm h

omit [Std.TransOrd κ] in
/-- No member is listed twice. -/
theorem nodup_toList {s : SortedSet κ} : s.toList.Nodup := by
  refine s.ascending.imp fun {a b} hlt heq => ?_
  rw [heq, Std.compare_self] at hlt
  cases hlt

/-- Uniting one set after another adds the members of all. -/
theorem mem_foldl_union {ι : Type} {f : ι → SortedSet κ} {l : List ι} {s : SortedSet κ} {a : κ} :
    a ∈ l.foldl (fun s x => s.union (f x)) s ↔ a ∈ s ∨ ∃ x ∈ l, a ∈ f x := by
  induction l generalizing s with
  | nil => simp
  | cons x rest ih =>
    rw [List.foldl_cons, ih, mem_union, or_assoc]
    simp only [List.mem_cons, exists_eq_or_imp]

omit [Std.LawfulEqOrd κ] in
/-- A set is determined by its members. -/
theorem ext_mem {s t : SortedSet κ} (h : ∀ a, a ∈ s ↔ a ∈ t) : s = t := by
  obtain ⟨l, hl⟩ := s
  obtain ⟨m, hm⟩ := t
  obtain rfl : l = m := eq_of_mem_iff hl hm h
  rfl

/-- The set of its own members is the set. -/
theorem ofList_toList (s : SortedSet κ) : ofList s.toList = s := ext_mem fun _ => mem_ofList

end Lawful

end SortedSet

end CodeAtlas
