import CodeAtlas.Snapshot.Resolver
import CodeAtlas.Proofs.RunningMaximum

/-!
# The innermost declaration is unique

Several declarations may lie around a location, and they are compared by how far inside they lie. As
long as no two of them are equally deep (`Untied`), the innermost one does not depend on the order
in which they are compared (`innermost?_of_perm`). Equally deep ones agree in their spans, their
kinds and their display names (`compareDepth_eq_eq`).
-/

namespace CodeAtlas

namespace Position

instance : Std.TransOrd Position :=
  inferInstanceAs (Std.TransCmp (compareLex (compareOn line) (compareOn column)))

instance : Std.LawfulEqOrd Position where
  compare_self := by
    intro a
    change (compare _ _).then (compare _ _) = .eq
    simp only [Std.compare_self, Ordering.then]
  eq_of_compare := by
    rintro ⟨a, b⟩ ⟨a', b'⟩ h
    change (compare a a').then (compare b b') = .eq at h
    rw [Ordering.then_eq_eq, Std.compare_eq_iff_eq, Std.compare_eq_iff_eq] at h
    obtain ⟨rfl, rfl⟩ := h
    rfl

end Position

/-- Spans that hold one location are in one file, so their ends determine them. -/
theorem Location.eq_of_contains {a b l : Location} (ha : a.contains l = true)
    (hb : b.contains l = true) (hstart : a.start = b.start) (hstop : a.stop = b.stop) : a = b := by
  simp only [contains, Bool.and_eq_true, beq_iff_eq] at ha hb
  have hfile : a.filePath = b.filePath := ha.1.1.trans hb.1.1.symm
  cases a
  cases b
  cases hstart
  cases hstop
  cases hfile
  rfl

/-- Kinds of one rank are equal. -/
theorem SymbolKind.rank_inj {a b : SymbolKind} (h : a.rank = b.rank) : a = b := by
  cases a <;> cases b <;> first | rfl | cases h

/-! ## Comparing two declarations -/

section Depth

variable {a b : Location × Symbol} {l : Location} {s : Symbol}

/-- Depths are compared key by key, the second and the last of which in reverse. -/
instance : Std.TransCmp compareDepth :=
  inferInstanceAs (Std.TransCmp
    (compareLex (compareOn fun a : Location × Symbol => a.1.start)
    (compareLex (fun a b => compareOn (fun a : Location × Symbol => a.1.stop) b a)
    (compareLex (compareOn fun a : Location × Symbol => a.2.kind.rank)
      (fun a b => compareOn (fun a : Location × Symbol => a.2.displayName) b a)))))

/-- Equally deep declarations have one span, one kind and one display name. -/
theorem compareDepth_eq_eq : compareDepth a b = .eq ↔ a.1.start = b.1.start ∧ a.1.stop = b.1.stop ∧
    a.2.kind = b.2.kind ∧ a.2.displayName = b.2.displayName := by
  simp only [compareDepth, Ordering.then_eq_eq, Std.compare_eq_iff_eq]
  have hkind : a.2.kind.rank = b.2.kind.rank ↔ a.2.kind = b.2.kind :=
    ⟨SymbolKind.rank_inj, congrArg SymbolKind.rank⟩
  rw [hkind, eq_comm (a := b.1.stop), eq_comm (a := b.2.displayName)]

/-- The second is taken unless the first lies deeper. -/
theorem deeper_of_isLE (h : (compareDepth a b).isLE = true) : deeper a b = b := by
  rw [deeper, if_neg]
  intro hgt
  rw [hgt] at h
  cases h

/-- A declaration lies around a location if its span holds it. -/
theorem declarationAround?_eq_some : declarationAround? l s = some a ↔
    s.location = some a.1 ∧ a.1.contains l = true ∧ a.2 = s := by
  unfold declarationAround?
  cases s.location with
  | none => exact ⟨nofun, nofun⟩
  | some span =>
    rw [Option.ite_none_right_eq_some, Option.some.injEq, Option.some.injEq]
    constructor
    · rintro ⟨hin, rfl⟩
      exact ⟨rfl, hin, rfl⟩
    · rintro ⟨rfl, hin, rfl⟩
      exact ⟨hin, rfl⟩

end Depth

/-! ## The innermost one -/

/-- No two declarations of a list are equally deep. -/
def Untied (l : List (Location × Symbol)) : Prop :=
  ∀ a ∈ l, ∀ b ∈ l, compareDepth a b = .eq → a = b

/-- A declaration of a list than which none lies deeper. -/
structure IsDeepest (l : List (Location × Symbol)) (a : Location × Symbol) : Prop where
  mem : a ∈ l
  le : ∀ b ∈ l, (compareDepth b a).isLE = true

section Innermost

variable {l m : List (Location × Symbol)} {a b first : Location × Symbol} {place : Location}
  {symbols symbols' : List Symbol} {s : Symbol}

/-- Of declarations of which no two are equally deep at most one is deepest. -/
theorem IsDeepest.unique (hl : Untied l) (ha : IsDeepest l a) (hb : IsDeepest l b) : a = b :=
  hl a ha.mem b hb.mem (Std.OrientedCmp.isLE_antisymm (hb.le a ha.mem) (ha.le b hb.mem))

theorem IsDeepest.of_perm (h : IsDeepest l a) (hperm : l.Perm m) : IsDeepest m a where
  mem := hperm.mem_iff.mp h.mem
  le b hb := h.le b (hperm.mem_iff.mpr hb)

/-- What is as deep as a deepest declaration is deepest too. -/
theorem IsDeepest.of_eq (h : IsDeepest l a) (hb : b ∈ l) (heq : compareDepth a b = .eq) :
    IsDeepest l b where
  mem := hb
  le c hc := Std.TransCmp.isLE_trans (h.le c hc) (by rw [heq]; rfl)

/-- Taking the deeper one again and again leads to the deepest one. -/
theorem isDeepest_foldl : IsDeepest (first :: l) (l.foldl deeper first) where
  mem := (keepsGreater_second.foldl first l).1
  le := (keepsGreater_second.foldl first l).2

/-- The declarations around a location are those whose spans hold it. -/
theorem mem_around : a ∈ symbols.filterMap (declarationAround? place) ↔
    a.2 ∈ symbols ∧ a.2.location = some a.1 ∧ a.1.contains place = true := by
  simp only [List.mem_filterMap, declarationAround?_eq_some]
  constructor
  · rintro ⟨s, hs, hlocation, hin, rfl⟩
    exact ⟨hs, hlocation, hin⟩
  · rintro ⟨hs, hlocation, hin⟩
    exact ⟨a.2, hs, hlocation, hin, rfl⟩

/-- There is no innermost declaration if none lies around the location, -/
theorem innermost?_of_nil (h : symbols.filterMap (declarationAround? place) = []) :
    innermost? place symbols = none := by
  rw [innermost?, h]

/-- and otherwise it is the deepest of those that do. -/
theorem exists_isDeepest (h : symbols.filterMap (declarationAround? place) ≠ []) :
    ∃ a, IsDeepest (symbols.filterMap (declarationAround? place)) a ∧
      innermost? place symbols = some a.2 := by
  unfold innermost?
  cases hl : symbols.filterMap (declarationAround? place) with
  | nil => exact absurd hl h
  | cons first rest => exact ⟨_, isDeepest_foldl, rfl⟩

/-- The innermost declaration does not depend on the order of the declarations, unless two of them
are equally deep. -/
theorem innermost?_of_perm (hperm : symbols.Perm symbols')
    (huntied : Untied (symbols.filterMap (declarationAround? place))) :
    innermost? place symbols = innermost? place symbols' := by
  have haround := hperm.filterMap (declarationAround? place)
  by_cases hnil : symbols.filterMap (declarationAround? place) = []
  · rw [innermost?_of_nil hnil, innermost?_of_nil (hnil ▸ haround.symm).eq_nil]
  · have hnil' : symbols'.filterMap (declarationAround? place) ≠ [] :=
      fun h => hnil (h ▸ haround).eq_nil
    obtain ⟨a, ha, hinner⟩ := exists_isDeepest hnil
    obtain ⟨b, hb, hinner'⟩ := exists_isDeepest hnil'
    rw [hinner, hinner', ha.unique huntied (hb.of_perm haround.symm)]

/-- Different symbols are not equally deep if they differ in span, kind or display name. -/
theorem untied_declarations (h : ∀ s ∈ symbols, ∀ t ∈ symbols, ∀ span, s.location = some span →
    t.location = some span → s.kind = t.kind → s.displayName = t.displayName → s = t) :
    Untied (symbols.filterMap (declarationAround? place)) := by
  intro a ha b hb heq
  obtain ⟨hs, hlocation, hin⟩ := mem_around.mp ha
  obtain ⟨ht, hlocation', hin'⟩ := mem_around.mp hb
  obtain ⟨hstart, hstop, hkind, hname⟩ := compareDepth_eq_eq.mp heq
  have hspan : a.1 = b.1 := Location.eq_of_contains hin hin' hstart hstop
  exact Prod.ext hspan (h _ hs _ ht _ hlocation (hspan ▸ hlocation') hkind hname)

end Innermost

end CodeAtlas
