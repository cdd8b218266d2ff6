import CodeAtlas.Proofs.Innermost
import Mathlib.Data.List.Nodup

/-!
# Looking up a location

A resolver looks for a location among the declarations that count: of several declarations with one
identity only the last in the snapshot (`Snapshot.Counts`). It answers with a declaration around the
location exactly if one that counts lies around it (`Snapshot.locate_counting`). So a part of a type
is not found in its own file when a later part of the type lies elsewhere.

When identities tell the declarations apart, every one counts, and the answer is innermost: no other
span around the location lies strictly inside, and of declarations with one span the kind and then
the display name decide (`Snapshot.locate_innermost`). The answer depends on the order in which the
declarations are compared exactly if it has a twin, which differs from it in the assembly and agrees
in all that is compared (`innermost?_order_iff`).
-/

namespace CodeAtlas

/-! ## Declarations around a location -/

/-- The declaration's span holds the location. -/
def Symbol.IsAround (s : Symbol) (l : Location) : Prop :=
  ∃ span, s.location = some span ∧ span.contains l = true

section Around

variable {l : Location} {symbols : List Symbol} {s : Symbol}

theorem isSome_declarationAround? : (declarationAround? l s).isSome = true ↔ s.IsAround l := by
  rw [Option.isSome_iff_exists]
  constructor
  · rintro ⟨a, ha⟩
    obtain ⟨hlocation, hin, -⟩ := declarationAround?_eq_some.mp ha
    exact ⟨a.1, hlocation, hin⟩
  · rintro ⟨span, hlocation, hin⟩
    exact ⟨(span, s), declarationAround?_eq_some.mpr ⟨hlocation, hin, rfl⟩⟩

/-- Some declaration is found exactly if one lies around the location. -/
theorem isSome_innermost? :
    (innermost? l symbols).isSome = true ↔ ∃ s ∈ symbols, s.IsAround l := by
  have haround : symbols.filterMap (declarationAround? l) = [] ↔ ¬ ∃ s ∈ symbols, s.IsAround l := by
    simp only [List.filterMap_eq_nil_iff, ← Option.not_isSome_iff_eq_none, not_exists, not_and,
      isSome_declarationAround?]
  by_cases hnil : symbols.filterMap (declarationAround? l) = []
  · simpa [innermost?_of_nil hnil] using haround.mp hnil
  · obtain ⟨a, -, hfound⟩ := exists_isDeepest hnil
    simpa [hfound] using not_not.mp (mt haround.mpr hnil)

/-- What is found is the deepest of the declarations around the location. -/
theorem exists_isDeepest_of_innermost? (h : innermost? l symbols = some s) :
    ∃ span, IsDeepest (symbols.filterMap (declarationAround? l)) (span, s) := by
  have hne : symbols.filterMap (declarationAround? l) ≠ [] := by
    intro hnil
    rw [innermost?_of_nil hnil] at h
    cases h
  obtain ⟨a, ha, hfound⟩ := exists_isDeepest hne
  obtain rfl : a.2 = s := Option.some.inj (hfound.symm.trans h)
  exact ⟨a.1, ha⟩

end Around

/-! ## The deepest declaration is innermost -/

/-- A declaration around a location, with its span, of which none of the others lies further
inside. -/
structure IsInnermost (symbols : List Symbol) (l span : Location) (s : Symbol) : Prop where
  mem : s ∈ symbols
  location : s.location = some span
  contains : span.contains l = true
  /-- No other span around the location lies in this one. -/
  inside : ∀ t ∈ symbols, ∀ inner, t.location = some inner → inner.contains l = true →
    span.contains inner = true → inner = span
  /-- Of the declarations with this span none has a later kind, -/
  kind : ∀ t ∈ symbols, t.location = some span → t.kind.rank ≤ s.kind.rank
  /-- and of those of the same kind none a smaller display name. -/
  displayName : ∀ t ∈ symbols, t.location = some span → t.kind = s.kind →
    s.displayName ≤ t.displayName

section Inside

variable {l span : Location} {s t : Symbol} {symbols symbols' : List Symbol}

/-- A span in that of a declaration which lies no less deep is the same span. -/
theorem Location.eq_of_contains_of_isLE {a b : Location × Symbol} (ha : a.1.contains l = true)
    (hb : b.1.contains l = true) (hin : a.1.contains b.1 = true)
    (hle : (compareDepth b a).isLE = true) : b.1 = a.1 := by
  simp only [contains, Bool.and_eq_true, Position.le] at hin
  obtain ⟨⟨-, hstart⟩, hstop⟩ := hin
  have hstarts : compare b.1.start a.1.start = .eq :=
    Std.OrientedCmp.isLE_antisymm (Ordering.isLE_left_of_isLE_then hle) hstart
  have hrest := Ordering.isLE_then_iff_and.mp hle
  rw [hstarts] at hrest
  have hstops : compare b.1.stop a.1.stop = .eq :=
    Std.OrientedCmp.isLE_antisymm hstop
      (Ordering.isLE_left_of_isLE_then (hrest.2.resolve_left (by decide)))
  exact eq_of_contains hb ha (Std.LawfulEqOrd.eq_of_compare hstarts)
    (Std.LawfulEqOrd.eq_of_compare hstops)

/-- Declarations with one span are compared by their kinds and their display names. -/
theorem compareDepth_same_span : compareDepth (span, s) (span, t) =
    (compare s.kind.rank t.kind.rank).then (compare t.displayName s.displayName) := by
  simp only [compareDepth, Std.compare_self, Ordering.then]

/-- The deepest declaration is innermost. -/
theorem IsDeepest.isInnermost
    (h : IsDeepest (symbols.filterMap (declarationAround? l)) (span, s)) :
    IsInnermost symbols l span s := by
  obtain ⟨hmem, hlocation, hcontains⟩ := mem_around.mp h.mem
  have hle : ∀ t ∈ symbols, t.location = some span →
      ((compare t.kind.rank s.kind.rank).then (compare s.displayName t.displayName)).isLE =
        true := by
    intro t ht hspan
    have hdepth := h.le (span, t) (mem_around.mpr ⟨ht, hspan, hcontains⟩)
    rwa [compareDepth_same_span] at hdepth
  constructor
  case mem => exact hmem
  case location => exact hlocation
  case contains => exact hcontains
  case inside =>
    intro t ht inner hinner haround hin
    exact Location.eq_of_contains_of_isLE (a := (span, s)) (b := (inner, t)) hcontains haround hin
      (h.le (inner, t) (mem_around.mpr ⟨ht, hinner, haround⟩))
  case kind =>
    intro t ht hspan
    exact Std.isLE_compare.mp (Ordering.isLE_left_of_isLE_then (hle t ht hspan))
  case displayName =>
    intro t ht hspan hkind
    have hname := hle t ht hspan
    rw [hkind, Std.compare_self] at hname
    exact isLE_compareOfLessAndEq String.le_antisymm String.not_le String.le_total |>.mp hname

/-- What is innermost depends only on which declarations there are. -/
theorem IsInnermost.congr (h : IsInnermost symbols l span s)
    (hmem : ∀ t, t ∈ symbols' ↔ t ∈ symbols) : IsInnermost symbols' l span s where
  mem := (hmem s).mpr h.mem
  location := h.location
  contains := h.contains
  inside t ht := h.inside t ((hmem t).mp ht)
  kind t ht := h.kind t ((hmem t).mp ht)
  displayName t ht := h.displayName t ((hmem t).mp ht)

end Inside

/-! ## Declarations that count -/

namespace Snapshot

variable {w : Snapshot} {s : Symbol}

/-- A declaration counts if no later one in the snapshot has its identity. -/
def Counts (w : Snapshot) (s : Symbol) : Prop :=
  ∃ before after, w.symbols = before ++ s :: after ∧ ∀ t ∈ after, t.identity ≠ s.identity

/-- Under an identity the table of declared symbols holds the last one that has it. -/
theorem get?_declared {id : String} :
    w.declared.get? id = w.symbols.reverse.find? (decide <| ·.identity = id) := by
  rw [declared, SortedMap.get?_ofList, ← List.map_reverse, List.find?_map, Option.map_map]
  exact congrFun Option.map_id _

/-- The table of declared symbols holds the declarations that count. -/
theorem mem_values_declared : s ∈ w.declared.values ↔ w.Counts s := by
  simp only [SortedMap.mem_values, get?_declared, List.find?_eq_some_iff_append, decide_eq_true_eq,
    Bool.not_eq_true', decide_eq_false_iff_not, exists_eq_left']
  constructor
  · rintro ⟨after, before, hsymbols, hlast⟩
    refine ⟨before.reverse, after.reverse, ?_, fun t ht => hlast t (List.mem_reverse.mp ht)⟩
    simpa using congrArg List.reverse hsymbols
  · rintro ⟨before, after, hsymbols, hlast⟩
    refine ⟨after.reverse, before.reverse, ?_, fun t ht => hlast t (List.mem_reverse.mp ht)⟩
    simp [hsymbols]

/-- Declarations that differ in their identities all count. -/
theorem counts_iff_mem (hw : (w.symbols.map Symbol.identity).Nodup) :
    w.Counts s ↔ s ∈ w.symbols := by
  constructor
  · rintro ⟨before, after, hsymbols, -⟩
    simp [hsymbols]
  · intro hs
    obtain ⟨before, after, hsymbols⟩ := List.append_of_mem hs
    refine ⟨before, after, hsymbols, fun t ht hid => ?_⟩
    rw [hsymbols, List.map_append, List.map_cons] at hw
    have hafter := (List.nodup_cons.mp (List.nodup_append.mp hw).2.1).1
    exact hafter (hid ▸ List.mem_map_of_mem ht)

/-- A look-up of a location answers, whatever the order in which it compares declarations. It gives
a declaration that counts and lies around the location, and it gives one whenever there is one. -/
theorem locate_counting (w : Snapshot) (order : List Symbol → List Symbol)
    (horder : ∀ symbols, (order symbols).Perm symbols) (l : Location) :
    ∃ found, (w.resolverIn order).locate l = .ok found ∧
      (found.isSome = true ↔ ∃ s, w.Counts s ∧ s.IsAround l) ∧
      ∀ s, found = some s → w.Counts s ∧ s.IsAround l := by
  have hmem : ∀ s, s ∈ order w.declared.values ↔ w.Counts s := fun s =>
    (horder _).mem_iff.trans mem_values_declared
  refine ⟨_, rfl, ?_, fun s hs => ?_⟩
  · simp only [isSome_innermost?, hmem]
  · obtain ⟨span, hdeepest⟩ := exists_isDeepest_of_innermost? hs
    obtain ⟨hs, haround⟩ := mem_around.mp hdeepest.mem
    exact ⟨(hmem s).mp hs, span, haround⟩

/-- A type in two parts, of which the second counts, is found in the second file. -/
theorem locate_counting_later_part :
    let part file := { Symbol.typeIn "Shop" "Shop" "Order" .classType with
      location := some (.lines file 1 9) }
    let w := Snapshot.empty.withProject (Project.named "core" "Core") [part "a.cs", part "b.cs"]
    ∃ s, (w.resolverIn List.reverse).locate (.lines "b.cs" 4 4) = .ok (some s) ∧ w.Counts s ∧
      s.IsAround (.lines "b.cs" 4 4) := by
  intro part w
  have hcounts : w.Counts (part "b.cs") := ⟨[part "a.cs"], [], rfl, fun _ h => by cases h⟩
  have hpart : (part "b.cs").IsAround (.lines "b.cs" 4 4) := ⟨_, rfl, by decide⟩
  obtain ⟨found, hfound, hsome, hgiven⟩ :=
    locate_counting w List.reverse List.reverse_perm (.lines "b.cs" 4 4)
  obtain ⟨s, rfl⟩ := Option.isSome_iff_exists.mp (hsome.mpr ⟨part "b.cs", hcounts, hpart⟩)
  exact ⟨s, hfound, hgiven s rfl⟩

/-- The first part does not count, and in its file nothing is found. -/
theorem locate_earlier_part :
    let part file := { Symbol.typeIn "Shop" "Shop" "Order" .classType with
      location := some (.lines file 1 9) }
    let w := Snapshot.empty.withProject (Project.named "core" "Core") [part "a.cs", part "b.cs"]
    part "a.cs" ∈ w.symbols ∧ (part "a.cs").IsAround (.lines "a.cs" 4 4) ∧
      w.resolver.locate (.lines "a.cs" 4 4) = .ok none := by
  intro part w
  exact ⟨List.mem_cons_self, ⟨_, rfl, by decide⟩, by decide +kernel⟩

/-- If identities tell the declared symbols apart, the symbol that a look-up of a location gives is
innermost, whatever the order in which it compares declarations. -/
theorem locate_innermost (w : Snapshot) (hw : (w.symbols.map Symbol.identity).Nodup)
    (order : List Symbol → List Symbol) (horder : ∀ symbols, (order symbols).Perm symbols)
    (l : Location) (s : Symbol) (h : (w.resolverIn order).locate l = .ok (some s)) :
    ∃ span, IsInnermost w.symbols l span s := by
  obtain ⟨span, hdeepest⟩ := exists_isDeepest_of_innermost? (Except.ok.inj h)
  refine ⟨span, hdeepest.isInnermost.congr fun t => ?_⟩
  rw [(horder _).mem_iff, mem_values_declared, counts_iff_mem hw]

/-- A location in a type, in a property and in a method that begins inside the property. -/
theorem locate_innermost_overlapping :
    let order := { Symbol.typeIn "Shop" "Shop" "Order" .classType with
      location := some (.lines "order.cs" 1 9) }
    let total := { order.memberOf .property "Total" with location := some (.lines "order.cs" 2 4) }
    let submit := { order.memberOf .method "Submit" with location := some (.lines "order.cs" 3 5) }
    let w := Snapshot.empty.withProject (Project.named "core" "Core") [submit, order, total]
    (w.resolverIn List.reverse).locate (.lines "order.cs" 4 4) = .ok (some submit) ∧
      ∃ span, IsInnermost w.symbols (.lines "order.cs" 4 4) span submit := by
  intro order total submit w
  have h : (w.resolverIn List.reverse).locate (.lines "order.cs" 4 4) = .ok (some submit) := by
    decide +kernel
  exact ⟨h, locate_innermost w (by decide +kernel) List.reverse List.reverse_perm _ _ h⟩

end Snapshot

/-! ## Orders of comparison -/

/-- Two declarations of one span, one kind and one display name in different assemblies. -/
structure Symbol.Twins (s t : Symbol) : Prop where
  location : s.location = t.location
  kind : s.kind = t.kind
  displayName : s.displayName = t.displayName
  assembly : assemblyKey s.containingAssembly ≠ assemblyKey t.containingAssembly

section Order

variable {l span span' : Location} {symbols symbols' : List Symbol} {s t : Symbol}

/-- Of declarations with different identities around a location only twins are equally deep. -/
theorem compareDepth_eq_eq_iff_twins (hspan : s.location = some span)
    (hspan' : t.location = some span') (hin : span.contains l = true)
    (hin' : span'.contains l = true) (hid : s.identity ≠ t.identity) :
    compareDepth (span, s) (span', t) = .eq ↔ s.Twins t := by
  rw [compareDepth_eq_eq]
  constructor
  · rintro ⟨hstart, hstop, hkind, hname⟩
    obtain rfl : span = span' := Location.eq_of_contains hin hin' hstart hstop
    refine ⟨hspan.trans hspan'.symm, hkind, hname, fun hassembly => hid ?_⟩
    rw [Symbol.identity, Symbol.identity, identity, identity, hassembly, hname]
  · rintro ⟨hlocation, hkind, hname, -⟩
    obtain rfl : span = span' := Option.some.inj (by rw [← hspan, ← hspan', hlocation])
    exact ⟨rfl, rfl, hkind, hname⟩

/-- A deepest declaration is found when it is compared last. -/
theorem innermost?_concat {a : Location × Symbol}
    (h : IsDeepest ((symbols ++ [t]).filterMap (declarationAround? l)) a)
    (ha : declarationAround? l t = some a) : innermost? l (symbols ++ [t]) = some t := by
  have hsplit : (symbols ++ [t]).filterMap (declarationAround? l) =
      symbols.filterMap (declarationAround? l) ++ [a] := by
    rw [List.filterMap_append, List.filterMap_cons_some ha, List.filterMap_nil]
  have hsymbol : a.2 = t := (declarationAround?_eq_some.mp ha).2.2
  rw [hsplit] at h
  rw [innermost?, hsplit, ← hsymbol]
  cases hinit : symbols.filterMap (declarationAround? l) with
  | nil => rfl
  | cons first rest =>
    have hmem : rest.foldl deeper first ∈ first :: rest := isDeepest_foldl.mem
    have hle := h.le _ (List.mem_append_left _ (hinit ▸ hmem))
    change some ((rest ++ [a]).foldl deeper first).2 = some a.2
    rw [List.foldl_append, List.foldl_cons, List.foldl_nil, deeper_of_isLE hle]

/-- In some order a twin of the declaration that is found is found instead. -/
theorem exists_perm_innermost?_of_twins (hs : innermost? l symbols = some s) (ht : t ∈ symbols)
    (htwins : s.Twins t) : ∃ symbols', symbols'.Perm symbols ∧ innermost? l symbols' = some t := by
  obtain ⟨span, hdeepest⟩ := exists_isDeepest_of_innermost? hs
  obtain ⟨-, hlocation, hin⟩ := mem_around.mp hdeepest.mem
  have haround : declarationAround? l t = some (span, t) :=
    declarationAround?_eq_some.mpr ⟨htwins.location ▸ hlocation, hin, rfl⟩
  have htwin : IsDeepest (symbols.filterMap (declarationAround? l)) (span, t) :=
    hdeepest.of_eq (List.mem_filterMap.mpr ⟨t, ht, haround⟩)
      (compareDepth_eq_eq.mpr ⟨rfl, rfl, htwins.kind, htwins.displayName⟩)
  have hperm : (symbols.erase t ++ [t]).Perm symbols :=
    (List.perm_append_singleton t _).trans (List.perm_cons_erase ht).symm
  exact ⟨_, hperm, innermost?_concat (htwin.of_perm (hperm.symm.filterMap _)) haround⟩

/-- What is found in another order is the same declaration or a twin of it. -/
theorem eq_or_twins_of_perm (hperm : symbols'.Perm symbols)
    (hid : ∀ s ∈ symbols, ∀ t ∈ symbols, s ≠ t → s.identity ≠ t.identity)
    (hs : innermost? l symbols = some s) (ht : innermost? l symbols' = some t) :
    s = t ∨ s.Twins t := by
  obtain ⟨span, hdeepest⟩ := exists_isDeepest_of_innermost? hs
  obtain ⟨span', hdeepest'⟩ := exists_isDeepest_of_innermost? ht
  replace hdeepest' := hdeepest'.of_perm (hperm.filterMap _)
  obtain ⟨hmem, hlocation, hin⟩ := mem_around.mp hdeepest.mem
  obtain ⟨hmem', hlocation', hin'⟩ := mem_around.mp hdeepest'.mem
  have heq : compareDepth (span, s) (span', t) = .eq :=
    Std.OrientedCmp.isLE_antisymm (hdeepest'.le _ hdeepest.mem) (hdeepest.le _ hdeepest'.mem)
  by_cases hsame : s = t
  · exact .inl hsame
  · exact .inr ((compareDepth_eq_eq_iff_twins hlocation hlocation' hin hin'
      (hid s hmem t hmem' hsame)).mp heq)

/-- Among declarations with different identities, two that lie around a location are equally deep
exactly if they are twins. So the declaration that is found there does not depend on the order in
which they are compared exactly if it has no twin. -/
theorem innermost?_order_iff (symbols : List Symbol)
    (hsymbols : (symbols.map Symbol.identity).Nodup) (l : Location) :
    (∀ s ∈ symbols, ∀ t ∈ symbols, ∀ span span', s.location = some span →
      t.location = some span' → span.contains l = true → span'.contains l = true → s ≠ t →
      (compareDepth (span, s) (span', t) = .eq ↔ s.Twins t)) ∧
    ((∀ symbols', symbols'.Perm symbols → innermost? l symbols' = innermost? l symbols) ↔
      ∀ s, innermost? l symbols = some s → ∀ t ∈ symbols, ¬ s.Twins t) := by
  have hid : ∀ s ∈ symbols, ∀ t ∈ symbols, s ≠ t → s.identity ≠ t.identity :=
    fun s hs t ht hne heq => hne (List.inj_on_of_nodup_map hsymbols hs ht heq)
  refine ⟨?_, ?_, ?_⟩
  · intro s hs t ht span span' hspan hspan' hin hin' hne
    exact compareDepth_eq_eq_iff_twins hspan hspan' hin hin' (hid s hs t ht hne)
  · intro hsame s hs t ht htwins
    obtain ⟨symbols', hperm, hfound⟩ := exists_perm_innermost?_of_twins hs ht htwins
    rw [hsame symbols' hperm, hs] at hfound
    exact htwins.assembly (by rw [Option.some.inj hfound])
  · intro hno symbols' hperm
    have hsome : (innermost? l symbols').isSome = (innermost? l symbols).isSome :=
      Bool.eq_iff_iff.mpr (by simp only [isSome_innermost?, hperm.mem_iff])
    cases hs : innermost? l symbols with
    | none => simpa [hs] using hsome
    | some s =>
      rw [hs] at hsome
      obtain ⟨t, ht⟩ := Option.isSome_iff_exists.mp hsome
      obtain ⟨span, hdeepest⟩ := exists_isDeepest_of_innermost? ht
      have hmem : t ∈ symbols := hperm.mem_iff.mp (mem_around.mp hdeepest.mem).1
      rcases eq_or_twins_of_perm hperm hid hs ht with rfl | htwins
      · exact ht
      · exact absurd htwins (hno s hs t hmem)

/-- A type and a method in it, of which the method is found in both orders. -/
theorem innermost?_order_iff_method :
    let order := { Symbol.typeIn "Shop" "Shop" "Order" .classType with
      location := some (.lines "order.cs" 1 9) }
    let submit := { order.memberOf .method "Submit" with location := some (.lines "order.cs" 3 5) }
    innermost? (.lines "order.cs" 4 4) [order, submit] = some submit ∧
      innermost? (.lines "order.cs" 4 4) [submit, order] =
        innermost? (.lines "order.cs" 4 4) [order, submit] := by
  intro order submit
  have hfound : innermost? (.lines "order.cs" 4 4) [order, submit] = some submit := by
    decide +kernel
  refine ⟨hfound, (innermost?_order_iff [order, submit] (by decide +kernel) _).2.mpr ?_ _
    (.swap _ _ _)⟩
  rintro s hs t ht htwins
  obtain rfl : submit = s := Option.some.inj (hfound.symm.trans hs)
  have hassembly : ∀ t ∈ [order, submit],
      assemblyKey submit.containingAssembly = assemblyKey t.containingAssembly := by decide +kernel
  exact htwins.assembly (hassembly t ht)

/-- A file that belongs to two assemblies declares its types in both, and the order decides which
declaration is found. -/
theorem innermost?_of_twins :
    let order assembly := { Symbol.typeIn assembly "Shop" "Order" .classType with
      location := some (.lines "order.cs" 1 9) }
    ([order "Core", order "Web"].map Symbol.identity).Nodup ∧
      innermost? (.lines "order.cs" 4 4) [order "Core", order "Web"] = some (order "Web") ∧
      innermost? (.lines "order.cs" 4 4) [order "Web", order "Core"] = some (order "Core") ∧
      order "Core" ≠ order "Web" := by
  decide +kernel

end Order

end CodeAtlas
