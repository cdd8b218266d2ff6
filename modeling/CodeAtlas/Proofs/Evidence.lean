import CodeAtlas.Analysis.Collection

/-!
# Evidence of relationships

`Snapshot.Evidence` says which relationships a recorded workspace gives evidence of, seen from one
of its symbols: those to what the symbol's declaration mentions (`Symbol.Mentions`), and, unless
look-ups for it are to fail, those from the places that refer to it, from what implements it and
from what derives from it.

The relations are tied to the functions by which relationships are collected:
`Symbol.mentions_of_mem_structuralTargets` and `Symbol.Mentions.mem_structuralTargets` for what is
mentioned, `ReferenceContext.implies_iff` for the ways in which a place refers to a symbol, and
`Symbol.implementationKind?_eq_some` for what is implemented.
-/

namespace CodeAtlas

/-! ## Mentions -/

/-- The data of an instance are the fields and properties that are not static. -/
theorem Member.isInstanceData_iff {m : Member} : m.isInstanceData = true ↔
    m.isStatic = false ∧ (m.kind = .field ∨ m.kind = .property) := by
  simp [Member.isInstanceData]

namespace Symbol

/-- What the declaration of a symbol mentions, with the kind of relationship that this makes. -/
inductive Mentions (s : Symbol) : TypeRef → RelationKind → Prop where
  /-- A type mentions the nearest of its base types, -/
  | base {t : TypeRef} (hkind : s.kind = .type) (h : s.baseTypes.head? = some t) :
      s.Mentions t .inheritance
  /-- its interfaces, -/
  | interface {t : TypeRef} (hkind : s.kind = .type) (h : t ∈ s.interfaces) :
      s.Mentions t .implementation
  /-- and the types of the fields and properties of its instances. -/
  | member {m : Member} {t : TypeRef} (hkind : s.kind = .type) (hmem : m ∈ s.members)
      (hinstance : m.isStatic = false) (hdata : m.kind = .field ∨ m.kind = .property)
      (h : m.declaredType = some t) : s.Mentions t .composition
  /-- A method mentions the types of its parameters, -/
  | parameter {p : Parameter} (hkind : s.kind = .method) (h : p ∈ s.parameters) :
      s.Mentions p.parameterType .association
  /-- the type that it returns, if it returns something, -/
  | returned {t : TypeRef} (hkind : s.kind = .method) (h : s.returnType = some t)
      (hvoid : t.isVoid = false) : s.Mentions t .association
  /-- and the member that it overrides. -/
  | overridden {t : TypeRef} (hkind : s.kind = .method) (h : s.overridden = some t) :
      s.Mentions t .methodOverride
  /-- A field mentions its type, which it owns unless it can be assigned. -/
  | readOnlyField {t : TypeRef} (hkind : s.kind = .field) (hread : s.isReadOnly = true)
      (h : s.declaredType = some t) : s.Mentions t .composition
  | assignableField {t : TypeRef} (hkind : s.kind = .field) (hread : s.isReadOnly = false)
      (h : s.declaredType = some t) : s.Mentions t .aggregation
  /-- A property mentions its type. -/
  | property {t : TypeRef} (hkind : s.kind = .property) (h : s.declaredType = some t) :
      s.Mentions t .association

variable {s : Symbol} {t : TypeRef} {kind : RelationKind}

/-- Whatever is a structural target is mentioned. -/
theorem mentions_of_mem_structuralTargets (h : (t, kind) ∈ s.structuralTargets) :
    s.Mentions t kind := by
  cases hkind : s.kind <;> simp only [structuralTargets, hkind] at h
  case type =>
    simp only [List.mem_append, List.mem_map, Option.mem_toList, Prod.mk.injEq,
      List.mem_filterMap, List.mem_filter, Member.isInstanceData_iff] at h
    obtain (⟨_, h, rfl, rfl⟩ | ⟨_, h, rfl, rfl⟩) |
      ⟨_, ⟨m, ⟨hmem, hinstance, hdata⟩, h⟩, rfl, rfl⟩ := h
    · exact .base hkind h
    · exact .interface hkind h
    · exact .member hkind hmem hinstance hdata h
  case method =>
    simp only [List.mem_append, List.mem_map, Option.mem_toList, Prod.mk.injEq,
      Option.filter_eq_some_iff, Bool.not_eq_true'] at h
    obtain (⟨p, h, rfl, rfl⟩ | ⟨_, ⟨h, hvoid⟩, rfl, rfl⟩) | ⟨_, h, rfl, rfl⟩ := h
    · exact .parameter hkind h
    · exact .returned hkind h hvoid
    · exact .overridden hkind h
  case field =>
    simp only [List.mem_map, Option.mem_toList, Prod.mk.injEq] at h
    obtain ⟨_, h, rfl, rfl⟩ := h
    cases hread : s.isReadOnly with
    | true => exact .readOnlyField hkind hread h
    | false => exact .assignableField hkind hread h
  case property =>
    simp only [List.mem_map, Option.mem_toList, Prod.mk.injEq] at h
    obtain ⟨_, h, rfl, rfl⟩ := h
    exact .property hkind h
  all_goals cases h

/-- Whatever is mentioned is a structural target. -/
theorem Mentions.mem_structuralTargets (h : s.Mentions t kind) :
    (t, kind) ∈ s.structuralTargets := by
  cases h with
  | base hkind h => simp [structuralTargets, hkind, h]
  | interface hkind h => simp [structuralTargets, hkind, h]
  | @member m _ hkind hmem hinstance hdata h =>
    have hm : m ∈ s.members.filter (·.isInstanceData) :=
      List.mem_filter.mpr ⟨hmem, Member.isInstanceData_iff.mpr ⟨hinstance, hdata⟩⟩
    have ht : t ∈ (s.members.filter (·.isInstanceData)).filterMap (·.declaredType) :=
      List.mem_filterMap.mpr ⟨m, hm, h⟩
    simp only [structuralTargets, hkind]
    exact List.mem_append_right _ (List.mem_map_of_mem ht)
  | parameter hkind h =>
    simp only [structuralTargets, hkind]
    refine List.mem_append_left _ (List.mem_append_left _ ?_)
    exact List.mem_map_of_mem (f := fun p => (p.parameterType, RelationKind.association)) h
  | returned hkind h hvoid => simp [structuralTargets, hkind, h, hvoid]
  | overridden hkind h => simp [structuralTargets, hkind, h]
  | readOnlyField hkind hread h => simp [structuralTargets, hkind, hread, h]
  | assignableField hkind hread h => simp [structuralTargets, hkind, hread, h]
  | property hkind h => simp [structuralTargets, hkind, h]

/-- An abstract member is no interface. -/
theorem isInterface_eq_false_of_isAbstractMember (h : s.isAbstractMember = true) :
    s.isInterface = false := by
  unfold isAbstractMember at h
  unfold isInterface
  cases hkind : s.kind <;> simp_all

/-- What implements an interface or an abstract member is related to it by the one or the other
kind. -/
theorem implementationKind?_eq_some : s.implementationKind? = some kind ↔
    (s.isInterface = true ∧ kind = .implementation) ∨
      (s.isAbstractMember = true ∧ kind = .methodImplementation) := by
  unfold implementationKind?
  split
  · rename_i h
    have hmember : s.isAbstractMember ≠ true := fun hm => by
      rw [isInterface_eq_false_of_isAbstractMember hm] at h
      cases h
    simp [h, hmember, eq_comm]
  · rename_i h
    split
    · rename_i hm
      simp [h, hm, eq_comm]
    · rename_i hm
      simp [h, hm]

end Symbol

/-! ## Uses -/

namespace ReferenceContext

/-- The kind of relationship that a use of a symbol makes. -/
inductive Implies : ReferenceContext → RelationKind → Prop where
  /-- A call makes a method call, -/
  | call : Implies call .methodCall
  /-- an access a property access, -/
  | access : Implies access .propertyAccess
  /-- and any other use an association. -/
  | unknown : Implies unknown .association

/-- Each use makes one kind of relationship. -/
theorem implies_iff {context : ReferenceContext} {kind : RelationKind} :
    context.Implies kind ↔ kind = context.relationKind := by
  constructor
  · rintro (_ | _ | _) <;> rfl
  · rintro rfl
    cases context with
    | call => exact .call
    | access => exact .access
    | unknown => exact .unknown

instance {context : ReferenceContext} {kind : RelationKind} : Decidable (context.Implies kind) :=
  decidable_of_iff _ implies_iff.symm

end ReferenceContext

/-! ## Evidence -/

namespace Snapshot

variable (w : Snapshot) (order : List Symbol → List Symbol)

/-- The symbol that holds a referring place: the recorded one, or else the innermost declaration
around the place when declarations are compared in some order. -/
def enclosing? (site : ReferenceSite) : Option Symbol :=
  site.enclosing.or (innermost? site.location (order w.declared.values))

/-- The relationships of which the workspace gives evidence, seen from the symbol `s` with an
identity. -/
inductive Evidence (id : String) (s : Symbol) : RelationshipKey → Prop where
  /-- The declaration mentions the other end. -/
  | mention {t : TypeRef} {kind : RelationKind} (h : s.Mentions t kind) :
      Evidence id s ⟨id, t.identity, kind⟩
  /-- A place inside the other end refers to the symbol. -/
  | reference {sites : List ReferenceSite} {site : ReferenceSite} {source : Symbol}
      (hlookup : id ∉ w.faults.failLookups) (hsites : w.references.get? id = some sites)
      {kind : RelationKind} (hsite : site ∈ sites)
      (hsource : w.enclosing? order site = some source) (hkind : site.context.Implies kind) :
      Evidence id s ⟨source.identity, id, kind⟩
  /-- The other end implements the interface, -/
  | implementation {ids : List String} {other : String}
      (hlookup : id ∉ w.faults.failLookups) (hids : w.implementations.get? id = some ids)
      (hother : other ∈ ids) (hinterface : s.isInterface = true) :
      Evidence id s ⟨other, id, .implementation⟩
  /-- or the abstract member. -/
  | memberImplementation {ids : List String} {other : String}
      (hlookup : id ∉ w.faults.failLookups) (hids : w.implementations.get? id = some ids)
      (hother : other ∈ ids) (habstract : s.isAbstractMember = true) :
      Evidence id s ⟨other, id, .methodImplementation⟩
  /-- The other end derives from the class. -/
  | derivation {ids : List String} {other : String}
      (hlookup : id ∉ w.faults.failLookups) (hids : w.derivedTypes.get? id = some ids)
      (hother : other ∈ ids) (hclass : s.isClass = true) :
      Evidence id s ⟨other, id, .inheritance⟩

variable {w order} {id : String} {s : Symbol} {k : RelationshipKey}

/-- If look-ups for a symbol are to fail, there is evidence only of what its declaration
mentions. -/
theorem evidence_iff_of_failing (hlookup : id ∈ w.faults.failLookups) : w.Evidence order id s k ↔
    ∃ target ∈ s.structuralTargets, k = ⟨id, target.1.identity, target.2⟩ := by
  constructor
  · intro h
    cases h with
    | mention h => exact ⟨_, h.mem_structuralTargets, rfl⟩
    | reference h => exact absurd hlookup h
    | implementation h => exact absurd hlookup h
    | memberImplementation h => exact absurd hlookup h
    | derivation h => exact absurd hlookup h
  · rintro ⟨target, htarget, rfl⟩
    exact .mention (Symbol.mentions_of_mem_structuralTargets htarget)

/-- Else there is evidence of what each of the four collections looks for. -/
theorem evidence_iff_of_answered (hlookup : id ∉ w.faults.failLookups) : w.Evidence order id s k ↔
    (∃ target ∈ s.structuralTargets, k = ⟨id, target.1.identity, target.2⟩) ∨
    (∃ sites, w.references.get? id = some sites ∧ ∃ site ∈ sites, ∃ source,
      w.enclosing? order site = some source ∧
        k = ⟨source.identity, id, site.context.relationKind⟩) ∨
    (∃ kind, s.implementationKind? = some kind ∧
      ∃ l, w.implementations.get? id = some l ∧ ∃ o ∈ l, k = ⟨o, id, kind⟩) ∨
    (s.isClass = true ∧
      ∃ l, w.derivedTypes.get? id = some l ∧ ∃ o ∈ l, k = ⟨o, id, .inheritance⟩) := by
  constructor
  · intro h
    cases h with
    | mention h => exact .inl ⟨_, h.mem_structuralTargets, rfl⟩
    | reference _ hsites hsite hsource hkind =>
      obtain rfl := ReferenceContext.implies_iff.mp hkind
      exact .inr (.inl ⟨_, hsites, _, hsite, _, hsource, rfl⟩)
    | implementation _ hl ho hinterface =>
      have hkind := Symbol.implementationKind?_eq_some.mpr (.inl ⟨hinterface, rfl⟩)
      exact .inr (.inr (.inl ⟨_, hkind, _, hl, _, ho, rfl⟩))
    | memberImplementation _ hl ho habstract =>
      have hkind := Symbol.implementationKind?_eq_some.mpr (.inr ⟨habstract, rfl⟩)
      exact .inr (.inr (.inl ⟨_, hkind, _, hl, _, ho, rfl⟩))
    | derivation _ hl ho hclass => exact .inr (.inr (.inr ⟨hclass, _, hl, _, ho, rfl⟩))
  · rintro (⟨target, htarget, rfl⟩ | ⟨sites, hsites, site, hsite, source, hsource, rfl⟩ |
      ⟨kind, hkind, l, hl, o, ho, rfl⟩ | ⟨hclass, l, hl, o, ho, rfl⟩)
    · exact .mention (Symbol.mentions_of_mem_structuralTargets htarget)
    · exact .reference hlookup hsites hsite hsource (ReferenceContext.implies_iff.mpr rfl)
    · rcases Symbol.implementationKind?_eq_some.mp hkind with ⟨hinterface, rfl⟩ | ⟨habstract, rfl⟩
      · exact .implementation hlookup hl ho hinterface
      · exact .memberImplementation hlookup hl ho habstract
    · exact .derivation hlookup hl ho hclass

end Snapshot

end CodeAtlas
