import CodeAtlas.Collections.SortedSet
import CodeAtlas.Symbol.Location
import CodeAtlas.Text.Blank

/-!
# Symbols

A `Symbol` is a declared entity of a program: a type, a member of one, a parameter and so on. Two
symbols are the same entity when their identities agree (`identity`): the assembly and the qualified
display name, joined by two colons. A `TypeRef` is a mention of an entity in a signature and has an
identity of the same form.
-/

namespace CodeAtlas

/-- The assembly of symbols that name none. -/
def unknownAssembly : String := "Unknown"

/-- The assembly's name without blanks at its ends; the unknown one where nothing is left. -/
def assemblyKey (assembly : Option String) : String :=
  match assembly.map Text.trim with
  | some a => if a.isEmpty then unknownAssembly else a
  | none => unknownAssembly

/-- The identity of the entity with a display name in an assembly. -/
def identity (assembly : Option String) (displayName : String) : String :=
  assemblyKey assembly ++ "::" ++ displayName

/-! ## Kinds and attributes -/

/-- The kinds of symbols. -/
inductive SymbolKind where
  | namespaceScope
  | type
  | method
  | property
  | field
  | event
  | parameter
  | localVariable
  deriving DecidableEq

namespace SymbolKind

/-- All kinds, in their order. -/
def all : List SymbolKind :=
  [namespaceScope, type, method, property, field, event, parameter, localVariable]

/-- The place of a kind in the order. -/
def rank : SymbolKind → Nat
  | namespaceScope => 0
  | type => 1
  | method => 2
  | property => 3
  | field => 4
  | event => 5
  | parameter => 6
  | localVariable => 7

/-- The name of a kind. -/
def name : SymbolKind → String
  | namespaceScope => "Namespace"
  | type => "Type"
  | method => "Method"
  | property => "Property"
  | field => "Field"
  | event => "Event"
  | parameter => "Parameter"
  | localVariable => "Local"

/-- Every kind is listed. -/
theorem mem_all (k : SymbolKind) : k ∈ all := by cases k <;> decide

end SymbolKind

/-- The categories of types. -/
inductive TypeCategory where
  | classType
  | interface
  | struct
  | enum
  | delegate
  | record
  deriving DecidableEq

namespace TypeCategory

/-- All categories. -/
def all : List TypeCategory := [.classType, .interface, .struct, .enum, .delegate, .record]

/-- The name of a category. -/
def name : TypeCategory → String
  | .classType => "Class"
  | .interface => "Interface"
  | .struct => "Struct"
  | .enum => "Enum"
  | .delegate => "Delegate"
  | .record => "Record"

/-- Every category is listed. -/
theorem mem_all (c : TypeCategory) : c ∈ all := by cases c <;> decide

end TypeCategory

/-- From where a symbol can be used. -/
inductive Accessibility where
  | publicScope
  | privateScope
  | protectedScope
  | internalScope
  | protectedInternalScope
  deriving DecidableEq

namespace Accessibility

/-- All scopes. -/
def all : List Accessibility :=
  [publicScope, privateScope, protectedScope, internalScope, protectedInternalScope]

/-- The name of a scope. -/
def name : Accessibility → String
  | publicScope => "Public"
  | privateScope => "Private"
  | protectedScope => "Protected"
  | internalScope => "Internal"
  | protectedInternalScope => "ProtectedInternal"

/-- Every scope is listed. -/
theorem mem_all (a : Accessibility) : a ∈ all := by cases a <;> decide

end Accessibility

/-- The modifiers of a declaration. -/
inductive Modifier where
  | static
  | abstract
  | virtual
  | override
  | sealed
  | external
  deriving DecidableEq

namespace Modifier

/-- All modifiers, in their order. -/
def all : List Modifier := [static, abstract, virtual, override, sealed, external]

/-- The place of a modifier in the order. -/
def rank : Modifier → Nat
  | static => 0
  | abstract => 1
  | virtual => 2
  | override => 3
  | sealed => 4
  | external => 5

/-- The name of a modifier. -/
def name : Modifier → String
  | static => "static"
  | abstract => "abstract"
  | virtual => "virtual"
  | override => "override"
  | sealed => "sealed"
  | external => "extern"

/-- Every modifier is listed. -/
theorem mem_all (m : Modifier) : m ∈ all := by cases m <;> decide

/-- Modifiers of one rank are equal. -/
theorem rank_inj {a b : Modifier} (h : a.rank = b.rank) : a = b := by
  cases a <;> cases b <;> first | rfl | cases h

instance : Ord Modifier := ⟨compareOn rank⟩

instance : Std.TransOrd Modifier := inferInstanceAs (Std.TransCmp (compareOn rank))

instance : Std.LawfulEqOrd Modifier where
  compare_self := by intro a; cases a <;> rfl
  eq_of_compare h := rank_inj (Std.compare_eq_iff_eq.mp h)

end Modifier

/-! ## Mentions of types -/

/-- A type or member as it is mentioned in a declaration. -/
structure TypeRef where
  name : String
  displayName : String
  assembly : Option String
  deriving DecidableEq

namespace TypeRef

/-- The identity of the mentioned entity. -/
def identity (t : TypeRef) : String := CodeAtlas.identity t.assembly t.displayName

/-- Whether the type is the one of methods that return nothing. -/
def isVoid (t : TypeRef) : Bool := t.displayName == "void" || t.displayName == "System.Void"

end TypeRef

/-- A member of a type, as its type lists it. -/
structure Member where
  name : String
  kind : SymbolKind
  isStatic : Bool
  declaredType : Option TypeRef
  parameterCount : UInt64
  deriving DecidableEq

/-- A parameter of a method. -/
structure Parameter where
  name : String
  parameterType : TypeRef
  deriving DecidableEq

/-! ## Symbols -/

/-- A declared entity of a program. -/
structure Symbol where
  name : String
  /-- The qualified form, for instance `Shop.Orders.OrderService.Submit(Order)`. -/
  displayName : String
  kind : SymbolKind
  typeCategory : Option TypeCategory := none
  containingAssembly : Option String := none
  containingNamespace : Option String := none
  containingType : Option TypeRef := none
  accessibility : Accessibility := .publicScope
  modifiers : SortedSet Modifier := .empty
  /-- Whether a compiler made the symbol up: a backing field, a default constructor. -/
  isImplicitlyDeclared : Bool := false
  isReadOnly : Bool := false
  interfaces : List TypeRef := []
  /-- The chain of base types, nearest first. -/
  baseTypes : List TypeRef := []
  genericParameters : List String := []
  members : List Member := []
  parameters : List Parameter := []
  returnType : Option TypeRef := none
  /-- The type of a field, property or event. -/
  declaredType : Option TypeRef := none
  /-- The member that a method overrides. -/
  overridden : Option TypeRef := none
  location : Option Location := none
  deriving DecidableEq

namespace Symbol

/-- The identity of the symbol. -/
def identity (s : Symbol) : String := CodeAtlas.identity s.containingAssembly s.displayName

/-- The mention of the symbol. -/
def typeRef (s : Symbol) : TypeRef := ⟨s.name, s.displayName, s.containingAssembly⟩

/-- A mention has the identity of what it mentions. -/
theorem identity_typeRef (s : Symbol) : s.typeRef.identity = s.identity := rfl

/-- Whether the declaration has the modifier. -/
def hasModifier (s : Symbol) (m : Modifier) : Bool := decide (m ∈ s.modifiers)

/-- Whether the symbol is an interface. -/
def isInterface (s : Symbol) : Bool :=
  s.kind == .type && s.typeCategory == some .interface

/-- Whether the symbol is a class or a record. -/
def isClass (s : Symbol) : Bool :=
  s.kind == .type && (s.typeCategory == some .classType || s.typeCategory == some .record)

/-- Whether the symbol is an abstract method, property or event. -/
def isAbstractMember (s : Symbol) : Bool :=
  (s.kind == .method || s.kind == .property || s.kind == .event) && s.hasModifier .abstract

/-! ### Building symbols -/

/-- A type declared in a namespace of an assembly. -/
def typeIn (assembly containingNamespace name : String) (category : TypeCategory) : Symbol :=
  { name
    displayName := if containingNamespace.isEmpty then name else containingNamespace ++ "." ++ name
    kind := .type
    typeCategory := some category
    containingAssembly := some assembly
    containingNamespace := if containingNamespace.isEmpty then none else some containingNamespace }

/-- A member declared inside `owner`; the display name of a method ends in parentheses. -/
def memberOf (owner : Symbol) (kind : SymbolKind) (name : String) : Symbol :=
  { name
    displayName := owner.displayName ++ "." ++ if kind = .method then name ++ "()" else name
    kind
    containingAssembly := owner.containingAssembly
    containingNamespace := owner.containingNamespace
    containingType := some owner.typeRef
    location := owner.location }

/-- The symbol with one more modifier. -/
def withModifier (s : Symbol) (m : Modifier) : Symbol :=
  { s with modifiers := s.modifiers.insert m }

/-- The symbol with one more interface. -/
def implementing (s : Symbol) (t : TypeRef) : Symbol := { s with interfaces := s.interfaces ++ [t] }

/-- The symbol with one more base type, behind the ones it has. -/
def derivingFrom (s : Symbol) (t : TypeRef) : Symbol := { s with baseTypes := s.baseTypes ++ [t] }

/-- The symbol with one more type parameter. -/
def withGenericParameter (s : Symbol) (name : String) : Symbol :=
  { s with genericParameters := s.genericParameters ++ [name] }

/-- The symbol with one more member. -/
def withMember (s : Symbol) (m : Member) : Symbol := { s with members := s.members ++ [m] }

/-- The symbol with one more parameter. -/
def withParameter (s : Symbol) (name : String) (t : TypeRef) : Symbol :=
  { s with parameters := s.parameters ++ [⟨name, t⟩] }

end Symbol

/-! ## References -/

/-- How a referring place uses the symbol it refers to. -/
inductive ReferenceContext where
  | call
  | access
  | unknown
  deriving DecidableEq

namespace ReferenceContext

/-- All uses. -/
def all : List ReferenceContext := [call, access, unknown]

/-- The name of a use. -/
def name : ReferenceContext → String
  | call => "Call"
  | access => "Access"
  | unknown => "Unknown"

/-- Every use is listed. -/
theorem mem_all (c : ReferenceContext) : c ∈ all := by cases c <;> decide

end ReferenceContext

/-- A place that refers to a symbol. -/
structure ReferenceSite where
  location : Location
  /-- The symbol whose declaration holds the place, where it is known from the start. -/
  enclosing : Option Symbol
  context : ReferenceContext
  deriving DecidableEq

end CodeAtlas
