import CodeAtlas.Json.Decoder
import CodeAtlas.Symbol.Basic

/-!
# Symbols as JSON

The written form of locations, mentions, symbols and reference sites: an object with the fields in
their declared order. Of each type, `toJson` writes a value and `ofJson?` reads one. Fields with a
natural empty value may be absent.
-/

namespace CodeAtlas

/-! ## Names -/

namespace SymbolKind

/-- The written form of a kind. -/
def toJson (k : SymbolKind) : Json := .ofString k.name

/-- The kind that a document writes. -/
def ofJson? : Json → Option SymbolKind := Json.choice? all name

end SymbolKind

namespace TypeCategory

/-- The written form of a category. -/
def toJson (c : TypeCategory) : Json := .ofString c.name

/-- The category that a document writes. -/
def ofJson? : Json → Option TypeCategory := Json.choice? all name

end TypeCategory

namespace Accessibility

/-- The written form of a scope. -/
def toJson (a : Accessibility) : Json := .ofString a.name

/-- The scope that a document writes. -/
def ofJson? : Json → Option Accessibility := Json.choice? all name

end Accessibility

namespace Modifier

/-- The written form of a modifier. -/
def toJson (m : Modifier) : Json := .ofString m.name

/-- The modifier that a document writes. -/
def ofJson? : Json → Option Modifier := Json.choice? all name

/-- A set of modifiers, in any order and with repetitions. -/
def setOfJson? (j : Json) : Option (SortedSet Modifier) :=
  (Json.list? ofJson? j).map SortedSet.ofList

end Modifier

namespace ReferenceContext

/-- The written form of a use. -/
def toJson (c : ReferenceContext) : Json := .ofString c.name

/-- The use that a document writes. -/
def ofJson? : Json → Option ReferenceContext := Json.choice? all name

end ReferenceContext

/-! ## Locations -/

namespace Location

/-- The fields of a location. -/
def fields : List String := ["filePath", "startLine", "startColumn", "endLine", "endColumn"]

/-- The written form of a location. -/
def toJson (l : Location) : Json := .ofMembers [
  ("filePath", .ofString l.filePath),
  ("startLine", .ofNat l.startLine.toNat),
  ("startColumn", .ofNat l.startColumn.toNat),
  ("endLine", .ofNat l.endLine.toNat),
  ("endColumn", .ofNat l.endColumn.toNat)]

/-- The location that a document writes. -/
def ofJson? (j : Json) : Option Location := do
  let r ← Json.Record.of? fields j
  let filePath ← r.required "filePath" Json.text?
  let startLine ← r.required "startLine" Json.uint32?
  let startColumn ← r.required "startColumn" Json.uint32?
  let endLine ← r.required "endLine" Json.uint32?
  let endColumn ← r.required "endColumn" Json.uint32?
  some { filePath, startLine, startColumn, endLine, endColumn }

end Location

/-! ## Mentions -/

namespace TypeRef

/-- The fields of a mention. -/
def fields : List String := ["name", "displayName", "assembly"]

/-- The written form of a mention. -/
def toJson (t : TypeRef) : Json := .ofMembers [
  ("name", .ofString t.name),
  ("displayName", .ofString t.displayName),
  ("assembly", .ofOption .ofString t.assembly)]

/-- The mention that a document writes. -/
def ofJson? (j : Json) : Option TypeRef := do
  let r ← Json.Record.of? fields j
  let name ← r.required "name" Json.text?
  let displayName ← r.required "displayName" Json.text?
  let assembly ← r.optional "assembly" Json.text?
  some { name, displayName, assembly }

end TypeRef

namespace Member

/-- The fields of a member. -/
def fields : List String := ["name", "kind", "isStatic", "declaredType", "parameterCount"]

/-- The written form of a member. -/
def toJson (m : Member) : Json := .ofMembers [
  ("name", .ofString m.name),
  ("kind", m.kind.toJson),
  ("isStatic", .boolean m.isStatic),
  ("declaredType", .ofOption TypeRef.toJson m.declaredType),
  ("parameterCount", .ofNat m.parameterCount.toNat)]

/-- The member that a document writes. -/
def ofJson? (j : Json) : Option Member := do
  let r ← Json.Record.of? fields j
  let name ← r.required "name" Json.text?
  let kind ← r.required "kind" SymbolKind.ofJson?
  let isStatic ← r.withDefault "isStatic" false Json.boolean?
  let declaredType ← r.optional "declaredType" TypeRef.ofJson?
  let parameterCount ← r.withDefault "parameterCount" 0 Json.uint64?
  some { name, kind, isStatic, declaredType, parameterCount }

end Member

namespace Parameter

/-- The fields of a parameter. -/
def fields : List String := ["name", "parameterType"]

/-- The written form of a parameter. -/
def toJson (p : Parameter) : Json := .ofMembers [
  ("name", .ofString p.name),
  ("parameterType", p.parameterType.toJson)]

/-- The parameter that a document writes. -/
def ofJson? (j : Json) : Option Parameter := do
  let r ← Json.Record.of? fields j
  let name ← r.required "name" Json.text?
  let parameterType ← r.required "parameterType" TypeRef.ofJson?
  some { name, parameterType }

end Parameter

/-! ## Symbols -/

namespace Symbol

/-- The fields of a symbol. -/
def fields : List String := [
  "name", "displayName", "kind", "typeCategory", "containingAssembly", "containingNamespace",
  "containingType", "accessibility", "modifiers", "isImplicitlyDeclared", "isReadOnly",
  "interfaces", "baseTypes", "genericParameters", "members", "parameters", "returnType",
  "declaredType", "overridden", "location"]

/-- The written form of a symbol. -/
def toJson (s : Symbol) : Json := .ofMembers [
  ("name", .ofString s.name),
  ("displayName", .ofString s.displayName),
  ("kind", s.kind.toJson),
  ("typeCategory", .ofOption TypeCategory.toJson s.typeCategory),
  ("containingAssembly", .ofOption .ofString s.containingAssembly),
  ("containingNamespace", .ofOption .ofString s.containingNamespace),
  ("containingType", .ofOption TypeRef.toJson s.containingType),
  ("accessibility", s.accessibility.toJson),
  ("modifiers", .ofList Modifier.toJson s.modifiers.toList),
  ("isImplicitlyDeclared", .boolean s.isImplicitlyDeclared),
  ("isReadOnly", .boolean s.isReadOnly),
  ("interfaces", .ofList TypeRef.toJson s.interfaces),
  ("baseTypes", .ofList TypeRef.toJson s.baseTypes),
  ("genericParameters", .ofList .ofString s.genericParameters),
  ("members", .ofList Member.toJson s.members),
  ("parameters", .ofList Parameter.toJson s.parameters),
  ("returnType", .ofOption TypeRef.toJson s.returnType),
  ("declaredType", .ofOption TypeRef.toJson s.declaredType),
  ("overridden", .ofOption TypeRef.toJson s.overridden),
  ("location", .ofOption Location.toJson s.location)]

/-- Where no accessibility is written, the symbol is private. -/
def ofJson? (j : Json) : Option Symbol := do
  let r ← Json.Record.of? fields j
  let name ← r.required "name" Json.text?
  let displayName ← r.required "displayName" Json.text?
  let kind ← r.required "kind" SymbolKind.ofJson?
  let typeCategory ← r.optional "typeCategory" TypeCategory.ofJson?
  let containingAssembly ← r.optional "containingAssembly" Json.text?
  let containingNamespace ← r.optional "containingNamespace" Json.text?
  let containingType ← r.optional "containingType" TypeRef.ofJson?
  let accessibility ← r.withDefault "accessibility" .privateScope Accessibility.ofJson?
  let modifiers ← r.withDefault "modifiers" .empty Modifier.setOfJson?
  let isImplicitlyDeclared ← r.withDefault "isImplicitlyDeclared" false Json.boolean?
  let isReadOnly ← r.withDefault "isReadOnly" false Json.boolean?
  let interfaces ← r.withDefault "interfaces" [] (Json.list? TypeRef.ofJson?)
  let baseTypes ← r.withDefault "baseTypes" [] (Json.list? TypeRef.ofJson?)
  let genericParameters ← r.withDefault "genericParameters" [] (Json.list? Json.text?)
  let members ← r.withDefault "members" [] (Json.list? Member.ofJson?)
  let parameters ← r.withDefault "parameters" [] (Json.list? Parameter.ofJson?)
  let returnType ← r.optional "returnType" TypeRef.ofJson?
  let declaredType ← r.optional "declaredType" TypeRef.ofJson?
  let overridden ← r.optional "overridden" TypeRef.ofJson?
  let location ← r.optional "location" Location.ofJson?
  some {
    name, displayName, kind, typeCategory, containingAssembly, containingNamespace,
    containingType, accessibility, modifiers, isImplicitlyDeclared, isReadOnly, interfaces,
    baseTypes, genericParameters, members, parameters, returnType, declaredType, overridden,
    location }

end Symbol

namespace ReferenceSite

/-- The fields of a reference site. -/
def fields : List String := ["location", "enclosing", "context"]

/-- The written form of a referring place. -/
def toJson (s : ReferenceSite) : Json := .ofMembers [
  ("location", s.location.toJson),
  ("enclosing", .ofOption Symbol.toJson s.enclosing),
  ("context", s.context.toJson)]

/-- The referring place that a document writes. -/
def ofJson? (j : Json) : Option ReferenceSite := do
  let r ← Json.Record.of? fields j
  let location ← r.required "location" Location.ofJson?
  let enclosing ← r.optional "enclosing" Symbol.ofJson?
  let context ← r.withDefault "context" .unknown ReferenceContext.ofJson?
  some { location, enclosing, context }

end ReferenceSite

end CodeAtlas
