import CodeAtlas.Proofs.Decoders
import CodeAtlas.Symbol.Codec

/-!
# Symbols are read as they are written

`ofJson?_toJson` for each type whose written form is defined beside the symbols: the decoder takes
back what the encoder wrote, with no condition on the value. Every proof takes the object apart once
(`Json.Record.of?_ofMembers`) and then reads its fields one after another by the lemmas about the
parts, so a new field costs at most one more entry in the list of lemmas that are used. The steps
of `simp` are recorded one by one (`-implicitDefEqProofs`): a decoder with many fields is too large
to be compared with itself by unfolding. Its steps are taken as they stand (`Json.some_bind`, in
place of `Option.bind_eq_bind`): the congruence for `Option.bind` would have the rest of the decoder
simplified again before each step.
-/

namespace CodeAtlas

open Json (choice?_ofString list?_ofList optional?_ofOption some_bind)
open Json.Record (of?_ofMembers)

/-! ## Names -/

/-- A kind is read as it is written. -/
@[simp] theorem SymbolKind.ofJson?_toJson (k : SymbolKind) : ofJson? k.toJson = some k :=
  choice?_ofString (by decide) k.mem_all

/-- No category is written as `null`. -/
@[simp] theorem TypeCategory.ofJson?_null : ofJson? .null = none := rfl

/-- A category is read as it is written. -/
@[simp] theorem TypeCategory.ofJson?_toJson (c : TypeCategory) : ofJson? c.toJson = some c :=
  choice?_ofString (by decide) c.mem_all

/-- A scope is read as it is written. -/
@[simp] theorem Accessibility.ofJson?_toJson (a : Accessibility) : ofJson? a.toJson = some a :=
  choice?_ofString (by decide) a.mem_all

/-- A modifier is read as it is written. -/
@[simp] theorem Modifier.ofJson?_toJson (m : Modifier) : ofJson? m.toJson = some m :=
  choice?_ofString (by decide) m.mem_all

/-- A set of modifiers is read as it is written. -/
@[simp] theorem Modifier.setOfJson?_toJson (s : SortedSet Modifier) :
    setOfJson? (.ofList toJson s.toList) = some s := by
  rw [setOfJson?, list?_ofList fun m _ => m.ofJson?_toJson, Option.map_some,
    SortedSet.ofList_toList]

/-- A use is read as it is written. -/
@[simp] theorem ReferenceContext.ofJson?_toJson (c : ReferenceContext) :
    ofJson? c.toJson = some c := choice?_ofString (by decide) c.mem_all

/-! ## Parts of symbols -/

/-- No location is written as `null`. -/
@[simp] theorem Location.ofJson?_null : ofJson? .null = none := rfl

/-- A location is read as it is written. -/
@[simp] theorem Location.ofJson?_toJson (l : Location) : ofJson? l.toJson = some l := by
  rw [ofJson?, toJson, of?_ofMembers (by decide) (by exact .refl fields)]
  simp -implicitDefEqProofs [-Option.bind_eq_bind, some_bind]

/-- No mention is written as `null`. -/
@[simp] theorem TypeRef.ofJson?_null : ofJson? .null = none := rfl

/-- A mention is read as it is written. -/
@[simp] theorem TypeRef.ofJson?_toJson (t : TypeRef) : ofJson? t.toJson = some t := by
  rw [ofJson?, toJson, of?_ofMembers (by decide) (by exact .refl fields)]
  simp -implicitDefEqProofs [-Option.bind_eq_bind, some_bind, optional?_ofOption]

/-- A member is read as it is written. -/
@[simp] theorem Member.ofJson?_toJson (m : Member) : ofJson? m.toJson = some m := by
  rw [ofJson?, toJson, of?_ofMembers (by decide) (by exact .refl fields)]
  simp -implicitDefEqProofs [-Option.bind_eq_bind, some_bind, optional?_ofOption]

/-- A parameter is read as it is written. -/
@[simp] theorem Parameter.ofJson?_toJson (p : Parameter) : ofJson? p.toJson = some p := by
  rw [ofJson?, toJson, of?_ofMembers (by decide) (by exact .refl fields)]
  simp -implicitDefEqProofs [-Option.bind_eq_bind, some_bind]

/-! ## Symbols -/

/-- No symbol is written as `null`. -/
@[simp] theorem Symbol.ofJson?_null : ofJson? .null = none := rfl

/-- A symbol is read as it is written. -/
@[simp] theorem Symbol.ofJson?_toJson (s : Symbol) : ofJson? s.toJson = some s := by
  rw [ofJson?, toJson, of?_ofMembers (by decide) (by exact .refl fields)]
  simp -implicitDefEqProofs [-Option.bind_eq_bind, some_bind, optional?_ofOption, list?_ofList]

/-- A referring place is read as it is written. -/
@[simp] theorem ReferenceSite.ofJson?_toJson (s : ReferenceSite) : ofJson? s.toJson = some s := by
  rw [ofJson?, toJson, of?_ofMembers (by decide) (by exact .refl fields)]
  simp -implicitDefEqProofs [-Option.bind_eq_bind, some_bind, optional?_ofOption]

end CodeAtlas
