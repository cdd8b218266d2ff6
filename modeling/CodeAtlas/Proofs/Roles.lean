import CodeAtlas.Analysis.Classification

/-!
# Roles of interfaces

An interface whose name ends like that of no other role is asked for in every layer, after the rules
on names. All of these rules pass over it (`firstRole?_eq_none`), so it has the role of interfaces
in any namespace but one: the business layer also has a rule on namespaces, which comes before
interfaces and gives the domain role (`RoleTraits.role_of_isInterface`).
-/

namespace CodeAtlas

/-! ## Rules on names -/

/-- How names end that show a role in one of the three layers or in infrastructure. -/
def roleSuffixes : List String := [
  "ViewModel", "View", "Window", "Page", "UserControl", "Control",
  "Service", "Entity", "ValueObject", "Aggregate", "DomainEvent",
  "Repository", "Repo", "DbContext", "Context", "Dao", "DataAccess", "Dal", "Gateway",
  "ApiController", "Controller", "Middleware", "Configuration", "Config", "Settings", "Options",
  "Startup"]

/-- A name without any of some suffixes is passed over by rules on these suffixes. -/
theorem firstRole?_eq_none {rules : List (List String × Role)} {name : String}
    {suffixes : List String} (h : endsWithAny name suffixes = false)
    (hrules : ∀ rule ∈ rules, rule.1 ⊆ suffixes) : firstRole? rules name = none := by
  rw [endsWithAny, List.any_eq_false] at h
  refine Option.map_eq_none_iff.mpr (List.find?_eq_none.mpr fun rule hrule => ?_)
  rw [endsWithAny, List.any_eq_true]
  rintro ⟨suffix, hsuffix, hends⟩
  exact h suffix (hrules rule hrule hsuffix) hends

/-- A segment that begins with an indicator begins with one of more indicators. -/
theorem anyIndicated_mono {indicators indicators' segments : List String}
    (hsub : indicators ⊆ indicators') (h : anyIndicated indicators segments = true) :
    anyIndicated indicators' segments = true := by
  obtain ⟨segment, hsegment, hany⟩ := List.any_eq_true.mp h
  obtain ⟨indicator, hindicator, hbegins⟩ := List.any_eq_true.mp hany
  exact List.any_eq_true.mpr
    ⟨segment, hsegment, List.any_eq_true.mpr ⟨indicator, hsub hindicator, hbegins⟩⟩

namespace RoleTraits

variable {t : RoleTraits}

section Suffixes

variable (hname : endsWithAny t.name roleSuffixes = false)

include hname

/-- Without a file only the end of the name shows a role in the presentation layer. -/
theorem presentationRole?_eq_none (hpath : t.filePath = none) : t.presentationRole? = none := by
  rw [presentationRole?, firstRole?_eq_none hname (by simp [roleSuffixes]), hpath]
  rfl

/-- In the business layer a domain namespace shows a role whatever the name. -/
theorem businessRole?_eq : t.businessRole? = if t.isIn ["domain"] then some .domain else none := by
  rw [businessRole?, firstRole?_eq_none hname (by simp [roleSuffixes]), Option.none_or]

theorem dataRole?_eq_none : t.dataRole? = none := firstRole?_eq_none hname (by simp [roleSuffixes])

theorem infrastructureRole?_eq_none : t.infrastructureRole? = none :=
  firstRole?_eq_none hname (by simp [roleSuffixes])

end Suffixes

/-- An interface outside the three layers has the role of interfaces, unless its name shows one in
infrastructure. -/
theorem openRole_of_isInterface (hinterface : t.isInterface = true)
    (hname : endsWithAny t.name roleSuffixes = false) : t.openRole = .interface := by
  rw [openRole, infrastructureRole?_eq_none hname, ite_self, structuralRole?, if_pos hinterface]
  rfl

/-- An interface without a file whose name shows no role is classified as an interface in every
namespace, except for domain namespaces outside the presentation layer: there it has the domain
role. -/
theorem role_of_isInterface (t : RoleTraits) (hpath : t.filePath = none)
    (hinterface : t.isInterface = true) (hname : endsWithAny t.name roleSuffixes = false) :
    t.role = if t.isIn Layer.presentation = false ∧ t.isIn ["domain"] = true then .domain
      else .interface := by
  have hpresentation : t.isPresentation = t.isIn Layer.presentation := by
    rw [isPresentation, hpath, Option.any_none, Bool.or_false]
  have hdomain : t.isIn ["domain"] = true → t.isIn Layer.business = true :=
    anyIndicated_mono (by decide)
  rw [role, hpresentation, presentationRole?_eq_none hname hpath, businessRole?_eq hname,
    dataRole?_eq_none hname, openRole_of_isInterface hinterface hname, interfaceRole?,
    if_pos hinterface]
  cases hui : t.isIn Layer.presentation with
  | true => rfl
  | false =>
    cases hd : t.isIn ["domain"] with
    | true => simp [hdomain hd]
    | false => simp

/-- A shape in a namespace of the data layer is an interface. -/
theorem role_of_isInterface_data :
    let shape : RoleTraits :=
      { name := "IShape", containingNamespace := some "Shop.Data", isInterface := true }
    endsWithAny shape.name roleSuffixes = false ∧ shape.role = .interface := by
  intro shape
  have hname : endsWithAny shape.name roleSuffixes = false := by decide
  refine ⟨hname, (role_of_isInterface shape rfl rfl hname).trans ?_⟩
  decide

/-- The same shape in a namespace of the domain is not. -/
theorem role_of_isInterface_domain :
    let shape : RoleTraits :=
      { name := "IShape", containingNamespace := some "Shop.Domain", isInterface := true }
    endsWithAny shape.name roleSuffixes = false ∧ shape.role = .domain ∧
      shape.role ≠ .interface := by
  intro shape
  have hrole : shape.role = .domain := by decide
  exact ⟨by decide, hrole, by rw [hrole]; decide⟩

end RoleTraits

end CodeAtlas
