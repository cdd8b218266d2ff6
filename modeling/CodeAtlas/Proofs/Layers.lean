import CodeAtlas.Analysis.Classification
import CodeAtlas.Proofs.Segments

/-!
# Layers and the roles in them

What places a node in a layer is written in its namespace and in the path of its file: some segment
of the namespace begins with an indicator of the layer (`RoleTraits.BeginsSegment`), and for the
presentation layer the file also counts. The classifier decides just this (`isIn_iff`,
`isPresentation_iff`).

Every role belongs to a family (`Role.family`): one for each layer, one for infrastructure and one
for common code, and outside the layers some roles are families of their own. A node shows a family
if its traits are those that the family asks for (`RoleTraits.Shows`). The role of a node is always
of a family that the node shows (`RoleTraits.shows_family_role`), and different layers exclude each
other, so the layer of a node tells the family of its role and the other way round
(`RoleTraits.family_role`).
-/

namespace CodeAtlas

/-! ## Families of roles -/

/-- What several roles have in common. -/
inductive RoleFamily where
  | presentation
  | business
  | data
  | infrastructure
  | interface
  | abstractClass
  /-- What a name says of the structure of a declaration. -/
  | construction
  | common
  | unknown
  deriving DecidableEq

/-- The family of a role. -/
def Role.family : Role → RoleFamily
  | viewModel | view | window | page | userControl | codeBehind | ui => .presentation
  | service | entity | valueObject | domain | businessLogic => .business
  | repository | dbContext | dataAccess | dataModel => .data
  | controller | apiController | middleware | configuration => .infrastructure
  | interface => .interface
  | abstractClass => .abstractClass
  | factory | builder => .construction
  | helper | utility | extension | attributeClass => .common
  | unknown => .unknown

/-- Rules on names for roles of one family give no others. -/
theorem family_of_firstRole? {rules : List (List String × Role)} {name : String} {r : Role}
    {family : RoleFamily} (h : firstRole? rules name = some r)
    (hrules : ∀ rule ∈ rules, rule.2.family = family) : r.family = family := by
  obtain ⟨rule, hrule, rfl⟩ := Option.map_eq_some_iff.mp h
  exact hrules rule (List.mem_of_find?_eq_some hrule)

namespace RoleTraits

open Text

variable {t : RoleTraits} {r : Role}

/-! ## Where a node belongs -/

/-- Some segment of the namespace that is not empty begins, in lower case, with one of the
indicators. -/
def BeginsSegment (t : RoleTraits) (indicators : List String) : Prop :=
  ∃ ns, t.containingNamespace = some ns ∧ ∃ segment, segment ≠ [] ∧
    IsSegment (· == '.') segment (lowercase ns).toList ∧
    ∃ indicator ∈ indicators, indicator.toList <+: segment

/-- The file lies in a directory of views. -/
def HasViewDirectory (t : RoleTraits) : Prop :=
  ∃ path, t.filePath = some path ∧ ∃ segment,
    IsSegment (fun c => c == '/' || c == '\\') segment path.toList ∧
    ∃ directory ∈ ["views", "viewmodels"], segment.map Char.toLower = directory.toList

/-- The file is one behind a view. -/
def HasCodeBehind (t : RoleTraits) : Prop :=
  ∃ path, t.filePath = some path ∧
    ∃ suffix ∈ [".xaml.cs", ".xaml.vb", ".axaml.cs", ".razor.cs", ".aspx.cs", ".cshtml.cs"],
      suffix.toList <:+ (lowercase path).toList

/-- The presentation layer shows in the namespace or in the file. -/
def InPresentation (t : RoleTraits) : Prop :=
  t.BeginsSegment ["ui", "view", "presentation"] ∨ t.HasViewDirectory ∨ t.HasCodeBehind

def InBusiness (t : RoleTraits) : Prop :=
  t.BeginsSegment ["business", "domain", "service", "logic", "core"]

def InData (t : RoleTraits) : Prop :=
  t.BeginsSegment ["data", "repositor", "persistence", "storage", "dal"]

def InInfrastructure (t : RoleTraits) : Prop :=
  t.BeginsSegment ["infrastructure", "api", "web", "controller", "middleware"]

def InCommon (t : RoleTraits) : Prop :=
  t.BeginsSegment ["common", "shared", "utilit", "helper", "extension"]

/-- The node belongs to none of the three layers. -/
structure IsOutside (t : RoleTraits) : Prop where
  not_presentation : ¬ t.InPresentation
  not_business : ¬ t.InBusiness
  not_data : ¬ t.InData

/-- The traits of the node are those of a family. -/
inductive Shows (t : RoleTraits) : RoleFamily → Prop
  | presentation (hlayer : t.InPresentation) : Shows t .presentation
  | business (hpresentation : ¬ t.InPresentation) (hlayer : t.InBusiness) : Shows t .business
  | data (hpresentation : ¬ t.InPresentation) (hbusiness : ¬ t.InBusiness) (hlayer : t.InData) :
    Shows t .data
  | infrastructure (houtside : t.IsOutside) (hlayer : t.InInfrastructure) : Shows t .infrastructure
  | interface (hinterface : t.isInterface = true) : Shows t .interface
  | abstractClass (houtside : t.IsOutside) (habstract : t.isAbstract = true)
    (hinterface : t.isInterface = false) : Shows t .abstractClass
  | construction (houtside : t.IsOutside) : Shows t .construction
  | common (houtside : t.IsOutside) (hlayer : t.InCommon) : Shows t .common
  | unknown (houtside : t.IsOutside) : Shows t .unknown

/-! ## What the classifier reads -/

/-- The segments that the classifier looks at are those of the namespace in lower case. -/
theorem mem_segments {segment : String} : segment ∈ t.segments ↔
    ∃ ns, t.containingNamespace = some ns ∧ segment ≠ "" ∧
      IsSegment (· == '.') segment.toList (lowercase ns).toList := by
  rw [segments, List.mem_filter, mem_split_iff, Bool.not_eq_true', String.isEmpty_eq_false_iff,
    and_comm]
  cases hns : t.containingNamespace with
  | some ns => simp
  | none =>
    -- without a namespace the only segment is empty
    simp only [Option.getD_none, reduceCtorEq, false_and, exists_false, iff_false, not_and]
    intro hne hsegment
    have hsegments : splitList (· == '.') (lowercase "").toList = [[]] := rfl
    rw [← mem_splitList_iff, hsegments, List.mem_singleton] at hsegment
    exact hne (String.toList_eq_nil_iff.mp hsegment)

/-- Indicators are looked for at the beginning of segments. -/
theorem isIn_iff {indicators : List String} :
    t.isIn indicators = true ↔ t.BeginsSegment indicators := by
  simp only [isIn, anyIndicated, beginsWith, List.any_eq_true, List.isPrefixOf_iff_prefix,
    mem_segments, BeginsSegment]
  constructor
  · rintro ⟨segment, ⟨ns, hns, hne, hsegment⟩, hindicated⟩
    exact ⟨ns, hns, segment.toList, mt String.toList_eq_nil_iff.mp hne, hsegment, hindicated⟩
  · rintro ⟨ns, hns, segment, hne, hsegment, hindicated⟩
    refine ⟨String.ofList segment, ⟨ns, hns, mt String.ofList_eq_empty_iff.mp hne, ?_⟩, ?_⟩
    · rwa [String.toList_ofList]
    · rwa [String.toList_ofList]

/-- Directories are compared in any case. -/
theorem isInViewDirectory_iff {path : String} : isInViewDirectory path = true ↔ ∃ segment,
    IsSegment isSlash segment path.toList ∧
    ∃ directory ∈ viewDirectories, segment.map Char.toLower = directory.toList := by
  simp only [isInViewDirectory, List.any_eq_true, mem_split_iff, List.contains_iff_mem]
  constructor
  · rintro ⟨part, hpart, hdirectory⟩
    exact ⟨part.toList, hpart, _, hdirectory, by rw [lowercaseAscii, String.toList_ofList]⟩
  · rintro ⟨segment, hsegment, directory, hdirectory, hlower⟩
    refine ⟨String.ofList segment, by rwa [String.toList_ofList], ?_⟩
    rwa [lowercaseAscii, String.toList_ofList, hlower, String.ofList_toList]

theorem isCodeBehind_iff {path : String} : isCodeBehind path = true ↔
    ∃ suffix ∈ codeBehindSuffixes, suffix.toList <:+ (lowercase path).toList := by
  simp only [isCodeBehind, endsWithAny, endsWith, List.any_eq_true, List.isSuffixOf_iff_suffix]

theorem isPresentation_iff : t.isPresentation = true ↔ t.InPresentation := by
  rw [isPresentation, Bool.or_eq_true_iff, isIn_iff, Option.any_eq_true]
  simp only [Bool.or_eq_true_iff, isInViewDirectory_iff, isCodeBehind_iff, and_or_left, exists_or]
  exact Iff.rfl

instance {indicators : List String} : Decidable (t.BeginsSegment indicators) :=
  decidable_of_iff _ isIn_iff

instance : Decidable t.InPresentation := decidable_of_iff _ isPresentation_iff

instance : Decidable t.InBusiness := decidable_of_iff _ isIn_iff

instance : Decidable t.InData := decidable_of_iff _ isIn_iff

/-! ## What the rules of one layer give -/

/-- The rules on views, and the files behind them. -/
theorem family_presentationRole? (h : t.presentationRole? = some r) : r.family = .presentation := by
  rw [presentationRole?, Option.or_eq_some_iff] at h
  rcases h with hname | ⟨-, hfile⟩
  · exact family_of_firstRole? hname (by simp [Role.family])
  · rw [Option.ite_none_right_eq_some] at hfile
    cases hfile.2
    rfl

/-- The rules on services and on the objects of a domain. -/
theorem family_businessRole? (h : t.businessRole? = some r) : r.family = .business := by
  rw [businessRole?, Option.or_eq_some_iff] at h
  rcases h with hname | ⟨-, hnamespace⟩
  · exact family_of_firstRole? hname (by simp [Role.family])
  · rw [Option.ite_none_right_eq_some] at hnamespace
    cases hnamespace.2
    rfl

theorem family_dataRole? (h : t.dataRole? = some r) : r.family = .data :=
  family_of_firstRole? h (by simp [Role.family])

/-- The rules on controllers and on what stands around them. -/
theorem family_infrastructureRole? (h : t.infrastructureRole? = some r) :
    r.family = .infrastructure := by
  refine family_of_firstRole? h ?_
  -- a controller is one of programming interfaces or not
  cases t.isIn ["api"] <;> simp [Role.family]

theorem family_commonRole? (h : t.commonRole? = some r) : r.family = .common :=
  family_of_firstRole? h (by simp [Role.family])

/-- Structure shows an interface first, then an abstract class, then what the name says. -/
theorem shows_structuralRole? (houtside : t.IsOutside) (h : t.structuralRole? = some r) :
    t.Shows r.family := by
  unfold structuralRole? at h
  split at h
  · rename_i hinterface
    cases h
    exact .interface hinterface
  · rename_i hinterface
    split at h
    · rename_i habstract
      cases h
      exact .abstractClass houtside habstract (Bool.eq_false_iff.mpr hinterface)
    · have hfamily : r.family = .construction := family_of_firstRole? h (by simp [Role.family])
      rw [hfamily]
      exact .construction houtside

/-! ## The family of the role -/

/-- Of two rules the first one that gives a role decides. -/
theorem shows_or {first second : Option Role} {rest : Role}
    (hfirst : ∀ {r}, first = some r → t.Shows r.family)
    (hsecond : t.Shows (second.getD rest).family) :
    t.Shows ((first.or second).getD rest).family := by
  cases hrole : first with
  | some r => exact hfirst hrole
  | none => rwa [Option.none_or]

/-- In a layer there are the roles of its rules, the role of interfaces and the one that is left
over. -/
theorem shows_layered {own : Option Role} {family : RoleFamily} {rest : Role}
    (hown : ∀ {r}, own = some r → r.family = family) (hrest : rest.family = family)
    (hlayer : t.Shows family) : t.Shows ((own.or t.interfaceRole?).getD rest).family := by
  refine shows_or (fun h => by rwa [hown h]) ?_
  unfold interfaceRole?
  split
  · rename_i hinterface
    exact .interface hinterface
  · rwa [Option.getD_none, hrest]

/-- Outside the layers the rules on infrastructure, structure and common code are tried in this
order, and each may leave the role open. -/
theorem shows_openRole (houtside : t.IsOutside) : t.Shows t.openRole.family := by
  refine shows_or (fun h => ?_) (shows_or (shows_structuralRole? houtside) ?_)
  · rw [Option.ite_none_right_eq_some] at h
    rw [family_infrastructureRole? h.2]
    exact .infrastructure houtside (isIn_iff.mp h.1)
  · cases hcommon : if t.isIn Layer.common then t.commonRole? else none with
    | some r =>
      rw [Option.ite_none_right_eq_some] at hcommon
      rw [Option.getD_some, family_commonRole? hcommon.2]
      exact .common houtside (isIn_iff.mp hcommon.1)
    | none => exact .unknown houtside

/-- The role of a node is of a family that the node shows. -/
theorem shows_family_role (t : RoleTraits) : t.Shows t.role.family := by
  unfold role
  split
  · rename_i hlayer
    exact shows_layered family_presentationRole? rfl (.presentation (isPresentation_iff.mp hlayer))
  · rename_i hpresentation
    replace hpresentation := mt isPresentation_iff.mpr hpresentation
    split
    · rename_i hlayer
      exact shows_layered family_businessRole? rfl (.business hpresentation (isIn_iff.mp hlayer))
    · rename_i hbusiness
      replace hbusiness := mt isIn_iff.mpr hbusiness
      split
      · rename_i hlayer
        exact shows_layered family_dataRole? rfl
          (.data hpresentation hbusiness (isIn_iff.mp hlayer))
      · rename_i hdata
        exact shows_openRole ⟨hpresentation, hbusiness, mt isIn_iff.mpr hdata⟩

/-! ## Layer and family -/

namespace Shows

variable {family : RoleFamily} (h : t.Shows family)

include h

/-- A node of the presentation layer shows no other families than this layer and interfaces. -/
theorem of_presentation (hlayer : t.InPresentation) :
    family = .presentation ∨ family = .interface := by
  cases h with
  | presentation => exact .inl rfl
  | interface => exact .inr rfl
  | business hno | data hno => exact absurd hlayer hno
  | infrastructure houtside | abstractClass houtside | construction houtside | common houtside
  | unknown houtside => exact absurd hlayer houtside.not_presentation

/-- A node of the business layer shows no other families than this layer and interfaces. -/
theorem of_business (hpresentation : ¬ t.InPresentation) (hlayer : t.InBusiness) :
    family = .business ∨ family = .interface := by
  cases h with
  | business => exact .inl rfl
  | interface => exact .inr rfl
  | presentation hyes => exact absurd hyes hpresentation
  | data _ hno => exact absurd hlayer hno
  | infrastructure houtside | abstractClass houtside | construction houtside | common houtside
  | unknown houtside => exact absurd hlayer houtside.not_business

/-- A node of the data layer shows no other families than this layer and interfaces. -/
theorem of_data (hpresentation : ¬ t.InPresentation) (hbusiness : ¬ t.InBusiness)
    (hlayer : t.InData) : family = .data ∨ family = .interface := by
  cases h with
  | data => exact .inl rfl
  | interface => exact .inr rfl
  | presentation hyes => exact absurd hyes hpresentation
  | business _ hyes => exact absurd hyes hbusiness
  | infrastructure houtside | abstractClass houtside | construction houtside | common houtside
  | unknown houtside => exact absurd hlayer houtside.not_data

/-- A node outside the layers shows none of their families. -/
theorem of_isOutside (houtside : t.IsOutside) :
    (family = .infrastructure ∧ t.InInfrastructure) ∨
      (family = .interface ∨ family = .abstractClass ∨ family = .construction) ∨
      (family = .common ∧ t.InCommon) ∨ family = .unknown := by
  cases h with
  | infrastructure _ hlayer => exact .inl ⟨rfl, hlayer⟩
  | interface => exact .inr (.inl (.inl rfl))
  | abstractClass => exact .inr (.inl (.inr (.inl rfl)))
  | construction => exact .inr (.inl (.inr (.inr rfl)))
  | common _ hlayer => exact .inr (.inr (.inl ⟨rfl, hlayer⟩))
  | unknown => exact .inr (.inr (.inr rfl))
  | presentation hyes => exact absurd hyes houtside.not_presentation
  | business _ hyes => exact absurd hyes houtside.not_business
  | data _ _ hyes => exact absurd hyes houtside.not_data

/-- Only interfaces show the family of interfaces. -/
theorem interface_inv (hfamily : family = .interface) : t.isInterface = true := by
  cases h with
  | interface hinterface => exact hinterface
  | _ => cases hfamily

end Shows

/-- The layer of a node tells the family of its role, with interfaces as the only exception, and the
family of the role tells the layer. -/
theorem family_role (t : RoleTraits) :
    (t.InPresentation → t.role.family = .presentation ∨ t.role.family = .interface) ∧
    (¬ t.InPresentation → t.InBusiness →
      t.role.family = .business ∨ t.role.family = .interface) ∧
    (¬ t.InPresentation → ¬ t.InBusiness → t.InData →
      t.role.family = .data ∨ t.role.family = .interface) ∧
    (t.IsOutside →
      (t.role.family = .infrastructure ∧ t.InInfrastructure) ∨
      (t.role.family = .interface ∨ t.role.family = .abstractClass ∨
        t.role.family = .construction) ∨
      (t.role.family = .common ∧ t.InCommon) ∨ t.role.family = .unknown) ∧
    t.Shows t.role.family :=
  have hshows := t.shows_family_role
  ⟨hshows.of_presentation, hshows.of_business, hshows.of_data, hshows.of_isOutside, hshows⟩

/-- A class with the name of a view in a namespace of the business and of the data layer has a role
of the business layer, unless its file lies in a directory of views. -/
theorem family_role_service :
    let t : RoleTraits :=
      { name := "OrderView", containingNamespace := some "Shop.Services.Data",
        filePath := some "src/Services/OrderView.cs" }
    let t' := { t with filePath := some "src\\Views\\OrderView.cs" }
    (¬ t.InPresentation ∧ t.InBusiness ∧ t.InData ∧ t.role.family = .business) ∧
      t'.InPresentation ∧ t'.InBusiness ∧ t'.role.family = .presentation := by
  intro t t'
  have hpresentation : ¬ t.InPresentation := by decide
  have hbusiness : t.InBusiness := by decide
  have hpresentation' : t'.InPresentation := by decide
  refine ⟨⟨hpresentation, hbusiness, by decide, ?_⟩, hpresentation', hbusiness, ?_⟩
  · rcases t.family_role.2.1 hpresentation hbusiness with hfamily | hfamily
    · exact hfamily
    · cases t.family_role.2.2.2.2.interface_inv hfamily
  · rcases t'.family_role.1 hpresentation' with hfamily | hfamily
    · exact hfamily
    · cases t'.family_role.2.2.2.2.interface_inv hfamily

end RoleTraits

end CodeAtlas
