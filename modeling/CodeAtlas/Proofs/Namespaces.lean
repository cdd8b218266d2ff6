import CodeAtlas.Analysis.Classification
import CodeAtlas.Proofs.Segments
import Mathlib

/-!
# Roles and the segments of namespaces

A namespace counts for the role of a node only by the set of its segments, empty ones and the case
of letters left aside (`SameSegments`). So segments may be exchanged and repeated, letters changed
to the other case, and points added where they make an empty segment (`NamespaceEdit`), and no role
changes (`RoleTraits.role_of_sameSegments`). This is said of namespaces with ASCII characters only:
lower case is taken of the whole namespace, and in general that of a letter depends on the letters
around it.
-/

namespace CodeAtlas

open Text

/-! ## ASCII texts in lower case -/

/-- The text has no other characters than those below 128. -/
def IsAscii (s : String) : Prop := ∀ c ∈ s.toList, c.toNat < 0x80

instance {s : String} : Decidable (IsAscii s) :=
  decidable_of_iff (s.toList.all (·.toNat < 0x80)) (by simp [IsAscii])

/-- The lower case of ASCII characters is taken one by one. -/
theorem lowerList_of_ascii {before cs : List Char} (h : ∀ c ∈ cs, c.toNat < 0x80) :
    lowerList before cs = cs.map Char.toLower := by
  induction cs generalizing before with
  | nil => rfl
  | cons c rest ih =>
    have hc := h c List.mem_cons_self
    have hsigma : (c == 'Σ') = false := beq_false_of_ne fun heq => absurd (heq ▸ hc) (by decide)
    have hdotted : (c == 'İ') = false := beq_false_of_ne fun heq => absurd (heq ▸ hc) (by decide)
    rw [lowerList, hsigma, hdotted, ih fun d hd => h d (List.mem_cons_of_mem c hd)]
    simp only [lowerChar, if_pos hc, Bool.false_eq_true, if_false, List.singleton_append,
      List.map_cons]

theorem lowercase_of_isAscii {s : String} (h : IsAscii s) : lowercase s = lowercaseAscii s :=
  congrArg String.ofList (lowerList_of_ascii h)

/-- No letter becomes a point in lower case. -/
theorem toLower_beq_point (c : Char) : (c.toLower == '.') = (c == '.') := by
  by_cases hupper : c.isUpper = true
  · have hletter : c.isAlpha = true := Bool.or_eq_true_iff.mpr (.inl hupper)
    have hlower : c.toLower.isAlpha = true := (Char.isAlpha_toLower_eq_isAlpha c).trans hletter
    have hpoint : ∀ {d : Char}, d.isAlpha = true → d ≠ '.' := fun hd h => by
      rw [h] at hd
      cases hd
    rw [beq_false_of_ne (hpoint hlower), beq_false_of_ne (hpoint hletter)]
  · rw [Char.toLower_eq_of_not_isUpper hupper]

/-- So the segments in lower case are those of the text in lower case. -/
theorem split_lowercaseAscii (s : String) :
    split (· == '.') (lowercaseAscii s) = (split (· == '.') s).map lowercaseAscii := by
  rw [split, split, lowercaseAscii, String.toList_ofList, splitList_map toLower_beq_point,
    List.map_map, List.map_map]
  refine List.map_congr_left fun segment _ => ?_
  rw [Function.comp_apply, Function.comp_apply, lowercaseAscii, String.toList_ofList]

theorem isEmpty_lowercaseAscii (s : String) : (lowercaseAscii s).isEmpty = s.isEmpty := by
  rw [Bool.eq_iff_iff, String.isEmpty_iff, String.isEmpty_iff, lowercaseAscii,
    String.ofList_eq_empty_iff, List.map_eq_nil_iff, String.toList_eq_nil_iff]

/-! ## Segments of namespaces -/

/-- The segments of a namespace between points, without the empty ones. -/
def namespaceSegments (ns : String) : List String := (split (· == '.') ns).filter (!·.isEmpty)

/-- Up to the case of letters the namespaces have the same set of segments. -/
def SameSegments (ns ns' : String) : Prop :=
  ∀ name, name ∈ (namespaceSegments ns).map lowercaseAscii ↔
    name ∈ (namespaceSegments ns').map lowercaseAscii

/-- The namespace with the given segments. -/
def dotted (segments : List String) : String := ".".intercalate segments

/-- A change of a namespace that keeps its set of segments. -/
inductive NamespaceEdit : String → String → Prop
  | permute {segments segments' : List String} (h : segments.Perm segments') :
    NamespaceEdit (dotted segments) (dotted segments')
  | repeated {segment : String} {segments : List String} (h : segment ∈ segments) :
    NamespaceEdit (dotted segments) (dotted (segment :: segments))
  | recase {ns ns' : String} (h : lowercaseAscii ns = lowercaseAscii ns') : NamespaceEdit ns ns'
  /-- The point stands at the beginning, at the end or next to another one. -/
  | point {before after : String} (h : (∀ c, before.toList.getLast? = some c → c = '.') ∨
      ∀ c, after.toList.head? = some c → c = '.') :
    NamespaceEdit (before ++ after) (before ++ ("." ++ after))

/-- Namespaces with the same segments that are not empty. -/
theorem sameSegments_of_mem_iff {ns ns' : String} (h : ∀ segment, segment ≠ [] →
    (segment ∈ splitList (· == '.') ns.toList ↔ segment ∈ splitList (· == '.') ns'.toList)) :
    SameSegments ns ns' := by
  have hmem : ∀ s, s ∈ namespaceSegments ns ↔ s ∈ namespaceSegments ns' := by
    intro s
    simp only [namespaceSegments, split, List.mem_filter, List.mem_map, and_congr_left_iff,
      Bool.not_eq_true', String.isEmpty_eq_false_iff]
    intro hs
    constructor
    · rintro ⟨segment, hsegment, rfl⟩
      exact ⟨segment, (h segment fun hnil => hs (hnil ▸ rfl)).mp hsegment, rfl⟩
    · rintro ⟨segment, hsegment, rfl⟩
      exact ⟨segment, (h segment fun hnil => hs (hnil ▸ rfl)).mpr hsegment, rfl⟩
  intro name
  simp only [List.mem_map, hmem]

/-- The segments of texts with points between them are those of the texts. -/
theorem mem_splitList_intercalate {texts : List (List Char)} {segment : List Char}
    (h : segment ≠ []) : segment ∈ splitList (· == '.') (['.'].intercalate texts) ↔
      ∃ cs ∈ texts, segment ∈ splitList (· == '.') cs := by
  induction texts with
  | nil => simpa [splitList] using h
  | cons cs rest ih =>
    cases rest with
    | nil => simp
    | cons ds rest =>
      rw [List.intercalate_cons_cons, List.append_assoc, List.singleton_append,
        splitList_append_cons _ _ rfl, List.mem_append, ih]
      simp only [List.mem_cons, exists_eq_or_imp]

/-- The order of segments does not count, nor how often they occur. -/
theorem sameSegments_dotted {segments segments' : List String}
    (h : ∀ s, s ∈ segments ↔ s ∈ segments') :
    SameSegments (dotted segments) (dotted segments') := by
  refine sameSegments_of_mem_iff fun segment hsegment => ?_
  have hpoint : ".".toList = ['.'] := rfl
  rw [dotted, dotted, String.toList_intercalate, String.toList_intercalate, hpoint,
    mem_splitList_intercalate hsegment, mem_splitList_intercalate hsegment]
  simp only [List.mem_map, h]

/-- A point that makes an empty segment does not count. -/
theorem sameSegments_point {before after : String}
    (h : (∀ c, before.toList.getLast? = some c → c = '.') ∨
      ∀ c, after.toList.head? = some c → c = '.') :
    SameSegments (before ++ after) (before ++ ("." ++ after)) := by
  refine sameSegments_of_mem_iff fun segment hsegment => ?_
  have hpoint : ".".toList = ['.'] := rfl
  rw [String.toList_append, String.toList_append, String.toList_append, hpoint,
    List.singleton_append, splitList_append_cons _ _ rfl]
  rcases h with hbefore | hafter
  · have hends : ∀ c, before.toList.getLast? = some c → (c == '.') = true := fun c hc =>
      beq_iff_eq.mpr (hbefore c hc)
    have hlast := splitList_append_of_ends [] hends
    rw [List.append_nil] at hlast
    rw [splitList_append_of_ends after.toList hends, hlast]
    simp [splitList, hsegment]
  · cases hchars : after.toList with
    | nil => simp [splitList, hsegment]
    | cons c rest =>
      obtain rfl : c = '.' := hafter c (by rw [hchars, List.head?_cons])
      have hempty : splitList (· == '.') ('.' :: rest) = [] :: splitList (· == '.') rest :=
        splitList_append_cons [] rest rfl
      rw [splitList_append_cons before.toList rest rfl, hempty]
      simp [hsegment]

/-- The segments in lower case are those of the namespace in lower case. -/
theorem map_namespaceSegments (ns : String) : (namespaceSegments ns).map lowercaseAscii =
    (split (· == '.') (lowercaseAscii ns)).filter (!·.isEmpty) := by
  rw [split_lowercaseAscii, List.filter_map, namespaceSegments]
  refine congrArg _ (List.filter_congr fun segment _ => ?_)
  rw [Function.comp_apply, isEmpty_lowercaseAscii]

/-- Every change keeps the segments. -/
theorem NamespaceEdit.sameSegments {ns ns' : String} (h : NamespaceEdit ns ns') :
    SameSegments ns ns' := by
  cases h with
  | permute h => exact sameSegments_dotted fun _ => h.mem_iff
  | repeated h =>
    refine sameSegments_dotted fun s => ⟨List.mem_cons_of_mem _, fun hs => ?_⟩
    rcases List.mem_cons.mp hs with rfl | hs
    · exact h
    · exact hs
  | recase h =>
    intro name
    rw [map_namespaceSegments, map_namespaceSegments, h]
  | point h => exact sameSegments_point h

/-- And so do several of them, there and back. -/
theorem sameSegments_of_eqvGen {ns ns' : String} (h : Relation.EqvGen NamespaceEdit ns ns') :
    SameSegments ns ns' := by
  induction h with
  | rel ns ns' hedit => exact hedit.sameSegments
  | refl ns => exact fun _ => Iff.rfl
  | symm ns ns' _ ih => exact fun name => (ih name).symm
  | trans ns ns' ns'' _ _ ih ih' => exact fun name => (ih name).trans (ih' name)

/-! ## Roles -/

/-- The indicators are looked for in the set of segments. -/
theorem anyIndicated_congr {indicators segments segments' : List String}
    (h : ∀ s, s ∈ segments ↔ s ∈ segments') :
    anyIndicated indicators segments = anyIndicated indicators segments' := by
  rw [anyIndicated, anyIndicated, Bool.eq_iff_iff, List.any_eq_true, List.any_eq_true]
  simp only [h]

namespace RoleTraits

/-- The traits in another namespace. -/
def inNamespace (t : RoleTraits) (ns : Option String) : RoleTraits :=
  { t with containingNamespace := ns }

variable {t t' : RoleTraits}

/-- Of the namespace the role depends on nothing but the indicators that are found in it. -/
theorem role_congr (hname : t.name = t'.name) (hpath : t.filePath = t'.filePath)
    (hinterface : t.isInterface = t'.isInterface) (habstract : t.isAbstract = t'.isAbstract)
    (hin : ∀ indicators, t.isIn indicators = t'.isIn indicators) : t.role = t'.role := by
  have hlayer : t.isPresentation = t'.isPresentation := by
    rw [isPresentation, isPresentation, hin, hpath]
  have hpresentation : t.presentationRole? = t'.presentationRole? := by
    rw [presentationRole?, presentationRole?, hname, hpath]
  have hbusiness : t.businessRole? = t'.businessRole? := by
    rw [businessRole?, businessRole?, hname, hin]
  have hdata : t.dataRole? = t'.dataRole? := by rw [dataRole?, dataRole?, hname]
  have hopen : t.openRole = t'.openRole := by
    rw [openRole, openRole, hin, hin, infrastructureRole?, infrastructureRole?, structuralRole?,
      structuralRole?, commonRole?, commonRole?, hname, hinterface, habstract, hin]
  rw [role, role, hlayer, hpresentation, hbusiness, hdata, hopen, interfaceRole?, interfaceRole?,
    hinterface, hin, hin]

/-- Nodes that differ in nothing but their namespaces have one role if the namespaces have the same
segments up to the case of letters: for instance after any changes that exchange or repeat segments,
change the case of letters or add and leave out points next to others. -/
theorem role_of_sameSegments (t : RoleTraits) (ns ns' : Option String)
    (hascii : IsAscii (ns.getD "")) (hascii' : IsAscii (ns'.getD "")) :
    (SameSegments (ns.getD "") (ns'.getD "") →
      (t.inNamespace ns).role = (t.inNamespace ns').role) ∧
    (Relation.EqvGen NamespaceEdit (ns.getD "") (ns'.getD "") →
      (t.inNamespace ns).role = (t.inNamespace ns').role) := by
  have hrole : SameSegments (ns.getD "") (ns'.getD "") →
      (t.inNamespace ns).role = (t.inNamespace ns').role := by
    intro h
    refine role_congr rfl rfl rfl rfl fun indicators => anyIndicated_congr fun s => ?_
    rw [segments, segments, inNamespace, inNamespace, lowercase_of_isAscii hascii,
      lowercase_of_isAscii hascii', ← map_namespaceSegments, ← map_namespaceSegments]
    exact h s
  exact ⟨hrole, fun h => hrole (sameSegments_of_eqvGen h)⟩

/-- A controller in two namespaces with the same segments, and in one that another case and another
order of the segments turn into the first one. -/
theorem role_of_sameSegments_controller :
    let t : RoleTraits := { name := "OrderController" }
    (t.inNamespace (some ".api..SHOP.Api")).role = (t.inNamespace (some "Shop.Api")).role ∧
      (t.inNamespace (some "API.Shop")).role = (t.inNamespace (some "Shop.Api")).role ∧
      (t.inNamespace (some "Shop.Api")).role = .apiController := by
  intro t
  have hascii : IsAscii "Shop.Api" := by decide
  refine ⟨?_, ?_, by decide⟩
  · have hascii' : IsAscii ".api..SHOP.Api" := by decide
    refine (role_of_sameSegments t (some ".api..SHOP.Api") (some "Shop.Api") hascii' hascii).1
      fun name => ?_
    have hnames : (namespaceSegments ".api..SHOP.Api").map lowercaseAscii =
        ["api", "shop", "api"] := by decide
    have hnames' : (namespaceSegments "Shop.Api").map lowercaseAscii = ["shop", "api"] := by decide
    rw [Option.getD_some, Option.getD_some, hnames, hnames']
    simp only [List.mem_cons, List.not_mem_nil]
    tauto
  · have hascii' : IsAscii "API.Shop" := by decide
    refine (role_of_sameSegments t (some "API.Shop") (some "Shop.Api") hascii' hascii).2 ?_
    have hcase : NamespaceEdit "API.Shop" (dotted ["Api", "Shop"]) := .recase (by decide)
    have horder : NamespaceEdit (dotted ["Api", "Shop"]) (dotted ["Shop", "Api"]) :=
      .permute (.swap _ _ _)
    exact .trans _ _ _ (.rel _ _ hcase) (.rel _ _ horder)

end RoleTraits

end CodeAtlas
