import CodeAtlas.Graph.Codec
import CodeAtlas.Proofs.Documents
import CodeAtlas.Proofs.Shortest
import CodeAtlas.Proofs.SymbolCodec

/-!
# Graphs are read as they are written

`Graph.parse?_render`: the text of a graph is read as that graph. A document has numbers of any size
but none that is infinite, while a count is read only below `2 ^ 64`, the range in which an analysis
counts, and a float only if it is finite. `Graph.Writable` says that the counts and floats of a
graph are such numbers; it is composed of a predicate for each type that has some, and nothing else
of a graph is restricted. Whatever is read is writable (`Graph.writable_of_ofJson?`), so a text that
is accepted and the text of its graph have the same graph.
-/

namespace CodeAtlas

namespace Json

variable {α : Type} {name field : String} {encode : α → Json} {decode : Json → Option α}
  {o : Option α}

/-! ## Members that may be left out -/

/-- There is at most the member of the given name. -/
theorem map_fst_present (name : String) (encode : α → Json) (o : Option α) :
    ((present name encode o).map (·.1)).Sublist [name] := by
  cases o with
  | none => exact List.nil_sublist _
  | some a => exact .refl _

/-- The member is found under its name. -/
theorem lookup_present :
    (present name encode o).lookup field = if field = name then o.map encode else none := by
  cases o with
  | none => exact (ite_self none).symm
  | some a => exact Record.lookup_cons

/-- A field that is left out is read as absent. -/
theorem elim_optional? (hnull : decode .null = none) (h : ∀ a ∈ o, decode (encode a) = some a) :
    o.elim (some none) (optional? decode ∘ encode) = some o := by
  cases o with
  | none => rfl
  | some a => exact optional?_ofOption hnull h

/-! ## Numbers -/

/-- No number is written as `null`. -/
@[simp] theorem uint64?_null : uint64? .null = none := rfl

/-- A count of 64 bits is read as it is written. -/
theorem count?_ofNat {n : Nat} (h : n < 2 ^ 64) : count? (ofNat n) = some n := by
  rw [count?, ofNat, uint64?, toNat?_ofNat, Option.bind_some,
    if_pos (show n < UInt64.size from h), Option.map_some,
    UInt64.toNat_ofNat_of_lt' h]

/-- A count that is read has 64 bits. -/
theorem lt_of_count? {j : Json} {n : Nat} (h : count? j = some n) : n < 2 ^ 64 := by
  obtain ⟨n, -, rfl⟩ := Option.map_eq_some_iff.mp h
  exact n.toNat_lt

/-- A float that is read is finite. -/
theorem isFinite_of_float? {j : Json} {x : Float} (h : float? j = some x) : x.isFinite = true := by
  cases j with
  | number n => exact Binary64.isFinite_of_toFloat? h
  | _ => cases h

end Json

open Json (bind_eq_some_iff choice?_ofString count?_ofNat exists_of_list? exists_of_map?
  float?_ofFloat list?_ofList map?_ofMap optional?_ofOption some_bind)
open Json.Record (exists_of_required of?_ofMembers)

/-! ## What can be written -/

/-- Every count of the histogram has 64 bits. -/
def Histogram.Writable (h : Histogram) : Prop := ∀ n ∈ h.values, n < 2 ^ 64

instance (h : Histogram) : Decidable h.Writable :=
  inferInstanceAs (Decidable (∀ n ∈ h.values, n < 2 ^ 64))

/-- The number of references has 64 bits, and the strength is finite. -/
@[mk_iff] structure ProjectDependency.Writable (d : ProjectDependency) : Prop where
  referenceCount : d.referenceCount < 2 ^ 64
  couplingStrength : d.couplingStrength.isFinite = true

instance (d : ProjectDependency) : Decidable d.Writable :=
  decidable_of_iff _ d.writable_iff.symm

/-- All counts have 64 bits, and the mean is finite. -/
@[mk_iff] structure ProjectMetrics.Writable (m : ProjectMetrics) : Prop where
  totalSymbols : m.totalSymbols < 2 ^ 64
  totalRelationships : m.totalRelationships < 2 ^ 64
  crossProjectReferenceCount : m.crossProjectReferenceCount < 2 ^ 64
  averageComplexity : m.averageComplexity.isFinite = true
  languageDistribution : m.languageDistribution.Writable

instance (m : ProjectMetrics) : Decidable m.Writable := decidable_of_iff _ m.writable_iff.symm

/-- The roles are counted in 64 bits, and the sizes can be written. -/
@[mk_iff] structure ProjectInfo.Writable (p : ProjectInfo) : Prop where
  roleDistribution : p.roleDistribution.Writable
  metrics : p.metrics.Writable

instance (p : ProjectInfo) : Decidable p.Writable := decidable_of_iff _ p.writable_iff.symm

/-- All counts have 64 bits. -/
@[mk_iff] structure GraphMetadata.Writable (m : GraphMetadata) : Prop where
  durationMs : m.durationMs < 2 ^ 64
  projectCount : m.projectCount < 2 ^ 64
  nodeCount : m.nodeCount < 2 ^ 64
  relationshipCount : m.relationshipCount < 2 ^ 64
  nodesByKind : m.nodesByKind.Writable
  relationshipsByKind : m.relationshipsByKind.Writable
  nodesByRole : m.nodesByRole.Writable
  featureBoundaryCount : m.featureBoundaryCount < 2 ^ 64
  crossProjectRelationshipCount : m.crossProjectRelationshipCount < 2 ^ 64
  crossLanguageRelationshipCount : m.crossLanguageRelationshipCount < 2 ^ 64

instance (m : GraphMetadata) : Decidable m.Writable := decidable_of_iff _ m.writable_iff.symm

/-- All counts of the graph have 64 bits, and all its floats are finite. -/
@[mk_iff] structure Graph.Writable (g : Graph) : Prop where
  projectInfo : ∀ p ∈ g.projectInfo.values, p.Writable
  crossProjectDependencies : ∀ d ∈ g.crossProjectDependencies, d.Writable
  metadata : g.metadata.Writable

instance (g : Graph) : Decidable g.Writable := decidable_of_iff _ g.writable_iff.symm

/-! ## Names -/

/-- A role is read as it is written. -/
@[simp] theorem Role.ofJson?_toJson (r : Role) : ofJson? r.toJson = some r :=
  choice?_ofString (by decide) r.mem_all

/-- A kind of relationship is read as it is written. -/
@[simp] theorem RelationKind.ofJson?_toJson (k : RelationKind) : ofJson? k.toJson = some k :=
  choice?_ofString (by decide) k.mem_all

/-! ## Nodes and relationships -/

/-- A node's sizes are read as they are written. -/
@[simp] theorem NodeMetrics.ofJson?_toJson (m : NodeMetrics) : ofJson? m.toJson = some m := by
  rw [ofJson?, toJson, of?_ofMembers (by decide) ?keys]
  case keys =>
    simp only [List.map_append]
    exact ((((Json.map_fst_present _ _ _).append (Json.map_fst_present _ _ _)).append
      (Json.map_fst_present _ _ _)).append (Json.map_fst_present _ _ _)).append
      (Json.map_fst_present _ _ _)
  simp -implicitDefEqProofs [-Option.bind_eq_bind, some_bind, List.lookup_append,
    Json.lookup_present, Json.elim_optional?, sizeToJson]

/-- A node is read as it is written. -/
@[simp] theorem Node.ofJson?_toJson (n : Node) : ofJson? n.toJson = some n := by
  rw [ofJson?, toJson, of?_ofMembers (by decide) ?keys]
  case keys =>
    simp only [List.map_append]
    exact ((List.Sublist.refl _).append (Json.map_fst_present _ _ _)).append (.refl _)
  simp -implicitDefEqProofs [-Option.bind_eq_bind, some_bind, List.lookup_append,
    Json.lookup_present, Json.elim_optional?, optional?_ofOption]

/-- A relationship is read as it is written. -/
@[simp] theorem Relationship.ofJson?_toJson (r : Relationship) : ofJson? r.toJson = some r := by
  rw [ofJson?, toJson, of?_ofMembers (by decide) (by exact .refl fields)]
  simp -implicitDefEqProofs [-Option.bind_eq_bind, some_bind, optional?_ofOption]

/-! ## Counts and projects -/

/-- A histogram is read as it is written. -/
theorem Histogram.Writable.ofJson?_toJson {h : Histogram} (hh : h.Writable) :
    Histogram.ofJson? h.toJson = some h :=
  map?_ofMap fun n hn => count?_ofNat (hh n hn)

/-- A dependency is read as it is written. -/
theorem ProjectDependency.Writable.ofJson?_toJson {d : ProjectDependency} (hd : d.Writable) :
    ProjectDependency.ofJson? d.toJson = some d := by
  rw [ofJson?, toJson, of?_ofMembers (by decide) (by exact .refl fields)]
  simp -implicitDefEqProofs [-Option.bind_eq_bind, some_bind, count?_ofNat hd.referenceCount,
    float?_ofFloat hd.couplingStrength]

/-- The sizes of a project are read as they are written. -/
theorem ProjectMetrics.Writable.ofJson?_toJson {m : ProjectMetrics} (hm : m.Writable) :
    ProjectMetrics.ofJson? m.toJson = some m := by
  rw [ofJson?, toJson, of?_ofMembers (by decide) (by exact .refl fields)]
  simp -implicitDefEqProofs [-Option.bind_eq_bind, some_bind, count?_ofNat hm.totalSymbols,
    count?_ofNat hm.totalRelationships, count?_ofNat hm.crossProjectReferenceCount,
    float?_ofFloat hm.averageComplexity, hm.languageDistribution.ofJson?_toJson]

/-- The summary of a project is read as it is written. -/
theorem ProjectInfo.Writable.ofJson?_toJson {p : ProjectInfo} (hp : p.Writable) :
    ProjectInfo.ofJson? p.toJson = some p := by
  rw [ofJson?, toJson, of?_ofMembers (by decide) (by exact .refl fields)]
  simp -implicitDefEqProofs [-Option.bind_eq_bind, some_bind, optional?_ofOption,
    hp.roleDistribution.ofJson?_toJson, hp.metrics.ofJson?_toJson]

/-- The counts over an analysis are read as they are written. -/
theorem GraphMetadata.Writable.ofJson?_toJson {m : GraphMetadata} (hm : m.Writable) :
    GraphMetadata.ofJson? m.toJson = some m := by
  rw [ofJson?, toJson, of?_ofMembers (by decide) (by exact .refl fields)]
  simp -implicitDefEqProofs [-Option.bind_eq_bind, some_bind, count?_ofNat hm.durationMs,
    count?_ofNat hm.projectCount, count?_ofNat hm.nodeCount, count?_ofNat hm.relationshipCount,
    hm.nodesByKind.ofJson?_toJson, hm.relationshipsByKind.ofJson?_toJson,
    hm.nodesByRole.ofJson?_toJson, count?_ofNat hm.featureBoundaryCount,
    count?_ofNat hm.crossProjectRelationshipCount, count?_ofNat hm.crossLanguageRelationshipCount]

/-- A graph is read as it is written. -/
theorem Graph.Writable.ofJson?_toJson {g : Graph} (hg : g.Writable) :
    Graph.ofJson? g.toJson = some g := by
  have hprojects := map?_ofMap fun p hp => (hg.projectInfo p hp).ofJson?_toJson
  have hdependencies := list?_ofList fun d hd => (hg.crossProjectDependencies d hd).ofJson?_toJson
  rw [ofJson?, toJson, of?_ofMembers (by decide) (by exact .refl fields)]
  simp -implicitDefEqProofs [-Option.bind_eq_bind, some_bind, hprojects, hdependencies,
    list?_ofList, map?_ofMap, hg.metadata.ofJson?_toJson]

/-! ## What is read can be written -/

/-- A count under a required field has 64 bits. -/
theorem Json.Record.lt_of_required {r : Record} {field : String} {n : ℕ}
    (h : r.required field count? = some n) : n < 2 ^ 64 := by
  obtain ⟨j, hj⟩ := exists_of_required h
  exact lt_of_count? hj

/-- A float under a required field is finite. -/
theorem Json.Record.isFinite_of_required {r : Record} {field : String} {x : Float}
    (h : r.required field float? = some x) : x.isFinite = true := by
  obtain ⟨j, hj⟩ := exists_of_required h
  exact isFinite_of_float? hj

open Json.Record (isFinite_of_required lt_of_required)

/-- A histogram under a required field has counts of 64 bits. -/
theorem Histogram.writable_of_required {r : Json.Record} {field : String} {h : Histogram}
    (hr : r.required field ofJson? = some h) : h.Writable := by
  obtain ⟨j, hj⟩ := exists_of_required hr
  intro n hn
  obtain ⟨j, hn⟩ := exists_of_map? hj hn
  exact Json.lt_of_count? hn

/-- A dependency that is read can be written. -/
theorem ProjectDependency.writable_of_ofJson? {j : Json} {d : ProjectDependency}
    (h : ofJson? j = some d) : d.Writable := by
  simp only [ofJson?, bind_eq_some_iff, Option.some.injEq] at h
  obtain ⟨r, -, _, -, _, -, _, -, _, -, _, hcount, _, hstrength, rfl⟩ := h
  exact ⟨lt_of_required hcount, isFinite_of_required hstrength⟩

/-- Sizes of a project that are read can be written. -/
theorem ProjectMetrics.writable_of_ofJson? {j : Json} {m : ProjectMetrics}
    (h : ofJson? j = some m) : m.Writable := by
  simp only [ofJson?, bind_eq_some_iff, Option.some.injEq] at h
  obtain ⟨r, -, _, hsymbols, _, hrelationships, _, hcross, _, hmean, _, hlanguages, rfl⟩ := h
  exact ⟨lt_of_required hsymbols, lt_of_required hrelationships, lt_of_required hcross,
    isFinite_of_required hmean, Histogram.writable_of_required hlanguages⟩

/-- A summary of a project that is read can be written. -/
theorem ProjectInfo.writable_of_ofJson? {j : Json} {p : ProjectInfo}
    (h : ofJson? j = some p) : p.Writable := by
  simp only [ofJson?, bind_eq_some_iff, Option.some.injEq] at h
  obtain ⟨r, -, _, -, _, -, _, -, _, -, _, -, _, -, _, hroles, _, -, _, hmetrics, rfl⟩ := h
  obtain ⟨j, hmetrics⟩ := exists_of_required hmetrics
  exact ⟨Histogram.writable_of_required hroles, ProjectMetrics.writable_of_ofJson? hmetrics⟩

/-- Counts over an analysis that are read can be written. -/
theorem GraphMetadata.writable_of_ofJson? {j : Json} {m : GraphMetadata}
    (h : ofJson? j = some m) : m.Writable := by
  simp only [ofJson?, bind_eq_some_iff, Option.some.injEq] at h
  obtain ⟨r, -, _, hduration, _, hprojects, _, hnodes, _, hrelationships, _, hkinds, _, htypes, _,
    hroles, _, hfeatures, _, hcrossProject, _, hcrossLanguage, _, -, rfl⟩ := h
  exact ⟨lt_of_required hduration, lt_of_required hprojects, lt_of_required hnodes,
    lt_of_required hrelationships, Histogram.writable_of_required hkinds,
    Histogram.writable_of_required htypes, Histogram.writable_of_required hroles,
    lt_of_required hfeatures, lt_of_required hcrossProject, lt_of_required hcrossLanguage⟩

/-- A graph that is read can be written. -/
theorem Graph.writable_of_ofJson? {j : Json} {g : Graph} (h : ofJson? j = some g) :
    g.Writable := by
  simp only [ofJson?, bind_eq_some_iff, Option.some.injEq] at h
  obtain ⟨r, -, _, -, _, -, _, hprojects, _, hdependencies, _, hmetadata, rfl⟩ := h
  obtain ⟨_, hprojects⟩ := exists_of_required hprojects
  obtain ⟨_, hdependencies⟩ := exists_of_required hdependencies
  obtain ⟨_, hmetadata⟩ := exists_of_required hmetadata
  refine ⟨fun p hp => ?_, fun d hd => ?_, GraphMetadata.writable_of_ofJson? hmetadata⟩
  · obtain ⟨_, hp⟩ := exists_of_map? hprojects hp
    exact ProjectInfo.writable_of_ofJson? hp
  · obtain ⟨_, hd⟩ := exists_of_list? hdependencies hd
    exact ProjectDependency.writable_of_ofJson? hd

/-! ## Texts -/

namespace Graph

/-- A graph whose counts have 64 bits and whose floats are finite is read as it is written. Any text
that is read has such a graph, so this graph is read from its own text as well. -/
theorem parse?_render (g : Graph) :
    (g.Writable → parse? g.render = some g) ∧
      ∀ text, parse? text = some g → parse? g.render = some g := by
  have hrender (hg : g.Writable) : parse? g.render = some g := by
    rw [parse?, render, Json.parse?_pretty, some_bind, hg.ofJson?_toJson]
  refine ⟨hrender, fun text htext => ?_⟩
  obtain ⟨j, -, hj⟩ := bind_eq_some_iff.mp htext
  exact hrender (writable_of_ofJson? hj)

/-- Two projects of which the first uses the second, with a strength that no binary number is equal
to. -/
theorem parse?_render_two_projects :
    let g : Graph := {
      nodes := NodeStore.ofNodes [
        { id := "P::Order", name := "Order", fullyQualifiedName := "Shop.Order", kind := .type
          declaredTypeCategory := some .classType, location := some (.lines "Shop/Order.cs" 1 9)
          accessibility := .publicScope, modifiers := .ofList [.abstract], projectId := "P"
          assemblyName := "Shop", role := .entity, metrics := { methodCount := some 3 } },
        { id := "Q::Money", name := "Money", fullyQualifiedName := "Base.\"Money\"", kind := .type
          accessibility := .publicScope, projectId := "Q", assemblyName := "Base" }]
      relationships := [
        { sourceId := "P::Order", targetId := "Q::Money", kind := .association
          isCrossProject := true }]
      projectInfo := .ofList [("P",
        { projectId := "P", name := "Shop", path := "Shop.csproj", languages := .ofList ["C#"]
          projectReferences := ["Q"], roleDistribution := .ofList [("Entity", 1)]
          featureBoundaries := .empty, metrics := { totalSymbols := 1, averageComplexity := 3 } })]
      crossProjectDependencies := [⟨"P", "Q", .association, .ofList ["Q::Money"], 1, 0.3⟩]
      metadata := { nodeCount := 2, relationshipCount := 1, nodesByKind := .ofList [("Type", 2)] } }
    g.Writable ∧ parse? g.render = some g :=
  ⟨by decide, (parse?_render _).2 _ ((parse?_render _).1 (by decide))⟩

end Graph

end CodeAtlas
