import CodeAtlas.Analysis.Statistics
import Mathlib

/-!
# Counting step by step

The counts over an analysis grow by one node, relationship or error at a time (`CountStep`), in any
order. After any steps they are what the list of steps says (`GraphMetadata.Tallies`): the numbers
of nodes and relationships, and histograms of the kinds and roles among them, which have an entry
for every name that occurs and no others (`Histogram.CountsBy`). The order of the steps shows in the
list of errors only (`GraphMetadata.tallies_after`).

Steps of different sorts change different counts. So the nodes may be counted first, then the
relationships, then the errors (`GraphMetadata.foldl_apply`), and each sort is counted by itself.
-/

namespace CodeAtlas

/-! ## Names -/

theorem SymbolKind.name_injective : Function.Injective name := fun a b h =>
  List.inj_on_of_nodup_map (f := name) (l := all) (by decide) (mem_all a) (mem_all b) h

theorem RelationKind.name_injective : Function.Injective name := fun a b h =>
  List.inj_on_of_nodup_map (f := name) (l := all) (by decide) (mem_all a) (mem_all b) h

theorem Role.name_injective : Function.Injective name := fun a b h =>
  List.inj_on_of_nodup_map (f := name) (l := all) (by decide +kernel) (mem_all a) (mem_all b) h

/-! ## Histograms -/

/-- When one value of a map grows by one, so does the sum. -/
theorem SortedMap.sum_values_upsert {κ α : Type} [Ord κ] [Std.TransOrd κ] [Std.LawfulEqOrd κ]
    {f : Option α → α} {g : α → Nat} (h : ∀ o, g (f o) = o.elim 0 g + 1)
    {m : SortedMap κ α} {k : κ} :
    ((m.upsert k f).values.map g).sum = (m.values.map g).sum + 1 := by
  have hlist : ∀ l : List (κ × α), ((upsertList k f l).map fun e => g e.2).sum =
      (l.map fun e => g e.2).sum + 1 := by
    intro l
    induction l with
    | nil => exact (Nat.add_zero _).trans (h none)
    | cons e rest ih =>
      simp only [upsertList]
      split
      · simp only [List.map_cons, List.sum_cons, h, Option.elim_none]
        omega
      · simp only [List.map_cons, List.sum_cons, h, Option.elim_some]
        omega
      · simp only [List.map_cons, List.sum_cons, ih]
        omega
  rw [values, values, List.map_map, List.map_map]
  exact hlist m.entries

namespace Histogram

variable {names names' : List String} {name : String}

/-- A count from nothing is the number of occurrences. -/
theorem getD_foldl_count_empty :
    ((names.foldl count .empty).get? name).getD 0 = names.count name :=
  SortedMap.getD_foldl_tally.trans (Nat.zero_add _)

/-- The names that occur are counted. -/
theorem contains_foldl_count_empty :
    (names.foldl count .empty).contains name = true ↔ name ∈ names := by
  have h := SortedMap.contains_foldl_upsert_empty (fun name : String => name)
    (fun _ (n : Option Nat) => n.getD 0 + 1) (l := names) (k := name)
  rwa [exists_eq_right] at h

/-- There are entries for the names that occur, and their numbers are in them. -/
theorem get?_foldl_count_empty {n : Nat} :
    (names.foldl count .empty).get? name = some n ↔ 0 < n ∧ names.count name = n := by
  have hcount : ((names.foldl count .empty).get? name).getD 0 = names.count name :=
    getD_foldl_count_empty
  have hcontains : ((names.foldl count .empty).get? name).isSome = true ↔ 0 < names.count name :=
    contains_foldl_count_empty.trans List.count_pos_iff.symm
  rw [← hcount] at hcontains ⊢
  cases hget : (names.foldl count .empty).get? name with
  | none => simp; omega
  | some k =>
    rw [hget] at hcontains
    have hpos : 0 < k := hcontains.mp rfl
    rw [Option.getD_some, Option.some_inj]
    constructor
    · rintro rfl
      exact ⟨hpos, rfl⟩
    · exact And.right

/-- The order of the names does not show. -/
theorem foldl_count_of_perm (h : names.Perm names') :
    names.foldl count .empty = names'.foldl count .empty :=
  SortedMap.ext_get? fun name => Option.ext fun n => by
    rw [get?_foldl_count_empty, get?_foldl_count_empty, h.count_eq]

/-- All names are counted. -/
theorem sum_values_foldl_count {h : Histogram} :
    (names.foldl count h).values.sum = h.values.sum + names.length := by
  induction names generalizing h with
  | nil => rfl
  | cons name rest ih =>
    have hstep : (h.count name).values.sum = h.values.sum + 1 := by
      have hgrows : ∀ o : Option Nat, id (o.getD 0 + 1) = o.elim 0 id + 1 := fun o => by
        cases o <;> rfl
      have hsum := SortedMap.sum_values_upsert (m := h) (k := name) hgrows
      rwa [List.map_id, List.map_id] at hsum
    rw [List.foldl_cons, ih, hstep, List.length_cons]
    omega

/-- The histogram counts the elements of a list by their classes, under the names of these. -/
structure CountsBy {α κ : Type} [DecidableEq κ] (h : Histogram) (nameOf : κ → String)
    (classOf : α → κ) (elements : List α) : Prop where
  sum : h.values.sum = elements.length
  /-- There are entries for the classes that occur, and no others. -/
  get?_iff : ∀ name n, h.get? name = some n ↔
    0 < n ∧ ∃ k, nameOf k = name ∧ elements.countP (classOf · = k) = n

/-- Counting names counts by classes if the names of classes are different. -/
theorem countsBy {α κ : Type} [DecidableEq κ] {nameOf : κ → String}
    (hinj : Function.Injective nameOf) (classOf : α → κ) (elements : List α) :
    CountsBy ((elements.map fun x => nameOf (classOf x)).foldl count .empty) nameOf classOf
      elements where
  sum := by
    rw [sum_values_foldl_count, List.length_map]
    exact Nat.zero_add _
  get?_iff name n := by
    have hclass : ∀ k, (elements.map fun x => nameOf (classOf x)).count (nameOf k) =
        elements.countP (classOf · = k) := fun k => by
      rw [List.count_eq_countP, List.countP_map]
      refine List.countP_congr fun x _ => ?_
      rw [Function.comp_apply, beq_iff_eq, decide_eq_true_eq, hinj.eq_iff]
    rw [get?_foldl_count_empty]
    refine and_congr_right fun hn => ⟨fun hcount => ?_, ?_⟩
    · obtain ⟨x, -, rfl⟩ := List.mem_map.mp (List.count_pos_iff.mp (hcount ▸ hn))
      exact ⟨classOf x, rfl, (hclass _).symm.trans hcount⟩
    · rintro ⟨k, rfl, hk⟩
      exact (hclass k).trans hk

end Histogram

/-! ## Steps -/

/-- What is counted in one step. -/
inductive CountStep where
  | node (n : Node)
  | relationship (r : Relationship)
  | error (text : String)

namespace CountStep

def node? : CountStep → Option Node
  | node n => some n
  | _ => none

def relationship? : CountStep → Option Relationship
  | relationship r => some r
  | _ => none

def error? : CountStep → Option String
  | error text => some text
  | _ => none

/-- The nodes that are counted, in the order of their steps. -/
def nodes (steps : List CountStep) : List Node := steps.filterMap node?

/-- The relationships that are counted. -/
def relationships (steps : List CountStep) : List Relationship := steps.filterMap relationship?

/-- The errors that are listed. -/
def errors (steps : List CountStep) : List String := steps.filterMap error?

end CountStep

namespace GraphMetadata

variable {m : GraphMetadata}

/-- The counts after one more step. -/
def apply (m : GraphMetadata) : CountStep → GraphMetadata
  | .node n => m.withNode n
  | .relationship r => m.withRelationship r
  | .error text => m.withError text

/-- The counts after some steps, from nothing. -/
def after (steps : List CountStep) : GraphMetadata := steps.foldl apply {}

/-! ## Steps of one sort -/

/-- Nodes are counted one by one. -/
theorem foldl_withNode {nodes : List Node} : nodes.foldl withNode m =
    { m with
      nodeCount := m.nodeCount + nodes.length
      nodesByKind := (nodes.map (·.kind.name)).foldl Histogram.count m.nodesByKind
      nodesByRole := (nodes.map (·.role.name)).foldl Histogram.count m.nodesByRole } := by
  induction nodes generalizing m with
  | nil => rfl
  | cons n rest ih =>
    rw [List.foldl_cons, ih, withNode, List.length_cons]
    simp only [List.map_cons, List.foldl_cons, Nat.add_assoc, Nat.add_comm 1]

/-- Relationships are counted one by one. -/
theorem foldl_withRelationship {relationships : List Relationship} :
    relationships.foldl withRelationship m =
      { m with
        relationshipCount := m.relationshipCount + relationships.length
        relationshipsByKind :=
          (relationships.map (·.kind.name)).foldl Histogram.count m.relationshipsByKind
        crossProjectRelationshipCount :=
          m.crossProjectRelationshipCount + relationships.countP (·.isCrossProject)
        crossLanguageRelationshipCount :=
          m.crossLanguageRelationshipCount + relationships.countP (·.isCrossLanguage) } := by
  induction relationships generalizing m with
  | nil => rfl
  | cons r rest ih =>
    rw [List.foldl_cons, ih, withRelationship, List.length_cons, List.countP_cons, List.countP_cons]
    cases r.isCrossProject <;> cases r.isCrossLanguage <;>
      simp [Nat.add_assoc, Nat.add_comm 1]

/-- Errors are only listed. -/
theorem foldl_withError {errors : List String} :
    errors.foldl withError m = { m with errors := m.errors ++ errors } := by
  induction errors generalizing m with
  | nil => rw [List.append_nil]; rfl
  | cons e rest ih =>
    rw [List.foldl_cons, ih, withError]
    simp only [List.append_assoc, List.cons_append, List.nil_append]

/-! ## All steps -/

/-- Steps of different sorts do not meddle with each other. -/
theorem foldl_apply {steps : List CountStep} : steps.foldl apply m =
    (CountStep.errors steps).foldl withError ((CountStep.relationships steps).foldl withRelationship
      ((CountStep.nodes steps).foldl withNode m)) := by
  induction steps generalizing m with
  | nil => rfl
  | cons step rest ih =>
    rw [List.foldl_cons, ih]
    cases step with
    | node n => rfl
    | relationship r =>
      have hnodes : (CountStep.nodes rest).foldl withNode (m.withRelationship r) =
          ((CountStep.nodes rest).foldl withNode m).withRelationship r :=
        List.foldl_hom (withRelationship · r) fun _ _ => rfl
      rw [apply, hnodes]
      rfl
    | error text =>
      have hnodes : (CountStep.nodes rest).foldl withNode (m.withError text) =
          ((CountStep.nodes rest).foldl withNode m).withError text :=
        List.foldl_hom (withError · text) fun _ _ => rfl
      have hrelationships : ∀ m : GraphMetadata,
          (CountStep.relationships rest).foldl withRelationship (m.withError text) =
            ((CountStep.relationships rest).foldl withRelationship m).withError text := fun _ =>
        List.foldl_hom (withError · text) fun _ _ => rfl
      rw [apply, hnodes, hrelationships]
      rfl

/-- The counts after some steps, told from the lists of what is counted. -/
theorem after_eq (steps : List CountStep) : after steps =
    { nodeCount := (CountStep.nodes steps).length
      relationshipCount := (CountStep.relationships steps).length
      nodesByKind := ((CountStep.nodes steps).map (·.kind.name)).foldl Histogram.count .empty
      relationshipsByKind :=
        ((CountStep.relationships steps).map (·.kind.name)).foldl Histogram.count .empty
      nodesByRole := ((CountStep.nodes steps).map (·.role.name)).foldl Histogram.count .empty
      crossProjectRelationshipCount :=
        (CountStep.relationships steps).countP (·.isCrossProject)
      crossLanguageRelationshipCount :=
        (CountStep.relationships steps).countP (·.isCrossLanguage)
      errors := CountStep.errors steps } := by
  rw [after, foldl_apply, foldl_withError, foldl_withRelationship, foldl_withNode]
  simp only [Nat.zero_add, List.nil_append]

/-- The counts without the list of errors. -/
def withoutErrors (m : GraphMetadata) : GraphMetadata := { m with errors := [] }

/-- The counts are those of the steps. -/
structure Tallies (steps : List CountStep) (m : GraphMetadata) : Prop where
  nodeCount : m.nodeCount = (CountStep.nodes steps).length
  nodesByKind : m.nodesByKind.CountsBy SymbolKind.name Node.kind (CountStep.nodes steps)
  nodesByRole : m.nodesByRole.CountsBy Role.name Node.role (CountStep.nodes steps)
  relationshipCount : m.relationshipCount = (CountStep.relationships steps).length
  relationshipsByKind : m.relationshipsByKind.CountsBy RelationKind.name Relationship.kind
    (CountStep.relationships steps)
  crossProjectRelationshipCount : m.crossProjectRelationshipCount =
    (CountStep.relationships steps).countP (·.isCrossProject)
  crossLanguageRelationshipCount : m.crossLanguageRelationshipCount =
    (CountStep.relationships steps).countP (·.isCrossLanguage)
  errors : m.errors = CountStep.errors steps
  /-- What is not counted in steps stays as it was. -/
  untouched : m.durationMs = 0 ∧ m.projectCount = 0 ∧ m.featureBoundaryCount = 0

/-- After any steps the counts are those of the steps, and the same steps in another order change
nothing but the order of errors. -/
theorem tallies_after (steps : List CountStep) : Tallies steps (after steps) ∧
    ∀ steps' : List CountStep, steps.Perm steps' →
      (after steps').withoutErrors = (after steps).withoutErrors ∧
        (after steps').errors.Perm (after steps).errors := by
  refine ⟨?_, fun steps' h => ?_⟩
  · rw [after_eq]
    exact {
      nodeCount := rfl
      nodesByKind := Histogram.countsBy SymbolKind.name_injective _ _
      nodesByRole := Histogram.countsBy Role.name_injective _ _
      relationshipCount := rfl
      relationshipsByKind := Histogram.countsBy RelationKind.name_injective _ _
      crossProjectRelationshipCount := rfl
      crossLanguageRelationshipCount := rfl
      errors := rfl
      untouched := ⟨rfl, rfl, rfl⟩ }
  · have hnodes : (CountStep.nodes steps').Perm (CountStep.nodes steps) := h.symm.filterMap _
    have hrelationships : (CountStep.relationships steps').Perm (CountStep.relationships steps) :=
      h.symm.filterMap _
    rw [after_eq, after_eq]
    refine ⟨?_, h.symm.filterMap _⟩
    simp only [withoutErrors, hnodes.length_eq, hrelationships.length_eq, hrelationships.countP_eq,
      Histogram.foldl_count_of_perm (hnodes.map _),
      Histogram.foldl_count_of_perm (hrelationships.map _)]

/-- A class, a method that is called and two errors, and the same steps with the errors
exchanged. -/
theorem tallies_after_exchanged :
    let order : Node :=
      { id := "Shop::Order", name := "Order", fullyQualifiedName := "Order", kind := .type
        accessibility := .publicScope, projectId := "shop", assemblyName := "Shop" }
    let submit := { order with id := "Shop::Order.Submit()", kind := .method, role := .service }
    let call : Relationship :=
      { sourceId := submit.id, targetId := order.id, kind := .methodCall, isCrossProject := true }
    let counted : List CountStep := [.node order, .relationship call, .node submit]
    let steps := [CountStep.error "a"] ++ counted ++ [CountStep.error "b"]
    let steps' := [CountStep.error "b"] ++ (counted ++ [CountStep.error "a"])
    steps.Perm steps' ∧ (after steps').nodesByKind.get? "Method" = some 1 ∧
      (after steps').errors = ["b", "a"] ∧
      (after steps').withoutErrors = (after steps).withoutErrors := by
  intro order submit call counted steps steps'
  have hfirst : ([CountStep.error "a"] ++ counted).Perm (counted ++ [CountStep.error "a"]) :=
    List.perm_append_comm
  have hlast : steps.Perm ([CountStep.error "b"] ++ ([CountStep.error "a"] ++ counted)) :=
    List.perm_append_comm
  have hperm : steps.Perm steps' := hlast.trans (hfirst.append_left _)
  obtain ⟨htallies, -⟩ := tallies_after steps'
  obtain ⟨hsame, -⟩ := (tallies_after steps).2 steps' hperm
  have hmethods := (htallies.nodesByKind.get?_iff "Method" 1).mpr
    ⟨Nat.one_pos, .method, rfl, rfl⟩
  exact ⟨hperm, hmethods, htallies.errors, hsame⟩

end GraphMetadata

end CodeAtlas
