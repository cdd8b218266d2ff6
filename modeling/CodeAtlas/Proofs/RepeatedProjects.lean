import CodeAtlas.Proofs.Outcomes
import CodeAtlas.Proofs.SnapshotCodec
import Mathlib.Data.List.Destutter

/-!
# Projects that are listed several times

Several entries of a snapshot may have projects of one id. Two readers meet them: the analysis takes
one project of each id, and the resolver looks for the symbols of an id. Both take the first entry,
so a workspace has the same declarations without the later entries, and an analysis finds the same
nodes and projects, and fails at the same places (`Snapshot.run_withoutRepeats`). Relationships may
differ: a location is resolved among the symbols of all entries.

`distinctProjects_eq_destutter` says the same of the projects alone: they may be sorted by their
ids, those of one id in the order in which they are listed, and of neighbours with one id the first
one is kept.
-/

namespace CodeAtlas

/-! ## The first entry of each id -/

namespace ProjectEntry

/-- The entries whose id is neither in `seen` nor that of an earlier entry. -/
def firsts (seen : List String) : List ProjectEntry → List ProjectEntry
  | [] => []
  | e :: rest =>
    if e.project.id ∈ seen then firsts seen rest
    else e :: firsts (e.project.id :: seen) rest

variable {seen : List String} {l : List ProjectEntry}

/-- The first entry of an id that is not in `seen` stays the first one. -/
theorem find?_firsts {id : String} (h : id ∉ seen) :
    (firsts seen l).find? (·.project.id == id) = l.find? (·.project.id == id) := by
  induction l generalizing seen with
  | nil => rfl
  | cons e rest ih =>
    rw [firsts]
    by_cases hid : e.project.id = id
    · rw [if_neg (hid ▸ h), List.find?_cons_of_pos (by simpa using hid),
        List.find?_cons_of_pos (by simpa using hid)]
    · rw [List.find?_cons_of_neg (l := rest) (by simpa using hid)]
      split
      · exact ih h
      · rw [List.find?_cons_of_neg (by simpa using hid)]
        refine ih fun hmem => ?_
        rcases List.mem_cons.mp hmem with heq | hmem
        · exact hid heq.symm
        · exact h hmem

/-- No id comes twice. -/
theorem firstRepeated?_firsts :
    Snapshot.firstRepeated? seen ((firsts seen l).map (·.project.id)) = none := by
  induction l generalizing seen with
  | nil => rfl
  | cons e rest ih =>
    rw [firsts]
    split
    · exact ih
    · rename_i hid
      rw [List.map_cons, Snapshot.firstRepeated?, if_neg hid]
      exact ih

/-- Later entries of an id add nothing to a table that keeps the first project of each id. -/
theorem foldl_insertNew_firsts {table : SortedMap String Project}
    (h : ∀ id ∈ seen, table.contains id = true) :
    ((firsts seen l).map (·.project)).foldl (fun m p => m.insertNew p.id p) table =
      (l.map (·.project)).foldl (fun m p => m.insertNew p.id p) table := by
  induction l generalizing seen table with
  | nil => rfl
  | cons e rest ih =>
    rw [firsts, List.map_cons, List.foldl_cons]
    split
    · rename_i hid
      obtain ⟨p, hp⟩ := SortedMap.contains_iff.mp (h _ hid)
      rw [SortedMap.insertNew_of_some hp]
      exact ih h
    · rw [List.map_cons, List.foldl_cons]
      refine ih fun id hid => SortedMap.contains_upsert.mpr ?_
      exact (List.mem_cons.mp hid).imp_right (h id)

end ProjectEntry

/-! ## Sorted projects -/

/-- The id of the first project is not greater. -/
def Project.idLE (p q : Project) : Bool := (compare p.id q.id).isLE

namespace Project

variable {p q : Project}

theorem idLE_trans (p q r : Project) (hpq : p.idLE q = true) (hqr : q.idLE r = true) :
    p.idLE r = true := Std.TransCmp.isLE_trans hpq hqr

theorem idLE_total (p q : Project) : (p.idLE q || q.idLE p) = true := by
  rw [Bool.or_eq_true, idLE, idLE]
  cases hcompare : compare p.id q.id with
  | lt => exact .inl rfl
  | eq => exact .inl rfl
  | gt => rw [Std.OrientedCmp.gt_iff_lt.mp hcompare]; exact .inr rfl

theorem idLE_of_eq (h : p.id = q.id) : p.idLE q = true := by
  rw [idLE, h, Std.compare_self]
  rfl

theorem lt_of_idLE (h : p.idLE q = true) (hne : p.id ≠ q.id) : compare p.id q.id = .lt := by
  rw [idLE] at h
  cases hcompare : compare p.id q.id with
  | lt => rfl
  | eq => exact absurd (Std.compare_eq_iff_eq.mp hcompare) hne
  | gt => rw [hcompare] at h; cases h

end Project

section Sorted

variable {listed : List Project} {p : Project} {id : String}

/-- A table that keeps the first project of each id has the first listed one. -/
theorem get?_foldl_insertNew {table : SortedMap String Project} :
    (listed.foldl (fun m p => m.insertNew p.id p) table).get? id =
      (table.get? id).or (listed.find? (·.id == id)) := by
  induction listed generalizing table with
  | nil => rw [List.foldl_nil, List.find?_nil, Option.or_none]
  | cons p rest ih =>
    rw [List.foldl_cons, ih, SortedMap.get?_insertNew]
    by_cases hid : id = p.id
    · subst hid
      rw [if_pos rfl, List.find?_cons_of_pos (by simp), Option.some_or]
      cases table.get? p.id <;> rfl
    · rw [if_neg hid, List.find?_cons_of_neg (by simpa using Ne.symm hid)]

/-- An analysis takes the first listed project of every id. -/
theorem mem_distinctProjects :
    p ∈ distinctProjects listed ↔ listed.find? (·.id == p.id) = some p := by
  rw [distinctProjects, SortedMap.mem_values]
  simp only [get?_foldl_insertNew, SortedMap.get?_empty, Option.none_or]
  constructor
  · rintro ⟨id, hfind⟩
    obtain rfl : p.id = id := by simpa using List.find?_some hfind
    exact hfind
  · intro hfind
    exact ⟨p.id, hfind⟩

/-- The sort is stable: the projects of one id stay in the order in which they are listed. -/
theorem filter_mergeSort_idLE : (listed.mergeSort Project.idLE).filter (·.id == id) =
    listed.filter (·.id == id) := by
  have hsorted : (listed.filter (·.id == id)).Pairwise fun p q => p.idLE q = true := by
    refine List.pairwise_of_forall_mem_list fun p hp q hq => Project.idLE_of_eq ?_
    have hp : p.id = id := by simpa using (List.mem_filter.mp hp).2
    have hq : q.id = id := by simpa using (List.mem_filter.mp hq).2
    exact hp.trans hq.symm
  have hsub : (listed.filter (·.id == id)).Sublist (listed.mergeSort Project.idLE) :=
    List.sublist_mergeSort Project.idLE_trans Project.idLE_total hsorted List.filter_sublist
  have hfilter := hsub.filter (·.id == id)
  rw [List.filter_filter] at hfilter
  simp only [Bool.and_self] at hfilter
  exact (hfilter.eq_of_length ((List.mergeSort_perm listed _).filter _).length_eq.symm).symm

/-- So the first project of an id stays the first one. -/
theorem find?_mergeSort_idLE :
    (listed.mergeSort Project.idLE).find? (·.id == id) = listed.find? (·.id == id) := by
  rw [← List.head?_filter, ← List.head?_filter, filter_mergeSort_idLE]

theorem find?_cons_eq_some_iff (first : Project) {rest : List Project} :
    (first :: rest).find? (·.id == p.id) = some p ↔
      p = first ∨ first.id ≠ p.id ∧ rest.find? (·.id == p.id) = some p := by
  by_cases hid : first.id = p.id
  · rw [List.find?_cons_of_pos (by simpa using hid), Option.some_inj]
    exact ⟨fun h => .inl h.symm, fun h => h.elim Eq.symm fun h => absurd hid h.1⟩
  · rw [List.find?_cons_of_neg (by simpa using hid)]
    exact ⟨fun h => .inr ⟨hid, h⟩, fun h => h.elim (fun h => absurd (h ▸ rfl) hid) And.right⟩

/-- The first of several neighbours with one id is kept. In a sorted list all projects of an id are
neighbours, so the first one of the id is. -/
theorem mem_destutter'_iff {first : Project} {rest : List Project}
    (h : (first :: rest).Pairwise fun p q => p.idLE q = true) :
    p ∈ rest.destutter' (fun p q => p.id ≠ q.id) first ↔
      (first :: rest).find? (·.id == p.id) = some p := by
  induction rest generalizing first with
  | nil =>
    rw [List.destutter'_nil, List.mem_singleton, find?_cons_eq_some_iff]
    exact ⟨.inl, fun h => h.resolve_right fun h => nomatch h.2⟩
  | cons q rest ih =>
    obtain ⟨hall, hrest⟩ := List.pairwise_cons.mp h
    by_cases hid : first.id = q.id
    · have hkept : (first :: rest).Pairwise fun p q => p.idLE q = true :=
        List.pairwise_cons.mpr ⟨fun r hr => hall r (List.mem_cons_of_mem q hr), hrest.of_cons⟩
      rw [List.destutter'_cons_neg _ (by simpa using hid), ih hkept, find?_cons_eq_some_iff,
        find?_cons_eq_some_iff]
      refine or_congr_right (and_congr_right fun hne => ?_)
      rw [List.find?_cons_of_neg (by simpa [← hid] using hne)]
    · rw [List.destutter'_cons_pos _ hid, List.mem_cons, ih hrest,
        find?_cons_eq_some_iff first]
      refine or_congr_right (iff_and_self.mpr fun hfind heq => ?_)
      -- `p` stands behind `q`, whose id is greater than that of `first`.
      have hlt : compare p.id q.id = .lt :=
        heq ▸ Project.lt_of_idLE (hall q List.mem_cons_self) hid
      rcases List.mem_cons.mp (List.mem_of_find?_eq_some hfind) with rfl | hmem
      · exact hid heq
      · have hle : (compare q.id p.id).isLE = true := (List.pairwise_cons.mp hrest).1 p hmem
        rw [Std.OrientedCmp.gt_iff_lt.mpr hlt] at hle
        cases hle

/-- Without neighbours of one id a sorted list is strictly ascending. -/
theorem ascending_of_isChain {l : List Project} (hchain : l.IsChain fun p q => p.id ≠ q.id)
    (hsorted : l.Pairwise fun p q => p.idLE q = true) :
    l.Pairwise fun p q => compare p.id q.id = .lt := by
  induction hchain with
  | nil => exact .nil
  | singleton p => exact List.pairwise_singleton _ p
  | cons_cons hne _ ih =>
    obtain ⟨hall, hrest⟩ := List.pairwise_cons.mp hsorted
    have hlt := Project.lt_of_idLE (hall _ List.mem_cons_self) hne
    refine List.pairwise_cons.mpr ⟨fun r hr => ?_, ih hrest⟩
    rcases List.mem_cons.mp hr with rfl | hr
    · exact hlt
    · exact Std.TransCmp.lt_trans hlt ((List.pairwise_cons.mp (ih hrest)).1 r hr)

/-- The projects that an analysis takes are the listed ones sorted by their ids, of neighbours with
one id the first. -/
theorem distinctProjects_eq_destutter (listed : List Project) : distinctProjects listed =
    (listed.mergeSort Project.idLE).destutter fun p q : Project => p.id ≠ q.id := by
  have hsorted : (listed.mergeSort Project.idLE).Pairwise fun p q => p.idLE q = true :=
    List.pairwise_mergeSort Project.idLE_trans Project.idLE_total listed
  have hids : ((distinctProjects listed).map (·.id)).Pairwise fun a b => compare a b = .lt :=
    map_id_distinctProjects listed ▸ SortedSet.ascending _
  refine eq_of_pairwise_of_mem_iff (fun hab => Std.OrientedCmp.not_lt_of_lt hab)
    (List.pairwise_map.mp hids)
    (ascending_of_isChain (List.isChain_destutter _ _)
      (hsorted.sublist (List.destutter_sublist _ _))) fun p => ?_
  rw [mem_distinctProjects]
  cases hlist : listed.mergeSort Project.idLE with
  | nil =>
    rw [← find?_mergeSort_idLE, hlist]
    simp
  | cons first rest =>
    rw [← find?_mergeSort_idLE, hlist, List.destutter_cons', mem_destutter'_iff (hlist ▸ hsorted)]

end Sorted

/-! ## Without the later entries -/

namespace Snapshot

/-- The workspace without the entries whose id an earlier one has. -/
def withoutRepeats (w : Snapshot) : Snapshot :=
  { w with projects := ProjectEntry.firsts [] w.projects }

variable {w : Snapshot} {config : Config} {schedule : Schedule} {path : String}
  {order order' : List Symbol → List Symbol}

/-- It is valid. -/
theorem repeatedId?_withoutRepeats : w.withoutRepeats.repeatedId? = none :=
  ProjectEntry.firstRepeated?_firsts

/-- The analysis takes the same projects, -/
theorem distinct_withoutRepeats : w.withoutRepeats.distinct = w.distinct :=
  congrArg SortedMap.values (ProjectEntry.foldl_insertNew_firsts fun _ h => nomatch h)

/-- and the resolver finds the same symbols of each. -/
theorem symbolsOf_withoutRepeats : w.withoutRepeats.symbolsOf = w.symbolsOf := by
  funext project
  rw [symbolsOf, symbolsOf, withoutRepeats, ProjectEntry.find?_firsts List.not_mem_nil]

/-- So the workspaces have the same declarations. -/
theorem compiled_withoutRepeats : w.withoutRepeats.compiled = w.compiled := by
  funext project
  rw [compiled, compiled, symbolsOf_withoutRepeats]

theorem declares_withoutRepeats (d : Declaration) :
    w.withoutRepeats.Declares config d ↔ w.Declares config d := by
  rw [Declares, Declares, distinct_withoutRepeats, compiled_withoutRepeats]

/-- What cannot be analysed with the later entries cannot be analysed without them, for the same
reason. -/
theorem fault?_withoutRepeats : w.withoutRepeats.fault? config path = w.fault? config path := by
  rw [fault?, fault?]
  have hopening : w.withoutRepeats.resolver.openingFault? path = w.resolver.openingFault? path := by
    rw [Resolver.openingFault?, Resolver.openingFault?]
    by_cases hfail : w.faults.failWorkspace = true
    · have hlisted : w.resolver.projects path = .error (.workspaceUnavailable path) := if_pos hfail
      have hlisted' : w.withoutRepeats.resolver.projects path =
        .error (.workspaceUnavailable path) := if_pos hfail
      rw [hlisted, hlisted']
    · have hlisted : w.resolver.projects path = .ok (w.projects.map (·.project)) := if_neg hfail
      have hlisted' : w.withoutRepeats.resolver.projects path =
        .ok ((ProjectEntry.firsts [] w.projects).map (·.project)) := if_neg hfail
      rw [hlisted, hlisted']
      cases w.projects <;> rfl
  rw [hopening]

/-- The same tasks are to fail. -/
theorem planned_withoutRepeats : w.withoutRepeats.planned = w.planned := by
  have hfailing : w.withoutRepeats.failingProjects = w.failingProjects := by
    rw [failingProjects, failingProjects, ← map_id_distinct, ← map_id_distinct,
      distinct_withoutRepeats]
    rfl
  funext ids
  rw [planned, planned, hfailing]
  rfl

end Snapshot

/-! ## What the graphs have in common -/

/-- What a graph says of nodes up to their features, of the projects themselves, and of failures. -/
structure Graph.Inventory where
  nodes : SortedMap String Node
  projects : SortedMap String (String × String × Option String × List String)
  errors : List String

/-- The inventory of a graph. -/
def Graph.inventory (g : Graph) : Graph.Inventory :=
  ⟨g.bareNodes, g.attributes, g.metadata.errors⟩

namespace Snapshot

variable {w w' : Snapshot} {order : List Symbol → List Symbol} {config : Config}
  {schedule : Schedule} {path : String} {g g' : Graph}

/-- Entries of a snapshot whose id an earlier entry has make no difference to whether and why an
analysis fails, nor to the nodes of its graph, up to their features, to the attributes of its
projects and to its errors: there are graphs with the same inventory with and without the later
entries, under each schedule the inventory is the same, and under any two schedules it differs at
most in nodes of an id whose declarations make different ones. -/
theorem run_withoutRepeats (w : Snapshot) (config : Config) (path : String) :
    w.withoutRepeats.repeatedId? = none ∧
    Except.map Graph.inventory '' w.withoutRepeats.outcomes config path =
      Except.map Graph.inventory '' w.outcomes config path ∧
    (∀ order order' schedule,
      ((w.withoutRepeats.analysisIn order' config schedule).run path).map Graph.inventory =
        ((w.analysisIn order config schedule).run path).map Graph.inventory) ∧
    ∀ g g', .ok g ∈ w.outcomes config path → .ok g' ∈ w.withoutRepeats.outcomes config path →
      g'.nodes.keyList = g.nodes.keyList ∧ g'.attributes = g.attributes ∧
      g'.metadata.errors = g.metadata.errors ∧
      ∀ id, w.Settled config id → g'.bareNodes.get? id = g.bareNodes.get? id := by
  have hsame : ∀ order order' schedule,
      ((w.withoutRepeats.analysisIn order' config schedule).run path).map Graph.inventory =
        ((w.analysisIn order config schedule).run path).map Graph.inventory := by
    intro order order' schedule
    have hnodes : (w.withoutRepeats.found order' config schedule).nodes =
        (w.found order config schedule).nodes :=
      nodes_found_eq distinct_withoutRepeats compiled_withoutRepeats
    refine map_run_congr fault?_withoutRepeats ?_
    rw [Graph.inventory, Graph.inventory, Graph.bareNodes_assemble id_of_found,
      Graph.bareNodes_assemble id_of_found, Graph.attributes_assemble, Graph.attributes_assemble,
      errors_found, errors_found, projects_found, projects_found, hnodes, distinct_withoutRepeats,
      planned_withoutRepeats]
  refine ⟨repeatedId?_withoutRepeats, image_outcomes_eq fun order schedule => hsame _ _ _, hsame,
    fun g g' hg hg' => ?_⟩
  exact ⟨keyList_outcomes hg hg' declares_withoutRepeats,
    attributes_outcomes hg hg' distinct_withoutRepeats,
    errors_outcomes hg hg' declares_withoutRepeats planned_withoutRepeats,
    fun id hid => bareNode_outcomes hg hg' declares_withoutRepeats hid⟩

/-- Two entries of one id, of which the second has another name and declares one class more. -/
theorem run_withoutRepeats_renamed :
    let order := Symbol.typeIn "Shop" "Shop" "Order" .classType
    let cart := Symbol.typeIn "Shop" "Shop" "Cart" .classType
    let w := (Snapshot.empty.withProject (.named "shop" "Shop") [order]).withProject
      (.named "shop" "Store") [order, cart]
    ∃ g g', (w.analysis (.standard 4) {}).run "/work" = .ok g ∧
      (w.withoutRepeats.analysis (.standard 4) {}).run "/work" = .ok g' ∧
      g'.inventory = g.inventory ∧ g'.nodes.keyList = g.nodes.keyList ∧
      w.withoutRepeats.projects.map (·.project.name) = ["Shop"] := by
  intro order cart w
  obtain ⟨g, hg⟩ : ∃ g, (w.analysis (.standard 4) {}).run "/work" = .ok g :=
    Analysis.exists_run (a := w.analysis (.standard 4) {}) (by decide +kernel) (by decide +kernel)
  obtain ⟨-, -, hsame, hany⟩ := run_withoutRepeats w (.standard 4) "/work"
  have hinventory := hsame id id {}
  change ((w.withoutRepeats.analysis (.standard 4) {}).run "/work").map Graph.inventory =
    ((w.analysis (.standard 4) {}).run "/work").map Graph.inventory at hinventory
  rw [hg] at hinventory
  cases hg' : (w.withoutRepeats.analysis (.standard 4) {}).run "/work" with
  | error e => rw [hg'] at hinventory; cases hinventory
  | ok g' =>
    rw [hg'] at hinventory
    obtain ⟨hkeys, -⟩ := hany g g' ⟨id, {}, fun l => .refl l, hg⟩ ⟨id, {}, fun l => .refl l, hg'⟩
    exact ⟨g, g', hg, rfl, Except.ok.inj hinventory, hkeys, by decide +kernel⟩

end Snapshot

end CodeAtlas
