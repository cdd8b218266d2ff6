import CodeAtlas.Proofs.Outcomes

/-!
# Failures stay where they happen

A fault plan names projects that are not to compile and symbols about which nothing is to be found
out. An analysis that runs into them answers all the same (`Snapshot.run_isolates_faults`): its
nodes are those of the workspace in which the failing projects declare nothing and nothing fails
(`Snapshot.emptied`), up to the features, which also depend on the relationships that are missing.
Its errors are one for each failing project and one for each node with failing look-ups.

Both workspaces have the same symbols of the same projects (`Snapshot.compiled_emptied`): a project
that fails is passed over just as one without symbols is. So under one schedule they give the same
nodes. Which project a symbol belongs to that several projects declare is up to the schedule in both
of them.
-/

namespace CodeAtlas

/-- The project, without its symbols if its id is in the set. -/
def ProjectEntry.emptiedIn (ids : SortedSet String) (e : ProjectEntry) : ProjectEntry :=
  if e.project.id ∈ ids then { e with symbols := [] } else e

namespace Snapshot

/-- The workspace in which the failing projects declare nothing and nothing is to fail. -/
def emptied (w : Snapshot) : Snapshot :=
  { w with
    projects := w.projects.map (·.emptiedIn w.faults.failProjects)
    faults := {} }

variable {w : Snapshot} {config : Config} {path : String} {project : Project}

/-! ## The same declarations -/

theorem project_emptiedIn {ids : SortedSet String} {e : ProjectEntry} :
    (e.emptiedIn ids).project = e.project := by
  unfold ProjectEntry.emptiedIn
  split <;> rfl

/-- The projects themselves stay. -/
theorem distinct_emptied : w.emptied.distinct = w.distinct := by
  rw [distinct, distinct, emptied, List.map_map]
  refine congrArg distinctProjects (List.map_congr_left fun e _ => ?_)
  exact project_emptiedIn

/-- An entry is looked up by its project, so the look-up finds the emptied entry. -/
theorem find?_emptied {id : String} : w.emptied.projects.find? (·.project.id == id) =
    (w.projects.find? (·.project.id == id)).map (·.emptiedIn w.faults.failProjects) := by
  rw [emptied, List.find?_map]
  refine congrArg (Option.map _) (congrArg (List.find? · w.projects) (funext fun e => ?_))
  rw [Function.comp_apply, project_emptiedIn]

/-- A project has the same symbols in both workspaces if it compiles, and none if it fails. -/
theorem compiled_emptied : w.emptied.compiled = w.compiled := by
  funext project
  have hfind : w.emptied.projects.find? (·.project.id == project.id) = _ := find?_emptied
  rw [compiled, compiled]
  by_cases hfail : project.id ∈ w.faults.failProjects
  · rw [symbolsOf_of_failing hfail]
    cases hentry : w.projects.find? (·.project.id == project.id) with
    | none =>
      rw [hentry, Option.map_none] at hfind
      rw [symbolsOf_of_missing List.not_mem_nil hfind]
      rfl
    | some e =>
      have hid : e.project.id = project.id := by simpa using List.find?_some hentry
      rw [hentry, Option.map_some, ProjectEntry.emptiedIn, if_pos (hid ▸ hfail)] at hfind
      rw [symbolsOf_of_entry List.not_mem_nil hfind]
      rfl
  · cases hentry : w.projects.find? (·.project.id == project.id) with
    | none =>
      rw [hentry, Option.map_none] at hfind
      rw [symbolsOf_of_missing List.not_mem_nil hfind, symbolsOf_of_missing hfail hentry]
    | some e =>
      have hid : e.project.id = project.id := by simpa using List.find?_some hentry
      rw [hentry, Option.map_some, ProjectEntry.emptiedIn, if_neg (hid ▸ hfail)] at hfind
      rw [symbolsOf_of_entry List.not_mem_nil hfind, symbolsOf_of_entry hfail hentry]

/-- So both workspaces have the same declarations. -/
theorem declares_emptied (d : Declaration) : w.emptied.Declares config d ↔ w.Declares config d := by
  rw [Declares, Declares, distinct_emptied, compiled_emptied]

/-- A project that is not to compile declares nothing. -/
theorem projectId_of_declares {d : Declaration} (h : w.Declares config d) :
    d.project.id ∉ w.faults.failProjects := by
  intro hfail
  have hs := h.2.2
  rw [compiled, symbolsOf_of_failing hfail] at hs
  cases hs

/-! ## Isolation -/

/-- No node of a graph lies in a project that is not to compile. -/
theorem projectId_of_outcome {g : Graph} (h : .ok g ∈ w.outcomes config path) {n : Node}
    (hn : n ∈ g.nodes.values) : n.projectId ∉ w.faults.failProjects := by
  obtain ⟨order, schedule, -, rfl⟩ := ok_mem_outcomes h
  obtain ⟨id, hn⟩ := SortedMap.mem_values.mp hn
  rw [Graph.get?_nodes_assemble id_of_found, Option.map_eq_some_iff] at hn
  obtain ⟨n', hn', rfl⟩ := hn
  obtain ⟨d, hd, -, rfl⟩ := built_of_found hn'
  rw [Node.inFeature_projectId, Node.classify_projectId]
  exact projectId_of_declares hd

/-- Whatever is to fail in a workspace that can be opened and has projects, an analysis that is left
alone gives a graph; none of its nodes lies in a failing project, and its errors are, in ascending
order, exactly those of the fault plan. Up to their features, the nodes are those of the workspace
in which the failing projects declare nothing and nothing fails: there are graphs with the same
nodes of both workspaces, under each schedule the nodes are the same, and under any two schedules
they have the same ids and are the same where all declarations of an id make the same node. -/
theorem run_isolates_faults (w : Snapshot) (config : Config) (path : String)
    (hconfig : config.fault? = none) (hopen : w.faults.failWorkspace = false)
    (hprojects : w.projects ≠ []) :
    (∀ r ∈ w.outcomes config path, ∃ g, r = .ok g ∧
      (∀ n ∈ g.nodes.values, n.projectId ∉ w.faults.failProjects) ∧
      g.metadata.errors.Pairwise (· ≤ ·) ∧
      g.metadata.errors.Perm ((w.planned g.nodes.keyList).map (·.message))) ∧
    Except.map Graph.bareNodes '' w.outcomes config path =
      Except.map Graph.bareNodes '' w.emptied.outcomes config path ∧
    (∀ order order' schedule,
      ((w.analysisIn order config schedule).run path).map Graph.bareNodes =
        ((w.emptied.analysisIn order' config schedule).run path).map Graph.bareNodes) ∧
    ∀ g g', .ok g ∈ w.outcomes config path → .ok g' ∈ w.emptied.outcomes config path →
      g.nodes.keyList = g'.nodes.keyList ∧
      ∀ id, w.Settled config id → g.bareNodes.get? id = g'.bareNodes.get? id := by
  have hfault : w.fault? config path = none := fault?_eq_none hconfig hopen hprojects
  have hfault' : w.emptied.fault? config path = none :=
    fault?_eq_none hconfig rfl fun h => hprojects (List.map_eq_nil_iff.mp h)
  have hsame : ∀ order order' schedule,
      ((w.analysisIn order config schedule).run path).map Graph.bareNodes =
        ((w.emptied.analysisIn order' config schedule).run path).map Graph.bareNodes := by
    intro order order' schedule
    refine map_run_congr (hfault.trans hfault'.symm) ?_
    rw [Graph.bareNodes_assemble id_of_found, Graph.bareNodes_assemble id_of_found,
      nodes_found_eq distinct_emptied compiled_emptied]
  refine ⟨fun r hr => ?_, image_outcomes_eq fun order schedule => hsame order order schedule,
    hsame, fun g g' hg hg' => ⟨?_, fun id hid => ?_⟩⟩
  · obtain ⟨order, schedule, horder, rfl⟩ := hr
    have hrun : (w.analysisIn order config schedule).run path = _ := run_analysisIn
    rw [hfault] at hrun
    have hg : _ ∈ w.outcomes config path := ⟨order, schedule, horder, hrun⟩
    refine ⟨_, hrun, fun n hn => projectId_of_outcome hg hn, ?_, ?_⟩
    · rw [errors_of_outcome hg]
      exact List.pairwise_mergeSort' (· ≤ ·) _
    · rw [errors_of_outcome hg]
      exact List.mergeSort_perm _ _
  · exact (keyList_outcomes hg hg' declares_emptied).symm
  · exact (bareNode_outcomes hg hg' declares_emptied hid).symm

/-- A class that two projects declare stays when the first of them fails, and is noted when nothing
is to be found out about it. -/
theorem run_isolates_faults_shared_class :
    let order := Symbol.typeIn "Shop" "Shop" "Order" .classType
    let w := (((Snapshot.empty.withProject (.named "core" "Core") [order]).withProject
      (.named "web" "Web") [order]).failingProject "core").failingLookup order
    ∀ r ∈ w.outcomes (.standard 4) "/work", ∃ g, r = .ok g ∧
      g.nodes.keyList = [order.identity] ∧
      (∀ n ∈ g.nodes.values, n.projectId ∉ w.faults.failProjects) ∧
      g.metadata.errors.Perm [
        "project core: Resolver error: Project core failed to compile: " ++
          "compilation fault injected",
        "node Shop::Shop.Order: Resolver error: Lookup failed for Shop::Shop.Order: " ++
          "lookup fault injected"] := by
  intro order w r hr
  obtain ⟨hall, -, -, hany⟩ := run_isolates_faults w (.standard 4) "/work" (by decide +kernel) rfl
    (by decide +kernel)
  obtain ⟨g, rfl, hproject, -, herrors⟩ := hall r hr
  have hrun : (w.emptied.analysisIn id (.standard 4) {}).run "/work" = _ := run_analysisIn
  have hfault : w.emptied.fault? (.standard 4) "/work" = none := by decide +kernel
  rw [hfault] at hrun
  obtain ⟨hkeys, -⟩ := hany g _ hr ⟨id, {}, fun l => .refl l, hrun⟩
  have hfound : (w.emptied.found id (.standard 4) {}).nodes.keyList = [order.identity] := by
    decide +kernel
  rw [Graph.keyList_nodes_assemble id_of_found, hfound] at hkeys
  rw [hkeys] at herrors
  exact ⟨g, rfl, hkeys, hproject, herrors.trans (.of_eq (by decide +kernel))⟩

end Snapshot

end CodeAtlas
