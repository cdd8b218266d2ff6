import CodeAtlas.Proofs.Collection
import CodeAtlas.Proofs.Turns

/-!
# What an exploration has found

Once the projects have been discovered, an exploration performs one list of actions
(`Analysis.course`), those of the projects and those of the nodes, each behind a check
(`Analysis.exploration_eq`). When it answers, it has performed all of them, so what it has found can
be computed without performing anything (`Analysis.findingsOf`): `Analysis.exploration_eq_ok` says
this of any analysis, cancelled or not. An analysis that nobody cancels does answer, unless the
workspace cannot be opened or has no projects (`Analysis.exploration_of_going`).

The catalogue is made from all declarations that are for the graph
(`Analysis.madeFrom_catalogueOf`), and the store of relationships is sound
(`Analysis.sound_relationshipsFor`).
-/

namespace CodeAtlas

/-- The error with which the answer for the projects of a workspace ends an analysis, if it does:
the listing fails, or lists none. -/
def Resolver.openingFault? (r : Resolver) (path : String) : Option AnalysisError :=
  match r.projects path with
  | .error e => some (.workspaceUnavailable e.message)
  | .ok [] => some (.noProjects path)
  | .ok (_ :: _) => none

namespace Analysis

open Step Action

variable (a : Analysis) (projects : List Project)

/-- What is done to find out what projects declare. -/
def catalogueActions : List Action :=
  a.schedule.interleave ((projects.map a.declarationsOf).map (·.actions))

/-- What is done at the nodes of a catalogue. -/
def collectionActions (c : Catalogue) : List Action :=
  a.schedule.interleave ((c.nodes.keyList.map (a.relationshipsOf c)).map (·.actions))

/-- The relationships that are stored when those at the nodes of a catalogue are put forward. -/
def relationshipsFor (c : Catalogue) : RelationshipStore :=
  (RelationshipStore.addAll .empty (offers (a.collectionActions c))).2

/-- What there is to be found out about projects. -/
def findingsOf : Findings :=
  let c := a.catalogueOf projects
  { projects
    nodes := c.nodes
    relationships := a.relationshipsFor c
    failures :=
      (projects.filterMap fun project =>
        TaskFailure.of? (.project project.id) (a.declarationsOf project)) ++
      c.nodes.keyList.filterMap fun id => TaskFailure.of? (.node id) (a.relationshipsOf c id) }

variable {a projects} {path : String} {c : Catalogue} {r : Relationship} {p q : Progress}

/-! ## Which relationships are put forward -/

/-- The tasks of projects store nothing. -/
theorem offers_catalogueActions : offers (a.catalogueActions projects) = [] := by
  refine List.filterMap_eq_nil_iff.mpr fun x hx => ?_
  obtain ⟨task, htask, hx⟩ := (a.schedule.interleaves _).mem_iff.mp hx
  simp only [List.mem_map] at htask
  obtain ⟨_, ⟨project, -, rfl⟩, rfl⟩ := htask
  have hask : x ∈ (Script.ask .symbols (a.resolver.symbols project)).actions := by
    unfold declarationsOf at hx
    cases hanswer : a.resolver.symbols project with
    | error e => rwa [hanswer, Script.actions_bind_error rfl] at hx
    | ok symbols =>
      rw [hanswer, Script.actions_bind_ok rfl, List.mem_append] at hx
      exact hx.resolve_right List.not_mem_nil
  rw [List.mem_singleton.mp hask]
  rfl

/-- What is put forward is put forward at some node. -/
theorem mem_offers_collectionActions : r ∈ offers (a.collectionActions c) ↔
    ∃ id, c.nodes.contains id = true ∧ r ∈ (a.relationshipsOf c id).offers := by
  simp only [offers, Script.offers, List.mem_filterMap, collectionActions,
    (a.schedule.interleaves _).mem_iff, List.mem_map, SortedMap.mem_keyList]
  constructor
  · rintro ⟨x, ⟨_, ⟨_, ⟨id, hid, rfl⟩, rfl⟩, hx⟩, hr⟩
    exact ⟨id, hid, x, hx, hr⟩
  · rintro ⟨id, hid, x, hx, hr⟩
    exact ⟨x, ⟨_, ⟨_, ⟨id, hid, rfl⟩, rfl⟩, hx⟩, hr⟩

/-- The store is sound over the nodes at which its relationships are collected. -/
theorem sound_relationshipsFor (hid : ∀ {id n}, c.nodes.get? id = some n → n.id = id) :
    (a.relationshipsFor c).Sound c.nodes := by
  refine RelationshipStore.Sound.empty.addAll fun r hr => ?_
  obtain ⟨id, -, hr⟩ := mem_offers_collectionActions.mp hr
  exact joins_of_mem_offers hid hr

/-! ## Which declarations are catalogued -/

/-- A project of the list declares the symbol, and the symbol is for the graph. -/
def Declares (a : Analysis) (projects : List Project) (d : Declaration) : Prop :=
  d.project ∈ projects ∧ d.isIncluded a.config = true ∧
    ∃ symbols, a.resolver.symbols d.project = .ok symbols ∧ d.symbol ∈ symbols

/-- The task of a project finds out its symbols, or why there are none. -/
theorem ending_declarationsOf {project : Project} : (a.declarationsOf project).ending =
    (a.resolver.symbols project).map fun symbols => symbols.map fun s => ⟨s, project⟩ := by
  unfold declarationsOf
  cases hanswer : a.resolver.symbols project with
  | error e => exact Script.ending_bind_error rfl
  | ok symbols => exact Script.ending_bind_ok rfl

/-- The declarations of all projects that are for the graph. -/
theorem mem_declared {d : Declaration} :
    d ∈ (a.declared projects).flatten.filter (·.isIncluded a.config) ↔
      a.Declares projects d := by
  simp only [declared, List.mem_filter, List.mem_flatten, List.mem_map, Declares,
    ending_declarationsOf]
  constructor
  · rintro ⟨⟨_, ⟨project, hproject, rfl⟩, hd⟩, hfor⟩
    cases hanswer : a.resolver.symbols project with
    | error e => rw [hanswer] at hd; cases hd
    | ok symbols =>
      rw [hanswer] at hd
      obtain ⟨s, hs, rfl⟩ := List.mem_map.mp hd
      exact ⟨hproject, hfor, symbols, hanswer, hs⟩
  · rintro ⟨hproject, hfor, symbols, hanswer, hs⟩
    refine ⟨⟨_, ⟨d.project, hproject, rfl⟩, ?_⟩, hfor⟩
    rw [hanswer]
    exact List.mem_map.mpr ⟨d.symbol, hs, rfl⟩

/-- The catalogue is made from the declarations of the projects that are for the graph. -/
theorem madeFrom_catalogueOf : (a.catalogueOf projects).MadeFrom
    ((a.declared projects).flatten.filter (·.isIncluded a.config)) :=
  Catalogue.madeFrom_ofTurns a.config _ _ (a.schedule.complete _)

/-! ## What an exploration has found -/

/-- All that is done after the projects have been discovered, one action after the other. -/
def course (a : Analysis) (projects : List Project) : List Action :=
  .check :: (a.catalogueActions projects ++
    .check :: (a.collectionActions (a.catalogueOf projects) ++ [.check]))

/-- All that is stored is put forward at some node. -/
theorem offers_course : offers (a.course projects) =
    offers (a.collectionActions (a.catalogueOf projects)) := by
  have hnone : offers (a.catalogueActions projects) = [] := offers_catalogueActions
  have happend : ∀ l m, offers (l ++ m) = offers l ++ offers m := fun l m =>
    List.filterMap_append
  have hcheck : ∀ l, offers (.check :: l) = offers l := fun l => rfl
  rw [course, hcheck, happend, hnone, hcheck, happend]
  exact List.append_nil _

/-- After the projects have been discovered, everything goes its course. -/
theorem outcome_course : ∃ c,
    (do
      let failedProjects ← a.catalogueProjects projects
      let failedNodes ← a.collectNodes
      conclude projects (failedProjects ++ failedNodes)).outcome p =
    match (a.perform (a.course projects)).outcome p with
      | (.ok _, q) => (.ok { a.findingsOf projects with relationships := q.relationships },
          { q with catalogue := a.catalogueOf projects })
      | (.error e, q) => (.error e, { q with catalogue := c }) := by
  simp only [catalogueProjects, collectNodes, conclude, performAll, course, bind_assoc, pure_bind]
  rw [outcome_check_bind, outcome_perform_check]
  by_cases hp : p.cancelled = true
  · rw [if_pos hp, if_pos hp]
    exact ⟨p.catalogue, rfl⟩
  rw [if_neg hp, if_neg hp, outcome_discard_bind, perform_append, outcome_bind, ← catalogueActions]
  rcases (a.perform (a.catalogueActions projects)).outcome p with ⟨e | n, q⟩
  · exact ⟨q.catalogue, rfl⟩
  -- the projects have been asked, and their declarations are catalogued
  refine ⟨a.catalogueOf projects, ?_⟩
  dsimp only
  rw [outcome_bind, outcome_modify]
  dsimp only
  rw [outcome_check_bind, outcome_get_bind, outcome_discard_bind, outcome_bind,
    outcome_perform_check, ← collectionActions]
  by_cases hq : q.cancelled = true
  · rw [if_pos hq, if_pos hq]
  rw [if_neg hq, if_neg hq, perform_append, outcome_bind, @outcome_perform_catalogue a _ q]
  rcases (a.perform (a.collectionActions (a.catalogueOf projects))).outcome q with ⟨e | k, q'⟩
  · rfl
  -- the relationships at the nodes have been stored
  dsimp only
  rw [outcome_check_bind, outcome_get_bind, outcome_bind, outcome_perform_check]
  by_cases hq' : q'.cancelled = true
  · rw [if_pos hq', if_pos hq']
  · rw [if_neg hq', if_neg hq']
    rfl

/-- The projects of a workspace that can be opened, each once. -/
def discovered (a : Analysis) (path : String) : List Project :=
  match a.resolver.projects path with
  | .ok listed => distinctProjects listed
  | .error _ => []

/-- The projects are discovered, unless the answer for them is the end. -/
theorem outcome_discover : (a.discover path).outcome p = match a.resolver.openingFault? path with
    | some e => (.error e, a.noted .projects p)
    | none => (.ok (a.discovered path), a.noted .projects p) := by
  rw [discover, note, outcome_bind, outcome_modify, Resolver.openingFault?, discovered]
  rcases a.resolver.projects path with e | (_ | ⟨project, rest⟩) <;> rfl

/-- An exploration takes its course, unless it is cancelled before it starts or the workspace cannot
be opened. -/
theorem exploration_eq (a : Analysis) (path : String) : ∃ c, a.exploration path =
    if a.start.cancelled then (.error .cancelled, a.start)
    else match a.resolver.openingFault? path with
      | some e => (.error e, a.noted .projects a.start)
      | none =>
        match (a.perform (a.course (a.discovered path))).outcome (a.noted .projects a.start) with
        | (.ok _, q) => (.ok { a.findingsOf (a.discovered path) with
              relationships := q.relationships },
            { q with catalogue := a.catalogueOf (a.discovered path) })
        | (.error e, q) => (.error e, { q with catalogue := c }) := by
  have hcourse := @outcome_course a (a.discovered path) (a.noted .projects a.start)
  obtain ⟨c, hcourse⟩ := hcourse
  refine ⟨c, ?_⟩
  rw [exploration, explore, outcome_check_bind]
  by_cases hstart : a.start.cancelled = true
  · rw [if_pos hstart, if_pos hstart]
  · rw [if_neg hstart, if_neg hstart, outcome_bind, outcome_discover]
    cases a.resolver.openingFault? path with
    | some e => rfl
    | none => exact hcourse

/-- What an exploration that answers has found, and the progress it ends with. -/
structure Explored (a : Analysis) (path : String) (found : Findings) (p : Progress) : Prop where
  opened : a.resolver.openingFault? path = none
  all : found = a.findingsOf (a.discovered path)
  catalogue : p.catalogue = a.catalogueOf (a.discovered path)
  relationships : p.relationships = found.relationships
  going : p.cancelled = false

/-- Actions of which the last one is a check end only if they have not been cancelled. -/
theorem going_of_perform_check {l : List Action} {n : Nat}
    (h : (a.perform (l ++ [.check])).outcome p = (.ok n, q)) : q.cancelled = false := by
  rw [perform_append, outcome_bind] at h
  rcases hl : (a.perform l).outcome p with ⟨e | k, q'⟩ <;> rw [hl] at h
  · cases h
  · dsimp only at h
    rw [outcome_bind, outcome_perform_check] at h
    by_cases hq' : q'.cancelled = true
    · rw [if_pos hq'] at h
      cases h
    · rw [if_neg hq'] at h
      cases h
      exact Bool.eq_false_iff.mpr hq'

/-- The last action of the course is one. -/
theorem going_of_course {n : Nat}
    (h : (a.perform (a.course projects)).outcome p = (.ok n, q)) : q.cancelled = false := by
  have hend : a.course projects = (.check :: (a.catalogueActions projects ++
      .check :: a.collectionActions (a.catalogueOf projects))) ++ [.check] := by
    simp only [course, List.cons_append, List.append_assoc]
  rw [hend] at h
  exact going_of_perform_check h

/-- An exploration that answers has found all that there is to be found. -/
theorem exploration_eq_ok {found : Findings} (h : a.exploration path = (.ok found, q)) :
    a.Explored path found q := by
  obtain ⟨c, hexploration⟩ := a.exploration_eq path
  rw [hexploration] at h
  split at h
  · cases h
  split at h
  · cases h
  rename_i hopened
  rcases hcourse : (a.perform (a.course (a.discovered path))).outcome (a.noted .projects a.start)
    with ⟨e | n, q'⟩ <;> rw [hcourse] at h <;> cases h
  obtain ⟨-, -, hstored⟩ := relationships_of_perform hcourse
  have hfound : q'.relationships = a.relationshipsFor (a.catalogueOf (a.discovered path)) := by
    rw [hstored, offers_course]
    rfl
  refine ⟨hopened, ?_, rfl, rfl, ?_⟩
  · rw [hfound]
    rfl
  · have hgoing := going_of_course hcourse
    exact hgoing

/-- An exploration that nobody cancels answers, unless the workspace cannot be opened or has no
projects. -/
theorem exploration_of_going (hcancel : ∀ asked, a.cancelsAfter asked = false) :
    (a.exploration path).1 = match a.resolver.openingFault? path with
      | some e => .error e
      | none => .ok (a.findingsOf (a.discovered path)) := by
  have hstart : ¬ a.start.cancelled = true := by simp [start, hcancel]
  have hnoted : (a.noted .projects a.start).cancelled = false := by simp [noted, start, hcancel]
  obtain ⟨c, hexploration⟩ := a.exploration_eq path
  rw [hexploration, if_neg hstart]
  cases a.resolver.openingFault? path with
  | some e => rfl
  | none =>
    dsimp only
    rw [outcome_perform_of_going hcancel hnoted, offers_course]
    rfl

/-- A graph is assembled from what an exploration has found. -/
theorem run_explored {g : Graph} (h : a.run path = .ok g) :
    ∃ found q, a.exploration path = (.ok found, q) ∧ a.Explored path found q ∧
      g = Graph.assemble a.config path found := by
  obtain ⟨found, hfound, rfl⟩ := run_eq_ok h
  rcases he : a.exploration path with ⟨answer, q⟩
  obtain rfl : answer = .ok found := by rw [he] at hfound; exact hfound
  exact ⟨found, q, rfl, exploration_eq_ok he, rfl⟩

/-- With a usable configuration, an analysis that nobody cancels gives the graph of what there is to
be found, unless the workspace cannot be opened or has no projects. -/
theorem run_of_going (hcancel : ∀ asked, a.cancelsAfter asked = false)
    (hconfig : a.config.fault? = none) : a.run path = match a.resolver.openingFault? path with
      | some e => .error e
      | none => .ok (Graph.assemble a.config path (a.findingsOf (a.discovered path))) := by
  rw [run_of_usable hconfig, exploration_of_going hcancel]
  cases a.resolver.openingFault? path <;> rfl

namespace Explored

variable {found : Findings} (h : a.Explored path found p)
include h

/-- The nodes that have been found are those of the catalogue. -/
theorem nodes : found.nodes = p.catalogue.nodes := by rw [h.all, h.catalogue]; rfl

theorem projects_eq : found.projects = a.discovered path := by rw [h.all]; rfl

/-- The catalogue is made from the declarations of the projects. -/
theorem madeFrom : p.catalogue.MadeFrom
    ((a.declared (a.discovered path)).flatten.filter (·.isIncluded a.config)) := by
  rw [h.catalogue]
  exact madeFrom_catalogueOf

/-- Nodes are found under their ids. -/
theorem id_eq {id : String} {n : Node} (hn : found.nodes.get? id = some n) : n.id = id :=
  h.madeFrom.id_eq (h.nodes ▸ hn)

/-- The store of relationships is sound. -/
theorem sound : found.relationships.Sound found.nodes := by
  rw [h.all]
  exact sound_relationshipsFor madeFrom_catalogueOf.id_eq

end Explored

end Analysis

end CodeAtlas
