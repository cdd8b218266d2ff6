import CodeAtlas.Proofs.Innermost
import CodeAtlas.Proofs.Outcomes
import CodeAtlas.Proofs.Owners
import CodeAtlas.Proofs.Renaming
import Mathlib.Data.List.Forall2
import Mathlib.Data.List.Nodup
import Mathlib.Data.List.Perm.Lattice

/-!
# The order of a snapshot

A snapshot lists its projects, and every project its symbols, in some order. As long as the ids of
projects, the identities of symbols and the places of declarations tell apart what is listed
(`Snapshot.Unambiguous`), the order makes no difference to what an analysis may give
(`Snapshot.outcomes_of_rearranges`). Whatever the tasks did in which order, they find out the same
things, and only two of them are up to the schedule: which project a node belongs to if several
declare its symbol, and which of several places a relationship is at.

A single thread has one schedule only, and that depends on the order of the snapshot. So the project
that gets a symbol of several projects may change when the snapshot is rearranged
(`Snapshot.run_singleThreaded_of_rearranged`).

Snapshots that are rearranged are alike in what counts (`Snapshot.Alike`), and from there on only
that is used: what is found in both is the same up to owners and places.
-/

namespace CodeAtlas

/-! ## Exchanging two elements -/

namespace SortedMap

variable {κ : Type} [Ord κ] [Std.TransOrd κ] [Std.LawfulEqOrd κ] [DecidableEq κ] {α : Type}
  {m : SortedMap κ α} {k k' : κ} {v v' : α}

/-- Two changes may be exchanged if they are made under different keys or exchange under one. -/
theorem upsert_comm {f g : Option α → α} (h : k = k' → ∀ o, g (some (f o)) = f (some (g o))) :
    (m.upsert k f).upsert k' g = (m.upsert k' g).upsert k f := by
  refine ext_get? fun k'' => ?_
  simp only [get?_upsert]
  by_cases hk : k'' = k
  · subst hk
    by_cases hk' : k'' = k'
    · subst hk'
      simp only [if_true, h rfl]
    · simp only [if_neg hk', if_true]
  · by_cases hk' : k'' = k'
    · subst hk'
      simp only [if_neg hk, if_true]
    · simp only [if_neg hk, if_neg hk']

/-- So may insertions that agree under one key, -/
theorem insert_comm (h : k = k' → v = v') :
    (m.insert k v).insert k' v' = (m.insert k' v').insert k v :=
  upsert_comm fun hk _ => (h hk).symm

/-- and insertions of first values. -/
theorem insertNew_comm (h : k = k' → v = v') :
    (m.insertNew k v).insertNew k' v' = (m.insertNew k' v').insertNew k v := by
  refine upsert_comm fun hk o => ?_
  rw [h hk]

end SortedMap

/-- Projects may be listed in any order if their ids tell them apart. -/
theorem distinctProjects_of_perm {listed listed' : List Project} (hperm : listed.Perm listed')
    (h : (listed.map (·.id)).Nodup) : distinctProjects listed = distinctProjects listed' := by
  refine congrArg SortedMap.values (hperm.foldl_eq' (fun p hp q hq _ => ?_) _)
  exact SortedMap.insertNew_comm fun hid => List.inj_on_of_nodup_map h hp hq hid

/-! ## Rearranged snapshots -/

namespace ProjectEntry

/-- The entries have the same project, and its symbols in some order. -/
structure Rearranges (e e' : ProjectEntry) : Prop where
  project : e'.project = e.project
  symbols : e'.symbols.Perm e.symbols

variable {l l' : List ProjectEntry} (h : List.Forall₂ Rearranges l l')
include h

theorem map_project_of_forall₂ : l'.map (·.project) = l.map (·.project) := by
  induction h with
  | nil => rfl
  | cons he _ ih => rw [List.map_cons, List.map_cons, he.project, ih]

theorem perm_symbols_of_forall₂ : (l'.flatMap (·.symbols)).Perm (l.flatMap (·.symbols)) := by
  induction h with
  | nil => exact .refl _
  | cons he _ ih =>
    rw [List.flatMap_cons, List.flatMap_cons]
    exact he.symbols.append ih

theorem exists_of_forall₂ {e' : ProjectEntry} (he' : e' ∈ l') : ∃ e ∈ l, Rearranges e e' := by
  induction h with
  | nil => cases he'
  | cons hfirst _ ih =>
    rcases List.mem_cons.mp he' with rfl | he'
    · exact ⟨_, List.mem_cons_self, hfirst⟩
    · obtain ⟨e, he, hmatch⟩ := ih he'
      exact ⟨e, List.mem_cons_of_mem _ he, hmatch⟩

end ProjectEntry

namespace Snapshot

variable (w : Snapshot)

/-- The ids of the projects, the identities of the symbols and the places of the declarations, with
kind and display name, tell apart what the snapshot lists. -/
structure Unambiguous : Prop where
  ids : (w.projects.map (·.project.id)).Nodup
  identities : ∀ s ∈ w.symbols, ∀ t ∈ w.symbols, s.identity = t.identity → s = t
  places : ∀ s ∈ w.symbols, ∀ t ∈ w.symbols, s.location.isSome = true → s.location = t.location →
    s.kind = t.kind → s.displayName = t.displayName → s = t

/-- The snapshots list the same projects, in some order, and the same symbols of each. -/
structure Rearranges (w' : Snapshot) : Prop where
  projects : ∃ l, l.Perm w.projects ∧ List.Forall₂ ProjectEntry.Rearranges l w'.projects
  references : w'.references = w.references
  implementations : w'.implementations = w.implementations
  derivedTypes : w'.derivedTypes = w.derivedTypes
  faults : w'.faults = w.faults

variable {w} {w' : Snapshot}

/-- Whatever the order in which declarations are compared, the same one is innermost. -/
theorem Unambiguous.innermost?_eq (hw : w.Unambiguous) {order order' : List Symbol → List Symbol}
    (horder : ∀ l, (order l).Perm l) (horder' : ∀ l, (order' l).Perm l) (l : Location) :
    innermost? l (order' w.declared.values) = innermost? l (order w.declared.values) := by
  have hdeclared : ∀ s ∈ order' w.declared.values, s ∈ w.symbols := by
    intro s hs
    obtain ⟨id, hget⟩ := SortedMap.mem_values.mp ((horder' _).mem_iff.mp hs)
    obtain ⟨t, ht, heq⟩ := List.mem_map.mp (SortedMap.mem_of_get?_ofList hget)
    cases heq
    exact ht
  refine innermost?_of_perm ((horder' _).trans (horder _).symm) (untied_declarations ?_)
  intro s hs t ht span hspan hspan' hkind hname
  exact hw.places s (hdeclared s hs) t (hdeclared t ht) (by rw [hspan]; rfl)
    (hspan.trans hspan'.symm) hkind hname

namespace Rearranges

variable (h : w.Rearranges w')
include h

/-- The same projects are listed. -/
theorem perm_projects : (w'.projects.map (·.project)).Perm (w.projects.map (·.project)) := by
  obtain ⟨l, hperm, hmatch⟩ := h.projects
  rw [ProjectEntry.map_project_of_forall₂ hmatch]
  exact hperm.map _

/-- The same symbols are declared. -/
theorem perm_symbols : w'.symbols.Perm w.symbols := by
  obtain ⟨l, hperm, hmatch⟩ := h.projects
  exact (ProjectEntry.perm_symbols_of_forall₂ hmatch).trans (hperm.flatMap_right _)

/-- Every entry of the one snapshot stands in the other. -/
theorem exists_entry {e' : ProjectEntry} (he' : e' ∈ w'.projects) :
    ∃ e ∈ w.projects, e.Rearranges e' := by
  obtain ⟨l, hperm, hmatch⟩ := h.projects
  obtain ⟨e, he, hmatch⟩ := ProjectEntry.exists_of_forall₂ hmatch he'
  exact ⟨e, hperm.mem_iff.mp he, hmatch⟩

/-- The same symbols stand in the table of declared ones. -/
theorem declared_eq (hw : w.Unambiguous) : w'.declared = w.declared := by
  refine (h.perm_symbols.map fun s => (s.identity, s)).foldl_eq' (fun e he e' he' _ => ?_) _
  obtain ⟨s, hs, rfl⟩ := List.mem_map.mp he
  obtain ⟨t, ht, rfl⟩ := List.mem_map.mp he'
  exact SortedMap.insert_comm
    (hw.identities s (h.perm_symbols.mem_iff.mp hs) t (h.perm_symbols.mem_iff.mp ht))

/-- The look-up of a project finds the same entry, or none in both snapshots. -/
theorem find?_entry (hw : w.Unambiguous) (id : String) :
    (w'.projects.find? (·.project.id == id) = none ∧
      w.projects.find? (·.project.id == id) = none) ∨
    ∃ e' e, w'.projects.find? (·.project.id == id) = some e' ∧
      w.projects.find? (·.project.id == id) = some e ∧ e.Rearranges e' := by
  cases hentry' : w'.projects.find? (·.project.id == id) with
  | some e' =>
    have hid' : e'.project.id = id := by simpa using List.find?_some hentry'
    obtain ⟨e, he, hmatch⟩ := h.exists_entry (List.mem_of_find?_eq_some hentry')
    have hid : e.project.id = id := hmatch.project ▸ hid'
    obtain ⟨found, hfound⟩ : ∃ found, w.projects.find? (·.project.id == id) = some found :=
      Option.isSome_iff_exists.mp (List.find?_isSome.mpr ⟨e, he, by simpa using hid⟩)
    have hid'' : found.project.id = id := by simpa using List.find?_some hfound
    obtain rfl : found = e := List.inj_on_of_nodup_map hw.ids (List.mem_of_find?_eq_some hfound) he
      (hid''.trans hid.symm)
    exact .inr ⟨e', found, rfl, hfound, hmatch⟩
  | none =>
    refine .inl ⟨rfl, List.find?_eq_none.mpr fun e he hid => ?_⟩
    have hin : e.project ∈ w'.projects.map (·.project) :=
      h.perm_projects.mem_iff.mpr (List.mem_map_of_mem he)
    obtain ⟨e', he', hproject⟩ := List.mem_map.mp hin
    exact List.find?_eq_none.mp hentry' e' he' (hproject ▸ hid)

/-- A project fails in both snapshots or has the same symbols. -/
theorem symbolsOf_eq (hw : w.Unambiguous) (project : Project) :
    (∃ e, w'.symbolsOf project = .error e ∧ w.symbolsOf project = .error e) ∨
      ∃ e' e, w'.symbolsOf project = .ok e'.symbols ∧ w.symbolsOf project = .ok e.symbols ∧
        e ∈ w.projects ∧ e.Rearranges e' := by
  by_cases hfail : project.id ∈ w.faults.failProjects
  · exact .inl ⟨_, symbolsOf_of_failing (h.faults ▸ hfail), symbolsOf_of_failing hfail⟩
  · have hfail' : project.id ∉ w'.faults.failProjects := h.faults ▸ hfail
    rcases h.find?_entry hw project.id with ⟨hnone', hnone⟩ | ⟨e', e, hsome', hsome, hmatch⟩
    · exact .inl ⟨_, symbolsOf_of_missing hfail' hnone', symbolsOf_of_missing hfail hnone⟩
    · exact .inr ⟨e', e, symbolsOf_of_entry hfail' hsome', symbolsOf_of_entry hfail hsome,
        List.mem_of_find?_eq_some hsome, hmatch⟩

/-- Both workspaces can be opened, or neither can for the same reason. -/
theorem openingFault?_eq {path : String} :
    w'.resolver.openingFault? path = w.resolver.openingFault? path := by
  rw [Resolver.openingFault?, Resolver.openingFault?]
  by_cases hfail : w.faults.failWorkspace = true
  · have hlisted : w.resolver.projects path = .error (.workspaceUnavailable path) := if_pos hfail
    have hlisted' : w'.resolver.projects path = .error (.workspaceUnavailable path) :=
      if_pos (h.faults ▸ hfail)
    rw [hlisted, hlisted']
  · have hlisted : w.resolver.projects path = .ok (w.projects.map (·.project)) := if_neg hfail
    have hlisted' : w'.resolver.projects path = .ok (w'.projects.map (·.project)) :=
      if_neg (h.faults ▸ hfail)
    have hlength := h.perm_projects.length_eq
    rw [hlisted, hlisted']
    generalize w'.projects.map (·.project) = l' at hlength
    generalize w.projects.map (·.project) = l at hlength
    cases l' with
    | nil => rw [List.length_eq_zero_iff.mp hlength.symm]
    | cons p' rest' =>
      cases l with
      | nil => cases hlength
      | cons p rest => rfl

end Rearranges

end Snapshot

/-! ## Workspaces that are alike -/

/-- The resolvers answer alike to what is asked at a node. -/
structure Resolver.SameLookups (r r' : Resolver) : Prop where
  references : r'.references = r.references
  implementations : r'.implementations = r.implementations
  derivedTypes : r'.derivedTypes = r.derivedTypes
  locate : r'.locate = r.locate

/-- So a collection takes the same course with both. -/
theorem Resolver.SameLookups.collect_eq {r r' : Resolver} (h : r.SameLookups r') :
    r'.collect = r.collect := by
  obtain ⟨hreferences, himplementations, hderivedTypes, hlocate⟩ := h
  cases r
  cases r'
  cases hreferences
  cases himplementations
  cases hderivedTypes
  cases hlocate
  rfl

namespace Snapshot

/-- The workspaces have the same projects, the same symbols of each in some order, and the same
look-ups, and the same tasks are to fail. -/
structure Alike (w w' : Snapshot) : Prop where
  distinct : w'.distinct = w.distinct
  compiled : ∀ project, (w'.compiled project).Perm (w.compiled project)
  lookups : ∀ {order order' : List Symbol → List Symbol}, (∀ l, (order l).Perm l) →
    (∀ l, (order' l).Perm l) → (w.resolverIn order).SameLookups (w'.resolverIn order')
  fault : w'.fault? = w.fault?
  planned : w'.planned = w.planned

/-- Declarations of one identity declare one symbol. -/
def Consistent (w : Snapshot) (config : Config) : Prop :=
  ∀ d d', w.Declares config d → w.Declares config d' → d.id = d'.id → d.symbol = d'.symbol

/-- Declarations of one identity belong to one project. -/
def Unshared (w : Snapshot) (config : Config) : Prop :=
  ∀ d d', w.Declares config d → w.Declares config d' → d.id = d'.id → d.project = d'.project

variable {w w' : Snapshot} {config : Config}

/-- The symbols of a project are declared. -/
theorem mem_symbols_of_compiled {project : Project} {s : Symbol} (h : s ∈ w.compiled project) :
    s ∈ w.symbols := by
  obtain ⟨symbols, hsymbols, hs⟩ := mem_compiled.mp h
  unfold symbolsOf at hsymbols
  split at hsymbols
  · cases hsymbols
  · split at hsymbols
    · rename_i e he
      cases hsymbols
      exact List.mem_flatMap.mpr ⟨e, List.mem_of_find?_eq_some he, hs⟩
    · cases hsymbols

theorem Unambiguous.consistent (hw : w.Unambiguous) : w.Consistent config := fun _ _ hd hd' hid =>
  hw.identities _ (mem_symbols_of_compiled hd.2.2) _ (mem_symbols_of_compiled hd'.2.2) hid

/-- Rearranged snapshots are alike. -/
theorem Rearranges.alike (h : w.Rearranges w') (hw : w.Unambiguous) : w.Alike w' := by
  have hids : ((w'.projects.map (·.project)).map (·.id)).Nodup :=
    ((h.perm_projects.map _).nodup_iff).mpr (by rw [List.map_map]; exact hw.ids)
  have hdistinct : w'.distinct = w.distinct := distinctProjects_of_perm h.perm_projects hids
  refine ⟨hdistinct, fun project => ?_, fun horder horder' => ?_, ?_, ?_⟩
  · rw [compiled, compiled]
    rcases h.symbolsOf_eq hw project with ⟨e, he', he⟩ | ⟨e', e, he', he, -, hmatch⟩
    · rw [he', he]
    · rw [he', he]
      exact hmatch.symbols
  · have hkey : w'.lookupKey = w.lookupKey := by
      funext s
      rw [lookupKey, lookupKey, h.faults]
    refine ⟨?_, ?_, ?_, ?_⟩
    all_goals
      simp only [resolverIn, resolver, hkey, h.references, h.implementations, h.derivedTypes,
        h.declared_eq hw, hw.innermost?_eq horder horder']
  · funext config path
    rw [fault?, fault?, h.openingFault?_eq]
  · have hfailing : w'.failingProjects = w.failingProjects := by
      rw [failingProjects, failingProjects, ← map_id_distinct, ← map_id_distinct, hdistinct,
        h.faults]
    funext ids
    rw [planned, planned, hfailing, h.faults]

namespace Alike

variable (h : w.Alike w')
include h

theorem symm : w'.Alike w where
  distinct := h.distinct.symm
  compiled project := (h.compiled project).symm
  lookups horder horder' :=
    have hlookups := h.lookups horder' horder
    ⟨hlookups.references.symm, hlookups.implementations.symm, hlookups.derivedTypes.symm,
      hlookups.locate.symm⟩
  fault := h.fault.symm
  planned := h.planned.symm

/-- The same symbols are declared by the same projects. -/
theorem declares_iff (d : Declaration) : w'.Declares config d ↔ w.Declares config d := by
  rw [Declares, Declares, h.distinct, (h.compiled d.project).mem_iff]

end Alike

end Snapshot

/-! ## What is found -/

/-- Maps with the same keys are equal if they agree on each of them. -/
theorem SortedMap.eq_of_contains_iff {κ : Type} [Ord κ] [Std.TransOrd κ] [Std.LawfulEqOrd κ]
    [DecidableEq κ] {α : Type} {m m' : SortedMap κ α}
    (hkeys : ∀ k, m'.contains k = true ↔ m.contains k = true)
    (hvalues : ∀ {k v v'}, m.get? k = some v → m'.get? k = some v' → v' = v) : m' = m := by
  refine ext_get? fun k => ?_
  cases hm : m.get? k with
  | none =>
    cases hm' : m'.get? k with
    | none => rfl
    | some v' =>
      obtain ⟨v, hv⟩ := contains_iff.mp ((hkeys k).mp (contains_of_get? hm'))
      rw [hm] at hv
      cases hv
  | some v =>
    obtain ⟨v', hv'⟩ := contains_iff.mp ((hkeys k).mpr (contains_of_get? hm))
    rw [hv', hvalues hm hv']

namespace Catalogue.MadeFrom

variable {c c' : Catalogue} {l l' : List Declaration}

/-- Up to owners, catalogues are the same if they are made from the same declarations, of which
those of one identity declare one symbol. -/
theorem unowned_eq (hc : c.MadeFrom l) (hc' : c'.MadeFrom l') (hl : ∀ d, d ∈ l' ↔ d ∈ l)
    (hsymbol : ∀ d ∈ l, ∀ d' ∈ l, d.id = d'.id → d.symbol = d'.symbol) :
    c'.unowned = c.unowned := by
  have hregistry : c'.registry = c.registry := by
    refine SortedMap.eq_of_contains_iff (fun id => ?_) fun {id s s'} hs hs' => ?_
    · rw [hc'.contains_registry, hc.contains_registry]
      exact exists_congr fun d => and_congr_left fun _ => hl d
    · obtain ⟨d, hd, hid, rfl⟩ := hc.held hs
      obtain ⟨d', hd', hid', rfl⟩ := hc'.held hs'
      exact hsymbol d' ((hl d').mp hd') d hd (hid'.trans hid.symm)
  have hnodes : (c'.nodes.mapValues fun _ n => n.unowned) =
      c.nodes.mapValues fun _ n => n.unowned := by
    refine SortedMap.eq_of_contains_iff (fun id => ?_) fun {id n n'} hn hn' => ?_
    · rw [SortedMap.contains_mapValues, SortedMap.contains_mapValues, hc'.contains_nodes,
        hc.contains_nodes]
      exact exists_congr fun d => and_congr_left fun _ => hl d
    · rw [SortedMap.get?_mapValues, Option.map_eq_some_iff] at hn hn'
      obtain ⟨_, hn, rfl⟩ := hn
      obtain ⟨_, hn', rfl⟩ := hn'
      obtain ⟨d, hd, hid, rfl⟩ := hc.built hn
      obtain ⟨d', hd', hid', rfl⟩ := hc'.built hn'
      rw [Declaration.node, Declaration.node,
        hsymbol d' ((hl d').mp hd') d hd (hid'.trans hid.symm)]
      rfl
  exact congrArg₂ Catalogue.mk hregistry hnodes

end Catalogue.MadeFrom

namespace Snapshot

variable {w w' : Snapshot} {order order' : List Symbol → List Symbol} {config : Config}
  {schedule schedule' : Schedule} {path : String}

/-- The resolver of a snapshot compares declarations in the order of their identities. -/
theorem analysisIn_id : w.analysisIn id config schedule = w.analysis config schedule := rfl

/-- The relationships that are found are stored at the nodes of the catalogue. -/
theorem relationships_found : (w.found order config schedule).relationships =
    (w.analysisIn order config schedule).relationshipsFor (w.catalogue config schedule) :=
  congrArg (w.analysisIn order config schedule).relationshipsFor catalogueOf_analysisIn

/-- A relationship is found if it is put forward at some node and leads to another node. -/
theorem contains_relationships_found {k : RelationshipKey} :
    (w.found order config schedule).relationships.contains k = true ↔
      ∃ id, (w.catalogue config schedule).nodes.contains id = true ∧
        ∃ r ∈ ((w.analysisIn order config schedule).relationshipsOf
          (w.catalogue config schedule) id).offers, RelationshipStore.Fits k r := by
  rw [relationships_found, Analysis.relationshipsFor, RelationshipStore.contains_addAll]
  simp only [Analysis.mem_offers_collectionActions]
  constructor
  · rintro (h | ⟨r, ⟨id, hid, hr⟩, hfits⟩)
    · cases h
    · exact ⟨id, hid, r, hr, hfits⟩
  · rintro ⟨id, hid, r, hr, hfits⟩
    exact .inr ⟨r, ⟨id, hid, hr⟩, hfits⟩

/-- What a graph says whatever owners and places are comes from what is found without them. -/
theorem unplaced_content_found :
    (Graph.assemble config path (w.found order config schedule)).unplaced.content =
      (Graph.assemble config path (w.found order config schedule).unowned.unplaced).content := by
  have hid : ∀ {id n}, (w.found order config schedule).unplaced.nodes.get? id = some n →
      n.id = id := fun hn => id_of_found hn
  rw [← Graph.assemble_unplaced, ← Graph.content_assemble_unowned hid]
  rfl

namespace Alike

variable (h : w.Alike w') (hconsistent : w.Consistent config)
include h hconsistent

/-- Up to owners the same catalogue is made. -/
theorem unowned_catalogue :
    (w'.catalogue config schedule').unowned = (w.catalogue config schedule).unowned := by
  refine madeFrom_catalogue.unowned_eq madeFrom_catalogue (fun d => ?_) fun d hd d' hd' => ?_
  · rw [mem_declarations, mem_declarations, h.declares_iff]
  · exact hconsistent d d' (mem_declarations.mp hd) (mem_declarations.mp hd')

/-- So there are nodes of the same ids, -/
theorem keyList_catalogue : (w'.catalogue config schedule').nodes.keyList =
    (w.catalogue config schedule).nodes.keyList := by
  have hunowned : (w'.catalogue config schedule').unowned = (w.catalogue config schedule).unowned :=
    h.unowned_catalogue hconsistent
  have hkeys := congrArg (fun c : Catalogue => c.nodes.keyList) hunowned
  change (SortedMap.mapValues _ _).keyList = (SortedMap.mapValues _ _).keyList at hkeys
  rwa [SortedMap.keyList_mapValues, SortedMap.keyList_mapValues] at hkeys

/-- the same nodes up to owners, -/
theorem unowned_nodes :
    ((w'.found order' config schedule').nodes.mapValues fun _ n => n.unowned) =
      (w.found order config schedule).nodes.mapValues fun _ n => n.unowned := by
  rw [nodes_found, nodes_found]
  exact congrArg Catalogue.nodes (h.unowned_catalogue hconsistent)

/-- the same failures, -/
theorem failures_eq : (w'.found order' config schedule').failures =
    (w.found order config schedule).failures := by
  rw [failures_found, failures_found, h.planned, nodes_found, nodes_found,
    h.keyList_catalogue hconsistent]

variable (horder : ∀ l, (order l).Perm l) (horder' : ∀ l, (order' l).Perm l)
include horder horder'

/-- and tasks of nodes that do the same. -/
theorem relationshipsOf_eq :
    (w'.analysisIn order' config schedule').relationshipsOf (w'.catalogue config schedule') =
      (w.analysisIn order config schedule).relationshipsOf (w.catalogue config schedule) := by
  have hcollect : (w'.analysisIn order' config schedule').resolver.collect =
      (w.analysisIn order config schedule).resolver.collect :=
    (h.lookups horder horder').collect_eq
  funext id
  rw [← Analysis.relationshipsOf_unowned, h.unowned_catalogue hconsistent,
    ← Analysis.relationshipsOf_unowned (c := w.catalogue config schedule),
    Analysis.relationshipsOf, Analysis.relationshipsOf, hcollect]

/-- If the tasks take turns in the same order, the same is found up to owners. -/
theorem unowned_found (hinterleave : schedule'.interleave = schedule.interleave) :
    (w'.found order' config schedule').unowned = (w.found order config schedule).unowned := by
  have hrelationships : (w'.found order' config schedule').relationships =
      (w.found order config schedule).relationships := by
    have hactions : (w'.analysisIn order' config schedule').collectionActions
        (w'.catalogue config schedule') = (w.analysisIn order config schedule).collectionActions
          (w.catalogue config schedule) := by
      rw [Analysis.collectionActions, Analysis.collectionActions,
        h.relationshipsOf_eq hconsistent horder horder', h.keyList_catalogue hconsistent]
      exact congrFun hinterleave _
    rw [relationships_found, relationships_found, Analysis.relationshipsFor,
      Analysis.relationshipsFor, hactions]
  simp only [Findings.unowned, Findings.mk.injEq, projects_found, h.distinct, hrelationships,
    true_and]
  exact ⟨h.unowned_nodes hconsistent, h.failures_eq hconsistent⟩

/-- In any case the same is found up to owners and places. -/
theorem unplaced_found : (w'.found order' config schedule').unowned.unplaced =
    (w.found order config schedule).unowned.unplaced := by
  have hnodes : ∀ id, (w'.catalogue config schedule').nodes.contains id = true ↔
      (w.catalogue config schedule).nodes.contains id = true := fun id => by
    rw [← SortedMap.mem_keyList, h.keyList_catalogue hconsistent, SortedMap.mem_keyList]
  have hrelationships :
      ((w'.found order' config schedule').relationships.mapValues fun _ r => r.bare) =
        (w.found order config schedule).relationships.mapValues fun _ r => r.bare := by
    refine SortedMap.eq_of_contains_iff (fun k => ?_) fun {k r r'} hr hr' => ?_
    · rw [SortedMap.contains_mapValues, SortedMap.contains_mapValues, contains_relationships_found,
        contains_relationships_found, h.relationshipsOf_eq hconsistent horder horder']
      exact exists_congr fun id => and_congr_left fun _ => hnodes id
    · rw [SortedMap.get?_mapValues, Option.map_eq_some_iff] at hr hr'
      obtain ⟨r, hr, rfl⟩ := hr
      obtain ⟨r', hr', rfl⟩ := hr'
      exact Relationship.bare_congr ((sound_found.key_eq hr').trans (sound_found.key_eq hr).symm)
  simp only [Findings.unplaced, Findings.unowned, Findings.mk.injEq, projects_found, h.distinct,
    hrelationships, true_and]
  exact ⟨h.unowned_nodes hconsistent, h.failures_eq hconsistent⟩

/-- So graphs agree up to owners and places, -/
theorem run_unplaced_content :
    ((w'.analysisIn order' config schedule').run path).map (·.unplaced.content) =
      ((w.analysisIn order config schedule).run path).map (·.unplaced.content) := by
  refine map_run_congr (congrFun₂ h.fault config path) ?_
  rw [unplaced_content_found, unplaced_content_found, h.unplaced_found hconsistent horder horder']

/-- and up to owners if the tasks take turns in the same order. -/
theorem run_content (hinterleave : schedule'.interleave = schedule.interleave) :
    ((w'.analysisIn order' config schedule').run path).map Graph.content =
      ((w.analysisIn order config schedule).run path).map Graph.content := by
  refine map_run_congr (congrFun₂ h.fault config path) ?_
  rw [← Graph.content_assemble_unowned id_of_found, ← Graph.content_assemble_unowned id_of_found,
    h.unowned_found hconsistent horder horder' hinterleave]

/-- If moreover the same nodes are found, the graphs are the same, -/
theorem run_eq_of_nodes (hinterleave : schedule'.interleave = schedule.interleave)
    (hnodes : (w'.found order' config schedule').nodes = (w.found order config schedule).nodes) :
    (w'.analysisIn order' config schedule').run path =
      (w.analysisIn order config schedule).run path := by
  rw [run_analysisIn, run_analysisIn, h.fault, Findings.eq_of_unowned
    (h.unowned_found hconsistent horder horder' hinterleave) hnodes]

/-- and up to places they are in any case. -/
theorem run_unplaced_of_nodes
    (hnodes : (w'.found order' config schedule').nodes = (w.found order config schedule).nodes) :
    ((w'.analysisIn order' config schedule').run path).map Graph.unplaced =
      ((w.analysisIn order config schedule).run path).map Graph.unplaced := by
  have hfound : (w'.found order' config schedule').unplaced =
      (w.found order config schedule).unplaced :=
    Findings.eq_of_unowned (h.unplaced_found hconsistent horder horder') hnodes
  refine map_run_congr (congrFun₂ h.fault config path) ?_
  rw [← Graph.assemble_unplaced, ← Graph.assemble_unplaced, hfound]

omit horder horder' in
/-- The same nodes are found if none of them might have several owners. -/
theorem nodes_eq_of_unshared (hunshared : w.Unshared config) :
    (w'.found order' config schedule').nodes = (w.found order config schedule).nodes := by
  refine SortedMap.eq_of_contains_iff (fun id => ?_) fun {id n n'} hn hn' => ?_
  · rw [contains_found, contains_found]
    exact exists_congr fun d => and_congr_left fun _ => h.declares_iff d
  · obtain ⟨d, hd, hid, rfl⟩ := built_of_found hn
    obtain ⟨d', hd', hid', rfl⟩ := built_of_found hn'
    have hd' := (h.declares_iff d').mp hd'
    have hsame : d'.id = d.id := hid'.trans hid.symm
    rw [Declaration.node, Declaration.node, hconsistent d' d hd' hd hsame,
      hunshared d' d hd' hd hsame]

omit horder horder' in
/-- What an analysis of one workspace may give, one of the other may give as well: some schedule
brings the declarations in the same order. -/
theorem outcomes_subset : w.outcomes config path ⊆ w'.outcomes config path := by
  rintro _ ⟨order, schedule, horder, rfl⟩
  have hperm : w.declarations.flatten.Perm w'.declarations.flatten := by
    rw [declarations, declarations, h.distinct, ← List.flatMap_def, ← List.flatMap_def]
    exact List.Perm.flatMap_left _ fun project _ => (h.compiled project).symm.map _
  obtain ⟨schedule', hinterleave, hturns⟩ := schedule.exists_rearranged hperm
  refine ⟨order, schedule', horder,
    h.run_eq_of_nodes hconsistent horder horder hinterleave ?_⟩
  rw [nodes_found, nodes_found, catalogue, hturns]
  rfl

end Alike

/-- The order in which a snapshot lists its projects and their symbols makes no difference to what
an analysis may give, be it a graph or an error, as long as ids, identities and places tell apart
what is listed. Any two results are the same up to the owners of nodes and the places of
relationships, and each node belongs to a project that declares its symbol. If the tasks take turns
in the same order, the places are the same as well. If no two projects declare symbols of one
identity, so are the owners. -/
theorem outcomes_of_rearranges (w w' : Snapshot) (hw : w.Unambiguous) (h : w.Rearranges w')
    (config : Config) (path : String) :
    w'.outcomes config path = w.outcomes config path ∧
    (∀ r ∈ w.outcomes config path, ∀ r' ∈ w'.outcomes config path,
      r'.map (·.unplaced.content) = r.map (·.unplaced.content) ∧
      (w.Unshared config → r'.map Graph.unplaced = r.map Graph.unplaced)) ∧
    (∀ g, .ok g ∈ w'.outcomes config path → ∀ id n, g.nodes.get? id = some n →
      ∃ d, w.Declares config d ∧ d.id = id ∧ n = d.node.classify.inFeature n.featureBoundary) ∧
    ∀ order order' schedule schedule', (∀ l, (order l).Perm l) → (∀ l, (order' l).Perm l) →
      schedule'.interleave = schedule.interleave →
      ((w'.analysisIn order' config schedule').run path).map Graph.content =
        ((w.analysisIn order config schedule).run path).map Graph.content ∧
      (w.Unshared config → (w'.analysisIn order' config schedule').run path =
        (w.analysisIn order config schedule).run path) := by
  have halike : w.Alike w' := h.alike hw
  have hconsistent : w.Consistent config := hw.consistent
  have hconsistent' : w'.Consistent config := fun d d' hd hd' =>
    hconsistent d d' ((halike.declares_iff d).mp hd) ((halike.declares_iff d').mp hd')
  refine ⟨?_, ?_, fun g hg id n hn => ?_, ?_⟩
  · exact Set.Subset.antisymm (halike.symm.outcomes_subset hconsistent')
      (halike.outcomes_subset hconsistent)
  · rintro _ ⟨order, schedule, horder, rfl⟩ _ ⟨order', schedule', horder', rfl⟩
    refine ⟨halike.run_unplaced_content hconsistent horder horder', fun hunshared => ?_⟩
    exact halike.run_unplaced_of_nodes hconsistent horder horder'
      (halike.nodes_eq_of_unshared hconsistent hunshared)
  · obtain ⟨order, schedule, -, rfl⟩ := ok_mem_outcomes hg
    rw [Graph.get?_nodes_assemble id_of_found, Option.map_eq_some_iff] at hn
    obtain ⟨n', hn', rfl⟩ := hn
    obtain ⟨d, hd, hid, rfl⟩ := built_of_found hn'
    exact ⟨d, (halike.declares_iff d).mp hd, hid, (Node.inFeature_featureBoundary _ _).symm⟩
  · intro order order' schedule schedule' horder horder' hinterleave
    refine ⟨halike.run_content hconsistent horder horder' hinterleave, fun hunshared => ?_⟩
    exact halike.run_eq_of_nodes hconsistent horder horder' hinterleave
      (halike.nodes_eq_of_unshared hconsistent hunshared)

/-- Two projects that share a class, and the place of a reference that lies in a method of it. -/
theorem outcomes_of_rearranges_shared_class :
    let order := { Symbol.typeIn "Shop" "Shop" "Order" .classType with
      location := some (.lines "order.cs" 1 9) }
    let submit := { order.memberOf .method "Submit" with location := some (.lines "order.cs" 3 5) }
    let core := Project.named "core" "Core"
    let web := Project.named "web" "Web"
    let site : ReferenceSite := ⟨.lines "order.cs" 4 4, none, .unknown⟩
    let w := ((Snapshot.empty.withProject core [order, submit]).withProject web
      [order]).withReference order site
    let w' := ((Snapshot.empty.withProject web [order]).withProject core
      [submit, order]).withReference order site
    ∃ g g', (w.analysis (.standard 4) {}).run "/work" = .ok g ∧
      (w'.analysisIn List.reverse (.standard 4) {}).run "/work" = .ok g' ∧
      g'.content = g.content ∧ .ok g' ∈ w.outcomes (.standard 4) "/work" := by
  intro order submit core web site w w'
  have hw : w.Unambiguous := ⟨by decide +kernel, by decide +kernel, by decide +kernel⟩
  have hprojects : List.Forall₂ ProjectEntry.Rearranges
      [⟨web, [order]⟩, ⟨core, [order, submit]⟩] w'.projects :=
    .cons ⟨rfl, .refl _⟩ (.cons ⟨rfl, .swap _ _ _⟩ .nil)
  have h : w.Rearranges w' := ⟨⟨_, .swap _ _ _, hprojects⟩, rfl, rfl, rfl, rfl⟩
  obtain ⟨g, hg⟩ : ∃ g, (w.analysis (.standard 4) {}).run "/work" = .ok g :=
    Analysis.exists_run (a := w.analysis (.standard 4) {}) (by decide +kernel) (by decide +kernel)
  obtain ⟨g', hg'⟩ : ∃ g', (w'.analysisIn List.reverse (.standard 4) {}).run "/work" = .ok g' :=
    Analysis.exists_run (a := w'.analysisIn List.reverse (.standard 4) {}) (by decide +kernel)
      (by decide +kernel)
  obtain ⟨houtcomes, -, -, hcontent⟩ := outcomes_of_rearranges w w' hw h (.standard 4) "/work"
  have hsame := (hcontent id List.reverse {} {} (fun l => .refl l) List.reverse_perm rfl).1
  have hg : (w.analysisIn id (.standard 4) {}).run "/work" = .ok g := hg
  rw [hg, hg'] at hsame
  exact ⟨g, g', hg, hg', Except.ok.inj hsame,
    houtcomes ▸ ⟨List.reverse, {}, List.reverse_perm, hg'⟩⟩

/-- On a single thread with one worker a class that two projects share goes to the second of them,
unless the first one lists it before other classes. -/
theorem run_singleThreaded_of_rearranged :
    let cart := Symbol.typeIn "Shop" "Shop" "Cart" .classType
    let item := Symbol.typeIn "Shop" "Shop" "Item" .classType
    let order := Symbol.typeIn "Shop" "Shop" "Order" .classType
    let core := Project.named "core" "Core"
    let web := Project.named "web" "Web"
    let w := (Snapshot.empty.withProject core [cart, item, order]).withProject web [order]
    let w' := (Snapshot.empty.withProject core [order, cart, item]).withProject web [order]
    let config := Config.standard 1
    w.Unambiguous ∧ w.Rearranges w' ∧
      ∃ g g', (w.analysis config config.singleThreaded).run "/work" = .ok g ∧
        (w'.analysis config config.singleThreaded).run "/work" = .ok g' ∧
        (g.nodes.get? order.identity).map (·.projectId) = some web.id ∧
        (g'.nodes.get? order.identity).map (·.projectId) = some core.id := by
  intro cart item order core web w w' config
  have hrun : ∀ w : Snapshot, w.fault? config "/work" = none →
      ∃ g, (w.analysis config config.singleThreaded).run "/work" = .ok g ∧
        (g.nodes.get? order.identity).map (·.projectId) =
          ((w.found id config config.singleThreaded).nodes.get? order.identity).map
            (·.projectId) := by
    intro w hfault
    refine ⟨_, by rw [← analysisIn_id, run_analysisIn, hfault], ?_⟩
    rw [Graph.get?_nodes_assemble id_of_found, Option.map_map]
    simp only [Function.comp_def, Node.inFeature_projectId, Node.classify_projectId]
  have hw : w.Unambiguous := ⟨by decide +kernel, by decide +kernel, by decide +kernel⟩
  have hprojects : List.Forall₂ ProjectEntry.Rearranges w.projects w'.projects :=
    .cons ⟨rfl, by decide +kernel⟩ (.cons ⟨rfl, .refl _⟩ .nil)
  obtain ⟨g, hg, howner⟩ := hrun w (by decide +kernel)
  obtain ⟨g', hg', howner'⟩ := hrun w' (by decide +kernel)
  exact ⟨hw, ⟨⟨_, .refl _, hprojects⟩, rfl, rfl, rfl, rfl⟩, g, g', hg, hg',
    howner.trans (by decide +kernel), howner'.trans (by decide +kernel)⟩

end Snapshot

end CodeAtlas
