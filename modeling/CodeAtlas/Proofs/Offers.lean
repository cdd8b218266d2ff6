import CodeAtlas.Proofs.Collection
import CodeAtlas.Proofs.Evidence

/-!
# What is put forward at a node of a recorded workspace

The answers of a recorded workspace are known, so one can say which relationships are put forward at
a node, and in which order: `Snapshot.offersAt` lists them. If look-ups for the node are to fail,
there are only those of its declaration, and the task of the node ends with an error.
`Snapshot.offers_relationshipsOf` and `Snapshot.ending_relationshipsOf` say so.

Each part of a collection that does not fail yields a list of relationships (`Script.Yields`), and
parts in a row yield one list after the other.
-/

namespace CodeAtlas

/-! ## Look-ups in a recorded workspace -/

namespace Snapshot

variable {w : Snapshot} {s : Symbol} {id : String}

/-- A look-up fails exactly if the fault plan names the symbol. -/
theorem lookupKey_of_mem (h : s.identity ∈ w.faults.failLookups) : w.lookupKey s =
    .error (.lookupFailed s.identity "lookup fault injected") := if_pos h

theorem lookupKey_of_not_mem (h : s.identity ∉ w.faults.failLookups) :
    w.lookupKey s = .ok s.identity := if_neg h

theorem references_resolver (h : s.identity ∉ w.faults.failLookups) :
    w.resolver.references s = .ok ((w.references.get? s.identity).getD []) := by
  change (w.lookupKey s >>= fun key => .ok ((w.references.get? key).getD [])) = _
  rw [lookupKey_of_not_mem h]
  rfl

theorem implementations_resolver (h : s.identity ∉ w.faults.failLookups) :
    w.resolver.implementations s =
      .ok (resolveAll w.declared (w.implementations.get? s.identity)) := by
  change (w.lookupKey s >>= fun key => .ok (resolveAll w.declared (w.implementations.get? key))) = _
  rw [lookupKey_of_not_mem h]
  rfl

theorem derivedTypes_resolver (h : s.identity ∉ w.faults.failLookups) :
    w.resolver.derivedTypes s =
      .ok (resolveAll w.declared (w.derivedTypes.get? s.identity)) := by
  change (w.lookupKey s >>= fun key => .ok (resolveAll w.declared (w.derivedTypes.get? key))) = _
  rw [lookupKey_of_not_mem h]
  rfl

theorem references_resolver_of_mem (h : s.identity ∈ w.faults.failLookups) :
    w.resolver.references s =
      .error (.lookupFailed s.identity "lookup fault injected") := by
  change (w.lookupKey s >>= fun key => .ok ((w.references.get? key).getD [])) = _
  rw [lookupKey_of_mem h]
  rfl

theorem implementations_resolver_of_mem (h : s.identity ∈ w.faults.failLookups) :
    w.resolver.implementations s =
      .error (.lookupFailed s.identity "lookup fault injected") := by
  change (w.lookupKey s >>= fun key => .ok (resolveAll w.declared (w.implementations.get? key))) = _
  rw [lookupKey_of_mem h]
  rfl

theorem derivedTypes_resolver_of_mem (h : s.identity ∈ w.faults.failLookups) :
    w.resolver.derivedTypes s =
      .error (.lookupFailed s.identity "lookup fault injected") := by
  change (w.lookupKey s >>= fun key => .ok (resolveAll w.declared (w.derivedTypes.get? key))) = _
  rw [lookupKey_of_mem h]
  rfl

/-- A declared symbol stands under its identity. -/
theorem identity_of_declared (h : w.declared.get? id = some s) : s.identity = id := by
  have hmem := SortedMap.mem_of_get?_ofList h
  obtain ⟨s', -, heq⟩ := List.mem_map.mp hmem
  cases heq
  rfl

/-- A project that is to fail has no symbols to tell. -/
theorem symbolsOf_of_failing {project : Project} (h : project.id ∈ w.faults.failProjects) :
    w.symbolsOf project =
      .error (.projectFailed project.id "compilation fault injected") := if_pos h

/-- Any other one has those of its entry, -/
theorem symbolsOf_of_entry {project : Project} {e : ProjectEntry}
    (h : project.id ∉ w.faults.failProjects)
    (hentry : w.projects.find? (·.project.id == project.id) = some e) :
    w.symbolsOf project = .ok e.symbols := by
  rw [symbolsOf, if_neg h, hentry]

/-- and fails without an entry. -/
theorem symbolsOf_of_missing {project : Project} (h : project.id ∉ w.faults.failProjects)
    (hentry : w.projects.find? (·.project.id == project.id) = none) :
    w.symbolsOf project = .error (.projectFailed project.id "not in snapshot") := by
  rw [symbolsOf, if_neg h, hentry]

/-- The symbols of a project are declared. -/
theorem declared_of_symbolsOf {project : Project} {symbols : List Symbol}
    (h : w.symbolsOf project = .ok symbols) (hs : s ∈ symbols) :
    w.declared.contains s.identity = true := by
  unfold symbolsOf at h
  split at h
  · cases h
  · split at h
    · rename_i entry hentry
      cases h
      refine SortedMap.contains_ofList.mpr ?_
      rw [List.map_map]
      have hin : s ∈ w.projects.flatMap (·.symbols) :=
        List.mem_flatMap.mpr ⟨entry, List.mem_of_find?_eq_some hentry, hs⟩
      exact List.mem_map_of_mem (f := Symbol.identity) hin
    · cases h

/-- The look-up of a list of identities gives the declared ones. -/
theorem mem_resolveAll {declared : SortedMap String Symbol} {ids : Option (List String)} :
    s ∈ resolveAll declared ids ↔ ∃ l, ids = some l ∧ ∃ o ∈ l, declared.get? o = some s := by
  rw [resolveAll, List.mem_filterMap]
  cases ids with
  | none => exact ⟨fun ⟨_, h, _⟩ => absurd h List.not_mem_nil, fun ⟨_, h, _⟩ => nomatch h⟩
  | some l =>
    refine ⟨fun ⟨o, ho, h⟩ => ⟨l, rfl, o, ho, h⟩, ?_⟩
    rintro ⟨_, ⟨⟩, o, ho, h⟩
    exact ⟨o, ho, h⟩

end Snapshot

/-! ## Tasks that do not fail -/

namespace Script

variable {α β : Type} {x : Script α} {f : α → Script β} {a : α} {b : β} {l m : List Relationship}

/-- The task ends with an answer, and has put the relationships of a list forward. -/
structure Yields (x : Script α) (a : α) (l : List Relationship) : Prop where
  ending : x.ending = .ok a
  offers : x.offers = l

namespace Yields

/-- A task that does nothing puts nothing forward. -/
protected theorem pure : (pure a : Script α).Yields a [] := ⟨rfl, rfl⟩

protected theorem store {r : Relationship} : (store r).Yields () [r] := ⟨rfl, rfl⟩

/-- A question that is answered puts nothing forward. -/
protected theorem ask {q : Query} : (ask q (.ok a)).Yields a [] := ⟨rfl, rfl⟩

/-- Two parts in a row yield one list after the other. -/
protected theorem bind (hx : x.Yields a l) (hf : (f a).Yields b m) :
    (x >>= f).Yields b (l ++ m) :=
  ⟨(ending_bind_ok hx.ending).trans hf.ending,
    by rw [offers_bind_ok hx.ending, hx.offers, hf.offers]⟩

/-- What is done with the answer to a question is all that is put forward. -/
protected theorem ask_bind {q : Query} (hf : (f a).Yields b m) :
    (Script.ask q (.ok a) >>= f).Yields b m := Yields.ask.bind hf

/-- Tasks that each yield one relationship at most yield all of them in a row. -/
protected theorem each {task : α → Script Unit} {f : α → Option Relationship} {l : List α}
    (h : ∀ x, (task x).Yields () (f x).toList) : (each task l).Yields () (l.filterMap f) := by
  induction l with
  | nil => exact .pure
  | cons x rest ih =>
    have hlist : (x :: rest).filterMap f = (f x).toList ++ rest.filterMap f := by
      rw [List.filterMap_cons]
      cases f x <;> rfl
    rw [hlist]
    exact (h x).bind ih

end Yields

end Script

/-! ## What is put forward at a node -/

section Offered

variable (c : Catalogue) (node : Node)

/-- The relationship to what a declaration mentions, if that is catalogued. -/
def structuralOffer? (target : TypeRef × RelationKind) : Option Relationship :=
  (c.nodes.get? target.1.identity).map fun _ =>
    { sourceId := node.id, targetId := target.1.identity, kind := target.2
      location := node.location }

/-- The relationship from another symbol, if that is catalogued. -/
def sourceOffer? (kind : RelationKind) (source : Symbol) : Option Relationship :=
  (c.nodes.get? source.identity).map fun other =>
    { sourceId := source.identity, targetId := node.id, kind, location := other.location }

namespace Snapshot

variable (w : Snapshot) (order : List Symbol → List Symbol) (s : Symbol)

/-- The relationship from what holds a referring place, if that is catalogued. -/
def referenceOffer? (site : ReferenceSite) : Option Relationship :=
  (w.enclosing? order site).bind fun source => (c.nodes.get? source.identity).map fun _ =>
    { sourceId := source.identity, targetId := node.id, kind := site.context.relationKind
      location := some site.location }

/-- The relationships from the places that refer to a node. -/
def referenceOffers : List Relationship :=
  ((w.references.get? s.identity).getD []).filterMap (w.referenceOffer? c node order)

/-- The relationships from what implements a node. -/
def implementationOffers : List Relationship :=
  match s.implementationKind? with
  | none => []
  | some kind => (resolveAll w.declared (w.implementations.get? s.identity)).filterMap
      (sourceOffer? c node kind)

/-- The relationships from the types derived from a node. -/
def derivedTypeOffers : List Relationship :=
  if s.isClass then (resolveAll w.declared (w.derivedTypes.get? s.identity)).filterMap
    (sourceOffer? c node .inheritance)
  else []

/-- The relationships for which the resolver is asked, if it answers. -/
def resolvedOffers : List Relationship :=
  if s.identity ∈ w.faults.failLookups then []
  else w.referenceOffers c node order s ++
    (w.implementationOffers c node s ++ w.derivedTypeOffers c node s)

/-- The relationships that are put forward at a node with the symbol `s`, in their order. -/
def offers : List Relationship :=
  s.structuralTargets.filterMap (structuralOffer? c node) ++ w.resolvedOffers c node order s

/-- The relationships that are put forward at the node with an id. -/
def offersAt (id : String) : List Relationship :=
  match c.nodes.get? id, c.registry.get? id with
  | some node, some s => w.offers c node order s
  | _, _ => []

/-- The error with which a look-up for the symbol with an identity is to fail. -/
def lookupFault (identity : String) : ResolverError :=
  .lookupFailed identity "lookup fault injected"

end Snapshot

end Offered

/-! ## Collecting at one node -/

namespace Snapshot

open Script (Yields)

variable {w : Snapshot} {order : List Symbol → List Symbol} {config : Config} {schedule : Schedule}
  {c : Catalogue} {node : Node} {s : Symbol}

theorem yields_storeStructural {target : TypeRef × RelationKind} :
    (Resolver.storeStructural c node target).Yields () (structuralOffer? c node target).toList := by
  unfold Resolver.storeStructural structuralOffer?
  cases c.nodes.get? target.1.identity with
  | none => exact .pure
  | some _ => exact .store

theorem yields_storeFrom {kind : RelationKind} {source : Symbol} :
    (Resolver.storeFrom c node kind source).Yields () (sourceOffer? c node kind source).toList := by
  unfold Resolver.storeFrom sourceOffer?
  cases c.nodes.get? source.identity with
  | none => exact .pure
  | some other => exact .store

/-- The symbol that holds a referring place is found without fail. -/
theorem yields_enclosing? {site : ReferenceSite} :
    ((w.resolverIn order).enclosing? site).Yields (w.enclosing? order site) [] := by
  unfold Resolver.enclosing? enclosing?
  cases site.enclosing with
  | some source => exact .pure
  | none => exact .ask

theorem yields_storeReference {site : ReferenceSite} :
    ((w.resolverIn order).storeReference c node site).Yields ()
      (w.referenceOffer? c node order site).toList := by
  refine yields_enclosing?.bind ?_
  unfold referenceOffer?
  cases w.enclosing? order site with
  | none => exact .pure
  | some source =>
    dsimp only [Option.bind_some]
    cases c.nodes.get? source.identity with
    | none => exact .pure
    | some _ => exact .store

/-- What the declaration of a node mentions is put forward first. -/
theorem yields_collectStructural : (Resolver.collectStructural c node s).Yields ()
    (s.structuralTargets.filterMap (structuralOffer? c node)) :=
  .each fun _ => yields_storeStructural

section

variable (hlookup : s.identity ∉ w.faults.failLookups)
include hlookup

theorem yields_collectReferences : ((w.resolverIn order).collectReferences c node s).Yields ()
    (w.referenceOffers c node order s) := by
  have hanswer : (w.resolverIn order).references s = _ := references_resolver hlookup
  rw [Resolver.collectReferences, hanswer]
  exact .ask_bind (.each fun _ => yields_storeReference)

theorem yields_collectImplementations :
    ((w.resolverIn order).collectImplementations c node s).Yields ()
      (w.implementationOffers c node s) := by
  have hanswer : (w.resolverIn order).implementations s = _ := implementations_resolver hlookup
  rw [Resolver.collectImplementations, hanswer]
  unfold implementationOffers
  cases s.implementationKind? with
  | none => exact .pure
  | some kind => exact .ask_bind (.each fun _ => yields_storeFrom)

theorem yields_collectDerivedTypes : ((w.resolverIn order).collectDerivedTypes c node s).Yields ()
    (w.derivedTypeOffers c node s) := by
  have hanswer : (w.resolverIn order).derivedTypes s = _ := derivedTypes_resolver hlookup
  rw [Resolver.collectDerivedTypes, hanswer]
  unfold derivedTypeOffers
  cases s.isClass with
  | false => exact .pure
  | true => exact .ask_bind (.each fun _ => yields_storeFrom)

/-- Unless look-ups for a node are to fail, all is put forward. -/
theorem yields_collect :
    ((w.resolverIn order).collect c node s).Yields () (w.offers c node order s) := by
  rw [offers, resolvedOffers, if_neg hlookup]
  exact yields_collectStructural.bind <| (yields_collectReferences hlookup).bind <|
    (yields_collectImplementations hlookup).bind (yields_collectDerivedTypes hlookup)

end

/-- If look-ups for a node are to fail, the first question about it does, which is asked after what
its declaration mentions has been put forward. -/
theorem collect_of_failing (hlookup : s.identity ∈ w.faults.failLookups) :
    ((w.resolverIn order).collect c node s).ending = .error (lookupFault s.identity) ∧
      ((w.resolverIn order).collect c node s).offers = w.offers c node order s := by
  have hanswer : (w.resolverIn order).references s = .error (lookupFault s.identity) :=
    references_resolver_of_mem hlookup
  have hreferences : (w.resolverIn order).collectReferences c node s =
      ⟨[.ask .references], .error (lookupFault s.identity)⟩ := by
    rw [Resolver.collectReferences, hanswer]
    rfl
  have hstructural := @yields_collectStructural c node s
  rw [Resolver.collect, hreferences, offers, resolvedOffers, if_pos hlookup]
  constructor
  · exact (Script.ending_bind_ok hstructural.ending).trans rfl
  · rw [Script.offers_bind_ok hstructural.ending, hstructural.offers]
    rfl

/-- What is put forward at a node, whether look-ups for it fail or not. -/
theorem offers_collect :
    ((w.resolverIn order).collect c node s).offers = w.offers c node order s := by
  by_cases hlookup : s.identity ∈ w.faults.failLookups
  · exact (collect_of_failing hlookup).2
  · exact (yields_collect hlookup).offers

/-- Collecting at a node fails exactly if look-ups for it are to fail. -/
theorem ending_collect : ((w.resolverIn order).collect c node s).ending =
    if s.identity ∈ w.faults.failLookups then .error (lookupFault s.identity) else .ok () := by
  by_cases hlookup : s.identity ∈ w.faults.failLookups
  · rw [if_pos hlookup]
    exact (collect_of_failing hlookup).1
  · rw [if_neg hlookup]
    exact (yields_collect hlookup).ending

/-- The task of a node puts its relationships forward. -/
theorem offers_relationshipsOf {id : String} :
    ((w.analysisIn order config schedule).relationshipsOf c id).offers =
      w.offersAt c order id := by
  rw [Analysis.relationshipsOf, Script.offers_bind_ok rfl, offersAt]
  cases c.nodes.get? id with
  | none => rfl
  | some node =>
    cases c.registry.get? id with
    | none => rfl
    | some s => exact offers_collect

/-- It fails exactly if look-ups for the symbol of the node are to fail. -/
theorem ending_relationshipsOf {id : String} :
    ((w.analysisIn order config schedule).relationshipsOf c id).ending =
      match c.nodes.get? id, c.registry.get? id with
      | some _, some s =>
        if s.identity ∈ w.faults.failLookups then .error (lookupFault s.identity) else .ok ()
      | _, _ => .ok () := by
  rw [Analysis.relationshipsOf, Script.ending_bind_ok rfl]
  cases c.nodes.get? id with
  | none => rfl
  | some node =>
    cases c.registry.get? id with
    | none => rfl
    | some s => exact ending_collect

end Snapshot

end CodeAtlas
