import CodeAtlas.Analysis.Progress

/-!
# Collecting relationships

The relationships at one node are those that its declaration implies (`Symbol.structuralTargets`),
and those for which the resolver is asked: from the places that refer to the node, from what
implements it, and from the types derived from it. `Resolver.collect` is the course of finding them
over a catalogue, which does not change meanwhile; only relationships between catalogued nodes are
stored. `Analysis.collect` takes this course. Relationships that were stored before a question fails
stay.
-/

namespace CodeAtlas

namespace ReferenceContext

/-- The kind of relationship that a use makes. -/
def relationKind : ReferenceContext → RelationKind
  | call => .methodCall
  | access => .propertyAccess
  | unknown => .association

end ReferenceContext

namespace Member

/-- Whether the member holds a value in every instance of its type. -/
def isInstanceData (m : Member) : Bool :=
  !m.isStatic && (m.kind == .field || m.kind == .property)

end Member

namespace Symbol

/-- What the declaration of a symbol mentions, with the kinds of relationship this makes. -/
def structuralTargets (s : Symbol) : List (TypeRef × RelationKind) :=
  match s.kind with
  | .type =>
    s.baseTypes.head?.toList.map (·, .inheritance) ++
    s.interfaces.map (·, .implementation) ++
    ((s.members.filter (·.isInstanceData)).filterMap (·.declaredType)).map (·, .composition)
  | .method =>
    s.parameters.map (·.parameterType, .association) ++
    (s.returnType.filter (!·.isVoid)).toList.map (·, .association) ++
    s.overridden.toList.map (·, .methodOverride)
  | .field =>
    s.declaredType.toList.map (·, if s.isReadOnly then .composition else .aggregation)
  | .property => s.declaredType.toList.map (·, .association)
  | _ => []

/-- The kind of relationship between what implements the symbol and the symbol. -/
def implementationKind? (s : Symbol) : Option RelationKind :=
  if s.isInterface then some .implementation
  else if s.isAbstractMember then some .methodImplementation
  else none

end Symbol

/-! ## The course of a collection -/

namespace Resolver

variable (r : Resolver) (c : Catalogue)

/-- Stores the relationship of a node to what its declaration mentions, if that is catalogued. -/
def storeStructural (node : Node) (target : TypeRef × RelationKind) : Script Unit :=
  match c.nodes.get? target.1.identity with
  | none => return ()
  | some _ => .store { sourceId := node.id, targetId := target.1.identity, kind := target.2,
                       location := node.location }

/-- Stores the relationship of a symbol to a node, if the symbol is catalogued. -/
def storeFrom (node : Node) (kind : RelationKind) (source : Symbol) : Script Unit :=
  match c.nodes.get? source.identity with
  | none => return ()
  | some other => .store { sourceId := source.identity, targetId := node.id, kind,
                           location := other.location }

/-- The symbol that holds a referring place. -/
def enclosing? (site : ReferenceSite) : Script (Option Symbol) :=
  match site.enclosing with
  | some s => return some s
  | none => .ask .locate (r.locate site.location)

/-- Stores the relationship of the node that holds a referring place to a node. -/
def storeReference (node : Node) (site : ReferenceSite) : Script Unit := do
  match ← r.enclosing? site with
  | none => return ()
  | some source =>
    match c.nodes.get? source.identity with
    | none => return ()
    | some _ => .store { sourceId := source.identity, targetId := node.id,
                         kind := site.context.relationKind, location := some site.location }

/-- Stores the relationships that the declaration of a node implies. -/
def collectStructural (node : Node) (s : Symbol) : Script Unit :=
  .each (storeStructural c node) s.structuralTargets

/-- Stores the relationships from the places that refer to a node. -/
def collectReferences (node : Node) (s : Symbol) : Script Unit := do
  let sites ← .ask .references (r.references s)
  .each (r.storeReference c node) sites

/-- Stores the relationships from what implements a node. -/
def collectImplementations (node : Node) (s : Symbol) : Script Unit :=
  match s.implementationKind? with
  | none => return ()
  | some kind => do
    let sources ← .ask .implementations (r.implementations s)
    .each (storeFrom c node kind) sources

/-- Stores the relationships from the types derived from a node. -/
def collectDerivedTypes (node : Node) (s : Symbol) : Script Unit :=
  if s.isClass then do
    let sources ← .ask .derivedTypes (r.derivedTypes s)
    .each (storeFrom c node .inheritance) sources
  else return ()

/-- Stores all relationships at a node. -/
def collect (node : Node) (s : Symbol) : Script Unit := do
  collectStructural c node s
  r.collectReferences c node s
  r.collectImplementations c node s
  r.collectDerivedTypes c node s

end Resolver

/-! ## Collecting -/

namespace Analysis

variable (a : Analysis)

/-- Stores all relationships at a node, and tells how many the store has more. -/
def collect (node : Node) (s : Symbol) : Step Nat := do
  let course := a.resolver.collect (← get).catalogue node s
  let added ← a.perform course.actions
  match course.ending with
  | .ok () => return added
  | .error e => throw (.resolver e)

/-- The progress after the collections at some nodes, one after the other, whether they fail or not.
-/
def collectEach (p : Progress) (visits : List (Node × Symbol)) : Progress :=
  visits.foldl (fun p visit => ((a.collect visit.1 visit.2).outcome p).2) p

end Analysis

end CodeAtlas
