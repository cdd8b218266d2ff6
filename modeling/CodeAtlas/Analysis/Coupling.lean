import CodeAtlas.Collections.KeyPair
import CodeAtlas.Graph.Basic
import CodeAtlas.Snapshot.Project

/-!
# Dependencies between projects

All relationships that lead from the nodes of one project to the nodes of another become one
`ProjectDependency` (`projectDependencies`). Its kind is the one of most relationships
(`RelationKind.dominant`), and its strength their mean weight, at most one (`meanWeight`).
-/

namespace CodeAtlas

namespace RelationKind

/-- Which of two kinds is preferred as the kind of a dependency with relationships of the given
kinds: the more frequent one, then the heavier one, then the one that comes first. -/
def comparePreference (kinds : List RelationKind) (a b : RelationKind) : Ordering :=
  (compare (kinds.count a) (kinds.count b)).then <|
  (compare a.tenths b.tenths).then <|
  compare b.rank a.rank

/-- The preferred one of two kinds. -/
def preferred (kinds : List RelationKind) (a b : RelationKind) : RelationKind :=
  if comparePreference kinds a b = .lt then b else a

/-- The preferred one of the kinds of some relationships. -/
def dominant : List RelationKind → RelationKind
  | [] => .association
  | k :: kinds => kinds.foldl (preferred (k :: kinds)) k

end RelationKind

/-- The mean weight of the kinds, at most one, as a number of any type; weights are added in the
order of the list. -/
def meanWeight {α : Type} [Add α] [Div α] [Min α] (ofNat : Nat → α) (kinds : List RelationKind) :
    α :=
  min ((kinds.foldl (fun total k => total + k.weightIn ofNat) (ofNat 0)) / ofNat kinds.length)
    (ofNat 1)

/-- The ids of two projects, of which the first depends on the second. -/
abbrev ProjectPair := KeyPair String

/-- The projects between which a relationship leads, if they are two different ones of `projects`.
-/
def projectPair? (nodes : SortedMap String Node) (projects : List Project) (r : Relationship) :
    Option ProjectPair := do
  let source ← nodes.get? r.sourceId
  let target ← nodes.get? r.targetId
  let known := fun id => projects.any (·.id == id)
  if source.projectId ≠ target.projectId && known source.projectId && known target.projectId then
    some ⟨source.projectId, target.projectId⟩
  else none

/-- The table with a relationship under its projects, if it leads from one project to another. -/
def pushCrossing (nodes : SortedMap String Node) (projects : List Project)
    (table : SortedMap ProjectPair (List Relationship)) (r : Relationship) :
    SortedMap ProjectPair (List Relationship) :=
  match projectPair? nodes projects r with
  | some pair => table.push pair r
  | none => table

/-- The relationships between projects, by the projects. -/
def crossProjectRelationships (nodes : SortedMap String Node) (projects : List Project)
    (relationships : List Relationship) : SortedMap ProjectPair (List Relationship) :=
  relationships.foldl (pushCrossing nodes projects) .empty

namespace ProjectDependency

/-- The dependency that consists of some relationships between two projects. -/
def ofRelationships (pair : ProjectPair) (relationships : List Relationship) : ProjectDependency :=
  let kinds := relationships.map (·.kind)
  { sourceProjectId := pair.first
    targetProjectId := pair.second
    dependencyKind := RelationKind.dominant kinds
    sharedSymbolIds := .ofList (relationships.map (·.targetId))
    referenceCount := relationships.length
    couplingStrength := meanWeight Float.ofNat kinds }

end ProjectDependency

/-- The dependencies between projects, in the order of the projects. -/
def projectDependencies (nodes : SortedMap String Node) (relationships : List Relationship)
    (projects : List Project) : List ProjectDependency :=
  (crossProjectRelationships nodes projects relationships).entries.map fun e =>
    .ofRelationships e.1 e.2

end CodeAtlas
