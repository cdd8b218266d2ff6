import CodeAtlas.Analysis.Error
import CodeAtlas.Graph.Basic

/-!
# Walking a graph

A `GraphView` is what can be walked of a graph: its nodes, and the relationships with both ends
among them. The neighbours of a node are asked for in one direction and for some kinds of
relationships; `GraphView.related` searches along all relationships in both directions, in the order
in which nodes are met, up to some distance. A search ends because each step takes a node out of the
queue and only nodes that were not met before come into it (`GraphView.stepsLeft_expand_le`).
-/

namespace CodeAtlas

/-- The part of a graph that can be walked. -/
structure GraphView where
  ids : SortedSet String
  /-- The relationships between these nodes. -/
  edges : List Relationship
  /-- Both ends of a relationship are nodes. -/
  ends_mem : ∀ e ∈ edges, e.sourceId ∈ ids ∧ e.targetId ∈ ids
  deriving DecidableEq

/-- The part of a graph that can be walked. -/
def Graph.view (g : Graph) : GraphView where
  ids := g.nodes.keys
  edges := g.relationships.filter fun r =>
    g.nodes.contains r.sourceId && g.nodes.contains r.targetId
  ends_mem e he := by
    rw [SortedMap.mem_keys, SortedMap.mem_keys]
    simpa using (List.mem_filter.mp he).2

namespace GraphView

variable (v : GraphView)

/-- The number of nodes. -/
def nodeCount : Nat := v.ids.size

/-- The number of relationships between nodes. -/
def edgeCount : Nat := v.edges.length

/-- Whether there is a node with the id. -/
def contains (id : String) : Bool := decide (id ∈ v.ids)

/-! ## Neighbours -/

/-- The targets of the relationships of a node whose kind is kept. -/
def targets (keep : RelationKind → Bool) (id : String) : SortedSet String :=
  .ofList ((v.edges.filter fun e => e.sourceId == id && keep e.kind).map (·.targetId))

/-- The sources of the relationships to a node whose kind is kept. -/
def sources (keep : RelationKind → Bool) (id : String) : SortedSet String :=
  .ofList ((v.edges.filter fun e => e.targetId == id && keep e.kind).map (·.sourceId))

/-- Everything that the node refers to. -/
def dependencies (id : String) : SortedSet String := v.targets (fun _ => true) id

/-- Everything that refers to the node. -/
def dependents (id : String) : SortedSet String := v.sources (fun _ => true) id

/-- Everything that calls the node. -/
def callers (id : String) : SortedSet String := v.sources (· == .methodCall) id

/-- Everything that the node calls. -/
def callees (id : String) : SortedSet String := v.targets (· == .methodCall) id

/-- The types that implement the interface, and the members that implement the abstract member. -/
def implementors (id : String) : SortedSet String :=
  v.sources (fun k => k == .implementation || k == .methodImplementation) id

/-! ## Distances -/

/-- The nodes one step away from a node, along or against a relationship. -/
def neighbours (id : String) : List String :=
  v.edges.filterMap fun e =>
    if e.sourceId = id then some e.targetId
    else if e.targetId = id then some e.sourceId
    else none

theorem mem_ids_of_mem_neighbours {v : GraphView} {id id' : String} (h : id' ∈ v.neighbours id) :
    id' ∈ v.ids := by
  obtain ⟨e, he, hend⟩ := List.mem_filterMap.mp h
  split at hend
  · cases hend
    exact (v.ends_mem e he).2
  · split at hend
    · cases hend
      exact (v.ends_mem e he).1
    · cases hend

end GraphView

/-- How far a search from a node has come. -/
structure Search where
  /-- The distances of the nodes that have been met. -/
  distances : SortedMap String Nat
  /-- Those of them whose neighbours are still to be looked at, in the order in which they were
  met. -/
  queue : List String
  deriving DecidableEq

namespace Search

/-- In the beginning only the node itself has been met. -/
def start (id : String) : Search := { distances := SortedMap.empty.insert id 0, queue := [id] }

/-- A node is met at a distance; if it was met before, nothing changes. -/
def meet (distance : Nat) (s : Search) (id : String) : Search :=
  if s.distances.contains id then s
  else { distances := s.distances.insert id distance, queue := s.queue ++ [id] }

end Search

namespace GraphView

variable (v : GraphView)

/-- The search after a look at the neighbours of a node, unless that lies at the greatest distance.
-/
def expand (depth : Nat) (s : Search) (id : String) : Search :=
  match s.distances.get? id with
  | some distance =>
    if distance = depth then s else (v.neighbours id).foldl (Search.meet (distance + 1)) s
  | none => s

/-- The nodes that have not been met. -/
def unmet (s : Search) : List String := v.ids.toList.filter fun id => !s.distances.contains id

/-- How many steps a search can still take: every node comes into the queue at most once. -/
def stepsLeft (s : Search) : Nat := (v.unmet s).length + s.queue.length

variable {v} {s : Search} {id : String}

/-- A node that is put into the queue is one node less to be met. -/
theorem stepsLeft_meet_le {distance : Nat} (h : id ∈ v.ids) :
    v.stepsLeft (s.meet distance id) ≤ v.stepsLeft s := by
  unfold Search.meet
  split
  · exact Nat.le_refl _
  · rename_i hnew
    have hunmet :
        v.unmet { distances := s.distances.insert id distance, queue := s.queue ++ [id] } =
          (v.unmet s).filter (· != id) := by
      rw [unmet, unmet, List.filter_filter]
      refine List.filter_congr fun id' _ => Bool.eq_iff_iff.mpr ?_
      simp [SortedMap.contains_insert, ← Bool.not_eq_true]
    have hless : ((v.unmet s).filter (· != id)).length < (v.unmet s).length :=
      List.length_filter_lt_length_iff_exists.mpr
        ⟨id, List.mem_filter.mpr ⟨h, by simpa using hnew⟩, by simp⟩
    rw [stepsLeft, stepsLeft, hunmet, List.length_append, List.length_singleton]
    omega

/-- A look at the neighbours of a node adds no steps. -/
theorem stepsLeft_expand_le {depth : Nat} :
    v.stepsLeft (v.expand depth s id) ≤ v.stepsLeft s := by
  have hfold : ∀ (distance : Nat) (ids : List String) (s : Search), (∀ id ∈ ids, id ∈ v.ids) →
      v.stepsLeft (ids.foldl (Search.meet distance) s) ≤ v.stepsLeft s := by
    intro distance ids
    induction ids with
    | nil => exact fun s _ => Nat.le_refl _
    | cons id rest ih =>
      intro s hids
      exact Nat.le_trans (ih _ fun id' hid' => hids id' (List.mem_cons_of_mem id hid'))
        (stepsLeft_meet_le (hids id List.mem_cons_self))
  unfold expand
  split
  · split
    · exact Nat.le_refl _
    · exact hfold _ _ s fun _ => mem_ids_of_mem_neighbours
  · exact Nat.le_refl _

variable (v)

/-- The search after all nodes in the queue have been taken out, the first one first, and their
neighbours have been looked at. -/
def search (depth : Nat) : Search → Search
  | ⟨distances, []⟩ => ⟨distances, []⟩
  | ⟨distances, id :: rest⟩ => search depth (v.expand depth ⟨distances, rest⟩ id)
termination_by s => v.stepsLeft s
decreasing_by exact Nat.lt_of_le_of_lt stepsLeft_expand_le (Nat.lt_succ_self _)

/-- Which of two nodes with their distances comes first: the nearer one, then the one with the
smaller id. -/
def compareNearness (a b : String × Nat) : Ordering := (compare a.2 b.2).then (compare a.1 b.1)

/-- The nodes within some number of steps from a node, with their distances, unless there is no such
node. The node itself is left out. -/
def related? (id : String) (depth : Nat) : Option (List (String × Nat)) :=
  if v.contains id then
    let met := (v.search depth (.start id)).distances.entries
    some ((met.filter (·.1 != id)).mergeSort fun a b => (compareNearness a b).isLE)
  else none

/-- The nodes within some number of steps from a node of the graph. -/
def related (id : String) (depth : Nat) : Except AnalysisError (List (String × Nat)) :=
  match v.related? id depth with
  | some found => .ok found
  | none => .error (.nodeNotFound id)

end GraphView

end CodeAtlas
