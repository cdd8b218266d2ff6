import CodeAtlas.Graph.View
import Mathlib.Combinatorics.SimpleGraph.Metric
import Mathlib.Data.String.Basic

/-!
# Distances of related nodes

A search meets nodes in the order of their distances. `Search.Tracks` is what is known of it at any
time: the distances of the nodes that have been met are right, the queue is in the order of
distances and these differ by one at most, and the neighbours of all nodes that have left the queue
have been met, unless they lie too far away. So when a node is taken out of the queue, all nodes
that are not farther away have been met (`Search.Tracks.contains_of_edist_le`, by induction on a
path), and those of its neighbours that have not been met lie one step farther
(`Search.Tracks.edist_neighbour`). A look at the neighbours of the first node in the queue keeps all
this (`Search.Tracks.expand`), and so does the search, by its own induction
(`Search.Tracks.search`).

The nodes that are found are therefore those within the greatest distance, each with the length of a
shortest path (`related_view`).
-/

namespace CodeAtlas

/-- The undirected graph of the relationships between nodes. Two different nodes are adjacent if
some relationship leads from the one to the other or back; what is no node is adjacent to nothing.
-/
def Graph.undirected (g : Graph) : SimpleGraph String :=
  SimpleGraph.fromRel fun a b => g.nodes.contains a = true ∧ g.nodes.contains b = true ∧
    ∃ r ∈ g.relationships, r.sourceId = a ∧ r.targetId = b

variable {g : Graph} {start id u w : String} {depth distance : Nat} {s : Search}
  {distances : SortedMap String Nat} {rest : List String}

/-- A relationship can be walked if both of its ends are nodes. -/
theorem Graph.mem_edges_view {r : Relationship} : r ∈ g.view.edges ↔ r ∈ g.relationships ∧
    g.nodes.contains r.sourceId = true ∧ g.nodes.contains r.targetId = true := by
  simp only [Graph.view, List.mem_filter, Bool.and_eq_true]

/-- The neighbours of a node, apart from the node itself, are the adjacent nodes. -/
theorem adj_iff_mem_neighbours (hne : u ≠ w) :
    g.undirected.Adj u w ↔ w ∈ g.view.neighbours u := by
  rw [Graph.undirected, SimpleGraph.fromRel_adj, and_iff_right hne, GraphView.neighbours,
    List.mem_filterMap]
  constructor
  · rintro (⟨hu, hw, r, hr, rfl, rfl⟩ | ⟨hw, hu, r, hr, rfl, rfl⟩)
    · exact ⟨r, Graph.mem_edges_view.mpr ⟨hr, hu, hw⟩, if_pos rfl⟩
    · exact ⟨r, Graph.mem_edges_view.mpr ⟨hr, hw, hu⟩, by rw [if_neg (Ne.symm hne), if_pos rfl]⟩
  · rintro ⟨r, hr, hend⟩
    obtain ⟨hr, hsource, htarget⟩ := Graph.mem_edges_view.mp hr
    split at hend
    · rename_i hu
      cases hend
      exact .inl ⟨hu ▸ hsource, htarget, r, hr, hu, rfl⟩
    · rw [Option.ite_none_right_eq_some] at hend
      obtain ⟨hu, hw⟩ := hend
      cases hw
      exact .inr ⟨hsource, hu ▸ htarget, r, hr, rfl, hu⟩

/-! ## Meeting several nodes -/

namespace Search

/-- A node that has not been met gets the distance. -/
theorem get?_meet : (s.meet distance id).distances.get? u =
    (s.distances.get? u).or (if u = id then some distance else none) := by
  unfold meet
  split
  · rename_i hin
    obtain ⟨known, hknown⟩ := SortedMap.contains_iff.mp hin
    by_cases hu : u = id
    · rw [hu, hknown, Option.some_or]
    · rw [if_neg hu, Option.or_none]
  · rename_i hout
    have hnone := SortedMap.contains_eq_false_iff.mp (Bool.eq_false_iff.mpr hout)
    rw [SortedMap.get?_insert]
    by_cases hu : u = id
    · rw [hu, hnone, Option.none_or]
    · rw [if_neg hu, if_neg hu, Option.or_none]

/-- Of several nodes those that have not been met get the distance. -/
theorem get?_foldl_meet {ids : List String} : (ids.foldl (meet distance) s).distances.get? u =
    (s.distances.get? u).or (if u ∈ ids then some distance else none) := by
  induction ids generalizing s with
  | nil => exact Option.or_none.symm
  | cons id rest ih =>
    rw [List.foldl_cons, ih, get?_meet, Option.or_assoc]
    by_cases hu : u = id
    · simp [hu]
    · simp [hu]

/-- They have been met then, and nothing else has. -/
theorem contains_foldl_meet {ids : List String} :
    (ids.foldl (meet distance) s).distances.contains u = true ↔
      s.distances.contains u = true ∨ u ∈ ids := by
  rw [SortedMap.contains, get?_foldl_meet, SortedMap.contains, Option.isSome_or, Bool.or_eq_true]
  refine or_congr_right ?_
  split <;> simp_all

/-- Those that had not been met are put behind the others in the queue. -/
theorem queue_foldl_meet {ids : List String} : ∃ fresh,
    (ids.foldl (meet distance) s).queue = s.queue ++ fresh ∧
      ∀ u, u ∈ fresh ↔ u ∈ ids ∧ s.distances.contains u = false := by
  induction ids generalizing s with
  | nil => exact ⟨[], (List.append_nil _).symm, by simp⟩
  | cons id rest ih =>
    obtain ⟨fresh, hqueue, hfresh⟩ := @ih (s.meet distance id)
    by_cases hin : s.distances.contains id = true
    · have hsame : s.meet distance id = s := if_pos hin
      rw [hsame] at hqueue hfresh
      refine ⟨fresh, by rw [List.foldl_cons, hsame, hqueue], fun u => ?_⟩
      rw [hfresh, List.mem_cons]
      constructor
      · exact fun ⟨hu, hout⟩ => ⟨.inr hu, hout⟩
      · rintro ⟨rfl | hu, hout⟩
        · rw [hin] at hout
          cases hout
        · exact ⟨hu, hout⟩
    · have hmeet : s.meet distance id =
          { distances := s.distances.insert id distance, queue := s.queue ++ [id] } := if_neg hin
      rw [Bool.not_eq_true] at hin
      refine ⟨id :: fresh, ?_, fun u => ?_⟩
      · rw [List.foldl_cons, hqueue, hmeet, List.append_assoc, List.singleton_append]
      · have hcontains : (s.meet distance id).distances.contains u = false ↔
            u ≠ id ∧ s.distances.contains u = false := by
          rw [hmeet, ← Bool.not_eq_true, SortedMap.contains_insert, not_or, Bool.not_eq_true]
        rw [List.mem_cons, List.mem_cons, hfresh, hcontains]
        by_cases hu : u = id
        · simp [hu, hin]
        · simp [hu]

/-! ## What a search keeps -/

/-- What is known of a search from a node up to some depth, at any time. -/
structure Tracks (g : Graph) (start : String) (depth : Nat) (s : Search) : Prop where
  started : s.distances.get? start = some 0
  /-- A distance that is noted is the length of a shortest path. -/
  measured : ∀ u distance, s.distances.get? u = some distance →
    g.undirected.edist start u = distance ∧ distance ≤ depth
  queued : ∀ u ∈ s.queue, s.distances.contains u = true
  /-- Nearer nodes are taken out of the queue first. -/
  ordered : s.queue.Pairwise fun u w => g.undirected.edist start u ≤ g.undirected.edist start w
  /-- The distances in the queue differ by one at most. -/
  narrow : ∀ u ∈ s.queue, ∀ w ∈ s.queue,
    g.undirected.edist start w ≤ g.undirected.edist start u + 1
  /-- The nodes next to one that has left the queue have been met. -/
  closed : ∀ u w, s.distances.contains u = true → u ∉ s.queue →
    g.undirected.edist start u < depth → g.undirected.Adj u w → s.distances.contains w = true

/-- A search that has only met its own node. -/
theorem tracks_start : Tracks g start depth (Search.start start) := by
  have hmet : (Search.start start).distances.contains start = true :=
    SortedMap.contains_insert.mpr (.inl rfl)
  constructor
  case started => exact SortedMap.get?_insert.trans (if_pos rfl)
  case measured =>
    intro u distance hu
    rw [Search.start, SortedMap.get?_insert, SortedMap.get?_empty,
      Option.ite_none_right_eq_some] at hu
    obtain ⟨rfl, hu⟩ := hu
    cases hu
    exact ⟨SimpleGraph.edist_self, Nat.zero_le depth⟩
  case queued =>
    intro u hu
    exact List.mem_singleton.mp hu ▸ hmet
  case ordered => exact List.pairwise_singleton _ start
  case narrow =>
    intro u hu w hw
    rw [List.mem_singleton.mp hu, List.mem_singleton.mp hw]
    exact le_self_add
  case closed =>
    intro u w hu hout
    have hu : u = start := (SortedMap.contains_insert.mp hu).resolve_right
      (by rw [SortedMap.contains_empty]; exact Bool.false_ne_true)
    exact absurd (List.mem_singleton.mpr hu) hout

/-- As far as nothing in the queue lies nearer, everything up to that distance has been met. -/
theorem Tracks.contains_of_edist_le (hs : s.Tracks g start depth) (hdepth : distance ≤ depth)
    (hqueue : ∀ u ∈ s.queue, (distance : ℕ∞) ≤ g.undirected.edist start u)
    (hu : g.undirected.edist start u ≤ distance) : s.distances.contains u = true := by
  have hwalk : ∀ {u end_} (p : g.undirected.Walk u end_), end_ = start → p.length ≤ distance →
      s.distances.contains u = true := by
    intro u end_ p hend
    induction p with
    | nil => exact fun _ => hend ▸ SortedMap.contains_of_get? hs.started
    | cons hadj p ih =>
      rename_i u w end_
      intro hlength
      rw [SimpleGraph.Walk.length_cons] at hlength
      -- the next node on the path lies nearer than all that is in the queue
      have hnear : g.undirected.edist start w < distance := by
        rw [SimpleGraph.edist_comm, ← hend]
        exact (SimpleGraph.edist_le p).trans_lt (by exact_mod_cast hlength)
      refine hs.closed w u (ih hend (by omega)) (fun hin => ?_) ?_ hadj.symm
      · exact (hqueue w hin).not_gt hnear
      · exact hnear.trans_le (by exact_mod_cast hdepth)
  obtain ⟨length, hlength, hle⟩ := ENat.le_natCast_iff.mp hu
  obtain ⟨p, hp⟩ := SimpleGraph.exists_walk_of_edist_eq_coe
    (SimpleGraph.edist_comm.trans hlength)
  exact hwalk p rfl (hp ▸ hle)

/-! ## One step of a search -/

/-- No distance in the queue lies below that of its first node. -/
theorem Tracks.le_edist (hs : Tracks g start depth ⟨distances, id :: rest⟩)
    (hid : distances.get? id = some distance) :
    ∀ u ∈ id :: rest, (distance : ℕ∞) ≤ g.undirected.edist start u := by
  intro u hu
  have hexact := (hs.measured id distance hid).1
  rcases List.mem_cons.mp hu with rfl | hu
  · exact hexact.ge
  · exact hexact ▸ List.rel_of_pairwise_cons hs.ordered hu

/-- No distance in the queue lies above that of its first node by more than one. -/
theorem Tracks.edist_le (hs : Tracks g start depth ⟨distances, id :: rest⟩)
    (hid : distances.get? id = some distance) :
    ∀ u ∈ rest, g.undirected.edist start u ≤ distance + 1 := by
  intro u hu
  have hexact := (hs.measured id distance hid).1
  exact hexact ▸ hs.narrow id List.mem_cons_self u (List.mem_cons_of_mem id hu)

/-- The neighbours of the first node in the queue that have not been met lie one step farther. -/
theorem Tracks.edist_neighbour (hs : Tracks g start depth ⟨distances, id :: rest⟩)
    (hid : distances.get? id = some distance) (hu : u ∈ g.view.neighbours id)
    (hunmet : distances.contains u = false) :
    g.undirected.edist start u = distance + 1 := by
  obtain ⟨hexact, hdepth⟩ := hs.measured id distance hid
  have hne : id ≠ u := by
    rintro rfl
    rw [SortedMap.contains_of_get? hid] at hunmet
    cases hunmet
  refine le_antisymm ?_ (Order.add_one_le_of_lt (not_le.mp fun hnear => ?_))
  · calc g.undirected.edist start u
        ≤ g.undirected.edist start id + g.undirected.edist id u := SimpleGraph.edist_triangle
      _ = distance + 1 := by
          rw [hexact, SimpleGraph.edist_eq_one_iff_adj.mpr ((adj_iff_mem_neighbours hne).mpr hu)]
  · rw [hs.contains_of_edist_le hdepth (hs.le_edist hid) hnear] at hunmet
    cases hunmet

/-- A node at the greatest distance is taken out of the queue. -/
theorem Tracks.skip (hs : Tracks g start depth ⟨distances, id :: rest⟩)
    (hid : distances.get? id = some depth) : Tracks g start depth ⟨distances, rest⟩ := by
  constructor
  case started => exact hs.started
  case measured => exact hs.measured
  case queued => exact fun u hu => hs.queued u (List.mem_cons_of_mem id hu)
  case ordered => exact hs.ordered.of_cons
  case narrow =>
    exact fun u hu w hw =>
      hs.narrow u (List.mem_cons_of_mem id hu) w (List.mem_cons_of_mem id hw)
  case closed =>
    intro u w hu hout hnear hadj
    refine hs.closed u w hu (fun hin => ?_) hnear hadj
    rcases List.mem_cons.mp hin with rfl | hin
    · exact hnear.ne (hs.measured u depth hid).1
    · exact hout hin

/-- A nearer node is taken out of the queue, and its neighbours are met one step farther. -/
theorem Tracks.meet (hs : Tracks g start depth ⟨distances, id :: rest⟩)
    (hid : distances.get? id = some distance) (hdepth : distance < depth) :
    Tracks g start depth
      ((g.view.neighbours id).foldl (Search.meet (distance + 1)) ⟨distances, rest⟩) := by
  obtain ⟨fresh, hqueue, hfresh⟩ :=
    @queue_foldl_meet (distance + 1) ⟨distances, rest⟩ (g.view.neighbours id)
  have hfar : ∀ u ∈ fresh, g.undirected.edist start u = distance + 1 := by
    intro u hu
    obtain ⟨hin, hunmet⟩ := (hfresh u).mp hu
    exact hs.edist_neighbour hid hin hunmet
  constructor
  case started => rw [get?_foldl_meet, hs.started, Option.some_or]
  case measured =>
    intro u found hu
    rw [get?_foldl_meet, Option.or_eq_some_iff, Option.ite_none_right_eq_some] at hu
    rcases hu with hu | ⟨hunmet, hin, hfound⟩
    · exact hs.measured u found hu
    · cases hfound
      have hunmet := SortedMap.contains_eq_false_iff.mpr hunmet
      exact ⟨by exact_mod_cast hs.edist_neighbour hid hin hunmet, hdepth⟩
  case queued =>
    intro u hu
    rw [hqueue, List.mem_append, hfresh] at hu
    refine contains_foldl_meet.mpr (hu.imp (fun hu => ?_) (·.1))
    exact hs.queued u (List.mem_cons_of_mem id hu)
  case ordered =>
    rw [hqueue, List.pairwise_append]
    refine ⟨hs.ordered.of_cons, ?_, fun u hu w hw => ?_⟩
    · exact List.pairwise_of_forall_mem_list fun u hu w hw => by rw [hfar u hu, hfar w hw]
    · exact (hs.edist_le hid u hu).trans_eq (hfar w hw).symm
  case narrow =>
    have hbounds : ∀ u ∈ rest ++ fresh, distance ≤ g.undirected.edist start u ∧
        g.undirected.edist start u ≤ distance + 1 := by
      intro u hu
      rcases List.mem_append.mp hu with hu | hu
      · exact ⟨hs.le_edist hid u (List.mem_cons_of_mem id hu), hs.edist_le hid u hu⟩
      · rw [hfar u hu]
        exact ⟨le_self_add, le_rfl⟩
    rw [hqueue]
    intro u hu w hw
    exact (hbounds w hw).2.trans (add_le_add_left (hbounds u hu).1 1)
  case closed =>
    intro u w hu hout hnear hadj
    rw [hqueue, List.mem_append, not_or, hfresh] at hout
    by_cases heq : u = id
    · subst heq
      exact contains_foldl_meet.mpr (.inr ((adj_iff_mem_neighbours hadj.ne).mp hadj))
    · have hmet : distances.contains u = true := by
        by_contra hunmet
        have hin := (contains_foldl_meet.mp hu).resolve_left hunmet
        exact hout.2 ⟨hin, Bool.eq_false_iff.mpr hunmet⟩
      refine contains_foldl_meet.mpr (.inl (hs.closed u w hmet (fun hin => ?_) hnear hadj))
      exact (List.mem_cons.mp hin).elim heq hout.1

/-- A look at the neighbours of the first node in the queue keeps everything. -/
theorem Tracks.expand (hs : Tracks g start depth ⟨distances, id :: rest⟩) :
    Tracks g start depth (g.view.expand depth ⟨distances, rest⟩ id) := by
  obtain ⟨distance, hid⟩ := SortedMap.contains_iff.mp (hs.queued id List.mem_cons_self)
  simp only [GraphView.expand, hid]
  split
  · rename_i hdepth
    exact hs.skip (hdepth ▸ hid)
  · rename_i hdepth
    exact hs.meet hid (lt_of_le_of_ne (hs.measured id distance hid).2 hdepth)

/-! ## A whole search -/

/-- A search that is over has taken all nodes out of the queue. -/
theorem Tracks.search (hs : s.Tracks g start depth) :
    Tracks g start depth (g.view.search depth s) ∧ (g.view.search depth s).queue = [] := by
  induction s using GraphView.search.induct g.view depth with
  | case1 distances =>
    rw [GraphView.search]
    exact ⟨hs, rfl⟩
  | case2 distances id rest ih =>
    rw [GraphView.search]
    exact ih hs.expand

/-- In the end the distances that are noted are those up to the depth. -/
theorem get?_search : (g.view.search depth (.start start)).distances.get? u = some distance ↔
    g.undirected.edist start u = distance ∧ distance ≤ depth := by
  have hstart : Tracks g start depth (.start start) := tracks_start
  obtain ⟨hs, hqueue⟩ := hstart.search
  refine ⟨hs.measured u distance, fun ⟨hdistance, hdepth⟩ => ?_⟩
  have hmet := hs.contains_of_edist_le hdepth (by rw [hqueue]; exact fun _ hin => nomatch hin)
    hdistance.le
  obtain ⟨found, hfound⟩ := SortedMap.contains_iff.mp hmet
  have heq := (hs.measured u found hfound).1
  rw [hdistance] at heq
  rw [hfound, ← ENat.natCast_inj.mp heq]

end Search

/-! ## The nodes that are found -/

/-- What lies at some distance of a node is a node. -/
theorem contains_of_edist_eq (hstart : g.nodes.contains start = true)
    (hu : g.undirected.edist start u = distance) : g.nodes.contains u = true := by
  obtain ⟨p, -⟩ := SimpleGraph.exists_walk_of_edist_eq_coe (SimpleGraph.edist_comm.trans hu)
  cases p with
  | nil => exact hstart
  | cons hadj _ =>
    rw [Graph.undirected, SimpleGraph.fromRel_adj] at hadj
    exact hadj.2.elim (·.1) (·.2.1)

namespace GraphView

/-- The order of nearness is that of the distances, and among nodes at one distance that of the ids.
-/
theorem compareNearness_eq_lt {a b : String × Nat} :
    compareNearness a b = .lt ↔ a.2 < b.2 ∨ a.2 = b.2 ∧ a.1 < b.1 := by
  rw [compareNearness, Ordering.then_eq_lt, Nat.compare_eq_lt, Nat.compare_eq_eq,
    compare_lt_iff_lt]

instance : Std.TransCmp compareNearness :=
  inferInstanceAs (Std.TransCmp
    (compareLex (compareOn (Prod.snd : String × Nat → Nat)) (compareOn Prod.fst)))

/-- Of two nodes one comes first, or they are equally near. -/
theorem isLE_total (a b : String × Nat) :
    ((compareNearness a b).isLE || (compareNearness b a).isLE) = true := by
  cases h : compareNearness a b with
  | lt => rfl
  | eq => rfl
  | gt => rw [Std.OrientedCmp.lt_of_gt h]; rfl

/-- Different nodes are never equally near. -/
theorem lt_of_isLE {a b : String × Nat} (h : (compareNearness a b).isLE = true)
    (hne : a.1 ≠ b.1) : a.2 < b.2 ∨ a.2 = b.2 ∧ a.1 < b.1 := by
  refine compareNearness_eq_lt.mp ((Ordering.isLE_iff_eq_lt_or_eq_eq.mp h).resolve_right ?_)
  rw [compareNearness, Ordering.then_eq_eq, Std.compare_eq_iff_eq, Std.compare_eq_iff_eq]
  exact fun heq => hne heq.2

end GraphView

/-- The other nodes up to some distance of a node, each once, the nearest first. -/
structure Graph.Surrounds (g : Graph) (id : String) (depth : Nat) (found : List (String × Nat)) :
    Prop where
  mem_iff : ∀ u distance, (u, distance) ∈ found ↔ g.nodes.contains u = true ∧ u ≠ id ∧
    g.undirected.edist id u = distance ∧ 1 ≤ distance ∧ distance ≤ depth
  once : (found.map (·.1)).Nodup
  nearestFirst : found.Pairwise fun a b => a.2 < b.2 ∨ a.2 = b.2 ∧ a.1 < b.1

/-- The nodes that a search has met, in the order of nearness, surround the node that it started
from. -/
theorem surrounds_search (hid : g.nodes.contains id = true) :
    g.Surrounds id depth
      (((g.view.search depth (.start id)).distances.entries.filter (·.1 != id)).mergeSort
        fun a b => (GraphView.compareNearness a b).isLE) := by
  set met := (g.view.search depth (.start id)).distances with hmet
  have hperm := List.mergeSort_perm (met.entries.filter (·.1 != id))
    fun a b => (GraphView.compareNearness a b).isLE
  have honce : (((met.entries.filter (·.1 != id)).mergeSort
      fun a b => (GraphView.compareNearness a b).isLE).map (·.1)).Nodup := by
    rw [(hperm.map _).nodup_iff]
    exact (SortedMap.nodup_keyList (m := met)).sublist (List.filter_sublist.map _)
  constructor
  case mem_iff =>
    intro u distance
    rw [hperm.mem_iff, List.mem_filter, ← SortedMap.get?_eq_some_iff, hmet, Search.get?_search,
      bne_iff_ne]
    constructor
    · rintro ⟨⟨hdistance, hdepth⟩, hne⟩
      refine ⟨contains_of_edist_eq hid hdistance, hne, hdistance, ?_, hdepth⟩
      have hpos : 0 < g.undirected.edist id u := SimpleGraph.edist_pos_of_ne (Ne.symm hne)
      rw [hdistance] at hpos
      exact_mod_cast hpos
    · exact fun ⟨_, hne, hdistance, _, hdepth⟩ => ⟨⟨hdistance, hdepth⟩, hne⟩
  case once => exact honce
  case nearestFirst =>
    have hsorted := List.pairwise_mergeSort
      (fun a b c (hab : (GraphView.compareNearness a b).isLE) => Std.TransCmp.isLE_trans hab)
      GraphView.isLE_total (met.entries.filter (·.1 != id))
    exact hsorted.imp₂ (fun _ _ => GraphView.lt_of_isLE) (List.pairwise_map.mp honce)

/-- The related nodes of a node are the other nodes up to the greatest distance, along or against
the relationships; what is no node has none. -/
theorem related_view (g : Graph) (id : String) (depth : Nat) :
    (g.nodes.contains id = false →
      g.view.related id depth = .error (.nodeNotFound id)) ∧
    (g.nodes.contains id = true →
      ∃ found, g.view.related id depth = .ok found ∧ g.Surrounds id depth found) := by
  have hcontains : g.view.contains id = g.nodes.contains id := by
    rw [GraphView.contains, Bool.eq_iff_iff, decide_eq_true_iff]
    exact SortedMap.mem_keys
  refine ⟨fun hid => ?_, fun hid => ?_⟩
  · rw [GraphView.related, GraphView.related?, hcontains, hid]
    rfl
  · rw [hid] at hcontains
    rw [GraphView.related, GraphView.related?, if_pos hcontains]
    exact ⟨_, rfl, surrounds_search hid⟩

end CodeAtlas
