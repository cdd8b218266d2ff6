import CodeAtlas.Proofs.Interleaving

/-!
# The catalogue of declarations that have all been added

A declaration that has made three steps is done (`Race.exists_done_run`). So when every declaration
has had its turns, the catalogue has a node and a symbol under each id of a declaration that is for
the graph, and nothing else: `Catalogue.MadeFrom` says so, and `Catalogue.madeFrom_ofTurns` that it
holds whatever the order of the turns. Node and symbol each come from some declaration of their id,
but possibly from different ones.
-/

namespace CodeAtlas

/-! ## Steps to go -/

/-- How many steps are left at most. -/
def Stage.left : Stage → Nat
  | .register => 3
  | .look => 2
  | .put => 1
  | .done _ => 0

/-- With each step there is one less, until there is none. -/
theorem Declaration.left_step {d : Declaration} {c : Catalogue} {stage : Stage} :
    (d.step c stage).1.left ≤ stage.left - 1 := by
  cases stage with
  | register => exact Nat.le_refl _
  | look =>
    simp only [step]
    split
    · exact Nat.zero_le _
    · exact Nat.le_refl _
  | put => exact Nat.le_refl _
  | done outcome => exact Nat.le_refl _

namespace Race

variable {ι : Type} [DecidableEq ι] {d : ι → Declaration} {order : List ι} {i : ι}

/-- A declaration has three steps to make, less those that it has made. -/
theorem left_run : ((run d order).stage i).left ≤ 3 - order.count i := by
  induction order using List.reverseRecOn with
  | nil => exact Nat.le_refl _
  | append_singleton order j ih =>
    rw [run_concat, stage_step, List.count_append, List.count_singleton]
    by_cases hj : i = j
    · subst hj
      have hstep : (((d i).step (run d order).catalogue ((run d order).stage i)).1).left ≤
          ((run d order).stage i).left - 1 := Declaration.left_step
      rw [if_pos rfl, if_pos (beq_self_eq_true i)]
      omega
    · rw [if_neg hj, if_neg (by simpa using Ne.symm hj)]
      exact ih

/-- After three steps a declaration is done. -/
theorem exists_done_run (h : 3 ≤ order.count i) :
    ∃ outcome, (run d order).stage i = .done outcome := by
  have hleft : ((run d order).stage i).left ≤ 3 - order.count i := left_run
  rw [Nat.sub_eq_zero_of_le h, Nat.le_zero] at hleft
  cases hstage : (run d order).stage i with
  | done outcome => exact ⟨outcome, rfl⟩
  | register => rw [hstage] at hleft; cases hleft
  | look => rw [hstage] at hleft; cases hleft
  | put => rw [hstage] at hleft; cases hleft

end Race

/-! ## The whole catalogue -/

namespace Catalogue

/-- Under the ids of the listed declarations the catalogue has nodes and symbols of some of them,
and it has no others. -/
structure MadeFrom (l : List Declaration) (c : Catalogue) : Prop where
  built : ∀ {id n}, c.nodes.get? id = some n → ∃ d ∈ l, d.id = id ∧ n = d.node
  held : ∀ {id s}, c.registry.get? id = some s → ∃ d ∈ l, d.id = id ∧ s = d.symbol
  listed : ∀ {d}, d ∈ l → c.nodes.contains d.id = true ∧ c.registry.contains d.id = true

namespace MadeFrom

variable {l : List Declaration} {c : Catalogue} {id : String} {n : Node} {s : Symbol}

/-- There is a node exactly where there is a declaration. -/
theorem contains_nodes (h : c.MadeFrom l) : c.nodes.contains id = true ↔ ∃ d ∈ l, d.id = id := by
  constructor
  · intro hin
    obtain ⟨n, hn⟩ := SortedMap.contains_iff.mp hin
    obtain ⟨d, hd, hid, -⟩ := h.built hn
    exact ⟨d, hd, hid⟩
  · rintro ⟨d, hd, rfl⟩
    exact (h.listed hd).1

/-- There is a symbol exactly where there is a declaration. -/
theorem contains_registry (h : c.MadeFrom l) :
    c.registry.contains id = true ↔ ∃ d ∈ l, d.id = id := by
  constructor
  · intro hin
    obtain ⟨s, hs⟩ := SortedMap.contains_iff.mp hin
    obtain ⟨d, hd, hid, -⟩ := h.held hs
    exact ⟨d, hd, hid⟩
  · rintro ⟨d, hd, rfl⟩
    exact (h.listed hd).2

/-- A node stands under its id. -/
theorem id_eq (h : c.MadeFrom l) (hn : c.nodes.get? id = some n) : n.id = id := by
  obtain ⟨d, -, rfl, rfl⟩ := h.built hn
  rfl

/-- A registered symbol stands under its identity. -/
theorem identity_eq (h : c.MadeFrom l) (hs : c.registry.get? id = some s) : s.identity = id := by
  obtain ⟨d, -, rfl, rfl⟩ := h.held hs
  rfl

/-- Where there is a node, a symbol is registered. -/
theorem exists_handle (h : c.MadeFrom l) (hin : c.nodes.contains id = true) :
    ∃ s, c.registry.get? id = some s := by
  exact SortedMap.contains_iff.mp (h.contains_registry.mpr (h.contains_nodes.mp hin))

/-- Where a symbol is registered, there is a node. -/
theorem exists_node (h : c.MadeFrom l) (hs : c.registry.get? id = some s) :
    ∃ n, c.nodes.get? id = some n := by
  obtain ⟨d, hd, rfl, -⟩ := h.held hs
  exact SortedMap.contains_iff.mp (h.listed hd).1

end MadeFrom

/-- Whatever the order of the turns, the catalogue is made from all declarations that are for the
graph, if each of them has its three turns. -/
theorem madeFrom_ofTurns (config : Config) (l : List Declaration) (turns : List (Fin l.length))
    (h : ∀ i, 3 ≤ turns.count i) :
    (ofTurns config l turns).MadeFrom (l.filter (·.isIncluded config)) := by
  have htracks := Race.Tracks.run (d := l.get)
    (turns.filter fun i => (l.get i).isIncluded config)
  -- whoever has a turn is for the graph
  have hincluded : ∀ {i}, i ∈ turns.filter (fun i => (l.get i).isIncluded config) →
      l.get i ∈ l.filter (·.isIncluded config) := fun hi =>
    List.mem_filter.mpr ⟨List.get_mem l _, (List.mem_filter.mp hi).2⟩
  refine ⟨fun {id n} hn => ?_, fun {id s} hs => ?_, fun {d} hd => ?_⟩
  · obtain ⟨builder, first, hid, rfl, hdone, -⟩ := htracks.built hn
    refine ⟨l.get builder, hincluded ((htracks.started builder).mp ?_), hid, rfl⟩
    rw [hdone]
    exact Stage.noConfusion
  · change (Race.run l.get _).catalogue.registry.get? id = some s at hs
    rw [htracks.held, Option.map_eq_some_iff] at hs
    obtain ⟨first, hfirst, rfl⟩ := hs
    exact ⟨l.get first, hincluded (List.mem_of_find?_eq_some hfirst), Race.id_of_first? hfirst, rfl⟩
  · obtain ⟨hd, hfor⟩ := List.mem_filter.mp hd
    obtain ⟨i, rfl⟩ := List.get_of_mem hd
    have hcount : 3 ≤ (turns.filter fun i => (l.get i).isIncluded config).count i := by
      rw [List.count_filter (p := fun i => (l.get i).isIncluded config) hfor]
      exact h i
    obtain ⟨outcome, hdone⟩ := Race.exists_done_run (d := l.get) hcount
    have hin : i ∈ turns.filter fun i => (l.get i).isIncluded config :=
      List.count_pos_iff.mp (by omega)
    obtain ⟨first, hfirst⟩ := Race.exists_first? (d := l.get) hin
    refine ⟨htracks.settled hdone, ?_⟩
    change (Race.run l.get _).catalogue.registry.contains _ = true
    rw [SortedMap.contains, htracks.held, hfirst]
    rfl

end Catalogue

end CodeAtlas
