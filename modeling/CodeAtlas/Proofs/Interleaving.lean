import CodeAtlas.Analysis.Race
import Mathlib.Data.List.Induction

/-!
# Declarations that are added at once

Several declarations that are added at once make their steps in any order (`Race.run`). One that is
left alone is added as `Catalogue.add` does it (`Declaration.steps_eq_add`).

Registry and nodes each keep what comes first, so in a race they may keep different declarations of
one id. `Race.node_run` says when: the symbol is that of the declaration that starts first, and the
node comes from the one that finishes first, which is the same one unless it is overtaken between
its first step and its last (`Race.Overtakes`).

`Race.Tracks` is what is known after any list of steps, and the induction is on the end of the list.
-/

namespace CodeAtlas

/-- A first value is found if there was none before. -/
theorem SortedMap.get?_insertNew_eq_or {κ α : Type} [Ord κ] [Std.TransOrd κ] [Std.LawfulEqOrd κ]
    [DecidableEq κ] {m : SortedMap κ α} {k k' : κ} {v : α} :
    (m.insertNew k v).get? k' = (m.get? k').or (if k = k' then some v else none) := by
  rw [get?_insertNew]
  by_cases hk : k' = k
  · subst hk
    rw [if_pos rfl, if_pos rfl]
    cases m.get? k' <;> rfl
  · rw [if_neg hk, if_neg (Ne.symm hk), Option.or_none]

/-- The first node of an id stays. -/
theorem NodeStore.register_eq {s : NodeStore} {n : Node} :
    (s.register n).2 = SortedMap.insertNew s n.id n := by
  unfold register
  by_cases hin : SortedMap.contains s n.id = true
  · obtain ⟨old, hold⟩ := SortedMap.contains_iff.mp hin
    rw [if_pos hin, SortedMap.insertNew_of_some hold]
  · have hnone := SortedMap.contains_eq_false_iff.mp (Bool.eq_false_iff.mpr hin)
    rw [if_neg hin, SortedMap.insertNew_of_none hnone]

namespace Declaration

variable {d : Declaration} {c : Catalogue}

/-- The three steps in a row add the declaration, unless it is to stay out. -/
theorem steps_eq_add {config : Config} (hskip : config.skipReason? d.symbol = none) :
    let started := d.step c .register
    let looked := d.step started.2 started.1
    d.step looked.2 looked.1 =
      (.done (c.add config d.symbol d.project).1, (c.add config d.symbol d.project).2) := by
  have hid : (c.registry.assign d.symbol).1 = d.id := rfl
  simp only [Catalogue.add, hskip, step, Option.isSome_none, Bool.false_eq_true, if_false, hid]
  by_cases hin : c.nodes.contains d.id = true
  · simp only [hin, if_true]
  · simp only [hin]
    rfl

variable {id : String} {stage : Stage} {outcome : Registration}

/-- After a step a declaration has started. -/
theorem step_ne_register : (d.step c stage).1 ≠ .register := by
  cases stage <;> simp only [step, ne_eq, reduceCtorEq, not_false_eq_true]
  split <;> nofun

/-- The first step registers the symbol, unless the id has one. -/
theorem registry_step : (d.step c stage).2.registry.get? id =
    (c.registry.get? id).or (if stage = .register ∧ d.id = id then some d.symbol else none) := by
  by_cases hstage : stage = .register
  · subst hstage
    change (c.registry.insertNew d.id d.symbol).get? id = _
    rw [SortedMap.get?_insertNew_eq_or]
    simp only [true_and]
  · rw [if_neg fun h => hstage h.1, Option.or_none]
    cases stage with
    | register => exact absurd rfl hstage
    | look => rfl
    | put => rfl
    | done outcome => rfl

/-- The last step puts the node in, unless the id has one. -/
theorem nodes_step : (d.step c stage).2.nodes.get? id =
    (c.nodes.get? id).or (if stage = .put ∧ d.id = id then some d.node else none) := by
  by_cases hstage : stage = .put
  · subst hstage
    change (c.nodes.register d.node).2.get? id = _
    rw [NodeStore.register_eq, SortedMap.get?_insertNew_eq_or]
    simp only [true_and]
    rfl
  · rw [if_neg fun h => hstage h.1, Option.or_none]
    cases stage with
    | put => exact absurd rfl hstage
    | look => rfl
    | register => rfl
    | done outcome => rfl

/-- A declaration that has been added has a node under its id. -/
theorem contains_of_step (hdone : ∀ outcome, stage = .done outcome → c.nodes.contains d.id = true)
    (h : (d.step c stage).1 = .done outcome) : (d.step c stage).2.nodes.contains d.id = true := by
  rw [SortedMap.contains, nodes_step]
  cases stage with
  | register => cases h
  | look =>
    simp only [step] at h
    split at h
    · rename_i hin
      obtain ⟨n, hn⟩ := SortedMap.contains_iff.mp hin
      rw [hn]
      rfl
    · cases h
  | put =>
    rw [if_pos ⟨rfl, rfl⟩]
    cases c.nodes.get? d.id <;> rfl
  | done outcome' =>
    obtain ⟨n, hn⟩ := SortedMap.contains_iff.mp (hdone outcome' rfl)
    rw [hn]
    rfl

/-- The node that is put in is that of a declaration which has just become done. -/
theorem registered_of_put (hnone : c.nodes.get? d.id = none) :
    (d.step c .put).1 = .done (.registered d.id) := by
  have hout : c.nodes.contains d.node.id = false := SortedMap.contains_eq_false_iff.mpr hnone
  simp only [step, NodeStore.register, hout, Bool.false_eq_true, if_false, if_true]

end Declaration

namespace Race

section First

variable {ι : Type} {d : ι → Declaration} {order : List ι} {i j : ι} {id : String}

/-- The first declaration with an id that a list names. -/
def first? (d : ι → Declaration) (order : List ι) (id : String) : Option ι :=
  order.find? fun i => (d i).id == id

theorem first?_concat : first? d (order ++ [i]) id =
    (first? d order id).or (if (d i).id = id then some i else none) := by
  rw [first?, List.find?_append, List.find?_singleton]
  simp only [beq_iff_eq]
  rfl

theorem first?_concat_of_some (h : first? d order id = some j) :
    first? d (order ++ [i]) id = some j := by
  rw [first?_concat, h, Option.some_or]

/-- Among the declarations with the id of one that is named some one is first. -/
theorem exists_first? (hi : i ∈ order) : ∃ first, first? d order (d i).id = some first :=
  Option.isSome_iff_exists.mp (List.find?_isSome.mpr ⟨i, hi, beq_self_eq_true _⟩)

theorem id_of_first? (h : first? d order id = some j) : (d j).id = id := by
  simpa using List.find?_some h

end First

variable {ι : Type} [DecidableEq ι] (d : ι → Declaration)

/-- In an order of steps one declaration puts its node in while another one is between its first
step and its last. -/
def Overtakes (order : List ι) (fast slow : ι) : Prop :=
  ∃ before after, order = before ++ fast :: after ∧ (run d before).stage fast = .put ∧
    slow ∈ before ∧ ∀ outcome, (run d before).stage slow ≠ .done outcome

variable {d} {order : List ι} {r : Race ι} {i j : ι} {id : String} {n : Node}

theorem run_concat : run d (order ++ [i]) = (run d order).step d i := by
  rw [run, List.foldl_append]
  rfl

theorem stage_step : (r.step d i).stage j =
    if j = i then ((d i).step r.catalogue (r.stage i)).1 else r.stage j := rfl

/-- More steps do not undo an overtaking. -/
theorem Overtakes.concat (h : Overtakes d order i j) {k : ι} : Overtakes d (order ++ [k]) i j := by
  obtain ⟨before, after, rfl, hput, hin, hgoing⟩ := h
  exact ⟨before, after ++ [k], by rw [List.append_assoc, List.cons_append], hput, hin, hgoing⟩

/-- What is known after a list of steps. -/
structure Tracks (d : ι → Declaration) (order : List ι) (r : Race ι) : Prop where
  started : ∀ i, r.stage i ≠ .register ↔ i ∈ order
  held : ∀ id, r.catalogue.registry.get? id = (first? d order id).map fun i => (d i).symbol
  settled : ∀ {i outcome}, r.stage i = .done outcome →
    r.catalogue.nodes.contains (d i).id = true
  built : ∀ {id n}, r.catalogue.nodes.get? id = some n →
    ∃ builder first, (d builder).id = id ∧ n = (d builder).node ∧
      r.stage builder = .done (.registered id) ∧ first? d order id = some first ∧
      (builder = first ∨ Overtakes d order builder first)

namespace Tracks

/-- Before the first step nothing is known. -/
theorem start : Tracks d [] (run d []) where
  started i := iff_of_false (fun h => h rfl) List.not_mem_nil
  held id := rfl
  settled h := by cases h
  built h := by cases h

section Step

variable (h : Tracks d order r)
include h

/-- The declarations that have started are those that have made a step. -/
theorem started_step : (r.step d i).stage j ≠ .register ↔ j ∈ order ++ [i] := by
  rw [stage_step, List.mem_append, List.mem_singleton, ← h.started]
  by_cases hj : j = i
  · rw [if_pos hj]
    exact iff_of_true Declaration.step_ne_register (.inr hj)
  · rw [if_neg hj, or_iff_left hj]

/-- A symbol is registered by the first declaration of its id to start. -/
theorem held_step : (r.step d i).catalogue.registry.get? id =
    (first? d (order ++ [i]) id).map fun i => (d i).symbol := by
  change ((d i).step r.catalogue (r.stage i)).2.registry.get? id = _
  rw [Declaration.registry_step, h.held, first?_concat]
  by_cases hid : (d i).id = id
  · subst hid
    cases hfirst : first? d order (d i).id with
    | some first => rfl
    | none =>
      -- then the declaration has not started either
      have hstart : r.stage i = .register := by
        by_contra hstart
        obtain ⟨first, hsome⟩ := exists_first? (d := d) ((h.started i).mp hstart)
        rw [hfirst] at hsome
        cases hsome
      rw [if_pos ⟨hstart, rfl⟩, if_pos rfl]
      rfl
  · rw [if_neg fun h => hid h.2, if_neg hid, Option.or_none, Option.or_none]

/-- A declaration that has been added finds a node. -/
theorem settled_step {outcome : Registration} (hdone : (r.step d i).stage j = .done outcome) :
    (r.step d i).catalogue.nodes.contains (d j).id = true := by
  rw [stage_step] at hdone
  change ((d i).step r.catalogue (r.stage i)).2.nodes.contains (d j).id = true
  by_cases hj : j = i
  · subst hj
    rw [if_pos rfl] at hdone
    exact Declaration.contains_of_step (fun _ => h.settled) hdone
  · rw [if_neg hj] at hdone
    obtain ⟨n, hn⟩ := SortedMap.contains_iff.mp (h.settled hdone)
    rw [SortedMap.contains, Declaration.nodes_step, hn]
    rfl

/-- A node that is there stays, and so does what is known about it: its declaration is done and
makes no more steps. -/
theorem built_step_of_some (hn : r.catalogue.nodes.get? id = some n) :
    ∃ builder first, (d builder).id = id ∧ n = (d builder).node ∧
      (r.step d i).stage builder = .done (.registered id) ∧
      first? d (order ++ [i]) id = some first ∧
      (builder = first ∨ Overtakes d (order ++ [i]) builder first) := by
  obtain ⟨builder, first, hid, hnode, hdone, hfirst, hcase⟩ := h.built hn
  refine ⟨builder, first, hid, hnode, ?_, first?_concat_of_some hfirst,
    hcase.imp_right fun hover => hover.concat⟩
  rw [stage_step]
  split
  · rename_i hbuilder
    rw [← hbuilder, hdone]
    rfl
  · exact hdone

/-- A node is put in by a declaration that started before. If it was not the first of its id to
start, the first one is not done yet, for otherwise there would be a node. -/
theorem built_step_of_none (hr : run d order = r) (hput : r.stage i = .put)
    (hnone : r.catalogue.nodes.get? (d i).id = none) :
    ∃ first, (r.step d i).stage i = .done (.registered (d i).id) ∧
      first? d (order ++ [i]) (d i).id = some first ∧
      (i = first ∨ Overtakes d (order ++ [i]) i first) := by
  have hi : i ∈ order := (h.started i).mp (by rw [hput]; exact Stage.noConfusion)
  obtain ⟨first, hfirst⟩ := exists_first? (d := d) hi
  refine ⟨first, ?_, first?_concat_of_some hfirst, ?_⟩
  · rw [stage_step, if_pos rfl, hput, Declaration.registered_of_put hnone]
  · by_cases hbuilder : i = first
    · exact .inl hbuilder
    · refine .inr ⟨order, [], rfl, hr ▸ hput, List.mem_of_find?_eq_some hfirst, ?_⟩
      intro outcome hdone
      have hin := h.settled (hr ▸ hdone)
      rw [id_of_first? hfirst, SortedMap.contains, hnone] at hin
      cases hin

end Step

/-- A step keeps track. -/
theorem concat (h : Tracks d order (run d order)) (i : ι) :
    Tracks d (order ++ [i]) (run d (order ++ [i])) := by
  rw [run_concat]
  refine ⟨fun j => h.started_step, fun id => h.held_step, h.settled_step, fun {id n} hn => ?_⟩
  change ((d i).step _ ((run d order).stage i)).2.nodes.get? id = some n at hn
  rw [Declaration.nodes_step] at hn
  cases hold : (run d order).catalogue.nodes.get? id with
  | some old =>
    rw [hold, Option.some_or] at hn
    cases hn
    exact h.built_step_of_some hold
  | none =>
    rw [hold, Option.none_or, Option.ite_none_right_eq_some] at hn
    obtain ⟨⟨hput, rfl⟩, hn⟩ := hn
    cases hn
    obtain ⟨first, hknown⟩ := h.built_step_of_none rfl hput hold
    exact ⟨i, first, rfl, rfl, hknown⟩

/-- So do any number of steps. -/
theorem run (order : List ι) : Tracks d order (run d order) := by
  induction order using List.reverseRecOn with
  | nil => exact .start
  | append_singleton order i ih => exact ih.concat i

end Tracks

/-- Whatever the order of the steps, each node that is there in the end comes from a declaration of
its id that has registered it, and the symbol that is registered under the id is that of the first
declaration of the id to start. They are the same one, unless the first one was overtaken. -/
theorem node_run (d : ι → Declaration) (order : List ι) (id : String) (n : Node)
    (hn : (run d order).catalogue.nodes.get? id = some n) :
    ∃ builder first, (d builder).symbol.identity = id ∧
      n = (d builder).symbol.toNode (d builder).project ∧
      (run d order).stage builder = .done (.registered id) ∧
      order.find? (fun i => (d i).symbol.identity == id) = some first ∧
      (run d order).catalogue.registry.get? id = some (d first).symbol ∧
      (builder = first ∨ Overtakes d order builder first) := by
  have htracks := Tracks.run (d := d) order
  obtain ⟨builder, first, hid, rfl, hdone, hfirst, hcase⟩ := htracks.built hn
  refine ⟨builder, first, hid, rfl, hdone, hfirst, ?_, hcase⟩
  rw [htracks.held, hfirst]
  rfl

/-- Two declarations of one class, of which the second starts later and finishes first. -/
theorem node_run_two_declarations :
    let order := Symbol.typeIn "Shop" "Shop" "Order" .classType
    let d : Bool → Declaration := fun late =>
      ⟨{ order with isReadOnly := late }, .named "shop" "Shop"⟩
    let steps := [false, true, true, true, false, false]
    (run d steps).catalogue.registry.get? order.identity = some (d false).symbol ∧
      Overtakes d steps true false := by
  intro order d steps
  obtain ⟨builder, first, -, -, hdone, hfirst, hheld, hcase⟩ := node_run d steps order.identity
    ((d true).symbol.toNode (d true).project) (by decide +kernel)
  obtain rfl : first = false := Option.some.inj (hfirst.symm.trans (by decide +kernel))
  refine ⟨hheld, ?_⟩
  rcases hcase with rfl | hcase
  · exact absurd hdone (by decide +kernel)
  · cases builder with
    | true => exact hcase
    | false => exact absurd hdone (by decide +kernel)

/-- Then the node that is kept and the symbol that is registered belong to different declarations.
-/
theorem run_keeps_other_symbol :
    let order := Symbol.typeIn "Shop" "Shop" "Order" .classType
    let record := { order with typeCategory := some .record }
    let d : Bool → Declaration := fun late =>
      if late then ⟨record, .named "web" "Web"⟩ else ⟨order, .named "shop" "Shop"⟩
    let race := run d [false, true, true, true, false]
    (∀ i, ∃ outcome, race.stage i = .done outcome) ∧
      race.catalogue.nodes.get? order.identity = some (record.toNode (.named "web" "Web")) ∧
      race.catalogue.registry.get? order.identity = some order ∧
      ∀ project, record.toNode (.named "web" "Web") ≠ order.toNode project := by
  intro order record d race
  refine ⟨fun i => ?_, by decide +kernel, by decide +kernel, fun project heq => ?_⟩
  · cases i with
    | false => exact ⟨.duplicate order.identity, by decide +kernel⟩
    | true => exact ⟨.registered order.identity, by decide +kernel⟩
  · have hcategory : some TypeCategory.record = some .classType :=
      congrArg Node.declaredTypeCategory heq
    cases hcategory

end Race

end CodeAtlas
