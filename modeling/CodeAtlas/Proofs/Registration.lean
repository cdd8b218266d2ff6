import CodeAtlas.Proofs.Catalogue
import CodeAtlas.Proofs.Interleaving

/-!
# Declarations that are added one after the other

When a list of declarations is added to the empty catalogue, the first one of each id is registered
and every later one is a duplicate, whatever the projects and the other declarations are
(`Catalogue.RegistersFirst`, `Catalogue.registersFirst`).

Nodes and registry are known from the list: under an id they hold the first declaration of the id
that is for the graph (`Catalogue.get?_nodes_addEach`, `Catalogue.get?_registry_addEach`, by
induction on the list). The outcome of one declaration follows from what stands before it.
-/

namespace CodeAtlas

/-- The declaration is one for the graph, with this id. -/
def Declaration.isFor (config : Config) (id : String) (d : Declaration) : Bool :=
  (config.skipReason? d.symbol).isNone && d.id == id

theorem Declaration.isFor_iff {config : Config} {id : String} {d : Declaration} :
    d.isFor config id = true ↔ config.skipReason? d.symbol = none ∧ d.id = id := by
  rw [isFor, Bool.and_eq_true, Option.isNone_iff_eq_none, beq_iff_eq]

namespace Catalogue

variable {config : Config} {c : Catalogue} {d : Declaration} {calls : List Declaration}
  {id : String} {i : Nat}

/-! ## One declaration -/

/-- A declaration for the graph puts in its node, unless the id has one. -/
theorem get?_nodes_add : (c.add config d.symbol d.project).2.nodes.get? id =
    (c.nodes.get? id).or (if d.isFor config id then some d.node else none) := by
  cases hskip : config.skipReason? d.symbol with
  | some reason =>
    have hout : ¬ d.isFor config id = true := by simp [Declaration.isFor_iff, hskip]
    rw [add_of_skipped hskip, if_neg hout, Option.or_none]
  | none =>
    by_cases hid : d.id = id
    · subst hid
      rw [if_pos (Declaration.isFor_iff.mpr ⟨hskip, rfl⟩)]
      cases hn : c.nodes.get? d.id with
      | some n => rw [add_of_known hskip hn]; exact hn
      | none => rw [add_of_fresh hskip hn, SortedMap.get?_insert]; exact if_pos rfl
    · have hout : ¬ d.isFor config id = true := by simp [Declaration.isFor_iff, hid]
      rw [if_neg hout, Option.or_none]
      cases hn : c.nodes.get? d.id with
      | some n => rw [add_of_known hskip hn]
      | none => rw [add_of_fresh hskip hn, SortedMap.get?_insert]; exact if_neg (Ne.symm hid)

/-- It registers its symbol, unless the id has one. -/
theorem get?_registry_add : (c.add config d.symbol d.project).2.registry.get? id =
    (c.registry.get? id).or (if d.isFor config id then some d.symbol else none) := by
  cases hskip : config.skipReason? d.symbol with
  | some reason =>
    have hout : ¬ d.isFor config id = true := by simp [Declaration.isFor_iff, hskip]
    rw [add_of_skipped hskip, if_neg hout, Option.or_none]
  | none =>
    have hregistry : (c.add config d.symbol d.project).2.registry =
        c.registry.insertNew d.id d.symbol := by
      cases hn : c.nodes.get? d.id with
      | some n => rw [add_of_known hskip hn]; rfl
      | none => rw [add_of_fresh hskip hn]; rfl
    rw [hregistry, SortedMap.get?_insertNew_eq_or]
    simp only [Declaration.isFor_iff, hskip, true_and]

/-- What becomes of a declaration depends on whether it is for the graph and whether its id has a
node. -/
theorem outcome_add : (c.add config d.symbol d.project).1 =
    if (config.skipReason? d.symbol).isSome then .skipped
    else if c.nodes.contains d.id then .duplicate d.id else .registered d.id := by
  cases hskip : config.skipReason? d.symbol with
  | some reason => rw [add_of_skipped hskip]; rfl
  | none =>
    cases hn : c.nodes.get? d.id with
    | some n => rw [add_of_known hskip hn, SortedMap.contains, hn]; rfl
    | none => rw [add_of_fresh hskip hn, SortedMap.contains, hn]; rfl

/-- A declaration is skipped if there is a reason. -/
theorem add_eq_skipped_iff : (c.add config d.symbol d.project).1 = .skipped ↔
    (config.skipReason? d.symbol).isSome = true := by
  rw [outcome_add]
  split
  · rename_i hskip
    exact iff_of_true rfl hskip
  · rename_i hskip
    refine iff_of_false ?_ hskip
    split <;> exact Registration.noConfusion

/-- It is registered under its id if this has no node. -/
theorem add_eq_registered_iff : (c.add config d.symbol d.project).1 = .registered id ↔
    d.isFor config id = true ∧ c.nodes.contains id = false := by
  rw [outcome_add, Declaration.isFor_iff]
  cases config.skipReason? d.symbol with
  | some reason => simp
  | none =>
    by_cases hid : d.id = id
    · subst hid
      cases c.nodes.contains d.id <;> simp
    · cases c.nodes.contains d.id <;> simp [hid]

/-- It is a duplicate of its id if this has a node. -/
theorem add_eq_duplicate_iff : (c.add config d.symbol d.project).1 = .duplicate id ↔
    d.isFor config id = true ∧ c.nodes.contains id = true := by
  rw [outcome_add, Declaration.isFor_iff]
  cases config.skipReason? d.symbol with
  | some reason => simp
  | none =>
    by_cases hid : d.id = id
    · subst hid
      cases c.nodes.contains d.id <;> simp
    · cases c.nodes.contains d.id <;> simp [hid]

/-! ## A list of declarations -/

/-- The catalogue with some declarations added, one after the other. -/
def addEach (c : Catalogue) (config : Config) (calls : List Declaration) : Catalogue :=
  calls.foldl (fun c d => (c.add config d.symbol d.project).2) c

/-- Under an id stands the node of before, or else that of the first declaration for it. -/
theorem get?_nodes_addEach : (c.addEach config calls).nodes.get? id =
    (c.nodes.get? id).or ((calls.find? (·.isFor config id)).map (·.node)) := by
  induction calls generalizing c with
  | nil => exact Option.or_none.symm
  | cons d rest ih =>
    refine ih.trans ?_
    rw [get?_nodes_add, Option.or_assoc, List.find?_cons]
    cases d.isFor config id <;> rfl

/-- Under an id stands the symbol of before, or else that of the first declaration for it. -/
theorem get?_registry_addEach : (c.addEach config calls).registry.get? id =
    (c.registry.get? id).or ((calls.find? (·.isFor config id)).map (·.symbol)) := by
  induction calls generalizing c with
  | nil => exact Option.or_none.symm
  | cons d rest ih =>
    refine ih.trans ?_
    rw [get?_registry_add, Option.or_assoc, List.find?_cons]
    cases d.isFor config id <;> rfl

/-- Adding declarations keeps a catalogue coherent. -/
theorem Coherent.addEach {D : Symbol → Project → Prop} (h : Coherent D c)
    (hcalls : ∀ d ∈ calls, config.skipReason? d.symbol = none → D d.symbol d.project) :
    Coherent D (c.addEach config calls) := by
  induction calls generalizing c with
  | nil => exact h
  | cons d rest ih =>
    exact ih (h.add (hcalls d List.mem_cons_self)) fun d' hd' =>
      hcalls d' (List.mem_cons_of_mem d hd')

/-- The catalogue after the first declarations of a list. -/
def after (config : Config) (calls : List Declaration) (i : Nat) : Catalogue :=
  ({} : Catalogue).addEach config (calls.take i)

/-- What becomes of the declaration at a place of a list. -/
def outcome? (config : Config) (calls : List Declaration) (i : Nat) : Option Registration :=
  calls[i]?.map fun d => ((after config calls i).add config d.symbol d.project).1

theorem after_succ (h : calls[i]? = some d) :
    after config calls (i + 1) = ((after config calls i).add config d.symbol d.project).2 := by
  rw [after, List.take_add_one, h, addEach, List.foldl_append]
  rfl

/-- An id has a node once a declaration for it has been added. -/
theorem contains_nodes_after : (after config calls i).nodes.contains id = true ↔
    ∃ d ∈ calls.take i, d.isFor config id = true := by
  rw [SortedMap.contains, after, get?_nodes_addEach, SortedMap.get?_empty, Option.none_or,
    Option.isSome_map, List.find?_isSome]

/-- And so it has a symbol. -/
theorem contains_registry_after : (after config calls i).registry.contains id = true ↔
    ∃ d ∈ calls.take i, d.isFor config id = true := by
  rw [SortedMap.contains, after, get?_registry_addEach, SortedMap.get?_empty, Option.none_or,
    Option.isSome_map, List.find?_isSome]

/-- A declaration that is not registered leaves the catalogue as it is. -/
theorem after_succ_of_not_registered (h : ∀ id, outcome? config calls i ≠ some (.registered id)) :
    after config calls (i + 1) = after config calls i := by
  cases hd : calls[i]? with
  | none =>
    have hi : calls.length ≤ i := List.getElem?_eq_none_iff.mp hd
    rw [after, after, List.take_of_length_le hi, List.take_of_length_le (Nat.le_succ_of_le hi)]
  | some d =>
    have hcoherent : Coherent (fun _ _ => True) (after config calls i) :=
      Coherent.empty.addEach fun _ _ _ => trivial
    rw [after_succ hd]
    rcases hcoherent.add_cases config d.symbol d.project with hsame | ⟨hskip, hnone, -⟩
    · exact hsame
    · refine absurd ?_ (h d.id)
      rw [outcome?, hd, Option.map_some, add_of_fresh hskip hnone]
      rfl

/-! ## Outcomes -/

/-- A declaration is the first one for an id if it is for the id and none before it is. -/
theorem findIdx?_isFor : calls.findIdx? (·.isFor config id) = some i ↔
    ∃ d, calls[i]? = some d ∧ d.isFor config id = true ∧
      (after config calls i).nodes.contains id = false := by
  rw [List.findIdx?_eq_some_iff_getElem]
  constructor
  · rintro ⟨hi, hfor, hbefore⟩
    refine ⟨calls[i], List.getElem?_eq_getElem hi, hfor, Bool.eq_false_iff.mpr fun hin => ?_⟩
    obtain ⟨d, hd, hdfor⟩ := contains_nodes_after.mp hin
    obtain ⟨j, hj, rfl⟩ := List.mem_take_iff_getElem.mp hd
    exact hbefore j (by omega) hdfor
  · rintro ⟨d, hd, hfor, hout⟩
    obtain ⟨hi, rfl⟩ := List.getElem?_eq_some_iff.mp hd
    refine ⟨hi, hfor, fun j hj hjfor => ?_⟩
    have hin : (after config calls i).nodes.contains id = true :=
      contains_nodes_after.mpr ⟨calls[j], List.mem_take_iff_getElem.mpr ⟨j, by omega, rfl⟩, hjfor⟩
    rw [hout] at hin
    cases hin

theorem outcome?_eq_skipped_iff : outcome? config calls i = some .skipped ↔
    ∃ d, calls[i]? = some d ∧ (config.skipReason? d.symbol).isSome = true := by
  rw [outcome?, Option.map_eq_some_iff]
  exact exists_congr fun d => and_congr_right fun _ => add_eq_skipped_iff

/-- Exactly the first declaration for an id is registered. -/
theorem outcome?_eq_registered_iff : outcome? config calls i = some (.registered id) ↔
    calls.findIdx? (·.isFor config id) = some i := by
  rw [outcome?, Option.map_eq_some_iff, findIdx?_isFor]
  exact exists_congr fun d => and_congr_right fun _ => add_eq_registered_iff

/-- Exactly the later declarations for an id are duplicates. -/
theorem outcome?_eq_duplicate_iff : outcome? config calls i = some (.duplicate id) ↔
    (∃ d, calls[i]? = some d ∧ d.isFor config id = true) ∧
      ∃ earlier ∈ calls.take i, earlier.isFor config id = true := by
  rw [outcome?, Option.map_eq_some_iff, ← contains_nodes_after]
  simp only [add_eq_duplicate_iff, ← and_assoc, exists_and_right]

/-! ## The whole list -/

/-- How a list of declarations is added to the empty catalogue. -/
structure RegistersFirst (config : Config) (calls : List Declaration) : Prop where
  /-- A declaration is skipped exactly if there is a reason. -/
  skipped : ∀ i, outcome? config calls i = some .skipped ↔
    ∃ d, calls[i]? = some d ∧ (config.skipReason? d.symbol).isSome = true
  /-- The first declaration for an id is registered, and no other one. -/
  registered : ∀ i id, outcome? config calls i = some (.registered id) ↔
    calls.findIdx? (·.isFor config id) = some i
  /-- Later declarations for the id are duplicates. -/
  duplicate : ∀ i id, outcome? config calls i = some (.duplicate id) ↔
    (∃ d, calls[i]? = some d ∧ d.isFor config id = true) ∧
      ∃ earlier ∈ calls.take i, earlier.isFor config id = true
  /-- Only a registration changes the catalogue. -/
  unchanged : ∀ i, (∀ id, outcome? config calls i ≠ some (.registered id)) →
    after config calls (i + 1) = after config calls i
  /-- There is exactly one registration for the id of each declaration that is not skipped. -/
  unique : ∀ d ∈ calls, config.skipReason? d.symbol = none →
    ∃! i, outcome? config calls i = some (.registered d.id)
  /-- In the end the nodes have the ids of these declarations. -/
  nodes : ∀ id, (after config calls calls.length).nodes.contains id = true ↔
    ∃ d ∈ calls, config.skipReason? d.symbol = none ∧ d.id = id
  /-- And so has the registry. -/
  registry : ∀ id, (after config calls calls.length).registry.contains id = true ↔
    ∃ d ∈ calls, config.skipReason? d.symbol = none ∧ d.id = id
  /-- Node and symbol of an id are those of the declaration that was registered. -/
  kept : ∀ i id, outcome? config calls i = some (.registered id) → ∃ d n, calls[i]? = some d ∧
    d.symbol.toNode? config d.project = some n ∧
    (after config calls calls.length).nodes.get? id = some n ∧
    (after config calls calls.length).registry.get? id = some d.symbol
  /-- The ids do not depend on the order. -/
  rearranged : ∀ calls', calls.Perm calls' →
    (after config calls' calls'.length).nodes.keys = (after config calls calls.length).nodes.keys ∧
    (after config calls' calls'.length).registry.keys =
      (after config calls calls.length).registry.keys

/-- An id that is given has exactly one registration. -/
theorem existsUnique_registered (hd : d ∈ calls) (hskip : config.skipReason? d.symbol = none) :
    ∃! i, outcome? config calls i = some (.registered d.id) := by
  have hsome : (calls.findIdx? (·.isFor config d.id)).isSome = true := by
    rw [List.findIdx?_isSome, List.any_eq_true]
    exact ⟨d, hd, Declaration.isFor_iff.mpr ⟨hskip, rfl⟩⟩
  obtain ⟨i, hi⟩ := Option.isSome_iff_exists.mp hsome
  refine ⟨i, outcome?_eq_registered_iff.mpr hi, fun j hj => ?_⟩
  exact Option.some.inj ((outcome?_eq_registered_iff.mp hj).symm.trans hi)

/-- What is registered stays to the end. -/
theorem kept_of_registered (h : outcome? config calls i = some (.registered id)) :
    ∃ d n, calls[i]? = some d ∧ d.symbol.toNode? config d.project = some n ∧
      (after config calls calls.length).nodes.get? id = some n ∧
      (after config calls calls.length).registry.get? id = some d.symbol := by
  have hfirst : calls.findIdx? (·.isFor config id) = some i := outcome?_eq_registered_iff.mp h
  obtain ⟨d, hd, hfor, -⟩ := findIdx?_isFor.mp hfirst
  have hfind : calls.find? (·.isFor config id) = some d := by
    rw [List.find?_eq_bind_findIdx?_getElem?, hfirst]
    exact hd
  refine ⟨d, d.node, hd, ?_, ?_, ?_⟩
  · rw [Symbol.toNode?, (Declaration.isFor_iff.mp hfor).1]
    rfl
  · rw [after, List.take_length, get?_nodes_addEach, hfind]
    rfl
  · rw [after, List.take_length, get?_registry_addEach, hfind]
    rfl

/-- Whatever the list, declarations are registered in this way. -/
theorem registersFirst (config : Config) (calls : List Declaration) :
    RegistersFirst config calls where
  skipped i := outcome?_eq_skipped_iff
  registered i id := outcome?_eq_registered_iff
  duplicate i id := outcome?_eq_duplicate_iff
  unchanged i := after_succ_of_not_registered
  unique d := existsUnique_registered
  nodes id := by simp only [contains_nodes_after, List.take_length, Declaration.isFor_iff]
  registry id := by simp only [contains_registry_after, List.take_length, Declaration.isFor_iff]
  kept i id := kept_of_registered
  rearranged calls' h := by
    constructor
    · refine SortedSet.ext_mem fun id => ?_
      simp only [SortedMap.mem_keys, contains_nodes_after, List.take_length, h.mem_iff]
    · refine SortedSet.ext_mem fun id => ?_
      simp only [SortedMap.mem_keys, contains_registry_after, List.take_length, h.mem_iff]

end Catalogue

end CodeAtlas
