import CodeAtlas.Proofs.Interleaving

/-!
# What a node store remembers

Nodes are registered in a store and updated there, in any order and any number of times. The node
under an id is the one that was registered first, and an update changes at most its role and its
feature. So after any operations the store is known from their list (`NodeStore.get?_after`): a node
is as it was registered first, with the role and the feature that were last set after that.
`NodeStore.remembers_after` says what follows for the answers of the operations and for the keys.

The proof is by induction on the operations, from what one of them makes of the node under an id
(`NodeStore.get?_perform`).
-/

namespace CodeAtlas

/-- What an update sets in a node; what it does not give stays. -/
structure NodeUpdate where
  role : Option Role := none
  feature : Option (Option String) := none

/-- An operation on a store of nodes. -/
inductive NodeStep where
  | register (n : Node)
  | update (id : String) (u : NodeUpdate)

/-- The node after an update. -/
def NodeUpdate.apply (u : NodeUpdate) (n : Node) : Node :=
  { n with
    role := u.role.getD n.role
    featureBoundary := u.feature.getD n.featureBoundary }

namespace NodeStep

/-- The node that is registered, if it has the id. -/
def registered? (id : String) : NodeStep → Option Node
  | register n => if n.id = id then some n else none
  | update _ _ => none

/-- The update that is made under the id. -/
def update? (id : String) : NodeStep → Option NodeUpdate
  | register _ => none
  | update id' u => if id' = id then some u else none

/-- The node that is registered first with an id, and the operations after that. -/
def firstRegistration? (id : String) : List NodeStep → Option (Node × List NodeStep)
  | [] => none
  | step :: later =>
    match step.registered? id with
    | some n => some (n, later)
    | none => firstRegistration? id later

/-- What is last set under an id in a field. -/
def lastSet? {β : Type} (field : NodeUpdate → Option β) (id : String) (steps : List NodeStep) :
    Option β :=
  (steps.filterMap fun step => (step.update? id).bind field).getLast?

/-- A node under an id with the role and the feature that are last set there. -/
def settled (id : String) (n : Node) (steps : List NodeStep) : Node :=
  { n with
    role := (lastSet? (·.role) id steps).getD n.role
    featureBoundary := (lastSet? (·.feature) id steps).getD n.featureBoundary }

end NodeStep

namespace NodeStore

/-- What an operation answers, and the store after it. -/
def perform (s : NodeStore) : NodeStep → Bool × NodeStore
  | .register n => s.register n
  | .update id u => s.change id u.apply

/-- The store after some operations. -/
def performAll (s : NodeStore) (steps : List NodeStep) : NodeStore :=
  steps.foldl (fun s step => (s.perform step).2) s

/-- The store after operations on the empty one. -/
def after (steps : List NodeStep) : NodeStore := performAll .empty steps

/-- The operation with which roles and features are assigned is an update. -/
theorem assign_eq_perform {s : NodeStore} {id : String} {role : Option Role}
    {feature : Option String} :
    s.assign id role feature = s.perform (.update id ⟨role, feature.map some⟩) := by
  rw [assign, perform]
  refine congrArg (s.change id) (funext fun n => ?_)
  cases feature <;> rfl

end NodeStore

/-! ## One operation -/

namespace NodeStep

variable {β : Type} {field : NodeUpdate → Option β} {id : String} {step : NodeStep}
  {later : List NodeStep}

theorem registered?_eq_some {n : Node} :
    step.registered? id = some n ↔ step = .register n ∧ n.id = id := by
  cases step with
  | register m =>
    rw [registered?, Option.ite_none_right_eq_some, Option.some_inj, NodeStep.register.injEq]
    exact ⟨fun ⟨hid, hm⟩ => ⟨hm, hm ▸ hid⟩, fun ⟨hm, hid⟩ => ⟨hm ▸ hid, hm⟩⟩
  | update id' u => exact ⟨nofun, fun h => nomatch h.1⟩

/-- What an operation sets stays unless a later one sets it. -/
theorem getD_lastSet?_cons {d : β} : (lastSet? field id (step :: later)).getD d =
    (lastSet? field id later).getD (((step.update? id).bind field).getD d) := by
  rw [lastSet?, List.filterMap_cons]
  cases (step.update? id).bind field with
  | none => rfl
  | some b =>
    rw [List.getLast?_cons]
    rfl

/-- The first of some operations on a node may be done before the others. -/
theorem settled_cons {n : Node} : settled id n (step :: later) =
    settled id ((step.update? id).elim n (·.apply n)) later := by
  rw [settled, getD_lastSet?_cons, getD_lastSet?_cons]
  cases step.update? id <;> rfl

end NodeStep

namespace NodeStore

variable {s : NodeStore} {step : NodeStep} {steps : List NodeStep} {id : String}

/-- An operation updates the node under an id, or registers one where there is none. -/
theorem get?_perform : (s.perform step).2.get? id =
    ((s.get? id).map fun n => (step.update? id).elim n (·.apply n)).or (step.registered? id) := by
  cases step with
  | register n =>
    rw [perform, register_eq, SortedMap.get?_insertNew_eq_or]
    simp [NodeStep.update?, NodeStep.registered?]
  | update id' u =>
    rw [NodeStep.registered?, Option.or_none, perform, change]
    by_cases hid : id' = id
    · subst hid
      rw [NodeStep.update?, if_pos rfl]
      cases hn : s.get? id' with
      | none => rw [hn]; rfl
      | some n => rw [SortedMap.get?_insert, if_pos rfl]; rfl
    · have hsame : ∀ o : Option Node, (o.map fun n =>
          ((NodeStep.update id' u).update? id).elim n (·.apply n)) = o := fun o => by
        rw [NodeStep.update?, if_neg hid]
        exact Option.map_id'
      rw [hsame]
      cases s.get? id' with
      | none => rfl
      | some n => rw [SortedMap.get?_insert, if_neg (Ne.symm hid)]

/-! ## All operations -/

/-- A node stays under its id and is only updated; otherwise the first one that is registered with
the id is found. -/
theorem get?_performAll : (s.performAll steps).get? id =
      ((s.get? id).map fun n => NodeStep.settled id n steps).or
        ((NodeStep.firstRegistration? id steps).map fun f => NodeStep.settled id f.1 f.2) := by
  induction steps generalizing s with
  | nil => simp [performAll, NodeStep.firstRegistration?, NodeStep.settled, NodeStep.lastSet?]
  | cons step later ih =>
    rw [performAll, List.foldl_cons, ← performAll, ih, get?_perform, NodeStep.firstRegistration?]
    cases s.get? id with
    | some n => simp only [Option.map_some, Option.some_or, NodeStep.settled_cons]
    | none =>
      simp only [Option.map_none, Option.none_or]
      cases step.registered? id <;> rfl

/-- The node under an id after operations on the empty store. -/
theorem get?_after : (after steps).get? id =
    (NodeStep.firstRegistration? id steps).map fun f => NodeStep.settled id f.1 f.2 :=
  get?_performAll

end NodeStore

/-! ## The first registration -/

namespace NodeStep

variable {steps later : List NodeStep} {id : String} {n : Node}

/-- The node has the id with which it is found. -/
theorem id_of_firstRegistration? (h : firstRegistration? id steps = some (n, later)) :
    n.id = id := by
  induction steps with
  | nil => cases h
  | cons step rest ih =>
    rw [firstRegistration?] at h
    cases hstep : step.registered? id with
    | some m =>
      rw [hstep] at h
      cases h
      exact (registered?_eq_some.mp hstep).2
    | none =>
      rw [hstep] at h
      exact ih h

/-- There is none if no node with the id is registered. -/
theorem firstRegistration?_eq_none_iff :
    firstRegistration? id steps = none ↔ ∀ m, .register m ∈ steps → m.id ≠ id := by
  induction steps with
  | nil => exact iff_of_true rfl fun _ hm => absurd hm List.not_mem_nil
  | cons step rest ih =>
    rw [firstRegistration?]
    cases hstep : step.registered? id with
    | some m =>
      obtain ⟨rfl, hid⟩ := registered?_eq_some.mp hstep
      exact iff_of_false nofun fun h => h m List.mem_cons_self hid
    | none =>
      rw [ih]
      refine ⟨fun h m hm heq => ?_, fun h m hm => h m (List.mem_cons_of_mem step hm)⟩
      rcases List.mem_cons.mp hm with rfl | hm
      · exact Option.some_ne_none m ((if_pos heq).symm.trans hstep)
      · exact h m hm heq

end NodeStep

/-! ## Answers and keys -/

namespace NodeStore

variable {s : NodeStore} {steps : List NodeStep} {id : String} {n : Node} {u : NodeUpdate}

/-- A node is registered unless its id has one. -/
theorem register_answer : (s.perform (.register n)).1 = true ↔ s.contains n.id = false := by
  rw [perform, register]
  cases SortedMap.contains s n.id <;> simp

/-- A node is updated if there is one; else the store stays as it is. -/
theorem update_answer : (s.perform (.update id u)).1 = s.contains id ∧
    (s.contains id = false → (s.perform (.update id u)).2 = s) := by
  rw [perform, change, SortedMap.contains]
  cases s.get? id with
  | none => exact ⟨rfl, fun _ => rfl⟩
  | some n => exact ⟨rfl, fun h => by cases h⟩

/-- An id is missing if no node was registered with it. -/
theorem contains_after_eq_false_iff :
    (after steps).contains id = false ↔ ∀ m, .register m ∈ steps → m.id ≠ id := by
  rw [SortedMap.contains_eq_false_iff, get?_after, Option.map_eq_none_iff,
    NodeStep.firstRegistration?_eq_none_iff]

/-- The store is what the operations leave: of every id the first node, updated in place. -/
structure Remembers (steps : List NodeStep) (s : NodeStore) : Prop where
  /-- A node is registered exactly if it is the first one of its id. -/
  register_iff : ∀ n, (s.perform (.register n)).1 = true ↔ ∀ m, .register m ∈ steps → m.id ≠ n.id
  /-- An update fails exactly if no node was registered with the id, -/
  update_iff : ∀ id u, (s.perform (.update id u)).1 = false ↔
    ∀ m, .register m ∈ steps → m.id ≠ id
  /-- and then changes nothing. -/
  update_unknown : ∀ id u, (s.perform (.update id u)).1 = false →
    (s.perform (.update id u)).2 = s
  key_eq : ∀ id n, s.get? id = some n → n.id = id
  /-- No key is lost in later operations. -/
  key_stays : ∀ more id, s.contains id = true → (s.performAll more).contains id = true
  /-- A node is the first one of its id, with the role and the feature that were set last. -/
  node_eq : ∀ earlier n later, steps = earlier ++ .register n :: later →
    (∀ m, .register m ∈ earlier → m.id ≠ n.id) →
    s.get? n.id = some (NodeStep.settled n.id n later)

/-- A store remembers all operations that were done on it since it was empty. -/
theorem remembers_after (steps : List NodeStep) : Remembers steps (after steps) where
  register_iff n := register_answer.trans contains_after_eq_false_iff
  update_iff id u := by rw [update_answer.1, contains_after_eq_false_iff]
  update_unknown id u h := update_answer.2 (update_answer.1 ▸ h)
  key_eq id n h := by
    rw [get?_after, Option.map_eq_some_iff] at h
    obtain ⟨⟨first, later⟩, hfirst, rfl⟩ := h
    change first.id = id
    exact NodeStep.id_of_firstRegistration? hfirst
  key_stays more id h := by
    obtain ⟨n, hn⟩ := SortedMap.contains_iff.mp h
    rw [SortedMap.contains, get?_performAll, hn]
    rfl
  node_eq earlier n later hsteps hearlier := by
    rw [hsteps, after, performAll, List.foldl_append, List.foldl_cons, ← performAll, ← performAll,
      get?_performAll, get?_perform, ← after, SortedMap.contains_eq_false_iff.mp
        (contains_after_eq_false_iff.mpr hearlier)]
    rw [NodeStep.registered?, if_pos rfl]
    rfl

end NodeStore

end CodeAtlas
