import CodeAtlas.Analysis.Run
import CodeAtlas.Proofs.Step

/-!
# What the tasks of an analysis put forward

What a task stores, it puts forward (`Script.offers`); whether the store takes it is another matter.
A task that is made of parts puts forward what its parts do, as long as none of them fails
(`Script.offers_bind`). Collecting at a node puts forward relationships between nodes of the
catalogue only (`Analysis.ends_of_mem_offers`), whatever the resolver answers.
-/

namespace CodeAtlas

namespace Script

variable {α β : Type} {x : Script α} {f : α → Script β} {a : α} {e : ResolverError}

/-- The relationships that a task puts forward. -/
def offers (x : Script α) : List Relationship := Action.offers x.actions

theorem actions_bind_ok (h : x.ending = .ok a) :
    (x >>= f).actions = x.actions ++ (f a).actions := by
  simp only [bind, h]

theorem actions_bind_error (h : x.ending = .error e) : (x >>= f).actions = x.actions := by
  simp only [bind, h]

theorem ending_bind_ok (h : x.ending = .ok a) : (x >>= f).ending = (f a).ending := by
  simp only [bind, h]

theorem ending_bind_error (h : x.ending = .error e) : (x >>= f).ending = .error e := by
  simp only [bind, h]

/-- A second part puts its relationships forward if the first one succeeds. -/
theorem offers_bind_ok (h : x.ending = .ok a) : (x >>= f).offers = x.offers ++ (f a).offers := by
  rw [offers, actions_bind_ok h, Action.offers, List.filterMap_append]
  rfl

theorem offers_bind_error (h : x.ending = .error e) : (x >>= f).offers = x.offers := by
  rw [offers, actions_bind_error h, offers]

/-- What two parts put forward is put forward by one of them. -/
theorem mem_offers_bind {r : Relationship} (hr : r ∈ (x >>= f).offers) :
    r ∈ x.offers ∨ ∃ a, r ∈ (f a).offers := by
  cases h : x.ending with
  | error e =>
    rw [offers_bind_error h] at hr
    exact .inl hr
  | ok a =>
    rw [offers_bind_ok h, List.mem_append] at hr
    exact hr.imp_right fun hr => ⟨a, hr⟩

/-- Over a list, each relationship is put forward for some element. -/
theorem mem_offers_each {task : α → Script Unit} {l : List α} {r : Relationship}
    (hr : r ∈ (each task l).offers) : ∃ a ∈ l, r ∈ (task a).offers := by
  induction l with
  | nil => cases hr
  | cons a rest ih =>
    rcases mem_offers_bind hr with hr | ⟨_, hr⟩
    · exact ⟨a, List.mem_cons_self, hr⟩
    · obtain ⟨b, hb, hr⟩ := ih hr
      exact ⟨b, List.mem_cons_of_mem a hb, hr⟩

/-- A store puts its relationship forward. -/
theorem mem_offers_store {r r' : Relationship} : r ∈ (store r').offers ↔ r = r' :=
  List.mem_singleton

/-- A question puts nothing forward. -/
theorem not_mem_offers_ask {q : Query} {answer : Except ResolverError α} {r : Relationship} :
    r ∉ (ask q answer).offers := List.not_mem_nil

end Script

/-! ## Collecting over a catalogue -/

namespace Relationship

/-- Both ends are among the nodes. -/
def Joins (r : Relationship) (nodes : NodeStore) : Prop :=
  nodes.contains r.sourceId = true ∧ nodes.contains r.targetId = true

end Relationship

namespace Resolver

open Script

variable {resolver : Resolver} {c : Catalogue} {node : Node} {s : Symbol} {r : Relationship}

/-- What is put forward for the elements of an answer is put forward for one of them. -/
theorem mem_offers_ask_each {α : Type} {q : Query} {answer : Except ResolverError (List α)}
    {task : α → Script Unit}
    (hr : r ∈ (Script.ask q answer >>= fun l => Script.each task l).offers) :
    ∃ x, r ∈ (task x).offers := by
  rcases mem_offers_bind hr with hr | ⟨l, hr⟩
  · exact absurd hr not_mem_offers_ask
  · obtain ⟨x, -, hr⟩ := mem_offers_each hr
    exact ⟨x, hr⟩

section

variable (hnode : c.nodes.contains node.id = true)
include hnode

/-- What a declaration mentions is stored if it is a node. -/
theorem joins_storeStructural {target : TypeRef × RelationKind}
    (hr : r ∈ (storeStructural c node target).offers) : r.Joins c.nodes := by
  unfold storeStructural at hr
  split at hr
  · cases hr
  · rename_i n hn
    obtain rfl := mem_offers_store.mp hr
    exact ⟨hnode, SortedMap.contains_of_get? hn⟩

/-- What leads from another symbol is stored if that is a node. -/
theorem joins_storeFrom {kind : RelationKind} {source : Symbol}
    (hr : r ∈ (storeFrom c node kind source).offers) : r.Joins c.nodes := by
  unfold storeFrom at hr
  split at hr
  · cases hr
  · rename_i n hn
    obtain rfl := mem_offers_store.mp hr
    exact ⟨SortedMap.contains_of_get? hn, hnode⟩

/-- What leads from a place is stored if the place lies in a node. -/
theorem joins_storeReference {site : ReferenceSite}
    (hr : r ∈ (resolver.storeReference c node site).offers) : r.Joins c.nodes := by
  rcases mem_offers_bind hr with hr | ⟨source, hr⟩
  · unfold enclosing? at hr
    split at hr
    · cases hr
    · exact absurd hr not_mem_offers_ask
  · split at hr
    · cases hr
    · split at hr
      · cases hr
      · rename_i n hn
        obtain rfl := mem_offers_store.mp hr
        exact ⟨SortedMap.contains_of_get? hn, hnode⟩

/-- Collecting at a node puts forward relationships between nodes. -/
theorem joins_collect (hr : r ∈ (resolver.collect c node s).offers) : r.Joins c.nodes := by
  rcases mem_offers_bind hr with hr | ⟨_, hr⟩
  · obtain ⟨target, -, hr⟩ := mem_offers_each hr
    exact joins_storeStructural hnode hr
  rcases mem_offers_bind hr with hr | ⟨_, hr⟩
  · obtain ⟨site, hr⟩ := mem_offers_ask_each hr
    exact joins_storeReference hnode hr
  rcases mem_offers_bind hr with hr | ⟨_, hr⟩
  · unfold collectImplementations at hr
    split at hr
    · cases hr
    · obtain ⟨source, hr⟩ := mem_offers_ask_each hr
      exact joins_storeFrom hnode hr
  · unfold collectDerivedTypes at hr
    split at hr
    · obtain ⟨source, hr⟩ := mem_offers_ask_each hr
      exact joins_storeFrom hnode hr
    · cases hr

end

end Resolver

/-- The task of a node puts forward relationships between nodes, if nodes stand under their ids. -/
theorem Analysis.joins_of_mem_offers {a : Analysis} {c : Catalogue} {id : String}
    {r : Relationship} (hid : ∀ {n}, c.nodes.get? id = some n → n.id = id)
    (hr : r ∈ (a.relationshipsOf c id).offers) : r.Joins c.nodes := by
  rcases Script.mem_offers_bind hr with hr | ⟨_, hr⟩
  · cases hr
  · split at hr
    · rename_i node s hn hs
      refine Resolver.joins_collect ?_ hr
      rw [hid hn]
      exact SortedMap.contains_of_get? hn
    · cases hr

/-- A collection that nobody cancels stores all that its course puts forward. -/
theorem Analysis.outcome_collect {a : Analysis} {p : Progress} {node : Node} {s : Symbol}
    (hcancel : ∀ asked, a.cancelsAfter asked = false) (hp : p.cancelled = false) :
    let course := a.resolver.collect p.catalogue node s
    let stored := p.relationships.addAll course.offers
    (a.collect node s).outcome p =
      (match course.ending with
        | .ok () => .ok stored.1
        | .error e => .error (.resolver e),
      { p with
        relationships := stored.2
        asked := (Action.asks course.actions).reverse ++ p.asked }) := by
  intro course stored
  rw [collect, Step.outcome_get_bind, Step.outcome_bind, outcome_perform_of_going hcancel hp]
  dsimp only
  change Step.outcome (match course.ending with
    | .ok () => pure _
    | .error e => throw _) _ = _
  cases course.ending <;> rfl

end CodeAtlas
