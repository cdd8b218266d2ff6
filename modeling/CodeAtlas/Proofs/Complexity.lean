import CodeAtlas.Analysis.Statistics
import CodeAtlas.Proofs.Binary64
import CodeAtlas.Proofs.GraphCodec

/-!
# Sums of sizes

The sizes of a node are words of 64 bits. They are added up, first those of one node to its
complexity, then the complexities of a project's nodes to a total, of which the mean is taken. Every
addition is checked, and one that exceeds the largest word is a panic.

A chain of checked additions succeeds exactly if the sum is a word, and is the sum then
(`Words.foldlM_addWords?`). So all sums of a project are computed, and are the true ones, exactly if
the total of all sizes in it is below `2 ^ 64` (`Graph.sums_exact_iff_total_fits`). A text may write
any word as a size, so this is not so for every graph that is read.
-/

namespace CodeAtlas

/-! ## Words -/

namespace Words

/-- The number as a word, if it is one. -/
def word? (n : Nat) : Option UInt64 := if n < 2 ^ 64 then some (.ofNat n) else none

variable {n : Nat} {a b : UInt64}

/-- A number is a word if some word stands for it. -/
theorem word?_eq_some_iff : word? n = some a ↔ a.toNat = n := by
  unfold word?
  constructor
  · intro h
    split at h
    · rename_i hlt
      cases h
      exact UInt64.toNat_ofNat_of_lt' hlt
    · cases h
  · rintro rfl
    rw [if_pos a.toNat_lt, UInt64.ofNat_toNat]

theorem word?_eq_none_iff : word? n = none ↔ 2 ^ 64 ≤ n := by
  unfold word?
  split <;> simp only [reduceCtorEq, false_iff, true_iff] <;> omega

/-- Words are added if their sum is a word. -/
theorem addWords?_eq : addWords? a b = word? (a.toNat + b.toNat) := by
  have hsize : UInt64.size = 2 ^ 64 := rfl
  rw [addWords?, word?, hsize]
  split
  · rw [UInt64.ofNat_add, UInt64.ofNat_toNat, UInt64.ofNat_toNat]
  · rfl

/-- A chain of checked additions succeeds if the whole sum is a word. -/
theorem foldlM_addWords? {α : Type} {f : α → Option UInt64} {size : α → Nat} {l : List α}
    (hf : ∀ x ∈ l, f x = word? (size x)) : l.foldlM (fun total x => do addWords? total (← f x)) a =
      word? (a.toNat + (l.map size).sum) := by
  induction l generalizing a with
  | nil => exact (word?_eq_some_iff.mpr rfl).symm
  | cons x rest ih =>
    rw [List.foldlM_cons, hf x List.mem_cons_self, List.map_cons, List.sum_cons, ← Nat.add_assoc]
    cases hx : word? (size x) with
    | none =>
      have hle := word?_eq_none_iff.mp hx
      exact (word?_eq_none_iff.mpr (by omega)).symm
    | some w =>
      obtain hw := word?_eq_some_iff.mp hx
      change (addWords? a w).bind _ = _
      rw [addWords?_eq, hw]
      cases hsum : word? (a.toNat + size x) with
      | none =>
        have hle := word?_eq_none_iff.mp hsum
        exact (word?_eq_none_iff.mpr (by omega)).symm
      | some t =>
        rw [← word?_eq_some_iff.mp hsum]
        exact ih fun y hy => hf y (List.mem_cons_of_mem x hy)

/-- A word is converted like the number that it stands for. -/
theorem toFloat_eq (w : UInt64) : w.toFloat = Float.ofNat w.toNat := by
  rw [Binary64.ofNat_eq_toFloat w.toNat_lt, Nat.toUInt64_eq, UInt64.ofNat_toNat]

end Words

open Words

/-! ## The sizes of a node -/

namespace NodeMetrics

variable {m : NodeMetrics}

/-- The sizes may be added as numbers, and so may those of several nodes. -/
theorem trueComplexity_eq_sum : m.trueComplexity = (m.values.map UInt64.toNat).sum := by
  rw [trueComplexity, List.sum_eq_foldl, List.foldl_map]

/-- The complexity is the sum of all sizes, if that is a word. -/
theorem complexity?_eq (m : NodeMetrics) : m.complexity? = word? m.trueComplexity := by
  have hchain := @foldlM_addWords? 0 UInt64 some UInt64.toNat m.values
    fun w _ => (word?_eq_some_iff.mpr rfl).symm
  rwa [UInt64.toNat_zero, Nat.zero_add, ← trueComplexity_eq_sum] at hchain

/-- Without sizes there is nothing to add. -/
theorem trueComplexity_of_isEmpty (h : m.isEmpty = true) : m.trueComplexity = 0 := by
  rw [trueComplexity, List.isEmpty_iff.mp h]
  rfl

end NodeMetrics

/-! ## The total of some nodes -/

namespace ProjectInfo

variable {members seen : List Node}

theorem trueTotal_eq_sum (members : List Node) :
    trueTotal members = (members.map (·.metrics.trueComplexity)).sum := by
  rw [trueTotal, List.sum_eq_foldl, List.foldl_map]

/-- Nodes without sizes add nothing to the total. -/
theorem trueTotal_measured : trueTotal (measured members) = trueTotal members := by
  induction members with
  | nil => rfl
  | cons n rest ih =>
    rw [trueTotal_eq_sum, trueTotal_eq_sum, measured] at ih ⊢
    cases hempty : n.metrics.isEmpty with
    | true =>
      rw [List.filter_cons_of_neg (by simp [hempty]), ih, List.map_cons, List.sum_cons,
        NodeMetrics.trueComplexity_of_isEmpty hempty, Nat.zero_add]
    | false =>
      rw [List.filter_cons_of_pos (by simp [hempty]), List.map_cons, List.map_cons, List.sum_cons,
        List.sum_cons, ih]

/-- The total is the sum of all sizes, if that is a word. -/
theorem complexityTotal?_eq (members : List Node) :
    complexityTotal? members = word? (trueTotal members) := by
  have hchain := @foldlM_addWords? 0 Node (·.metrics.complexity?) (·.metrics.trueComplexity)
    (measured members) fun n _ => n.metrics.complexity?_eq
  rw [UInt64.toNat_zero, Nat.zero_add] at hchain
  rw [← trueTotal_measured, trueTotal_eq_sum]
  exact hchain

/-- A node has no more than the total. -/
theorem trueComplexity_le_trueTotal {n : Node} (hn : n ∈ members) :
    n.metrics.trueComplexity ≤ trueTotal members := by
  rw [trueTotal_eq_sum]
  exact List.le_sum_of_mem (List.mem_map_of_mem hn)

/-- The total grows with every node. -/
theorem trueTotal_mono (h : seen <+: members) : trueTotal seen ≤ trueTotal members := by
  obtain ⟨rest, rfl⟩ := h
  rw [trueTotal_eq_sum, trueTotal_eq_sum, List.map_append, List.sum_append]
  exact Nat.le_add_right _ _

/-- There is a summary if the total is a word, and then the mean is taken of the true total. -/
theorem summarize?_eq (project : Project) (nodes : SortedMap String Node)
    (relationships : List Relationship) : summarize? project nodes relationships =
      if trueTotal (project.membersIn nodes) < 2 ^ 64 then
        some (summarize project nodes relationships) else none := by
  rw [summarize?, complexityTotal?_eq]
  split
  · rename_i hlt
    obtain ⟨w, hw⟩ : ∃ w, word? (trueTotal (project.membersIn nodes)) = some w := ⟨_, if_pos hlt⟩
    rw [hw, summarize, ← word?_eq_some_iff.mp hw, ← toFloat_eq]
    rfl
  · rename_i hge
    rw [word?_eq_none_iff.mpr (Nat.le_of_not_lt hge)]
    rfl

end ProjectInfo

open ProjectInfo

/-! ## Projects of a graph -/

namespace Graph

variable {g : Graph} {project : Project}

/-- No addition of sizes in the project panics, and the sums are the true ones: the complexity of
every node, the total as it stands after each node, and the total under the mean of the summary. -/
structure SumsExact (g : Graph) (project : Project) : Prop where
  complexity : ∀ n ∈ project.membersIn g.nodes, ∃ word,
    n.metrics.complexity? = some word ∧ word.toNat = n.metrics.trueComplexity
  total : ∀ seen, seen <+: project.membersIn g.nodes → ∃ word,
    complexityTotal? seen = some word ∧ word.toNat = trueTotal seen
  average : ∃ info, summarize? project g.nodes g.relationships = some info ∧
    info.metrics.averageComplexity = mean (.ofNat (trueTotal (project.membersIn g.nodes)))
      (measured (project.membersIn g.nodes)).length

/-- The sums are the true ones exactly if the total of all sizes is a word. -/
theorem sumsExact_iff :
    g.SumsExact project ↔ trueTotal (project.membersIn g.nodes) < 2 ^ 64 := by
  have hword : ∀ {n}, n < 2 ^ 64 → ∃ w, word? n = some w ∧ w.toNat = n := fun hlt =>
    ⟨_, if_pos hlt, UInt64.toNat_ofNat_of_lt' hlt⟩
  constructor
  · intro h
    obtain ⟨w, -, htotal⟩ := h.total _ (List.prefix_refl _)
    exact htotal ▸ w.toNat_lt
  · intro hlt
    refine ⟨fun n hn => ?_, fun seen hseen => ?_, ⟨summarize project g.nodes g.relationships, ?_⟩⟩
    · rw [NodeMetrics.complexity?_eq]
      exact hword ((trueComplexity_le_trueTotal hn).trans_lt hlt)
    · rw [complexityTotal?_eq]
      exact hword ((trueTotal_mono hseen).trans_lt hlt)
    · exact ⟨by rw [summarize?_eq, if_pos hlt], rfl⟩

/-- A graph that can be written is read from its text. -/
theorem Writable.parse?_eq (hg : g.Writable) : parse? g.render = some g := by
  rw [parse?, render, Json.parse?_pretty, Json.some_bind, hg.ofJson?_toJson]

/-- There is a text for any nodes, whatever their sizes. -/
theorem exists_parse?_nodes (nodes : NodeStore) :
    ∃ text g, parse? text = some g ∧ g.nodes = nodes := by
  have hmetadata : ({} : GraphMetadata).Writable := by decide
  have hg : ({ nodes } : Graph).Writable := ⟨nofun, nofun, hmetadata⟩
  exact ⟨_, _, hg.parse?_eq, rfl⟩

/-- In every graph the sums of a project are the true ones exactly if the total of all sizes in the
project is below `2 ^ 64`. Otherwise there is a panic: in the complexity of a node whose sizes have
a larger sum, in the total from the node on with which it gets larger, and so instead of a summary.
That a graph is read from a text does not keep its totals below `2 ^ 64`, since there is a text for
any nodes. -/
theorem sums_exact_iff_total_fits (g : Graph) (project : Project) :
    (g.SumsExact project ↔ trueTotal (project.membersIn g.nodes) < 2 ^ 64) ∧
      (∀ n ∈ project.membersIn g.nodes,
        n.metrics.complexity? = none ↔ 2 ^ 64 ≤ n.metrics.trueComplexity) ∧
      (∀ seen, seen <+: project.membersIn g.nodes →
        (complexityTotal? seen = none ↔ 2 ^ 64 ≤ trueTotal seen)) ∧
      (summarize? project g.nodes g.relationships = none ↔
        2 ^ 64 ≤ trueTotal (project.membersIn g.nodes)) ∧
      ∃ text g', parse? text = some g' ∧ g'.nodes = g.nodes := by
  refine ⟨sumsExact_iff, fun n _ => ?_, fun seen _ => ?_, ?_, exists_parse?_nodes g.nodes⟩
  · rw [NodeMetrics.complexity?_eq, word?_eq_none_iff]
  · rw [complexityTotal?_eq, word?_eq_none_iff]
  · rw [summarize?_eq]
    split <;> simp only [reduceCtorEq, false_iff, true_iff] <;> omega

/-- A class with as many methods as a word can tell, next to a class with one method: each of the
two complexities is a word, and the total after the first node, but not the one after both. -/
theorem sums_exact_iff_total_fits_two_classes :
    let cart : Node :=
      { id := "Shop::Cart", name := "Cart", fullyQualifiedName := "Cart", kind := .type
        accessibility := .publicScope, projectId := "shop", assemblyName := "Shop"
        metrics := { methodCount := some 18446744073709551615, propertyCount := some 0 } }
    let order : Node :=
      { cart with id := "Shop::Order", name := "Order", fullyQualifiedName := "Order"
                  metrics := { methodCount := some 1 } }
    let g : Graph := { nodes := NodeStore.ofNodes [cart, order] }
    let shop := Project.named "shop" "Shop"
    cart.metrics.complexity? ≠ none ∧ order.metrics.complexity? ≠ none ∧
      complexityTotal? [cart] ≠ none ∧ complexityTotal? [cart, order] = none ∧
      summarize? shop g.nodes g.relationships = none ∧ ¬ g.SumsExact shop := by
  intro cart order g shop
  have hmembers : shop.membersIn g.nodes = [cart, order] := by decide
  have htotal : trueTotal [cart, order] = 2 ^ 64 := by decide
  obtain ⟨hexact, hcomplexity, hsum, hsummary, -⟩ := sums_exact_iff_total_fits g shop
  rw [hmembers] at hexact hcomplexity hsum hsummary
  have hcart : ¬ 2 ^ 64 ≤ cart.metrics.trueComplexity := by decide
  have horder : ¬ 2 ^ 64 ≤ order.metrics.trueComplexity := by decide
  have hfirst : ¬ 2 ^ 64 ≤ trueTotal [cart] := by decide
  refine ⟨mt (hcomplexity cart (by simp)).mp hcart, mt (hcomplexity order (by simp)).mp horder,
    mt (hsum [cart] (List.prefix_append [cart] [order])).mp hfirst,
    (hsum [cart, order] (List.prefix_refl _)).mpr htotal.ge, hsummary.mpr htotal.ge, ?_⟩
  exact mt hexact.mp (Nat.not_lt.mpr htotal.ge)

/-- A text with a class that has as many methods as a word can tell, and one property. There is a
panic instead of its complexity and of the summary of its project. -/
theorem document_total_exceeds :
    let order : Node :=
      { id := "Shop::Order", name := "Order", fullyQualifiedName := "Order", kind := .type
        accessibility := .publicScope, projectId := "shop", assemblyName := "Shop"
        metrics := { methodCount := some 18446744073709551615, propertyCount := some 1 } }
    let g : Graph := { nodes := NodeStore.ofNodes [order] }
    let shop := Project.named "shop" "Shop"
    parse? g.render = some g ∧ shop.membersIn g.nodes = [order] ∧
      order.metrics.trueComplexity = 2 ^ 64 ∧ order.metrics.complexity? = none ∧
      summarize? shop g.nodes g.relationships = none ∧ ¬ g.SumsExact shop := by
  intro order g shop
  have hg : g.Writable := by decide
  have hmembers : shop.membersIn g.nodes = [order] := by decide
  have htotal : trueTotal (shop.membersIn g.nodes) = 2 ^ 64 := by rw [hmembers]; decide
  refine ⟨hg.parse?_eq, hmembers, by decide, by decide, ?_, ?_⟩
  · rw [summarize?_eq, htotal, if_neg (Nat.lt_irrefl _)]
  · rw [sumsExact_iff, htotal]
    exact Nat.lt_irrefl _

end Graph

end CodeAtlas
