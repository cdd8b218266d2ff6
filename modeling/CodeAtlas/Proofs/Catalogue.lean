import CodeAtlas.Analysis.Catalogue

/-!
# What a catalogue holds

The registry and the nodes of a catalogue grow together. `Catalogue.Coherent` says so, for any
relation between symbols and the projects that declare them: every node is made from the symbol that
the registry holds under its id and a project that declares it, and the registry holds no other
symbols. A declaration that is added leaves the catalogue as it is, or is the first one of its
identity and appears in both (`Catalogue.Coherent.add_cases`), so cataloguing keeps this
(`Catalogue.Coherent.add`).
-/

namespace CodeAtlas

namespace Catalogue

/-- Registry and nodes agree; `D` is what relates symbols to the projects that declare them. -/
structure Coherent (D : Symbol → Project → Prop) (c : Catalogue) : Prop where
  built : ∀ {id n}, c.nodes.get? id = some n →
    ∃ s project, D s project ∧ s.identity = id ∧ c.registry.get? id = some s ∧ n = s.toNode project
  held : ∀ {id s}, c.registry.get? id = some s → c.nodes.contains id = true

variable {D : Symbol → Project → Prop} {c : Catalogue} {config : Config} {s : Symbol}
  {project : Project} {id : String} {n : Node}

/-! ## What becomes of one declaration -/

/-- A declaration that is to stay out leaves no trace. -/
theorem add_of_skipped {reason : SkipReason} (h : config.skipReason? s = some reason) :
    c.add config s project = (.skipped, c) := by
  rw [Catalogue.add, h]
  rfl

/-- Of a declaration whose id has a node at most the symbol is new. -/
theorem add_of_known (hskip : config.skipReason? s = none)
    (hn : c.nodes.get? s.identity = some n) : c.add config s project =
      (.duplicate s.identity, { c with registry := c.registry.insertNew s.identity s }) := by
  rw [Catalogue.add, hskip]
  exact if_pos (SortedMap.contains_of_get? hn)

/-- Of any other declaration there is a new node. -/
theorem add_of_fresh (hskip : config.skipReason? s = none)
    (hn : c.nodes.get? s.identity = none) : c.add config s project =
      (.registered s.identity,
        { registry := c.registry.insertNew s.identity s
          nodes := c.nodes.insert s.identity (s.toNode project) }) := by
  have hout : c.nodes.contains s.identity = false := SortedMap.contains_eq_false_iff.mpr hn
  have hregister : c.nodes.register (s.toNode project) =
      (true, c.nodes.insert s.identity (s.toNode project)) :=
    if_neg (Bool.eq_false_iff.mp hout)
  simp only [Catalogue.add, hskip, Registry.assign, hout, hregister]
  rfl

/-! ## Coherence -/

namespace Coherent

/-- The empty catalogue is coherent. -/
protected theorem empty : Coherent D {} where
  built h := by cases h
  held h := by cases h

/-- A node stands under its id. -/
theorem id_eq (h : Coherent D c) (hn : c.nodes.get? id = some n) : n.id = id := by
  obtain ⟨s, project, -, hid, -, rfl⟩ := h.built hn
  exact hid

/-- A registered symbol stands under its identity. -/
theorem identity_eq (h : Coherent D c) (hs : c.registry.get? id = some s) : s.identity = id := by
  obtain ⟨n, hn⟩ := SortedMap.contains_iff.mp (h.held hs)
  obtain ⟨s', project, -, hid, hs', -⟩ := h.built hn
  rw [hs] at hs'
  cases hs'
  exact hid

/-- There is a node exactly where a symbol is registered. -/
theorem contains_iff (h : Coherent D c) :
    c.nodes.contains id = true ↔ ∃ s, c.registry.get? id = some s := by
  refine ⟨fun hn => ?_, fun ⟨s, hs⟩ => h.held hs⟩
  obtain ⟨n, hn⟩ := SortedMap.contains_iff.mp hn
  obtain ⟨s, project, -, -, hs, -⟩ := h.built hn
  exact ⟨s, hs⟩

/-- A declaration leaves a coherent catalogue as it is, or is the first one with its identity and
appears in the registry and among the nodes. -/
theorem add_cases (h : Coherent D c) (config : Config) (s : Symbol) (project : Project) :
    (c.add config s project).2 = c ∨
      (config.skipReason? s = none ∧ c.nodes.get? s.identity = none ∧
        (c.add config s project).2 =
          { registry := c.registry.insert s.identity s
            nodes := c.nodes.insert s.identity (s.toNode project) }) := by
  cases hskip : config.skipReason? s with
  | some reason => exact .inl (by rw [add_of_skipped hskip])
  | none =>
    cases hn : c.nodes.get? s.identity with
    | some n =>
      -- the node comes from a registered symbol, and that one stays
      obtain ⟨s', project', -, -, hs', -⟩ := h.built hn
      rw [add_of_known hskip hn, SortedMap.insertNew_of_some hs']
      exact .inl rfl
    | none =>
      have hfresh : c.registry.get? s.identity = none := by
        cases hs : c.registry.get? s.identity with
        | none => rfl
        | some s' =>
          obtain ⟨n, hn'⟩ := SortedMap.contains_iff.mp (h.held hs)
          rw [hn] at hn'
          cases hn'
      rw [add_of_fresh hskip hn, SortedMap.insertNew_of_none hfresh]
      exact .inr ⟨rfl, rfl, rfl⟩

/-- Adding a declaration keeps a catalogue coherent. -/
theorem add (h : Coherent D c) (hs : config.skipReason? s = none → D s project) :
    Coherent D (c.add config s project).2 := by
  rcases h.add_cases config s project with heq | ⟨hskip, -, heq⟩
  · rwa [heq]
  · rw [heq]
    refine ⟨fun {id n} hn => ?_, fun {id s'} hs' => ?_⟩
    · rw [SortedMap.get?_insert] at hn ⊢
      split at hn
      · rename_i hid
        cases hn
        exact ⟨s, project, hs hskip, hid.symm, if_pos hid, rfl⟩
      · rename_i hid
        obtain ⟨s', project', hD, hs', hreg, rfl⟩ := h.built hn
        exact ⟨s', project', hD, hs', by rw [if_neg hid, hreg], rfl⟩
    · rw [SortedMap.get?_insert] at hs'
      refine SortedMap.contains_insert.mpr ?_
      split at hs'
      · rename_i hid
        exact .inl hid
      · exact .inr (h.held hs')

end Coherent

end Catalogue

end CodeAtlas
