import CodeAtlas.Proofs.Collection

/-!
# Collecting at a node a second time

Collecting at a node only adds to the stored relationships, and when it is done again later it finds
nothing more, whatever has been collected in between (`Analysis.collect_again`). This holds for
every resolver, also for one that fails some of the questions.

The reason is that the course of a collection does not depend on what is stored: it puts the same
relationships forward and ends in the same way. A store to which a list of relationships is added
keeps what it has (`RelationshipStore.Within`), has one more for each that is new
(`RelationshipStore.size_addAll`), and has nothing to gain from the same list again
(`RelationshipStore.addAll_again`).
-/

namespace CodeAtlas

/-! ## Stores that grow -/

namespace RelationshipStore

/-- What stands under a key of the first store stands under the same key of the second one. -/
def Within (s t : RelationshipStore) : Prop :=
  ∀ k r, SortedMap.get? s k = some r → SortedMap.get? t k = some r

variable {s t u : RelationshipStore} {r : Relationship} {l : List Relationship}

theorem Within.refl (s : RelationshipStore) : s.Within s := fun _ _ h => h

theorem Within.trans (hst : s.Within t) (htu : t.Within u) : s.Within u :=
  fun k r h => htu k r (hst k r h)

/-- A store that is within another one has no other keys. -/
theorem Within.contains {k : RelationshipKey} (h : s.Within t)
    (hk : SortedMap.contains s k = true) : SortedMap.contains t k = true := by
  obtain ⟨r, hr⟩ := SortedMap.contains_iff.mp hk
  exact SortedMap.contains_of_get? (h k r hr)

/-- A store keeps what it has when relationships are added. -/
theorem within_addAll : s.Within (s.addAll l).2 := by
  intro k r h
  rw [get?_addAll, h, Option.some_or]

/-- The first component of an addition tells how many relationships the store has more. -/
theorem size_add : SortedMap.size (s.add r).2 = SortedMap.size s + (s.add r).1.toNat := by
  unfold RelationshipStore.add
  split
  · rfl
  · split
    · rfl
    · rename_i hout
      exact SortedMap.size_insert (Bool.eq_false_iff.mpr hout)

theorem size_addAll : SortedMap.size (s.addAll l).2 = SortedMap.size s + (s.addAll l).1 := by
  induction l generalizing s with
  | nil => rfl
  | cons r rest ih => rw [addAll, ih, size_add, Nat.add_assoc]

/-- A store takes a relationship no more once it has its key. -/
theorem add_of_contains (h : r.sourceId ≠ r.targetId → SortedMap.contains s r.key = true) :
    s.add r = (false, s) := by
  unfold RelationshipStore.add
  split
  · rfl
  · rename_i hne
    exact if_pos (h hne)

/-- A store that has kept what it was given takes none of it again. -/
theorem addAll_again (h : Within (s.addAll l).2 t) : t.addAll l = (0, t) := by
  induction l generalizing s with
  | nil => rfl
  | cons r rest ih =>
    have hrest : Within (addAll (s.add r).2 rest).2 t := h
    -- the key was taken when `r` was added for the first time, and has been kept since
    have hkey : r.sourceId ≠ r.targetId → SortedMap.contains t r.key = true := fun hne =>
      (within_addAll.trans hrest).contains (contains_add.mpr (.inr ⟨rfl, hne⟩))
    rw [addAll, add_of_contains hkey, ih hrest]
    rfl

end RelationshipStore

/-! ## Collecting again -/

namespace Analysis

variable {a : Analysis} {p : Progress}

/-- A collection that nobody cancels keeps what is stored, and changes neither the catalogue nor
whether the analysis is cancelled. -/
theorem progress_collect (hcancel : ∀ asked, a.cancelsAfter asked = false)
    (hp : p.cancelled = false) (node : Node) (s : Symbol) :
    let q := ((a.collect node s).outcome p).2
    q.catalogue = p.catalogue ∧ p.relationships.Within q.relationships ∧ q.cancelled = false := by
  rw [outcome_collect hcancel hp]
  exact ⟨rfl, RelationshipStore.within_addAll, hp⟩

/-- So do several collections. -/
theorem progress_collectEach (hcancel : ∀ asked, a.cancelsAfter asked = false)
    (hp : p.cancelled = false) (visits : List (Node × Symbol)) :
    let q := a.collectEach p visits
    q.catalogue = p.catalogue ∧ p.relationships.Within q.relationships ∧ q.cancelled = false := by
  induction visits generalizing p with
  | nil => exact ⟨rfl, .refl _, hp⟩
  | cons visit rest ih =>
    obtain ⟨hcatalogue, hwithin, hgoing⟩ := progress_collect hcancel hp visit.1 visit.2
    obtain ⟨hcatalogue', hwithin', hgoing'⟩ := ih hgoing
    exact ⟨hcatalogue'.trans hcatalogue, hwithin.trans hwithin', hgoing'⟩

/-- A collection at a node keeps what is stored, and tells how many relationships are new. When it
is done again after other collections, it finds nothing new, or fails in the same way, and the store
stays as it is. -/
theorem collect_again (a : Analysis) (hcancel : ∀ asked, a.cancelsAfter asked = false)
    (p : Progress) (hp : p.cancelled = false) (node : Node) (s : Symbol)
    (visits : List (Node × Symbol)) :
    let first := (a.collect node s).outcome p
    let later := a.collectEach first.2 visits
    let again := (a.collect node s).outcome later
    (first.2.catalogue = p.catalogue ∧ p.relationships.Within first.2.relationships ∧
      ∀ n, first.1 = .ok n →
        SortedMap.size first.2.relationships = SortedMap.size p.relationships + n) ∧
    again.1 = first.1.map (fun _ => 0) ∧ again.2.relationships = later.relationships := by
  intro first later again
  have hfirst : first = _ := outcome_collect hcancel hp
  obtain ⟨hcatalogue, hwithin, hgoing⟩ := progress_collect hcancel hp node s
  obtain ⟨hcatalogue', hwithin', hgoing'⟩ := progress_collectEach hcancel hgoing visits
  -- the second run takes the course of the first one, over a store that holds all of its results
  have hagain : again = _ := outcome_collect hcancel hgoing'
  rw [hcatalogue', hcatalogue] at hagain
  have hkept : RelationshipStore.Within
      (p.relationships.addAll (a.resolver.collect p.catalogue node s).offers).2
      later.relationships := by
    have hlater : first.2.relationships.Within later.relationships := hwithin'
    rwa [hfirst] at hlater
  rw [RelationshipStore.addAll_again hkept] at hagain
  refine ⟨⟨hcatalogue, hwithin, fun n hn => ?_⟩, ?_, by rw [hagain]⟩
  · rw [hfirst] at hn ⊢
    rw [RelationshipStore.size_addAll]
    cases hending : (a.resolver.collect p.catalogue node s).ending with
    | error e => rw [hending] at hn; cases hn
    | ok => rw [hending] at hn; exact congrArg _ (Except.ok.inj hn)
  · rw [hagain, hfirst]
    cases (a.resolver.collect p.catalogue node s).ending <;> rfl

/-- A class that derives from another one and calls it: the base class is found at the deriving one,
the call at the called one, and nothing more at the deriving one afterwards. -/
theorem collect_again_subclass :
    let animal := Symbol.typeIn "Zoo" "Zoo" "Animal" .classType
    let dog := (Symbol.typeIn "Zoo" "Zoo" "Dog" .classType).derivingFrom animal.typeRef
    let zoo := Project.named "zoo" "Zoo"
    let w := (Snapshot.empty.withProject zoo [animal, dog]).withReference animal
      ⟨.lines "dog.cs" 4 4, some dog, .call⟩
    let a := w.analysis (.standard 4) {}
    let p : Progress := { catalogue := ({} : Catalogue).addAll (.standard 4) zoo [animal, dog] }
    let first := (a.collect (dog.toNode zoo) dog).outcome p
    let later := a.collectEach first.2 [(animal.toNode zoo, animal)]
    let again := (a.collect (dog.toNode zoo) dog).outcome later
    first.1 = .ok 1 ∧ SortedMap.size first.2.relationships = 1 ∧
      SortedMap.size later.relationships = 2 ∧
      again.1 = .ok 0 ∧ again.2.relationships = later.relationships := by
  intro animal dog zoo w a p first later again
  obtain ⟨⟨-, -, hsize⟩, hagain, hsame⟩ := collect_again a (fun _ => rfl) p rfl (dog.toNode zoo) dog
    [(animal.toNode zoo, animal)]
  have hfirst : first.1 = .ok 1 := by
    have hcount : first.1.toOption = some 1 := by decide +kernel
    generalize first.1 = answer at hcount ⊢
    cases answer with
    | error e => cases hcount
    | ok n => exact congrArg Except.ok (Option.some.inj hcount)
  have hempty : SortedMap.size p.relationships = 0 := by decide +kernel
  refine ⟨hfirst, ?_, by decide +kernel, ?_, by rw [hsame]⟩
  · rw [hsize 1 hfirst, hempty]
  · rw [hagain, hfirst]
    rfl

end Analysis

end CodeAtlas
