import CodeAtlas.Proofs.WrittenNumbers

/-!
# What an override changes

`Config.overridden_override`: over a configuration without a fault, a usable count replaces the
number of tasks once it is brought into the range from 1 to 64, and a usable threshold replaces the
old one as it is. Any other text is not used (`Override.tells_or_unused`). It leaves the threshold
exactly as it was. It leaves the number of tasks as it was only up to 64: the range holds for the
old number too, which a configuration without a fault may exceed (`Config.override_lowers_workers`).
Either way the configuration stays without a fault (`Config.fault?_override`).
-/

namespace CodeAtlas

namespace Override

/-! ## What a text from outside tells -/

section Reading

variable {α β : Type} {read : List Char → Option β} {writes : List Char → α → Prop}
  {usable : α → Prop} {text : Option String}

/-- A text from outside is there and, without the blanks at its ends, writes a value. -/
def Tells (writes : List Char → α → Prop) (text : Option String) (a : α) : Prop :=
  ∃ s, text = some s ∧ writes (Text.trimList s.toList) a

/-- Why a text from outside is not used: it is not there, it is blank, it writes no value, or it
writes a value that is not usable. -/
inductive Unused (writes : List Char → α → Prop) (usable : α → Prop) : Option String → Prop
  | absent : Unused writes usable none
  | blank {s : String} (hs : s.toList.all Text.isBlank = true) : Unused writes usable (some s)
  | unreadable {s : String} (hs : ∀ a, ¬ writes (Text.trimList s.toList) a) :
      Unused writes usable (some s)
  | unusable {s : String} {a : α} (hs : writes (Text.trimList s.toList) a) (ha : ¬ usable a) :
      Unused writes usable (some s)

/-- A reader that reads nothing off nothing reads a text without the blanks at its ends. -/
theorem read?_some (hnil : read [] = none) (s : String) :
    read? read (some s) = read (Text.trimList s.toList) := by
  simp only [read?, Option.bind_eq_bind, Option.bind_some]
  split
  · rename_i hempty
    rw [List.isEmpty_iff.mp hempty, hnil]
  · rfl

/-- A reader that refuses some values refuses them on a whole text. -/
theorem filter_read? (p : β → Bool) :
    (read? read text).filter p = read? (fun cs => (read cs).filter p) text := by
  cases text with
  | none => rfl
  | some s =>
    simp only [read?, Option.bind_eq_bind, Option.bind_some]
    split
    · rfl
    · rfl

/-- A text that is not used is not read. -/
theorem Unused.read?_eq_none (h : Unused writes usable text) (hnil : read [] = none)
    (hunreadable : ∀ cs, (∀ a, ¬ writes cs a) → read cs = none)
    (hunusable : ∀ cs a, writes cs a → ¬ usable a → read cs = none) :
    read? read text = none := by
  cases h with
  | absent => rfl
  | blank hs => rw [read?_some hnil, Text.trimList_eq_nil hs, hnil]
  | unreadable hs => rw [read?_some hnil, hunreadable _ hs]
  | unusable hs ha => rw [read?_some hnil, hunusable _ _ hs ha]

/-- A text tells a usable value or is not used. -/
theorem tells_or_unused (writes : List Char → α → Prop) (usable : α → Prop)
    (text : Option String) : (∃ a, Tells writes text a ∧ usable a) ∨ Unused writes usable text := by
  cases text with
  | none => exact .inr .absent
  | some s =>
    by_cases hs : ∃ a, writes (Text.trimList s.toList) a
    · obtain ⟨a, hs⟩ := hs
      by_cases ha : usable a
      · exact .inl ⟨a, ⟨s, rfl, hs⟩, ha⟩
      · exact .inr (.unusable hs ha)
    · exact .inr (.unreadable (not_exists.mp hs))

end Reading

end Override

namespace Config

open Override

variable {c : Config}

/-- What becomes of a configuration under two texts. -/
structure Overridden (concurrency threshold : Option String) (c c' : Config) : Prop where
  /-- A count is taken and brought into the range from 1 to 64. -/
  told_workers : ∀ {n : Nat}, Tells WritesCount concurrency n → n < UInt64.size →
    c'.workerConcurrency.toNat = max 1 (min n 64)
  /-- Without a count the number of tasks stays as it is up to 64, and a greater one becomes 64. -/
  kept_workers : Unused WritesCount (· < UInt64.size) concurrency →
    c'.workerConcurrency = min c.workerConcurrency 64
  /-- A number above zero and not above one is taken as the threshold. -/
  told_threshold : ∀ {x : Float}, Tells Writes threshold x → 0 < x → x ≤ 1 → c'.mergeThreshold = x
  /-- Without such a number the threshold stays as it is. -/
  kept_threshold : Unused Writes (fun x => 0 < x ∧ x ≤ 1) threshold →
    c'.mergeThreshold = c.mergeThreshold
  /-- Everything else stays as it is. -/
  kept_rest : c' = { c with
    workerConcurrency := c'.workerConcurrency, mergeThreshold := c'.mergeThreshold }

/-! ## The range of the number of tasks -/

/-- The greater of two numbers is greater as a number of any size. -/
theorem toNat_max (a b : UInt64) : (max a b).toNat = max a.toNat b.toNat := by
  change (if a ≤ b then b else a).toNat = _
  simp only [UInt64.le_iff_toNat_le]
  split
  · omega
  · omega

/-- The smaller of two numbers is smaller as a number of any size. -/
theorem toNat_min (a b : UInt64) : (min a b).toNat = min a.toNat b.toNat := by
  change (if a ≤ b then a else b).toNat = _
  simp only [UInt64.le_iff_toNat_le]
  split
  · omega
  · omega

/-- The range is that of the numbers from 1 to 64. -/
theorem toNat_clampWorkers (n : UInt64) : (clampWorkers n).toNat = max 1 (min n.toNat 64) := by
  rw [clampWorkers, toNat_max, toNat_min]
  rfl

/-- Only zero is below the range. -/
theorem clampWorkers_of_ne_zero {n : UInt64} (hn : n ≠ 0) : clampWorkers n = min n 64 := by
  have hpos : n.toNat ≠ 0 := fun h => hn (UInt64.toNat_inj.mp h)
  have h64 : (64 : UInt64).toNat = 64 := rfl
  apply UInt64.toNat_inj.mp
  rw [toNat_clampWorkers, toNat_min, h64]
  omega

/-! ## The configuration -/

/-- The range of thresholds. -/
theorem isThreshold_iff {x : Float} : isThreshold x = true ↔ 0 < x ∧ x ≤ 1 := by
  simp [isThreshold]

/-- A text that tells no usable count leaves the old number of tasks. -/
theorem read?_count?_of_unused {text : Option String}
    (h : Unused WritesCount (· < UInt64.size) text) : read? count? text = none := by
  refine h.read?_eq_none rfl (fun cs hcs => ?_) fun cs n hcs hn => ?_
  · refine Option.eq_none_iff_forall_ne_some.mpr fun k hk => ?_
    obtain ⟨n, hn⟩ := writesCount_of_count? hk
    exact hcs n hn
  · rw [count?_eq hcs, if_neg hn]

/-- A text that tells no usable threshold leaves the old one. -/
theorem filter_read?_number?_of_unused {text : Option String}
    (h : Unused Writes (fun x => 0 < x ∧ x ≤ 1) text) :
    (read? number? text).filter isThreshold = none := by
  rw [filter_read?]
  refine h.read?_eq_none rfl (fun cs hcs => ?_) fun cs x hcs hx => ?_
  · have hnone : number? cs = none :=
      Option.eq_none_iff_forall_ne_some.mpr fun x hx => hcs x (writes_of_number? hx)
    rw [hnone, Option.filter_none]
  · rw [number?_eq hcs, Option.filter_some, if_neg (mt isThreshold_iff.mp hx)]

/-- A configuration without a fault has a task and a threshold in its range. -/
theorem fault?_eq_none_iff :
    c.fault? = none ↔ c.workerConcurrency ≠ 0 ∧ isThreshold c.mergeThreshold = true := by
  rw [fault?]
  split
  · rename_i hworkers
    simp [hworkers]
  · rename_i hworkers
    simp [hworkers]

/-- A configuration without a fault has none after the override. -/
theorem fault?_override (hc : c.fault? = none) (concurrency threshold : Option String) :
    (c.override concurrency threshold).fault? = none := by
  refine fault?_eq_none_iff.mpr ⟨fun h => ?_, ?_⟩
  · have hrange := toNat_clampWorkers ((read? count? concurrency).getD c.workerConcurrency)
    rw [show clampWorkers _ = 0 from h, UInt64.toNat_zero] at hrange
    omega
  · rw [override]
    cases h : (read? number? threshold).filter isThreshold with
    | none => exact (fault?_eq_none_iff.mp hc).2
    | some x => exact (Option.filter_eq_some_iff.mp h).2

/-- Over a configuration without a fault, a usable text is taken, the count within its range; a text
that is not used leaves the threshold as it was, and the number of tasks as it was up to 64. -/
theorem overridden_override (hc : c.fault? = none) (concurrency threshold : Option String) :
    Overridden concurrency threshold c (c.override concurrency threshold) where
  told_workers := by
    rintro n ⟨s, rfl, hs⟩ hn
    rw [override, read?_some rfl, count?_eq hs, if_pos hn, Option.getD_some, toNat_clampWorkers,
      UInt64.toNat_ofNat_of_lt' hn]
  kept_workers h := by
    rw [override, read?_count?_of_unused h, Option.getD_none]
    exact clampWorkers_of_ne_zero (fault?_eq_none_iff.mp hc).1
  told_threshold := by
    rintro x ⟨s, rfl, hs⟩ hpos hle
    rw [override, read?_some rfl, number?_eq hs, Option.filter_some,
      if_pos (isThreshold_iff.mpr ⟨hpos, hle⟩), Option.getD_some]
  kept_threshold h := by
    rw [override, filter_read?_number?_of_unused h, Option.getD_none]
  kept_rest := rfl

/-- A count above the range becomes its end, and a threshold above one is not used. -/
theorem overridden_override_beyond :
    (standard 4).fault? = none ∧
      ((standard 4).override (some " +200 ") (some "1.5")).workerConcurrency.toNat = 64 ∧
      ((standard 4).override (some " +200 ") (some "1.5")).mergeThreshold = 0.7 := by
  have hfault : (standard 4).fault? = none := by decide +kernel
  have hcount : WritesCount ('+' :: List.map Digit.toChar [2, 0, 0]) 200 := .plus (by decide)
  have hnumber : Writes
      ([] ++ (List.map Digit.toChar [1] ++ '.' :: List.map Digit.toChar [5] ++ []))
      (Numeral.nearestFloat false 15 (0 - 1)) :=
    .signed .absent (.decimal (.pointed (by decide)) .absent)
  have h := overridden_override hfault (some " +200 ") (some "1.5")
  exact ⟨hfault, h.told_workers ⟨_, rfl, hcount⟩ (by decide),
    h.kept_threshold (.unusable hnumber (by decide +kernel))⟩

/-- A configuration without a fault may have more tasks than the range allows; it loses them even
where no text is given. -/
theorem override_lowers_workers :
    (standard 100).fault? = none ∧ Unused WritesCount (· < UInt64.size) none ∧
      ((standard 100).override none none).workerConcurrency ≠
        (standard 100).workerConcurrency :=
  ⟨by decide +kernel, .absent, by decide +kernel⟩

end Config

end CodeAtlas
