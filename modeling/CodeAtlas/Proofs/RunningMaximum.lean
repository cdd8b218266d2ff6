import Mathlib.Order.Basic

/-!
# Running maxima

A list is gone through once, and of the element that was kept so far and the next one a greater one
is kept. Whichever of two equal elements that is, in the end it is an element of the list than which
none is greater (`KeepsGreater.foldl`, by induction on the list).
-/

namespace CodeAtlas

variable {α : Type} {cmp : α → α → Ordering} {keep : α → α → α}

/-- Of two elements one is kept, and neither is greater than that. -/
structure KeepsGreater (cmp : α → α → Ordering) (keep : α → α → α) : Prop where
  eq_or_eq : ∀ a b, keep a b = a ∨ keep a b = b
  isLE_left : ∀ a b, (cmp a (keep a b)).isLE = true
  isLE_right : ∀ a b, (cmp b (keep a b)).isLE = true

section Ties

variable [Std.TransCmp cmp]

/-- The first of two equal elements may be kept, -/
theorem keepsGreater_first : KeepsGreater cmp fun a b => if cmp a b = .lt then b else a where
  eq_or_eq a b := by split <;> simp
  isLE_left a b := by
    split
    · rename_i hlt
      rw [hlt]
      rfl
    · exact Std.ReflCmp.isLE_rfl
  isLE_right a b := by
    split
    · exact Std.ReflCmp.isLE_rfl
    · rename_i hnot
      exact Std.OrientedCmp.isGE_iff_isLE.mp (Ordering.isGE_iff_ne_lt.mpr hnot)

/-- or the second. -/
theorem keepsGreater_second : KeepsGreater cmp fun a b => if cmp a b = .gt then a else b where
  eq_or_eq a b := by split <;> simp
  isLE_left a b := by
    split
    · exact Std.ReflCmp.isLE_rfl
    · rename_i hnot
      exact Ordering.isLE_iff_ne_gt.mpr hnot
  isLE_right a b := by
    split
    · rename_i hgt
      rw [Std.OrientedCmp.gt_iff_lt.mp hgt]
      rfl
    · exact Std.ReflCmp.isLE_rfl

/-- What is kept of a list is one of its elements, and none is greater. -/
theorem KeepsGreater.foldl (h : KeepsGreater cmp keep) (first : α) (l : List α) :
    l.foldl keep first ∈ first :: l ∧
      ∀ a ∈ first :: l, (cmp a (l.foldl keep first)).isLE = true := by
  induction l generalizing first with
  | nil =>
    refine ⟨List.mem_cons_self, fun a ha => ?_⟩
    rw [List.mem_singleton.mp ha]
    exact Std.ReflCmp.isLE_rfl
  | cons b rest ih =>
    rw [List.foldl_cons]
    obtain ⟨hmem, hle⟩ := ih (keep first b)
    have hkept := hle _ List.mem_cons_self
    refine ⟨?_, fun a ha => ?_⟩
    · rcases List.mem_cons.mp hmem with heq | hmem
      · rw [heq]
        rcases h.eq_or_eq first b with heq | heq <;> rw [heq]
        · exact List.mem_cons_self
        · exact List.mem_cons_of_mem _ List.mem_cons_self
      · exact List.mem_cons_of_mem _ (List.mem_cons_of_mem _ hmem)
    · rcases List.mem_cons.mp ha with rfl | ha
      · exact Std.TransCmp.isLE_trans (h.isLE_left a b) hkept
      · rcases List.mem_cons.mp ha with rfl | ha
        · exact Std.TransCmp.isLE_trans (h.isLE_right first a) hkept
        · exact hle a (List.mem_cons_of_mem _ ha)

end Ties

end CodeAtlas
