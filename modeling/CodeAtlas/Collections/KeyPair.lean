/-!
# Pairs of keys

A `KeyPair κ` consists of two keys of one type and is a key itself: pairs are compared by their
first keys, then by their second ones, and this order is as lawful as that of the keys.
-/

namespace CodeAtlas

/-- Two keys of one type. -/
structure KeyPair (κ : Type) where
  first : κ
  second : κ
  deriving DecidableEq

namespace KeyPair

variable {κ : Type} [Ord κ]

/-- Pairs are compared by the first key, then by the second one. -/
instance : Ord (KeyPair κ) := ⟨compareLex (compareOn first) (compareOn second)⟩

instance [Std.TransOrd κ] : Std.TransOrd (KeyPair κ) :=
  inferInstanceAs (Std.TransCmp (compareLex (compareOn first) (compareOn second)))

instance [Std.LawfulEqOrd κ] : Std.LawfulEqOrd (KeyPair κ) where
  compare_self := by
    intro p
    change (compare _ _).then (compare _ _) = .eq
    simp only [Std.compare_self, Ordering.then]
  eq_of_compare := by
    rintro ⟨a, b⟩ ⟨a', b'⟩ h
    change (compare a a').then (compare b b') = .eq at h
    rw [Ordering.then_eq_eq] at h
    simp only [Std.compare_eq_iff_eq] at h
    obtain ⟨rfl, rfl⟩ := h
    rfl

end KeyPair

end CodeAtlas
