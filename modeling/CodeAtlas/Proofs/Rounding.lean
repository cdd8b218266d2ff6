import Mathlib

/-!
# Rounding to binary64

The model of binary64 numbers computes with a whole mantissa, a power of two and two residual bits
for what was cut off. Here all of them are read as rational numbers.

`Holds` is the invariant of the residual bits: a shift keeps it (`Holds.shiftRight`), and a mantissa
that has it is rounded to the nearest whole number (`Holds.roundedMantissa_eq`). `Near` says which
numbers are rounded to a given binary64 number; that the model rounds all of them there is
`roundWithAccuracy_eq`. The one case that is not plain is a number just below a power of two: it is
rounded to a mantissa of one bit too many, which a second shift repairs (`Near.nearest`). In which
mantissa and exponent a number is given does not matter (`roundWithAccuracy_congr`).
-/

namespace CodeAtlas.Binary64

open Float.Model Float.Model.UnpackedFloat

/-! ## Residual bits -/

/-- A mantissa with its residual bits stands for any number that it is cut off from. -/
def Holds (em : ExtendedMantissa) (x : ℚ) : Prop :=
  match em.roundBit, em.stickyBit with
  | false, false => x = em.mantissa
  | false, true => em.mantissa < x ∧ x < em.mantissa + 1 / 2
  | true, false => x = em.mantissa + 1 / 2
  | true, true => em.mantissa + 1 / 2 < x ∧ x < em.mantissa + 1

/-- A mantissa is exact, or too small by less than one. -/
theorem Holds.bounds {em : ExtendedMantissa} {x : ℚ} (h : Holds em x) :
    em.mantissa ≤ x ∧ x < em.mantissa + 1 := by
  rcases em with ⟨m, r, s⟩
  cases r <;> cases s <;> simp only [Holds] at h ⊢ <;> constructor <;> linarith

/-- A shift by one bit halves the number. -/
theorem Holds.shiftRightOne {em : ExtendedMantissa} {x : ℚ} (h : Holds em x) :
    Holds em.shiftRightOne (x / 2) := by
  rcases em with ⟨m, r, s⟩
  have hdiv : (m : ℚ) = 2 * (m / 2 : ℕ) + (m % 2 : ℕ) := by
    exact_mod_cast (Nat.div_add_mod m 2).symm
  rcases Nat.mod_two_eq_zero_or_one m with hm | hm <;> rw [hm] at hdiv <;>
    cases r <;> cases s <;> simp [Holds, ExtendedMantissa.shiftRightOne, hm] at h ⊢ <;>
    push_cast at hdiv <;> (try constructor) <;> linarith

/-- A shift divides by a power of two. -/
theorem Holds.shiftRight {em : ExtendedMantissa} {x : ℚ} (h : Holds em x) (k : ℕ) :
    Holds (em >>> k) (x / 2 ^ k) := by
  change Holds (k.repeat ExtendedMantissa.shiftRightOne em) _
  induction k with
  | zero => simpa [Nat.repeat] using h
  | succ k ih =>
    rw [Nat.repeat, pow_succ, ← div_div]
    exact ih.shiftRightOne

/-- The whole number `n` is nearest to `x`; of two equally near ones it is the even one. -/
def Nearest (n : ℕ) (x : ℚ) : Prop :=
  (n - 1 / 2 < x ∧ x < n + 1 / 2) ∨ (n % 2 = 0 ∧ n - 1 / 2 ≤ x ∧ x ≤ n + 1 / 2)

/-- Whole numbers that are closer than one are equal. -/
theorem eq_of_lt_add_one {a b : ℕ} (h₁ : (a : ℚ) < b + 1) (h₂ : (b : ℚ) < a + 1) : a = b := by
  have h₁ : a < b + 1 := by exact_mod_cast h₁
  have h₂ : b < a + 1 := by exact_mod_cast h₂
  omega

/-- The mantissa is rounded to the nearest whole number. -/
theorem Holds.roundedMantissa_eq {em : ExtendedMantissa} {x : ℚ} {n : ℕ} (h : Holds em x)
    (hn : Nearest n x) : em.roundedMantissa = n := by
  have hlow : (n : ℚ) - 1 / 2 ≤ x := hn.elim (fun hn => hn.1.le) fun hn => hn.2.1
  have hhigh : x ≤ n + 1 / 2 := hn.elim (fun hn => hn.2.le) fun hn => hn.2.2
  rcases em with ⟨m, r, s⟩
  cases r <;> cases s <;>
    simp only [Holds, ExtendedMantissa.roundedMantissa, ExtendedMantissa.accuracy,
      Accuracy.roundToNearestEven] at h ⊢
  · exact eq_of_lt_add_one (by linarith) (by linarith)
  · exact eq_of_lt_add_one (by linarith) (by linarith)
  · -- half way between two whole numbers only an even one is nearest
    rcases hn with ⟨hlow, hhigh⟩ | ⟨heven, -, -⟩
    · have hle : n = m := eq_of_lt_add_one (by linarith) (by linarith)
      subst hle
      linarith
    · have h₁ : (n : ℚ) < (m + 2 : ℕ) := by push_cast; linarith
      have h₂ : (m : ℚ) < (n + 1 : ℕ) := by push_cast; linarith
      rw [Nat.cast_lt] at h₁ h₂
      omega
  · exact eq_of_lt_add_one (by push_cast; linarith) (by push_cast; linarith)

/-- A number has one mantissa with residual bits. -/
theorem Holds.unique {em em' : ExtendedMantissa} {x : ℚ} (h : Holds em x) (h' : Holds em' x) :
    em = em' := by
  obtain ⟨hlow, hhigh⟩ := h.bounds
  obtain ⟨hlow', hhigh'⟩ := h'.bounds
  rcases em with ⟨m, r, s⟩
  rcases em' with ⟨m', r', s'⟩
  obtain rfl : m = m' := eq_of_lt_add_one (hlow.trans_lt hhigh') (hlow'.trans_lt hhigh)
  -- other residual bits stand for numbers of another part of the interval
  cases r <;> cases s <;> cases r' <;> cases s' <;> simp only [Holds] at h h' ⊢ <;>
    exfalso <;> linarith

/-! ## Canonical numbers -/

/-- The mantissas and exponents of positive binary64 numbers, each number with one of them. -/
structure Canonical (m : ℕ) (q : ℤ) : Prop where
  pos : 0 < m
  lt : m < 2 ^ 53
  le_exponent : -1074 ≤ q
  exponent_le : q ≤ 971
  full : 2 ^ 52 ≤ m ∨ q = -1074

/-- The number `v` is rounded to `m · 2 ^ q`: it lies no farther away than half the distance to the
neighbour, and exactly half way only if the mantissa is even. The lower neighbour of a power of two
is half as far away as the upper one, except at the bottom of the exponent range. -/
def Near (m : ℕ) (q : ℤ) (v : ℚ) : Prop :=
  let below : ℚ := if m = 2 ^ 52 ∧ q ≠ -1074 then 1 / 4 else 1 / 2
  (m - below < v / 2 ^ q ∧ v / 2 ^ q < m + 1 / 2) ∨
    (m % 2 = 0 ∧ m - below ≤ v / 2 ^ q ∧ v / 2 ^ q ≤ m + 1 / 2)

section Canonical

variable {m m' M : ℕ} {e e' q : ℤ} {v : ℚ} {acc acc' : Accuracy}

/-- A number is rounded to itself. -/
theorem near_self (h : (m : ℚ) * 2 ^ q = v) : Near m q v := by
  have hx : v / 2 ^ q = m := by rw [← h, mul_div_cancel_right₀ _ (by positivity)]
  refine .inl ?_
  rw [hx]
  constructor
  · split <;> linarith
  · linarith

/-- The exponent for a number whose leading bit stands at a place. -/
theorem targetExponent_eq (place : ℤ) :
    Format.binary64.targetExponent place = max (place - 53) (-1074) := rfl

/-- The exponent to which the model shifts a number. -/
abbrev target (m : ℕ) (e : ℤ) : ℤ := Format.binary64.targetExponent (totalExponent m e)

/-- The exponent that leaves 53 bits, but none below the smallest one. -/
theorem target_eq (m : ℕ) (e : ℤ) : target m e = max (m.log2 + e - 52) (-1074) := by
  rw [target, targetExponent_eq, totalExponent]
  omega

/-- No number is shifted below the smallest exponent. -/
theorem le_target (m : ℕ) (e : ℤ) : -1074 ≤ target m e := by
  rw [target_eq]
  omega

/-- A canonical mantissa stands at its place. -/
theorem Canonical.target_eq (h : Canonical m q) : target m q = q := by
  rw [Binary64.target_eq]
  have hlog : m.log2 < 53 := (Nat.log2_lt h.pos.ne').mpr h.lt
  rcases h.full with hm | hq
  · have : 52 ≤ m.log2 := (Nat.le_log2 h.pos.ne').mpr hm
    have := h.le_exponent
    omega
  · omega

/-- A shift to an exponent that is not smaller keeps what the mantissa stands for. -/
theorem shiftToTargetExponent_holds
    (hv : Holds (ExtendedMantissa.ofMantissaAndAccuracy m acc) (v / 2 ^ e)) (he : e ≤ target m e) :
    ∃ em, shiftToTargetExponent .binary64 m e acc = (em, target m e) ∧
      Holds em (v / 2 ^ target m e) := by
  have hshift : ((target m e - e).toNat : ℤ) = target m e - e := Int.toNat_of_nonneg (by omega)
  refine ⟨_, Prod.ext rfl ?_, ?_⟩
  · change e + ((target m e - e).toNat : ℤ) = target m e
    omega
  · have hpow : v / 2 ^ target m e = v / 2 ^ e / 2 ^ (target m e - e).toNat := by
      rw [div_div, ← zpow_natCast, hshift, ← zpow_add₀ (by norm_num)]
      congr 2
      omega
    rw [hpow]
    exact hv.shiftRight _

/-- A mantissa that stands at its place is not shifted. -/
theorem shiftToTargetExponent_of_target (h : target m e = e) :
    shiftToTargetExponent .binary64 m e .exact = (⟨m, false, false⟩, e) := by
  have hzero : (target m e - e).toNat = 0 := by omega
  change (ExtendedMantissa.ofMantissaAndAccuracy m .exact >>> (target m e - e).toNat,
    e + ((target m e - e).toNat : ℤ)) = _
  rw [hzero]
  exact Prod.ext rfl (by simp)

/-- A mantissa of one bit too many is shifted once more. -/
theorem shiftToTargetExponent_two_pow (h : -1074 ≤ e) :
    shiftToTargetExponent .binary64 (2 ^ 53) e .exact = (⟨2 ^ 52, false, false⟩, e + 1) := by
  have htarget : target (2 ^ 53) e = e + 1 := by
    rw [target_eq, Nat.log2_two_pow]
    omega
  have hone : (target (2 ^ 53) e - e).toNat = 1 := by omega
  change (ExtendedMantissa.ofMantissaAndAccuracy (2 ^ 53) .exact >>> (target (2 ^ 53) e - e).toNat,
    e + ((target (2 ^ 53) e - e).toNat : ℤ)) = _
  rw [hone]
  rfl

/-! ## Rounding -/

/-- A number below a power of two, in other units. -/
theorem div_zpow_lt_iff {k : ℤ} : v / 2 ^ q < 2 ^ k ↔ v < 2 ^ (k + q) := by
  rw [div_lt_iff₀ (by positivity), zpow_add₀ (by norm_num)]

/-- A number not below a power of two, in other units. -/
theorem zpow_le_div_iff {k : ℤ} : 2 ^ k ≤ v / 2 ^ q ↔ 2 ^ (k + q) ≤ v := by
  rw [le_div_iff₀ (by positivity), zpow_add₀ (by norm_num)]

/-- The exponent to which a number is shifted is the one that leaves it 53 bits, or the smallest
one. A mantissa of fewer bits must not stand above that. -/
theorem target_spec
    (hv : Holds (ExtendedMantissa.ofMantissaAndAccuracy m acc) (v / 2 ^ e))
    (hbits : 2 ^ 52 ≤ m ∨ e ≤ -1074) :
    e ≤ target m e ∧ v < 2 ^ (53 + target m e) ∧
      (target m e = -1074 ∨ 2 ^ (52 + target m e) ≤ v) := by
  have hmantissa : (ExtendedMantissa.ofMantissaAndAccuracy m acc).mantissa = m := by
    rcases acc with _ | (_ | _ | _) <;> rfl
  obtain ⟨hlow, hhigh⟩ := hv.bounds
  rw [hmantissa] at hlow hhigh
  have hlog : m ≠ 0 → 2 ^ 52 ≤ m → 52 ≤ m.log2 := fun h => (Nat.le_log2 h).mpr
  rw [target_eq]
  refine ⟨?_, ?_, ?_⟩
  · rcases hbits with hm | he
    · have := hlog (by omega) hm
      omega
    · omega
  · have hle : (m : ℚ) + 1 ≤ 2 ^ ((m.log2 : ℤ) + 1) := by exact_mod_cast Nat.lt_log2_self
    have hlt : v < 2 ^ ((m.log2 : ℤ) + 1 + e) := div_zpow_lt_iff.mp (hhigh.trans_le hle)
    exact hlt.trans_le (zpow_le_zpow_right₀ (by norm_num) (by omega))
  · rw [or_iff_not_imp_left]
    intro htarget
    have hm : m ≠ 0 := by
      rintro rfl
      rcases hbits with hm | he
      · omega
      · rw [Nat.log2_zero] at htarget
        omega
    have hle : (2 : ℚ) ^ (m.log2 : ℤ) ≤ m := by exact_mod_cast Nat.log2_self_le hm
    have hexponent : 52 + max ((m.log2 : ℤ) + e - 52) (-1074) = m.log2 + e := by omega
    rw [hexponent]
    exact zpow_le_div_iff.mp (hle.trans hlow)

/-- What is rounded to a canonical number lies below the next power of two. -/
theorem Near.div_lt (hM : Canonical M q) (hv : Near M q v) : v / 2 ^ q < 2 ^ (53 : ℤ) := by
  have hfits : (M : ℚ) + 1 ≤ 2 ^ 53 := by exact_mod_cast hM.lt
  have hhigh : v / 2 ^ q ≤ M + 1 / 2 := hv.elim (fun hv => hv.2.le) fun hv => hv.2.2
  norm_num at hfits ⊢
  linarith

/-- What is rounded to a canonical number is no smaller than half a unit. -/
theorem Near.le_div (hM : Canonical M q) (hv : Near M q v) : 2 ^ (-1 : ℤ) ≤ v / 2 ^ q := by
  have hpos : (1 : ℚ) ≤ M := by exact_mod_cast hM.pos
  have hlow : (M : ℚ) - (if M = 2 ^ 52 ∧ q ≠ -1074 then 1 / 4 else 1 / 2) ≤ v / 2 ^ q :=
    hv.elim (fun hv => hv.1.le) fun hv => hv.2.1
  norm_num
  split at hlow <;> linarith

/-- A number that is rounded to `M · 2 ^ q` is shifted to the exponent `q`. Only below a power of
two it is shifted to one less; then it is nearest to a mantissa of one bit too many. -/
theorem Near.nearest (hM : Canonical M q) (hv : Near M q v) {t : ℤ} (hmin : -1074 ≤ t)
    (hlt : v < 2 ^ (53 + t)) (hle : t = -1074 ∨ 2 ^ (52 + t) ≤ v) :
    t = q ∧ Nearest M (v / 2 ^ t) ∨ t + 1 = q ∧ M = 2 ^ 52 ∧ Nearest (2 ^ 53) (v / 2 ^ t) := by
  have hhigh : v / 2 ^ q ≤ M + 1 / 2 := hv.elim (fun hv => hv.2.le) fun hv => hv.2.2
  have htq : t ≤ q := by
    by_contra hqt
    have hq := hM.le_exponent
    have hv' := hle.resolve_left (by omega)
    have : (2 : ℚ) ^ (53 + q) ≤ 2 ^ (52 + t) := zpow_le_zpow_right₀ (by norm_num) (by omega)
    exact absurd (div_zpow_lt_iff.mp (hv.div_lt hM)) (not_lt.mpr (this.trans hv'))
  rcases htq.eq_or_lt with rfl | htq
  · refine .inl ⟨rfl, ?_⟩
    by_cases hpow : M = 2 ^ 52 ∧ t ≠ -1074
    · -- the number does not lie below the power of two, or it would be shifted to less
      have hlow : (2 : ℚ) ^ (52 : ℤ) ≤ v / 2 ^ t :=
        zpow_le_div_iff.mpr (hle.resolve_left hpow.2)
      refine .inr ⟨by rw [hpow.1]; decide, ?_, hhigh⟩
      rw [hpow.1]
      norm_num at hlow ⊢
      linarith
    · simpa only [Near, Nearest, if_neg hpow] using hv
  · refine .inr ?_
    have hfull : 2 ^ 52 ≤ M := hM.full.resolve_right (by omega)
    have hx52 : v / 2 ^ q < 2 ^ (52 : ℤ) := div_zpow_lt_iff.mpr
      (hlt.trans_le (zpow_le_zpow_right₀ (by norm_num) (by omega)))
    have hlow : (M : ℚ) - (if M = 2 ^ 52 ∧ q ≠ -1074 then 1 / 4 else 1 / 2) ≤ v / 2 ^ q :=
      hv.elim (fun hv => hv.1.le) fun hv => hv.2.1
    obtain rfl : M = 2 ^ 52 := by
      have hlt : (M : ℚ) < 2 ^ 52 + 1 := by
        norm_num at hx52
        split at hlow <;> linarith
      have : M < 2 ^ 52 + 1 := by exact_mod_cast hlt
      omega
    rw [if_pos ⟨rfl, by omega⟩] at hlow
    have ht : t + 1 = q := by
      by_contra hne
      have hx51 : v / 2 ^ q < 2 ^ (51 : ℤ) := div_zpow_lt_iff.mpr
        (hlt.trans_le (zpow_le_zpow_right₀ (by norm_num) (by omega)))
      norm_num at hx51 hlow
      linarith
    have hdouble : v / 2 ^ t = 2 * (v / 2 ^ q) := by
      rw [← ht, zpow_add_one₀ (by norm_num)]
      field_simp
    refine ⟨ht, rfl, .inr ⟨by decide, ?_, ?_⟩⟩ <;> rw [hdouble] <;> norm_num at hx52 hlow ⊢ <;>
      linarith

/-- The model rounds a number to the canonical one that it is rounded to. -/
theorem roundWithAccuracy_eq (hM : Canonical M q) (hnear : Near M q v)
    (hv : Holds (ExtendedMantissa.ofMantissaAndAccuracy m acc) (v / 2 ^ e))
    (hbits : 2 ^ 52 ≤ m ∨ e ≤ -1074) (s : Sign) :
    roundWithAccuracy .binary64 s m e acc = .finite s M q hM.pos := by
  obtain ⟨he, hlt, hle⟩ := target_spec hv hbits
  have hmin := le_target m e
  obtain ⟨em, hshift, hem⟩ := shiftToTargetExponent_holds hv he
  have hrest : shiftToTargetExponent .binary64 em.roundedMantissa (target m e) .exact =
      (⟨M, false, false⟩, q) := by
    rcases hnear.nearest hM hmin hlt hle with ⟨ht, hn⟩ | ⟨ht, rfl, hn⟩
    · rw [hem.roundedMantissa_eq hn, ht, shiftToTargetExponent_of_target hM.target_eq]
    · rw [hem.roundedMantissa_eq hn, shiftToTargetExponent_two_pow hmin, ht]
  simp only [roundWithAccuracy, hshift, hrest, dif_neg hM.pos.ne']

/-- A mantissa without residual bits stands for its product with the power of two. -/
theorem holds_exact (hv : (m : ℚ) * 2 ^ e = v) :
    Holds (ExtendedMantissa.ofMantissaAndAccuracy m .exact) (v / 2 ^ e) := by
  change v / 2 ^ e = m
  rw [← hv, mul_div_cancel_right₀ _ (by positivity)]

/-- An exact product of a mantissa and a power of two is rounded to the canonical number that it is
rounded to. -/
theorem roundWithAccuracy_exact (hM : Canonical M q) (hnear : Near M q v)
    (hv : (m : ℚ) * 2 ^ e = v) (hbits : 2 ^ 52 ≤ m) (s : Sign) :
    roundWithAccuracy .binary64 s m e .exact = .finite s M q hM.pos :=
  roundWithAccuracy_eq hM hnear (holds_exact hv) (.inl hbits) s

/-- The smallest exponent, or one that leaves a number all of 53 bits, is no greater than one that
leaves it no more than these. -/
theorem exponent_le_of_lt {t t' : ℤ} (hmin : -1074 ≤ t) (hlt : v < 2 ^ (53 + t))
    (hle : t' = -1074 ∨ 2 ^ (52 + t') ≤ v) : t' ≤ t := by
  rcases hle with rfl | hle
  · exact hmin
  · have hpow : (2 : ℚ) ^ (52 + t') < 2 ^ (53 + t) := hle.trans_lt hlt
    have := (zpow_lt_zpow_iff_right₀ (by norm_num)).mp hpow
    omega

/-- What a number is rounded to does not depend on the mantissa and the exponent in which it is
given. -/
theorem roundWithAccuracy_congr
    (hv : Holds (ExtendedMantissa.ofMantissaAndAccuracy m acc) (v / 2 ^ e))
    (hbits : 2 ^ 52 ≤ m ∨ e ≤ -1074)
    (hv' : Holds (ExtendedMantissa.ofMantissaAndAccuracy m' acc') (v / 2 ^ e'))
    (hbits' : 2 ^ 52 ≤ m' ∨ e' ≤ -1074) (s : Sign) :
    roundWithAccuracy .binary64 s m e acc = roundWithAccuracy .binary64 s m' e' acc' := by
  obtain ⟨he, hlt, hle⟩ := target_spec hv hbits
  obtain ⟨he', hlt', hle'⟩ := target_spec hv' hbits'
  have htarget : target m e = target m' e' :=
    (exponent_le_of_lt (le_target _ _) hlt' hle).antisymm
      (exponent_le_of_lt (le_target _ _) hlt hle')
  obtain ⟨em, hshift, hem⟩ := shiftToTargetExponent_holds hv he
  obtain ⟨em', hshift', hem'⟩ := shiftToTargetExponent_holds hv' he'
  obtain rfl : em = em' := hem.unique (htarget ▸ hem')
  simp only [roundWithAccuracy, hshift, hshift', htarget]

end Canonical

end CodeAtlas.Binary64
