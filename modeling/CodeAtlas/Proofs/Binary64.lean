import CodeAtlas.Decimal.Numeral
import CodeAtlas.Proofs.Rounding

/-!
# Decimal numbers in binary64

`nearestFloat_eq`: a decimal number is converted to the finite binary64 number that it is rounded to
(`Near`), and zero is converted to zero with its sign (`nearestFloat_zero_eq`). The conversion has
two ways. Where significand and power of ten are both exact, it takes one product or quotient of
them; otherwise it computes with numbers of any size. Both come down to rounding once, because a
product keeps all bits and a quotient enough of them (`divCore_spec`).

`ofNat_eq_toFloat`: a whole number that fits in a word is converted as the word is.

`isFinite_of_toFloat?`: what a numeral is converted to is finite, since the conversion never fails
to give a number and an infinite one is refused.
-/

namespace CodeAtlas.Binary64

open Float.Model Float.Model.UnpackedFloat

/-! ## Packing -/

section Packing

variable {s : Sign} {m : ℕ} {q : ℤ}

/-- A leading one in front of 52 bits. -/
theorem toNat_one_append (b : BitVec 52) : (1#1 ++ b).toNat = 2 ^ 52 + b.toNat := by
  have h := Nat.two_pow_add_eq_or_of_lt b.isLt 1
  rw [BitVec.toNat_append, BitVec.toNat_one (by decide), Nat.one_shiftLeft, ← h, Nat.mul_one]

/-- What is unpacked is canonical. -/
theorem canonical_of_unpack {x : Float.Model} {hm : 0 < m} (h : x.unpack = .finite s m q hm) :
    Canonical m q := by
  simp only [Float.Model.unpack, UnpackedFloat.unpack] at h
  have hmantissa : (@unpackMantissa .binary64 x.toBits.toBitVec).toNat < 2 ^ 52 :=
    BitVec.isLt _
  have hexponent : (@unpackExponent .binary64 x.toBits.toBitVec).toNat < 2 ^ 11 :=
    BitVec.isLt _
  have hbias : Format.binary64.exponentBias = 1023 := rfl
  rw [hbias] at h
  split at h
  · split at h <;> cases h
  · rename_i hfinite
    split at h
    · rename_i hzero
      split at h
      · cases h
      · cases h
        rw [hzero]
        exact ⟨hm, hmantissa.trans (by decide), by decide, by decide, .inr rfl⟩
    · rename_i hzero
      cases h
      rw [← BitVec.toNat_inj] at hfinite hzero
      simp at hfinite hzero
      have hm := toNat_one_append (@unpackMantissa .binary64 x.toBits.toBitVec)
      refine ⟨by omega, by omega, by omega, by omega, .inl (by omega)⟩

/-- Three fields with an exponent field that is neither empty nor full. -/
theorem unpack_packComponents {c : BitVec 11} (hfull : c ≠ 2047#11) (hzero : c ≠ 0#11)
    (b : BitVec 52) (s : Sign) :
    UnpackedFloat.unpack .binary64 (packComponents .binary64 s c b) =
      .finite s (2 ^ 52 + b.toNat) (c.toNat - 1075) (by omega) := by
  simp [UnpackedFloat.unpack, hfull, hzero, Format.exponentBias, toNat_one_append]

/-- Three fields with an empty exponent field. -/
theorem unpack_packComponents_zero {b : BitVec 52} (hb : b ≠ 0#52) (s : Sign) :
    UnpackedFloat.unpack .binary64 (packComponents .binary64 s 0#11 b) =
      .finite s b.toNat (-1074) (by simpa [BitVec.toNat_pos, BitVec.pos_iff_ne_zero]) := by
  simp [UnpackedFloat.unpack, hb, Format.exponentBias]

/-- A canonical number is unpacked as it was packed. -/
theorem unpack_pack (h : Canonical m q) (s : Sign) :
    (Float.Model.pack (.finite s m q h.pos)).unpack = .finite s m q h.pos := by
  have hbiased : (q + Format.binary64.exponentBias +
      Format.binary64.mantissaBitsWithoutImplicit).toNat = (q + 1075).toNat :=
    congrArg Int.toNat (Int.add_assoc q 1023 52)
  have hlow := h.le_exponent
  have hhigh := h.exponent_le
  have hm := h.lt
  simp only [Float.Model.unpack, Float.Model.pack, UnpackedFloat.pack]
  rw [hbiased, if_neg (by omega)]
  by_cases hfull : 2 ^ 52 ≤ m
  · have hlog : m.log2 + 1 = Format.binary64.mantissaBits :=
      congrArg (· + 1) ((Nat.log2_eq_iff h.pos.ne').mpr ⟨hfull, hm⟩)
    have hexponent : (BitVec.ofNat 11 (q + 1075).toNat).toNat = (q + 1075).toNat := by
      rw [BitVec.toNat_ofNat, Nat.mod_eq_of_lt (by omega)]
    have hmantissa : 2 ^ 52 + (BitVec.ofNat 52 m).toNat = m := by
      rw [BitVec.toNat_ofNat]
      omega
    rw [if_pos hlog]
    refine (unpack_packComponents ?_ ?_ _ s).trans ?_
    · rw [Ne, ← BitVec.toNat_inj, hexponent]
      simp
      omega
    · rw [Ne, ← BitVec.toNat_inj, hexponent]
      simp
      omega
    · simp only [hexponent, hmantissa, finite.injEq, true_and]
      omega
  · have hlog : m.log2 < 52 := (Nat.log2_lt h.pos.ne').mpr (by omega)
    have hbits : ¬ m.log2 + 1 = Format.binary64.mantissaBits := by
      change ¬ m.log2 + 1 = 53
      omega
    have hmantissa : (BitVec.ofNat 52 m).toNat = m := by
      rw [BitVec.toNat_ofNat, Nat.mod_eq_of_lt (by omega)]
    rw [if_neg hbits]
    refine (unpack_packComponents_zero ?_ s).trans ?_
    · rw [Ne, ← BitVec.toNat_inj, hmantissa]
      exact h.pos.ne'
    · simp only [hmantissa, h.full.resolve_left hfull]

end Packing

/-! ## Operations -/

section Operations

variable {m m₁ m₂ M : ℕ} {e e₁ e₂ q : ℤ} {v : ℚ}

/-- The quotient and the remainder of a division stand for the fraction. -/
theorem holds_div (a : ℕ) {b : ℕ} (hb : 0 < b) :
    Holds (ExtendedMantissa.ofMantissaAndAccuracy (a / b) (accuracyOfFraction (a % b) b))
      ((a : ℚ) / b) := by
  have hb' : (0 : ℚ) < b := by exact_mod_cast hb
  have hfraction : (a : ℚ) / b = (a / b : ℕ) + (a % b : ℕ) / b := by
    rw [div_eq_iff hb'.ne', add_mul, div_mul_cancel₀ _ hb'.ne']
    exact_mod_cast (Nat.div_add_mod' a b).symm
  have hone : ((a % b : ℕ) : ℚ) / b < 1 :=
    (div_lt_one hb').mpr (by exact_mod_cast Nat.mod_lt a hb)
  rw [hfraction, accuracyOfFraction]
  split
  · rename_i hzero
    simp [Holds, ExtendedMantissa.ofMantissaAndAccuracy, hzero]
  · rename_i hzero
    have hpos : (0 : ℚ) < (a % b : ℕ) / b :=
      div_pos (by exact_mod_cast Nat.pos_of_ne_zero hzero) hb'
    cases hcmp : compare (2 * (a % b)) b with
    | lt =>
      have h : ((a % b : ℕ) : ℚ) / b < 1 / 2 := by
        rw [div_lt_div_iff₀ hb' (by norm_num), one_mul, mul_comm]
        exact_mod_cast Nat.compare_eq_lt.mp hcmp
      exact ⟨lt_add_of_pos_right _ hpos, (add_lt_add_iff_left _).mpr h⟩
    | eq =>
      have h : ((a % b : ℕ) : ℚ) / b = 1 / 2 := by
        rw [div_eq_div_iff hb'.ne' (by norm_num), one_mul, mul_comm]
        exact_mod_cast Nat.compare_eq_eq.mp hcmp
      exact congrArg _ h
    | gt =>
      have h : (1 : ℚ) / 2 < (a % b : ℕ) / b := by
        rw [div_lt_div_iff₀ (by norm_num) hb', one_mul, mul_comm _ (2 : ℚ)]
        exact_mod_cast Nat.compare_eq_gt.mp hcmp
      exact ⟨(add_lt_add_iff_left _).mpr h, (add_lt_add_iff_left _).mpr hone⟩

/-- A division keeps enough bits for rounding. -/
theorem divCore_spec (hm₁ : 0 < m₁) (hm₂ : 0 < m₂) (e₁ e₂ : ℤ) :
    Holds (ExtendedMantissa.ofMantissaAndAccuracy (divCore .binary64 m₁ e₁ m₂ e₂).1
        (divCore .binary64 m₁ e₁ m₂ e₂).2.2)
        (m₁ * 2 ^ e₁ / (m₂ * 2 ^ e₂) / 2 ^ (divCore .binary64 m₁ e₁ m₂ e₂).2.1) ∧
      (2 ^ 52 ≤ (divCore .binary64 m₁ e₁ m₂ e₂).1 ∨
        (divCore .binary64 m₁ e₁ m₂ e₂).2.1 ≤ -1074) := by
  obtain ⟨t, ht⟩ : ∃ t, t = min (e₁ - e₂)
      (Format.binary64.targetExponent (totalExponent m₁ e₁ - totalExponent m₂ e₂)) := ⟨_, rfl⟩
  have hcore : divCore .binary64 m₁ e₁ m₂ e₂ = (m₁ * 2 ^ (e₁ - e₂ - t).toNat / m₂, t,
      accuracyOfFraction (m₁ * 2 ^ (e₁ - e₂ - t).toNat % m₂) m₂) := by
    rw [divCore, ← ht, Nat.shiftLeft_eq]
  have hshift : ((e₁ - e₂ - t).toNat : ℤ) = e₁ - e₂ - t := Int.toNat_of_nonneg (by omega)
  rw [hcore]
  constructor
  · have hvalue : (m₁ * 2 ^ e₁ / (m₂ * 2 ^ e₂) / 2 ^ t : ℚ) =
        (m₁ * 2 ^ (e₁ - e₂ - t).toNat : ℕ) / m₂ := by
      push_cast
      rw [← zpow_natCast, hshift, zpow_sub₀ (by norm_num), zpow_sub₀ (by norm_num)]
      field_simp
    rw [hvalue]
    exact holds_div _ hm₂
  · rw [targetExponent_eq, totalExponent, totalExponent] at ht
    rw [or_iff_not_imp_right]
    intro (hmin : ¬ t ≤ -1074)
    have hlog : 53 + m₂.log2 ≤ m₁.log2 + (e₁ - e₂ - t).toNat := by omega
    refine (Nat.le_div_iff_mul_le hm₂).mpr ?_
    calc 2 ^ 52 * m₂ ≤ 2 ^ 52 * 2 ^ (m₂.log2 + 1) :=
          Nat.mul_le_mul_left _ Nat.lt_log2_self.le
      _ = 2 ^ (53 + m₂.log2) := by rw [← pow_add]; congr 1; omega
      _ ≤ 2 ^ (m₁.log2 + (e₁ - e₂ - t).toNat) := Nat.pow_le_pow_right (by decide) hlog
      _ = 2 ^ m₁.log2 * 2 ^ (e₁ - e₂ - t).toNat := pow_add ..
      _ ≤ m₁ * 2 ^ (e₁ - e₂ - t).toNat :=
          Nat.mul_le_mul_right _ (Nat.log2_self_le hm₁.ne')

/-- The unpacked number is the positive number `v`. -/
def Stands (u : UnpackedFloat) (v : ℚ) : Prop :=
  ∃ m q hm, u = .finite .positive m q hm ∧ (m : ℚ) * 2 ^ q = v

/-- A product is rounded to the canonical number that it is rounded to. -/
theorem mul_eq {u₂ : UnpackedFloat} {v₂ : ℚ} (hm₁ : 0 < m₁) (hbits : 2 ^ 52 ≤ m₁)
    (h : Stands u₂ v₂) (hM : Canonical M q) (hnear : Near M q (m₁ * 2 ^ e₁ * v₂)) :
    mul .binary64 (.finite .positive m₁ e₁ hm₁) u₂ = .finite .positive M q hM.pos := by
  obtain ⟨m₂, e₂, hm₂, rfl, rfl⟩ := h
  refine roundWithAccuracy_exact hM hnear ?_ ?_ .positive
  · push_cast
    rw [zpow_add₀ (by norm_num)]
    ring
  · exact hbits.trans (Nat.le_mul_of_pos_right m₁ hm₂)

/-- A quotient is rounded to the canonical number that it is rounded to. -/
theorem div_eq {u₁ u₂ : UnpackedFloat} {v₁ v₂ : ℚ} (h₁ : Stands u₁ v₁) (h₂ : Stands u₂ v₂)
    (hM : Canonical M q) (hnear : Near M q (v₁ / v₂)) :
    div .binary64 u₁ u₂ = .finite .positive M q hM.pos := by
  obtain ⟨m₁, e₁, hm₁, rfl, rfl⟩ := h₁
  obtain ⟨m₂, e₂, hm₂, rfl, rfl⟩ := h₂
  obtain ⟨hv, hbits⟩ := divCore_spec hm₁ hm₂ e₁ e₂
  exact roundWithAccuracy_eq hM hnear hv hbits .positive

/-- Zeros behind a whole number do not change it when the exponent goes down by as many. -/
theorem mul_two_pow_mul_zpow (n k : ℕ) : ((n * 2 ^ k : ℕ) : ℚ) * 2 ^ (-(k : ℤ)) = n := by
  push_cast
  rw [zpow_neg, zpow_natCast]
  field_simp

/-- With zeros behind it a whole number has 53 bits. -/
theorem two_pow_le_mul_two_pow {n : ℕ} (hn : 0 < n) : 2 ^ 52 ≤ n * 2 ^ (52 - n.log2) :=
  calc 2 ^ 52 ≤ 2 ^ (n.log2 + (52 - n.log2)) := Nat.pow_le_pow_right (by decide) (by omega)
    _ = 2 ^ n.log2 * 2 ^ (52 - n.log2) := pow_add ..
    _ ≤ n * 2 ^ (52 - n.log2) := Nat.mul_le_mul_right _ (Nat.log2_self_le hn.ne')

/-- A word is rounded with zeros behind it that make 53 bits of fewer. -/
theorem ofUInt64_eq {n : ℕ} (hn : 0 < n) (hlt : n < 2 ^ 64) :
    UnpackedFloat.ofUInt64 .binary64 n.toUInt64 = roundWithAccuracy .binary64 .positive
      (n * 2 ^ (52 - n.log2)) (-((52 - n.log2 : ℕ) : ℤ)) .exact := by
  have hword : n.toUInt64.toNat = n := UInt64.toNat_ofNat_of_lt hlt
  have hcompare : compare (n : ℤ) 0 = .gt := Int.compare_eq_gt.mpr (by omega)
  have hshift : (0 - target n 0).toNat = 52 - n.log2 := by
    rw [target_eq]
    omega
  have hround : UnpackedFloat.round .binary64 .positive n 0 = roundWithAccuracy .binary64 .positive
      (n <<< (0 - target n 0).toNat) (0 - ((0 - target n 0).toNat : ℤ)) .exact := rfl
  rw [UnpackedFloat.ofUInt64, UnpackedFloat.ofNat, UnpackedFloat.ofInt, UnpackedFloat.normalize,
    hword, hcompare]
  refine hround.trans ?_
  rw [hshift, Nat.shiftLeft_eq, zero_sub]

/-- A whole number of at most 53 bits is converted without rounding, and all bits are used. -/
theorem unpack_toFloat {n : ℕ} (hn : 0 < n) (hlt : n < 2 ^ 53) :
    ∃ m e hm, n.toUInt64.toFloat.toModel.unpack = .finite .positive m e hm ∧ 2 ^ 52 ≤ m ∧
      (m : ℚ) * 2 ^ e = n := by
  have hlog : n.log2 ≤ 52 := by
    have := (Nat.log2_lt hn.ne').mpr hlt
    omega
  have hvalue := mul_two_pow_mul_zpow n (52 - n.log2)
  have hfull := two_pow_le_mul_two_pow hn
  have hfits : n * 2 ^ (52 - n.log2) < 2 ^ 53 :=
    calc n * 2 ^ (52 - n.log2) < 2 ^ (n.log2 + 1) * 2 ^ (52 - n.log2) :=
          Nat.mul_lt_mul_of_pos_right Nat.lt_log2_self (by positivity)
      _ = 2 ^ 53 := by rw [← pow_add]; congr 1; omega
  have hcanonical : Canonical (n * 2 ^ (52 - n.log2)) (-((52 - n.log2 : ℕ) : ℤ)) := by
    exact ⟨by omega, hfits, by omega, by omega, .inl hfull⟩
  have hconvert : UnpackedFloat.ofUInt64 .binary64 n.toUInt64 = .finite .positive
      (n * 2 ^ (52 - n.log2)) (-((52 - n.log2 : ℕ) : ℤ)) hcanonical.pos :=
    (ofUInt64_eq hn (hlt.trans (by decide))).trans
      (roundWithAccuracy_exact hcanonical (near_self hvalue) hvalue hfull .positive)
  refine ⟨_, _, hcanonical.pos, ?_, hfull, hvalue⟩
  rw [← unpack_pack hcanonical, ← hconvert]
  rfl

/-- A mantissa without exponent stands for itself. -/
theorem stands_natCast (hm : 0 < m) : Stands (.finite .positive m 0 hm) m :=
  ⟨m, 0, hm, rfl, by rw [zpow_zero, mul_one]⟩

/-- Whether the unpacked number is the positive whole number `n`. -/
def isWhole (n : ℕ) : UnpackedFloat → Bool
  | .finite .positive m e _ => m * 2 ^ e.toNat == n * 2 ^ (-e).toNat
  | _ => false

/-- A power of two with a whole exponent is a quotient of two with natural ones. -/
theorem zpow_eq_div {b : ℚ} (hb : b ≠ 0) (k : ℤ) : b ^ k = b ^ k.toNat / b ^ (-k).toNat := by
  rw [← zpow_natCast, ← zpow_natCast, ← zpow_sub₀ hb]
  congr 1
  omega

/-- The check finds the value. -/
theorem stands_of_isWhole {n : ℕ} {u : UnpackedFloat} (h : isWhole n u = true) : Stands u n := by
  obtain _ | _ | _ | ⟨s, m, e, hm⟩ := u
  case finite =>
    cases s with
    | negative => cases h
    | positive =>
      refine ⟨m, e, hm, rfl, ?_⟩
      have hnat : (m : ℚ) * 2 ^ e.toNat = n * 2 ^ (-e).toNat := by
        exact_mod_cast beq_iff_eq.mp h
      rw [zpow_eq_div (by norm_num), ← mul_div_assoc, hnat, mul_div_cancel_right₀ _ (by positivity)]
  all_goals cases h

/-- The powers of ten with a table entry are exact. -/
theorem stands_powerOfTen (k : Fin Float.exactlyRepresentablePowersOfTen.size) :
    Stands Float.exactlyRepresentablePowersOfTen[k].toModel.unpack ((10 : ℚ) ^ k.val) := by
  have hcheck : ∀ k : Fin Float.exactlyRepresentablePowersOfTen.size,
      isWhole (10 ^ k.val) Float.exactlyRepresentablePowersOfTen[k].toModel.unpack = true := by
    decide +kernel
  have := stands_of_isWhole (hcheck k)
  rwa [Nat.cast_pow, Nat.cast_ofNat] at this

end Operations

/-! ## Decimal numbers -/

section Decimals

variable {M n : ℕ} {q e : ℤ}

/-- A number far above the largest one is rounded to none. -/
theorem Near.exponent_le (hn : 0 < n) (hM : Canonical M q) (hnear : Near M q (n * 10 ^ e)) :
    e ≤ 2 ^ Format.binary64.exponentBits := by
  by_contra hlt
  have hlarge : (2 : ℚ) ^ (53 + q) ≤ n * 10 ^ e :=
    calc (2 : ℚ) ^ (53 + q) ≤ 2 ^ e := by
          have := hM.exponent_le
          have : (2048 : ℤ) < e := not_le.mp hlt
          exact zpow_le_zpow_right₀ (by norm_num) (by omega)
      _ ≤ 10 ^ e := by
          have : (0 : ℤ) ≤ e := (by positivity : (0 : ℤ) ≤ 2 ^ 11).trans (not_le.mp hlt).le
          exact zpow_le_zpow_left₀ this (by norm_num) (by norm_num)
      _ ≤ n * 10 ^ e := le_mul_of_one_le_left (by positivity) (by exact_mod_cast hn)
  exact absurd (div_zpow_lt_iff.mp (hnear.div_lt hM)) (not_lt.mpr hlarge)

/-- A number far below the smallest one is rounded to none. -/
theorem Near.le_exponent (hM : Canonical M q) (hnear : Near M q (n * 10 ^ e)) :
    -((2 ^ Format.binary64.exponentBits : ℤ) + n.log2) ≤ e := by
  by_contra hlt
  have hlt : e < -(2048 + n.log2) := not_le.mp hlt
  have hten : (10 : ℚ) ^ e ≤ 2 ^ e := by
    have hneg : (2 : ℚ) ^ (-e) ≤ 10 ^ (-e) :=
      zpow_le_zpow_left₀ (by omega) (by norm_num) (by norm_num)
    rw [zpow_neg, zpow_neg] at hneg
    exact (inv_le_inv₀ (by positivity) (by positivity)).mp hneg
  have hsmall : n * 10 ^ e < (2 : ℚ) ^ (-1 + q) :=
    calc (n : ℚ) * 10 ^ e ≤ n * 2 ^ e := by gcongr
      _ < 2 ^ ((n.log2 : ℤ) + 1) * 2 ^ e := by
          have : (n : ℚ) < 2 ^ ((n.log2 : ℤ) + 1) := by exact_mod_cast Nat.lt_log2_self
          gcongr
      _ = 2 ^ ((n.log2 : ℤ) + 1 + e) := (zpow_add₀ (by norm_num) _ _).symm
      _ ≤ 2 ^ (-1 + q) := by
          have := hM.le_exponent
          exact zpow_le_zpow_right₀ (by norm_num) (by omega)
  exact absurd (zpow_le_div_iff.mp (hnear.le_div hM)) (not_le.mpr hsmall)

/-- A power of ten with a negative exponent divides. -/
theorem mul_zpow_of_neg (he : e < 0) : (n : ℚ) * 10 ^ e = n / 10 ^ e.natAbs := by
  obtain ⟨k, rfl⟩ : ∃ k : ℕ, e = -k := ⟨e.natAbs, by omega⟩
  rw [Int.natAbs_neg, Int.natAbs_natCast, zpow_neg, zpow_natCast, div_eq_mul_inv]

/-- A power of ten with another exponent is a natural power. -/
theorem zpow_of_nonneg (he : ¬ e < 0) : (10 : ℚ) ^ e = 10 ^ e.natAbs := by
  rw [← zpow_natCast]
  congr 1
  omega

/-- Where both operands of the conversion are exact, it takes one operation. -/
theorem unpack_ofScientific_of_exact (hn : 0 < n) (hM : Canonical M q)
    (hnear : Near M q (n * 10 ^ e)) (hfast : n < 2 ^ 53 ∧ e.natAbs ≤ 22) :
    (Float.ofScientific n (e < 0) e.natAbs).toModel.unpack = .finite .positive M q hM.pos := by
  obtain ⟨m, e', hm, hu, hfull, hvalue⟩ := unpack_toFloat hn hfast.1
  have hten := stands_powerOfTen ⟨e.natAbs, Nat.lt_succ_of_le hfast.2⟩
  rw [Float.ofScientific, dif_pos hfast, ← unpack_pack hM]
  by_cases he : e < 0
  · rw [mul_zpow_of_neg he] at hnear
    have hdiv := div_eq ⟨m, e', hm, hu, hvalue⟩ hten hM hnear
    simp only [he, decide_true, if_true, ← hdiv]
    rfl
  · rw [zpow_of_nonneg he, ← hvalue] at hnear
    have hmul := mul_eq hm hfull hten hM hnear
    rw [← hu] at hmul
    simp only [he, decide_false, Bool.false_eq_true, if_false, ← hmul]
    rfl

/-- The conversion by the model alone. -/
theorem unpack_modelOfScientific (hn : 0 < n) (hM : Canonical M q)
    (hnear : Near M q (n * 10 ^ e)) :
    UnpackedFloat.ofScientific .binary64 n e = .finite .positive M q hM.pos := by
  rw [UnpackedFloat.ofScientific, dif_neg hn.ne', if_neg (not_lt.mpr (hnear.exponent_le hn hM)),
    if_neg (not_lt.mpr (hnear.le_exponent hM))]
  split
  · rename_i he
    have hshift : ((n <<< 53 : ℕ) : ℚ) * 2 ^ (-53 : ℤ) = n := by
      rw [Nat.shiftLeft_eq]
      push_cast
      rw [zpow_neg, mul_assoc]
      norm_num
    have hbits : 2 ^ 52 ≤ n <<< 53 := by
      rw [Nat.shiftLeft_eq]
      omega
    have hten : (10 : ℚ) ^ e = (10 ^ e.toNat : ℕ) := by
      rw [zpow_of_nonneg (not_lt.mpr he), show e.natAbs = e.toNat by omega, Nat.cast_pow,
        Nat.cast_ofNat]
    rw [hten, ← hshift] at hnear
    exact mul_eq _ hbits (stands_natCast (by positivity)) hM hnear
  · rename_i he
    have hten : (n : ℚ) * 10 ^ e = n / (10 ^ (-e).toNat : ℕ) := by
      rw [mul_zpow_of_neg (not_le.mp he), show e.natAbs = (-e).toNat by omega, Nat.cast_pow,
        Nat.cast_ofNat]
    rw [hten] at hnear
    exact div_eq (stands_natCast hn) (stands_natCast (by positivity)) hM hnear

/-- The model converts a decimal number to the canonical number that it is rounded to. -/
theorem unpack_ofScientific (hn : 0 < n) (hM : Canonical M q) (hnear : Near M q (n * 10 ^ e)) :
    (Float.ofScientific n (e < 0) e.natAbs).toModel.unpack = .finite .positive M q hM.pos := by
  by_cases hfast : n < 2 ^ 53 ∧ e.natAbs ≤ 22
  · exact unpack_ofScientific_of_exact hn hM hnear hfast
  · have he : (if decide (e < 0) then Int.negOfNat e.natAbs else Int.ofNat e.natAbs) = e := by
      split
      · rename_i hneg
        have hneg : e < 0 := of_decide_eq_true hneg
        rw [Int.negOfNat_eq, Int.ofNat_eq_natCast]
        omega
      · rename_i hneg
        have hneg : ¬ e < 0 := by simpa using hneg
        rw [Int.ofNat_eq_natCast]
        omega
    rw [Float.ofScientific, dif_neg hfast, ← unpack_pack hM, ← unpack_modelOfScientific hn hM hnear]
    simp only [he]
    rfl

/-- Zero is converted to zero, whatever the power of ten. -/
theorem unpack_ofScientific_zero (s : Bool) (k : ℕ) :
    (Float.ofScientific 0 s k).toModel.unpack = .zero .positive := by
  have hzero : (0 : ℕ).toUInt64.toFloat.toModel.unpack = .zero .positive := rfl
  rw [Float.ofScientific]
  split
  · rename_i hfast
    have hk : k < Float.exactlyRepresentablePowersOfTen.size := Nat.lt_succ_of_le hfast.2
    obtain ⟨m, e, hm, hu, -⟩ := stands_powerOfTen ⟨k, hk⟩
    have hdiv : div .binary64 (0 : ℕ).toUInt64.toFloat.toModel.unpack
        Float.exactlyRepresentablePowersOfTen[k].toModel.unpack = .zero .positive := by
      rw [hzero]
      exact congrArg _ hu
    have hmul : mul .binary64 (0 : ℕ).toUInt64.toFloat.toModel.unpack
        Float.exactlyRepresentablePowersOfTen[k].toModel.unpack = .zero .positive := by
      rw [hzero]
      exact congrArg _ hu
    cases s with
    | true => exact congrArg (fun u => (Float.Model.pack u).unpack) hdiv
    | false => exact congrArg (fun u => (Float.Model.pack u).unpack) hmul
  · have hmodel (e : ℤ) : UnpackedFloat.ofScientific .binary64 0 e = .zero .positive := by
      rw [UnpackedFloat.ofScientific, dif_pos rfl]
    exact congrArg (fun u => (Float.Model.pack u).unpack) (hmodel _)

/-! ## Signed numbers -/

variable {x y : Float} {s : Sign} {m : ℕ}

/-- Numbers that are unpacked alike are equal. -/
theorem eq_of_unpack (h : x.toModel.unpack = y.toModel.unpack) : x = y :=
  Float.toBits_inj.mp (UInt64.toBitVec_inj.mp
    ((unpack_inj_of_valid x.toModel.valid y.toModel.valid).mp h))

/-- The model converts a whole number by a product with one. -/
theorem modelOfScientific_whole (hn : 0 < n) : UnpackedFloat.ofScientific .binary64 n 0 =
    roundWithAccuracy .binary64 .positive (n * 2 ^ 53) (-53) .exact := by
  have hle : ¬ ((0 : ℤ) < -(2 ^ Format.binary64.exponentBits + (n.log2 : ℤ))) := by
    have : (0 : ℤ) < 2 ^ Format.binary64.exponentBits := by positivity
    omega
  rw [UnpackedFloat.ofScientific, dif_neg hn.ne', if_neg (by decide), if_neg hle, if_pos le_rfl]
  change roundWithAccuracy .binary64 .positive (n <<< 53 * 1) (-53 + 0) .exact = _
  rw [mul_one, add_zero, Nat.shiftLeft_eq]

/-- A whole number below `2 ^ 64` is converted like the word that it is. -/
theorem ofNat_eq_toFloat (hlt : n < 2 ^ 64) : Float.ofNat n = n.toUInt64.toFloat := by
  rcases Nat.eq_zero_or_pos n with rfl | hn
  · exact eq_of_unpack (unpack_ofScientific_zero false 0)
  change Float.ofScientific n false 0 = _
  by_cases hfast : n < 2 ^ 53 ∧ 0 ≤ 22
  · obtain ⟨m, e, hm, hu, hfull, hvalue⟩ := unpack_toFloat hn hfast.1
    have hM := canonical_of_unpack hu
    have hone := stands_powerOfTen ⟨0, by decide⟩
    have hmul := mul_eq hm hfull hone hM (near_self (by rw [pow_zero, mul_one]))
    refine eq_of_unpack (Eq.trans ?_ hu.symm)
    rw [Float.ofScientific, dif_pos hfast, ← unpack_pack hM, ← hmul, ← hu]
    rfl
  · have hmodel : UnpackedFloat.ofScientific .binary64 n 0 = .ofUInt64 .binary64 n.toUInt64 := by
      rw [modelOfScientific_whole hn, ofUInt64_eq hn hlt]
      exact roundWithAccuracy_congr (holds_exact (mul_two_pow_mul_zpow n 53)) (.inl (by omega))
        (holds_exact (mul_two_pow_mul_zpow n _)) (.inl (two_pow_le_mul_two_pow hn)) .positive
    rw [Float.ofScientific, dif_neg hfast]
    exact congrArg (fun u => (⟨Float.Model.pack u⟩ : Float)) hmodel

/-- Whether a sign is the minus sign. -/
def isMinus (s : Sign) : Bool := s matches .negative

/-- Negation changes the unpacked number. -/
theorem unpack_neg (x : Float) :
    (-x).toModel.unpack = (Float.Model.pack x.toModel.unpack.neg).unpack := rfl

/-- What is rounded to a canonical number is not zero. -/
theorem Near.pos (hM : Canonical M q) (hnear : Near M q (n * 10 ^ e)) : 0 < n := by
  rw [Nat.pos_iff_ne_zero]
  rintro rfl
  have := hnear.le_div hM
  norm_num at this

/-- A decimal number is converted to the number that it is rounded to. -/
theorem nearestFloat_eq {hm : 0 < m} (hx : x.toModel.unpack = .finite s m q hm)
    (hnear : Near m q (n * 10 ^ e)) : Numeral.nearestFloat (isMinus s) n e = x := by
  have hM := canonical_of_unpack hx
  have hmagnitude := unpack_ofScientific (hnear.pos hM) hM hnear
  refine eq_of_unpack (Eq.trans ?_ hx.symm)
  cases s with
  | positive => exact hmagnitude
  | negative =>
    refine (unpack_neg _).trans ?_
    rw [hmagnitude]
    exact unpack_pack hM .negative

/-- Zero is converted to zero, with its sign. -/
theorem nearestFloat_zero_eq (hx : x.toModel.unpack = .zero s) (e : ℤ) :
    Numeral.nearestFloat (isMinus s) 0 e = x := by
  have hmagnitude := unpack_ofScientific_zero (e < 0) e.natAbs
  refine eq_of_unpack (Eq.trans ?_ hx.symm)
  cases s with
  | positive => exact hmagnitude
  | negative =>
    have hpack : (Float.Model.pack (.zero .negative)).unpack = .zero .negative := rfl
    refine (unpack_neg _).trans ?_
    rw [hmagnitude]
    exact hpack

/-! ## No conversion fails to give a number -/

/-- Rounding gives a number. -/
theorem roundWithAccuracy_ne (s : Sign) (m : ℕ) (e : ℤ) (acc : Accuracy) :
    roundWithAccuracy .binary64 s m e acc ≠ .notANumber := by
  unfold roundWithAccuracy
  dsimp only
  split <;> nofun

/-- What is packed as a number is unpacked as one. -/
theorem unpack_pack_ne {u : UnpackedFloat} (h : u ≠ .notANumber) :
    (Float.Model.pack u).unpack ≠ .notANumber := by
  intro hnan
  have hbits : UnpackedFloat.pack .binary64 u = packedNaN .binary64 :=
    (unpack_eq_notANumber_iff_of_valid (Float.Model.pack u).valid).mp hnan
  have hexponent := congrArg unpackExponent hbits
  have hmantissa := congrArg unpackMantissa hbits
  rw [packedNaN, unpackExponent_packComponents] at hexponent
  rw [packedNaN, unpackMantissa_packComponents] at hmantissa
  revert hexponent hmantissa
  fun_cases UnpackedFloat.pack .binary64 u with
  | case1 => exact absurd rfl h
  | case2 s =>
    rw [packedInfinity, unpackMantissa_packComponents]
    exact fun _ hmantissa => absurd hmantissa (by decide)
  | case3 s =>
    rw [packedZero, unpackExponent_packComponents]
    exact fun hexponent => absurd hexponent (by decide)
  | case4 s m e hm biased hlarge =>
    rw [packedInfinity, unpackMantissa_packComponents]
    exact fun _ hmantissa => absurd hmantissa (by decide)
  | case5 s m e hm bits biased hsmall hnormal =>
    rw [unpackExponent_packComponents, ← BitVec.toNat_inj]
    intro hexponent
    change biased % 2 ^ 11 = 2047 at hexponent
    change ¬ 2 ^ 11 ≤ biased + 1 at hsmall
    omega
  | case6 s m e hm bits biased hsmall hnormal =>
    rw [unpackExponent_packComponents]
    exact fun hexponent => absurd hexponent (by decide)

/-- A product of positive numbers is a number. -/
theorem mul_ne {u₁ u₂ : UnpackedFloat} {v₁ v₂ : ℚ} (h₁ : Stands u₁ v₁) (h₂ : Stands u₂ v₂) :
    mul .binary64 u₁ u₂ ≠ .notANumber := by
  obtain ⟨m₁, e₁, hm₁, rfl, -⟩ := h₁
  obtain ⟨m₂, e₂, hm₂, rfl, -⟩ := h₂
  exact roundWithAccuracy_ne _ _ _ _

/-- A quotient of positive numbers is a number. -/
theorem div_ne {u₁ u₂ : UnpackedFloat} {v₁ v₂ : ℚ} (h₁ : Stands u₁ v₁) (h₂ : Stands u₂ v₂) :
    div .binary64 u₁ u₂ ≠ .notANumber := by
  obtain ⟨m₁, e₁, hm₁, rfl, -⟩ := h₁
  obtain ⟨m₂, e₂, hm₂, rfl, -⟩ := h₂
  exact roundWithAccuracy_ne _ _ _ _

/-- The conversion by the model alone gives a number. -/
theorem modelOfScientific_ne (n : ℕ) (e : ℤ) :
    UnpackedFloat.ofScientific .binary64 n e ≠ .notANumber := by
  unfold UnpackedFloat.ofScientific
  split_ifs
  · nofun
  · nofun
  · nofun
  · exact mul_ne ⟨_, _, _, rfl, rfl⟩ ⟨_, _, _, rfl, rfl⟩
  · exact div_ne ⟨_, _, _, rfl, rfl⟩ ⟨_, _, _, rfl, rfl⟩

/-- The conversion gives a number. -/
theorem unpack_ofScientific_ne (n : ℕ) (s : Bool) (k : ℕ) :
    (Float.ofScientific n s k).toModel.unpack ≠ .notANumber := by
  rcases Nat.eq_zero_or_pos n with rfl | hn
  · rw [unpack_ofScientific_zero]
    nofun
  rw [Float.ofScientific]
  split
  · rename_i hfast
    obtain ⟨m, e, hm, hu, -, hvalue⟩ := unpack_toFloat hn hfast.1
    have hten := stands_powerOfTen ⟨k, Nat.lt_succ_of_le hfast.2⟩
    cases s with
    | true => exact unpack_pack_ne (div_ne ⟨m, e, hm, hu, hvalue⟩ hten)
    | false => exact unpack_pack_ne (mul_ne ⟨m, e, hm, hu, hvalue⟩ hten)
  · exact unpack_pack_ne (modelOfScientific_ne n _)

/-- The number nearest to a numeral is a number. -/
theorem unpack_nearestFloat_ne (negative : Bool) (n : ℕ) (e : ℤ) :
    (Numeral.nearestFloat negative n e).toModel.unpack ≠ .notANumber := by
  have hmagnitude := unpack_ofScientific_ne n (e < 0) e.natAbs
  rw [Numeral.nearestFloat]
  cases negative with
  | false => exact hmagnitude
  | true =>
    refine unpack_pack_ne ?_
    cases hu : (Float.ofScientific n (e < 0) e.natAbs).toModel.unpack with
    | notANumber => exact absurd hu hmagnitude
    | zero | infinity | finite => nofun

/-- A numeral that writes a number within bounds writes a finite one. -/
theorem isFinite_of_toFloat? {n : Numeral} (h : n.toFloat? = some x) : x.isFinite = true := by
  rw [Numeral.toFloat?] at h
  split at h
  · cases h
  · rename_i hinf
    obtain rfl := Option.some.inj h
    have hnan := unpack_nearestFloat_ne n.negative n.significand n.scale
    rw [Float.isInf, Float.Model.isInf] at hinf
    rw [Float.isFinite, Float.Model.isFinite]
    cases hu : (Numeral.nearestFloat n.negative n.significand n.scale).toModel.unpack with
    | notANumber => exact absurd hu hnan
    | infinity => exact absurd (hu ▸ rfl) hinf
    | zero | finite => rfl

end Decimals

end CodeAtlas.Binary64
