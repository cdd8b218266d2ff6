import CodeAtlas.Json.Decoder
import CodeAtlas.Proofs.Binary64
import CodeAtlas.Proofs.Numerals

/-!
# The shortest decimal reads back as the number

`Layout.numeral?_toFloat?`: a finite binary64 number has a numeral in every layout, and the numeral
is converted to the same number. The interval that the search works with is that of the numbers
which are rounded to the one at hand (`Interval.holds_inUnits_iff`), so whatever the search finds
is rounded back (`shortest_spec`), and it finds something because the finest power of ten lies below
the distance of any two numbers. A layout moves the point and the exponent but not the value
(`Layout.place_value`).
-/

namespace CodeAtlas

open Binary64 (Canonical Near canonical_of_unpack isMinus nearestFloat_eq nearestFloat_zero_eq)
open Float.Model.UnpackedFloat (Sign)

namespace Decimal

/-! ## Intervals -/

namespace Interval

variable {m n : ℕ} {q k : ℤ} {tie : Tie} {i : Interval}

/-- A closed interval holds its ends as well. -/
theorem holds_iff : i.holds n = true ↔
    (i.low < n * i.denominator ∧ n * i.denominator < i.high) ∨
      (i.closed = true ∧ i.low ≤ n * i.denominator ∧ n * i.denominator ≤ i.high) := by
  rw [holds]
  cases i.closed <;> simp only [Bool.false_eq_true, if_false, if_true, Bool.and_eq_true,
    decide_eq_true_eq, false_and, or_false, true_and]
  exact ⟨.inr, fun h => h.elim (fun h => ⟨h.1.le, h.2.le⟩) fun h => h⟩

/-- A decimal as a fraction in the units of an interval. -/
theorem div_zpow_eq (n : ℕ) (q k : ℤ) : (n : ℚ) * 10 ^ k / 2 ^ q =
    (n * (2 ^ (2 - q).toNat * 10 ^ k.toNat) : ℕ) /
      (4 * (2 ^ (q - 2).toNat * 10 ^ (-k).toNat) : ℕ) := by
  have hq : (2 : ℚ) ^ q = 4 * (2 ^ (q - 2).toNat / 2 ^ (2 - q).toNat) := by
    rw [show (2 - q).toNat = (-(q - 2)).toNat by omega, ← Binary64.zpow_eq_div (by norm_num),
      zpow_sub₀ (by norm_num)]
    field_simp
    norm_num
  rw [hq, Binary64.zpow_eq_div (by norm_num)]
  push_cast
  field_simp

/-- The quarter of a whole number as a fraction in the same units. -/
theorem div_four_eq (a : ℕ) (q k : ℤ) : (a : ℚ) / 4 =
    (a * 2 ^ (q - 2).toNat * 10 ^ (-k).toNat : ℕ) /
      (4 * (2 ^ (q - 2).toNat * 10 ^ (-k).toNat) : ℕ) := by
  push_cast
  field_simp

/-- The interval holds exactly the decimals that are rounded to the number. -/
theorem holds_inUnits_iff (hm : 0 < m) :
    ((ofBinary m q).inUnits k).holds n = true ↔ Near m q (n * 10 ^ k) := by
  have hunit : (0 : ℚ) < (4 * (2 ^ (q - 2).toNat * 10 ^ (-k).toNat) : ℕ) := by positivity
  have hlow : (m : ℚ) - (if m = 2 ^ 52 ∧ q ≠ -1074 then 1 / 4 else 1 / 2) =
      ((4 * m - (if m = 2 ^ 52 ∧ q ≠ -1074 then 1 else 2) : ℕ) : ℚ) / 4 := by
    split
    · rw [Nat.cast_sub (by omega)]
      push_cast
      ring
    · rw [Nat.cast_sub (by omega)]
      push_cast
      ring
  have hhigh : (m : ℚ) + 1 / 2 = ((4 * m + 2 : ℕ) : ℚ) / 4 := by
    push_cast
    ring
  simp only [Near, hlow, hhigh, div_four_eq _ q k, div_zpow_eq n q k,
    div_lt_div_iff_of_pos_right hunit, div_le_div_iff_of_pos_right hunit, Nat.cast_lt, Nat.cast_le]
  simp only [holds_iff, inUnits, ofBinary, Nat.pow_eq, decide_eq_true_eq]

/-- What is nearest is held, and is not zero. -/
theorem nearest?_spec (h : i.nearest? tie = some n) : 0 < n ∧ i.holds n = true := by
  unfold nearest? at h
  dsimp only at h
  split at h
  · cases h
  · rename_i hbelow _
    cases h
    simpa using hbelow
  · rename_i _ habove
    cases h
    exact ⟨Nat.succ_pos _, habove⟩
  · rename_i hbelow habove
    have hbelow : 0 < i.value / i.denominator ∧ i.holds (i.value / i.denominator) = true := by
      simpa using hbelow
    split at h
    · cases h
      exact hbelow
    · cases h
      exact ⟨Nat.succ_pos _, habove⟩
    · split at h
      · cases h
        exact ⟨Nat.succ_pos _, habove⟩
      · split at h <;> cases h
        · exact hbelow
        · exact ⟨Nat.succ_pos _, habove⟩

/-- An interval that reaches one unit below its value holds a whole number. -/
theorem isSome_nearest? (hden : 0 < i.denominator) (hlow : i.low + i.denominator ≤ i.value)
    (hhigh : i.value < i.high) : (i.nearest? tie).isSome = true := by
  have hdiv := Nat.div_add_mod i.value i.denominator
  have hmod := Nat.mod_lt i.value hden
  have hpos : 0 < i.value / i.denominator := Nat.div_pos (by omega) hden
  have hholds : i.holds (i.value / i.denominator) = true := by
    rw [holds_iff, Nat.mul_comm]
    omega
  unfold nearest?
  simp only [hpos, hholds, decide_true, Bool.and_self]
  cases i.holds (i.value / i.denominator + 1) with
  | false => rfl
  | true =>
    cases compare (2 * i.value)
      ((i.value / i.denominator + (i.value / i.denominator + 1)) * i.denominator) with
    | lt => rfl
    | gt => rfl
    | eq => cases tie <;> rfl

end Interval

/-! ## The search -/

variable {m n : ℕ} {q k : ℤ} {tie : Tie} {i : Interval}

/-- The search ends with a whole number in the interval if one of the powers has one. -/
theorem coarsest_spec {steps : ℕ}
    (h : ∃ j < steps, ((i.inUnits (k - j)).nearest? tie).isSome = true) :
    0 < (coarsest tie i steps k).1 ∧
      (i.inUnits (coarsest tie i steps k).2).holds (coarsest tie i steps k).1 = true := by
  induction steps generalizing k with
  | zero =>
    obtain ⟨j, hj, -⟩ := h
    omega
  | succ steps ih =>
    rw [coarsest]
    cases hk : (i.inUnits k).nearest? tie with
    | some n => exact Interval.nearest?_spec hk
    | none =>
      obtain ⟨j, hj, hsome⟩ := h
      obtain _ | j := j
      · rw [Nat.cast_zero, sub_zero, hk] at hsome
        cases hsome
      · refine ih ⟨j, by omega, ?_⟩
        rwa [sub_sub, add_comm 1, ← Nat.cast_succ]

/-- Four digits count farther than thirteen bits. -/
theorem two_pow_le_ten_pow (a : ℕ) : 2 ^ (13 * a) ≤ 10 ^ (4 * a) := by
  rw [pow_mul, pow_mul]
  exact Nat.pow_le_pow_left (by decide) a

/-- In units of `10 ^ -350` the interval of every number holds a whole one. -/
theorem isSome_nearest?_finest (hm : Canonical m q) :
    (((Interval.ofBinary m q).inUnits (-350)).nearest? tie).isSome = true := by
  obtain ⟨a, ha⟩ : ∃ a, a = 83 := ⟨_, rfl⟩
  have hfine : 2 ^ (2 - q).toNat ≤ 10 ^ (- -350 : ℤ).toNat :=
    calc 2 ^ (2 - q).toNat ≤ 2 ^ (13 * a) := by
          have := hm.le_exponent
          exact Nat.pow_le_pow_right (by decide) (by omega)
      _ ≤ 10 ^ (4 * a) := two_pow_le_ten_pow a
      _ ≤ 10 ^ (- -350 : ℤ).toNat := Nat.pow_le_pow_right (by decide) (by omega)
  have hunit : 2 ^ (2 - q).toNat ≤ 2 ^ (q - 2).toNat * 10 ^ (- -350 : ℤ).toNat :=
    hfine.trans (Nat.le_mul_of_pos_left _ (by positivity))
  have hpos : 0 < 2 ^ (q - 2).toNat * 10 ^ (- -350 : ℤ).toNat := by positivity
  have hstep : (4 * m - if m = 2 ^ 52 ∧ q ≠ -1074 then 1 else 2) + 1 ≤ 4 * m := by
    have := hm.pos
    split <;> omega
  have hone : 10 ^ (-350 : ℤ).toNat = 1 := rfl
  refine Interval.isSome_nearest? ?_ ?_ ?_ <;>
    simp only [Interval.inUnits, Interval.ofBinary, Nat.pow_eq, hone, mul_one, mul_assoc]
  · positivity
  · generalize 2 ^ (q - 2).toNat * 10 ^ (- -350 : ℤ).toNat = unit at *
    calc (4 * m - if m = 2 ^ 52 ∧ q ≠ -1074 then 1 else 2) * unit + 2 ^ (2 - q).toNat
        ≤ (4 * m - if m = 2 ^ 52 ∧ q ≠ -1074 then 1 else 2) * unit + unit := by gcongr
      _ = ((4 * m - if m = 2 ^ 52 ∧ q ≠ -1074 then 1 else 2) + 1) * unit := by ring
      _ ≤ 4 * m * unit := by gcongr
      _ = 4 * (m * unit) := mul_assoc 4 m unit
  · generalize 2 ^ (q - 2).toNat * 10 ^ (- -350 : ℤ).toNat = unit at *
    rw [← mul_assoc]
    exact Nat.mul_lt_mul_of_pos_right (by omega) hpos

/-- The shortest decimal is rounded to the number. -/
theorem shortest_spec (hm : Canonical m q) (tie : Tie) :
    Near m q ((shortest tie m q).1 * 10 ^ (shortest tie m q).2) := by
  refine (Interval.holds_inUnits_iff hm.pos).mp (coarsest_spec ⟨659, by decide, ?_⟩).2
  exact isSome_nearest?_finest hm

/-! ## Layouts -/

namespace Layout

variable {layout : Layout} {x : Float} {m n : ℕ} {q : ℤ}

/-- Where the last digits of a number are written behind the point and the others in front of it,
all of them together are the number. -/
theorem significand_drop {ds : List Digit} {p : ℕ} (hds : Digit.toNat ds = n) (hp : p ≤ ds.length)
    (negative : Bool) (exponent : Option ℤ) :
    Numeral.significand ⟨negative, n / 10 ^ p, ds.drop (ds.length - p), exponent⟩ = n := by
  have hlength : (ds.drop (ds.length - p)).length = p := by
    rw [List.length_drop]
    omega
  rw [Numeral.significand, Digit.toNat_drop, hlength, hds]
  exact Nat.div_add_mod' _ _

/-- A layout does not change the value of a decimal. -/
theorem place_value (layout : Layout) (negative : Bool) (n : ℕ) (k : ℤ) :
    ((layout.place negative n k).significand : ℚ) * 10 ^ (layout.place negative n k).scale =
      n * 10 ^ k := by
  have hdigits := Digit.toNat_ofNat n
  have hpos := List.length_pos_of_ne_nil (Digit.ofNat_ne_nil n)
  have hten (hk : 0 ≤ k) : (10 : ℚ) ^ k = 10 ^ k.toNat := by
    rw [← zpow_natCast, Int.toNat_of_nonneg hk]
  unfold place
  dsimp only
  split_ifs with hpositional hk hpoint
  · -- a whole number with a zero behind the point
    simp [Numeral.significand, Numeral.scale, Digit.toNat, Digit.zero, hten hk]
  · simp [Numeral.significand, Numeral.scale, Digit.toNat, hten hk]
  · -- digits on both sides of the point
    have hpadded := Digit.toNat_replicate_append ((-k).toNat - (Digit.ofNat n).length)
      (Digit.ofNat n)
    rw [hdigits] at hpadded
    have hlength : (-k).toNat ≤ (List.replicate ((-k).toNat - (Digit.ofNat n).length) Digit.zero ++
        Digit.ofNat n).length := by
      rw [List.length_append, List.length_replicate]
      omega
    rw [Nat.pow_eq, significand_drop hpadded hlength, Numeral.scale, List.length_drop]
    congr 2
    change (0 : ℤ) - _ = k
    omega
  · -- one digit in front of the point
    have hdrop : (Digit.ofNat n).drop 1 =
        (Digit.ofNat n).drop ((Digit.ofNat n).length - ((Digit.ofNat n).length - 1)) := by
      congr 1
      omega
    rw [hdrop, Nat.pow_eq, significand_drop hdigits (Nat.sub_le _ _), Numeral.scale,
      List.length_drop]
    congr 2
    change k + Int.ofNat _ - _ = k
    rw [Int.ofNat_eq_natCast]
    omega

/-- A layout writes the sign that it is given. -/
theorem place_negative (layout : Layout) (negative : Bool) (n : ℕ) (k : ℤ) :
    (layout.place negative n k).negative = negative := by
  unfold place
  dsimp only
  split_ifs <;> rfl

/-- Where the nearest number is finite, a numeral is converted to it. -/
theorem toFloat?_eq {n : Numeral} (hx : x.isFinite = true)
    (h : Numeral.nearestFloat n.negative n.significand n.scale = x) : n.toFloat? = some x := by
  have hinf : x.isInf = false := by
    rw [Float.isFinite, Float.Model.isFinite] at hx
    rw [Float.isInf, Float.Model.isInf]
    cases hu : x.toModel.unpack <;> rw [hu] at hx <;> first | rfl | cases hx
  rw [Numeral.toFloat?]
  simp only [h, hinf, Bool.false_eq_true, if_false]

/-- A finite number has a numeral, and the numeral is converted to the number. -/
theorem numeral?_toFloat? (layout : Layout) (hx : x.isFinite = true) :
    ∃ n, layout.numeral? x = some n ∧ n.toFloat? = some x := by
  have hfinite := hx
  rw [Float.isFinite, Float.Model.isFinite] at hfinite
  unfold numeral?
  cases hu : x.toModel.unpack with
  | finite s m q hm =>
    have hnear := shortest_spec (canonical_of_unpack hu) layout.tie
    refine ⟨_, rfl, toFloat?_eq hx ?_⟩
    rw [← layout.place_value (isMinus s)] at hnear
    rw [place_negative]
    exact nearestFloat_eq hu hnear
  | zero s =>
    have hvalue := layout.place_value (isMinus s) 0 0
    have hzero : (layout.place (isMinus s) 0 0).significand = 0 := by
      rw [Nat.cast_zero, zero_mul, mul_eq_zero_iff_right (by positivity)] at hvalue
      exact_mod_cast hvalue
    refine ⟨_, rfl, toFloat?_eq hx ?_⟩
    rw [place_negative]
    exact (congrArg (Numeral.nearestFloat (isMinus s) · _) hzero).trans (nearestFloat_zero_eq hu _)
  | infinity s =>
    rw [hu] at hfinite
    cases hfinite
  | notANumber =>
    rw [hu] at hfinite
    cases hfinite

end Layout
end Decimal

namespace Json

/-- A finite number is read as it is written. -/
@[simp] theorem float?_ofFloat {x : Float} (hx : x.isFinite = true) :
    float? (ofFloat x) = some x := by
  obtain ⟨n, hn, hx⟩ := numberLayout.numeral?_toFloat? hx
  rw [ofFloat, hn]
  exact hx

end Json
end CodeAtlas
