import CodeAtlas.Decimal.Numeral
import Mathlib.Algebra.Ring.Nat

/-!
# What is written as a numeral is read as that numeral

`Numeral.scan?_render_append`: a numeral is read off a text that starts with its written form, and
the rest of the text is left, provided that the rest does not continue a numeral
(`Numeral.Ends`). No condition is put on the numeral: its parts are read one after another, and
each part stops where the next one starts.

The digits of a number come first (`Digit.ofNat`): they write the number (`Digit.toNat_ofNat`) and
have no leading zero (`Digit.eq_nil_of_ofNat_eq_zero_cons`), which is what the whole part of a
numeral demands.
-/

namespace CodeAtlas

/-! ## Digits of a number -/

namespace Digit

variable {n : Nat} {ds : List Digit} {rest : List Char}

/-- The character of one digit stands for one digit. -/
theorem filterMap_digitChar (h : n < 10) : [Nat.digitChar n].filterMap ofChar? = [⟨n, h⟩] :=
  List.filterMap_cons_some (ofChar?_toChar ⟨n, h⟩)

/-- A number below ten has itself as its only digit. -/
theorem ofNat_of_lt (h : n < 10) : ofNat n = [⟨n, h⟩] := by
  rw [ofNat, Nat.toDigits_of_lt_base h, filterMap_digitChar h]

/-- A larger number has the digits of its tenth and one more. -/
theorem ofNat_of_le (h : 10 ≤ n) :
    ofNat n = ofNat (n / 10) ++ [⟨n % 10, Nat.mod_lt n (by decide)⟩] := by
  rw [ofNat, Nat.toDigits_of_base_le (by decide) h, List.filterMap_append,
    filterMap_digitChar (Nat.mod_lt n (by decide)), ofNat]

/-- The digits of a number are written as the library writes the number. -/
theorem map_toChar_ofNat (n : Nat) : (ofNat n).map toChar = Nat.toDigits 10 n := by
  induction n using Nat.strongRecOn with
  | _ n ih =>
    rcases Nat.lt_or_ge n 10 with h | h
    · rw [ofNat_of_lt h, Nat.toDigits_of_lt_base h]
      rfl
    · rw [ofNat_of_le h, List.map_append, ih _ (Nat.div_lt_self (by omega) (by decide)),
        Nat.toDigits_of_base_le (by decide) h]
      rfl

/-- Digits behind a number shift it. -/
theorem foldl_eq (n : Nat) (ds : List Digit) :
    ds.foldl (fun n d => 10 * n + d.val) n = n * 10 ^ ds.length + toNat ds := by
  induction ds generalizing n with
  | nil => simp [toNat]
  | cons d ds ih =>
    rw [toNat, List.foldl_cons, List.foldl_cons, ih, ih (10 * 0 + d.val), List.length_cons,
      pow_succ', Nat.add_mul, Nat.add_mul, Nat.mul_comm 10 n, Nat.mul_assoc, Nat.mul_zero,
      Nat.zero_mul, Nat.zero_add, Nat.add_assoc]

/-- Digits in front of others are shifted by them. -/
theorem toNat_append (ds ds' : List Digit) :
    toNat (ds ++ ds') = toNat ds * 10 ^ ds'.length + toNat ds' := by
  rw [toNat, List.foldl_append, foldl_eq]
  rfl

/-- Digits write a number that is below the next power of ten. -/
theorem toNat_lt (ds : List Digit) : toNat ds < 10 ^ ds.length := by
  induction ds with
  | nil => exact Nat.one_pos
  | cons d ds ih =>
    rw [toNat, List.foldl_cons, foldl_eq, List.length_cons, pow_succ', Nat.mul_zero,
      Nat.zero_add]
    have := Nat.mul_le_mul_right (10 ^ ds.length) (Nat.le_of_lt_succ d.isLt)
    omega

/-- The last digits of a number write its remainder. -/
theorem toNat_drop (ds : List Digit) (k : Nat) :
    toNat (ds.drop k) = toNat ds % 10 ^ (ds.drop k).length := by
  have hsplit := toNat_append (ds.take k) (ds.drop k)
  rw [List.take_append_drop] at hsplit
  rw [hsplit, Nat.mul_add_mod', Nat.mod_eq_of_lt (toNat_lt _)]

/-- Zeros in front of a number do not change it. -/
theorem toNat_replicate_append (k : Nat) (ds : List Digit) :
    toNat (List.replicate k zero ++ ds) = toNat ds := by
  induction k with
  | zero => rfl
  | succ k ih =>
    rw [← ih]
    rfl

/-- The digits of a number write that number. -/
theorem toNat_ofNat (n : Nat) : toNat (ofNat n) = n := by
  induction n using Nat.strongRecOn with
  | _ n ih =>
    rcases Nat.lt_or_ge n 10 with h | h
    · rw [ofNat_of_lt h]
      exact Nat.zero_add n
    · rw [ofNat_of_le h, toNat_append, ih _ (Nat.div_lt_self (by omega) (by decide))]
      change n / 10 * 10 ^ 1 + (10 * 0 + n % 10) = n
      omega

/-- Every number has a digit. -/
theorem ofNat_ne_nil (n : Nat) : ofNat n ≠ [] := by
  rcases Nat.lt_or_ge n 10 with h | h
  · simp [ofNat_of_lt h]
  · simp [ofNat_of_le h]

/-- Digits with a zero in front are the digits of zero, so nothing follows the zero. -/
theorem eq_nil_of_ofNat_eq_zero_cons (h : ofNat n = zero :: ds) : ds = [] := by
  induction n using Nat.strongRecOn generalizing ds with
  | _ n ih =>
    rcases Nat.lt_or_ge n 10 with hn | hn
    · rw [ofNat_of_lt hn] at h
      exact (List.cons.inj h).2.symm
    · -- the tenth would be written as a lone zero, and so be zero
      rw [ofNat_of_le hn] at h
      obtain ⟨d, ds', hd⟩ := List.exists_cons_of_ne_nil (ofNat_ne_nil (n / 10))
      rw [hd, List.cons_append] at h
      obtain ⟨rfl, -⟩ := List.cons.inj h
      obtain rfl := ih (n / 10) (Nat.div_lt_self (by omega) (by decide)) hd
      have hzero : n / 10 = 0 := by
        rw [← toNat_ofNat (n / 10), hd]
        rfl
      omega

/-! ## Reading digits -/

/-- A text does not continue a list of digits. -/
def Stops (cs : List Char) : Prop := ∀ c ∈ cs.head?, ofChar? c = none

/-- A character that is no digit stops the digits before it. -/
theorem stops_cons {c : Char} (h : ofChar? c = none) : Stops (c :: rest) := by
  simpa [Stops] using h

/-- Written digits are read up to where they stop. -/
theorem span_append (h : Stops rest) : span (ds.map toChar ++ rest) = (ds, rest) := by
  induction ds with
  | nil =>
    cases rest with
    | nil => rfl
    | cons c cs =>
      have hc : ofChar? c = none := h c rfl
      simp only [List.map_nil, List.nil_append, span, hc]
  | cons d ds ih =>
    simp only [List.map_cons, List.cons_append, span, ofChar?_toChar, ih]

/-- The character of a digit is no sign. -/
theorem toChar_ne_sign (d : Digit) : d.toChar ≠ '+' ∧ d.toChar ≠ '-' := by
  revert d; decide

/-- A character stands for a digit exactly if it is the digit's. -/
theorem ofChar?_eq_some_iff {c : Char} {d : Digit} : ofChar? c = some d ↔ c = d.toChar := by
  refine ⟨fun h => ?_, fun h => h ▸ ofChar?_toChar d⟩
  rw [ofChar?] at h
  split at h
  · rename_i hc
    obtain rfl := Option.some.inj h
    have hzero : '0'.toNat = 48 := rfl
    apply Char.toNat_inj.mp
    rw [toChar, Nat.toNat_digitChar_of_lt_ten hc.2]
    omega
  · cases h

/-- The digits at the front of a text are those that are written there and stop. -/
theorem span_eq_iff {cs : List Char} :
    span cs = (ds, rest) ↔ cs = ds.map toChar ++ rest ∧ Stops rest := by
  refine ⟨fun h => ?_, fun ⟨hcs, hrest⟩ => hcs ▸ span_append hrest⟩
  induction cs generalizing ds with
  | nil =>
    cases h
    exact ⟨rfl, by simp [Stops]⟩
  | cons c cs ih =>
    rw [span] at h
    split at h
    · rename_i d hd
      cases h
      obtain ⟨hcs, hrest⟩ := ih rfl
      exact ⟨by rw [List.map_cons, List.cons_append, ← hcs, ofChar?_eq_some_iff.mp hd], hrest⟩
    · rename_i hc
      cases h
      exact ⟨rfl, stops_cons hc⟩

end Digit

namespace Numeral

open Digit (Stops)

variable {ds : List Digit} {rest : List Char}

/-! ## Reading the parts of a numeral -/

/-- A text does not continue a numeral: it starts with no digit, no point and no exponent mark. -/
def Ends (cs : List Char) : Prop :=
  ∀ c ∈ cs.head?, Digit.ofChar? c = none ∧ c ≠ '.' ∧ c ≠ 'e' ∧ c ≠ 'E'

/-- What does not continue a numeral stops its digits. -/
theorem Ends.stops (h : Ends rest) : Stops rest := fun c hc => (h c hc).1

/-- Nothing continues no numeral. -/
theorem ends_nil : Ends [] := by simp [Ends]

/-- Any other character in front, such as a comma or a line break, ends a numeral. -/
theorem ends_cons {c : Char} (h : Digit.ofChar? c = none ∧ c ≠ '.' ∧ c ≠ 'e' ∧ c ≠ 'E') :
    Ends (c :: rest) := by simpa [Ends] using h

/-- Some written digits are read as these digits. -/
theorem scanDigits?_append (hds : ds ≠ []) (h : Stops rest) :
    scanDigits? (ds.map Digit.toChar ++ rest) = some (ds, rest) := by
  obtain ⟨d, ds, rfl⟩ := List.exists_cons_of_ne_nil hds
  rw [scanDigits?, Digit.span_append h]

/-- What is read as digits is written as some digits that stop. -/
theorem scanDigits?_eq_some_iff {cs : List Char} :
    scanDigits? cs = some (ds, rest) ↔ ds ≠ [] ∧ cs = ds.map Digit.toChar ++ rest ∧ Stops rest := by
  refine ⟨fun h => ?_, fun ⟨hds, hcs, hrest⟩ => hcs ▸ scanDigits?_append hds hrest⟩
  rw [scanDigits?] at h
  split at h
  · cases h
  · rename_i hne hspan
    cases h
    exact ⟨hne, Digit.span_eq_iff.mp hspan⟩

/-- The written form of a number is read as its digits. -/
theorem scanDigits?_toDigits (n : Nat) (h : Stops rest) :
    scanDigits? (Nat.toDigits 10 n ++ rest) = some (Digit.ofNat n, rest) := by
  rw [← Digit.map_toChar_ofNat, scanDigits?_append (Digit.ofNat_ne_nil n) h]

/-- A text that starts with no sign has none. -/
theorem scanSign_of_ne (plus : Bool) {cs : List Char} (h : ∀ c ∈ cs.head?, c ≠ '+' ∧ c ≠ '-') :
    scanSign plus cs = (false, cs) := by
  unfold scanSign
  split
  · exact absurd rfl (h '-' rfl).2
  · exact absurd rfl (h '+' rfl).1
  · rfl

/-- A digit is no sign. -/
theorem scanSign_toChar (plus : Bool) (d : Digit) (cs : List Char) :
    scanSign plus (d.toChar :: cs) = (false, d.toChar :: cs) :=
  scanSign_of_ne plus fun _ hc => Option.some.inj hc ▸ d.toChar_ne_sign

/-- In front of a number stands no sign unless one is written. -/
theorem scanSign_toDigits (plus negative : Bool) (n : Nat) (cs : List Char) :
    scanSign plus ((if negative then ['-'] else []) ++ (Nat.toDigits 10 n ++ cs)) =
      (negative, Nat.toDigits 10 n ++ cs) := by
  cases negative with
  | true => rfl
  | false =>
    obtain ⟨d, ds, hd⟩ := List.exists_cons_of_ne_nil (Digit.ofNat_ne_nil n)
    rw [← Digit.map_toChar_ofNat, hd]
    exact scanSign_toChar plus d _

/-- The written form of a number is read as the whole part. -/
theorem scanWhole?_toDigits (n : Nat) (h : Stops rest) :
    scanWhole? (Nat.toDigits 10 n ++ rest) = some (n, rest) := by
  obtain ⟨d, ds, hd⟩ := List.exists_cons_of_ne_nil (Digit.ofNat_ne_nil n)
  have hzero : ¬ (d = 0 ∧ ds ≠ []) := fun ⟨h0, hne⟩ =>
    hne (Digit.eq_nil_of_ofNat_eq_zero_cons (h0 ▸ hd))
  rw [scanWhole?, scanDigits?_toDigits n h, hd]
  simp only [if_neg hzero]
  rw [← hd, Digit.toNat_ofNat]

/-- What stops the whole part and starts with no point has no fraction. -/
theorem scanFraction?_of_ne (h : ∀ c ∈ rest.head?, c ≠ '.') :
    scanFraction? rest = some ([], rest) := by
  cases rest with
  | nil => rfl
  | cons c cs =>
    have hc : c ≠ '.' := h c rfl
    unfold scanFraction?
    split
    · exact absurd (List.cons.inj ‹_›).1 hc
    · rfl

/-- Written digits behind a point are read as the fraction. -/
theorem scanFraction?_append (hrest : Stops rest) (hpoint : ∀ c ∈ rest.head?, c ≠ '.') :
    scanFraction? ((if ds.isEmpty then [] else '.' :: ds.map Digit.toChar) ++ rest) =
      some (ds, rest) := by
  cases ds with
  | nil => exact scanFraction?_of_ne hpoint
  | cons d ds => exact scanDigits?_append (List.cons_ne_nil d ds) hrest

/-- What does not continue a numeral has no exponent. -/
theorem scanExponent?_of_ends (h : Ends rest) : scanExponent? rest = some (none, rest) := by
  cases rest with
  | nil => rfl
  | cons c cs =>
    obtain ⟨-, -, he, hE⟩ := h c rfl
    rw [scanExponent?, if_neg (by simp [he, hE])]

/-- A written exponent is read as that exponent. -/
theorem scanExponent?_renderExponent (e : Int) (h : Stops rest) :
    scanExponent? (renderExponent e ++ rest) = some (some e, rest) := by
  cases e with
  | ofNat n =>
    simp [renderExponent, scanExponent?, scanSign, scanDigits?_toDigits n h, Digit.toNat_ofNat]
  | negSucc n =>
    simp [renderExponent, scanExponent?, scanSign, scanDigits?_toDigits (n + 1) h,
      Digit.toNat_ofNat, Int.negSucc_eq]

/-! ## Reading a numeral -/

/-- The exponent of a numeral with its mark, if it has one. -/
def exponentPart (n : Numeral) : List Char := n.exponent.elim [] renderExponent

/-- A numeral is its parts in their order. -/
theorem render_append (n : Numeral) (rest : List Char) :
    n.render ++ rest =
      (if n.negative then ['-'] else []) ++ (Nat.toDigits 10 n.whole ++
        ((if n.fraction.isEmpty then [] else '.' :: n.fraction.map Digit.toChar) ++
          (n.exponentPart ++ rest))) := by
  obtain ⟨negative, whole, fraction, exponent⟩ := n
  cases exponent <;> simp only [render, exponentPart, Option.elim, List.append_assoc]

/-- The exponent of a numeral is read off what follows the fraction. -/
theorem scanExponent?_exponentPart (n : Numeral) (h : Ends rest) :
    scanExponent? (n.exponentPart ++ rest) = some (n.exponent, rest) := by
  obtain ⟨negative, whole, fraction, exponent⟩ := n
  cases exponent with
  | none => exact scanExponent?_of_ends h
  | some e => exact scanExponent?_renderExponent e h.stops

/-- What follows the fraction starts with no digit and no point. -/
theorem head?_exponentPart_append (n : Numeral) (h : Ends rest) :
    ∀ c ∈ (n.exponentPart ++ rest).head?, Digit.ofChar? c = none ∧ c ≠ '.' := by
  obtain ⟨negative, whole, fraction, exponent⟩ := n
  intro c hc
  rcases exponent with _ | (e | e)
  · exact ⟨(h c hc).1, (h c hc).2.1⟩
  · obtain rfl : 'e' = c := by simpa [exponentPart, renderExponent] using hc
    exact ⟨by decide, by decide⟩
  · obtain rfl : 'e' = c := by simpa [exponentPart, renderExponent] using hc
    exact ⟨by decide, by decide⟩

/-- A numeral is read off a text that starts with its written form. -/
theorem scan?_render_append (n : Numeral) (h : Ends rest) :
    scan? (n.render ++ rest) = some (n, rest) := by
  have hexponent := head?_exponentPart_append n h
  have hstops : Stops (n.exponentPart ++ rest) := fun c hc => (hexponent c hc).1
  have hwhole : Stops
      ((if n.fraction.isEmpty then [] else '.' :: n.fraction.map Digit.toChar) ++
        (n.exponentPart ++ rest)) := by
    split
    · exact hstops
    · exact Digit.stops_cons (by decide)
  rw [render_append, scan?, scanSign_toDigits]
  simp only [scanWhole?_toDigits n.whole hwhole,
    scanFraction?_append hstops fun c hc => (hexponent c hc).2,
    scanExponent?_exponentPart n h, Option.bind_eq_bind, Option.bind_some]

/-- The first character of a numeral is a minus sign or a digit. -/
theorem render_eq_cons (n : Numeral) :
    ∃ c cs, n.render = c :: cs ∧ (c = '-' ∨ ∃ d : Digit, c = d.toChar) := by
  obtain ⟨d, ds, hd⟩ := List.exists_cons_of_ne_nil (Digit.ofNat_ne_nil n.whole)
  rw [← List.append_nil n.render, render_append, ← Digit.map_toChar_ofNat, hd]
  cases n.negative with
  | true => exact ⟨'-', _, rfl, .inl rfl⟩
  | false => exact ⟨d.toChar, _, rfl, .inr ⟨d, rfl⟩⟩

end Numeral

end CodeAtlas
