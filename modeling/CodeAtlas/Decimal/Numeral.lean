/-!
# Decimal numerals

A `Numeral` is a decimal number as it is written: sign, whole part, digits after the point and an
exponent. `Numeral.toFloat?` is the binary64 number nearest to it, `Numeral.toNat?` the natural
number that it writes without point, exponent and sign. `Numeral.scan?` reads the longest numeral
of the strict grammar (no leading zero, a digit on both sides of the point) off a text, and
`Numeral.render` writes one.
-/

namespace CodeAtlas

/-- A decimal digit. -/
abbrev Digit := Fin 10

namespace Digit

/-- The digit zero. -/
def zero : Digit := ⟨0, Nat.zero_lt_succ 9⟩

/-- The digit that a character stands for. -/
def ofChar? (c : Char) : Option Digit :=
  let n := c.toNat - '0'.toNat
  if h : '0'.toNat ≤ c.toNat ∧ n < 10 then some ⟨n, h.2⟩ else none

/-- The character of a digit. -/
def toChar (d : Digit) : Char := Nat.digitChar d.val

/-- A digit's character stands for the digit. -/
@[simp] theorem ofChar?_toChar (d : Digit) : ofChar? d.toChar = some d := by
  revert d; decide

/-- The digits at the front of a text, and what follows them. -/
def span : List Char → List Digit × List Char
  | [] => ([], [])
  | c :: cs =>
    match ofChar? c with
    | some d => ((d :: (span cs).1), (span cs).2)
    | none => ([], c :: cs)

/-- What follows the digits is no longer than the text. -/
theorem length_span_le (cs : List Char) : (span cs).2.length ≤ cs.length := by
  induction cs with
  | nil => simp [span]
  | cons c cs ih =>
    simp only [span]
    split <;> simp
    omega

/-- Some digit at the front makes what follows shorter. -/
theorem length_span_lt {cs : List Char} (h : (span cs).1 ≠ []) :
    (span cs).2.length < cs.length := by
  cases cs with
  | nil => simp [span] at h
  | cons c cs =>
    have := length_span_le cs
    rw [span] at h ⊢
    split at h
    · exact Nat.lt_succ_of_le this
    · exact absurd rfl h

/-- The number that a list of digits writes in base ten. -/
def toNat (ds : List Digit) : Nat := ds.foldl (fun n d => 10 * n + d.val) 0

/-- The digits of a number in base ten, without leading zeros; zero has one digit. -/
def ofNat (n : Nat) : List Digit := (Nat.toDigits 10 n).filterMap ofChar?

end Digit

/-- A decimal number as it is written. -/
structure Numeral where
  /-- Whether a minus sign stands in front. -/
  negative : Bool
  /-- The number before the point. -/
  whole : Nat
  /-- The digits after the point; without any there is no point. -/
  fraction : List Digit
  /-- The power of ten behind the exponent mark, if there is a mark. -/
  exponent : Option Int
  deriving DecidableEq

namespace Numeral

/-- The numeral of a natural number. -/
def ofNat (n : Nat) : Numeral := ⟨false, n, [], none⟩

/-- The digits without the point, as one number. -/
def significand (n : Numeral) : Nat :=
  n.whole * Nat.pow 10 n.fraction.length + Digit.toNat n.fraction

/-- The power of ten by which the significand is scaled. -/
def scale (n : Numeral) : Int := n.exponent.getD 0 - n.fraction.length

/-- The natural number that is written without sign, point and exponent. -/
def toNat? (n : Numeral) : Option Nat :=
  if n.negative || !n.fraction.isEmpty || n.exponent.isSome then none else some n.whole

/-- The binary64 number nearest to `m · 10 ^ e`, ties to the even neighbour; beyond the largest
finite number it is infinite. -/
def nearestFloat (negative : Bool) (m : Nat) (e : Int) : Float :=
  let magnitude := Float.ofScientific m (e < 0) e.natAbs
  if negative then -magnitude else magnitude

/-- The binary64 number nearest to the numeral, unless that is infinite. -/
def toFloat? (n : Numeral) : Option Float :=
  let x := nearestFloat n.negative n.significand n.scale
  if x.isInf then none else some x

/-! ## Writing -/

/-- An exponent with its mark and sign. -/
def renderExponent : Int → List Char
  | .ofNat n => 'e' :: '+' :: Nat.toDigits 10 n
  | .negSucc n => 'e' :: '-' :: Nat.toDigits 10 (n + 1)

/-- The characters of a numeral. -/
def render (n : Numeral) : List Char :=
  (if n.negative then ['-'] else []) ++ Nat.toDigits 10 n.whole ++
    (if n.fraction.isEmpty then [] else '.' :: n.fraction.map Digit.toChar) ++
    (match n.exponent with
      | none => []
      | some e => renderExponent e)

/-! ## Reading -/

/-- An optional sign, and what follows it. A plus sign is taken only where `plus` allows it. -/
def scanSign (plus : Bool) : List Char → Bool × List Char
  | '-' :: cs => (true, cs)
  | '+' :: cs => if plus then (false, cs) else (false, '+' :: cs)
  | cs => (false, cs)

/-- At least one digit, and what follows the digits. -/
def scanDigits? (cs : List Char) : Option (List Digit × List Char) :=
  match Digit.span cs with
  | ([], _) => none
  | (ds, rest) => some (ds, rest)

/-- The digits of the whole part: a lone zero, or digits that start with another one. -/
def scanWhole? (cs : List Char) : Option (Nat × List Char) :=
  match scanDigits? cs with
  | some (d :: ds, rest) => if d = 0 ∧ ds ≠ [] then none else some (Digit.toNat (d :: ds), rest)
  | _ => none

/-- A point with the digits after it, if there is a point. -/
def scanFraction? : List Char → Option (List Digit × List Char)
  | '.' :: cs => scanDigits? cs
  | cs => some ([], cs)

/-- An exponent behind its mark, if there is a mark. -/
def scanExponent? : List Char → Option (Option Int × List Char)
  | c :: cs =>
    if c = 'e' ∨ c = 'E' then
      let (negative, cs) := scanSign true cs
      (scanDigits? cs).map fun (ds, rest) =>
        let n : Int := Digit.toNat ds
        (some (if negative then -n else n), rest)
    else some (none, c :: cs)
  | [] => some (none, [])

/-- The numeral at the front of a text, and what follows it. A part that is begun and not finished
makes the text unreadable. -/
def scan? (cs : List Char) : Option (Numeral × List Char) := do
  let (negative, cs) := scanSign false cs
  let (whole, cs) ← scanWhole? cs
  let (fraction, cs) ← scanFraction? cs
  let (exponent, cs) ← scanExponent? cs
  some (⟨negative, whole, fraction, exponent⟩, cs)

/-- What follows a sign is no longer than the text. -/
theorem length_scanSign_le (plus : Bool) (cs : List Char) :
    (scanSign plus cs).2.length ≤ cs.length := by
  unfold scanSign
  split <;> try split
  all_goals simp

/-- What follows at least one digit is shorter than the text. -/
theorem length_scanDigits? {cs rest : List Char} {ds : List Digit}
    (h : scanDigits? cs = some (ds, rest)) : rest.length < cs.length := by
  unfold scanDigits? at h
  split at h
  · simp at h
  · rename_i hne heq
    cases h
    have : (Digit.span cs).2.length < cs.length :=
      Digit.length_span_lt (by rw [heq]; exact hne)
    simpa [heq] using this

/-- What follows a whole part is shorter than the text. -/
theorem length_scanWhole? {cs rest : List Char} {n : Nat}
    (h : scanWhole? cs = some (n, rest)) : rest.length < cs.length := by
  unfold scanWhole? at h
  split at h
  · rename_i heq
    have := length_scanDigits? heq
    split at h <;> simp_all
  · simp at h

/-- What follows a fraction is no longer than the text. -/
theorem length_scanFraction? {cs rest : List Char} {ds : List Digit}
    (h : scanFraction? cs = some (ds, rest)) : rest.length ≤ cs.length := by
  unfold scanFraction? at h
  split at h
  · have := length_scanDigits? h
    simp; omega
  · simp_all

/-- What follows an exponent is no longer than the text. -/
theorem length_scanExponent? {cs rest : List Char} {e : Option Int}
    (h : scanExponent? cs = some (e, rest)) : rest.length ≤ cs.length := by
  unfold scanExponent? at h
  split at h
  · rename_i c cs
    split at h
    · simp only [Option.map_eq_some_iff] at h
      obtain ⟨⟨ds, rest'⟩, hd, heq⟩ := h
      have h1 := length_scanDigits? hd
      have h2 := length_scanSign_le true cs
      cases heq
      simp; omega
    · simp_all
  · simp_all

/-- What follows a numeral is shorter than the text. -/
theorem length_scan? {cs rest : List Char} {n : Numeral} (h : scan? cs = some (n, rest)) :
    rest.length < cs.length := by
  simp only [scan?, Option.bind_eq_bind, Option.bind_eq_some_iff, Option.some.injEq] at h
  obtain ⟨⟨whole, cs1⟩, h1, ⟨fraction, cs2⟩, h2, ⟨exponent, cs3⟩, h3, heq⟩ := h
  have h0 := length_scanSign_le false cs
  have h1 := length_scanWhole? h1
  have h2 := length_scanFraction? h2
  have h3 := length_scanExponent? h3
  cases heq
  dsimp only at h0 h1 h2 h3 ⊢
  omega

end Numeral

end CodeAtlas
