import CodeAtlas.Config.Basic
import CodeAtlas.Decimal.Numeral
import CodeAtlas.Text.Blank

/-!
# Overriding a configuration

Two texts from outside may override the number of tasks and the threshold (`Config.override`). A
text is trimmed first. A blank one, and one that writes no number, leaves the old value; so does a
threshold out of its range. The number of tasks is brought into the range from 1 to 64 in the end,
the old one too.
-/

namespace CodeAtlas

/-! ## Numbers in overrides -/

namespace Override

/-- The count that a text of digits writes, with or without a plus sign, if it is below `2 ^ 64`. -/
def count? (cs : List Char) : Option UInt64 := do
  let cs := match cs with
    | '+' :: rest => rest
    | cs => cs
  let (ds, rest) ← Numeral.scanDigits? cs
  let n := Digit.toNat ds
  if rest.isEmpty && n < UInt64.size then some (UInt64.ofNat n) else none

/-- The numbers that have a word for them, in any case. -/
def word? (cs : List Char) : Option Float :=
  let word := String.ofList (cs.map Char.toLower)
  if word = "inf" ∨ word = "infinity" then some (1.0 / 0.0)
  else if word = "nan" then some (0.0 / 0.0)
  else none

/-- The number of digits with or without a point; one of the two sides of the point may be empty. -/
def decimal? (negative : Bool) (cs : List Char) : Option Float := do
  let (whole, rest) := Digit.span cs
  let (fraction, rest) := match rest with
    | '.' :: rest => Digit.span rest
    | rest => ([], rest)
  if whole.isEmpty && fraction.isEmpty then none
  else
    let (exponent, rest) ← Numeral.scanExponent? rest
    if rest.isEmpty then
      some (Numeral.nearestFloat negative (Digit.toNat (whole ++ fraction))
        (exponent.getD 0 - fraction.length))
    else none

/-- The number that a text writes: digits or a word, with or without a sign. -/
def number? (cs : List Char) : Option Float :=
  let (negative, cs) := Numeral.scanSign true cs
  match word? cs with
  | some x => some (if negative then -x else x)
  | none => decimal? negative cs

/-- What a reader makes of a text that is not blank. -/
def read? {α : Type} (read : List Char → Option α) (text : Option String) : Option α := do
  let s ← text
  let cs := Text.trimList s.toList
  if cs.isEmpty then none else read cs

end Override

namespace Config

/-- The greatest number of tasks. -/
def maxWorkers : UInt64 := 64

/-- The number of tasks brought into its range. -/
def clampWorkers (n : UInt64) : UInt64 := max 1 (min n maxWorkers)

/-- The configuration with the overrides for the number of tasks and for the threshold. -/
def override (c : Config) (concurrency threshold : Option String) : Config :=
  { c with
    workerConcurrency :=
      clampWorkers ((Override.read? Override.count? concurrency).getD c.workerConcurrency)
    mergeThreshold :=
      ((Override.read? Override.number? threshold).filter isThreshold).getD c.mergeThreshold }

end Config

end CodeAtlas
