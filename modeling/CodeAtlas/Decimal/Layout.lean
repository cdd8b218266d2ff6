import CodeAtlas.Decimal.Shortest

/-!
# How a decimal is laid out

A `Layout` holds the decisions of one number format: which sizes are written with an exponent,
whether a whole number keeps a zero behind its point, and which of two equally near decimals is
taken. `Layout.numeral?` writes a binary64 number as the shortest numeral of that format.
-/

namespace CodeAtlas.Decimal

/-- The decisions of a number format. -/
structure Layout where
  /-- Whether a number whose first digit counts units of `10 ^ e` is written without exponent. -/
  positional : (e : Int) → Bool
  /-- Whether a whole number without exponent is written with a zero behind the point. -/
  keepsPoint : Bool
  /-- Which of two equally near decimals is taken. -/
  tie : Tie

namespace Layout

/-- The numeral of `n · 10 ^ k`, where `n` does not end in zero. -/
def place (layout : Layout) (negative : Bool) (n : Nat) (k : Int) : Numeral :=
  let digits := Digit.ofNat n
  let lead := k + Int.ofNat (digits.length - 1)
  if layout.positional lead then
    if 0 ≤ k then
      { negative, whole := n * Nat.pow 10 k.toNat
        fraction := if layout.keepsPoint then [Digit.zero] else []
        exponent := none }
    else
      let places := (-k).toNat
      let padded := List.replicate (places - digits.length) Digit.zero ++ digits
      { negative, whole := n / Nat.pow 10 places
        fraction := padded.drop (padded.length - places)
        exponent := none }
  else
    { negative, whole := n / Nat.pow 10 (digits.length - 1)
      fraction := digits.drop 1
      exponent := some lead }

/-- The shortest numeral that reads back as the number, if the number is finite. -/
def numeral? (layout : Layout) (x : Float) : Option Numeral :=
  match x.toModel.unpack with
  | .finite sign m q _ =>
    let decimal := shortest layout.tie m q
    some (layout.place (sign matches .negative) decimal.1 decimal.2)
  | .zero sign => some (layout.place (sign matches .negative) 0 0)
  | .infinity _ => none
  | .notANumber => none

end Layout

/-- The format of messages: never an exponent, no point behind a whole number, and of two equally
near decimals the larger one. -/
def plain : Layout := ⟨fun _ => true, false, .up⟩

/-- A number as it stands in a message. -/
def render (x : Float) : String :=
  match plain.numeral? x with
  | some n => String.ofList n.render
  | none => if x.isNaN then "NaN" else if x < 0 then "-inf" else "inf"

end CodeAtlas.Decimal
