import CodeAtlas.Decimal.Numeral
import CodeAtlas.Json.Token
import CodeAtlas.Toml.Basic

/-!
# The scalars of TOML

Readers for strings, numbers, dates and times. Every reader takes a text and gives the value at its
front together with what follows it, or nothing where the text breaks the grammar.
-/

namespace CodeAtlas.Toml

/-- A reader for the front of a text. -/
abbrev Scan (α : Type) := List Char → Option (α × List Char)

/-! ## Blanks, line ends and comments -/

/-- The blanks inside a line. -/
def isLineBlank (c : Char) : Bool := c == ' ' || c == '\t'

/-- What follows the blanks of a line. -/
def skipBlanks (cs : List Char) : List Char := cs.dropWhile isLineBlank

/-- What follows a line end: a line feed, with or without a carriage return before it. -/
def skipNewline? : List Char → Option (List Char)
  | '\n' :: rest => some rest
  | '\r' :: '\n' :: rest => some rest
  | _ => none

/-- The characters that may stand in a comment. -/
def isCommentChar (c : Char) : Bool := c == '\t' || (0x20 ≤ c.toNat && c.toNat != 0x7F)

/-- What follows a comment, if there is one. -/
def skipComment : List Char → List Char
  | '#' :: rest => rest.dropWhile isCommentChar
  | cs => cs

/-- What follows the rest of a line: blanks, a comment, and a line end or the end of the text. -/
def skipLine? (cs : List Char) : Option (List Char) :=
  match skipComment (skipBlanks cs) with
  | [] => some []
  | cs => skipNewline? cs

/-- What follows blanks, comments and line ends. -/
def skipLayout : (fuel : Nat) → List Char → List Char
  | 0, cs => cs
  | fuel + 1, cs =>
    match skipComment (skipBlanks cs) with
    | rest =>
      match skipNewline? rest with
      | some rest => skipLayout fuel rest
      | none => rest

/-! ## Strings -/

/-- The characters that stand for themselves in every string: tabs, and all but control characters.
-/
def isStringChar (c : Char) : Bool := c == '\t' || (0x20 ≤ c.toNat && c.toNat != 0x7F)

/-- The value of a list of hexadecimal digits. -/
def hexValue? (cs : List Char) : Option Nat :=
  cs.foldlM (fun n c => (Json.Token.hexDigit? c).map (16 * n + ·)) 0

/-- The character with a code point, unless that is a surrogate or beyond the last one. -/
def charOf? (n : Nat) : Option Char := if n.isValidChar then some (Char.ofNat n) else none

/-- The character that an escape stands for, behind its backslash. -/
def scanEscape? : Scan Char
  | 'b' :: rest => some ('\x08', rest)
  | 't' :: rest => some ('\t', rest)
  | 'n' :: rest => some ('\n', rest)
  | 'f' :: rest => some ('\x0c', rest)
  | 'r' :: rest => some ('\r', rest)
  | '"' :: rest => some ('"', rest)
  | '\\' :: rest => some ('\\', rest)
  | 'u' :: rest => hex 4 rest
  | 'U' :: rest => hex 8 rest
  | _ => none
where
  /-- A character written as that many hexadecimal digits. -/
  hex (digits : Nat) (cs : List Char) : Option (Char × List Char) := do
    let ds := cs.take digits
    if ds.length < digits then none
    else
      let n ← hexValue? ds
      let c ← charOf? n
      some (c, cs.drop digits)

/-- A string on one line behind its opening quote, with escapes. -/
def scanBasic : (fuel : Nat) → (chars : List Char) → Scan String
  | 0, _, _ => none
  | fuel + 1, chars, cs =>
    match cs with
    | [] => none
    | '"' :: rest => some (String.ofList chars.reverse, rest)
    | '\\' :: rest =>
      match scanEscape? rest with
      | some (c, rest) => scanBasic fuel (c :: chars) rest
      | none => none
    | c :: rest => if isStringChar c then scanBasic fuel (c :: chars) rest else none

/-- A string on one line behind its opening apostrophe, without escapes. -/
def scanLiteral : Scan String
  | cs =>
    let body := cs.takeWhile fun c => isStringChar c && c != '\''
    match cs.drop body.length with
    | '\'' :: rest => some (String.ofList body, rest)
    | _ => none

/-- The end of a string on several lines at a run of quotes: three quotes close it, and up to two
more before them belong to it. The result is what the run adds to the string, what follows, and
whether the string is closed. -/
def closeRun (quote : Char) (cs : List Char) : List Char × List Char × Bool :=
  let run := (cs.takeWhile (· == quote)).length
  if run < 3 then (List.replicate run quote, cs.drop run, false)
  else
    let inside := min (run - 3) 2
    (List.replicate inside quote, cs.drop (inside + 3), true)

/-- What follows a backslash at the end of a line: all blanks and line ends. -/
def skipContinuation? (cs : List Char) : Option (List Char) :=
  (skipNewline? (skipBlanks cs)).map (skipAll cs.length)
where
  /-- What follows blanks and line ends. -/
  skipAll : Nat → List Char → List Char
    | 0, cs => cs
    | fuel + 1, cs =>
      match skipNewline? (skipBlanks cs) with
      | some rest => skipAll fuel rest
      | none => skipBlanks cs

/-- A string on several lines behind its opening quotes. With `escapes`, a backslash begins an
escape or joins lines. -/
def scanLines (quote : Char) (escapes : Bool) : (fuel : Nat) → (chars : List Char) → Scan String
  | 0, _, _ => none
  | fuel + 1, chars, cs =>
    match cs with
    | [] => none
    | c :: rest =>
      if c == quote then
        match closeRun quote cs with
        | (inside, rest, true) => some (String.ofList (chars.reverse ++ inside), rest)
        | (inside, rest, false) => scanLines quote escapes fuel (inside ++ chars) rest
      else if escapes && c == '\\' then
        match skipContinuation? rest with
        | some rest => scanLines quote escapes fuel chars rest
        | none =>
          match scanEscape? rest with
          | some (c, rest) => scanLines quote escapes fuel (c :: chars) rest
          | none => none
      else
        match skipNewline? cs with
        | some rest => scanLines quote escapes fuel ('\n' :: chars) rest
        | none => if isStringChar c then scanLines quote escapes fuel (c :: chars) rest else none

/-- A string on several lines; a line end behind the opening quotes does not belong to it. -/
def scanLinesFrom (quote : Char) (escapes : Bool) (cs : List Char) : Option (String × List Char) :=
  let body := (skipNewline? cs).getD cs
  scanLines quote escapes (body.length + 1) [] body

/-- A string of any of the four kinds. -/
def scanString : Scan String
  | '"' :: '"' :: '"' :: rest => scanLinesFrom '"' true rest
  | '"' :: rest => scanBasic (rest.length + 1) [] rest
  | '\'' :: '\'' :: '\'' :: rest => scanLinesFrom '\'' false rest
  | '\'' :: rest => scanLiteral rest
  | _ => none

/-! ## Numbers -/

/-- At least one digit, with single underscores between digits. An underscore in another place is
left over, where no value may be followed by one. -/
def scanGrouped? (isDigit : Char → Bool) : Scan (List Char)
  | [] => none
  | c :: rest => if isDigit c then some (go [c] rest) else none
where
  /-- The digits after the first one, which `digits` holds, last one first. -/
  go (digits : List Char) : List Char → List Char × List Char
    | '_' :: c :: rest =>
      if isDigit c then go (c :: digits) rest else (digits.reverse, '_' :: c :: rest)
    | c :: rest => if isDigit c then go (c :: digits) rest else (digits.reverse, c :: rest)
    | [] => (digits.reverse, [])

/-- The value of decimal digits. -/
def decimalValue (cs : List Char) : Nat := Digit.toNat (cs.filterMap Digit.ofChar?)

/-- The digits of a whole number: a lone zero, or digits that start with another one. -/
def scanWhole? : Scan (List Char)
  | '0' :: rest => some (['0'], rest)
  | cs => scanGrouped? Char.isDigit cs

/-- The integers of 64 bits. -/
def integer64? (negative : Bool) (n : Nat) : Option Int :=
  let i : Int := if negative then -n else n
  if -9223372036854775808 ≤ i ∧ i ≤ 9223372036854775807 then some i else none

/-- An integer in another base than ten behind the mark of its base. -/
def scanBased? (isDigit : Char → Bool) (base : Nat) (cs : List Char) :
    Option (Toml × List Char) := do
  let (ds, rest) ← scanGrouped? isDigit cs
  let n ← ds.foldlM (fun n c => (Json.Token.hexDigit? c).map (base * n + ·)) 0
  let i ← integer64? false n
  some (.integer i, rest)

/-- The words for infinity and for no number, behind a sign. -/
def scanSpecial? (negative : Bool) : Scan Toml
  | 'i' :: 'n' :: 'f' :: rest => some (.float (if negative then -1.0 / 0.0 else 1.0 / 0.0), rest)
  | 'n' :: 'a' :: 'n' :: rest => some (.float (0.0 / 0.0), rest)
  | _ => none

/-- The exponent of a number behind its mark. -/
def scanExponent? (cs : List Char) : Option (Int × List Char) := do
  let (negative, cs) := Numeral.scanSign true cs
  let (ds, rest) ← scanGrouped? Char.isDigit cs
  let n : Int := decimalValue ds
  some (if negative then -n else n, rest)

/-- A fraction behind its point, if there is a point. -/
def scanFraction? : Scan (List Char)
  | '.' :: cs => scanGrouped? Char.isDigit cs
  | cs => some ([], cs)

/-- A decimal number: an integer of 64 bits, or a number with a point or an exponent, which may be
too large for a finite one only if it is negative. -/
def scanDecimal? (cs : List Char) : Option (Toml × List Char) := do
  let (negative, cs) := Numeral.scanSign true cs
  let (whole, cs) ← scanWhole? cs
  let (fraction, rest) ← scanFraction? cs
  match rest with
  | 'e' :: rest | 'E' :: rest =>
    let (e, rest) ← scanExponent? rest
    finish negative whole fraction e rest
  | _ =>
    if fraction.isEmpty then
      let i ← integer64? negative (decimalValue whole)
      some (.integer i, rest)
    else finish negative whole fraction 0 rest
where
  /-- The number with a fraction and an exponent. -/
  finish (negative : Bool) (whole fraction : List Char) (e : Int) (rest : List Char) :
      Option (Toml × List Char) :=
    let x := Numeral.nearestFloat negative (decimalValue (whole ++ fraction)) (e - fraction.length)
    if x.isInf && !negative then none else some (.float x, rest)

/-- A number of any form. -/
def scanNumber? : Scan Toml
  | '0' :: 'x' :: rest => scanBased? (fun c => (Json.Token.hexDigit? c).isSome) 16 rest
  | '0' :: 'o' :: rest => scanBased? (fun c => '0' ≤ c && c ≤ '7') 8 rest
  | '0' :: 'b' :: rest => scanBased? (fun c => c == '0' || c == '1') 2 rest
  | cs =>
    let (negative, behindSign) := Numeral.scanSign true cs
    match scanSpecial? negative behindSign with
    | some r => some r
    | none => scanDecimal? cs

/-! ## Dates and times -/

/-- A number of exactly so many digits, within bounds. -/
def scanField? (digits low high : Nat) (cs : List Char) : Option (Nat × List Char) :=
  let ds := cs.take digits
  let n := decimalValue ds
  if ds.length = digits ∧ ds.all Char.isDigit ∧ low ≤ n ∧ n ≤ high then some (n, cs.drop digits)
  else none

/-- What follows a given character. -/
def expect? (c : Char) : List Char → Option (List Char)
  | d :: rest => if d = c then some rest else none
  | [] => none

/-- Whether a year has a day more. -/
def isLeapYear (year : Nat) : Bool := year % 4 == 0 && (year % 100 != 0 || year % 400 == 0)

/-- The number of days in a month. -/
def daysIn (year month : Nat) : Nat :=
  if month = 2 then if isLeapYear year then 29 else 28
  else if month = 4 ∨ month = 6 ∨ month = 9 ∨ month = 11 then 30
  else 31

/-- What follows a date. -/
def skipDate? (cs : List Char) : Option (List Char) := do
  let (year, cs) ← scanField? 4 0 9999 cs
  let cs ← expect? '-' cs
  let (month, cs) ← scanField? 2 1 12 cs
  let cs ← expect? '-' cs
  let (day, cs) ← scanField? 2 1 31 cs
  if day ≤ daysIn year month then some cs else none

/-- What follows a time of the day: hours, minutes and seconds, with or without a fraction. -/
def skipTime? (cs : List Char) : Option (List Char) := do
  let (_, cs) ← scanField? 2 0 23 cs
  let cs ← expect? ':' cs
  let (_, cs) ← scanField? 2 0 59 cs
  let cs ← expect? ':' cs
  let (_, cs) ← scanField? 2 0 60 cs
  match cs with
  | '.' :: c :: rest =>
    if c.isDigit then some (rest.dropWhile Char.isDigit) else some ('.' :: c :: rest)
  | cs => some cs

/-- What follows the distance of a time from universal time, if one is given. -/
def skipOffset? : List Char → Option (List Char)
  | 'Z' :: rest | 'z' :: rest => some rest
  | '+' :: rest | '-' :: rest => do
    let (_, cs) ← scanField? 2 0 23 rest
    let cs ← expect? ':' cs
    let (_, cs) ← scanField? 2 0 59 cs
    some cs
  | cs => some cs

/-- Whether so many digits and then the character stand at the front. -/
def startsField (digits : Nat) (c : Char) (cs : List Char) : Bool :=
  (cs.take digits).length == digits && (cs.take digits).all Char.isDigit &&
    (cs.drop digits).head? == some c

/-- Whether a time of the day begins at the front. -/
def startsTime (cs : List Char) : Bool := (scanField? 2 0 23 (cs.take 2)).isSome &&
  startsField 2 ':' cs

/-- What follows a date with or without a time, or a time alone. -/
def skipDateTime? (cs : List Char) : Option (List Char) :=
  if startsField 4 '-' cs then do
    let rest ← skipDate? cs
    match rest with
    | c :: time =>
      if (c == 'T' || c == 't' || c == ' ') && startsTime time then do
        let rest ← skipTime? time
        skipOffset? rest
      else some rest
    | [] => some []
  else skipTime? cs

/-- Whether a date or a time begins at the front. -/
def startsDateTime (cs : List Char) : Bool := startsField 4 '-' cs || startsTime cs

/-- A date, a time or both. -/
def scanDateTime? (cs : List Char) : Option (Toml × List Char) :=
  (skipDateTime? cs).map fun rest =>
    (.dateTime (String.ofList (cs.take (cs.length - rest.length))), rest)

/-! ## Scalars -/

/-- A scalar of any kind. -/
def scanScalar? : Scan Toml
  | '"' :: rest => (scanString ('"' :: rest)).map fun (s, rest) => (.text s, rest)
  | '\'' :: rest => (scanString ('\'' :: rest)).map fun (s, rest) => (.text s, rest)
  | 't' :: 'r' :: 'u' :: 'e' :: rest => some (.boolean true, rest)
  | 'f' :: 'a' :: 'l' :: 's' :: 'e' :: rest => some (.boolean false, rest)
  | cs => if startsDateTime cs then scanDateTime? cs else scanNumber? cs

end CodeAtlas.Toml
