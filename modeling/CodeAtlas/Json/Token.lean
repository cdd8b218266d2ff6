import CodeAtlas.Decimal.Numeral

/-!
# JSON tokens

The lexical level of JSON: `Token.render` writes a token, `Token.scanAll?` splits a text into its
tokens and drops the blanks between them. A string literal is read in two steps: `scanUnits?` takes
the code units that its characters and escapes stand for, and `pairUnits?` joins surrogate pairs to
characters and fails on a surrogate that stands alone.
-/

namespace CodeAtlas.Json

/-- The smallest parts of a JSON text. -/
inductive Token where
  | openObject
  | closeObject
  | openArray
  | closeArray
  | colon
  | comma
  | null
  | boolean (value : Bool)
  | numeral (value : Numeral)
  /-- A string literal, `none` where a surrogate lacks its partner. -/
  | string (text : Option String)
  deriving DecidableEq

namespace Token

/-! ## Writing -/

/-- A character as it stands in a string literal: quotes, backslashes and control characters are
escaped, all others stand for themselves. -/
def escape (c : Char) : List Char :=
  if c == '"' then ['\\', '"']
  else if c == '\\' then ['\\', '\\']
  else if c == '\x08' then ['\\', 'b']
  else if c == '\x0c' then ['\\', 'f']
  else if c == '\n' then ['\\', 'n']
  else if c == '\r' then ['\\', 'r']
  else if c == '\t' then ['\\', 't']
  else if c.toNat < 0x20 then
    ['\\', 'u', '0', '0', Nat.digitChar (c.toNat / 16), Nat.digitChar (c.toNat % 16)]
  else [c]

/-- A string literal. One without text is written as a surrogate that stands alone. -/
def quote : Option String → List Char
  | some s => '"' :: s.toList.flatMap escape ++ ['"']
  | none => ['"', '\\', 'u', 'd', '8', '0', '0', '"']

/-- The characters of a token. -/
def render : Token → List Char
  | openObject => ['\x7b']
  | closeObject => ['\x7d']
  | openArray => ['[']
  | closeArray => [']']
  | colon => [':']
  | comma => [',']
  | null => ['n', 'u', 'l', 'l']
  | boolean true => ['t', 'r', 'u', 'e']
  | boolean false => ['f', 'a', 'l', 's', 'e']
  | numeral n => n.render
  | string s => quote s

/-! ## Reading string literals -/

/-- The value of a hexadecimal digit. -/
def hexDigit? (c : Char) : Option Nat :=
  if '0' ≤ c ∧ c ≤ '9' then some (c.toNat - '0'.toNat)
  else if 'a' ≤ c ∧ c ≤ 'f' then some (c.toNat - 'a'.toNat + 10)
  else if 'A' ≤ c ∧ c ≤ 'F' then some (c.toNat - 'A'.toNat + 10)
  else none

/-- The code unit that four hexadecimal digits write. -/
def hexUnit? (a b c d : Char) : Option Nat := do
  let a ← hexDigit? a
  let b ← hexDigit? b
  let c ← hexDigit? c
  let d ← hexDigit? d
  some (((a * 16 + b) * 16 + c) * 16 + d)

/-- The code unit that an escape of one letter stands for. -/
def escapedUnit? (c : Char) : Option Nat :=
  if c == '"' || c == '\\' || c == '/' then some c.toNat
  else if c == 'b' then some 0x08
  else if c == 'f' then some 0x0c
  else if c == 'n' then some 0x0a
  else if c == 'r' then some 0x0d
  else if c == 't' then some 0x09
  else none

/-- The code units of a string literal behind its opening quote, and what follows the closing one.
`units` holds the units read so far, last one first. A character stands for its code point, an
escape for its unit. -/
def scanUnits? (units : List Nat) : List Char → Option (List Nat × List Char)
  | [] => none
  | '"' :: rest => some (units.reverse, rest)
  | '\\' :: 'u' :: a :: b :: c :: d :: rest =>
    match hexUnit? a b c d with
    | some u => scanUnits? (u :: units) rest
    | none => none
  | '\\' :: c :: rest =>
    match escapedUnit? c with
    | some u => scanUnits? (u :: units) rest
    | none => none
  | c :: rest =>
    if c.toNat < 0x20 ∨ c = '\\' then none else scanUnits? (c.toNat :: units) rest

/-- The first half of a surrogate pair. -/
def isHighSurrogate (u : Nat) : Bool := 0xD800 ≤ u && u < 0xDC00

/-- The second half of a surrogate pair. -/
def isLowSurrogate (u : Nat) : Bool := 0xDC00 ≤ u && u < 0xE000

/-- The characters of a list of code units, if every surrogate has its partner. `chars` holds the
characters found so far, last one first. -/
def pairUnits? (chars : List Char) : List Nat → Option (List Char)
  | [] => some chars.reverse
  | [u] =>
    if isHighSurrogate u || isLowSurrogate u then none else some (Char.ofNat u :: chars).reverse
  | u :: v :: rest =>
    if isHighSurrogate u then
      if isLowSurrogate v then
        pairUnits? (Char.ofNat (0x10000 + (u - 0xD800) * 0x400 + (v - 0xDC00)) :: chars) rest
      else none
    else if isLowSurrogate u then none
    else pairUnits? (Char.ofNat u :: chars) (v :: rest)

/-! ## Reading tokens -/

/-- The blanks between tokens. -/
def isBlank (c : Char) : Bool := c == ' ' || c == '\n' || c == '\r' || c == '\t'

/-- The token at the front of a text that starts with no blank, and what follows it. -/
def scan? : List Char → Option (Token × List Char)
  | '\x7b' :: rest => some (openObject, rest)
  | '\x7d' :: rest => some (closeObject, rest)
  | '[' :: rest => some (openArray, rest)
  | ']' :: rest => some (closeArray, rest)
  | ':' :: rest => some (colon, rest)
  | ',' :: rest => some (comma, rest)
  | 'n' :: 'u' :: 'l' :: 'l' :: rest => some (null, rest)
  | 't' :: 'r' :: 'u' :: 'e' :: rest => some (boolean true, rest)
  | 'f' :: 'a' :: 'l' :: 's' :: 'e' :: rest => some (boolean false, rest)
  | '"' :: rest =>
    (scanUnits? [] rest).map fun (units, rest) =>
      (string ((pairUnits? [] units).map String.ofList), rest)
  | cs => (Numeral.scan? cs).map fun (n, rest) => (numeral n, rest)

/-- What follows a string literal is shorter than the text behind its opening quote. -/
theorem length_scanUnits? {units units' : List Nat} {cs rest : List Char}
    (h : scanUnits? units cs = some (units', rest)) : rest.length < cs.length := by
  fun_induction scanUnits? units cs with
  | case1 => simp at h
  | case2 => simp_all
  | case3 units a b c d r u _ ih => have := ih h; simp; omega
  | case4 => simp at h
  | case5 units c r _ u _ ih => have := ih h; simp; omega
  | case6 => simp at h
  | case7 => simp at h
  | case8 units c r _ _ _ _ ih => have := ih h; simp; omega

/-- What follows a token is shorter than the text. -/
theorem length_scan? {cs rest : List Char} {t : Token} (h : scan? cs = some (t, rest)) :
    rest.length < cs.length := by
  unfold scan? at h
  split at h
  case h_10 =>
    simp only [Option.map_eq_some_iff] at h
    obtain ⟨⟨units, rest'⟩, h, heq⟩ := h
    have := length_scanUnits? h
    cases heq
    simp; omega
  case h_11 =>
    simp only [Option.map_eq_some_iff] at h
    obtain ⟨⟨n, rest'⟩, h, heq⟩ := h
    have := Numeral.length_scan? h
    cases heq
    exact this
  all_goals
    cases h
    simp
    try omega

/-- The tokens of a text, if it consists of tokens and blanks. `tokens` holds the ones read so far,
last one first. -/
def scanAll? (tokens : List Token) (cs : List Char) : Option (List Token) :=
  match cs with
  | [] => some tokens.reverse
  | c :: rest =>
    if isBlank c then scanAll? tokens rest
    else
      match h : scan? (c :: rest) with
      | some (t, rest') =>
        have := length_scan? h
        scanAll? (t :: tokens) rest'
      | none => none
termination_by cs.length
decreasing_by
  · exact Nat.lt_succ_self _
  · exact this

end Token

end CodeAtlas.Json
