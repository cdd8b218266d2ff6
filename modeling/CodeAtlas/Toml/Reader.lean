import CodeAtlas.Toml.Scalar

/-!
# Reading TOML

`Toml.parse?` reads a document of version 1.0 of the format: lines of keys and values, headers of
tables and of elements of arrays of tables, comments. Arrays and inline tables may be nested 79
deep, and a dotted key may have 79 parts (`nestingLimit`).
-/

namespace CodeAtlas.Toml

/-- One more than the greatest depth of values and the greatest number of parts of a key. -/
def nestingLimit : Nat := 80

/-! ## Keys -/

/-- The characters of a key without quotes. -/
def isBareChar (c : Char) : Bool := c.isAlphanum || c == '-' || c == '_'

/-- One part of a key. -/
def scanKeyPart? : Scan String
  | '"' :: rest => scanBasic (rest.length + 1) [] rest
  | '\'' :: rest => scanLiteral rest
  | cs =>
    let bare := cs.takeWhile isBareChar
    if bare.isEmpty then none else some (String.ofList bare, cs.drop bare.length)

/-- The parts of a key, with points and blanks between them. -/
def scanKeyParts? : (fuel : Nat) → Scan (List String)
  | 0, _ => none
  | fuel + 1, cs => do
    let (part, rest) ← scanKeyPart? (skipBlanks cs)
    match skipBlanks rest with
    | '.' :: rest =>
      match scanKeyParts? fuel rest with
      | some (parts, rest) => some (part :: parts, rest)
      | none => none
    | rest => some ([part], rest)

/-- A key: the parts before the last one, and the last one. -/
def scanKey? (cs : List Char) : Option ((List String × String) × List Char) := do
  let (parts, rest) ← scanKeyParts? (cs.length + 1) cs
  let last ← parts.getLast?
  if parts.length < nestingLimit then some ((parts.dropLast, last), rest) else none

/-! ## Values -/

/-- The elements of an array behind its opening bracket, with commas between them and perhaps one
behind the last. -/
def scanElements? (scan : Scan Toml) : (fuel : Nat) → Scan (List Toml)
  | 0, _ => none
  | fuel + 1, cs =>
    match skipLayout (cs.length + 1) cs with
    | ']' :: rest => some ([], rest)
    | cs => do
      let (v, rest) ← scan cs
      match skipLayout (rest.length + 1) rest with
      | ']' :: rest => some ([v], rest)
      | ',' :: rest =>
        let (vs, rest) ← scanElements? scan fuel rest
        some (v :: vs, rest)
      | _ => none

/-- A key and a value with an equals sign between them. -/
def scanPair? (scan : Scan Toml) (cs : List Char) :
    Option ((List String × String × Toml) × List Char) := do
  let ((path, key), rest) ← scanKey? cs
  match rest with
  | '=' :: rest =>
    let (v, rest) ← scan (skipBlanks rest)
    some ((path, key, v), rest)
  | _ => none

/-- The pairs of an inline table, from its first key on, added to a table. -/
def scanPairs? (scan : Scan Toml) : (fuel : Nat) → Table → Scan Table
  | 0, _, _ => none
  | fuel + 1, t, cs => do
    let ((path, key, v), rest) ← scanPair? scan cs
    let t ← t.addPair path key v
    match skipBlanks rest with
    | '\x7d' :: rest => some (t, rest)
    | ',' :: rest => scanPairs? scan fuel t rest
    | _ => none

/-- A value in which arrays and inline tables are nested less deep than `levels`. -/
def scanValue? : (levels : Nat) → Scan Toml
  | levels + 1, '[' :: rest =>
    if levels = 0 then none
    else
      (scanElements? (scanValue? levels) (rest.length + 1) rest).map fun (vs, rest) =>
        (.array vs, rest)
  | levels + 1, '\x7b' :: rest =>
    if levels = 0 then none
    else
      match skipBlanks rest with
      | '\x7d' :: rest => some (.table [], rest)
      | rest =>
        (scanPairs? (scanValue? levels) (rest.length + 1) .empty rest).map fun (t, rest) =>
          (.table t.toEntries, rest)
  | _, cs => scanScalar? cs

/-! ## Lines -/

/-- The whole key of a header behind its opening brackets and up to the closing ones. -/
def scanHeader? (brackets : Nat) (cs : List Char) : Option (List String × List Char) := do
  let ((path, key), rest) ← scanKey? cs
  if rest.take brackets = List.replicate brackets ']' then
    let rest ← skipLine? (rest.drop brackets)
    some (path ++ [key], rest)
  else none

/-- The document with one more line, which does not start with a blank, and the lines behind it. -/
def scanLine? (d : Document) (cs : List Char) : Option (Document × List Char) :=
  match cs with
  | '[' :: '[' :: rest => do
    let (path, rest) ← scanHeader? 2 rest
    let d ← d.openElement path
    some (d, rest)
  | '[' :: rest => do
    let (path, rest) ← scanHeader? 1 rest
    let d ← d.openTable path
    some (d, rest)
  | '#' :: _ | '\n' :: _ | '\r' :: _ => (skipLine? cs).map (d, ·)
  | cs => do
    let ((path, key, v), rest) ← scanPair? (scanValue? nestingLimit) cs
    let rest ← skipLine? rest
    let d ← d.addPair path key v
    some (d, rest)

/-- The document with all lines of a text. -/
def scanLines? : (fuel : Nat) → Document → List Char → Option Document
  | 0, _, _ => none
  | fuel + 1, d, cs =>
    match skipBlanks cs with
    | [] => some d
    | cs => do
      let (d, rest) ← scanLine? d cs
      scanLines? fuel d rest

/-- The entries of the document that a text writes. A byte order mark may stand in front. -/
def parse? (text : String) : Option (List (String × Toml)) := do
  let cs := match text.toList with
    | '\uFEFF' :: rest => rest
    | cs => cs
  let d ← scanLines? (cs.length + 1) .empty cs
  let root ← d.close
  some root.toEntries

end CodeAtlas.Toml
