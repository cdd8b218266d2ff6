import CodeAtlas.Text.CaseMap

/-!
# Lower case

`lowercase` maps every character to its lower-case form (`Text.caseRuns`), with two exceptions: a
capital I with a dot becomes two characters, and a capital sigma becomes the final form where it
ends a word: some letter with case precedes it, none follows, ignorable characters not counted.
`lowercaseAscii` maps the letters A to Z alone.
-/

namespace CodeAtlas.Text

/-- Whether one of the ranges holds `n`. -/
def inRanges (ranges : Array (Nat × Nat)) (n : Nat) : Bool :=
  ranges.any fun r => r.1 ≤ n && n ≤ r.2

/-- Whether `c` is a letter with case. -/
def isCased (c : Char) : Bool := inRanges casedRanges c.toNat

/-- Whether `c` is passed over in the search for a letter with case. -/
def isCaseIgnorable (c : Char) : Bool := inRanges ignorableRanges c.toNat

/-- The lower-case form of a character that has a single one; any other character itself. -/
def lowerChar (c : Char) : Char :=
  let n := c.toNat
  if n < 0x80 then c.toLower
  else
    match caseRuns.find? fun r => r.first ≤ n && n ≤ r.last && (n - r.first) % r.step == 0 with
    | some r => Char.ofNat (n + r.offset).toNat
    | none => c

/-- Whether the nearest character that is not ignorable is a letter with case. -/
def meetsCased (cs : List Char) : Bool :=
  match cs.dropWhile isCaseIgnorable with
  | c :: _ => isCased c
  | [] => false

/-- The lower case of a text, given the characters `before` it, nearest first. -/
def lowerList (before : List Char) : List Char → List Char
  | [] => []
  | c :: rest =>
    let lowered :=
      if c == 'Σ' then
        if meetsCased before && !meetsCased rest then ['ς'] else ['σ']
      else if c == 'İ' then ['i', '\u0307']
      else [lowerChar c]
    lowered ++ lowerList (c :: before) rest

/-- The lower case of a text. -/
def lowercase (s : String) : String := String.ofList (lowerList [] s.toList)

/-- The text with the letters A to Z in lower case. -/
def lowercaseAscii (s : String) : String := String.ofList (s.toList.map Char.toLower)

end CodeAtlas.Text
