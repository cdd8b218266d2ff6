import CodeAtlas.Json.Basic
import CodeAtlas.Json.Token

/-!
# Writing JSON

`Json.compact` writes a document without any blank. `Json.pretty` gives every element and member a
line of its own, indented by two spaces for each level, and puts a space behind the colon of a
member; empty arrays and objects stay on one line.
-/

namespace CodeAtlas.Json

open Token

/-! ## Tokens -/

mutual

/-- The tokens of a document. -/
def tokens : Json → List Token
  | null => [.null]
  | boolean b => [.boolean b]
  | number n => [.numeral n]
  | string s => [.string s]
  | array elements => .openArray :: elementTokens elements ++ [.closeArray]
  | object members => .openObject :: memberTokens members ++ [.closeObject]

/-- The tokens of elements, with commas between them. -/
def elementTokens : List Json → List Token
  | [] => []
  | [j] => tokens j
  | j :: k :: rest => tokens j ++ .comma :: elementTokens (k :: rest)

/-- The tokens of members, with commas between them. -/
def memberTokens : List (Option String × Json) → List Token
  | [] => []
  | [(key, j)] => .string key :: .colon :: tokens j
  | (key, j) :: m :: rest => .string key :: .colon :: tokens j ++ .comma :: memberTokens (m :: rest)

end

/-- The document without blanks. -/
def compact (j : Json) : String := String.ofList (j.tokens.flatMap Token.render)

/-! ## Lines -/

/-- A line break, and two spaces for each level. -/
def newline (level : Nat) : List Char := '\n' :: List.replicate (2 * level) ' '

mutual

/-- The lines of a document whose first character stands on a line of the given level. -/
def prettyAt (level : Nat) : Json → List Char
  | null => Token.null.render
  | boolean b => (Token.boolean b).render
  | number n => (Token.numeral n).render
  | string s => (Token.string s).render
  | array [] => openArray.render ++ closeArray.render
  | array (j :: rest) =>
    openArray.render ++ prettyElements (level + 1) (j :: rest) ++ newline level ++ closeArray.render
  | object [] => openObject.render ++ closeObject.render
  | object (m :: rest) =>
    openObject.render ++ prettyMembers (level + 1) (m :: rest) ++ newline level ++
      closeObject.render

/-- The lines of elements, with commas between them. -/
def prettyElements (level : Nat) : List Json → List Char
  | [] => []
  | [j] => newline level ++ prettyAt level j
  | j :: k :: rest =>
    newline level ++ prettyAt level j ++ comma.render ++ prettyElements level (k :: rest)

/-- The lines of members, with commas between them. -/
def prettyMembers (level : Nat) : List (Option String × Json) → List Char
  | [] => []
  | [(key, j)] => newline level ++ quote key ++ colon.render ++ [' '] ++ prettyAt level j
  | (key, j) :: m :: rest =>
    newline level ++ quote key ++ colon.render ++ [' '] ++ prettyAt level j ++ comma.render ++
      prettyMembers level (m :: rest)

end

/-- The document with a line for every element and member. -/
def pretty (j : Json) : String := String.ofList (j.prettyAt 0)

end CodeAtlas.Json
