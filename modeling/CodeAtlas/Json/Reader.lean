import CodeAtlas.Json.Basic
import CodeAtlas.Json.Token

/-!
# Reading JSON

`Json.parse?` reads a text of exactly one document with blanks around its tokens. The tokens drive a
machine with a stack of unfinished arrays and objects (`Reader.step?`), so reading is one fold over
the tokens and needs no bound on the depth of the document.
-/

namespace CodeAtlas.Json

namespace Reader

/-- An unfinished array or object around the value that is being read. Finished elements and
members stand last one first. -/
inductive Frame where
  /-- An array with its finished elements. -/
  | elements (done : List Json)
  /-- An object with its finished members, and the key of the value that is being read. -/
  | members (done : List (Option String × Json)) (key : Option String)

/-- What may come next. -/
inductive State where
  /-- A value. -/
  | value (stack : List Frame)
  /-- The first element of an array, or its end. -/
  | firstElement (stack : List Frame)
  /-- A comma or the end of an array. -/
  | afterElement (done : List Json) (stack : List Frame)
  /-- The first key of an object, or its end. -/
  | firstKey (stack : List Frame)
  /-- A key. -/
  | key (done : List (Option String × Json)) (stack : List Frame)
  /-- The colon behind a key. -/
  | colon (done : List (Option String × Json)) (key : Option String) (stack : List Frame)
  /-- A comma or the end of an object. -/
  | afterMember (done : List (Option String × Json)) (stack : List Frame)
  /-- Nothing: the document is complete. -/
  | complete (document : Json)

/-- The state behind a finished value. -/
def finish (j : Json) : List Frame → State
  | [] => .complete j
  | .elements done :: stack => .afterElement (j :: done) stack
  | .members done key :: stack => .afterMember ((key, j) :: done) stack

/-- The state behind the first token of a value. -/
def beginValue (stack : List Frame) : Token → Option State
  | .null => some (finish .null stack)
  | .boolean b => some (finish (.boolean b) stack)
  | .numeral n => some (finish (.number n) stack)
  | .string s => some (finish (.string s) stack)
  | .openArray => some (.firstElement stack)
  | .openObject => some (.firstKey stack)
  | _ => none

/-- The state behind a token, if the token may stand there. -/
def step? : State → Token → Option State
  | .value stack, t => beginValue stack t
  | .firstElement stack, .closeArray => some (finish (.array []) stack)
  | .firstElement stack, t => beginValue (.elements [] :: stack) t
  | .afterElement done stack, .comma => some (.value (.elements done :: stack))
  | .afterElement done stack, .closeArray => some (finish (.array done.reverse) stack)
  | .firstKey stack, .closeObject => some (finish (.object []) stack)
  | .firstKey stack, .string k => some (.colon [] k stack)
  | .key done stack, .string k => some (.colon done k stack)
  | .colon done k stack, .colon => some (.value (.members done k :: stack))
  | .afterMember done stack, .comma => some (.key done stack)
  | .afterMember done stack, .closeObject => some (finish (.object done.reverse) stack)
  | _, _ => none

/-- The state behind a list of tokens. -/
def run? (s : State) (ts : List Token) : Option State := ts.foldlM step? s

end Reader

/-- The document that a list of tokens writes. -/
def ofTokens? (ts : List Token) : Option Json :=
  match Reader.run? (.value []) ts with
  | some (.complete j) => some j
  | _ => none

/-- The document that a text writes. -/
def parse? (text : String) : Option Json := Token.scanAll? [] text.toList >>= ofTokens?

end CodeAtlas.Json
