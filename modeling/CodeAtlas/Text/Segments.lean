/-!
# Parts of texts

Texts are cut into segments at separator characters, and tested for what they begin and end with.
All functions work on the list of characters, so that statements about them are statements about
lists.
-/

namespace CodeAtlas.Text

/-- Whether the text begins with `start`. -/
def beginsWith (s start : String) : Bool := start.toList.isPrefixOf s.toList

/-- Whether the text ends with `tail`. -/
def endsWith (s tail : String) : Bool := tail.toList.isSuffixOf s.toList

/-- The segments between the characters for which `isSeparator` holds. There is always at least one
segment, and segments may be empty. -/
def splitList (isSeparator : Char → Bool) : List Char → List (List Char)
  | [] => [[]]
  | c :: cs =>
    if isSeparator c then [] :: splitList isSeparator cs
    else
      match splitList isSeparator cs with
      | [] => [[c]]
      | segment :: rest => (c :: segment) :: rest

/-- The segments of a text between the characters for which `isSeparator` holds. -/
def split (isSeparator : Char → Bool) (s : String) : List String :=
  (splitList isSeparator s.toList).map String.ofList

/-- The characters behind the last one for which `isSeparator` holds; all of them if there is none.
-/
def afterLast (isSeparator : Char → Bool) (cs : List Char) : List Char :=
  (cs.reverse.takeWhile fun c => !isSeparator c).reverse

/-- The separators in file paths. -/
def isSlash (c : Char) : Bool := c == '/' || c == '\\'

/-- The path with a slash for every backslash. -/
def forwardSlashes (cs : List Char) : List Char := cs.map fun c => if c == '\\' then '/' else c

/-- A text has at least one segment. -/
theorem splitList_ne_nil (isSeparator : Char → Bool) (cs : List Char) :
    splitList isSeparator cs ≠ [] := by
  cases cs with
  | nil => simp [splitList]
  | cons c cs =>
    simp only [splitList]
    split
    · simp
    · split <;> simp

end CodeAtlas.Text
