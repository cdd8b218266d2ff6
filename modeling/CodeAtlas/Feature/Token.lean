import CodeAtlas.Config.Basic
import CodeAtlas.Text.Lowercase
import CodeAtlas.Text.Segments

/-!
# Feature tokens

The directories of a source file name the feature to which it belongs. Segments that say nothing
about features are passed over: empty ones, hidden ones, drives, and those that the configuration
lists, in any case. Of the others the third one is the file's token, or the last one if there are
fewer; a file without any belongs to the unknown feature. Paths under a root are taken relative to
it, and backslashes count as slashes.
-/

namespace CodeAtlas

/-- The feature of nodes whose file names none. -/
def unknownFeature : String := "Unknown"

/-- How paths are read for feature tokens. -/
structure TokenRules where
  /-- The segments that are passed over, in lower case. -/
  ignored : List String
  /-- The path to which others are relative: with forward slashes only, and none at the end. -/
  root : Option (List Char) := none
  deriving DecidableEq

namespace TokenRules

/-- The characters without slashes at their end. -/
def trimSlashes (cs : List Char) : List Char := (cs.reverse.dropWhile (· == '/')).reverse

/-- The rules of a configuration without a root. -/
def ofConfig (c : Config) : TokenRules :=
  { ignored := (c.buildOutputSegments ++ c.nonSourceSegments).map Text.lowercase }

/-- The rules with a root; an empty path is none. -/
def withRoot (rules : TokenRules) (root : String) : TokenRules :=
  { rules with
    root := if root.isEmpty then none
      else some (trimSlashes (Text.forwardSlashes root.toList)) }

/-- What follows the root in a path; the whole path if it does not lie under the root. -/
def relative (rules : TokenRules) (path : List Char) : List Char :=
  match rules.root.bind (·.isPrefixOf? path) with
  | some [] => []
  | some ('/' :: rest) => '/' :: rest
  | _ => path

/-- Whether a directory's name says something about features. -/
def isMeaningful (rules : TokenRules) (segment : List Char) : Bool :=
  !segment.isEmpty && segment.head? != some '.' && segment.getLast? != some ':' &&
    !rules.ignored.contains (Text.lowercase (String.ofList segment))

/-- The meaningful directories of a path; its last segment is the file. -/
def directories (rules : TokenRules) (path : String) : List (List Char) :=
  (Text.splitList (· == '/') (rules.relative (Text.forwardSlashes path.toList))).dropLast.filter
    rules.isMeaningful

/-- The token that the meaningful directories give. -/
def choose : List (List Char) → String
  | [] => unknownFeature
  | [a] => String.ofList a
  | [_, b] => String.ofList b
  | _ :: _ :: c :: _ => String.ofList c

/-- The token of a file, if its path is known. -/
def token (rules : TokenRules) : Option String → String
  | some path => choose (rules.directories path)
  | none => unknownFeature

end TokenRules

end CodeAtlas
