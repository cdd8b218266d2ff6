import CodeAtlas.Text.Segments

/-!
# The directory of a workspace

A workspace is given by a path, of a directory or of a file in it. A path whose last segment has an
extension is one of a file (`hasExtension`), and its workspace lies in the directory of the file
(`workspaceRoot`). Only slashes separate the segments; empty segments and single points count
nothing at the end of a path.
-/

namespace CodeAtlas

/-- Whether the name of a file or directory has an extension, be it empty: there is a point in it
behind its first character. -/
def hasExtension (name : List Char) : Bool :=
  name != ['.', '.'] && name.tail.contains '.'

/-- Whether a segment counts nothing behind another one. -/
def isVoidSegment (segment : List Char) : Bool := segment.isEmpty || segment == ['.']

/-- The segments without void ones at their end. -/
def trimVoid (segments : List (List Char)) : List (List Char) :=
  (segments.reverse.dropWhile isVoidSegment).reverse

/-- The path with the given segments, of which the first is empty in absolute paths. -/
def joinSegments : List (List Char) → List Char
  | [] => []
  | [[]] => ['/']
  | segments => ['/'].intercalate segments

/-- The directory of the workspace at a path. -/
def workspaceRoot (path : String) : String :=
  match Text.splitList (· == '/') path.toList with
  | [] => path
  | first :: rest =>
    match (trimVoid rest).getLast? with
    | some name =>
      if hasExtension name then
        String.ofList (joinSegments (first :: trimVoid (trimVoid rest).dropLast))
      else path
    | none => if hasExtension first then "" else path

end CodeAtlas
