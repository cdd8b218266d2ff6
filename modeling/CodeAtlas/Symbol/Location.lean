import CodeAtlas.Text.Lowercase
import CodeAtlas.Text.Segments

/-!
# Source locations

A `Location` is a span of a source file from a start to an end position. Spans are ordered by
nothing but containment: `Location.contains` compares the two ends of two spans of one file.
-/

namespace CodeAtlas

/-- A place in a file; lines and columns count from one. -/
structure Position where
  line : UInt32
  column : UInt32
  deriving DecidableEq

namespace Position

/-- Earlier lines come first, in one line earlier columns. -/
instance : Ord Position :=
  ⟨fun a b => (compare a.line b.line).then (compare a.column b.column)⟩

/-- Whether `a` comes no later than `b`. -/
def le (a b : Position) : Bool := (compare a b).isLE

end Position

/-- A span of a source file. -/
structure Location where
  filePath : String
  startLine : UInt32
  startColumn : UInt32
  endLine : UInt32
  endColumn : UInt32
  deriving DecidableEq

namespace Location

/-- The span of whole lines, from the first column to the first column. -/
def lines (filePath : String) (startLine endLine : UInt32) : Location :=
  { filePath, startLine, startColumn := 1, endLine, endColumn := 1 }

/-- Where the span starts. -/
def start (l : Location) : Position := ⟨l.startLine, l.startColumn⟩

/-- Where the span ends. -/
def stop (l : Location) : Position := ⟨l.endLine, l.endColumn⟩

/-- Whether `l` spans all of `other`. -/
def contains (l other : Location) : Bool :=
  l.filePath == other.filePath && l.start.le other.start && other.stop.le l.stop

/-- The part of the file's name behind its last point, letters in lower case. A name without point,
or with nothing behind the last one, has no extension. -/
def extension (l : Location) : Option String :=
  let file := Text.afterLast Text.isSlash l.filePath.toList
  let suffix := Text.afterLast (· == '.') file
  if file.contains '.' && !suffix.isEmpty then some (String.ofList (suffix.map Char.toLower))
  else none

end Location

end CodeAtlas
