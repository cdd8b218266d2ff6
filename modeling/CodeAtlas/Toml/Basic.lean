/-!
# TOML documents

`Toml` is the type of values. A document is assembled table by table (`Document.addPair`,
`Document.openTable`, `Document.openElement`). Each table remembers how it came about: tables on the
way to a header or a dotted key are implicit, those on the way to a dotted key are dotted, too. The
rules on repeated tables are stated in terms of these marks: a header may take up an implicit table
that is not dotted, a dotted key may extend dotted tables, and every key is given once.
-/

namespace CodeAtlas

/-- A TOML value. -/
inductive Toml where
  | text (value : String)
  | integer (value : Int)
  | float (value : Float)
  | boolean (value : Bool)
  /-- A date, a time or both, as it is written. -/
  | dateTime (value : String)
  | array (elements : List Toml)
  | table (entries : List (String × Toml))

namespace Toml

mutual

/-- What stands under a key while a document is assembled. -/
inductive Item where
  /-- A finished value. -/
  | value (v : Toml)
  /-- A table that later lines may extend. -/
  | table (t : Table)
  /-- The elements of an array of tables, last one last. -/
  | tables (ts : List Table)

/-- A table while a document is assembled. -/
inductive Table where
  | mk (implicit dotted : Bool) (entries : List (String × Item))

end

namespace Table

/-- Whether the table has been mentioned only on the way to another one. -/
def implicit : Table → Bool
  | mk i _ _ => i

/-- Whether the table has come about through a dotted key. -/
def dotted : Table → Bool
  | mk _ d _ => d

/-- The entries, in order of appearance. -/
def entries : Table → List (String × Item)
  | mk _ _ es => es

/-- An explicit table without entries. -/
def empty : Table := mk false false []

instance : Inhabited Table := ⟨empty⟩

/-- The table as one that a header has opened. -/
def opened (t : Table) : Table := mk false false t.entries

/-- What stands under a key. -/
def get? (t : Table) (key : String) : Option Item := t.entries.lookup key

/-- The list of entries with `item` under `key`: in the place of the old entry, or at the end. -/
def setList (key : String) (item : Item) : List (String × Item) → List (String × Item)
  | [] => [(key, item)]
  | (k, i) :: rest => if k = key then (key, item) :: rest else (k, i) :: setList key item rest

/-- The table with `item` under `key`. -/
def set (t : Table) (key : String) (item : Item) : Table :=
  mk t.implicit t.dotted (setList key item t.entries)

/-- The table without an entry for `key`. -/
def erase (t : Table) (key : String) : Table :=
  mk t.implicit t.dotted (t.entries.filter fun e => e.1 != key)

/-- Changes the table at the end of a path and makes the missing tables on the way, which are
dotted when the path is that of a dotted key. An array of tables is entered at its last element; a
dotted key may not pass through a table that has been given explicitly. -/
def changeAt {α : Type} (dottedPath : Bool) (change : Table → Option (α × Table)) :
    List String → Table → Option (α × Table)
  | [], t => change t
  | key :: path, t =>
    match t.get? key with
    | none => do
      let (a, child) ← changeAt dottedPath change path (mk true dottedPath [])
      some (a, t.set key (.table child))
    | some (.value _) => none
    | some (.table child) =>
      if dottedPath && !child.implicit then none
      else do
        let (a, child) ← changeAt dottedPath change path child
        some (a, t.set key (.table child))
    | some (.tables ts) =>
      match ts.getLast? with
      | none => none
      | some last => do
        let (a, last) ← changeAt dottedPath change path last
        some (a, t.set key (.tables (ts.dropLast ++ [last])))

/-- The table with a value under a dotted key, given as the path before its last part. The key must
be new, and the table at the end of the path must be the table itself or a dotted one. -/
def addPair (t : Table) (path : List String) (key : String) (v : Toml) : Option Table :=
  (changeAt true
    (fun last =>
      if last.dotted = path.isEmpty then none
      else
        match last.get? key with
        | some _ => none
        | none => some ((), last.set key (.value v)))
    path t).map (·.2)

/-- The table with a finished table under a key: a new key, an implicit table of before, or one more
element of an array of tables. -/
def addTable (parent : Table) (key : String) (isElement : Bool) (t : Table) : Option Table :=
  match parent.get? key with
  | none => some (parent.set key (if isElement then .tables [t] else .table t))
  | some (.tables ts) => if isElement then some (parent.set key (.tables (ts ++ [t]))) else none
  | some (.table old) =>
    if !isElement && old.implicit then some (parent.set key (.table t)) else none
  | some (.value _) => none

/-- The table that a header with the key opens, and the table without it. A table that was implicit
up to now is taken up with its entries. -/
def takeTable (parent : Table) (key : String) : Option (Table × Table) :=
  match parent.get? key with
  | none => some (.empty, parent)
  | some (.table old) =>
    if old.implicit && !old.dotted then some (old.opened, parent.erase key) else none
  | some _ => none

/-- Whether a header may add an element to an array of tables under the key. -/
def takesElement (parent : Table) (key : String) : Bool :=
  match parent.get? key with
  | none => true
  | some (.tables _) => true
  | some _ => false

end Table

/-- A document while its lines are read: the finished tables, and the table of the last header with
its path. The table of the lines before the first header has the empty path. -/
structure Document where
  root : Table
  path : List String
  /-- Whether the last header has opened an element of an array of tables. -/
  isElement : Bool
  current : Table

namespace Document

/-- The document without lines. -/
def empty : Document := ⟨.empty, [], false, .empty⟩

/-- The document with one more line of a key and a value. -/
def addPair (d : Document) (path : List String) (key : String) (v : Toml) : Option Document := do
  let current ← d.current.addPair path key v
  some { d with current }

/-- The finished tables together with the current one, put at its place. -/
def close (d : Document) : Option Table :=
  match d.path.getLast? with
  | none => some d.current
  | some key =>
    (d.root.changeAt false
      (fun parent => (parent.addTable key d.isElement d.current).map ((), ·))
      d.path.dropLast).map (·.2)

/-- The document behind the header of a table. -/
def openTable (d : Document) (path : List String) : Option Document := do
  let root ← d.close
  let key ← path.getLast?
  let (current, root) ← root.changeAt false (fun parent => parent.takeTable key) path.dropLast
  some { root, path, isElement := false, current }

/-- The document behind the header of an element of an array of tables. -/
def openElement (d : Document) (path : List String) : Option Document := do
  let root ← d.close
  let key ← path.getLast?
  let (_, root) ← root.changeAt false
    (fun parent => if parent.takesElement key then some ((), parent) else none) path.dropLast
  some { root, path, isElement := true, current := .empty }

end Document

/-! ## Finished values -/

mutual

/-- The value of a finished item. -/
def Item.toToml : Item → Toml
  | .value v => v
  | .table t => .table t.toEntries
  | .tables ts => .array (tablesToToml ts)

/-- The entries of a finished table. -/
def Table.toEntries : Table → List (String × Toml)
  | .mk _ _ es => entriesToToml es

/-- The values of entries. -/
def entriesToToml : List (String × Item) → List (String × Toml)
  | [] => []
  | (k, i) :: rest => (k, i.toToml) :: entriesToToml rest

/-- The values of tables. -/
def tablesToToml : List Table → List Toml
  | [] => []
  | t :: rest => .table t.toEntries :: tablesToToml rest

end

end Toml

end CodeAtlas
