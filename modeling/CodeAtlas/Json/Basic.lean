import CodeAtlas.Collections.SortedMap
import CodeAtlas.Decimal.Layout

/-!
# JSON documents

A `Json` is a document as it is written: the members of an object keep their order and may repeat a
key, and numbers keep their decimal form. A string literal may write half of a surrogate pair
without the other half; such a literal has no text and stands as `none`, both as a value and as a
key.

`Json.ofFloat` writes a number in the format of the documents (`Json.numberLayout`).
`Json.sortKeys` puts all members in key order, and `Json.settle` also drops every member whose key
comes again.
-/

namespace CodeAtlas

/-- A JSON document. -/
inductive Json where
  /-- The literal `null`. -/
  | null
  /-- The literals `true` and `false`. -/
  | boolean (value : Bool)
  /-- A number. -/
  | number (value : Numeral)
  /-- A string literal, `none` where a surrogate lacks its partner. -/
  | string (text : Option String)
  /-- An array. -/
  | array (elements : List Json)
  /-- An object, its members in the order in which they are written. -/
  | object (members : List (Option String × Json))

namespace Json

instance : Inhabited Json := ⟨null⟩

/-! ## Values as documents -/

/-- A text. -/
def ofString (s : String) : Json := string (some s)

/-- A natural number. -/
def ofNat (n : Nat) : Json := number (Numeral.ofNat n)

/-- Numbers from one hundred-thousandth up to ten quadrillions are written without exponent, whole
ones with a zero behind the point; of two equally near decimals the one with an even last digit is
taken. -/
def numberLayout : Decimal.Layout := ⟨fun e => -5 ≤ e && e < 16, true, .even⟩

/-- A binary64 number; one that is not finite has no numeral and is written as `null`. -/
def ofFloat (x : Float) : Json :=
  match numberLayout.numeral? x with
  | some n => number n
  | none => null

/-- A value that may be absent, with `null` in its place. -/
def ofOption {α : Type} (encode : α → Json) : Option α → Json
  | some a => encode a
  | none => null

/-- An array of encoded values. -/
def ofList {α : Type} (encode : α → Json) (l : List α) : Json := array (l.map encode)

/-- An object with the given members. -/
def ofMembers (members : List (String × Json)) : Json :=
  object (members.map fun m => (some m.1, m.2))

/-- An object with one member for each entry of a map. -/
def ofMap {α : Type} (encode : α → Json) (m : SortedMap String α) : Json :=
  ofMembers (m.entries.map fun e => (e.1, encode e.2))

/-- A set of texts. -/
def ofSet (s : SortedSet String) : Json := ofList ofString s.toList

/-! ## Members in key order -/

/-- The order of keys; a key without text comes first. -/
def keyLe (a b : Option String × Json) : Bool :=
  match a.1, b.1 with
  | none, _ => true
  | some _, none => false
  | some s, some t => s ≤ t

mutual

/-- The document with the members of every object in key order. -/
def sortKeys : Json → Json
  | null => null
  | boolean b => boolean b
  | number n => number n
  | string s => string s
  | array elements => array (sortKeysList elements)
  | object members => object ((sortKeysMembers members).mergeSort keyLe)

/-- `sortKeys` on the elements of an array. -/
def sortKeysList : List Json → List Json
  | [] => []
  | j :: rest => sortKeys j :: sortKeysList rest

/-- `sortKeys` on the values of members. -/
def sortKeysMembers : List (Option String × Json) → List (Option String × Json)
  | [] => []
  | (k, j) :: rest => (k, sortKeys j) :: sortKeysMembers rest

end

/-! ## Repeated keys -/

/-- The members whose key does not come again. -/
def dropRepeated : List (Option String × Json) → List (Option String × Json)
  | [] => []
  | m :: rest => if rest.any fun other => other.1 == m.1 then dropRepeated rest
    else m :: dropRepeated rest

mutual

/-- The document in which of several members of an object with one key only the last is left. -/
def settle : Json → Json
  | null => null
  | boolean b => boolean b
  | number n => number n
  | string s => string s
  | array elements => array (settleList elements)
  | object members => object (dropRepeated (settleMembers members))

/-- `settle` on the elements of an array. -/
def settleList : List Json → List Json
  | [] => []
  | j :: rest => settle j :: settleList rest

/-- `settle` on the values of members. -/
def settleMembers : List (Option String × Json) → List (Option String × Json)
  | [] => []
  | (k, j) :: rest => (k, settle j) :: settleMembers rest

end

end Json

end CodeAtlas
