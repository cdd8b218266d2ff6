import CodeAtlas.Json.Basic

/-!
# Values from JSON

Decoders turn documents into values and fail on documents of another shape. A structured value is
written as an object with its fields as members, or as an array of its fields in their declared
order; `Json.Record` is the common form of both. In an object unknown members are passed over, but
a field may stand there only once.
-/

namespace CodeAtlas.Json

/-! ## Scalars -/

/-- A text. -/
def text? : Json → Option String
  | .string s => s
  | _ => none

/-- A truth value. -/
def boolean? : Json → Option Bool
  | .boolean b => some b
  | _ => none

/-- A natural number below `2 ^ 64`, written without sign, point and exponent. -/
def uint64? : Json → Option UInt64
  | .number n => n.toNat?.bind fun k => if k < UInt64.size then some (UInt64.ofNat k) else none
  | _ => none

/-- A natural number below `2 ^ 32`, written without sign, point and exponent. -/
def uint32? : Json → Option UInt32
  | .number n => n.toNat?.bind fun k => if k < UInt32.size then some (UInt32.ofNat k) else none
  | _ => none

/-- A finite binary64 number, in any decimal form. -/
def float? : Json → Option Float
  | .number n => n.toFloat?
  | _ => none

/-- One of a list of named values: its name, or an object with the name as its only key and `null`
under it. -/
def choice? {α : Type} (values : List α) (name : α → String) : Json → Option α
  | .string (some s) => values.find? fun v => name v == s
  | .object [(some s, .null)] => values.find? fun v => name v == s
  | _ => none

/-! ## Containers -/

/-- A value, or `null` in its place. -/
def optional? {α : Type} (decode : Json → Option α) : Json → Option (Option α)
  | .null => some none
  | j => (decode j).map some

/-- A list of values. -/
def list? {α : Type} (decode : Json → Option α) : Json → Option (List α)
  | .array elements => elements.mapM decode
  | _ => none

/-- A set of texts, in any order and with repetitions. -/
def textSet? (j : Json) : Option (SortedSet String) := (list? text? j).map SortedSet.ofList

/-- A member whose key has a text and whose value decodes. -/
def keyed? {α : Type} (decode : Json → Option α) (m : Option String × Json) :
    Option (String × α) := do
  let k ← m.1
  let v ← decode m.2
  some (k, v)

/-- A map from texts; of several members with one key the last one counts. -/
def map? {α : Type} (decode : Json → Option α) : Json → Option (SortedMap String α)
  | .object members => (members.mapM (keyed? decode)).map SortedMap.ofList
  | _ => none

/-! ## Structured values -/

/-- The fields of a structured value that are present, under their names. -/
structure Record where
  /-- The present fields, each name at most once. -/
  members : List (String × Json)

namespace Record

/-- The members of an object that are fields. Every key must have a text, and no field may come
twice. -/
def ofMembers? (fields : List String) (members : List (Option String × Json)) :
    Option Record := do
  let named ← members.mapM (keyed? some)
  let known := named.filter fun m => fields.contains m.1
  if (known.map (·.1)).Nodup then some ⟨known⟩ else none

/-- The structured value with the given fields that a document writes: an object of them, or an
array of the first ones in their order. -/
def of? (fields : List String) : Json → Option Record
  | .object members => ofMembers? fields members
  | .array elements =>
    if elements.length ≤ fields.length then some ⟨fields.zip elements⟩ else none
  | _ => none

/-- The document under a field. -/
def get? (r : Record) (field : String) : Option Json := r.members.lookup field

/-- A field that must be present. -/
def required {α : Type} (r : Record) (field : String) (decode : Json → Option α) : Option α :=
  (r.get? field).bind decode

/-- A field with a value of its own where it is absent. -/
def withDefault {α : Type} (r : Record) (field : String) (absent : α)
    (decode : Json → Option α) : Option α :=
  match r.get? field with
  | none => some absent
  | some j => decode j

/-- A field that may be absent or `null`. -/
def optional {α : Type} (r : Record) (field : String) (decode : Json → Option α) :
    Option (Option α) := r.withDefault field none (optional? decode)

end Record

/-! ## Documents without a decoder -/

mutual

/-- Whether every string has a text, every number is finite, and arrays and objects are nested at
most `levels` deep. -/
def isPlain (levels : Nat) : Json → Bool
  | .null => true
  | .boolean _ => true
  | .number n => n.toFloat?.isSome
  | .string s => s.isSome
  | .array elements => 0 < levels && arePlain (levels - 1) elements
  | .object members => 0 < levels && areMembersPlain (levels - 1) members

/-- `isPlain` for all elements of an array. -/
def arePlain (levels : Nat) : List Json → Bool
  | [] => true
  | j :: rest => isPlain levels j && arePlain levels rest

/-- `isPlain` for all members of an object, keys included. -/
def areMembersPlain (levels : Nat) : List (Option String × Json) → Bool
  | [] => true
  | (k, j) :: rest => k.isSome && isPlain levels j && areMembersPlain levels rest

end

end CodeAtlas.Json
