import CodeAtlas.Json.Decoder
import Mathlib.Data.List.Nodup

/-!
# Decoders undo encoders

For each way of composing a document there is a lemma that the decoder of the composition takes back
what the encoder wrote, as soon as the decoders of the parts do: choices, optional values, lists,
maps, sets and structured values. The hypotheses speak only of the parts that occur in the value at
hand, so they can be met where a type as a whole has values without a written form.

A structured value is taken apart once, by `Json.Record.of?_ofMembers`: an object whose keys are
fields in their declared order is read as its members.

Conversely, whatever a field, a list or a map holds after it was read came out of the decoder of its
elements, so a bound that this decoder checks holds for all of them.
-/

namespace CodeAtlas.Json

variable {α : Type}

/-! ## Scalars -/

/-- A written text is read back. -/
@[simp] theorem text?_ofString (s : String) : text? (ofString s) = some s := rfl

/-- No text is written as `null`. -/
@[simp] theorem text?_null : text? .null = none := rfl

/-- A written truth value is read back. -/
@[simp] theorem boolean?_boolean (b : Bool) : boolean? (boolean b) = some b := rfl

/-- The numeral of a natural number writes that number. -/
theorem toNat?_ofNat (n : Nat) : (Numeral.ofNat n).toNat? = some n := rfl

/-- A written number of 32 bits is read back. -/
@[simp] theorem uint32?_ofNat (n : UInt32) : uint32? (ofNat n.toNat) = some n := by
  rw [ofNat, uint32?, toNat?_ofNat, Option.bind_some, if_pos n.toNat_lt, UInt32.ofNat_toNat]

/-- A written number of 64 bits is read back. -/
@[simp] theorem uint64?_ofNat (n : UInt64) : uint64? (ofNat n.toNat) = some n := by
  rw [ofNat, uint64?, toNat?_ofNat, Option.bind_some, if_pos n.toNat_lt, UInt64.ofNat_toNat]

/-- The name of one of several values with different names is read back as the value. -/
theorem choice?_ofString {values : List α} {name : α → String} (h : (values.map name).Nodup)
    {a : α} (ha : a ∈ values) : choice? values name (ofString (name a)) = some a := by
  rw [ofString, choice?, List.find?_eq_some_iff_append]
  obtain ⟨before, behind, rfl⟩ := List.append_of_mem ha
  refine ⟨beq_self_eq_true _, before, behind, rfl, fun b hb => ?_⟩
  rw [List.map_append, List.nodup_append] at h
  have hne : name b ≠ name a :=
    h.2.2 _ (List.mem_map_of_mem hb) _ (List.mem_map_of_mem List.mem_cons_self)
  simpa using hne

/-! ## Containers -/

/-- A value that may be absent is read back if it is never written as `null`. -/
theorem optional?_ofOption {encode : α → Json} {decode : Json → Option α}
    (hnull : decode .null = none) {o : Option α} (h : ∀ a ∈ o, decode (encode a) = some a) :
    optional? decode (ofOption encode o) = some o := by
  cases o with
  | none => rfl
  | some a =>
    have ha := h a rfl
    unfold ofOption optional?
    split
    · rw [‹encode a = .null›, hnull] at ha
      contradiction
    · rw [ha, Option.map_some]

/-- What is encoded element by element is decoded element by element. -/
theorem mapM_map {β : Type} {encode : α → β} {decode : β → Option α} {l : List α}
    (h : ∀ a ∈ l, decode (encode a) = some a) : (l.map encode).mapM decode = some l := by
  induction l with
  | nil => rfl
  | cons a l ih =>
    obtain ⟨ha, hl⟩ := List.forall_mem_cons.mp h
    simp only [List.map_cons, List.mapM_cons, ha, ih hl, Option.bind_eq_bind, Option.bind_some,
      Option.pure_def]

/-- A list is read back if its elements are. -/
theorem list?_ofList {encode : α → Json} {decode : Json → Option α} {l : List α}
    (h : ∀ a ∈ l, decode (encode a) = some a) : list? decode (ofList encode l) = some l :=
  mapM_map h

/-- A list of texts is read back. -/
@[simp] theorem list?_text?_ofList (l : List String) :
    list? text? (ofList ofString l) = some l := list?_ofList fun _ _ => rfl

/-- A set of texts is read back. -/
@[simp] theorem textSet?_ofSet (s : SortedSet String) : textSet? (ofSet s) = some s := by
  rw [textSet?, ofSet, list?_text?_ofList, Option.map_some, SortedSet.ofList_toList]

/-- Members with a text as key are read back if their values are. -/
theorem mapM_keyed? {encode : α → Json} {decode : Json → Option α} {l : List (String × α)}
    (h : ∀ e ∈ l, decode (encode e.2) = some e.2) :
    (l.map fun e => (some e.1, encode e.2)).mapM (keyed? decode) = some l :=
  mapM_map fun e he => by simp only [keyed?, h e he, Option.bind_eq_bind, Option.bind_some]

/-- A map is read back if its values are. -/
theorem map?_ofMap {encode : α → Json} {decode : Json → Option α} {m : SortedMap String α}
    (h : ∀ a ∈ m.values, decode (encode a) = some a) : map? decode (ofMap encode m) = some m := by
  rw [SortedMap.values, List.forall_mem_map] at h
  rw [ofMap, ofMembers, map?, List.map_map]
  simp only [Function.comp_def, mapM_keyed? h, Option.map_some, SortedMap.ofList_entries]

/-! ## Steps of a decoder -/

/-- A step that succeeds hands its value to the rest. -/
theorem some_bind {β : Type} (a : α) (f : α → Option β) : (some a >>= f) = f a := rfl

/-- A decoder succeeds if a step and the rest do. -/
theorem bind_eq_some_iff {β : Type} {o : Option α} {f : α → Option β} {b : β} :
    (o >>= f) = some b ↔ ∃ a, o = some a ∧ f a = some b := Option.bind_eq_some_iff

/-! ## Structured values -/

namespace Record

variable {fields : List String} {members : List (String × Json)}

/-- Members whose keys are fields in their declared order are all taken. -/
theorem ofMembers?_map (hfields : fields.Nodup) (hkeys : (members.map (·.1)).Sublist fields) :
    ofMembers? fields (members.map fun m => (some m.1, m.2)) = some ⟨members⟩ := by
  have hknown : members.filter (fun m => fields.contains m.1) = members :=
    List.filter_eq_self.mpr fun m hm => by
      simpa using hkeys.subset (List.mem_map_of_mem hm)
  have hnamed : (members.map fun m => (some m.1, m.2)).mapM (keyed? some) = some members :=
    mapM_map fun _ _ => rfl
  simp only [ofMembers?, hnamed, Option.bind_eq_bind, Option.bind_some, hknown,
    if_pos (hkeys.nodup hfields)]

/-- An object whose keys are fields in their declared order is read as its members. -/
theorem of?_ofMembers (hfields : fields.Nodup) (hkeys : (members.map (·.1)).Sublist fields) :
    of? fields (.ofMembers members) = some ⟨members⟩ := ofMembers?_map hfields hkeys

variable {field : String} {decode : Json → Option α}

/-- Members are searched in their order. -/
@[simp] theorem lookup_cons {key : String} {j : Json} :
    ((key, j) :: members).lookup field = if field = key then some j else members.lookup field := by
  rw [List.lookup_eq_findSome?, List.lookup_eq_findSome?, List.findSome?_cons]
  by_cases h : field = key
  · rw [if_pos (beq_iff_eq.mpr h), if_pos h]
  · rw [if_neg (mt beq_iff_eq.mp h), if_neg h]

/-- A required field is looked up among the members. -/
@[simp] theorem required_mk :
    (⟨members⟩ : Record).required field decode = (members.lookup field).bind decode := rfl

/-- A field with a default is looked up among the members. -/
@[simp] theorem withDefault_mk {absent : α} :
    (⟨members⟩ : Record).withDefault field absent decode =
      (members.lookup field).elim (some absent) decode := by
  rw [withDefault, get?]
  cases members.lookup field <;> rfl

/-- A field that may be `null` is looked up among the members. -/
@[simp] theorem optional_mk :
    (⟨members⟩ : Record).optional field decode =
      (members.lookup field).elim (some none) (optional? decode) := withDefault_mk

/-- What stands under a required field has been decoded. -/
theorem exists_of_required {r : Record} {a : α} (h : r.required field decode = some a) :
    ∃ j, decode j = some a := by
  obtain ⟨j, -, hj⟩ := Option.bind_eq_some_iff.mp h
  exact ⟨j, hj⟩

end Record

/-! ## What containers hold after decoding -/

variable {decode : Json → Option α}

/-- The elements of the outcome have been decoded. -/
theorem exists_of_mem_mapM {β : Type} {f : β → Option α} {l : List β} {l' : List α}
    (h : l.mapM f = some l') {a : α} (ha : a ∈ l') : ∃ b, f b = some a := by
  induction l generalizing l' with
  | nil =>
    cases h
    cases ha
  | cons b l ih =>
    simp only [List.mapM_cons, bind_eq_some_iff, Option.pure_def, Option.some.injEq] at h
    obtain ⟨a', ha', rest, hrest, rfl⟩ := h
    obtain rfl | ha := List.mem_cons.mp ha
    · exact ⟨b, ha'⟩
    · exact ih hrest ha

/-- The elements of a list that is read have been decoded. -/
theorem exists_of_list? {j : Json} {l : List α} (h : list? decode j = some l) {a : α}
    (ha : a ∈ l) : ∃ j, decode j = some a := by
  cases j with
  | array elements => exact exists_of_mem_mapM h ha
  | _ => cases h

/-- The values of a map that is read have been decoded. -/
theorem exists_of_map? {j : Json} {m : SortedMap String α} (h : map? decode j = some m) {a : α}
    (ha : a ∈ m.values) : ∃ j, decode j = some a := by
  cases j with
  | object members =>
    obtain ⟨entries, hentries, rfl⟩ := Option.map_eq_some_iff.mp h
    obtain ⟨k, hk⟩ := SortedMap.mem_values.mp ha
    obtain ⟨e, he⟩ := exists_of_mem_mapM hentries (SortedMap.mem_of_get?_ofList hk)
    simp only [keyed?, bind_eq_some_iff, Option.some.injEq, Prod.mk.injEq] at he
    obtain ⟨-, -, v, hv, -, rfl⟩ := he
    exact ⟨e.2, hv⟩
  | _ => cases h

end CodeAtlas.Json
