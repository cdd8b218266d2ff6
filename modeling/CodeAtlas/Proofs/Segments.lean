import CodeAtlas.Text.Segments
import Mathlib.Data.List.Basic

/-!
# Segments of texts

A segment is a part of a text that has no separator in it and cannot be made longer
(`IsSegment`); these parts are what the text is cut into (`mem_splitList_iff`). A text that is put
together at a separator has the segments of both parts (`splitList_append_cons`). A text that ends
with a separator, or is empty, has an empty last segment, which is lost when another text is put
behind it (`splitList_append_of_ends`).
-/

namespace CodeAtlas.Text

variable {isSeparator isSeparator' : Char → Bool} {cs ds segment : List Char} {c : Char}

/-- The segments of a text are those that the library's function gives. -/
theorem splitList_eq_splitOnP (isSeparator : Char → Bool) (cs : List Char) :
    splitList isSeparator cs = cs.splitOnP isSeparator := by
  induction cs with
  | nil => rfl
  | cons c cs ih =>
    rw [List.splitOnP_cons_eq_if_modifyHead, splitList, ih]
    cases hsegments : cs.splitOnP isSeparator with
    | nil => exact absurd hsegments (List.splitOnP_ne_nil _ _)
    | cons segment rest => rfl

/-- The segments on both sides of a separator are put together. -/
theorem splitList_append_cons (cs ds : List Char) (h : isSeparator c = true) :
    splitList isSeparator (cs ++ c :: ds) =
      splitList isSeparator cs ++ splitList isSeparator ds := by
  rw [splitList_eq_splitOnP, splitList_eq_splitOnP, splitList_eq_splitOnP,
    List.splitOnP_append_cons _ _ h]

/-- A text without separators is its only segment. -/
theorem splitList_eq_singleton (h : ∀ c ∈ cs, isSeparator c = false) :
    splitList isSeparator cs = [cs] := by
  rw [splitList_eq_splitOnP, List.splitOnP_eq_singleton h]

/-- Behind a text that is empty or ends with a separator a new segment begins. -/
theorem splitList_append_of_ends (ds : List Char)
    (h : ∀ c, cs.getLast? = some c → isSeparator c = true) :
    splitList isSeparator (cs ++ ds) =
      (splitList isSeparator cs).dropLast ++ splitList isSeparator ds := by
  rcases List.eq_nil_or_concat cs with rfl | ⟨init, c, rfl⟩
  · rfl
  · rw [List.concat_eq_append] at h ⊢
    have hc := h c List.getLast?_concat
    rw [List.append_assoc, List.singleton_append, splitList_append_cons init ds hc,
      splitList_append_cons init [] hc, splitList, List.dropLast_concat]

/-! ## Segments as parts of the text -/

/-- The part of a text between two separators, or between a separator and an end of the text. -/
structure IsSegment (isSeparator : Char → Bool) (segment cs : List Char) : Prop where
  /-- No segment has a separator in it. -/
  not_separator : ∀ c ∈ segment, isSeparator c = false
  /-- And separators stand around it. -/
  bounded : ∃ before after, cs = before ++ (segment ++ after) ∧
    (∀ c, before.getLast? = some c → isSeparator c = true) ∧
    ∀ c, after.head? = some c → isSeparator c = true

/-- The characters before the first separator are a segment; if there is a separator, the others are
the segments behind it. -/
theorem exists_first_segment (isSeparator : Char → Bool) (cs : List Char) :
    ∃ first, (∀ c ∈ first, isSeparator c = false) ∧
      (cs = first ∨ ∃ c rest, cs = first ++ c :: rest ∧ isSeparator c = true) := by
  induction cs with
  | nil => exact ⟨[], nofun, .inl rfl⟩
  | cons c cs ih =>
    cases hc : isSeparator c with
    | true => exact ⟨[], nofun, .inr ⟨c, cs, rfl, hc⟩⟩
    | false =>
      obtain ⟨first, hfirst, hcs⟩ := ih
      refine ⟨c :: first, List.forall_mem_cons.mpr ⟨hc, hfirst⟩, ?_⟩
      rcases hcs with rfl | ⟨d, rest, rfl, hd⟩
      · exact .inl rfl
      · exact .inr ⟨d, rest, rfl, hd⟩

/-- A segment behind a separator is a segment of the whole text. -/
theorem IsSegment.behind (h : IsSegment isSeparator segment ds) (hc : isSeparator c = true)
    (cs : List Char) : IsSegment isSeparator segment (cs ++ c :: ds) := by
  obtain ⟨before, after, rfl, hbefore, hafter⟩ := h.bounded
  refine ⟨h.not_separator, cs ++ c :: before, after, by simp, fun d hd => ?_, hafter⟩
  rw [List.getLast?_append_cons, List.getLast?_cons, Option.some_inj] at hd
  cases hlast : before.getLast? with
  | none => rwa [← hd, hlast]
  | some e => rw [← hd, hlast]; exact hbefore e hlast

/-- A text is cut into its segments. -/
theorem mem_splitList_iff :
    segment ∈ splitList isSeparator cs ↔ IsSegment isSeparator segment cs := by
  constructor
  · -- by induction on the length, as what is left behind the first separator is cut in the same way
    induction hlength : cs.length using Nat.strongRecOn generalizing cs with
    | ind n ih =>
    intro hsegment
    obtain ⟨first, hfirst, rfl | ⟨c, rest, rfl, hc⟩⟩ := exists_first_segment isSeparator cs
    · rw [splitList_eq_singleton hfirst, List.mem_singleton] at hsegment
      subst hsegment
      exact ⟨hfirst, [], [], by simp, nofun, nofun⟩
    · rw [splitList_append_cons first rest hc, splitList_eq_singleton hfirst,
        List.singleton_append] at hsegment
      rcases List.mem_cons.mp hsegment with rfl | hsegment
      · refine ⟨hfirst, [], c :: rest, rfl, nofun, fun d hd => ?_⟩
        cases hd
        exact hc
      · have hshorter : rest.length < n := by
          rw [← hlength, List.length_append, List.length_cons]
          omega
        exact (ih _ hshorter rfl hsegment).behind hc first
  · rintro ⟨hsegment, before, after, rfl, hbefore, hafter⟩
    rw [splitList_append_of_ends _ hbefore]
    refine List.mem_append_right _ ?_
    cases after with
    | nil => rw [List.append_nil, splitList_eq_singleton hsegment, List.mem_singleton]
    | cons c rest =>
      rw [splitList_append_cons _ _ (hafter c rfl), splitList_eq_singleton hsegment]
      exact List.mem_cons_self

theorem mem_split_iff {s part : String} :
    part ∈ split isSeparator s ↔ IsSegment isSeparator part.toList s.toList := by
  rw [← mem_splitList_iff, split, List.mem_map]
  constructor
  · rintro ⟨segment, hsegment, rfl⟩
    rwa [String.toList_ofList]
  · exact fun hpart => ⟨part.toList, hpart, String.ofList_toList⟩

/-- A change of the characters that keeps the separators changes the segments. -/
theorem splitList_map {f : Char → Char} (h : ∀ c, isSeparator (f c) = isSeparator' c)
    (cs : List Char) :
    splitList isSeparator (cs.map f) = (splitList isSeparator' cs).map (List.map f) := by
  induction cs with
  | nil => rfl
  | cons c cs ih =>
    rw [List.map_cons, splitList, splitList, h, ih]
    cases splitList isSeparator' cs <;> cases isSeparator' c <;> rfl

end CodeAtlas.Text
