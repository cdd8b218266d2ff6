import CodeAtlas.Proofs.Documents
import CodeAtlas.Proofs.SymbolCodec
import CodeAtlas.Snapshot.Codec

/-!
# Snapshots are read as they are written

`Snapshot.parse_render`: the text of a snapshot is read as that snapshot if no two projects have one
id, and otherwise is refused with the id of the first project whose id came before. It is composed
of three results of one kind each: the text is read as the document (`Json.parse?_pretty`), the
document is decoded to the snapshot (`Snapshot.ofJson?_toJson`), and validation finds the first
repeated id (`Snapshot.firstRepeated?_eq_some_iff`).
-/

namespace CodeAtlas

open Json (list?_ofList map?_ofMap optional?_ofOption some_bind)
open Json.Record (of?_ofMembers ofMembers?_map)

/-! ## Projects -/

/-- A project is found among the members of its written form, whatever stands behind them. -/
theorem Project.ofRecord?_members (p : Project) (rest : List (String × Json)) :
    ofRecord? ⟨p.members ++ rest⟩ = some p := by
  rw [ofRecord?, members]
  simp -implicitDefEqProofs [-Option.bind_eq_bind, some_bind, optional?_ofOption]

/-- A project is read as it is written. -/
@[simp] theorem Project.ofJson?_toJson (p : Project) : ofJson? p.toJson = some p := by
  have hmembers := p.ofRecord?_members []
  rw [List.append_nil] at hmembers
  rw [ofJson?, toJson, of?_ofMembers (by decide) (by exact .refl fields), Option.bind_eq_bind,
    Option.bind_some, hmembers]

namespace ProjectEntry

/-- The members of the written form of a project with its symbols. -/
theorem toJson_eq (e : ProjectEntry) : e.toJson = .object
    ((e.project.members ++ [("symbols", Json.ofList Symbol.toJson e.symbols)]).map
      fun m => (some m.1, m.2)) := rfl

/-- Members under the names of fields are acceptable. -/
theorem all_isAcceptable {members : List (String × Json)} (h : members.map (·.1) = fields) :
    ((members.map fun m => (some m.1, m.2)).all isAcceptable) = true := by
  simp only [List.all_map, List.all_eq_true, Function.comp_apply]
  intro m hm
  have hfield : fields.contains m.1 = true := by
    simpa [← h] using ⟨m.2, hm⟩
  simp only [isAcceptable, hfield, Bool.true_or]

/-- A project with its symbols is read as it is written. -/
@[simp] theorem ofJson?_toJson (e : ProjectEntry) : ofJson? e.toJson = some e := by
  have hsymbols (j : Json) : (e.project.members ++ [("symbols", j)]).lookup "symbols" = some j := by
    simp [Project.members]
  rw [toJson_eq, ofJson?, ofMembers?_map (by decide) (by exact .refl fields),
    all_isAcceptable rfl]
  simp -implicitDefEqProofs [-Option.bind_eq_bind, some_bind, Project.ofRecord?_members,
    hsymbols, list?_ofList]

end ProjectEntry

/-! ## Snapshots -/

/-- A fault plan is read as it is written. -/
@[simp] theorem FaultPlan.ofJson?_toJson (f : FaultPlan) : ofJson? f.toJson = some f := by
  rw [ofJson?, toJson, of?_ofMembers (by decide) (by exact .refl fields)]
  simp -implicitDefEqProofs [-Option.bind_eq_bind, some_bind]

namespace Snapshot

/-- A snapshot is read as it is written. -/
@[simp] theorem ofJson?_toJson (s : Snapshot) : ofJson? s.toJson = some s := by
  rw [ofJson?, toJson, of?_ofMembers (by decide) (by exact .refl fields)]
  simp -implicitDefEqProofs [-Option.bind_eq_bind, some_bind, list?_ofList, map?_ofMap]

/-- Nothing is repeated exactly where the ids differ from each other and from those seen before. -/
theorem firstRepeated?_eq_none_iff {seen ids : List String} :
    firstRepeated? seen ids = none ↔ ids.Nodup ∧ ∀ a ∈ ids, a ∉ seen := by
  induction ids generalizing seen with
  | nil => simp [firstRepeated?]
  | cons a ids ih =>
    rw [firstRepeated?, List.nodup_cons, List.forall_mem_cons]
    split
    · rename_i ha
      simp [ha]
    · rename_i ha
      have hne : (∀ b ∈ ids, b ∉ a :: seen) ↔ a ∉ ids ∧ ∀ b ∈ ids, b ∉ seen := by
        simp only [List.mem_cons, not_or, forall_and, ← List.forall_mem_ne]
        exact and_congr_left fun _ => forall₂_congr fun _ _ => ne_comm
      rw [ih, hne]
      tauto

/-- The first repeated id stands behind different ids, one of which it is; an id that was seen
before the list counts as one of them. -/
theorem exists_of_firstRepeated? {seen ids : List String} {id : String}
    (h : firstRepeated? seen ids = some id) : ∃ earlier later, ids = earlier ++ id :: later ∧
      earlier.Nodup ∧ (∀ a ∈ earlier, a ∉ seen) ∧ (id ∈ earlier ∨ id ∈ seen) := by
  induction ids generalizing seen with
  | nil => cases h
  | cons a ids ih =>
    rw [firstRepeated?] at h
    split at h
    · rename_i ha
      cases h
      exact ⟨[], ids, rfl, .nil, nofun, .inr ha⟩
    · rename_i ha
      obtain ⟨earlier, later, rfl, hnodup, hseen, hid⟩ := ih h
      refine ⟨a :: earlier, later, rfl, ?_, ?_, ?_⟩
      · exact List.nodup_cons.mpr ⟨fun hmem => hseen a hmem List.mem_cons_self, hnodup⟩
      · exact List.forall_mem_cons.mpr ⟨ha, fun b hb hmem =>
          hseen b hb (List.mem_cons_of_mem a hmem)⟩
      · rcases hid with hid | hid
        · exact .inl (List.mem_cons_of_mem a hid)
        · refine (List.mem_cons.mp hid).imp (fun heq => ?_) fun hid => hid
          rw [heq]
          exact List.mem_cons_self

/-- A text of a snapshot is read as the snapshot, as far as that is valid. -/
theorem parse_render_eq_validate (s : Snapshot) : parse s.render = s.validate := by
  rw [parse, render, Json.parse?_pretty, Option.bind_eq_bind, Option.bind_some, ofJson?_toJson]

/-- A snapshot survives its text if its project ids differ from each other. Otherwise the text is
refused for the first project in the list whose id an earlier project has. -/
theorem parse_render (s : Snapshot) :
    if (s.projects.map (·.project.id)).Nodup then
      parse s.render = .ok s
    else
      ∃ earlier e later, s.projects = earlier ++ e :: later ∧
        (earlier.map (·.project.id)).Nodup ∧ e.project.id ∈ earlier.map (·.project.id) ∧
        parse s.render = .error (.duplicateProject e.project.id) := by
  rw [parse_render_eq_validate, validate]
  cases hid : s.repeatedId? with
  | none =>
    rw [if_pos (firstRepeated?_eq_none_iff.mp hid).1]
  | some id =>
    have hdup : ¬ (s.projects.map (·.project.id)).Nodup := fun hnodup => by
      have hnone : s.repeatedId? = none :=
        firstRepeated?_eq_none_iff.mpr ⟨hnodup, fun _ _ => List.not_mem_nil⟩
      rw [hnone] at hid
      cases hid
    obtain ⟨earlier, later, hids, hnodup, -, hmem⟩ := exists_of_firstRepeated? hid
    obtain ⟨before, behind, hprojects, rfl, hbehind⟩ := List.map_eq_append_iff.mp hids
    obtain ⟨e, after, rfl, rfl, -⟩ := List.map_eq_cons_iff.mp hbehind
    rw [if_neg hdup]
    exact ⟨before, e, after, hprojects, hnodup, hmem.resolve_right List.not_mem_nil, rfl⟩

end Snapshot

end CodeAtlas
