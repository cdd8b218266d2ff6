import CodeAtlas.Analysis.Schedule
import CodeAtlas.Proofs.Turns
import Mathlib.Data.List.Count
import Mathlib.Data.List.FinRange
import Mathlib.Data.List.NodupEquivFin
import Mathlib.Data.List.Perm.Basic

/-!
# Declarations in another order

What becomes of declarations that are added at once does not depend on how they are numbered
(`Race.run_map`). So what a schedule makes of some declarations, another schedule makes of the same
declarations in any other order (`Schedule.exists_rearranged`).
-/

namespace CodeAtlas

namespace Race

variable {ι κ : Type} [DecidableEq ι] [DecidableEq κ] {d : ι → Declaration} {d' : κ → Declaration}
  {f : ι → κ}

/-- Renumbered declarations make the same catalogue, and come to the same stages. -/
theorem run_map (hf : Function.Injective f) (hd : ∀ i, d' (f i) = d i) (order : List ι) :
    (run d' (order.map f)).catalogue = (run d order).catalogue ∧
      ∀ i, (run d' (order.map f)).stage (f i) = (run d order).stage i := by
  induction order using List.reverseRecOn with
  | nil => exact ⟨rfl, fun _ => rfl⟩
  | append_singleton order j ih =>
    obtain ⟨hcatalogue, hstage⟩ := ih
    rw [List.map_append, List.map_singleton, run_concat, run_concat]
    refine ⟨?_, fun i => ?_⟩
    · rw [step, step, hd, hcatalogue, hstage]
    · rw [stage_step, stage_step, hd, hcatalogue, hstage, hstage]
      simp only [hf.eq_iff]

end Race

/-- The places of two lists with the same elements correspond to each other. -/
theorem exists_equiv_of_perm {α : Type} {l l' : List α} (h : l.Perm l') :
    ∃ e : Fin l.length ≃ Fin l'.length, ∀ i, l'.get (e i) = l.get i := by
  have hget : l'.Perm ((List.finRange l.length).map l.get) := by
    rw [← List.ofFn_eq_map, List.ofFn_get]
    exact h.symm
  -- the places of the first list, in the order in which their elements stand in the second one
  obtain ⟨places, rfl, hperm⟩ : Relation.Comp (· = List.map l.get ·) List.Perm l' _ :=
    (congrFun₂ (List.eq_map_comp_perm l.get) l' _).mpr hget
  let e := List.Nodup.getEquivOfForallMemList places
    (hperm.nodup_iff.mpr (List.nodup_finRange _)) fun i => hperm.mem_iff.mpr (List.mem_finRange i)
  refine ⟨e.symm.trans (finCongr (List.length_map _).symm), fun i => ?_⟩
  have hplace : places.get (e.symm i) = i := e.apply_symm_apply i
  rw [Equiv.trans_apply, List.get_eq_getElem, List.getElem_map]
  exact congrArg l.get hplace

/-- Declarations in another order make the same catalogue if each has its turns when it had them. -/
theorem Catalogue.ofTurns_map {config : Config} {l l' : List Declaration}
    {f : Fin l.length → Fin l'.length} (hf : Function.Injective f)
    (hget : ∀ i, l'.get (f i) = l.get i) (turns : List (Fin l.length)) :
    ofTurns config l' (turns.map f) = ofTurns config l turns := by
  rw [ofTurns, ofTurns, List.filter_map]
  have hincluded : (fun i => (l'.get i).isIncluded config) ∘ f =
      fun i => (l.get i).isIncluded config := by
    funext i
    rw [Function.comp_apply, hget]
  rw [hincluded]
  exact (Race.run_map hf hget _).1

namespace Schedule

variable {l l' : List (List Declaration)}

/-- What a schedule makes of declarations some schedule makes of them in another order. -/
theorem exists_rearranged (schedule : Schedule) (h : l.flatten.Perm l'.flatten) :
    ∃ schedule' : Schedule, schedule'.interleave = schedule.interleave ∧
      ∀ config, Catalogue.ofTurns config l'.flatten (schedule'.turns l') =
        Catalogue.ofTurns config l.flatten (schedule.turns l) := by
  obtain ⟨e, he⟩ := exists_equiv_of_perm h
  -- the new schedule differs from the old one on the second list alone
  let turns (m : List (List Declaration)) : List (Fin m.flatten.length) :=
    if hm : l' = m then hm ▸ (schedule.turns l).map e else schedule.turns m
  have hturns : turns l' = (schedule.turns l).map e := dif_pos rfl
  refine ⟨{ schedule with
    turns
    complete := fun m i => ?_ }, rfl, fun config => ?_⟩
  · by_cases hm : l' = m
    · subst hm
      rw [hturns, ← e.apply_symm_apply i, List.count_map_of_injective _ _ e.injective]
      exact schedule.complete l _
    · have hold : turns m = schedule.turns m := dif_neg hm
      rw [hold]
      exact schedule.complete m i
  · change Catalogue.ofTurns config l'.flatten (turns l') = _
    rw [hturns]
    exact Catalogue.ofTurns_map e.injective he _

end Schedule

end CodeAtlas
