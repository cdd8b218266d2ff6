import CodeAtlas.Proofs.Lookup
import CodeAtlas.Proofs.Offers
import Mathlib.Data.List.Induction

/-!
# Snapshots that are built step by step

A snapshot is built by steps that add projects, answers and faults, in any order (`BuildStep`,
`Snapshot.build`). What the resolver answers from it can be told from the list of steps alone
(`Snapshot.answers_build`): answers come in the order in which they were added, under the identity
of the symbol asked for; identities stand for the last symbol that was declared with them; a project
has the symbols with which its id was first added.

Each step changes one part of the snapshot, and it adds to a list at its end or to a set. So a part
after all steps is known from what one step adds to it, by induction on the steps
(`Snapshot.view_build`, `Snapshot.holds_build`).
-/

namespace CodeAtlas

/-- A step in building a snapshot. -/
inductive BuildStep where
  | project (project : Project) (symbols : List Symbol)
  | reference (target : Symbol) (site : ReferenceSite)
  | implementation (target implementer : Symbol)
  | derivedType (base derived : Symbol)
  | failingWorkspace
  | failingProject (id : String)
  | failingLookup (symbol : Symbol)

namespace BuildStep

/-- The project that a step adds, with its symbols. -/
def added? : BuildStep → Option ProjectEntry
  | .project p symbols => some ⟨p, symbols⟩
  | _ => none

/-- The place that a step adds to those that refer to the symbol with an identity. -/
def site? (id : String) : BuildStep → Option ReferenceSite
  | .reference target site => if target.identity = id then some site else none
  | _ => none

/-- The identity that a step adds to those of what implements the symbol with an identity. -/
def implementer? (id : String) : BuildStep → Option String
  | .implementation target implementer =>
    if target.identity = id then some implementer.identity else none
  | _ => none

/-- The identity that a step adds to those of the types derived from the symbol with an identity. -/
def derived? (id : String) : BuildStep → Option String
  | .derivedType base derived => if base.identity = id then some derived.identity else none
  | _ => none

end BuildStep

namespace Snapshot

/-- The snapshot after one more step. -/
def apply (w : Snapshot) : BuildStep → Snapshot
  | .project project symbols => w.withProject project symbols
  | .reference target site => w.withReference target site
  | .implementation target implementer => w.withImplementation target implementer
  | .derivedType base derived => w.withDerivedType base derived
  | .failingWorkspace => w.failingWorkspace
  | .failingProject id => w.failingProject id
  | .failingLookup symbol => w.failingLookup symbol

/-- The snapshot that is built by a list of steps. -/
def build (steps : List BuildStep) : Snapshot := steps.foldl apply empty

variable {w : Snapshot} {steps : List BuildStep} {step : BuildStep} {id : String}

/-! ## One step -/

theorem projects_apply : (w.apply step).projects = w.projects ++ step.added?.toList := by
  cases step with
  | project project symbols => rfl
  | _ => exact (List.append_nil _).symm

theorem references_apply : ((w.apply step).references.get? id).getD [] =
    (w.references.get? id).getD [] ++ (step.site? id).toList := by
  cases step with
  | reference target site => exact SortedMap.getD_push
  | _ => exact (List.append_nil _).symm

theorem implementations_apply : ((w.apply step).implementations.get? id).getD [] =
    (w.implementations.get? id).getD [] ++ (step.implementer? id).toList := by
  cases step with
  | implementation target implementer => exact SortedMap.getD_push
  | _ => exact (List.append_nil _).symm

theorem derivedTypes_apply : ((w.apply step).derivedTypes.get? id).getD [] =
    (w.derivedTypes.get? id).getD [] ++ (step.derived? id).toList := by
  cases step with
  | derivedType base derived => exact SortedMap.getD_push
  | _ => exact (List.append_nil _).symm

theorem failWorkspace_apply : (w.apply step).faults.failWorkspace = true ↔
    w.faults.failWorkspace = true ∨ step = .failingWorkspace := by
  cases step with
  | failingWorkspace => exact iff_of_true rfl (.inr rfl)
  | _ => exact (or_iff_left nofun).symm

theorem failProjects_apply : id ∈ (w.apply step).faults.failProjects ↔
    id ∈ w.faults.failProjects ∨ step = .failingProject id := by
  cases step with
  | failingProject id' =>
    rw [apply, failingProject, SortedSet.mem_insert, BuildStep.failingProject.injEq, or_comm,
      eq_comm]
  | _ => exact (or_iff_left nofun).symm

theorem failLookups_apply : id ∈ (w.apply step).faults.failLookups ↔
    id ∈ w.faults.failLookups ∨ ∃ s, step = .failingLookup s ∧ s.identity = id := by
  cases step with
  | failingLookup s =>
    rw [apply, failingLookup, SortedSet.mem_insert, or_comm]
    simp only [BuildStep.failingLookup.injEq, exists_eq_left', eq_comm]
  | _ => exact (or_iff_left (fun ⟨_, h, _⟩ => nomatch h)).symm

/-! ## All steps -/

/-- What each step adds to at its end is added to by all steps in their order. -/
theorem view_build {β : Type} (view : Snapshot → List β) {added : BuildStep → Option β}
    (hempty : view empty = [])
    (hstep : ∀ w step, view (w.apply step) = view w ++ (added step).toList) :
    view (build steps) = steps.filterMap added := by
  -- from the end of the list, where the step stands that is done last
  induction steps using List.reverseRecOn with
  | nil => exact hempty
  | append_singleton steps step ih =>
    have hlast : [step].filterMap added = (added step).toList := by
      cases h : added step <;> simp [h]
    rw [build, List.foldl_append, List.filterMap_append, hlast, ← ih]
    exact hstep _ step

/-- What holds as soon as some step brings it about holds in the end if one of them does. -/
theorem holds_build (P : Snapshot → Prop) {brings : BuildStep → Prop} (hempty : ¬ P empty)
    (hstep : ∀ w step, P (w.apply step) ↔ P w ∨ brings step) :
    P (build steps) ↔ ∃ step ∈ steps, brings step := by
  induction steps using List.reverseRecOn with
  | nil => exact iff_of_false hempty fun ⟨_, h, _⟩ => nomatch h
  | append_singleton steps step ih =>
    rw [build, List.foldl_append]
    refine (hstep _ step).trans ((or_congr_left ih).trans ?_)
    simp only [List.mem_append, List.mem_singleton, or_and_right, exists_or, exists_eq_left]

/-! ## What the steps say -/

/-- The projects that are added, with their symbols, in the order of the steps. -/
def entries (steps : List BuildStep) : List ProjectEntry := steps.filterMap (·.added?)

/-- The symbol that is declared last of those with an identity. -/
def lastDeclared? (steps : List BuildStep) (id : String) : Option Symbol :=
  (((entries steps).flatMap (·.symbols)).filter (·.identity = id)).getLast?

/-- Some step makes the look-ups for the symbols with an identity fail. -/
def LookupFails (steps : List BuildStep) (id : String) : Prop :=
  ∃ s, .failingLookup s ∈ steps ∧ s.identity = id

theorem projects_build : (build steps).projects = entries steps :=
  view_build (·.projects) rfl fun _ _ => projects_apply

theorem references_build :
    ((build steps).references.get? id).getD [] = steps.filterMap (·.site? id) :=
  view_build (fun w => (w.references.get? id).getD []) rfl fun _ _ => references_apply

theorem implementations_build :
    ((build steps).implementations.get? id).getD [] = steps.filterMap (·.implementer? id) :=
  view_build (fun w => (w.implementations.get? id).getD []) rfl fun _ _ => implementations_apply

theorem derivedTypes_build :
    ((build steps).derivedTypes.get? id).getD [] = steps.filterMap (·.derived? id) :=
  view_build (fun w => (w.derivedTypes.get? id).getD []) rfl fun _ _ => derivedTypes_apply

/-- The last declared symbols are those that the resolver knows by their identities. -/
theorem declared_build : (build steps).declared.get? = lastDeclared? steps := by
  funext id
  rw [get?_declared, lastDeclared?, symbols, projects_build, List.getLast?_eq_head?_reverse,
    ← List.filter_reverse, List.head?_filter]

theorem mem_failLookups_build :
    id ∈ (build steps).faults.failLookups ↔ LookupFails steps id := by
  rw [holds_build (id ∈ ·.faults.failLookups) SortedSet.not_mem_empty fun _ _ => failLookups_apply]
  constructor
  · rintro ⟨_, hstep, s, rfl, hid⟩
    exact ⟨s, hstep, hid⟩
  · rintro ⟨s, hstep, hid⟩
    exact ⟨_, hstep, s, rfl, hid⟩

theorem mem_failProjects_build :
    id ∈ (build steps).faults.failProjects ↔ .failingProject id ∈ steps := by
  rw [holds_build (id ∈ ·.faults.failProjects) SortedSet.not_mem_empty fun _ _ =>
    failProjects_apply]
  exact exists_eq_right

theorem failWorkspace_build :
    (build steps).faults.failWorkspace = true ↔ .failingWorkspace ∈ steps := by
  rw [holds_build (·.faults.failWorkspace = true) Bool.false_ne_true fun _ _ =>
    failWorkspace_apply]
  exact exists_eq_right

/-! ## What the resolver answers -/

/-- A resolver answers as a list of steps says. -/
structure Answers (steps : List BuildStep) (r : Resolver) : Prop where
  /-- The places that refer to a symbol are those added for its identity, in their order. -/
  references : ∀ s, ¬ LookupFails steps s.identity →
    r.references s = .ok (steps.filterMap (·.site? s.identity))
  /-- What implements a symbol are the last declared symbols of the identities added for it, -/
  implementations : ∀ s, ¬ LookupFails steps s.identity → r.implementations s =
    .ok ((steps.filterMap (·.implementer? s.identity)).filterMap (lastDeclared? steps))
  /-- and so are the types derived from it. -/
  derivedTypes : ∀ s, ¬ LookupFails steps s.identity → r.derivedTypes s =
    .ok ((steps.filterMap (·.derived? s.identity)).filterMap (lastDeclared? steps))
  /-- All three look-ups fail for the identities that are to fail. -/
  fails : ∀ s, LookupFails steps s.identity →
    let failure := .lookupFailed s.identity "lookup fault injected"
    r.references s = .error failure ∧ r.implementations s = .error failure ∧
      r.derivedTypes s = .error failure
  /-- A project has the symbols of the first project that was added with its id, -/
  symbols : ∀ p e, .failingProject p.id ∉ steps →
    (entries steps).find? (·.project.id == p.id) = some e → r.symbols p = .ok e.symbols
  /-- unless it is to fail or was never added. -/
  symbols_fail : ∀ p, (∃ reason, r.symbols p = .error (.projectFailed p.id reason)) ↔
    .failingProject p.id ∈ steps ∨ ∀ e ∈ entries steps, e.project.id ≠ p.id
  /-- The projects are those that were added, in their order, -/
  projects : ∀ path, .failingWorkspace ∉ steps →
    r.projects path = .ok ((entries steps).map (·.project))
  /-- unless the workspace is to fail. -/
  projects_fail : ∀ path, .failingWorkspace ∈ steps →
    r.projects path = .error (.workspaceUnavailable path)

/-- The resolver over a snapshot that is built by a list of steps answers as the steps say. -/
theorem answers_build (steps : List BuildStep) : Answers steps (build steps).resolver := by
  constructor
  case references =>
    intro s hs
    rw [references_resolver (mt mem_failLookups_build.mp hs), references_build]
  case implementations =>
    intro s hs
    rw [implementations_resolver (mt mem_failLookups_build.mp hs), resolveAll, declared_build,
      implementations_build]
  case derivedTypes =>
    intro s hs
    rw [derivedTypes_resolver (mt mem_failLookups_build.mp hs), resolveAll, declared_build,
      derivedTypes_build]
  case fails =>
    intro s hs
    have hfails := mem_failLookups_build.mpr hs
    exact ⟨references_resolver_of_mem hfails, implementations_resolver_of_mem hfails,
      derivedTypes_resolver_of_mem hfails⟩
  case symbols =>
    intro p e hp he
    exact symbolsOf_of_entry (mt mem_failProjects_build.mp hp) (projects_build ▸ he)
  case symbols_fail =>
    intro p
    rw [← mem_failProjects_build, ← projects_build]
    constructor
    · rintro ⟨reason, hreason⟩
      -- a project with an entry that is not to fail is answered
      refine or_iff_not_imp_left.mpr fun hp e he hid => ?_
      cases hentry : (build steps).projects.find? (·.project.id == p.id) with
      | none => exact List.find?_eq_none.mp hentry e he (beq_iff_eq.mpr hid)
      | some e =>
        rw [show (build steps).resolver.symbols p = _ from symbolsOf_of_entry hp hentry] at hreason
        cases hreason
    · intro h
      by_cases hp : p.id ∈ (build steps).faults.failProjects
      · exact ⟨_, symbolsOf_of_failing hp⟩
      · refine ⟨_, symbolsOf_of_missing hp (List.find?_eq_none.mpr fun e he hid => ?_)⟩
        exact h.resolve_left hp e he (beq_iff_eq.mp hid)
  case projects =>
    intro path hopen
    rw [← projects_build]
    exact if_neg (mt failWorkspace_build.mp hopen)
  case projects_fail =>
    intro path hfails
    exact if_pos (failWorkspace_build.mpr hfails)

end Snapshot

end CodeAtlas
