import CodeAtlas.Analysis.Error
import CodeAtlas.Analysis.Schedule

/-!
# The progress of an analysis

An analysis asks a resolver one question after the other and may be cancelled from outside at any of
them. A `Progress` is what it has found so far, with the list of its questions and whether it has
been cancelled. A step of an analysis (`Step`) changes the progress and answers or fails; what it
has found before a failure stays.

When an analysis is cancelled is told by a predicate on the questions asked so far
(`Analysis.cancelsAfter`). A question during which that happens is still answered; `Step.check` then
stops the analysis before the next one. `Analysis.perform` does the actions of tasks, in the order
in which they are listed.
-/

namespace CodeAtlas

/-- What an analysis has found so far. -/
structure Progress where
  catalogue : Catalogue := {}
  relationships : RelationshipStore := .empty
  /-- The questions asked so far, the latest first. -/
  asked : List Query := []
  cancelled : Bool := false

/-- A step of an analysis. -/
abbrev Step (α : Type) := ExceptT AnalysisError (StateM Progress) α

namespace Step

/-- What a step answers, and the progress after it. -/
def outcome {α : Type} (x : Step α) (p : Progress) : Except AnalysisError α × Progress :=
  ExceptT.run x p

/-- Fails if the analysis has been cancelled. -/
def check : Step Unit := do
  if (← get).cancelled then throw .cancelled

/-- Stores a relationship, and tells how many the store has more. -/
def store (r : Relationship) : Step Nat :=
  modifyGet fun p =>
    let (isNew, relationships) := p.relationships.add r
    (isNew.toNat, { p with relationships })

end Step

/-- What an analysis is told. -/
structure Analysis where
  resolver : Resolver
  config : Config
  /-- Whether the analysis is cancelled during the latest of the questions, which are listed from
  the latest to the first; for no question at all, whether it is cancelled before it starts. -/
  cancelsAfter : List Query → Bool := fun _ => false
  schedule : Schedule := {}

namespace Analysis

variable (a : Analysis)

/-- The progress after one more question, during which the analysis may be cancelled. -/
def noted (q : Query) (p : Progress) : Progress :=
  let asked := q :: p.asked
  { p with asked, cancelled := p.cancelled || a.cancelsAfter asked }

/-- Notes a question. -/
def note (q : Query) : Step Unit := modify (a.noted q)

/-- Does an action, and tells how many relationships there are more. -/
def act : Action → Step Nat
  | .check => do
    Step.check
    return 0
  | .ask q => do
    Step.check
    a.note q
    return 0
  | .store r => Step.store r

/-- Does the actions of a list, and tells how many relationships there are more. -/
def perform : List Action → Step Nat
  | [] => return 0
  | x :: rest => do
    let n ← a.act x
    let m ← perform rest
    return n + m

/-- Does what the tasks of a list do, in the order of the schedule. -/
def performAll {α : Type} (tasks : List (Script α)) : Step Unit :=
  discard (a.perform (a.schedule.interleave (tasks.map (·.actions))))

end Analysis

namespace TaskFailure

/-- The note that is taken of how a task ends, if it fails. -/
def of? {α : Type} (note : AnalysisError → TaskFailure) (task : Script α) : Option TaskFailure :=
  match task.ending with
  | .ok _ => none
  | .error e => some (note (.resolver e))

end TaskFailure

end CodeAtlas
