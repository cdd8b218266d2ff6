import CodeAtlas.Analysis.Race
import CodeAtlas.Graph.Relationship
import CodeAtlas.Snapshot.Resolver

/-!
# The course of a task

An analysis consists of tasks that ask a resolver and store relationships. What a task does depends
on the answers, but not on what other tasks have stored: it is a `Script`, a list of actions
together with how the task ends. A task that gets no answer ends there, and what it has done before
stays done.
-/

namespace CodeAtlas

/-- The questions that a resolver answers. -/
inductive Query where
  | projects
  | symbols
  | references
  | implementations
  | derivedTypes
  | locate
  deriving DecidableEq

/-- What a task does in one go. -/
inductive Action where
  /-- It looks whether the analysis has been cancelled. -/
  | check
  /-- It looks whether the analysis has been cancelled, and asks a question. -/
  | ask (q : Query)
  /-- It stores a relationship. -/
  | store (r : Relationship)

/-- What a task does, one action after the other, and how it ends. -/
structure Script (α : Type) where
  actions : List Action
  ending : Except ResolverError α

namespace Script

instance : Monad Script where
  pure a := ⟨[], .ok a⟩
  bind x f := match x.ending with
    | .ok a => ⟨x.actions ++ (f a).actions, (f a).ending⟩
    | .error e => ⟨x.actions, .error e⟩

/-- Looks whether the analysis has been cancelled. -/
def check : Script Unit := ⟨[.check], .ok ()⟩

/-- Asks a question that the resolver answers in some way. -/
def ask {α : Type} (q : Query) (answer : Except ResolverError α) : Script α := ⟨[.ask q], answer⟩

/-- Stores a relationship. -/
def store (r : Relationship) : Script Unit := ⟨[.store r], .ok ()⟩

/-- Does a task for each element of a list. -/
def each {α : Type} (task : α → Script Unit) : List α → Script Unit
  | [] => return ()
  | x :: rest => do
    task x
    each task rest

end Script

end CodeAtlas
