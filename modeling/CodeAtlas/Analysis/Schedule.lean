import CodeAtlas.Analysis.Script
import CodeAtlas.Collections.Interleaving

/-!
# The order in which tasks take turns

A `Schedule` says in which order the tasks of an analysis do what they do: one action of some task
after the other for the tasks that ask and store, and one step after the other for the declarations
that are added to the catalogue. Any order is possible in which each task gets on to its end.

The number of workers limits how many tasks there are at a time, which leaves fewer orders, so what
holds for every schedule holds for any number of workers. `Schedule.singleThreaded` is the order in
which a single thread does the tasks, where each project waits for a free worker before it goes on
to its next symbol; `Config.singleThreaded` is this order for the configured number of workers.
-/

namespace CodeAtlas

/-- With three turns in a row for each place, every place has three turns. -/
theorem three_le_count_replicate {n : Nat} {l : List (Fin n)} {i : Fin n} (h : i ∈ l) :
    3 ≤ (l.flatMap (List.replicate 3)).count i := by
  obtain ⟨before, after, rfl⟩ := List.append_of_mem h
  rw [List.flatMap_append, List.flatMap_cons, List.count_append, List.count_append,
    List.count_replicate_self]
  omega

/-- The order in which the tasks of an analysis take turns. -/
structure Schedule where
  /-- The actions of all tasks in the order in which they are done. -/
  interleave : List (List Action) → List Action := List.flatten
  /-- The declarations of all projects, each as often as it makes a step. -/
  turns : (l : List (List Declaration)) → List (Fin l.flatten.length) :=
    fun l => (List.finRange l.flatten.length).flatMap (List.replicate 3)
  interleaves : ∀ tasks, Interleaves tasks (interleave tasks) := by
    exact fun tasks => .flatten tasks
  complete : ∀ l i, 3 ≤ (turns l).count i := by
    exact fun _ i => three_le_count_replicate (List.mem_finRange i)

/-- What a thread has to do next. -/
inductive Job (α : Type) where
  /-- A project that has been given some permits goes on to the symbols that are left. -/
  | project (permits : Nat) (rest : List α)
  /-- A symbol is added. -/
  | symbol (x : α)

namespace Job

/-- A list, cut into pieces as long as those of another one. -/
def split {α β : Type} : List (List β) → List α → List (List α)
  | [], _ => []
  | piece :: pieces, l => l.take piece.length :: split pieces (l.drop piece.length)

/-- The symbols in the order in which a single thread adds them: it does the jobs that are ready one
after the other and puts new ones at the end. A project takes the permits that are free for its next
symbols and then waits; a symbol gives its permit to the project that has waited longest. The fuel
is the number of jobs to be done at most. -/
def order {α : Type} (fuel free : Nat) (ready : List (Job α)) (waiting : List (List α)) : List α :=
  match fuel, ready with
  | 0, _ => []
  | _, [] => []
  | fuel + 1, project permits rest :: ready =>
    let taken := min (free + permits) rest.length
    let left := rest.drop taken
    order fuel (free + permits - taken) (ready ++ (rest.take taken).map symbol)
      (if left.isEmpty then waiting else waiting ++ [left])
  | fuel + 1, symbol x :: ready =>
    x :: match waiting with
      | [] => order fuel (free + 1) ready []
      | rest :: waiting => order fuel free (ready ++ [project 1 rest]) waiting

end Job

/-- The order in which a single thread does the tasks with some number of workers. -/
def Schedule.singleThreaded (workers : Nat) : Schedule where
  turns l :=
    let places := List.finRange l.flatten.length
    let jobs := (Job.split l places).map (Job.project 0)
    (Job.order (l.length + 2 * places.length) workers jobs [] ++ places).flatMap (List.replicate 3)
  complete _ i := three_le_count_replicate (List.mem_append_right _ (List.mem_finRange i))

/-- The order in which a single thread does the tasks with the configured number of workers. -/
def Config.singleThreaded (c : Config) : Schedule := .singleThreaded c.workerConcurrency.toNat

end CodeAtlas
