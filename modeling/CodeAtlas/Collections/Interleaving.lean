/-!
# Interleavings

Tasks that take turns do all that they do, each in its own order. `Interleaves tasks l` says that
the list `l` comes about in this way from the lists of the tasks: its head is the head of one of
them, and the rest comes about from what is left.
-/

namespace CodeAtlas

/-- The list is put together from the heads of the given lists, until nothing of them is left. -/
inductive Interleaves {α : Type} : List (List α) → List α → Prop
  | done {tasks : List (List α)} (h : ∀ task ∈ tasks, task = []) : Interleaves tasks []
  | turn {before after : List (List α)} {x : α} {rest l : List α}
      (h : Interleaves (before ++ rest :: after) l) :
      Interleaves (before ++ (x :: rest) :: after) (x :: l)

namespace Interleaves

variable {α : Type} {tasks : List (List α)} {l : List α}

/-- A task that does nothing does not matter. -/
theorem nil_cons (h : Interleaves tasks l) : Interleaves ([] :: tasks) l := by
  induction h with
  | done h => exact .done fun task ht => (List.mem_cons.mp ht).elim id (h task)
  | @turn before after x rest l _ ih => exact @turn α ([] :: before) after x rest l ih

/-- The tasks may be done one after the other. -/
theorem flatten (tasks : List (List α)) : Interleaves tasks tasks.flatten := by
  induction tasks with
  | nil => exact .done nofun
  | cons task rest ih =>
    induction task with
    | nil => exact ih.nil_cons
    | cons x task ihTask => exact @turn α [] rest x task _ ihTask

/-- What is done is what the tasks do. -/
theorem mem_iff (h : Interleaves tasks l) {x : α} : x ∈ l ↔ ∃ task ∈ tasks, x ∈ task := by
  induction h with
  | done h =>
    refine iff_of_false List.not_mem_nil ?_
    rintro ⟨task, ht, hx⟩
    rw [h task ht] at hx
    cases hx
  | turn _ ih =>
    simp only [List.mem_append, List.mem_cons, or_and_right, exists_or, exists_eq_left] at ih ⊢
    rw [ih, or_assoc, or_left_comm]

end Interleaves

end CodeAtlas
