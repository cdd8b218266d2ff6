import CodeAtlas.Proofs.Exploration

/-!
# Cancelled analyses

`Analysis.cancelledAt n` is cancelled during its `n`-th question, whatever the resolver answers to
it, or before it starts for `n = 0`. It asks the first `n` questions that the analysis asks when it
is left alone (`Analysis.uncancelled`), asks none after them, and fails: it is cancelled, unless its
only question was that for the projects and the resolver's answer to it already was a failure.

After the projects have been discovered, everything is one list of actions (`Analysis.course`), the
same one for both analyses. The induction is on this list: at any point of it the analysis has been
cancelled exactly if it has asked `n` questions, and these are the first ones of the list
(`Analysis.asked_perform_cancelledAt`). The last action is a check, which stops a cancelled
analysis.
-/

namespace CodeAtlas

namespace Analysis

open Action Step

variable (a : Analysis)

/-- The analysis that is left alone. -/
def uncancelled : Analysis := { a with cancelsAfter := fun _ => false }

/-- The analysis that is cancelled during its `n`-th question, or before it starts for zero. -/
def cancelledAt (n : Nat) : Analysis := { a with cancelsAfter := fun asked => asked.length == n }

/-- The questions that are asked about the workspace at a path, in their order. -/
def questions (path : String) : List Query := (a.exploration path).2.asked.reverse

variable {a} {n : Nat} {l : List Action} {p q : Progress} {e : AnalysisError} {path : String}

/-! ## Actions of a cancelled analysis -/

/-- Actions fail only because the analysis has been cancelled. -/
theorem error_perform (h : (a.perform l).outcome p = (.error e, q)) : e = .cancelled := by
  induction l generalizing p with
  | nil => cases h
  | cons x rest ih =>
    cases x with
    | check =>
      rw [outcome_perform_check] at h
      split at h
      · cases h
        rfl
      · exact ih h
    | ask query =>
      rw [outcome_perform_ask] at h
      split at h
      · cases h
        rfl
      · exact ih h
    | store r =>
      rw [outcome_perform_store, outcome_bind] at h
      rcases hrest : (a.perform rest).outcome
        { p with relationships := (p.relationships.add r).2 } with ⟨e' | m, q'⟩ <;>
        rw [hrest] at h <;> cases h
      exact ih hrest

/-- A question is noted, and the `n`-th one cancels the analysis. -/
theorem noted_cancelledAt {query : Query} (hp : p.cancelled = false) :
    ((a.cancelledAt n).noted query p).cancelled = (p.asked.length + 1 == n) := by
  change (p.cancelled || (query :: p.asked).length == n) = _
  rw [hp, Bool.false_or, List.length_cons]

/-- As long as an analysis has asked fewer than `n` questions it is not cancelled, and it asks no
more than `n`. -/
theorem asked_perform_cancelledAt (hp : p.cancelled = (p.asked.length == n))
    (hle : p.asked.length ≤ n) :
    let q := (((a.cancelledAt n).perform l).outcome p).2
    q.asked = ((asks l).take (n - p.asked.length)).reverse ++ p.asked ∧
      q.cancelled = (q.asked.length == n) := by
  induction l generalizing p with
  | nil =>
    refine ⟨?_, hp⟩
    rw [asks, List.filterMap_nil, List.take_nil]
    rfl
  | cons x rest ih =>
    cases x with
    | check =>
      rw [outcome_perform_check]
      split
      · rename_i hcancelled
        have hn : p.asked.length = n := beq_iff_eq.mp (hp ▸ hcancelled)
        rw [hn, Nat.sub_self, List.take_zero]
        exact ⟨rfl, hp⟩
      · exact ih hp hle
    | ask query =>
      rw [outcome_perform_ask]
      split
      · rename_i hcancelled
        have hn : p.asked.length = n := beq_iff_eq.mp (hp ▸ hcancelled)
        rw [hn, Nat.sub_self, List.take_zero]
        exact ⟨rfl, hp⟩
      · rename_i hgoing
        have hlt : p.asked.length < n := by
          refine Nat.lt_of_le_of_ne hle fun hn => hgoing ?_
          rw [hp, hn, beq_self_eq_true]
        obtain ⟨hasked, hcancelled⟩ := ih (p := (a.cancelledAt n).noted query p)
          (noted_cancelledAt (Bool.eq_false_iff.mpr hgoing)) hlt
        have hasks : asks (.ask query :: rest) = query :: asks rest := rfl
        have hnext : n - p.asked.length = n - (p.asked.length + 1) + 1 := by omega
        refine ⟨hasked.trans ?_, hcancelled⟩
        rw [hasks, hnext, List.take_succ_cons, List.reverse_cons, List.append_assoc]
        rfl
    | store r =>
      have hrest := ih (p := { p with relationships := (p.relationships.add r).2 }) hp hle
      rw [outcome_perform_store, outcome_bind]
      rcases h : ((a.cancelledAt n).perform rest).outcome
        { p with relationships := (p.relationships.add r).2 } with ⟨e' | m, q'⟩ <;>
        rw [h] at hrest <;> exact hrest

/-- If the list has too few questions, the cancellation makes no difference. -/
theorem outcome_perform_cancelledAt (hp : p.cancelled = false)
    (hlt : p.asked.length + (asks l).length < n) :
    ((a.cancelledAt n).perform l).outcome p = (a.uncancelled.perform l).outcome p := by
  induction l generalizing p with
  | nil => rfl
  | cons x rest ih =>
    have hgoing : ¬ p.cancelled = true := hp ▸ Bool.false_ne_true
    cases x with
    | check =>
      rw [outcome_perform_check, outcome_perform_check, if_neg hgoing, if_neg hgoing]
      exact ih hp hlt
    | ask query =>
      have hlt' : p.asked.length + 1 + (asks rest).length < n := by
        change p.asked.length + ((asks rest).length + 1) < n at hlt
        omega
      have hcancelled : ((a.cancelledAt n).noted query p).cancelled = false := by
        rw [noted_cancelledAt hp]
        exact beq_false_of_ne (by omega)
      have hsame : a.uncancelled.noted query p = (a.cancelledAt n).noted query p := by
        have hnever : (a.uncancelled.noted query p).cancelled = false := by
          simp [noted, uncancelled, hp]
        exact congrArg (fun c => { p with asked := query :: p.asked, cancelled := c })
          (hnever.trans hcancelled.symm)
      rw [outcome_perform_ask, outcome_perform_ask, if_neg hgoing, if_neg hgoing, hsame]
      exact ih hcancelled hlt'
    | store r =>
      have hrest := ih (p := { p with relationships := (p.relationships.add r).2 }) hp hlt
      rw [outcome_perform_store, outcome_perform_store, outcome_bind, outcome_bind, hrest]

/-! ## The run -/

/-- Before the first question nothing has been asked, and it is cancelled only for zero. -/
theorem start_cancelledAt : (a.cancelledAt n).start = { cancelled := n == 0 } := by
  change ({ cancelled := 0 == n } : Progress) = _
  rw [Bool.beq_comm]

/-- If the answer for the projects ends the exploration, there is no other question. -/
theorem exploration_of_fault (hstart : a.start.cancelled = false)
    (hfault : a.resolver.openingFault? path = some e) :
    a.exploration path = (.error e, a.noted .projects a.start) := by
  obtain ⟨c, hexploration⟩ := a.exploration_eq path
  rw [hexploration, hstart, hfault]
  rfl

/-- Otherwise the exploration takes its course, and ends as that does. -/
theorem exploration_of_opened (hstart : a.start.cancelled = false)
    (hopened : a.resolver.openingFault? path = none) :
    let course := (a.perform (a.course (a.discovered path))).outcome (a.noted .projects a.start)
    (a.exploration path).2.asked = course.2.asked ∧
      (a.exploration path).1 = course.1.map fun _ =>
        { a.findingsOf (a.discovered path) with relationships := course.2.relationships } := by
  obtain ⟨c, hexploration⟩ := a.exploration_eq path
  rw [hexploration, hstart, hopened, if_neg Bool.false_ne_true]
  dsimp only
  rcases (a.perform (a.course (a.discovered path))).outcome (a.noted .projects a.start) with
    ⟨e | m, q⟩ <;> exact ⟨rfl, rfl⟩

/-- An analysis that is left alone asks for the projects and, if they are answered, all questions of
its course. -/
theorem questions_uncancelled : a.uncancelled.questions path = .projects ::
    if a.resolver.openingFault? path = none then asks (a.course (a.discovered path)) else [] := by
  cases hopened : a.resolver.openingFault? path with
  | some e =>
    rw [questions, exploration_of_fault (a := a.uncancelled) rfl hopened, if_neg nofun]
    rfl
  | none =>
    obtain ⟨hasked, -⟩ := exploration_of_opened (a := a.uncancelled) rfl hopened
    rw [questions, hasked, outcome_perform_of_going (fun _ => rfl) rfl, if_pos rfl]
    change List.reverse ((asks (a.course (a.discovered path))).reverse ++ [.projects]) = _
    rw [List.reverse_append, List.reverse_reverse]
    rfl

/-- A cancellation after the last question comes too late to change anything. -/
theorem run_cancelledAt_of_length_lt (h : (a.uncancelled.questions path).length < n) :
    (a.cancelledAt n).run path = a.uncancelled.run path := by
  rw [questions_uncancelled, List.length_cons] at h
  have hstart : (a.cancelledAt n).start = a.uncancelled.start := by
    rw [start_cancelledAt, beq_false_of_ne (by omega)]
    rfl
  have hgoing : (a.cancelledAt n).start.cancelled = false := by rw [hstart]; rfl
  have hanswer : ((a.cancelledAt n).exploration path).1 = (a.uncancelled.exploration path).1 := by
    cases hopened : a.resolver.openingFault? path with
    | some e =>
      rw [exploration_of_fault hgoing hopened,
        exploration_of_fault (a := a.uncancelled) rfl hopened]
    | none =>
      rw [if_pos hopened] at h
      have hnoted : (a.cancelledAt n).noted .projects (a.cancelledAt n).start =
          a.uncancelled.noted .projects a.uncancelled.start := by
        have hlater : ((a.cancelledAt n).noted .projects a.uncancelled.start).cancelled = false :=
          (noted_cancelledAt rfl).trans (beq_false_of_ne (by change 0 + 1 ≠ n; omega))
        rw [hstart]
        exact congrArg (fun c => { a.uncancelled.start with asked := [.projects], cancelled := c })
          hlater
      have hperform := @outcome_perform_cancelledAt a n (a.course (a.discovered path))
        (a.uncancelled.noted .projects a.uncancelled.start) rfl
        (by change 0 + 1 + _ < n; omega)
      rw [← hnoted] at hperform
      rw [(exploration_of_opened hgoing hopened).2,
        (exploration_of_opened (a := a.uncancelled) rfl hopened).2, ← hnoted]
      exact congrArg (fun o : Except AnalysisError Nat × Progress => o.1.map fun _ =>
        { a.findingsOf (a.discovered path) with relationships := o.2.relationships }) hperform
  rw [run, run, hanswer]
  rfl

/-- An analysis that is cancelled during one of its questions, or before the first one, asks nothing
more and fails. The error tells that it was cancelled, unless the question was that for the projects
and the answer to it is an error of its own. -/
theorem run_cancelledAt (a : Analysis) (path : String) (n : Nat) (hconfig : a.config.fault? = none)
    (hn : n ≤ (a.uncancelled.questions path).length) :
    (a.cancelledAt n).questions path = (a.uncancelled.questions path).take n ∧
      (a.cancelledAt n).run path =
        .error (if n = 1 then (a.resolver.openingFault? path).getD .cancelled else .cancelled) := by
  rw [questions_uncancelled] at hn ⊢
  rw [run_of_usable (a := a.cancelledAt n) hconfig]
  rcases Nat.eq_zero_or_pos n with rfl | hpos
  · -- cancelled before the first question
    obtain ⟨c, hexploration⟩ := (a.cancelledAt 0).exploration_eq path
    rw [questions, hexploration, start_cancelledAt]
    exact ⟨rfl, rfl⟩
  have hstart : (a.cancelledAt n).start = {} := by
    rw [start_cancelledAt, beq_false_of_ne (by omega)]
  have hgoing : (a.cancelledAt n).start.cancelled = false := by rw [hstart]
  cases hopened : a.resolver.openingFault? path with
  | some e =>
    -- the only question is that for the projects
    rw [hopened, if_neg nofun] at hn
    rw [if_neg nofun]
    obtain rfl : n = 1 := Nat.le_antisymm hn hpos
    rw [questions, exploration_of_fault hgoing hopened, hstart]
    exact ⟨rfl, rfl⟩
  | none =>
    rw [if_pos hopened] at hn
    rw [if_pos rfl]
    obtain ⟨hasked, hanswer⟩ := exploration_of_opened hgoing hopened
    obtain ⟨hquestions, hcancelled⟩ := @asked_perform_cancelledAt a n (a.course (a.discovered path))
      ((a.cancelledAt n).noted .projects {}) (noted_cancelledAt rfl) hpos
    rw [hstart] at hasked hanswer
    have htake : (a.cancelledAt n).questions path =
        (.projects :: asks (a.course (a.discovered path))).take n := by
      obtain ⟨m, rfl⟩ := Nat.exists_eq_add_of_le' hpos
      rw [questions, hasked]
      refine (congrArg List.reverse hquestions).trans ?_
      rw [List.reverse_append, List.reverse_reverse, List.take_succ_cons]
      rfl
    refine ⟨htake, ?_⟩
    rw [hanswer]
    rcases hcourse : ((a.cancelledAt n).perform (a.course (a.discovered path))).outcome
      ((a.cancelledAt n).noted .projects {}) with ⟨e | m, q⟩
    · obtain rfl := error_perform hcourse
      rw [Option.getD_none, ite_self]
      exact congrArg (fun o : Except AnalysisError Nat × Progress =>
        (o.1.map _).map (Graph.assemble a.config path)) hcourse
    · -- the course cannot have ended, since by then the analysis has been cancelled
      have hlength : q.asked.length = n := by
        have hlength := congrArg List.length htake
        rw [questions, hasked, List.length_reverse, List.length_take, Nat.min_eq_left hn] at hlength
        exact (congrArg (fun o : Except AnalysisError Nat × Progress => o.2.asked.length)
          hcourse).symm.trans hlength
      rw [hcourse] at hcancelled
      have hgoing := going_of_course (a := a.cancelledAt n) hcourse
      rw [hcancelled, hlength, beq_self_eq_true] at hgoing
      cases hgoing

/-- A workspace with one class, cancelled during the second of four questions. -/
theorem run_cancelledAt_second :
    let snapshot := Snapshot.empty.withProject (.named "shop" "Shop")
      [.typeIn "Shop" "Shop" "Order" .classType]
    let a : Analysis := { resolver := snapshot.resolver, config := .standard 4 }
    (a.uncancelled.questions "/work" = [.projects, .symbols, .references, .derivedTypes]) ∧
      (a.cancelledAt 2).questions "/work" = [.projects, .symbols] ∧
      (a.cancelledAt 2).run "/work" = .error .cancelled := by
  intro snapshot a
  have hquestions : a.uncancelled.questions "/work" =
      [.projects, .symbols, .references, .derivedTypes] := by decide +kernel
  obtain ⟨hasked, hrun⟩ :=
    run_cancelledAt a "/work" 2 (by decide +kernel) (by rw [hquestions]; decide)
  rw [hquestions] at hasked
  exact ⟨hquestions, hasked, hrun⟩

end Analysis

end CodeAtlas
