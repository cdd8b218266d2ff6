import CodeAtlas.Analysis.Progress
import CodeAtlas.Proofs.Stores

/-!
# Performing actions

An analysis performs one list of actions after the other. As long as it is not cancelled, they all
take effect (`Analysis.outcome_perform_of_going`): what is asked is noted, and what is stored is
added to the relationships. If it is cancelled, a later check ends it; an answer means that no check
has, and then everything has been stored as well (`Analysis.relationships_of_perform`).
-/

namespace CodeAtlas

/-! ## What actions ask and store -/

namespace Action

/-- The question that is asked. -/
def query? : Action → Option Query
  | .ask q => some q
  | _ => none

/-- The relationship that is stored. -/
def stored? : Action → Option Relationship
  | .store r => some r
  | _ => none

/-- The questions among some actions. -/
def asks (l : List Action) : List Query := l.filterMap query?

/-- The relationships that some actions store. -/
def offers (l : List Action) : List Relationship := l.filterMap stored?

end Action

/-! ## Steps in a row -/

namespace Step

variable {α β : Type}

/-- Two steps in a row: the second one is done from where the first one ends, unless that fails. -/
theorem outcome_bind {x : Step α} {f : α → Step β} {p : Progress} :
    (x >>= f).outcome p = match x.outcome p with
      | (.ok a, q) => (f a).outcome q
      | (.error e, q) => (.error e, q) := by
  change ExceptT.bindCont f (x p).1 (x p).2 = _
  rcases hx : x.outcome p with ⟨_ | _, q⟩ <;>
    rw [outcome, ExceptT.run] at hx <;> rw [hx] <;> rfl

theorem outcome_modify {f : Progress → Progress} {p : Progress} :
    (modify f : Step Unit).outcome p = (.ok (), f p) := rfl

/-- What comes after a look at the progress is done with what it shows. -/
theorem outcome_get_bind {f : Progress → Step β} {p : Progress} :
    (get >>= f).outcome p = (f p).outcome p := outcome_bind

/-- A check fails exactly in a cancelled analysis, and changes nothing. -/
theorem outcome_check {p : Progress} :
    check.outcome p = (if p.cancelled then .error .cancelled else .ok (), p) := by
  rw [check, outcome_get_bind]
  split <;> rfl

/-- What comes after a check is done unless the analysis has been cancelled. -/
theorem outcome_check_bind {f : Unit → Step β} {p : Progress} : (check >>= f).outcome p =
    if p.cancelled then (.error .cancelled, p) else (f ()).outcome p := by
  rw [outcome_bind, outcome_check]
  cases p.cancelled <;> rfl

/-- What comes after a step whose answer is thrown away is done unless that fails. -/
theorem outcome_discard_bind {x : Step α} {f : Unit → Step β} {p : Progress} :
    (discard x >>= f).outcome p = match x.outcome p with
      | (.ok _, q) => (f ()).outcome q
      | (.error e, q) => (.error e, q) := by
  have hd : discard x >>= f = x >>= fun _ => f () := by
    change (x >>= fun _ => pure ()) >>= f = _
    simp only [bind_assoc, pure_bind]
  rw [hd, outcome_bind]

theorem outcome_store {r : Relationship} {p : Progress} :
    (store r).outcome p = (.ok (p.relationships.add r).1.toNat,
      { p with relationships := (p.relationships.add r).2 }) := rfl

end Step

/-! ## Lists of actions -/

namespace Analysis

open Action Step

variable {a : Analysis} {l m : List Action} {n : Nat} {p q : Progress}

/-- Actions without gain at the start do not count. -/
theorem outcome_perform_zero :
    (a.perform l >>= fun m => pure (0 + m)).outcome p = (a.perform l).outcome p := by
  simp only [Nat.zero_add, bind_pure]

/-- A check at the start ends a cancelled analysis. -/
theorem outcome_perform_check : (a.perform (.check :: l)).outcome p =
    if p.cancelled then (.error .cancelled, p) else (a.perform l).outcome p := by
  simp only [perform, act, bind_assoc, pure_bind, outcome_check_bind, outcome_perform_zero]

/-- So does a question; otherwise it is noted. -/
theorem outcome_perform_ask {q : Query} : (a.perform (.ask q :: l)).outcome p =
    if p.cancelled then (.error .cancelled, p) else (a.perform l).outcome (a.noted q p) := by
  simp only [perform, act, bind_assoc, pure_bind, outcome_check_bind]
  rw [note, outcome_bind, outcome_modify]
  exact congrArg _ outcome_perform_zero

/-- What is stored is there when the other actions follow. -/
theorem outcome_perform_store {r : Relationship} : (a.perform (.store r :: l)).outcome p =
    (a.perform l >>= fun m => pure ((p.relationships.add r).1.toNat + m)).outcome
      { p with relationships := (p.relationships.add r).2 } := by
  rw [perform, act, outcome_bind, outcome_store]

/-- One list of actions may be performed after the other. -/
theorem perform_append : a.perform (l ++ m) = (do
    let n ← a.perform l
    let k ← a.perform m
    return n + k) := by
  induction l with
  | nil => simp only [List.nil_append, perform, pure_bind, Nat.zero_add, bind_pure]
  | cons x rest ih =>
    simp only [List.cons_append, perform, ih, bind_assoc, pure_bind, Nat.add_assoc]

/-- What is catalogued makes no difference to actions. -/
theorem outcome_perform_catalogue {c : Catalogue} :
    (a.perform l).outcome { p with catalogue := c } =
      (((a.perform l).outcome p).1, { ((a.perform l).outcome p).2 with catalogue := c }) := by
  induction l generalizing p with
  | nil => rfl
  | cons x rest ih =>
    cases x with
    | check =>
      rw [outcome_perform_check, outcome_perform_check]
      dsimp only
      split
      · rfl
      · exact ih
    | ask q =>
      rw [outcome_perform_ask, outcome_perform_ask]
      dsimp only
      split
      · rfl
      · exact @ih (a.noted q p)
    | store r =>
      have hrest := @ih { p with relationships := (p.relationships.add r).2 }
      rw [outcome_perform_store, outcome_perform_store, outcome_bind, outcome_bind]
      dsimp only at hrest ⊢
      rw [hrest]
      rcases (a.perform rest).outcome { p with relationships := (p.relationships.add r).2 } with
        ⟨e | n, q⟩ <;> rfl

/-- Actions that are performed in an analysis which nobody cancels all take effect. -/
theorem outcome_perform_of_going (hcancel : ∀ asked, a.cancelsAfter asked = false)
    (hp : p.cancelled = false) :
    (a.perform l).outcome p = (.ok (p.relationships.addAll (offers l)).1,
      { p with
        relationships := (p.relationships.addAll (offers l)).2
        asked := (asks l).reverse ++ p.asked }) := by
  induction l generalizing p with
  | nil => rfl
  | cons x rest ih =>
    have hgoing : ¬ p.cancelled = true := hp ▸ Bool.false_ne_true
    cases x with
    | check =>
      rw [outcome_perform_check, if_neg hgoing]
      exact ih hp
    | ask q =>
      have hnoted : (a.noted q p).cancelled = false := by simp [noted, hp, hcancel]
      have hasked : (asks (.ask q :: rest)).reverse ++ p.asked =
          (asks rest).reverse ++ (a.noted q p).asked := by simp [asks, query?, noted]
      rw [outcome_perform_ask, if_neg hgoing, ih hnoted, hasked, hnoted, hp]
      rfl
    | store r =>
      have hrest := @ih { p with relationships := (p.relationships.add r).2 } hp
      rw [outcome_perform_store, outcome_bind, hrest]
      rfl

/-- When actions have been performed to their end, all that they store has been stored. -/
theorem relationships_of_perform (h : (a.perform l).outcome p = (.ok n, q)) :
    q.catalogue = p.catalogue ∧ n = (p.relationships.addAll (offers l)).1 ∧
      q.relationships = (p.relationships.addAll (offers l)).2 := by
  induction l generalizing p n with
  | nil => cases h; exact ⟨rfl, rfl, rfl⟩
  | cons x rest ih =>
    cases x with
    | check =>
      rw [outcome_perform_check] at h
      split at h
      · cases h
      · exact ih h
    | ask query =>
      rw [outcome_perform_ask] at h
      split at h
      · cases h
      · have hrest := ih h
        exact hrest
    | store r =>
      rw [outcome_perform_store, outcome_bind] at h
      rcases hrest : (a.perform rest).outcome
        { p with relationships := (p.relationships.add r).2 } with ⟨e | m, q'⟩ <;>
        rw [hrest] at h <;> cases h
      obtain ⟨hcatalogue, rfl, hrelationships⟩ := ih hrest
      exact ⟨hcatalogue, rfl, hrelationships⟩

end Analysis

end CodeAtlas
