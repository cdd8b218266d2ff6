import CodeAtlas.Collections.SortedSet

/-!
# Finite maps kept in ascending key order

A `SortedMap κ α` is a list of entries whose keys ascend strictly. As with `SortedSet`, the order
is part of the type: a map has exactly one list of entries, and two maps are equal as soon as they
answer every look-up alike (`SortedMap.ext_get?`). All changes go through `SortedMap.upsert`, which
computes the new entry of a key from the old one, so one statement, `SortedMap.get?_upsert`, says
what every change does to the look-ups.
-/

namespace CodeAtlas

/-- A finite map, held as its entries in strictly ascending key order. -/
structure SortedMap (κ : Type) [Ord κ] (α : Type) where
  /-- The entries, smallest key first. -/
  entries : List (κ × α)
  /-- Each key lies strictly below every later one. -/
  ascending : entries.Pairwise (fun a b => compare a.1 b.1 = .lt)
  deriving DecidableEq

namespace SortedMap

variable {κ : Type} [Ord κ] {α β : Type}

/-- The map without entries. -/
def empty : SortedMap κ α := ⟨[], .nil⟩

instance : Inhabited (SortedMap κ α) := ⟨empty⟩

/-- The number of entries. -/
def size (m : SortedMap κ α) : Nat := m.entries.length

/-- The values, in the order of their keys. -/
def values (m : SortedMap κ α) : List α := m.entries.map (·.2)

/-- The keys, smallest first. -/
def keyList (m : SortedMap κ α) : List κ := m.entries.map (·.1)

/-- The keys as a set. -/
def keys (m : SortedMap κ α) : SortedSet κ :=
  ⟨m.keyList, by simpa [keyList, List.pairwise_map] using m.ascending⟩

/-- The value of the first entry with key `k`. -/
def getList (k : κ) : List (κ × α) → Option α
  | [] => none
  | (k', v) :: rest => if compare k k' = .eq then some v else getList k rest

/-- The value under `k`. -/
def get? (m : SortedMap κ α) (k : κ) : Option α := getList k m.entries

/-- Whether there is an entry for `k`. -/
def contains (m : SortedMap κ α) (k : κ) : Bool := (m.get? k).isSome

/-- The empty map has no keys. -/
@[simp] theorem contains_empty {k : κ} : (empty : SortedMap κ α).contains k = false := rfl

/-- The keys are those under which there is a value. -/
theorem contains_iff {m : SortedMap κ α} {k : κ} :
    m.contains k = true ↔ ∃ v, m.get? k = some v := Option.isSome_iff_exists

/-- What is found has a key. -/
theorem contains_of_get? {m : SortedMap κ α} {k : κ} {v : α} (h : m.get? k = some v) :
    m.contains k = true := contains_iff.mpr ⟨v, h⟩

/-- A key is missing exactly where nothing is found. -/
theorem contains_eq_false_iff {m : SortedMap κ α} {k : κ} :
    m.contains k = false ↔ m.get? k = none := by
  rw [contains, Option.isSome_eq_false_iff, Option.isNone_iff_eq_none]

/-- Applies `f` to every value. -/
def mapValues (f : κ → α → β) (m : SortedMap κ α) : SortedMap κ β :=
  ⟨m.entries.map fun e => (e.1, f e.1 e.2), by
    simpa [List.pairwise_map] using m.ascending⟩

/-- Replaces the entry of `k` in an ascending list by what `f` makes of it, or puts it at its
place. -/
def upsertList (k : κ) (f : Option α → α) : List (κ × α) → List (κ × α)
  | [] => [(k, f none)]
  | (k', v) :: rest =>
    match compare k k' with
    | .lt => (k, f none) :: (k', v) :: rest
    | .eq => (k', f (some v)) :: rest
    | .gt => (k', v) :: upsertList k f rest

section Lawful

variable [Std.TransOrd κ] [Std.LawfulEqOrd κ]

omit [Std.TransOrd κ] [Std.LawfulEqOrd κ] in
/-- After a change at `k` there are the key `k` and the keys of before. -/
theorem key_of_mem_upsertList {k : κ} {f : Option α → α} {l : List (κ × α)} {e : κ × α}
    (h : e ∈ upsertList k f l) : e.1 = k ∨ e.1 ∈ l.map (·.1) := by
  induction l with
  | nil => simp_all [upsertList]
  | cons c rest ih =>
    simp only [upsertList] at h
    have hrest : e ∈ rest → e.1 = k ∨ e.1 ∈ (c :: rest).map (·.1) := fun he =>
      Or.inr (List.mem_cons_of_mem _ (List.mem_map_of_mem he))
    split at h <;> rcases List.mem_cons.mp h with rfl | h
    · exact Or.inl rfl
    · exact Or.inr (List.mem_map_of_mem h)
    · exact Or.inr List.mem_cons_self
    · exact hrest h
    · exact Or.inr List.mem_cons_self
    · exact (ih h).imp_right (List.mem_cons_of_mem _)

omit [Std.LawfulEqOrd κ] in
/-- A change keeps a list ascending. -/
theorem ascending_upsertList {k : κ} {f : Option α → α} {l : List (κ × α)}
    (h : l.Pairwise (fun a b => compare a.1 b.1 = .lt)) :
    (upsertList k f l).Pairwise (fun a b => compare a.1 b.1 = .lt) := by
  induction l with
  | nil => simp [upsertList]
  | cons c rest ih =>
    have hc := List.pairwise_cons.mp h
    simp only [upsertList]
    split
    · rename_i hlt
      refine List.pairwise_cons.mpr ⟨fun b hb => ?_, h⟩
      rcases List.mem_cons.mp hb with rfl | hb
      · exact hlt
      · exact Std.TransCmp.lt_trans hlt (hc.1 b hb)
    · exact List.pairwise_cons.mpr ⟨hc.1, hc.2⟩
    · rename_i hgt
      refine List.pairwise_cons.mpr ⟨fun b hb => ?_, ih hc.2⟩
      rcases key_of_mem_upsertList hb with hk | hk
      · simpa [hk] using Std.OrientedCmp.gt_iff_lt.mp hgt
      · obtain ⟨e, he, heq⟩ := List.mem_map.mp hk
        simpa [heq] using hc.1 e he

/-- The map in which the entry of `k` is what `f` makes of the entry it had. -/
def upsert (m : SortedMap κ α) (k : κ) (f : Option α → α) : SortedMap κ α :=
  ⟨upsertList k f m.entries, ascending_upsertList m.ascending⟩

/-- The map with `v` under `k`, in place of any earlier value. -/
def insert (m : SortedMap κ α) (k : κ) (v : α) : SortedMap κ α := m.upsert k fun _ => v

/-- The map with `v` under `k`, unless `k` has a value already. -/
def insertNew (m : SortedMap κ α) (k : κ) (v : α) : SortedMap κ α := m.upsert k (·.getD v)

/-- The map with `v` behind the values that `k` has. -/
def push (m : SortedMap κ (List α)) (k : κ) (v : α) : SortedMap κ (List α) :=
  m.upsert k fun l => l.getD [] ++ [v]

/-- The map of a list of entries; of several entries with one key the last one stays. -/
def ofList (l : List (κ × α)) : SortedMap κ α := l.foldl (fun m e => m.insert e.1 e.2) empty

omit [Std.TransOrd κ] [Std.LawfulEqOrd κ] in
/-- Nothing is found in the empty map. -/
@[simp] theorem get?_empty {k : κ} : (empty : SortedMap κ α).get? k = none := rfl

omit [Std.TransOrd κ] [Std.LawfulEqOrd κ] in
/-- Below every key of a list nothing is found. -/
theorem getList_eq_none {k : κ} {l : List (κ × α)} (h : ∀ e ∈ l, compare k e.1 = .lt) :
    getList k l = none := by
  induction l with
  | nil => rfl
  | cons c rest ih =>
    have hc := h c List.mem_cons_self
    simp [getList, hc, ih fun e he => h e (List.mem_cons_of_mem _ he)]

/-- A change at `k` shows at `k` and nowhere else. -/
theorem getList_upsertList {k k' : κ} {f : Option α → α} {l : List (κ × α)}
    (h : l.Pairwise (fun a b => compare a.1 b.1 = .lt)) :
    getList k' (upsertList k f l) =
      if compare k' k = .eq then some (f (getList k l)) else getList k' l := by
  induction l with
  | nil => simp [upsertList, getList]
  | cons c rest ih =>
    have hc := List.pairwise_cons.mp h
    simp only [upsertList]
    split
    · rename_i hlt
      have hnone : getList k (c :: rest) = none := getList_eq_none fun e he => by
        rcases List.mem_cons.mp he with rfl | he
        · exact hlt
        · exact Std.TransCmp.lt_trans hlt (hc.1 e he)
      simp only [getList] at hnone ⊢
      rw [hnone]
    · rename_i heq
      have hk : k = c.1 := Std.compare_eq_iff_eq.mp heq
      subst hk
      simp only [getList]
      split <;> simp_all
    · rename_i hgt
      simp only [getList, ih hc.2]
      by_cases h1 : compare k' c.1 = .eq
      · have : k' = c.1 := Std.compare_eq_iff_eq.mp h1
        subst this
        have hne : compare c.1 k ≠ .eq := by
          rw [Std.OrientedCmp.gt_iff_lt.mp hgt]; decide
        simp [hne]
      · simp [h1, hgt]

/-- A change at `k` shows at `k` and nowhere else. -/
theorem get?_upsert [DecidableEq κ] {m : SortedMap κ α} {k k' : κ} {f : Option α → α} :
    (m.upsert k f).get? k' = if k' = k then some (f (m.get? k)) else m.get? k' := by
  simp [get?, upsert, getList_upsertList m.ascending]

/-- An inserted value is found under its key. -/
theorem get?_insert [DecidableEq κ] {m : SortedMap κ α} {k k' : κ} {v : α} :
    (m.insert k v).get? k' = if k' = k then some v else m.get? k' := get?_upsert

/-- The first value that is inserted under a key stays. -/
theorem get?_insertNew [DecidableEq κ] {m : SortedMap κ α} {k k' : κ} {v : α} :
    (m.insertNew k v).get? k' = if k' = k then some ((m.get? k).getD v) else m.get? k' :=
  get?_upsert

/-- A pushed value stands behind the values of its key. -/
theorem getD_push [DecidableEq κ] {m : SortedMap κ (List α)} {k k' : κ} {v : α} :
    ((m.push k v).get? k').getD [] =
      (m.get? k').getD [] ++ (if k = k' then some v else none).toList := by
  rw [push, get?_upsert]
  by_cases hk : k' = k
  · subst hk
    rw [if_pos rfl, if_pos rfl]
    rfl
  · rw [if_neg hk, if_neg (Ne.symm hk), Option.toList_none, List.append_nil]

/-- A change at `k` adds at most the key `k`. -/
theorem contains_upsert [DecidableEq κ] {m : SortedMap κ α} {k k' : κ} {f : Option α → α} :
    (m.upsert k f).contains k' = true ↔ k' = k ∨ m.contains k' = true := by
  rw [contains, get?_upsert]
  split
  · rename_i hk
    exact ⟨fun _ => .inl hk, fun _ => rfl⟩
  · rename_i hk
    exact ⟨.inr, fun h => h.resolve_left hk⟩

/-- An insertion adds its key. -/
theorem contains_insert [DecidableEq κ] {m : SortedMap κ α} {k k' : κ} {v : α} :
    (m.insert k v).contains k' = true ↔ k' = k ∨ m.contains k' = true := contains_upsert

omit [Std.TransOrd κ] [Std.LawfulEqOrd κ] in
/-- A change where nothing is found makes a list longer by one. -/
theorem length_upsertList {k : κ} {f : Option α → α} {l : List (κ × α)}
    (h : getList k l = none) : (upsertList k f l).length = l.length + 1 := by
  induction l with
  | nil => rfl
  | cons c rest ih =>
    simp only [getList] at h
    split at h
    · cases h
    · rename_i hne
      simp only [upsertList]
      split
      · rfl
      · rename_i heq
        exact absurd heq hne
      · exact congrArg Nat.succ (ih h)

omit [Std.LawfulEqOrd κ] in
/-- An insertion under a new key adds one entry. -/
theorem size_insert {m : SortedMap κ α} {k : κ} {v : α} (h : m.contains k = false) :
    (m.insert k v).size = m.size + 1 :=
  length_upsertList (contains_eq_false_iff.mp h)

omit [Std.TransOrd κ] in
/-- What is found stands among the entries. -/
theorem mem_of_getList {k : κ} {v : α} {l : List (κ × α)} (h : getList k l = some v) :
    (k, v) ∈ l := by
  induction l with
  | nil => simp [getList] at h
  | cons c rest ih =>
    simp only [getList] at h
    split at h
    · rename_i heq
      have : k = c.1 := Std.compare_eq_iff_eq.mp heq
      subst this
      cases h
      exact List.mem_cons_self
    · exact List.mem_cons_of_mem _ (ih h)

/-- In an ascending list every entry is found under its key. -/
theorem getList_of_mem {k : κ} {v : α} {l : List (κ × α)}
    (hl : l.Pairwise (fun a b => compare a.1 b.1 = .lt)) (h : (k, v) ∈ l) :
    getList k l = some v := by
  induction l with
  | nil => simp at h
  | cons c rest ih =>
    have hc := List.pairwise_cons.mp hl
    rcases List.mem_cons.mp h with rfl | h
    · simp [getList]
    · have := hc.1 _ h
      have hne : compare k c.1 ≠ .eq := by
        rw [Std.OrientedCmp.gt_iff_lt.mpr this]; decide
      simp [getList, hne, ih hc.2 h]

/-- The look-ups are the entries. -/
theorem get?_eq_some_iff {m : SortedMap κ α} {k : κ} {v : α} :
    m.get? k = some v ↔ (k, v) ∈ m.entries :=
  ⟨mem_of_getList, getList_of_mem m.ascending⟩

/-- The keys are those for which something is found. -/
theorem mem_keys {m : SortedMap κ α} {k : κ} : k ∈ m.keys ↔ m.contains k = true := by
  rw [contains_iff]
  simp only [get?_eq_some_iff, SortedSet.mem_def, keys, keyList, List.mem_map]
  constructor
  · rintro ⟨⟨k', v⟩, h, rfl⟩
    exact ⟨v, h⟩
  · rintro ⟨v, h⟩
    exact ⟨(k, v), h, rfl⟩

/-- A map is determined by its look-ups. -/
theorem ext_get? {m n : SortedMap κ α} (h : ∀ k, m.get? k = n.get? k) : m = n := by
  have hmem : ∀ e, e ∈ m.entries ↔ e ∈ n.entries := fun (k, v) => by
    rw [← get?_eq_some_iff, ← get?_eq_some_iff, h]
  obtain ⟨l, hl⟩ := m
  obtain ⟨l', hl'⟩ := n
  obtain rfl : l = l' :=
    eq_of_pairwise_of_mem_iff (fun hab => Std.OrientedCmp.not_lt_of_lt hab) hl hl' hmem
  rfl

omit [Std.TransOrd κ] in
/-- No key has two entries. -/
theorem nodup_keyList {m : SortedMap κ α} : m.keyList.Nodup := m.keys.nodup_toList

/-- A key that has a value keeps it. -/
theorem insertNew_of_some [DecidableEq κ] {m : SortedMap κ α} {k : κ} {v v' : α}
    (h : m.get? k = some v) : m.insertNew k v' = m := by
  refine ext_get? fun k' => ?_
  rw [get?_insertNew]
  split
  · rename_i hk
    rw [hk, h, Option.getD_some]
  · rfl

/-- A key without a value gets one. -/
theorem insertNew_of_none [DecidableEq κ] {m : SortedMap κ α} {k : κ} {v : α}
    (h : m.get? k = none) : m.insertNew k v = m.insert k v :=
  ext_get? fun k' => by rw [get?_insertNew, get?_insert, h, Option.getD_none]

/-! ### Look-ups of derived maps -/

omit [Std.TransOrd κ] in
/-- What is found after a change of all values is the changed value. -/
@[simp] theorem get?_mapValues {m : SortedMap κ α} {f : κ → α → β} {k : κ} :
    (m.mapValues f).get? k = (m.get? k).map (f k) := by
  obtain ⟨l, hl⟩ := m
  simp only [get?, mapValues]
  clear hl
  induction l with
  | nil => rfl
  | cons c rest ih =>
    simp only [List.map_cons, getList]
    split
    · rename_i heq
      obtain rfl : k = c.1 := Std.compare_eq_iff_eq.mp heq
      rfl
    · exact ih

omit [Std.TransOrd κ] in
/-- A change of all values keeps the keys. -/
@[simp] theorem contains_mapValues {m : SortedMap κ α} {f : κ → α → β} {k : κ} :
    (m.mapValues f).contains k = m.contains k := by
  rw [contains, get?_mapValues, Option.isSome_map]
  rfl

/-- The values are what is found under some key. -/
theorem mem_values {m : SortedMap κ α} {v : α} : v ∈ m.values ↔ ∃ k, m.get? k = some v := by
  simp only [get?_eq_some_iff, values, List.mem_map, Prod.exists, exists_eq_right]

/-- The keys that are held are those of some entry. -/
theorem mem_keyList {m : SortedMap κ α} {k : κ} : k ∈ m.keyList ↔ m.contains k = true :=
  mem_keys

/-! ### Maps of lists -/

/-- A list is looked up in after the map to which it is added. -/
theorem get?_foldl_insert [DecidableEq κ] {l : List (κ × α)} {m : SortedMap κ α} {k : κ} :
    (l.foldl (fun m e => m.insert e.1 e.2) m).get? k =
      ((l.reverse.find? fun e => decide (e.1 = k)).map (·.2)).or (m.get? k) := by
  induction l generalizing m with
  | nil => simp
  | cons e rest ih =>
    rw [List.foldl_cons, ih, List.reverse_cons, List.find?_append, get?_insert]
    cases rest.reverse.find? fun e => decide (e.1 = k) with
    | some e' => rfl
    | none =>
      by_cases h : e.1 = k
      · simp [h]
      · simp [h, Ne.symm h]

/-- In the map of a list the last entry of a key is found. -/
theorem get?_ofList [DecidableEq κ] {l : List (κ × α)} {k : κ} :
    (ofList l).get? k = (l.reverse.find? fun e => decide (e.1 = k)).map (·.2) := by
  rw [ofList, get?_foldl_insert, get?_empty, Option.or_none]

/-- What is found in the map of a list stands in the list. -/
theorem mem_of_get?_ofList [DecidableEq κ] {l : List (κ × α)} {k : κ} {v : α}
    (h : (ofList l).get? k = some v) : (k, v) ∈ l := by
  rw [get?_ofList, Option.map_eq_some_iff] at h
  obtain ⟨e, he, rfl⟩ := h
  have hk : e.1 = k := by simpa using List.find?_some he
  rw [← hk]
  exact List.mem_reverse.mp (List.mem_of_find?_eq_some he)

/-- The map of a list holds the keys of the list. -/
theorem contains_ofList [DecidableEq κ] {l : List (κ × α)} {k : κ} :
    (ofList l).contains k = true ↔ k ∈ l.map (·.1) := by
  rw [contains, get?_ofList, Option.isSome_map, List.find?_isSome]
  simp only [List.mem_reverse, decide_eq_true_eq, List.mem_map]

/-- When each element of a list changes the value under its key, the keys are added. -/
theorem contains_foldl_upsert {ι : Type} [DecidableEq κ] (key : ι → κ) (f : ι → Option α → α)
    {l : List ι} {m : SortedMap κ α} {k : κ} :
    (l.foldl (fun m x => m.upsert (key x) (f x)) m).contains k = true ↔
      m.contains k = true ∨ ∃ x ∈ l, key x = k := by
  induction l generalizing m with
  | nil => simp
  | cons x rest ih =>
    simp only [List.foldl_cons, ih, contains_upsert, List.mem_cons, exists_eq_or_imp,
      eq_comm (a := k), or_assoc, or_left_comm]

/-- A map that is built from nothing has the keys of the elements. -/
theorem contains_foldl_upsert_empty {ι : Type} [DecidableEq κ] (key : ι → κ)
    (f : ι → Option α → α) {l : List ι} {k : κ} :
    (l.foldl (fun m x => m.upsert (key x) (f x)) empty).contains k = true ↔ ∃ x ∈ l, key x = k := by
  rw [contains_foldl_upsert, contains_empty, Bool.false_eq_true, false_or]

/-- When the elements of a list are counted, each is counted as often as it occurs. -/
theorem getD_foldl_tally [DecidableEq κ] [BEq κ] [LawfulBEq κ] {l : List κ} {m : SortedMap κ Nat}
    {k : κ} : ((l.foldl (fun m x => m.upsert x fun n => n.getD 0 + 1) m).get? k).getD 0 =
      (m.get? k).getD 0 + l.count k := by
  induction l generalizing m with
  | nil => rfl
  | cons x rest ih =>
    rw [List.foldl_cons, ih, get?_upsert, List.count_cons]
    by_cases hx : k = x
    · subst hx
      simp only [if_true, Option.getD_some, beq_self_eq_true]
      omega
    · rw [if_neg hx, if_neg (by simpa using Ne.symm hx)]
      omega

/-! ### Maps of sets -/

section Sets

variable {σ ι : Type} [Ord σ] [DecidableEq κ] (key : ι → κ) (add : ι → SortedSet σ → SortedSet σ)

/-- When each element of a list adds members to the set under its key, exactly these are new. -/
theorem mem_foldl_upsert {P : ι → σ → Prop} (hadd : ∀ {x s a}, a ∈ add x s ↔ a ∈ s ∨ P x a)
    {l : List ι} {m : SortedMap κ (SortedSet σ)} {k : κ} {a : σ} :
    a ∈ ((l.foldl (fun m x => m.upsert (key x) fun s => add x (s.getD .empty)) m).get? k).getD
        .empty ↔
      a ∈ (m.get? k).getD .empty ∨ ∃ x ∈ l, key x = k ∧ P x a := by
  induction l generalizing m with
  | nil => simp
  | cons x rest ih =>
    rw [List.foldl_cons, ih, get?_upsert]
    simp only [List.mem_cons, exists_eq_or_imp]
    by_cases hk : k = key x
    · subst hk
      simp only [if_true, Option.getD_some, hadd, or_assoc, true_and]
    · simp only [if_neg hk, Ne.symm hk, false_and, false_or]

/-- In a map that is built from nothing each set has exactly what the elements add to it. -/
theorem mem_foldl_upsert_empty {P : ι → σ → Prop}
    (hadd : ∀ {x s a}, a ∈ add x s ↔ a ∈ s ∨ P x a) {l : List ι} {k : κ} {a : σ} :
    a ∈ ((l.foldl (fun m x => m.upsert (key x) fun s => add x (s.getD .empty)) empty).get? k).getD
        .empty ↔ ∃ x ∈ l, key x = k ∧ P x a :=
  (mem_foldl_upsert key add hadd).trans ⟨fun h => h.resolve_left SortedSet.not_mem_empty, .inr⟩

end Sets

omit [Std.LawfulEqOrd κ] in
/-- A key beyond all others is put at the end. -/
theorem upsertList_of_lt {k : κ} {f : Option α → α} {l : List (κ × α)}
    (h : ∀ e ∈ l, compare e.1 k = .lt) : upsertList k f l = l ++ [(k, f none)] := by
  induction l with
  | nil => rfl
  | cons c rest ih =>
    have hc : compare k c.1 = .gt := Std.OrientedCmp.gt_iff_lt.mpr (h c List.mem_cons_self)
    simp only [upsertList, hc]
    rw [ih fun e he => h e (List.mem_cons_of_mem _ he), List.cons_append]

omit [Std.LawfulEqOrd κ] in
/-- Adding an ascending list beyond all entries appends it. -/
theorem entries_foldl_insert {l : List (κ × α)} {m : SortedMap κ α}
    (h : (m.entries ++ l).Pairwise (fun a b => compare a.1 b.1 = .lt)) :
    (l.foldl (fun m e => m.insert e.1 e.2) m).entries = m.entries ++ l := by
  induction l generalizing m with
  | nil => simp
  | cons e rest ih =>
    have hlt : ∀ c ∈ m.entries, compare c.1 e.1 = .lt := fun c hc =>
      (List.pairwise_append.mp h).2.2 c hc e List.mem_cons_self
    have hins : (m.insert e.1 e.2).entries = m.entries ++ [e] := upsertList_of_lt hlt
    rw [List.foldl_cons, ih (by rw [hins]; simpa using h), hins, List.append_assoc]
    rfl

omit [Std.LawfulEqOrd κ] in
/-- An ascending list is the list of entries of its map. -/
theorem entries_ofList {l : List (κ × α)}
    (h : l.Pairwise (fun a b => compare a.1 b.1 = .lt)) : (ofList l).entries = l :=
  entries_foldl_insert (m := empty) h

/-- The map of its own entries is the map. -/
theorem ofList_entries (m : SortedMap κ α) : ofList m.entries = m :=
  ext_get? fun k => congrArg (getList k) (entries_ofList m.ascending)

end Lawful

end SortedMap

end CodeAtlas
