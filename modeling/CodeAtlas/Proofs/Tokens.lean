import CodeAtlas.Feature.Token
import CodeAtlas.Proofs.Segments
import Mathlib.Data.List.Forall2
import Mathlib.Logic.Relation

/-!
# What feature tokens do not depend on

The token of a file is one of the directories in its path. It makes no difference whether slashes or
backslashes stand between them, in the path or in the root, and directories whose names say nothing
about features (`IsNoise`) may be put into the path or left out at any places (`Detour`), as long as
paths are not taken relative to a root. All of this is said in `TokenRules.token_ignores_noise`.

A path is cut at slashes and backslashes alike, and of its segments before the last one those that
are no noise are left in their order (`directories_ofConfig`). So one more directory adds one
segment to them (`dropLast_splitList_insert`), which is passed over if it is noise.
-/

namespace CodeAtlas

open Text

/-! ## Slashes and backslashes -/

/-- The second text is the first one with backslashes for some of its slashes. -/
def Backslashed (s t : String) : Prop :=
  List.Forall₂ (fun c d => d = c ∨ c = '/' ∧ d = '\\') s.toList t.toList

section Backslashed

variable {s t : String}

/-- With slashes only the two are the same text. -/
theorem Backslashed.forwardSlashes_eq (h : Backslashed s t) :
    forwardSlashes t.toList = forwardSlashes s.toList := by
  unfold Backslashed at h
  generalize s.toList = cs, t.toList = ds at h
  induction h with
  | nil => rfl
  | cons hchar _ ih =>
    rw [forwardSlashes, forwardSlashes, List.map_cons, List.map_cons, ← forwardSlashes,
      ← forwardSlashes, ih]
    rcases hchar with rfl | ⟨rfl, rfl⟩ <;> rfl

/-- None of them is empty unless both are. -/
theorem Backslashed.isEmpty_eq (h : Backslashed s t) : t.isEmpty = s.isEmpty := by
  have hlength := List.Forall₂.length_eq h
  rw [Bool.eq_iff_iff, String.isEmpty_iff, String.isEmpty_iff, ← String.toList_eq_nil_iff,
    ← String.toList_eq_nil_iff, ← List.length_eq_zero_iff, ← List.length_eq_zero_iff, hlength]

variable {rules : TokenRules}

theorem Backslashed.withRoot_eq (h : Backslashed s t) : rules.withRoot t = rules.withRoot s := by
  rw [TokenRules.withRoot, TokenRules.withRoot, h.isEmpty_eq, h.forwardSlashes_eq]

theorem Backslashed.token_eq (h : Backslashed s t) :
    rules.token (some t) = rules.token (some s) := by
  rw [TokenRules.token, TokenRules.token, TokenRules.directories, TokenRules.directories,
    h.forwardSlashes_eq]

end Backslashed

/-- A path is cut at both kinds of slashes. -/
theorem splitList_forwardSlashes (cs : List Char) :
    splitList (· == '/') (forwardSlashes cs) = splitList isSlash cs := by
  have hslash : ∀ c : Char, ((if c == '\\' then '/' else c) == '/') = isSlash c := by
    intro c
    rw [isSlash]
    by_cases hc : c = '\\'
    · rw [hc]
      rfl
    · rw [if_neg (by simpa using hc), beq_false_of_ne hc, Bool.or_false]
  rw [forwardSlashes, splitList_map hslash]
  refine (List.map_congr_left fun segment hsegment => ?_).trans (List.map_id _)
  refine (List.map_congr_left fun c hc => if_neg fun hback => ?_).trans (List.map_id _)
  have hno := (mem_splitList_iff.mp hsegment).not_separator c hc
  rw [beq_iff_eq.mp hback] at hno
  cases hno

/-! ## Directories of a path -/

/-- The segments of a path before its last one. -/
def directoriesOf (path : String) : List String := (split isSlash path).dropLast

theorem directoriesOf_eq (path : String) :
    directoriesOf path = (splitList isSlash path.toList).dropLast.map String.ofList :=
  List.map_dropLast.symm

/-- A name of a directory that says nothing about features. -/
inductive IsNoise (c : Config) (segment : String) : Prop
  | empty (h : segment = "")
  | hidden (h : segment.toList.head? = some '.')
  | drive (h : segment.toList.getLast? = some ':')
  /-- The configuration lists the name, in some case. -/
  | ignored {name : String} (hname : name ∈ c.buildOutputSegments ++ c.nonSourceSegments)
    (h : lowercase segment = lowercase name)

/-- Between two paths stands one directory that is noise: the second path has it at a place where a
segment begins. -/
inductive Detour (c : Config) : String → String → Prop
  | insert {before segment after : String} {slash : Char}
    (hbefore : ∀ ch, before.toList.getLast? = some ch → isSlash ch = true)
    (hsegment : ∀ ch ∈ segment.toList, isSlash ch = false) (hslash : isSlash slash = true)
    (hnoise : IsNoise c segment) :
    Detour c (before ++ after) (before ++ (segment.push slash ++ after))

variable {c : Config}

/-- One more directory is one more segment. -/
theorem dropLast_splitList_insert {before segment : List Char} {slash : Char} (after : List Char)
    (hbefore : ∀ ch, before.getLast? = some ch → isSlash ch = true)
    (hsegment : ∀ ch ∈ segment, isSlash ch = false) (hslash : isSlash slash = true) :
    ∃ left right, (splitList isSlash (before ++ after)).dropLast = left ++ right ∧
      (splitList isSlash (before ++ (segment ++ slash :: after))).dropLast =
        left ++ segment :: right := by
  refine ⟨(splitList isSlash before).dropLast, (splitList isSlash after).dropLast, ?_, ?_⟩
  · rw [splitList_append_of_ends after hbefore,
      List.dropLast_append_of_ne_nil (splitList_ne_nil _ _)]
  · rw [splitList_append_of_ends _ hbefore, splitList_append_cons segment after hslash,
      splitList_eq_singleton hsegment, List.singleton_append,
      List.dropLast_append_of_ne_nil (List.cons_ne_nil _ _),
      List.dropLast_cons_of_ne_nil (splitList_ne_nil _ _)]

namespace TokenRules

/-- What the rules of a configuration pass over is noise. -/
theorem isMeaningful_eq_false_iff {segment : List Char} :
    (ofConfig c).isMeaningful segment = false ↔ IsNoise c (String.ofList segment) := by
  have hignored : (ofConfig c).ignored.contains (lowercase (String.ofList segment)) = true ↔
      ∃ name ∈ c.buildOutputSegments ++ c.nonSourceSegments,
        lowercase (String.ofList segment) = lowercase name := by
    rw [ofConfig, List.contains_iff_mem, List.mem_map]
    simp only [eq_comm]
  have hcases : (ofConfig c).isMeaningful segment = false ↔ segment = [] ∨
      segment.head? = some '.' ∨ segment.getLast? = some ':' ∨
      (ofConfig c).ignored.contains (lowercase (String.ofList segment)) = true := by
    simp only [isMeaningful, Bool.and_eq_false_iff, Bool.not_eq_false', bne_eq_false_iff_eq,
      List.isEmpty_iff, or_assoc]
  rw [hcases, hignored]
  constructor
  · rintro (rfl | hhead | hlast | ⟨name, hname, hlower⟩)
    · exact .empty rfl
    · exact .hidden (by rwa [String.toList_ofList])
    · exact .drive (by rwa [String.toList_ofList])
    · exact .ignored hname hlower
  · rintro (hempty | hhead | hlast | ⟨hname, hlower⟩)
    · exact .inl (String.ofList_eq_empty_iff.mp hempty)
    · exact .inr (.inl (by rwa [String.toList_ofList] at hhead))
    · exact .inr (.inr (.inl (by rwa [String.toList_ofList] at hlast)))
    · exact .inr (.inr (.inr ⟨_, hname, hlower⟩))

/-- Without a root the directories that are no noise are left. -/
theorem directories_ofConfig (path : String) : (ofConfig c).directories path =
    (splitList isSlash path.toList).dropLast.filter (ofConfig c).isMeaningful := by
  rw [directories, ← splitList_forwardSlashes]
  rfl

/-- One detour does not change the token. -/
theorem token_eq_of_detour {path path' : String} (h : Detour c path path') :
    (ofConfig c).token (some path) = (ofConfig c).token (some path') := by
  cases h with
  | @insert before segment after slash hbefore hsegment hslash hnoise =>
    obtain ⟨left, right, hshort, hlong⟩ :=
      dropLast_splitList_insert after.toList hbefore hsegment hslash
    have hsilent : ¬ (ofConfig c).isMeaningful segment.toList = true := by
      rw [Bool.not_eq_true, isMeaningful_eq_false_iff, String.ofList_toList]
      exact hnoise
    rw [token, token, directories_ofConfig, directories_ofConfig]
    simp only [String.toList_append, String.toList_push, List.append_assoc, List.singleton_append]
    rw [hshort, hlong, List.filter_append, List.filter_append, List.filter_cons_of_neg hsilent]

/-- The chosen directory is one of those to choose from. -/
theorem exists_choose_eq {segments : List (List Char)} (h : segments ≠ []) :
    ∃ segment ∈ segments, choose segments = String.ofList segment := by
  match segments with
  | [a] => exact ⟨a, List.mem_cons_self, rfl⟩
  | [a, b] => exact ⟨b, by simp, rfl⟩
  | a :: b :: d :: rest => exact ⟨d, by simp, rfl⟩

/-- The token of a file whose path has no other directories than noise is that of unknown
features. -/
theorem token_of_noise {path : String} (h : ∀ d ∈ directoriesOf path, IsNoise c d) :
    (ofConfig c).token (some path) = "Unknown" := by
  rw [directoriesOf_eq, List.forall_mem_map] at h
  have hnone : (ofConfig c).directories path = [] := by
    rw [directories_ofConfig, List.filter_eq_nil_iff]
    intro segment hsegment
    rw [Bool.not_eq_true, isMeaningful_eq_false_iff]
    exact h segment hsegment
  rw [token, hnone]
  rfl

/-- The token of another file is a directory of its path that is no noise. -/
theorem exists_token_eq {path : String} (h : ∃ d ∈ directoriesOf path, ¬ IsNoise c d) :
    ∃ d ∈ directoriesOf path, ¬ IsNoise c d ∧ (ofConfig c).token (some path) = d := by
  have hmem : ∀ segment, segment ∈ (ofConfig c).directories path ↔
      segment ∈ (splitList isSlash path.toList).dropLast ∧
        ¬ IsNoise c (String.ofList segment) := fun segment => by
    rw [directories_ofConfig, List.mem_filter, ← isMeaningful_eq_false_iff, Bool.not_eq_false]
  rw [directoriesOf_eq] at h ⊢
  obtain ⟨d, hd, hmeaning⟩ := h
  obtain ⟨segment, hsegment, rfl⟩ := List.mem_map.mp hd
  obtain ⟨chosen, hchosen, htoken⟩ := exists_choose_eq
    (List.ne_nil_of_mem ((hmem segment).mpr ⟨hsegment, hmeaning⟩))
  obtain ⟨hdirectory, hmeaning⟩ := (hmem chosen).mp hchosen
  exact ⟨String.ofList chosen, List.mem_map_of_mem hdirectory, hmeaning, htoken⟩

/-- The token of a file is the same with backslashes for some slashes of its path and of the root.
Without a root it is also the same after any number of directories that are noise were put into the
path or left out; and it is a directory of the path that is no noise, if there is one. -/
theorem token_ignores_noise (c : Config) :
    (∀ path path', Backslashed path path' →
      (ofConfig c).token (some path') = (ofConfig c).token (some path) ∧
      ∀ root root', Backslashed root root' →
        ((ofConfig c).withRoot root').token (some path') =
          ((ofConfig c).withRoot root).token (some path)) ∧
    (∀ path path', Relation.EqvGen (Detour c) path path' →
      (ofConfig c).token (some path) = (ofConfig c).token (some path')) ∧
    ∀ path, ((∀ d ∈ directoriesOf path, IsNoise c d) →
        (ofConfig c).token (some path) = "Unknown") ∧
      ((∃ d ∈ directoriesOf path, ¬ IsNoise c d) →
        ∃ d ∈ directoriesOf path, ¬ IsNoise c d ∧ (ofConfig c).token (some path) = d) := by
  refine ⟨fun path path' hpath => ⟨hpath.token_eq, fun root root' hroot => ?_⟩,
    fun path path' h => ?_, fun path => ⟨token_of_noise, exists_token_eq⟩⟩
  · rw [hroot.withRoot_eq, hpath.token_eq]
  · induction h with
    | rel path path' hdetour => exact token_eq_of_detour hdetour
    | refl path => rfl
    | symm path path' _ ih => exact ih.symm
    | trans path path' path'' _ _ ih ih' => exact ih.trans ih'

/-- A file under a root with some backslashes, one whose path has two directories of noise more, and
one whose path has no others. -/
theorem token_ignores_noise_orders :
    let rules := ofConfig (.standard 4)
    (rules.withRoot "\\work/repo").token (some "/work\\repo/Shop\\Orders/Order.cs") = "Orders" ∧
      rules.token (some "Shop/.git\\Bin/Orders/Order.cs") = "Orders" ∧
      rules.token (some "src/.git/Order.cs") = "Unknown" := by
  intro rules
  obtain ⟨hslashes, hdetours, hchoice⟩ := token_ignores_noise (.standard 4)
  refine ⟨?_, ?_, ?_⟩
  · have hpath : Backslashed "/work/repo/Shop/Orders/Order.cs"
        "/work\\repo/Shop\\Orders/Order.cs" := by
      unfold Backslashed
      decide
    have hroot : Backslashed "/work/repo" "\\work/repo" := by
      unfold Backslashed
      decide
    exact ((hslashes _ _ hpath).2 _ _ hroot).trans (by decide +kernel)
  · have hnoise : IsNoise (.standard 4) "Bin" := by
      have hname : "bin" ∈
          (Config.standard 4).buildOutputSegments ++ (Config.standard 4).nonSourceSegments := by
        decide
      exact .ignored hname (by decide +kernel)
    have hbin : Detour (.standard 4) ("Shop/" ++ "Orders/Order.cs")
        ("Shop/" ++ ("Bin".push '/' ++ "Orders/Order.cs")) :=
      .insert (by simp [isSlash]) (by simp [isSlash]) rfl hnoise
    have hgit : Detour (.standard 4) ("Shop/" ++ "Bin/Orders/Order.cs")
        ("Shop/" ++ (".git".push '\\' ++ "Bin/Orders/Order.cs")) :=
      .insert (by simp [isSlash]) (by simp [isSlash]) rfl (.hidden (by decide))
    have hboth := hdetours _ _ (.trans _ _ _ (.rel _ _ hbin) (.rel _ _ hgit))
    exact hboth.symm.trans (by decide +kernel)
  · refine (hchoice "src/.git/Order.cs").1 fun d hd => ?_
    have hdirectories : directoriesOf "src/.git/Order.cs" = ["src", ".git"] := by decide +kernel
    rw [hdirectories, List.mem_cons, List.mem_singleton] at hd
    rcases hd with rfl | rfl
    · have hname : "src" ∈
          (Config.standard 4).buildOutputSegments ++ (Config.standard 4).nonSourceSegments := by
        decide
      exact .ignored hname rfl
    · exact .hidden (by decide)

end TokenRules

end CodeAtlas
