import CodeAtlas.Feature.Token
import CodeAtlas.Proofs.Segments
import CodeAtlas.Workspace.Root
import Mathlib.Data.List.DropRight

/-!
# Workspaces in other directories

The token of a file is taken relative to the directory of its workspace, and that directory is what
stands before the last slash in the path of the workspace's file. Void segments may be lost from its
end (`exists_workspaceRoot`), but these say nothing about features (`meaningful_behind_voids`). So
the file has the token of its path relative to the directory, wherever the directory lies
(`TokenRules.token_relative_to_workspace`).

Backslashes separate the segments of the file's path, but not those of the workspace's path. When
the workspace's file is set off from its directory by a backslash, paths are therefore taken
relative to what stands before the last slash of the directory, if there is one.
-/

namespace CodeAtlas

/-! ## Segments -/

namespace Text

/-- The segments on both sides of a slash are put together. -/
theorem splitList_append_slash (cs ds : List Char) : splitList (· == '/') (cs ++ '/' :: ds) =
    splitList (· == '/') cs ++ splitList (· == '/') ds := splitList_append_cons cs ds rfl

/-- A text without slashes is its only segment. -/
theorem splitList_of_not_mem {cs : List Char} (h : '/' ∉ cs) : splitList (· == '/') cs = [cs] :=
  splitList_eq_singleton fun _ hc => beq_eq_false_iff_ne.mpr fun heq => h (heq ▸ hc)

/-- The segments with slashes between them are the text. -/
theorem intercalate_splitList (cs : List Char) :
    ['/'].intercalate (splitList (· == '/') cs) = cs := by
  rw [splitList_eq_splitOnP, ← List.splitOn_eq_splitOnP, List.intercalate_splitOn]

/-- Behind the last slash there is none. -/
theorem slash_not_mem_afterLast (cs : List Char) : '/' ∉ afterLast (· == '/') cs := by
  intro h
  have hslash := List.mem_rtakeWhile_imp (p := fun c => !(c == '/')) h
  cases hslash

/-- A text is what stands behind its last slash, with what stands before it if there is one. -/
theorem eq_afterLast_or_exists (cs : List Char) : cs = afterLast (· == '/') cs ∨
    ∃ init, cs = init ++ '/' :: afterLast (· == '/') cs := by
  have happend : cs.rdropWhile (!· == '/') ++ afterLast (· == '/') cs = cs :=
    List.rdropWhile_append_rtakeWhile
  have hlast := List.rdropWhile_last_not (!· == '/') cs
  generalize cs.rdropWhile (!· == '/') = before at happend hlast
  rcases List.eq_nil_or_concat before with rfl | ⟨init, c, rfl⟩
  · exact .inl happend.symm
  · obtain rfl : c = '/' := by simpa using hlast
    rw [List.concat_append] at happend
    exact .inr ⟨init, happend.symm⟩

/-- The segments, each behind a slash. -/
def slashed (segments : List (List Char)) : List Char := segments.flatMap ('/' :: ·)

/-- A path is its first segment and the others, each behind a slash. -/
theorem intercalate_slash_cons (segment : List Char) (rest : List (List Char)) :
    ['/'].intercalate (segment :: rest) = segment ++ slashed rest := by
  induction rest generalizing segment with
  | nil => simp [slashed]
  | cons next rest ih =>
    rw [List.intercalate_cons_cons, ih]
    simp [slashed]

theorem slashed_append (segments rest : List (List Char)) :
    slashed (segments ++ rest) = slashed segments ++ slashed rest := List.flatMap_append

/-- What is slashed and followed by a slash begins with one. -/
theorem exists_slashed_append (segments : List (List Char)) (cs : List Char) :
    ∃ ds, slashed segments ++ '/' :: cs = '/' :: ds := by
  cases segments with
  | nil => exact ⟨cs, rfl⟩
  | cons segment rest => exact ⟨segment ++ slashed rest ++ '/' :: cs, by simp [slashed]⟩

theorem forwardSlashes_append (cs ds : List Char) :
    forwardSlashes (cs ++ ds) = forwardSlashes cs ++ forwardSlashes ds := List.map_append

end Text

open Text

/-! ## Void segments -/

section Void

variable {voids : List (List Char)} {segment : List Char}

/-- Void are the empty segment and a single point. -/
theorem isVoidSegment_iff : isVoidSegment segment = true ↔ segment = [] ∨ segment = ['.'] := by
  simp [isVoidSegment]

/-- Void segments are lost from the end only. -/
theorem exists_trimVoid (segments : List (List Char)) :
    ∃ voids, segments = trimVoid segments ++ voids ∧ ∀ v ∈ voids, isVoidSegment v = true :=
  ⟨segments.rtakeWhile isVoidSegment, List.rdropWhile_append_rtakeWhile.symm,
    fun _ hv => List.mem_rtakeWhile_imp hv⟩

/-- Slashes are lost from the end only. They stand before void segments. -/
theorem exists_trimSlashes (cs : List Char) : ∃ voids,
    cs = TokenRules.trimSlashes cs ++ slashed voids ∧ ∀ v ∈ voids, isVoidSegment v = true := by
  have hall : ∀ c ∈ cs.rtakeWhile (· == '/'), c = '/' := fun c hc => by
    simpa using List.mem_rtakeWhile_imp hc
  have hslashes := List.eq_replicate_of_mem hall
  refine ⟨List.replicate (cs.rtakeWhile (· == '/')).length [], ?_, ?_⟩
  · rw [slashed, List.flatMap_replicate, List.flatten_replicate_singleton, ← hslashes]
    exact List.rdropWhile_append_rtakeWhile.symm
  · intro v hv
    rw [List.eq_of_mem_replicate hv]
    rfl

/-- No backslash stands in void segments. -/
theorem forwardSlashes_slashed (h : ∀ v ∈ voids, isVoidSegment v = true) :
    forwardSlashes (slashed voids) = slashed voids := by
  rw [forwardSlashes, slashed, List.map_flatMap]
  refine List.flatMap_congr fun v hv => ?_
  rcases isVoidSegment_iff.mp (h v hv) with rfl | rfl <;> rfl

/-- A name that has an extension is not void. -/
theorem not_isVoidSegment (h : hasExtension segment = true) : ¬ isVoidSegment segment = true := by
  intro hvoid
  rcases isVoidSegment_iff.mp hvoid with rfl | rfl <;> cases h

end Void

/-! ## The directory of a workspace -/

/-- The path with some segments is a slash if there is no more than an empty one. -/
theorem joinSegments_cons (first : List Char) (rest : List (List Char)) :
    (first ++ slashed rest = [] ∧ joinSegments (first :: rest) = ['/']) ∨
      (first ++ slashed rest ≠ [] ∧ joinSegments (first :: rest) = first ++ slashed rest) := by
  rw [← intercalate_slash_cons]
  match first, rest with
  | [], [] => exact .inl ⟨rfl, rfl⟩
  | [], next :: rest => exact .inr ⟨by simp [intercalate_slash_cons, slashed], rfl⟩
  | c :: cs, rest => exact .inr ⟨by simp [intercalate_slash_cons], rfl⟩

/-- The directory of a workspace's file is what stands before the file's name, without void segments
at the end. -/
theorem exists_workspaceRoot (dir name : List Char) (hslash : '/' ∉ name)
    (hname : hasExtension name = true) : ∃ first kept voids,
      workspaceRoot (String.ofList (dir ++ '/' :: name)) =
        String.ofList (joinSegments (first :: kept)) ∧
      dir = first ++ slashed kept ++ slashed voids ∧ ∀ v ∈ voids, isVoidSegment v = true := by
  obtain ⟨first, rest, hdir⟩ := List.exists_cons_of_ne_nil (splitList_ne_nil (· == '/') dir)
  obtain ⟨voids, hrest, hvoids⟩ := exists_trimVoid rest
  refine ⟨first, trimVoid rest, voids, ?_, ?_, hvoids⟩
  · have hsegments : splitList (· == '/') (dir ++ '/' :: name) = first :: (rest ++ [name]) := by
      rw [splitList_append_slash, hdir, splitList_of_not_mem hslash, List.cons_append]
    have htrim : trimVoid (rest ++ [name]) = rest ++ [name] :=
      List.rdropWhile_concat_neg _ _ _ (not_isVoidSegment hname)
    rw [workspaceRoot, String.toList_ofList, hsegments]
    simp only [htrim, List.getLast?_concat, hname, if_true, List.dropLast_concat]
  · rw [List.append_assoc, ← slashed_append, ← hrest, ← intercalate_slash_cons, ← hdir,
      intercalate_splitList]

/-- The directory of a file whose path has no slash is the empty path. -/
theorem workspaceRoot_of_not_mem {name : List Char} (hslash : '/' ∉ name)
    (hname : hasExtension name = true) : workspaceRoot (String.ofList name) = "" := by
  rw [workspaceRoot, String.toList_ofList, splitList_of_not_mem hslash]
  exact if_pos hname

/-- A name with a part before a point and one behind it has an extension. -/
theorem hasExtension_append {cs ext : List Char} (hcs : cs ≠ []) (hext : ext ≠ []) :
    hasExtension (cs ++ '.' :: ext) = true := by
  match cs, ext with
  | c :: cs, e :: ext =>
    have hdots : cs ++ '.' :: e :: ext ≠ ['.'] := by
      intro h
      have hlength := congrArg List.length h
      simp only [List.length_append, List.length_cons, List.length_nil] at hlength
      omega
    simp [hasExtension, hdots]

namespace TokenRules

variable {rules : TokenRules}

/-! ## Paths beneath a root -/

/-- The meaningful segments of a path before its last one. -/
def meaningful (rules : TokenRules) (cs : List Char) : List (List Char) :=
  (splitList (· == '/') cs).dropLast.filter rules.isMeaningful

theorem directories_eq (path : String) :
    rules.directories path = rules.meaningful (rules.relative (forwardSlashes path.toList)) := rfl

theorem meaningful_withRoot (root : String) (cs : List Char) :
    (rules.withRoot root).meaningful cs = rules.meaningful cs := rfl

theorem relative_ofConfig (config : Config) (cs : List Char) :
    (ofConfig config).relative cs = cs := rfl

/-- A void segment says nothing. -/
theorem meaningful_append_slash {v : List Char} (h : isVoidSegment v = true) (cs : List Char) :
    rules.meaningful (v ++ '/' :: cs) = rules.meaningful cs := by
  have hsplit : splitList (· == '/') v = [v] := by
    rcases isVoidSegment_iff.mp h with rfl | rfl <;> rfl
  have hsilent : rules.isMeaningful v = false := by
    rcases isVoidSegment_iff.mp h with rfl | rfl <;> rfl
  rw [meaningful, meaningful, splitList_append_slash, hsplit,
    List.dropLast_append_of_ne_nil (splitList_ne_nil _ _), List.filter_append,
    List.filter_singleton, hsilent]
  rfl

/-- Void segments say nothing. -/
theorem meaningful_behind_voids {voids : List (List Char)}
    (h : ∀ v ∈ voids, isVoidSegment v = true) (cs : List Char) :
    rules.meaningful (slashed voids ++ '/' :: cs) = rules.meaningful cs := by
  have hslash : ∀ ds, rules.meaningful ('/' :: ds) = rules.meaningful ds :=
    meaningful_append_slash (v := []) rfl
  induction voids with
  | nil => exact hslash cs
  | cons v rest ih =>
    obtain ⟨ds, hds⟩ := exists_slashed_append rest cs
    have hrest := ih fun v hv => h v (List.mem_cons_of_mem _ hv)
    calc rules.meaningful (slashed (v :: rest) ++ '/' :: cs)
        = rules.meaningful (v ++ '/' :: ds) := by
          rw [← hslash (v ++ '/' :: ds), ← hds]
          simp [slashed]
      _ = rules.meaningful ('/' :: ds) := by
          rw [meaningful_append_slash (h v List.mem_cons_self), hslash]
      _ = rules.meaningful cs := by rw [← hds, hrest]

/-- What follows the root in a path, from a slash on, is the path relative to it. -/
theorem relative_append_slash {root : List Char} (h : rules.root = some root) (cs : List Char) :
    rules.relative (root ++ '/' :: cs) = '/' :: cs := by
  have hprefix : root.isPrefixOf? (root ++ '/' :: cs) = some ('/' :: cs) :=
    List.isPrefixOf?_eq_some_iff_append_eq.mpr rfl
  simp only [relative, h, Option.bind_some, hprefix]

/-- The root that a path sets is known from its first segment and the others. -/
theorem root_withRoot (first : List Char) (rest : List (List Char)) :
    (rules.withRoot (String.ofList (joinSegments (first :: rest)))).root =
      some (trimSlashes (forwardSlashes (first ++ slashed rest))) := by
  simp only [withRoot, String.isEmpty_iff, String.toList_ofList, String.ofList_eq_empty_iff]
  rcases joinSegments_cons first rest with ⟨hnil, hjoin⟩ | ⟨hne, hjoin⟩
  · rw [hnil, hjoin]
    rfl
  · rw [hjoin, if_neg hne]

/-- Beneath the directory of a workspace's file a file has the token of its relative path. -/
theorem token_beneath_workspace (config : Config) (dir name path : List Char) (hslash : '/' ∉ name)
    (hname : hasExtension name = true) :
    ((ofConfig config).withRoot (workspaceRoot (String.ofList (dir ++ '/' :: name)))).token
      (some (String.ofList (dir ++ '/' :: path))) =
        (ofConfig config).token (some (String.ofList path)) := by
  obtain ⟨first, kept, voids, hroot, hdir, hvoids⟩ := exists_workspaceRoot dir name hslash hname
  obtain ⟨voids', htrim, hvoids'⟩ := exists_trimSlashes (forwardSlashes (first ++ slashed kept))
  have hall : ∀ v ∈ voids' ++ voids, isVoidSegment v = true := fun v hv =>
    (List.mem_append.mp hv).elim (hvoids' v) (hvoids v)
  -- in the file's path void segments stand between the root and the relative path
  have hpath : forwardSlashes (dir ++ '/' :: path) =
      trimSlashes (forwardSlashes (first ++ slashed kept)) ++
        (slashed (voids' ++ voids) ++ '/' :: forwardSlashes path) := by
    rw [hdir, forwardSlashes_append, forwardSlashes_append, forwardSlashes_slashed hvoids]
    conv_lhs => rw [htrim]
    rw [slashed_append, List.append_assoc, List.append_assoc, List.append_assoc]
    rfl
  have hrelative : ((ofConfig config).withRoot
      (workspaceRoot (String.ofList (dir ++ '/' :: name)))).relative
        (forwardSlashes (dir ++ '/' :: path)) =
          slashed (voids' ++ voids) ++ '/' :: forwardSlashes path := by
    obtain ⟨cs, hcs⟩ := exists_slashed_append (voids' ++ voids) (forwardSlashes path)
    rw [hpath, hcs, hroot, relative_append_slash (root_withRoot first kept)]
  rw [token, token, directories_eq, directories_eq, String.toList_ofList, String.toList_ofList,
    hrelative, meaningful_withRoot, meaningful_behind_voids hall, relative_ofConfig]

/-- A workspace's file and another file whose paths have a common beginning: the other file has the
token of what follows the last slash of the beginning. -/
theorem token_common_beginning (config : Config) (beginning name path : List Char)
    (hslash : '/' ∉ name) (hname : hasExtension (afterLast (· == '/') beginning ++ name) = true) :
    ((ofConfig config).withRoot (workspaceRoot (String.ofList (beginning ++ name)))).token
      (some (String.ofList (beginning ++ path))) =
        (ofConfig config).token
          (some (String.ofList (afterLast (· == '/') beginning ++ path))) := by
  have hslash' : '/' ∉ afterLast (· == '/') beginning ++ name := fun h =>
    (List.mem_append.mp h).elim (slash_not_mem_afterLast beginning) hslash
  rcases eq_afterLast_or_exists beginning with hbeginning | ⟨dir, hbeginning⟩
  · rw [← hbeginning] at hslash' hname ⊢
    rw [workspaceRoot_of_not_mem hslash' hname]
    rfl
  · generalize afterLast (· == '/') beginning = last at hbeginning hslash' hname ⊢
    rw [hbeginning, List.append_assoc, List.append_assoc, List.cons_append, List.cons_append]
    exact token_beneath_workspace config dir _ _ hslash' hname

/-- A file in the directory of a workspace's file, or beneath it, has the token of its path relative
to that directory, if a slash sets off the directory in both paths. If a backslash does, it has the
token of its path relative to what stands before the last slash of the directory. -/
theorem token_relative_to_workspace (config : Config) (dir stem ext path : String)
    (hstem : stem ≠ "") (hext : ext ≠ "") (hslash : '/' ∉ (stem ++ "." ++ ext).toList) :
    ((ofConfig config).withRoot (workspaceRoot (dir ++ "/" ++ (stem ++ "." ++ ext)))).token
      (some (dir ++ "/" ++ path)) = (ofConfig config).token (some path) ∧
    ((ofConfig config).withRoot (workspaceRoot (dir ++ "\\" ++ (stem ++ "." ++ ext)))).token
      (some (dir ++ "\\" ++ path)) = (ofConfig config).token
        (some (String.ofList (afterLast (· == '/') dir.toList) ++ "\\" ++ path)) := by
  have hname : ∀ cs : List Char, hasExtension (cs ++ (stem ++ "." ++ ext).toList) = true := by
    intro cs
    have happend : cs ++ (stem ++ "." ++ ext).toList = cs ++ stem.toList ++ '.' :: ext.toList := by
      simp
    rw [happend]
    refine hasExtension_append (List.append_ne_nil_of_right_ne_nil _ ?_) ?_
    · rwa [ne_eq, String.toList_eq_nil_iff]
    · rwa [ne_eq, String.toList_eq_nil_iff]
  have hbeginning := fun sep => token_common_beginning config (dir ++ sep).toList
    (stem ++ "." ++ ext).toList path.toList hslash (hname _)
  simp only [← String.toList_append, String.ofList_toList] at hbeginning
  constructor
  case left =>
    have hlast : afterLast (· == '/') (dir ++ "/").toList = [] := by simp [afterLast]
    rw [hbeginning, hlast, List.nil_append, String.ofList_toList]
  case right =>
    have hlast : afterLast (· == '/') (dir ++ "\\").toList ++ path.toList =
        (String.ofList (afterLast (· == '/') dir.toList) ++ "\\" ++ path).toList := by
      simp [afterLast]
    rw [hbeginning, hlast, String.ofList_toList]

/-- A workspace in a directory of an absolute path, and one on a drive, of which all but the drive
counts for the token. -/
theorem token_relative_to_workspace_work :
    let rules := TokenRules.ofConfig (.standard 4)
    (rules.withRoot (workspaceRoot "/work/repo/Shop.sln")).token
        (some "/work/repo/Shop/Orders/Order.cs") = "Orders" ∧
      (rules.withRoot (workspaceRoot "C:\\work\\repo\\Shop.sln")).token
        (some "C:\\work\\repo\\Shop\\Orders\\Order.cs") = "Shop" := by
  intro rules
  have hslash := token_relative_to_workspace (.standard 4) "/work/repo" "Shop" "sln"
    "Shop/Orders/Order.cs" (by decide) (by decide) (by decide)
  have hback := token_relative_to_workspace (.standard 4) "C:\\work\\repo" "Shop" "sln"
    "Shop\\Orders\\Order.cs" (by decide) (by decide) (by decide)
  exact ⟨hslash.1.trans (by decide +kernel), hback.2.trans (by decide +kernel)⟩

/-- So backslashes do not set off the directory of a workspace. -/
theorem token_not_relative_to_workspace :
    let rules := TokenRules.ofConfig (.standard 4)
    (rules.withRoot (workspaceRoot ("C:\\work\\repo" ++ "\\" ++ ("Shop" ++ "." ++ "sln")))).token
        (some ("C:\\work\\repo" ++ "\\" ++ "Shop\\Orders\\Order.cs")) ≠
      rules.token (some "Shop\\Orders\\Order.cs") := by
  decide +kernel

end TokenRules

end CodeAtlas
