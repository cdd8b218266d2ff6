import CodeAtlas.Symbol.Basic
import Mathlib.Data.List.DropRight

/-!
# Identities tell entities apart

An identity is the key of an assembly, two colons and a display name. The key is the name of the
assembly without the blanks at its ends, or one fixed text where no name is left (`AssemblyKey`).
Both parts of an identity are free texts, and nothing marks where the first one ends but the first
two colons (`eq_of_first_colons`). So identities are equal only for one key and one display name if
the keys hold no colon, whatever the display names hold (`identity_eq_iff`).
-/

namespace CodeAtlas

/-! ## Trimming -/

namespace Text

/-- The second text is what the first one has between the blanks at its ends. -/
structure Trims (s t : String) : Prop where
  enclosed : ∃ before after, s.toList = before ++ t.toList ++ after ∧
    (∀ c ∈ before, isBlank c = true) ∧ ∀ c ∈ after, isBlank c = true
  head : ∀ c, t.toList.head? = some c → isBlank c = false
  last : ∀ c, t.toList.getLast? = some c → isBlank c = false

/-- Of blanks and a text that begins with none the text is left. -/
theorem dropWhile_blanks_append {blanks cs : List Char} (hblanks : ∀ c ∈ blanks, isBlank c = true)
    (hhead : ∀ c, cs.head? = some c → isBlank c = false) :
    (blanks ++ cs).dropWhile isBlank = cs := by
  rw [List.dropWhile_append_of_pos hblanks]
  cases cs with
  | nil => rfl
  | cons c rest => exact List.dropWhile_cons_of_neg (by simp [hhead c rfl])

/-- What is left begins with no blank. -/
theorem not_isBlank_of_head?_dropWhile {cs : List Char} {c : Char}
    (h : (cs.dropWhile isBlank).head? = some c) : isBlank c = false := by
  have hhead := List.head?_dropWhile_not isBlank cs
  rwa [h] at hhead

/-- Trimming leaves what stands between the blanks. -/
theorem Trims.trim_eq {s t : String} (h : Trims s t) : trim s = t := by
  obtain ⟨before, after, hs, hbefore, hafter⟩ := h.enclosed
  have hhead := h.head
  have hlast := h.last
  refine String.toList_injective ?_
  rw [trim, String.toList_ofList, hs]
  generalize t.toList = cs at hhead hlast
  cases cs with
  | nil =>
    refine trimList_eq_nil (List.all_eq_true.mpr fun c hc => ?_)
    rw [List.append_nil] at hc
    exact (List.mem_append.mp hc).elim (hbefore c) (hafter c)
  | cons c rest =>
    have hleft : (before ++ (c :: rest ++ after)).dropWhile isBlank = c :: rest ++ after :=
      dropWhile_blanks_append hbefore hhead
    have hright : (after.reverse ++ (c :: rest).reverse).dropWhile isBlank = (c :: rest).reverse :=
      dropWhile_blanks_append (fun c hc => hafter c (List.mem_reverse.mp hc)) fun c hc =>
        hlast c (List.head?_reverse.symm.trans hc)
    rw [trimList, List.append_assoc, hleft, List.reverse_append, hright, List.reverse_reverse]

/-- What trimming leaves stands between blanks. -/
theorem trims_trim (s : String) : Trims s (trim s) where
  enclosed := by
    rw [trim, String.toList_ofList]
    refine ⟨s.toList.takeWhile isBlank, (s.toList.dropWhile isBlank).rtakeWhile isBlank, ?_,
      fun c hc => List.mem_takeWhile_imp hc, fun c hc => List.mem_rtakeWhile_imp hc⟩
    have hright : trimList s.toList ++ (s.toList.dropWhile isBlank).rtakeWhile isBlank =
        s.toList.dropWhile isBlank := List.rdropWhile_append_rtakeWhile
    rw [List.append_assoc, hright, List.takeWhile_append_dropWhile]
  head c hc := by
    rw [trim, String.toList_ofList] at hc
    obtain ⟨rest, hrest⟩ := List.head?_eq_some_iff.mp hc
    have hprefix : trimList s.toList <+: s.toList.dropWhile isBlank := List.rdropWhile_prefix _ _
    obtain ⟨after, hafter⟩ := hprefix
    have hleft : (s.toList.dropWhile isBlank).head? = some c := by
      rw [← hafter, hrest, List.cons_append, List.head?_cons]
    exact not_isBlank_of_head?_dropWhile hleft
  last c hc := by
    rw [trim, String.toList_ofList, trimList, List.getLast?_reverse] at hc
    exact not_isBlank_of_head?_dropWhile hc

/-- Trimming gives one text. -/
theorem trim_eq_iff {s t : String} : trim s = t ↔ Trims s t :=
  ⟨fun h => h ▸ trims_trim s, Trims.trim_eq⟩

end Text

/-! ## Keys of assemblies -/

/-- The text that stands for an assembly in identities. -/
inductive AssemblyKey : Option String → String → Prop
  /-- No assembly is named. -/
  | absent : AssemblyKey none "Unknown"
  /-- The name is blank. -/
  | blank {assembly : String} (h : Text.Trims assembly "") : AssemblyKey (some assembly) "Unknown"
  /-- Something is left of the name. -/
  | named {assembly name : String} (h : Text.Trims assembly name) (hname : name ≠ "") :
    AssemblyKey (some assembly) name

/-- Every assembly has exactly one key. -/
theorem assemblyKey_eq_iff {assembly : Option String} {key : String} :
    assemblyKey assembly = key ↔ AssemblyKey assembly key := by
  constructor
  · rintro rfl
    cases assembly with
    | none => exact .absent
    | some name =>
      rw [assemblyKey, Option.map_some]
      dsimp only
      split
      · rename_i hempty
        exact .blank (Text.trim_eq_iff.mp (String.isEmpty_iff.mp hempty))
      · rename_i hname
        exact .named (Text.trim_eq_iff.mp rfl) fun h => hname (String.isEmpty_iff.mpr h)
  · intro h
    cases h with
    | absent => rfl
    | blank h => simp [assemblyKey, Text.trim_eq_iff.mpr h, unknownAssembly]
    | named h hname => simp [assemblyKey, Text.trim_eq_iff.mpr h, hname]

/-! ## The first two colons -/

/-- What stands before two colons has none of them in it if the first two colons stand there. -/
theorem eq_nil_of_first_colons {cs ds rest rest' : List Char}
    (hfirst : ¬ [':', ':'] <:+: (cs ++ ds) ++ [':'])
    (h : [':', ':'] ++ rest = ds ++ ([':', ':'] ++ rest')) : ds = [] := by
  match ds with
  | [] => rfl
  | [c] =>
    obtain ⟨rfl, -⟩ := List.cons.inj h
    exact absurd ⟨cs, [], by simp⟩ hfirst
  | c :: c' :: ds =>
    obtain ⟨rfl, htail⟩ := List.cons.inj h
    obtain ⟨rfl, -⟩ := List.cons.inj htail
    exact absurd ⟨cs, ds ++ [':'], by simp⟩ hfirst

/-- A text is cut in one way at its first two colons. -/
theorem eq_of_first_colons {cs ds rest rest' : List Char}
    (hcs : ¬ [':', ':'] <:+: cs ++ [':']) (hds : ¬ [':', ':'] <:+: ds ++ [':'])
    (h : cs ++ ([':', ':'] ++ rest) = ds ++ ([':', ':'] ++ rest')) : cs = ds := by
  rcases List.append_eq_append_iff.mp h with ⟨more, rfl, hmore⟩ | ⟨more, rfl, hmore⟩
  · rw [eq_nil_of_first_colons hds hmore, List.append_nil]
  · rw [eq_nil_of_first_colons hcs hmore, List.append_nil]

/-- A text without a colon ends before the first two. -/
theorem first_colons_of_not_mem {cs : List Char} (h : ':' ∉ cs) :
    ¬ [':', ':'] <:+: cs ++ [':'] := by
  intro hcolons
  have hcount := hcolons.sublist.count_le ':'
  rw [List.count_append, List.count_eq_zero_of_not_mem h] at hcount
  revert hcount
  decide

/-- Entities of assemblies whose keys hold no colon have one identity exactly if the assemblies have
one key and the entities one display name. -/
theorem identity_eq_iff {assembly assembly' : Option String} {key key' : String}
    (displayName displayName' : String) (hkey : AssemblyKey assembly key)
    (hkey' : AssemblyKey assembly' key') (hcolon : ':' ∉ key.toList)
    (hcolon' : ':' ∉ key'.toList) :
    identity assembly displayName = identity assembly' displayName' ↔
      key = key' ∧ displayName = displayName' := by
  rw [identity, identity, assemblyKey_eq_iff.mpr hkey, assemblyKey_eq_iff.mpr hkey']
  constructor
  · intro h
    have hchars := congrArg String.toList h
    simp only [String.toList_append, List.append_assoc] at hchars
    obtain rfl : key = key' := String.toList_injective
      (eq_of_first_colons (first_colons_of_not_mem hcolon) (first_colons_of_not_mem hcolon') hchars)
    refine ⟨rfl, String.toList_injective ?_⟩
    exact List.append_cancel_left (List.append_cancel_left hchars)
  · rintro ⟨rfl, rfl⟩
    rfl

/-- A name between blanks is the same assembly, and no name is another one; the display name may
hold two colons. -/
theorem identity_eq_iff_blanks :
    identity (some "\u2003Shop ") "Core::Order" = identity (some "Shop") "Core::Order" ∧
      identity none "Core::Order" ≠ identity (some "Shop") "Core::Order" := by
  have hshop : AssemblyKey (some "Shop") "Shop" := assemblyKey_eq_iff.mp (by decide +kernel)
  have hblanks : AssemblyKey (some "\u2003Shop ") "Shop" :=
    assemblyKey_eq_iff.mp (by decide +kernel)
  have hcolon : ':' ∉ "Shop".toList := by decide
  refine ⟨(identity_eq_iff _ _ hblanks hshop hcolon hcolon).mpr ⟨rfl, rfl⟩, fun h => ?_⟩
  exact absurd ((identity_eq_iff _ _ .absent hshop (by decide) hcolon).mp h).1 (by decide)

/-- With a colon in a key two entities may share an identity. -/
example : identity (some "Shop::Core") "Order" = identity (some "Shop") "Core::Order" := by
  decide +kernel

end CodeAtlas
