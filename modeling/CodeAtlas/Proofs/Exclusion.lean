import CodeAtlas.Proofs.Identity
import CodeAtlas.Proofs.Registration

/-!
# Excluding framework code by identity

Declarations of one identity are one entity, so a filter should treat them alike. Which assembly an
entity belongs to is written twice: the identity has the name of the assembly without the blanks at
its ends, while the filter for framework code looks at the name as the symbol gives it. Where the
two names are the same text and the identity shows where the name ends (`Symbol.ShowsAssembly`),
declarations of one identity are treated alike, and so an id becomes a node whichever of them comes
first, or never.

In general they are not: blanks before the name of an excluded assembly leave the identity as it is,
and with enough of them the name is none of the excluded ones (`Config.not_isExcludedAssembly_pad`).
So only a configuration that excludes nothing filters by identity (`Config.filters_by_identity`).
-/

namespace CodeAtlas

/-! ## Assemblies in identities -/

namespace Symbol

/-- Two declarations of one entity that agree in what a filter may look at besides the assembly. -/
structure Agrees (s t : Symbol) : Prop where
  kind : s.kind = t.kind
  isImplicitlyDeclared : s.isImplicitlyDeclared = t.isImplicitlyDeclared
  identity : s.identity = t.identity

/-- The identity shows the assembly that the symbol names. -/
structure ShowsAssembly (c : Config) (s : Symbol) : Prop where
  /-- The name is the one in the identity. A symbol may also name no assembly, as long as the
  unknown assembly is not an excluded one. -/
  written : s.containingAssembly = some (assemblyKey s.containingAssembly) ∨
    s.containingAssembly = none ∧ c.isExcludedAssembly unknownAssembly = false
  /-- The first two colons of the identity stand behind the name. -/
  colons : ¬ [':', ':'] <:+: (assemblyKey s.containingAssembly).toList ++ [':']

variable {c : Config} {s t : Symbol}

/-- Identities that show their assemblies are equal only for one assembly. -/
theorem ShowsAssembly.assemblyKey_eq (hs : s.ShowsAssembly c) (ht : t.ShowsAssembly c)
    (h : s.identity = t.identity) :
    assemblyKey s.containingAssembly = assemblyKey t.containingAssembly := by
  have hchars := congrArg String.toList h
  simp only [identity, CodeAtlas.identity, String.toList_append, List.append_assoc] at hchars
  exact String.toList_injective (eq_of_first_colons hs.colons ht.colons hchars)

/-- Where the identity shows the assembly, the filter may as well look at the one it shows. -/
theorem ShowsAssembly.any_isExcludedAssembly (hs : s.ShowsAssembly c) :
    s.containingAssembly.any c.isExcludedAssembly =
      c.isExcludedAssembly (assemblyKey s.containingAssembly) := by
  rcases hs.written with hname | ⟨hnone, hunknown⟩
  · exact congrArg (Option.any c.isExcludedAssembly) hname
  · rw [hnone]
    exact hunknown.symm

/-- A filter that looks at the assemblies in the same way treats declarations alike that agree. -/
theorem Agrees.skipReason?_eq (h : s.Agrees t) (hassembly :
    s.containingAssembly.any c.isExcludedAssembly = t.containingAssembly.any c.isExcludedAssembly) :
    c.skipReason? s = c.skipReason? t := by
  rw [Config.skipReason?, Config.skipReason?, h.kind, h.isImplicitlyDeclared, hassembly]

/-- Declarations of one entity are treated alike if their identities show their assemblies. -/
theorem Agrees.skipReason?_eq_of_shows (h : s.Agrees t) (hs : s.ShowsAssembly c)
    (ht : t.ShowsAssembly c) : c.skipReason? s = c.skipReason? t := by
  refine h.skipReason?_eq ?_
  rw [hs.any_isExcludedAssembly, ht.any_isExcludedAssembly, hs.assemblyKey_eq ht h.identity]

end Symbol

/-! ## Blanks before a name -/

/-- The text behind some blanks. -/
def Text.pad (n : Nat) (s : String) : String := String.ofList (List.replicate n ' ' ++ s.toList)

/-- The blanks are trimmed. -/
theorem Text.trim_pad {n : Nat} {s : String} : trim (pad n s) = trim s := by
  have hblank : ∀ c ∈ List.replicate n ' ', isBlank c = true := fun c hc => by
    rw [List.eq_of_mem_replicate hc]
    rfl
  rw [trim, trim, trimList, trimList, pad, String.toList_ofList,
    List.dropWhile_append_of_pos hblank]

/-- So they do not show in an identity. -/
theorem assemblyKey_pad {n : Nat} {assembly : String} :
    assemblyKey (some (Text.pad n assembly)) = assemblyKey (some assembly) := by
  rw [assemblyKey, assemblyKey, Option.map_some, Option.map_some, Text.trim_pad]

namespace Config

variable {c : Config} {n : Nat} {assembly : String}

/-- Behind more blanks than there are characters in any excluded name, no name is excluded. -/
theorem not_isExcludedAssembly_pad (hn : ∀ e ∈ c.excludedAssemblies, e.toList.length < n) :
    c.isExcludedAssembly (Text.pad n assembly) = false := by
  refine List.any_eq_false.mpr fun e he hexcluded => ?_
  have hlength := hn e he
  rcases Bool.or_eq_true_iff.mp hexcluded with hsame | hbegins
  · have hchars := congrArg (·.toList.length) (beq_iff_eq.mp hsame)
    simp only [Text.pad, String.toList_ofList, List.length_append, List.length_replicate] at hchars
    omega
  · -- the point behind the excluded name would have to be one of the blanks
    obtain ⟨rest, hrest⟩ := List.isPrefixOf_iff_prefix.mp hbegins
    have hpoint : ((e ++ ".").toList ++ rest)[e.toList.length]? = some '.' := by simp
    have hblank : (List.replicate n ' ' ++ assembly.toList)[e.toList.length]? = some ' ' := by
      rw [List.getElem?_append_left (by rwa [List.length_replicate]), List.getElem?_replicate,
        if_pos hlength]
    rw [hrest, Text.pad, String.toList_ofList, hblank] at hpoint
    cases hpoint

/-- A symbol of an excluded assembly is let in when the assembly is named behind blanks. -/
theorem exists_agrees_of_framework {s : Symbol}
    (h : c.skipReason? s = some .frameworkAssembly) :
    ∃ t : Symbol, s.Agrees t ∧ c.skipReason? t = none := by
  obtain ⟨n, hn⟩ : ∃ n, ∀ e ∈ c.excludedAssemblies, e.toList.length < n :=
    ⟨(c.excludedAssemblies.map (·.toList.length)).max?.getD 0 + 1, fun e he =>
      Nat.lt_succ_of_le (List.le_max?_getD_of_mem (List.mem_map_of_mem he))⟩
  refine ⟨{ s with containingAssembly := s.containingAssembly.map (Text.pad n) },
    ⟨rfl, rfl, ?_⟩, ?_⟩
  · rw [Symbol.identity, Symbol.identity, identity, identity]
    cases s.containingAssembly with
    | none => rfl
    | some assembly => rw [Option.map_some, assemblyKey_pad]
  · have hin : ¬ (s.containingAssembly.map (Text.pad n)).any c.isExcludedAssembly = true := by
      cases s.containingAssembly with
      | none => exact Bool.false_ne_true
      | some assembly => exact Bool.eq_false_iff.mp (not_isExcludedAssembly_pad hn)
    unfold skipReason? at h
    split at h
    · cases h
    · rename_i himplicit
      split at h
      · cases h
      · rename_i hkind
        exact (if_neg himplicit).trans ((if_neg hkind).trans (if_neg hin))

/-- Declarations of one entity are treated alike if their identities show their assemblies, and then
the id of the entity becomes a node whichever of them come first, or never. For all declarations
this is so only if no assembly is excluded. -/
theorem filters_by_identity (c : Config) :
    (∀ s t : Symbol, s.Agrees t → s.ShowsAssembly c → t.ShowsAssembly c →
      c.skipReason? s = c.skipReason? t) ∧
    (∀ calls : List Declaration, (∀ d ∈ calls, d.symbol.ShowsAssembly c) →
      (∀ d ∈ calls, ∀ d' ∈ calls, d.id = d'.id → d.symbol.Agrees d'.symbol) →
      ∀ d ∈ calls, (Catalogue.after c calls calls.length).nodes.contains d.id = true ↔
        c.skipReason? d.symbol = none) ∧
    ((∀ s t : Symbol, s.Agrees t → c.skipReason? s = c.skipReason? t) ↔
      c.excludedAssemblies = []) := by
  refine ⟨fun s t h hs ht => h.skipReason?_eq_of_shows hs ht,
    fun calls hshows hagree d hd => ?_, ?_⟩
  · rw [Catalogue.contains_nodes_after, List.take_length]
    constructor
    · rintro ⟨d', hd', hfor⟩
      obtain ⟨hskip, hid⟩ := Declaration.isFor_iff.mp hfor
      rw [← hskip]
      exact (hagree d hd d' hd' hid.symm).skipReason?_eq_of_shows (hshows d hd) (hshows d' hd')
    · exact fun hskip => ⟨d, hd, Declaration.isFor_iff.mpr ⟨hskip, rfl⟩⟩
  · constructor
    · intro h
      refine List.eq_nil_iff_forall_not_mem.mpr fun e he => ?_
      have hexcluded : c.isExcludedAssembly e = true :=
        List.any_eq_true.mpr ⟨e, he, Bool.or_eq_true_iff.mpr (.inl (beq_self_eq_true e))⟩
      have hskip : c.skipReason? (.typeIn e "" "Order" .classType) = some .frameworkAssembly :=
        if_pos hexcluded
      obtain ⟨t, hagrees, hin⟩ := exists_agrees_of_framework hskip
      rw [← h _ t hagrees, hskip] at hin
      cases hin
    · intro hnone s t h
      have hnever : c.isExcludedAssembly = fun _ => false := by
        funext assembly
        rw [isExcludedAssembly, hnone, List.any_nil]
      refine h.skipReason?_eq ?_
      rw [hnever]
      cases s.containingAssembly <;> cases t.containingAssembly <;> rfl

/-- Both parts of a class of an assembly that lies under an excluded one are left out. -/
theorem filters_by_identity_partial_class :
    let c := { Config.standard 4 with excludedAssemblies := ["Vendor"] }
    let part file := { Symbol.typeIn "Vendor.Data" "global::Vendor" "Store" .classType with
      location := some (.lines file 1 9) }
    let calls := ["a.cs", "b.cs"].map fun file => ⟨part file, Project.named "shop" "Shop"⟩
    c.skipReason? (part "a.cs") = c.skipReason? (part "b.cs") ∧
      (Catalogue.after c calls calls.length).nodes.contains
        "Vendor.Data::global::Vendor.Store" = false := by
  intro c part calls
  obtain ⟨halike, hnodes, -⟩ := filters_by_identity c
  have hwritten : some "Vendor.Data" = some (assemblyKey (some "Vendor.Data")) := by decide +kernel
  have hcolons : ¬ [':', ':'] <:+: (assemblyKey (some "Vendor.Data")).toList ++ [':'] := by
    decide +kernel
  have hshows : ∀ file, (part file).ShowsAssembly c := fun _ => ⟨.inl hwritten, hcolons⟩
  have hagree : ∀ file file', (part file).Agrees (part file') := fun _ _ => ⟨rfl, rfl, rfl⟩
  have hcalls : ∀ d ∈ calls, ∃ file, d = ⟨part file, Project.named "shop" "Shop"⟩ := by
    intro d hd
    obtain ⟨file, -, rfl⟩ := List.mem_map.mp hd
    exact ⟨file, rfl⟩
  refine ⟨halike _ _ (hagree "a.cs" "b.cs") (hshows "a.cs") (hshows "b.cs"),
    Bool.eq_false_iff.mpr fun hin => ?_⟩
  have hskip := (hnodes calls (fun d hd => ?_) (fun d hd d' hd' _ => ?_) _
    List.mem_cons_self).mp hin
  · revert hskip
    decide +kernel
  · obtain ⟨file, rfl⟩ := hcalls d hd
    exact hshows file
  · obtain ⟨file, rfl⟩ := hcalls d hd
    obtain ⟨file', rfl⟩ := hcalls d' hd'
    exact hagree file file'

/-- A class of an excluded assembly is left out, and another declaration of it, which names the
assembly behind a blank, becomes a node under the same id. -/
theorem skipReason?_behind_blank :
    let c := Config.standard 4
    let declared assembly := Symbol.typeIn assembly "System" "String" .classType
    let calls := ["System", " System"].map fun assembly =>
      ⟨declared assembly, Project.named "shop" "Shop"⟩
    (declared "System").Agrees (declared " System") ∧
      c.skipReason? (declared "System") = some .frameworkAssembly ∧
      c.skipReason? (declared " System") = none ∧
      (Catalogue.after c calls calls.length).nodes.contains
        (declared "System").identity = true := by
  intro c declared calls
  exact ⟨⟨rfl, rfl, by decide +kernel⟩, by decide +kernel, by decide +kernel, by decide +kernel⟩

end Config

end CodeAtlas
