import CodeAtlas.Json.Printer
import CodeAtlas.Json.Reader
import CodeAtlas.Proofs.Numerals

/-!
# What is written as a document is read as that document

`Json.parse?_pretty`: the reader takes back every document from its lines, whatever its texts, its
numerals and its depth. The two levels of the reader are treated apart.

* `Token.Writes cs ts` says that the characters `cs` are split into the tokens `ts` wherever they
  stand in front of something that ends a numeral. The lines of a document write its tokens
  (`writes_prettyAt`), by induction on the document.
* The machine that reads tokens stands behind a value after the tokens of that value
  (`Reader.run?_tokens`), again by induction on the document, with the stack of unfinished arrays
  and objects arbitrary.
-/

namespace CodeAtlas.Json

/-! ## String literals -/

namespace Token

open Numeral (Ends ends_nil ends_cons)

variable {acc ts us : List Token} {cs ds rest : List Char}

/-- The two hexadecimal digits of a control character are read as the character's code. -/
theorem hexUnit?_digitChar {n : Nat} (h : n < 0x20) :
    hexUnit? '0' '0' (Nat.digitChar (n / 16)) (Nat.digitChar (n % 16)) = some n := by
  revert n
  decide

/-- A character that stands for itself is read as its code point. -/
theorem scanUnits?_cons {c : Char} (hquote : c ≠ '"') (hback : c ≠ '\\') (h : ¬ c.toNat < 0x20)
    (units : List Nat) (rest : List Char) :
    scanUnits? units (c :: rest) = scanUnits? (c.toNat :: units) rest := by
  rw [scanUnits?.eq_def]
  split
  · contradiction
  · exact absurd (List.cons.inj ‹_›).1 hquote
  · exact absurd (List.cons.inj ‹_›).1 hback
  · exact absurd (List.cons.inj ‹_›).1 hback
  · obtain ⟨rfl, rfl⟩ := List.cons.inj ‹_›
    rw [if_neg (not_or.mpr ⟨h, hback⟩)]

/-- An escaped character is read as its code point. -/
theorem scanUnits?_escape (c : Char) (units : List Nat) (rest : List Char) :
    scanUnits? units (escape c ++ rest) = scanUnits? (c.toNat :: units) rest := by
  by_cases hletter : c ∈ ['"', '\\', '\x08', '\x0c', '\n', '\r', '\t']
  · simp only [List.mem_cons, List.not_mem_nil, or_false] at hletter
    rcases hletter with rfl | rfl | rfl | rfl | rfl | rfl | rfl <;> rfl
  · simp only [List.mem_cons, List.not_mem_nil, or_false, not_or] at hletter
    obtain ⟨hquote, hback, hb, hf, hn, hr, ht⟩ := hletter
    by_cases hcontrol : c.toNat < 0x20
    · simp [escape, scanUnits?, hexUnit?_digitChar, *]
    · rw [show escape c = [c] by simp [escape, *], List.singleton_append,
        scanUnits?_cons hquote hback hcontrol]

/-- Escaped characters up to the closing quote are read as their code points. -/
theorem scanUnits?_flatMap_escape (chars : List Char) (units : List Nat) (rest : List Char) :
    scanUnits? units (chars.flatMap escape ++ '"' :: rest) =
      some (units.reverse ++ chars.map Char.toNat, rest) := by
  induction chars generalizing units with
  | nil => simp [scanUnits?]
  | cons c chars ih =>
    rw [List.flatMap_cons, List.append_assoc, scanUnits?_escape, ih]
    simp

/-- The code point of a character is no half of a surrogate pair. -/
theorem not_surrogate (c : Char) :
    isHighSurrogate c.toNat = false ∧ isLowSurrogate c.toNat = false := by
  have := c.valid
  simp only [UInt32.isValidChar, Nat.isValidChar] at this
  simp only [isHighSurrogate, isLowSurrogate, Bool.and_eq_false_iff, decide_eq_false_iff_not,
    Char.toNat]
  omega

/-- The code points of characters are joined to these characters. -/
theorem pairUnits?_map_toNat (chars : List Char) (cs : List Char) :
    pairUnits? chars (cs.map Char.toNat) = some (chars.reverse ++ cs) := by
  induction cs generalizing chars with
  | nil => simp [pairUnits?]
  | cons c cs ih =>
    obtain ⟨hhigh, hlow⟩ := not_surrogate c
    cases cs with
    | nil => simp [pairUnits?, hhigh, hlow]
    | cons d cs =>
      rw [List.map_cons, List.map_cons, pairUnits?, if_neg (by simp [hhigh]),
        if_neg (by simp [hlow]), ← List.map_cons, ih]
      simp

/-! ## Tokens -/

/-- In front of a numeral no other token is read. -/
theorem scan?_of_numeral {c : Char} (h : c = '-' ∨ ∃ d : Digit, c = d.toChar) :
    scan? (c :: cs) = (Numeral.scan? (c :: cs)).map fun (n, rest) => (numeral n, rest) := by
  have hne : c ≠ '\x7b' ∧ c ≠ '\x7d' ∧ c ≠ '[' ∧ c ≠ ']' ∧ c ≠ ':' ∧ c ≠ ',' ∧ c ≠ 'n' ∧
      c ≠ 't' ∧ c ≠ 'f' ∧ c ≠ '"' := by
    rcases h with rfl | ⟨d, rfl⟩
    · decide
    · revert d
      decide
  unfold scan?
  split <;> simp_all

/-- A token is read off a text that starts with its written form. -/
theorem scan?_render_append (t : Token) (h : Ends rest) :
    scan? (t.render ++ rest) = some (t, rest) := by
  cases t with
  | boolean b => cases b <;> rfl
  | numeral n =>
    obtain ⟨c, cs, hcons, hc⟩ := n.render_eq_cons
    have hscan := Numeral.scan?_render_append n h
    rw [hcons, List.cons_append] at hscan
    rw [render, hcons, List.cons_append, scan?_of_numeral hc, hscan]
    rfl
  | string s =>
    cases s with
    | none => rfl
    | some s =>
      rw [render, quote, List.cons_append, List.cons_append, List.append_assoc]
      simp only [scan?, List.singleton_append, scanUnits?_flatMap_escape, List.reverse_nil,
        List.nil_append, pairUnits?_map_toNat, Option.map_some, String.ofList_toList]
  | _ => rfl

/-- A token starts with a character that is no blank. -/
theorem render_eq_cons (t : Token) : ∃ c cs, t.render = c :: cs ∧ isBlank c = false := by
  cases t with
  | boolean b => cases b <;> exact ⟨_, _, rfl, by decide⟩
  | numeral n =>
    obtain ⟨c, cs, hcons, hc⟩ := n.render_eq_cons
    refine ⟨c, cs, hcons, ?_⟩
    clear hcons
    rcases hc with rfl | ⟨d, rfl⟩
    · decide
    · revert d
      decide
  | string s => cases s <;> exact ⟨_, _, rfl, by decide⟩
  | _ => exact ⟨_, _, rfl, by decide⟩

/-- A written token is split off as that token. -/
theorem scanAll?_render_append (t : Token) (h : Ends rest) :
    scanAll? acc (t.render ++ rest) = scanAll? (t :: acc) rest := by
  have hscan := scan?_render_append t h
  obtain ⟨c, cs, hcons, hc⟩ := t.render_eq_cons
  rw [hcons, List.cons_append] at hscan ⊢
  rw [scanAll?, if_neg (by simp [hc])]
  split
  · cases hscan.symm.trans ‹_›
    rfl
  · simp_all

/-- Blanks are passed over. -/
theorem scanAll?_blanks (h : ∀ c ∈ cs, isBlank c = true) :
    scanAll? acc (cs ++ rest) = scanAll? acc rest := by
  induction cs with
  | nil => rfl
  | cons c cs ih =>
    rw [List.cons_append, scanAll?, if_pos (h c List.mem_cons_self),
      ih fun c hc => h c (List.mem_cons_of_mem _ hc)]

/-! ## Texts and their tokens -/

/-- In front of whatever ends a numeral, a text is split into the given tokens. -/
def Writes (cs : List Char) (ts : List Token) : Prop :=
  ∀ acc rest, Ends rest → scanAll? acc (cs ++ rest) = scanAll? (ts.reverse ++ acc) rest

/-- A token writes itself. -/
theorem writes_render (t : Token) : Writes t.render [t] := fun _ _ h =>
  scanAll?_render_append t h

/-- Texts write their tokens one after another if the second cannot continue a numeral. -/
theorem Writes.append (h : Writes cs ts) (h' : Writes ds us)
    (hends : ∀ rest, Ends rest → Ends (ds ++ rest)) : Writes (cs ++ ds) (ts ++ us) :=
  fun acc rest hrest => by
    rw [List.append_assoc, h _ _ (hends rest hrest), h' _ _ hrest, List.reverse_append,
      List.append_assoc]

/-- Blanks in front write nothing. -/
theorem Writes.after_blanks (h : Writes ds us) (hcs : ∀ c ∈ cs, isBlank c = true) :
    Writes (cs ++ ds) us := fun acc rest hrest => by
  rw [List.append_assoc, scanAll?_blanks hcs, h _ _ hrest]

/-- A line break and an indentation are blanks. -/
theorem isBlank_of_mem_newline (level : Nat) : ∀ c ∈ newline level, isBlank c = true := by
  intro c hc
  rcases List.mem_cons.mp hc with rfl | hc
  · rfl
  · rw [List.eq_of_mem_replicate hc]
    rfl

/-- A line break ends a numeral. -/
theorem ends_newline_append {level : Nat} : Ends (newline level ++ cs) := ends_cons (by decide)

/-- A whole text that writes tokens is split into them. -/
theorem Writes.scanAll?_eq (h : Writes cs ts) : scanAll? [] cs = some ts := by
  have hall := h [] [] ends_nil
  rwa [List.append_nil, List.append_nil, scanAll?, List.reverse_reverse] at hall

/-- A key in front of a value's text, as it stands in an object. -/
theorem Writes.after_key (h : Writes ds us) (key : Option String) (level : Nat) :
    Writes (newline level ++ (quote key ++ (colon.render ++ ([' '] ++ ds))))
      (.string key :: .colon :: us) := by
  have hvalue : Writes ([' '] ++ ds) us := h.after_blanks (by simp [isBlank])
  have hcolon : Writes (colon.render ++ ([' '] ++ ds)) (.colon :: us) :=
    (writes_render .colon).append hvalue fun _ _ => ends_cons (by decide)
  have hkey : Writes (quote key ++ (colon.render ++ ([' '] ++ ds))) (.string key :: .colon :: us) :=
    (writes_render (.string key)).append hcolon fun _ _ => ends_cons (by decide)
  exact hkey.after_blanks (isBlank_of_mem_newline level)

/-- Lines between an opening and a closing token. -/
theorem Writes.enclose (h : Writes cs ts) (opening closing : Token) (level : Nat)
    (hcs : ∀ rest, Ends (cs ++ rest)) :
    Writes (opening.render ++ cs ++ newline level ++ closing.render)
      (opening :: ts ++ [closing]) := by
  have hopened : Writes (opening.render ++ cs) (opening :: ts) :=
    (writes_render opening).append h fun rest _ => hcs rest
  have hclosed : Writes (newline level ++ closing.render) [closing] :=
    (writes_render closing).after_blanks (isBlank_of_mem_newline level)
  rw [List.append_assoc]
  exact hopened.append hclosed fun rest _ => by
    rw [List.append_assoc]
    exact ends_newline_append

end Token

/-! ## The lines of a document -/

section Lines

open Token
open Numeral (Ends ends_cons)

/-- The lines of elements start with a line break. -/
theorem ends_prettyElements_append (level : Nat) (j : Json) (l : List Json) (cs : List Char) :
    Ends (prettyElements level (j :: l) ++ cs) := by
  cases l <;> simp only [prettyElements, List.append_assoc] <;> exact ends_newline_append

/-- The lines of members start with a line break. -/
theorem ends_prettyMembers_append (level : Nat) (m : Option String × Json)
    (l : List (Option String × Json)) (cs : List Char) :
    Ends (prettyMembers level (m :: l) ++ cs) := by
  cases l <;> simp only [prettyMembers, List.append_assoc] <;> exact ends_newline_append

mutual

/-- The lines of a document write its tokens. -/
theorem writes_prettyAt (level : Nat) : (j : Json) → Writes (prettyAt level j) (tokens j)
  | null => writes_render .null
  | boolean b => writes_render (.boolean b)
  | number n => writes_render (.numeral n)
  | string s => writes_render (.string s)
  | array [] => (writes_render .openArray).append (writes_render .closeArray) fun _ _ =>
      ends_cons (by decide)
  | array (j :: l) =>
    (writes_prettyElements (level + 1) (j :: l)).enclose .openArray .closeArray level
      (ends_prettyElements_append (level + 1) j l)
  | object [] => (writes_render .openObject).append (writes_render .closeObject) fun _ _ =>
      ends_cons (by decide)
  | object (m :: l) =>
    (writes_prettyMembers (level + 1) (m :: l)).enclose .openObject .closeObject level
      (ends_prettyMembers_append (level + 1) m l)

/-- The lines of elements write their tokens. -/
theorem writes_prettyElements (level : Nat) :
    (l : List Json) → Writes (prettyElements level l) (elementTokens l)
  | [] => fun _ _ _ => rfl
  | [j] => (writes_prettyAt level j).after_blanks (isBlank_of_mem_newline level)
  | j :: k :: l => by
    have hrest : Writes (comma.render ++ prettyElements level (k :: l))
        (.comma :: elementTokens (k :: l)) :=
      (writes_render .comma).append (writes_prettyElements level (k :: l)) fun rest _ =>
        ends_prettyElements_append level k l rest
    have hall := (writes_prettyAt level j).append hrest fun _ _ => ends_cons (by decide)
    simpa only [prettyElements, elementTokens, List.append_assoc] using
      hall.after_blanks (isBlank_of_mem_newline level)

/-- The lines of members write their tokens. -/
theorem writes_prettyMembers (level : Nat) :
    (l : List (Option String × Json)) → Writes (prettyMembers level l) (memberTokens l)
  | [] => fun _ _ _ => rfl
  | [(key, j)] => by
    simpa only [prettyMembers, memberTokens, List.append_assoc] using
      (writes_prettyAt level j).after_key key level
  | (key, j) :: m :: l => by
    have hrest : Writes (comma.render ++ prettyMembers level (m :: l))
        (.comma :: memberTokens (m :: l)) :=
      (writes_render .comma).append (writes_prettyMembers level (m :: l)) fun rest _ =>
        ends_prettyMembers_append level m l rest
    have hall := (writes_prettyAt level j).append hrest fun _ _ => ends_cons (by decide)
    simpa only [prettyMembers, memberTokens, List.append_assoc, List.cons_append] using
      hall.after_key key level

end

end Lines

/-! ## The machine -/

namespace Reader

variable {stack : List Frame} {ts : List Token}

/-- Where an array may end, an element may stand as well. -/
theorem run?_firstElement (j : Json) (l : List Json) (ts : List Token) :
    run? (.firstElement stack) (elementTokens (j :: l) ++ ts) =
      run? (.value (.elements [] :: stack)) (elementTokens (j :: l) ++ ts) := by
  cases l <;> cases j <;> rfl

/-- Where an object may end, a member may stand as well. -/
theorem run?_firstKey (m : Option String × Json) (l : List (Option String × Json))
    (ts : List Token) :
    run? (.firstKey stack) (memberTokens (m :: l) ++ ts) =
      run? (.key [] stack) (memberTokens (m :: l) ++ ts) := by
  cases l <;> rfl

mutual

/-- Behind the tokens of a value the machine has finished that value. -/
theorem run?_tokens (stack : List Frame) (ts : List Token) :
    (j : Json) → run? (.value stack) (tokens j ++ ts) = run? (finish j stack) ts
  | null => rfl
  | boolean _ => rfl
  | number _ => rfl
  | string _ => rfl
  | array [] => rfl
  | array (j :: l) => by
    rw [tokens, List.cons_append, List.cons_append, List.append_assoc]
    exact (run?_firstElement j l _).trans (run?_elementTokens stack ts [] (j :: l) nofun)
  | object [] => rfl
  | object (m :: l) => by
    rw [tokens, List.cons_append, List.cons_append, List.append_assoc]
    exact (run?_firstKey m l _).trans (run?_memberTokens stack ts [] (m :: l) nofun)

/-- Behind the tokens of elements and the closing bracket the machine has finished the array. -/
theorem run?_elementTokens (stack : List Frame) (ts : List Token) (done : List Json) :
    (l : List Json) → l ≠ [] →
      run? (.value (.elements done :: stack)) (elementTokens l ++ ([.closeArray] ++ ts)) =
        run? (finish (.array (done.reverse ++ l)) stack) ts
  | [], h => absurd rfl h
  | [j], _ => by
    rw [elementTokens, run?_tokens, ← List.reverse_cons]
    rfl
  | j :: k :: l, _ => by
    have hrest := run?_elementTokens stack ts (j :: done) (k :: l) nofun
    rw [List.reverse_cons, List.append_assoc] at hrest
    rw [elementTokens, List.append_assoc, run?_tokens]
    exact hrest

/-- Behind the tokens of members and the closing brace the machine has finished the object. -/
theorem run?_memberTokens (stack : List Frame) (ts : List Token)
    (done : List (Option String × Json)) :
    (l : List (Option String × Json)) → l ≠ [] →
      run? (.key done stack) (memberTokens l ++ ([.closeObject] ++ ts)) =
        run? (finish (.object (done.reverse ++ l)) stack) ts
  | [], h => absurd rfl h
  | [(key, j)], _ => by
    have hvalue := run?_tokens (.members done key :: stack) ([.closeObject] ++ ts) j
    rw [← List.reverse_cons]
    exact hvalue
  | (key, j) :: m :: l, _ => by
    have hvalue := run?_tokens (.members done key :: stack)
      (.comma :: memberTokens (m :: l) ++ ([.closeObject] ++ ts)) j
    have hrest := run?_memberTokens stack ts ((key, j) :: done) (m :: l) nofun
    rw [List.reverse_cons, List.append_assoc] at hrest
    rw [memberTokens, List.append_assoc]
    exact hvalue.trans hrest

end

end Reader

/-- The tokens of a document are read as that document. -/
theorem ofTokens?_tokens (j : Json) : ofTokens? (tokens j) = some j := by
  have hrun := Reader.run?_tokens [] [] j
  rw [List.append_nil] at hrun
  rw [ofTokens?, hrun]
  rfl

/-- The lines of a document are read as that document. -/
theorem parse?_pretty (j : Json) : parse? j.pretty = some j := by
  rw [parse?, pretty, String.toList_ofList, (writes_prettyAt 0 j).scanAll?_eq]
  exact ofTokens?_tokens j

end CodeAtlas.Json
