import CodeAtlas.Config.Override
import CodeAtlas.Proofs.Numerals

/-!
# The numbers that texts write

What a text writes is said by grammars that no reader occurs in: a count is a list of digits with
or without a plus sign (`Override.WritesCount`), a number is an infinity, no number or a decimal
number, each with or without a sign (`Override.Writes`).

The readers follow the grammars. A text is read as what it writes: `Override.count?_eq`, which also
says what becomes of a count that is too large, and `Override.number?_eq`. What is read off a text
is written in it: `Override.writesCount_of_count?` and `Override.writes_of_number?`. A reader takes
one part after another, and each part stops where the next one starts.
-/

namespace CodeAtlas.Override

open Digit (Stops)

variable {cs : List Char} {n : Nat} {x : Float} {negative : Bool}

/-! ## The grammars -/

/-- Digits write a count, with or without a plus sign. -/
inductive WritesCount : List Char → Nat → Prop
  | plain {ds : List Digit} (hds : ds ≠ []) : WritesCount (ds.map Digit.toChar) (Digit.toNat ds)
  | plus {ds : List Digit} (hds : ds ≠ []) :
      WritesCount ('+' :: ds.map Digit.toChar) (Digit.toNat ds)

/-- A sign, and whether it is a minus sign. -/
inductive WritesSign : List Char → Bool → Prop
  | absent : WritesSign [] false
  | plus : WritesSign ['+'] false
  | minus : WritesSign ['-'] true

/-- The digits of a decimal number as one number, and how many of them stand behind the point. One
of the two sides of a point may be empty. -/
inductive WritesDigits : List Char → Nat → Nat → Prop
  | whole {ds : List Digit} (hds : ds ≠ []) :
      WritesDigits (ds.map Digit.toChar) (Digit.toNat ds) 0
  | pointed {ds fraction : List Digit} (hds : ds ++ fraction ≠ []) :
      WritesDigits (ds.map Digit.toChar ++ '.' :: fraction.map Digit.toChar)
        (Digit.toNat (ds ++ fraction)) fraction.length

/-- The exponent of a decimal number behind its mark; without a mark it is zero. -/
inductive WritesExponent : List Char → Int → Prop
  | absent : WritesExponent [] 0
  | marked {mark : Char} {sign : List Char} {ds : List Digit} {negative : Bool}
      (hmark : mark = 'e' ∨ mark = 'E') (hsign : WritesSign sign negative) (hds : ds ≠ []) :
      WritesExponent (mark :: (sign ++ ds.map Digit.toChar))
        (if negative then -(Digit.toNat ds : Int) else Digit.toNat ds)

/-- A text is a word, in any case. -/
def Spells (cs : List Char) (word : String) : Prop := cs.map Char.toLower = word.toList

/-- A number without its sign: a word in any case, or the binary64 number nearest to a decimal
number. The sign of a decimal number is part of what is rounded. -/
inductive WritesUnsigned (negative : Bool) : List Char → Float → Prop
  | infinity {word : List Char} (hword : Spells word "inf" ∨ Spells word "infinity") :
      WritesUnsigned negative word (if negative then -(1.0 / 0.0) else 1.0 / 0.0)
  | nan {word : List Char} (hword : Spells word "nan") :
      WritesUnsigned negative word (if negative then -(0.0 / 0.0) else 0.0 / 0.0)
  | decimal {digits exponent : List Char} {m k : Nat} {e : Int} (hdigits : WritesDigits digits m k)
      (hexponent : WritesExponent exponent e) :
      WritesUnsigned negative (digits ++ exponent) (Numeral.nearestFloat negative m (e - k))

/-- A number with or without a sign. -/
inductive Writes : List Char → Float → Prop
  | signed {sign cs : List Char} {negative : Bool} {x : Float} (hsign : WritesSign sign negative)
      (hcs : WritesUnsigned negative cs x) : Writes (sign ++ cs) x

/-! ## Digits -/

/-- Digits start with no sign. -/
theorem head?_map_toChar_ne (ds : List Digit) :
    ∀ c ∈ (ds.map Digit.toChar).head?, c ≠ '+' ∧ c ≠ '-' := by
  intro c hc
  obtain ⟨d, -, rfl⟩ := List.mem_map.mp (List.mem_of_mem_head? hc)
  exact d.toChar_ne_sign

/-- Digits alone are read to the end. -/
theorem scanDigits?_map {ds : List Digit} (hds : ds ≠ []) :
    Numeral.scanDigits? (ds.map Digit.toChar) = some (ds, []) := by
  have hscan := Numeral.scanDigits?_append hds Numeral.ends_nil.stops
  rwa [List.append_nil] at hscan

/-- What is read as digits to the end of a text is written by them. -/
theorem eq_map_of_scanDigits? {ds : List Digit} (h : Numeral.scanDigits? cs = some (ds, [])) :
    ds ≠ [] ∧ cs = ds.map Digit.toChar := by
  obtain ⟨hds, hcs, -⟩ := Numeral.scanDigits?_eq_some_iff.mp h
  exact ⟨hds, by rwa [List.append_nil] at hcs⟩

/-! ## Reading a count -/

/-- What `count?` reads behind the place of the plus sign. -/
def digitCount? (cs : List Char) : Option UInt64 :=
  (Numeral.scanDigits? cs).bind fun (ds, rest) =>
    if rest.isEmpty && Digit.toNat ds < UInt64.size then some (UInt64.ofNat (Digit.toNat ds))
    else none

/-- Without a plus sign in front, the digits are read from the start. -/
theorem count?_of_ne (h : ∀ c ∈ cs.head?, c ≠ '+') : count? cs = digitCount? cs := by
  unfold count?
  split
  · exact absurd rfl (h '+' rfl)
  · rfl

/-- Digits are read as the count that they write, if it is below `2 ^ 64`. -/
theorem digitCount?_map {ds : List Digit} (hds : ds ≠ []) :
    digitCount? (ds.map Digit.toChar) =
      if Digit.toNat ds < UInt64.size then some (UInt64.ofNat (Digit.toNat ds)) else none := by
  simp [digitCount?, scanDigits?_map hds]

/-- What is read as a count is written by digits. -/
theorem exists_of_digitCount? {k : UInt64} (h : digitCount? cs = some k) :
    ∃ ds : List Digit, ds ≠ [] ∧ cs = ds.map Digit.toChar := by
  obtain ⟨⟨ds, rest⟩, hscan, hk⟩ := Option.bind_eq_some_iff.mp h
  cases rest with
  | nil => exact ⟨ds, eq_map_of_scanDigits? hscan⟩
  | cons c rest => simp at hk

/-- A count that a text writes is read off it, if it is below `2 ^ 64`. -/
theorem count?_eq (h : WritesCount cs n) :
    count? cs = if n < UInt64.size then some (UInt64.ofNat n) else none := by
  cases h with
  | plus hds => exact digitCount?_map hds
  | @plain ds hds =>
    rw [count?_of_ne fun c hc => (head?_map_toChar_ne ds c hc).1, digitCount?_map hds]

/-- What is read as a count is written as one. -/
theorem writesCount_of_count? {k : UInt64} (h : count? cs = some k) : ∃ n, WritesCount cs n := by
  have hplain : ∀ {cs}, digitCount? cs = some k → ∃ n, WritesCount cs n := by
    intro cs h
    obtain ⟨ds, hds, rfl⟩ := exists_of_digitCount? h
    exact ⟨_, .plain hds⟩
  cases cs with
  | nil => exact hplain h
  | cons c rest =>
    by_cases hplus : c = '+'
    · subst hplus
      obtain ⟨ds, hds, rfl⟩ := exists_of_digitCount? h
      exact ⟨_, .plus hds⟩
    · rw [count?_of_ne (by simpa using hplus)] at h
      exact hplain h

/-! ## Reading a number -/

/-- A sign is read off a text that goes on with another character. -/
theorem scanSign_append {sign : List Char} (hsign : WritesSign sign negative)
    (hcs : ∀ c ∈ cs.head?, c ≠ '+' ∧ c ≠ '-') :
    Numeral.scanSign true (sign ++ cs) = (negative, cs) := by
  cases hsign with
  | plus => rfl
  | minus => rfl
  | absent => exact Numeral.scanSign_of_ne true hcs

/-- The sign that is read is written in front. -/
theorem exists_scanSign (cs : List Char) :
    ∃ sign, WritesSign sign (Numeral.scanSign true cs).1 ∧
      sign ++ (Numeral.scanSign true cs).2 = cs := by
  unfold Numeral.scanSign
  split
  · exact ⟨['-'], .minus, rfl⟩
  · exact ⟨['+'], .plus, rfl⟩
  · exact ⟨[], .absent, rfl⟩

/-- The digits of a number are one digit or a point at the front of a text. -/
theorem WritesDigits.head {m k : Nat} (h : WritesDigits cs m k) (rest : List Char) :
    ∀ c ∈ (cs ++ rest).head?, c = '.' ∨ ∃ d : Digit, c = d.toChar := by
  intro c hc
  cases h with
  | @whole ds hds =>
    obtain ⟨d, ds, rfl⟩ := List.exists_cons_of_ne_nil hds
    obtain rfl : d.toChar = c := by simpa using hc
    exact .inr ⟨d, rfl⟩
  | @pointed ds fraction hds =>
    cases ds with
    | nil =>
      obtain rfl : '.' = c := by simpa using hc
      exact .inl rfl
    | cons d ds =>
      obtain rfl : d.toChar = c := by simpa using hc
      exact .inr ⟨d, rfl⟩

/-- An exponent that a text writes is read to the end of the text. -/
theorem scanExponent?_eq {e : Int} (h : WritesExponent cs e) :
    ∃ e?, Numeral.scanExponent? cs = some (e?, []) ∧ e?.getD 0 = e := by
  cases h with
  | absent => exact ⟨none, rfl, rfl⟩
  | @marked mark sign ds negative hmark hsign hds =>
    refine ⟨some (if negative then -(Digit.toNat ds : Int) else Digit.toNat ds), ?_, rfl⟩
    rw [Numeral.scanExponent?, if_pos hmark, scanSign_append hsign (head?_map_toChar_ne ds)]
    simp only [scanDigits?_map hds, Option.map_some]

/-- The exponent that is read to the end of a text is written in it. -/
theorem writesExponent_of_scanExponent? {e? : Option Int}
    (h : Numeral.scanExponent? cs = some (e?, [])) : WritesExponent cs (e?.getD 0) := by
  unfold Numeral.scanExponent? at h
  split at h
  · rename_i c cs
    split at h
    · rename_i hmark
      obtain ⟨sign, hsign, hsplit⟩ := exists_scanSign cs
      generalize Numeral.scanSign true cs = signed at h hsign hsplit
      obtain ⟨negative, unsigned⟩ := signed
      subst hsplit
      obtain ⟨⟨ds, rest⟩, hscan, heq⟩ := Option.map_eq_some_iff.mp h
      cases heq
      obtain ⟨hds, hcs⟩ := eq_map_of_scanDigits? hscan
      exact hcs ▸ .marked hmark hsign hds
    · cases h
  · cases h
    exact .absent

/-- What `decimal?` reads behind the digits in front of a point: the digits behind it, if there is a
point. -/
def scanPoint : List Char → List Digit × List Char
  | '.' :: rest => Digit.span rest
  | rest => ([], rest)

/-- Without a point there are no digits behind it. -/
theorem scanPoint_of_ne (h : ∀ c ∈ cs.head?, c ≠ '.') : scanPoint cs = ([], cs) := by
  unfold scanPoint
  split
  · exact absurd rfl (h '.' rfl)
  · rfl

/-- A decimal number is read part after part. -/
theorem decimal?_eq_scan (negative : Bool) (cs : List Char) :
    decimal? negative cs =
      if (Digit.span cs).1.isEmpty && (scanPoint (Digit.span cs).2).1.isEmpty then none
      else (Numeral.scanExponent? (scanPoint (Digit.span cs).2).2).bind fun (exponent, rest) =>
        if rest.isEmpty then
          some (Numeral.nearestFloat negative
            (Digit.toNat ((Digit.span cs).1 ++ (scanPoint (Digit.span cs).2).1))
            (exponent.getD 0 - (scanPoint (Digit.span cs).2).1.length))
        else none := rfl

/-- An exponent starts with its mark. -/
theorem WritesExponent.head {e : Int} (h : WritesExponent cs e) :
    ∀ c ∈ cs.head?, c = 'e' ∨ c = 'E' := by
  cases h with
  | absent => simp
  | marked hmark => simpa using hmark

/-- A decimal number that a text writes is read off it. -/
theorem decimal?_eq {digits exponent : List Char} {m k : Nat} {e : Int}
    (hdigits : WritesDigits digits m k) (hexponent : WritesExponent exponent e) :
    decimal? negative (digits ++ exponent) = some (Numeral.nearestFloat negative m (e - k)) := by
  obtain ⟨e?, hscan, rfl⟩ := scanExponent?_eq hexponent
  have hstops : Stops exponent := by
    intro c hc
    rcases hexponent.head c hc with rfl | rfl <;> rfl
  have hpoint : ∀ c ∈ exponent.head?, c ≠ '.' := by
    intro c hc
    rcases hexponent.head c hc with rfl | rfl <;> decide
  rw [decimal?_eq_scan]
  cases hdigits with
  | whole hds => simp [Digit.span_append hstops, scanPoint_of_ne hpoint, hds, hscan]
  | @pointed ds fraction hds =>
    have hspan : Digit.span (ds.map Digit.toChar ++ '.' :: (fraction.map Digit.toChar ++ exponent))
        = (ds, '.' :: (fraction.map Digit.toChar ++ exponent)) :=
      Digit.span_append (Digit.stops_cons rfl)
    have hne : ¬ (ds.isEmpty && fraction.isEmpty) = true := by simpa using hds
    rw [List.append_assoc, List.cons_append, hspan]
    simp only [scanPoint, Digit.span_append hstops, if_neg hne, hscan]
    rfl

/-- The digits that are read on the two sides of a point are written in front of what follows. -/
theorem exists_scanPoint (cs : List Char)
    (hne : (Digit.span cs).1 ++ (scanPoint (Digit.span cs).2).1 ≠ []) :
    ∃ digits, WritesDigits digits
        (Digit.toNat ((Digit.span cs).1 ++ (scanPoint (Digit.span cs).2).1))
        (scanPoint (Digit.span cs).2).1.length ∧
      digits ++ (scanPoint (Digit.span cs).2).2 = cs := by
  obtain ⟨hcs, -⟩ := Digit.span_eq_iff.mp (rfl : Digit.span cs = (_, _))
  generalize Digit.span cs = front at hne hcs ⊢
  obtain ⟨ds, point⟩ := front
  subst hcs
  -- without a point in front of it, the rest belongs to the exponent
  by_cases hpoint : ∀ c ∈ point.head?, c ≠ '.'
  · rw [scanPoint_of_ne hpoint, List.append_nil] at hne ⊢
    exact ⟨_, .whole hne, rfl⟩
  · obtain ⟨behind, rfl⟩ : ∃ behind, point = '.' :: behind := by
      cases point with
      | nil => simp at hpoint
      | cons c behind =>
        obtain rfl : c = '.' := by simpa using hpoint
        exact ⟨behind, rfl⟩
    obtain ⟨hbehind, -⟩ := Digit.span_eq_iff.mp (rfl : Digit.span behind = (_, _))
    refine ⟨_, .pointed hne, ?_⟩
    rw [List.append_assoc, List.cons_append]
    exact congrArg (ds.map Digit.toChar ++ '.' :: ·) hbehind.symm

/-- What is read as a decimal number is written as one. -/
theorem writes_of_decimal? (h : decimal? negative cs = some x) : WritesUnsigned negative cs x := by
  rw [decimal?_eq_scan] at h
  split at h
  · cases h
  · rename_i hne
    obtain ⟨⟨e?, rest⟩, hexponent, hx⟩ := Option.bind_eq_some_iff.mp h
    cases rest with
    | cons c rest => simp at hx
    | nil =>
      obtain rfl := Option.some.inj hx
      obtain ⟨digits, hdigits, hsplit⟩ := exists_scanPoint cs (by simpa using hne)
      have hdecimal : WritesUnsigned negative (digits ++ _) _ :=
        .decimal hdigits (writesExponent_of_scanExponent? hexponent)
      rwa [hsplit] at hdecimal

/-! ### Words and signs -/

/-- What is read behind the sign. -/
def unsigned? (negative : Bool) (cs : List Char) : Option Float :=
  match word? cs with
  | some x => some (if negative then -x else x)
  | none => decimal? negative cs

/-- A number is a sign and what is read behind it. -/
theorem number?_eq_unsigned? (cs : List Char) :
    number? cs = unsigned? (Numeral.scanSign true cs).1 (Numeral.scanSign true cs).2 := rfl

/-- A text is a word if its characters in lower case are. -/
theorem spells_iff {word : String} :
    Spells cs word ↔ String.ofList (cs.map Char.toLower) = word := by
  rw [Spells, ← String.toList_inj, String.toList_ofList]

/-- A word starts with its first letter, in any case. -/
theorem Spells.head {word : String} {c letter : Char} {letters : List Char} (h : Spells cs word)
    (hc : c ∈ cs.head?) (hword : word.toList = letter :: letters) :
    c.toLower = letter := by
  have := congrArg List.head? (h.trans hword)
  rw [List.head?_map, Option.mem_def.mp hc] at this
  exact Option.some.inj this

/-- The words stand for an infinity and for no number. -/
theorem word?_eq_some_iff : word? cs = some x ↔
    (Spells cs "inf" ∨ Spells cs "infinity") ∧ 1.0 / 0.0 = x ∨ Spells cs "nan" ∧ 0.0 / 0.0 = x := by
  simp only [word?, spells_iff]
  split
  · rename_i hinf
    have hnan : String.ofList (cs.map Char.toLower) ≠ "nan" := by
      intro hnan
      rcases hinf with h | h <;> exact absurd (h.symm.trans hnan) (by decide)
    simp [hinf, hnan]
  · rename_i hinf
    split
    · rename_i hnan
      simp [hnan]
    · rename_i hnan
      simp [hinf, hnan]

/-- The first character of a number without its sign belongs to a word, is a point or a digit. -/
theorem WritesUnsigned.head (h : WritesUnsigned negative cs x) : ∀ c ∈ cs.head?,
    (c.toLower = 'i' ∨ c.toLower = 'n') ∨ c = '.' ∨ ∃ d : Digit, c = d.toChar := by
  intro c hc
  cases h with
  | infinity h => exact .inl (.inl (h.elim (·.head hc rfl) (·.head hc rfl)))
  | nan h => exact .inl (.inr (h.head hc rfl))
  | decimal hdigits => exact .inr (hdigits.head _ c hc)

/-- A digit starts no word. -/
theorem toLower_toChar_ne (d : Digit) : d.toChar.toLower ≠ 'i' ∧ d.toChar.toLower ≠ 'n' := by
  revert d; decide

/-- A decimal number is no word. -/
theorem word?_eq_none (h : ∀ c ∈ cs.head?, c = '.' ∨ ∃ d : Digit, c = d.toChar) :
    word? cs = none := by
  cases cs with
  | nil => rfl
  | cons c cs =>
    have hhead : c.toLower ≠ 'i' ∧ c.toLower ≠ 'n' := by
      rcases h c rfl with rfl | ⟨d, rfl⟩
      · decide
      · exact toLower_toChar_ne d
    refine Option.eq_none_iff_forall_ne_some.mpr fun x hx => ?_
    rcases word?_eq_some_iff.mp hx with ⟨hword | hword, -⟩ | ⟨hword, -⟩
    · exact hhead.1 (hword.head rfl rfl)
    · exact hhead.1 (hword.head rfl rfl)
    · exact hhead.2 (hword.head rfl rfl)

/-- A number without its sign that a text writes is read off it. -/
theorem unsigned?_eq (h : WritesUnsigned negative cs x) : unsigned? negative cs = some x := by
  cases h with
  | infinity hword => simp [unsigned?, word?_eq_some_iff.mpr (.inl ⟨hword, rfl⟩)]
  | nan hword => simp [unsigned?, word?_eq_some_iff.mpr (.inr ⟨hword, rfl⟩)]
  | @decimal digits exponent _ _ _ hdigits hexponent =>
    rw [unsigned?, word?_eq_none (hdigits.head exponent)]
    exact decimal?_eq hdigits hexponent

/-- A number that a text writes is read off it. -/
theorem number?_eq (h : Writes cs x) : number? cs = some x := by
  cases h with
  | @signed sign cs negative x hsign hcs =>
    have hhead : ∀ c ∈ cs.head?, c ≠ '+' ∧ c ≠ '-' := by
      intro c hc
      rcases hcs.head c hc with (h | h) | rfl | ⟨d, rfl⟩
      · exact ⟨by rintro rfl; revert h; decide, by rintro rfl; revert h; decide⟩
      · exact ⟨by rintro rfl; revert h; decide, by rintro rfl; revert h; decide⟩
      · decide
      · exact d.toChar_ne_sign
    rw [number?_eq_unsigned?, scanSign_append hsign hhead]
    exact unsigned?_eq hcs

/-- What is read as a number is written as one. -/
theorem writes_of_number? (h : number? cs = some x) : Writes cs x := by
  obtain ⟨sign, hsign, hsplit⟩ := exists_scanSign cs
  rw [number?_eq_unsigned?] at h
  rw [← hsplit]
  refine .signed hsign ?_
  generalize (Numeral.scanSign true cs).1 = negative at *
  generalize (Numeral.scanSign true cs).2 = cs at *
  unfold unsigned? at h
  split at h
  · rename_i y hy
    cases h
    rcases word?_eq_some_iff.mp hy with ⟨hword, rfl⟩ | ⟨hword, rfl⟩
    · exact .infinity hword
    · exact .nan hword
  · exact writes_of_decimal? h

end CodeAtlas.Override
