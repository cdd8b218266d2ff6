/-!
# Blank characters and trimming

`isBlank` is the Unicode property `White_Space`, and `trim` cuts the characters of that property off
both ends of a text. A text is blank when nothing is left of it.
-/

namespace CodeAtlas.Text

/-- The characters with the Unicode property `White_Space`. -/
def isBlank (c : Char) : Bool :=
  let n := c.toNat
  (0x9 ≤ n && n ≤ 0xD) || n == 0x20 || n == 0x85 || n == 0xA0 || n == 0x1680 ||
    (0x2000 ≤ n && n ≤ 0x200A) || n == 0x2028 || n == 0x2029 || n == 0x202F || n == 0x205F ||
    n == 0x3000

/-- `trim` on the characters of a text. -/
def trimList (cs : List Char) : List Char :=
  ((cs.dropWhile isBlank).reverse.dropWhile isBlank).reverse

/-- A text without the blanks at its two ends. -/
def trim (s : String) : String := String.ofList (trimList s.toList)

/-- A blank text trims to nothing. -/
theorem trimList_eq_nil {cs : List Char} (h : cs.all isBlank = true) : trimList cs = [] := by
  have : cs.dropWhile isBlank = [] := by
    induction cs with
    | nil => rfl
    | cons c cs ih => simp_all [List.dropWhile]
  simp [trimList, this]

end CodeAtlas.Text
