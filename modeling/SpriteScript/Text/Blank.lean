import SpriteScript.Text.Ranges

/-!
# Blank characters

A character is blank if Unicode counts it as white space or as a separator of text (the four
information separators U+001C to U+001F are among them). `strip` takes the blanks off both ends.
-/

namespace SpriteScript.Text

/-- The blank code points. -/
def blankRanges : Ranges := [
  (0x9, 0xD), (0x1C, 0x20), (0x85, 0x85), (0xA0, 0xA0), (0x1680, 0x1680), (0x2000, 0x200A),
  (0x2028, 0x2029), (0x202F, 0x202F), (0x205F, 0x205F), (0x3000, 0x3000)]

def isBlank (c : Char) : Bool := blankRanges.contains c

/-- Takes characters that satisfy `p` off the end. -/
def dropEndWhile (p : Char → Bool) (cs : List Char) : List Char :=
  (cs.reverse.dropWhile p).reverse

/-- Takes the blanks off both ends. -/
def strip (cs : List Char) : List Char := dropEndWhile isBlank (cs.dropWhile isBlank)

theorem dropEndWhile_eq_self {p : Char → Bool} {cs : List Char}
    (h : ∀ c ∈ cs.getLast?, p c = false) : dropEndWhile p cs = cs := by
  unfold dropEndWhile
  cases hr : cs.reverse with
  | nil => simp_all
  | cons c r =>
    have hc : p c = false := h c (by simp [List.getLast?_eq_head?_reverse, hr])
    rw [List.dropWhile_cons_of_neg (by simp [hc]), ← hr, List.reverse_reverse]

/-- Text that neither begins nor ends with a blank is its own strip. -/
theorem strip_eq_self {cs : List Char} (hfirst : ∀ c ∈ cs.head?, isBlank c = false)
    (hlast : ∀ c ∈ cs.getLast?, isBlank c = false) : strip cs = cs := by
  have hd : cs.dropWhile isBlank = cs := by
    cases cs with
    | nil => rfl
    | cons c r => exact List.dropWhile_cons_of_neg (by simp [hfirst c rfl])
  rw [strip, hd, dropEndWhile_eq_self hlast]

end SpriteScript.Text
