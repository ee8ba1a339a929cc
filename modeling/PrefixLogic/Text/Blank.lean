import PrefixLogic.Text.CodeRanges

/-!
# Blank characters

Blank characters separate tokens and are dropped at both ends of a line. They are the white
space of Unicode together with the four separators U+001C to U+001F; the zero-width characters
are not among them.
-/

namespace PrefixLogic.Text

/-- The 29 blank characters. -/
def blankRanges : CodeRanges :=
  [(0x09, 0x0D), (0x1C, 0x20), (0x85, 0x85), (0xA0, 0xA0), (0x1680, 0x1680), (0x2000, 0x200A),
    (0x2028, 0x2029), (0x202F, 0x202F), (0x205F, 0x205F), (0x3000, 0x3000)]

/-- Whether a character is blank. -/
def isBlank (c : Char) : Bool := blankRanges.contains c

/-- Drops the characters that satisfy `p` at both ends of a text. -/
def trimBy (p : Char → Bool) (text : String) : String :=
  String.ofList ((text.toList.dropWhile p).reverse.dropWhile p).reverse

/-- Drops the blanks at both ends of a text. -/
def trim (text : String) : String := trimBy isBlank text

/-- A text without any character that is not blank. -/
def isBlankText (text : String) : Bool := text.toList.all isBlank

/-- No character between the space and the first control character after ASCII is blank. -/
theorem isBlank_eq_false_of_ascii {c : Char} (hlow : 0x20 < c.toNat) (hhigh : c.toNat < 0x85) :
    isBlank c = false := by
  rw [isBlank, ← Bool.not_eq_true, CodeRanges.contains_iff]
  rintro ⟨range, hrange, hfrom, hto⟩
  simp only [blankRanges, List.mem_cons, List.not_mem_nil, or_false] at hrange
  rcases hrange with rfl | rfl | rfl | rfl | rfl | rfl | rfl | rfl | rfl | rfl <;> omega

end PrefixLogic.Text
