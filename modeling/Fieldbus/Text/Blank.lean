import Fieldbus.Text.CodePoint

/-!
# Blanks

`isBlank` says which characters only separate others: the characters with the property
`White_Space` of the Unicode standard.  They are more than the four that core counts as whitespace
(`isBlank_of_isWhitespace`).
-/

set_option autoImplicit false

namespace Fieldbus
namespace Text

/-- The ranges of the property `White_Space`, ends included. -/
def blankRanges : List (Nat × Nat) :=
  [(0x09, 0x0D), (0x20, 0x20), (0x85, 0x85), (0xA0, 0xA0), (0x1680, 0x1680), (0x2000, 0x200A),
    (0x2028, 0x2029), (0x202F, 0x202F), (0x205F, 0x205F), (0x3000, 0x3000)]

/-- Does a character only separate others? -/
def isBlank (c : Char) : Bool := inRanges blankRanges c.toNat

/-- The text without its blanks. -/
def withoutBlanks (s : String) : String := String.ofList (s.toList.filter fun c => !isBlank c)

theorem isBlank_of_isWhitespace {c : Char} (h : c.isWhitespace = true) : isBlank c = true := by
  simp only [Char.isWhitespace, Bool.or_eq_true, decide_eq_true_eq] at h
  rcases h with ((rfl | rfl) | rfl) | rfl <;> decide

end Text
end Fieldbus
