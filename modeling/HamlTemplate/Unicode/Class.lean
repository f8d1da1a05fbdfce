import HamlTemplate.Unicode.Age
import HamlTemplate.Unicode.Alphabetic
import HamlTemplate.Unicode.DecimalNumber
import HamlTemplate.Unicode.GraphemeExtend
import HamlTemplate.Unicode.Mark
import HamlTemplate.Unicode.NonGraphic
import HamlTemplate.Unicode.Number

/-!
# Character classes

The classes that decide where names end, what trimming removes and which characters are
shown by number. Each is a union of Unicode properties. The class of word characters is that of
version 16.0, so it leaves out what version 17.0 has added.
-/

namespace HamlTemplate.Unicode

def whiteSpace : Ranges :=
  [(0x09, 0x0D), (0x20, 0x20), (0x85, 0x85), (0xA0, 0xA0), (0x1680, 0x1680), (0x2000, 0x200A),
   (0x2028, 0x2029), (0x202F, 0x202F), (0x205F, 0x205F), (0x3000, 0x3000)]

/-- The general category Pc. -/
private def connectorPunctuation : Ranges :=
  [(0x5F, 0x5F), (0x203F, 0x2040), (0x2054, 0x2054), (0xFE33, 0xFE34), (0xFE4D, 0xFE4F),
   (0xFF3F, 0xFF3F)]

private def joinControl : Ranges := [(0x200C, 0x200D)]

/-- White space separates words and is removed by trimming. -/
def isWhiteSpace (c : Char) : Bool := whiteSpace.covers c.toNat

/-- Letters and numbers of every script. -/
def isAlphanumeric (c : Char) : Bool :=
  alphabetic.covers c.toNat || number.covers c.toNat

/-- The characters that words are made of: letters, marks, digits, connecting punctuation such
as the underscore, and the two joiners, as far as they were assigned before version 17.0. -/
def isWord (c : Char) : Bool :=
  (alphabetic.covers c.toNat || mark.covers c.toNat || decimalNumber.covers c.toNat ||
    connectorPunctuation.covers c.toNat || joinControl.covers c.toNat) &&
    !assignedIn17.covers c.toNat

/-- A character attaches to the one before it when it extends a grapheme. -/
def isGraphemeExtender (c : Char) : Bool := graphemeExtend.covers c.toNat

/-- A character is graphic when it shows a shape of its own or is the plain space. -/
def isGraphic (c : Char) : Bool := !nonGraphic.covers c.toNat

theorem ne_of_isWhiteSpace {c d : Char} (white : isWhiteSpace c = true)
    (visible : isWhiteSpace d = false) : c ≠ d := by
  rintro rfl
  rw [white] at visible
  cases visible

/-- White space is neither a letter nor a number. -/
theorem isAlphanumeric_of_isWhiteSpace {c : Char} (white : isWhiteSpace c = true) :
    isAlphanumeric c = false := by
  have apart : ∀ n ∈ whiteSpace.points, (alphabetic.covers n || number.covers n) = false := by
    decide +kernel
  exact apart c.toNat (Ranges.mem_points_of_covers white)

end HamlTemplate.Unicode
