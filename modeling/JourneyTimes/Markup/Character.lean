/-!
# Characters of markup

Which characters a document may hold, which of them are blanks, and which
make up the names of elements and attributes.
-/

namespace JourneyTimes.Markup

/-- Whether a character lies in one of some ranges with both ends included. -/
def inRanges (ranges : List (Nat × Nat)) (character : Char) : Bool :=
  ranges.any fun (first, last) =>
    first ≤ character.toNat && character.toNat ≤ last

/-- Space, tab and the ends of lines. -/
def isBlank (character : Char) : Bool :=
  character = ' ' || character = '\t' || character = '\n' || character = '\r'

/-- The characters that a document may hold. -/
def isAllowed (character : Char) : Bool :=
  isBlank character ||
    inRanges [(0x20, 0xd7ff), (0xe000, 0xfffd), (0x10000, 0x10ffff)] character

/-- The characters, apart from the colon, that a name may begin with. -/
def isNameStart (character : Char) : Bool :=
  inRanges
    [(0x41, 0x5a), (0x5f, 0x5f), (0x61, 0x7a), (0xc0, 0xd6), (0xd8, 0xf6),
      (0xf8, 0x2ff), (0x370, 0x37d), (0x37f, 0x1fff), (0x200c, 0x200d),
      (0x2070, 0x218f), (0x2c00, 0x2fef), (0x3001, 0xd7ff), (0xf900, 0xfdcf),
      (0xfdf0, 0xfffd), (0x10000, 0xeffff)] character

/-- The characters, apart from the colon, that a name may go on with. -/
def isNamePart (character : Char) : Bool :=
  isNameStart character ||
    inRanges
      [(0x2d, 0x2e), (0x30, 0x39), (0xb7, 0xb7), (0x300, 0x36f),
        (0x203f, 0x2040)] character

end JourneyTimes.Markup
