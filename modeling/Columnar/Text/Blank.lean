/-! Blank characters and the texts around them. A character is blank when it has the White_Space
property; trimming takes blanks from both ends and nothing from the middle. -/
namespace Columnar.Text

/-- The ranges of code points with the White_Space property, ends included. -/
def blankRanges : List (Nat × Nat) :=
  [(0x09, 0x0D), (0x20, 0x20), (0x85, 0x85), (0xA0, 0xA0), (0x1680, 0x1680), (0x2000, 0x200A),
   (0x2028, 0x2029), (0x202F, 0x202F), (0x205F, 0x205F), (0x3000, 0x3000)]

def isBlank (c : Char) : Bool :=
  blankRanges.any fun (low, high) => low ≤ c.toNat && c.toNat ≤ high

/-- A trailing run of blanks is dropped by dropping a leading one from the reversed text. -/
def trimEnd (text : List Char) : List Char :=
  (text.reverse.dropWhile isBlank).reverse

def trimChars (text : List Char) : List Char :=
  trimEnd (text.dropWhile isBlank)

/-- The text without its leading and trailing blanks. -/
def trim (text : String) : String :=
  String.ofList (trimChars text.toList)

def isBlankText (text : String) : Bool :=
  text.toList.all isBlank

end Columnar.Text
