import BrokerAdmin.Text.Ranges

/-!
# Blank characters

Blank characters are those with the Unicode property White_Space. A text is blank when it has no
other character, and trimming drops the blank characters at both ends.
-/

namespace BrokerAdmin.Text

/-- The closed ranges of blank code points. -/
def blankRanges : List (Nat × Nat) :=
  [(0x9, 0xd), (0x20, 0x20), (0x85, 0x85), (0xa0, 0xa0), (0x1680, 0x1680), (0x2000, 0x200a),
   (0x2028, 0x2029), (0x202f, 0x202f), (0x205f, 0x205f), (0x3000, 0x3000)]

/-- Whether a character is white space. -/
def isBlank (c : Char) : Bool :=
  inRanges blankRanges c.toNat

/-- Whether a text holds nothing but white space. -/
def isBlankText (text : String) : Bool :=
  text.toList.all isBlank

/-- The characters left when white space at both ends is dropped. -/
def trimChars (chars : List Char) : List Char :=
  ((chars.dropWhile isBlank).reverse.dropWhile isBlank).reverse

/-- The text without the white space at its ends. -/
def trim (text : String) : String :=
  String.ofList (trimChars text.toList)

/-- The trimmed text, unless nothing is left of it. -/
def trimmed? (text : String) : Option String :=
  if isBlankText text then none else some (trim text)

end BrokerAdmin.Text
