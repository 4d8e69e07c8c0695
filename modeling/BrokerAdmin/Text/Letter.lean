import BrokerAdmin.Text.Alphabetic
import BrokerAdmin.Text.Numeric
import BrokerAdmin.Text.Ranges

/-!
# Letters, numbers and cases

Letters and numbers are those of Unicode. Changes of case are those of ASCII only: keywords and
configured names are matched in either case of the Latin letters and nowhere else.
-/

namespace BrokerAdmin.Text

/-- Whether a character is alphabetic; ASCII characters are told without the table. -/
def isLetter (c : Char) : Bool :=
  if c.toNat < 0x80 then c.isAlpha else inRanges alphabeticRanges c.toNat

/-- Whether a character is numeric; ASCII characters are told without the table. -/
def isNumber (c : Char) : Bool :=
  if c.toNat < 0x80 then c.isDigit else inRanges numericRanges c.toNat

/-- Whether a character is alphabetic or numeric. -/
def isLetterOrNumber (c : Char) : Bool :=
  isLetter c || isNumber c

/-- The text with its ASCII letters in upper case. -/
def upper (text : String) : String :=
  String.ofList (text.toList.map Char.toUpper)

/-- The text with its ASCII letters in lower case. -/
def lower (text : String) : String :=
  String.ofList (text.toList.map Char.toLower)

end BrokerAdmin.Text
