import BrokerAdmin.Text.GraphemeExtend
import BrokerAdmin.Text.Ranges
import BrokerAdmin.Text.Unprintable

/-!
# Quoted texts

A text shown inside a message stands between double quotes. Quotes and backslashes are escaped, the
usual controls by a letter, and every other character that does not print or would merge with its
neighbour by its code point in lower-case hexadecimal.
-/

namespace BrokerAdmin.Text

/-- Whether a character prints as a glyph of its own. -/
def isShown (c : Char) : Bool :=
  c == ' ' || !(inRanges graphemeExtendRanges c.toNat || inRanges unprintableRanges c.toNat)

/-- A character as it stands inside a quoted text. -/
def quotedChar (c : Char) : List Char :=
  match c with
  | '\x00' => ['\\', '0']
  | '\t' => ['\\', 't']
  | '\r' => ['\\', 'r']
  | '\n' => ['\\', 'n']
  | '\\' => ['\\', '\\']
  | '"' => ['\\', '"']
  | _ =>
    if isShown c then [c]
    else ['\\', 'u', '\x7b'] ++ Nat.toDigits 16 c.toNat ++ ['\x7d']

/-- The text between double quotes, with escapes. -/
def quoted (text : String) : String :=
  String.ofList ('"' :: text.toList.flatMap quotedChar ++ ['"'])

end BrokerAdmin.Text
