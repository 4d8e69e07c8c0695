import BrokerAdmin.Text.Blank
import BrokerAdmin.Text.Letter
import BrokerAdmin.Text.SingleQuoted

/-!
# Selectors of clients

Clients select messages in the syntax of filters, but call the headers by names of their own and speak
of persistent messages where the broker speaks of durable ones. A selector is cut into literals, words
and single characters; some words and two literals are replaced, and everything else stays as it is.
-/

namespace BrokerAdmin.Selector

/-- A selector with a literal that is not closed. -/
structure Error where
  selector : String
  deriving DecidableEq

namespace Error

/-- What is wrong with a selector. -/
def reason (_ : Error) : String := "unterminated string literal"

/-- The wording of an error. -/
def message (e : Error) : String :=
  "Invalid selector '" ++ e.selector ++ "': " ++ e.reason

end Error

/-- The broker's names for the headers that clients know by others. -/
def headers : List (String × String) :=
  [("JMSDeliveryMode", "AMQDurable"), ("JMSPriority", "AMQPriority"), ("JMSTimestamp", "AMQTimestamp"),
   ("JMSMessageID", "AMQUserID"), ("JMSExpiration", "AMQExpiration"), ("JMSXGroupID", "AMQGroupID")]

/-- The broker's words for the two ways of delivery. -/
def deliveryModes : List (String × String) :=
  [("PERSISTENT", "DURABLE"), ("NON_PERSISTENT", "NON_DURABLE")]

/-- What a table puts in place of a text; a text that it does not hold stays. -/
def replaced (table : List (String × String)) (chars : List Char) : List Char :=
  ((table.lookup (String.ofList chars)).map String.toList).getD chars

/-- Whether a word can hold a character. -/
def isWordChar (c : Char) : Bool :=
  Text.isLetterOrNumber c || c == '_' || c == '$'

/-- A piece of a selector. -/
inductive Piece where
  /-- A literal, given by what it denotes. -/
  | literal (body : List Char)
  /-- A longest run of characters that words are made of. -/
  | word (chars : List Char)
  | other (c : Char)
  deriving DecidableEq

namespace Piece

/-- The piece in the words of the broker. -/
def translate : Piece → Piece
  | literal body => literal (replaced deliveryModes body)
  | word chars => word (replaced headers chars)
  | other c => other c

/-- The piece as it is written. -/
def written : Piece → List Char
  | literal body => Text.enclosed body
  | word chars => chars
  | other c => [c]

end Piece

/-- The pieces of a selector; nothing where a literal is not closed. -/
def pieces : List Char → Option (List Piece)
  | [] => some []
  | c :: rest =>
    if c = '\'' then
      match h : Text.literal? rest with
      | none => none
      | some (body, more) =>
        have := Text.length_of_literal? h
        (pieces more).map (.literal body :: ·)
    else if isWordChar c then
      have : (rest.dropWhile isWordChar).length ≤ rest.length := (List.dropWhile_sublist _).length_le
      (pieces (rest.dropWhile isWordChar)).map (.word (c :: rest.takeWhile isWordChar) :: ·)
    else (pieces rest).map (.other c :: ·)
termination_by chars => chars.length
decreasing_by all_goals simp only [List.length_cons]; omega

/-- The characters of a selector in the words of the broker. -/
def translateChars (chars : List Char) : Option (List Char) :=
  (pieces chars).map fun pieces => pieces.flatMap fun piece => piece.translate.written

/-- The filter that a selector stands for: none where it is missing or blank. -/
def toFilter : Option String → Except Error (Option String)
  | none => .ok none
  | some selector =>
    if Text.isBlankText selector then .ok none
    else
      match translateChars selector.toList with
      | some chars => .ok (some (String.ofList chars))
      | none => .error ⟨selector⟩

end BrokerAdmin.Selector
