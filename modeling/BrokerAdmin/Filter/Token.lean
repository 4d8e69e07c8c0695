import BrokerAdmin.Binary64.Reading
import BrokerAdmin.Binary64.Written
import BrokerAdmin.Text.Blank
import BrokerAdmin.Text.Letter
import BrokerAdmin.Text.Quoted
import BrokerAdmin.Text.SingleQuoted

/-!
# Tokens of the filter syntax

A filter is cut into identifiers, literals, comparison signs, parentheses and keywords. Keywords are
known in either case of the Latin letters. Blank characters separate tokens and are dropped.
-/

namespace BrokerAdmin.Filter

/-- A comparison between a value and a literal. -/
inductive Comparison where
  | eq | ne | lt | le | gt | ge
  deriving DecidableEq

/-- A token of a filter. -/
inductive Token where
  | ident (name : String)
  | text (value : String)
  | number (value : Binary64)
  | comparison (op : Comparison)
  | leftParen
  | rightParen
  | and
  | or
  | not
  | is
  | null
  | truth (value : Bool)
  deriving DecidableEq

/-- Why a text is no filter. -/
inductive Error where
  | empty
  | unterminatedText
  | unexpected (c : Char)
  | malformedNumber (text : String)
  | trailingInput
  | unclosedParenthesis
  | nestedTooDeeply
  | noIdentifier (found : Option Token)
  | noLiteral (name : String) (found : Option Token)
  | noNull (name : String)
  | noOperator (name : String) (found : Option Token)
  deriving DecidableEq

namespace Comparison

/-- The name of a comparison inside a message. -/
def shown : Comparison → String
  | eq => "Eq"
  | ne => "Ne"
  | lt => "Lt"
  | le => "Le"
  | gt => "Gt"
  | ge => "Ge"

/-- The sign of a comparison in a filter. -/
def sign : Comparison → List Char
  | eq => ['=']
  | ne => ['<', '>']
  | lt => ['<']
  | le => ['<', '=']
  | gt => ['>']
  | ge => ['>', '=']

end Comparison

namespace Token

/-- A token as it is shown inside a message. -/
def shown : Token → String
  | ident name => "Ident(" ++ Text.quoted name ++ ")"
  | text value => "Str(" ++ Text.quoted value ++ ")"
  | number value => "Num(" ++ value.written Binary64.tokenLayout ++ ")"
  | comparison op => "Cmp(" ++ op.shown ++ ")"
  | leftParen => "LParen"
  | rightParen => "RParen"
  | and => "And"
  | or => "Or"
  | not => "Not"
  | is => "Is"
  | null => "Null"
  | truth value => if value then "Bool(true)" else "Bool(false)"

/-- The token that was found, or that there was none. -/
def shownFound : Option Token → String
  | none => "None"
  | some token => "Some(" ++ token.shown ++ ")"

/-- The keyword that a word is, or the identifier. -/
def ofWord (word : String) : Token :=
  match Text.upper word with
  | "AND" => and
  | "OR" => or
  | "NOT" => not
  | "IS" => is
  | "NULL" => null
  | "TRUE" => truth true
  | "FALSE" => truth false
  | _ => ident word

end Token

namespace Error

/-- The wording of an error, for the filter in which it was found. -/
def message (input : String) : Error → String
  | empty => "empty filter"
  | unterminatedText => "unterminated string in '" ++ input ++ "'"
  | unexpected c => "unexpected '" ++ c.toString ++ "' in '" ++ input ++ "'"
  | malformedNumber text => "invalid number '" ++ text ++ "'"
  | trailingInput => "unexpected trailing input in '" ++ input ++ "'"
  | unclosedParenthesis => "missing ')'"
  | nestedTooDeeply => "filter nested too deeply"
  | noIdentifier found => "expected identifier, found " ++ Token.shownFound found
  | noLiteral name found => "expected literal after '" ++ name ++ "', found " ++ Token.shownFound found
  | noNull name => "expected NULL after '" ++ name ++ " IS'"
  | noOperator name found =>
    "expected operator after '" ++ name ++ "', found " ++ Token.shownFound found

end Error

/-- Whether an identifier can begin with a character. -/
def startsWord (c : Char) : Bool :=
  Text.isLetter c || c == '_' || c == '$'

/-- Whether an identifier can go on with a character. -/
def continuesWord (c : Char) : Bool :=
  Text.isLetterOrNumber c || c == '_' || c == '$' || c == '.'

/-- Whether a number can go on with a character. -/
def continuesNumber (c : Char) : Bool :=
  c.isDigit || c == '.'

/-- Whether a number begins here: with a digit, or with a minus sign and a digit. -/
def startsNumber (c : Char) (rest : List Char) : Bool :=
  c.isDigit || (c == '-' && rest.head?.any Char.isDigit)

/-- The comparison that begins here, and what follows it. -/
def comparison? (c : Char) (rest : List Char) : Option (Comparison × List Char) :=
  match c, rest with
  | '=', rest => some (.eq, rest)
  | '<', '>' :: rest => some (.ne, rest)
  | '!', '=' :: rest => some (.ne, rest)
  | '<', '=' :: rest => some (.le, rest)
  | '>', '=' :: rest => some (.ge, rest)
  | '<', rest => some (.lt, rest)
  | '>', rest => some (.gt, rest)
  | _, _ => none

/-- The token that begins with a character that is not blank, and what follows it. -/
def firstToken (c : Char) (rest : List Char) : Except Error (Token × List Char) :=
  if c = '(' then .ok (.leftParen, rest)
  else if c = ')' then .ok (.rightParen, rest)
  else if c = '\'' then
    match Text.literal? rest with
    | some (body, rest) => .ok (.text (String.ofList body), rest)
    | none => .error .unterminatedText
  else match comparison? c rest with
  | some (op, rest) => .ok (.comparison op, rest)
  | none =>
    if startsNumber c rest then
      let text := c :: rest.takeWhile continuesNumber
      match Binary64.ofText? text with
      | some value => .ok (.number value, rest.dropWhile continuesNumber)
      | none => .error (.malformedNumber (String.ofList text))
    else if startsWord c then
      .ok (.ofWord (String.ofList (c :: rest.takeWhile continuesWord)), rest.dropWhile continuesWord)
    else .error (.unexpected c)

/-- What is left after a run of characters is no longer than the text. -/
theorem length_dropWhile_le (p : Char → Bool) (chars : List Char) :
    (chars.dropWhile p).length ≤ chars.length :=
  (List.dropWhile_sublist p).length_le

/-- A comparison takes none of the text back. -/
theorem length_of_comparison? {c : Char} {rest more : List Char} {op : Comparison}
    (h : comparison? c rest = some (op, more)) : more.length ≤ rest.length := by
  unfold comparison? at h
  split at h <;> simp_all

/-- A token takes none of the text back. -/
theorem length_of_firstToken {c : Char} {rest more : List Char} {token : Token}
    (h : firstToken c rest = .ok (token, more)) : more.length ≤ rest.length := by
  unfold firstToken at h
  split at h
  · simp_all
  split at h
  · simp_all
  split at h
  · split at h
    · rename_i hliteral
      have := Text.length_of_literal? hliteral
      simp only [Except.ok.injEq, Prod.mk.injEq] at h
      rw [← h.2]
      omega
    · simp at h
  split at h
  · rename_i hop
    have := length_of_comparison? hop
    simp only [Except.ok.injEq, Prod.mk.injEq] at h
    rw [← h.2]
    omega
  split at h
  · dsimp only at h
    split at h
    · simp only [Except.ok.injEq, Prod.mk.injEq] at h
      rw [← h.2]
      exact length_dropWhile_le _ _
    · simp at h
  split at h
  · simp only [Except.ok.injEq, Prod.mk.injEq] at h
    rw [← h.2]
    exact length_dropWhile_le _ _
  · simp at h

/-- The tokens of a text. -/
def scan : List Char → Except Error (List Token)
  | [] => .ok []
  | c :: rest =>
    if Text.isBlank c then scan rest
    else
      match h : firstToken c rest with
      | .ok (token, more) =>
        have := length_of_firstToken h
        (scan more).map (token :: ·)
      | .error e => .error e
termination_by chars => chars.length
decreasing_by all_goals simp only [List.length_cons]; omega

end BrokerAdmin.Filter
