import BrokerAdmin.Text.Hexadecimal
import BrokerAdmin.Toml.Rules

/-!
# Texts in TOML

A text stands between quotes on one line, or between triple quotes over several. Double quotes allow
escapes, single quotes do not. Control characters other than the tab never stand in a text as they are.
A line break stands in it as it is written or as a line feed, which the rules say.
-/

namespace BrokerAdmin.Toml

/-- Whether a character may stand in a text or in a comment. -/
def isPlain (c : Char) : Bool :=
  c == '\t' || (decide (0x20 ≤ c.toNat) && c.toNat != 0x7f)

/-- Whether a character is white space within a line. -/
def isSpace (c : Char) : Bool :=
  c == ' ' || c == '\t'

/-- The text after the white space within a line. -/
def skipSpace (chars : List Char) : List Char :=
  chars.dropWhile isSpace

/-- The text after a line break, if there is one here. -/
def lineBreak? : List Char → Option (List Char)
  | '\n' :: rest => some rest
  | '\r' :: '\n' :: rest => some rest
  | _ => none

/-- The line break after a carriage return, as it stands in a text. -/
def afterReturn (rules : Rules) : List Char :=
  if rules.keepsLineBreaks then ['\r', '\n'] else ['\n']

/-- The character that an escape of one letter stands for. -/
def escapeLetter? (rules : Rules) : Char → Option Char
  | 'b' => some '\x08'
  | 't' => some '\t'
  | 'n' => some '\n'
  | 'f' => some '\x0c'
  | 'r' => some '\r'
  | '"' => some '"'
  | '\\' => some '\\'
  | 'e' => if rules.version11 then some '\x1b' else none
  | _ => none

/-- The character that a number of hexadecimal digits stands for, and what follows them. -/
def codePoint? (count : Nat) (chars : List Char) : Option (Char × List Char) := do
  let (code, rest) ← Text.hexDigits? count chars
  if code < 0xD800 ∨ (0xDFFF < code ∧ code < 0x110000) then some (Char.ofNat code, rest) else none

/-- The character that stands after a backslash, and what follows it. -/
def escape? (rules : Rules) : List Char → Option (Char × List Char)
  | [] => none
  | 'u' :: rest => codePoint? 4 rest
  | 'U' :: rest => codePoint? 8 rest
  | 'x' :: rest => if rules.version11 then codePoint? 2 rest else none
  | c :: rest => (escapeLetter? rules c).map fun c => (c, rest)

/-- What a reader gives for a text after its opening quote: its characters, and what follows its
closing quote. -/
abbrev TextReading := Option (List Char × List Char)

/-- A text with more characters in front. -/
def TextReading.after (front : List Char) (reading : TextReading) : TextReading :=
  reading.map fun (body, rest) => (front ++ body, rest)

/-- Go on after an escape; it has taken some of the text, as every escape does. -/
def afterEscape (rules : Rules) (chars : List Char)
    (next : (rest : List Char) → rest.length < chars.length → TextReading) : TextReading :=
  match escape? rules chars with
  | none => none
  | some (c, rest) => if h : rest.length < chars.length then (next rest h).after [c] else none

/-- A text in double quotes. -/
def basicText (rules : Rules) (chars : List Char) : TextReading :=
  match chars with
  | [] => none
  | '"' :: rest => some ([], rest)
  | '\\' :: rest => afterEscape rules rest fun more _ => basicText rules more
  | c :: rest => if isPlain c then (basicText rules rest).after [c] else none
termination_by chars.length
decreasing_by all_goals simp only [List.length_cons]; omega

/-- A text in single quotes. -/
def literalText : List Char → TextReading
  | [] => none
  | '\'' :: rest => some ([], rest)
  | c :: rest => if isPlain c then (literalText rest).after [c] else none

/-- Whether a backslash here ends the line: there is nothing but white space before the line break. -/
def endsLine (chars : List Char) : Bool :=
  (lineBreak? (skipSpace chars)).isSome

/-- A text in triple double quotes. Up to two quotes stand right before the closing ones. White space and
line breaks are dropped while `skipping`, which a backslash at the end of a line begins. -/
def multiBasicText (rules : Rules) (skipping : Bool) (chars : List Char) : TextReading :=
  match chars with
  | [] => none
  | '"' :: '"' :: '"' :: '"' :: '"' :: rest => some (['"', '"'], rest)
  | '"' :: '"' :: '"' :: '"' :: rest => some (['"'], rest)
  | '"' :: '"' :: '"' :: rest => some ([], rest)
  | '\n' :: rest =>
    if skipping then multiBasicText rules true rest else (multiBasicText rules false rest).after ['\n']
  | '\r' :: '\n' :: rest =>
    if skipping then multiBasicText rules true rest
    else (multiBasicText rules false rest).after (afterReturn rules)
  | '\\' :: rest =>
    if endsLine rest then multiBasicText rules true rest
    else afterEscape rules rest fun more _ => multiBasicText rules false more
  | c :: rest =>
    if skipping && isSpace c then multiBasicText rules true rest
    else if isPlain c then (multiBasicText rules false rest).after [c]
    else none
termination_by chars.length
decreasing_by all_goals simp only [List.length_cons]; omega

/-- A text in triple single quotes. Up to two quotes stand right before the closing ones. -/
def multiLiteralText (rules : Rules) : List Char → TextReading
  | [] => none
  | '\'' :: '\'' :: '\'' :: '\'' :: '\'' :: rest => some (['\'', '\''], rest)
  | '\'' :: '\'' :: '\'' :: '\'' :: rest => some (['\''], rest)
  | '\'' :: '\'' :: '\'' :: rest => some ([], rest)
  | '\n' :: rest => (multiLiteralText rules rest).after ['\n']
  | '\r' :: '\n' :: rest => (multiLiteralText rules rest).after (afterReturn rules)
  | c :: rest => if isPlain c then (multiLiteralText rules rest).after [c] else none

/-- A line break right after the opening quotes does not count. -/
def afterOpening (chars : List Char) : List Char :=
  (lineBreak? chars).getD chars

/-- A text on one line, with its quotes. -/
def lineText? (rules : Rules) : List Char → TextReading
  | '"' :: rest => basicText rules rest
  | '\'' :: rest => literalText rest
  | _ => none

/-- A text with its quotes. -/
def text? (rules : Rules) : List Char → TextReading
  | '"' :: '"' :: '"' :: rest => multiBasicText rules false (afterOpening rest)
  | '\'' :: '\'' :: '\'' :: rest => multiLiteralText rules (afterOpening rest)
  | chars => lineText? rules chars

end BrokerAdmin.Toml
