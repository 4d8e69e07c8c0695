import BrokerAdmin.Filter.Expr

/-!
# Reading filters

A filter is a chain of conjunctions joined by `OR`, a conjunction a chain of terms joined by `AND`, and
a term a predicate, a negated term or a filter in parentheses. A chain of one is its only
member, and a longer one is a single flat expression. `NOT` and parentheses may be nested to a fixed
depth: what is left of it is the allowance with which a term is read, and the terms of a chain all have
the same allowance.
-/

namespace BrokerAdmin.Filter

/-- How deep `NOT` and parentheses may be nested. -/
def maxNesting : Nat := 128

/-- An expression read from tokens, and the tokens that follow it. -/
abbrev Reading := Except Error (Expr × List Token)

/-- A literal among the tokens. -/
def Literal.ofToken? : Token → Option Literal
  | .text s => some (.text s)
  | .number x => some (.number x)
  | .truth b => some (.truth b)
  | _ => none

/-- The literal after a comparison with a name. -/
def comparisonWith (name : String) (op : Comparison) (tokens : List Token) : Reading :=
  match tokens with
  | [] => .error (.noLiteral name none)
  | token :: rest =>
    match Literal.ofToken? token with
    | some literal => .ok (.compare name op literal, rest)
    | none => .error (.noLiteral name (some token))

/-- The rest of a predicate whose name has been read. -/
def predicate (name : String) : List Token → Reading
  | .comparison op :: rest => comparisonWith name op rest
  | .is :: .not :: .null :: rest => .ok (.isNull name false, rest)
  | .is :: .null :: rest => .ok (.isNull name true, rest)
  | .is :: _ => .error (.noNull name)
  | tokens => .error (.noOperator name tokens.head?)

/-- The further terms of a chain, each after a separator; at most `limit` of them. -/
def links (separator : Token) (term : List Token → Reading) :
    Nat → List Token → Except Error (List Expr × List Token)
  | limit + 1, token :: rest =>
    if token = separator then
      match term rest with
      | .error e => .error e
      | .ok (e, rest) => (links separator term limit rest).map fun (es, rest) => (e :: es, rest)
    else .ok ([], token :: rest)
  | _, tokens => .ok ([], tokens)

/-- A chain of terms between separators; no more can follow than there are tokens. -/
def chain (separator : Token) (join : List Expr → Expr) (term : List Token → Reading)
    (tokens : List Token) : Reading :=
  match term tokens with
  | .error e => .error e
  | .ok (first, rest) =>
    (links separator term rest.length rest).map fun (more, rest) =>
      (if more.isEmpty then first else join (first :: more), rest)

/-- A chain of terms joined by `AND`. -/
def conjunction (term : List Token → Reading) : List Token → Reading :=
  chain .and .all term

/-- A chain of conjunctions joined by `OR`. -/
def disjunction (term : List Token → Reading) : List Token → Reading :=
  chain .or .any (conjunction term)

/-- A filter in parentheses, the opening one having been read. -/
def group (inner : List Token → Reading) (tokens : List Token) : Reading :=
  match inner tokens with
  | .error e => .error e
  | .ok (e, .rightParen :: rest) => .ok (e, rest)
  | .ok _ => .error .unclosedParenthesis

/-- A term in which `NOT` and parentheses may be nested as deep as the allowance. -/
def term : Nat → List Token → Reading
  | _, .ident name :: rest => predicate name rest
  | 0, .not :: _ => .error .nestedTooDeeply
  | 0, .leftParen :: _ => .error .nestedTooDeeply
  | allowance + 1, .not :: rest => (term allowance rest).map fun (e, rest) => (.not e, rest)
  | allowance + 1, .leftParen :: rest => group (disjunction (term allowance)) rest
  | _, tokens => .error (.noIdentifier tokens.head?)

/-- An expression and what follows it, with the full allowance. -/
def expression (tokens : List Token) : Reading :=
  disjunction (term maxNesting) tokens

/-- The expression that a list of tokens denotes as a whole. -/
def ofTokens (tokens : List Token) : Except Error Expr :=
  match expression tokens with
  | .error e => .error e
  | .ok (e, []) => .ok e
  | .ok (_, _ :: _) => .error .trailingInput

/-- The expression that a text denotes. -/
def parse (text : String) : Except Error Expr :=
  match scan text.toList with
  | .error e => .error e
  | .ok [] => .error .empty
  | .ok tokens => ofTokens tokens

/-- The expression that an optional text denotes; none where it is missing or blank. -/
def parseOptional : Option String → Except Error (Option Expr)
  | none => .ok none
  | some text => if Text.isBlankText text then .ok none else (parse text).map some

end BrokerAdmin.Filter
