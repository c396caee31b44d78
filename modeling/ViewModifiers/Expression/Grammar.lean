import ViewModifiers.Decimal.Numeral
import ViewModifiers.Expression.Basic
import ViewModifiers.Grammar.Rule

/-!
# The grammar of expressions

```text
expression := chain (("..." | "..<" | "..") chain)?
chain      := primary ("." identifier arguments?)*
primary    := array | string | number | "(" expression ")"
            | "." identifier arguments? | ":" identifier
            | identifier arguments?
arguments  := "(" (argument ("," argument)* ","?)? ")"
argument   := (identifier ":")? expression
```

Each rule for a form with inner expressions takes the rule for the inner ones as
a parameter.  `expression` ties the knot by the depth of nesting: an inner
expression starts behind a parenthesis or bracket, so that the length of the
text bounds the depth.
-/

namespace ViewModifiers
namespace Expression
namespace Grammar

open ViewModifiers.Grammar
open ViewModifiers.Grammar.Rule
open Text (Span)

/-! ## Names and literals -/

def isLetter (c : Char) : Bool :=
  c.isAlpha || c == '_'

def isLetterOrDigit (c : Char) : Bool :=
  c.isAlphanum || c == '_'

/-- An ASCII letter or underscore, then letters, underscores and digits. -/
def identifier : Rule String :=
  fun c =>
    match c.rest with
    | [] => .fail false ⟨c, []⟩
    | x :: _ =>
        if isLetter x then
          (takeWhile isLetterOrDigit).run c |>.map String.ofList
        else .fail false ⟨c, []⟩

def unescape : Char → Char
  | 'n' => '\n'
  | 't' => '\t'
  | 'r' => '\r'
  | '0' => '\x00'
  | c => c

def stringBody : List Char → Nat → Reply (List Char)
  | [], offset => .fail true ⟨⟨[], offset⟩, [.char '\\', .construct "closing quote"]⟩
  | '"' :: rest, offset => .ok [] ⟨rest, offset + 1⟩
  | ['\\'], offset => .fail true ⟨⟨[], offset + 1⟩, [.construct "escape sequence"]⟩
  | '\\' :: c :: rest, offset =>
      (stringBody rest (offset + 1 + c.utf8Size)).map (unescape c :: ·)
  | c :: rest, offset => (stringBody rest (offset + c.utf8Size)).map (c :: ·)

def stringLiteral : Rule String := do
  char '"'
  let body ← fun c => stringBody c.rest c.offset
  return String.ofList body

def inWord (n : Int) : Bool :=
  -Int.pow 2 63 ≤ n && n < Int.pow 2 63

def fractionPart : Rule (List Char) := do
  char '.'
  takeWhile1 Char.isDigit

/-- A number: a sign, digits, and a fraction; an integer must fit into 64 bits. -/
def number : Rule Literal := do
  let start ← here
  let sign ← (char '-').optional
  let whole ← takeWhile1 Char.isDigit
  match ← fractionPart.optional with
  | some fraction =>
      return .float
        (Decimal.signedNearest sign.isSome (Decimal.digitsValue (whole ++ fraction))
          (-(fraction.length : Int)))
  | none =>
      let magnitude : Int := Decimal.digitsValue whole
      let value := if sign.isSome then -magnitude else magnitude
      if inWord value then return .integer value
      else fun _ => .fail true ⟨start, [.construct "integer in range"]⟩

def spanned (p : Rule α) : Rule (α × Span) := do
  let start ← offset
  let a ← p
  let stop ← offset
  return (a, ⟨start, stop⟩)

/-! ## Forms with inner expressions -/

section
variable (inner : Rule Expression)

def label : Rule String := do
  let name ← identifier
  layout
  char ':'
  return name

def argument : Rule Argument := do
  let ((name, value), span) ← spanned (do
    let name ← label.optional
    layout
    let value ← inner
    return (name, value))
  return ⟨name, value, span⟩

def argumentList : Rule (List Argument) :=
  bracketed '(' ')' "closing parenthesis" (committed (expecting "argument" (argument inner)))

def array : Rule Expression := do
  let (items, span) ← spanned (bracketed '[' ']' "closing bracket" (committed inner))
  return .array items span

def stringForm : Rule Expression := do
  let (s, span) ← spanned stringLiteral
  return .literal (.string s) span

/-- Parentheses group only; they leave no node. -/
def parenthesised : Rule Expression := do
  char '('
  layout
  let e ← committed inner
  layout
  committed (expecting "closing parenthesis" (char ')'))
  return e

def numberForm : Rule Expression := do
  let (l, span) ← spanned number
  return .literal l span

/-- A point, a name, and the arguments that follow at once. -/
def memberSuffix : Rule (String × Option (List Argument)) := do
  char '.'
  let name ← identifier
  let arguments ← (argumentList inner).optional
  return (name, arguments)

def implicitMember : Rule Expression := do
  let ((name, arguments), span) ← spanned (memberSuffix inner)
  return .implicitMember name arguments span

def atom : Rule Expression := do
  let (name, span) ← spanned (do
    char ':'
    committed (expecting "atom name" identifier))
  return .atom name span

/-- The name that a reference is written for: one string without a label. -/
def referenceTarget : List Argument → Option String
  | [⟨none, .literal (.string s) _, _⟩] => some s
  | _ => none

def nameMeaning (name : String) (arguments : Option (List Argument)) (span : Span) :
    Except String Expression :=
  match arguments with
  | none =>
      if name = "true" then .ok (.literal (.boolean true) span)
      else if name = "false" then .ok (.literal (.boolean false) span)
      else if name = "nil" then .ok (.literal .nil span)
      else .ok (.identifier name span)
  | some arguments =>
      if name = "attr" then
        match referenceTarget arguments with
        | some target => .ok (.attributeRef target span)
        | none => .error "attr(\"name\")"
      else if name = "event" then
        match referenceTarget arguments with
        | some target => .ok (.eventRef target span)
        | none => .error "event(\"name\")"
      else .ok (.call name arguments span)

/-- A name with or without arguments; a malformed reference is a committed failure at its start. -/
def nameOrCall : Rule Expression := do
  let start ← here
  let ((name, arguments), span) ← spanned (do
    let name ← identifier
    let arguments ← (argumentList inner).optional
    return (name, arguments))
  match nameMeaning name arguments span with
  | .ok e => return e
  | .error expected => fun _ => .fail true ⟨start, [.construct expected]⟩

def primary : Rule Expression :=
  expecting "expression" (oneOf
    [array inner, stringForm, parenthesised inner, numberForm, implicitMember inner, atom,
      nameOrCall inner])

/-- Members of a base; the first thing that is no member ends the chain. -/
def members (start : Nat) : Nat → Expression → Rule Expression
  | 0, base => return base
  | left + 1, base => do
      match ← (do char '.'; identifier).attempt with
      | none => return base
      | some name =>
          let arguments ← (argumentList inner).optional
          let stop ← offset
          members start left (.member base name arguments ⟨start, stop⟩)

/-- A primary expression with its members; each member takes a point, so the length bounds them. -/
def chain : Rule Expression := do
  let start ← offset
  let base ← primary inner
  let c ← here
  members inner start c.rest.length base

def rangeOperator : Rule Bool :=
  oneOf
    [(do word "..."; return true), (do word "..<"; return false), (do word ".."; return false)]

def rangeForm : Rule Expression := do
  let start ← offset
  let lower ← chain inner
  match ← (do layout; rangeOperator).attempt with
  | none => return lower
  | some closed =>
      layout
      let upper ← committed (expecting "range upper bound" (chain inner))
      let stop ← offset
      return .range lower upper closed ⟨start, stop⟩

end

/-- An expression with at most `depth` inner expressions around one another. -/
def expressionWithin : Nat → Rule Expression
  | 0 => refuse
  | depth + 1 => rangeForm (expressionWithin depth)

def expression : Rule Expression :=
  fun c => expressionWithin (c.rest.length + 1) c

/-! ## Argument lists and modifiers -/

/-- Arguments without parentheses, up to the end of the text. -/
def bareArgumentsWithin : Nat → Rule (List Argument)
  | 0 => refuse
  | left + 1 => fun c =>
      if c.rest = [] then .ok [] c
      else
        (do
          let a ← expecting "argument" (argument expression)
          layout
          match ← (char ',').attempt with
          | some _ =>
              layout
              let more ← bareArgumentsWithin left
              return a :: more
          | none => return [a]) c

def bareArguments : Rule (List Argument) := do
  layout
  let c ← here
  bareArgumentsWithin (c.rest.length + 1)

def modifierCall : Rule ModifierCall := do
  let ((name, arguments), span) ← spanned (do
    let name ← expecting "modifier name" identifier
    let arguments ← (do inlineLayout; argumentList expression).optional
    return (name, arguments))
  return ⟨name, arguments.getD [], span⟩

end Grammar
end Expression
end ViewModifiers
