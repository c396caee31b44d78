import ViewModifiers.Grammar.Rule
import ViewModifiers.Signature.TypeExpr
import ViewModifiers.Text.Quoting

/-!
# The grammar of types

```text
type      := ("some" | "any" | "inout") type | attribute* function
function  := postfix (effects "->" type)?
postfix   := primary ("?" | "!")*
primary   := "(" (element ("," element)*)? ")" | "[" type (":" type)? "]" | name
name      := identifier arguments? ("." identifier arguments?)*
arguments := "<" type ("," type)* ">"
element   := (identifier identifier? ":")? type "..."?
```

A parenthesised list is the parameters of a function if an arrow follows, else a
tuple, or the type itself if it holds just one.  The rule for an inner type is a
parameter of the others; the length of the text bounds the depth of nesting.
-/

namespace ViewModifiers
namespace TypeExpr
namespace Grammar

open ViewModifiers.Grammar
open ViewModifiers.Grammar.Rule
open Text (Quoting)

/-! ## Names and attributes -/

def isNameStart (extra : List Char) (c : Char) : Bool :=
  c.isAlpha || c ∈ extra

def isNamePart (c : Char) : Bool :=
  c.isAlphanum || c == '_'

def plainName (extra : List Char) : Rule String :=
  fun c =>
    match c.rest with
    | x :: rest =>
        if isNameStart extra x then
          (takeWhile isNamePart ⟨rest, c.offset + x.utf8Size⟩).map
            fun cs => String.ofList (x :: cs)
        else .fail false ⟨c, []⟩
    | [] => .fail false ⟨c, []⟩

def graveMark : Char := '\x60'

def markedName : Rule String := do
  char graveMark
  let name ← plainName ['_']
  char graveMark
  return name

/-- A name, possibly marked; the marks are not part of it. -/
def identifier : Rule String :=
  markedName.orElse (plainName ['_', '$'])

def qualifiedName : Rule String := do
  let parts ← separated1 (char '.') identifier
  return String.intercalate "." parts

/-- The text up to the parenthesis that closes `depth` others and one more, and the rest. -/
def closeParens : Quoting → Nat → List Char → Option (List Char × List Char)
  | _, _, [] => none
  | q, depth, c :: rest =>
      let further (depth : Nat) :=
        (closeParens (q.step c) depth rest).map fun r => (c :: r.1, r.2)
      if q = .outside ∧ c = ')' then
        match depth with
        | 0 => some ([], rest)
        | depth + 1 => further depth
      else if q = .outside ∧ c = '(' then further (depth + 1)
      else further depth

/-- The text within balanced parentheses; if they do not close, the failure is committed. -/
def balancedParens : Rule String := do
  let start ← here
  char '('
  fun c =>
    match closeParens .outside 0 c.rest with
    | some (inner, rest) =>
        .ok (String.ofList inner) ⟨rest, c.offset + Text.utf8Length inner + 1⟩
    | none => .fail true ⟨start, [.construct "closing parenthesis"]⟩

structure Decoration where
  name : String
  arguments : Option String

def decoration : Rule Decoration := do
  char '@'
  let name ← qualifiedName
  let arguments ← balancedParens.optional
  return ⟨name, arguments⟩

def decorations : Rule (List Decoration) :=
  many (do layout; decoration)

/-- Whether a function is asynchronous, and whether it throws. -/
def effects : Rule (Bool × Bool) := do
  let isAsync ← (do word "async"; layout).optional
  let throws ← (do
    oneOf [(do word "throws"; let _ ← balancedParens.optional), word "rethrows"]
    layout).optional
  return (isAsync.isSome, throws.isSome)

/-! ## Types -/

section
variable (inner : Rule TypeExpr)

def worded (text : String) (build : TypeExpr → TypeExpr) : Rule TypeExpr := do
  word text
  layout1
  let t ← inner
  return build t

def elementLabel : Rule Unit := do
  let _ ← identifier
  let _ ← (do layout1; identifier).optional
  layout
  char ':'
  notFollowedBy (char ':')
  layout

def tupleElement : Rule TypeExpr := do
  let _ ← elementLabel.optional
  let t ← inner
  let _ ← (word "...").optional
  return t

def tupleItems : Rule (List TypeExpr) := do
  char '('
  layout
  let items ← separated (spacedChar ',') (tupleElement inner)
  layout
  committed (expecting "closing parenthesis" (char ')'))
  return items

def collection : Rule TypeExpr := do
  char '['
  layout
  let key ← inner
  let value ← (do spacedChar ':'; inner).optional
  layout
  committed (expecting "closing bracket" (char ']'))
  match value with
  | some value => return .dictionary key value
  | none => return .array key

def genericArguments : Rule (List TypeExpr) := do
  char '<'
  let arguments ← separated1 (spacedChar ',') (do layout; inner)
  layout
  char '>'
  return arguments

def nameStep : Rule (String × Option (List TypeExpr)) := do
  let name ← (do char '.'; identifier).attempt
  match name with
  | none => refuse
  | some name =>
      let arguments ← (genericArguments inner).optional
      return (name, arguments)

def lastArguments (first : Option (List TypeExpr))
    (steps : List (String × Option (List TypeExpr))) : List TypeExpr :=
  (steps.foldl (fun found step => step.2.or found) first).getD []

def namedType : Rule TypeExpr := do
  let first ← identifier
  let arguments ← (genericArguments inner).optional
  let steps ← many (nameStep inner)
  return .named (first :: steps.map Prod.fst) (lastArguments arguments steps)

/-- A parenthesised list is not yet a type: an arrow may follow. -/
inductive Primary where
  | list (items : List TypeExpr)
  | type (t : TypeExpr)

def Primary.toType : Primary → TypeExpr
  | list [t] => t
  | list items => .tuple items
  | type t => t

def Primary.parameters : Primary → List TypeExpr
  | list items => items
  | type t => [t]

def primary : Rule Primary :=
  oneOf [
    (do return .list (← tupleItems inner)),
    (do return .type (← collection inner)),
    (do return .type (← namedType inner))]

def applyMarks (p : Primary) : Nat → Primary
  | 0 => p
  | n + 1 => applyMarks (.type (.optional p.toType)) n

def postfixForm : Rule Primary := do
  let base ← primary inner
  let marks ← takeWhile fun c => c == '?' || c == '!'
  return applyMarks base marks.length

def arrow : Rule ((Bool × Bool) × TypeExpr) := do
  layout
  let e ← effects
  word "->"
  layout
  let result ← committed inner
  return (e, result)

def functionForm : Rule TypeExpr := do
  let base ← postfixForm inner
  match ← (arrow inner).optional with
  | none => return base.toType
  | some ((isAsync, throws), result) =>
      return .function base.parameters result isAsync throws

def attributedForm : Rule TypeExpr := do
  let _ ← many (do let _ ← decoration; layout)
  functionForm inner

def typeForm : Rule TypeExpr :=
  oneOf [
    worded inner "some" .someOf,
    worded inner "any" .anyOf,
    worded inner "inout" .inoutOf,
    attributedForm inner]

end

/-- A type with at most `depth` types around one another. -/
def typeWithin : Nat → Rule TypeExpr
  | 0 => refuse
  | depth + 1 => typeForm (typeWithin depth)

def type : Rule TypeExpr :=
  fun c => typeWithin (c.rest.length + 1) c

end Grammar
end TypeExpr
end ViewModifiers
