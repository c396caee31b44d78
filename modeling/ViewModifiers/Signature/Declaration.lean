import ViewModifiers.Signature.Basic
import ViewModifiers.Signature.TypeGrammar

/-!
# Declarations

A function declaration is read from its text: attributes, modifiers, name,
generic clause, parameter clause, effects, return type and requirements.  What
follows, such as a body, is not looked at.
-/

namespace ViewModifiers

open Grammar (Cursor Reply Rule Stuck Expectation)

/-- Why a text is no declaration, or no type. -/
inductive DeclarationError where
  /-- A construct was expected before a piece of text. -/
  | expected (construct : String) (near : String)
  /-- The text has a function keyword, but something else cannot be read. -/
  | unsupported (near : String)
  /-- The text has no function keyword. -/
  | notFunction
  /-- The interface ended within the parameters. -/
  | unterminated
  /-- A type is followed by something else. -/
  | unexpected (rest : String)
deriving DecidableEq

namespace DeclarationError

def nearText (near : String) : String :=
  if near.isEmpty then "end of declaration" else "`" ++ near ++ "`"

def message : DeclarationError → String
  | expected construct near => "expected " ++ construct ++ " near " ++ nearText near
  | unsupported near => "unsupported syntax near " ++ nearText near
  | notFunction => "not a function declaration"
  | unterminated => "unterminated parameter clause"
  | unexpected rest => "unexpected `" ++ rest ++ "`"

def firstConstruct : List Expectation → Option String
  | [] => none
  | .construct name :: _ => some name
  | .char _ :: rest => firstConstruct rest

/-- The error of a rule that was stuck in a text; at most 24 characters are shown. -/
def ofStuck (text : String) (s : Stuck) : DeclarationError :=
  let near := String.ofList ((Text.dropBlanks s.place.rest).take 24)
  match firstConstruct s.expected with
  | some construct => .expected construct near
  | none =>
      if Text.containsPiece "func".toList text.toList then .unsupported near else .notFunction

end DeclarationError

def TypeExpr.parse (text : String) : Except DeclarationError TypeExpr :=
  match (do let t ← TypeExpr.Grammar.type; Rule.layout; return t : Rule TypeExpr)
      (Cursor.ofString (Text.trim text)) with
  | .ok t next =>
      if next.rest = [] then .ok t else .error (.unexpected (String.ofList next.rest))
  | .fail _ stuck => .error (.ofStuck text stuck)

namespace Signature
namespace Grammar

open ViewModifiers.Grammar.Rule
open TypeExpr.Grammar (Decoration identifier decorations balancedParens effects type)
open Text (Quoting)

/-- The words that may stand before the function keyword. -/
def declarationModifiers : List String :=
  ["public", "internal", "open", "nonisolated", "static", "class", "final", "override",
    "mutating", "nonmutating", "dynamic", "optional", "required", "convenience", "indirect",
    "isolated", "consuming", "borrowing"]

def declarationModifier : Rule Unit := do
  let _ ← identifier.satisfying fun w => w ∈ declarationModifiers
  let _ ← balancedParens.optional

/-! ## Generic parameters and requirements -/

def constraints : Rule (List TypeExpr) :=
  separated1 (spacedChar '&') type

def genericParameter : Rule GenericParameter := do
  let _ ← (do word "each"; layout1).optional
  let name ← identifier
  let constraints ← (do spacedChar ':'; constraints).optional
  return ⟨name, constraints.getD []⟩

def genericClause : Rule (List GenericParameter) := do
  char '<'
  let parameters ← committed (separated1 (spacedChar ',') (do layout; genericParameter))
  layout
  committed (expecting "closing '>'" (char '>'))
  return parameters

def requirementSubject : TypeExpr → String
  | .named [name] _ => name
  | t => t.text

def requirement : Rule (List (String × TypeExpr)) := do
  let subject ← type
  layout
  match ← (word "==").attempt with
  | some _ =>
      layout
      let _ ← type
      return []
  | none =>
      char ':'
      layout
      let found ← constraints
      return found.map fun t => (requirementSubject subject, t)

def whereClause : Rule (List (String × TypeExpr)) := do
  word "where"
  layout1
  let requirements ← separated1 (spacedChar ',') requirement
  return requirements.flatten

def addRequirement (generics : List GenericParameter) (r : String × TypeExpr) :
    List GenericParameter :=
  match generics with
  | [] => []
  | g :: rest =>
      if g.name = r.1 then { g with constraints := g.constraints ++ [r.2] } :: rest
      else g :: addRequirement rest r

/-! ## Parameters -/

def typeSpecifiers : List String :=
  ["__owned", "__shared", "borrowing", "consuming", "sending"]

/-- The characters of a default value: up to a comma or closing bracket of the parameter clause. -/
def defaultExtent : Quoting → Nat → List Char → List Char
  | _, _, [] => []
  | q, depth, c :: rest =>
      if q = .outside then
        if c = '(' ∨ c = '[' ∨ c = '\x7b' then c :: defaultExtent (q.step c) (depth + 1) rest
        else if c = ')' ∨ c = ']' ∨ c = '\x7d' then
          match depth with
          | 0 => []
          | depth + 1 => c :: defaultExtent (q.step c) depth rest
        else if c = ',' ∧ depth = 0 then []
        else c :: defaultExtent (q.step c) depth rest
      else c :: defaultExtent (q.step c) depth rest

def defaultValue : Rule String :=
  fun c =>
    let extent := defaultExtent .outside 0 c.rest
    if Text.allBlank extent then .fail true ⟨c, [.construct "default value"]⟩
    else
      .ok (String.ofList (Text.trimChars extent))
        ⟨c.rest.drop extent.length, c.offset + Text.utf8Length extent⟩

def secondName : Rule String := do
  layout1
  let name ← identifier
  lookAhead (do layout; char ':')
  return name

def parameter : Rule Parameter := do
  let leading ← decorations
  layout
  let first ← expecting "parameter name" identifier
  let second ← secondName.optional
  layout
  committed (expecting "':' after parameter name" (char ':'))
  let trailing ← decorations
  layout
  let _ ← many (do
    let _ ← identifier.satisfying fun w => w ∈ typeSpecifiers
    layout1)
  let t ← committed (expecting "parameter type" type)
  let dots ← (word "...").optional
  let default ← (do spacedChar '='; defaultValue).optional
  return {
    label := if first = "_" then none else some first
    name := second.getD first
    type := t
    default := default
    attributes := (leading ++ trailing).map Decoration.name
    isVariadic := dots.isSome }

def parameterClause : Rule (List Parameter) := do
  char '('
  layout
  let parameters ← separated (spacedChar ',') parameter
  layout
  committed (expecting "closing parenthesis" (char ')'))
  return parameters

/-! ## Declarations -/

def statedAvailability (decorations : List Decoration) : Availability :=
  decorations.foldl
    (fun a decoration =>
      match decoration.arguments with
      | some arguments =>
          if decoration.name = "available" then a.merge (.parse arguments) else a
      | none => a)
    .always

def function (line : Nat) : Rule Signature := do
  let decorations ← decorations
  let _ ← many (do layout; declarationModifier)
  layout
  word "func"
  layout1
  let name ← expecting "function name" identifier
  let generics ← (do layout; genericClause).optional
  layout
  let parameters ← expecting "parameter clause" parameterClause
  layout
  let _ ← effects
  let returnType ← (do layout; word "->"; layout; committed type).optional
  let requirements ← (do layout; whereClause).optional
  return {
    name := name
    generics := (requirements.getD []).foldl addRequirement (generics.getD [])
    parameters := parameters
    availability := statedAvailability decorations
    returnType := returnType
    line := line }

end Grammar

def parse (text : String) (line : Nat) : Except DeclarationError Signature :=
  match Grammar.function line (Cursor.ofString text) with
  | .ok s _ => .ok s
  | .fail _ stuck => .error (.ofStuck text stuck)

end Signature
end ViewModifiers
