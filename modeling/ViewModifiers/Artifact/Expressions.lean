import ViewModifiers.Artifact.Values
import ViewModifiers.Expression.Basic

/-!
# Stored expressions

The JSON form of expressions with their spans.  The name of a form is the only
member of an object around its content.
-/

namespace ViewModifiers

namespace Text.Span

def toJson (s : Text.Span) : Json :=
  .object [("start", .int s.start), ("end", .int s.stop)]

def ofJson? (j : Json) : Option Text.Span := do
  let fields ← j.record? ["start", "end"]
  return ⟨← Json.field? fields "start" Json.nat64?, ← Json.field? fields "end" Json.nat64?⟩

end Text.Span

namespace Literal

def toJson : Literal → Json
  | nil => .string "Nil"
  | boolean b => .object [("Boolean", .bool b)]
  | integer n => .object [("Integer", .int n)]
  | float x => .object [("Float", .float x)]
  | string s => .object [("String", .string s)]

def ofJson? (j : Json) : Option Literal :=
  match j with
  | .object [("Boolean", content)] => content.bool?.map boolean
  | .object [("Integer", content)] => content.int64?.map integer
  | .object [("Float", content)] => content.float?.map float
  | .object [("String", content)] => content.string?.map string
  | j => if j.unitTag? = some "Nil" then some nil else none

end Literal

/-! ## Writing -/

def Expression.formJson (name : String) (members : List (String × Json)) (s : Text.Span) : Json :=
  .object [(name, .object (members ++ [("span", s.toJson)]))]

mutual

def Expression.toJson : Expression → Json
  | .literal l s => Expression.formJson "Literal" [("value", l.toJson)] s
  | .atom name s => Expression.formJson "Atom" [("name", .string name)] s
  | .identifier name s => Expression.formJson "Identifier" [("name", .string name)] s
  | .implicitMember name none s =>
      Expression.formJson "ImplicitMember" [("name", .string name), ("arguments", .null)] s
  | .implicitMember name (some arguments) s =>
      Expression.formJson "ImplicitMember"
        [("name", .string name), ("arguments", .array (Argument.listToJson arguments))] s
  | .member base name none s =>
      Expression.formJson "Member"
        [("base", base.toJson), ("name", .string name), ("arguments", .null)] s
  | .member base name (some arguments) s =>
      Expression.formJson "Member"
        [("base", base.toJson), ("name", .string name),
          ("arguments", .array (Argument.listToJson arguments))] s
  | .call name arguments s =>
      Expression.formJson "Call"
        [("name", .string name), ("arguments", .array (Argument.listToJson arguments))] s
  | .attributeRef name s => Expression.formJson "AttributeRef" [("name", .string name)] s
  | .eventRef name s => Expression.formJson "EventRef" [("name", .string name)] s
  | .array items s =>
      Expression.formJson "Array" [("items", .array (Expression.listToJson items))] s
  | .range lower upper closed s =>
      Expression.formJson "Range"
        [("lower", lower.toJson), ("upper", upper.toJson), ("closed", .bool closed)] s

def Argument.listToJson : List Argument → List Json
  | [] => []
  | ⟨label, value, s⟩ :: rest =>
      .object [("label", label.elim .null .string), ("value", value.toJson), ("span", s.toJson)] ::
        Argument.listToJson rest

def Expression.listToJson : List Expression → List Json
  | [] => []
  | e :: rest => e.toJson :: Expression.listToJson rest

end

def Argument.toJson (a : Argument) : Json :=
  .object [("label", a.label.elim .null .string), ("value", a.value.toJson),
    ("span", a.span.toJson)]

def ModifierCall.toJson (m : ModifierCall) : Json :=
  .object [("name", .string m.name), ("arguments", .array (Argument.listToJson m.arguments)),
    ("span", m.span.toJson)]

/-! ## Reading -/

def Argument.ofJsonWith? (inner : Json → Option Expression) (j : Json) : Option Argument := do
  let fields ← j.record? ["label", "value", "span"]
  return ⟨← Json.optionalField? fields "label" Json.string?, ← Json.field? fields "value" inner,
    ← Json.field? fields "span" Text.Span.ofJson?⟩

namespace Expression

def memberNames : String → List String
  | "Literal" => ["value", "span"]
  | "Atom" | "Identifier" | "AttributeRef" | "EventRef" => ["name", "span"]
  | "ImplicitMember" | "Call" => ["name", "arguments", "span"]
  | "Member" => ["base", "name", "arguments", "span"]
  | "Array" => ["items", "span"]
  | "Range" => ["lower", "upper", "closed", "span"]
  | _ => []

/-- Reads an expression with at most `depth` expressions around one another. -/
def ofJsonWithin : Nat → Json → Option Expression
  | 0, _ => none
  | depth + 1, .object [(form, content)] => do
      let fields ← content.record? (memberNames form)
      let span ← Json.field? fields "span" Text.Span.ofJson?
      let name := Json.field? fields "name" Json.string?
      let arguments := Json.listOf? (Argument.ofJsonWith? (ofJsonWithin depth))
      match form with
      | "Literal" => return literal (← Json.field? fields "value" Literal.ofJson?) span
      | "Atom" => return atom (← name) span
      | "Identifier" => return identifier (← name) span
      | "AttributeRef" => return attributeRef (← name) span
      | "EventRef" => return eventRef (← name) span
      | "ImplicitMember" =>
          return implicitMember (← name) (← Json.optionalField? fields "arguments" arguments) span
      | "Member" =>
          return member (← Json.field? fields "base" (ofJsonWithin depth)) (← name)
            (← Json.optionalField? fields "arguments" arguments) span
      | "Call" => return call (← name) (← Json.field? fields "arguments" arguments) span
      | "Array" =>
          return array (← Json.field? fields "items" (Json.listOf? (ofJsonWithin depth))) span
      | "Range" =>
          return range (← Json.field? fields "lower" (ofJsonWithin depth))
            (← Json.field? fields "upper" (ofJsonWithin depth))
            (← Json.field? fields "closed" Json.bool?) span
      | _ => none
  | _ + 1, _ => none

def ofJson? (j : Json) : Option Expression :=
  ofJsonWithin j.depth j

end Expression
end ViewModifiers
