import ViewModifiers.Decimal.Layout
import ViewModifiers.Expression.Basic

/-!
# Printing expressions

An expression is printed in the syntax it is read in: one space behind a colon
and behind a comma, none elsewhere, half-open ranges with `..<`, and no
parentheses around an inner expression.
-/

namespace ViewModifiers

def Literal.escape (c : Char) : List Char :=
  if c == '"' then ['\\', '"']
  else if c == '\\' then ['\\', '\\']
  else if c == '\n' then ['\\', 'n']
  else if c == '\t' then ['\\', 't']
  else if c == '\r' then ['\\', 'r']
  else [c]

def Literal.quote (s : String) : String :=
  String.ofList ('"' :: s.toList.flatMap Literal.escape ++ ['"'])

def Literal.render : Literal → String
  | .nil => "nil"
  | .boolean true => "true"
  | .boolean false => "false"
  | .integer n => toString n
  | .float x => Decimal.Layout.expression.text x
  | .string s => Literal.quote s

mutual

def Expression.render : Expression → String
  | .literal l _ => l.render
  | .atom name _ => ":" ++ name
  | .identifier name _ => name
  | .implicitMember name none _ => "." ++ name
  | .implicitMember name (some arguments) _ =>
      "." ++ name ++ "(" ++ Argument.renderList arguments ++ ")"
  | .member base name none _ => base.render ++ "." ++ name
  | .member base name (some arguments) _ =>
      base.render ++ "." ++ name ++ "(" ++ Argument.renderList arguments ++ ")"
  | .call name arguments _ => name ++ "(" ++ Argument.renderList arguments ++ ")"
  | .attributeRef name _ => "attr(" ++ Literal.quote name ++ ")"
  | .eventRef name _ => "event(" ++ Literal.quote name ++ ")"
  | .array items _ => "[" ++ Expression.renderList items ++ "]"
  | .range lower upper closed _ =>
      lower.render ++ (if closed then "..." else "..<") ++ upper.render

def Argument.renderList : List Argument → String
  | [] => ""
  | [⟨none, value, _⟩] => value.render
  | [⟨some label, value, _⟩] => label ++ ": " ++ value.render
  | ⟨none, value, _⟩ :: rest => value.render ++ ", " ++ Argument.renderList rest
  | ⟨some label, value, _⟩ :: rest =>
      label ++ ": " ++ value.render ++ ", " ++ Argument.renderList rest

def Expression.renderList : List Expression → String
  | [] => ""
  | [item] => item.render
  | item :: rest => item.render ++ ", " ++ Expression.renderList rest

end

def Argument.render (a : Argument) : String :=
  Argument.renderList [a]

def ModifierCall.render (m : ModifierCall) : String :=
  m.name ++ "(" ++ Argument.renderList m.arguments ++ ")"

end ViewModifiers
