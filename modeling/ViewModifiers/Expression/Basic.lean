import ViewModifiers.Text.Place

/-!
# Expressions

The tree of an argument expression, before any type is known: literals, names and
atoms, implicit and chained members, calls, references to attributes and events,
arrays and ranges.  Every node carries the span of the text it was read from.
-/

namespace ViewModifiers

open Text (Span)

/-- A literal; integers are 64-bit words and never wrap, because reading refuses larger ones. -/
inductive Literal where
  | nil
  | boolean (value : Bool)
  | integer (value : Int)
  | float (value : Float)
  | string (value : String)

mutual

inductive Expression where
  /-- `nil`, a truth value, a number or a string. -/
  | literal (value : Literal) (span : Span)
  /-- `:name` -/
  | atom (name : String) (span : Span)
  /-- A bare name. -/
  | identifier (name : String) (span : Span)
  /-- `.name` or `.name(arguments)` -/
  | implicitMember (name : String) (arguments : Option (List Argument)) (span : Span)
  /-- `base.name` or `base.name(arguments)` -/
  | member (base : Expression) (name : String) (arguments : Option (List Argument)) (span : Span)
  /-- `name(arguments)` -/
  | call (name : String) (arguments : List Argument) (span : Span)
  /-- `attr("name")` -/
  | attributeRef (name : String) (span : Span)
  /-- `event("name")` -/
  | eventRef (name : String) (span : Span)
  /-- `[item, item]` -/
  | array (items : List Expression) (span : Span)
  /-- `lower...upper` if closed, `lower..<upper` if not. -/
  | range (lower upper : Expression) (closed : Bool) (span : Span)

structure Argument where
  label : Option String
  value : Expression
  span : Span

end

structure ModifierCall where
  name : String
  arguments : List Argument
  span : Span

namespace Expression

def span : Expression → Span
  | literal _ s | atom _ s | identifier _ s | implicitMember _ _ s | member _ _ _ s
  | call _ _ s | attributeRef _ s | eventRef _ s | array _ s | range _ _ _ s => s

def kind : Expression → String
  | literal .nil _ => "nil"
  | literal (.boolean _) _ => "boolean"
  | literal (.integer _) _ => "integer"
  | literal (.float _) _ => "float"
  | literal (.string _) _ => "string"
  | atom _ _ => "atom"
  | identifier _ _ => "identifier"
  | implicitMember _ _ _ => "implicit member"
  | member _ _ _ _ => "member"
  | call _ _ _ => "call"
  | attributeRef _ _ => "attribute reference"
  | eventRef _ _ => "event reference"
  | array _ _ => "array"
  | range _ _ _ _ => "range"

/-! ## Views of literals and atoms -/

def literal? : Expression → Option Literal
  | literal l _ => some l
  | _ => none

def string? : Expression → Option String
  | literal (.string s) _ => some s
  | _ => none

def integer? : Expression → Option Int
  | literal (.integer n) _ => some n
  | _ => none

def float? : Expression → Option Float
  | literal (.float x) _ => some x
  | literal (.integer n) _ => some (Float.ofInt n)
  | _ => none

def boolean? : Expression → Option Bool
  | literal (.boolean b) _ => some b
  | _ => none

def atom? : Expression → Option String
  | atom name _ => some name
  | _ => none

def isNil : Expression → Bool
  | literal .nil _ => true
  | _ => false

end Expression

/-!
## References inside an expression

An expression is live if it is, or contains at any depth, a reference to an
attribute or an event.
-/

mutual

def Expression.containsReference : Expression → Bool
  | .attributeRef _ _ | .eventRef _ _ => true
  | .literal _ _ | .atom _ _ | .identifier _ _ => false
  | .implicitMember _ none _ => false
  | .implicitMember _ (some arguments) _ => Argument.anyReference arguments
  | .member base _ none _ => base.containsReference
  | .member base _ (some arguments) _ =>
      base.containsReference || Argument.anyReference arguments
  | .call _ arguments _ => Argument.anyReference arguments
  | .array items _ => Expression.anyReference items
  | .range lower upper _ _ => lower.containsReference || upper.containsReference

def Argument.anyReference : List Argument → Bool
  | [] => false
  | ⟨_, value, _⟩ :: rest => value.containsReference || Argument.anyReference rest

def Expression.anyReference : List Expression → Bool
  | [] => false
  | item :: rest => item.containsReference || Expression.anyReference rest

end

theorem Argument.anyReference_eq_any (arguments : List Argument) :
    Argument.anyReference arguments = arguments.any fun a => a.value.containsReference := by
  induction arguments with
  | nil => simp [Argument.anyReference]
  | cons a rest ih => cases a; simp [Argument.anyReference, ih]

theorem Expression.anyReference_eq_any (items : List Expression) :
    Expression.anyReference items = items.any Expression.containsReference := by
  induction items with
  | nil => simp [Expression.anyReference]
  | cons e rest ih => simp [Expression.anyReference, ih]

end ViewModifiers
