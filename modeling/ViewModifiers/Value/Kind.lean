/-!
# Kinds of values

What a parameter accepts.  The kind of a parameter decides how its argument and
the attributes that the argument refers to are decoded.
-/

namespace ViewModifiers

inductive ValueKind where
  | bool
  | int
  | float
  | string
  /-- Content of a text view: a string, bare or in a call. -/
  | text
  /-- A catalogued enumeration; an option set takes several cases. -/
  | enumeration (name : String) (cases : List String) (isOptionSet : Bool)
  | optional (inner : ValueKind)
  | array (element : ValueKind)
  | range (bound : ValueKind)
  /-- Views, selected among the children of an element. -/
  | view
  /-- An event handler. -/
  | event
  | binding (inner : ValueKind)
  /-- A type without a decoder of its own; its values are kept as expressions. -/
  | structural (typeName : String)
deriving DecidableEq

namespace ValueKind

def typeName : ValueKind → String
  | bool => "Bool"
  | int => "Int"
  | float => "Float"
  | string => "String"
  | text => "Text"
  | enumeration name _ _ => name
  | optional inner => inner.typeName ++ "?"
  | array element => "[" ++ element.typeName ++ "]"
  | range bound => "Range<" ++ bound.typeName ++ ">"
  | view => "View"
  | event => "Event"
  | binding inner => "Binding<" ++ inner.typeName ++ ">"
  | structural name => name

def isOptional : ValueKind → Bool
  | optional _ => true
  | _ => false

def isStructural : ValueKind → Bool
  | structural _ => true
  | _ => false

/-- Whether a reference to an attribute may stand for a value: some attribute text must decode. -/
def acceptsAttribute : ValueKind → Bool
  | view | event => false
  | enumeration _ cases isOptionSet => isOptionSet || !cases.isEmpty
  | optional inner | binding inner => inner.acceptsAttribute
  | range bound => bound.acceptsAttribute
  | bool | int | float | string | text | array _ | structural _ => true

def base : ValueKind → ValueKind
  | optional inner => inner.base
  | k => k

end ValueKind
end ViewModifiers
