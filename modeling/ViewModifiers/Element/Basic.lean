/-!
# Elements

Identities of live elements, selections among their children, and what an
attribute of an element holds before it is decoded.
-/

namespace ViewModifiers

structure ElementId where
  number : Nat
deriving DecidableEq

def ElementId.text (id : ElementId) : String :=
  "#" ++ toString id.number

inductive Selector where
  /-- The children whose `template` attribute has the name. -/
  | template (name : String)
  /-- The children with the tag. -/
  | tag (name : String)
  | all
deriving DecidableEq

def Selector.text : Selector → String
  | template name => ":" ++ name
  | tag name => "<" ++ name ++ ">"
  | all => "*"

/-- A child subtree that someone else will render. -/
structure ElementHandle where
  element : ElementId
  tag : String
deriving DecidableEq

structure EventHandle where
  element : ElementId
  handler : String
deriving DecidableEq

structure CellId where
  element : ElementId
  attributeName : String
deriving DecidableEq

def CellId.text (id : CellId) : String :=
  id.element.text ++ "." ++ id.attributeName

/-- What an attribute holds: a text, or nothing but its presence. -/
inductive RawValue where
  | text (value : String)
  | flag
deriving DecidableEq

namespace RawValue

def text? : RawValue → Option String
  | text s => some s
  | flag => none

def display : RawValue → String
  | text s => s
  | flag => "<flag>"

end RawValue
end ViewModifiers
