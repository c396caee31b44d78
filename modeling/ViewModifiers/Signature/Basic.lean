import ViewModifiers.Platform.Availability
import ViewModifiers.Signature.TypeExpr

/-!
# Signatures

A signature is one declaration of an operation: its generic parameters with
their constraints, its parameters, where it is available and what it returns.
-/

namespace ViewModifiers

structure GenericParameter where
  name : String
  constraints : List TypeExpr

/-- A parameter; without a label its argument is written bare. -/
structure Parameter where
  label : Option String
  name : String
  type : TypeExpr
  default : Option String
  attributes : List String
  isVariadic : Bool

namespace Parameter

def closureArity? (p : Parameter) : Option Nat :=
  p.type.arity? <|> (p.type.optionalInner?).bind TypeExpr.arity?

def isClosure (p : Parameter) : Bool :=
  p.type.isFunction || (p.type.optionalInner?).any TypeExpr.isFunction

/-- The last name of an attribute marks a builder if it ends in `Builder`. -/
def isBuilderName (name : String) : Bool :=
  let last := (Text.splitAt '.' name.toList).getLastD []
  Text.startsWith "Builder".toList.reverse last.reverse

def isContentBuilder (p : Parameter) : Bool :=
  p.attributes.any isBuilderName

def selectorLabel (p : Parameter) : String :=
  p.label.getD "_"

end Parameter

structure Signature where
  name : String
  generics : List GenericParameter
  parameters : List Parameter
  availability : Availability
  returnType : Option TypeExpr
  line : Nat

namespace Signature

def isGeneric (s : Signature) (name : String) : Bool :=
  s.generics.any fun g => g.name == name

def constraintOf? (s : Signature) (name : String) : Option TypeExpr :=
  (s.generics.find? fun g => g.name == name).bind fun g => g.constraints.head?

/-- A name with its argument labels, such as `background(alignment:content:)`. -/
def selectorText (name : String) (labels : List String) : String :=
  name ++ "(" ++ String.join (labels.map (· ++ ":")) ++ ")"

def selector (s : Signature) : String :=
  selectorText s.name (s.parameters.map Parameter.selectorLabel)

end Signature
end ViewModifiers
