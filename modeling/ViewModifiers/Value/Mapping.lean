import ViewModifiers.Configuration.Basic
import ViewModifiers.Signature.Basic
import ViewModifiers.Value.Kind

/-!
# From types to kinds

The kind of the values of a parameter follows from its declared type, the
configuration and the generic parameters of the signature.  Types that constrain
each other could be followed for ever; at a fixed depth a type is taken as it is.
-/

namespace ViewModifiers
namespace ValueKind

def unmapped (t : TypeExpr) : ValueKind :=
  structural t.text

def rangeTypes : List String :=
  ["Range", "ClosedRange", "PartialRangeFrom", "PartialRangeThrough"]

def ofCanonicalName? (name : String) : Option ValueKind :=
  if name = "Bool" then some bool
  else if name = "Int" then some int
  else if name = "Double" then some float
  else if name = "String" then some string
  else if name = "Text" then some text
  else if name = "View" then some view
  else none

def ofProtocolName? (name : String) : Option ValueKind :=
  if name = "View" then some view
  else if name = "StringProtocol" then some string
  else if name = "BinaryInteger" ∨ name = "FixedWidthInteger" then some int
  else if name = "BinaryFloatingPoint" then some float
  else none

def ofName (c : Configuration) (t : TypeExpr) (name : String) : ValueKind :=
  match c.enumerations.find? name with
  | some e => enumeration name e.cases e.isOptionSet
  | none => (ofCanonicalName? (c.resolveAlias name)).getD (unmapped t)

section
variable (inner : TypeExpr → ValueKind) (c : Configuration) (s : Signature)

def ofProtocol (t : TypeExpr) : ValueKind :=
  (ofProtocolName? t.unqualifiedName).getD (inner t)

def ofNamed (t : TypeExpr) (name : String) : ValueKind :=
  match t.optionalInner? with
  | some wrapped => optional (inner wrapped)
  | none =>
      match t.genericArguments with
      | [argument] =>
          if name = "Array" then array (inner argument)
          else if name = "Binding" then binding (inner argument)
          else if name ∈ rangeTypes then range (inner argument)
          else ofName c t name
      | _ => ofName c t name

def ofTypeForm (t : TypeExpr) : ValueKind :=
  match t with
  | .optional wrapped => optional (inner wrapped)
  | .array element => array (inner element)
  | .inoutOf wrapped => inner wrapped
  | .function _ _ _ _ => event
  | .someOf constraint | .anyOf constraint => ofProtocol inner constraint
  | .dictionary _ _ | .tuple _ => unmapped t
  | .named _ _ =>
      let name := t.unqualifiedName
      if s.isGeneric name then
        match s.constraintOf? name with
        | some constraint => ofProtocol inner constraint
        | none => unmapped t
      else ofNamed inner c t name

end

def ofTypeWithin (c : Configuration) (s : Signature) : Nat → TypeExpr → ValueKind
  | 0 => unmapped
  | depth + 1 => ofTypeForm (ofTypeWithin c s depth) c s

def ofType (c : Configuration) (s : Signature) (t : TypeExpr) : ValueKind :=
  ofTypeWithin c s 9 t

def ofParameter (c : Configuration) (s : Signature) (p : Parameter) : ValueKind :=
  if p.isContentBuilder then
    match p.type.optionalInner? with
    | some _ => optional view
    | none => view
  else ofType c s p.type

end ValueKind
end ViewModifiers
