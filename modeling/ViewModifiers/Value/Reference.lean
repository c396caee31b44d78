import ViewModifiers.Value.Basic
import ViewModifiers.Value.Kind

/-!
# References

A bound argument is a constant, or says what of the live element it stands for.
A reference never holds a resolved value.
-/

namespace ViewModifiers

inductive Reference where
  | constant (value : Value)
  /-- The value of an attribute, or a default where the attribute is absent. -/
  | attributeValue (name : String) (decoder : ValueKind) (default : Option Value)
  | event (handler : String)
  | viewSlot (selector : Selector)
  /-- The cell of an attribute, for a binding. -/
  | tracked (name : String) (decoder : ValueKind)

namespace Reference

def isConstant : Reference → Bool
  | constant _ => true
  | _ => false

def constant? : Reference → Option Value
  | constant v => some v
  | _ => none

def display : Reference → String
  | constant v => v.display
  | attributeValue name _ _ => "attr(" ++ Text.quoted name ++ ")"
  | event handler => "event(" ++ Text.quoted handler ++ ")"
  | viewSlot selector => "slot(" ++ selector.text ++ ")"
  | tracked name _ => "tracked(" ++ Text.quoted name ++ ")"

def withDefault (default : Option Value) : Reference → Reference
  | attributeValue name decoder none => attributeValue name decoder default
  | r => r

end Reference
end ViewModifiers
