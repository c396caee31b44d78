import ViewModifiers.Expression.Reading
import ViewModifiers.Text.Quoted

/-!
# Why a modifier fails

An argument may not decode as its parameter's type, an argument list may not
bind to an overload, and a modifier may fail as a whole when it is read,
dispatched or resolved.  Each failure is a cause with one message.
-/

namespace ViewModifiers

/-- An expression that is none of the forms its type accepts. -/
structure DecodeError where
  offset : Nat
  expected : List String
  found : String
deriving DecidableEq

namespace DecodeError

def ofExpression (e : Expression) (expected : List String) : DecodeError :=
  ⟨e.span.start, expected, e.kind⟩

def message (e : DecodeError) : String :=
  "expected " ++ String.intercalate " or " e.expected ++ ", found " ++ e.found ++
    " at offset " ++ toString e.offset

end DecodeError

/-- Why an argument list does not bind to an overload. -/
inductive BindError where
  /-- The argument of a parameter without a default does not decode. -/
  | undecodable (label : String) (cause : DecodeError)
  /-- A parameter without a default has no argument. -/
  | missing (label : String)
  /-- An argument is left over. -/
  | unexpected (argument : String)
deriving DecidableEq

def BindError.message : BindError → String
  | undecodable label cause => "'" ++ label ++ "': " ++ cause.message
  | missing label => "missing argument for '" ++ label ++ "'"
  | unexpected argument => "unexpected argument '" ++ argument ++ "'"

inductive ModifierError where
  /-- The modifier cannot be read. -/
  | unreadable (cause : ReadError)
  /-- No operation has the name. -/
  | unknownOperation (name : String)
  /-- No overload binds the arguments; each attempt is given by its selector. -/
  | noOverload (name : String) (attempts : List (String × BindError))
  /-- An attribute that an argument refers to is absent and has no default. -/
  | missingAttribute (name : String)
  /-- An attribute has a value that does not decode. -/
  | undecodableAttribute (name value expected : String)
deriving DecidableEq

namespace ModifierError

def message : ModifierError → String
  | unreadable cause => "Parse error: " ++ cause.description
  | unknownOperation name => "Unknown operation '" ++ name ++ "'"
  | noOverload name attempts =>
      "No overload of '" ++ name ++ "' matches the arguments (" ++
        String.intercalate "; " (attempts.map fun a => a.1 ++ ": " ++ a.2.message) ++ ")"
  | missingAttribute name => "Missing attribute '" ++ name ++ "'"
  | undecodableAttribute name value expected =>
      "Attribute '" ++ name ++ "' value " ++ Text.quoted value ++ " is not a valid " ++ expected

def operation? : ModifierError → Option String
  | unknownOperation name | noOverload name _ => some name
  | _ => none

end ModifierError
end ViewModifiers
