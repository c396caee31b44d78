import ViewModifiers.Failure
import ViewModifiers.Signature.Declaration

/-!
# Diagnostics

What people are told about an interface, its compilation and the modifiers they
wrote.  A diagnostic is a cause; its severity, code, message and place follow
from it.
-/

namespace ViewModifiers

inductive Severity where
  | error
  | warning
  | info
deriving DecidableEq

def Severity.text : Severity → String
  | error => "error"
  | warning => "warning"
  | info => "info"

inductive DiagnosticCode where
  | declaration
  | validation
  | undecodableDefault
  | structuralType
  | unreadableExpression
  | unknownOperation
  | noOverload
  | missingAttribute
  | undecodableAttribute
deriving DecidableEq

def DiagnosticCode.text : DiagnosticCode → String
  | declaration => "schema-parse"
  | validation => "schema-validation"
  | undecodableDefault => "undecodable-default"
  | structuralType => "opaque-type"
  | unreadableExpression => "expression-parse"
  | unknownOperation => "unknown-operation"
  | noOverload => "no-matching-overload"
  | missingAttribute => "missing-attribute"
  | undecodableAttribute => "attribute-decode"

def ModifierError.code : ModifierError → DiagnosticCode
  | unreadable _ => .unreadableExpression
  | unknownOperation _ => .unknownOperation
  | noOverload _ _ => .noOverload
  | missingAttribute _ => .missingAttribute
  | undecodableAttribute _ _ _ => .undecodableAttribute

inductive Exclusion where
  /-- Its name starts with an underscore. -/
  | reserved
  /-- The configuration lists it. -/
  | configured
  /-- A list of wanted operations is given, and it is not on it. -/
  | notWanted
  /-- None of its overloads can be called. -/
  | noValidOverload
deriving DecidableEq

def Exclusion.reason : Exclusion → String
  | reserved => "name starts with '_'"
  | configured => "excluded by configuration"
  | notWanted => "not in the include list"
  | noValidOverload => "every overload requires closure arguments for a content builder"

inductive Diagnostic where
  /-- A declaration cannot be read. -/
  | skippedDeclaration (line : Nat) (cause : DeclarationError)
  /-- A wanted operation is not declared. -/
  | missingOperation (name : String)
  /-- An operation is left out as a whole. -/
  | excludedOperation (name : String) (cause : Exclusion)
  /-- An overload is left out. -/
  | droppedOverload (name : String) (line : Nat)
  /-- A parameter has a type without a decoder of its own. -/
  | structuralParameter (operation : String) (line : Nat) (parameter typeName : String)
  /-- A default value does not decode as the parameter's type. -/
  | undecodableDefault (operation : String) (line : Nat) (parameter text typeName : String)
  /-- A modifier cannot be read; the text is the one it was read from. -/
  | unreadable (source : String) (cause : ReadError)
  /-- A modifier fails. -/
  | failed (cause : ModifierError)

namespace Diagnostic

def severity : Diagnostic → Severity
  | skippedDeclaration _ _ | missingOperation _ | excludedOperation _ _ | droppedOverload _ _
  | undecodableDefault _ _ _ _ _ => .warning
  | structuralParameter _ _ _ _ => .info
  | unreadable _ _ | failed _ => .error

def code : Diagnostic → DiagnosticCode
  | skippedDeclaration _ _ => .declaration
  | missingOperation _ | excludedOperation _ _ | droppedOverload _ _ => .validation
  | structuralParameter _ _ _ _ => .structuralType
  | undecodableDefault _ _ _ _ _ => .undecodableDefault
  | unreadable _ _ => .unreadableExpression
  | failed cause => cause.code

def message : Diagnostic → String
  | skippedDeclaration _ cause => "skipped declaration: " ++ cause.message
  | missingOperation name => "requested operation '" ++ name ++ "' not found in schema"
  | excludedOperation name cause => "operation '" ++ name ++ "' excluded: " ++ cause.reason
  | droppedOverload name _ =>
      "overload of '" ++ name ++ "' dropped: content builder requires closure arguments"
  | structuralParameter _ _ parameter typeName =>
      "parameter '" ++ parameter ++ "' of type " ++ typeName ++ " is decoded structurally"
  | undecodableDefault _ _ parameter text typeName =>
      "default '" ++ text ++ "' of parameter '" ++ parameter ++ "' does not decode as " ++
        typeName ++ "; kept verbatim"
  | unreadable _ cause => cause.fullMessage
  | failed cause => cause.message

/-- Where the cause stands, if it stands in a text. -/
def extent? : Diagnostic → Option Text.Extent
  | skippedDeclaration line _ | droppedOverload _ line | structuralParameter _ line _ _
  | undecodableDefault _ line _ _ _ => some (.ofLine line)
  | unreadable source cause => some (.ofOffsets source cause.offset cause.offset)
  | missingOperation _ | excludedOperation _ _ | failed _ => none

def operation? : Diagnostic → Option String
  | missingOperation name | excludedOperation name _ | droppedOverload name _
  | structuralParameter name _ _ _ | undecodableDefault name _ _ _ _ => some name
  | skippedDeclaration _ _ | unreadable _ _ => none
  | failed cause => cause.operation?

def text (d : Diagnostic) : String :=
  let place := match d.extent? with
    | some e => " " ++ toString e.start.line ++ ":" ++ toString e.start.column
    | none => ""
  let about := match d.operation? with
    | some name => " (" ++ name ++ ")"
    | none => ""
  d.severity.text ++ "[" ++ d.code.text ++ "]" ++ place ++ about ++ ": " ++ d.message

def counts (ds : List Diagnostic) : Nat × Nat :=
  (ds.countP fun d => d.severity = .error, ds.countP fun d => d.severity = .warning)

end Diagnostic

def ModifierError.diagnosticIn (source : String) : ModifierError → Diagnostic
  | unreadable cause => .unreadable source cause
  | e => .failed e

end ViewModifiers
